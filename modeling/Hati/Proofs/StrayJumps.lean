import Hati.Proofs.Blame

namespace Hati

/-!
# Stray jumps

Whether a jump strays can be read off a program.  A statement ends with a jump only if
that jump stands in it outside all loops, functions and classes, and a loop never does.
So in a program in which every jump stands in a loop of its own function no function
and no program ever ends with a jump.

The second statement is about all code that runs, wherever it comes from: functions and
classes that were stored in the heap by an earlier program, methods, getters,
constructors, destructors and the callbacks of the event loop.  It is therefore shown
of whole sessions, for which the heap draws on orderly code only.
-/

/-! ## Orderly code -/

namespace StmtNode

/-- The statement is a loop. -/
def isLoop : StmtNode → Bool
  | .for .. | .forIn .. | .while .. | .doWhile .. => true
  | _ => false

end StmtNode

/-- No jump stands in a loop itself: what strays stands in no loop. -/
theorem Stmt.Strays.not_isLoop {jump : Jump} {stmt : Stmt} (strays : stmt.Strays jump) :
    stmt.node.isLoop = false := by
  cases strays <;> rfl

/-- No jump leaves any function that is declared in the node. -/
def Node.IsOrderly (node : Node) : Prop :=
  ∀ decl, node.Contains (.function decl) → ∀ jump, ¬ StrayAmong decl.body jump

/-- A node is orderly if it is no function that a jump leaves, and its parts are. -/
theorem Node.IsOrderly.intro {node : Node}
    (self : ∀ decl, node = .function decl → ∀ jump, ¬ StrayAmong decl.body jump)
    (parts : ∀ part ∈ node.parts, part.IsOrderly) : node.IsOrderly := by
  intro decl contains
  rcases Relation.ReflTransGen.cases_head contains with isDecl | ⟨part, direct, rest⟩
  · exact self decl isDecl
  · exact parts part direct decl rest

namespace Request

/-- The code that is handed in is orderly; a program is as orderly as a function. -/
def IsOrderly : Request → Prop
  | execute program => (∀ jump, ¬ StrayAmong program jump) ∧
    ∀ stmt ∈ program, (Node.code (.stmt stmt)).IsOrderly
  | eval expr _ => (Node.code (.expr expr)).IsOrderly
  | exec stmt _ => (Node.code (.stmt stmt)).IsOrderly
  | call .. | construct .. | delete .. | drain .. => True

end Request

/-- Requests after one another, each with some fuel and however they end, in which only
orderly code is handed in. -/
inductive OrderlySession (start : Machine) : Machine → Prop where
  | opened : OrderlySession start start
  | asked {machine : Machine} (before : OrderlySession start machine) (fuel : Nat)
    (request : Request) (orderly : request.IsOrderly) :
    OrderlySession start ((request.run (.ofFuel fuel)).leaves machine)

/-! ## Two blames -/

namespace Blame

/-- Anything may fail, wherever it stands. -/
def anything : Blame where
  known _ := True
  place _ := True
  admits _ := True
  known_parts _ _ _ _ := trivial
  known_place _ _ := trivial
  admits_placed _ _ _ _ := trivial
  admits_stray _ _ _ _ _ := trivial
  admits_orAt _ _ _ _ := trivial

theorem anything_accepts (machine : Machine) : anything.Accepts machine :=
  ⟨⟨fun _ _ _ _ _ => trivial, fun _ _ _ _ => trivial⟩, fun _ _ _ => trivial⟩

/-- All code is orderly, so no jump is ever blamed. -/
def orderly : Blame where
  known := Node.IsOrderly
  place _ := True
  admits fault := fault.cause.isStrayJump = false
  known_parts _ _ known inside decl contains := known decl (.head inside contains)
  known_place _ _ := trivial
  admits_placed _ _ ordinary _ := ordinary
  admits_stray decl _ jump known strays := absurd strays (known decl .refl jump)
  admits_orAt _ _ ordinary _ := ordinary

end Blame

namespace Request

theorem IsOrderly.known {request : Request} (orderly : request.IsOrderly) :
    ∀ code ∈ request.code, (Node.code code).IsOrderly := by
  intro code member
  cases request with
  | execute program =>
      rcases List.mem_map.mp member with ⟨stmt, inProgram, rfl⟩
      exact orderly.2 stmt inProgram
  | eval expr scope => exact List.mem_singleton.mp member ▸ orderly
  | exec stmt scope => exact List.mem_singleton.mp member ▸ orderly
  | _ => cases member

/-- No orderly request blames a jump. -/
theorem limits {request : Request} (orderly : request.IsOrderly) (fuel : Nat) :
    Blame.orderly.Limits (request.run (.ofFuel fuel)) := by
  apply Blame.limits_request fuel orderly.known fun _ => trivial
  rintro program rfl stmt member jump strays
  exact absurd ⟨stmt, member, strays⟩ (orderly.1 jump)

end Request

theorem OrderlySession.accepts {settings : Settings} {outputLimit : Option Nat}
    {threads : ThreadPolicy} {machine : Machine}
    (session : OrderlySession (.new settings outputLimit threads) machine) :
    Blame.orderly.Accepts machine := by
  induction session with
  | opened => exact Blame.accepts_new .orderly settings outputLimit threads
  | asked before fuel request orderly ih => exact (request.limits orderly fuel _ ih).1

/-! ## Jumps -/

namespace Evaluator

theorem strays_of_exec {fuel : Nat} {stmt : Stmt} {scope : FrameRef} {machine after : Machine}
    {jump : Jump} (ends : (ofFuel fuel).exec stmt scope machine = .ok jump.signal after) :
    stmt.Strays jump := by
  have covers := Blame.covers_ofFuel .anything fuel
  have admitted : Blame.anything.logic.Admits machine stmt scope := Blame.admits_stmt trivial
  have concludes := covers.exec trivial admitted machine (Blame.anything_accepts machine)
  rw [ends] at concludes
  exact concludes.2.1.jumps jump rfl

/-- A statement ends with a jump only if that jump strays in it, and a loop never does.
While only orderly code is handed to an interpreter, no request fails because of a jump
outside of a loop, and no callback of the event loop has failed because of one. -/
theorem jumps_are_syntactic :
    (∀ fuel stmt scope machine after (jump : Jump),
      (ofFuel fuel).exec stmt scope machine = .ok jump.signal after → stmt.Strays jump) ∧
    (∀ fuel stmt scope machine after (jump : Jump), stmt.node.isLoop = true →
      (ofFuel fuel).exec stmt scope machine ≠ .ok jump.signal after) ∧
    ∀ settings outputLimit threads machine,
      OrderlySession (.new settings outputLimit threads) machine →
      (∀ fuel (request : Request) fault after, request.IsOrderly →
        request.run (.ofFuel fuel) machine = .error (.fault fault) after →
        fault.cause.isStrayJump = false) ∧
      ∀ fault job, .callbackFailed fault job ∈ machine.journal →
        fault.cause.isStrayJump = false := by
  refine ⟨?_, ?_, ?_⟩
  · exact fun fuel stmt scope machine after jump => strays_of_exec
  · intro fuel stmt scope machine after jump isLoop ends
    have notLoop := (strays_of_exec ends).not_isLoop
    rw [isLoop] at notLoop
    cases notLoop
  · intro settings outputLimit threads machine session
    constructor
    · intro fuel request fault after orderly failed
      exact (request.limits orderly fuel machine session.accepts).2 fault after failed
    · exact session.accepts.journal

/-- A jump at the end of a branch. -/
def branch : Stmt :=
  ⟨.if ⟨.bool true, ⟨2, 5⟩⟩ [⟨.break, ⟨3, 4⟩⟩] none, ⟨2, 2⟩⟩

/-- A function whose loop the branch leaves. -/
def leaving : FunctionDecl :=
  ⟨some "leave", [], [⟨.while ⟨.bool true, ⟨1, 9⟩⟩ [branch], ⟨1, 2⟩⟩], ⟨0, 0⟩⟩

/-- The function is declared and called. -/
def leavingProgram : List Stmt :=
  [⟨.function leaving, ⟨0, 0⟩⟩,
    ⟨.expression ⟨.call ⟨.name "leave", ⟨5, 0⟩⟩ [] false, ⟨5, 5⟩⟩, ⟨5, 0⟩⟩]

theorem leavingProgram_isOrderly : (Request.execute leavingProgram).IsOrderly := by
  have leaf : ∀ span, (Node.code (.expr ⟨.bool true, span⟩)).IsOrderly :=
    fun _ => .intro nofun nofun
  have branchOrderly : (Node.code (.stmt branch)).IsOrderly :=
    .intro nofun (List.forall_mem_cons.mpr
      ⟨leaf _, List.forall_mem_singleton.mpr (.intro nofun nofun)⟩)
  have loopOrderly : (Node.code (.stmt ⟨.while ⟨.bool true, ⟨1, 9⟩⟩ [branch], ⟨1, 2⟩⟩)).IsOrderly :=
    .intro nofun (List.forall_mem_cons.mpr
      ⟨leaf _, List.forall_mem_singleton.mpr branchOrderly⟩)
  have functionOrderly : (Node.function leaving).IsOrderly := by
    apply Node.IsOrderly.intro
    · rintro _ ⟨⟩ jump ⟨stmt, member, strays⟩
      rcases List.mem_singleton.mp member with rfl
      cases strays
    · exact List.forall_mem_singleton.mpr loopOrderly
  constructor
  · rintro jump ⟨stmt, member, strays⟩
    rcases List.mem_cons.mp member with rfl | member
    · cases strays
    · rcases List.mem_singleton.mp member with rfl
      cases strays
  · intro stmt member
    rcases List.mem_cons.mp member with rfl | member
    · exact .intro nofun (List.forall_mem_singleton.mpr functionOrderly)
    · rcases List.mem_singleton.mp member with rfl
      exact .intro nofun (List.forall_mem_singleton.mpr (.intro nofun
        (List.forall_mem_singleton.mpr (.intro nofun nofun))))

/-- The jump strays in the branch, but neither in the loop nor in the program. -/
theorem jumps_are_syntactic_leaving :
    branch.Strays .break ∧
      (∀ after, (ofFuel 5).exec ⟨.while ⟨.bool true, {}⟩ [branch], {}⟩ ⟨0⟩ (.new {} none) ≠
        .ok Jump.break.signal after) ∧
      ∀ fault after, (Request.execute leavingProgram).run (.ofFuel 9) (.new {} none) =
        .error (.fault fault) after → fault.cause.isStrayJump = false := by
  have leaves : ∃ after, (ofFuel 5).exec branch ⟨0⟩ (.new {} none) =
      .ok Jump.break.signal after := ⟨_, rfl⟩
  rcases leaves with ⟨after, ends⟩
  refine ⟨jumps_are_syntactic.1 _ _ _ _ _ _ ends, ?_, ?_⟩
  · exact fun after => jumps_are_syntactic.2.1 _ _ _ _ after .break rfl
  · exact fun fault after =>
      (jumps_are_syntactic.2.2 {} none .lenient _ .opened).1 9 _ fault after
        leavingProgram_isOrderly

end Evaluator

end Hati
