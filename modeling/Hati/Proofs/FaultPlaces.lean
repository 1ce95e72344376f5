import Hati.Proofs.Blame

namespace Hati

/-!
# Faults point into the program

A fault reports the place of an expression, a statement or a declared function, and a
program that fails is told a place in its own text.  Places are handed on through calls,
getters, built-in functions, what these call back, constructors and conversions, and all
of them hand on what they were given.  A timer that is refused a thread fails without a
place of its own, and the call that asked for the timer lends its place; so nothing is
ever blamed on the evaluator itself unless the program claims its place.
-/

/-- The node stands in the program, at any depth. -/
def Node.StandsIn (program : List Stmt) (node : Node) : Prop :=
  ∃ stmt ∈ program, (Node.code (.stmt stmt)).Contains node

/-- The nodes of a program are known, and any fault at the place of one is admitted. -/
def Blame.within (program : List Stmt) : Blame where
  known := Node.StandsIn program
  place span := ∃ node : Node, node.StandsIn program ∧ node.span = span
  admits fault := ∃ node : Node, node.StandsIn program ∧ node.span = fault.span
  known_parts := by
    rintro whole part ⟨stmt, member, contains⟩ inside
    exact ⟨stmt, member, contains.tail inside⟩
  known_place node standsIn := ⟨node, standsIn, rfl⟩
  admits_placed _ _ _ here := here
  admits_stray decl _ _ standsIn _ := ⟨Node.function decl, standsIn, rfl⟩
  admits_orAt := by
    intro fault span located here
    by_cases isBuiltin : fault.span = .builtin
    · simpa [Fault.orAt, Span.orElse, isBuiltin] using here
    · simpa [Fault.orAt, Span.orElse, isBuiltin] using located

namespace Evaluator

/-- A program that fails on a new machine fails at the place of one of its nodes.  So if
every node has a place in the text, the fault has one, too. -/
theorem fault_located {settings : Settings} {outputLimit : Option Nat} {threads : ThreadPolicy}
    {fuel : Nat} {program : List Stmt} {fault : Fault} {after : Machine}
    (failed : (ofFuel fuel).execute program (.new settings outputLimit threads) =
      .error (.fault fault) after) :
    (∃ node : Node, node.StandsIn program ∧ node.span = fault.span) ∧
      ((∀ node : Node, node.StandsIn program → node.span ≠ .builtin) → fault.span ≠ .builtin) := by
  have known : ∀ stmt ∈ program, Node.StandsIn program (.code (.stmt stmt)) :=
    fun stmt member => ⟨stmt, member, .refl⟩
  have covers := Blame.covers_ofFuel (.within program) fuel
  have accepted := Blame.accepts_new (.within program) settings outputLimit threads
  have limits : (Blame.within program).Limits ((ofFuel fuel).execute program) := by
    refine .ofRelates fun world => covers.execute known (fun _ _ stmt member => ?_) ?_
    · exact Blame.admits_stmt (known stmt member)
    · exact fun stmt member _ _ => ⟨_, known stmt member, rfl⟩
  have located := (limits _ accepted).2 fault after failed
  refine ⟨located, fun written => ?_⟩
  rcases located with ⟨node, standsIn, same⟩
  exact same ▸ written node standsIn

/-- A built-in function calls back, and the function that it calls starts a timer. -/
def mapping : List Stmt :=
  let timer : Expr := ⟨.call ⟨.name GlobalFunction.nap.name, ⟨1, 25⟩⟩ [] false, ⟨1, 28⟩⟩
  let function : Expr := ⟨.function ⟨none, [], [⟨.return (some timer), ⟨1, 18⟩⟩], ⟨1, 9⟩⟩, ⟨1, 9⟩⟩
  let method : Expr := ⟨.member ⟨.list [⟨.text "a", ⟨1, 1⟩⟩], ⟨1, 0⟩⟩ "map" false, ⟨1, 5⟩⟩
  [⟨.expression ⟨.call method [function] false, ⟨1, 5⟩⟩, ⟨1, 0⟩⟩]

/-- If the system refuses the timer its thread, then the fault, which has no place of its
own, reports the call that starts the timer and not the one that calls back. -/
theorem fault_located_callback : ∃ after,
    (ofFuel 12).execute mapping (.new {} none fun _ => some "no thread is left") =
      .error (.fault ⟨.threadRefused "no thread is left", ⟨1, 28⟩⟩) after ∧
    ∃ node : Node, node.StandsIn mapping ∧ node.span = ⟨1, 28⟩ := by
  have fails : ((ofFuel 12).execute mapping).fault?
      (.new {} none fun _ => some "no thread is left") =
      some ⟨.threadRefused "no thread is left", ⟨1, 28⟩⟩ := by
    decide +kernel
  rcases Run.fault?_eq_some.mp fails with ⟨after, ended⟩
  exact ⟨after, ended, (fault_located ended).1⟩

end Evaluator

end Hati
