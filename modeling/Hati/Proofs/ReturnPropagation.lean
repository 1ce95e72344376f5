import Hati.Interpreter

namespace Hati

/-!
# A return ends the statements around it

A compound statement runs blocks: the members of a block or a branch, or the body of a
loop in each of its passes.  It returns a value exactly if a statement of such a block
does, and then it stops in the very state which that statement left: nothing else is
executed after it.

A counting loop executes two more statements directly, one before its first pass and one
after each pass.  How these end is not looked at, so a return in their place is lost.
-/

namespace Run

variable {α β : Type} {before after : Machine}

theorem bind_eq_ok {run : Run α} {next : α → Run β} {result : β} :
    (run >>= next) before = .ok result after ↔
      ∃ value middle, run before = .ok value middle ∧ next value middle = .ok result after := by
  show EStateM.bind run next before = .ok result after ↔ _
  unfold EStateM.bind
  cases run before with
  | ok value middle =>
      constructor
      · exact fun goesOn => ⟨value, middle, rfl, goesOn⟩
      · rintro ⟨_, _, ⟨⟩, goesOn⟩
        exact goesOn
  | error halt middle => simp

theorem pure_eq_ok {value result : α} :
    (pure value : Run α) before = .ok result after ↔ value = result ∧ before = after := by
  show EStateM.Result.ok value before = .ok result after ↔ _
  simp

theorem bind_of_ok {run : Run α} {next : α → Run β} {value : α}
    (ended : run before = .ok value after) : (run >>= next) before = next value after := by
  show EStateM.bind run next before = _
  rw [EStateM.bind, ended]

theorem bind_of_error {run : Run α} {next : α → Run β} {halt : Halt}
    (ended : run before = .error halt after) : (run >>= next) before = .error halt after := by
  show EStateM.bind run next before = _
  rw [EStateM.bind, ended]

/-- Runs that agree at a state go on alike as long as what follows them does. -/
theorem bind_apply_congr {first second : Run α} {next other : α → Run β}
    (same : first before = second before)
    (rest : ∀ value state, second before = .ok value state → next value state = other value state) :
    (first >>= next) before = (second >>= other) before := by
  show EStateM.bind first next before = EStateM.bind second other before
  unfold EStateM.bind
  rw [same]
  cases comes : second before with
  | ok value state => exact rest value state comes
  | error halt state => rfl

/-- A number of passes after each of which a loop goes on. -/
inductive Laps (pass : Run Lap) : Nat → Machine → Machine → Prop where
  | none (machine : Machine) : Laps pass 0 machine machine
  | again {count : Nat} {machine next last : Machine} (goesOn : pass machine = .ok .again next)
    (rest : Laps pass count next last) : Laps pass (count + 1) machine last

/-- A loop returns if one of its passes does. -/
theorem repeatLaps_returned {pass : Run Lap} {value : Value} (fuel : Nat) :
    ∀ machine, repeatLaps pass fuel machine = .ok (.returned value) after ↔
      ∃ count start, count < fuel ∧ Laps pass count machine start ∧
        pass start = .ok (.done (.returned value)) after := by
  induction fuel with
  | zero =>
      intro machine
      constructor
      · intro impossible
        cases impossible
      · rintro ⟨count, start, impossible, -⟩
        exact absurd impossible (Nat.not_lt_zero count)
  | succ fuel ih =>
      intro machine
      rw [repeatLaps, bind_eq_ok]
      constructor
      · rintro ⟨lap, next, passed, rest⟩
        cases lap with
        | again =>
            rcases (ih next).mp rest with ⟨count, start, fewer, laps, returns⟩
            exact ⟨count + 1, start, Nat.succ_lt_succ fewer, .again passed laps, returns⟩
        | done signal =>
            rcases pure_eq_ok.mp rest with ⟨rfl, rfl⟩
            exact ⟨0, machine, Nat.succ_pos fuel, .none machine, passed⟩
      · rintro ⟨count, start, fewer, laps, returns⟩
        cases laps with
        | none => exact ⟨.done (.returned value), after, returns, rfl⟩
        | again goesOn rest =>
            exact ⟨.again, _, goesOn,
              (ih _).mpr ⟨_, start, Nat.lt_of_succ_lt_succ fewer, rest, returns⟩⟩

end Run

theorem Signal.lap_eq_returned {signal : Signal} {value : Value} :
    signal.lap = .done (.returned value) ↔ signal = .returned value := by
  cases signal <;> simp [Signal.lap]

namespace StmtNode

/-- The statement runs blocks. -/
def isCompound : StmtNode → Bool
  | .block _ | .if .. | .for .. | .forIn .. | .while .. | .doWhile .. => true
  | _ => false

end StmtNode

namespace Evaluator

variable {ev : Evaluator} {scope : FrameRef} {after : Machine} {value : Value}

/-! ## Blocks -/

/-- A block that is run from a state comes to execute one of its members. -/
inductive Comes (ev : Evaluator) (scope : FrameRef) :
    List Stmt → Machine → Stmt → Machine → Prop where
  | here (stmt : Stmt) (rest : List Stmt) (machine : Machine) :
    Comes ev scope (stmt :: rest) machine stmt machine
  | later {stmt member : Stmt} {rest : List Stmt} {machine next start : Machine}
    (proceeds : ev.exec stmt scope machine = .ok .proceed next)
    (comes : Comes ev scope rest next member start) :
    Comes ev scope (stmt :: rest) machine member start

theorem block_returned (body : List Stmt) :
    ∀ machine, ev.block scope body machine = .ok (.returned value) after ↔
      ∃ member start, ev.Comes scope body machine member start ∧
        ev.exec member scope start = .ok (.returned value) after := by
  induction body with
  | nil =>
      intro machine
      constructor
      · intro impossible
        cases impossible
      · rintro ⟨member, start, impossible, -⟩
        cases impossible
  | cons stmt rest ih =>
      intro machine
      rw [block, Run.bind_eq_ok]
      constructor
      · rintro ⟨signal, next, ran, goesOn⟩
        cases signal with
        | proceed =>
            rcases (ih next).mp goesOn with ⟨member, start, comes, returns⟩
            exact ⟨member, start, .later ran comes, returns⟩
        | returned result =>
            rcases Run.pure_eq_ok.mp goesOn with ⟨same, rfl⟩
            exact ⟨stmt, machine, .here stmt rest machine, same ▸ ran⟩
        | broke => cases goesOn
        | continued => cases goesOn
      · rintro ⟨member, start, comes, returns⟩
        cases comes with
        | here => exact ⟨.returned value, after, returns, rfl⟩
        | later proceeds comes =>
            exact ⟨.proceed, _, proceeds, (ih _).mpr ⟨member, start, comes, returns⟩⟩

/-! ## Iteration -/

/-- The scope of one pass of an iteration. -/
def passScope (scope : FrameRef) (first : String) (second : Option String)
    (pair : Value × Value) : Run FrameRef := do
  let inner ← Run.newScope scope
  Run.bind inner first { value := pair.1 }
  if let some second := second then Run.bind inner second { value := pair.2 }
  pure inner

theorem iterate_cons (ev : Evaluator) (scope : FrameRef) (first : String) (second : Option String)
    (body : List Stmt) (pair : Value × Value) (pairs : List (Value × Value)) :
    ev.iterate scope first second body (pair :: pairs) = (do
      let inner ← passScope scope first second pair
      match (← ev.block inner body).lap with
      | .again => ev.iterate scope first second body pairs
      | .done signal => pure signal) := by
  funext machine
  cases second <;> rfl

/-- An iteration comes to run its body in a scope. -/
inductive Visits (ev : Evaluator) (scope : FrameRef) (first : String) (second : Option String)
    (body : List Stmt) : List (Value × Value) → Machine → FrameRef → Machine → Prop where
  | here {pair : Value × Value} (pairs : List (Value × Value)) {machine start : Machine}
    {inner : FrameRef} (entered : passScope scope first second pair machine = .ok inner start) :
    Visits ev scope first second body (pair :: pairs) machine inner start
  | later {pair : Value × Value} {pairs : List (Value × Value)}
    {machine middle next start : Machine} {outer inner : FrameRef} {signal : Signal}
    (entered : passScope scope first second pair machine = .ok outer middle)
    (ran : ev.block outer body middle = .ok signal next) (goesOn : signal.lap = .again)
    (visits : Visits ev scope first second body pairs next inner start) :
    Visits ev scope first second body (pair :: pairs) machine inner start

theorem iterate_returned {first : String} {second : Option String} {body : List Stmt}
    (pairs : List (Value × Value)) :
    ∀ machine, ev.iterate scope first second body pairs machine = .ok (.returned value) after ↔
      ∃ inner start, ev.Visits scope first second body pairs machine inner start ∧
        ev.block inner body start = .ok (.returned value) after := by
  induction pairs with
  | nil =>
      intro machine
      constructor
      · intro impossible
        cases impossible
      · rintro ⟨inner, start, impossible, -⟩
        cases impossible
  | cons pair pairs ih =>
      intro machine
      rw [iterate_cons, Run.bind_eq_ok]
      constructor
      · rintro ⟨inner, middle, entered, rest⟩
        rcases Run.bind_eq_ok.mp rest with ⟨signal, next, ran, goesOn⟩
        cases lap : signal.lap with
        | again =>
            rw [lap] at goesOn
            rcases (ih next).mp goesOn with ⟨last, start, visits, returns⟩
            exact ⟨last, start, .later entered ran lap visits, returns⟩
        | done result =>
            rw [lap] at goesOn
            rcases Run.pure_eq_ok.mp goesOn with ⟨rfl, rfl⟩
            rw [Signal.lap_eq_returned.mp lap] at ran
            exact ⟨inner, middle, .here pairs entered, ran⟩
      · rintro ⟨inner, start, visits, returns⟩
        cases visits with
        | here _ entered =>
            refine ⟨inner, start, entered, Run.bind_eq_ok.mpr ⟨_, after, returns, rfl⟩⟩
        | later entered ran goesOn visits =>
            refine ⟨_, _, entered, Run.bind_eq_ok.mpr ⟨_, _, ran, ?_⟩⟩
            rw [goesOn]
            exact (ih _).mpr ⟨inner, start, visits, returns⟩

/-! ## Passes of a loop -/

theorem scopedBlock_eq_ok {body : List Stmt} {machine : Machine} {signal : Signal} :
    ev.scopedBlock scope body machine = .ok signal after ↔
      ∃ inner start, Run.newScope scope machine = .ok inner start ∧
        ev.block inner body start = .ok signal after :=
  Run.bind_eq_ok

/-- Without a condition to test, a pass returns if the body does. -/
theorem forLap_none_returned {post : Option Stmt} {body : List Stmt} {machine : Machine} :
    ev.forLap scope none post body machine = .ok (.done (.returned value)) after ↔
      ev.scopedBlock scope body machine = .ok (.returned value) after := by
  refine Run.bind_eq_ok.trans ?_
  constructor
  · rintro ⟨goesOn, start, asked, rest⟩
    rcases Run.pure_eq_ok.mp asked with ⟨rfl, rfl⟩
    rcases Run.bind_eq_ok.mp rest with ⟨signal, next, ran, ended⟩
    cases lap : signal.lap with
    | again =>
        rw [lap] at ended
        cases post with
        | none => cases ended
        | some stmt =>
            rcases Run.bind_eq_ok.mp ended with ⟨_, _, -, impossible⟩
            cases impossible
    | done result =>
        rw [lap] at ended
        rcases Run.pure_eq_ok.mp ended with ⟨⟨⟩, rfl⟩
        rw [Signal.lap_eq_returned.mp lap] at ran
        exact ran
  · intro returns
    exact ⟨true, machine, rfl, Run.bind_eq_ok.mpr ⟨.returned value, after, returns, rfl⟩⟩

/-- The condition of a counting loop holds, if it has one. -/
def Tested (ev : Evaluator) (scope : FrameRef) (condition : Option Expr)
    (machine next : Machine) : Prop :=
  match condition with
  | some expr => ev.holds expr scope machine = .ok true next
  | none => machine = next

theorem forLap_returned {condition : Option Expr} {post : Option Stmt} {body : List Stmt}
    {machine : Machine} :
    ev.forLap scope condition post body machine = .ok (.done (.returned value)) after ↔
      ∃ next, ev.Tested scope condition machine next ∧
        ev.scopedBlock scope body next = .ok (.returned value) after := by
  cases condition with
  | none =>
      rw [forLap_none_returned]
      constructor
      · exact fun returns => ⟨machine, rfl, returns⟩
      · rintro ⟨next, rfl, returns⟩
        exact returns
  | some expr =>
      refine Run.bind_eq_ok.trans ?_
      constructor
      · rintro ⟨holds, next, tested, rest⟩
        cases holds with
        | true => exact ⟨next, tested, forLap_none_returned.mp rest⟩
        | false => cases rest
      · rintro ⟨next, tested, returns⟩
        exact ⟨true, next, tested, forLap_none_returned.mpr returns⟩

theorem whileLap_returned {condition : Expr} {body : List Stmt} {machine : Machine} :
    ev.whileLap scope condition body machine = .ok (.done (.returned value)) after ↔
      ∃ next, ev.holds condition scope machine = .ok true next ∧
        ev.scopedBlock scope body next = .ok (.returned value) after := by
  rw [whileLap, Run.bind_eq_ok]
  constructor
  · rintro ⟨holds, next, tested, rest⟩
    cases holds with
    | true =>
        rcases Run.bind_eq_ok.mp rest with ⟨signal, last, ran, ended⟩
        rcases Run.pure_eq_ok.mp ended with ⟨lap, rfl⟩
        rw [Signal.lap_eq_returned.mp lap] at ran
        exact ⟨next, tested, ran⟩
    | false => cases rest
  · rintro ⟨next, tested, returns⟩
    exact ⟨true, next, tested, Run.bind_eq_ok.mpr ⟨_, after, returns, rfl⟩⟩

theorem doWhileLap_returned {condition : Expr} {body : List Stmt} {machine : Machine} :
    ev.doWhileLap scope body condition machine = .ok (.done (.returned value)) after ↔
      ∃ inner start, Run.newScope scope machine = .ok inner start ∧
        ev.block inner body start = .ok (.returned value) after := by
  rw [doWhileLap, Run.bind_eq_ok]
  constructor
  · rintro ⟨inner, start, opened, rest⟩
    rcases Run.bind_eq_ok.mp rest with ⟨signal, next, ran, ended⟩
    cases lap : signal.lap with
    | again =>
        rw [lap] at ended
        rcases Run.bind_eq_ok.mp ended with ⟨holds, _, -, impossible⟩
        cases holds <;> cases impossible
    | done result =>
        rw [lap] at ended
        rcases Run.pure_eq_ok.mp ended with ⟨⟨⟩, rfl⟩
        rw [Signal.lap_eq_returned.mp lap] at ran
        exact ⟨inner, start, opened, ran⟩
  · rintro ⟨inner, start, opened, returns⟩
    exact ⟨inner, start, opened, Run.bind_eq_ok.mpr ⟨_, after, returns, rfl⟩⟩

/-! ## Compound statements -/

/-- The loop is ready for its first pass; how its first statement ended does not matter. -/
def Prepared (ev : Evaluator) (scope : FrameRef) (init : Option Stmt) (machine next : Machine) :
    Prop :=
  match init with
  | some stmt => ∃ signal, ev.exec stmt scope machine = .ok signal next
  | none => machine = next

/-- A statement that is executed in a scope comes to run a block in another one. -/
inductive Opens (ev : Evaluator) (scope : FrameRef) (machine : Machine) :
    StmtNode → List Stmt → FrameRef → Machine → Prop where
  | block {body : List Stmt} {inner : FrameRef} {start : Machine}
    (opened : Run.newScope scope machine = .ok inner start) :
    Opens ev scope machine (.block body) body inner start
  | thenBranch {condition : Expr} {body : List Stmt} {others : Option (List Stmt)}
    {inner : FrameRef} {next start : Machine}
    (tested : ev.holds condition scope machine = .ok true next)
    (opened : Run.newScope scope next = .ok inner start) :
    Opens ev scope machine (.if condition body others) body inner start
  | elseBranch {condition : Expr} {body others : List Stmt} {inner : FrameRef}
    {next start : Machine} (tested : ev.holds condition scope machine = .ok false next)
    (opened : Run.newScope scope next = .ok inner start) :
    Opens ev scope machine (.if condition others (some body)) body inner start
  | forBody {init post : Option Stmt} {condition : Option Expr} {body : List Stmt}
    {outer inner : FrameRef} {begun ready lap next start : Machine} {count : Nat}
    (entered : Run.newScope scope machine = .ok outer begun)
    (prepared : ev.Prepared outer init begun ready) (fewer : count < ev.fuel)
    (laps : Run.Laps (ev.forLap outer condition post body) count ready lap)
    (tested : ev.Tested outer condition lap next)
    (opened : Run.newScope outer next = .ok inner start) :
    Opens ev scope machine (.for init condition post body) body inner start
  | forInBody {first : String} {second : Option String} {iterable : Expr} {body : List Stmt}
    {source : Value} {pairs : List (Value × Value)} {inner : FrameRef}
    {begun ready start : Machine} (evaluated : ev.eval iterable scope machine = .ok source begun)
    (found : ev.iterationPairs source scope iterable.span begun = .ok pairs ready)
    (visits : ev.Visits scope first second body pairs ready inner start) :
    Opens ev scope machine (.forIn first second iterable body) body inner start
  | whileBody {condition : Expr} {body : List Stmt} {inner : FrameRef} {lap next start : Machine}
    {count : Nat} (fewer : count < ev.fuel)
    (laps : Run.Laps (ev.whileLap scope condition body) count machine lap)
    (tested : ev.holds condition scope lap = .ok true next)
    (opened : Run.newScope scope next = .ok inner start) :
    Opens ev scope machine (.while condition body) body inner start
  | doWhileBody {condition : Expr} {body : List Stmt} {inner : FrameRef} {lap start : Machine}
    {count : Nat} (fewer : count < ev.fuel)
    (laps : Run.Laps (ev.doWhileLap scope body condition) count machine lap)
    (opened : Run.newScope scope lap = .ok inner start) :
    Opens ev scope machine (.doWhile body condition) body inner start

section

variable {machine : Machine} {span : Span} {body : List Stmt}

theorem block_returned_iff :
    ev.statement ⟨.block body, span⟩ scope machine = .ok (.returned value) after ↔
      ∃ ran inner start, ev.Opens scope machine (.block body) ran inner start ∧
        ev.block inner ran start = .ok (.returned value) after := by
  refine scopedBlock_eq_ok.trans ?_
  constructor
  · rintro ⟨inner, start, opened, returns⟩
    exact ⟨body, inner, start, .block opened, returns⟩
  · rintro ⟨ran, inner, start, opens, returns⟩
    cases opens with
    | block opened => exact ⟨inner, start, opened, returns⟩

theorem if_returned_iff {condition : Expr} {others : Option (List Stmt)} :
    ev.statement ⟨.if condition body others, span⟩ scope machine = .ok (.returned value) after ↔
      ∃ ran inner start, ev.Opens scope machine (.if condition body others) ran inner start ∧
        ev.block inner ran start = .ok (.returned value) after := by
  refine Run.bind_eq_ok.trans ?_
  constructor
  · rintro ⟨holds, next, tested, rest⟩
    cases holds with
    | true =>
        rcases scopedBlock_eq_ok.mp rest with ⟨inner, start, opened, returns⟩
        exact ⟨body, inner, start, .thenBranch tested opened, returns⟩
    | false =>
        cases others with
        | none => cases rest
        | some other =>
            rcases scopedBlock_eq_ok.mp rest with ⟨inner, start, opened, returns⟩
            exact ⟨other, inner, start, .elseBranch tested opened, returns⟩
  · rintro ⟨ran, inner, start, opens, returns⟩
    cases opens with
    | thenBranch tested opened =>
        exact ⟨true, _, tested, scopedBlock_eq_ok.mpr ⟨inner, start, opened, returns⟩⟩
    | elseBranch tested opened =>
        exact ⟨false, _, tested, scopedBlock_eq_ok.mpr ⟨inner, start, opened, returns⟩⟩

theorem while_returned_iff {condition : Expr} :
    ev.statement ⟨.while condition body, span⟩ scope machine = .ok (.returned value) after ↔
      ∃ ran inner start, ev.Opens scope machine (.while condition body) ran inner start ∧
        ev.block inner ran start = .ok (.returned value) after := by
  refine (Run.repeatLaps_returned ev.fuel machine).trans ?_
  constructor
  · rintro ⟨count, lap, fewer, laps, returns⟩
    rcases whileLap_returned.mp returns with ⟨next, tested, ran⟩
    rcases scopedBlock_eq_ok.mp ran with ⟨inner, start, opened, returns⟩
    exact ⟨body, inner, start, .whileBody fewer laps tested opened, returns⟩
  · rintro ⟨ran, inner, start, opens, returns⟩
    cases opens with
    | whileBody fewer laps tested opened =>
        refine ⟨_, _, fewer, laps, whileLap_returned.mpr ⟨_, tested, ?_⟩⟩
        exact scopedBlock_eq_ok.mpr ⟨inner, start, opened, returns⟩

theorem doWhile_returned_iff {condition : Expr} :
    ev.statement ⟨.doWhile body condition, span⟩ scope machine = .ok (.returned value) after ↔
      ∃ ran inner start, ev.Opens scope machine (.doWhile body condition) ran inner start ∧
        ev.block inner ran start = .ok (.returned value) after := by
  refine (Run.repeatLaps_returned ev.fuel machine).trans ?_
  constructor
  · rintro ⟨count, lap, fewer, laps, returns⟩
    rcases doWhileLap_returned.mp returns with ⟨inner, start, opened, ran⟩
    exact ⟨body, inner, start, .doWhileBody fewer laps opened, ran⟩
  · rintro ⟨ran, inner, start, opens, returns⟩
    cases opens with
    | doWhileBody fewer laps opened =>
        exact ⟨_, _, fewer, laps, doWhileLap_returned.mpr ⟨inner, start, opened, returns⟩⟩

theorem forIn_returned_iff {first : String} {second : Option String} {iterable : Expr} :
    ev.statement ⟨.forIn first second iterable body, span⟩ scope machine =
        .ok (.returned value) after ↔
      ∃ ran inner start,
        ev.Opens scope machine (.forIn first second iterable body) ran inner start ∧
        ev.block inner ran start = .ok (.returned value) after := by
  refine Run.bind_eq_ok.trans ?_
  constructor
  · rintro ⟨source, begun, evaluated, rest⟩
    rcases Run.bind_eq_ok.mp rest with ⟨pairs, ready, found, iterates⟩
    rcases (iterate_returned pairs ready).mp iterates with ⟨inner, start, visits, returns⟩
    exact ⟨body, inner, start, .forInBody evaluated found visits, returns⟩
  · rintro ⟨ran, inner, start, opens, returns⟩
    cases opens with
    | forInBody evaluated found visits =>
        refine ⟨_, _, evaluated, Run.bind_eq_ok.mpr ⟨_, _, found, ?_⟩⟩
        exact (iterate_returned _ _).mpr ⟨inner, start, visits, returns⟩

/-- A counting loop is run from wherever its first statement leaves the machine. -/
theorem for_eq_ok {init post : Option Stmt} {condition : Option Expr} {signal : Signal} :
    ev.statement ⟨.for init condition post body, span⟩ scope machine = .ok signal after ↔
      ∃ outer begun ready, Run.newScope scope machine = .ok outer begun ∧
        ev.Prepared outer init begun ready ∧
        Run.repeatLaps (ev.forLap outer condition post body) ev.fuel ready = .ok signal after := by
  refine Run.bind_eq_ok.trans ?_
  constructor
  · rintro ⟨outer, begun, entered, rest⟩
    cases init with
    | none => exact ⟨outer, begun, begun, entered, rfl, rest⟩
    | some stmt =>
        rcases Run.bind_eq_ok.mp rest with ⟨ignored, ready, prepared, loops⟩
        exact ⟨outer, begun, ready, entered, ⟨ignored, prepared⟩, loops⟩
  · rintro ⟨outer, begun, ready, entered, prepared, loops⟩
    refine ⟨outer, begun, entered, ?_⟩
    cases init with
    | none => exact prepared ▸ loops
    | some stmt =>
        rcases prepared with ⟨ignored, ran⟩
        exact Run.bind_eq_ok.mpr ⟨ignored, ready, ran, loops⟩

theorem for_returned_iff {init post : Option Stmt} {condition : Option Expr} :
    ev.statement ⟨.for init condition post body, span⟩ scope machine =
        .ok (.returned value) after ↔
      ∃ ran inner start, ev.Opens scope machine (.for init condition post body) ran inner start ∧
        ev.block inner ran start = .ok (.returned value) after := by
  refine for_eq_ok.trans ?_
  constructor
  · rintro ⟨outer, begun, ready, entered, prepared, loops⟩
    rcases (Run.repeatLaps_returned ev.fuel ready).mp loops with ⟨count, lap, fewer, laps, returns⟩
    rcases forLap_returned.mp returns with ⟨next, tested, ran⟩
    rcases scopedBlock_eq_ok.mp ran with ⟨inner, start, opened, returns⟩
    exact ⟨body, inner, start, .forBody entered prepared fewer laps tested opened, returns⟩
  · rintro ⟨ran, inner, start, opens, returns⟩
    cases opens with
    | forBody entered prepared fewer laps tested opened =>
        refine ⟨_, _, _, entered, prepared, (Run.repeatLaps_returned ev.fuel _).mpr ?_⟩
        refine ⟨_, _, fewer, laps, forLap_returned.mpr ⟨_, tested, ?_⟩⟩
        exact scopedBlock_eq_ok.mpr ⟨inner, start, opened, returns⟩

end

/-- A statement that a compound statement executes as a member of a block, of a branch or
of the body of a loop. -/
def Executes (ev : Evaluator) (stmt : Stmt) (scope : FrameRef) (machine : Machine)
    (member : Stmt) (inner : FrameRef) (start : Machine) : Prop :=
  ∃ body entered, ev.Opens scope machine stmt.node body inner entered ∧
    ev.Comes inner body entered member start

/-- A compound statement returns a value exactly if a member of a block that it runs
returns that value, and it leaves the machine as that member does. -/
theorem statement_returned_iff (ev : Evaluator) (stmt : Stmt)
    (compound : stmt.node.isCompound = true) (scope : FrameRef) (machine after : Machine)
    (value : Value) :
    ev.statement stmt scope machine = .ok (.returned value) after ↔
      ∃ member inner start, ev.Executes stmt scope machine member inner start ∧
        ev.exec member inner start = .ok (.returned value) after := by
  have blocks : ev.statement stmt scope machine = .ok (.returned value) after ↔
      ∃ body inner entered, ev.Opens scope machine stmt.node body inner entered ∧
        ev.block inner body entered = .ok (.returned value) after := by
    rcases stmt with ⟨node, span⟩
    cases node with
    | block body => exact block_returned_iff
    | «if» condition thenBranch elseBranch => exact if_returned_iff
    | «for» init condition post body => exact for_returned_iff
    | forIn first second iterable body => exact forIn_returned_iff
    | «while» condition body => exact while_returned_iff
    | doWhile body condition => exact doWhile_returned_iff
    | _ => cases compound
  rw [blocks]
  constructor
  · rintro ⟨body, inner, entered, opens, ran⟩
    rcases (block_returned body entered).mp ran with ⟨member, start, comes, returns⟩
    exact ⟨member, inner, start, ⟨body, entered, opens, comes⟩, returns⟩
  · rintro ⟨member, inner, start, ⟨body, entered, opens, comes⟩, returns⟩
    exact ⟨body, inner, entered, opens, (block_returned body entered).mpr
      ⟨member, start, comes, returns⟩⟩

/-- Returning before the first pass of a loop does not return from the loop. -/
theorem statement_returned_iff_lost_return :
    let leave : Stmt := { node := .return none }
    let loop : Stmt := { node := .for (some leave) (some { node := .bool false }) none [] }
    (∃ after, (ofFuel 2).exec leave ⟨0⟩ (Machine.bare {} none) = .ok (.returned .null) after) ∧
      ¬ ∃ value after,
        (ofFuel 2).statement loop ⟨0⟩ (Machine.bare {} none) = .ok (.returned value) after := by
  intro leave loop
  refine ⟨⟨_, rfl⟩, ?_⟩
  rintro ⟨value, after, returned⟩
  rcases (statement_returned_iff (ofFuel 2) loop rfl ⟨0⟩ _ after value).mp returned with
    ⟨member, inner, start, ⟨body, entered, opens, comes⟩, -⟩
  cases opens with
  | forBody => cases comes

end Evaluator

end Hati
