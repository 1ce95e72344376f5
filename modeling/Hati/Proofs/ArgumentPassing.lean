import Hati.Proofs.CallContext
import Mathlib

namespace Hati

/-!
# How arguments are passed

Parameters are bound one after the other, and each takes some of the arguments that the ones
before it have left: one, or several for a rest, or none if a default stands in.  What was taken
and what is left always make up the arguments of the call, whatever the kinds of the parameters
and their order.

Before anything is bound the arguments are counted.  That this count is enough does not mean that
they go round, since a default or a rest without a count takes arguments that were counted for
the parameters behind it.  If none of these stands before a parameter that demands arguments,
then a call is refused exactly if it brings fewer than are demanded.  The count finds out as long
as the demands fit in the machine word that they are added up in; beyond that, the first parameter
that lacks arguments does.
-/

/-- What a parameter is given. -/
inductive Share where
  /-- The next argument. -/
  | single (value : Value)
  /-- A new list of arguments. -/
  | collected (ref : ListRef) (items : List Value)
  /-- The value of its default. -/
  | computed (value : Value)

namespace Share

/-- The arguments that are used for it. -/
def arguments : Share → List Value
  | single value => [value]
  | collected _ items => items
  | computed _ => []

/-- What the parameter is bound to. -/
def value : Share → Value
  | single value => value
  | collected ref _ => .list ref
  | computed value => value

def isComputed : Share → Bool
  | computed _ => true
  | _ => false

end Share

/-- The machine with a value bound in a scope. -/
def Machine.withLocal (machine : Machine) (scope : FrameRef) (name : String) (value : Value) :
    Machine :=
  { machine with heap := machine.heap.bind scope name { value } }

theorem Machine.localBinding?_withLocal {machine : Machine} {scope : FrameRef}
    (allocated : scope.index < machine.heap.frames.size) (name other : String) (value : Value) :
    (machine.withLocal scope name value).heap.localBinding? scope other =
      if other = name then some { value } else machine.heap.localBinding? scope other := by
  rw [withLocal, Heap.localBinding?_bind allocated]
  simp only [true_and]

/-! ## One parameter -/

/-- The parameter can be given the share: a rest gets a list, as long as its count if it has one,
and only what has a default is given the value of one. -/
inductive Param.Gets : Param → Share → Prop where
  | single {name : String} {form : ParamForm} {value : Value}
    (noRest : ∀ count, form ≠ .rest count) : Gets ⟨name, form⟩ (.single value)
  | counted {name : String} {count : Nat} {ref : ListRef} {items : List Value}
    (exactly : count ≠ 0 → items.length = count) : Gets ⟨name, .rest count⟩ (.collected ref items)
  | computed {name : String} {default : Expr} {value : Value} :
    Gets ⟨name, .optional default⟩ (.computed value)

/-- Why a parameter cannot be bound to any of the remaining arguments. -/
inductive Param.Lacks (function : String) : Param → List Value → Cause → Prop where
  | unfilled {name : String} {count : Nat} {rest : List Value} (short : rest.length < count) :
    Lacks function ⟨name, .rest count⟩ rest (.restUnfilled name function count rest.length)
  | missing {name : String} : Lacks function ⟨name, .required⟩ [] (.argumentMissing name function)

namespace Evaluator

/-- The parameter takes its share of the remaining arguments, and leaves others.  A default is
evaluated in the scope of the call, and only if no arguments remain. -/
inductive Takes (ev : Evaluator) (scope : FrameRef) :
    Param → List Value → Machine → Share → List Value → Machine → Prop where
  | single {name : String} {form : ParamForm} {value : Value} {rest : List Value}
    {machine : Machine} (noRest : ∀ count, form ≠ .rest count) :
    Takes ev scope ⟨name, form⟩ (value :: rest) machine (.single value) rest machine
  | collected {name : String} {count : Nat} {args items rest : List Value} {machine : Machine}
    {ref : ListRef} {heap : Heap} (split : items ++ rest = args)
    (counted : if count = 0 then rest = [] else items.length = count)
    (made : machine.heap.allocList items.toArray = (ref, heap)) :
    Takes ev scope ⟨name, .rest count⟩ args machine (.collected ref items) rest
      { machine with heap }
  | computed {name : String} {default : Expr} {value : Value} {machine after : Machine}
    (evaluated : ev.eval default scope machine = .ok value after) :
    Takes ev scope ⟨name, .optional default⟩ [] machine (.computed value) [] after

/-- Parameters are bound one after the other, each to its share. -/
inductive Passes (ev : Evaluator) (scope : FrameRef) (args : List Value) (machine : Machine) :
    List Param → List Share → List Value → Machine → Prop where
  | start : Passes ev scope args machine [] [] args machine
  | next {passed : List Param} {shares : List Share} {left rest : List Value}
    {before after : Machine} {param : Param} {share : Share}
    (earlier : Passes ev scope args machine passed shares left before)
    (takes : ev.Takes scope param left before share rest after) :
    Passes ev scope args machine (passed ++ [param]) (shares ++ [share]) rest
      (after.withLocal scope param.name share.value)

/-- The arguments are refused: there are too few of them, or, although there are enough, a
parameter that is reached lacks some. -/
inductive Refuses (ev : Evaluator) (decl : FunctionDecl) (args : List Value) (scope : FrameRef)
    (machine : Machine) : Cause → Machine → Prop where
  | tooFew (few : args.length < decl.minArity) :
    Refuses ev decl args scope machine
      (.tooFewArguments decl.displayName decl.minArity args.length) machine
  | reached {passed later : List Param} {param : Param} {shares : List Share} {rest : List Value}
    {middle : Machine} {cause : Cause} (enough : decl.minArity ≤ args.length)
    (split : decl.params = passed ++ param :: later)
    (run : ev.Passes scope args machine passed shares rest middle)
    (lacks : param.Lacks decl.displayName rest cause) :
    Refuses ev decl args scope machine cause middle

/-- How passing the arguments of a call ends. -/
inductive PassingEnds (ev : Evaluator) (decl : FunctionDecl) (args : List Value) (scope : FrameRef)
    (span : Span) (machine : Machine) : EStateM.Result Halt Machine Unit → Prop where
  | passed {shares : List Share} {rest : List Value} {after : Machine}
    (enough : decl.minArity ≤ args.length)
    (run : ev.Passes scope args machine decl.params shares rest after) :
    PassingEnds ev decl args scope span machine (.ok () after)
  | refused {cause : Cause} {middle : Machine}
    (refuses : ev.Refuses decl args scope machine cause middle) :
    PassingEnds ev decl args scope span machine (.error (.fault ⟨cause, span⟩) middle)
  /-- A default has no value. -/
  | abandoned {passed later : List Param} {name : String} {default : Expr} {shares : List Share}
    {middle after : Machine} {halt : Halt} (enough : decl.minArity ≤ args.length)
    (split : decl.params = passed ++ ⟨name, .optional default⟩ :: later)
    (run : ev.Passes scope args machine passed shares [] middle)
    (failed : ev.eval default scope middle = .error halt after) :
    PassingEnds ev decl args scope span machine (.error halt after)

variable {ev : Evaluator} {decl : FunctionDecl} {args rest : List Value} {scope : FrameRef}
  {span : Span} {machine middle : Machine} {passed : List Param} {shares : List Share}

/-- Binding goes on from wherever it got to.  The induction is on the parameters that are still
to be bound. -/
theorem Passes.ends (enough : decl.minArity ≤ args.length) (params : List Param) :
    ∀ (passed : List Param) (shares : List Share) (rest : List Value) (middle : Machine),
      ev.Passes scope args machine passed shares rest middle → decl.params = passed ++ params →
      ev.PassingEnds decl args scope span machine
        (ev.bindRemaining decl.displayName scope span params rest middle) := by
  induction params with
  | nil =>
      intro passed shares rest middle run split
      rw [List.append_nil] at split
      rw [bindRemaining]
      exact .passed enough (split ▸ run)
  | cons param params ih =>
      intro passed shares rest middle run split
      have onward {share : Share} {left : List Value} {after : Machine}
          (takes : ev.Takes scope param rest middle share left after) :
          ev.PassingEnds decl args scope span machine
            (ev.bindRemaining decl.displayName scope span params left
              (after.withLocal scope param.name share.value)) :=
        ih _ _ _ _ (run.next takes) (by rw [split, List.append_assoc, List.singleton_append])
      obtain ⟨name, form⟩ := param
      cases form with
      | rest count =>
          rw [bindRemaining]
          by_cases short : rest.length < count
          · rw [if_pos short]
            exact .refused (.reached enough split run (.unfilled short))
          · rw [if_neg short]
            -- As many arguments as are cut off are left, so the list has all of them.
            refine onward (.collected (List.take_append_drop _ rest) ?_ rfl)
            split
            · exact List.drop_length
            · rw [List.length_take]
              omega
      | required =>
          cases rest with
          | nil => exact .refused (.reached enough split run .missing)
          | cons value rest => exact onward (.single (by simp))
      | optional default =>
          cases rest with
          | nil =>
              rw [bindRemaining]
              cases evaluated : ev.eval default scope middle with
              | ok value after =>
                  simp only [bind, EStateM.bind, evaluated]
                  exact onward (.computed evaluated)
              | error halt after =>
                  simp only [bind, EStateM.bind, evaluated]
                  exact .abandoned enough split run evaluated
          | cons value rest => exact onward (.single (by simp))

theorem bindParameters_ends (ev : Evaluator) (decl : FunctionDecl) (args : List Value)
    (scope : FrameRef) (span : Span) (machine : Machine) :
    ev.PassingEnds decl args scope span machine
      (ev.bindParameters decl args scope span machine) := by
  rw [bindParameters]
  split
  · exact .refused (.tooFew ‹_›)
  · exact Passes.ends (by omega) decl.params [] [] args machine .start rfl

/-! ## What holds wherever binding got to -/

theorem Takes.arguments {param : Param} {share : Share} {before after : Machine}
    {left rest : List Value} (takes : ev.Takes scope param left before share rest after) :
    share.arguments ++ rest = left := by
  cases takes with
  | single noRest => rfl
  | collected split counted made => exact split
  | computed evaluated => rfl

theorem Takes.gets {param : Param} {share : Share} {before after : Machine}
    {left rest : List Value} (takes : ev.Takes scope param left before share rest after) :
    param.Gets share := by
  cases takes with
  | single noRest => exact .single noRest
  | collected split counted made => exact .counted fun some => by rwa [if_neg some] at counted
  | computed evaluated => exact .computed

/-- What was taken and what is left are the arguments of the call, in their order. -/
theorem Passes.arguments (run : ev.Passes scope args machine passed shares rest middle) :
    shares.flatMap Share.arguments ++ rest = args := by
  induction run with
  | start => rfl
  | next earlier takes ih =>
      rw [List.flatMap_append, List.flatMap_singleton, List.append_assoc, takes.arguments, ih]

theorem Passes.gets (run : ev.Passes scope args machine passed shares rest middle) :
    List.Forall₂ Param.Gets passed shares := by
  induction run with
  | start => exact .nil
  | next earlier takes ih => exact List.rel_append ih (.cons takes.gets .nil)

/-- Behind a rest without a count nothing is left. -/
theorem Passes.rest_eq_nil (run : ev.Passes scope args machine passed shares rest middle)
    {param : Param} (member : param ∈ passed) (takesAll : param.form = .rest 0) : rest = [] := by
  induction run with
  | start => cases member
  | @next passed shares left rest before after last share earlier takes ih =>
      rcases List.mem_append.mp member with before | here
      · have used := takes.arguments
        rw [ih before] at used
        exact (List.append_eq_nil_iff.mp used).2
      · obtain rfl := List.mem_singleton.mp here
        cases takes with
        | single noRest => exact absurd takesAll (noRest 0)
        | collected split counted made =>
            cases takesAll
            exact counted
        | computed evaluated => rfl

/-- When a default is asked for, the parameters before it have used up the arguments. -/
theorem Passes.arguments_of_computed
    (run : ev.Passes scope args machine passed shares rest middle) :
    ∀ (before : List Share) (share : Share) (after : List Share),
      shares = before ++ share :: after → share.isComputed = true →
        before.flatMap Share.arguments = args := by
  induction run with
  | start => exact fun before share after split => by simp at split
  | @next passed shares left rest machine _ param last earlier takes ih =>
      intro before share after split computed
      rcases List.eq_nil_or_concat' after with rfl | ⟨between, final, rfl⟩
      · -- The default was the last one, and then nothing was left for it.
        obtain ⟨rfl, same⟩ := List.append_inj' split rfl
        cases same
        have used := earlier.arguments
        cases takes <;> cases computed
        rwa [List.append_nil] at used
      · rw [← List.cons_append, ← List.append_assoc] at split
        exact ih before share between (List.append_inj' split rfl).1 computed

/-! ## What a default sees -/

/-- Evaluation may do everything. -/
def everything : Permit :=
  ⟨fun _ => True, fun _ _ => True, fun _ => True, fun _ => True, True⟩

theorem eval_path {fuel : Nat} {expr : Expr} {value : Value} {after : Machine}
    (evaluated : (ofFuel fuel).eval expr scope machine = .ok value after) :
    Heap.Path everything machine.heap after.heap := by
  let law := Law.unrestricted machine.heap fun _ _ => True
  have covers := law.covers_ofFuel trivial (fun _ _ _ _ => trivial) fuel
  have evolves : machine.Evolves law.permit (((ofFuel fuel).eval expr scope).leaves machine) :=
    Law.evolves (covers.eval trivial trivial) ⟨.refl, trivial⟩
  rw [Run.leaves, evaluated] at evolves
  exact evolves.path

theorem Takes.path {fuel : Nat} {param : Param} {share : Share} {before after : Machine}
    {left rest : List Value}
    (takes : (ofFuel fuel).Takes scope param left before share rest after) :
    Heap.Path everything before.heap after.heap := by
  cases takes with
  | single noRest => exact .refl
  | collected split counted made =>
      cases made
      exact .single (.allocList before.heap _)
  | computed evaluated => exact eval_path evaluated

theorem Passes.path {fuel : Nat}
    (run : (ofFuel fuel).Passes scope args machine passed shares rest middle) :
    Heap.Path everything machine.heap middle.heap := by
  induction run with
  | start => exact .refl
  | next earlier takes ih => exact (ih.trans takes.path).tail (.declare _ scope _ _ trivial)

/-- Whatever a default does, the scope of the call keeps the names of the parameters. -/
theorem Passes.isSome_localBinding? {fuel : Nat}
    (run : (ofFuel fuel).Passes scope args machine passed shares rest middle)
    (inside : scope.index < machine.heap.frames.size) :
    ∀ param ∈ passed, (middle.heap.localBinding? scope param.name).isSome := by
  induction run with
  | start => exact fun _ impossible => nomatch impossible
  | @next passed shares left rest before after last share earlier takes ih =>
      intro param member
      have still := Nat.lt_of_lt_of_le inside (Heap.Path.size_frames_le earlier.path)
      have allocated := Nat.lt_of_lt_of_le still (Heap.Path.size_frames_le takes.path)
      rw [Machine.localBinding?_withLocal allocated]
      split
      · rfl
      · rename_i other
        have bound : param ∈ passed := (List.mem_append.mp member).resolve_right fun here =>
          other (congrArg Param.name (List.mem_singleton.mp here))
        exact takes.path.isSome_localBinding? still (ih param bound)

theorem Takes.frames_eq {param : Param} {share : Share} {before after : Machine}
    {left rest : List Value} (takes : ev.Takes scope param left before share rest after)
    (given : share.isComputed = false) : after.heap.frames = before.heap.frames := by
  cases takes with
  | single noRest => rfl
  | collected split counted made =>
      cases made
      rfl
  | computed evaluated => cases given

/-- Before any default ran, the parameters hold what they were given. -/
theorem Passes.localBinding?_eq (run : ev.Passes scope args machine passed shares rest middle)
    (inside : scope.index < machine.heap.frames.size) :
    (∀ share ∈ shares, share.isComputed = false) → (passed.map Param.name).Nodup →
      scope.index < middle.heap.frames.size ∧ ∀ pair ∈ passed.zip shares,
        middle.heap.localBinding? scope pair.1.name = some { value := pair.2.value } := by
  induction run with
  | start => exact fun _ _ => ⟨inside, fun _ impossible => nomatch impossible⟩
  | @next passed shares left rest before after param share earlier takes ih =>
      intro given distinct
      rw [List.map_append, List.nodup_append] at distinct
      obtain ⟨distinctBefore, -, apart⟩ := distinct
      obtain ⟨still, bound⟩ := ih (fun share member => given share (List.mem_append_left _ member))
        distinctBefore
      have same := takes.frames_eq (given share (List.mem_append_right _ List.mem_cons_self))
      have allocated : scope.index < after.heap.frames.size := same ▸ still
      refine ⟨?_, fun pair member => ?_⟩
      · simpa [Machine.withLocal, Heap.bind] using allocated
      · rw [Machine.localBinding?_withLocal allocated]
        rw [List.zip_append earlier.gets.length_eq] at member
        rcases List.mem_append.mp member with old | new
        · have other : pair.1.name ≠ param.name :=
            apart _ (List.mem_map_of_mem (List.of_mem_zip old).1) _ List.mem_cons_self
          rw [if_neg other, ← bound pair old, Heap.localBinding?, Heap.localBinding?, Heap.frame,
            Heap.frame, same]
        · obtain rfl := List.mem_singleton.mp new
          rw [if_pos rfl]

end Evaluator

/-! ## Enough arguments -/

theorem FunctionDecl.demand_eq (decl : FunctionDecl) :
    decl.demand = (decl.params.map Param.requiredCount).sum := by
  rw [demand, List.sum_eq_foldr, List.foldr_map]

theorem FunctionDecl.minArity_le_demand (decl : FunctionDecl) : decl.minArity ≤ decl.demand :=
  Nat.mod_le _ _

theorem FunctionDecl.minArity_of_fits {decl : FunctionDecl} (fits : decl.demand < UInt64.size) :
    decl.minArity = decl.demand :=
  Nat.mod_eq_of_lt fits

/-- No parameter that demands nothing, having a default or being a rest without a count, stands
before one that demands arguments. -/
def FunctionDecl.DemandsFirst (decl : FunctionDecl) : Prop :=
  decl.params.Pairwise fun earlier later => 0 < later.requiredCount → 0 < earlier.requiredCount

theorem Param.Lacks.length_lt {function : String} {param : Param} {rest : List Value}
    {cause : Cause} (lacks : param.Lacks function rest cause) :
    rest.length < param.requiredCount := by
  cases lacks with
  | unfilled short => exact short
  | missing => exact Nat.one_pos

namespace Evaluator

variable {ev : Evaluator} {decl : FunctionDecl} {args rest : List Value} {scope : FrameRef}
  {span : Span} {machine middle : Machine} {passed : List Param} {shares : List Share}

/-- A parameter that demands arguments takes as many as it demands. -/
theorem Takes.length_eq {param : Param} {share : Share} {before after : Machine}
    {left rest : List Value} (takes : ev.Takes scope param left before share rest after)
    (demands : 0 < param.requiredCount) : left.length = param.requiredCount + rest.length := by
  cases takes with
  | @single name form value rest machine noRest =>
      cases form with
      | required => exact Nat.add_comm _ _
      | optional default => cases demands
      | rest count => exact absurd rfl (noRest count)
  | collected split counted made =>
      have some := Nat.pos_iff_ne_zero.mp demands
      rw [Param.requiredCount] at some ⊢
      rw [if_neg some] at counted
      rw [← split, List.length_append, counted]
  | computed evaluated => cases demands

theorem Passes.length_eq (run : ev.Passes scope args machine passed shares rest middle) :
    (∀ param ∈ passed, 0 < param.requiredCount) →
      args.length = (passed.map Param.requiredCount).sum + rest.length := by
  induction run with
  | start => exact fun _ => (Nat.zero_add _).symm
  | next earlier takes ih =>
      intro demanding
      have before := ih fun param member => demanding param (List.mem_append_left _ member)
      have here := takes.length_eq (demanding _ (List.mem_append_right _ List.mem_cons_self))
      rw [List.map_append, List.sum_append, List.map_singleton, List.sum_singleton]
      omega

/-- Where the demands come first, enough arguments go round. -/
theorem Passes.not_lacks (run : ev.Passes scope args machine passed shares rest middle)
    (first : decl.DemandsFirst) (enough : decl.demand ≤ args.length) {param : Param}
    {later : List Param} (split : decl.params = passed ++ param :: later) {cause : Cause} :
    ¬param.Lacks decl.displayName rest cause := by
  intro lacks
  have short := lacks.length_lt
  rw [FunctionDecl.DemandsFirst, split, List.pairwise_append] at first
  have used := run.length_eq fun earlier member =>
    first.2.2 earlier member param List.mem_cons_self (by omega)
  rw [decl.demand_eq, split, List.map_append, List.sum_append, List.map_cons,
    List.sum_cons] at enough
  omega

/-- Where the demands come first, what was passed has found what it demands. -/
theorem Passes.demand_le (run : ev.Passes scope args machine passed shares rest middle) :
    (passed.Pairwise fun earlier later => 0 < later.requiredCount → 0 < earlier.requiredCount) →
      (passed.map Param.requiredCount).sum ≤ args.length := by
  induction run with
  | start => exact fun _ => Nat.zero_le _
  | @next passed shares left rest before after param share earlier takes ih =>
      intro first
      obtain ⟨firstBefore, -, demanding⟩ := List.pairwise_append.mp first
      rw [List.map_append, List.sum_append, List.map_singleton, List.sum_singleton]
      rcases Nat.eq_zero_or_pos param.requiredCount with nothing | demands
      · rw [nothing, Nat.add_zero]
        exact ih firstBefore
      · have used := earlier.length_eq fun other member =>
          demanding other member param List.mem_cons_self demands
        have taken := takes.length_eq demands
        omega

/-- Where the demands come first, binding does not get past the demands with too few arguments. -/
theorem PassingEnds.demand_le {result : EStateM.Result Halt Machine Unit}
    (ends : ev.PassingEnds decl args scope span machine result) (first : decl.DemandsFirst) :
    decl.demand ≤ args.length ∨
      ∃ cause middle, ev.Refuses decl args scope machine cause middle ∧
        result = .error (.fault ⟨cause, span⟩) middle := by
  rw [decl.demand_eq]
  cases ends with
  | passed enough run => exact .inl (run.demand_le first)
  | refused refuses => exact .inr ⟨_, _, refuses, rfl⟩
  | @abandoned passed later name default shares middle after halt enough split run failed =>
      left
      rw [FunctionDecl.DemandsFirst, split] at first
      obtain ⟨firstBefore, firstLater, -⟩ := List.pairwise_append.mp first
      -- Nothing is demanded from the default on.
      have nothing : ∀ count ∈ later.map Param.requiredCount, count = 0 := by
        intro count member
        obtain ⟨param, listed, rfl⟩ := List.mem_map.mp member
        have demands := (List.pairwise_cons.mp firstLater).1 param listed
        exact Nat.eq_zero_of_not_pos fun some => Nat.lt_irrefl 0 (demands some)
      rw [split, List.map_append, List.sum_append, List.map_cons, List.sum_cons,
        List.sum_eq_zero nothing]
      exact run.demand_le firstBefore

/-! ## Passing arguments -/

/-- What holds of the parameters that were passed, wherever binding got to.  The arguments they
were given are the first ones of the call, and all of them if there is a rest without a count.
Each parameter got what it can be given.  A default was asked for when the arguments had been
used up, and it saw the parameters before it, bound in the scope of the call, to their arguments
as long as no other default could change them. -/
structure Distributed (args : List Value) (scope : FrameRef) (passed : List Param)
    (shares : List Share) (rest : List Value) (middle : Machine) : Prop where
  arguments : shares.flatMap Share.arguments ++ rest = args
  gets : List.Forall₂ Param.Gets passed shares
  all : ∀ param ∈ passed, param.form = .rest 0 → rest = []
  defaults : ∀ before share after, shares = before ++ share :: after → share.isComputed = true →
    before.flatMap Share.arguments = args
  bound : ∀ param ∈ passed, (middle.heap.localBinding? scope param.name).isSome
  given : (∀ share ∈ shares, share.isComputed = false) → (passed.map Param.name).Nodup →
    ∀ pair ∈ passed.zip shares,
      middle.heap.localBinding? scope pair.1.name = some { value := pair.2.value }

/-- Parameters divide the arguments among them, in their order.  If those that demand arguments
come first, a call is refused exactly if it brings fewer than they demand together; and if these
demands fit in a machine word, then no parameter lacks anything that the count has not missed. -/
theorem bindParameters_distributes (fuel : Nat) (decl : FunctionDecl) (args : List Value)
    (scope : FrameRef) (span : Span) (machine : Machine)
    (inside : scope.index < machine.heap.frames.size) :
    let ev := ofFuel fuel
    let result := ev.bindParameters decl args scope span machine
    ev.PassingEnds decl args scope span machine result ∧
    (∀ passed shares rest middle, ev.Passes scope args machine passed shares rest middle →
      Distributed args scope passed shares rest middle) ∧
    (decl.DemandsFirst →
      ((∃ cause middle, ev.Refuses decl args scope machine cause middle ∧
        result = .error (.fault ⟨cause, span⟩) middle) ↔ args.length < decl.demand)) ∧
    (decl.DemandsFirst → decl.demand < UInt64.size →
      ((∃ cause middle, ev.Refuses decl args scope machine cause middle ∧
        result = .error (.fault ⟨cause, span⟩) middle) ↔ args.length < decl.minArity) ∧
      ∀ passed param later shares rest middle cause, decl.minArity ≤ args.length →
        decl.params = passed ++ param :: later →
        ev.Passes scope args machine passed shares rest middle →
        ¬param.Lacks decl.displayName rest cause) := by
  intro ev result
  have ends := bindParameters_ends ev decl args scope span machine
  have refused : decl.DemandsFirst →
      ((∃ cause middle, ev.Refuses decl args scope machine cause middle ∧
        result = .error (.fault ⟨cause, span⟩) middle) ↔ args.length < decl.demand) := by
    intro first
    constructor
    · rintro ⟨cause, middle, few | ⟨-, split, run, lacks⟩, -⟩
      · exact Nat.lt_of_lt_of_le few decl.minArity_le_demand
      · exact Nat.lt_of_not_le fun enough => run.not_lacks first enough split lacks
    · exact fun few => (ends.demand_le first).resolve_left (Nat.not_le_of_lt few)
  refine ⟨ends, ?_, refused, fun first fits => ?_⟩
  · intro passed shares rest middle run
    exact {
      arguments := run.arguments
      gets := run.gets
      all := fun _ => run.rest_eq_nil
      defaults := run.arguments_of_computed
      bound := run.isSome_localBinding? inside
      given := fun given distinct => (run.localBinding?_eq inside given distinct).2 }
  · rw [decl.minArity_of_fits fits]
    exact ⟨refused first, fun _ _ _ _ _ _ _ enough split run => run.not_lacks first enough split⟩

/-- A parameter, a rest of one argument and a default: one argument is refused, two are not. -/
theorem bindParameters_distributes_pair :
    let machine : Machine := { heap := { frames := #[{}] } }
    let decl : FunctionDecl := { name := none, body := [], params :=
      [⟨"a", .required⟩, ⟨"b", .rest 1⟩, ⟨"c", .optional { node := .name "b" }⟩] }
    let result args := (ofFuel 5).bindParameters decl args ⟨0⟩ {} machine
    (0 < machine.heap.frames.size ∧ decl.DemandsFirst ∧ decl.demand < UInt64.size) ∧
    (ofFuel 5).PassingEnds decl [.bool true, .null] ⟨0⟩ {} machine (result [.bool true, .null]) ∧
    ∀ args, args = [.null] ∨ args = [.bool true, .null] →
      ((∃ cause middle, (ofFuel 5).Refuses decl args ⟨0⟩ machine cause middle ∧
        result args = .error (.fault ⟨cause, {}⟩) middle) ↔ args = [.null]) := by
  intro machine decl result
  have inside : 0 < machine.heap.frames.size := Nat.one_pos
  have first : decl.DemandsFirst := by
    simp [FunctionDecl.DemandsFirst, decl, Param.requiredCount]
  have fits : decl.demand < UInt64.size := by decide
  have passing (args : List Value) := bindParameters_distributes 5 decl args ⟨0⟩ {} machine inside
  refine ⟨⟨inside, first, fits⟩, (passing _).1, fun args listed => ?_⟩
  rw [((passing args).2.2.2 first fits).1]
  rcases listed with rfl | rfl
  · exact iff_of_true (by decide) rfl
  · exact iff_of_false (by decide) (by simp)

/-- Two rests that demand half of a machine word each seem to demand nothing together: the count
finds nothing missing, and the first of them does. -/
theorem restUnfilled_of_wrapped :
    let machine : Machine := { heap := { frames := #[{}] } }
    let decl : FunctionDecl := { name := some "f", body := [], params :=
      [⟨"a", .rest (2 ^ 63)⟩, ⟨"b", .rest (2 ^ 63)⟩] }
    decl.DemandsFirst ∧ ¬([] : List Value).length < decl.minArity ∧
      (ofFuel 5).bindParameters decl [] ⟨0⟩ {} machine =
        .error (.fault ⟨.restUnfilled "a" "f" (2 ^ 63) 0, {}⟩) machine := by
  intro machine decl
  refine ⟨?_, by decide, ?_⟩
  · simp [FunctionDecl.DemandsFirst, decl, Param.requiredCount]
  · have short : ([] : List Value).length < 2 ^ 63 := by decide
    rw [bindParameters, if_neg (by decide), bindRemaining, if_pos short]
    rfl

/-- Enough arguments do not go round if a default stands before a demand. -/
example :
    (ofFuel 5).bindParameters
      { name := none, body := [], params := [⟨"a", .optional { node := .null }⟩, ⟨"b", .required⟩] }
      [.null] ⟨0⟩ {} { heap := { frames := #[{}] } } =
    .error (.fault ⟨.argumentMissing "b" "<anon>", {}⟩)
      { heap := { frames := #[{ bindings := ⟨[("a", { value := .null })]⟩ }] } } := rfl

end Evaluator

end Hati
