import Hati.Proofs.Chain
import Hati.Proofs.ReturnPropagation

namespace Hati

/-!
# Where a chain breaks off

A chain is a head with links around it: members, elements and calls.  Without its
optional marks it is a plain chain, in which every link goes on from whatever the
links inside it came to.  The marks change this in one way only.  If an optional
link is the first one that goes on from null, then the chain is null, in the state
that had been reached there; if none does, then the chain is the plain one.

The evaluator that does the rest of the work is arbitrary here.  It may record what
it is asked for, so equal outcomes also mean that nothing was evaluated in between:
no index, argument, member or call of the link that breaks the chain off, or of a
link further out.
-/

/-! ## Plain chains and where a chain breaks off -/

namespace Expr

/-- The same chain with no optional link.  Indices and arguments stay as they are,
with the chains inside them. -/
def plain : Expr → Expr
  | ⟨.member object property _, span⟩ => ⟨.member object.plain property false, span⟩
  | ⟨.index object index _, span⟩ => ⟨.index object.plain index false, span⟩
  | ⟨.call callee arguments _, span⟩ => ⟨.call callee.plain arguments false, span⟩
  | expr => expr

theorem plain_of_links_eq_nil {expr : Expr} (single : expr.links = []) : expr.plain = expr := by
  rcases expr with ⟨node, span⟩
  cases node with
  | member object property isOptional => cases single
  | index object index isOptional => cases single
  | call callee arguments isOptional => cases single
  | _ => rfl

end Expr

/-- The link is optional, and its base, with only plain links in it, comes to null. -/
def Link.MeetsNull (link : Link) (ev : Evaluator) (scope : FrameRef)
    (before after : Machine) : Prop :=
  link.isOptional = true ∧ ev.chain scope link.base.plain before = .ok (some .null) after

namespace Evaluator

variable {ev : Evaluator} {scope : FrameRef} {before after : Machine}

/-- A link of the chain meets null, and no link further in does.  The state is the
one in which the base of that link has just been evaluated. -/
def BreaksOff (ev : Evaluator) (scope : FrameRef) (expr : Expr) (before after : Machine) : Prop :=
  ∃ outer link inner, expr.links = outer ++ link :: inner ∧
    link.MeetsNull ev scope before after ∧
    ∀ other ∈ inner, ∀ state, ¬ other.MeetsNull ev scope before state

/-- What a chain comes to is the first part of what it comes to as a callee. -/
theorem chain_eq_ok {expr : Expr} {reached : Option Value} :
    ev.chain scope expr before = .ok reached after ↔
      ∃ called, ev.callee scope expr before = .ok called after ∧ called.map Prod.fst = reached := by
  rw [chain_eq_callee, map_eq_pure_bind, Run.bind_eq_ok]
  constructor
  · rintro ⟨called, state, comes, ⟨⟩⟩
    exact ⟨called, comes, rfl⟩
  · rintro ⟨called, comes, rfl⟩
    exact ⟨called, after, comes, rfl⟩

theorem chain_congr_callee {expr other : Expr}
    (same : ev.callee scope expr before = ev.callee scope other before) :
    ev.chain scope expr before = ev.chain scope other before := by
  rw [chain_eq_callee, chain_eq_callee]
  exact Run.bind_apply_congr same fun _ _ _ => rfl

/-! ## No link meets null -/

/-- An optional link that does not go on from null is a plain one. -/
theorem linked_eq_plain {isOptional : Bool} {reached : Option Value}
    (proceeds : isOptional = true → reached ≠ some .null) :
    linked isOptional reached = linked false reached := by
  cases isOptional with
  | false => rfl
  | true =>
      cases reached with
      | none => rfl
      | some value =>
          have located : value ≠ .null := fun isNull => proceeds rfl (congrArg some isNull)
          cases value <;> first | rfl | exact absurd rfl located

theorem callLink_eq_plain {function : Value} {receiver : Option Value} {args : List Expr}
    {isOptional : Bool} {span : Span} (proceeds : isOptional = true → function ≠ .null) :
    ev.callLink scope function receiver args isOptional span =
      ev.callLink scope function receiver args false span := by
  cases isOptional with
  | false => rfl
  | true => cases function <;> first | rfl | exact absurd rfl (proceeds rfl)

/-- While no optional link meets null, the marks of the links make no difference. -/
theorem callee_eq_plain (expr : Expr) :
    (∀ link ∈ expr.links, ∀ state, ¬ link.MeetsNull ev scope before state) →
      ev.callee scope expr before = ev.callee scope expr.plain before := by
  induction expr using Expr.chain_induction with
  | member object property isOptional span ih =>
      intro proceeds
      have same := ih fun link within => proceeds link (List.mem_cons_of_mem _ within)
      rw [callee, Expr.plain, callee]
      apply Run.bind_apply_congr (chain_congr_callee same)
      intro reached state comes
      rw [linked_eq_plain]
      rintro marked rfl
      exact proceeds _ List.mem_cons_self state ⟨marked, comes⟩
  | index object position isOptional span ih =>
      intro proceeds
      have same := ih fun link within => proceeds link (List.mem_cons_of_mem _ within)
      rw [callee, Expr.plain, callee]
      apply Run.bind_apply_congr (chain_congr_callee same)
      intro reached state comes
      rw [linked_eq_plain]
      rintro marked rfl
      exact proceeds _ List.mem_cons_self state ⟨marked, comes⟩
  | call inner arguments isOptional span ih =>
      intro proceeds
      have same := ih fun link within => proceeds link (List.mem_cons_of_mem _ within)
      rw [Expr.plain, callee_call, callee_call, chain_call, chain_call]
      apply Run.bind_apply_congr _ fun _ _ _ => rfl
      apply Run.bind_apply_congr same
      intro reached state comes
      rcases reached with _ | ⟨function, receiver⟩
      · rfl
      · dsimp only
        rw [callLink_eq_plain]
        rintro marked rfl
        exact proceeds _ List.mem_cons_self state ⟨marked, chain_eq_ok.mpr ⟨_, comes, rfl⟩⟩
  | head expr single =>
      intro _
      rw [Expr.plain_of_links_eq_nil single]

theorem chain_eq_plain {expr : Expr}
    (proceeds : ∀ link ∈ expr.links, ∀ state, ¬ link.MeetsNull ev scope before state) :
    ev.chain scope expr before = ev.chain scope expr.plain before :=
  chain_congr_callee (callee_eq_plain expr proceeds)

/-! ## A link meets null -/

theorem breaksOff_cons {expr base : Expr} {isOptional : Bool}
    (around : expr.links = ⟨base, isOptional⟩ :: base.links)
    (breaks : ev.BreaksOff scope expr before after) :
    ev.BreaksOff scope base before after ∨
      isOptional = true ∧ ev.chain scope base before = .ok (some .null) after := by
  obtain ⟨outer, link, inner, split, meets, first⟩ := breaks
  rw [around] at split
  cases outer with
  | cons head outer =>
      injection split with _ rest
      exact .inl ⟨outer, link, inner, rest, meets, first⟩
  | nil =>
      injection split with outermost rest
      subst outermost
      right
      rw [chain_eq_plain (rest ▸ first)]
      exact meets

/-- A chain ends where it breaks off. -/
theorem chain_of_breaksOff (expr : Expr) :
    ev.BreaksOff scope expr before after → ev.chain scope expr before = .ok none after := by
  induction expr using Expr.chain_induction with
  | member object property isOptional span ih =>
      intro breaks
      rw [chain, Run.bind_eq_ok]
      rcases breaksOff_cons rfl breaks with further | ⟨rfl, comes⟩
      · exact ⟨none, after, ih further, rfl⟩
      · exact ⟨some .null, after, comes, rfl⟩
  | index object position isOptional span ih =>
      intro breaks
      rw [chain, Run.bind_eq_ok]
      rcases breaksOff_cons rfl breaks with further | ⟨rfl, comes⟩
      · exact ⟨none, after, ih further, rfl⟩
      · exact ⟨some .null, after, comes, rfl⟩
  | call inner arguments isOptional span ih =>
      intro breaks
      rw [chain_call, Run.bind_eq_ok]
      rcases breaksOff_cons rfl breaks with further | ⟨rfl, comes⟩
      · rcases chain_eq_ok.mp (ih further) with ⟨_ | called, broken, ⟨⟩⟩
        exact ⟨none, after, broken, rfl⟩
      · rcases chain_eq_ok.mp comes with ⟨_ | ⟨function, receiver⟩, called, ⟨⟩⟩
        exact ⟨some (.null, receiver), after, called, rfl⟩
  | head expr single =>
      rintro ⟨outer, link, inner, split, -⟩
      simp [single] at split

/-- If some link meets null, then one of them is the innermost to do so. -/
theorem exists_innermost (links : List Link) :
    (∃ link ∈ links, ∃ state, link.MeetsNull ev scope before state) →
      ∃ outer link inner, links = outer ++ link :: inner ∧
        (∃ state, link.MeetsNull ev scope before state) ∧
        ∀ other ∈ inner, ∀ state, ¬ other.MeetsNull ev scope before state := by
  induction links with
  | nil => nofun
  | cons head rest ih =>
      rintro ⟨link, member, meets⟩
      by_cases further : ∃ other ∈ rest, ∃ state, other.MeetsNull ev scope before state
      · rcases ih further with ⟨outer, found, inner, rfl, foundMeets, clear⟩
        exact ⟨head :: outer, found, inner, rfl, foundMeets, clear⟩
      · have isHead : link = head := by
          rcases List.mem_cons.mp member with isHead | within
          · exact isHead
          · exact absurd ⟨link, within, meets⟩ further
        exact ⟨[], head, rest, rfl, isHead ▸ meets,
          fun other within state found => further ⟨other, within, state, found⟩⟩

/-! ## Optional chains -/

theorem expression_of_links {expr : Expr} (isChain : expr.links ≠ []) :
    ev.expression expr scope = (return (← ev.chain scope expr).getD .null) := by
  rcases expr with ⟨node, span⟩
  cases node with
  | member object property isOptional => rfl
  | index object index isOptional => rfl
  | call callee arguments isOptional => rfl
  | _ => exact absurd rfl isChain

/-- A chain whose optional links meet null is null, in the state in which the base of the
first such link has just been evaluated.  A chain whose optional links never meet null
is evaluated as the plain chain: with the same value, fault and final state. -/
theorem expression_optionalChain (ev : Evaluator) (scope : FrameRef) (expr : Expr)
    (before : Machine) :
    (∀ link ∈ expr.links, ∀ state, link.MeetsNull ev scope before state →
      ∃ after, ev.BreaksOff scope expr before after) ∧
    (∀ after, ev.BreaksOff scope expr before after →
      ev.expression expr scope before = .ok .null after) ∧
    ((∀ link ∈ expr.links, ∀ state, ¬ link.MeetsNull ev scope before state) →
      ev.expression expr scope before = ev.expression expr.plain scope before) := by
  refine ⟨?_, ?_, ?_⟩
  · intro link member state meets
    rcases exists_innermost expr.links ⟨link, member, state, meets⟩ with
      ⟨outer, first, inner, split, ⟨after, firstMeets⟩, clear⟩
    exact ⟨after, outer, first, inner, split, firstMeets, clear⟩
  · intro after breaks
    have isChain : expr.links ≠ [] := by
      rcases breaks with ⟨outer, link, inner, split, -⟩
      simp [split]
    rw [expression_of_links isChain, Run.bind_eq_ok]
    exact ⟨none, after, chain_of_breaksOff expr breaks, rfl⟩
  · intro proceeds
    have same := chain_eq_plain proceeds
    rcases expr with ⟨node, span⟩
    cases node with
    | member object property isOptional => exact Run.bind_apply_congr same fun _ _ _ => rfl
    | index object index isOptional => exact Run.bind_apply_congr same fun _ _ _ => rfl
    | call callee arguments isOptional => exact Run.bind_apply_congr same fun _ _ _ => rfl
    | _ => rfl

/-- `null?.ninull.aina`: null would answer the questions, but it is not asked. -/
def unanswered : Expr :=
  ⟨.member ⟨.member ⟨.null, {}⟩ "ninull" true, {}⟩ "aina" false, {}⟩

/-- `true?.ninull.aina`: a truth value is asked and answers. -/
def answered : Expr :=
  ⟨.member ⟨.member ⟨.bool true, {}⟩ "ninull" true, {}⟩ "aina" false, {}⟩

theorem expression_optionalChain_unanswered :
    (ofFuel 2).expression unanswered ⟨0⟩ (.new {} none) = .ok .null (.new {} none) ∧
      (ofFuel 2).expression answered ⟨0⟩ (.new {} none) =
        (ofFuel 2).expression answered.plain ⟨0⟩ (.new {} none) := by
  have breaks : (ofFuel 2).BreaksOff ⟨0⟩ unanswered (.new {} none) (.new {} none) :=
    ⟨[⟨⟨.member ⟨.null, {}⟩ "ninull" true, {}⟩, false⟩], ⟨⟨.null, {}⟩, true⟩, [], rfl,
      ⟨rfl, rfl⟩, nofun⟩
  have proceeds : ∀ link ∈ answered.links, ∀ state,
      ¬ link.MeetsNull (ofFuel 2) ⟨0⟩ (.new {} none) state := by
    rintro link member state ⟨marked, comes⟩
    rcases List.mem_cons.mp member with rfl | inner
    · cases marked
    · rcases List.mem_singleton.mp inner with rfl
      cases comes
  constructor
  · exact (expression_optionalChain _ _ _ _).2.1 _ breaks
  · exact (expression_optionalChain _ _ _ _).2.2 proceeds

end Evaluator

end Hati
