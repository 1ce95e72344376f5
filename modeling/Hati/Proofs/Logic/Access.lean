import Hati.Proofs.Logic.Runs

namespace Hati

/-!
# Reading, writing and computing

Properties, members, elements, operators and literals.  None of these rules chooses where
a name or a property goes by itself: a property is written to an object that the code
holds only as far as the object lets it, and an update assigns to a variable that it has
just read.  What is read out of a cell is held because the heap is well formed, and what
is computed from numbers, texts and truth values refers to no cell at all.
-/

namespace Logic

variable {logic : Logic} {world machine : Machine} {span : Span}

/-! ## Values -/

theorem held_of_isCopied {value : Value} (copied : value.IsCopied) : logic.Held world value :=
  fun _ => copied.holds world.heap

theorem held_elementAt {items : Array Value} (held : logic.HeldItems world items.toList)
    (position : Int) : logic.Held world (elementAt items position) := by
  unfold elementAt
  split
  · exact held_of_isCopied trivial
  · rw [Array.getD_eq_getD_getElem?]
    cases found : items[position.toNat]? with
    | none => exact held_of_isCopied trivial
    | some item => exact held item (Array.mem_toList_iff.mpr (Array.mem_of_getElem? found))

/-- The characters of a text are texts. -/
theorem heldItems_characters (s : String) : logic.HeldItems world (Value.characters s) := by
  intro item member
  rcases List.mem_map.mp member with ⟨c, -, rfl⟩
  exact held_of_isCopied trivial

theorem heldItems_placeAt {items : Array Value} {value : Value}
    (held : logic.HeldItems world items.toList) (written : logic.Held world value)
    (position : Nat) : logic.HeldItems world (placeAt items position value).toList := by
  intro item member
  unfold placeAt at member
  split at member
  · rw [Array.toList_setIfInBounds] at member
    rcases List.mem_or_eq_of_mem_set member with old | rfl
    · exact held item old
    · exact written
  · simp only [Array.toList_push, Array.toList_append, Array.toList_replicate, List.mem_append,
      List.mem_replicate, List.mem_singleton] at member
    rcases member with (old | ⟨-, rfl⟩) | rfl
    · exact held item old
    · exact held_of_isCopied trivial
    · exact written

theorem held_members (valid : logic.leads machine machine) {target : Value} {ref : ObjectRef}
    (held : logic.Held machine target) (found : machine.heap.members? target = some ref) :
    logic.Held machine (.object ref) :=
  fun tracks => (logic.formed tracks valid).heap.members? (held tracks) found

theorem held_property (valid : logic.leads machine machine) {ref : ObjectRef} {key : String}
    {property : Property} (found : (machine.heap.object ref).properties.get? key = some property) :
    logic.Held machine property.value :=
  fun tracks => (logic.formed tracks valid).heap.property found

/-! ## Writing to objects and lists -/

namespace Relates

theorem conversion {conversion : Except Cause Value} (here : logic.place span)
    (converts : Converts conversion Value.IsCopied) :
    logic.Relates world (Run.lift span conversion) (Run.lift span conversion) logic.Held :=
  (lift here converts).mono fun _ _ copied => held_of_isCopied copied

/-- A write to a property adds a public property to an object that is not frozen, or gives
a new value to a property that is not readonly. -/
theorem writeProperty {ref : ObjectRef} {key : String} {value : Value} {scope : FrameRef}
    (here : logic.place span) (held : logic.Held world value) :
    logic.Relates world (Run.writeProperty ref key value scope span)
      (Run.writeProperty ref key value scope span) := by
  intro machine onward
  have valid := logic.self onward
  -- What the write does is found out in the very heap that is written to.
  show logic.Concludes machine _
    (EStateM.bind (Run.lift span (machine.heap.writeEffect scope ref key)) _ machine)
    (EStateM.bind (Run.lift span (machine.heap.writeEffect scope ref key)) _ machine)
  cases chosen : machine.heap.writeEffect scope ref key with
  | error cause =>
      have converts := Converts.writeEffect machine.heap scope ref key
      exact fail here (converts.2 cause chosen) machine onward
  | ok effect =>
      rcases Heap.writeEffect_cases chosen with ⟨rfl, -⟩ | ⟨thawed, added | replaced⟩
      · exact ⟨valid, trivial, rfl⟩
      · rcases added with ⟨rfl, absent⟩
        refine ⟨logic.moves valid (.edit ?_), trivial, rfl⟩
        exact .add ref key value span thawed absent (held.later onward)
      · rcases replaced with ⟨rfl, old, present, writable⟩
        refine ⟨logic.moves valid (.edit ?_), trivial, rfl⟩
        exact .replace ref key value old thawed present writable (held.later onward)

theorem writeMember {target : Value} {name : String} {value : Value} {refusal : Cause}
    {scope : FrameRef} (here : logic.place span) (ordinary : refusal.isStrayJump = false)
    (held : logic.Held world value) :
    logic.Relates world (Run.writeMember target name value refusal scope span)
      (Run.writeMember target name value refusal scope span) := by
  apply reads.andThen
  intro members
  cases members with
  | some ref => exact writeProperty here held
  | none => exact fail here ordinary

theorem writeIndex {target index value : Value} {scope : FrameRef} (here : logic.place span)
    (held : logic.Held world value) :
    logic.Relates world (Run.writeIndex target index value scope span)
      (Run.writeIndex target index value scope span) := by
  unfold Run.writeIndex
  split
  · apply (lift here (Converts.writePosition index)).andThen
    intro position
    exact modifyList fun machine onward =>
      heldItems_placeAt (held_list (logic.self onward) _) (held.later onward) position
  · apply reads.andThen
    intro members
    cases members with
    | some ref => exact text.andThen fun _ => writeProperty here held
    | none => exact fail here rfl

/-! ## Computing -/

theorem binary {op : BinaryOp} {left right : Value} (here : logic.place span) :
    logic.Relates world (Run.binary op left right span) (Run.binary op left right span)
      logic.Held := by
  unfold Run.binary
  split
  · apply items.bind
    intro middle one _ heldOne
    apply items.bind
    intro after two onward heldTwo
    refine newList fun item member => ?_
    rw [Array.toList_append] at member
    rcases List.mem_append.mp member with inOne | inTwo
    · exact (heldOne item inOne).later onward
    · exact heldTwo item inTwo
  · exact readThen fun machine _ => conversion here (Converts.binary machine.heap op left right)

theorem receiver {scope : FrameRef} (here : logic.place span) :
    logic.Relates world (Run.receiver scope span) (Run.receiver scope span) logic.Held := by
  refine readThen fun machine onward => ?_
  cases found : machine.heap.lookup? scope receiverName with
  | some binding => exact value (held_lookup (logic.self onward) found)
  | none => exact fail here rfl

/-- Each time a method is read it becomes a new function, which keeps what it was read from. -/
theorem builtinMember {target : Value} {name : String} {member : BuiltinMember}
    (held : logic.Held machine target)
    (found : target.builtinMember? machine.heap name = some member) :
    logic.Relates machine member.toValue member.toValue logic.Held := by
  unfold Value.builtinMember? at found
  split at found
  · split at found
    · cases found
      exact value (held_of_isCopied trivial)
    · rcases Option.map_eq_some_iff.mp found with ⟨method, -, rfl⟩
      exact newBuiltin nofun
  · rcases Option.map_eq_some_iff.mp found with ⟨method, -, rfl⟩
    exact newBuiltin nofun
  · split at found
    · cases found
      exact value (held_of_isCopied trivial)
    · rcases Option.map_eq_some_iff.mp found with ⟨method, -, rfl⟩
      apply newBuiltin
      rintro _ _ ⟨⟩
      exact held
  · cases found

end Relates

namespace Covers

variable {asked : Code → Prop} {ev other : Evaluator} {scope : FrameRef}

/-- Known code may be blamed where it stands. -/
theorem here (covers : logic.Covers asked ev other) {code : Code} (known : asked code) :
    logic.place code.span :=
  logic.known_place _ (covers.known code known)

/-! ## Reading from objects, lists and texts -/

theorem readProperty (covers : logic.Covers asked ev other) {ref : ObjectRef} {key : String}
    (here : logic.place span) (held : logic.Held world (.object ref)) :
    logic.Relates world (ev.readProperty ref key scope span)
      (other.readProperty ref key scope span) logic.Held := by
  refine .readThen fun machine onward => ?_
  have readable := Converts.readableProperty machine.heap scope ref key
  refine (Relates.lift here readable).bind fun after found further origin => ?_
  have receiver := (held.later onward).later further
  cases found with
  | none => exact .value (held_of_isCopied trivial)
  | some property =>
      have present := origin.resolve_left nofun
      have stored := (held_property (logic.self onward) present.symm).later further
      dsimp only
      split
      · refine covers.call here stored ?_ nofun
        rintro _ ⟨⟩
        exact receiver
      · exact .value stored

theorem readProperties (covers : logic.Covers asked ev other) {ref : ObjectRef}
    {keys : List String} (here : logic.place span) (held : logic.Held world (.object ref)) :
    logic.Relates world (ev.readProperties ref keys scope span)
      (other.readProperties ref keys scope span)
      fun machine entries => ∀ entry ∈ entries, logic.Held machine entry.2 := by
  apply Relates.mapM
  · exact fun _ _ _ onward held => held.later onward
  · intro key _
    refine (covers.readProperty here held).bind fun _ _ _ value => ?_
    exact .pure fun _ onward => value.later onward

theorem readMember (covers : logic.Covers asked ev other) {target : Value} {name : String}
    (here : logic.place span) (held : logic.Held world target) :
    logic.Relates world (ev.readMember target name scope span)
      (other.readMember target name scope span) logic.Held := by
  refine .readThen fun machine onward => ?_
  cases answered : target.reflective? name with
  | some value => exact .value (held_of_isCopied (Value.reflective?_copied answered))
  | none =>
      cases found : machine.heap.members? target with
      | some ref =>
          exact covers.readProperty here
            (held_members (logic.self onward) (held.later onward) found)
      | none =>
          dsimp only
          split
          · exact .fail here rfl
          · refine .readThen fun after further => ?_
            cases found : target.builtinMember? after.heap name with
            | some member => exact .builtinMember ((held.later onward).later further) found
            | none => exact .fail here rfl

theorem readIndex (covers : logic.Covers asked ev other) {target index : Value}
    (here : logic.place span) (held : logic.Held world target) :
    logic.Relates world (ev.readIndex target index scope span)
      (other.readIndex target index scope span) logic.Held := by
  unfold Evaluator.readIndex
  split
  · refine (Relates.lift here (Converts.toIndex index)).andThen fun position => ?_
    exact .read fun _ onward => held_elementAt (held_list (logic.self onward) _) position
  · rename_i s
    refine (Relates.lift here (Converts.toIndex index)).andThen fun position => ?_
    exact .value (held_elementAt (heldItems_characters s) position)
  · exact .fail here rfl
  · refine .readThen fun machine onward => ?_
    cases found : machine.heap.members? target with
    | some ref =>
        have members := held_members (logic.self onward) (held.later onward) found
        exact Relates.text.andThen fun _ => covers.readProperty here members
    | none => exact .fail here rfl

/-! ## Operators -/

section Expressions

variable (covers : logic.Covers asked ev other) (inside : logic.evaluates world scope)
include covers inside

theorem evalText {expr : Expr} (known : asked (.expr expr)) :
    logic.Relates world (ev.evalText scope expr) (other.evalText scope expr) :=
  (covers.eval known inside).andThen fun _ => .text

theorem holds {expr : Expr} (known : asked (.expr expr)) :
    logic.Relates world (ev.holds expr scope) (other.holds expr scope) :=
  (covers.eval known inside).andThen fun _ => .isTrue

theorem binary {op : BinaryOp} {left right : Expr} (here : logic.place span)
    (leftKnown : asked (.expr left)) (rightKnown : asked (.expr right)) :
    logic.Relates world (ev.binary op left right scope span)
      (other.binary op left right scope span) logic.Held := by
  have decided : ∀ b, logic.Held world (.bool b) := fun _ => held_of_isCopied trivial
  unfold Evaluator.binary
  split
  · refine (covers.holds inside leftKnown).andThen fun answer => ?_
    cases answer with
    | true => exact (covers.holds inside rightKnown).andThen fun _ => .value (decided _)
    | false => exact .value (decided _)
  · refine (covers.holds inside leftKnown).andThen fun answer => ?_
    cases answer with
    | true => exact .value (decided _)
    | false => exact (covers.holds inside rightKnown).andThen fun _ => .value (decided _)
  · refine (covers.eval leftKnown inside).andThen fun _ => ?_
    exact (covers.eval rightKnown inside).andThen fun _ => .binary here

theorem unary {op : UnaryOp} {operand : Expr} (known : asked (.expr operand)) :
    logic.Relates world (ev.unary op operand scope) (other.unary op operand scope) logic.Held := by
  have here := covers.here known
  refine (covers.eval known inside).andThen fun value => ?_
  have number := Converts.toNumber value
  cases op with
  | not => exact Relates.isTrue.andThen fun _ => .value (held_of_isCopied trivial)
  | negate => exact (Relates.lift here number).andThen fun _ => .value (held_of_isCopied trivial)
  | plus => exact (Relates.lift here number).andThen fun _ => .value (held_of_isCopied trivial)

theorem updated {op : UpdateOp} {current : Value} {operand : Option Expr}
    (here : logic.place span) (known : ∀ expr ∈ operand, asked (.expr expr)) :
    logic.Relates world (ev.updated op current operand scope span)
      (other.updated op current operand scope span) logic.Held := by
  have evaluated : logic.Relates world (operand.mapM fun expr => ev.eval expr scope)
      (operand.mapM fun expr => other.eval expr scope) := by
    cases operand with
    | none => exact .done
    | some expr => exact (covers.eval (known expr rfl) inside).andThen fun _ => .done
  refine evaluated.andThen fun given => .readThen fun machine _ => ?_
  exact .conversion here (Converts.update machine.heap op current given)

/-- An update of a name assigns to the variable that it has read before: the name stays
bound while the operand is evaluated, so nothing is declared. -/
theorem update {op : UpdateOp} {target : Expr} {operand : Option Expr} (here : logic.place span)
    (targetHere : logic.place target.span)
    (assigns : ∀ name, target.node = .name name → logic.assigns name)
    (targetKnown : ∀ part ∈ target.node.parts, asked part)
    (operandKnown : ∀ expr ∈ operand, asked (.expr expr)) :
    logic.Relates world (ev.update op target operand scope span)
      (other.update op target operand scope span) logic.Held := by
  rcases target with ⟨node, targetSpan⟩
  cases node with
  | name name =>
      refine (Relates.lookup targetHere).bind fun middle current onward ⟨_, bound⟩ => ?_
      have inside := logic.evaluates_later onward inside
      refine (covers.updated inside here operandKnown).bind fun after next further held => ?_
      have settles : logic.Settles after scope name := fun final later unbound =>
        logic.settles (logic.trans further later) (assigns name rfl) bound unbound
      exact (Relates.assign here (assigns name rfl) settles held).andThen fun _ => .value held
  | index container position isOptional =>
      have containerKnown := targetKnown _ List.mem_cons_self
      have positionKnown := targetKnown _ (List.mem_cons_of_mem _ List.mem_cons_self)
      refine (covers.eval containerKnown inside).bind fun middle _ onward containerHeld => ?_
      have inside := logic.evaluates_later onward inside
      refine (covers.eval positionKnown inside).bind fun after _ further _ => ?_
      have inside := logic.evaluates_later further inside
      refine (covers.readIndex targetHere (containerHeld.later further)).andThen fun _ => ?_
      refine (covers.updated inside here operandKnown).bind fun _ _ _ held => ?_
      exact (Relates.writeIndex here held).andThen fun _ => .value held
  | member container property isOptional =>
      have containerKnown := targetKnown _ List.mem_cons_self
      refine (covers.eval containerKnown inside).bind fun middle _ onward containerHeld => ?_
      have inside := logic.evaluates_later onward inside
      refine (covers.readMember targetHere containerHeld).andThen fun _ => ?_
      refine (covers.updated inside here operandKnown).bind fun _ _ _ held => ?_
      exact (Relates.writeMember here rfl held).andThen fun _ => .value held
  | _ => exact .fail targetHere rfl

/-! ## Argument lists and literals -/

theorem argument {arg : Expr} (known : asked (.expr arg)) :
    logic.Relates world (ev.argument scope arg) (other.argument scope arg) logic.HeldItems := by
  have here := covers.here known
  unfold Evaluator.argument
  split
  · rename_i source shape
    have sourceKnown : asked (.expr source) :=
      covers.parts _ _ known (by simp [Code.parts, shape, ExprNode.parts])
    refine (covers.eval sourceKnown inside).andThen fun value => ?_
    split
    · exact Relates.items.bind fun _ _ _ held => .pure fun _ onward => held.later onward
    · exact .pure fun _ _ => heldItems_characters _
    · exact .fail here rfl
  · refine (covers.eval known inside).bind fun _ value _ held => .pure fun _ onward => ?_
    exact fun item member => List.mem_singleton.mp member ▸ held.later onward

theorem arguments {args : List Expr} (known : ∀ arg ∈ args, asked (.expr arg)) :
    logic.Relates world (ev.arguments scope args) (other.arguments scope args)
      logic.HeldItems := by
  have each := fun arg member => covers.argument inside (known arg member)
  refine (Relates.mapM (fun _ _ _ onward held => held.later onward) each).bind fun _ _ _ held => ?_
  refine .pure fun _ onward item member => ?_
  rcases List.mem_flatten.mp member with ⟨values, inLists, inValues⟩
  exact (held values inLists item inValues).later onward

theorem element {item : Expr} (known : asked (.expr item)) :
    logic.Relates world (ev.element scope item) (other.element scope item) logic.HeldItems := by
  have here := covers.here known
  unfold Evaluator.element
  split
  · rename_i source shape
    have sourceKnown : asked (.expr source) :=
      covers.parts _ _ known (by simp [Code.parts, shape, ExprNode.parts])
    refine (covers.eval sourceKnown inside).andThen fun value => ?_
    split
    · exact Relates.items.bind fun _ _ _ held => .pure fun _ onward => held.later onward
    · exact .fail here rfl
  · refine (covers.eval known inside).bind fun _ value _ held => .pure fun _ onward => ?_
    exact fun item member => List.mem_singleton.mp member ▸ held.later onward

theorem listLiteral {items : List Expr} (known : ∀ item ∈ items, asked (.expr item)) :
    logic.Relates world (ev.listLiteral scope items) (other.listLiteral scope items)
      logic.Held := by
  have each := fun item member => covers.element inside (known item member)
  refine (Relates.mapM (fun _ _ _ onward held => held.later onward) each).bind fun _ _ _ held => ?_
  refine .newList fun item member => ?_
  rcases List.mem_flatten.mp (by simpa using member) with ⟨values, inLists, inValues⟩
  exact held values inLists item inValues

theorem template (pieces : List String) (holes : List Expr)
    (known : ∀ hole ∈ holes, asked (.expr hole)) :
    logic.Relates world (ev.template scope pieces holes) (other.template scope pieces holes) := by
  have texts := fun hole member => covers.evalText inside (known hole member)
  induction pieces generalizing holes with
  | nil =>
      unfold Evaluator.template
      exact (Relates.mapM (fun _ _ _ _ _ => trivial) texts).andThen fun _ => .done
  | cons piece pieces ih =>
      cases holes with
      | nil => exact .done
      | cons hole holes =>
          refine (texts hole List.mem_cons_self).andThen fun _ => ?_
          have rest := ih holes (fun other member => known other (List.mem_cons_of_mem hole member))
            fun other member => texts other (List.mem_cons_of_mem hole member)
          exact rest.andThen fun _ => .done

theorem propertyKey {key : PropertyKey}
    (known : ∀ expr, key = .computed expr → asked (.expr expr)) :
    logic.Relates world (ev.propertyKey scope key) (other.propertyKey scope key) := by
  cases key with
  | named name => exact .done
  | computed expr => exact covers.evalText inside (known expr rfl)

end Expressions

/-- The methods of a literal close over a scope of their own, where nothing is evaluated yet. -/
theorem methodScope {object : ObjectRef} {methods : Option FrameRef}
    (inside : logic.evaluates world scope) (held : logic.Held world (.object object))
    (shared : ∀ ref ∈ methods, logic.Inside world ref) :
    logic.Relates world (Evaluator.methodScope scope object methods)
      (Evaluator.methodScope scope object methods) logic.Inside := by
  cases methods with
  | some methods => exact .pure fun _ onward => (shared methods rfl).later onward
  | none =>
      have around : logic.Inside world scope := (logic.inside_of_evaluates · inside)
      intro machine onward
      have entered := Run.enterCall_apply scope (some (.object object)) machine
      show logic.Concludes machine logic.Inside
        (Run.enterCall scope (some (.object object)) machine)
        (Run.enterCall scope (some (.object object)) machine)
      rw [entered]
      refine ⟨logic.moves (logic.self onward) (.edit ?_), fun _ => ?_, rfl⟩
      · refine .enterCall scope _ (around.later onward) ?_
        rintro _ ⟨⟩
        exact held.later onward
      · exact Heap.hasFrame_allocFrame _ _

/-- A function that stands in an expression is known as the expression is. -/
theorem known_closure (covers : logic.Covers asked ev other) {decl : FunctionDecl}
    (known : asked (.expr ⟨.function decl, span⟩)) : logic.known (.function decl) :=
  logic.known_parts _ _ (covers.known _ known) List.mem_cons_self

/-- A member goes into the object under construction, which no other code holds
restrictions on yet. -/
theorem literalMember (covers : logic.Covers asked ev other)
    (inside : logic.evaluates world scope) {object : ObjectRef} {methods : Option FrameRef}
    {entry : LiteralMember} (owned : logic.owns object) (held : logic.Held world (.object object))
    (shared : ∀ ref ∈ methods, logic.Inside world ref) (known : ∀ part ∈ entry.parts, asked part) :
    logic.Relates world (ev.literalMember scope object methods entry)
      (other.literalMember scope object methods entry)
      fun machine methods => ∀ ref ∈ methods, logic.Inside machine ref := by
  have passed : ∀ {after : Machine}, logic.leads world after →
      ∀ ref ∈ methods, logic.Inside after ref :=
    fun onward ref member => (shared ref member).later onward
  cases entry with
  | spread source =>
      have sourceKnown := known _ List.mem_cons_self
      refine (covers.eval sourceKnown inside).bind fun middle value onward _ => ?_
      cases value with
      | object ref =>
          refine .readThen fun machine further => ?_
          have copied : ∀ entry ∈ (machine.heap.object ref).properties.entries,
              logic.Held machine entry.2.value := fun entry member tracks =>
            (logic.formed tracks (logic.self further)).heap.objects ref entry member
          refine (Relates.forM fun entry member => ?_).bind fun _ _ later _ => ?_
          · exact .insertProperty owned (copied entry member)
          · refine .pure fun _ last => passed ?_
            exact logic.trans (logic.trans onward further) (logic.trans later last)
      | _ => exact .fail (covers.here sourceKnown) rfl
  | property key value access isMethod span =>
      have keyKnown : ∀ expr, key = .computed expr → asked (.expr expr) := by
        rintro expr rfl
        exact known _ List.mem_cons_self
      have valueKnown : asked (.expr value) := by
        cases key with
        | named name => exact known _ List.mem_cons_self
        | computed expr => exact known _ (List.mem_cons_of_mem _ List.mem_cons_self)
      refine (covers.propertyKey inside keyKnown).andThen fun key => ?_
      rcases value with ⟨node, valueSpan⟩
      split
      · rename_i decl shape _
        cases shape
        refine (methodScope inside held shared).bind fun middle inner onward innerInside => ?_
        refine (Relates.newClosure (covers.known_closure valueKnown) innerInside).bind
          fun after function further functionHeld => ?_
        refine (Relates.insertProperty owned functionHeld).bind fun _ _ later _ => ?_
        refine .pure fun _ last ref same => ?_
        cases same
        exact (innerInside.later further).later (logic.trans later last)
      · refine (covers.eval valueKnown inside).bind fun middle _ onward valueHeld => ?_
        refine (Relates.insertProperty owned valueHeld).bind fun _ _ later _ => ?_
        exact .pure fun _ last => passed (logic.trans onward (logic.trans later last))

theorem objectLiteral (covers : logic.Covers asked ev other)
    (inside : logic.evaluates world scope) {members : List LiteralMember}
    (known : ∀ entry ∈ members, ∀ part ∈ entry.parts, asked part) :
    logic.Relates world (ev.objectLiteral scope members) (other.objectLiteral scope members)
      logic.Held := by
  refine Relates.newEmptyObject.bind fun middle object onward ⟨owned, held⟩ => ?_
  have lasting : logic.Lasting fun machine (methods : Option FrameRef) =>
      ∀ ref ∈ methods, logic.Inside machine ref :=
    fun _ _ _ onward shared ref member => (shared ref member).later onward
  have none : ∀ ref ∈ (none : Option FrameRef), logic.Inside middle ref := by
    rintro _ ⟨⟩
  refine (Relates.foldlM lasting none fun entry member after methods further shared => ?_).bind
    fun _ _ later _ => .value (held.later later)
  have inside := logic.evaluates_later (logic.trans onward further) inside
  exact covers.literalMember inside owned (held.later further) shared (known entry member)

end Covers

end Logic

end Hati
