import Hati.Interpreter
import Hati.Proofs.Allocation
import Hati.Proofs.Jumps

namespace Hati

/-!
# Conversions

The rules leave it to conversions to find out what a value stands for, or why it stands
for nothing.  A conversion sees the heap at most, so two facts about it serve every logic:
what it gives is no new reference, and when it fails it does not blame a jump.
-/

/-! ## Values that refer to no cell -/

namespace Value

/-- The value is copied, so it refers to no cell. -/
def IsCopied : Value → Prop
  | null | number _ | text _ | bool _ => True
  | _ => False

theorem IsCopied.holds {value : Value} (copied : value.IsCopied) (heap : Heap) :
    heap.Holds value := by
  cases value with
  | null | number x | text s | bool b => trivial
  | _ => exact copied.elim

theorem reflective?_copied {value answer : Value} {name : String}
    (answered : value.reflective? name = some answer) : answer.IsCopied := by
  unfold reflective? at answered
  split at answered
  · cases answered
    trivial
  · rcases Option.map_eq_some_iff.mp answered with ⟨type, -, rfl⟩
    trivial

end Value

/-- The answer is a copied value, or parts that are texts. -/
def TextAnswer.IsCopied : TextAnswer → Prop
  | value given => given.IsCopied
  | parts _ => True

namespace Text

theorem charAt_copied (s : String) (position : Int) : (charAt s position).IsCopied := by
  unfold charAt
  split
  · trivial
  · split <;> trivial

theorem indexOf_copied (s needle : String) : (indexOf s needle).IsCopied := by
  unfold indexOf
  split <;> trivial

end Text

/-! ## What a conversion comes to -/

/-- A conversion gives what is wanted, or fails without blaming a jump. -/
def Converts {α : Type} (conversion : Except Cause α) (holds : α → Prop := fun _ => True) : Prop :=
  (∀ a, conversion = .ok a → holds a) ∧
    ∀ cause, conversion = .error cause → cause.isStrayJump = false

namespace Converts

variable {α β : Type} {conversion : Except Cause α} {holds : α → Prop}

theorem ok {a : α} (wanted : holds a) : Converts (.ok a) holds := by
  constructor
  · rintro _ ⟨⟩
    exact wanted
  · rintro _ ⟨⟩

theorem error {cause : Cause} (ordinary : cause.isStrayJump = false) :
    Converts (.error cause : Except Cause α) holds := by
  constructor
  · rintro _ ⟨⟩
  · rintro _ ⟨⟩
    exact ordinary

theorem bind {next : α → Except Cause β} {last : β → Prop} (converts : Converts conversion)
    (rest : ∀ a, Converts (next a) last) : Converts (conversion >>= next) last := by
  cases conversion with
  | ok a => exact rest a
  | error cause => exact error (converts.2 cause rfl)

theorem map {f : α → β} {last : β → Prop} (converts : Converts conversion)
    (wanted : ∀ a, last (f a)) : Converts (conversion.map f) last := by
  cases conversion with
  | ok a => exact ok (wanted a)
  | error cause => exact error (converts.2 cause rfl)

theorem mapM {f : α → Except Cause β} (each : ∀ a, Converts (f a)) (items : List α) :
    Converts (items.mapM f) := by
  induction items with
  | nil =>
      rw [List.mapM_nil]
      exact ok trivial
  | cons item items ih =>
      rw [List.mapM_cons]
      exact bind (each item) fun _ => bind ih fun _ => ok trivial

/-! ## Numbers and operators -/

theorem toNumber (value : Value) : Converts value.toNumber := by
  unfold Value.toNumber
  split
  · exact ok trivial
  · exact ok trivial
  · split
    · exact ok trivial
    · exact error rfl
  · exact error rfl

theorem toIndex (value : Value) : Converts value.toIndex := by
  apply bind (toNumber value)
  intro x
  split
  · exact error rfl
  · exact ok trivial

theorem arithmetic (f : Float → Float → Float) (left right : Value) :
    Converts (Value.arithmetic f left right) Value.IsCopied :=
  bind (toNumber left) fun _ => bind (toNumber right) fun _ => ok trivial

theorem division (f : Float → Float → Float) {byZero : Cause} (left right : Value)
    (ordinary : byZero.isStrayJump = false) :
    Converts (Value.division f byZero left right) Value.IsCopied := by
  apply bind (toNumber left)
  intro x
  apply bind (toNumber right)
  intro y
  split
  · exact error ordinary
  · exact ok trivial

theorem comparison (accepted : List Ordering) (left right : Value) :
    Converts (Value.comparison accepted left right) Value.IsCopied := by
  have ordered : Converts (left.order? right) := by
    unfold Value.order?
    split
    · exact ok trivial
    · exact bind (toNumber _) fun _ => bind (toNumber _) fun _ => ok trivial
  exact bind ordered fun _ => ok trivial

theorem binary (heap : Heap) (op : BinaryOp) (left right : Value) :
    Converts (Value.binary heap op left right) Value.IsCopied := by
  cases op with
  | add =>
      show Converts (Value.sum heap left right) Value.IsCopied
      unfold Value.sum
      split
      · exact ok trivial
      · exact arithmetic _ left right
  | subtract | multiply | power => exact arithmetic _ left right
  | divide | modulo => exact division _ left right rfl
  | equal | notEqual | strictEqual | strictNotEqual | and | or => exact ok trivial
  | less | greater | lessEqual | greaterEqual => exact comparison _ left right

theorem update (heap : Heap) (op : UpdateOp) (current : Value) (operand : Option Value) :
    Converts (op.apply heap current operand) Value.IsCopied := by
  have numeric : ∀ value, Converts (op.numeric value) := by
    intro value
    unfold UpdateOp.numeric
    split
    · exact ok trivial
    · exact error rfl
  have arithmetic : ∀ f operand, Converts (op.arithmetic f current operand) Value.IsCopied :=
    fun f operand => bind (numeric current) fun _ => bind (numeric operand) fun _ => ok trivial
  unfold UpdateOp.apply
  split
  · exact arithmetic _ _
  · exact arithmetic _ _
  · exact error rfl
  · split
    · exact ok trivial
    · exact arithmetic _ _
  · exact arithmetic _ _
  · exact arithmetic _ _

/-! ## Names, properties and positions -/

/-- Only a constant stops an assignment. -/
theorem assignmentFrame (heap : Heap) (scope : FrameRef) (name : String) :
    Converts (heap.assignmentFrame scope name) := by
  unfold Heap.assignmentFrame
  split
  · exact ok trivial
  · split
    · exact error rfl
    · exact ok trivial

theorem readableProperty (heap : Heap) (scope : FrameRef) (ref : ObjectRef) (key : String) :
    Converts (heap.readableProperty scope ref key) fun found =>
      found = none ∨ found = (heap.object ref).properties.get? key := by
  unfold Heap.readableProperty
  split
  · exact ok (.inl rfl)
  · rename_i property present
    split
    · exact error rfl
    · exact ok (.inr present.symm)

theorem writeEffect (heap : Heap) (scope : FrameRef) (ref : ObjectRef) (key : String) :
    Converts (heap.writeEffect scope ref key) := by
  unfold Heap.writeEffect
  dsimp only
  split
  · exact ok trivial
  · split
    · exact ok trivial
    · split
      · exact error rfl
      · split
        · exact ok trivial
        · split
          · exact ok trivial
          · exact error rfl

theorem writePosition (index : Value) : Converts (writePosition index) := by
  apply bind (toIndex index)
  intro position
  split
  · exact error rfl
  · split
    · exact error rfl
    · exact ok trivial

theorem boundArgument (args : List Value) (position length default : Nat) :
    Converts (boundArgument args position length default) := by
  unfold Hati.boundArgument
  split
  · exact ok trivial
  · exact ok trivial
  · exact bind (toIndex _) fun _ => ok trivial

theorem rangeArguments (args : List Value) (length : Nat) :
    Converts (rangeArguments args length) :=
  bind (boundArgument args 0 length 0) fun _ =>
    bind (boundArgument args 1 length length) fun _ => ok trivial

/-! ## Methods of texts and numbers -/

theorem textArgument (method : TextMethod) (args : List Value) (position : Nat) :
    Converts (method.textArgument args position) := by
  unfold TextMethod.textArgument
  split
  · exact ok trivial
  · exact error rfl

theorem flagsArgument (method : TextMethod) (args : List Value) (position : Nat) :
    Converts (method.flagsArgument args position) := by
  unfold TextMethod.flagsArgument
  split
  · exact ok trivial
  · exact ok trivial
  · exact textArgument method args position

theorem regex (pattern letters : String) : Converts (TextMethod.regex pattern letters) := by
  have flags : ∀ (letters : List Char) start,
      Converts (letters.foldlM TextMethod.withFlag start) := by
    intro letters
    induction letters with
    | nil => exact fun _ => ok trivial
    | cons letter letters ih =>
        intro start
        rw [List.foldlM_cons]
        apply bind _ ih
        unfold TextMethod.withFlag
        split
        · exact ok trivial
        · exact error rfl
  apply bind (flags _ _)
  intro _
  split
  · exact ok trivial
  · exact error rfl

theorem repetition (s : String) (count : Value) : Converts (Text.repetition s count) := by
  apply bind (toNumber count)
  intro x
  split
  · exact error rfl
  · dsimp only
    split
    · exact ok trivial
    · exact error rfl

theorem textAnswer (method : TextMethod) (s : String) (args : List Value) :
    Converts (method.answer s args) TextAnswer.IsCopied := by
  have given := textArgument method args
  cases method with
  | len | upper | lower | trim => exact ok trivial
  | split | contains | startsWith | endsWith => exact bind (given 0) fun _ => ok trivial
  | indexOf => exact bind (given 0) fun needle => ok (Text.indexOf_copied s needle)
  | replace => exact bind (given 0) fun _ => bind (given 1) fun _ => ok trivial
  | «repeat» => exact bind (repetition s _) fun _ => ok trivial
  | charAt => exact bind (toIndex _) fun position => ok (Text.charAt_copied s position)
  | slice => exact bind (rangeArguments args _) fun _ => ok trivial
  | «match» =>
      apply bind (given 0)
      intro pattern
      apply bind (flagsArgument _ args 1)
      exact fun flags => bind (regex pattern flags) fun _ => ok trivial
  | replaceRegex =>
      apply bind (given 0)
      intro pattern
      apply bind (given 1)
      intro replacement
      apply bind (flagsArgument _ args 2)
      exact fun flags => bind (regex pattern flags) fun _ => ok trivial

theorem fixed (x : Float) (args : List Value) : Converts (Number.fixed x args) := by
  have shown : ∀ digits : Float, Converts (
      if 0 ≤ digits && digits ≤ 100 then .ok (Decimal.fixedText x digits.toUInt64.toNat)
      else .error (.fixedDigits (Number.text digits))) := by
    intro digits
    split
    · exact ok trivial
    · exact error rfl
  unfold Number.fixed
  split
  · exact bind (ok trivial) shown
  · exact bind (ok trivial) shown
  · exact bind (toNumber _) shown

theorem numberAnswer (method : NumberMethod) (x : Float) (args : List Value) :
    Converts (method.answer x args) Value.IsCopied := by
  cases method with
  | toFixed => exact map (fixed x args) fun _ => trivial
  | abs | round | floor | ceil | toString => exact ok trivial

/-! ## Methods of lists -/

section Elements

variable {holds : Value → Prop} {items : Array Value}

theorem mem_of_mem_extract {item : Value} {start stop : Nat}
    (member : item ∈ (items.extract start stop).toList) : item ∈ items.toList := by
  rw [Array.toList_extract] at member
  exact List.mem_of_mem_drop (List.mem_of_mem_take member)

/-- A splice takes the list apart. -/
theorem cut (held : ∀ item ∈ items.toList, holds item) (args : List Value) :
    Converts (Elements.cut items args) fun cut => (∀ item ∈ cut.front.toList, holds item) ∧
      (∀ item ∈ cut.removed.toList, holds item) ∧ ∀ item ∈ cut.back.toList, holds item := by
  have counted : ∀ start, Converts (Elements.removalCount args[1]? (items.size - start)) := by
    intro start
    unfold Elements.removalCount
    split
    · exact ok trivial
    · exact ok trivial
    · exact bind (toIndex _) fun _ => ok trivial
  apply bind (toIndex _)
  intro index
  apply bind (counted _)
  intro count
  apply ok
  exact ⟨fun item member => held item (mem_of_mem_extract member),
    fun item member => held item (mem_of_mem_extract member),
    fun item member => held item (mem_of_mem_extract member)⟩

theorem slice (held : ∀ item ∈ items.toList, holds item) (args : List Value) :
    Converts (Elements.slice items args) fun picked => ∀ item ∈ picked.toList, holds item :=
  bind (rangeArguments args items.size) fun _ =>
    ok fun item member => held item (mem_of_mem_extract member)

end Elements

/-! ## Global functions -/

theorem toJson (heap : Heap) (value : Value) : Converts (value.toJson heap) := by
  have walked : ∀ fuel opened value, Converts (Value.toJsonFrom heap fuel opened value) := by
    intro fuel
    induction fuel with
    | zero => exact fun _ _ => error rfl
    | succ fuel ih =>
        intro opened value
        unfold Value.toJsonFrom
        split
        · exact ok trivial
        · exact ok trivial
        · exact ok trivial
        · exact ok trivial
        · split
          · exact error rfl
          · exact bind (mapM (ih _) _) fun _ => ok trivial
        · split
          · exact error rfl
          · exact bind (mapM (fun _ => bind (ih _ _) fun _ => ok trivial) _) fun _ => ok trivial
        · exact error rfl
  exact walked _ _ value

theorem exitCode (value : Option Value) : Converts (Run.exitCode value) := by
  unfold Run.exitCode
  split
  · exact ok trivial
  · exact ok trivial
  · exact bind (toNumber _) fun _ => ok trivial

theorem timerId (args : List Value) : Converts (timerId args) := by
  unfold Hati.timerId
  dsimp only
  split
  · split
    · exact ok trivial
    · exact error rfl
  · exact error rfl

theorem delay (value : Value) : Converts (Delay.ofValue value) := by
  unfold Delay.ofValue
  split
  · exact ok trivial
  · apply bind (toNumber _)
    intro millis
    split
    · exact ok trivial
    · exact ok trivial

section Timers

variable {holds : Value → Prop} {args : List Value} (held : ∀ arg ∈ args, holds arg)
include held

/-- A timer calls one of its arguments back with others of them. -/
theorem timerArguments (function : String) :
    Converts (TimerRequest.ofArguments function args) fun request =>
      holds request.task.callback ∧ ∀ arg ∈ request.task.arguments, holds arg := by
  have rest : ∀ arg ∈ args.drop 2, holds arg :=
    fun arg member => held arg (List.mem_of_mem_drop member)
  unfold TimerRequest.ofArguments
  dsimp only
  split
  · rename_i ref first
    apply bind (delay _)
    refine fun _ => ok ⟨?_, rest⟩
    rcases args with _ | ⟨arg, args⟩
    · cases first
    · exact held _ List.mem_cons_self
  · rename_i ref second _
    apply bind (delay _)
    refine fun _ => ok ⟨?_, rest⟩
    rcases args with _ | ⟨arg, _ | ⟨other, args⟩⟩
    · cases second
    · cases second
    · exact held _ (List.mem_cons_of_mem _ List.mem_cons_self)
  · exact error rfl

theorem napArguments (nothing : holds .null) :
    Converts (TimerRequest.ofNap args) fun request =>
      holds request.task.callback ∧ ∀ arg ∈ request.task.arguments, holds arg := by
  unfold TimerRequest.ofNap
  split
  · exact bind (delay _) fun _ => ok ⟨nothing, nofun⟩
  · exact timerArguments held _

end Timers

end Converts

end Hati
