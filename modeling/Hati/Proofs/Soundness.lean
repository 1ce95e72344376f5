import Hati.Proofs.Logic.Programs

namespace Hati

/-!
# Evaluation is sound

However an evaluation ends, it has only taken steps.  So the heap stays well formed and
grows, and what evaluation gives is held by the heap that it ends with.

A new machine is reached by steps as well: it begins as a bare one, and installing the
outermost scope takes the steps to it.
-/

namespace Machine

/-- Steps lead from one machine to the other. -/
def Reaches (machine after : Machine) : Prop :=
  ∃ deeds, machine.Trace deeds after

namespace Reaches

variable {machine middle after : Machine}

theorem refl (machine : Machine) : machine.Reaches machine :=
  ⟨[], .refl machine⟩

theorem step {deeds : List Deed} (step : machine.Step deeds after) : machine.Reaches after :=
  ⟨deeds, step.single⟩

theorem trans (first : machine.Reaches middle) (second : middle.Reaches after) :
    machine.Reaches after := by
  obtain ⟨deeds, first⟩ := first
  obtain ⟨more, second⟩ := second
  exact ⟨deeds ++ more, first.trans second⟩

theorem grows (reached : machine.Reaches after) (formed : machine.WellFormed) :
    machine.heap.Grows after.heap := by
  obtain ⟨deeds, trace⟩ := reached
  exact (trace.keeps formed).1

theorem wellFormed (reached : machine.Reaches after) (formed : machine.WellFormed) :
    after.WellFormed := by
  obtain ⟨deeds, trace⟩ := reached
  exact (trace.keeps formed).2.1

/-- A step of the heap, after which the machine is well formed again. -/
theorem ofHeap (formed : machine.WellFormed) {deeds : List Deed} {heap : Heap}
    (step : machine.heap.Step deeds heap) :
    machine.Reaches { machine with heap } ∧ WellFormed { machine with heap } ∧
      machine.heap.Grows heap := by
  have reached := Reaches.step (.heap step)
  exact ⟨reached, reached.wellFormed formed, reached.grows formed⟩

/-- A new frame may be given a binding, as long as nothing else has happened. -/
theorem bindFresh {frame : Frame} (formed : machine.WellFormed)
    (allocated : machine.Reaches { machine with heap := (machine.heap.allocFrame frame).2 })
    (name : String) {value : Value} (held : machine.heap.Holds value) :
    machine.Reaches
      { machine with
        heap := (machine.heap.allocFrame
          { frame with bindings := frame.bindings.insert name { value } }).2 } := by
  have bound : Heap.Step (machine.heap.allocFrame frame).2 []
      ((machine.heap.allocFrame frame).2.bind (machine.heap.allocFrame frame).1 name { value }) :=
    .bind (held.mono (allocated.grows formed))
  rw [Heap.bind_allocFrame] at bound
  exact allocated.trans (ofHeap (allocated.wellFormed formed) bound).1

end Reaches

end Machine

namespace Heap

/-- A change of an object matters only where it is applied. -/
theorem modifyObject_congr {heap : Heap} {ref : ObjectRef} {change other : Object → Object}
    (same : change (heap.object ref) = other (heap.object ref)) :
    heap.modifyObject ref change = heap.modifyObject ref other := by
  have objects : heap.objects.modify ref.index change = heap.objects.modify ref.index other := by
    refine Array.ext (by simp) fun index allocated _ => ?_
    simp only [Array.getElem_modify]
    split
    · rename_i here
      subst here
      simpa [Heap.object, Array.getD_eq_getD_getElem?, Array.size_modify ▸ allocated] using same
    · rfl
  simp only [modifyObject, objects]

/-- Replacing a value is writing the property again with another value. -/
theorem modifyObject_replaceValue {heap : Heap} {ref : ObjectRef} {key : String} {value : Value}
    {old : Property} (present : (heap.object ref).properties.get? key = some old) :
    (heap.modifyObject ref fun object => object.replaceValue key value) =
      heap.modifyObject ref fun object => object.insert key { old with value } :=
  modifyObject_congr (by simp only [Object.replaceValue, present])

end Heap

/-! ## Moves as steps -/

namespace Logic

variable {terms : Terms} {machine after : Machine}

/-- Frames that come with bindings are allocated and filled step by step; all other edits
are single steps. -/
theorem Edit.reaches (tracks : terms.tracks) (formed : machine.WellFormed) {heap : Heap}
    (edit : Edit terms machine.heap heap) : machine.Reaches { machine with heap } := by
  have opens : ∀ {parent}, machine.heap.HasFrame parent →
      machine.Reaches
        { machine with heap := (machine.heap.allocFrame { parent := some parent }).2 } :=
    fun inside => .step (.heap (.allocFrame inside))
  cases edit with
  | enterCall closure receiver inside held =>
      cases receiver with
      | none => exact opens (inside tracks)
      | some value =>
          exact .bindFresh formed (opens (inside tracks)) receiverName (held value rfl tracks)
  | enterClass owner receiver owned held =>
      have scope := (formed.heap.classes owner (owned tracks)).scope
      have called : machine.Reaches
          { machine with
            heap := (machine.heap.allocFrame
              (.ofCall (machine.heap.class owner).scope (some receiver))).2 } :=
        .bindFresh formed (opens scope) receiverName (held tracks)
      exact .bindFresh formed called ownerName (owned tracks)
  | declare scope name binding permitted held => exact .step (.heap (.bind (held tracks)))
  | assign frame name value old present changeable permitted held =>
      exact .step (.heap (.bind (held tracks)))
  | newList items held => exact .step (.heap (.allocList (held tracks)))
  | modifyList ref change held => exact .step (.heap (.modifyList (held tracks)))
  | newObject object distinct held unlinked =>
      exact .step (.heap (.allocObject (held tracks) (unlinked tracks)))
  | insert ref key property owned held => exact .step (.heap (.write (held tracks)))
  | add ref key value span thawed absent held => exact .step (.heap (.write (held tracks)))
  | replace ref key value old thawed present writable held =>
      rw [Heap.modifyObject_replaceValue present]
      exact .step (.heap (.write (held tracks)))
  | freeze ref => exact .step (.heap .freeze)
  | clear ref permitted => exact .step (.heap .clear)
  | newBuiltin builtin held => exact .step (.heap (.allocFunction (held tracks)))
  | newClosure decl scope known inside => exact .step (.heap (.allocFunction (inside tracks)))
  | newClass cls known statics above inside =>
      exact .step (.heap (.declare (above tracks) (inside tracks) statics))

theorem Move.reaches (tracks : terms.tracks) (formed : machine.WellFormed)
    (move : Move terms machine after) : machine.Reaches after := by
  cases move with
  | edit edit => exact edit.reaches tracks formed
  | make cls span held => exact .step (.make (held tracks))
  | print console => exact .step .print
  | note event harmless otherwise => exact .step (.note otherwise)
  | report fault job admitted => exact .step (.note rfl)
  | schedule scheduler held => exact .step (.schedule (held tracks))

/-- Evaluation reaches what it comes to, and all references are tracked. -/
def sound : Logic where
  leads machine after := machine.WellFormed ∧ machine.Reaches after
  ends _ := True
  tracks := True
  known _ := True
  place _ := True
  binds _ := True
  assigns _ := True
  declares _ _ := True
  owns _ := True
  clears := True
  evaluates machine scope := machine.heap.HasFrame scope
  executes machine scope := machine.heap.HasFrame scope
  self led := ⟨led.2.wellFormed led.1, .refl _⟩
  trans first second := ⟨first.1, first.2.trans second.2⟩
  moves valid move := ⟨valid.1, move.reaches trivial valid.1⟩
  constructs := by
    intro machine cls valid held
    have enters := @Machine.Step.enter machine machine.callDepth (some cls)
      fun other same => by
        cases same
        exact held trivial
    have entered := Machine.Reaches.step enters
    refine ⟨⟨entered.wellFormed valid.1, .refl _⟩, fun after led => ⟨valid.1, ?_⟩⟩
    have reached := entered.trans led.2
    have grown := reached.grows valid.1
    exact reached.trans (.step (.enter fun other member =>
      (valid.1.constructing other member).mono grown))
  formed _ valid := valid.1
  grows _ led := led.2.grows led.1
  draws _ := ⟨fun _ _ _ _ _ => trivial, fun _ _ _ _ => trivial⟩
  ends_fault _ _ _ _ := trivial
  ends_stray _ _ _ _ _ := trivial
  ends_exit _ := trivial
  ends_orAt _ _ _ _ := trivial
  abandons_orAt _ _ impossible := impossible
  known_parts _ _ _ _ := trivial
  known_place _ _ := trivial
  known_binds _ _ _ _ := trivial
  known_assigns _ _ _ _ := trivial
  known_clears _ _ _ _ := trivial
  evaluates_later led inside := inside.mono (led.2.grows led.1)
  executes_later led inside := inside.mono (led.2.grows led.1)
  evaluates_of_executes inside := inside
  inside_of_evaluates _ inside := inside
  opens _ _ := Heap.hasFrame_allocFrame _ _
  receives _ := Heap.hasFrame_allocFrame _ _
  declares_fresh _ _ _ := trivial
  owns_fresh _ := trivial
  settles _ _ _ _ := trivial

theorem sound_deepens : sound.Deepens sound where
  enters valid _ :=
    have entered := Machine.Reaches.step (.enter valid.1.constructing)
    ⟨entered.wellFormed valid.1, .refl _⟩
  leaves := by
    intro machine after valid led
    have entered : machine.Reaches machine.deeper := .step (.enter valid.1.constructing)
    have reached := entered.trans led.2
    exact ⟨valid.1, reached.trans (.step (.enter (reached.wellFormed valid.1).constructing))⟩
  ends _ _ := trivial
  abandons _ impossible := impossible
  tracks := .rfl
  known _ _ := trivial
  place _ _ := trivial
  binds _ := trivial
  executes _ := Heap.hasFrame_allocFrame _ _

theorem sound_covers (fuel : Nat) : sound.Covers (fun _ => True) (.ofFuel fuel) (.ofFuel fuel) :=
  covers_ofFuel trivial sound_deepens fuel

/-- A statement may be executed in any scope of the heap. -/
theorem sound_admits {stmt : Stmt} {scope : FrameRef} (inside : machine.heap.HasFrame scope) :
    sound.Admits machine stmt scope :=
  Open.admits ⟨inside, fun _ _ => trivial⟩ trivial

end Logic

/-! ## A new machine -/

namespace Machine

variable (settings : Settings) (outputLimit : Option Nat) (threads : ThreadPolicy)

theorem bare_wellFormed : (bare settings outputLimit threads).WellFormed where
  heap :=
    { frames := fun ref => by
        have empty : (bare settings outputLimit threads).heap.frame ref = {} := by
          simp only [bare, Heap.frame, Array.getD_eq_getD_getElem?, List.getElem?_toArray]
          rcases ref with ⟨_ | index⟩ <;> rfl
        rw [empty]
        exact ⟨fun _ isParent => (by cases isParent), fun _ member => (by cases member)⟩
      lists := fun _ _ member => by cases member
      objects := fun _ _ member => by cases member
      functions := fun _ => trivial
      classes := fun _ impossible => absurd impossible (Nat.not_lt_zero _)
      statics := fun _ _ impossible => absurd impossible (Nat.not_lt_zero _) }
  globals := Nat.zero_lt_one
  constructing _ current := by cases current
  tasks _ member := by cases member

theorem bare_reaches_new :
    (bare settings outputLimit threads).Reaches (new settings outputLimit threads) := by
  have valid : Logic.sound.leads (bare settings outputLimit threads)
      (bare settings outputLimit threads) :=
    ⟨bare_wellFormed settings outputLimit threads, .refl _⟩
  have led : Logic.sound.leads (bare settings outputLimit threads)
      (new settings outputLimit threads) := Logic.Relates.leads_new (fun _ => trivial) valid
  exact led.2

theorem new_wellFormed : (new settings outputLimit threads).WellFormed :=
  (bare_reaches_new settings outputLimit threads).wellFormed
    (bare_wellFormed settings outputLimit threads)

end Machine

end Hati
