import Hati.Proofs.Iteration
import Hati.Proofs.Splitting
import Hati.Proofs.TextPositions

namespace Hati

/-!
# Texts as lists of characters

A text that is split at the empty separator becomes the list of its characters.  The two have the
same length, the same elements, the same slices and the same iterations, and a spread text gives the
arguments that the spread list gives.  Where an argument is unfit for one of them, it is unfit for
the other, with the same fault.
-/

/-! ## The characters -/

section Characters

variable {s : String}

theorem Text.parts_empty (s : String) : (parts "" s).map Value.text = Value.characters s := by
  rw [parts, split, if_pos (by decide), List.map_map, List.map_map]
  rfl

theorem Value.length_characters (s : String) : (characters s).length = s.length := by
  rw [characters, List.length_map, String.length_toList]

/-- The characters of a slice are a slice of the characters. -/
theorem Value.characters_slice (s : String) (start stop : Nat) :
    characters (Text.slice s start stop) = ((characters s).drop start).take (stop - start) := by
  rw [characters, Text.slice, String.toList_ofList, List.drop_take, List.map_take, List.map_drop]
  rfl

theorem Text.charAt_eq_elementAt (s : String) (position : Int) :
    charAt s position = elementAt (Value.characters s).toArray position := by
  unfold charAt elementAt
  split
  · rfl
  · rw [Array.getD_eq_getD_getElem?, List.getElem?_toArray, Value.characters, List.getElem?_map]
    cases s.toList[position.toNat]? <;> rfl

end Characters

/-! ## Reading both -/

/-- What can be asked of a text and of a list has the same answer. -/
structure ReadAlike (ev : Evaluator) (scope : FrameRef) (span : Span) (machine : Machine)
    (s : String) (ref : ListRef) : Prop where
  length : ∀ name ∈ lengthNames,
    ev.readMember (.text s) name scope span machine = .ok (.ofNat s.length) machine ∧
    ev.readMember (.list ref) name scope span machine = .ok (.ofNat s.length) machine
  len : ∀ args, ev.runBuiltin (.text .len s) args scope span machine = .ok (.ofNat s.length) machine
  index : ∀ position, ev.readIndex (.text s) position scope span machine =
    ev.readIndex (.list ref) position scope span machine
  charAt : ∀ position rest,
    ev.runBuiltin (.text .charAt s) (position :: rest) scope span machine =
      ev.readIndex (.list ref) position scope span machine
  /-- Both slices fail alike, or the characters of the one are the elements of the other. -/
  slice : ∀ args,
    let ofText := ev.runBuiltin (.text .slice s) args scope span machine
    let ofList := ev.runListMethod .slice ref args scope span machine
    (∃ fault, ofText = .error (.fault fault) machine ∧ ofList = .error (.fault fault) machine) ∨
    ∃ part made after, ofText = .ok (.text part) machine ∧ ofList = .ok (.list made) after ∧
      machine.MakesList after made (Value.characters part) ∧
      ev.runListMethod .join made [.text ""] scope span after = .ok (.text part) after
  join : ev.runListMethod .join ref [.text ""] scope span machine = .ok (.text s) machine
  pairs : ev.iterationPairs (.text s) scope span machine =
    ev.iterationPairs (.list ref) scope span machine

section Reading

variable {ev : Evaluator} {scope : FrameRef} {span : Span} {machine : Machine} {s : String}
  {ref : ListRef}

theorem runListMethod_join_characters
    (content : machine.heap.list ref = (Value.characters s).toArray) :
    ev.runListMethod .join ref [.text ""] scope span machine = .ok (.text s) machine := by
  rw [← Text.parts_empty] at content
  rw [runListMethod_join content, Text.intercalate_parts]

theorem readIndex_characters (content : machine.heap.list ref = (Value.characters s).toArray)
    (position : Value) : ev.readIndex (.text s) position scope span machine =
      ev.readIndex (.list ref) position scope span machine := by
  show (do
    let position ← Run.lift span position.toIndex
    pure (elementAt (Value.characters s).toArray position) : Run Value) machine = (do
    let position ← Run.lift span position.toIndex
    Run.read fun heap => elementAt (heap.list ref) position : Run Value) machine
  rw [← content]
  cases position.toIndex <;> rfl

theorem runBuiltin_charAt (position : Value) (rest : List Value) :
    ev.runBuiltin (.text .charAt s) (position :: rest) scope span machine =
      ev.readIndex (.text s) position scope span machine := by
  show (Run.lift span (do
    let position ← position.toIndex
    .ok (.value (Text.charAt s position))) >>= Run.ofTextAnswer) machine = (do
    let position ← Run.lift span position.toIndex
    pure (elementAt (Value.characters s).toArray position) : Run Value) machine
  cases position.toIndex with
  | error cause => rfl
  | ok position =>
    exact congrArg (EStateM.Result.ok · machine) (Text.charAt_eq_elementAt s position)

theorem size_characters (content : machine.heap.list ref = (Value.characters s).toArray) :
    (machine.heap.list ref).size = s.length := by
  rw [content, List.size_toArray, Value.length_characters]

theorem readMember_length {name : String} (named : name ∈ lengthNames)
    (content : machine.heap.list ref = (Value.characters s).toArray) :
    ev.readMember (.text s) name scope span machine = .ok (.ofNat s.length) machine ∧
    ev.readMember (.list ref) name scope span machine = .ok (.ofNat s.length) machine := by
  have ofList : ev.readMember (.list ref) name scope span machine =
      .ok (.ofNat (machine.heap.list ref).size) machine := by
    rcases List.mem_pair.mp named with rfl | rfl <;> rfl
  rw [size_characters content] at ofList
  refine ⟨?_, ofList⟩
  rcases List.mem_pair.mp named with rfl | rfl <;> rfl

theorem slices_alike (content : machine.heap.list ref = (Value.characters s).toArray)
    (args : List Value) :
    let ofText := ev.runBuiltin (.text .slice s) args scope span machine
    let ofList := ev.runListMethod .slice ref args scope span machine
    (∃ fault, ofText = .error (.fault fault) machine ∧ ofList = .error (.fault fault) machine) ∨
    ∃ part made after, ofText = .ok (.text part) machine ∧ ofList = .ok (.list made) after ∧
      machine.MakesList after made (Value.characters part) ∧
      ev.runListMethod .join made [.text ""] scope span after = .ok (.text part) after := by
  intro ofText ofList
  cases begins : indexArgument args[0]? with
  | error cause =>
    exact .inl ⟨⟨cause, span⟩, runBuiltin_slice_of_unfit (.inl begins),
      slice_of_unfit (.inl begins)⟩
  | ok first =>
    cases ends : indexArgument args[1]? with
    | error cause =>
      exact .inl ⟨⟨cause, span⟩, runBuiltin_slice_of_unfit (.inr ⟨first, begins, ends⟩),
        slice_of_unfit (.inr ⟨first, begins, ends⟩)⟩
    | ok last =>
      obtain ⟨made, after, sliced, makes⟩ :=
        @slice_makes ev ref args scope span machine first last begins ends
      rw [size_characters content, content, ← Value.characters_slice] at makes
      exact .inr ⟨_, made, after, runBuiltin_slice begins ends, sliced, makes,
        runListMethod_join_characters makes.items⟩

theorem readAlike (content : machine.heap.list ref = (Value.characters s).toArray) :
    ReadAlike ev scope span machine s ref where
  length _ named := readMember_length named content
  len _ := rfl
  index := readIndex_characters content
  charAt position rest :=
    (runBuiltin_charAt position rest).trans (readIndex_characters content position)
  slice := slices_alike content
  join := runListMethod_join_characters content
  pairs := by
    show EStateM.Result.ok (Evaluator.numbered (Value.characters s)) machine =
      .ok (Evaluator.numbered (machine.heap.list ref).toList) machine
    rw [content]

/-! ## Going through both -/

section Expressions

variable {textual listed : Expr} {before beforeList : Machine}

theorem forIn_of_pairs {iterable : Expr} {source : Value} {pairs : List (Value × Value)}
    (evaluates : ev.eval iterable scope before = .ok source machine)
    (goes : ev.iterationPairs source scope iterable.span machine = .ok pairs machine)
    (first : String) (second : Option String) (body : List Stmt) :
    ev.statement ⟨.forIn first second iterable body, span⟩ scope before =
      ev.iterate scope first second body pairs machine := by
  have begins : ev.statement ⟨.forIn first second iterable body, span⟩ scope before = (do
      let pairs ← ev.iterationPairs source scope iterable.span
      ev.iterate scope first second body pairs : Run Signal) machine := Run.bind_of_ok evaluates
  exact begins.trans (Run.bind_of_ok goes)

theorem forIn_alike (content : machine.heap.list ref = (Value.characters s).toArray)
    (evaluates : ev.eval textual scope before = .ok (.text s) machine)
    (evaluatesList : ev.eval listed scope beforeList = .ok (.list ref) machine)
    (first : String) (second : Option String) (body : List Stmt) :
    ev.statement ⟨.forIn first second textual body, span⟩ scope before =
      ev.statement ⟨.forIn first second listed body, span⟩ scope beforeList := by
  have goes : ev.iterationPairs (.list ref) scope listed.span machine =
      .ok (Evaluator.numbered (machine.heap.list ref).toList) machine := rfl
  rw [content] at goes
  exact (forIn_of_pairs evaluates rfl first second body).trans
    (forIn_of_pairs evaluatesList goes first second body).symm

theorem argument_text (evaluates : ev.eval textual scope before = .ok (.text s) machine) :
    ev.argument scope ⟨.spread textual, span⟩ before = .ok (Value.characters s) machine :=
  Run.bind_of_ok evaluates

theorem argument_list (content : machine.heap.list ref = (Value.characters s).toArray)
    (evaluates : ev.eval listed scope before = .ok (.list ref) machine) :
    ev.argument scope ⟨.spread listed, span⟩ before = .ok (Value.characters s) machine := by
  refine (Run.bind_of_ok evaluates).trans ?_
  show EStateM.Result.ok (machine.heap.list ref).toList machine = _
  rw [content]

end Expressions

end Reading

namespace Evaluator

/-- A text that is split at the empty separator becomes the list of its characters, and such a list
answers as the text does, whatever the arguments: to its length, to an index, to a slice and to an
iteration.  A spread of the one gives the same arguments as a spread of the other. -/
theorem text_as_characters (ev : Evaluator) (scope : FrameRef) (span : Span) (machine : Machine)
    (s : String) :
    (∃ made after,
      ev.runBuiltin (.text .split s) [.text ""] scope span machine = .ok (.list made) after ∧
      machine.MakesList after made (Value.characters s)) ∧
    ∀ ref, machine.heap.list ref = (Value.characters s).toArray →
      ReadAlike ev scope span machine s ref ∧
      ∀ textual listed before beforeList,
        ev.eval textual scope before = .ok (.text s) machine →
        ev.eval listed scope beforeList = .ok (.list ref) machine →
        (∀ first second body,
          ev.statement ⟨.forIn first second textual body, span⟩ scope before =
            ev.statement ⟨.forIn first second listed body, span⟩ scope beforeList) ∧
        ev.argument scope ⟨.spread textual, span⟩ before = .ok (Value.characters s) machine ∧
        ev.argument scope ⟨.spread listed, span⟩ beforeList = .ok (Value.characters s) machine := by
  refine ⟨?_, fun ref content => ⟨readAlike content, fun textual listed before beforeList
    evaluates evaluatesList => ⟨forIn_alike content evaluates evaluatesList,
      argument_text evaluates, argument_list content evaluatesList⟩⟩⟩
  rw [runBuiltin_split, Text.parts_empty]
  exact Run.newList_makes (Value.characters s) machine

/-- A list that holds the characters of a text, under a name. -/
def namedCharacters (s name : String) : Machine :=
  { Machine.bare {} none with
    heap := {
      frames := #[{ bindings := ⟨[(name, { value := .list ⟨0⟩ })]⟩ }]
      lists := #[(Value.characters s).toArray] } }

/-- A text with a wide character as it stands, and the list under its name. -/
theorem text_as_characters_wide :
    let machine := namedCharacters "a😀" "letters"
    let textual : Expr := ⟨.text "a😀", {}⟩
    let listed : Expr := ⟨.name "letters", {}⟩
    machine.heap.list ⟨0⟩ = (Value.characters "a😀").toArray ∧
    (ofFuel 1).eval textual ⟨0⟩ machine = .ok (.text "a😀") machine ∧
    (ofFuel 1).eval listed ⟨0⟩ machine = .ok (.list ⟨0⟩) machine ∧
    ReadAlike (ofFuel 1) ⟨0⟩ {} machine "a😀" ⟨0⟩ ∧
    (ofFuel 1).argument ⟨0⟩ ⟨.spread textual, {}⟩ machine =
      .ok [.text "a", .text "😀"] machine := by
  intro machine textual listed
  have content : machine.heap.list ⟨0⟩ = (Value.characters "a😀").toArray := rfl
  have evaluates : (ofFuel 1).eval textual ⟨0⟩ machine = .ok (.text "a😀") machine := rfl
  have evaluatesList : (ofFuel 1).eval listed ⟨0⟩ machine = .ok (.list ⟨0⟩) machine := rfl
  obtain ⟨alike, goesThrough⟩ :=
    (text_as_characters (ofFuel 1) ⟨0⟩ {} machine "a😀").2 ⟨0⟩ content
  obtain ⟨-, spread, -⟩ :=
    goesThrough textual listed machine machine evaluates evaluatesList
  exact ⟨content, evaluates, evaluatesList, alike, spread⟩

end Evaluator

end Hati
