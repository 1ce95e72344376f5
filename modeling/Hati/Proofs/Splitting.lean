import Hati.Interpreter
import Hati.Proofs.Cutting
import Hati.Proofs.Occurrences

namespace Hati

/-!
# Splitting, joining and replacing

A text that is split becomes a new list of texts.  Joining that list with the separator gives the
text back, and joining it with another text replaces every occurrence of the separator.  A list of
texts that is joined is found again by splitting, as long as its texts have no character of the
separator.
-/

namespace Text

/-! ## The parts of a text -/

/-- The parts of a text between the occurrences of a separator. -/
def parts (separator s : String) : List String :=
  (split separator.toList s.toList).map String.ofList

section Parts

variable {separator : String}

theorem map_toList_ofList (pieces : List (List Char)) :
    (pieces.map String.ofList).map String.toList = pieces := by
  simp

theorem map_toList_parts (separator s : String) :
    (parts separator s).map String.toList = split separator.toList s.toList :=
  map_toList_ofList _

theorem pieces_parts (present : separator ≠ "") (s : String) :
    Pieces separator.toList s.toList ((parts separator s).map String.toList) := by
  rw [map_toList_parts]
  exact pieces_split (mt String.toList_eq_nil_iff.mp present) s.toList

theorem intercalate_parts (separator s : String) :
    separator.intercalate (parts separator s) = s := by
  rw [← String.toList_inj, String.toList_intercalate, map_toList_parts, intercalate_split]

theorem parts_intercalate (present : separator ≠ "") {texts : List String} (nonempty : texts ≠ [])
    (apart : ∀ text ∈ texts, ∀ c ∈ separator.toList, c ∉ text.toList) :
    parts separator (separator.intercalate texts) = texts := by
  have found := split_intercalate (mt String.toList_eq_nil_iff.mp present)
    (mt List.map_eq_nil_iff.mp nonempty) (List.forall_mem_map.mpr apart)
  rw [parts, String.toList_intercalate, found, List.map_map]
  exact List.map_id'' (fun _ => String.ofList_toList) texts

theorem replace_parts (present : separator ≠ "") (replacement s : String) :
    String.ofList (replace separator.toList replacement.toList s.toList) =
      replacement.intercalate (parts separator s) := by
  rw [← String.toList_inj, String.toList_ofList, String.toList_intercalate, map_toList_parts,
    replace_eq_intercalate (mt String.toList_eq_nil_iff.mp present)]

end Parts

end Text

/-! ## The methods -/

section Methods

variable {ev : Evaluator} {scope : FrameRef} {span : Span}

theorem runBuiltin_split (s separator : String) :
    ev.runBuiltin (.text .split s) [.text separator] scope span =
      Run.newList ((Text.parts separator s).map Value.text).toArray :=
  rfl

theorem runBuiltin_contains (s needle : String) (machine : Machine) :
    ev.runBuiltin (.text .contains s) [.text needle] scope span machine =
      .ok (.bool (Text.contains needle.toList s.toList)) machine :=
  rfl

theorem runBuiltin_replace (s find replacement : String) (machine : Machine) :
    ev.runBuiltin (.text .replace s) [.text find, .text replacement] scope span machine =
      .ok (.text (.ofList (Text.replace find.toList replacement.toList s.toList))) machine :=
  rfl

/-- Texts are joined as they stand. -/
theorem runListMethod_join {ref : ListRef} {texts : List String} {machine : Machine}
    (content : machine.heap.list ref = (texts.map Value.text).toArray) (separator : String) :
    ev.runListMethod .join ref [.text separator] scope span machine =
      .ok (.text (separator.intercalate texts)) machine := by
  have shown : ((machine.heap.list ref).toList.map (Value.toText machine.heap)) = texts := by
    rw [content, List.map_map]
    exact List.map_id'' (fun _ => rfl) texts
  show EStateM.Result.ok (Value.text (separator.intercalate _)) machine = _
  rw [shown]

end Methods

namespace Evaluator

/-- Splitting cuts a text at the occurrences of the separator, the first one first and each next one
behind the one before.  Joining is its inverse, on every text, and on every list of texts without a
character of the separator.  Replacing is splitting and joining with another text. -/
theorem split_join_replace (ev : Evaluator) (scope : FrameRef) (span : Span) (machine : Machine) :
    let onText (method : TextMethod) (s : String) (args : List String) :=
      ev.runBuiltin (.text method s) (args.map Value.text) scope span
    let join (ref : ListRef) (separator : String) :=
      ev.runListMethod .join ref [.text separator] scope span
    (∀ s separator : String, ∃ (made : ListRef) (after : Machine) (parts : List String),
      onText .split s [separator] machine = .ok (.list made) after ∧
      machine.MakesList after made (parts.map Value.text) ∧
      join made separator after = .ok (.text s) after ∧
      (separator ≠ "" →
        Text.Pieces separator.toList s.toList (parts.map String.toList) ∧
        (∀ part ∈ parts, ¬separator.toList <:+: part.toList ∧
          onText .contains part [separator] after = .ok (.bool false) after) ∧
        ∀ other, ∃ replaced,
          onText .replace s [separator, other] after = .ok (.text replaced) after ∧
          join made other after = .ok (.text replaced) after)) ∧
    ∀ (separator : String) (texts : List String) (ref : ListRef),
      separator ≠ "" → texts ≠ [] → machine.heap.list ref = (texts.map Value.text).toArray →
      (∀ text ∈ texts, ∀ c ∈ separator.toList, c ∉ text.toList) →
      ∃ (joined : String) (made : ListRef) (after : Machine),
        join ref separator machine = .ok (.text joined) machine ∧
        onText .split joined [separator] machine = .ok (.list made) after ∧
        machine.MakesList after made (texts.map Value.text) := by
  intro onText join
  refine ⟨fun s separator => ?_, fun separator texts ref present nonempty content apart => ?_⟩
  · obtain ⟨made, after, splits, makes⟩ :=
      Run.newList_makes ((Text.parts separator s).map Value.text) machine
    have joins (other : String) : join made other after =
        .ok (.text (other.intercalate (Text.parts separator s))) after :=
      runListMethod_join makes.items other
    refine ⟨made, after, Text.parts separator s, splits, makes, ?_, fun present => ?_⟩
    · rw [joins, Text.intercalate_parts]
    · have cuts := Text.pieces_parts present s
      refine ⟨cuts, fun part member => ?_,
        fun other => ⟨_, runBuiltin_replace s separator other after, ?_⟩⟩
      · have absent := cuts.absent (mt String.toList_eq_nil_iff.mp present) part.toList
          (List.mem_map_of_mem member)
        refine ⟨absent, (runBuiltin_contains part separator after).trans ?_⟩
        rw [Bool.eq_false_iff.mpr (mt Text.contains_iff.mp absent)]
      · rw [joins, Text.replace_parts present]
  · obtain ⟨made, after, splits, makes⟩ := Run.newList_makes (texts.map Value.text) machine
    refine ⟨_, made, after, runListMethod_join content separator, ?_, makes⟩
    show ev.runBuiltin (.text .split _) [.text separator] scope span machine = _
    rw [runBuiltin_split, Text.parts_intercalate present nonempty apart, splits]

/-- Of two occurrences that overlap the first one counts. -/
theorem split_join_replace_overlap :
    let onText (method : TextMethod) (s : String) (args : List String) :=
      (ofFuel 1).runBuiltin (.text method s) (args.map Value.text) ⟨0⟩ {}
    ∃ (made : ListRef) (after : Machine),
      onText .split "aaa" ["aa"] threeTexts = .ok (.list made) after ∧
      after.heap.list made = #[.text "", .text "a"] ∧
      onText .replace "aaa" ["aa", "b"] after = .ok (.text "ba") after ∧
      (ofFuel 1).runListMethod .join made [.text "b"] ⟨0⟩ {} after = .ok (.text "ba") after := by
  intro onText
  obtain ⟨made, after, parts, splits, makes, -, separated⟩ :=
    (split_join_replace (ofFuel 1) ⟨0⟩ {} threeTexts).1 "aaa" "aa"
  obtain ⟨cuts, -, replaces⟩ := separated (by decide)
  obtain ⟨replaced, replacing, joining⟩ := replaces "b"
  have same : parts = Text.parts "aa" "aaa" :=
    List.map_injective_iff.mpr (fun _ _ => String.toList_injective)
      (cuts.unique (Text.pieces_parts (by decide) "aaa"))
  have found : Text.parts "aa" "aaa" = ["", "a"] := by decide +kernel
  have result : replaced = "ba" := by
    cases replacing
    decide +kernel
  subst same result
  rw [found] at makes
  exact ⟨made, after, splits, makes.items, replacing, joining⟩

end Evaluator

end Hati
