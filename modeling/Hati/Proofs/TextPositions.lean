import Hati.Interpreter
import Hati.Proofs.Counts
import Hati.Proofs.Occurrences
import Hati.Proofs.Ranges

namespace Hati

/-!
# Positions in texts

A position in a text says how many characters stand before it.  The first position at which another
text stands is found by its characters.  A search on the bytes of the encoded texts comes to the
same place: no text that is not empty stands across the boundaries of characters, since its first
byte cannot be one from the middle of a character.
-/

namespace Text

/-! ## The first place -/

/-- The text in front of the first occurrence of another, and the text behind it. -/
structure FirstOccurrence (needle s front back : String) : Prop where
  parts : s = front ++ needle ++ back
  first : ∀ earlier < front.length, ¬needle.toList <+: s.toList.drop earlier

theorem exists_firstOccurrence {needle s : String} {place : Nat}
    (found : position? needle.toList s.toList = some place) :
    ∃ front back, FirstOccurrence needle s front back ∧ front.length = place := by
  obtain ⟨⟨rest, stands⟩, first⟩ := position?_eq_some found
  have inside : place ≤ s.toList.length := by
    refine Nat.le_of_not_lt fun outside => first 0 (Nat.zero_lt_of_lt outside) ?_
    rw [List.drop_eq_nil_of_le (Nat.le_of_lt outside)] at stands
    rw [(List.append_eq_nil_iff.mp stands).1]
    exact List.nil_prefix
  have length : (String.ofList (s.toList.take place)).length = place := by
    rw [String.length_ofList, List.length_take_of_le inside]
  refine ⟨.ofList (s.toList.take place), .ofList rest, ⟨?_, ?_⟩, length⟩
  · rw [← String.toList_inj, String.toList_append, String.toList_append, String.toList_ofList,
      String.toList_ofList, List.append_assoc, stands, List.take_append_drop]
  · rw [length]
    exact first

/-! ## Places in the bytes -/

/-- The bytes of a text stand at this offset among those of another. -/
def StandsAt (needle s : String) (offset : Nat) : Prop :=
  s.toByteArray.extract offset (offset + needle.utf8ByteSize) = needle.toByteArray

instance (needle s : String) (offset : Nat) : Decidable (StandsAt needle s offset) :=
  inferInstanceAs (Decidable (_ = _))

/-- The first offset at which the bytes of a text stand. -/
def byteOffset? (needle s : String) : Option Nat :=
  (List.range (s.utf8ByteSize + 1)).find? fun offset => StandsAt needle s offset

section Bytes

variable {needle s front back : String} {offset : Nat}

/-- The bytes of a text up to an offset between characters are those of a text. -/
theorem extract_front (front back : String) :
    (front ++ back).toByteArray.extract 0 front.utf8ByteSize = front.toByteArray := by
  rw [String.toByteArray_append]
  exact ByteArray.extract_append_eq_left String.size_toByteArray.symm

theorem standsAt_of_parts (needle front back : String) :
    StandsAt needle (front ++ needle ++ back) front.utf8ByteSize := by
  have behind := @ByteArray.extract_append_size_add' front.toByteArray
    (needle ++ back).toByteArray 0 needle.utf8ByteSize front.utf8ByteSize
    String.size_toByteArray.symm
  rw [StandsAt, String.append_assoc, String.toByteArray_append]
  exact behind.trans (extract_front needle back)

theorem offset_add_le (present : needle ≠ "") (stands : StandsAt needle s offset) :
    offset + needle.utf8ByteSize ≤ s.utf8ByteSize := by
  have size := congrArg ByteArray.size stands
  rw [ByteArray.size_extract, String.size_toByteArray, String.size_toByteArray] at size
  have nonempty : needle.utf8ByteSize ≠ 0 := mt String.utf8ByteSize_eq_zero_iff.mp present
  omega

/-- What stands at an offset begins and ends between characters. -/
theorem isValid_of_standsAt (present : needle ≠ "") (stands : StandsAt needle s offset) :
    String.Pos.Raw.IsValid s ⟨offset⟩ ∧
      String.Pos.Raw.IsValid s ⟨offset + needle.utf8ByteSize⟩ := by
  have valid : (s.toByteArray.extract offset (offset + needle.utf8ByteSize)).IsValidUTF8 :=
    stands ▸ needle.isValidUTF8
  have nonempty : needle.utf8ByteSize ≠ 0 := mt String.utf8ByteSize_eq_zero_iff.mp present
  have either := (String.Pos.Raw.isValidUTF8_extract_iff ⟨offset⟩ ⟨offset + needle.utf8ByteSize⟩
    (Nat.le_add_right _ _) (offset_add_le present stands)).mp valid
  refine either.resolve_left fun same => ?_
  have offsets := congrArg String.Pos.Raw.byteIdx same
  dsimp only at offsets
  omega

theorem exists_parts_of_standsAt (present : needle ≠ "") (stands : StandsAt needle s offset) :
    ∃ front back, s = front ++ needle ++ back ∧ front.utf8ByteSize = offset := by
  obtain ⟨validStart, validStop⟩ := isValid_of_standsAt present stands
  obtain ⟨front, rest, cut, start⟩ := String.Pos.Raw.isValid_iff_exists_append.mp validStart
  obtain ⟨through, back, cutBehind, stop⟩ :=
    String.Pos.Raw.isValid_iff_exists_append.mp validStop
  have frontSize : offset = front.utf8ByteSize := congrArg String.Pos.Raw.byteIdx start
  have throughSize : offset + needle.utf8ByteSize = through.utf8ByteSize :=
    congrArg String.Pos.Raw.byteIdx stop
  have frontBytes : s.toByteArray.extract 0 offset = front.toByteArray := by
    rw [cut, frontSize, extract_front]
  have throughBytes : s.toByteArray.extract 0 (offset + needle.utf8ByteSize) =
      through.toByteArray := by
    rw [cutBehind, throughSize, extract_front]
  have whole : through = front ++ needle := by
    rw [← String.toByteArray_inj, String.toByteArray_append, ← throughBytes, ← frontBytes, ← stands]
    exact ByteArray.extract_eq_extract_append_extract offset (Nat.zero_le _) (Nat.le_add_right _ _)
  exact ⟨front, back, whole ▸ cutBehind, frontSize.symm⟩

theorem utf8ByteSize_le {other rest otherRest : String}
    (same : front ++ rest = other ++ otherRest) (shorter : front.length ≤ other.length) :
    front.utf8ByteSize ≤ other.utf8ByteSize := by
  have lists := congrArg String.toList same
  rw [String.toList_append, String.toList_append] at lists
  obtain ⟨between, longer⟩ : front.toList <+: other.toList :=
    List.prefix_of_prefix_length_le ⟨_, lists⟩ (List.prefix_append _ _) shorter
  have parts : other = front ++ .ofList between := by
    rw [← String.toList_inj, String.toList_append, String.toList_ofList, longer]
  rw [parts, String.utf8ByteSize_append]
  exact Nat.le_add_right _ _

theorem prefix_drop_of_parts (parts : s = front ++ needle ++ back) :
    needle.toList <+: s.toList.drop front.length := by
  rw [parts, String.append_assoc, String.toList_append, String.toList_append,
    ← String.length_toList, List.drop_left]
  exact List.prefix_append _ _

theorem infix_of_parts (parts : s = front ++ needle ++ back) : needle.toList <:+: s.toList :=
  ⟨front.toList, back.toList, by rw [parts, String.toList_append, String.toList_append]⟩

/-- The bytes stand at no earlier offset, for such an offset would come with an earlier position. -/
theorem FirstOccurrence.not_standsAt (occurrence : FirstOccurrence needle s front back)
    {earlier : Nat} (below : earlier < front.utf8ByteSize) : ¬StandsAt needle s earlier := by
  obtain ⟨parts, first⟩ := occurrence
  intro stands
  obtain rfl | present := Decidable.em (needle = "")
  -- The empty text stands at every offset, so that only the first of all will do.
  · have nothing : front = "" := by
      refine String.length_eq_zero_iff.mp (Nat.eq_zero_of_not_pos fun some => ?_)
      exact first 0 some List.nil_prefix
    rw [nothing] at below
    exact absurd below (Nat.not_lt_zero earlier)
  · obtain ⟨other, rest, otherParts, otherSize⟩ := exists_parts_of_standsAt present stands
    have shorter : other.length < front.length := by
      refine Nat.lt_of_not_le fun longer => ?_
      have same : front ++ (needle ++ back) = other ++ (needle ++ rest) := by
        rw [← String.append_assoc, ← String.append_assoc, ← parts, ← otherParts]
      have sizes := utf8ByteSize_le same longer
      omega
    exact first other.length shorter (prefix_drop_of_parts otherParts)

/-- The search on bytes finds the place that the search on characters finds. -/
theorem FirstOccurrence.byteOffset?_eq (occurrence : FirstOccurrence needle s front back) :
    byteOffset? needle s = some front.utf8ByteSize := by
  have stands : StandsAt needle s front.utf8ByteSize :=
    occurrence.parts ▸ standsAt_of_parts needle front back
  have inside : front.utf8ByteSize < s.utf8ByteSize + 1 := by
    rw [occurrence.parts, String.append_assoc, String.utf8ByteSize_append]
    omega
  rw [byteOffset?, List.find?_range_eq_some]
  refine ⟨decide_eq_true stands, List.mem_range.mpr inside, fun earlier below => ?_⟩
  rw [decide_eq_false (occurrence.not_standsAt below), Bool.not_false]

theorem byteOffset?_eq_none (absent : ¬needle.toList <:+: s.toList) :
    byteOffset? needle s = none := by
  have present : needle ≠ "" := by
    rintro rfl
    exact absent List.nil_infix
  have nowhere (offset : Nat) : ¬StandsAt needle s offset := by
    intro stands
    obtain ⟨front, back, parts, -⟩ := exists_parts_of_standsAt present stands
    exact absent (infix_of_parts parts)
  rw [byteOffset?, List.find?_range_eq_none]
  intro offset below
  rw [decide_eq_false (nowhere offset), Bool.not_false]

end Bytes

/-! ## Parts -/

theorem slice_of_parts (front part back : String) :
    slice (front ++ part ++ back) front.length (front.length + part.length) = part := by
  have through : front.length + part.length = (front ++ part).toList.length := by
    rw [String.length_toList, String.length_append]
  rw [slice, String.toList_append, through, List.take_left, String.toList_append,
    ← String.length_toList, List.drop_left, String.ofList_toList]

end Text

section Slices

variable {ev : Evaluator} {s front part back : String} {args : List Value} {scope : FrameRef}
  {span : Span} {machine : Machine} {first last : Option Int} {cause : Cause}

theorem answer_slice (s : String) (args : List Value) :
    TextMethod.answer .slice s args =
      (fun range => .value (.text (Text.slice s range.1 range.2))) <$>
        rangeArguments args s.length := by
  rw [TextMethod.answer]
  cases rangeArguments args s.length <;> rfl

theorem runBuiltin_slice (begins : indexArgument args[0]? = .ok first)
    (ends : indexArgument args[1]? = .ok last) :
    ev.runBuiltin (.text .slice s) args scope span machine =
      .ok (.text (Text.slice s (boundOr 0 s.length first) (boundOr s.length s.length last)))
        machine := by
  show (Run.lift span (TextMethod.answer .slice s args) >>= Run.ofTextAnswer) machine = _
  rw [answer_slice, rangeArguments_of_indices begins ends]
  rfl

theorem runBuiltin_slice_of_unfit
    (unfit : indexArgument args[0]? = .error cause ∨
      ∃ first, indexArgument args[0]? = .ok first ∧ indexArgument args[1]? = .error cause) :
    ev.runBuiltin (.text .slice s) args scope span machine =
      .error (.fault ⟨cause, span⟩) machine := by
  show (Run.lift span (TextMethod.answer .slice s args) >>= Run.ofTextAnswer) machine = _
  rw [answer_slice, rangeArguments_of_unfit unfit]
  rfl

/-- A slice between the two ends of a part is that part. -/
theorem runBuiltin_slice_of_parts (parts : s = front ++ part ++ back)
    (begins : indexArgument args[0]? = .ok first) (ends : indexArgument args[1]? = .ok last)
    (start : boundOr 0 s.length first = front.length)
    (stop : boundOr s.length s.length last = front.length + part.length) :
    ev.runBuiltin (.text .slice s) args scope span machine = .ok (.text part) machine := by
  rw [runBuiltin_slice begins ends, start, stop, parts, Text.slice_of_parts]

/-- Where the slices in front of a part, of the part and behind it are cut. -/
theorem runBuiltin_slice_around (parts : s = front ++ part ++ back) {start stop : Value}
    (starts : start.toIndex = .ok front.length)
    (stops : stop.toIndex = .ok (front.length + part.length : Nat)) :
    let slice (args : List Value) := ev.runBuiltin (.text .slice s) args scope span machine
    slice [start, stop] = .ok (.text part) machine ∧
    slice [.number 0, start] = .ok (.text front) machine ∧
    slice [stop] = .ok (.text back) machine := by
  intro slice
  have total : s.length = front.length + part.length + back.length := by
    rw [parts, String.length_append, String.length_append]
  have bound {default position : Nat} (inside : position ≤ s.length) :
      boundOr default s.length (some position) = position :=
    (normalizeBound_natCast position s.length).trans (Nat.min_eq_left inside)
  refine ⟨?_, ?_, ?_⟩
  · exact runBuiltin_slice_of_parts parts (indexArgument_of_toIndex starts)
      (indexArgument_of_toIndex stops) (bound (by omega)) (bound (by omega))
  · refine @runBuiltin_slice_of_parts ev s "" front (part ++ back) _ scope span machine _ _ ?_
      (indexArgument_of_toIndex Value.toIndex_zero) (indexArgument_of_toIndex starts)
      (bound (Nat.zero_le _)) ((bound (by omega)).trans (Nat.zero_add _).symm)
    rw [parts, String.empty_append, String.append_assoc]
  · refine @runBuiltin_slice_of_parts ev s (front ++ part) back "" _ scope span machine _ none ?_
      (indexArgument_of_toIndex stops) rfl ?_ ?_
    · rw [parts, String.append_empty]
    · rw [String.length_append]
      exact bound (by omega)
    · rw [String.length_append]
      exact total

end Slices

namespace Evaluator

/-- The position that a text is found at is that of its first occurrence, counted in characters, and
minus one only if there is none.  Slices cut there give the text back, and what stands in front of
it and behind it.  A search on bytes finds the same place, between two characters. -/
theorem indexOf_first_occurrence (ev : Evaluator) (scope : FrameRef) (span : Span)
    (machine : Machine) (s needle : String) :
    let ask (method : TextMethod) (args : List Value) :=
      ev.runBuiltin (.text method s) args scope span machine
    let contained (answer : Bool) := ask .contains [.text needle] = .ok (.bool answer) machine
    (ask .indexOf [.text needle] = .ok (.number (-1)) machine ↔ contained false) ∧
    (Text.byteOffset? needle s = none ↔ contained false) ∧
    (¬contained false → ∃ front back : String, Text.FirstOccurrence needle s front back ∧
      ask .indexOf [.text needle] = .ok (.ofNat front.length) machine ∧
      (∀ start stop : Value, start.toIndex = .ok front.length →
        stop.toIndex = .ok (front.length + needle.length : Nat) →
        ask .slice [start, stop] = .ok (.text needle) machine ∧
        ask .slice [.number 0, start] = .ok (.text front) machine ∧
        ask .slice [stop] = .ok (.text back) machine) ∧
      (s.length < 2 ^ 53 → (Value.ofNat front.length).toIndex = .ok front.length ∧
        ∃ stop, Run.binary .add (.ofNat front.length) (.ofNat needle.length) span machine =
            .ok stop machine ∧
          stop.toIndex = .ok (front.length + needle.length : Nat)) ∧
      Text.byteOffset? needle s = some front.utf8ByteSize ∧
      String.Pos.Raw.IsValid s ⟨front.utf8ByteSize⟩) := by
  intro ask contained
  have contained_iff (answer : Bool) :
      contained answer ↔ Text.contains needle.toList s.toList = answer := by
    show EStateM.Result.ok (Value.bool _) machine = .ok (.bool answer) machine ↔ _
    rw [EStateM.Result.ok.injEq, Value.bool.injEq, and_iff_left rfl]
  have answers : ask .indexOf [.text needle] = .ok (Text.indexOf s needle) machine := rfl
  cases found : Text.position? needle.toList s.toList with
  | none =>
    have absent := Text.position?_eq_none_iff.mp found
    have never : contained false :=
      (contained_iff false).mpr (Bool.eq_false_iff.mpr (mt Text.contains_iff.mp absent))
    have answer : Text.indexOf s needle = .number (-1) := by
      rw [Text.indexOf, found]
    exact ⟨iff_of_true (answers.trans (answer ▸ rfl)) never,
      iff_of_true (Text.byteOffset?_eq_none absent) never, fun some => absurd never some⟩
  | some place =>
    obtain ⟨front, back, occurrence, rfl⟩ := Text.exists_firstOccurrence found
    have answer : Text.indexOf s needle = .ofNat front.length := by
      rw [Text.indexOf, found]
    have present : ¬contained false := by
      rw [contained_iff, Text.contains_iff.mpr (Text.infix_of_parts occurrence.parts)]
      exact nofun
    have offset := occurrence.byteOffset?_eq
    refine ⟨iff_of_false (fun none => ?_) present, iff_of_false (offset ▸ nofun) present,
      fun _ => ⟨front, back, occurrence, answers.trans (answer ▸ rfl),
        fun _ _ => runBuiltin_slice_around occurrence.parts, fun exact => ?_, offset, ?_⟩⟩
    · rw [answers, answer] at none
      exact Number.ofNat_ne_neg_one front.length (by injection none with same; injection same)
    · have total : front.length + needle.length < 2 ^ 53 := by
        refine Nat.lt_of_le_of_lt ?_ exact
        rw [occurrence.parts, String.length_append, String.length_append]
        exact Nat.le_add_right _ _
      refine ⟨Value.toIndex_ofNat (Nat.lt_of_le_of_lt (Nat.le_add_right _ _) total), _, ?_,
        Value.toIndex_ofNat total⟩
      show EStateM.Result.ok (Value.number (Float.ofNat _ + Float.ofNat _)) machine = _
      rw [Number.ofNat_add total]
      rfl
    · refine String.Pos.Raw.isValid_iff_exists_append.mpr ⟨front, needle ++ back, ?_, rfl⟩
      rw [occurrence.parts, String.append_assoc]

/-- Two characters stand in front, with five bytes. -/
theorem indexOf_first_occurrence_wide :
    let ask (method : TextMethod) (args : List Value) :=
      (ofFuel 1).runBuiltin (.text method "h😀é€") args ⟨0⟩ {} (Machine.bare {} none)
    ask .contains [.text "é€"] ≠ .ok (.bool false) (Machine.bare {} none) ∧
    Text.byteOffset? "é€" "h😀é€" = some 5 ∧
    ask .indexOf [.text "é€"] = .ok (.ofNat 2) (Machine.bare {} none) ∧
    ask .slice [.number 2, .number 4] = .ok (.text "é€") (Machine.bare {} none) := by
  intro ask
  have found : Text.contains "é€".toList "h😀é€".toList = true := by decide +kernel
  have offset : Text.byteOffset? "é€" "h😀é€" = some 5 := by decide +kernel
  have contained : ask .contains [.text "é€"] ≠ .ok (.bool false) (Machine.bare {} none) := by
    show EStateM.Result.ok (Value.bool (Text.contains _ _)) _ ≠ _
    rw [found]
    exact nofun
  obtain ⟨front, back, occurrence, answer, slices, counts, -⟩ :=
    (indexOf_first_occurrence (ofFuel 1) ⟨0⟩ {} (Machine.bare {} none) "h😀é€" "é€").2.2 contained
  have two : front.length = 2 := by
    have place : Text.position? "é€".toList "h😀é€".toList = some 2 := by decide +kernel
    have counted : Value.ofNat 2 = .ofNat front.length := by
      change EStateM.Result.ok (Text.indexOf _ _) _ = _ at answer
      rw [Text.indexOf, place] at answer
      injection answer
    have exact := (counts (by decide +kernel)).1
    rw [← counted, Value.toIndex_ofNat (by decide)] at exact
    injection exact with exact
    omega
  have length : "é€".length = 2 := by decide +kernel
  rw [two] at answer
  rw [two, length] at slices
  exact ⟨contained, offset, answer,
    (slices (.number 2) (.number 4) (by decide +kernel) (by decide +kernel)).1⟩

end Evaluator

end Hati
