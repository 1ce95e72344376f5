import Hati.Text.Search

namespace Hati
namespace Text

/-!
# Occurrences of a text

A text occurs in another where the rest of the other starts with it.  The search goes from the left:
it finds the first place with an occurrence, and goes on behind that one.  So the occurrences found
do not overlap, and cut the other text into pieces.  These pieces are described here by the places
of the occurrences alone; splitting makes them, and replacing puts another text between them.
-/

/-! ## The first occurrence -/

section First

variable {needle chars : List Char}

theorem contains_iff : contains needle chars = true ↔ needle <:+: chars := by
  induction chars with
  | nil => simp [contains]
  | cons c rest ih =>
    rw [contains, Bool.or_eq_true, List.isPrefixOf_iff_prefix, ih, List.infix_cons_iff]

theorem position?_eq_none_iff : position? needle chars = none ↔ ¬needle <:+: chars := by
  induction chars with
  | nil => simp [position?]
  | cons c rest ih =>
    rw [position?, List.infix_cons_iff]
    by_cases here : needle <+: c :: rest
    · rw [if_pos (List.isPrefixOf_iff_prefix.mpr here)]
      exact iff_of_false nofun (not_not_intro (.inl here))
    · rw [if_neg (mt List.isPrefixOf_iff_prefix.mp here), Option.map_eq_none_iff, ih]
      exact ⟨fun absent => not_or.mpr ⟨here, absent⟩, fun absent => (not_or.mp absent).2⟩

/-- The position found is the least one behind which the text stands. -/
theorem position?_eq_some {place : Nat} (found : position? needle chars = some place) :
    needle <+: chars.drop place ∧ ∀ earlier < place, ¬needle <+: chars.drop earlier := by
  induction chars generalizing place with
  | nil =>
    obtain ⟨empty, rfl⟩ : needle = [] ∧ 0 = place := by
      simpa [position?] using found
    exact ⟨empty ▸ List.nil_prefix, fun earlier below => absurd below (Nat.not_lt_zero earlier)⟩
  | cons c rest ih =>
    rw [position?] at found
    split at found
    case isTrue here =>
      obtain rfl : 0 = place := Option.some.inj found
      exact ⟨List.isPrefixOf_iff_prefix.mp here,
        fun earlier below => absurd below (Nat.not_lt_zero earlier)⟩
    case isFalse absent =>
      obtain ⟨before, foundBefore, rfl⟩ := Option.map_eq_some_iff.mp found
      obtain ⟨stands, least⟩ := ih foundBefore
      refine ⟨stands, fun earlier below => ?_⟩
      cases earlier with
      | zero => exact fun here => absent (List.isPrefixOf_iff_prefix.mpr here)
      | succ earlier => exact least earlier (by omega)

end First

/-! ## The pieces between the occurrences -/

/-- The pieces of a text between the occurrences of a separator: the text itself if there is none,
and else what stands in front of the first occurrence, and the pieces of what stands behind it. -/
inductive Pieces (separator : List Char) : List Char → List (List Char) → Prop where
  | whole {chars : List Char} (absent : ¬separator <:+: chars) : Pieces separator chars [chars]
  | cut {front back : List Char} {pieces : List (List Char)}
    (first : ∀ earlier < front.length, ¬separator <+: (front ++ separator ++ back).drop earlier)
    (rest : Pieces separator back pieces) :
    Pieces separator (front ++ separator ++ back) (front :: pieces)

namespace Pieces

variable {separator chars front back : List Char} {pieces others : List (List Char)}

theorem ne_nil (cuts : Pieces separator chars pieces) : pieces ≠ [] := by
  cases cuts with
  | whole => exact List.cons_ne_nil _ _
  | cut => exact List.cons_ne_nil _ _

/-- With the separator between them, the pieces make up the text. -/
theorem intercalate_eq (cuts : Pieces separator chars pieces) :
    separator.intercalate pieces = chars := by
  induction cuts with
  | whole => exact List.intercalate_singleton
  | cut first rest ih =>
    rw [List.intercalate_cons_of_ne_nil rest.ne_nil, ih]

/-- An occurrence inside the front would be one before the first. -/
theorem not_infix_front (present : separator ≠ [])
    (first : ∀ earlier < front.length, ¬separator <+: (front ++ separator ++ back).drop earlier) :
    ¬separator <:+: front := by
  rintro ⟨before, behind, rfl⟩
  have nonempty : 0 < separator.length := List.length_pos_iff.mpr present
  refine first before.length (by simp; omega) ⟨behind ++ separator ++ back, ?_⟩
  simp

theorem absent (present : separator ≠ []) (cuts : Pieces separator chars pieces) :
    ∀ piece ∈ pieces, ¬separator <:+: piece := by
  induction cuts with
  | whole absent =>
    rintro piece ⟨_⟩
    · exact absent
    · contradiction
  | cut first _ ih =>
    intro piece member
    obtain rfl | member := List.mem_cons.mp member
    · exact not_infix_front present first
    · exact ih piece member

theorem front_length_le {otherFront otherBack : List Char}
    (same : front ++ separator ++ back = otherFront ++ separator ++ otherBack)
    (first : ∀ earlier < front.length, ¬separator <+: (front ++ separator ++ back).drop earlier) :
    front.length ≤ otherFront.length := by
  refine Nat.le_of_not_lt fun shorter => first otherFront.length shorter ?_
  rw [same, List.append_assoc, List.drop_left]
  exact List.prefix_append _ _

/-- A text has one sequence of pieces. -/
theorem unique (cuts : Pieces separator chars pieces) (otherCuts : Pieces separator chars others) :
    pieces = others := by
  induction cuts generalizing others with
  | whole absent =>
    cases otherCuts with
    | whole => rfl
    | cut => exact absurd (List.infix_append _ _ _) absent
  | @cut front back pieces first _ ih =>
    generalize same : front ++ separator ++ back = chars at otherCuts
    cases otherCuts with
    | whole absent => exact absurd (same ▸ List.infix_append _ _ _) absent
    | cut otherFirst otherRest =>
      have places := Nat.le_antisymm (front_length_le same first)
        (front_length_le same.symm otherFirst)
      rw [List.append_assoc, List.append_assoc] at same
      obtain ⟨rfl, behind⟩ := List.append_inj same places
      obtain rfl := List.append_cancel_left behind
      exact congrArg _ (ih otherRest)

/-- A character in front of a text without an occurrence there is one more of the first piece. -/
theorem cons {c : Char} (absent : ¬separator <+: c :: chars)
    (cuts : Pieces separator chars pieces) :
    Pieces separator (c :: chars) (pieces.modifyHead (c :: ·)) := by
  cases cuts with
  | whole absentBehind =>
    refine .whole fun found => ?_
    exact (List.infix_cons_iff.mp found).elim absent absentBehind
  | cut first rest =>
    refine @Pieces.cut separator (c :: _) _ _ (fun earlier below => ?_) rest
    cases earlier with
    | zero => exact absent
    | succ earlier => exact first earlier (Nat.lt_of_succ_lt_succ below)

/-- No separator starts inside a part that has none of its characters. -/
theorem not_prefix_drop (present : separator ≠ []) {part behind : List Char}
    (apart : ∀ c ∈ separator, c ∉ part) {place : Nat} (inside : place < part.length) :
    ¬separator <+: (part ++ behind).drop place := by
  obtain ⟨c, tail, rfl⟩ := List.exists_cons_of_ne_nil present
  rintro ⟨rest, same⟩
  rw [List.drop_append_of_le_length (Nat.le_of_lt inside), List.drop_eq_getElem_cons inside] at same
  obtain ⟨rfl, -⟩ := List.cons.inj same
  exact apart _ List.mem_cons_self (List.getElem_mem inside)

/-- Parts in which no character of the separator occurs are the pieces of their join. -/
theorem of_parts (present : separator ≠ []) {parts : List (List Char)} (nonempty : parts ≠ [])
    (apart : ∀ part ∈ parts, ∀ c ∈ separator, c ∉ part) :
    Pieces separator (separator.intercalate parts) parts := by
  induction parts with
  | nil => contradiction
  | cons part parts ih =>
    have apartHere := apart part List.mem_cons_self
    obtain rfl | more := Decidable.em (parts = [])
    · rw [List.intercalate_singleton]
      obtain ⟨c, member⟩ := List.exists_mem_of_ne_nil separator present
      exact .whole fun found => apartHere c member (found.subset member)
    · rw [List.intercalate_cons_of_ne_nil more]
      refine .cut (fun earlier inside => ?_)
        (ih more fun other member => apart other (List.mem_cons_of_mem part member))
      rw [List.append_assoc]
      exact not_prefix_drop present apartHere inside

end Pieces

/-! ## Splitting and replacing -/

theorem nil_intercalate (pieces : List (List Char)) : [].intercalate pieces = pieces.flatten := by
  induction pieces with
  | nil => rfl
  | cons piece pieces ih =>
    obtain rfl | more := Decidable.em (pieces = [])
    · rw [List.intercalate_singleton, List.flatten_singleton]
    · rw [List.intercalate_cons_of_ne_nil more, ih, List.append_nil, List.flatten_cons]

theorem intercalate_modifyHead {separator : List Char} {pieces : List (List Char)}
    (nonempty : pieces ≠ []) (c : Char) :
    separator.intercalate (pieces.modifyHead (c :: ·)) = c :: separator.intercalate pieces := by
  obtain ⟨piece, pieces, rfl⟩ := List.exists_cons_of_ne_nil nonempty
  exact List.intercalate_cons_cons_left

section Search

variable {separator : List Char}

theorem piecesFrom_cons_of_starts {c : Char} {rest : List Char} (here : separator <+: c :: rest) :
    piecesFrom separator 0 (c :: rest) =
      [] :: piecesFrom separator (separator.length - 1) rest := by
  rw [piecesFrom, if_pos (List.isPrefixOf_iff_prefix.mpr here)]

theorem piecesFrom_cons_of_absent {c : Char} {rest : List Char} (absent : ¬separator <+: c :: rest)
    (nonempty : piecesFrom separator 0 rest ≠ []) :
    piecesFrom separator 0 (c :: rest) = (piecesFrom separator 0 rest).modifyHead (c :: ·) := by
  rw [piecesFrom, if_neg (mt List.isPrefixOf_iff_prefix.mp absent)]
  obtain ⟨piece, pieces, shape⟩ := List.exists_cons_of_ne_nil nonempty
  rw [shape]
  rfl

/-- The search finds the pieces behind the characters it skips. -/
theorem pieces_piecesFrom (present : separator ≠ []) (skip : Nat) (chars : List Char) :
    Pieces separator (chars.drop skip) (piecesFrom separator skip chars) := by
  induction chars generalizing skip with
  | nil =>
    rw [piecesFrom, List.drop_nil]
    exact .whole (mt List.infix_nil.mp present)
  | cons c rest ih =>
    cases skip with
    | succ skip => exact ih skip
    | zero =>
      obtain here | absent := Decidable.em (separator <+: c :: rest)
      · rw [piecesFrom_cons_of_starts here]
        -- What is skipped behind the first character is the rest of the separator.
        obtain ⟨d, tail, rfl⟩ := List.exists_cons_of_ne_nil present
        obtain ⟨back, same⟩ := here
        rw [List.cons_append] at same
        obtain ⟨rfl, rfl⟩ := List.cons.inj same
        have behind := ih tail.length
        rw [List.drop_left] at behind
        exact @Pieces.cut _ [] _ _ (fun _ below => absurd below (Nat.not_lt_zero _)) behind
      · rw [piecesFrom_cons_of_absent absent (ih 0).ne_nil]
        exact (ih 0).cons absent

theorem replaceFrom_eq (present : separator ≠ []) (replacement : List Char) (skip : Nat)
    (chars : List Char) :
    replaceFrom separator replacement skip chars =
      replacement.intercalate (piecesFrom separator skip chars) := by
  induction chars generalizing skip with
  | nil => rw [replaceFrom, piecesFrom, List.intercalate_singleton]
  | cons c rest ih =>
    cases skip with
    | succ skip => exact ih skip
    | zero =>
      have nonempty (skip : Nat) := (pieces_piecesFrom present skip rest).ne_nil
      obtain here | absent := Decidable.em (separator <+: c :: rest)
      · rw [piecesFrom_cons_of_starts here, List.intercalate_cons_of_ne_nil (nonempty _), ← ih,
          replaceFrom, if_pos (List.isPrefixOf_iff_prefix.mpr here), List.nil_append]
      · rw [piecesFrom_cons_of_absent absent (nonempty 0), intercalate_modifyHead (nonempty 0),
          ← ih, replaceFrom, if_neg (mt List.isPrefixOf_iff_prefix.mp absent)]

theorem split_of_ne_nil (present : separator ≠ []) (chars : List Char) :
    split separator chars = piecesFrom separator 0 chars :=
  if_neg (mt List.isEmpty_iff.mp present)

theorem pieces_split (present : separator ≠ []) (chars : List Char) :
    Pieces separator chars (split separator chars) := by
  rw [split_of_ne_nil present]
  exact pieces_piecesFrom present 0 chars

theorem intercalate_split (separator chars : List Char) :
    separator.intercalate (split separator chars) = chars := by
  obtain rfl | present := Decidable.em (separator = [])
  · rw [nil_intercalate]
    exact List.flatMap_singleton' chars
  · exact (pieces_split present chars).intercalate_eq

theorem split_intercalate (present : separator ≠ []) {parts : List (List Char)}
    (nonempty : parts ≠ []) (apart : ∀ part ∈ parts, ∀ c ∈ separator, c ∉ part) :
    split separator (separator.intercalate parts) = parts :=
  (pieces_split present _).unique (.of_parts present nonempty apart)

theorem replace_eq_intercalate (present : separator ≠ []) (replacement chars : List Char) :
    replace separator replacement chars = replacement.intercalate (split separator chars) := by
  rw [split_of_ne_nil present, ← replaceFrom_eq present]
  exact if_neg (mt List.isEmpty_iff.mp present)

end Search

end Text
end Hati
