import Hati.Json.Printer
import Hati.Json.Reader
import Mathlib

namespace Hati
namespace Json

/-!
# JSON texts read back

What the writer makes of a tree, the reader turns into the same tree, in the compact form and
in the pretty form.  This holds for trees that are not nested too deeply, have no fractions
and only whole numbers of 64 bits, and have no key twice in one object.

The reader takes values off the front of a text.  So every statement is about a written part
with something behind it, and about what must not follow: a digit, a point or an exponent mark
would make a longer number.
-/

/-! ## Whole numbers -/

/-- What follows a value inside a text: nothing that a number could go on with. -/
def Ends (rest : List Char) : Prop :=
  ∀ c ∈ rest.head?, c.isDigit = false ∧ c ≠ '.' ∧ c ≠ 'e' ∧ c ≠ 'E'

/-- Digits that make a number of 64 bits are all taken. -/
private theorem takeDigits_eq :
    ∀ (digits : List Char) (n : Nat), Nat.ofDigitChars 10 digits n < 2 ^ 64 →
      Decimal.takeDigits n digits = (Nat.ofDigitChars 10 digits n, [])
  | [], _, _ => rfl
  | c :: digits, n, small => by
      rw [Nat.ofDigitChars_cons] at small ⊢
      have grows : ∀ m, m ≤ Nat.ofDigitChars 10 digits m := by
        intro m
        rw [Nat.ofDigitChars_eq_ofDigitChars_zero]
        have scaled : m ≤ 10 ^ digits.length * m :=
          Nat.le_mul_of_pos_left m (Nat.pow_pos (by decide))
        omega
      have longer : 10 * n + Decimal.digitValue c < Nat.pow 2 64 :=
        Nat.lt_of_le_of_lt (grows _) small
      rw [Decimal.takeDigits, if_pos longer]
      exact takeDigits_eq digits _ small

theorem takeDigits_digitsOf {n : Nat} (small : n < 2 ^ 64) :
    Decimal.takeDigits 0 (Decimal.digitsOf n) = (n, []) := by
  have whole : Nat.ofDigitChars 10 (Decimal.digitsOf n) 0 = n := Nat.ofDigitChars_ten_toDigits
  rw [takeDigits_eq _ 0 (whole.symm ▸ small), whole]

theorem isDigit_of_mem_digitsOf {n : Nat} {c : Char} (member : c ∈ Decimal.digitsOf n) :
    c.isDigit = true :=
  Nat.isDigit_of_mem_toDigits (by decide) (by decide) member

/-- Only zero is written with a zero in front. -/
theorem digitsOf_eq_cons {n : Nat} (positive : 0 < n) :
    ∃ c digits, Decimal.digitsOf n = c :: digits ∧ c ≠ '0' := by
  induction n using Nat.strongRecOn with
  | ind n ih =>
      by_cases small : n < 10
      · have single : Decimal.digitsOf n = [n.digitChar] := Nat.toDigits_of_lt_base small
        have digits : ∀ d < 10, 0 < d → Nat.digitChar d ≠ '0' := by decide
        exact ⟨_, _, single, digits n small positive⟩
      · have split : Decimal.digitsOf n = Decimal.digitsOf (n / 10) ++ [(n % 10).digitChar] :=
          Nat.toDigits_of_base_le (by decide) (by omega)
        obtain ⟨c, digits, shorter, nonzero⟩ := ih (n / 10) (by omega) (by omega)
        exact ⟨c, digits ++ [_], by rw [split, shorter]; rfl, nonzero⟩

theorem takeWhile_ends {digits rest : List Char} (all : ∀ c ∈ digits, c.isDigit = true)
    (ends : Ends rest) :
    (digits ++ rest).takeWhile Char.isDigit = digits ∧
      (digits ++ rest).dropWhile Char.isDigit = rest := by
  rw [List.takeWhile_append_of_pos all, List.dropWhile_append_of_pos all]
  cases rest with
  | nil => exact ⟨List.append_nil digits, rfl⟩
  | cons c rest =>
      have other := (ends c rfl).1
      have stops : ¬c.isDigit = true := by simp [other]
      rw [List.takeWhile_cons_of_neg stops, List.dropWhile_cons_of_neg stops]
      exact ⟨List.append_nil digits, rfl⟩

theorem wholeDigits?_digitsOf (n : Nat) {rest : List Char} (ends : Ends rest) :
    wholeDigits? (Decimal.digitsOf n ++ rest) = some (Decimal.digitsOf n, rest) := by
  rcases Nat.eq_zero_or_pos n with rfl | positive
  · cases rest with
    | nil => rfl
    | cons c rest =>
        have other := (ends c rfl).1
        show (if c.isDigit then none else some (['0'], c :: rest)) = _
        rw [other]
        rfl
  · obtain ⟨c, digits, split, nonzero⟩ := digitsOf_eq_cons positive
    obtain ⟨taken, left⟩ := takeWhile_ends (fun _ member => isDigit_of_mem_digitsOf member) ends
    unfold wholeDigits?
    split
    · rename_i zero
      rw [split] at zero
      exact absurd (List.cons.inj zero).1 nonzero
    · rw [taken, left, split]
      rfl

theorem fraction?_ends {rest : List Char} (ends : Ends rest) :
    fraction? rest = some (none, rest) := by
  unfold fraction?
  split
  · exact absurd rfl (ends '.' rfl).2.1
  · rfl

theorem exponent?_ends {rest : List Char} (ends : Ends rest) :
    exponent? rest = some (none, rest) := by
  cases rest with
  | nil => rfl
  | cons c rest =>
      obtain ⟨-, -, lower, upper⟩ := ends c rfl
      simp [exponent?, lower, upper]

theorem number?_digitsOf {n : Nat} (small : n < 2 ^ 64) {rest : List Char} (ends : Ends rest) :
    number? (Decimal.digitsOf n ++ rest) = some (int n, rest) := by
  have unsigned : sign (Decimal.digitsOf n ++ rest) = (false, Decimal.digitsOf n ++ rest) := by
    unfold sign
    split
    · rename_i minus
      have member : '-' ∈ Decimal.digitsOf n := by
        cases digits : Decimal.digitsOf n with
        | nil => exact absurd digits Nat.toDigits_ne_nil
        | cons c tail =>
            rw [digits] at minus
            exact (List.cons.inj minus).1 ▸ List.mem_cons_self
      exact absurd (isDigit_of_mem_digitsOf member) (by decide)
    · rfl
  simp only [number?, unsigned, wholeDigits?_digitsOf n ends, fraction?_ends ends,
    exponent?_ends ends, numberOfParts?, takeDigits_digitsOf small, Option.bind_eq_bind,
    Option.bind_some]
  simp

theorem number?_minus {n : Nat} (positive : 0 < n) (small : n ≤ 2 ^ 63) {rest : List Char}
    (ends : Ends rest) :
    number? ('-' :: (Decimal.digitsOf n ++ rest)) = some (int (-n), rest) := by
  have signed : sign ('-' :: (Decimal.digitsOf n ++ rest)) =
      (true, Decimal.digitsOf n ++ rest) := rfl
  have fits : decide (n > Nat.pow 2 63) = false := decide_eq_false (Nat.not_lt.mpr small)
  simp only [number?, signed, wholeDigits?_digitsOf n ends, fraction?_ends ends,
    exponent?_ends ends, numberOfParts?,
    takeDigits_digitsOf (Nat.lt_of_le_of_lt small (by decide)), Option.bind_eq_bind,
    Option.bind_some, fits]
  simp [Nat.ne_of_gt positive]

/-- Whole numbers of 64 bits read back, negative ones if they are signed words. -/
theorem number?_renderInt {n : Int} (low : -2 ^ 63 ≤ n) (high : n < 2 ^ 64) {rest : List Char}
    (ends : Ends rest) : number? (renderInt n ++ rest) = some (int n, rest) := by
  cases n with
  | ofNat n => exact number?_digitsOf (Int.ofNat_lt.mp high) ends
  | negSucc n => exact number?_minus (Nat.succ_pos n) (by omega) ends

/-! ## Texts -/

private theorem hexValue?_digitChar : ∀ n < 16, hexValue? (Nat.digitChar n) = some n := by
  decide

/-- The escape of a control character names it. -/
private theorem codeEscape?_hexPair {c : Char} (control : c.toNat < 0x20) (rest : List Char) :
    codeEscape? ('0' :: '0' :: hexPair c.toNat ++ rest) = some (c, rest) := by
  have high := hexValue?_digitChar (c.toNat / 16) (by omega)
  have low := hexValue?_digitChar (c.toNat % 16) (by omega)
  have zero : hexValue? '0' = some 0 := rfl
  have code : ((0 * 16 + 0) * 16 + c.toNat / 16) * 16 + c.toNat % 16 = c.toNat := by omega
  simp only [codeEscape?, unit?, hexPair, List.cons_append, List.nil_append, high, low, zero,
    Option.bind_eq_bind, Option.bind_some, code]
  have noHigh : ¬ 0xd800 ≤ c.toNat := by omega
  have noLow : ¬ 0xdc00 ≤ c.toNat := by omega
  simp [noHigh, noLow, Char.ofNat_toNat]

/-- A character is written as an escape that names it, or as itself if it may stand there. -/
private theorem escapedChar_cases (c : Char) :
    (∃ escape, escapedChar c = '\\' :: escape ∧
      ∀ rest, escape? (escape ++ rest) = some (c, rest)) ∨
    (escapedChar c = [c] ∧ c ≠ '"' ∧ c ≠ '\\' ∧ ¬c.toNat < 0x20) := by
  unfold escapedChar
  iterate 7
    split
    · rename_i mark
      exact .inl ⟨_, rfl, fun _ => by rw [eq_of_beq mark]; rfl⟩
  split
  · rename_i control
    exact .inl ⟨_, rfl, codeEscape?_hexPair control⟩
  · rename_i noQuote noBackslash _ _ _ _ _ printable
    exact .inr ⟨rfl, ne_of_beq_false (by simpa using noQuote),
      ne_of_beq_false (by simpa using noBackslash), printable⟩

/-- One round reads one character, however it is written. -/
theorem textFrom_escapedChar (rounds : Nat) (c : Char) (rest : List Char) :
    textFrom (rounds + 1) (escapedChar c ++ rest) =
      (textFrom rounds rest).map fun (chars, rest) => (c :: chars, rest) := by
  rcases escapedChar_cases c with ⟨escape, written, named⟩ | ⟨written, noQuote, noBackslash, shown⟩
  · rw [written]
    show ((escape? (escape ++ rest)).bind fun found =>
      (textFrom rounds found.2).bind fun more => some (found.1 :: more.1, more.2)) = _
    rw [named rest]
    show ((textFrom rounds rest).bind fun more => some (c :: more.1, more.2)) = _
    cases textFrom rounds rest <;> rfl
  · rw [written, List.singleton_append, textFrom, if_neg (by simpa using noQuote),
      if_neg (by simpa using noBackslash), if_neg shown]
    cases textFrom rounds rest <;> rfl

theorem textFrom_escaped (rest : List Char) :
    ∀ (chars : List Char) (rounds : Nat), chars.length < rounds →
      textFrom rounds (chars.flatMap escapedChar ++ '"' :: rest) = some (chars, rest)
  | [], rounds + 1, _ => rfl
  | c :: chars, rounds + 1, enough => by
      rw [List.flatMap_cons, List.append_assoc, textFrom_escapedChar,
        textFrom_escaped rest chars rounds (Nat.lt_of_succ_lt_succ enough)]
      rfl

theorem text?_escaped {text : String} {rounds : Nat} (enough : text.toList.length < rounds)
    (rest : List Char) :
    text? rounds (text.toList.flatMap escapedChar ++ '"' :: rest) = some (text, rest) := by
  rw [text?, textFrom_escaped rest _ _ enough, Option.map_some]
  exact congrArg (fun text => some (text, rest)) String.ofList_toList

/-! ## White space -/

def Blank (chars : List Char) : Prop :=
  ∀ c ∈ chars, isBlank c = true

theorem blank_nil : Blank [] :=
  fun _ member => nomatch member

theorem blank_gap (pretty : Bool) (depth : Nat) : Blank (gap pretty depth) := by
  intro c member
  cases pretty with
  | false => cases member
  | true =>
      rcases List.mem_cons.mp member with rfl | spaces
      · rfl
      · rw [(List.mem_replicate.mp spaces).2]
        rfl

theorem skipBlank_append {blank : List Char} (white : Blank blank) (chars : List Char) :
    skipBlank (blank ++ chars) = skipBlank chars :=
  List.dropWhile_append_of_pos white

theorem skipBlank_cons {c : Char} (shown : isBlank c = false) (chars : List Char) :
    skipBlank (c :: chars) = c :: chars :=
  List.dropWhile_cons_of_neg (by simp [shown])

theorem ends_cons {c : Char} (mark : c ∈ [',', '\n', ']', '\x7d']) (rest : List Char) :
    Ends (c :: rest) := by
  rintro other ⟨⟩
  simp only [List.mem_cons, List.not_mem_nil, or_false] at mark
  rcases mark with rfl | rfl | rfl | rfl <;> decide

theorem ends_gap (pretty : Bool) (depth : Nat) {rest : List Char} (ends : Ends rest) :
    Ends (gap pretty depth ++ rest) := by
  cases pretty with
  | false => exact ends
  | true => exact ends_cons (by decide) _

/-! ## Containers -/

variable {α : Type}

/-- The reader takes the written element, with white space before it, off the front of
whatever may follow it. -/
def Reads (element? : List Char → Option (α × List Char)) (written : List Char) (element : α) :
    Prop :=
  ∀ blank rest, Blank blank → Ends rest →
    element? (blank ++ (written ++ rest)) = some (element, rest)

/-- What an element starts with: neither white space nor the end of its container. -/
def Starts (written : List Char) : Prop :=
  ∃ c rest, written = c :: rest ∧ isBlank c = false ∧ c ≠ ']' ∧ c ≠ '\x7d'

section elements

variable {element? : List Char → Option (α × List Char)} {write : α → List Char}
  {close : Char} (closes : close = ']' ∨ close = '\x7d') (pretty : Bool) (depth : Nat)

/-- Elements behind the first, as both kinds of containers write them. -/
def writeMore (write : α → List Char) (pretty : Bool) (depth : Nat) (elements : List α) :
    List Char :=
  elements.flatMap fun element => ',' :: (gap pretty depth ++ write element)

include closes

theorem elementsFrom_written (inner outer : Nat) (rest : List Char) (more : List α) :
    ∀ (rounds : Nat) (first : α) (blank : List Char), Blank blank → more.length < rounds →
      (∀ element ∈ first :: more, Reads element? (write element) element) →
      elementsFrom element? close rounds
        (blank ++ (write first ++
          (writeMore write pretty inner more ++ (gap pretty outer ++ close :: rest)))) =
        some (first :: more, rest) := by
  have closing : isBlank close = false ∧ (close == ',') = false := by
    rcases closes with rfl | rfl <;> decide
  have mark : close ∈ [',', '\n', ']', '\x7d'] := by
    rcases closes with rfl | rfl <;> decide
  induction more with
  | nil =>
      intro rounds first blank white enough reads
      cases rounds with
      | zero => exact absurd enough (Nat.not_lt_zero _)
      | succ rounds =>
          have ends : Ends (gap pretty outer ++ close :: rest) :=
            ends_gap _ _ (ends_cons mark rest)
          have read := reads first List.mem_cons_self blank _ white ends
          have skipped : skipBlank (gap pretty outer ++ close :: rest) = close :: rest := by
            rw [skipBlank_append (blank_gap pretty outer), skipBlank_cons closing.1]
          simp only [writeMore, List.flatMap_nil, List.nil_append, elementsFrom, read,
            Option.bind_eq_bind, Option.bind_some, skipped, closing.2, Bool.false_eq_true, if_false,
            beq_self_eq_true, if_true]
  | cons second more ih =>
      intro rounds first blank white enough reads
      cases rounds with
      | zero => exact absurd enough (Nat.not_lt_zero _)
      | succ rounds =>
          have split : writeMore write pretty inner (second :: more) ++
              (gap pretty outer ++ close :: rest) =
              ',' :: (gap pretty inner ++ (write second ++
                (writeMore write pretty inner more ++ (gap pretty outer ++ close :: rest)))) := by
            simp [writeMore]
          have read := fun tail => reads first List.mem_cons_self blank (',' :: tail) white
            (ends_cons (by decide) tail)
          have others := ih rounds second (gap pretty inner) (blank_gap pretty inner)
            (Nat.lt_of_succ_lt_succ enough)
            fun element member => reads element (List.mem_cons_of_mem _ member)
          rw [split]
          simp only [elementsFrom, read, Option.bind_eq_bind, Option.bind_some,
            skipBlank_cons (show isBlank ',' = false from rfl), beq_self_eq_true, if_true, others]

theorem elements?_written (inner outer : Nat) (rest : List Char) {first : α} {more : List α}
    {rounds : Nat} (enough : more.length < rounds) (starts : Starts (write first))
    (reads : ∀ element ∈ first :: more, Reads element? (write element) element) :
    elements? rounds element? close
        (gap pretty inner ++ (write first ++
          (writeMore write pretty inner more ++ (gap pretty outer ++ close :: rest)))) =
      some (first :: more, rest) := by
  obtain ⟨c, tail, split, shown, notList, notObject⟩ := starts
  have inside : (c == close) = false := by
    rcases closes with rfl | rfl
    · exact beq_eq_false_iff_ne.mpr notList
    · exact beq_eq_false_iff_ne.mpr notObject
  have all := elementsFrom_written closes pretty inner outer rest more rounds first [] blank_nil
    enough reads
  rw [List.nil_append] at all
  rw [elements?, skipBlank_append (blank_gap pretty inner)]
  rw [split, List.cons_append] at all ⊢
  rw [skipBlank_cons shown]
  simp only [inside, Bool.false_eq_true, if_false]
  exact all

end elements

/-! ## Values -/

/-- A tree of at most the given number of nested containers that the reader gives back as it
is: without fractions, with whole numbers of 64 bits, and with distinct keys. -/
inductive Fits : Nat → Json → Prop
  | null {depth : Nat} : Fits depth .null
  | bool {depth : Nat} (b : Bool) : Fits depth (.bool b)
  | int {depth : Nat} {n : Int} (low : -2 ^ 63 ≤ n) (high : n < 2 ^ 64) : Fits depth (.int n)
  | text {depth : Nat} (s : String) : Fits depth (.text s)
  | list {depth : Nat} {items : List Json} (inside : ∀ item ∈ items, Fits depth item) :
      Fits (depth + 1) (.list items)
  | object {depth : Nat} {fields : List (String × Json)}
      (distinct : (fields.map Prod.fst).Nodup) (inside : ∀ field ∈ fields, Fits depth field.2) :
      Fits (depth + 1) (.object fields)

/-- A key, a colon and a value. -/
def writeField (pretty : Bool) (depth : Nat) (field : String × Json) : List Char :=
  renderText field.1 ++ (colon pretty ++ renderFrom pretty depth field.2)

theorem renderItems_eq (pretty : Bool) (depth : Nat) (items : List Json) :
    renderItems pretty depth items = writeMore (renderFrom pretty depth) pretty depth items := by
  induction items with
  | nil => simp [renderItems, writeMore]
  | cons item items ih => simp [renderItems, writeMore, ih]

theorem renderFields_eq (pretty : Bool) (depth : Nat) (fields : List (String × Json)) :
    renderFields pretty depth fields = writeMore (writeField pretty depth) pretty depth fields := by
  induction fields with
  | nil => simp [renderFields, writeMore]
  | cons field fields ih =>
      obtain ⟨key, value⟩ := field
      simp [renderFields, writeMore, writeField, ih]

/-- The signs that a whole number never starts with. -/
def otherMarks : List Char :=
  [' ', '\n', '\r', '\t', ']', '\x7d', '[', '\x7b', 'n', 't', 'f', '"']

theorem renderInt_eq_cons (n : Int) :
    ∃ c rest, renderInt n = c :: rest ∧ ∀ mark ∈ otherMarks, c ≠ mark := by
  cases n with
  | ofNat n =>
      cases digits : Decimal.digitsOf n with
      | nil => exact absurd digits Nat.toDigits_ne_nil
      | cons c rest =>
          have digit : c.isDigit = true :=
            isDigit_of_mem_digitsOf (digits ▸ List.mem_cons_self : c ∈ Decimal.digitsOf n)
          have noDigits : otherMarks.all (fun mark => !mark.isDigit) = true := by decide
          refine ⟨c, rest, digits, fun mark member same => ?_⟩
          have noDigit := List.all_eq_true.mp noDigits mark member
          rw [← same, digit] at noDigit
          cases noDigit
  | negSucc n =>
      have other : '-' ∉ otherMarks := by decide
      exact ⟨'-', _, rfl, fun mark member same => other (same ▸ member)⟩

theorem renderFrom_list (pretty : Bool) (level : Nat) (first : Json) (more : List Json) :
    renderFrom pretty level (.list (first :: more)) =
      '[' :: (gap pretty (level + 1) ++ (renderFrom pretty (level + 1) first ++
        (writeMore (renderFrom pretty (level + 1)) pretty (level + 1) more ++
          (gap pretty level ++ [']'])))) := by
  simp [renderFrom, renderItems_eq]

theorem renderFrom_object (pretty : Bool) (level : Nat) (first : String × Json)
    (more : List (String × Json)) :
    renderFrom pretty level (.object (first :: more)) =
      '\x7b' :: (gap pretty (level + 1) ++ (writeField pretty (level + 1) first ++
        (writeMore (writeField pretty (level + 1)) pretty (level + 1) more ++
          (gap pretty level ++ ['\x7d'])))) := by
  obtain ⟨key, value⟩ := first
  simp [renderFrom, renderFields_eq, writeField]

theorem Fits.starts {depth : Nat} {json : Json} (fits : Fits depth json) (pretty : Bool)
    (level : Nat) : Starts (renderFrom pretty level json) := by
  cases fits with
  | null => exact ⟨'n', _, renderFrom.eq_1 .., by decide⟩
  | bool b =>
      cases b with
      | false => exact ⟨'f', _, renderFrom.eq_3 .., by decide⟩
      | true => exact ⟨'t', _, renderFrom.eq_2 .., by decide⟩
  | int =>
      obtain ⟨c, rest, split, others⟩ := renderInt_eq_cons ‹Int›
      refine ⟨c, rest, by rw [renderFrom, split], ?_, others _ (by decide), others _ (by decide)⟩
      have white : ∀ mark ∈ [' ', '\n', '\r', '\t'], c ≠ mark := fun mark member =>
        others mark (List.mem_append_left _ member)
      simpa [isBlank, and_assoc] using white
  | text s => exact ⟨'"', _, by rw [renderFrom, renderText]; rfl, by decide⟩
  | @list _ items _ =>
      cases items with
      | nil => exact ⟨'[', _, by rw [renderFrom], by decide⟩
      | cons first more => exact ⟨'[', _, renderFrom_list .., by decide⟩
  | @object _ fields _ _ =>
      cases fields with
      | nil => exact ⟨'\x7b', _, by rw [renderFrom], by decide⟩
      | cons first more => exact ⟨'\x7b', _, renderFrom_object .., by decide⟩

/-! ## Reading what was written -/

theorem value?_scalar (rounds depth : Nat) {c : Char} {rest : List Char}
    (shown : isBlank c = false) (noList : c ≠ '[') (noObject : c ≠ '\x7b') {blank : List Char}
    (white : Blank blank) :
    value? rounds depth (blank ++ c :: rest) = scalar? rounds (c :: rest) := by
  cases depth with
  | zero => rw [value?, skipBlank_append white, skipBlank_cons shown]
  | succ depth =>
      rw [value?, skipBlank_append white, skipBlank_cons shown]
      split
      · rename_i same
        exact absurd (List.cons.inj same).1 noList
      · rename_i same
        exact absurd (List.cons.inj same).1 noObject
      · rfl

theorem scalar?_number (rounds : Nat) {c : Char} {rest : List Char}
    (others : ∀ mark ∈ otherMarks, c ≠ mark) :
    scalar? rounds (c :: rest) = number? (c :: rest) := by
  unfold scalar?
  split
  · rename_i same
    exact absurd (List.cons.inj same).1 (others _ (by decide))
  · rename_i same
    exact absurd (List.cons.inj same).1 (others _ (by decide))
  · rename_i same
    exact absurd (List.cons.inj same).1 (others _ (by decide))
  · rename_i same
    exact absurd (List.cons.inj same).1 (others _ (by decide))
  · rfl

theorem renderText_append (text : String) (rest : List Char) :
    renderText text ++ rest = '"' :: (text.toList.flatMap escapedChar ++ '"' :: rest) := by
  simp [renderText]

private theorem length_le_flatMap (write : α → List Char)
    (some : ∀ element, 0 < (write element).length) (elements : List α) :
    elements.length ≤ (elements.flatMap write).length := by
  induction elements with
  | nil => exact Nat.le_refl 0
  | cons element elements ih =>
      have first := some element
      rw [List.length_cons, List.flatMap_cons, List.length_append]
      omega

/-- A text is written with at least as many characters as it has. -/
theorem length_lt_renderText (text : String) : text.toList.length < (renderText text).length := by
  have some : ∀ c, 0 < (escapedChar c).length := by
    intro c
    rcases escapedChar_cases c with ⟨escape, written, -⟩ | ⟨written, -⟩
    · exact written ▸ Nat.succ_pos _
    · exact written ▸ Nat.one_pos
  have escaped := length_le_flatMap escapedChar some text.toList
  simp only [renderText, List.length_append, List.length_cons]
  omega

private theorem length_le_of_mem (write : α → List Char) {elements : List α} {element : α}
    (member : element ∈ elements) :
    (write element).length ≤ (elements.flatMap write).length := by
  induction elements with
  | nil => cases member
  | cons first more ih =>
      rw [List.flatMap_cons, List.length_append]
      rcases List.mem_cons.mp member with rfl | further
      · exact Nat.le_add_right _ _
      · exact Nat.le_trans (ih further) (Nat.le_add_left _ _)

/-- A container is written with more characters than it has elements, and than any of them
takes. -/
theorem length_elements {write : α → List Char} (pretty : Bool) (depth : Nat) {first : α}
    {more : List α} {rounds : Nat} {tail : List Char}
    {mark : Char} (enough : (mark :: (gap pretty depth ++
      (write first ++ (writeMore write pretty depth more ++ tail)))).length < rounds) :
    more.length < rounds ∧ ∀ element ∈ first :: more, (write element).length < rounds := by
  simp only [List.length_cons, List.length_append] at enough
  have behind : writeMore write pretty depth more =
      more.flatMap fun element => ',' :: (gap pretty depth ++ write element) := rfl
  have count := length_le_flatMap (fun element => ',' :: (gap pretty depth ++ write element))
    (fun _ => Nat.succ_pos _) more
  rw [← behind] at count
  refine ⟨by omega, fun element member => ?_⟩
  rcases List.mem_cons.mp member with rfl | further
  · omega
  · have part :=
      length_le_of_mem (fun element => ',' :: (gap pretty depth ++ write element)) further
    rw [← behind, List.length_cons, List.length_append] at part
    omega

theorem length_value {pretty : Bool} {level rounds : Nat} {field : String × Json}
    (enough : (writeField pretty level field).length < rounds) :
    (renderFrom pretty level field.2).length < rounds := by
  simp only [writeField, List.length_append] at enough
  omega

theorem field?_written {pretty : Bool} {level rounds depth : Nat} {field : String × Json}
    (enough : (writeField pretty level field).length < rounds)
    (reads : Reads (value? rounds depth) (renderFrom pretty level field.2) field.2) :
    Reads (field? rounds fun _ => value? rounds depth) (writeField pretty level field) field := by
  intro blank rest white ends
  obtain ⟨key, value⟩ := field
  have short : key.toList.length < rounds := by
    have inside := length_lt_renderText key
    simp only [writeField, List.length_append] at enough
    omega
  have spaced : ∃ blank, colon pretty = ':' :: blank ∧ Blank blank := by
    cases pretty with
    | false => exact ⟨[], rfl, blank_nil⟩
    | true => exact ⟨[' '], rfl, by simp [Blank, isBlank]⟩
  obtain ⟨space, split, spaceWhite⟩ := spaced
  have read := reads space rest spaceWhite ends
  have written : writeField pretty level (key, value) ++ rest =
      '"' :: (key.toList.flatMap escapedChar ++ '"' ::
        (':' :: (space ++ (renderFrom pretty level value ++ rest)))) := by
    rw [writeField, List.append_assoc, renderText_append, split]
    simp
  rw [field?, skipBlank_append white, written, skipBlank_cons rfl]
  simp only [text?_escaped short, Option.bind_eq_bind, Option.bind_some,
    skipBlank_cons (show isBlank ':' = false from rfl), read]

/-- The reader takes what was written for a tree off the front of a text. -/
theorem Fits.reads {depth : Nat} {json : Json} (fits : Fits depth json) (pretty : Bool) :
    ∀ (level rounds : Nat), (renderFrom pretty level json).length < rounds →
      Reads (value? rounds depth) (renderFrom pretty level json) json := by
  induction fits with
  | null =>
      intro level rounds _ blank rest white ends
      rw [renderFrom]
      exact value?_scalar rounds _ rfl (by decide) (by decide) white
  | bool b =>
      intro level rounds _ blank rest white ends
      cases b with
      | false =>
          rw [renderFrom]
          exact value?_scalar rounds _ rfl (by decide) (by decide) white
      | true =>
          rw [renderFrom]
          exact value?_scalar rounds _ rfl (by decide) (by decide) white
  | @int _ n low high =>
      intro level rounds _ blank rest white ends
      obtain ⟨c, tail, split, others⟩ := renderInt_eq_cons n
      have fits : Fits 0 (.int n) := .int low high
      obtain ⟨d, tail', split', shown, -, -⟩ := fits.starts pretty level
      rw [renderFrom] at split' ⊢
      have read := number?_renderInt low high ends
      rw [split] at read split' ⊢
      obtain ⟨rfl, rfl⟩ := List.cons.inj split'
      rw [List.cons_append] at read ⊢
      rw [value?_scalar rounds _ shown (others _ (by decide)) (others _ (by decide)) white,
        scalar?_number rounds others, read]
  | text s =>
      intro level rounds enough blank rest white ends
      rw [renderFrom] at enough ⊢
      rw [renderText_append, value?_scalar rounds _ rfl (by decide) (by decide) white]
      have short := Nat.lt_trans (length_lt_renderText s) enough
      show (text? rounds _).map _ = _
      rw [text?_escaped short]
      rfl
  | @list depth items inside ih =>
      intro level rounds enough blank rest white ends
      have opens : ∀ tail, value? rounds (depth + 1) (blank ++ '[' :: tail) =
          (elements? rounds (value? rounds depth) ']' tail).map fun found =>
            (.list found.1, found.2) := by
        intro tail
        rw [value?, skipBlank_append white, skipBlank_cons rfl]
        rfl
      cases items with
      | nil =>
          rw [renderFrom]
          exact opens _
      | cons first more =>
          rw [renderFrom_list] at enough ⊢
          obtain ⟨few, short⟩ := length_elements pretty (level + 1) enough
          have all := elements?_written (.inl rfl) pretty (level + 1) level rest few
            ((inside first List.mem_cons_self).starts pretty (level + 1))
            fun item member => ih item member (level + 1) rounds (short item member)
          simp only [List.cons_append, List.append_assoc, List.nil_append]
          rw [opens, all]
          rfl
  | @object depth fields distinct inside ih =>
      intro level rounds enough blank rest white ends
      have opens : ∀ tail, value? rounds (depth + 1) (blank ++ '\x7b' :: tail) =
          (elements? rounds (field? rounds fun _ => value? rounds depth) '\x7d' tail).map
            fun found => (.object found.1, found.2) := by
        intro tail
        rw [value?, skipBlank_append white, skipBlank_cons rfl]
        rfl
      cases fields with
      | nil =>
          rw [renderFrom]
          exact opens _
      | cons first more =>
          rw [renderFrom_object] at enough ⊢
          obtain ⟨few, short⟩ := length_elements pretty (level + 1) enough
          have all := elements?_written (.inr rfl) pretty (level + 1) level rest few
            ⟨'"', _, by rw [writeField, renderText_append], by decide⟩
            fun field member => field?_written (short field member)
              (ih field member (level + 1) rounds (length_value (short field member)))
          simp only [List.cons_append, List.append_assoc, List.nil_append]
          rw [opens, all]
          rfl

/-! ## Whole texts -/

theorem settleItems_eq (items : List Json) : settleItems items = items.map settle := by
  induction items with
  | nil => rfl
  | cons item items ih => rw [settleItems, ih, List.map_cons]

theorem settleFields_eq (fields : List (String × Json)) :
    settleFields fields = fields.map fun field => (field.1, settle field.2) := by
  induction fields with
  | nil => rfl
  | cons field fields ih => rw [settleFields, ih, List.map_cons]

/-- Settling leaves a tree alone whose keys are distinct. -/
theorem Fits.settle_eq {depth : Nat} {json : Json} (fits : Fits depth json) :
    json.settle = json := by
  induction fits with
  | list inside ih =>
      rw [settle, settleItems_eq, List.map_congr_left ih, List.map_id']
  | object distinct inside ih =>
      have same : ∀ field ∈ _, (field.1, settle field.2) = field := fun field member =>
        Prod.ext rfl (ih field member)
      rw [settle, settleFields_eq, List.map_congr_left same, List.map_id',
        Dict.entries_ofList distinct]
  | _ => rfl

/-- Whatever was written is read back. -/
theorem Fits.read?_render {json : Json} (fits : Fits maxDepth json) (pretty : Bool) :
    read? (json.render pretty) = some json := by
  have written : (json.render pretty).toList = renderFrom pretty 0 json := String.toList_ofList
  have read := fits.reads pretty 0 ((renderFrom pretty 0 json).length + 1) (Nat.lt_succ_self _)
    [] [] blank_nil (fun _ none => nomatch none)
  rw [List.nil_append, List.append_nil] at read
  have parsed : written? (json.render pretty) = some json := by
    rw [written?, parse?, written]
    simp only [read, Option.bind_eq_bind, Option.bind_some]
    rfl
  rw [read?, parsed, Option.map_some, fits.settle_eq]

end Json
end Hati
