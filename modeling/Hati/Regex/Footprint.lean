import Std.Data.HashMap
import Hati.Regex.Expr

namespace Hati
namespace Regex

/-!
# The size of an expression

An expression may not be too large.  Its size is that of two automata that read the
bytes of a text, one from its start and one from its end.  A state takes 32 bytes,
and the lists in a state take four bytes for a successor and eight for a successor
with a range of bytes.  Counted repetitions are written out.

A class beyond ASCII takes many states, one for every byte of its characters.
Equal parts of a class share their states as long as they are remembered: the states
are kept in a table of fixed size in which a newcomer takes the place of whoever has
the same slot.  Slots depend on the numbers of the states, so the same class can
take more states in one place than in another.  The size is found by laying out the
states one by one.
-/

/-! ## Bytes of characters -/

/-- The bytes of a character in UTF-8. -/
def encodeChar (code : Nat) : List Nat :=
  if code < 0x80 then [code]
  else if code < 0x800 then [0xc0 + code / 64, 0x80 + code % 64]
  else if code < 0x10000 then
    [0xe0 + code / 4096, 0x80 + code / 64 % 64, 0x80 + code % 64]
  else
    [0xf0 + code / 262144, 0x80 + code / 4096 % 64, 0x80 + code / 64 % 64, 0x80 + code % 64]

def encodeText (text : List Char) : List Nat :=
  text.flatMap fun c => encodeChar c.toNat

abbrev ByteRange := Nat × Nat

/-- Cut a range behind a code point. -/
def cutBehind (code : Nat) (range : CharRange) : List CharRange :=
  if range.first ≤ code && code < range.last then
    [⟨range.first, code⟩, ⟨code + 1, range.last⟩]
  else [range]

/-- Leave out the code points that are no characters. -/
def cutSurrogates (range : CharRange) : List CharRange :=
  if range.first < 0xe000 && 0xd7ff < range.last then
    let low : CharRange := ⟨range.first, 0xd7ff⟩
    let high : CharRange := ⟨0xe000, range.last⟩
    [low, high].filter fun part => part.first ≤ part.last
  else [range]

/-- Cut a range that reaches over several blocks of a size at the first and at the
last border between blocks, unless it fills its first or last block.  Characters of
one byte have no blocks. -/
def cutBlocks (size : Nat) (range : CharRange) : List CharRange :=
  let cutEnd := fun (part : CharRange) =>
    if part.first / size != part.last / size && part.last % size != size - 1 then
      let border := part.last / size * size
      [⟨part.first, border - 1⟩, ⟨border, part.last⟩]
    else [part]
  if range.last < 0x80 then [range]
  else if range.first / size != range.last / size && range.first % size != 0 then
    let border := (range.first / size + 1) * size
    ⟨range.first, border - 1⟩ :: cutEnd ⟨border, range.last⟩
  else cutEnd range

/-- The byte sequences of the characters of a set: every sequence lists the ranges
that the bytes of its characters run through, independently of each other. -/
def byteSequences (set : CharSet) : List (List ByteRange) :=
  let pieces := set.ranges.flatMap cutSurrogates
  let pieces := (pieces.flatMap (cutBehind 0x7f)).flatMap (cutBehind 0x7ff)
  let pieces := (pieces.flatMap (cutBehind 0xffff)).flatMap (cutBlocks 64)
  let pieces := (pieces.flatMap (cutBlocks 4096)).flatMap (cutBlocks 262144)
  pieces.map fun piece => (encodeChar piece.first).zip (encodeChar piece.last)

/-! ## Layouts -/

/-- The states laid out so far and the bytes that their lists take. -/
structure Layout where
  states : Nat := 0
  listed : Nat := 0

namespace Layout

def size (layout : Layout) : Nat :=
  32 * layout.states + layout.listed

/-- Expressions that take more bytes than this are refused. -/
def maxSize : Nat := 10485760

/-- Lay out a state with lists of so many bytes. -/
def add (layout : Layout) (listed : Nat) : Layout :=
  ⟨layout.states + 1, layout.listed + listed⟩

/-- Put so many successors into the lists of states laid out before. -/
def link (layout : Layout) (count : Nat) : Layout :=
  ⟨layout.states, layout.listed + 4 * count⟩

/-- Lay out the same thing `count` times, or until it is too much. -/
def copies (copy : Layout → Layout) : Nat → Layout → Layout
  | 0, layout => layout
  | count + 1, layout =>
    if maxSize < layout.size then layout else copies copy count (copy layout)

end Layout

/-! ## Remembered states -/

/-- One step of a hash over numbers. -/
def mix (hash : UInt64) (n : Nat) : UInt64 :=
  (hash ^^^ n.toUInt64) * 1099511628211

def hashOf (numbers : List Nat) : UInt64 :=
  numbers.foldl mix 14695981039346656037

/-- States by what they stand for, one for each slot. -/
abbrev Remembered (α : Type) := Std.HashMap UInt64 (α × Nat)

/-- The state that is remembered for a key in its slot. -/
def known? {α : Type} [BEq α] (table : Remembered α) (slot : UInt64) (key : α) : Option Nat :=
  match table[slot]? with
  | some (other, state) => if other == key then some state else none
  | none => none

/-! ## Classes, read from the start -/

/-- A range of bytes with the state that follows them. -/
structure Transition where
  range : ByteRange
  target : Nat
deriving BEq

/-- A state whose transitions are not all known: those that are, the latest first,
and the range of the one whose target is still open. -/
structure OpenState where
  known : List Transition := []
  pending : Option ByteRange := none

namespace OpenState

def close (state : OpenState) (target : Nat) : OpenState :=
  match state.pending with
  | some range => ⟨⟨range, target⟩ :: state.known, none⟩
  | none => state

end OpenState

/-- A class that is being laid out: the state behind it, the states that are still
open, the innermost first, and those that are finished. -/
structure ClassLayout where
  layout : Layout
  goal : Nat
  opened : List OpenState
  finished : Remembered (List Transition)

namespace ClassLayout

/-- Finish a state, or find it among the finished ones. -/
def finish (cls : ClassLayout) (state : OpenState) : Nat × ClassLayout :=
  let transitions := state.known.reverse
  let slot := hashOf (transitions.flatMap fun t => [t.range.1, t.range.2, t.target]) % 10000
  match known? cls.finished slot transitions with
  | some number => (number, cls)
  | none =>
    let number := cls.layout.states
    (number, { cls with
      layout := cls.layout.add (8 * transitions.length)
      finished := cls.finished.insert slot (transitions, number) })

/-- Finish the `count` innermost states, the last of which leads to `target`, and
close the transition of the one around them. -/
def finishInner : Nat → Nat → ClassLayout → ClassLayout
  | 0, target, cls =>
    match cls.opened with
    | state :: outer => { cls with opened := state.close target :: outer }
    | [] => cls
  | count + 1, target, cls =>
    match cls.opened with
    | state :: outer =>
      let (number, cls) := { cls with opened := outer }.finish (state.close target)
      finishInner count number cls
    | [] => cls

/-- How many of the open transitions, from the outermost on, have the ranges of a
sequence. -/
def sharedCount : List OpenState → List ByteRange → Nat
  | state :: inner, range :: ranges =>
    if state.pending == some range then sharedCount inner ranges + 1 else 0
  | _, _ => 0

/-- Add a sequence.  Sequences come in ascending order, so only the states on the way
to the last one can still get transitions. -/
def addSequence (cls : ClassLayout) (ranges : List ByteRange) : ClassLayout :=
  let shared := sharedCount cls.opened.reverse ranges
  let cls := finishInner (cls.opened.length - (shared + 1)) cls.goal cls
  match cls.opened, ranges.drop shared with
  | state :: outer, range :: rest =>
    let opened := { state with pending := some range } :: outer
    { cls with
      opened := rest.foldl (fun opened range => { pending := some range } :: opened) opened }
  | _, _ => cls

end ClassLayout

def layOutClass (set : CharSet) (layout : Layout) : Layout :=
  let start : ClassLayout := ⟨layout.add 0, layout.states, [{}], {}⟩
  let cls := (byteSequences set).foldl ClassLayout.addSequence start
  let cls := ClassLayout.finishInner (cls.opened.length - 1) cls.goal cls
  (cls.finish (cls.opened.head?.getD {})).2.layout

/-! ## Classes, read from the end -/

/-- States that read one range of bytes and lead to a known state. -/
abbrev Suffixes := Remembered (Nat × ByteRange)

/-- Lay out a sequence so that its last byte is read first. -/
def layOutBackward : List ByteRange → Nat → Layout × Suffixes → Layout × Suffixes
  | [], _, result => result
  | range :: ranges, target, (layout, suffixes) =>
    let slot := hashOf [target, range.1, range.2] % 1000
    match known? suffixes slot (target, range) with
    | some state => layOutBackward ranges state (layout, suffixes)
    | none =>
      let state := layout.states
      layOutBackward ranges state (layout.add 0, suffixes.insert slot ((target, range), state))

def layOutClassBackward (set : CharSet) (layout : Layout) : Layout :=
  let goal := layout.states + 1
  let start : Layout × Suffixes := ((layout.add 0).add 0, {})
  ((byteSequences set).foldl (fun (layout, suffixes) ranges =>
    layOutBackward ranges goal (layout.link 1, suffixes)) start).1

/-! ## Alternative texts -/

/-- Alternative texts share what they have in common at their start, but not across
a text that ends there.  These are the texts behind a common start, in pieces divided
by the texts that end there, and the number of those. -/
structure Branching where
  pieces : List (List (List Nat)) := []
  current : List (List Nat) := []
  ends : Nat := 0

namespace Branching

def isLeaf (branching : Branching) : Bool :=
  branching.current.isEmpty && branching.pieces.all List.isEmpty

/-- Further ends count for nothing as long as no text goes on. -/
def add (branching : Branching) (text : List Nat) : Branching :=
  match text with
  | [] =>
    if branching.isLeaf && branching.ends != 0 then branching
    else ⟨branching.current.reverse :: branching.pieces, [], branching.ends + 1⟩
  | _ => { branching with current := text :: branching.current }

def ofTexts (texts : List (List Nat)) : Branching :=
  let branching := texts.foldl add {}
  { branching with
    pieces := (branching.current.reverse :: branching.pieces).filter (!·.isEmpty)
    current := [] }

end Branching

/-- Sort texts by their first byte. -/
def byFirst (texts : List (List Nat)) : List (Nat × List (List Nat)) :=
  texts.foldr (fun text groups =>
    match text with
    | [] => groups
    | byte :: rest =>
      match groups.lookup byte with
      | some others =>
        groups.map fun (other, group) =>
          if other == byte then (byte, rest :: others) else (other, group)
      | none => (byte, [rest]) :: groups) []

/-- Lay out alternative texts, given those that share a start for every start that is
still to be done.  Every round takes a byte. -/
def layOutTexts : Nat → List (List (List Nat)) → Layout → Layout
  | 0, _, layout => layout
  | _, [], layout => layout
  | rounds + 1, texts :: others, layout =>
    let branching := Branching.ofTexts texts
    if branching.isLeaf then layOutTexts rounds others layout
    else
      let groups := branching.pieces.map byFirst
      let layout := layout.add (4 * (branching.pieces.length + branching.ends))
      let layout := groups.foldl (fun layout group =>
        layout.add (if group.length ≤ 1 then 0 else 8 * group.length)) layout
      layOutTexts rounds (groups.flatMap (·.map Prod.snd) ++ others) layout

/-! ## Expressions -/

inductive Direction where
  | forward | backward
deriving DecidableEq, Repr

namespace Expr

/-- The text of an expression that is just one. -/
def text? : Expr → Option (List Char)
  | literal text => some text
  | _ => none

def layOutSet (direction : Direction) (set : CharSet) (layout : Layout) : Layout :=
  if set.isAscii then (layout.add 0).add (8 * set.ranges.length)
  else
    match direction with
    | .forward => layOutClass set layout
    | .backward => layOutClassBackward set layout

def layOutAlternatives (direction : Direction) (texts : List (List Char)) (layout : Layout) :
    Layout :=
  let texts := texts.map encodeText
  let texts := if direction == .backward then texts.map List.reverse else texts
  layOutTexts (texts.flatten.length + texts.length + 1) [texts] (layout.add 0)

/-- A repetition of something, given whether that cannot be empty.  What can be empty
needs two choices to be left out and to be left. -/
def layOutRepetition (copy : Layout → Layout) (consumes : Bool) :
    Nat → Option Nat → Layout → Layout
  | 0, some 1, layout => ((copy (layout.add 0)).add 0).link 2
  | 0, none, layout =>
    if consumes then (copy (layout.add 0)).link 2
    else (((copy layout).add 0).add 0).add 16
  | least + 1, none, layout => ((Layout.copies copy (least + 1) layout).add 0).link 2
  | least, some most, layout =>
    if least == most then Layout.copies copy least layout
    else
      let layout := if least == 0 then layout.add 0 else Layout.copies copy least layout
      Layout.copies (fun layout => copy (layout.add 8)) (most - least) (layout.add 0)

mutual

def layOut (direction : Direction) : Expr → Layout → Layout
  | empty, layout => layout.add 0
  | literal text, layout => { layout with states := layout.states + (encodeText text).length }
  | chars set, layout => layOutSet direction set layout
  | assertion _, layout => layout.add 0
  | capture _ inner, layout =>
    match direction with
    | .forward => (inner.layOut direction (layout.add 0)).add 0
    | .backward => inner.layOut direction layout
  | concat parts, layout =>
    match direction with
    | .forward => layOutForward parts layout
    | .backward => layOutReverse parts layout
  | alternation branches, layout =>
    match branches.mapM text? with
    | some texts => layOutAlternatives direction texts layout
    | none => layOutBranches direction branches layout
  | repetition inner least most _, layout =>
    layOutRepetition (inner.layOut direction) inner.consumes least most layout

def layOutForward : List Expr → Layout → Layout
  | [], layout => layout
  | part :: parts, layout => layOutForward parts (part.layOut .forward layout)

def layOutReverse : List Expr → Layout → Layout
  | [], layout => layout
  | part :: parts, layout => part.layOut .backward (layOutReverse parts layout)

/-- The choice between branches stands behind the first two of them. -/
def layOutBranches (direction : Direction) : List Expr → Layout → Layout
  | [], layout => layout
  | [branch], layout => branch.layOut direction layout
  | first :: second :: others, layout =>
    let layout := second.layOut direction (first.layOut direction layout)
    layOutOthers direction others (((layout.add 0).add 0).link 2)

def layOutOthers (direction : Direction) : List Expr → Layout → Layout
  | [], layout => layout
  | branch :: branches, layout =>
    layOutOthers direction branches ((branch.layOut direction layout).link 1)

end

/-- The whole automaton.  Unless all matches start where reading starts, a loop in
front skips bytes; the automaton that reads forward notes both ends of the match. -/
def automaton (direction : Direction) (expr : Expr) : Layout :=
  let isAnchored :=
    match direction with
    | .forward => expr.isStartAnchored
    | .backward => expr.isEndAnchored
  let front : Layout := if isAnchored then ⟨1, 0⟩ else ⟨3, 16⟩
  let body :=
    match direction with
    | .forward => capture 0 expr
    | .backward => expr
  (body.layOut direction front).add 0

mutual

/-- A bound on the size that is found quickly. -/
def estimate : Expr → Nat
  | empty => 32
  | literal text => 128 * text.length
  | chars set =>
    let length := (byteSequences set).foldl (fun length ranges => length + ranges.length) 0
    64 + 8 * set.ranges.length + 44 * length
  | assertion _ => 32
  | capture _ inner => 64 + inner.estimate
  | concat parts => estimateOfAll parts
  | alternation branches => 64 + 3 * estimateOfAll branches + 16 * branches.length
  | repetition inner least most _ => 128 + (max least (most.getD 0) + 1) * (inner.estimate + 40)

def estimateOfAll : List Expr → Nat
  | [] => 0
  | expr :: exprs => expr.estimate + estimateOfAll exprs

end

/-- Many alternative texts are looked for by other means, which know no bound. -/
def isWordList : Expr → Bool
  | alternation branches => 3000 ≤ branches.length && branches.all fun branch => branch.text?.isSome
  | _ => false

/-- Whether an expression is small enough. -/
def fits (expr : Expr) : Bool :=
  expr.isWordList || expr.estimate + 256 ≤ Layout.maxSize
    || (expr.automaton .forward).size ≤ Layout.maxSize
      && (expr.automaton .backward).size ≤ Layout.maxSize

end Expr

end Regex
end Hati
