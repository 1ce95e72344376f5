import Hati.Regex.Folding
import Hati.Regex.PropertyName

namespace Hati
namespace Regex

/-!
# Classes of characters

The classes that patterns name by a letter or by a word in brackets, and the flags
that change how patterns are read.
-/

/-- The named classes of ASCII characters. -/
def posix? : String → Option CharSet
  | "alnum" => some (.ofRows ["30-39 41-5a 61-7a"])
  | "alpha" => some (.ofRows ["41-5a 61-7a"])
  | "ascii" => some (.ofRows ["0-7f"])
  | "blank" => some (.ofRows ["9 20"])
  | "cntrl" => some (.ofRows ["0-1f 7f"])
  | "digit" => some (.ofRows ["30-39"])
  | "graph" => some (.ofRows ["21-7e"])
  | "lower" => some (.ofRows ["61-7a"])
  | "print" => some (.ofRows ["20-7e"])
  | "punct" => some (.ofRows ["21-2f 3a-40 5b-60 7b-7e"])
  | "space" => some (.ofRows ["9-d 20"])
  | "upper" => some (.ofRows ["41-5a"])
  | "word" => some (.ofRows ["30-39 41-5a 5f 61-7a"])
  | "xdigit" => some (.ofRows ["30-39 41-46 61-66"])
  | _ => none

/-- What a pattern can switch on and off. -/
structure Flags where
  caseInsensitive : Bool := false
  multiLine : Bool := false
  dotMatchesLineFeed : Bool := false
  /-- Repetitions are reluctant unless marked, instead of greedy. -/
  swapGreed : Bool := false
  returnLines : Bool := false
  /-- White space and comments are not part of the pattern. -/
  ignoreBlank : Bool := false
  unicode : Bool := true
deriving DecidableEq, Repr, Inhabited

namespace Flags

def ofLetter? (flags : Flags) (value : Bool) : Char → Option Flags
  | 'i' => some { flags with caseInsensitive := value }
  | 'm' => some { flags with multiLine := value }
  | 's' => some { flags with dotMatchesLineFeed := value }
  | 'U' => some { flags with swapGreed := value }
  | 'R' => some { flags with returnLines := value }
  | 'x' => some { flags with ignoreBlank := value }
  | 'u' => some { flags with unicode := value }
  | _ => none

/-- A class as the flags read it. -/
def fold (flags : Flags) (set : CharSet) : CharSet :=
  if flags.caseInsensitive then
    if flags.unicode then Regex.fold set else foldAscii set
  else set

/-- A single character as the flags read it. -/
def char (flags : Flags) (c : Char) : CharSet :=
  if flags.caseInsensitive then
    if flags.unicode then .ofChars (variants c) else foldAscii (.single c)
  else .single c

/-- A class or its complement.  Case is levelled before the complement is taken.
Without Unicode a complement would hold bytes that are no characters, so there is
none. -/
def foldAndNegate? (flags : Flags) (negated : Bool) (set : CharSet) : Option CharSet :=
  let folded := flags.fold set
  if negated then
    if flags.unicode then some folded.complement else none
  else some folded

/-- A class named by a small letter: digits, white space or the characters of words. -/
def letterClass (flags : Flags) (letter : Char) : CharSet :=
  match letter with
  | 'd' => if flags.unicode then Trait.digit else .ofRows ["30-39"]
  | 's' => if flags.unicode then Trait.blank else .ofRows ["9-d 20"]
  | _ => if flags.unicode then Trait.word else .ofRows ["30-39 41-5a 5f 61-7a"]

def dot (flags : Flags) : CharSet :=
  if flags.dotMatchesLineFeed then .all
  else if flags.returnLines then (CharSet.ofRows ["a d"]).complement
  else (CharSet.single '\n').complement

end Flags

end Regex
end Hati
