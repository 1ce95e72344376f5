import Hati.Text.Trait

namespace Hati
namespace Text

/-!
# Quoted texts

A text inside a list or an object is shown between quotation marks.  Characters
that would not show as themselves are written as escapes: the quotation mark and
the backslash, control characters, characters without a glyph of their own and
marks that would join the character before them.
-/

/-- Characters that join the one before them, but for the two sound marks that take a
place of their own. -/
def joiningChars : CharSet :=
  Trait.otherGraphemeExtend.difference (.ofRows ["ff9e-ff9f"])

/-- Letters that stand for nothing and show as nothing. -/
def fillers : CharSet := .ofRows ["115f-1160 3164 ffa0"]

/-- Whether a character shows as itself between quotation marks. -/
def showsAsItself (c : Char) : Bool :=
  if c.toNat < 0x7f then 0x20 ≤ c.toNat
  else
    match Category.ofChar c with
    | .nonspacingMark | .enclosingMark => false
    | .spaceSeparator | .lineSeparator | .paragraphSeparator => false
    | category => !category.isOther && !joiningChars.contains c && !fillers.contains c

/-- The escape that names a character by its code in hexadecimal. -/
def codeEscape (c : Char) : List Char :=
  ['\\', 'u', '\x7b'] ++ Nat.toDigits 16 c.toNat ++ ['\x7d']

def quotedChar (c : Char) : List Char :=
  if c == '"' then ['\\', '"']
  else if c == '\\' then ['\\', '\\']
  else if c == '\n' then ['\\', 'n']
  else if c == '\r' then ['\\', 'r']
  else if c == '\t' then ['\\', 't']
  else if c == '\x00' then ['\\', '0']
  else if showsAsItself c then [c]
  else codeEscape c

def quoted (text : String) : String :=
  String.ofList ('"' :: text.toList.flatMap quotedChar ++ ['"'])

end Text
end Hati
