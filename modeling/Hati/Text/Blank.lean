namespace Hati
namespace Text

/-!
# White space

The characters that Unicode calls white space, and the text without those at
its ends.
-/

def blankRanges : List (Nat × Nat) := [
  (0x9, 0xd), (0x20, 0x20), (0x85, 0x85), (0xa0, 0xa0), (0x1680, 0x1680), (0x2000, 0x200a),
  (0x2028, 0x2029), (0x202f, 0x202f), (0x205f, 0x205f), (0x3000, 0x3000)]

def isBlank (c : Char) : Bool :=
  blankRanges.any fun (first, last) => first ≤ c.toNat && c.toNat ≤ last

/-- The text without white space at either end. -/
def trim (text : String) : String :=
  let fromStart := text.toList.dropWhile isBlank
  String.ofList (fromStart.reverse.dropWhile isBlank).reverse

end Text
end Hati
