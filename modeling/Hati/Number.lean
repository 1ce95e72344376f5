import Hati.Decimal.Printer
import Hati.Decimal.Reader
import Hati.Text.Blank

namespace Hati
namespace Number

/-!
# Numbers as programs show and read them

Numbers that are whole, or miss a whole number by less than a millionth of a
millionth, are shown without a fraction as long as whole numbers are exact.
-/

def text (x : Float) : String :=
  if x.isNaN then "nan"
  else if x.isInf then if x > 0 then "inf" else "-inf"
  else if x.abs < 9.0e15 && (x - Float.ofInt (roundToInt x)).abs < 1.0e-12 then
    toString (roundToInt x)
  else Decimal.shortestText x

/-- Read a text as a number, white space at its ends aside. -/
def ofText? (text : String) : Option Float :=
  Decimal.read? (Text.trim text)

end Number
end Hati
