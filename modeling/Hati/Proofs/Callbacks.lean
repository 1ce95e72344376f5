import Hati.Proofs.Law
import Hati.Proofs.Passage

namespace Hati

/-!
# Methods that call back

A method of a list that asks a function about the elements goes through the elements that the list
has when the method is called.  The function may do with the list what it likes: each element of
then is asked about at most once, in order and together with the position that it had, and elements
that are put into the list meanwhile are not.  The methods differ in when the answers decide the
matter, and in the conclusion that they draw.

A reduction goes through the same elements, from the front or from the back.
-/

/-- What a function answered about an element, and whether that was true at the time. -/
structure Answer where
  value : Value
  holds : Bool

namespace ListMethod

/-- The method asks about one element after another. -/
def asks : ListMethod → Bool
  | .map | .filter | .forEach | .find | .some | .every => true
  | _ => false

/-- The answer decides the matter. -/
def settles (method : ListMethod) (answer : Answer) : Bool :=
  match method with
  | .find | .some => answer.holds
  | .every => !answer.holds
  | _ => false

/-- The method takes one element after another into a value. -/
def reduces : ListMethod → Bool
  | .reduce | .reduceRight => true
  | _ => false

/-- The elements in the order in which a reduction takes them. -/
def arrange (method : ListMethod) (elements : List (Value × Nat)) : List (Value × Nat) :=
  match method with
  | .reduceRight => elements.reverse
  | _ => elements

end ListMethod

namespace Evaluator

variable {ev : Evaluator} {function : FunctionRef} {ref : ListRef} {scope : FrameRef} {span : Span}

end Evaluator

end Hati
