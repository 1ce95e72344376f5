namespace Hati

/-!
# JSON trees

Whole numbers are kept apart from other numbers, because they are written
differently.  The fields of an object keep their order.
-/

inductive Json where
  | null
  | bool (value : Bool)
  | int (value : Int)
  | float (value : Float)
  | text (value : String)
  | list (items : List Json)
  | object (fields : List (String × Json))
deriving Inhabited

end Hati
