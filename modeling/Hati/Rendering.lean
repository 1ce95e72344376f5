import Hati.Lineage
import Hati.Number
import Hati.Text.Quoted

namespace Hati

/-!
# Values as text

The text that printing, templates and conversions make of a value.  Texts stand
for themselves at the top and are quoted inside containers.  A container that is
already being shown further out is replaced by a mark, so that cyclic values
have a finite text.
-/

/-- A list or an object, as a node of the graph that rendering walks. -/
inductive Container where
  | list (ref : ListRef)
  | object (ref : ObjectRef)
deriving DecidableEq, Repr

namespace Heap

/-- How many containers there are.  Containers that are open at once are
distinct, so this bounds how deep a walk can go. -/
def containerCount (heap : Heap) : Nat :=
  heap.lists.size + heap.objects.size

end Heap

def boolText (b : Bool) : String :=
  if b then "kweli" else "sikweli"

/-- How an object is laid out. -/
structure ObjectLayout where
  /-- With more entries than this every entry has its own line. -/
  inlineEntries : Nat
  /-- The most bytes that a text on one line may have. -/
  inlineWidth : Nat
  /-- What a line is indented by for each object around it. -/
  indent : String

def objectLayout : ObjectLayout := ⟨3, 80, "  "⟩

namespace ObjectLayout

def indentation (layout : ObjectLayout) (depth : Nat) : String :=
  String.join (List.replicate depth layout.indent)

/-- Put the entries of an object between braces: on one line if they are few,
simple and short, and else on a line each. -/
def arrange (layout : ObjectLayout) (title : String) (entries : List String) (simple : Bool)
    (depth : Nat) : String :=
  if entries.isEmpty then title ++ "\x7b\x7d"
  else
    let inline := title ++ "\x7b " ++ ", ".intercalate entries ++ " \x7d"
    if entries.length ≤ layout.inlineEntries && simple
        && inline.utf8ByteSize ≤ layout.inlineWidth then inline
    else
      let lines := entries.map (layout.indentation (depth + 1) ++ ·)
      title ++ "\x7b\n" ++ ",\n".intercalate lines ++ "\n" ++ layout.indentation depth ++ "\x7d"

end ObjectLayout

namespace Value

/-- Whether the value is shown on more than one level. -/
def isContainer : Value → Bool
  | list _ => true
  | object _ => true
  | _ => false

/-- The text of a value that holds no others; containers have none here. -/
def plainText (heap : Heap) : Value → String
  | null => "null"
  | number x => Number.text x
  | text s => s
  | bool b => boolText b
  | function ref => "[kazi " ++ (heap.function ref).name ++ "]"
  | «class» ref => "[muundo " ++ (heap.class ref).name ++ "]"
  | list _ => ""
  | object _ => ""

/-- The text of a value inside `opened` containers, at most `fuel` levels deep. -/
def nestedText (heap : Heap) : Nat → List Container → Nat → Value → String
  | 0, _, _, _ => ""
  | fuel + 1, opened, depth, value =>
    match value with
    | text s => Text.quoted s
    | list ref =>
      if opened.contains (.list ref) then "[/*cycle*/]"
      else
        let items := (heap.list ref).toList
        if items.isEmpty then "[]"
        else
          let parts := items.map (nestedText heap fuel (.list ref :: opened) depth)
          "[ " ++ ", ".intercalate parts ++ " ]"
    | object ref =>
      if opened.contains (.object ref) then "\x7b/*cycle*/\x7d"
      else
        let title :=
          match heap.classOf? ref with
          | some cls => (heap.class cls).name ++ " "
          | none => ""
        let shown := (heap.object ref).visible
        let entries := shown.map fun (key, property) =>
          let content :=
            match property.value with
            | function f =>
              if property.access.isReadonly then "[getter]"
              else "[tabia " ++ (heap.function f).name ++ "]"
            | inner => nestedText heap fuel (.object ref :: opened) (depth + 1) inner
          key ++ ": " ++ content
        let simple := shown.all fun (_, property) => !property.value.isContainer
        objectLayout.arrange title entries simple depth
    | other => other.plainText heap

/-- The text that a program sees when it prints the value. -/
def toText (heap : Heap) (value : Value) : String :=
  if value.isContainer then nestedText heap (heap.containerCount + 2) [] 0 value
  else value.plainText heap

end Value

end Hati
