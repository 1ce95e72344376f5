import Hati.Json.Selection

namespace Hati

/-!
# Settings of an interpreter

Settings can be read from a JSON text: an object with any of the fields, or a
list that gives their values in order.  Other fields of the object are ignored.
-/

structure Settings where
  /-- How many calls of declared functions may be open at once. -/
  maxCallDepth : Nat := 256
  /-- How often a waiting timer looks whether it was cancelled. -/
  timerSliceMillis : Nat := 50
  /-- The name that reports give to the program text. -/
  fileName : String := "<script>"
deriving DecidableEq, Repr, Inhabited

namespace Settings

/-- The slice in use: a millisecond at least. -/
def slice (settings : Settings) : Nat :=
  max settings.timerSliceMillis 1

def withMaxCallDepth (settings : Settings) (depth : Nat) : Settings :=
  { settings with maxCallDepth := depth }

/-- Set the slice, given in microseconds and kept in whole milliseconds. -/
def withSliceMicros (settings : Settings) (micros : Nat) : Settings :=
  { settings with timerSliceMillis := max (micros / 1000) 1 }

def withFileName (settings : Settings) (name : String) : Settings :=
  { settings with fileName := name }

/-- Counts are whole numbers of 64 bits without a sign. -/
def count? : Json → Option Nat
  | .int (.ofNat n) => if n < Nat.pow 2 64 then some n else none
  | _ => none

def name? : Json → Option String
  | .text s => some s
  | _ => none

/-- Set one field by its name. -/
def withField? (settings : Settings) (name : String) (value : Json) : Option Settings :=
  match name with
  | "max_call_depth" => (count? value).map fun n => { settings with maxCallDepth := n }
  | "timer_slice_ms" => (count? value).map fun n => { settings with timerSliceMillis := n }
  | "file_name" => (name? value).map fun s => { settings with fileName := s }
  | _ => none

def fieldNames : List String :=
  ["max_call_depth", "timer_slice_ms", "file_name"]

/-- Fields that are set, none of them twice. -/
def ofFields? (fields : List (String × Json)) : Option Settings :=
  let names := fields.map Prod.fst
  if names.length == names.eraseDups.length then
    fields.foldlM (fun settings (name, value) => settings.withField? name value) {}
  else none

/-- Values of the fields in order; fields without a value keep their default. -/
def ofValues? (values : List Json) : Option Settings :=
  if values.length ≤ fieldNames.length then ofFields? (fieldNames.zip values) else none

def ofJson? : Json → Option Settings
  | .object fields => ofFields? (fields.filter fun (name, _) => fieldNames.contains name)
  | .list values => ofValues? values
  | _ => none

/-- Read settings from a JSON text. -/
def read? (input : String) : Option Settings :=
  match Json.fields? fieldNames.contains input with
  | some fields => ofFields? fields
  | none => (Json.written? input).bind ofJson?

end Settings

end Hati
