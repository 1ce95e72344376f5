import Hati.Fault

namespace Hati

/-!
# Reports of failures

A diagnostic is what a failure tells its reader: the kind, a message, a place
and perhaps advice.  Its report shows the line of the program text with a caret
under the place.
-/

structure Diagnostic where
  kind : FaultKind
  message : String
  span : Span
  help : Option String := none
deriving DecidableEq, Repr

namespace Diagnostic

def ofFault (fault : Fault) : Diagnostic :=
  { kind := fault.cause.kind
    message := fault.cause.message
    span := fault.span
    help := fault.cause.help }

def orAt (diagnostic : Diagnostic) (span : Span) : Diagnostic :=
  { diagnostic with span := diagnostic.span.orElse span }

def withHelp (diagnostic : Diagnostic) (help : String) : Diagnostic :=
  { diagnostic with help := some help }

def summary (diagnostic : Diagnostic) : String :=
  diagnostic.kind.name ++ ": " ++ diagnostic.message

/-- A line without the carriage return that may end it. -/
def chomp (line : List Char) : List Char :=
  match line.reverse with
  | '\r' :: rest => rest.reverse
  | _ => line

/-- The lines of a text; `current` is the start of the line being read, in reverse. -/
def linesFrom (current : List Char) : List Char → List (List Char)
  | [] => if current.isEmpty then [] else [current.reverse]
  | c :: rest =>
    if c == '\n' then chomp current.reverse :: linesFrom [] rest else linesFrom (c :: current) rest

def sourceLines (source : String) : List String :=
  (linesFrom [] source.toList).map String.ofList

/-- A number right-aligned in three columns. -/
def lineNumber (n : Nat) : String :=
  let digits := toString n
  String.join (List.replicate (3 - digits.length) " ") ++ digits

/-- The line of the place and a caret under it.  A place outside the program
text has no line to show. -/
def excerpt (source : String) (span : Span) : String :=
  if span.line = 0 then ""
  else
    let line := ((sourceLines source)[span.line - 1]?).getD ""
    "   |\n" ++ lineNumber span.line ++ " | " ++ line ++ "\n"
      ++ "   | " ++ String.join (List.replicate span.column " ") ++ "^\n"

def render (diagnostic : Diagnostic) (fileName source : String) : String :=
  "error[" ++ diagnostic.kind.name ++ "]: " ++ diagnostic.message ++ "\n"
    ++ "  --> " ++ fileName ++ ":" ++ diagnostic.span.text ++ "\n"
    ++ excerpt source diagnostic.span
    ++ match diagnostic.help with
      | some help => "help: " ++ help ++ "\n"
      | none => ""

end Diagnostic

end Hati
