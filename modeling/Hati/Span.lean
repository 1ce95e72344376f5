namespace Hati

/-!
# Places in a program text

Every node of a program carries the place where it was written, so that a
failure can point back at the text.  Values made by the evaluator itself have
no such place; they carry the built-in one.
-/

/-- A place in the program text.  Lines count from one and columns from zero;
line zero belongs to the evaluator itself. -/
structure Span where
  line : Nat := 0
  column : Nat := 0
deriving DecidableEq, Repr, Inhabited

namespace Span

/-- The place of everything that no program text declares. -/
def builtin : Span := {}

/-- A built-in place gives way to the place that asked for the work. -/
def orElse (span fallback : Span) : Span :=
  if span = builtin then fallback else span

/-- Both counts as a reader of the text numbers them, from one. -/
def text (span : Span) : String :=
  toString span.line ++ ":" ++ toString (span.column + 1)

@[simp]
theorem orElse_builtin (fallback : Span) : builtin.orElse fallback = fallback := by
  simp [orElse]

end Span

end Hati
