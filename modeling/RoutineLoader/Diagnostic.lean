/-!
# Diagnostics

A message that points into a source. Lines and columns of a span count from zero, columns in
characters; `Diagnostic.render` prints both from one. A diagnostic without a place in the source
has the empty span at the start.
-/

namespace RoutineLoader

/-- A line and a column, both counted from zero. -/
structure Position where
  line : Nat
  column : Nat
  deriving DecidableEq, Inhabited

/-- The text from one position up to another. -/
structure Span where
  start : Position
  stop : Position
  deriving DecidableEq, Inhabited

/-- The span of `length` characters of one line. -/
def Span.onLine (line column length : Nat) : Span :=
  ⟨⟨line, column⟩, ⟨line, column + length⟩⟩

/-- The span of a diagnostic without a place in the source. -/
def Span.none : Span :=
  .onLine 0 0 0

/-- How grave a diagnostic is. -/
inductive Severity
  | error
  | warning
  deriving DecidableEq, Inhabited

/-- The word for a severity. -/
def Severity.word : Severity → String
  | error => "error"
  | warning => "warning"

/-- A message about a span of a source. -/
structure Diagnostic where
  message : String
  severity : Severity
  span : Span
  deriving DecidableEq, Inhabited

namespace Diagnostic

/-- An error at a span. -/
def error (message : String) (span : Span) : Diagnostic :=
  ⟨message, .error, span⟩

/-- An advisory at a span. -/
def warning (message : String) (span : Span) : Diagnostic :=
  ⟨message, .warning, span⟩

/-- The diagnostic as it is printed. -/
def render (d : Diagnostic) : String :=
  s!"{d.severity.word}[{d.span.start.line + 1}:{d.span.start.column + 1}]: {d.message}"

end Diagnostic

end RoutineLoader
