import MethodSynthesis.Span

/-!
# Diagnostics

A diagnostic is an error for the user: a code, a message, labelled source spans of which the first
is the primary one, and notes. It is built from its code by adding parts, and written with one line
per label and per note.
-/

set_option autoImplicit false

namespace MethodSynthesis

/-- Codes of the errors; the first digit tells resolution errors from internal ones. -/
inductive ErrorCode where
  /-- No default initializer is synthesized for a generic type. -/
  | e2101
  /-- No default initializer is synthesized for an inheriting class. -/
  | e2102
  /-- The compiler broke one of its own rules. -/
  | e9001
deriving DecidableEq

/-- The code as it is written. -/
def ErrorCode.text : ErrorCode → String
  | .e2101 => "E2101"
  | .e2102 => "E2102"
  | .e9001 => "E9001"

/-- A source span with a text that explains it. -/
structure Label where
  span : Span
  message : String
deriving DecidableEq

/-- An error for the user. -/
structure Diagnostic where
  code : ErrorCode
  message : String
  labels : List Label
  notes : List String
deriving DecidableEq

namespace Diagnostic

/-- The diagnostic that has a code and nothing else. -/
def ofCode (code : ErrorCode) : Diagnostic := ⟨code, "", [], []⟩

/-- Replaces the message. -/
def withMessage (d : Diagnostic) (message : String) : Diagnostic := { d with message }

/-- Adds a label after those present. -/
def withLabel (d : Diagnostic) (span : Span) (message : String) : Diagnostic :=
  { d with labels := d.labels ++ [⟨span, message⟩] }

/-- Adds a note after those present. -/
def withNote (d : Diagnostic) (note : String) : Diagnostic := { d with notes := d.notes ++ [note] }

/-- The span of the first label. -/
def primarySpan? (d : Diagnostic) : Option Span := d.labels.head?.map (·.span)

/-- The written form. -/
def render (d : Diagnostic) : String :=
  let headline := s!"error[{d.code.text}]: {d.message}"
  let labels := d.labels.map fun l => s!"\n  --> {l.span.describe}: {l.message}"
  let notes := d.notes.map fun note => s!"\n  = note: {note}"
  String.join (headline :: labels ++ notes)

end Diagnostic

end MethodSynthesis
