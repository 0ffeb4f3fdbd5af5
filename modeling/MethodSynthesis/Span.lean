/-!
# Source spans

A span is a range of byte offsets in a source text, its end excluded.
-/

set_option autoImplicit false

namespace MethodSynthesis

/-- A range of byte offsets. Nothing forces the end to come after the start. -/
structure Span where
  start : UInt32
  stop : UInt32
deriving DecidableEq

namespace Span

/-- The span of what has no place in a source text. -/
def dummy : Span := ⟨0, 0⟩

/-- Whether the span covers no byte. -/
def isEmpty (s : Span) : Bool := s.start = s.stop

/-- A span that ends before it starts has no length. -/
structure Reversed where
  span : Span

/-- The text of the error. -/
def Reversed.message (_ : Reversed) : String := "attempt to subtract with overflow"

/-- Number of bytes covered. -/
def length (s : Span) : Except Reversed Nat :=
  if s.start ≤ s.stop then .ok (s.stop.toNat - s.start.toNat) else .error ⟨s⟩

/-- The written form: the two offsets with two dots between them. -/
def describe (s : Span) : String := s!"{s.start.toNat}..{s.stop.toNat}"

end Span

end MethodSynthesis
