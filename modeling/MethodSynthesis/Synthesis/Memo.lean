/-!
# Memo tables

A memo table keeps the first answer to each question and counts how often a question was asked again
and how often it was new. A question whose answer is being looked for counts as new even if no answer
is found.

The counts are numbers of any size. The program counts in 64-bit words, which start again at zero, so
its counts are these as long as a table is asked fewer than 2^64 questions.
-/

set_option autoImplicit false

namespace MethodSynthesis

/-- Answers by question. -/
structure Memo (κ β : Type) where
  /-- The kept answers, newest first. -/
  entries : List (κ × β)
  /-- How many questions were answered from the table. -/
  hits : Nat
  /-- How many questions were not in the table. -/
  misses : Nat

/-- The counts of a memo table. -/
structure MemoStats where
  hits : Nat
  misses : Nat
  entries : Nat
deriving DecidableEq

/-- The text of the counts in traces. -/
def MemoStats.describe (s : MemoStats) : String :=
  s!"TableStats \x7b hits: {s.hits}, misses: {s.misses}, entries: {s.entries} \x7d"

namespace Memo

variable {κ β : Type}

/-- The table without answers. -/
def empty : Memo κ β := ⟨[], 0, 0⟩

/-- The counts of the table. -/
def stats (m : Memo κ β) : MemoStats := ⟨m.hits, m.misses, m.entries.length⟩

/-- Counts a question that the table answers. -/
def hit (m : Memo κ β) : Memo κ β := { m with hits := m.hits + 1 }

/-- Counts a question that the table does not answer. -/
def miss (m : Memo κ β) : Memo κ β := { m with misses := m.misses + 1 }

variable [DecidableEq κ]

/-- The kept answer to a question. -/
def find? (m : Memo κ β) (key : κ) : Option β := (m.entries.find? (·.1 = key)).map (·.2)

/-- Keeps an answer, unless one is kept already, and gives the answer that is kept. -/
def keep (m : Memo κ β) (key : κ) (value : β) : β × Memo κ β :=
  match m.find? key with
  | some kept => (kept, m)
  | none => (value, { m with entries := (key, value) :: m.entries })

end Memo

end MethodSynthesis
