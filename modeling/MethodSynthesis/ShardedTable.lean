import MethodSynthesis.InternTable

/-!
# Intern tables, shard by shard

An intern table as it is stored. Each of the sixteen shards has its values in the order of their
slots and a map that leads from a value to its slot. The reserved values stand at the start of shard
0, but a map of their own leads to them, so they are looked for before any shard is. The number of
all values is counted along.

`InternTable` is the same table as one list of entries, and the pools of names, types and signatures
are made of that. The maps are lists of pairs, the newest first.
-/

set_option autoImplicit false

namespace MethodSynthesis

/-- One shard of a table. -/
structure Shard (α : Type) where
  /-- The slot of each value that was interned here. -/
  slots : List (α × Nat)
  /-- The values by slot. -/
  items : Array α

/-- The shard that holds nothing. -/
def Shard.empty {α : Type} : Shard α := ⟨[], #[]⟩

/-- The shard with one more value, which its map leads to. -/
def Shard.push {α : Type} (shard : Shard α) (value : α) : Shard α where
  slots := (value, shard.items.size) :: shard.slots
  items := shard.items.push value

/-- Values stored once each, shard by shard. -/
structure ShardedTable (α : Type) where
  /-- The shard of each value that is not reserved. -/
  shardOf : α → Fin 16
  shards : Vector (Shard α) 16
  /-- The slot of each reserved value, in shard 0. -/
  reserved : List (α × Nat)
  /-- Number of stored values. -/
  count : Nat

namespace ShardedTable

variable {α : Type}

/-- The table with given reserved values, which shard 0 starts with. -/
def ofReserved (shardOf : α → Fin 16) (reserved : List (α × Nat)) (first : Shard α) :
    ShardedTable α where
  shardOf := shardOf
  shards := .ofFn fun shard => if shard = 0 then first else .empty
  reserved := reserved
  count := first.items.size

/-- The table that holds nothing. -/
def empty (shardOf : α → Fin 16) : ShardedTable α := ofReserved shardOf [] .empty

/-- Number of stored values. -/
def size (t : ShardedTable α) : Nat := t.count

/-- Whether nothing beyond the reserved values is stored. -/
def isEmpty (t : ShardedTable α) : Bool := t.size ≤ t.reserved.length

/-- The value behind a handle. -/
def get? (t : ShardedTable α) (h : Handle) : Option α := t.shards[h.shard].items[h.slot]?

/-- What a reader makes of the value behind a handle. -/
def inspect? {ρ : Type} (t : ShardedTable α) (h : Handle) (use : α → ρ) : Option ρ :=
  (t.get? h).map use

/-- The place at the end of a new value's shard. -/
def freshHandle (t : ShardedTable α) (value : α) : Handle :=
  ⟨t.shardOf value, t.shards[t.shardOf value].items.size⟩

/-- The table with one more value at that place. -/
def store (t : ShardedTable α) (value : α) : ShardedTable α where
  shardOf := t.shardOf
  shards := t.shards.set (t.shardOf value) (t.shards[t.shardOf value].push value)
  reserved := t.reserved
  count := t.count + 1

section Interning

variable [DecidableEq α]

/-- The reserved values so far, and shard 0 with them, take one more value. Its slot is the number
of values before it, as long as that is a 32-bit word. -/
def reserve (sofar : List (α × Nat) × Shard α) (value : α) :
    Except DuplicateReserved (List (α × Nat) × Shard α) :=
  let (reserved, first) := sofar
  let slot := if first.items.size ≤ 0xFFFFFFFF then first.items.size else Handle.maxSlot
  match reserved.lookup value with
  | some _ => .error {}
  | none => .ok ((value, slot) :: reserved, { first with items := first.items.push value })

/-- The table that holds the given values as its reserved ones, if they are distinct. -/
def withReserved (shardOf : α → Fin 16) (values : List α) :
    Except DuplicateReserved (ShardedTable α) := do
  let (reserved, first) ← values.foldlM reserve ([], .empty)
  return ofReserved shardOf reserved first

/-- The handle of a stored value. -/
def find? (t : ShardedTable α) (value : α) : Option Handle :=
  match t.reserved.lookup value with
  | some slot => some ⟨0, slot⟩
  | none => (t.shards[t.shardOf value].slots.lookup value).map fun slot => ⟨t.shardOf value, slot⟩

/-- The handle of a value, which is stored now if it was not before and its shard has room. -/
def tryIntern (t : ShardedTable α) (value : α) : Except ShardOverflow (Handle × ShardedTable α) :=
  match t.find? value with
  | some handle => .ok (handle, t)
  | none =>
    if (t.freshHandle value).slot ≤ Handle.maxSlot then .ok (t.freshHandle value, t.store value)
    else .error ⟨(t.shardOf value).val⟩

end Interning

end ShardedTable

end MethodSynthesis
