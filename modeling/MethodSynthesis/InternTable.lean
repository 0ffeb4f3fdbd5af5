import MethodSynthesis.Handle

/-!
# Intern tables

An intern table stores each value once and names it by a handle, so that two stored values are
equal exactly when their handles are. Values are spread over sixteen shards, by a function that a
table is made with; the slot of a new value is the number of values its shard already holds. The
reserved values of a table are fixed when it is made and take the first slots of shard 0, in order,
so their handles are constants.

Here a table is the list of its entries. `ShardedTable` is the same table as it is stored.
-/

set_option autoImplicit false

namespace MethodSynthesis

/-- A stored value with its handle. -/
structure InternTable.Entry (α : Type) where
  handle : Handle
  value : α

/-- Values stored once each. -/
structure InternTable (α : Type) where
  /-- The shard of each value that is not reserved. -/
  shardOf : α → Fin 16
  /-- The stored values, newest first. -/
  entries : List (InternTable.Entry α)
  /-- How many of the oldest values are reserved. -/
  reserved : Nat

/-- A new value went to a shard whose packed handles are used up. -/
structure ShardOverflow where
  shard : Nat
deriving DecidableEq

/-- The text of the error; the limit is `Handle.maxSlot` in hexadecimal digits. -/
def ShardOverflow.message (e : ShardOverflow) : String :=
  s!"intern table shard {e.shard} exceeded capacity (max local index 0xFFFFFFF)"

/-- A list of reserved values holds one value twice. -/
structure DuplicateReserved where
deriving DecidableEq

/-- The text of the error. -/
def DuplicateReserved.message (_ : DuplicateReserved) : String :=
  "duplicate reserved intern table entry"

namespace InternTable

variable {α : Type}

/-- The table that holds nothing. -/
def empty (shardOf : α → Fin 16) : InternTable α := ⟨shardOf, [], 0⟩

/-- The entries of reserved values, newest first. -/
def pinnedEntries (values : List α) : List (Entry α) :=
  (values.zipIdx.map fun (value, slot) => ⟨⟨0, slot⟩, value⟩).reverse

/-- The table that holds the given values as its reserved ones. The values are to be distinct. -/
def pinned (shardOf : α → Fin 16) (values : List α) : InternTable α where
  shardOf := shardOf
  entries := pinnedEntries values
  reserved := values.length

/-- Number of stored values. -/
def size (t : InternTable α) : Nat := t.entries.length

/-- Whether nothing beyond the reserved values is stored. -/
def isEmpty (t : InternTable α) : Bool := t.size ≤ t.reserved

/-- Number of values stored in a shard. -/
def occupancy (t : InternTable α) (shard : Fin 16) : Nat :=
  t.entries.countP (·.handle.shard = shard)

/-- The value behind a handle. -/
def get? (t : InternTable α) (h : Handle) : Option α :=
  (t.entries.find? (·.handle = h)).map (·.value)

/-- What a reader makes of the value behind a handle. -/
def inspect? {ρ : Type} (t : InternTable α) (h : Handle) (use : α → ρ) : Option ρ :=
  (t.get? h).map use

section Interning

variable [DecidableEq α]

/-- The table that holds the given values as its reserved ones, if they are distinct. -/
def withReserved (shardOf : α → Fin 16) (values : List α) :
    Except DuplicateReserved (InternTable α) :=
  if values.Nodup then .ok (pinned shardOf values) else .error {}

/-- The handle of a stored value. -/
def find? (t : InternTable α) (value : α) : Option Handle :=
  (t.entries.find? (·.value = value)).map (·.handle)

/-- The handle that a new value would get. -/
def freshHandle (t : InternTable α) (value : α) : Handle :=
  ⟨t.shardOf value, t.occupancy (t.shardOf value)⟩

/-- The handle of a value, which is stored now if it was not before. This is for shards with room:
where the shard of a new value is full the program stops, and here the value gets a handle that has
no packed form. -/
def intern (t : InternTable α) (value : α) : Handle × InternTable α :=
  match t.find? value with
  | some handle => (handle, t)
  | none =>
    let handle := t.freshHandle value
    (handle, { t with entries := ⟨handle, value⟩ :: t.entries })

/-- As `intern`, but a new value is refused when its shard is full, that is when its handle would
have no packed form. -/
def tryIntern (t : InternTable α) (value : α) : Except ShardOverflow (Handle × InternTable α) :=
  if (t.find? value).isSome ∨ (t.freshHandle value).slot ≤ Handle.maxSlot then
    .ok (t.intern value)
  else .error ⟨(t.shardOf value).val⟩

end Interning

end InternTable

end MethodSynthesis
