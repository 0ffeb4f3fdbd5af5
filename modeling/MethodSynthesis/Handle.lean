/-!
# Handles

A handle names one value of a table by the shard that stores it and the value's slot in that
shard. A handle whose slot is at most `Handle.maxSlot` has a packed form: one 32-bit word with the
shard in the top four bits.
-/

set_option autoImplicit false

namespace MethodSynthesis

/-- There are shards, so that a number names one of them. -/
instance (priority := high) shards_neZero : @NeZero Nat Zero.ofOfNat0 16 := ⟨Nat.succ_ne_zero 15⟩

/-- The place of one stored value. -/
structure Handle where
  /-- One of the sixteen shards. -/
  shard : Fin 16
  /-- Position among the values of the shard, oldest first. -/
  slot : Nat
deriving DecidableEq

namespace Handle

/-- The largest slot that fits the packed form. -/
def maxSlot : Nat := 0x0FFFFFFF

/-- The packed form: the shard above 28 bits of slot. -/
def raw (h : Handle) : Nat := h.shard.val * 0x10000000 + h.slot

/-- The handle with a given packed form. -/
def ofRaw (raw : Nat) : Handle := ⟨⟨raw / 0x10000000 % 16, by omega⟩, raw % 0x10000000⟩

/-- Why a shard and a slot have no packed form. -/
inductive PackError where
  | shardOutOfRange
  | slotOutOfRange
deriving DecidableEq

/-- The failed check, as it is reported. -/
def PackError.message : PackError → String
  | .shardOutOfRange => "assertion failed: shard < 16"
  | .slotOutOfRange => "assertion failed: local <= Self::MAX_LOCAL"

/-- The handle with the given parts, if it has a packed form. The shard is checked first. -/
def ofParts (shard slot : Nat) : Except PackError Handle :=
  if h : shard < 16 then
    if slot ≤ maxSlot then .ok ⟨⟨shard, h⟩, slot⟩ else .error .slotOutOfRange
  else .error .shardOutOfRange

/-- The text of a handle in traces. -/
def describe (h : Handle) : String := s!"RawId(shard={h.shard.val}, local={h.slot})"

/-- Packing loses nothing below the slot limit. -/
theorem ofRaw_raw {h : Handle} (le : h.slot ≤ maxSlot) : ofRaw h.raw = h := by
  obtain ⟨⟨shard, lt⟩, slot⟩ := h
  simp only [maxSlot] at le
  have shard_eq : (shard * 0x10000000 + slot) / 0x10000000 % 16 = shard := by omega
  have slot_eq : (shard * 0x10000000 + slot) % 0x10000000 = slot := by omega
  exact (Handle.mk.injEq ..).mpr ⟨Fin.ext shard_eq, slot_eq⟩

/-- Every 32-bit word is the packed form of its handle. -/
theorem raw_ofRaw {word : Nat} (le : word ≤ 0xFFFFFFFF) : (ofRaw word).raw = word := by
  simp only [ofRaw, raw]
  omega

end Handle

end MethodSynthesis
