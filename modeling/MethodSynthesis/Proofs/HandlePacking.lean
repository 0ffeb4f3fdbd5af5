import MethodSynthesis.Proofs.InternTables
import MethodSynthesis.Signature.Pool
import Mathlib.Data.List.Nodup

/-!
# Packed handles of stored values

A handle is the place of a value: the shard, and the position among the values of the shard
(`items`). A table is laid out when every entry says the place of its value and no shard holds more
values than there are slots with a packed form (`LaidOut`). Every table that is filled through
`tryIntern` is laid out (`Filled.laidOut`).

In a laid out table the packed form of a handle fits one 32-bit word, gives the place back and
differs from that of every other stored value. It is the word of the unknown type for one place
only, the last slot of the last shard (`tryIntern_packed`). The slot limit does not exclude that
place, so a value can come to it (`fullShard_packs_unknown`).
-/

set_option autoImplicit false

namespace MethodSynthesis

/-! ## The arithmetic of packing -/

namespace Handle

theorem raw_le {h : Handle} (le : h.slot ≤ maxSlot) : h.raw ≤ 0xFFFFFFFF := by
  have shard_lt := h.shard.isLt
  simp only [raw, maxSlot] at le ⊢
  omega

theorem raw_inj {h h' : Handle} (le : h.slot ≤ maxSlot) (le' : h'.slot ≤ maxSlot)
    (eq : h.raw = h'.raw) : h = h' := by
  rw [← ofRaw_raw le, eq, ofRaw_raw le']

/-- The word of the unknown type is the packed form of the very last place. -/
theorem raw_eq_unknownRaw_iff {h : Handle} (le : h.slot ≤ maxSlot) :
    h.raw = TypeId.unknownRaw ↔ h = ⟨15, maxSlot⟩ := by
  constructor
  · intro eq
    exact raw_inj le (Nat.le_refl maxSlot) eq
  · rintro rfl
    rfl

end Handle

namespace InternTable

/-! ## Places -/

section Places

variable {α : Type} {shardOf : α → Fin 16}

/-- The values of a shard, oldest first. -/
def items (t : InternTable α) (shard : Fin 16) : List α :=
  ((t.entries.filter (·.handle.shard = shard)).map (·.value)).reverse

theorem length_items (t : InternTable α) (shard : Fin 16) :
    (t.items shard).length = t.occupancy shard := by
  simp only [items, List.length_reverse, List.length_map, occupancy, List.countP_eq_length_filter]

/-- A new entry adds its value at the end of its shard. -/
theorem items_cons (t : InternTable α) (e : Entry α) (shard : Fin 16) :
    items { t with entries := e :: t.entries } shard =
      if e.handle.shard = shard then t.items shard ++ [e.value] else t.items shard := by
  by_cases same : e.handle.shard = shard <;> simp [items, same]

/-- Every entry says where its value is, and every place in use has a packed form. -/
structure LaidOut (t : InternTable α) : Prop extends t.WellFormed where
  item : ∀ e ∈ t.entries, (t.items e.handle.shard)[e.handle.slot]? = some e.value
  occupancy_le : ∀ shard, t.occupancy shard ≤ Handle.maxSlot + 1

theorem LaidOut.slot_le {t : InternTable α} (laid : t.LaidOut) {e : Entry α}
    (mem : e ∈ t.entries) : e.handle.slot ≤ Handle.maxSlot := by
  have lt := laid.slot_lt e mem
  have le := laid.occupancy_le e.handle.shard
  omega

/-- An entry is stored exactly when its value is the item at its place. -/
theorem LaidOut.mem_iff {t : InternTable α} (laid : t.LaidOut) {h : Handle} {v : α} :
    ⟨h, v⟩ ∈ t.entries ↔ (t.items h.shard)[h.slot]? = some v := by
  constructor
  · exact laid.item ⟨h, v⟩
  · intro placed
    have listed : v ∈ t.items h.shard := List.mem_of_getElem? placed
    obtain ⟨e, kept, rfl⟩ := List.mem_map.1 (List.mem_reverse.1 listed)
    obtain ⟨mem, shard_eq⟩ := List.mem_filter.1 kept
    have shard_eq : e.handle.shard = h.shard := of_decide_eq_true shard_eq
    -- no shard holds a value twice, so the place of `e` is the given one
    have nodup : (t.items h.shard).Nodup :=
      List.nodup_reverse.2 (laid.values_nodup.sublist (List.filter_sublist.map _))
    have own := laid.item e mem
    rw [shard_eq] at own
    obtain ⟨lt, at_slot⟩ := List.getElem?_eq_some_iff.1 placed
    obtain ⟨lt', at_own⟩ := List.getElem?_eq_some_iff.1 own
    have slot_eq : e.handle.slot = h.slot :=
      (nodup.getElem_inj_iff).1 (at_own.trans at_slot.symm)
    have same : e.handle = h := (Handle.mk.injEq ..).mpr ⟨shard_eq, slot_eq⟩
    rwa [← same]

theorem mem_entries_pinned_iff {values : List α} {e : Entry α} :
    e ∈ (pinned shardOf values).entries ↔
      e.handle.shard = 0 ∧ values[e.handle.slot]? = some e.value := by
  rw [pinned, pinnedEntries, List.mem_reverse, List.mem_map]
  constructor
  · rintro ⟨⟨value, slot⟩, placed, rfl⟩
    exact ⟨rfl, List.mk_mem_zipIdx_iff_getElem?.1 placed⟩
  · obtain ⟨⟨shard, slot⟩, value⟩ := e
    rintro ⟨rfl, placed⟩
    exact ⟨(value, slot), List.mk_mem_zipIdx_iff_getElem?.2 placed, rfl⟩

/-- The first shard starts with the reserved values, and the others start empty. -/
theorem items_pinned (values : List α) (shard : Fin 16) :
    (pinned shardOf values).items shard = if shard = 0 then values else [] := by
  split
  case isTrue first =>
    have all : (pinned shardOf values).entries.filter (·.handle.shard = shard) =
        (pinned shardOf values).entries :=
      List.filter_eq_self.2 fun e mem =>
        decide_eq_true ((mem_entries_pinned_iff.1 mem).1.trans first.symm)
    rw [items, all, entries_pinned_values]
  case isFalse other =>
    have none_left : (pinned shardOf values).entries.filter (·.handle.shard = shard) = [] :=
      List.filter_eq_nil_iff.2 fun e mem same =>
        other ((of_decide_eq_true same).symm.trans (mem_entries_pinned_iff.1 mem).1)
    rw [items, none_left]
    rfl

theorem length_entries_pinned (values : List α) :
    (pinned shardOf values).entries.length = values.length := by
  simp [pinned, pinnedEntries]

/-- The reserved values take the first places of the first shard. -/
theorem laidOut_pinned {values : List α} (nodup : values.Nodup)
    (fits : values.length ≤ Handle.maxSlot + 1) : (pinned shardOf values).LaidOut := by
  refine { wellFormed_pinned nodup with item := ?_, occupancy_le := ?_ }
  · intro e mem
    obtain ⟨first, placed⟩ := mem_entries_pinned_iff.1 mem
    rw [items_pinned, if_pos first]
    exact placed
  · intro shard
    have le : (pinned shardOf values).occupancy shard ≤ (pinned shardOf values).entries.length :=
      List.countP_le_length
    rw [length_entries_pinned] at le
    exact Nat.le_trans le fits

end Places

/-! ## Filling a table -/

section Filling

variable {α : Type} [DecidableEq α] {shardOf : α → Fin 16}

/-- A value that is admitted is interned: it was stored before, or its shard has room. -/
theorem intern_eq_of_tryIntern {t t' : InternTable α} {v : α} {h : Handle}
    (ok : t.tryIntern v = .ok (h, t')) :
    t.intern v = (h, t') ∧ ((t.find? v).isSome ∨ (t.freshHandle v).slot ≤ Handle.maxSlot) := by
  rw [tryIntern] at ok
  split at ok
  case isFalse => cases ok
  case isTrue admitted => exact ⟨Except.ok.inj ok, admitted⟩

/-- To be admitted, a value is found, or put in front at a place with a packed form. -/
theorem tryIntern_eq_ok {t t' : InternTable α} {v : α} {h : Handle}
    (ok : t.tryIntern v = .ok (h, t')) :
    (t.find? v = some h ∧ t' = t) ∨
      (t.find? v = none ∧ h = t.freshHandle v ∧ h.slot ≤ Handle.maxSlot ∧
        t' = { t with entries := ⟨h, v⟩ :: t.entries }) := by
  obtain ⟨same, admitted⟩ := intern_eq_of_tryIntern ok
  obtain ⟨known, found, eq⟩ | ⟨absent, eq⟩ := t.intern_cases v
  · rw [eq] at same
    obtain ⟨rfl, rfl⟩ := Prod.mk.inj same
    exact .inl ⟨found, rfl⟩
  · rw [eq] at same
    obtain ⟨rfl, rfl⟩ := Prod.mk.inj same
    refine .inr ⟨absent, rfl, ?_, rfl⟩
    simpa [absent] using admitted

/-- A new value goes to the end of its shard, as long as the place there has a packed form. -/
theorem LaidOut.store {t : InternTable α} (laid : t.LaidOut) {v : α} (absent : t.find? v = none)
    (le : (t.freshHandle v).slot ≤ Handle.maxSlot) :
    LaidOut { t with entries := ⟨t.freshHandle v, v⟩ :: t.entries } := by
  have wf := laid.toWellFormed.intern v
  simp only [intern, absent] at wf
  have slot_eq : (t.freshHandle v).slot = (t.items (t.freshHandle v).shard).length :=
    (t.length_items _).symm
  refine { wf with item := ?_, occupancy_le := ?_ }
  · intro e mem
    rw [items_cons]
    rcases List.mem_cons.1 mem with rfl | mem
    · rw [if_pos rfl, slot_eq]
      exact List.getElem?_concat_length
    · -- the older values of the shard stay where they are
      have own := laid.item e mem
      split
      · rw [List.getElem?_append_left (List.getElem?_eq_some_iff.1 own).1]
        exact own
      · exact own
  · intro shard
    have before := laid.occupancy_le shard
    rw [← length_items] at before ⊢
    rw [items_cons]
    split
    · rename_i same
      rw [← same, List.length_append, List.length_singleton, ← slot_eq]
      exact Nat.succ_le_succ le
    · exact before

/-- The step of the invariant: an admitted value is stored at the place that its handle says. -/
theorem LaidOut.tryIntern {t t' : InternTable α} (laid : t.LaidOut) {v : α} {h : Handle}
    (ok : t.tryIntern v = .ok (h, t')) : t'.LaidOut ∧ ⟨h, v⟩ ∈ t'.entries := by
  obtain ⟨found, rfl⟩ | ⟨absent, rfl, le, rfl⟩ := tryIntern_eq_ok ok
  · exact ⟨laid, (find?_eq_some_iff laid.toWellFormed).1 found⟩
  · exact ⟨laid.store absent le, List.mem_cons_self⟩

/-- The tables that come of some reserved values by admitting others. -/
inductive Filled : InternTable α → Prop where
  | reserved {shardOf : α → Fin 16} {values : List α} (nodup : values.Nodup)
      (fits : values.length ≤ Handle.maxSlot + 1) : Filled (pinned shardOf values)
  | next {t t' : InternTable α} {v : α} {h : Handle} (before : Filled t)
      (ok : t.tryIntern v = .ok (h, t')) : Filled t'

theorem Filled.laidOut {t : InternTable α} (filled : t.Filled) : t.LaidOut := by
  induction filled with
  | reserved nodup fits => exact laidOut_pinned nodup fits
  | next _ ok ih => exact (ih.tryIntern ok).1

/-! ## The packed form of an admitted value -/

/-- The handle of an admitted value is the value's place, its packed form is one 32-bit word that
gives the place back and that no other stored value has, and this word is the one of the unknown
type exactly when the place is the last slot of the last shard. -/
theorem tryIntern_packed {t t' : InternTable α} (laid : t.LaidOut) {v : α} {h : Handle}
    (ok : t.tryIntern v = .ok (h, t')) :
    (t'.items h.shard)[h.slot]? = some v ∧
      h.raw ≤ 0xFFFFFFFF ∧
      Handle.ofRaw h.raw = h ∧
      (∀ e ∈ t'.entries, e.value ≠ v → e.handle.raw ≠ h.raw) ∧
      (h.raw = TypeId.unknownRaw ↔ (t'.items 15)[Handle.maxSlot]? = some v) := by
  obtain ⟨laid', mem⟩ := laid.tryIntern ok
  have le : h.slot ≤ Handle.maxSlot := laid'.slot_le mem
  refine ⟨laid'.item _ mem, Handle.raw_le le, Handle.ofRaw_raw le, ?_, ?_⟩
  · intro e he other raw_eq
    have place_eq : e.handle = h := Handle.raw_inj (laid'.slot_le he) le raw_eq
    have item_eq := laid'.item e he
    rw [place_eq, laid'.item _ mem] at item_eq
    exact other (Option.some.inj item_eq).symm
  · rw [Handle.raw_eq_unknownRaw_iff le]
    constructor
    · rintro rfl
      exact laid'.item _ mem
    · intro last
      have stored : ⟨⟨15, Handle.maxSlot⟩, v⟩ ∈ t'.entries := laid'.mem_iff.2 last
      have same := List.inj_on_of_nodup_map laid'.values_nodup mem stored rfl
      exact congrArg Entry.handle same

end Filling

/-- The table with one reserved word, to which a word of four letters is admitted. -/
theorem reservedWord_packed :
    (pinned Sharding.bySize.names ["this"]).LaidOut ∧
      (pinned Sharding.bySize.names ["this"]).tryIntern "size" =
        .ok (⟨5, 0⟩, ⟨Sharding.bySize.names, [⟨⟨5, 0⟩, "size"⟩, ⟨⟨0, 0⟩, "this"⟩], 1⟩) ∧
      Handle.ofRaw (Handle.raw ⟨5, 0⟩) = ⟨5, 0⟩ ∧
      Handle.raw ⟨5, 0⟩ ≠ TypeId.unknownRaw := by
  have laid : (pinned Sharding.bySize.names ["this"]).LaidOut :=
    Filled.laidOut (.reserved (List.nodup_singleton _) (by decide))
  have ok : (pinned Sharding.bySize.names ["this"]).tryIntern "size" =
      .ok (⟨5, 0⟩, ⟨Sharding.bySize.names, [⟨⟨5, 0⟩, "size"⟩, ⟨⟨0, 0⟩, "this"⟩], 1⟩) := rfl
  obtain ⟨-, -, unpacked, -, unknown_iff⟩ := tryIntern_packed laid ok
  refine ⟨laid, ok, unpacked, ?_⟩
  rw [Ne, unknown_iff]
  decide

/-! ## A value at the last place -/

/-- A signature with fifteen formals, one for each untyped signature of the first shard. -/
def fifteenFormals (slot : Nat) : TypedSignature where
  untyped := ⟨⟨0, slot⟩⟩
  formalTypes := List.replicate 15 ⟨.var, .int⟩
  whereClause := .absent
  needsInstantiation := false
  instantiatedFrom := none
  parentFunction := none
  formalsInstantiated := []

/-- The table of the first so many of these signatures, which share the last shard. -/
def lastShard : Nat → InternTable TypedSignature
  | 0 => .empty Sharding.bySize.typed
  | n + 1 => { lastShard n with entries := ⟨⟨15, n⟩, fifteenFormals n⟩ :: (lastShard n).entries }

theorem shardOf_lastShard (n : Nat) : (lastShard n).shardOf = Sharding.bySize.typed := by
  induction n with
  | zero => rfl
  | succ n ih => exact ih

theorem occupancy_lastShard (n : Nat) : (lastShard n).occupancy 15 = n := by
  induction n with
  | zero => rfl
  | succ n ih =>
    rw [← length_items] at ih ⊢
    rw [lastShard, items_cons, if_pos rfl, List.length_append, ih, List.length_singleton]

theorem value_lastShard {n : Nat} {e : Entry TypedSignature} (mem : e ∈ (lastShard n).entries) :
    ∃ k < n, e.value = fifteenFormals k := by
  induction n with
  | zero => cases mem
  | succ n ih =>
    rcases List.mem_cons.1 mem with rfl | mem
    · exact ⟨n, Nat.lt_succ_self n, rfl⟩
    · obtain ⟨k, lt, eq⟩ := ih mem
      exact ⟨k, Nat.lt_succ_of_lt lt, eq⟩

/-- The next of these signatures is admitted, the one of the last slot included. -/
theorem tryIntern_lastShard {n : Nat} (le : n ≤ Handle.maxSlot) :
    (lastShard n).tryIntern (fifteenFormals n) = .ok (⟨15, n⟩, lastShard (n + 1)) := by
  have absent : (lastShard n).find? (fifteenFormals n) = none := by
    refine find?_eq_none_iff.2 fun e mem same => ?_
    obtain ⟨k, lt, eq⟩ := value_lastShard mem
    have slots : k = n :=
      congrArg (fun s : TypedSignature => s.untyped.handle.slot) (eq.symm.trans same)
    omega
  have fresh : (lastShard n).freshHandle (fifteenFormals n) = ⟨15, n⟩ := by
    have last : (lastShard n).shardOf (fifteenFormals n) = 15 := by
      rw [shardOf_lastShard]
      rfl
    rw [freshHandle, last, occupancy_lastShard]
  rw [tryIntern, if_pos (.inr (by rw [fresh]; exact le)), intern, absent]
  simp only [fresh]
  rfl

theorem filled_lastShard {n : Nat} (le : n ≤ Handle.maxSlot + 1) : (lastShard n).Filled := by
  induction n with
  | zero => exact .reserved List.nodup_nil (Nat.zero_le _)
  | succ n ih =>
    exact .next (ih (Nat.le_of_succ_le le)) (tryIntern_lastShard (Nat.le_of_succ_le_succ le))

/-- A table whose last shard has one place left admits a value there, and the packed form of the
handle reads back as the unknown type. -/
theorem fullShard_packs_unknown :
    (lastShard Handle.maxSlot).Filled ∧ (lastShard Handle.maxSlot).LaidOut ∧
      (lastShard Handle.maxSlot).tryIntern (fifteenFormals Handle.maxSlot) =
        .ok (⟨15, Handle.maxSlot⟩, lastShard (Handle.maxSlot + 1)) ∧
      Handle.raw ⟨15, Handle.maxSlot⟩ = TypeId.unknownRaw ∧
      TypeId.ofRaw (Handle.raw ⟨15, Handle.maxSlot⟩) = .unknown := by
  have filled := filled_lastShard (Nat.le_succ Handle.maxSlot)
  have unknown : Handle.raw ⟨15, Handle.maxSlot⟩ = TypeId.unknownRaw :=
    (Handle.raw_eq_unknownRaw_iff (Nat.le_refl _)).2 rfl
  exact ⟨filled, filled.laidOut, tryIntern_lastShard (Nat.le_refl _), unknown, if_pos unknown⟩

end InternTable

end MethodSynthesis
