import MethodSynthesis.InternTable
import Mathlib.Data.List.Nodup

/-!
# Intern tables as numberings

A well-formed table stores no value and no handle twice, and every slot of a shard that holds a value
is below the number of values in the shard. Then reading a handle and finding a value are the two
directions of one relation, membership of the entry (`get?_eq_some_iff`, `find?_eq_some_iff`).

Interning keeps a table well formed and only adds to it (`WellFormed.intern`, `extends_intern`). What
one table gives as a handle or a value, every table that extends it gives as well.
-/

set_option autoImplicit false

namespace MethodSynthesis

namespace InternTable

variable {α : Type} {shardOf : α → Fin 16}

/-- No value and no handle is stored twice, and the slots in use are the first ones of a shard. -/
structure WellFormed (t : InternTable α) : Prop where
  handles_nodup : (t.entries.map (·.handle)).Nodup
  values_nodup : (t.entries.map (·.value)).Nodup
  slot_lt : ∀ e ∈ t.entries, e.handle.slot < t.occupancy e.handle.shard

/-- The entries of `t'` are those of `t` and possibly newer ones. -/
def Extends (t t' : InternTable α) : Prop := t.entries <:+ t'.entries

theorem Extends.refl (t : InternTable α) : t.Extends t := List.suffix_rfl

theorem Extends.trans {t t' t'' : InternTable α} (h : t.Extends t') (h' : t'.Extends t'') :
    t.Extends t'' :=
  List.IsSuffix.trans h h'

theorem Extends.mem {t t' : InternTable α} (ext : t.Extends t') {e : Entry α}
    (h : e ∈ t.entries) : e ∈ t'.entries :=
  List.IsSuffix.mem h ext

/-! ## Reading and finding -/

/-- An entry is determined by any part of it that the entries do not share. -/
theorem find?_key_eq_some_iff {κ : Type} [DecidableEq κ] (key : Entry α → κ)
    {l : List (Entry α)} (nodup : (l.map key).Nodup) {k : κ} {e : Entry α} :
    l.find? (key · = k) = some e ↔ e ∈ l ∧ key e = k := by
  constructor
  · intro h
    exact ⟨List.mem_of_find?_eq_some h, by simpa using List.find?_some h⟩
  · rintro ⟨mem, rfl⟩
    cases found : l.find? (key · = key e) with
    | none => exact absurd (List.find?_eq_none.1 found e mem) (by simp)
    | some e' =>
      have same : key e' = key e := by simpa using List.find?_some found
      rw [List.inj_on_of_nodup_map nodup (List.mem_of_find?_eq_some found) mem same]

theorem get?_eq_some_iff {t : InternTable α} (wf : t.WellFormed) {h : Handle} {v : α} :
    t.get? h = some v ↔ ⟨h, v⟩ ∈ t.entries := by
  rw [get?, Option.map_eq_some_iff]
  constructor
  · rintro ⟨e, found, rfl⟩
    obtain ⟨mem, rfl⟩ := (find?_key_eq_some_iff (·.handle) wf.handles_nodup).1 found
    exact mem
  · intro mem
    exact ⟨_, (find?_key_eq_some_iff (·.handle) wf.handles_nodup).2 ⟨mem, rfl⟩, rfl⟩

theorem Extends.get? {t t' : InternTable α} (ext : t.Extends t') (wf : t.WellFormed)
    (wf' : t'.WellFormed) {h : Handle} {v : α} (stored : t.get? h = some v) :
    t'.get? h = some v :=
  (get?_eq_some_iff wf').2 (ext.mem ((get?_eq_some_iff wf).1 stored))

/-! ## Making a table -/

theorem wellFormed_empty : (empty shardOf).WellFormed :=
  ⟨List.nodup_nil, List.nodup_nil, fun _ h => nomatch h⟩

theorem entries_pinned_handles (values : List α) :
    ((pinned shardOf values).entries.map (·.handle)).reverse =
      (List.range values.length).map fun slot => ⟨0, slot⟩ := by
  simp only [pinned, pinnedEntries, List.map_reverse, List.reverse_reverse, List.map_map]
  rw [List.range_eq_range', ← List.zipIdx_map_snd 0 values, List.map_map]
  rfl

theorem entries_pinned_values (values : List α) :
    ((pinned shardOf values).entries.map (·.value)).reverse = values := by
  simp only [pinned, pinnedEntries, List.map_reverse, List.reverse_reverse, List.map_map]
  exact List.zipIdx_map_fst 0 values

/-- Reserved values that are distinct make a well-formed table. -/
theorem wellFormed_pinned {values : List α} (nodup : values.Nodup) :
    (pinned shardOf values).WellFormed := by
  -- the entries are newest first, so both facts are read off the reversed entries
  have handles : ((pinned shardOf values).entries.map (·.handle)).reverse =
      (List.range values.length).map fun slot => ⟨0, slot⟩ := entries_pinned_handles values
  have in_shard : ∀ e ∈ (pinned shardOf values).entries,
      e.handle.shard = 0 ∧ e.handle.slot < values.length := by
    intro e he
    have mem : e.handle ∈ ((pinned shardOf values).entries.map (·.handle)).reverse :=
      List.mem_reverse.2 (List.mem_map_of_mem he)
    rw [handles] at mem
    obtain ⟨slot, lt, same⟩ := List.mem_map.1 mem
    rw [← same]
    exact ⟨rfl, List.mem_range.1 lt⟩
  refine ⟨?_, ?_, ?_⟩
  · rw [← List.nodup_reverse, handles]
    exact List.nodup_range.map fun a b h => congrArg Handle.slot h
  · rwa [← List.nodup_reverse, entries_pinned_values]
  · intro e he
    -- every reserved value is in the first shard, so the shard holds them all
    have count : (pinned shardOf values).occupancy 0 = (pinned shardOf values).entries.length := by
      rw [occupancy, List.countP_eq_length]
      exact fun e he => decide_eq_true (in_shard e he).1
    rw [(in_shard e he).1, count]
    simpa [pinned, pinnedEntries] using (in_shard e he).2

/-! ## Finding and interning -/

section Interning

variable [DecidableEq α]

theorem find?_eq_some_iff {t : InternTable α} (wf : t.WellFormed) {v : α} {h : Handle} :
    t.find? v = some h ↔ ⟨h, v⟩ ∈ t.entries := by
  rw [find?, Option.map_eq_some_iff]
  constructor
  · rintro ⟨e, found, rfl⟩
    obtain ⟨mem, rfl⟩ := (find?_key_eq_some_iff (·.value) wf.values_nodup).1 found
    exact mem
  · intro mem
    exact ⟨_, (find?_key_eq_some_iff (·.value) wf.values_nodup).2 ⟨mem, rfl⟩, rfl⟩

theorem find?_eq_none_iff {t : InternTable α} {v : α} :
    t.find? v = none ↔ ∀ e ∈ t.entries, e.value ≠ v := by
  simp [find?]

omit [DecidableEq α] in
theorem freshHandle_not_mem {t : InternTable α} (wf : t.WellFormed) (v : α) :
    t.freshHandle v ∉ t.entries.map (·.handle) := by
  intro mem
  obtain ⟨e, he, same⟩ := List.mem_map.1 mem
  have lt := wf.slot_lt e he
  rw [same] at lt
  exact Nat.lt_irrefl _ lt

/-- To intern a value is to find it, or to put it in front under a handle of its own. -/
theorem intern_cases (t : InternTable α) (v : α) :
    (∃ h, t.find? v = some h ∧ t.intern v = (h, t)) ∨
      (t.find? v = none ∧ t.intern v =
        (t.freshHandle v, { t with entries := ⟨t.freshHandle v, v⟩ :: t.entries })) := by
  cases found : t.find? v with
  | some h => exact .inl ⟨h, rfl, by simp [intern, found]⟩
  | none => exact .inr ⟨rfl, by simp [intern, found]⟩

theorem extends_intern (t : InternTable α) (v : α) : t.Extends (t.intern v).2 := by
  obtain ⟨h, -, eq⟩ | ⟨-, eq⟩ := t.intern_cases v
  · rw [eq]
    exact .refl t
  · rw [eq]
    exact List.suffix_cons _ _

theorem WellFormed.intern {t : InternTable α} (wf : t.WellFormed) (v : α) :
    (t.intern v).2.WellFormed := by
  obtain ⟨h, -, eq⟩ | ⟨absent, eq⟩ := t.intern_cases v
  · rw [eq]
    exact wf
  · rw [eq]
    refine ⟨?_, ?_, ?_⟩
    · exact List.nodup_cons.2 ⟨freshHandle_not_mem wf v, wf.handles_nodup⟩
    · refine List.nodup_cons.2 ⟨fun mem => ?_, wf.values_nodup⟩
      obtain ⟨e, he, same⟩ := List.mem_map.1 mem
      exact find?_eq_none_iff.1 absent e he same
    · -- The shard of the new entry grows by one, which makes room for its slot.
      intro e he
      show e.handle.slot < List.countP _ (_ :: t.entries)
      rw [List.countP_cons]
      rcases List.mem_cons.1 he with rfl | he
      · simp only [freshHandle, occupancy, decide_true, if_true]
        exact Nat.lt_succ_self _
      · have lt := wf.slot_lt e he
        simp only [occupancy] at lt
        omega

/-- After it is interned, a value is found under the handle that it got. -/
theorem find?_intern {t : InternTable α} (wf : t.WellFormed) (v : α) :
    (t.intern v).2.find? v = some (t.intern v).1 := by
  rw [find?_eq_some_iff (wf.intern v)]
  obtain ⟨h, found, eq⟩ | ⟨-, eq⟩ := t.intern_cases v
  · rw [eq]
    exact (find?_eq_some_iff wf).1 found
  · rw [eq]
    exact List.mem_cons_self

theorem get?_intern {t : InternTable α} (wf : t.WellFormed) (v : α) :
    (t.intern v).2.get? (t.intern v).1 = some v :=
  (get?_eq_some_iff (wf.intern v)).2 ((find?_eq_some_iff (wf.intern v)).1 (find?_intern wf v))

/-- To intern a value that is stored is to find it. -/
theorem intern_of_get? {t : InternTable α} (wf : t.WellFormed) {v : α} {h : Handle}
    (stored : t.get? h = some v) : t.intern v = (h, t) := by
  have found := (find?_eq_some_iff wf).2 ((get?_eq_some_iff wf).1 stored)
  simp [intern, found]

end Interning

end InternTable

end MethodSynthesis
