import MethodSynthesis.Proofs.InternTables
import MethodSynthesis.Sharding
import Mathlib.Data.List.Dedup
import Mathlib.Data.List.Induction
import Mathlib.Data.List.Perm.Subperm

/-!
# What the clients of an intern table see

For every run of calls on a table, as long as no shard has more values to store than it has packed
handles, there is one numbering of the known values that all replies of the run agree with
(`replies_follow_numbering`). A value is known from the start when it is reserved, and from the
call on that interns it otherwise.

The invariant of a run (`Holds`) says which values a table stores and in which shards. It follows
how many values a shard stores, so that the values that fit keep every slot below the limit.
-/

set_option autoImplicit false

namespace MethodSynthesis

/-- One call of a client. A reader makes something of type `ρ` of the value that it reads. -/
inductive TableCall (α ρ : Type) where
  | intern (value : α)
  | tryIntern (value : α)
  | find (value : α)
  | get (handle : Handle)
  | inspect (handle : Handle) (use : α → ρ)
  | size
  | isEmpty

/-- What a client gets back. -/
inductive TableReply (α ρ : Type) where
  | handle (handle : Handle)
  | overflow (error : ShardOverflow)
  | found (handle : Option Handle)
  | value (value : Option α)
  | made (result : Option ρ)
  | count (count : Nat)
  | flag (flag : Bool)

namespace InternTable

variable {α ρ : Type} [DecidableEq α]

/-- The reply to a call, and the table after it. -/
def reply (t : InternTable α) : TableCall α ρ → TableReply α ρ × InternTable α
  | .intern v => (.handle (t.intern v).1, (t.intern v).2)
  | .tryIntern v =>
    match t.tryIntern v with
    | .ok (h, t') => (.handle h, t')
    | .error e => (.overflow e, t)
  | .find v => (.found (t.find? v), t)
  | .get h => (.value (t.get? h), t)
  | .inspect h use => (.made (t.inspect? h use), t)
  | .size => (.count t.size, t)
  | .isEmpty => (.flag t.isEmpty, t)

/-- The table after some calls, the first call first. -/
def after (t : InternTable α) (calls : List (TableCall α ρ)) : InternTable α :=
  calls.foldl (fun t call => (t.reply call).2) t

end InternTable

/-- The value that a call interns. -/
def TableCall.interned? {α ρ : Type} : TableCall α ρ → Option α
  | .intern v => some v
  | .tryIntern v => some v
  | _ => none

/-- The values that some calls intern, in order. -/
def TableCall.interned {α ρ : Type} (calls : List (TableCall α ρ)) : List α :=
  calls.filterMap (·.interned?)

namespace InternTable

open TableCall

section Inputs

variable {α : Type} [DecidableEq α]

/-- The values that are stored beyond the reserved ones, once each. -/
def additions (reserved interned : List α) : List α :=
  (interned.filter (· ∉ reserved)).dedup

/-- The shard of a value: reserved values are all in the first one. -/
def home (shardOf : α → Fin 16) (reserved : List α) (v : α) : Fin 16 :=
  if v ∈ reserved then 0 else shardOf v

/-- No shard has to store more values than there are slots with a packed form. -/
def FitsShards (shardOf : α → Fin 16) (reserved interned : List α) : Prop :=
  ∀ shard, (reserved ++ additions reserved interned).countP (home shardOf reserved · = shard) ≤
    Handle.maxSlot + 1

instance (shardOf : α → Fin 16) (reserved interned : List α) :
    Decidable (FitsShards shardOf reserved interned) :=
  inferInstanceAs (Decidable (∀ _, _ ≤ _))

theorem mem_append_additions {reserved interned : List α} {v : α} :
    v ∈ reserved ++ additions reserved interned ↔ v ∈ reserved ++ interned := by
  simp only [additions, List.mem_append, List.mem_dedup, List.mem_filter, decide_eq_true_eq]
  tauto

theorem nodup_append_additions {reserved : List α} (nodup : reserved.Nodup) (interned : List α) :
    (reserved ++ additions reserved interned).Nodup := by
  refine List.Nodup.append nodup (List.nodup_dedup _) ?_
  intro v known added
  have fresh := (List.mem_filter.1 (List.mem_dedup.1 added)).2
  exact (of_decide_eq_true fresh) known

/-- The reserved values alone have to fit the first shard. -/
theorem FitsShards.length_le {shardOf : α → Fin 16} {reserved interned : List α}
    (fits : FitsShards shardOf reserved interned) : reserved.length ≤ Handle.maxSlot + 1 := by
  have first : reserved.countP (home shardOf reserved · = 0) = reserved.length :=
    List.countP_eq_length.2 fun v known => decide_eq_true (if_pos known)
  have all := fits 0
  rw [List.countP_append, first] at all
  omega

/-- A part of the values fits where all of them fit. -/
theorem FitsShards.of_append {shardOf : α → Fin 16} {reserved earlier later : List α}
    (nodup : reserved.Nodup) (fits : FitsShards shardOf reserved (earlier ++ later)) :
    FitsShards shardOf reserved earlier := by
  intro shard
  have sub : reserved ++ additions reserved earlier ⊆
      reserved ++ additions reserved (earlier ++ later) := by
    intro v mem
    rw [mem_append_additions] at mem ⊢
    rw [← List.append_assoc]
    exact List.mem_append_left _ mem
  have fewer := ((nodup_append_additions nodup earlier).subperm sub).countP_le
    (home shardOf reserved · = shard)
  exact Nat.le_trans fewer (fits shard)

end Inputs

/-! ## The invariant of a run -/

section Invariant

variable {α : Type} [DecidableEq α] {shardOf : α → Fin 16}

/-- What a table is after some values were interned over its reserved ones. -/
structure Holds (t : InternTable α) (shardOf : α → Fin 16) (reserved interned : List α) :
    Prop where
  wellFormed : t.WellFormed
  extends_pinned : (pinned shardOf reserved).Extends t
  shardOf_eq : t.shardOf = shardOf
  reserved_eq : t.reserved = reserved.length
  /-- The reserved and the interned values are stored, and no others. -/
  mem_values : ∀ v, v ∈ t.entries.map (·.value) ↔ v ∈ reserved ++ interned
  /-- Each value is stored in its shard. -/
  shard_eq : ∀ e ∈ t.entries, e.handle.shard = home shardOf reserved e.value

omit [DecidableEq α] in
theorem mem_entries_pinned {reserved : List α} {k : Nat} (h : k < reserved.length) :
    ⟨⟨0, k⟩, reserved[k]⟩ ∈ (pinned shardOf reserved).entries := by
  rw [pinned, pinnedEntries, List.mem_reverse, List.mem_map]
  exact ⟨(reserved[k], k), List.mk_mem_zipIdx_iff_getElem?.2 (List.getElem?_eq_getElem h), rfl⟩

theorem holds_pinned {reserved : List α} (nodup : reserved.Nodup) :
    (pinned shardOf reserved).Holds shardOf reserved [] := by
  have values : ((pinned shardOf reserved).entries.map (·.value)).reverse = reserved :=
    entries_pinned_values reserved
  refine ⟨wellFormed_pinned nodup, .refl _, rfl, rfl, ?_, ?_⟩
  · intro v
    rw [List.append_nil, ← List.mem_reverse, values]
  · intro e he
    have known : e.value ∈ reserved := by
      rw [← values, List.mem_reverse]
      exact List.mem_map_of_mem he
    have first : e.handle ∈ ((pinned shardOf reserved).entries.map (·.handle)).reverse :=
      List.mem_reverse.2 (List.mem_map_of_mem he)
    rw [entries_pinned_handles] at first
    obtain ⟨slot, -, same⟩ := List.mem_map.1 first
    rw [home, if_pos known, ← same]

/-- The step of the invariant: one more value is interned. -/
theorem Holds.intern {t : InternTable α} {reserved interned : List α}
    (holds : t.Holds shardOf reserved interned) (v : α) :
    (t.intern v).2.Holds shardOf reserved (interned ++ [v]) := by
  have wf := holds.wellFormed.intern v
  have ext := holds.extends_pinned.trans (t.extends_intern v)
  obtain ⟨h, found, eq⟩ | ⟨absent, eq⟩ := t.intern_cases v
  · -- The value is known already, so the table stays as it is.
    have known : v ∈ reserved ++ interned := by
      rw [← holds.mem_values]
      exact List.mem_map_of_mem ((find?_eq_some_iff holds.wellFormed).1 found)
    rw [eq] at wf ext ⊢
    refine ⟨wf, ext, holds.shardOf_eq, holds.reserved_eq, ?_, holds.shard_eq⟩
    intro w
    rw [holds.mem_values, ← List.append_assoc, List.mem_append (s := reserved ++ interned),
      List.mem_singleton]
    constructor
    · exact Or.inl
    · rintro (known' | rfl)
      · exact known'
      · exact known
  · have fresh : v ∉ reserved := by
      intro mem
      have stored := (holds.mem_values v).2 (List.mem_append_left _ mem)
      obtain ⟨e, he, same⟩ := List.mem_map.1 stored
      exact find?_eq_none_iff.1 absent e he same
    rw [eq] at wf ext ⊢
    refine ⟨wf, ext, holds.shardOf_eq, holds.reserved_eq, ?_, ?_⟩
    · intro w
      rw [List.map_cons, List.mem_cons, holds.mem_values, ← List.append_assoc,
        List.mem_append (s := reserved ++ interned), List.mem_singleton]
      exact or_comm
    · intro e he
      rcases List.mem_cons.1 he with rfl | he
      · rw [home, if_neg fresh, ← holds.shardOf_eq]
        rfl
      · exact holds.shard_eq e he

/-- The stored values are the reserved ones and the additions, once each. -/
theorem Holds.perm_values {t : InternTable α} {reserved interned : List α}
    (nodup : reserved.Nodup) (holds : t.Holds shardOf reserved interned) :
    (t.entries.map (·.value)).Perm (reserved ++ additions reserved interned) := by
  rw [List.perm_ext_iff_of_nodup holds.wellFormed.values_nodup
    (nodup_append_additions nodup interned)]
  intro v
  rw [holds.mem_values, mem_append_additions]

theorem Holds.size_eq {t : InternTable α} {reserved interned : List α}
    (nodup : reserved.Nodup) (holds : t.Holds shardOf reserved interned) :
    t.size = reserved.length + (additions reserved interned).length := by
  have length := (holds.perm_values nodup).length_eq
  rwa [List.length_map, List.length_append] at length

theorem Holds.isEmpty_eq {t : InternTable α} {reserved interned : List α}
    (nodup : reserved.Nodup) (holds : t.Holds shardOf reserved interned) :
    t.isEmpty = decide ((additions reserved interned).length = 0) := by
  rw [isEmpty, holds.size_eq nodup, holds.reserved_eq]
  exact decide_eq_decide.2 (by omega)

theorem Holds.occupancy_eq {t : InternTable α} {reserved interned : List α}
    (nodup : reserved.Nodup) (holds : t.Holds shardOf reserved interned) (shard : Fin 16) :
    t.occupancy shard =
      (reserved ++ additions reserved interned).countP (home shardOf reserved · = shard) := by
  rw [← (holds.perm_values nodup).countP_eq, List.countP_map, occupancy]
  refine List.countP_congr ?_
  intro e he
  simp only [Function.comp_apply, holds.shard_eq e he]

/-- Values that fit their shards have handles with a packed form. -/
theorem Holds.slot_le {t : InternTable α} {reserved interned : List α} (nodup : reserved.Nodup)
    (holds : t.Holds shardOf reserved interned) (fits : FitsShards shardOf reserved interned) :
    ∀ e ∈ t.entries, e.handle.slot ≤ Handle.maxSlot := by
  intro e he
  have lt := holds.wellFormed.slot_lt e he
  rw [holds.occupancy_eq nodup] at lt
  have le := fits e.handle.shard
  omega

/-- As long as the values fit, nothing is refused. -/
theorem Holds.tryIntern_eq {t : InternTable α} {reserved interned : List α} {v : α}
    (nodup : reserved.Nodup) (holds : t.Holds shardOf reserved interned)
    (fits : FitsShards shardOf reserved (interned ++ [v])) : t.tryIntern v = .ok (t.intern v) := by
  rw [tryIntern, if_pos]
  obtain ⟨h, found, -⟩ | ⟨-, eq⟩ := t.intern_cases v
  · exact Or.inl (by rw [found]; rfl)
  · -- The new entry is one of a table whose slots are all in bounds.
    right
    have le := (holds.intern v).slot_le nodup fits
    rw [eq] at le
    exact le _ List.mem_cons_self

end Invariant

/-! ## Runs -/

section Runs

variable {α ρ : Type} [DecidableEq α] {shardOf : α → Fin 16}

theorem reply_snd_of_interned?_eq_none (t : InternTable α) {call : TableCall α ρ}
    (reads : call.interned? = none) : (t.reply call).2 = t := by
  cases call with
  | intern _ | tryIntern _ => exact nomatch reads
  | find _ | get _ | inspect _ _ | size | isEmpty => rfl

theorem extends_reply (t : InternTable α) (call : TableCall α ρ) :
    t.Extends (t.reply call).2 := by
  cases call with
  | intern v => exact t.extends_intern v
  | tryIntern v =>
    simp only [reply, tryIntern]
    split_ifs with fits
    · exact t.extends_intern v
    · exact .refl t
  | find _ | get _ | inspect _ _ | size | isEmpty => exact .refl t

theorem extends_after (t : InternTable α) (calls : List (TableCall α ρ)) :
    t.Extends (t.after calls) := by
  induction calls generalizing t with
  | nil => exact .refl t
  | cons call calls ih => exact (t.extends_reply call).trans (ih _)

theorem after_append (t : InternTable α) (earlier later : List (TableCall α ρ)) :
    t.after (earlier ++ later) = (t.after earlier).after later :=
  List.foldl_append

omit [DecidableEq α] in
theorem interned_append (earlier later : List (TableCall α ρ)) :
    interned (earlier ++ later) = interned earlier ++ interned later :=
  List.filterMap_append

omit [DecidableEq α] in
/-- The values around one call of a run. -/
theorem interned_append_cons (earlier : List (TableCall α ρ)) (call : TableCall α ρ)
    (later : List (TableCall α ρ)) :
    interned (earlier ++ call :: later) =
      (interned earlier ++ interned [call]) ++ interned later := by
  rw [← interned_append, ← interned_append, List.append_assoc, List.singleton_append]

/-- The step of a run: a call interns its value, if it has one. -/
theorem Holds.reply {t : InternTable α} {reserved values : List α} {call : TableCall α ρ}
    (nodup : reserved.Nodup) (holds : t.Holds shardOf reserved values)
    (fits : FitsShards shardOf reserved (values ++ interned [call])) :
    (t.reply call).2.Holds shardOf reserved (values ++ interned [call]) := by
  cases call with
  | intern v => exact holds.intern v
  | tryIntern v =>
    rw [InternTable.reply, holds.tryIntern_eq nodup fits]
    exact holds.intern v
  | find _ | get _ | inspect _ _ | size | isEmpty =>
    show t.Holds shardOf reserved (values ++ [])
    rw [List.append_nil]
    exact holds

/-- The run: the table holds what the calls intern. -/
theorem holds_after {reserved : List α} (nodup : reserved.Nodup) {calls : List (TableCall α ρ)}
    (fits : FitsShards shardOf reserved (interned calls)) :
    ((pinned shardOf reserved).after calls).Holds shardOf reserved (interned calls) := by
  induction calls using List.reverseRecOn with
  | nil => exact holds_pinned nodup
  | append_singleton calls call ih =>
    rw [interned_append] at fits ⊢
    rw [after_append]
    exact (ih (fits.of_append nodup)).reply nodup fits

/-! ## The numbering of a run -/

/-- The handle of a value in a table that stores it. -/
def numberIn (t : InternTable α) (v : α) : Handle := (t.find? v).getD ⟨0, 0⟩

/-- A table that extends another numbers the values of both. -/
theorem Holds.mem_entries_iff {t final : InternTable α} {reserved values all : List α}
    (holds : t.Holds shardOf reserved values) (whole : final.Holds shardOf reserved all)
    (ext : t.Extends final) {h : Handle} {v : α} :
    ⟨h, v⟩ ∈ t.entries ↔ v ∈ reserved ++ values ∧ final.numberIn v = h := by
  have number_eq : ∀ {g w}, ⟨g, w⟩ ∈ t.entries → final.numberIn w = g := by
    intro g w stored
    rw [numberIn, (find?_eq_some_iff whole.wellFormed).2 (ext.mem stored)]
    rfl
  constructor
  · intro stored
    exact ⟨(holds.mem_values v).1 (List.mem_map_of_mem stored), number_eq stored⟩
  · rintro ⟨known, rfl⟩
    obtain ⟨⟨g, w⟩, stored, rfl⟩ := List.mem_map.1 ((holds.mem_values v).2 known)
    rw [number_eq stored]
    exact stored

end Runs

end InternTable

/-- The reply that a numbering calls for, once the given values are interned. -/
def TableCall.Answered {α ρ : Type} [DecidableEq α] (number : α → Handle)
    (reserved interned : List α) : TableCall α ρ → TableReply α ρ → Prop
  | .intern v, reply => reply = .handle (number v)
  | .tryIntern v, reply => reply = .handle (number v)
  | .find v, reply => ∃ found, reply = .found found ∧
      ∀ h, found = some h ↔ v ∈ reserved ++ interned ∧ number v = h
  | .get h, reply => ∃ value, reply = .value value ∧
      ∀ v, value = some v ↔ v ∈ reserved ++ interned ∧ number v = h
  | .inspect h use, reply => ∃ result, reply = .made result ∧
      ∀ r, result = some r ↔ ∃ v ∈ reserved ++ interned, number v = h ∧ use v = r
  | .size, reply =>
      reply = .count (reserved.length + (InternTable.additions reserved interned).length)
  | .isEmpty, reply =>
      reply = .flag (decide ((InternTable.additions reserved interned).length = 0))

namespace InternTable

open TableCall

variable {α ρ : Type} [DecidableEq α] {shardOf : α → Fin 16}

/-- A reply follows the numbering of every later table. -/
theorem Holds.answered_reply {t final : InternTable α} {reserved values all : List α}
    {call : TableCall α ρ} (nodup : reserved.Nodup) (holds : t.Holds shardOf reserved values)
    (fits : FitsShards shardOf reserved (values ++ interned [call]))
    (whole : final.Holds shardOf reserved all) (ext : (t.reply call).2.Extends final) :
    call.Answered final.numberIn reserved values (t.reply call).1 := by
  have stored_iff := fun {h v} =>
    holds.mem_entries_iff whole ((t.extends_reply call).trans ext) (h := h) (v := v)
  have number_intern : ∀ v, (t.intern v).2.Extends final →
      (t.intern v).1 = final.numberIn v := by
    intro v ext
    have held := holds.intern v
    have stored := (find?_eq_some_iff held.wellFormed).1 (find?_intern holds.wellFormed v)
    exact ((held.mem_entries_iff whole ext).1 stored).2.symm
  cases call with
  | intern v => exact congrArg TableReply.handle (number_intern v ext)
  | tryIntern v =>
    rw [InternTable.reply, holds.tryIntern_eq nodup fits] at ext ⊢
    exact congrArg TableReply.handle (number_intern v ext)
  | find v =>
    refine ⟨_, rfl, ?_⟩
    intro h
    rw [find?_eq_some_iff holds.wellFormed, stored_iff]
  | get h =>
    refine ⟨_, rfl, ?_⟩
    intro v
    rw [get?_eq_some_iff holds.wellFormed, stored_iff]
  | inspect h use =>
    refine ⟨_, rfl, ?_⟩
    intro r
    rw [inspect?, Option.map_eq_some_iff]
    simp only [get?_eq_some_iff holds.wellFormed, stored_iff, and_assoc]
  | size => exact congrArg TableReply.count (holds.size_eq nodup)
  | isEmpty => exact congrArg TableReply.flag (holds.isEmpty_eq nodup)

/-- The replies of a run follow one injective numbering of the known values, in which the reserved
values have the first slots of the first shard; calls that intern nothing change nothing. -/
theorem replies_follow_numbering {reserved : List α} (nodup : reserved.Nodup)
    {calls : List (TableCall α ρ)} (fits : FitsShards shardOf reserved (interned calls)) :
    ∃ t, withReserved shardOf reserved = .ok t ∧ ∃ number : α → Handle,
      (∀ v ∈ reserved ++ interned calls, (number v).slot ≤ Handle.maxSlot) ∧
      (∀ v ∈ reserved ++ interned calls, ∀ w ∈ reserved ++ interned calls,
        (number v).raw = (number w).raw ↔ v = w) ∧
      (∀ k (h : k < reserved.length), number reserved[k] = ⟨0, k⟩) ∧
      ∀ earlier call later, calls = earlier ++ call :: later →
        call.Answered number reserved (interned earlier) ((t.after earlier).reply call).1 ∧
        (call.interned? = none → ((t.after earlier).reply call).2 = t.after earlier) := by
  -- the table at the end gives the numbering; every earlier one is part of it
  have whole := holds_after nodup fits
  have stored_iff := fun {h v} => whole.mem_entries_iff whole (.refl _) (h := h) (v := v)
  have slot_le : ∀ v ∈ reserved ++ interned calls,
      (((pinned shardOf reserved).after calls).numberIn v).slot ≤ Handle.maxSlot := by
    intro v known
    exact whole.slot_le nodup fits _ (stored_iff.2 ⟨known, rfl⟩)
  refine ⟨pinned shardOf reserved, if_pos nodup,
    ((pinned shardOf reserved).after calls).numberIn, slot_le, ?_, ?_, ?_⟩
  · intro v hv w hw
    constructor
    · intro same
      have handles : ((pinned shardOf reserved).after calls).numberIn v =
          ((pinned shardOf reserved).after calls).numberIn w := by
        rw [← Handle.ofRaw_raw (slot_le v hv), ← Handle.ofRaw_raw (slot_le w hw), same]
      have left := (get?_eq_some_iff whole.wellFormed).2 (stored_iff.2 ⟨hv, rfl⟩)
      have right := (get?_eq_some_iff whole.wellFormed).2 (stored_iff.2 ⟨hw, rfl⟩)
      rw [handles, right] at left
      exact (Option.some.inj left).symm
    · rintro rfl
      rfl
  · intro k h
    have stored := whole.extends_pinned.mem (mem_entries_pinned h)
    exact (stored_iff.1 stored).2
  · rintro earlier call later rfl
    rw [interned_append_cons] at fits
    have upTo := fits.of_append nodup
    refine ⟨?_, reply_snd_of_interned?_eq_none _⟩
    refine (holds_after nodup (upTo.of_append nodup)).answered_reply nodup upTo whole ?_
    rw [after_append]
    exact extends_after _ later

/-- One new name beside a reserved one, interned, found, and read back by its length. -/
def oneNameCalls : List (TableCall String Nat) :=
  [.intern "x", .find "x", .inspect ⟨2, 0⟩ String.length]

/-- The new name has a number of its own, and the last call reads it under that number. -/
theorem oneNameCalls_numbered :
    ["", "init"].Nodup ∧ FitsShards Sharding.bySize.names ["", "init"] (interned oneNameCalls) ∧
      ∃ t, withReserved Sharding.bySize.names ["", "init"] = .ok t ∧ ∃ number : String → Handle,
        number "init" = ⟨0, 1⟩ ∧ ¬ (number "x").raw = (number "init").raw ∧
          (TableCall.inspect (ρ := Nat) ⟨2, 0⟩ String.length).Answered number ["", "init"] ["x"]
            ((t.after (oneNameCalls.take 2)).reply (.inspect ⟨2, 0⟩ String.length)).1 := by
  have nodup : ["", "init"].Nodup := by decide
  have fits : FitsShards Sharding.bySize.names ["", "init"] (interned oneNameCalls) := by
    decide +kernel
  obtain ⟨t, made, number, -, injective, first, follows⟩ := replies_follow_numbering nodup fits
  have answered := (follows (oneNameCalls.take 2) _ [] rfl).1
  refine ⟨nodup, fits, t, made, number, first 1 (by decide), ?_, answered⟩
  rw [injective "x" (by decide) "init" (by decide)]
  decide

end InternTable

end MethodSynthesis
