import MethodSynthesis.Proofs.HandlePacking
import MethodSynthesis.Proofs.Numbering
import MethodSynthesis.ShardedTable

/-!
# The list of entries says what the shards hold

A list of entries represents a table stored shard by shard when both find the same handles, hold the
same values in each shard and count the same (`ShardedTable.Represents`). Such tables give the same
reply to every call and represent each other afterwards (`Represents.reply`); the one exception is a
new value that is interned in a full shard, where the stored table stops the program.

So a client cannot tell the two apart: over the same reserved values all replies of a run are equal,
as long as no shard has more values to store than it has packed handles
(`replies_eq_of_fits`).
-/

set_option autoImplicit false

namespace MethodSynthesis

namespace ShardedTable

open InternTable (FitsShards)
open TableCall

variable {α ρ : Type} [DecidableEq α] {shardOf : α → Fin 16}

/-- The reply to a call, and the table after it. To intern where there is no room stops the
program. -/
def reply (s : ShardedTable α) :
    TableCall α ρ → Except ShardOverflow (TableReply α ρ × ShardedTable α)
  | .intern v => do
    let (h, s') ← s.tryIntern v
    return (.handle h, s')
  | .tryIntern v =>
    match s.tryIntern v with
    | .ok (h, s') => .ok (.handle h, s')
    | .error e => .ok (.overflow e, s)
  | .find v => .ok (.found (s.find? v), s)
  | .get h => .ok (.value (s.get? h), s)
  | .inspect h use => .ok (.made (s.inspect? h use), s)
  | .size => .ok (.count s.size, s)
  | .isEmpty => .ok (.flag s.isEmpty, s)

/-- The table after some calls, the first call first. -/
def after (s : ShardedTable α) (calls : List (TableCall α ρ)) :
    Except ShardOverflow (ShardedTable α) :=
  calls.foldlM (fun s call => (·.2) <$> s.reply call) s

/-- The list of entries `t` stands for the table `s`. -/
structure Represents (s : ShardedTable α) (t : InternTable α) : Prop where
  laidOut : t.LaidOut
  shardOf_eq : s.shardOf = t.shardOf
  find?_eq : ∀ v, s.find? v = t.find? v
  items_eq : ∀ shard : Fin 16, s.shards[shard].items.toList = t.items shard
  count_eq : s.count = t.entries.length
  reserved_eq : s.reserved.length = t.reserved

/-! ## Reading -/

section Reading

variable {s : ShardedTable α} {t : InternTable α}

theorem Represents.get?_eq (rep : s.Represents t) (h : Handle) : s.get? h = t.get? h := by
  have at_place : s.get? h = (t.items h.shard)[h.slot]? := by
    rw [get?, ← rep.items_eq, Array.getElem?_toList]
  rw [at_place]
  refine Option.ext fun v => ?_
  rw [← rep.laidOut.mem_iff, InternTable.get?_eq_some_iff rep.laidOut.toWellFormed]

theorem Represents.isEmpty_eq (rep : s.Represents t) : s.isEmpty = t.isEmpty := by
  rw [isEmpty, size, InternTable.isEmpty, InternTable.size, rep.count_eq, rep.reserved_eq]

/-- The next free slot of a shard is the number of its values. -/
theorem Represents.freshHandle_eq (rep : s.Represents t) (v : α) :
    s.freshHandle v = t.freshHandle v := by
  rw [freshHandle, InternTable.freshHandle, ← InternTable.length_items, ← rep.items_eq,
    ← rep.shardOf_eq, Array.length_toList]

end Reading

/-! ## Interning -/

section Interning

variable {s : ShardedTable α} {t : InternTable α}

omit [DecidableEq α] in
theorem shards_store (s : ShardedTable α) (v : α) (shard : Fin 16) :
    (s.store v).shards[shard] =
      if s.shardOf v = shard then s.shards[shard].push v else s.shards[shard] := by
  by_cases same : s.shardOf v = shard
  · subst same
    simp [store]
  · have apart : (s.shardOf v).val ≠ shard.val := fun eq => same (Fin.ext eq)
    simp [store, same, Vector.getElem_set_ne _ _ apart]

/-- A value without a handle has one after it is stored, and all others keep theirs. -/
theorem find?_store {v : α} (absent : s.find? v = none) (w : α) :
    (s.store v).find? w =
      if v = w then some (s.freshHandle v) else s.find? w := by
  by_cases same : v = w
  · subst same
    have unreserved : s.reserved.lookup v = none := by
      cases known : s.reserved.lookup v with
      | none => rfl
      | some slot => simp [find?, known] at absent
    simp [find?, unreserved, store, Shard.push, freshHandle]
  · have other : (w == v) = false := beq_false_of_ne (Ne.symm same)
    -- at most the map of one shard is longer, and what it has more is the slot of `v`
    have kept : ((s.store v).shards[s.shardOf w].slots).lookup w =
        (s.shards[s.shardOf w].slots).lookup w := by
      rw [shards_store]
      split
      · simp [Shard.push, List.lookup_cons, other]
      · rfl
    rw [if_neg same]
    simp only [find?]
    rw [← kept]
    rfl

/-- A new value is stored in both tables at the same place. -/
theorem Represents.store (rep : s.Represents t) {v : α} (absent : t.find? v = none)
    (le : (t.freshHandle v).slot ≤ Handle.maxSlot) :
    (s.store v).Represents { t with entries := ⟨t.freshHandle v, v⟩ :: t.entries } where
  laidOut := rep.laidOut.store absent le
  shardOf_eq := rep.shardOf_eq
  find?_eq w := by
    rw [find?_store (by rw [rep.find?_eq, absent]), rep.freshHandle_eq, rep.find?_eq]
    by_cases same : v = w <;> simp [InternTable.find?, same]
  items_eq shard := by
    rw [shards_store, InternTable.items_cons, ← rep.items_eq shard, rep.shardOf_eq]
    show _ = if t.shardOf v = shard then _ else _
    split
    · exact Array.toList_push
    · rfl
  count_eq := congrArg (· + 1) rep.count_eq
  reserved_eq := rep.reserved_eq

/-- Both tables admit a value under the same handle, or refuse it with the same error. -/
theorem Represents.tryIntern (rep : s.Represents t) (v : α) :
    (∃ h s' t', s.tryIntern v = .ok (h, s') ∧ t.tryIntern v = .ok (h, t') ∧ s'.Represents t') ∨
      ∃ e, s.tryIntern v = .error e ∧ t.tryIntern v = .error e := by
  cases found : t.find? v with
  | some h =>
    refine .inl ⟨h, s, t, ?_, ?_, rep⟩
    · simp [ShardedTable.tryIntern, rep.find?_eq, found]
    · simp [InternTable.tryIntern, InternTable.intern, found]
  | none =>
    by_cases le : (t.freshHandle v).slot ≤ Handle.maxSlot
    · refine .inl ⟨t.freshHandle v, s.store v, _, ?_, ?_, rep.store found le⟩
      · simp [ShardedTable.tryIntern, rep.find?_eq, found, rep.freshHandle_eq, le]
      · simp [InternTable.tryIntern, InternTable.intern, found, le]
    · refine .inr ⟨⟨(t.shardOf v).val⟩, ?_, ?_⟩
      · simp [ShardedTable.tryIntern, rep.find?_eq, found, rep.freshHandle_eq, le, rep.shardOf_eq]
      · simp [InternTable.tryIntern, found, le]

end Interning

/-! ## Making a table -/

section Making

/-- The reserved values so far are the given ones, in order. -/
structure Reserves (sofar : List (α × Nat) × Shard α) (values : List α) : Prop where
  lookup_iff : ∀ v slot, sofar.1.lookup v = some slot ↔ values[slot]? = some v
  length_eq : sofar.1.length = values.length
  slots_eq : sofar.2.slots = []
  items_eq : sofar.2.items.toList = values

theorem reserves_empty : Reserves (([], .empty) : List (α × Nat) × Shard α) [] where
  lookup_iff v slot := by simp
  length_eq := rfl
  slots_eq := rfl
  items_eq := rfl

omit [DecidableEq α] in
theorem getElem?_concat_eq_some_iff {l : List α} {a b : α} {n : Nat} :
    (l ++ [a])[n]? = some b ↔ l[n]? = some b ∨ n = l.length ∧ a = b := by
  rcases Nat.lt_trichotomy n l.length with lt | rfl | gt
  · rw [List.getElem?_append_left lt]
    simp [Nat.ne_of_lt lt]
  · simp
  · have beyond : (l ++ [a]).length ≤ n := by
      rw [List.length_append]
      exact gt
    simp [List.getElem?_eq_none beyond, Nat.ne_of_gt gt, Nat.le_of_lt gt]

/-- A value that is not reserved yet comes last. -/
theorem Reserves.next {sofar : List (α × Nat) × Shard α} {values : List α}
    (holds : Reserves sofar values) {v : α} (fresh : v ∉ values)
    (fits : values.length ≤ Handle.maxSlot) :
    ∃ sofar', reserve sofar v = .ok sofar' ∧ Reserves sofar' (values ++ [v]) := by
  have unknown : sofar.1.lookup v = none :=
    Option.eq_none_iff_forall_ne_some.2 fun slot known =>
      fresh (List.mem_of_getElem? ((holds.lookup_iff v slot).1 known))
  have size_eq : sofar.2.items.size = values.length := by
    rw [← Array.length_toList, holds.items_eq]
  have small : values.length ≤ 0xFFFFFFFF := Nat.le_trans fits (by decide)
  refine ⟨((v, values.length) :: sofar.1, { sofar.2 with items := sofar.2.items.push v }), ?_,
    { lookup_iff := ?_, length_eq := ?_, slots_eq := holds.slots_eq, items_eq := ?_ }⟩
  · simp [reserve, unknown, size_eq, small]
  · intro w slot
    rw [List.lookup_cons, getElem?_concat_eq_some_iff]
    by_cases same : w = v
    · subst same
      have absent : values[slot]? ≠ some w := fun placed => fresh (List.mem_of_getElem? placed)
      simp [absent, eq_comm]
    · have other : (w == v) = false := beq_false_of_ne same
      simp [other, holds.lookup_iff, Ne.symm same]
  · simp [holds.length_eq]
  · rw [Array.toList_push, holds.items_eq]

/-- A value that is reserved already is refused. -/
theorem Reserves.refused {sofar : List (α × Nat) × Shard α} {values : List α}
    (holds : Reserves sofar values) {v : α} (known : v ∈ values) :
    reserve sofar v = .error {} := by
  obtain ⟨slot, placed⟩ := List.mem_iff_getElem?.1 known
  simp [reserve, (holds.lookup_iff v slot).2 placed]

/-- The loop over the reserved values: distinct values are all taken, in order, and a second
occurrence of one stops it. -/
theorem Reserves.foldlM {sofar : List (α × Nat) × Shard α} {values : List α}
    (holds : Reserves sofar values) (later : List α) (nodup : values.Nodup)
    (fits : (values ++ later).length ≤ Handle.maxSlot + 1) :
    ((values ++ later).Nodup ∧
        ∃ sofar', later.foldlM reserve sofar = .ok sofar' ∧ Reserves sofar' (values ++ later)) ∨
      (¬ (values ++ later).Nodup ∧ later.foldlM reserve sofar = .error {}) := by
  -- what was taken so far is distinct, so that a value is refused exactly if it is among it
  induction later generalizing sofar values with
  | nil =>
    rw [List.append_nil]
    exact .inl ⟨nodup, sofar, rfl, holds⟩
  | cons v later ih =>
    by_cases known : v ∈ values
    · refine .inr ⟨fun all => ?_, ?_⟩
      · exact List.disjoint_of_nodup_append all known List.mem_cons_self
      · rw [List.foldlM_cons, holds.refused known]
        rfl
    · have room : values.length ≤ Handle.maxSlot := by
        rw [List.length_append, List.length_cons] at fits
        omega
      obtain ⟨sofar', step, holds'⟩ := holds.next known room
      have split : values ++ v :: later = (values ++ [v]) ++ later := by simp
      rw [split] at fits ⊢
      rw [List.foldlM_cons, step]
      have distinct : (values ++ [v]).Nodup := by
        rw [← List.concat_eq_append]
        exact nodup.concat known
      exact ih holds' distinct fits

/-- Before anything is interned, the handles are those of the reserved values. -/
theorem find?_ofReserved {reserved : List (α × Nat)} {first : Shard α} (slots : first.slots = [])
    {v : α} {h : Handle} :
    (ofReserved shardOf reserved first).find? v = some h ↔
      h.shard = 0 ∧ reserved.lookup v = some h.slot := by
  have nothing : ∀ shard : Fin 16,
      (ofReserved shardOf reserved first).shards[shard].slots = [] := by
    intro shard
    by_cases same : shard = 0 <;> simp [ofReserved, same, slots, Shard.empty]
  rw [find?, nothing]
  cases known : reserved.lookup v with
  | none => simp [ofReserved, known]
  | some slot =>
    obtain ⟨shard, slot'⟩ := h
    simp [ofReserved, known, eq_comm]

/-- What is made of distinct reserved values is represented by the list of them. -/
theorem represents_pinned {sofar : List (α × Nat) × Shard α} {values : List α}
    (holds : Reserves sofar values) (nodup : values.Nodup)
    (fits : values.length ≤ Handle.maxSlot + 1) :
    (ofReserved shardOf sofar.1 sofar.2).Represents (InternTable.pinned shardOf values) := by
  have laid : (InternTable.pinned shardOf values).LaidOut :=
    InternTable.laidOut_pinned nodup fits
  refine ⟨laid, rfl, ?_, ?_, ?_, holds.length_eq⟩
  · intro v
    refine Option.ext fun h => ?_
    rw [InternTable.find?_eq_some_iff laid.toWellFormed, InternTable.mem_entries_pinned_iff,
      ← holds.lookup_iff, find?_ofReserved holds.slots_eq]
  · intro shard
    rw [InternTable.items_pinned]
    by_cases first : shard = 0
    · simp [ofReserved, first, holds.items_eq]
    · simp [ofReserved, first, Shard.empty]
  · rw [InternTable.length_entries_pinned, ← holds.items_eq]
    rfl

/-- Both ways to make a table take distinct values and refuse others. -/
theorem withReserved_represents {values : List α} (fits : values.length ≤ Handle.maxSlot + 1) :
    (∃ s t, withReserved shardOf values = .ok s ∧
        InternTable.withReserved shardOf values = .ok t ∧ s.Represents t) ∨
      (withReserved shardOf values = .error {} ∧
        InternTable.withReserved shardOf values = .error {}) := by
  obtain ⟨nodup, sofar, made, holds⟩ | ⟨repeated, stopped⟩ :=
    reserves_empty.foldlM values List.nodup_nil fits
  · refine .inl ⟨_, _, ?_, if_pos nodup, represents_pinned holds nodup fits⟩
    rw [withReserved, made]
    rfl
  · refine .inr ⟨?_, if_neg repeated⟩
    rw [withReserved, stopped]
    rfl

end Making

/-! ## Runs -/

section Runs

variable {s : ShardedTable α} {t : InternTable α}

/-- The step of a run: both tables give the same reply and represent each other afterwards, unless
a new value is interned in a full shard. -/
theorem Represents.reply (rep : s.Represents t) (call : TableCall α ρ) :
    (∃ s', s.reply call = .ok ((t.reply call).1, s') ∧ s'.Represents (t.reply call).2) ∨
      ∃ v e, call = .intern v ∧ t.tryIntern v = .error e ∧ s.reply call = .error e := by
  cases call with
  | intern v =>
    obtain ⟨h, s', t', stored, listed, rep'⟩ | ⟨e, refused, full⟩ := rep.tryIntern v
    · obtain ⟨interned, -⟩ := InternTable.intern_eq_of_tryIntern listed
      refine .inl ⟨s', ?_, ?_⟩
      · simp only [ShardedTable.reply, stored, InternTable.reply, interned]
        rfl
      · rw [InternTable.reply, interned]
        exact rep'
    · refine .inr ⟨v, e, rfl, full, ?_⟩
      rw [ShardedTable.reply, refused]
      rfl
  | tryIntern v =>
    obtain ⟨h, s', t', stored, listed, rep'⟩ | ⟨e, refused, full⟩ := rep.tryIntern v
    · exact .inl ⟨s', by simp [ShardedTable.reply, InternTable.reply, stored, listed],
        by simpa [InternTable.reply, listed] using rep'⟩
    · exact .inl ⟨s, by simp [ShardedTable.reply, InternTable.reply, refused, full],
        by simpa [InternTable.reply, full] using rep⟩
  | find v => exact .inl ⟨s, by rw [ShardedTable.reply, rep.find?_eq]; rfl, rep⟩
  | get h => exact .inl ⟨s, by rw [ShardedTable.reply, rep.get?_eq]; rfl, rep⟩
  | inspect h use =>
    exact .inl ⟨s, by rw [ShardedTable.reply, inspect?, rep.get?_eq]; rfl, rep⟩
  | size => exact .inl ⟨s, by rw [ShardedTable.reply, size, rep.count_eq]; rfl, rep⟩
  | isEmpty => exact .inl ⟨s, by rw [ShardedTable.reply, rep.isEmpty_eq]; rfl, rep⟩

/-- Values that fit their shards never stop the program. -/
theorem Represents.reply_of_fits {reserved values : List α} {call : TableCall α ρ}
    (rep : s.Represents t) (nodup : reserved.Nodup) (holds : t.Holds shardOf reserved values)
    (fits : FitsShards shardOf reserved (values ++ interned [call])) :
    ∃ s', s.reply call = .ok ((t.reply call).1, s') ∧ s'.Represents (t.reply call).2 := by
  rcases rep.reply call with same | ⟨v, e, rfl, refused, -⟩
  · exact same
  · rw [holds.tryIntern_eq nodup fits] at refused
    cases refused

theorem after_append (s : ShardedTable α) (earlier later : List (TableCall α ρ)) :
    s.after (earlier ++ later) = s.after earlier >>= (·.after later) :=
  List.foldlM_append

/-- The run: the stored table goes along with the list. -/
theorem Represents.after {reserved : List α} (nodup : reserved.Nodup)
    (rep : s.Represents (.pinned shardOf reserved)) {calls : List (TableCall α ρ)}
    (fits : FitsShards shardOf reserved (interned calls)) :
    ∃ s', s.after calls = .ok s' ∧
      s'.Represents ((InternTable.pinned shardOf reserved).after calls) := by
  -- from the last call backwards: what fits at the end of a run fits before it
  induction calls using List.reverseRecOn with
  | nil => exact ⟨s, rfl, rep⟩
  | append_singleton calls call ih =>
    rw [InternTable.interned_append] at fits
    have earlier := fits.of_append nodup
    obtain ⟨s₁, before, rep₁⟩ := ih earlier
    obtain ⟨s₂, step, rep₂⟩ :=
      rep₁.reply_of_fits nodup (InternTable.holds_after nodup earlier) fits
    refine ⟨s₂, ?_, ?_⟩
    · rw [after_append, before]
      simp only [ShardedTable.after, List.foldlM_cons, List.foldlM_nil, step, bind, Except.bind,
        Functor.map, Except.map, pure, Except.pure]
    · rw [InternTable.after_append]
      exact rep₂

/-- Over distinct reserved values the table stored shard by shard gives, call by call, the replies
of the list of entries, as long as the values fit their shards. -/
theorem replies_eq_of_fits {reserved : List α} (nodup : reserved.Nodup)
    {calls : List (TableCall α ρ)} (fits : FitsShards shardOf reserved (interned calls)) :
    ∃ s t, withReserved shardOf reserved = .ok s ∧
      InternTable.withReserved shardOf reserved = .ok t ∧
      ∀ earlier call later, calls = earlier ++ call :: later →
        ∃ s₁ s₂, s.after earlier = .ok s₁ ∧
          s₁.reply call = .ok (((t.after earlier).reply call).1, s₂) := by
  have made : InternTable.withReserved shardOf reserved = .ok (.pinned shardOf reserved) :=
    if_pos nodup
  obtain ⟨s, t, stored, listed, rep⟩ | ⟨-, refused⟩ := withReserved_represents fits.length_le
  · obtain rfl := Except.ok.inj (listed.symm.trans made)
    refine ⟨s, _, stored, made, ?_⟩
    rintro earlier call later rfl
    rw [InternTable.interned_append_cons] at fits
    have upTo := fits.of_append nodup
    have before := upTo.of_append nodup
    obtain ⟨s₁, run, rep₁⟩ := rep.after nodup before
    obtain ⟨s₂, step, -⟩ :=
      rep₁.reply_of_fits nodup (InternTable.holds_after nodup before) upTo
    exact ⟨s₁, s₂, run, step⟩
  · rw [made] at refused
    cases refused

end Runs

end ShardedTable

end MethodSynthesis
