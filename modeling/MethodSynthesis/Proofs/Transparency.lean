import Mathlib
import MethodSynthesis.Proofs.Queries

/-!
# Transparency of the memo tables

Each query of a session has an answer found afresh, by the computation that the memo tables are there
to avoid. `memoization_transparent` states that the tables never show: after any sequence of queries,
each query is answered exactly as it is afresh in that state, faults and identities of signatures
included. A query that has an answer when it is asked first has an answer of the same content after
every other sequence of queries.

The invariant of a run is `Session.Faithful`: each kept answer is what its question would be drafted
as over the present pools, and what it refers to is stored already. Recomputation then stores nothing
new, and since drafts persist in growing pools, the invariant is kept by everything that is stored in
between (`Session.Faithful.grows`).
-/

set_option autoImplicit false

namespace MethodSynthesis

/-! ## Queries that use a table -/

namespace Query

variable {κ β : Type} [DecidableEq κ] {slot : MemoSlot κ β} {key : κ} {compute : Query β}
  {s : Session}

/-- The session after a question that a table does not answer was counted. -/
def missed (slot : MemoSlot κ β) (s : Session) : Session :=
  { s with memo := slot.replace (slot.view s.memo).miss s.memo }

theorem exec_memoized_of_some {kept : β} (h : (slot.view s.memo).find? key = some kept) :
    (memoized slot key compute).exec s =
      (.ok kept, { s with memo := slot.replace (slot.view s.memo).hit s.memo }) := by
  unfold memoized
  rw [exec_bind]
  simp only [exec_get, h]
  rfl

theorem exec_memoized_of_none (h : (slot.view s.memo).find? key = none) :
    (memoized slot key compute).exec s = match compute.exec (missed slot s) with
      | (.ok value, s') =>
        (.ok ((slot.view s'.memo).keep key value).1,
          { s' with memo := slot.replace ((slot.view s'.memo).keep key value).2 s'.memo })
      | (.error e, s') => (.error e, s') := by
  unfold memoized
  rw [exec_bind]
  simp only [exec_get, h]
  show exec (modify _ >>= fun _ => compute >>= fun value => _) s = _
  rw [exec_bind]
  show exec (compute >>= fun value => _) (missed slot s) = _
  rw [exec_bind]
  rcases compute.exec (missed slot s) with ⟨a | a, s'⟩ <;> rfl

end Query

/-! ## Kept answers -/

/-- The kept reply to a query. -/
def MemoTables.kept? (m : MemoTables) : Call → Option (Reply SigId)
  | .need ty name parenless => (m.need.find? ⟨ty, name, parenless⟩).map .decision
  | .method ty name parenless => (m.methods.find? ⟨ty, name, parenless⟩).map .ofMethod
  | .binaryOp lhs rhs name => (m.binaryOps.find? ⟨lhs, rhs, name⟩).map .ofOption
  | .accessor ty field => (ty.filter (!·.isUnknown)).bind fun ty =>
    (m.accessors.find? ⟨ty, field⟩).map .ofOption

@[simp] theorem MemoTables.kept?_empty (call : Call) : MemoTables.empty.kept? call = none := by
  cases call with
  | accessor ty field =>
    rw [kept?]
    cases ty.filter (!·.isUnknown) <;> rfl
  | _ => rfl

/-- The table keeps the replies to a query under the given key, and to no other query. -/
structure MemoSlot.Answers {κ β : Type} [DecidableEq κ] (slot : MemoSlot κ β) (key : κ)
    (encode : β → Reply SigId) (call : Call) : Prop where
  injective : Function.Injective encode
  view_replace : ∀ t m, slot.view (slot.replace t m) = t
  kept : ∀ m : MemoTables, m.kept? call = ((slot.view m).find? key).map encode
  frame : ∀ (m : MemoTables) (t : Memo κ β) (call' : Call), call' ≠ call →
    (∀ key' ≠ key, t.find? key' = (slot.view m).find? key') →
      (slot.replace t m).kept? call' = m.kept? call'

namespace MemoSlot

theorem answers_need (ty : TypeId) (name : Name) (parenless : Bool) :
    need.Answers ⟨ty, name, parenless⟩ .decision (.need ty name parenless) where
  injective := Reply.decision_injective
  view_replace _ _ := rfl
  kept _ := rfl
  frame := by
    intro m t call' ne same
    cases call' with
    | need ty' name' parenless' =>
      exact congrArg (Option.map _) (same _ fun h => ne (by cases h; rfl))
    | _ => rfl

theorem answers_methods (ty : TypeId) (name : Name) (parenless : Bool) :
    methods.Answers ⟨ty, name, parenless⟩ .ofMethod (.method ty name parenless) where
  injective := Reply.ofMethod_injective
  view_replace _ _ := rfl
  kept _ := rfl
  frame := by
    intro m t call' ne same
    cases call' with
    | method ty' name' parenless' =>
      exact congrArg (Option.map _) (same _ fun h => ne (by cases h; rfl))
    | _ => rfl

theorem answers_binaryOps (lhs rhs : Qualified) (name : Name) :
    binaryOps.Answers ⟨lhs, rhs, name⟩ .ofOption (.binaryOp lhs rhs name) where
  injective := Reply.ofOption_injective
  view_replace _ _ := rfl
  kept _ := rfl
  frame := by
    intro m t call' ne same
    cases call' with
    | binaryOp lhs' rhs' name' =>
      exact congrArg (Option.map _) (same _ fun h => ne (by cases h; rfl))
    | _ => rfl

theorem answers_accessors {ty : TypeId} (known : ty.isUnknown = false) (field : Name) :
    accessors.Answers ⟨ty, field⟩ .ofOption (.accessor (some ty) field) where
  injective := Reply.ofOption_injective
  view_replace _ _ := rfl
  kept m := by simp [MemoTables.kept?, Option.filter_some, known, accessors]
  frame := by
    intro m t call' ne same
    cases call' with
    | accessor ty' field' =>
      simp only [MemoTables.kept?]
      cases h : ty'.filter (!·.isUnknown) with
      | none => rfl
      | some ty' =>
        obtain ⟨rfl, -⟩ := Option.filter_eq_some_iff.1 h
        exact congrArg (Option.map _) (same _ fun h => ne (by cases h; rfl))
    | _ => rfl

end MemoSlot

namespace Memo

variable {κ β : Type} [DecidableEq κ] {m : Memo κ β} {key : κ} (value : β)

theorem keep_of_none (h : m.find? key = none) :
    m.keep key value = (value, { m with entries := (key, value) :: m.entries }) := by
  rw [keep, h]

theorem find?_cons_self :
    ({ m with entries := (key, value) :: m.entries } : Memo κ β).find? key = some value := by
  simp [find?]

theorem find?_cons_of_ne {key' : κ} (ne : key' ≠ key) :
    ({ m with entries := (key, value) :: m.entries } : Memo κ β).find? key' = m.find? key' := by
  simp [find?, ne.symm]

end Memo

/-! ## Hits and misses -/

section Runs

variable {κ β : Type} [DecidableEq κ] {slot : MemoSlot κ β} {key : κ} {encode : β → Reply SigId}
  {call : Call} {compute : Query β}

/-- A table may be replaced by one that finds the same. -/
theorem MemoSlot.Answers.kept?_replace (answers : slot.Answers key encode call) (m : MemoTables)
    (t : Memo κ β) (find : ∀ k, t.find? k = (slot.view m).find? k) (call' : Call) :
    (slot.replace t m).kept? call' = m.kept? call' := by
  by_cases this : call' = call
  · rw [this, answers.kept, answers.kept, answers.view_replace, find]
  · exact answers.frame m t call' this fun k _ => find k

/-- To count a question gives nothing up and keeps nothing. -/
theorem MemoSlot.Answers.kept?_missed (answers : slot.Answers key encode call) (s : Session)
    (call' : Call) : (Query.missed slot s).memo.kept? call' = s.memo.kept? call' :=
  answers.kept?_replace s.memo (slot.view s.memo).miss (fun _ => rfl) call'

/-- A run that answers a question from a table, which changes the counts alone. -/
structure MemoSlot.Hit (slot : MemoSlot κ β) (key : κ) (s : Session)
    (run : Except Fault β × Session) : Prop where
  found : ∃ kept, (slot.view s.memo).find? key = some kept ∧ run.1 = .ok kept
  tables : Session.SameTables s run.2
  memo : ∀ call', run.2.memo.kept? call' = s.memo.kept? call'

/-- A run that computes what its table does not have: it leaves what the computation leaves, and keeps
the answer, if there is one. -/
structure MemoSlot.Miss (slot : MemoSlot κ β) (key : κ) (encode : β → Reply SigId) (call : Call)
    (s : Session) (computed run : Except Fault β × Session) : Prop where
  absent : (slot.view s.memo).find? key = none
  answer : run.1 = computed.1
  tables : Session.SameTables computed.2 run.2
  self : run.2.memo.kept? call = computed.1.toOption.map encode
  others : ∀ call', call' ≠ call → run.2.memo.kept? call' = computed.2.memo.kept? call'

/-- What a query that uses a table does. -/
theorem MemoSlot.Answers.hit_or_miss (answers : slot.Answers key encode call)
    (untouched : ∀ s, slot.view (compute.exec s).2.memo = slot.view s.memo) (s : Session) :
    slot.Hit key s ((Query.memoized slot key compute).exec s) ∨
      slot.Miss key encode call s (compute.exec (Query.missed slot s))
        ((Query.memoized slot key compute).exec s) := by
  cases kept : (slot.view s.memo).find? key with
  | some value =>
    rw [Query.exec_memoized_of_some kept]
    exact .inl ⟨⟨value, kept, rfl⟩, ⟨rfl, rfl⟩,
      answers.kept?_replace s.memo (slot.view s.memo).hit fun _ => rfl⟩
  | none =>
    rw [Query.exec_memoized_of_none kept]
    have absent : (slot.view (compute.exec (Query.missed slot s)).2.memo).find? key = none := by
      rw [untouched, Query.missed, answers.view_replace]
      exact kept
    rcases hcompute : compute.exec (Query.missed slot s) with ⟨fault | value, t⟩ <;>
      rw [hcompute] at absent
    · refine .inr ⟨kept, rfl, ⟨rfl, rfl⟩, ?_, fun _ _ => rfl⟩
      rw [answers.kept, absent]
      rfl
    · dsimp only
      rw [Memo.keep_of_none value absent]
      refine .inr ⟨kept, rfl, ⟨rfl, rfl⟩, ?_, ?_⟩
      · rw [answers.kept, answers.view_replace, Memo.find?_cons_self]
        rfl
      · intro call' ne
        exact answers.frame _ _ _ ne fun k ne => Memo.find?_cons_of_ne value ne

/-- A question that the table does not answer is answered as it is drafted. -/
theorem Query.Settles.of_fresh (answers : slot.Answers key encode call)
    {drafted : TypePool → Except Fault (Reply Draft)} (settles : compute.Settles encode drafted)
    {s : Session} (fresh : s.memo.kept? call = none) :
    ((encode <$> Query.memoized slot key compute).exec s).1 =
        (s.settle (drafted s.program.types)).1 ∧
      Session.SameTables (s.settle (drafted s.program.types)).2
        ((encode <$> Query.memoized slot key compute).exec s).2 := by
  have untouched : ∀ s, slot.view (compute.exec s).2.memo = slot.view s.memo :=
    fun s => congrArg slot.view (settles.memo_eq s)
  -- the question is counted before it is drafted, and the count is nothing that a draft depends on
  have counted : Session.SameTables (Query.missed slot s) s := ⟨rfl, rfl⟩
  obtain ⟨given, tables⟩ := counted.settle (drafted s.program.types)
  have run : (encode <$> compute).exec (Query.missed slot s) =
    (Query.missed slot s).settle (drafted s.program.types) := settles (Query.missed slot s)
  rw [← run, Query.exec_map] at given tables
  rw [Query.exec_map]
  rcases answers.hit_or_miss untouched s with hit | miss
  · obtain ⟨kept, find, -⟩ := hit.found
    rw [answers.kept, find] at fresh
    cases fresh
  · refine ⟨?_, tables.symm.trans miss.tables⟩
    rw [← given]
    exact congrArg (Except.map encode) miss.answer

end Runs

/-! ## The invariant of a run -/

/-- Each kept reply is stored as what its query is drafted as over the present pools. -/
structure Session.Faithful (host : Host) (s : Session) : Prop where
  types : s.program.types.WellFormed
  signatures : s.signatures.WellFormed
  kept : ∀ call reply, s.memo.kept? call = some reply →
    ∃ drafted, call.draft host s.program.types = .ok drafted ∧
      drafted.IsStoredAs s.program.types s.signatures reply

/-- The first query does what the second does, except for the memo tables, which stay faithful. -/
def Query.Simulates (host : Host) {β : Type} (q q' : Query β) : Prop :=
  ∀ s s', s.Faithful host → Session.SameTables s s' →
    (q.exec s).1 = (q'.exec s').1 ∧ Session.SameTables (q.exec s).2 (q'.exec s').2 ∧
      (q.exec s).2.Faithful host

section Simulation

variable {host : Host} {β γ : Type} {s s' : Session}

/-- The memo tables may be replaced by others whose replies are stored as drafted. -/
theorem Session.Faithful.of_sameTables (faithful : s.Faithful host) (same : SameTables s s')
    (kept : ∀ call reply, s'.memo.kept? call = some reply →
      ∃ drafted, call.draft host s.program.types = .ok drafted ∧
        drafted.IsStoredAs s.program.types s.signatures reply) : s'.Faithful host := by
  obtain ⟨program, signatures⟩ := same
  rw [program, signatures] at kept
  exact ⟨program ▸ faithful.types, signatures ▸ faithful.signatures, kept⟩

/-- The memo tables may be replaced by others that keep the same replies. -/
theorem Session.Faithful.of_kept?_eq (faithful : s.Faithful host) (same : SameTables s s')
    (kept : ∀ call, s'.memo.kept? call = s.memo.kept? call) : s'.Faithful host :=
  faithful.of_sameTables same fun call reply h => faithful.kept call reply (kept call ▸ h)

theorem Query.Simulates.bind {q q' : Query β} {f f' : β → Query γ} (h : q.Simulates host q')
    (hf : ∀ b, (f b).Simulates host (f' b)) : (q >>= f).Simulates host (q' >>= f') := by
  intro s s' faithful same
  rw [exec_bind, exec_bind]
  obtain ⟨answer, tables, after⟩ := h s s' faithful same
  -- both fail alike, or both go on with the same value from like states
  rcases hq : q.exec s with ⟨fault | b, t⟩ <;> rcases hq' : q'.exec s' with ⟨fault' | b', t'⟩ <;>
    rw [hq, hq'] at answer tables <;> rw [hq] at after
  · exact ⟨congrArg Except.error (Except.error.inj answer), tables, after⟩
  · exact nomatch answer
  · exact nomatch answer
  · obtain rfl := Except.ok.inj answer
    exact hf b t t' after tables

theorem Query.Simulates.map {q q' : Query β} (f : β → γ) (h : q.Simulates host q') :
    (f <$> q).Simulates host (f <$> q') := by
  intro s s' faithful same
  obtain ⟨answer, tables, after⟩ := h s s' faithful same
  rw [exec_map, exec_map]
  exact ⟨congrArg (Except.map f) answer, tables, after⟩

theorem exceptMap_injective {ε : Type} {f : β → γ} (h : Function.Injective f) :
    Function.Injective (Except.map (ε := ε) f) := by
  rintro (e | a) (e' | b) eq
  · exact congrArg Except.error (Except.error.inj eq)
  · exact nomatch eq
  · exact nomatch eq
  · exact congrArg Except.ok (h (Except.ok.inj eq))

/-- What is stored for new replies leaves the kept ones as they are. -/
theorem Session.Faithful.grows (faithful : s.Faithful host) (g : s.Grows s')
    (p : host.Persistent s.program.types s'.program.types) : s'.Faithful host where
  types := g.types.after
  signatures := g.signatures.after
  kept call reply h := by
    rw [g.memo] at h
    obtain ⟨drafted, hdrafted, stored⟩ := faithful.kept call reply h
    exact ⟨drafted, call.draft_persists p g.types drafted hdrafted,
      stored.grows g.types g.signatures⟩

variable (persistent : ∀ {pool pool' : TypePool}, pool.Grows pool' → host.Persistent pool pool')

include persistent

theorem Query.Settles.simulates {q : Query β} {encode : β → Reply SigId}
    {drafted : TypePool → Except Fault (Reply Draft)} (settles : q.Settles encode drafted)
    (injective : Function.Injective encode)
    (grounded : ∀ pool reply, pool.WellFormed → drafted pool = .ok reply → reply.Grounded pool) :
    q.Simulates host q := by
  intro s s' faithful same
  -- both runs settle one draft, so they agree but for the memo tables
  have run := settles s
  have run' := settles s'
  rw [exec_map] at run run'
  rw [← same.1] at run'
  have agree := same.settle (drafted s.program.types)
  rw [← run, ← run'] at agree
  refine ⟨exceptMap_injective injective agree.1, agree.2, ?_⟩
  have g := Session.grows_settle faithful.types faithful.signatures
    fun reply h => grounded _ reply faithful.types h
  rw [← run] at g
  exact faithful.grows g (persistent g.types)

/-- An answer found afresh is what the query is drafted as over the pools afterwards, which hold it. -/
theorem Query.Settles.stored {fresh : Query β} {encode : β → Reply SigId} {call : Call}
    (settles : fresh.Settles encode fun pool => call.draft host pool)
    (wf : s.program.types.WellFormed) (wf' : s.signatures.WellFormed) {value : β}
    (h : (fresh.exec s).1 = .ok value) :
    ∃ drafted, call.draft host (fresh.exec s).2.program.types = .ok drafted ∧
      drafted.IsStoredAs (fresh.exec s).2.program.types (fresh.exec s).2.signatures
        (encode value) := by
  have run := settles s
  dsimp only at run
  rw [exec_map, h] at run
  cases hdrafted : call.draft host s.program.types with
  | error fault =>
    rw [hdrafted] at run
    exact nomatch congrArg (·.1) run
  | ok drafted =>
    rw [hdrafted] at run
    have grounded := Call.grounded_draft wf hdrafted
    have g := Session.grows_settle wf wf' fun reply h => Except.ok.inj h ▸ grounded
    obtain ⟨reply, hreply, stored⟩ := Session.isStoredAs_settle wf wf' grounded
    rw [← run] at g hreply stored
    obtain rfl := Except.ok.inj hreply
    -- over the pools afterwards the query is drafted as before
    exact ⟨drafted, call.draft_persists (persistent g.types) g.types drafted hdrafted, stored⟩

/-- A query that is answered from a table, or by a computation that does what is done afresh, does
what is done afresh. -/
theorem simulates_memoized {κ : Type} [DecidableEq κ] {slot : MemoSlot κ β} {key : κ}
    {encode : β → Reply SigId} {call : Call} (answers : slot.Answers key encode call)
    {compute fresh : Query β} (settles : fresh.Settles encode fun pool => call.draft host pool)
    (simulates : compute.Simulates host fresh)
    (untouched : ∀ s, slot.view (compute.exec s).2.memo = slot.view s.memo) :
    (Query.memoized slot key compute).Simulates host fresh := by
  intro s s' faithful same
  rcases answers.hit_or_miss untouched s with hit | miss
  · -- the kept reply is what the draft is given as, for it is stored already
    obtain ⟨value, kept, answer⟩ := hit.found
    obtain ⟨drafted, hdrafted, stored⟩ :=
      faithful.kept call (encode value) (by rw [answers.kept, kept]; rfl)
    have run := settles s'
    dsimp only at run
    rw [Query.exec_map, ← same.1, hdrafted] at run
    obtain ⟨given, tables⟩ := same.settle (.ok drafted)
    rw [Session.settle_of_isStoredAs faithful.types faithful.signatures stored, ← run] at given tables
    refine ⟨exceptMap_injective answers.injective ?_, hit.tables.symm.trans tables,
      faithful.of_kept?_eq hit.tables hit.memo⟩
    rw [answer]
    exact given
  · -- to count the question leaves every kept reply, so the computation may be simulated
    have missed : (Query.missed slot s).Faithful host :=
      faithful.of_kept?_eq ⟨rfl, rfl⟩ (answers.kept?_missed s)
    obtain ⟨answer, tables, after⟩ := simulates (Query.missed slot s) s' missed same
    refine ⟨miss.answer.trans answer, miss.tables.symm.trans tables,
      after.of_sameTables miss.tables fun call' reply h => ?_⟩
    -- the new reply is stored as it was drafted; the others are kept as they were
    by_cases this : call' = call
    · subst this
      rw [miss.self, answer] at h
      obtain ⟨value, hvalue, rfl⟩ := Option.map_eq_some_iff.1 h
      have stored := settles.stored persistent (same.1 ▸ faithful.types)
        (same.2 ▸ faithful.signatures) (eq_ok_of_toOption hvalue)
      rwa [← tables.1, ← tables.2] at stored
    · rw [miss.others call' this] at h
      exact after.kept call' reply h

/-! ## The queries -/

theorem simulates_need (ty : TypeId) (name : Name) (parenless : Bool) :
    (Session.need host ty name parenless).Simulates host
      (Session.needAfresh host ty name parenless) := by
  have settles := settles_needAfresh host ty name parenless
  have refl := settles.simulates persistent Reply.decision_injective
    fun _ _ wf h => Call.grounded_draft wf h
  unfold Session.need
  split
  · -- No question about the unknown type is kept.
    rename_i unknown
    rw [Session.needAfresh, if_pos unknown] at refl
    rw [Session.needAfresh, if_pos unknown]
    exact refl
  · refine simulates_memoized persistent (MemoSlot.answers_need ty name parenless) settles refl ?_
    intro s
    rw [exec_needAfresh]

omit persistent in
/-- To ask for the need of a method leaves the table of methods alone. -/
theorem methods_need (host : Host) (ty : TypeId) (name : Name) (parenless : Bool)
    (s : Session) : ((Session.need host ty name parenless).exec s).2.memo.methods = s.memo.methods := by
  unfold Session.need
  split
  · rfl
  · cases kept : (MemoSlot.need.view s.memo).find? ⟨ty, name, parenless⟩ with
    | some value =>
      rw [Query.exec_memoized_of_some kept]
      rfl
    | none =>
      rw [Query.exec_memoized_of_none kept, exec_needAfresh]
      cases Call.draftNeed host (Query.missed .need s).program.types ty name parenless <;> rfl

omit persistent in
theorem memo_synthesize (host : Host) (ty : TypeId) (name : Name) (needed : Bool) (s : Session) :
    ((Session.synthesize host ty name needed).exec s).2.memo = s.memo :=
  (settles_synthesize host ty name needed).memo_eq s

omit persistent in
/-- The tables after a method was computed are those after its need was asked for. -/
theorem memo_methodComputed (host : Host) (ty : TypeId) (name : Name) (parenless : Bool)
    (s : Session) :
    ((Session.need host ty name parenless >>= Session.synthesize host ty name).exec s).2.memo =
      ((Session.need host ty name parenless).exec s).2.memo := by
  rw [Query.exec_bind]
  rcases (Session.need host ty name parenless).exec s with ⟨fault | needed, t⟩
  · rfl
  · exact memo_synthesize host ty name needed t

omit persistent in
/-- To compute a method leaves the table of methods alone. -/
theorem methods_methodComputed (host : Host) (ty : TypeId) (name : Name) (parenless : Bool)
    (s : Session) :
    ((Session.need host ty name parenless >>= Session.synthesize host ty name).exec s).2.memo.methods =
      s.memo.methods :=
  (congrArg MemoTables.methods (memo_methodComputed host ty name parenless s)).trans
    (methods_need host ty name parenless s)

theorem simulates_method (ty : TypeId) (name : Name) (parenless : Bool) :
    (Session.method host ty name parenless).Simulates host
      (Session.methodAfresh host ty name parenless) := by
  refine simulates_memoized persistent (MemoSlot.answers_methods ty name parenless)
    (settles_methodAfresh host ty name parenless) ?_ (methods_methodComputed host ty name parenless)
  refine (simulates_need persistent ty name parenless).bind fun needed => ?_
  exact (settles_synthesize host ty name needed).simulates persistent Reply.ofMethod_injective
    fun _ _ wf h => Call.grounded_draftSynthesis wf h

theorem simulates_binaryOp (lhs rhs : Qualified) (name : Name) :
    (Session.binaryOp lhs rhs name).Simulates host (Session.binaryOpAfresh lhs rhs name) := by
  have settles := settles_binaryOpAfresh host lhs rhs name
  refine simulates_memoized persistent (MemoSlot.answers_binaryOps lhs rhs name) settles ?_
    fun s => congrArg MemoTables.binaryOps (settles.memo_eq s)
  exact settles.simulates persistent Reply.ofOption_injective
    fun _ _ wf h => Call.grounded_draft wf h

theorem simulates_accessor {ty : TypeId} (known : ty.isUnknown = false) (field : Name) :
    (Query.memoized .accessors ⟨ty, field⟩ (Session.accessorAfresh host ty field)).Simulates host
      (Session.accessorAfresh host ty field) := by
  have settles := settles_accessorAfresh host known field
  refine simulates_memoized persistent (MemoSlot.answers_accessors known field) settles ?_
    fun s => congrArg MemoTables.accessors (settles.memo_eq s)
  exact settles.simulates persistent Reply.ofOption_injective
    fun _ _ wf h => Call.grounded_draft wf h

/-- One query does what is done afresh, and leaves the memo tables faithful. -/
theorem simulates_ask (call : Call) :
    (call.ask host).Simulates host (call.askAfresh host) := by
  cases call with
  | need ty name parenless => exact (simulates_need persistent ty name parenless).map _
  | method ty name parenless => exact (simulates_method persistent ty name parenless).map _
  | binaryOp lhs rhs name => exact (simulates_binaryOp persistent lhs rhs name).map _
  | accessor ty field =>
    simp only [Call.ask, Call.askAfresh, Session.accessor]
    cases h : ty.filter (!·.isUnknown) with
    | none => exact fun s s' faithful same => ⟨rfl, same, faithful⟩
    | some ty' =>
      obtain ⟨rfl, known⟩ := Option.filter_eq_some_iff.1 h
      exact (simulates_accessor persistent (by simpa using known) field).map _

end Simulation

/-! ## Runs of queries -/

namespace Session

/-- The session of a program of which nothing has been asked. -/
def start (program : Program) (shards : Sharding) : Session := ⟨program, .empty shards, .empty⟩

/-- The session after a sequence of queries, whether they had answers or not. -/
def after (host : Host) (calls : List Call) (s : Session) : Session :=
  calls.foldl (fun s call => ((call.ask host).exec s).2) s

variable {host : Host} {s : Session}

theorem faithful_start {program : Program} {shards : Sharding} (wf : program.types.WellFormed) :
    (start program shards).Faithful host where
  types := wf
  signatures := SignaturePool.wellFormed_empty shards
  kept call _ h := nomatch (MemoTables.kept?_empty call).symm.trans h

variable (persistent : ∀ {pool pool' : TypePool}, pool.Grows pool' → host.Persistent pool pool')

include persistent

/-- A sequence of queries leaves the memo tables faithful, and only adds to the pools. -/
theorem Faithful.after (faithful : s.Faithful host) (calls : List Call) :
    (s.after host calls).Faithful host ∧ s.program.types.Grows (s.after host calls).program.types := by
  induction calls generalizing s with
  | nil => exact ⟨faithful, .refl faithful.types⟩
  | cons call calls ih =>
    obtain ⟨-, tables, faithful'⟩ := simulates_ask persistent call s s faithful ⟨rfl, rfl⟩
    rw [exec_askAfresh] at tables
    have grown : s.Grows (s.settle (call.draft host s.program.types)).2 :=
      grows_settle faithful.types faithful.signatures
        fun reply h => Call.grounded_draft faithful.types h
    have g := grown.types
    rw [← tables.1] at g
    obtain ⟨last, g'⟩ := ih faithful'
    exact ⟨last, g.trans g'⟩

/-- Over a session with faithful memo tables, an answer is what the query is drafted as. -/
theorem Faithful.ask_eq_ok_iff (faithful : s.Faithful host) {call : Call} :
    (∃ reply, ((call.ask host).exec s).1 = .ok reply) ↔
      ∃ drafted, call.draft host s.program.types = .ok drafted := by
  obtain ⟨answer, -, -⟩ := simulates_ask persistent call s s faithful ⟨rfl, rfl⟩
  rw [answer, exec_askAfresh]
  cases hdrafted : call.draft host s.program.types with
  | error fault => simp [settle]
  | ok drafted =>
    obtain ⟨reply, hreply, -⟩ := isStoredAs_settle faithful.types faithful.signatures
      (Call.grounded_draft faithful.types hdrafted)
    simp [hreply]

/-- The answer to a query holds what the query is drafted as. -/
theorem Faithful.isStoredAs_ask (faithful : s.Faithful host) {call : Call}
    {drafted : Reply Draft} (h : call.draft host s.program.types = .ok drafted) :
    ∃ reply, ((call.ask host).exec s).1 = .ok reply ∧
      drafted.IsStoredAs ((call.ask host).exec s).2.program.types
        ((call.ask host).exec s).2.signatures reply := by
  obtain ⟨answer, tables, -⟩ := simulates_ask persistent call s s faithful ⟨rfl, rfl⟩
  rw [answer, tables.1, tables.2, exec_askAfresh, h]
  exact isStoredAs_settle faithful.types faithful.signatures
    (Call.grounded_draft faithful.types h)

/-- Every answer to a query holds what the query is drafted as. -/
theorem Faithful.drafted_of_ask (faithful : s.Faithful host) {call : Call} {reply : Reply SigId}
    (answer : ((call.ask host).exec s).1 = .ok reply) :
    ∃ drafted, call.draft host s.program.types = .ok drafted ∧
      drafted.IsStoredAs ((call.ask host).exec s).2.program.types
        ((call.ask host).exec s).2.signatures reply := by
  obtain ⟨drafted, hdrafted⟩ := (faithful.ask_eq_ok_iff persistent).1 ⟨reply, answer⟩
  obtain ⟨reply', answer', stored⟩ := faithful.isStoredAs_ask persistent hdrafted
  obtain rfl := Except.ok.inj (answer.symm.trans answer')
  exact ⟨drafted, hdrafted, stored⟩

end Session

namespace Program

/-- The session of a program after a sequence of queries. -/
def queried (program : Program) (shards : Sharding) (history : List Call) : Session :=
  (Session.start program shards).after program.decls.host history

/-- The answer to a query after others, and the session afterwards. -/
def ask (program : Program) (shards : Sharding) (history : List Call) (call : Call) :
    Except Fault (Reply SigId) × Session :=
  (call.ask program.decls.host).exec (program.queried shards history)

/-- The answer to a query that is found afresh after others, and the session afterwards. -/
def askAfresh (program : Program) (shards : Sharding) (history : List Call) (call : Call) :
    Except Fault (Reply SigId) × Session :=
  (call.askAfresh program.decls.host).exec (program.queried shards history)

end Program

/-- The memo tables of a session do not show. After any sequence of queries, the answer to a query is
the answer found afresh in that state, down to the identity of a signature and the error that is
reported. If the query has an answer when it is asked first, then its answers after all sequences of
queries hold the same: the same decision, the same error, or a signature of the same content. -/
theorem memoization_transparent (program : Program) (shards : Sharding)
    (interned : program.types.Interned) (call : Call) :
    (∀ history, (program.ask shards history call).1 = (program.askAfresh shards history call).1) ∧
      ((∃ first, (program.ask shards [] call).1 = .ok first) →
        ∃ content : Reply Draft, ∀ history, ∃ reply,
          (program.ask shards history call).1 = .ok reply ∧
            content.IsStoredAs (program.ask shards history call).2.program.types
              (program.ask shards history call).2.signatures reply) := by
  have persistent : ∀ {pool pool' : TypePool}, pool.Grows pool' →
      program.decls.host.Persistent pool pool' := program.decls.host_persistent
  have start : (Session.start program shards).Faithful program.decls.host :=
    Session.faithful_start interned.wellFormed
  refine ⟨fun history => ?_, fun answered => ?_⟩
  · have faithful := (start.after persistent history).1
    exact (simulates_ask persistent call _ _ faithful ⟨rfl, rfl⟩).1
  · obtain ⟨content, drafted⟩ := (start.ask_eq_ok_iff persistent).1 answered
    refine ⟨content, fun history => ?_⟩
    obtain ⟨faithful, g⟩ := start.after persistent history
    exact faithful.isStoredAs_ask persistent
      (call.draft_persists (persistent g) g content drafted)

/-- One class without fields. -/
def oneClass : Program :=
  let (module, program) := (Program.empty (.empty Sharding.bySize.names) .bySize).addModule "M" none
  (program.addClass module "C" none).2

example : (oneClass.ask .bySize [.method (.known ⟨1, 0⟩) .deinit false]
      (.method (.known ⟨1, 0⟩) .init false)).1 =
    .ok (.signature ⟨⟨1, 1⟩⟩) := by
  cbv

theorem oneClass_init_after_deinit :
    oneClass.types.Interned ∧
      (oneClass.ask .bySize [.method (.known ⟨1, 0⟩) .deinit false]
          (.method (.known ⟨1, 0⟩) .init false)).1 =
        (oneClass.askAfresh .bySize [.method (.known ⟨1, 0⟩) .deinit false]
          (.method (.known ⟨1, 0⟩) .init false)).1 ∧
      ∃ content : Reply Draft, ∀ history, ∃ reply,
        (oneClass.ask .bySize history (.method (.known ⟨1, 0⟩) .init false)).1 = .ok reply ∧
          content.IsStoredAs
            (oneClass.ask .bySize history (.method (.known ⟨1, 0⟩) .init false)).2.program.types
            (oneClass.ask .bySize history
              (.method (.known ⟨1, 0⟩) .init false)).2.signatures reply := by
  have made : oneClass.types = ((TypePool.empty Sharding.bySize.types).intern (.composite
      ⟨.classType, .at 1, (((NameTable.empty Sharding.bySize.names).intern "M").2.intern "C").1,
        none, [], none⟩)).2 := rfl
  have interned : oneClass.types.Interned := by
    rw [made]
    exact .intern _ (.empty _) (by simp [TypeData.components])
  have transparent :=
    memoization_transparent oneClass .bySize interned (.method (.known ⟨1, 0⟩) .init false)
  exact ⟨interned, transparent.1 _, transparent.2 ⟨.signature ⟨⟨1, 0⟩⟩, by cbv⟩⟩

end MethodSynthesis
