import MethodSynthesis.Proofs.Durability
import Mathlib.Data.List.Dedup

/-!
# The counts of the memo tables

A log lists the queries of a run, each with the session that it was asked over (`Session.Logged`).
What a query looks up in a table is read off the log: a query for a method, an operator or an
accessor is one lookup in its own table, and the need is looked up by a query for it, and by a query
for a method that its table does not have yet. Questions about no type, or about the unknown type,
are no lookups of a need or an accessor.

If no query of the log ended in a fault, each table has had as many misses as it has entries and as
distinct questions were looked up in it, and its hits and misses together are its lookups. With or
without faults, no table has more entries than misses (`stats_account_for_lookups`).

The step of the induction is what one lookup does to one table (`Memo.Looked`): it is a hit, or a
miss that keeps an entry, or a miss that a fault has left without one.
-/

set_option autoImplicit false

namespace MethodSynthesis

/-! ## One table -/

namespace Memo

variable {κ β : Type}

/-- The table keeps one entry for each question that was looked up, and has counted each lookup. -/
structure Tallies (m : Memo κ β) (asked : List κ) : Prop where
  nodup : (m.entries.map (·.1)).Nodup
  mem_keys : ∀ key, key ∈ m.entries.map (·.1) ↔ key ∈ asked
  misses_eq : m.misses = m.entries.length
  lookups : m.hits + m.misses = asked.length

theorem tallies_empty : (empty : Memo κ β).Tallies [] where
  nodup := List.nodup_nil
  mem_keys _ := Iff.rfl
  misses_eq := rfl
  lookups := rfl

theorem Tallies.perm {m : Memo κ β} {asked asked' : List κ} (tallies : m.Tallies asked)
    (perm : asked.Perm asked') : m.Tallies asked' where
  nodup := tallies.nodup
  mem_keys key := (tallies.mem_keys key).trans perm.mem_iff
  misses_eq := tallies.misses_eq
  lookups := tallies.lookups.trans perm.length_eq

variable [DecidableEq κ]

/-- What one lookup does to a table, or none. A miss keeps no entry only where there is a fault. -/
inductive Looked (m : Memo κ β) (fault : Prop) : Option κ → Memo κ β → Prop
  | untouched : Looked m fault none m
  | hit {key : κ} {kept : β} (found : m.find? key = some kept) : Looked m fault (some key) m.hit
  | kept {key : κ} (absent : m.find? key = none) (value : β) :
      Looked m fault (some key) { m.miss with entries := (key, value) :: m.entries }
  | lost {key : κ} (absent : m.find? key = none) (faulted : fault) :
      Looked m fault (some key) m.miss

variable {m m' : Memo κ β} {fault : Prop} {asked : List κ} {key? : Option κ}

theorem mem_keys_iff {key : κ} : key ∈ m.entries.map (·.1) ↔ (m.find? key).isSome = true := by
  simp [find?]

/-- The step: a lookup without a fault is tallied. -/
theorem Tallies.looked (tallies : m.Tallies asked) (looked : m.Looked fault key? m')
    (answered : ¬ fault) : m'.Tallies (key?.toList ++ asked) := by
  have lookups := tallies.lookups
  cases looked with
  | untouched => exact tallies
  | @hit key kept found =>
    have known : key ∈ asked := (tallies.mem_keys key).1 (mem_keys_iff.2 (by rw [found]; rfl))
    refine ⟨tallies.nodup, fun k => ?_, tallies.misses_eq, ?_⟩
    · rw [Option.toList_some, List.singleton_append, List.mem_cons]
      refine (tallies.mem_keys k).trans ⟨.inr, ?_⟩
      rintro (rfl | mem)
      · exact known
      · exact mem
    · simp only [hit, Option.toList_some, List.singleton_append, List.length_cons]
      omega
  | @kept key absent value =>
    have new : key ∉ m.entries.map (·.1) := by simp [mem_keys_iff, absent]
    refine ⟨List.nodup_cons.2 ⟨new, tallies.nodup⟩, fun k => ?_, ?_, ?_⟩
    · rw [Option.toList_some, List.singleton_append, List.map_cons, List.mem_cons, List.mem_cons,
        tallies.mem_keys]
    · exact congrArg (· + 1) tallies.misses_eq
    · simp only [miss, Option.toList_some, List.singleton_append, List.length_cons]
      omega
  | lost _ faulted => exact absurd faulted answered

/-- A lookup adds an entry only where it counts a miss. -/
theorem Looked.entries_le_misses (looked : m.Looked fault key? m')
    (le : m.entries.length ≤ m.misses) : m'.entries.length ≤ m'.misses := by
  cases looked with
  | untouched => exact le
  | hit => exact le
  | kept => exact Nat.succ_le_succ le
  | lost => exact Nat.le_succ_of_le le

/-- The counts of a table account for what was asked: there is a miss for each entry and for each
distinct question, and each question is a hit or a miss. -/
structure AccountFor (stats : MemoStats) (asked : List κ) : Prop where
  misses_eq_entries : stats.misses = stats.entries
  misses_eq_distinct : stats.misses = asked.dedup.length
  lookups : stats.hits + stats.misses = asked.length

theorem Tallies.account (tallies : m.Tallies asked) : AccountFor m.stats asked where
  misses_eq_entries := tallies.misses_eq
  misses_eq_distinct := by
    have perm : (m.entries.map (·.1)).Perm asked.dedup := by
      rw [List.perm_ext_iff_of_nodup tallies.nodup (List.nodup_dedup asked)]
      exact fun key => (tallies.mem_keys key).trans List.mem_dedup.symm
    have length := perm.length_eq
    rw [List.length_map] at length
    exact tallies.misses_eq.trans length
  lookups := tallies.lookups

end Memo

/-! ## Lookups of one query -/

/-- To replace a table and to view it are inverse. -/
structure MemoSlot.Lawful {κ β : Type} (slot : MemoSlot κ β) : Prop where
  view_replace : ∀ t m, slot.view (slot.replace t m) = t
  replace_view : ∀ m, slot.replace (slot.view m) m = m
  replace_replace : ∀ t t' m, slot.replace t (slot.replace t' m) = slot.replace t m

theorem MemoSlot.lawful_need : MemoSlot.need.Lawful :=
  ⟨fun _ _ => rfl, fun _ => rfl, fun _ _ _ => rfl⟩

theorem MemoSlot.lawful_methods : MemoSlot.methods.Lawful :=
  ⟨fun _ _ => rfl, fun _ => rfl, fun _ _ _ => rfl⟩

theorem MemoSlot.lawful_binaryOps : MemoSlot.binaryOps.Lawful :=
  ⟨fun _ _ => rfl, fun _ => rfl, fun _ _ _ => rfl⟩

theorem MemoSlot.lawful_accessors : MemoSlot.accessors.Lawful :=
  ⟨fun _ _ => rfl, fun _ => rfl, fun _ _ _ => rfl⟩

section Lookups

variable {κ β : Type} [DecidableEq κ] {slot : MemoSlot κ β} {key : κ} {compute : Query β}
  {s : Session} {fault : Prop}

/-- A miss: the table has a new entry, or there is a fault. -/
theorem MemoSlot.Lawful.looked_of_none (lawful : slot.Lawful)
    (absent : (slot.view s.memo).find? key = none)
    (untouched : slot.view (compute.exec (Query.missed slot s)).2.memo = (slot.view s.memo).miss)
    (faults : ∀ e, ((Query.memoized slot key compute).exec s).1 = .error e → fault) :
    ∃ t, (slot.view s.memo).Looked fault (some key) t ∧
      ((Query.memoized slot key compute).exec s).2.memo =
        slot.replace t (compute.exec (Query.missed slot s)).2.memo := by
  rw [Query.exec_memoized_of_none absent] at faults ⊢
  rcases computed : compute.exec (Query.missed slot s) with ⟨e | value, s'⟩ <;>
    rw [computed] at faults untouched
  · refine ⟨(slot.view s.memo).miss, .lost absent (faults e rfl), ?_⟩
    rw [← untouched]
    exact (lawful.replace_view s'.memo).symm
  · have still : (slot.view s'.memo).find? key = none := by
      rw [untouched]
      exact absent
    refine ⟨_, .kept absent value, ?_⟩
    dsimp only
    rw [Memo.keep_of_none value still, untouched]
    rfl

/-- A query that computes without the tables changes its own table, by one lookup. -/
theorem MemoSlot.Lawful.looked (lawful : slot.Lawful)
    (memo_eq : ∀ s, (compute.exec s).2.memo = s.memo)
    (faults : ∀ e, ((Query.memoized slot key compute).exec s).1 = .error e → fault) :
    ∃ t, (slot.view s.memo).Looked fault (some key) t ∧
      ((Query.memoized slot key compute).exec s).2.memo = slot.replace t s.memo := by
  cases kept : (slot.view s.memo).find? key with
  | some value =>
    refine ⟨_, .hit kept, ?_⟩
    rw [Query.exec_memoized_of_some kept]
  | none =>
    have untouched := congrArg slot.view (memo_eq (Query.missed slot s))
    rw [Query.missed, lawful.view_replace] at untouched
    obtain ⟨t, looked, memo⟩ := lawful.looked_of_none kept untouched faults
    refine ⟨t, looked, ?_⟩
    rw [memo, memo_eq, Query.missed, lawful.replace_replace]

end Lookups

/-- The lookup of a need; the need of the unknown type is not looked up. -/
def MethodKey.known? (key : MethodKey) : Option MethodKey :=
  if key.type.isUnknown then none else some key

/-- To ask for a need is one lookup in the table of needs, if the type is known. -/
theorem Session.looked_need (host : Host) (ty : TypeId) (name : Name) (parenless : Bool)
    (s : Session) {fault : Prop}
    (faults : ∀ e, ((Session.need host ty name parenless).exec s).1 = .error e → fault) :
    ∃ t, s.memo.need.Looked fault (MethodKey.known? ⟨ty, name, parenless⟩) t ∧
      ((Session.need host ty name parenless).exec s).2.memo = { s.memo with need := t } := by
  unfold Session.need MethodKey.known? at *
  by_cases unknown : ty.isUnknown = true
  · rw [if_pos unknown, if_pos unknown]
    exact ⟨_, .untouched, rfl⟩
  · rw [if_neg unknown] at faults
    rw [if_neg unknown, if_neg unknown]
    exact MemoSlot.lawful_need.looked (fun s => by rw [exec_needAfresh]) faults

namespace Call

/-- What a query for a need looks up in the table of needs. -/
def needKey? : Call → Option MethodKey
  | .need ty name parenless => MethodKey.known? ⟨ty, name, parenless⟩
  | _ => none

/-- What a query looks up in the table of methods. -/
def methodKey? : Call → Option MethodKey
  | .method ty name parenless => some ⟨ty, name, parenless⟩
  | _ => none

/-- What a query looks up in the table of operators. -/
def binaryOpKey? : Call → Option BinaryOpKey
  | .binaryOp lhs rhs name => some ⟨lhs, rhs, name⟩
  | _ => none

/-- What a query looks up in the table of accessors. -/
def accessorKey? : Call → Option AccessorKey
  | .accessor ty field => (ty.filter (!·.isUnknown)).map (⟨·, field⟩)
  | _ => none

end Call

/-- A query of a host, with the session that it is asked over. -/
structure Asking where
  session : Session
  host : Host
  call : Call

namespace Asking

/-- The reply, and the session afterwards. -/
def run (a : Asking) : Except Fault (Reply SigId) × Session := (a.call.ask a.host).exec a.session

/-- The query has no reply. -/
def Faults (a : Asking) : Prop := ∃ e, a.run.1 = .error e

/-- What a query for a method looks up in the table of needs, where the table of methods does not
have the method. -/
def missedKey? (a : Asking) : Option MethodKey :=
  a.call.methodKey?.bind fun key =>
    if (a.session.memo.methods.find? key).isSome then none else key.known?

/-- What one query does to the four tables. -/
structure LooksUp (a : Asking) (m : MemoTables) : Prop where
  need : a.session.memo.need.Looked a.Faults (a.call.needKey?.or a.missedKey?) m.need
  methods : a.session.memo.methods.Looked a.Faults a.call.methodKey? m.methods
  binaryOps : a.session.memo.binaryOps.Looked a.Faults a.call.binaryOpKey? m.binaryOps
  accessors : a.session.memo.accessors.Looked a.Faults a.call.accessorKey? m.accessors

variable {host : Host} {s : Session}

/-- The reply of a query that is put in another form has a fault where the query has one. -/
theorem faults_of_map {β : Type} {q : Query β} {encode : β → Reply SigId} (host : Host)
    (call : Call) (ask : call.ask host = encode <$> q) {e : Fault}
    (error : (q.exec s).1 = .error e) : (⟨s, host, call⟩ : Asking).Faults := by
  refine ⟨e, ?_⟩
  rw [run, ask, Query.exec_map, error]
  rfl

theorem looksUp_need (ty : TypeId) (name : Name) (parenless : Bool) :
    (⟨s, host, .need ty name parenless⟩ : Asking).LooksUp
      ((Session.need host ty name parenless).exec s).2.memo := by
  obtain ⟨t, looked, memo⟩ := Session.looked_need host ty name parenless s
    fun e error => faults_of_map host (.need ty name parenless) rfl error
  rw [memo]
  refine ⟨?_, .untouched, .untouched, .untouched⟩
  rw [show missedKey? ⟨s, host, .need ty name parenless⟩ = none from rfl, Option.or_none]
  exact looked

theorem looksUp_method (ty : TypeId) (name : Name) (parenless : Bool) :
    (⟨s, host, .method ty name parenless⟩ : Asking).LooksUp
      ((Session.method host ty name parenless).exec s).2.memo := by
  have faults : ∀ e, ((Session.method host ty name parenless).exec s).1 = .error e →
      (⟨s, host, .method ty name parenless⟩ : Asking).Faults :=
    fun e error => faults_of_map host (.method ty name parenless) rfl error
  have missed : (⟨s, host, .method ty name parenless⟩ : Asking).missedKey? =
      if ((MemoSlot.methods.view s.memo).find? ⟨ty, name, parenless⟩).isSome then none
      else MethodKey.known? ⟨ty, name, parenless⟩ := rfl
  unfold Session.method at *
  cases kept : (MemoSlot.methods.view s.memo).find? ⟨ty, name, parenless⟩ with
  | some found =>
    rw [Query.exec_memoized_of_some kept]
    refine ⟨?_, .hit kept, .untouched, .untouched⟩
    rw [missed, kept]
    exact .untouched
  | none =>
    -- the need is looked up first, in the session that has the miss counted
    obtain ⟨t, needed, need_memo⟩ := Session.looked_need host ty name parenless
      (Query.missed .methods s) fun e error => by
        refine faults e ?_
        rw [Query.exec_memoized_of_none kept, Query.exec_bind]
        rcases asked : (Session.need host ty name parenless).exec (Query.missed .methods s)
          with ⟨e' | value, s'⟩ <;> rw [asked] at error
        · cases error
          rfl
        · cases error
    obtain ⟨t', looked, memo⟩ := MemoSlot.lawful_methods.looked_of_none kept
      (methods_methodComputed host ty name parenless (Query.missed .methods s)) faults
    rw [memo_methodComputed, need_memo] at memo
    rw [memo]
    refine ⟨?_, looked, .untouched, .untouched⟩
    rw [missed, kept]
    exact needed

theorem looksUp_binaryOp (lhs rhs : Qualified) (name : Name) :
    (⟨s, host, .binaryOp lhs rhs name⟩ : Asking).LooksUp
      ((Session.binaryOp lhs rhs name).exec s).2.memo := by
  have settles := settles_binaryOpAfresh host lhs rhs name
  obtain ⟨t, looked, memo⟩ := MemoSlot.lawful_binaryOps.looked settles.memo_eq
    fun e error => faults_of_map host (.binaryOp lhs rhs name) rfl error
  rw [Session.binaryOp, memo]
  exact ⟨.untouched, .untouched, looked, .untouched⟩

theorem looksUp_accessor (ty : Option TypeId) (field : Name) :
    (⟨s, host, .accessor ty field⟩ : Asking).LooksUp
      ((Session.accessor host ty field).exec s).2.memo := by
  rcases ty with _ | (_ | handle)
  · exact ⟨.untouched, .untouched, .untouched, .untouched⟩
  · exact ⟨.untouched, .untouched, .untouched, .untouched⟩
  · have known : (TypeId.known handle).isUnknown = false := rfl
    have settles := settles_accessorAfresh host known field
    obtain ⟨t, looked, memo⟩ := MemoSlot.lawful_accessors.looked settles.memo_eq
      fun e error => faults_of_map host (.accessor (some (.known handle)) field) rfl error
    have memo : ((Session.accessor host (some (.known handle)) field).exec s).2.memo = _ := memo
    rw [memo]
    exact ⟨.untouched, .untouched, .untouched, looked⟩

/-- The step: a query looks up what the log says of it. -/
theorem looksUp (a : Asking) : a.LooksUp a.run.2.memo := by
  obtain ⟨s, host, call⟩ := a
  cases call with
  | need ty name parenless =>
    rw [run, Call.ask, Query.exec_map]
    exact looksUp_need ty name parenless
  | method ty name parenless =>
    rw [run, Call.ask, Query.exec_map]
    exact looksUp_method ty name parenless
  | binaryOp lhs rhs name =>
    rw [run, Call.ask, Query.exec_map]
    exact looksUp_binaryOp lhs rhs name
  | accessor ty field =>
    rw [run, Call.ask, Query.exec_map]
    exact looksUp_accessor ty field

end Asking

/-! ## Runs -/

/-- The queries of a run, the last one first, and the session that the run leads to. The program and
the pools may change in any way between two queries, as when a builder is called. -/
inductive Session.Logged : List Asking → Session → Prop
  | start (program : Program) (signatures : SignaturePool) : Logged [] ⟨program, signatures, .empty⟩
  | change {log : List Asking} {s : Session} (before : Logged log s) (program : Program)
      (signatures : SignaturePool) : Logged log ⟨program, signatures, s.memo⟩
  | ask {log : List Asking} {s : Session} (before : Logged log s) (host : Host) (call : Call) :
      Logged (⟨s, host, call⟩ :: log) (Asking.run ⟨s, host, call⟩).2

theorem filterMap_cons_toList {α β : Type} (f : α → Option β) (a : α) (l : List α) :
    (a :: l).filterMap f = (f a).toList ++ l.filterMap f := by
  rw [List.filterMap_cons]
  cases f a <;> rfl

namespace Asking

/-- The lookups of the needs in a log: those of the queries for a need, and those of the queries for
a method that its table did not have. -/
def needKeys (log : List Asking) : List MethodKey :=
  log.filterMap (·.call.needKey?) ++ log.filterMap (·.missedKey?)

/-- A query is for a need or for a method, and so it looks up one need at most. -/
theorem needKeys_cons (a : Asking) (log : List Asking) :
    ((a.call.needKey?.or a.missedKey?).toList ++ needKeys log).Perm (needKeys (a :: log)) := by
  rw [needKeys, needKeys, filterMap_cons_toList, filterMap_cons_toList]
  cases direct : a.call.needKey? with
  | none =>
    rw [Option.none_or]
    exact List.perm_append_comm_assoc _ _ _
  | some key =>
    have no_method : a.missedKey? = none := by
      rw [missedKey?]
      cases call : a.call <;> rw [call] at direct <;> first | rfl | cases direct
    rw [no_method]
    exact .refl _

end Asking

/-- The lookups of a log are tallied in the tables. -/
structure MemoTables.Tally (m : MemoTables) (log : List Asking) : Prop where
  need : m.need.Tallies (Asking.needKeys log)
  methods : m.methods.Tallies (log.filterMap (·.call.methodKey?))
  binaryOps : m.binaryOps.Tallies (log.filterMap (·.call.binaryOpKey?))
  accessors : m.accessors.Tallies (log.filterMap (·.call.accessorKey?))

/-- No table has more entries than misses. -/
structure MemoTables.Covered (m : MemoTables) : Prop where
  need : m.need.entries.length ≤ m.need.misses
  methods : m.methods.entries.length ≤ m.methods.misses
  binaryOps : m.binaryOps.entries.length ≤ m.binaryOps.misses
  accessors : m.accessors.entries.length ≤ m.accessors.misses

/-- Without faults, every run leaves its lookups tallied. -/
theorem Session.Logged.tally {log : List Asking} {s : Session} (logged : Session.Logged log s)
    (answered : ∀ a ∈ log, ¬ a.Faults) : s.memo.Tally log := by
  induction logged with
  | start => exact ⟨Memo.tallies_empty, Memo.tallies_empty, Memo.tallies_empty, Memo.tallies_empty⟩
  | change _ _ _ ih => exact ih answered
  | @ask log s before host call ih =>
    have step := Asking.looksUp ⟨s, host, call⟩
    have fine : ¬ Asking.Faults ⟨s, host, call⟩ := answered _ List.mem_cons_self
    have before := ih fun a mem => answered a (List.mem_cons_of_mem _ mem)
    refine ⟨(before.need.looked step.need fine).perm (Asking.needKeys_cons _ _), ?_, ?_, ?_⟩ <;>
      rw [filterMap_cons_toList]
    · exact before.methods.looked step.methods fine
    · exact before.binaryOps.looked step.binaryOps fine
    · exact before.accessors.looked step.accessors fine

theorem Session.Logged.covered {log : List Asking} {s : Session} (logged : Session.Logged log s) :
    s.memo.Covered := by
  induction logged with
  | start => exact ⟨Nat.le_refl 0, Nat.le_refl 0, Nat.le_refl 0, Nat.le_refl 0⟩
  | change _ _ _ ih => exact ih
  | @ask log s before host call ih =>
    have step := Asking.looksUp ⟨s, host, call⟩
    exact ⟨step.need.entries_le_misses ih.need, step.methods.entries_le_misses ih.methods,
      step.binaryOps.entries_le_misses ih.binaryOps,
      step.accessors.entries_le_misses ih.accessors⟩

/-- At every point of every run, the counts of the four tables account for the lookups so far, if no
query has ended in a fault; and no table has more entries than misses in any case. -/
theorem stats_account_for_lookups {log : List Asking} {s : Session}
    (logged : Session.Logged log s) :
    ((∀ a ∈ log, ∃ reply, a.run.1 = .ok reply) →
      Memo.AccountFor s.memo.methods.stats (log.filterMap (·.call.methodKey?)) ∧
      Memo.AccountFor s.memo.binaryOps.stats (log.filterMap (·.call.binaryOpKey?)) ∧
      Memo.AccountFor s.memo.accessors.stats (log.filterMap (·.call.accessorKey?)) ∧
      Memo.AccountFor s.memo.need.stats
        (log.filterMap (·.call.needKey?) ++ log.filterMap (·.missedKey?))) ∧
    s.memo.methods.stats.entries ≤ s.memo.methods.stats.misses ∧
    s.memo.binaryOps.stats.entries ≤ s.memo.binaryOps.stats.misses ∧
    s.memo.accessors.stats.entries ≤ s.memo.accessors.stats.misses ∧
    s.memo.need.stats.entries ≤ s.memo.need.stats.misses := by
  constructor
  · intro answered
    have tally : s.memo.Tally log := by
      refine logged.tally fun a mem ⟨e, error⟩ => ?_
      obtain ⟨reply, ok⟩ := answered a mem
      rw [error] at ok
      cases ok
    exact ⟨tally.methods.account, tally.binaryOps.account, tally.accessors.account,
      tally.need.account⟩
  · have covered := logged.covered
    exact ⟨covered.methods, covered.binaryOps, covered.accessors, covered.need⟩

/-- The question whether a record needs an initializer, over a program of which nothing was asked.
-/
def initNeed : Asking :=
  ⟨.start plainRecord .bySize, plainRecord.decls.host, .need (.known ⟨1, 0⟩) .init false⟩

/-- The query for the initializer afterwards. -/
def initMethod : Asking :=
  ⟨initNeed.run.2, plainRecord.decls.host, .method (.known ⟨1, 0⟩) .init false⟩

/-- The same query once more. -/
def initAgain : Asking := { initMethod with session := initMethod.run.2 }

/-- The need is looked up by the first two queries, and the method by the last two. -/
theorem initializer_counts :
    Session.Logged [initAgain, initMethod, initNeed] initAgain.run.2 ∧
      (∀ a ∈ [initAgain, initMethod, initNeed], ∃ reply, a.run.1 = .ok reply) ∧
      initAgain.run.2.memo.need.stats = ⟨1, 1, 1⟩ ∧
      initAgain.run.2.memo.methods.stats = ⟨1, 1, 1⟩ ∧
      Memo.AccountFor initAgain.run.2.memo.methods.stats
        ([initAgain, initMethod, initNeed].filterMap (·.call.methodKey?)) ∧
      Memo.AccountFor initAgain.run.2.memo.need.stats
        ([initAgain, initMethod, initNeed].filterMap (·.call.needKey?) ++
          [initAgain, initMethod, initNeed].filterMap (·.missedKey?)) := by
  have logged : Session.Logged [initAgain, initMethod, initNeed] initAgain.run.2 :=
    .ask (.ask (.ask (.start plainRecord (.empty .bySize)) _ _) _ _) _ _
  have answered : ∀ a ∈ [initAgain, initMethod, initNeed], ∃ reply, a.run.1 = .ok reply := by
    intro a mem
    simp only [List.mem_cons, List.not_mem_nil, or_false] at mem
    obtain rfl | rfl | rfl := mem
    · exact ⟨.signature ⟨⟨1, 0⟩⟩, by cbv⟩
    · exact ⟨.signature ⟨⟨1, 0⟩⟩, by cbv⟩
    · exact ⟨.decision true, by cbv⟩
  obtain ⟨methods, -, -, need⟩ := (stats_account_for_lookups logged).1 answered
  exact ⟨logged, answered, by cbv, by cbv, methods, need⟩

end MethodSynthesis
