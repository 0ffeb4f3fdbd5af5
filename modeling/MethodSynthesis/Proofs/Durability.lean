import MethodSynthesis.Proofs.Programs
import MethodSynthesis.Proofs.Transparency

/-!
# Answers that last

The memo tables only grow, and a query answers what is kept for it (`Query.IsKept`). So the first answer
to a query is its answer from then on, whatever becomes of the program and the pools in between, and
whichever host is asked (`Session.answer_lasts`). A query that ends in a fault may keep the decision
that it asked for on the way, but never the method without the decision: what is kept for a method
agrees with the need for it (`MemoTables.Agree`). `answers_last_and_agree` states both of whole runs.
-/

set_option autoImplicit false

namespace MethodSynthesis

/-! ## Queries that keep what they answer -/

/-- Every reply that the first tables keep is kept by the second. -/
def MemoTables.Extends (m m' : MemoTables) : Prop :=
  ∀ call reply, m.kept? call = some reply → m'.kept? call = some reply

theorem MemoTables.Extends.refl (m : MemoTables) : m.Extends m :=
  fun _ _ h => h

theorem MemoTables.Extends.trans {m m' m'' : MemoTables} (h : m.Extends m') (h' : m'.Extends m'') :
    m.Extends m'' :=
  fun call reply kept => h' call reply (h call reply kept)

/-- What the query answers is kept for `call`, what was kept is its answer, and no kept reply is given
up. -/
structure Query.IsKept {β : Type} (q : Query β) (encode : β → Reply SigId) (call : Call) : Prop where
  kept_eq : ∀ s : Session, (q.exec s).2.memo.kept? call = (q.exec s).1.toOption.map encode
  answer_eq : ∀ (s : Session) (reply : Reply SigId), s.memo.kept? call = some reply →
    (q.exec s).1.map encode = .ok reply
  extends_memo : ∀ s : Session, s.memo.Extends (q.exec s).2.memo

section Keeping

variable {β : Type} {encode : β → Reply SigId} {call : Call}

theorem Query.IsKept.map {q : Query β} (h : q.IsKept encode call) :
    (encode <$> q).IsKept (fun reply => reply) call where
  kept_eq s := by
    rw [exec_map]
    exact (h.kept_eq s).trans (by cases (q.exec s).1 <;> rfl)
  answer_eq s reply kept := by
    rw [exec_map]
    exact (congrArg _ (h.answer_eq s reply kept)).trans rfl
  extends_memo s := by
    rw [exec_map]
    exact h.extends_memo s

variable {κ : Type} [DecidableEq κ] {slot : MemoSlot κ β} {key : κ} {compute : Query β}

/-- A query that uses a table leaves what its computation leaves, except under its own key. -/
theorem MemoSlot.Answers.kept?_memoized_of_ne (answers : slot.Answers key encode call)
    (untouched : ∀ s, slot.view (compute.exec s).2.memo = slot.view s.memo) {call' : Call}
    (ne : call' ≠ call)
    (computed : ∀ s : Session, (compute.exec s).2.memo.kept? call' = s.memo.kept? call')
    (s : Session) :
    ((Query.memoized slot key compute).exec s).2.memo.kept? call' = s.memo.kept? call' := by
  rcases answers.hit_or_miss untouched s with hit | miss
  · exact hit.memo call'
  · rw [miss.others call' ne, computed, answers.kept?_missed]

/-- A query that uses a table keeps what it answers when its computation gives nothing up. -/
theorem MemoSlot.Answers.isKept_memoized (answers : slot.Answers key encode call)
    (computed : ∀ s : Session, s.memo.Extends (compute.exec s).2.memo)
    (untouched : ∀ s, slot.view (compute.exec s).2.memo = slot.view s.memo) :
    (Query.memoized slot key compute).IsKept encode call where
  kept_eq s := by
    rcases answers.hit_or_miss untouched s with hit | miss
    · obtain ⟨kept, find, answer⟩ := hit.found
      rw [hit.memo, answers.kept, find, answer]
      rfl
    · rw [miss.self, miss.answer]
  answer_eq s reply h := by
    rw [answers.kept] at h
    obtain ⟨value, find, rfl⟩ := Option.map_eq_some_iff.1 h
    rw [Query.exec_memoized_of_some find]
    rfl
  extends_memo s := by
    intro call' reply h
    rcases answers.hit_or_miss untouched s with hit | miss
    · rw [hit.memo]
      exact h
    · have ne : call' ≠ call := by
        rintro rfl
        rw [answers.kept, miss.absent] at h
        exact nomatch h
      rw [miss.others call' ne]
      refine computed (Query.missed slot s) call' reply ?_
      exact (answers.kept?_missed s call').trans h

end Keeping

/-! ## The queries -/

/-- The questions that are not counted, with the reply that each has at all times. -/
inductive Call.Uncounted : Call → Reply SigId → Prop
  | need {name : Name} {parenless : Bool} : Uncounted (.need .unknown name parenless) (.decision false)
  | noType {field : Name} : Uncounted (.accessor none field) .nothing
  | accessor {field : Name} : Uncounted (.accessor (some .unknown) field) .nothing

section Queries

variable (host : Host)

theorem Call.Uncounted.exec_ask {call : Call} {reply : Reply SigId} (h : call.Uncounted reply)
    (s : Session) : (call.ask host).exec s = (.ok reply, s) := by
  cases h <;> rfl

theorem eq_unknown_of_isUnknown {ty : TypeId} (h : ty.isUnknown = true) : ty = .unknown := by
  cases ty with
  | unknown => rfl
  | known handle => exact nomatch h

theorem isKept_need {ty : TypeId} (known : ty.isUnknown = false) (name : Name) (parenless : Bool) :
    (Session.need host ty name parenless).IsKept .decision (.need ty name parenless) := by
  unfold Session.need
  rw [known, if_neg Bool.false_ne_true]
  refine (MemoSlot.answers_need ty name parenless).isKept_memoized ?_ ?_ <;> intro s
  · rw [exec_needAfresh]
    exact .refl _
  · rw [exec_needAfresh]

theorem extends_need (ty : TypeId) (name : Name) (parenless : Bool) (s : Session) :
    s.memo.Extends ((Session.need host ty name parenless).exec s).2.memo := by
  by_cases unknown : ty.isUnknown = true
  · obtain rfl := eq_unknown_of_isUnknown unknown
    exact .refl _
  · exact (isKept_need host (by simpa using unknown) name parenless).extends_memo s

/-- To ask for a need changes what is kept for that need alone. -/
theorem kept?_need_of_ne {ty : TypeId} {name : Name} {parenless : Bool} {call : Call}
    (ne : call ≠ .need ty name parenless) (s : Session) :
    ((Session.need host ty name parenless).exec s).2.memo.kept? call = s.memo.kept? call := by
  unfold Session.need
  split
  · rfl
  · refine (MemoSlot.answers_need ty name parenless).kept?_memoized_of_ne ?_ ne ?_ s <;> intro s
    · rw [exec_needAfresh]
    · rw [exec_needAfresh]

theorem isKept_method (ty : TypeId) (name : Name) (parenless : Bool) :
    (Session.method host ty name parenless).IsKept .ofMethod (.method ty name parenless) := by
  refine (MemoSlot.answers_methods ty name parenless).isKept_memoized (fun s => ?_)
    (methods_methodComputed host ty name parenless)
  rw [memo_methodComputed]
  exact extends_need host ty name parenless s

include host in
theorem isKept_binaryOp (lhs rhs : Qualified) (name : Name) :
    (Session.binaryOp lhs rhs name).IsKept .ofOption (.binaryOp lhs rhs name) := by
  have settles := settles_binaryOpAfresh host lhs rhs name
  refine (MemoSlot.answers_binaryOps lhs rhs name).isKept_memoized ?_ ?_ <;> intro s
  · rw [settles.memo_eq]
    exact .refl _
  · rw [settles.memo_eq]

theorem isKept_accessor {ty : TypeId} (known : ty.isUnknown = false) (field : Name) :
    (Session.accessor host (some ty) field).IsKept .ofOption (.accessor (some ty) field) := by
  have settles := settles_accessorAfresh host known field
  unfold Session.accessor
  rw [Option.filter_some, known]
  refine (MemoSlot.answers_accessors known field).isKept_memoized ?_ ?_ <;> intro s
  · rw [settles.memo_eq]
    exact .refl _
  · rw [settles.memo_eq]

omit host in
/-- A query keeps what it answers, or its question is not counted. -/
theorem isKept_ask (call : Call) :
    (∀ host : Host, (call.ask host).IsKept (fun reply => reply) call) ∨
      ∃ reply, call.Uncounted reply := by
  cases call with
  | need ty name parenless =>
    cases ty with
    | unknown => exact .inr ⟨_, .need⟩
    | known handle => exact .inl fun host => (isKept_need host rfl name parenless).map
  | method ty name parenless => exact .inl fun host => (isKept_method host ty name parenless).map
  | binaryOp lhs rhs name => exact .inl fun host => (isKept_binaryOp host lhs rhs name).map
  | accessor ty field =>
    rcases ty with _ | (_ | handle)
    · exact .inr ⟨_, .noType⟩
    · exact .inr ⟨_, .accessor⟩
    · exact .inl fun host => (isKept_accessor host rfl field).map

/-- A query changes what is kept for itself, and for the need of a method that it is asked for. -/
theorem kept?_ask_of_ne {call call' : Call} (ne : call' ≠ call)
    (noNeed : ∀ ty name parenless, call' ≠ .need ty name parenless) (s : Session) :
    ((call.ask host).exec s).2.memo.kept? call' = s.memo.kept? call' := by
  cases call with
  | need ty name parenless =>
    rw [Call.ask, Query.exec_map]
    exact kept?_need_of_ne host ne s
  | method ty name parenless =>
    rw [Call.ask, Query.exec_map]
    refine (MemoSlot.answers_methods ty name parenless).kept?_memoized_of_ne
      (methods_methodComputed host ty name parenless) ne (fun s => ?_) s
    rw [memo_methodComputed]
    exact kept?_need_of_ne host (noNeed ty name parenless) s
  | binaryOp lhs rhs name =>
    have settles := settles_binaryOpAfresh host lhs rhs name
    rw [Call.ask, Query.exec_map]
    exact (MemoSlot.answers_binaryOps lhs rhs name).kept?_memoized_of_ne
      (fun s => congrArg MemoTables.binaryOps (settles.memo_eq s)) ne
      (fun s => congrArg (MemoTables.kept? · call') (settles.memo_eq s)) s
  | accessor ty field =>
    rcases ty with _ | (_ | handle)
    · rfl
    · rfl
    · have known : (TypeId.known handle).isUnknown = false := rfl
      have settles := settles_accessorAfresh host known field
      rw [Call.ask, Query.exec_map]
      exact (MemoSlot.answers_accessors known field).kept?_memoized_of_ne
        (fun s => congrArg MemoTables.accessors (settles.memo_eq s)) ne
        (fun s => congrArg (MemoTables.kept? · call') (settles.memo_eq s)) s

/-- No query gives up a kept reply. -/
theorem extends_ask (call : Call) (s : Session) :
    s.memo.Extends ((call.ask host).exec s).2.memo := by
  rcases isKept_ask call with kept | ⟨reply, uncounted⟩
  · exact (kept host).extends_memo s
  · rw [uncounted.exec_ask]
    exact .refl _

end Queries

/-! ## Methods and the need for them -/

/-- What is kept for a method of a known type goes with a kept decision, and there is no method exactly
if none is needed. -/
def MemoTables.Agree (m : MemoTables) : Prop :=
  ∀ ty name parenless reply, ty.isUnknown = false → m.kept? (.method ty name parenless) = some reply →
    ∃ needed, m.kept? (.need ty name parenless) = some (.decision needed) ∧
      (reply = .nothing ↔ needed = false)

section Agreement

variable (host : Host)

/-- There is no method exactly if none is needed: to draft one gives a signature or an error. -/
theorem eq_nothing_iff_of_synthesize {ty : TypeId} {name : Name} {needed : Bool} {s : Session}
    {found : Except GenerationError (Option SigId)}
    (h : ((Session.synthesize host ty name needed).exec s).1 = .ok found) :
    Reply.ofMethod found = .nothing ↔ needed = false := by
  unfold Session.synthesize at h
  cases needed with
  | false =>
    obtain rfl := Except.ok.inj h
    exact iff_of_true rfl rfl
  | true =>
    refine iff_of_false ?_ Bool.true_eq_false.mp
    rw [Bool.not_true, if_neg Bool.false_ne_true, Query.exec_bind, Query.exec_read] at h
    rcases drafted : (host.draftMethod s.program.types ty name).run with fault | (e | draft) <;>
      rw [drafted] at h
    · exact nomatch h
    · obtain rfl := Except.ok.inj h
      exact (nomatch ·)
    · obtain rfl := Except.ok.inj h
      exact (nomatch ·)

/-- A method that is asked for the first time is kept with the decision that it was computed from. -/
theorem agree_of_computed {ty : TypeId} (known : ty.isUnknown = false) {name : Name}
    {parenless : Bool} {s : Session} {reply : Reply SigId}
    (before : s.memo.kept? (.method ty name parenless) = none)
    (kept : ((Session.method host ty name parenless).exec s).2.memo.kept?
      (.method ty name parenless) = some reply) :
    ∃ needed, ((Session.method host ty name parenless).exec s).2.memo.kept?
        (.need ty name parenless) = some (.decision needed) ∧
      (reply = .nothing ↔ needed = false) := by
  have answers := MemoSlot.answers_methods ty name parenless
  rcases answers.hit_or_miss (methods_methodComputed host ty name parenless) s with hit | miss
  · obtain ⟨found, find, -⟩ := hit.found
    rw [answers.kept, find] at before
    exact nomatch before
  -- the computation asked for the need first, and went on with the decision
  have asked := miss.others (.need ty name parenless) (nomatch ·)
  have decided := (isKept_need host known name parenless).kept_eq (Query.missed .methods s)
  rw [memo_methodComputed] at asked
  have computed := miss.self.symm.trans kept
  rw [Query.exec_bind] at computed
  rcases hneed : (Session.need host ty name parenless).exec (Query.missed .methods s) with
    ⟨fault | needed, t⟩ <;> rw [hneed] at computed decided asked
  · exact nomatch computed
  · refine ⟨needed, asked.trans decided, ?_⟩
    cases found : ((Session.synthesize host ty name needed).exec t).1 with
    | error fault =>
      dsimp only at computed
      rw [found] at computed
      exact nomatch computed
    | ok value =>
      dsimp only at computed
      rw [found] at computed
      obtain rfl := Option.some.inj computed
      exact eq_nothing_iff_of_synthesize host found

theorem MemoTables.agree_empty : MemoTables.empty.Agree :=
  fun _ _ _ _ _ h => nomatch (kept?_empty _).symm.trans h

/-- A query leaves methods and decisions in agreement. -/
theorem MemoTables.Agree.ask {s : Session} (agree : s.memo.Agree) (call : Call) :
    ((call.ask host).exec s).2.memo.Agree := by
  intro ty name parenless reply known kept
  have grows := extends_ask host call s
  -- what was kept before is kept still, so only a reply that is new has to be looked at
  cases before : s.memo.kept? (.method ty name parenless) with
  | some reply' =>
    obtain rfl := Option.some.inj (kept.symm.trans (grows _ _ before))
    obtain ⟨needed, decided, same⟩ := agree ty name parenless reply known before
    exact ⟨needed, grows _ _ decided, same⟩
  | none =>
    by_cases this : .method ty name parenless = call
    · subst this
      rw [Call.ask, Query.exec_map] at kept ⊢
      exact agree_of_computed host known before kept
    · have noNeed : ∀ a b c, Call.method ty name parenless ≠ .need a b c :=
        fun _ _ _ => Call.noConfusion
      rw [kept?_ask_of_ne host this noNeed, before] at kept
      cases kept

end Agreement

/-! ## Runs -/

namespace Session

/-- One step of a run. The program and the pools change in any way, as when a builder is called, or a
query is asked of any host, which may have an answer or end in a fault. -/
inductive Step : Session → Session → Prop
  | change (s : Session) (p : Program) (signatures : SignaturePool) : Step s ⟨p, signatures, s.memo⟩
  | ask (s : Session) (host : Host) (call : Call) : Step s ((call.ask host).exec s).2

variable {s t : Session}

theorem Step.extends_memo (step : Step s t) : s.memo.Extends t.memo := by
  cases step with
  | change p signatures => exact .refl _
  | ask host call => exact extends_ask host call s

theorem Step.agree (step : Step s t) (agree : s.memo.Agree) : t.memo.Agree := by
  cases step with
  | change p signatures => exact agree
  | ask host call => exact agree.ask host call

theorem extends_memo_of_run (run : Relation.ReflTransGen Step s t) : s.memo.Extends t.memo := by
  induction run with
  | refl => exact .refl _
  | tail _ step ih => exact ih.trans step.extends_memo

theorem agree_of_run (run : Relation.ReflTransGen Step s t) (agree : s.memo.Agree) :
    t.memo.Agree := by
  induction run with
  | refl => exact agree
  | tail _ step ih => exact step.agree ih

/-- An answer lasts: the query has it at any later time, from any host. -/
theorem answer_lasts {host : Host} {call : Call} {reply : Reply SigId}
    (answer : ((call.ask host).exec s).1 = .ok reply)
    (run : Relation.ReflTransGen Step ((call.ask host).exec s).2 t) (host' : Host) :
    ((call.ask host').exec t).1 = .ok reply := by
  rcases isKept_ask call with kept | ⟨reply', uncounted⟩
  · have now := (kept host).kept_eq s
    rw [answer] at now
    have later := (kept host').answer_eq t reply (extends_memo_of_run run call reply now)
    cases given : ((call.ask host').exec t).1 with
    | error fault =>
      rw [given] at later
      exact nomatch later
    | ok reply' =>
      rw [given] at later
      exact later
  · rw [uncounted.exec_ask] at answer ⊢
    exact answer

end Session

/-- An answer lasts through every run: what a query is answered with once, without a fault, it is
answered with at all later times. And in every session that a run leads to, an answer that is kept for a
method of a known type goes with a kept decision on its need, and says that there is no method exactly if
none is needed. -/
theorem answers_last_and_agree :
    (∀ (s t : Session) (host host' : Host) (call : Call) (reply : Reply SigId),
      ((call.ask host).exec s).1 = .ok reply →
        Relation.ReflTransGen Session.Step ((call.ask host).exec s).2 t →
          ((call.ask host').exec t).1 = .ok reply) ∧
    ∀ (names : NameTable) (shards : Sharding) (s : Session),
      Relation.ReflTransGen Session.Step (.empty names shards) s →
      ∀ key answer, key.type.isUnknown = false → s.memo.methods.find? key = some answer →
        ∃ needed, s.memo.need.find? key = some needed ∧ (answer = .ok none ↔ needed = false) := by
  constructor
  · intro s t host host' call reply answer run
    exact Session.answer_lasts answer run host'
  · rintro names shards s run ⟨ty, name, parenless⟩ answer known found
    have agree := Session.agree_of_run run MemoTables.agree_empty
    have kept : s.memo.kept? (.method ty name parenless) = some (.ofMethod answer) :=
      congrArg (Option.map Reply.ofMethod) found
    obtain ⟨needed, decided, same⟩ := agree ty name parenless _ known kept
    obtain ⟨needed', found', eq⟩ := Option.map_eq_some_iff.1 decided
    obtain rfl := Reply.decision_injective eq
    refine ⟨needed', found', Iff.trans ?_ same⟩
    have nothing : Reply.nothing = Reply.ofMethod (.ok (none : Option SigId)) := rfl
    rw [nothing, Reply.ofMethod_injective.eq_iff]

/-- A record without fields. -/
def plainRecord : Program :=
  .ofCalls .bySize [.module "M" none, .composite (.at 0) "R" .record none]

/-- The same record with an initializer in its body. -/
def initializedRecord : Program :=
  .ofCalls .bySize [.module "M" none, .composite (.at 0) "R" .record none,
    .method (.known ⟨1, 0⟩) "init" .procedure ⟨.ref, .known ⟨1, 0⟩⟩ []]

/-- What the question for the initializer is answered with over a session, and the session afterwards. -/
def askedInit (s : Session) : Except Fault (Reply SigId) × Session :=
  ((Call.method (.known ⟨1, 0⟩) .init false).ask s.program.decls.host).exec s

/-- The initializer of the record is found again after the program has declared one of its own, though
none is needed any more. -/
theorem initializedRecord_init_lasts :
    initializedRecord.decls.host.needsMethod initializedRecord.types (.known ⟨1, 0⟩) .init false =
      .ok false ∧
    (askedInit (.start plainRecord .bySize)).1 = .ok (.signature ⟨⟨1, 0⟩⟩) ∧
    (askedInit { (askedInit (.start plainRecord .bySize)).2 with program := initializedRecord }).1 =
      .ok (.signature ⟨⟨1, 0⟩⟩) ∧
    ∃ needed, (askedInit (.start plainRecord .bySize)).2.memo.need.find?
        ⟨.known ⟨1, 0⟩, .init, false⟩ = some needed ∧
      ((.ok (some ⟨⟨1, 0⟩⟩) : Except GenerationError (Option SigId)) = .ok none ↔
        needed = false) := by
  obtain ⟨last, agree⟩ := answers_last_and_agree
  have answer : (askedInit (.start plainRecord .bySize)).1 = .ok (.signature ⟨⟨1, 0⟩⟩) := by cbv
  refine ⟨by decide +kernel, answer, ?_, ?_⟩
  · exact last _ _ _ _ _ _ answer (.single (.change _ initializedRecord _))
  · refine agree (.empty Sharding.bySize.names) .bySize _ ?_ _ _ rfl ?_
    · exact .tail (.single (.change _ plainRecord (.empty .bySize))) (.ask _ _ _)
    · cbv

end MethodSynthesis
