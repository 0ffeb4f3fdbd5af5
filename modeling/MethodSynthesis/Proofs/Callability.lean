import MethodSynthesis.Proofs.Building
import MethodSynthesis.Proofs.ReceiverFormals
import MethodSynthesis.Proofs.Transparency

/-!
# Synthesized methods take the type that they are for

`Session.Reached` holds of the sessions that builders and queries lead to, in any order. In these the
receiver of a method that is found for a type takes a variable of the type, never promoted, unless the
type is a class that may be nil; the receiver of an accessor takes it unless the type is a class that
is held in another way than borrowed and never nil (`receives_variable_iff`).

The invariant of a run (`Session.Sound`) says of every kept signature that it was drafted for the type
that it is kept under. What is stored later, and what is declared later, leaves it so: drafts refer to
types, and the pool only grows.
-/

set_option autoImplicit false

namespace MethodSynthesis

/-! ## Drafts in sound pools -/

section Drafts

variable {pool pool' : TypePool} {ty : TypeId} {borrowing : Binding}

/-- What a drafted type borrows is a class of the pool. -/
def DraftType.BorrowsClass (pool : TypePool) : DraftType → Prop
  | .given _ => True
  | .borrowed basic => ∃ c, pool.read? basic = some (.composite c) ∧ c.kind = .classType

/-- What a draft borrows are classes of the pool. -/
def Draft.BorrowsClasses (pool : TypePool) (draft : Draft) : Prop :=
  ∀ formal ∈ draft.formals, formal.type.BorrowsClass pool

theorem DraftType.BorrowsClass.grows {type : DraftType} (h : type.BorrowsClass pool)
    (g : pool.Grows pool') : type.BorrowsClass pool' := by
  cases type with
  | given _ => trivial
  | borrowed basic =>
    obtain ⟨c, stored, kind⟩ := h
    exact ⟨c, g.read? stored, kind⟩

theorem DraftType.BorrowsClass.grounded {type : DraftType} (h : type.BorrowsClass pool) :
    type.Grounded pool := by
  cases type with
  | given _ => trivial
  | borrowed basic =>
    obtain ⟨c, stored, -⟩ := h
    exact TypePool.admits_of_read? stored

/-- To store the types of a draft keeps the pool sound. -/
theorem DraftFormal.sound_storeTypes (sound : pool.Sound) {formals : List DraftFormal}
    (classes : ∀ formal ∈ formals, formal.type.BorrowsClass pool) :
    (DraftFormal.storeTypes pool formals).2.Sound := by
  induction formals generalizing pool with
  | nil => exact sound
  | cons formal formals ih =>
    have class? := classes formal List.mem_cons_self
    have first : (formal.type.store pool).2.Sound := by
      cases type : formal.type with
      | given _ => exact sound
      | borrowed basic =>
        rw [type] at class?
        refine sound.intern ?_ class?
        intro part mem
        obtain rfl := List.mem_singleton.1 mem
        exact class?.grounded
    obtain ⟨g, -⟩ := formal.type.grows_store sound.wellFormed class?.grounded
    refine ih first ?_
    intro formal' mem
    exact (classes formal' (List.mem_cons_of_mem _ mem)).grows g

theorem TypePool.Receives.grows {binding : Binding} {type : DraftType}
    (h : pool.Receives ty borrowing binding type) (g : pool.Grows pool') :
    pool'.Receives ty borrowing binding type := by
  cases h with
  | itself stored noClass plain => exact .itself (g.read? stored) noClass plain
  | generic stored kind from? plain => exact .generic (g.read? stored) kind from? plain
  | borrowed held stored kind form? =>
    exact .borrowed (held.imp_right fun ⟨d, h⟩ => ⟨d, g.read? h⟩) (g.read? stored) kind form?

theorem Draft.IsFor.grows {draft : Draft} (h : draft.IsFor pool ty borrowing)
    (g : pool.Grows pool') : draft.IsFor pool' ty borrowing := by
  obtain ⟨binding, type, rest, formals, receives, others⟩ := h
  exact ⟨binding, type, rest, formals, receives.grows g, others⟩

/-- A draft for a type borrows its class, if it borrows at all. -/
theorem Draft.IsFor.borrowsClasses {draft : Draft} (h : draft.IsFor pool ty borrowing)
    (sound : pool.Sound) : draft.BorrowsClasses pool := by
  obtain ⟨binding, type, rest, formals, receives, others⟩ := h
  have receiver : type.BorrowsClass pool := by
    cases receives with
    | itself _ _ _ => trivial
    | generic _ _ _ _ => trivial
    | borrowed _ stored kind form? =>
      obtain ⟨c', stored', kind'⟩ := sound.exists_form stored form?
      exact ⟨c', stored', kind'.trans kind⟩
  intro formal mem
  rw [formals] at mem
  rcases List.mem_cons.1 mem with rfl | mem
  · exact receiver
  · rcases others formal mem with same | ⟨given, same⟩
    · rw [same]
      exact receiver
    · rw [same]
      trivial

theorem borrowsClasses_draftEnumCast {direction : CastDirection} {draft : Draft}
    (h : pool.draftEnumCast ty direction = .ok (some draft)) : draft.BorrowsClasses pool := by
  obtain ⟨e, -, h⟩ := bind_eq_ok.1 h
  cases e with
  | none => exact nomatch h
  | some e =>
    dsimp only at h
    split at h
    · exact nomatch h
    · cases direction with
      | fromEnum | toEnum =>
        obtain rfl := Option.some.inj (Except.ok.inj h)
        intro formal mem
        rcases List.mem_pair.1 mem with rfl | rfl <;> trivial

theorem borrowsClasses_draftBinaryOp {lhs rhs : TypeId} {name : Name} {draft : Draft}
    (h : pool.draftBinaryOp lhs rhs name = .ok (some draft)) : draft.BorrowsClasses pool := by
  unfold TypePool.draftBinaryOp at h
  split at h
  · exact nomatch h
  obtain ⟨left, -, h⟩ := bind_eq_ok.1 h
  split at h
  · exact borrowsClasses_draftEnumCast h
  obtain ⟨right, -, h⟩ := bind_eq_ok.1 h
  split at h
  · exact borrowsClasses_draftEnumCast h
  · exact nomatch h

end Drafts

/-! ## What a query drafts -/

/-- A draft that a query may find: the draft of a method or accessor is for the type in question. -/
def Call.Expects (pool : TypePool) (draft : Draft) : Call → Prop
  | .method ty _ _ => draft.IsFor pool ty .constIn
  | .accessor (some ty) _ => draft.IsFor pool ty .refMaybeConst
  | _ => True

namespace Call

variable {host : Host} {pool pool' : TypePool} {draft : Draft}

theorem Expects.grows {call : Call} (h : call.Expects pool draft) (g : pool.Grows pool') :
    call.Expects pool' draft := by
  cases call with
  | need _ _ _ => trivial
  | method ty name parenless => exact Draft.IsFor.grows h g
  | binaryOp _ _ _ => trivial
  | accessor ty field =>
    cases ty with
    | none => trivial
    | some ty => exact Draft.IsFor.grows h g

theorem isFor_draftSynthesis (sound : pool.Sound) {ty : TypeId} {name : Name} {needed : Bool}
    (h : draftSynthesis host pool ty name needed = .ok (.signature draft)) :
    draft.IsFor pool ty .constIn :=
  sound.isFor_draftMethod host (draftSynthesis_eq_signature h).2

theorem expects_draft (sound : pool.Sound) {call : Call}
    (h : call.draft host pool = .ok (.signature draft)) :
    draft.BorrowsClasses pool ∧ call.Expects pool draft := by
  cases call with
  | need ty name parenless =>
    obtain ⟨needed, -, eq⟩ := bind_eq_ok.1 h
    cases eq
  | method ty name parenless =>
    obtain ⟨needed, -, h⟩ := bind_eq_ok.1 h
    have isFor := isFor_draftSynthesis sound h
    exact ⟨isFor.borrowsClasses sound, isFor⟩
  | binaryOp lhs rhs name =>
    obtain ⟨found, hfound, eq⟩ := bind_eq_ok.1 h
    rw [Reply.eq_some_of_ofOption (Except.ok.inj eq)] at hfound
    exact ⟨borrowsClasses_draftBinaryOp hfound, trivial⟩
  | accessor ty field =>
    simp only [Call.draft] at h
    cases hty : ty.filter (!·.isUnknown) with
    | none =>
      rw [hty] at h
      cases h
    | some ty' =>
      rw [hty] at h
      obtain ⟨rfl, -⟩ := Option.filter_eq_some_iff.1 hty
      obtain ⟨found, hfound, eq⟩ := bind_eq_ok.1 h
      rw [Reply.eq_some_of_ofOption (Except.ok.inj eq)] at hfound
      have isFor := sound.isFor_draftAccessor host hfound
      exact ⟨isFor.borrowsClasses sound, isFor⟩

end Call

/-! ## The invariant of a run -/

/-- A signature that is given as the reply to a query was drafted for it. -/
def Session.Vouches (s : Session) (call : Call) (reply : Reply SigId) : Prop :=
  ∀ id, reply = .signature id → ∃ draft, call.Expects s.program.types draft ∧
    draft.IsStoredAs s.program.types s.signatures id

/-- The program of a session is such as builders make, and the session vouches for what it keeps. -/
structure Session.Sound (s : Session) : Prop where
  program : s.program.WellFormed
  signatures : s.signatures.WellFormed
  kept : ∀ call reply, s.memo.kept? call = some reply → s.Vouches call reply

/-- The query keeps a session sound, and its answer, as the reply to `call`, is one that the session
vouches for. -/
def Query.Vouched {β : Type} (q : Query β) (encode : β → Reply SigId) (call : Call) : Prop :=
  ∀ s : Session, s.Sound → (q.exec s).2.Sound ∧
    ∀ b, (q.exec s).1 = .ok b → (q.exec s).2.Vouches call (encode b)

section Invariant

variable {s s' : Session} {β γ : Type} {call : Call}

theorem Session.Vouches.grows {reply : Reply SigId} (h : s.Vouches call reply)
    (g : s.program.types.Grows s'.program.types) (g' : s.signatures.Grows s'.signatures) :
    s'.Vouches call reply := by
  intro id eq
  obtain ⟨draft, expects, stored⟩ := h id eq
  exact ⟨draft, expects.grows g, stored.grows g g'⟩

/-- The program may be replaced by one over a larger pool. -/
theorem Session.Sound.build {p : Program} (sound : s.Sound) (wf : p.WellFormed)
    (ext : s.program.types.Extends p.types) : ({ s with program := p } : Session).Sound where
  program := wf
  signatures := sound.signatures
  kept call reply h :=
    (sound.kept call reply h).grows ⟨sound.program.types.wellFormed, wf.types.wellFormed, ext⟩
      (.refl sound.signatures)

/-- The memo tables may be replaced by others whose replies the session vouches for. -/
theorem Session.Sound.of_sameTables (sound : s.Sound) (same : SameTables s s')
    (kept : ∀ call reply, s'.memo.kept? call = some reply → s.Vouches call reply) : s'.Sound := by
  obtain ⟨program, signatures⟩ := same
  simp only [Vouches, program, signatures] at kept
  exact ⟨program ▸ sound.program, signatures ▸ sound.signatures, kept⟩

/-- To store what was drafted keeps a session sound. -/
theorem Session.Sound.settle {drafted : Except Fault (Reply Draft)} (sound : s.Sound)
    (classes : ∀ draft, drafted = .ok (.signature draft) →
      draft.BorrowsClasses s.program.types) : (s.settle drafted).2.Sound := by
  cases drafted with
  | error fault => exact sound
  | ok drafted =>
    cases drafted with
    | decision _ | failure _ | nothing => exact sound
    | signature draft =>
      have borrows := classes draft rfl
      have wf := sound.program.types.wellFormed
      obtain ⟨g, g', -⟩ := draft.grows_store wf sound.signatures
        fun formal mem => (borrows formal mem).grounded
      have types : (s.stored draft).2.program.types.Sound :=
        DraftFormal.sound_storeTypes sound.program.types borrows
      have decls := sound.program.decls.grows wf.table types.wellFormed.table g.ext
      refine ⟨⟨types, decls⟩, g'.after, ?_⟩
      -- the kept replies are vouched for in larger pools as well
      intro call reply h
      exact (sound.kept call reply h).grows g g'

/-- What is found afresh is vouched for when what is drafted is as expected. -/
theorem Query.Settles.vouched {q : Query β} {encode : β → Reply SigId}
    {drafted : TypePool → Except Fault (Reply Draft)} (settles : q.Settles encode drafted)
    (expected : ∀ pool draft, pool.Sound → drafted pool = .ok (.signature draft) →
      draft.BorrowsClasses pool ∧ call.Expects pool draft) : q.Vouched encode call := by
  intro s sound
  have run := settles s
  rw [exec_map] at run
  have after := sound.settle fun draft h => (expected _ draft sound.program.types h).1
  rw [← run] at after
  refine ⟨after, ?_⟩
  intro b hb id eq
  rw [hb] at run
  -- the reply is a signature, so a signature was drafted, and it is stored now
  cases hdrafted : drafted s.program.types with
  | error fault =>
    rw [hdrafted] at run
    exact nomatch congrArg (·.1) run
  | ok reply =>
    rw [hdrafted] at run
    have given : .ok (encode b) = (s.settle (.ok reply)).1 := congrArg (·.1) run
    rw [eq] at given
    cases reply with
    | decision _ | failure _ | nothing => exact nomatch given
    | signature draft =>
      obtain ⟨classes, expects⟩ := expected _ draft sound.program.types hdrafted
      obtain ⟨g, -, stored⟩ := draft.grows_store sound.program.types.wellFormed sound.signatures
        fun formal mem => (classes formal mem).grounded
      obtain rfl : id = (s.stored draft).1 := Reply.signature.inj (Except.ok.inj given)
      have state : (q.exec s).2 = (s.stored draft).2 := congrArg (·.2) run
      rw [state]
      exact ⟨draft, expects.grows g, stored⟩

theorem Query.Vouched.map {q : Query β} {encode : β → Reply SigId} (h : q.Vouched encode call) :
    (encode <$> q).Vouched (fun reply => reply) call := by
  intro s sound
  obtain ⟨after, vouches⟩ := h s sound
  rw [exec_map]
  refine ⟨after, ?_⟩
  intro reply eq
  obtain ⟨b, hb, rfl⟩ : ∃ b, (q.exec s).1 = .ok b ∧ encode b = reply := by
    cases answer : (q.exec s).1 with
    | error fault =>
      rw [answer] at eq
      exact nomatch eq
    | ok b =>
      rw [answer] at eq
      exact ⟨b, rfl, Except.ok.inj eq⟩
  exact vouches b hb

theorem Query.Vouched.bind {q : Query β} {f : β → Query γ} {encode : β → Reply SigId}
    {encode' : γ → Reply SigId} {call' : Call} (h : q.Vouched encode call)
    (hf : ∀ b, (f b).Vouched encode' call') : (q >>= f).Vouched encode' call' := by
  intro s sound
  have first := (h s sound).1
  rw [exec_bind]
  rcases hq : q.exec s with ⟨fault | b, t⟩ <;> rw [hq] at first
  · exact ⟨first, fun _ eq => nomatch eq⟩
  · exact hf b t first

/-- What is answered from a table is vouched for when what is computed is. -/
theorem Query.Vouched.memoized {κ : Type} [DecidableEq κ] {slot : MemoSlot κ β} {key : κ}
    {encode : β → Reply SigId} {compute : Query β} (answers : slot.Answers key encode call)
    (computed : compute.Vouched encode call)
    (untouched : ∀ s, slot.view (compute.exec s).2.memo = slot.view s.memo) :
    (Query.memoized slot key compute).Vouched encode call := by
  intro s sound
  rcases answers.hit_or_miss untouched s with hit | miss
  · have after : ((Query.memoized slot key compute).exec s).2.Sound :=
      sound.of_sameTables hit.tables fun call' reply h => sound.kept call' reply (hit.memo call' ▸ h)
    refine ⟨after, fun b eq => ?_⟩
    obtain ⟨value, kept, answer⟩ := hit.found
    obtain rfl := Except.ok.inj (answer.symm.trans eq)
    exact after.kept call (encode value) (by rw [hit.memo, answers.kept, kept]; rfl)
  · have missed : (Query.missed slot s).Sound := sound.of_sameTables ⟨rfl, rfl⟩
      fun call' reply h => sound.kept call' reply (answers.kept?_missed s call' ▸ h)
    obtain ⟨computes, vouches⟩ := computed _ missed
    -- the new reply was computed just now; the others were kept before
    have after : ((Query.memoized slot key compute).exec s).2.Sound := by
      refine computes.of_sameTables miss.tables fun call' reply h => ?_
      by_cases this : call' = call
      · subst this
        rw [miss.self] at h
        obtain ⟨value, hvalue, rfl⟩ := Option.map_eq_some_iff.1 h
        exact vouches value (eq_ok_of_toOption hvalue)
      · rw [miss.others call' this] at h
        exact computes.kept call' reply h
    refine ⟨after, fun b eq => ?_⟩
    refine after.kept call (encode b) ?_
    rw [miss.self, ← miss.answer, eq]
    rfl

end Invariant

/-! ## The queries -/

section Queries

variable (host : Host)

theorem vouched_afresh {β : Type} {q : Query β} {encode : β → Reply SigId} {call : Call}
    (settles : q.Settles encode fun pool => call.draft host pool) : q.Vouched encode call :=
  settles.vouched fun _ _ sound h => Call.expects_draft sound h

theorem vouched_need (ty : TypeId) (name : Name) (parenless : Bool) :
    (Session.need host ty name parenless).Vouched .decision (.need ty name parenless) := by
  have afresh := vouched_afresh host (settles_needAfresh host ty name parenless)
  unfold Session.need
  split
  · rename_i unknown
    rwa [Session.needAfresh, if_pos unknown] at afresh
  · refine afresh.memoized (MemoSlot.answers_need ty name parenless) ?_
    intro s
    rw [exec_needAfresh]

theorem vouched_method (ty : TypeId) (name : Name) (parenless : Bool) :
    (Session.method host ty name parenless).Vouched .ofMethod (.method ty name parenless) := by
  refine Query.Vouched.memoized (MemoSlot.answers_methods ty name parenless) ?_
    (methods_methodComputed host ty name parenless)
  refine (vouched_need host ty name parenless).bind fun needed => ?_
  refine (settles_synthesize host ty name needed).vouched ?_
  intro pool draft sound h
  have isFor := Call.isFor_draftSynthesis sound h
  exact ⟨isFor.borrowsClasses sound, isFor⟩

include host in
theorem vouched_binaryOp (lhs rhs : Qualified) (name : Name) :
    (Session.binaryOp lhs rhs name).Vouched .ofOption (.binaryOp lhs rhs name) := by
  have settles := settles_binaryOpAfresh host lhs rhs name
  exact (vouched_afresh host settles).memoized (MemoSlot.answers_binaryOps lhs rhs name)
    fun s => congrArg MemoTables.binaryOps (settles.memo_eq s)

theorem vouched_accessor (ty : Option TypeId) (field : Name) :
    (Session.accessor host ty field).Vouched .ofOption (.accessor ty field) := by
  unfold Session.accessor
  cases h : ty.filter (!·.isUnknown) with
  | none =>
    intro s sound
    refine ⟨sound, ?_⟩
    intro found eq id given
    obtain rfl := Except.ok.inj eq
    exact nomatch given
  | some ty' =>
    obtain ⟨rfl, known⟩ := Option.filter_eq_some_iff.1 h
    have known : ty'.isUnknown = false := by simpa using known
    have settles := settles_accessorAfresh host known field
    exact (vouched_afresh host settles).memoized (MemoSlot.answers_accessors known field)
      fun s => congrArg MemoTables.accessors (settles.memo_eq s)

/-- One query keeps a session sound. -/
theorem vouched_ask (call : Call) : (call.ask host).Vouched (fun reply => reply) call := by
  cases call with
  | need ty name parenless => exact (vouched_need host ty name parenless).map
  | method ty name parenless => exact (vouched_method host ty name parenless).map
  | binaryOp lhs rhs name => exact (vouched_binaryOp host lhs rhs name).map
  | accessor ty field => exact (vouched_accessor host ty field).map

end Queries

/-! ## Runs of builders and queries -/

/-- The sessions that builders and queries lead to. Builders are given types that the program has at
that time, or the unknown type, and any host may answer a query. -/
inductive Session.Reached : Session → Prop
  | empty (names : NameTable) (shards : Sharding) : Reached (.empty names shards)
  | build {s : Session} {call : BuilderCall} {p : Program} :
      Reached s → (∀ ty ∈ call.types, s.program.types.Admits ty) →
        call.run s.program = .ok p → Reached { s with program := p }
  | ask {s : Session} (host : Host) (call : Call) : Reached s → Reached ((call.ask host).exec s).2

namespace Session

variable {s : Session}

theorem reached_start {p : Program} (built : p.Built) (shards : Sharding) :
    (start p shards).Reached := by
  induction built with
  | empty names others => exact .empty names { shards with types := others.types }
  | step _ admitted eq ih => exact .build ih admitted eq

theorem sound_empty (names : NameTable) (shards : Sharding) : (empty names shards).Sound where
  program := Program.wellFormed_empty names shards
  signatures := SignaturePool.wellFormed_empty shards
  kept call _ h := nomatch (MemoTables.kept?_empty call).symm.trans h

theorem Reached.sound (reached : s.Reached) : s.Sound := by
  -- over the run: a builder extends the pool, a query keeps what it is vouched for
  induction reached with
  | empty names shards => exact sound_empty names shards
  | build _ admitted eq ih =>
    obtain ⟨-, ext⟩ := Program.run_interned ih.program.types.interned admitted eq
    exact ih.build (ih.program.run admitted eq) ext
  | ask host call _ ih => exact (vouched_ask host call _ ih).1

/-- The first formal of a signature takes a variable of the type, never promoted, and under exactly
this condition on the decorator that the type may have. -/
def ReceivesWhen (s : Session) (id : SigId) (ty : TypeId) (condition : Decorator → Prop) : Prop :=
  ∃ signature receiver outcome, s.signatures.typed id = .ok signature ∧
    signature.formalTypes.head? = some receiver ∧
      s.program.types.canPass (.var ty) receiver = .ok outcome ∧ outcome.promotes = false ∧
        (outcome.passes = true ↔ ∀ basic decorator,
          s.program.types.read? ty = some (.decorated basic decorator) → condition decorator)

theorem Sound.receives (sound : s.Sound) {ty : TypeId} {borrowing : Binding} {draft : Draft}
    {id : SigId} (isFor : draft.IsFor s.program.types ty borrowing)
    (stored : draft.IsStoredAs s.program.types s.signatures id)
    (plain : borrowing.isTypeOrParam = false) :
    s.ReceivesWhen id ty fun decorator => decorator.nilable = false ∧
      (borrowing.isRef = true → decorator.management = .borrowed) := by
  obtain ⟨binding, type, rest, formals, receives, -⟩ := isFor
  obtain ⟨untyped, formalTypes, -, types, typed⟩ := stored
  rw [formals] at types
  -- the first stored formal is the receiver of the draft
  cases types with
  | @cons _ received _ _ first _ =>
    obtain ⟨same, held⟩ := first
    obtain ⟨outcome, passed, promotes, passes⟩ :=
      sound.program.types.canPass_receiver receives held plain
    refine ⟨_, received, outcome, typed, rfl, ?_, promotes, passes⟩
    obtain ⟨binding', received⟩ := received
    obtain rfl : binding' = binding := same
    exact passed

end Session

/-- A method that is found for a type takes a variable of it unless the type is a class that may be
nil. An accessor takes it unless the type is a class that has a decorator other than borrowed and never
nil. Neither is ever promoted over the variable. -/
theorem receives_variable_iff {s : Session} (reached : s.Reached) (host : Host) (ty : TypeId) :
    (∀ name parenless id, ((Session.method host ty name parenless).exec s).1 = .ok (.ok (some id)) →
      ((Session.method host ty name parenless).exec s).2.ReceivesWhen id ty
        fun decorator => decorator.nilable = false) ∧
    ∀ field id, ((Session.accessor host (some ty) field).exec s).1 = .ok (some id) →
      ((Session.accessor host (some ty) field).exec s).2.ReceivesWhen id ty
        fun decorator => decorator = .borrowedNonNil := by
  have sound := reached.sound
  constructor
  · intro name parenless id found
    obtain ⟨after, vouches⟩ := vouched_method host ty name parenless s sound
    obtain ⟨draft, isFor, stored⟩ := vouches _ found id rfl
    obtain ⟨signature, receiver, outcome, typed, head, passed, promotes, passes⟩ :=
      after.receives isFor stored rfl
    refine ⟨signature, receiver, outcome, typed, head, passed, promotes, passes.trans ?_⟩
    -- a method receives a class by value
    simp [Binding.isRef]
  · intro field id found
    obtain ⟨after, vouches⟩ := vouched_accessor host (some ty) field s sound
    obtain ⟨draft, isFor, stored⟩ := vouches _ found id rfl
    obtain ⟨signature, receiver, outcome, typed, head, passed, promotes, passes⟩ :=
      after.receives isFor stored rfl
    refine ⟨signature, receiver, outcome, typed, head, passed, promotes, passes.trans ?_⟩
    -- an accessor receives it by reference, so only one decorator is left
    simp only [Binding.isRef, true_implies]
    refine forall_congr' fun basic => forall_congr' fun decorator => imp_congr_right fun _ => ?_
    obtain ⟨management, nilable⟩ := decorator
    simp [Decorator.borrowedNonNil, and_comm]

/-- A class with a field, in two forms in which it is owned: never nil, and possibly nil. -/
def ownedClasses : Program :=
  .ofCalls .bySize [.module "M" none, .composite (.at 0) "C" .classType none,
    .field (.known ⟨1, 0⟩) "x" (.var .int), .type (.decorate (.known ⟨1, 0⟩) ⟨.owned, false⟩),
    .type (.decorate (.known ⟨1, 0⟩) ⟨.owned, true⟩)]

/-- The initializer of the given form, and the session afterwards. -/
def ownedInit (ty : TypeId) : Except Fault (Except GenerationError (Option SigId)) × Session :=
  (Session.method ownedClasses.decls.host ty .init false).exec (.start ownedClasses .bySize)

/-- The accessor of the field for the given form, and the session afterwards. -/
def ownedAccessor (ty : TypeId) : Except Fault (Option SigId) × Session :=
  (Session.accessor ownedClasses.decls.host (some ty) ⟨⟨2, 2⟩⟩).exec (.start ownedClasses .bySize)

/-- The form that is never nil passes to the initializer and not to the accessor. -/
theorem ownedClasses_receive : (Session.start ownedClasses .bySize).Reached ∧
    (ownedInit (.known ⟨2, 0⟩)).1 = .ok (.ok (some ⟨⟨2, 0⟩⟩)) ∧
    (ownedInit (.known ⟨2, 0⟩)).2.ReceivesWhen ⟨⟨2, 0⟩⟩ (.known ⟨2, 0⟩)
      (fun decorator => decorator.nilable = false) ∧
    (ownedAccessor (.known ⟨2, 0⟩)).1 = .ok (some ⟨⟨1, 0⟩⟩) ∧
    (ownedAccessor (.known ⟨2, 0⟩)).2.ReceivesWhen ⟨⟨1, 0⟩⟩ (.known ⟨2, 0⟩)
      (fun decorator => decorator = .borrowedNonNil) := by
  have reached : (Session.start ownedClasses .bySize).Reached :=
    Session.reached_start (Program.built_ofCalls _ _) .bySize
  have init : (ownedInit (.known ⟨2, 0⟩)).1 = .ok (.ok (some ⟨⟨2, 0⟩⟩)) := by cbv
  have accessor : (ownedAccessor (.known ⟨2, 0⟩)).1 = .ok (some ⟨⟨1, 0⟩⟩) := by cbv
  obtain ⟨methods, accessors⟩ :=
    receives_variable_iff reached ownedClasses.decls.host (.known ⟨2, 0⟩)
  exact ⟨reached, init, methods _ _ _ init, accessor, accessors _ _ accessor⟩

/-- The form that may be nil does not pass to its initializer, nor the other form to its accessor. -/
theorem ownedClasses_fail : (Session.start ownedClasses .bySize).Reached ∧
    ((ownedInit (.known ⟨2, 1⟩)).1 = .ok (.ok (some ⟨⟨2, 0⟩⟩)) ∧
      ((ownedInit (.known ⟨2, 1⟩)).2.signatures.typed ⟨⟨2, 0⟩⟩).map (·.formalTypes.head?) =
        .ok (some ⟨.constIn, .known ⟨2, 2⟩⟩) ∧
      (ownedInit (.known ⟨2, 1⟩)).2.program.types.canPass (.var (.known ⟨2, 1⟩))
        ⟨.constIn, .known ⟨2, 2⟩⟩ = .ok .fail) ∧
    (ownedAccessor (.known ⟨2, 0⟩)).1 = .ok (some ⟨⟨1, 0⟩⟩) ∧
      ((ownedAccessor (.known ⟨2, 0⟩)).2.signatures.typed ⟨⟨1, 0⟩⟩).map (·.formalTypes.head?) =
        .ok (some ⟨.refMaybeConst, .known ⟨2, 2⟩⟩) ∧
      (ownedAccessor (.known ⟨2, 0⟩)).2.program.types.canPass (.var (.known ⟨2, 0⟩))
        ⟨.refMaybeConst, .known ⟨2, 2⟩⟩ = .ok .fail := by
  have reached : (Session.start ownedClasses .bySize).Reached :=
    Session.reached_start (Program.built_ofCalls _ _) .bySize
  refine ⟨reached, ⟨?_, ?_, ?_⟩, ?_, ?_, ?_⟩ <;> cbv

end MethodSynthesis
