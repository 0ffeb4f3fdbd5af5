import MethodSynthesis.Proofs.Storage
import MethodSynthesis.Synthesis.Session

/-!
# Queries and what they are drafted as

A query of a session is a value of `Call`. It is drafted over the pool of types as it stands
(`Call.draft`), and the answer found afresh is the draft, stored (`exec_askAfresh`). Drafts persist in
growing pools (`Call.draft_persists`), and a reply that is stored already is given as it is stored
(`Session.settle_of_isStoredAs`), so that an answer can be found afresh a second time with the same
outcome.
-/

set_option autoImplicit false

namespace MethodSynthesis

/-! ## Running queries -/

namespace Query

variable {α β : Type}

/-- The answer of a query over a session, and the session afterwards. -/
def exec (q : Query α) (s : Session) : Except Fault α × Session := (q.run.run s).run

theorem exec_bind (q : Query α) (f : α → Query β) (s : Session) :
    (q >>= f).exec s = match q.exec s with
      | (.ok a, s') => (f a).exec s'
      | (.error e, s') => (.error e, s') := by
  simp only [exec, ExceptT.run_bind, StateT.run_bind, Id.run_bind]
  rcases (q.run.run s).run with ⟨a | a, s'⟩ <;> rfl

theorem exec_get (s : Session) : (get : Query Session).exec s = (.ok s, s) :=
  rfl

theorem exec_map (f : α → β) (q : Query α) (s : Session) :
    (f <$> q).exec s = ((q.exec s).1.map f, (q.exec s).2) := by
  rw [map_eq_pure_bind, exec_bind]
  rcases q.exec s with ⟨a | a, s'⟩ <;> rfl

theorem exec_read (answer : Session → Except Fault α) (s : Session) :
    (read answer).exec s = (answer s, s) := by
  show exec (get >>= fun s => liftExcept (answer s)) s = _
  rw [exec_bind]
  show (liftExcept (answer s) : Query α).exec s = _
  cases answer s with
  | ok a => rfl
  | error e => rfl

theorem exec_store (draft : Draft) (s : Session) :
    (store draft).exec s =
      (.ok (draft.store s.program.types s.signatures).1,
        { s with
          program := { s.program with types := (draft.store s.program.types s.signatures).2.1 }
          signatures := (draft.store s.program.types s.signatures).2.2 }) :=
  rfl

end Query

/-! ## Calls and replies -/

/-- One query of a session, with what it is asked about. -/
inductive Call where
  | need (ty : TypeId) (name : Name) (parenless : Bool)
  | method (ty : TypeId) (name : Name) (parenless : Bool)
  | binaryOp (lhs rhs : Qualified) (name : Name)
  | accessor (ty : Option TypeId) (field : Name)
deriving DecidableEq

/-- What a query is answered with, where signatures are given in some form. -/
inductive Reply (σ : Type) where
  | decision (needed : Bool)
  | failure (e : GenerationError)
  | nothing
  | signature (s : σ)

namespace Reply

variable {σ : Type}

/-- The reply of a query for a signature that there may be none of. -/
def ofOption : Option σ → Reply σ
  | none => .nothing
  | some s => .signature s

/-- The reply of a query for a method. -/
def ofMethod : Except GenerationError (Option σ) → Reply σ
  | .error e => .failure e
  | .ok found => .ofOption found

theorem decision_injective : Function.Injective (decision (σ := σ)) :=
  fun _ _ h => decision.inj h

theorem ofOption_injective : Function.Injective (ofOption (σ := σ)) := by
  rintro (_ | a) (_ | b) h
  · rfl
  · exact nomatch h
  · exact nomatch h
  · exact congrArg some (signature.inj h)

theorem ofMethod_injective : Function.Injective (ofMethod (σ := σ)) := by
  rintro (e | a) (e' | b) h
  · exact congrArg Except.error (failure.inj h)
  · cases b <;> exact nomatch h
  · cases a <;> exact nomatch h
  · exact congrArg Except.ok (ofOption_injective h)

theorem eq_some_of_ofOption {found : Option σ} {s : σ} (h : ofOption found = .signature s) :
    found = some s := by
  have same : ofOption found = ofOption (some s) := h
  exact ofOption_injective same

/-- The types that a drafted reply borrows are in the pool. -/
def Grounded (pool : TypePool) : Reply Draft → Prop
  | .signature draft => draft.Grounded pool
  | _ => True

/-- A drafted reply says what the given reply holds. -/
def IsStoredAs (types : TypePool) (signatures : SignaturePool) : Reply Draft → Reply SigId → Prop
  | .decision needed, .decision needed' => needed' = needed
  | .failure e, .failure e' => e' = e
  | .nothing, .nothing => True
  | .signature draft, .signature id => draft.IsStoredAs types signatures id
  | _, _ => False

theorem IsStoredAs.grows {types types' : TypePool} {signatures signatures' : SignaturePool}
    {drafted : Reply Draft} {reply : Reply SigId} (h : drafted.IsStoredAs types signatures reply)
    (g : types.Grows types') (g' : signatures.Grows signatures') :
    drafted.IsStoredAs types' signatures' reply := by
  cases drafted with
  | signature draft =>
    cases reply with
    | signature id => exact Draft.IsStoredAs.grows h g g'
    | _ => exact h
  | _ => cases reply <;> exact h

end Reply

namespace Call

/-- Asks the query, with the memo tables. -/
def ask (host : Host) : Call → Query (Reply SigId)
  | .need ty name parenless => .decision <$> Session.need host ty name parenless
  | .method ty name parenless => .ofMethod <$> Session.method host ty name parenless
  | .binaryOp lhs rhs name => .ofOption <$> Session.binaryOp lhs rhs name
  | .accessor ty field => .ofOption <$> Session.accessor host ty field

/-- Finds the answer afresh, without the memo tables. The accessor of no type, or of the unknown
type, is not looked for. -/
def askAfresh (host : Host) : Call → Query (Reply SigId)
  | .need ty name parenless => .decision <$> Session.needAfresh host ty name parenless
  | .method ty name parenless => .ofMethod <$> Session.methodAfresh host ty name parenless
  | .binaryOp lhs rhs name => .ofOption <$> Session.binaryOpAfresh lhs rhs name
  | .accessor ty field =>
    match ty.filter (!·.isUnknown) with
    | none => return .nothing
    | some ty => .ofOption <$> Session.accessorAfresh host ty field

/-- Whether a method is needed, over a pool of types. -/
def draftNeed (host : Host) (pool : TypePool) (ty : TypeId) (name : Name) (parenless : Bool) :
    Except Fault Bool :=
  if ty.isUnknown then return false else host.needsMethod pool ty name parenless

/-- The reply for a method, before it is stored, given whether the method is needed. -/
def draftSynthesis (host : Host) (pool : TypePool) (ty : TypeId) (name : Name) (needed : Bool) :
    Except Fault (Reply Draft) := do
  if !needed then return .nothing
  return match ← (host.draftMethod pool ty name).run with
    | .error e => .failure e
    | .ok draft => .signature draft

/-- The reply to a query over a pool of types, before it is stored. -/
def draft (host : Host) (pool : TypePool) : Call → Except Fault (Reply Draft)
  | .need ty name parenless => return .decision (← draftNeed host pool ty name parenless)
  | .method ty name parenless => do
    draftSynthesis host pool ty name (← draftNeed host pool ty name parenless)
  | .binaryOp lhs rhs name => return .ofOption (← pool.draftBinaryOp lhs.type rhs.type name)
  | .accessor ty field =>
    match ty.filter (!·.isUnknown) with
    | none => return .nothing
    | some ty => return .ofOption (← host.draftAccessor pool ty field)

variable {host : Host} {pool pool' : TypePool}

theorem draftNeed_persists (p : host.Persistent pool pool') (g : pool.Grows pool') (ty : TypeId)
    (name : Name) (parenless : Bool) :
    Persists (draftNeed host pool ty name parenless) (draftNeed host pool' ty name parenless) := by
  unfold draftNeed
  split
  · exact .refl _
  · exact p.needsMethod g ty name parenless

/-- What a query is drafted as persists. -/
theorem draft_persists (p : host.Persistent pool pool') (g : pool.Grows pool') (call : Call) :
    Persists (call.draft host pool) (call.draft host pool') := by
  cases call with
  | need ty name parenless => exact (draftNeed_persists p g ty name parenless).map _
  | method ty name parenless =>
    -- the decision persists, and with the same decision so does what is drafted
    refine (draftNeed_persists p g ty name parenless).bind fun needed _ => ?_
    unfold draftSynthesis
    split
    · exact .refl _
    · exact (p.draftMethod g ty name).map _
  | binaryOp lhs rhs name => exact (g.draftBinaryOp lhs.type rhs.type name).map _
  | accessor ty field =>
    simp only [draft]
    cases ty.filter (!·.isUnknown) with
    | none => exact .refl _
    | some ty => exact (p.draftAccessor g ty field).map _

/-- A signature is drafted for a method by its builder, when one is needed. -/
theorem draftSynthesis_eq_signature {ty : TypeId} {name : Name} {needed : Bool} {draft : Draft}
    (h : draftSynthesis host pool ty name needed = .ok (.signature draft)) :
    needed = true ∧ (host.draftMethod pool ty name).run = .ok (.ok draft) := by
  cases needed with
  | false => exact nomatch h
  | true =>
    obtain ⟨made, hmade, eq⟩ := bind_eq_ok.1 h
    cases made with
    | error e => exact nomatch eq
    | ok draft' =>
      obtain rfl := Reply.signature.inj (Except.ok.inj eq)
      exact ⟨rfl, hmade⟩

theorem draft_accessor_eq {ty : TypeId} (known : ty.isUnknown = false) (field : Name) :
    (Call.accessor (some ty) field).draft host pool =
      host.draftAccessor pool ty field >>= fun found => .ok (.ofOption found) := by
  simp only [draft, Option.filter_some, known, Bool.not_false, if_true]
  rfl

theorem grounded_ofOption {drafted : Option Draft} (h : ∀ d, drafted = some d → d.Grounded pool) :
    (Reply.ofOption drafted).Grounded pool := by
  cases drafted with
  | none => trivial
  | some d => exact h d rfl

theorem grounded_draftSynthesis (wf : pool.WellFormed) {ty : TypeId} {name : Name} {needed : Bool}
    {drafted : Reply Draft} (h : draftSynthesis host pool ty name needed = .ok drafted) :
    drafted.Grounded pool := by
  unfold draftSynthesis at h
  split at h
  · obtain rfl := Except.ok.inj h
    trivial
  · obtain ⟨made, hmade, eq⟩ := bind_eq_ok.1 h
    obtain rfl := Except.ok.inj eq
    cases made with
    | error e => trivial
    | ok d => exact wf.grounded_draftMethod host hmade

/-- What a query is drafted as borrows classes of the pool. -/
theorem grounded_draft (wf : pool.WellFormed) {call : Call} {drafted : Reply Draft}
    (h : call.draft host pool = .ok drafted) : drafted.Grounded pool := by
  cases call with
  | need ty name parenless =>
    obtain ⟨needed, -, eq⟩ := bind_eq_ok.1 h
    obtain rfl := Except.ok.inj eq
    trivial
  | method ty name parenless =>
    obtain ⟨needed, -, h⟩ := bind_eq_ok.1 h
    exact grounded_draftSynthesis wf h
  | binaryOp lhs rhs name =>
    obtain ⟨found, hfound, eq⟩ := bind_eq_ok.1 h
    obtain rfl := Except.ok.inj eq
    exact grounded_ofOption fun d eq => TypePool.WellFormed.grounded_draftBinaryOp (eq ▸ hfound)
  | accessor ty field =>
    simp only [draft] at h
    cases hty : ty.filter (!·.isUnknown) with
    | none =>
      rw [hty] at h
      obtain rfl := Except.ok.inj h
      trivial
    | some ty =>
      rw [hty] at h
      obtain ⟨found, hfound, eq⟩ := bind_eq_ok.1 h
      obtain rfl := Except.ok.inj eq
      exact grounded_ofOption fun d eq =>
        TypePool.WellFormed.grounded_draftAccessor host (eq ▸ hfound)

end Call

/-! ## Storing what was drafted -/

namespace Session

/-- The session after a draft was stored, and the signature that it is stored as. -/
def stored (s : Session) (draft : Draft) : SigId × Session :=
  ((draft.store s.program.types s.signatures).1,
    { s with
      program := { s.program with types := (draft.store s.program.types s.signatures).2.1 }
      signatures := (draft.store s.program.types s.signatures).2.2 })

/-- Gives a drafted reply, with what has to be stored for it. -/
def settle (s : Session) : Except Fault (Reply Draft) → Except Fault (Reply SigId) × Session
  | .error fault => (.error fault, s)
  | .ok (.decision needed) => (.ok (.decision needed), s)
  | .ok (.failure e) => (.ok (.failure e), s)
  | .ok .nothing => (.ok .nothing, s)
  | .ok (.signature draft) => (.ok (.signature (s.stored draft).1), (s.stored draft).2)

/-- Both sessions have the same program and signatures. -/
def SameTables (s s' : Session) : Prop :=
  s.program = s'.program ∧ s.signatures = s'.signatures

/-- The pools of the second session extend those of the first, and nothing else is changed. -/
structure Grows (s s' : Session) : Prop where
  types : s.program.types.Grows s'.program.types
  signatures : s.signatures.Grows s'.signatures
  decls : s'.program.decls = s.program.decls
  memo : s'.memo = s.memo

variable {s s' : Session}

theorem grows_settle (wf : s.program.types.WellFormed) (wf' : s.signatures.WellFormed)
    {drafted : Except Fault (Reply Draft)}
    (grounded : ∀ reply, drafted = .ok reply → reply.Grounded s.program.types) :
    s.Grows (s.settle drafted).2 := by
  have same : s.Grows s := ⟨.refl wf, .refl wf', rfl, rfl⟩
  cases drafted with
  | error fault => exact same
  | ok drafted =>
    cases drafted with
    -- only a signature has something to store
    | signature draft =>
      obtain ⟨g, g', -⟩ := draft.grows_store wf wf' (grounded _ rfl)
      exact ⟨g, g', rfl, rfl⟩
    | _ => exact same

/-- What a drafted reply is given as holds what was drafted. -/
theorem isStoredAs_settle (wf : s.program.types.WellFormed) (wf' : s.signatures.WellFormed)
    {drafted : Reply Draft} (grounded : drafted.Grounded s.program.types) :
    ∃ reply, (s.settle (.ok drafted)).1 = .ok reply ∧
      drafted.IsStoredAs (s.settle (.ok drafted)).2.program.types
        (s.settle (.ok drafted)).2.signatures reply := by
  cases drafted with
  | signature draft =>
    obtain ⟨-, -, stored⟩ := draft.grows_store wf wf' grounded
    exact ⟨_, rfl, stored⟩
  | decision _ | failure _ => exact ⟨_, rfl, rfl⟩
  | nothing => exact ⟨_, rfl, trivial⟩

/-- A reply that is stored already is given as it is stored, and adds nothing. -/
theorem settle_of_isStoredAs (wf : s.program.types.WellFormed) (wf' : s.signatures.WellFormed)
    {drafted : Reply Draft} {reply : Reply SigId}
    (h : drafted.IsStoredAs s.program.types s.signatures reply) :
    s.settle (.ok drafted) = (.ok reply, s) := by
  cases drafted with
  | signature draft =>
    cases reply with
    | signature id => simp only [settle, stored, Draft.IsStoredAs.store_eq wf wf' h]
    | _ => exact h.elim
  | decision needed =>
    cases reply with
    | decision needed' =>
      obtain rfl : needed' = needed := h
      rfl
    | _ => exact h.elim
  | failure e =>
    cases reply with
    | failure e' =>
      obtain rfl : e' = e := h
      rfl
    | _ => exact h.elim
  | nothing =>
    cases reply with
    | nothing => rfl
    | _ => exact h.elim

theorem SameTables.refl (s : Session) : SameTables s s := ⟨rfl, rfl⟩

theorem SameTables.symm (h : SameTables s s') : SameTables s' s := ⟨h.1.symm, h.2.symm⟩

theorem SameTables.trans {s'' : Session} (h : SameTables s s') (h' : SameTables s' s'') :
    SameTables s s'' :=
  ⟨h.1.trans h'.1, h.2.trans h'.2⟩

/-- What is given and stored does not depend on the memo tables. -/
theorem SameTables.settle (same : SameTables s s') (drafted : Except Fault (Reply Draft)) :
    (s.settle drafted).1 = (s'.settle drafted).1 ∧
      SameTables (s.settle drafted).2 (s'.settle drafted).2 := by
  -- both sessions are the same one but for the memo tables, which nothing here reads
  obtain ⟨program, signatures, memo⟩ := s
  obtain ⟨program', signatures', memo'⟩ := s'
  obtain ⟨rfl, rfl⟩ : program = program' ∧ signatures = signatures' := same
  cases drafted with
  | error fault => exact ⟨rfl, rfl, rfl⟩
  | ok drafted => cases drafted <;> exact ⟨rfl, rfl, rfl⟩

end Session

/-! ## Answers found afresh -/

theorem Session.memo_settle (s : Session) (drafted : Except Fault (Reply Draft)) :
    (s.settle drafted).2.memo = s.memo := by
  cases drafted with
  | error fault => rfl
  | ok drafted => cases drafted <;> rfl

/-- The query gives what its question is drafted as. -/
def Query.Settles {β : Type} (q : Query β) (encode : β → Reply SigId)
    (drafted : TypePool → Except Fault (Reply Draft)) : Prop :=
  ∀ s : Session, (encode <$> q).exec s = s.settle (drafted s.program.types)

theorem Query.Settles.memo_eq {β : Type} {q : Query β} {encode : β → Reply SigId}
    {drafted : TypePool → Except Fault (Reply Draft)} (settles : q.Settles encode drafted)
    (s : Session) : (q.exec s).2.memo = s.memo := by
  have run := settles s
  rw [exec_map] at run
  exact (congrArg (·.2.memo) run).trans (s.memo_settle _)

section Afresh

variable (host : Host)

theorem exec_needAfresh (ty : TypeId) (name : Name) (parenless : Bool) (s : Session) :
    (Session.needAfresh host ty name parenless).exec s =
      (Call.draftNeed host s.program.types ty name parenless, s) := by
  unfold Session.needAfresh Call.draftNeed
  split
  · rfl
  · exact Query.exec_read _ s

theorem settles_needAfresh (ty : TypeId) (name : Name) (parenless : Bool) :
    (Session.needAfresh host ty name parenless).Settles .decision
      fun pool => Call.draft host pool (.need ty name parenless) := by
  intro s
  rw [Query.exec_map, exec_needAfresh]
  show _ = s.settle (Call.draftNeed host s.program.types ty name parenless >>= fun needed =>
    pure (.decision needed))
  cases Call.draftNeed host s.program.types ty name parenless <;> rfl

theorem settles_synthesize (ty : TypeId) (name : Name) (needed : Bool) :
    (Session.synthesize host ty name needed).Settles .ofMethod
      fun pool => Call.draftSynthesis host pool ty name needed := by
  intro s
  rw [Query.exec_map]
  unfold Session.synthesize Call.draftSynthesis
  split
  · rfl
  · rw [Query.exec_bind, Query.exec_read]
    dsimp only
    rcases (host.draftMethod s.program.types ty name).run with fault | (e | draft)
    · rfl
    · rfl
    · dsimp only
      rw [Query.exec_bind, Query.exec_store]
      rfl

theorem settles_methodAfresh (ty : TypeId) (name : Name) (parenless : Bool) :
    (Session.methodAfresh host ty name parenless).Settles .ofMethod
      fun pool => Call.draft host pool (.method ty name parenless) := by
  intro s
  rw [Query.exec_map, Session.methodAfresh, Query.exec_bind, exec_needAfresh]
  simp only [Call.draft]
  cases Call.draftNeed host s.program.types ty name parenless with
  | error fault => rfl
  | ok needed =>
    rw [ok_bind, ← settles_synthesize, Query.exec_map]

theorem exec_storeOptional (drafted : Option Draft) (s : Session) :
    (Reply.ofOption <$> Query.storeOptional drafted).exec s =
      s.settle (.ok (.ofOption drafted)) := by
  rw [Query.exec_map]
  cases drafted with
  | none => rfl
  | some draft =>
    rw [Query.storeOptional, Query.exec_bind, Query.exec_store]
    rfl

theorem settles_binaryOpAfresh (lhs rhs : Qualified) (name : Name) :
    (Session.binaryOpAfresh lhs rhs name).Settles .ofOption
      fun pool => Call.draft host pool (.binaryOp lhs rhs name) := by
  intro s
  rw [Query.exec_map, Session.binaryOpAfresh, Query.exec_bind, Query.exec_read]
  simp only [Call.draft]
  cases s.program.types.draftBinaryOp lhs.type rhs.type name with
  | error fault => rfl
  | ok drafted =>
    rw [ok_bind, pure_eq_ok, ← exec_storeOptional, Query.exec_map]

theorem settles_accessorAfresh {ty : TypeId} (known : ty.isUnknown = false) (field : Name) :
    (Session.accessorAfresh host ty field).Settles .ofOption
      fun pool => Call.draft host pool (.accessor (some ty) field) := by
  intro s
  rw [Query.exec_map, Session.accessorAfresh, Query.exec_bind, Query.exec_read]
  simp only [Call.draft_accessor_eq known]
  cases host.draftAccessor s.program.types ty field with
  | error fault => rfl
  | ok drafted =>
    rw [ok_bind, ← exec_storeOptional, Query.exec_map]

/-- To find an answer afresh is to draft it and to store what was drafted. -/
theorem exec_askAfresh (call : Call) (s : Session) :
    (call.askAfresh host).exec s = s.settle (call.draft host s.program.types) := by
  cases call with
  | need ty name parenless => exact settles_needAfresh host ty name parenless s
  | method ty name parenless => exact settles_methodAfresh host ty name parenless s
  | binaryOp lhs rhs name => exact settles_binaryOpAfresh host lhs rhs name s
  | accessor ty field =>
    cases h : ty.filter (!·.isUnknown) with
    | none =>
      simp only [Call.askAfresh, Call.draft, h]
      rfl
    -- the accessor is looked for in a known type only
    | some ty' =>
      obtain ⟨rfl, known⟩ := Option.filter_eq_some_iff.1 h
      have settles := settles_accessorAfresh host (by simpa using known) field s
      simp only [Call.askAfresh, h]
      exact settles

end Afresh

end MethodSynthesis
