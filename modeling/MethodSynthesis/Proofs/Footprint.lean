import MethodSynthesis.Proofs.DraftForms
import MethodSynthesis.Proofs.Durability

/-!
# What queries leave behind

A query that has an answer leaves declarations and names as they are. It stores something only when it
gives a signature that was not kept before (`gives_ask`): a draft that was made from the pool as it
stood. Every draft borrows one class at most, a form of the type that is asked about
(`Call.Makes.borrows`), and so the pool of types is left as it is or as decorating that form leaves it
(`Draft.storeTypes_eq_or_decorate`). `query_footprint` puts this together for every session, host and
query, with what a repeated query does: it counts one hit at most.
-/

set_option autoImplicit false

namespace MethodSynthesis

/-! ## Queries that store a draft -/

/-- The drafts that a query may be answered by, over any pool. -/
inductive Call.Makes (host : Host) (pool : TypePool) : Call → Draft → Prop
  | method {ty : TypeId} {name : Name} {parenless : Bool} {draft : Draft} :
      (host.draftMethod pool ty name).run = .ok (.ok draft) →
        Makes host pool (.method ty name parenless) draft
  | binaryOp {lhs rhs : Qualified} {name : Name} {draft : Draft} :
      pool.draftBinaryOp lhs.type rhs.type name = .ok (some draft) →
        Makes host pool (.binaryOp lhs rhs name) draft
  | accessor {ty : TypeId} {field : Name} {draft : Draft} :
      host.draftAccessor pool ty field = .ok (some draft) →
        Makes host pool (.accessor (some ty) field) draft

/-- Each signature that the query gives is kept for `call`, in which case nothing is stored, or it is a
draft of `call` that is stored now. -/
def Query.Gives {β : Type} (host : Host) (q : Query β) (encode : β → Reply SigId) (call : Call) :
    Prop :=
  ∀ s : Session,
    (Session.SameTables s (q.exec s).2 ∧ ∀ b id, (q.exec s).1 = .ok b → encode b = .signature id →
      s.memo.kept? call = some (.signature id)) ∨
    ∃ draft b, call.Makes host s.program.types draft ∧ (q.exec s).1 = .ok b ∧
      encode b = .signature (s.stored draft).1 ∧
        Session.SameTables (s.stored draft).2 (q.exec s).2

section Giving

variable {host : Host} {β γ : Type} {encode : β → Reply SigId} {call : Call} {s s' t : Session}

/-- What a draft is stored as does not depend on the memo tables. -/
theorem Session.SameTables.stored (h : SameTables s s') (draft : Draft) :
    (s.stored draft).1 = (s'.stored draft).1 ∧ SameTables (s.stored draft).2 (s'.stored draft).2 := by
  obtain ⟨same, tables⟩ := h.settle (.ok (.signature draft))
  exact ⟨Reply.signature.inj (Except.ok.inj same), tables⟩

/-- What is found afresh is drafted and stored. -/
theorem Query.Settles.gives {q : Query β} {drafted : TypePool → Except Fault (Reply Draft)}
    (settles : q.Settles encode drafted)
    (made : ∀ pool draft, drafted pool = .ok (.signature draft) → call.Makes host pool draft) :
    q.Gives host encode call := by
  intro s
  have run := settles s
  rw [exec_map] at run
  have state : (q.exec s).2 = (s.settle (drafted s.program.types)).2 := congrArg (·.2) run
  have given : (q.exec s).1.map encode = (s.settle (drafted s.program.types)).1 :=
    congrArg (·.1) run
  cases hdrafted : drafted s.program.types with
  | error fault =>
    rw [hdrafted] at state given
    refine .inl ⟨state ▸ .refl s, ?_⟩
    intro b id answer
    rw [answer] at given
    exact nomatch given
  | ok reply =>
    rw [hdrafted] at state given
    cases reply with
    | signature draft =>
      obtain ⟨b, answer⟩ : ∃ b, (q.exec s).1 = .ok b := by
        cases h : (q.exec s).1 with
        | error fault =>
          rw [h] at given
          exact nomatch given
        | ok b => exact ⟨b, rfl⟩
      rw [answer] at given
      exact .inr ⟨draft, b, made _ draft hdrafted, answer, Except.ok.inj given, state ▸ .refl _⟩
    -- nothing else is stored, and nothing else is a signature
    | decision _ | failure _ | nothing =>
      refine .inl ⟨state ▸ .refl s, ?_⟩
      intro b id answer eq
      rw [answer] at given
      exact nomatch eq.symm.trans (Except.ok.inj given)

/-- A query may be asked after another one that stores nothing and leaves what is kept for it. -/
theorem Query.Gives.after {q : Query γ} {f : γ → Query β} (h : ∀ b, (f b).Gives host encode call)
    (tables : ∀ s, Session.SameTables s (q.exec s).2)
    (kept : ∀ s : Session, (q.exec s).2.memo.kept? call = s.memo.kept? call) :
    (q >>= f).Gives host encode call := by
  intro s
  rw [exec_bind]
  have same := tables s
  have keeps := kept s
  rcases hq : q.exec s with ⟨fault | c, t⟩ <;> rw [hq] at same keeps
  -- a fault of the first query ends the second one before it starts
  · exact .inl ⟨same, fun _ _ eq => nomatch eq⟩
  · rcases h c t with ⟨tables', found⟩ | ⟨draft, b, makes, answer, eq, tables'⟩
    · refine .inl ⟨same.trans tables', ?_⟩
      intro b id answer eq
      exact keeps ▸ found b id answer eq
    · obtain ⟨id, stored⟩ := same.stored draft
      exact .inr ⟨draft, b, same.1 ▸ makes, answer, id ▸ eq, stored.trans tables'⟩

/-- A query that uses a table gives what its computation gives. -/
theorem Query.Gives.memoized {κ : Type} [DecidableEq κ] {slot : MemoSlot κ β} {key : κ}
    {compute : Query β} (answers : slot.Answers key encode call)
    (computed : compute.Gives host encode call)
    (untouched : ∀ s, slot.view (compute.exec s).2.memo = slot.view s.memo) :
    (Query.memoized slot key compute).Gives host encode call := by
  intro s
  rcases answers.hit_or_miss untouched s with hit | miss
  · refine .inl ⟨hit.tables, ?_⟩
    intro b id answer eq
    obtain ⟨kept, find, given⟩ := hit.found
    obtain rfl := Except.ok.inj (given.symm.trans answer)
    rw [answers.kept, find, ← eq]
    rfl
  · -- to count the question changes nothing that the computation reads
    have same : Session.SameTables s (Query.missed slot s) := ⟨rfl, rfl⟩
    rcases computed (Query.missed slot s) with
      ⟨tables, found⟩ | ⟨draft, b, makes, answer, eq, tables⟩
    · refine .inl ⟨same.trans (tables.trans miss.tables), ?_⟩
      intro b id answer eq
      rw [← answers.kept?_missed s call]
      exact found b id (miss.answer ▸ answer) eq
    · obtain ⟨id, stored⟩ := same.stored draft
      exact .inr ⟨draft, b, makes, miss.answer.trans answer, id ▸ eq,
        stored.trans (tables.trans miss.tables)⟩

theorem Query.Gives.map {q : Query β} (h : q.Gives host encode call) :
    (encode <$> q).Gives host (fun reply => reply) call := by
  intro s
  rw [exec_map]
  rcases h s with ⟨tables, found⟩ | ⟨draft, b, makes, answer, eq, tables⟩
  · refine .inl ⟨tables, ?_⟩
    intro reply id given eq
    cases answer : (q.exec s).1 with
    | error fault =>
      rw [answer] at given
      exact nomatch given
    | ok b =>
      rw [answer] at given
      exact found b id answer ((Except.ok.inj given).trans eq)
  · exact .inr ⟨draft, encode b, makes, by rw [answer]; rfl, eq, tables⟩

end Giving

section Queries

variable (host : Host)

/-- To ask for a need stores nothing. -/
theorem tables_need (ty : TypeId) (name : Name) (parenless : Bool) (s : Session) :
    Session.SameTables s ((Session.need host ty name parenless).exec s).2 := by
  unfold Session.need
  split
  · exact .refl s
  · have untouched : ∀ s, MemoSlot.need.view
        ((Session.needAfresh host ty name parenless).exec s).2.memo = MemoSlot.need.view s.memo := by
      intro s
      rw [exec_needAfresh]
    rcases (MemoSlot.answers_need ty name parenless).hit_or_miss untouched s with hit | miss
    · exact hit.tables
    · have tables := miss.tables
      rw [exec_needAfresh] at tables
      exact tables

theorem gives_method (ty : TypeId) (name : Name) (parenless : Bool) :
    (Session.method host ty name parenless).Gives host .ofMethod (.method ty name parenless) := by
  have synthesized : ∀ needed, (Session.synthesize host ty name needed).Gives host .ofMethod
      (.method ty name parenless) := by
    intro needed
    refine (settles_synthesize host ty name needed).gives fun pool draft h => ?_
    exact .method (Call.draftSynthesis_eq_signature h).2
  refine Query.Gives.memoized (MemoSlot.answers_methods ty name parenless) ?_
    (methods_methodComputed host ty name parenless)
  exact Query.Gives.after synthesized (tables_need host ty name parenless)
    (kept?_need_of_ne host fun h => nomatch h)

theorem gives_binaryOp (lhs rhs : Qualified) (name : Name) :
    (Session.binaryOp lhs rhs name).Gives host .ofOption (.binaryOp lhs rhs name) := by
  have settles := settles_binaryOpAfresh host lhs rhs name
  refine Query.Gives.memoized (MemoSlot.answers_binaryOps lhs rhs name) ?_
    fun s => congrArg MemoTables.binaryOps (settles.memo_eq s)
  refine settles.gives fun pool draft h => ?_
  obtain ⟨found, hfound, eq⟩ := bind_eq_ok.1 h
  rw [Reply.eq_some_of_ofOption (Except.ok.inj eq)] at hfound
  exact .binaryOp hfound

theorem gives_accessor {ty : TypeId} (known : ty.isUnknown = false) (field : Name) :
    (Session.accessor host (some ty) field).Gives host .ofOption (.accessor (some ty) field) := by
  have settles := settles_accessorAfresh host known field
  unfold Session.accessor
  rw [Option.filter_some, known]
  refine Query.Gives.memoized (MemoSlot.answers_accessors known field) ?_
    fun s => congrArg MemoTables.accessors (settles.memo_eq s)
  refine settles.gives fun pool draft h => ?_
  rw [Call.draft_accessor_eq known] at h
  obtain ⟨found, hfound, eq⟩ := bind_eq_ok.1 h
  rw [Reply.eq_some_of_ofOption (Except.ok.inj eq)] at hfound
  exact .accessor hfound

/-- A query gives a signature that is kept for it, or one that it has drafted. -/
theorem gives_ask (call : Call) : (call.ask host).Gives host (fun reply => reply) call := by
  cases call with
  | need ty name parenless =>
    intro s
    rw [Call.ask, Query.exec_map]
    refine .inl ⟨tables_need host ty name parenless s, ?_⟩
    intro b id answer eq
    cases needed : ((Session.need host ty name parenless).exec s).1 with
    | error fault =>
      rw [needed] at answer
      cases answer
    | ok needed' =>
      rw [needed] at answer
      cases (Except.ok.inj answer).trans eq
  | method ty name parenless => exact (gives_method host ty name parenless).map
  | binaryOp lhs rhs name => exact (gives_binaryOp host lhs rhs name).map
  | accessor ty field =>
    rcases ty with _ | (_ | handle)
    · refine fun s => .inl ⟨.refl s, fun b id answer eq => ?_⟩
      cases (Except.ok.inj answer).trans eq
    · refine fun s => .inl ⟨.refl s, fun b id answer eq => ?_⟩
      cases (Except.ok.inj answer).trans eq
    · exact (gives_accessor host rfl field).map

/-- No query changes a declaration, whether it has an answer or not. -/
theorem decls_ask (call : Call) (s : Session) :
    ((call.ask host).exec s).2.program.decls = s.program.decls := by
  rcases gives_ask host call s with ⟨tables, -⟩ | ⟨draft, -, -, -, -, tables⟩
  · rw [tables.1]
  · rw [← tables.1]
    rfl

end Queries

/-! ## What drafts borrow

The types of a draft that may be new are borrowed classes, and a draft borrows one class at most. -/

namespace TypePool

variable {pool : TypePool} {ty form : TypeId}

/-- The forms in which methods receive a type: without its decorator, or in the generic form that this
instantiates. -/
inductive ReceivedAs (pool : TypePool) (ty : TypeId) : TypeId → Prop
  | undecorated {basic : TypeId} : pool.undecorated ty = .ok basic → ReceivedAs pool ty basic
  | generic {basic form : TypeId} : pool.undecorated ty = .ok basic →
      pool.genericRoot basic = .ok form → ReceivedAs pool ty form

/-- A receiver is given as it is, or it borrows the class that it is a form of. -/
theorem lifecycleReceiver_cases {receiver : Binding × DraftType}
    (h : pool.lifecycleReceiver form = .ok receiver) :
    (∃ given, receiver.2 = .given given) ∨
      ∃ basic, pool.basicClass? form = .ok (some basic) ∧ receiver.2 = .borrowed basic := by
  obtain ⟨isClass, hclass, h⟩ := bind_eq_ok.1 h
  cases isClass with
  | false =>
    obtain rfl := Except.ok.inj h
    exact .inl ⟨form, rfl⟩
  | true =>
    obtain ⟨basic, hbasic, h⟩ := bind_eq_ok.1 h
    obtain rfl := Except.ok.inj h
    obtain ⟨data, stored, rfl⟩ := undecorated_eq_ok_iff.1 hbasic
    rw [isClass_eq_ok stored] at hclass
    refine .inr ⟨_, ?_, rfl⟩
    rw [basicClass?_eq_ok stored]
    -- only a class has another form without its decorator
    cases data with
    | decorated basic _ => rfl
    | composite c =>
      obtain ⟨ck, _, _, _, _, _⟩ := c
      cases ck with
      | classType => rfl
      | _ => exact nomatch hclass
    | _ => exact nomatch hclass

end TypePool

/-- All that a draft borrows is one class, in a form in which methods receive the type. -/
inductive Draft.Borrows (pool : TypePool) (ty : TypeId) (draft : Draft) : Prop
  | nothing : (∀ formal ∈ draft.formals, ∀ basic, formal.type ≠ .borrowed basic) → Borrows pool ty draft
  | form {form basic : TypeId} : pool.ReceivedAs ty form → pool.basicClass? form = .ok (some basic) →
      (∀ formal ∈ draft.formals, ∀ b, formal.type = .borrowed b → b = basic) → Borrows pool ty draft

section Borrowing

variable {host : Host} {pool : TypePool} {ty form : TypeId} {name : Name} {draft : Draft}

theorem Draft.Borrows.of_lifecycle {receiver : Binding × DraftType}
    (h : pool.lifecycleReceiver form = .ok receiver) (received : pool.ReceivedAs ty form)
    (types : ∀ formal ∈ draft.formals, formal.type = receiver.2 ∨ ∃ t, formal.type = .given t) :
    draft.Borrows pool ty := by
  rcases TypePool.lifecycleReceiver_cases h with ⟨t, given⟩ | ⟨basic, hbasic, borrowed⟩
  · refine .nothing fun formal mem b eq => ?_
    rcases types formal mem with same | ⟨t', given'⟩
    · exact nomatch (eq.symm.trans same).trans given
    · exact nomatch eq.symm.trans given'
  · refine .form received hbasic fun formal mem b eq => ?_
    rcases types formal mem with same | ⟨t', given⟩
    · exact DraftType.borrowed.inj ((eq.symm.trans same).trans borrowed)
    · exact nomatch eq.symm.trans given

theorem borrows_draftInit (h : (host.draftInit pool ty).run = .ok (.ok draft)) :
    draft.Borrows pool ty := by
  obtain ⟨⟨basic, comp⟩, parts, h⟩ := draft_bind_eq_ok.1 h
  obtain ⟨generic, root, h⟩ := draft_bind_eq_ok.1 h
  obtain ⟨fields, -, h⟩ := draft_bind_eq_ok.1 h
  dsimp only at h
  split at h
  · exact absurd h not_throw_eq_ok
  split at h
  · exact absurd h not_throw_eq_ok
  obtain ⟨⟨binding, receiver⟩, hreceiver, h⟩ := draft_bind_eq_ok.1 h
  obtain ⟨formals, hformals, h⟩ := draft_bind_eq_ok.1 h
  obtain rfl := Except.ok.inj (Except.ok.inj h)
  refine .of_lifecycle (draft_lift_eq_ok.1 hreceiver)
    (.generic (TypePool.compositeParts_eq_ok parts).1 (draft_lift_eq_ok.1 root)) fun formal mem => ?_
  -- the formals of the fields have given types
  rcases List.mem_cons.1 mem with rfl | mem
  · exact .inl rfl
  · obtain ⟨field, -, type⟩ := given_of_mem_initFormals (draft_lift_eq_ok.1 hformals) mem
    exact .inr ⟨_, type⟩

theorem borrows_draftInitCopy (h : (host.draftInitCopy pool ty).run = .ok (.ok draft)) :
    draft.Borrows pool ty := by
  obtain ⟨⟨basic, comp⟩, parts, h⟩ := draft_bind_eq_ok.1 h
  obtain ⟨⟨binding, receiver⟩, hreceiver, h⟩ := draft_bind_eq_ok.1 h
  obtain rfl := Except.ok.inj (Except.ok.inj h)
  refine .of_lifecycle (draft_lift_eq_ok.1 hreceiver)
    (.undecorated (TypePool.compositeParts_eq_ok parts).1) fun formal mem => ?_
  rcases List.mem_pair.1 mem with rfl | rfl <;> exact .inl rfl

theorem borrows_draftDeinit (h : (host.draftDeinit pool ty).run = .ok (.ok draft)) :
    draft.Borrows pool ty := by
  obtain ⟨⟨basic, comp⟩, parts, h⟩ := draft_bind_eq_ok.1 h
  obtain ⟨⟨binding, receiver⟩, hreceiver, h⟩ := draft_bind_eq_ok.1 h
  obtain rfl := Except.ok.inj (Except.ok.inj h)
  refine .of_lifecycle (draft_lift_eq_ok.1 hreceiver)
    (.undecorated (TypePool.compositeParts_eq_ok parts).1) fun formal mem => ?_
  obtain rfl := List.mem_singleton.1 mem
  exact .inl rfl

theorem borrows_draftRecordOperator
    (h : (host.draftRecordOperator pool ty name).run = .ok (.ok draft)) : draft.Borrows pool ty := by
  obtain ⟨⟨_, comp⟩, -, h⟩ := draft_bind_eq_ok.1 h
  obtain ⟨generic, -, h⟩ := draft_bind_eq_ok.1 h
  obtain ⟨genericity, -, h⟩ := draft_bind_eq_ok.1 h
  obtain rfl := Except.ok.inj (Except.ok.inj h)
  exact .nothing (by simp [DraftFormal.plain])

theorem borrows_draftMethod (h : (host.draftMethod pool ty name).run = .ok (.ok draft)) :
    draft.Borrows pool ty := by
  unfold Host.draftMethod at h
  split at h
  · exact borrows_draftInit h
  split at h
  · exact borrows_draftInitCopy h
  split at h
  · exact borrows_draftDeinit h
  obtain ⟨kind, -, h⟩ := draft_bind_eq_ok.1 h
  cases kind with
  | tuple | domain | array | cPtr =>
    obtain rfl := Except.ok.inj (Except.ok.inj h)
    exact .nothing (by simp [Draft.query, DraftFormal.plain])
  | record =>
    dsimp only at h
    split at h
    · exact borrows_draftRecordOperator h
    · exact absurd h not_throw_eq_ok
  | _ => exact absurd h not_throw_eq_ok

theorem borrows_draftAccessor {field : Name} (h : host.draftAccessor pool ty field = .ok (some draft)) :
    draft.Borrows pool ty := by
  obtain ⟨basic, hbasic, h⟩ := bind_eq_ok.1 h
  obtain ⟨comp, hcomp, h⟩ := bind_eq_ok.1 h
  cases comp with
  | none => exact nomatch h
  | some comp =>
    obtain ⟨id, -, h⟩ := bind_eq_ok.1 h
    cases id with
    | none => exact nomatch h
    | some id =>
      obtain rfl := Option.some.inj (Except.ok.inj h)
      by_cases class? : comp.kind = .classType
      · have stored := TypePool.composite?_eq_ok_some_iff.1 hcomp
        have form : pool.basicClass? basic = .ok (some basic) := by
          rw [TypePool.basicClass?_eq_ok stored, TypeData.basicClass?, if_pos class?]
        exact .form (.undecorated hbasic) form (by simp [DraftFormal.plain, class?])
      · exact .nothing (by simp [DraftFormal.plain, class?])

theorem not_borrowed_of_draftBinaryOp {lhs rhs : TypeId}
    (h : pool.draftBinaryOp lhs rhs name = .ok (some draft)) {formal : DraftFormal}
    (mem : formal ∈ draft.formals) (basic : TypeId) : formal.type ≠ .borrowed basic := by
  obtain ⟨-, cast⟩ := TypePool.castDraft_of_eq_ok h
  cases cast with
  | fromEnum _ _ | toEnum _ _ _ =>
    rcases List.mem_pair.1 mem with rfl | rfl <;> exact (nomatch ·)

end Borrowing

/-- What the query is asked about, if it is one type. -/
def Call.subject? : Call → Option TypeId
  | .need ty _ _ | .method ty _ _ => some ty
  | .binaryOp _ _ _ => none
  | .accessor ty _ => ty

/-- A draft borrows nothing but a form of the type that the query is asked about. -/
theorem Call.Makes.borrows {host : Host} {pool : TypePool} {call : Call} {draft : Draft}
    (h : call.Makes host pool draft) :
    (∀ formal ∈ draft.formals, ∀ basic, formal.type ≠ .borrowed basic) ∨
      ∃ ty, call.subject? = some ty ∧ draft.Borrows pool ty := by
  cases h with
  | method h => exact .inr ⟨_, rfl, borrows_draftMethod h⟩
  | binaryOp h => exact .inl fun formal mem => not_borrowed_of_draftBinaryOp h mem
  | accessor h => exact .inr ⟨_, rfl, borrows_draftAccessor h⟩

/-! ## What is stored for a draft -/

namespace InternTable

variable {α : Type}

/-- A table after at most one value was stored. -/
def AddsAtMostOne (t t' : InternTable α) : Prop :=
  t' = t ∨ ∃ entry, t' = { t with entries := entry :: t.entries }

theorem AddsAtMostOne.refl (t : InternTable α) : t.AddsAtMostOne t := .inl rfl

variable [DecidableEq α]

theorem addsAtMostOne_intern (t : InternTable α) (v : α) : t.AddsAtMostOne (t.intern v).2 := by
  obtain ⟨h, -, eq⟩ | ⟨-, eq⟩ := t.intern_cases v <;> rw [eq]
  · exact .refl t
  · exact .inr ⟨_, rfl⟩

/-- To intern a value twice adds it once. -/
theorem intern_intern (t : InternTable α) (v : α) : ((t.intern v).2.intern v).2 = (t.intern v).2 := by
  have found : ∃ h, (t.intern v).2.find? v = some h := by
    obtain ⟨h, found, eq⟩ | ⟨-, eq⟩ := t.intern_cases v <;> rw [eq]
    · exact ⟨h, found⟩
    · exact ⟨t.freshHandle v, by simp [find?]⟩
  obtain ⟨h, found⟩ := found
  generalize (t.intern v).2 = after at found ⊢
  simp [intern, found]

end InternTable

namespace DraftFormal

variable {formals : List DraftFormal} {pool : TypePool}

theorem storeTypes_of_not_borrowed
    (given : ∀ formal ∈ formals, ∀ basic, formal.type ≠ .borrowed basic) :
    (storeTypes pool formals).2 = pool := by
  induction formals with
  | nil => rfl
  | cons formal formals ih =>
    have first : (formal.type.store pool).2 = pool := by
      cases type : formal.type with
      | given ty => rfl
      | borrowed basic => exact absurd type (given formal List.mem_cons_self basic)
    rw [storeTypes]
    dsimp only
    rw [first]
    exact ih fun f mem => given f (List.mem_cons_of_mem _ mem)

/-- When all that is borrowed is one class, its borrowed form is all that is stored. -/
theorem storeTypes_of_borrowed {basic : TypeId}
    (same : ∀ formal ∈ formals, ∀ b, formal.type = .borrowed b → b = basic) :
    (storeTypes pool formals).2 = pool ∨
      (storeTypes pool formals).2 = (pool.intern (.decorated basic .borrowedNonNil)).2 := by
  induction formals generalizing pool with
  | nil => exact .inl rfl
  | cons formal formals ih =>
    have rest := fun pool => @ih pool fun f mem => same f (List.mem_cons_of_mem _ mem)
    rw [storeTypes]
    dsimp only
    cases type : formal.type with
    | given ty => exact rest pool
    | borrowed b =>
      -- from here on the borrowed form is there, and is found again
      obtain rfl := same formal List.mem_cons_self b type
      have again : ((pool.intern (.decorated b .borrowedNonNil)).2.intern
          (.decorated b .borrowedNonNil)).2 = (pool.intern (.decorated b .borrowedNonNil)).2 :=
        congrArg TypePool.mk (pool.table.intern_intern _)
      rcases rest (pool.intern (.decorated b .borrowedNonNil)).2 with eq | eq
      · exact .inr eq
      · exact .inr (eq.trans again)

end DraftFormal

/-- A draft leaves the pool of types as it is, or as decorating the form that it borrows does. -/
theorem Draft.Borrows.storeTypes {pool : TypePool} {ty : TypeId} {draft : Draft}
    (h : draft.Borrows pool ty) :
    (DraftFormal.storeTypes pool draft.formals).2 = pool ∨
      ∃ form borrowed, pool.ReceivedAs ty form ∧ pool.decorate form .borrowedNonNil =
        .ok (borrowed, (DraftFormal.storeTypes pool draft.formals).2) := by
  cases h with
  | nothing given => exact .inl (DraftFormal.storeTypes_of_not_borrowed given)
  | @form form basic received hbasic same =>
    refine (DraftFormal.storeTypes_of_borrowed same).imp_right fun stored => ?_
    refine ⟨form, (pool.intern (.decorated basic .borrowedNonNil)).1, received, ?_⟩
    rw [TypePool.decorate, hbasic, stored]
    rfl

/-! ## Queries that are asked again

The first answer is kept under the key of the query, whatever the answer is, and is found there. A query
about no type is answered without a table. -/

/-- The tables after a query was answered from its own one. -/
def Call.hit : Call → MemoTables → MemoTables
  | .need _ _ _, m => { m with need := m.need.hit }
  | .method _ _ _, m => { m with methods := m.methods.hit }
  | .binaryOp _ _ _, m => { m with binaryOps := m.binaryOps.hit }
  | .accessor _ _, m => { m with accessors := m.accessors.hit }

/-- A query whose reply is kept gives that reply, and counts a hit. -/
theorem exec_ask_of_kept (host : Host) {call : Call} {reply : Reply SigId} {s : Session}
    (counted : ∀ r, ¬ call.Uncounted r) (kept : s.memo.kept? call = some reply) :
    (call.ask host).exec s = (.ok reply, { s with memo := call.hit s.memo }) := by
  cases call with
  | need ty name parenless =>
    cases ty with
    | unknown => exact absurd .need (counted _)
    | known handle =>
      obtain ⟨value, found, rfl⟩ := Option.map_eq_some_iff.1 kept
      have isKnown : ¬ (TypeId.known handle).isUnknown = true := Bool.false_ne_true
      rw [Call.ask, Query.exec_map, Session.need, if_neg isKnown, Query.exec_memoized_of_some found]
      rfl
  | method ty name parenless =>
    obtain ⟨value, found, rfl⟩ := Option.map_eq_some_iff.1 kept
    rw [Call.ask, Query.exec_map, Session.method, Query.exec_memoized_of_some found]
    rfl
  | binaryOp lhs rhs name =>
    obtain ⟨value, found, rfl⟩ := Option.map_eq_some_iff.1 kept
    rw [Call.ask, Query.exec_map, Session.binaryOp, Query.exec_memoized_of_some found]
    rfl
  | accessor ty field =>
    rcases ty with _ | (_ | handle)
    · exact absurd .noType (counted _)
    · exact absurd .accessor (counted _)
    · obtain ⟨value, found, rfl⟩ := Option.map_eq_some_iff.1 kept
      have ask : Session.accessor host (some (.known handle)) field =
          .memoized .accessors ⟨.known handle, field⟩
            (Session.accessorAfresh host (.known handle) field) := rfl
      rw [Call.ask, Query.exec_map, ask, Query.exec_memoized_of_some found]
      rfl

/-- A query that was answered has the same answer when it is asked again, of any host, and counts a hit
at most. -/
theorem exec_ask_again (host host' : Host) {call : Call} {reply : Reply SigId} {s : Session}
    (answer : ((call.ask host).exec s).1 = .ok reply) :
    ∃ memo, (call.ask host').exec ((call.ask host).exec s).2 =
        (.ok reply, { ((call.ask host).exec s).2 with memo }) ∧
      (memo = ((call.ask host).exec s).2.memo ∨ memo = call.hit ((call.ask host).exec s).2.memo) := by
  by_cases counted : ∀ r, ¬ call.Uncounted r
  · rcases isKept_ask call with kept | ⟨r, uncounted⟩
    · have now := (kept host).kept_eq s
      rw [answer] at now
      exact ⟨_, exec_ask_of_kept host' counted now, .inr rfl⟩
    · exact absurd uncounted (counted r)
  · -- what is answered without a table leaves the session as it is
    obtain ⟨r, uncounted⟩ : ∃ r, call.Uncounted r := by simpa using counted
    rw [uncounted.exec_ask] at answer ⊢
    rw [uncounted.exec_ask]
    obtain rfl := Except.ok.inj answer
    exact ⟨_, rfl, .inl rfl⟩

/-! ## The footprint of a query -/

/-- What a query that is given a reply has changed. -/
structure Session.Footprint (call : Call) (s s' : Session) (reply : Reply SigId) : Prop where
  /-- Declarations and scopes are as they were. -/
  decls : s'.program.decls = s.program.decls
  names : s'.program.names = s.program.names
  /-- Whatever is no signature leaves the pools as they were. -/
  unsigned : (∀ id, reply ≠ .signature id) →
    s'.program.types = s.program.types ∧ s'.signatures = s.signatures
  /-- The one type that may be made is the borrowed form of the class that the query is asked about, or
  of the class that it instantiates. -/
  types : s'.program.types = s.program.types ∨ ∃ ty form borrowed, call.subject? = some ty ∧
    s.program.types.ReceivedAs ty form ∧
      s.program.types.decorate form .borrowedNonNil = .ok (borrowed, s'.program.types)
  oneType : s.program.types.table.AddsAtMostOne s'.program.types.table
  oneUntyped : s.signatures.untypedTable.AddsAtMostOne s'.signatures.untypedTable
  oneTyped : s.signatures.typedTable.AddsAtMostOne s'.signatures.typedTable

theorem TypePool.addsAtMostOne_decorate {pool pool' : TypePool} {ty made : TypeId}
    {decorator : Decorator} (h : pool.decorate ty decorator = .ok (made, pool')) :
    pool.table.AddsAtMostOne pool'.table := by
  obtain ⟨class?, -, h⟩ := bind_eq_ok.1 h
  cases class? with
  | none =>
    obtain ⟨-, rfl⟩ := Prod.mk.inj (Except.ok.inj h)
    exact .refl _
  | some basic =>
    obtain rfl := congrArg (·.2) (Except.ok.inj h)
    exact pool.table.addsAtMostOne_intern _

namespace Session.Footprint

variable {call : Call} {s t t' : Session} {reply : Reply SigId}

/-- What is changed is told by the program and the signatures. -/
theorem of_sameTables (h : s.Footprint call t reply) (same : SameTables t t') :
    s.Footprint call t' reply := by
  obtain ⟨program, signatures, memo⟩ := t
  obtain ⟨program', signatures', memo'⟩ := t'
  obtain ⟨rfl, rfl⟩ : program = program' ∧ signatures = signatures' := same
  exact ⟨h.decls, h.names, h.unsigned, h.types, h.oneType, h.oneUntyped, h.oneTyped⟩

theorem refl (call : Call) (s : Session) (reply : Reply SigId) : s.Footprint call s reply where
  decls := rfl
  names := rfl
  unsigned _ := ⟨rfl, rfl⟩
  types := .inl rfl
  oneType := .refl _
  oneUntyped := .refl _
  oneTyped := .refl _

/-- A draft of the query is stored with the type that it borrows. -/
theorem stored {host : Host} {draft : Draft} (made : call.Makes host s.program.types draft) :
    s.Footprint call (s.stored draft).2 (.signature (s.stored draft).1) := by
  have types : (s.stored draft).2.program.types = s.program.types ∨
      ∃ ty form borrowed, call.subject? = some ty ∧ s.program.types.ReceivedAs ty form ∧
        s.program.types.decorate form .borrowedNonNil =
          .ok (borrowed, (s.stored draft).2.program.types) := by
    rcases made.borrows with given | ⟨ty, subject, borrows⟩
    · exact .inl (DraftFormal.storeTypes_of_not_borrowed given)
    · rcases borrows.storeTypes with same | ⟨form, borrowed, received, decorated⟩
      · exact .inl same
      · exact .inr ⟨ty, form, borrowed, subject, received, decorated⟩
  refine ⟨rfl, rfl, fun none => absurd rfl (none _), types, ?_, ?_, ?_⟩
  · rcases types with same | ⟨_, _, _, -, -, decorated⟩
    · rw [same]
      exact .refl _
    · exact TypePool.addsAtMostOne_decorate decorated
  · exact s.signatures.untypedTable.addsAtMostOne_intern draft.untyped
  · exact s.signatures.typedTable.addsAtMostOne_intern _

end Session.Footprint

/-- A query that has an answer leaves no partial result behind: declarations and names are as before, the
pools are too unless the answer is a signature, and a signature adds at most itself and the borrowed
form of its class. The same query asked again has the same answer, and changes one count of hits at
most. -/
theorem query_footprint (host host' : Host) (call : Call) (s : Session) (reply : Reply SigId)
    (answer : ((call.ask host).exec s).1 = .ok reply) :
    s.Footprint call ((call.ask host).exec s).2 reply ∧
      ∃ memo, (call.ask host').exec ((call.ask host).exec s).2 =
          (.ok reply, { ((call.ask host).exec s).2 with memo }) ∧
        (memo = ((call.ask host).exec s).2.memo ∨
          memo = call.hit ((call.ask host).exec s).2.memo) := by
  refine ⟨?_, exec_ask_again host host' answer⟩
  rcases gives_ask host call s with ⟨tables, -⟩ | ⟨draft, b, made, given, rfl, tables⟩
  · exact (Session.Footprint.refl call s reply).of_sameTables tables
  · -- what was drafted is what is answered
    obtain rfl := Except.ok.inj (given.symm.trans answer)
    exact (Session.Footprint.stored made).of_sameTables tables

/-- The question for the initializer of a class, asked over a program that has no borrowed form of the
class yet. -/
def askedClassInit : Except Fault (Reply SigId) × Session :=
  ((Call.method (.known ⟨1, 0⟩) .init false).ask oneClass.decls.host).exec (.start oneClass .bySize)

/-- The initializer takes the borrowed form of the class, which is made for it. -/
theorem oneClass_init_footprint :
    askedClassInit.1 = .ok (.signature ⟨⟨1, 0⟩⟩) ∧
      askedClassInit.2.program.types.size = oneClass.types.size + 1 ∧
      (Session.start oneClass .bySize).Footprint (.method (.known ⟨1, 0⟩) .init false) askedClassInit.2
        (.signature ⟨⟨1, 0⟩⟩) ∧
      ∃ memo, ((Call.method (.known ⟨1, 0⟩) .init false).ask oneClass.decls.host).exec
            askedClassInit.2 = (.ok (.signature ⟨⟨1, 0⟩⟩), { askedClassInit.2 with memo }) ∧
          (memo = askedClassInit.2.memo ∨
            memo = Call.hit (.method (.known ⟨1, 0⟩) .init false) askedClassInit.2.memo) := by
  have answer : askedClassInit.1 = .ok (.signature ⟨⟨1, 0⟩⟩) := by cbv
  exact ⟨answer, by cbv, query_footprint oneClass.decls.host oneClass.decls.host
    (.method (.known ⟨1, 0⟩) .init false) (.start oneClass .bySize) _ answer⟩

end MethodSynthesis
