import MethodSynthesis.Proofs.SignatureShapes

/-!
# Methods that share a signature

A method is synthesized over a form of its type (`TypePool.receiverForm`): its first formal receives
that form, and its draft is the one of the form, apart from what an operator of records says on
genericity (`TypePool.Sound.exists_receiverForm`). A stored signature in turn shows its name, the form
that it receives and whether it has to be instantiated. So two requests for methods share a signature
exactly if they agree in name and receiver form, and for operators of records in genericity
(`shared_signature_iff`).

The statement is about sessions whose declarations are held fixed. Types may be made and queries asked
at all times (`Session.HeldStep`).
-/

set_option autoImplicit false

namespace MethodSynthesis

variable {host : Host} {pool : TypePool} {ty ty' basic form form' : TypeId} {data : TypeData}
  {c : Composite} {name name' : Name} {parenless parenless' : Bool} {draft draft' : Draft}

/-! ## Receiver forms -/

namespace TypePool

/-- The form of a type that a method of this name is synthesized over. The default initializer and the
operators of records are over the generic form, the other lifecycle methods over the undecorated form,
and queries over the type itself. -/
def receiverForm (pool : TypePool) (ty : TypeId) (name : Name) : Except Fault TypeId :=
  if name = .init || name.isRecordOperator then do pool.genericRoot (← pool.undecorated ty)
  else if name.isLifecycleMethod then pool.undecorated ty
  else return ty

/-- How a formal receives a form: a class as borrowed, any other type as it is. -/
inductive ReceivesForm (pool : TypePool) (form : TypeId) : DraftType → Prop
  | given {data : TypeData} : pool.read? form = some data → data.kind.isClass = false →
      ReceivesForm pool form (.given form)
  | borrowed : ReceivesForm pool form (.borrowed form)

/-- What is stored for a receiver tells the form that it receives. -/
theorem ReceivesForm.form_eq {type type' : DraftType} {received : TypeId}
    (h : pool.ReceivesForm form type) (h' : pool.ReceivesForm form' type')
    (stored : type.IsStoredAs pool received) (stored' : type'.IsStoredAs pool received) :
    form = form' := by
  -- a form that is received as it is has no decorator, and each borrow has one
  have not_borrow {ty basic : TypeId} {data : TypeData} (there : pool.read? ty = some data)
      (noClass : data.kind.isClass = false) :
      pool.read? ty ≠ some (.decorated basic .borrowedNonNil) := by
    intro decorated
    obtain rfl := Option.some.inj (there.symm.trans decorated)
    exact nomatch noClass
  cases h with
  | given there noClass =>
    obtain rfl : received = form := stored
    cases h' with
    | given _ _ => exact stored'
    | borrowed => exact absurd stored' (not_borrow there noClass)
  | borrowed =>
    cases h' with
    | given there noClass =>
      obtain rfl : received = form' := stored'
      exact absurd stored (not_borrow there noClass)
    | borrowed => exact (TypeData.decorated.inj (Option.some.inj (stored.symm.trans stored'))).1

theorem receivesForm_receiver {c' : Composite} (stored : pool.read? form = some (.composite c'))
    (kind : c'.kind = c.kind) : pool.ReceivesForm form (c.receiver form).type := by
  by_cases class? : c.kind = .classType
  · rw [Composite.receiver, if_pos class?]
    exact .borrowed
  · rw [Composite.receiver, if_neg class?]
    exact .given stored (by rw [isClass_composite, kind, decide_eq_false class?])

/-- The builtin types that answer queries are neither classes nor other composites. -/
theorem noComposite_of_queriedKind? {kind : DeclKind} (queried : data.kind.queriedKind? = some kind)
    (ty : TypeId) :
    data.kind.isClass = false ∧ data.basicClass? ty = none ∧ data.composite? = none := by
  cases data with
  | composite c =>
    obtain ⟨kind', _, _, _, _, _⟩ := c
    cases kind' <;> exact nomatch queried
  | decorated _ _ | enumeration _ | primitive _ => exact nomatch queried
  | tuple _ | array _ _ | rectangular _ _ _ | associative _ _ | cPtr _ => exact ⟨rfl, rfl, rfl⟩

theorem receiverForm_of_queried {kind : DeclKind} (stored : pool.read? ty = some data)
    (queried : data.kind.queriedKind? = some kind) (other : name.isLifecycleMethod = false) :
    pool.receiverForm ty name = .ok ty := by
  obtain ⟨-, noClass, noComposite⟩ := noComposite_of_queriedKind? queried ty
  have itself : pool.undecorated ty = .ok ty := by
    rw [undecorated_eq_ok stored, noClass]
    rfl
  have root : pool.genericRoot ty = .ok ty := by
    rw [genericRoot, read_eq_ok_iff.2 stored]
    cases data with
    | composite c => cases noComposite
    | _ => rfl
  rw [receiverForm, itself, ok_bind, root, other, if_neg Bool.false_ne_true]
  split <;> rfl

end TypePool

/-! ## Drafts of receiver forms -/

/-- The host that calls every type generic, or none. -/
def Host.assuming (host : Host) (generic : Bool) : Host :=
  { host with genericity := fun _ _ => .ok (if generic then .generic else .concrete) }

/-- The draft of a record operator is the same for both ways to be generic. -/
theorem Host.recordOperatorDraft_congr {g g' : Genericity} (same : g.isGeneric = g'.isGeneric)
    (host : Host) (c : Composite) (name : Name) (form : TypeId) :
    host.recordOperatorDraft c name form g = host.recordOperatorDraft c name form g' := by
  unfold Host.recordOperatorDraft
  rw [same]

/-- Both types are generic, or neither is. -/
def Host.AgreeOnGeneric (host : Host) (pool : TypePool) (ty ty' : TypeId) : Prop :=
  ∃ g g', host.genericity pool ty = .ok g ∧ host.genericity pool ty' = .ok g' ∧
    g.isGeneric = g'.isGeneric

namespace TypePool.Sound

variable (sound : pool.Sound)

include sound

/-- A method that is drafted receives the receiver form of its type, and is drafted as for this form if
the genericity that it tells is assumed. -/
theorem exists_receiverForm (h : host.MethodDraft pool ty name draft) :
    ∃ form, pool.receiverForm ty name = .ok form ∧
      (∃ receiver rest, draft.formals = receiver :: rest ∧ pool.ReceivesForm form receiver.type) ∧
        (host.assuming draft.needsInstantiation).MethodDraft pool form name draft := by
  cases h with
  | @init basic c fields formals found hfields closed rooted hformals =>
    obtain ⟨hbasic, stored⟩ := isFormOf_iff.1 found
    have root := sound.read?_generic stored
    refine ⟨c.genericForm basic, ?_, ⟨_, _, rfl, receivesForm_receiver root rfl⟩, ?_⟩
    · exact bind_eq_ok.2 ⟨basic, hbasic, genericRoot_eq_ok stored⟩
    · exact .init (c := c.uninstantiated) ⟨root, .inl rfl⟩ hfields closed rooted hformals
  | @initCopy basic c found =>
    obtain ⟨hbasic, stored⟩ := isFormOf_iff.1 found
    refine ⟨basic, hbasic, ⟨_, _, rfl, receivesForm_receiver stored rfl⟩, ?_⟩
    exact .initCopy ⟨stored, .inl rfl⟩
  | @deinit basic c found =>
    obtain ⟨hbasic, stored⟩ := isFormOf_iff.1 found
    refine ⟨basic, hbasic, ⟨_, _, rfl, receivesForm_receiver stored rfl⟩, ?_⟩
    exact .deinit ⟨stored, .inl rfl⟩
  | @recordOperator c name genericity stored kind operator _ =>
    obtain ⟨hbasic, -⟩ := isFormOf_iff.1 ⟨stored, .inl rfl⟩
    have root := sound.read?_generic stored
    have noClass : c.uninstantiated.kind ≠ .classType := by simp [Composite.uninstantiated, kind]
    refine ⟨c.genericForm ty, ?_, ⟨_, _, rfl, .given root ?_⟩, ?_⟩
    · rw [receiverForm, operator, Bool.or_true, if_pos rfl, hbasic, ok_bind]
      exact genericRoot_eq_ok stored
    · rw [isClass_composite, decide_eq_false noClass]
    · have assumed : (host.assuming genericity.isGeneric).MethodDraft pool (c.genericForm ty) name _ :=
        .recordOperator (c := c.uninstantiated) root kind operator rfl
      have same : (if genericity.isGeneric then .generic else .concrete : Genericity).isGeneric =
          genericity.isGeneric := by
        cases genericity <;> rfl
      rw [Host.recordOperatorDraft_congr same] at assumed
      exact assumed
  | @query data name kind stored queried other =>
    obtain ⟨noClass, -⟩ := noComposite_of_queriedKind? queried ty
    refine ⟨ty, receiverForm_of_queried stored queried other, ⟨_, _, rfl, .given stored noClass⟩, ?_⟩
    exact .query stored queried other

/-- Methods of one name over one form are drafted alike, if they tell the same genericity. -/
theorem draft_eq_of_form (h : host.MethodDraft pool ty name draft)
    (h' : host.MethodDraft pool ty' name draft') (hform : pool.receiverForm ty name = .ok form)
    (hform' : pool.receiverForm ty' name = .ok form)
    (same : draft.needsInstantiation = draft'.needsInstantiation) : draft = draft' := by
  obtain ⟨_, eq, -, drafted⟩ := sound.exists_receiverForm h
  obtain rfl := Except.ok.inj (eq.symm.trans hform)
  obtain ⟨_, eq, -, drafted'⟩ := sound.exists_receiverForm h'
  obtain rfl := Except.ok.inj (eq.symm.trans hform')
  rw [← same] at drafted'
  have made := sound.draftMethod_eq_ok_iff.2 drafted
  exact Except.ok.inj (Except.ok.inj (made.symm.trans (sound.draftMethod_eq_ok_iff.2 drafted')))

end TypePool.Sound

/-! ## Signatures over one pool -/

section Stored

variable {signatures : SignaturePool} {id id' : SigId}

/-- Other methods than record operators tell no genericity. -/
theorem Host.MethodDraft.needsInstantiation_eq_false (h : host.MethodDraft pool ty name draft)
    (other : name.isRecordOperator = false) : draft.needsInstantiation = false := by
  cases h with
  | init | initCopy | deinit | query => rfl
  | recordOperator _ _ operator => exact nomatch operator.symm.trans other

/-- Drafts of one name tell the same genericity if they are of no record operator, or of types that
agree on it. -/
theorem TypePool.Sound.needsInstantiation_eq_iff (sound : pool.Sound)
    (h : (Call.method ty name parenless).draft host pool = .ok (.signature draft))
    (h' : (Call.method ty' name parenless').draft host pool = .ok (.signature draft')) :
    draft.needsInstantiation = draft'.needsInstantiation ↔
      (name.isRecordOperator = true → host.AgreeOnGeneric pool ty ty') := by
  cases operator : name.isRecordOperator with
  | true =>
    obtain ⟨g, hg, flag⟩ := sound.needsInstantiation_recordOperator operator h
    obtain ⟨g', hg', flag'⟩ := sound.needsInstantiation_recordOperator operator h'
    rw [flag, flag']
    constructor
    · intro same _
      exact ⟨g, g', hg, hg', same⟩
    · intro agree
      obtain ⟨k, k', hk, hk', same⟩ := agree rfl
      obtain rfl := Except.ok.inj (hg.symm.trans hk)
      obtain rfl := Except.ok.inj (hg'.symm.trans hk')
      exact same
  | false =>
    have drafted := sound.draftMethod_eq_ok_iff.1 (Call.draft_method_eq_signature h).2
    have drafted' := sound.draftMethod_eq_ok_iff.1 (Call.draft_method_eq_signature h').2
    rw [drafted.needsInstantiation_eq_false operator, drafted'.needsInstantiation_eq_false operator]
    simp

/-- A stored method shows its name, the form that it receives and whether it is to be instantiated. -/
theorem TypePool.Sound.eq_of_isStoredAs (sound : pool.Sound)
    (h : host.MethodDraft pool ty name draft) (h' : host.MethodDraft pool ty' name' draft')
    (hform : pool.receiverForm ty name = .ok form)
    (hform' : pool.receiverForm ty' name' = .ok form')
    (stored : draft.IsStoredAs pool signatures id) (stored' : draft'.IsStoredAs pool signatures id) :
    name = name' ∧ form = form' ∧ draft.needsInstantiation = draft'.needsInstantiation := by
  obtain ⟨_, typed, holds, generated, rfl, needs, types⟩ := stored.isGenerated
  obtain ⟨_, typed', holds', generated', rfl, needs', types'⟩ := stored'.isGenerated
  obtain rfl := Except.ok.inj (holds.1.symm.trans holds'.1)
  have untyped := Except.ok.inj (holds.2.symm.trans holds'.2)
  refine ⟨?_, ?_, needs.symm.trans needs'⟩
  · rw [← h.name_eq, ← h'.name_eq]
    exact congrArg UntypedSignature.name untyped
  · -- the receivers are stored as the first formal
    obtain ⟨_, eq, ⟨receiver, rest, formals, receives⟩, -⟩ := sound.exists_receiverForm h
    obtain rfl := Except.ok.inj (eq.symm.trans hform)
    obtain ⟨_, eq, ⟨receiver', rest', formals', receives'⟩, -⟩ := sound.exists_receiverForm h'
    obtain rfl := Except.ok.inj (eq.symm.trans hform')
    rw [formals] at types
    rw [formals'] at types'
    obtain ⟨first, _, held, -, eq⟩ := List.forall₂_cons_left_iff.1 types
    obtain ⟨first', _, held', -, eq'⟩ := List.forall₂_cons_left_iff.1 types'
    obtain ⟨rfl, -⟩ := List.cons.inj (eq.symm.trans eq')
    exact receives.form_eq receives' held.2 held'.2

/-- Two methods that are stored in one pool are one signature exactly if they agree in name and receiver
form, and in genericity if they are operators of records. -/
theorem TypePool.Sound.same_iff_of_isStoredAs (sound : pool.Sound) (wf : signatures.WellFormed)
    (h : (Call.method ty name parenless).draft host pool = .ok (.signature draft))
    (h' : (Call.method ty' name' parenless').draft host pool = .ok (.signature draft'))
    (stored : draft.IsStoredAs pool signatures id) (stored' : draft'.IsStoredAs pool signatures id') :
    ∃ form form', pool.receiverForm ty name = .ok form ∧ pool.receiverForm ty' name' = .ok form' ∧
      (id = id' ↔ name = name' ∧ form = form' ∧
        (name.isRecordOperator = true → host.AgreeOnGeneric pool ty ty')) := by
  have drafted := sound.draftMethod_eq_ok_iff.1 (Call.draft_method_eq_signature h).2
  have drafted' := sound.draftMethod_eq_ok_iff.1 (Call.draft_method_eq_signature h').2
  obtain ⟨form, hform, -, -⟩ := sound.exists_receiverForm drafted
  obtain ⟨form', hform', -, -⟩ := sound.exists_receiverForm drafted'
  refine ⟨form, form', hform, hform', ?_, ?_⟩
  · rintro rfl
    obtain ⟨rfl, rfl, same⟩ :=
      sound.eq_of_isStoredAs drafted drafted' hform hform' stored stored'
    exact ⟨rfl, rfl, (sound.needsInstantiation_eq_iff h h').1 same⟩
  · rintro ⟨rfl, rfl, agree⟩
    have same := (sound.needsInstantiation_eq_iff h h').2 agree
    obtain rfl := sound.draft_eq_of_form drafted drafted' hform hform' same
    -- one draft is stored once
    have once := (stored.store_eq sound.wellFormed wf).symm.trans
      (stored'.store_eq sound.wellFormed wf)
    exact (Prod.mk.inj once).1

/-- Only lifecycle methods are synthesized for classes. -/
theorem Host.MethodDraft.isLifecycleMethod_of_class (h : host.MethodDraft pool ty name draft)
    (found : pool.IsFormOf ty basic c) (class? : c.kind = .classType) :
    name.isLifecycleMethod = true := by
  have isClass {data : TypeData} (stored : pool.read? ty = some data) : data.kind.isClass = true := by
    obtain ⟨there, rfl | ⟨decorator, decorated⟩⟩ := found
    · obtain rfl := Option.some.inj (stored.symm.trans there)
      rw [TypePool.isClass_composite, decide_eq_true class?]
    · obtain rfl := Option.some.inj (stored.symm.trans decorated)
      rfl
  cases h with
  | init | initCopy | deinit => rfl
  | recordOperator stored kind _ _ =>
    have class? := isClass stored
    rw [TypePool.isClass_composite, kind] at class?
    exact nomatch class?
  | query stored queried _ =>
    obtain ⟨noClass, -⟩ := TypePool.noComposite_of_queriedKind? queried ty
    exact nomatch noClass.symm.trans (isClass stored)

end Stored

/-- The forms of a class have one receiver form in each lifecycle method. -/
theorem TypePool.IsFormOf.receiverForm_eq (found : pool.IsFormOf ty basic c)
    (found' : pool.IsFormOf ty' basic c) (lifecycle : name.isLifecycleMethod = true) :
    pool.receiverForm ty name = pool.receiverForm ty' name := by
  obtain ⟨hbasic, -⟩ := isFormOf_iff.1 found
  obtain ⟨hbasic', -⟩ := isFormOf_iff.1 found'
  simp only [receiverForm, hbasic, hbasic', lifecycle, if_pos]

/-! ## Sessions whose declarations are held fixed -/

namespace Session

/-- The session after an operation that makes a type. Without a result the pool is left as it is. -/
def make (s : Session) (call : TypeCall) : Session :=
  match call.run s.program.types with
  | .ok (some (_, types)) => { s with program := { s.program with types } }
  | _ => s

/-- One step of a session that declares nothing: a query is asked of the declarations, or a type is made
of types that the pool has, or of the unknown type. -/
inductive HeldStep (d : Declarations) : Session → Session → Prop
  | ask (s : Session) (call : Call) : HeldStep d s ((call.ask d.host).exec s).2
  | make (s : Session) (call : TypeCall) :
      (∀ arg ∈ call.arguments, s.program.types.Admits arg) → HeldStep d s (s.make call)

/-- The pool of types is sound, and each kept reply is stored as what its query is drafted as. -/
structure Steady (d : Declarations) (s : Session) : Prop where
  types : s.program.types.Sound
  faithful : s.Faithful d.host

/-- Both pools of the second session extend those of the first. -/
structure PoolsGrow (s t : Session) : Prop where
  types : s.program.types.Grows t.program.types
  signatures : s.signatures.Grows t.signatures

/-- The signature is stored as what the request for the method is drafted as. -/
def HasMethod (d : Declarations) (s : Session) (ty : TypeId) (name : Name) (parenless : Bool)
    (id : SigId) : Prop :=
  ∃ draft, (Call.method ty name parenless).draft d.host s.program.types = .ok (.signature draft) ∧
    draft.IsStoredAs s.program.types s.signatures id

variable {d : Declarations} {s t u : Session} {id : SigId}

theorem PoolsGrow.trans (g : s.PoolsGrow t) (g' : t.PoolsGrow u) : s.PoolsGrow u :=
  ⟨g.types.trans g'.types, g.signatures.trans g'.signatures⟩

theorem HasMethod.grows (h : s.HasMethod d ty name parenless id) (g : s.PoolsGrow t) :
    t.HasMethod d ty name parenless id := by
  obtain ⟨draft, drafted, stored⟩ := h
  have persistent := d.host_persistent g.types
  exact ⟨draft, Call.draft_persists persistent g.types _ _ drafted,
    stored.grows g.types g.signatures⟩

namespace Steady

theorem start {p : Program} (types : p.types.Sound) (shards : Sharding) :
    (Session.start p shards).Steady p.decls :=
  ⟨types, faithful_start types.wellFormed⟩

theorem poolsGrow_refl (steady : s.Steady d) : s.PoolsGrow s :=
  ⟨.refl steady.faithful.types, .refl steady.faithful.signatures⟩

theorem ask (steady : s.Steady d) (call : Call) :
    ((call.ask d.host).exec s).2.Steady d ∧ s.PoolsGrow ((call.ask d.host).exec s).2 := by
  obtain ⟨types, g, g'⟩ := sound_ask steady.types steady.faithful.signatures d.host call
  obtain ⟨-, -, faithful⟩ :=
    simulates_ask d.host_persistent call s s steady.faithful ⟨rfl, rfl⟩
  exact ⟨⟨types, faithful⟩, g, g'⟩

theorem make (steady : s.Steady d) {call : TypeCall}
    (admitted : ∀ arg ∈ call.arguments, s.program.types.Admits arg) :
    (s.make call).Steady d ∧ s.PoolsGrow (s.make call) := by
  unfold Session.make
  split
  · rename_i made types run
    have sound := steady.types.call admitted run
    have g : s.program.types.Grows types :=
      ⟨steady.faithful.types, sound.wellFormed, TypePool.extends_call run⟩
    have same := SignaturePool.Grows.refl steady.faithful.signatures
    -- nothing but the pool of types has changed
    have grown : s.Grows { s with program := { s.program with types } } := ⟨g, same, rfl, rfl⟩
    exact ⟨⟨sound, steady.faithful.grows grown (d.host_persistent g)⟩, g, same⟩
  · exact ⟨steady, steady.poolsGrow_refl⟩

/-- A run keeps a session steady and only adds to its pools. -/
theorem run (steady : s.Steady d) (run : Relation.ReflTransGen (HeldStep d) s t) :
    t.Steady d ∧ s.PoolsGrow t := by
  induction run with
  | refl => exact ⟨steady, steady.poolsGrow_refl⟩
  | tail _ step ih =>
    obtain ⟨steady', g⟩ := ih
    cases step with
    | ask call =>
      obtain ⟨after, grown⟩ := steady'.ask call
      exact ⟨after, g.trans grown⟩
    | make call admitted =>
      obtain ⟨after, grown⟩ := steady'.make admitted
      exact ⟨after, g.trans grown⟩

/-- An answer is stored, from then on, as what its question is drafted as. -/
theorem stored_of_ask (steady : s.Steady d) {call : Call} {reply : Reply SigId}
    (answer : (call.ask d.host).exec s = (.ok reply, t)) :
    t.Steady d ∧ s.PoolsGrow t ∧ ∃ drafted, call.draft d.host t.program.types = .ok drafted ∧
      drafted.IsStoredAs t.program.types t.signatures reply := by
  obtain ⟨after, g⟩ := steady.ask call
  obtain ⟨drafted, hdrafted, stored⟩ :=
    steady.faithful.drafted_of_ask d.host_persistent (congrArg Prod.fst answer)
  rw [answer] at after g stored
  have persistent := d.host_persistent g.types
  exact ⟨after, g, drafted, Call.draft_persists persistent g.types _ _ hdrafted, stored⟩

/-- A method that is answered with a signature is stored as this signature afterwards. -/
theorem hasMethod_of_ask (steady : s.Steady d)
    (answer : ((Call.method ty name parenless).ask d.host).exec s = (.ok (.signature id), t)) :
    t.Steady d ∧ s.PoolsGrow t ∧ t.HasMethod d ty name parenless id := by
  obtain ⟨after, g, drafted, hdrafted, stored⟩ := steady.stored_of_ask answer
  cases drafted with
  | signature draft => exact ⟨after, g, draft, hdrafted, stored⟩
  | decision _ | failure _ | nothing => exact stored.elim

theorem hasMethod (steady : s.Steady d)
    (answer : (Session.method d.host ty name parenless).exec s = (.ok (.ok (some id)), t)) :
    t.Steady d ∧ s.PoolsGrow t ∧ t.HasMethod d ty name parenless id := by
  refine steady.hasMethod_of_ask ?_
  rw [Call.ask, Query.exec_map, answer]
  rfl

end Steady

end Session

/-! ## Requests that share a signature -/

/-- While declarations are held fixed, two requests for methods that are answered with signatures share
the signature exactly if they agree in name and receiver form, and, for an operator of records, in
whether their types are generic. It makes no difference in which call shape a method is requested. For
forms of one class it makes none either which form it is, so that only the name is left. -/
theorem shared_signature_iff {p : Program} (built : p.types.Built) {shards : Sharding}
    {s s' t t' : Session} {ty ty' : TypeId} {name name' : Name} {parenless parenless' : Bool}
    {id id' : SigId} (before : Relation.ReflTransGen (Session.HeldStep p.decls) (.start p shards) s)
    (first : (Session.method p.decls.host ty name parenless).exec s = (.ok (.ok (some id)), s'))
    (between : Relation.ReflTransGen (Session.HeldStep p.decls) s' t)
    (second : (Session.method p.decls.host ty' name' parenless').exec t =
      (.ok (.ok (some id')), t')) :
    (∃ form form', t'.program.types.receiverForm ty name = .ok form ∧
      t'.program.types.receiverForm ty' name' = .ok form' ∧
        (id = id' ↔ name = name' ∧ form = form' ∧
          (name.isRecordOperator = true →
            p.decls.host.AgreeOnGeneric t'.program.types ty ty'))) ∧
    ∀ basic c, c.kind = .classType → t'.program.types.IsFormOf ty basic c →
      t'.program.types.IsFormOf ty' basic c → (id = id' ↔ name = name') := by
  obtain ⟨steady, -⟩ := (Session.Steady.start built.sound shards).run before
  obtain ⟨after, -, has⟩ := steady.hasMethod first
  obtain ⟨later, g⟩ := after.run between
  obtain ⟨last, g', draft', drafted', stored'⟩ := later.hasMethod second
  obtain ⟨draft, drafted, stored⟩ := has.grows (g.trans g')
  have shared := last.types.same_iff_of_isStoredAs last.faithful.signatures drafted drafted' stored
    stored'
  refine ⟨shared, fun basic c class? found found' => ?_⟩
  obtain ⟨form, form', hform, hform', same⟩ := shared
  refine same.trans ⟨fun same => same.1, ?_⟩
  rintro rfl
  -- a class has lifecycle methods alone, and these are over the class without its decorator
  have method := last.types.draftMethod_eq_ok_iff.1 (Call.draft_method_eq_signature drafted).2
  have lifecycle := method.isLifecycleMethod_of_class found class?
  have forms := found.receiverForm_eq found' lifecycle
  rw [hform, hform'] at forms
  refine ⟨rfl, Except.ok.inj forms, fun operator => ?_⟩
  exact nomatch (Name.isLifecycleMethod_of_isRecordOperator operator).symm.trans lifecycle

/-- The comparison of a form of the record with the open field, and the session afterwards. -/
def comparison (ty : TypeId) (parenless : Bool) (s : Session) :
    Except Fault (Except GenerationError (Option SigId)) × Session :=
  (Session.method openRecord.decls.host ty .equals parenless).exec s

/-- The session after the comparison was found for the record, and the record was instantiated by
`int`. -/
def instantiatedRecord : Session :=
  (comparison (.known ⟨1, 0⟩) false (.start openRecord .bySize)).2.make
    (.instantiate (.known ⟨1, 0⟩) [(⟨⟨2, 2⟩⟩, .int)])

/-- The comparison of the instantiation is over the generic record as well, but has a signature of its
own, since the instantiation is not generic. -/
theorem instantiatedRecord_comparison : openRecord.types.Built ∧
    (comparison (.known ⟨1, 0⟩) false (.start openRecord .bySize)).1 = .ok (.ok (some ⟨⟨3, 0⟩⟩)) ∧
    (comparison (.known ⟨1, 1⟩) true instantiatedRecord).1 = .ok (.ok (some ⟨⟨3, 1⟩⟩)) ∧
    let pool := (comparison (.known ⟨1, 1⟩) true instantiatedRecord).2.program.types
    pool.receiverForm (.known ⟨1, 0⟩) .equals = .ok (.known ⟨1, 0⟩) ∧
      pool.receiverForm (.known ⟨1, 1⟩) .equals = .ok (.known ⟨1, 0⟩) ∧
        ¬ openRecord.decls.host.AgreeOnGeneric pool (.known ⟨1, 0⟩) (.known ⟨1, 1⟩) := by
  have built : openRecord.types.Built := by
    have made : (TypeCall.record (.at 1) ⟨⟨2, 1⟩⟩).run (.empty Sharding.bySize.types) =
        .ok (some (.known ⟨1, 0⟩, openRecord.types)) := rfl
    refine .step (.empty _) ?_ made
    intro arg mem
    exact nomatch mem
  have first : (comparison (.known ⟨1, 0⟩) false (.start openRecord .bySize)).1 =
      .ok (.ok (some ⟨⟨3, 0⟩⟩)) := by cbv
  have second : (comparison (.known ⟨1, 1⟩) true instantiatedRecord).1 =
      .ok (.ok (some ⟨⟨3, 1⟩⟩)) := by cbv
  have between : Session.HeldStep openRecord.decls
      (comparison (.known ⟨1, 0⟩) false (.start openRecord .bySize)).2 instantiatedRecord := by
    have stored : ∀ arg ∈ [TypeId.known ⟨1, 0⟩, .int],
        ((comparison (.known ⟨1, 0⟩) false
          (.start openRecord .bySize)).2.program.types.read? arg).isSome := by
      decide +kernel
    exact .make _ _ fun arg mem => .inr (Option.isSome_iff_exists.1 (stored arg mem))
  obtain ⟨⟨form, form', hform, hform', same⟩, -⟩ := shared_signature_iff built .refl
    (Prod.ext first rfl) (.single between) (Prod.ext second rfl)
  have generic : (comparison (.known ⟨1, 1⟩) true instantiatedRecord).2.program.types.receiverForm
      (.known ⟨1, 0⟩) .equals = .ok (.known ⟨1, 0⟩) := by decide +kernel
  have stripped : (comparison (.known ⟨1, 1⟩) true instantiatedRecord).2.program.types.receiverForm
      (.known ⟨1, 1⟩) .equals = .ok (.known ⟨1, 0⟩) := by decide +kernel
  refine ⟨built, first, second, generic, stripped, fun agree => ?_⟩
  obtain rfl := Except.ok.inj (hform.symm.trans generic)
  obtain rfl := Except.ok.inj (hform'.symm.trans stripped)
  exact absurd (same.2 ⟨rfl, rfl, fun _ => agree⟩) (by decide)

end MethodSynthesis
