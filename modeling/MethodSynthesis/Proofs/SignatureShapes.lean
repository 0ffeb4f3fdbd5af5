import MethodSynthesis.Proofs.Provenance

/-!
# The shape of synthesized signatures

Every signature that a query gives is complete: it bears the name that was asked for and the marks of a
synthesized method, it has a type for each formal, and its receiver is the one that its method calls for
(`SignaturePool.IsGenerated`, `Call.Shape`). `signatures_have_shape` states this of all answers that
builders and queries lead to. That a record operator is instantiated exactly if its record is generic is
stated of a program that is held fixed, since a kept operator goes by the program that it was made for.
-/

set_option autoImplicit false

namespace MethodSynthesis

/-! ## Shapes -/

/-- The name of what a query asks for. -/
def Call.name : Call → Name
  | .need _ name _ | .method _ name _ | .binaryOp _ _ name => name
  | .accessor _ field => field

/-- A formal that comes from no declaration and has no default. -/
def Formal.plain (name : Name) : Formal := ⟨name, false, .absent⟩

/-- What all synthesized signatures of a name have in common. -/
structure IsGenerated (name : Name) (untyped : UntypedSignature) (typed : TypedSignature) : Prop where
  name_eq : untyped.name = name
  isCompilerGenerated : untyped.isCompilerGenerated = true
  throws : untyped.throws = false
  isTypeConstructor : untyped.isTypeConstructor = false
  length_eq : untyped.formals.length = typed.formalTypes.length
  whereClause : typed.whereClause = .absent
  instantiatedFrom : typed.instantiatedFrom = none
  parentFunction : typed.parentFunction = none
  formalsInstantiated : typed.formalsInstantiated = []

/-- The form in which a lifecycle method receives a composite: the generic form for the default
initializer, the type itself for the others. -/
def Composite.receivedForm (c : Composite) (name : Name) (basic : TypeId) : TypeId :=
  if name = .init then c.genericForm basic else basic

/-- How a lifecycle method of a type receives it: a class, decorated or not, as a constant borrow that is
never nil, and a record or union by reference. -/
inductive TypePool.LifecycleReceiver (pool : TypePool) (ty : TypeId) (name : Name) : Qualified → Prop
  | borrowed {basic received : TypeId} {c c' : Composite} :
      pool.IsFormOf ty basic c → c.kind = .classType →
        pool.read? (c.receivedForm name basic) = some (.composite c') → c'.kind = .classType →
          pool.read? received = some (.decorated (c.receivedForm name basic) .borrowedNonNil) →
            LifecycleReceiver pool ty name ⟨.constIn, received⟩
  | reference {c c' : Composite} :
      pool.read? ty = some (.composite c) → c.kind ≠ .classType →
        pool.read? (c.receivedForm name ty) = some (.composite c') → c'.kind = c.kind →
          LifecycleReceiver pool ty name ⟨.ref, c.receivedForm name ty⟩

/-- The shape of the signature that a query gives, beyond what they all have in common. -/
inductive Call.Shape (pool : TypePool) (untyped : UntypedSignature) (typed : TypedSignature) :
    Call → Prop
  | lifecycle {ty : TypeId} {name : Name} {parenless : Bool} {receiver : Qualified} :
      name.isLifecycleMethod = true → untyped.formals.head? = some (.plain .receiver) →
        typed.formalTypes.head? = some receiver → pool.LifecycleReceiver ty name receiver →
          (name = .initCopy → untyped.formals = [.plain .receiver, .plain .other] ∧
            typed.formalTypes = [receiver, ⟨.constRef, receiver.type⟩]) →
              typed.needsInstantiation = false → Shape pool untyped typed (.method ty name parenless)
  | recordOperator {ty : TypeId} {name : Name} {parenless : Bool} :
      name.isRecordOperator = true → untyped.formals.head? = some (.plain .receiver) →
        Shape pool untyped typed (.method ty name parenless)
  | query {ty : TypeId} {name : Name} {parenless : Bool} :
      name.isLifecycleMethod = false → name.isRecordOperator = false →
        untyped.formals.head? = some (.plain .receiver) → typed.needsInstantiation = false →
          Shape pool untyped typed (.method ty name parenless)
  | cast {lhs rhs : Qualified} {name : Name} :
      typed.needsInstantiation = true → Shape pool untyped typed (.binaryOp lhs rhs name)
  | accessor {ty : Option TypeId} {field : Name} :
      untyped.formals.head? = some (.plain .receiver) → typed.needsInstantiation = false →
        Shape pool untyped typed (.accessor ty field)

/-- A stored signature of this name, read back. -/
def SignaturePool.Holds (pool : SignaturePool) (id : SigId) (untyped : UntypedSignature)
    (typed : TypedSignature) : Prop :=
  pool.typed id = .ok typed ∧ pool.untyped typed.untyped = .ok untyped

/-! ## Shapes of drafts -/

section Drafts

variable {host : Host} {pool pool' : TypePool} {signatures : SignaturePool} {ty basic : TypeId}
  {c : Composite} {name : Name} {draft : Draft} {call : Call} {id : SigId}

theorem TypePool.IsFormOf.grows (h : pool.IsFormOf ty basic c) (g : pool.Grows pool') :
    pool'.IsFormOf ty basic c :=
  ⟨g.read? h.1, h.2.imp_right fun ⟨decorator, decorated⟩ => ⟨decorator, g.read? decorated⟩⟩

theorem Host.MethodDraft.name_eq (h : host.MethodDraft pool ty name draft) : draft.name = name := by
  cases h <;> rfl

theorem Call.Drafts.name_eq (h : call.Drafts host pool draft) : draft.name = call.name := by
  cases h with
  | method h => exact h.name_eq
  | binaryOp h => cases h <;> rfl
  | accessor h => cases h; rfl

/-- A stored draft is a complete signature of its name. -/
theorem Draft.IsStoredAs.isGenerated (h : draft.IsStoredAs pool signatures id) :
    ∃ untyped typed, signatures.Holds id untyped typed ∧ IsGenerated draft.name untyped typed ∧
      untyped = draft.untyped ∧ typed.needsInstantiation = draft.needsInstantiation ∧
        List.Forall₂ (DraftFormal.IsStoredAs pool) draft.formals typed.formalTypes := by
  obtain ⟨untyped, formalTypes, huntyped, hformals, htyped⟩ := h
  refine ⟨draft.untyped, draft.typed untyped formalTypes, ⟨htyped, huntyped⟩, ?_, rfl, rfl, hformals⟩
  exact {
    name_eq := rfl, isCompilerGenerated := rfl, throws := rfl, isTypeConstructor := rfl
    length_eq := (List.length_map _).trans hformals.length_eq
    whereClause := rfl, instantiatedFrom := rfl, parentFunction := rfl, formalsInstantiated := rfl }

theorem Composite.receiver_formal (c : Composite) (form : TypeId) :
    (c.receiver form).formal = .plain .receiver := by
  by_cases class? : c.kind = .classType <;>
    simp [Composite.receiver, class?, DraftFormal.plain, Formal.plain]

/-- The form that a lifecycle method receives is stored, as a composite of the same kind. -/
theorem TypePool.Sound.read?_receivedForm (sound : pool.Sound) (found : pool.IsFormOf ty basic c)
    (name : Name) :
    ∃ c', pool.read? (c.receivedForm name basic) = some (.composite c') ∧ c'.kind = c.kind := by
  unfold Composite.receivedForm
  split
  · exact sound.read?_genericForm found
  · exact ⟨c, found.1, rfl⟩

/-- The receiver of a lifecycle method is stored as one. -/
theorem TypePool.Sound.lifecycleReceiver_of_isStoredAs (sound : pool.Sound)
    (found : pool.IsFormOf ty basic c) (g : pool.Grows pool') {receiver : Qualified}
    (stored : (c.receiver (c.receivedForm name basic)).IsStoredAs pool' receiver) :
    pool'.LifecycleReceiver ty name receiver := by
  obtain ⟨c', form, kind⟩ := sound.read?_receivedForm found name
  obtain ⟨binding, received⟩ := receiver
  obtain ⟨bound, held⟩ := stored
  by_cases class? : c.kind = .classType
  · rw [Composite.receiver, if_pos class?] at bound held
    obtain rfl : binding = .constIn := bound
    exact .borrowed (found.grows g) class? (g.read? form) (kind.trans class?) held
  · rw [Composite.receiver, if_neg class?] at bound held
    obtain rfl : binding = .ref := bound
    obtain rfl : received = c.receivedForm name basic := held
    -- what is no class has no decorator
    obtain ⟨hbasic, stored⟩ := isFormOf_iff.1 found
    obtain rfl := sound.eq_of_undecorated hbasic stored class?
    exact .reference (g.read? stored) class? (g.read? form) kind

/-- The signatures of lifecycle methods have the shape of one. -/
theorem Call.Shape.of_lifecycleDraft (sound : pool.Sound) (found : pool.IsFormOf ty basic c)
    (g : pool.Grows pool') (lifecycle : name.isLifecycleMethod = true) {rest : List DraftFormal}
    (copies : name = .initCopy → rest = [.plain .other .constRef (c.receiver basic).type])
    {typed : TypedSignature}
    (stored : List.Forall₂ (DraftFormal.IsStoredAs pool')
      (host.lifecycleDraft c name (c.receivedForm name basic) rest).formals typed.formalTypes)
    (closed : typed.needsInstantiation = false) (parenless : Bool) :
    Call.Shape pool' (host.lifecycleDraft c name (c.receivedForm name basic) rest).untyped typed
      (.method ty name parenless) := by
  obtain ⟨receiver, others, first, rest', types⟩ := List.forall₂_cons_left_iff.1 stored
  have received := sound.lifecycleReceiver_of_isStoredAs found g first
  have formal := c.receiver_formal (c.receivedForm name basic)
  refine .lifecycle lifecycle (congrArg some formal) (congrArg List.head? types) received ?_ closed
  rintro rfl
  obtain rfl := copies rfl
  have form : c.receivedForm .initCopy basic = basic := if_neg (by decide)
  rw [form] at first formal ⊢
  obtain ⟨other, none, second, rest'', rfl⟩ := List.forall₂_cons_left_iff.1 rest'
  obtain rfl := List.forall₂_nil_left_iff.1 rest''
  -- both formals have the stored form of one drafted type
  have same : other.type = receiver.type := by
    have wf := g.after
    exact (Prod.mk.inj ((second.2.store_eq wf).symm.trans (first.2.store_eq wf))).1
  refine ⟨?_, types.trans ?_⟩
  · simp [Draft.untyped, Host.lifecycleDraft, formal, DraftFormal.plain, Formal.plain]
  · obtain ⟨binding, received⟩ := other
    obtain rfl : binding = .constRef := second.1
    obtain rfl : received = receiver.type := same
    rfl

/-- The signature that a draft of a query is stored as has the shape that the query calls for. -/
theorem Call.Drafts.shape (sound : pool.Sound) (h : call.Drafts host pool draft)
    (g : pool.Grows pool') (stored : draft.IsStoredAs pool' signatures id) :
    ∃ untyped typed, signatures.Holds id untyped typed ∧ IsGenerated call.name untyped typed ∧
      call.Shape pool' untyped typed := by
  obtain ⟨untyped, typed, holds, generated, rfl, needs, types⟩ := stored.isGenerated
  rw [h.name_eq] at generated
  refine ⟨_, typed, holds, generated, ?_⟩
  cases h with
  | @method ty name parenless draft h =>
    cases h with
    | @init basic c fields formals found hfields closed rooted hformals =>
      have form : c.receivedForm .init basic = c.genericForm basic := if_pos rfl
      rw [← form] at types ⊢
      exact .of_lifecycleDraft sound found g rfl
        (fun h => absurd h (by decide : Name.init ≠ .initCopy)) types needs parenless
    | initCopy found =>
      exact .of_lifecycleDraft sound found g rfl (fun _ => rfl) types needs parenless
    | deinit found =>
      exact .of_lifecycleDraft sound found g rfl
        (fun h => absurd h (by decide : Name.deinit ≠ .initCopy)) types needs parenless
    | recordOperator _ _ operator _ => exact .recordOperator operator rfl
    | query _ _ other =>
      by_cases operator : name.isRecordOperator = true
      · exact .recordOperator operator rfl
      · exact .query other (by simpa using operator) rfl needs
  | binaryOp h =>
    cases h <;> exact .cast needs
  | accessor h =>
    cases h with
    | field _ _ => exact .accessor rfl needs

end Drafts

/-! ## Programs that are held fixed -/

section Held

variable {host : Host} {pool : TypePool} {ty : TypeId} {name : Name} {parenless : Bool}
  {draft : Draft}

/-- The need for a method of a type that the pool has is the decision. -/
theorem Call.draftNeed_of_read? {data : TypeData} (stored : pool.read? ty = some data) :
    Call.draftNeed host pool ty name parenless = host.needsMethod pool ty name parenless := by
  rw [Call.draftNeed, TypePool.isUnknown_of_read? stored, if_neg Bool.false_ne_true]

/-- A method is needed only of known types. -/
theorem Call.needsMethod_of_draftNeed (h : Call.draftNeed host pool ty name parenless = .ok true) :
    host.needsMethod pool ty name parenless = .ok true := by
  unfold Call.draftNeed at h
  split at h
  · exact nomatch Except.ok.inj h
  · exact h

/-- A method is drafted only if it is needed. -/
theorem Call.draft_method_eq_signature
    (h : (Call.method ty name parenless).draft host pool = .ok (.signature draft)) :
    Call.draftNeed host pool ty name parenless = .ok true ∧
      (host.draftMethod pool ty name).run = .ok (.ok draft) := by
  obtain ⟨needed, hneeded, h⟩ := bind_eq_ok.1 h
  obtain ⟨rfl, hmade⟩ := Call.draftSynthesis_eq_signature h
  exact ⟨hneeded, hmade⟩

/-- A method that is needed is one that the type has or a query that it answers. -/
theorem Call.provides_or_answers {data : TypeData} (stored : pool.read? ty = some data)
    (h : Call.draftNeed host pool ty name parenless = .ok true) :
    data.kind.provides name = true ∨ data.kind.answers name parenless = true := by
  rw [Call.draftNeed_of_read? stored, host.needsMethod_eq stored] at h
  cases provides : data.kind.provides name with
  | true => exact .inl rfl
  | false =>
    rw [provides, if_neg Bool.false_ne_true] at h
    exact .inr (Except.ok.inj h)

/-- The builtin types that answer queries have no record operators. -/
theorem TypeKind.no_recordOperator {kind : TypeKind} {declared : DeclKind}
    (queried : kind.queriedKind? = some declared) (operator : name.isRecordOperator = true) :
    kind.provides name = false ∧ kind.answers name parenless = false := by
  rcases (by simpa [Name.isRecordOperator] using operator) with rfl | rfl <;>
    cases kind <;> simp [TypeKind.queriedKind?] at queried <;> cases parenless <;> decide

/-- A record operator that is drafted when it is needed says whether the record is generic. -/
theorem TypePool.Sound.needsInstantiation_recordOperator (sound : pool.Sound)
    (operator : name.isRecordOperator = true)
    (h : (Call.method ty name parenless).draft host pool = .ok (.signature draft)) :
    ∃ genericity, host.genericity pool ty = .ok genericity ∧
      draft.needsInstantiation = genericity.isGeneric := by
  obtain ⟨needed, hdraft⟩ := Call.draft_method_eq_signature h
  have noLifecycle := Name.isLifecycleMethod_of_isRecordOperator operator
  cases sound.draftMethod_eq_ok_iff.1 hdraft with
  | init _ _ _ _ _ | initCopy _ | deinit _ => exact absurd noLifecycle (by decide)
  | recordOperator _ _ _ hgenericity => exact ⟨_, hgenericity, rfl⟩
  | query stored queried _ =>
    obtain ⟨noMethod, noQuery⟩ := TypeKind.no_recordOperator queried operator
    rcases Call.provides_or_answers stored needed with method | query
    · exact nomatch noMethod.symm.trans method
    · exact nomatch noQuery.symm.trans query

end Held

namespace Session

variable {s : Session}

theorem Reached.after (reached : s.Reached) (host : Host) (calls : List Call) :
    (s.after host calls).Reached := by
  induction calls generalizing s with
  | nil => exact reached
  | cons call calls ih => exact ih (.ask host call reached)

end Session

namespace Program.Built

variable {p : Program}

theorem reached_queried (built : p.Built) (shards : Sharding) (history : List Call) :
    (p.queried shards history).Reached :=
  (Session.reached_start built shards).after p.decls.host history

/-- While a program is held fixed, its sessions stay faithful and its pool only grows. -/
theorem faithful_queried (built : p.Built) (shards : Sharding) (history : List Call) :
    (p.queried shards history).Faithful p.decls.host ∧
      p.types.Grows (p.queried shards history).program.types :=
  (Session.faithful_start built.wellFormed.types.wellFormed).after p.decls.host_persistent history

/-- A method that is given while a program is held fixed was needed, and is stored as it would be drafted
now. -/
theorem drafted_method (built : p.Built) {shards : Sharding} {history : List Call} {ty : TypeId}
    {name : Name} {parenless : Bool} {id : SigId}
    (answer : (p.ask shards history (.method ty name parenless)).1 = .ok (.signature id)) :
    ∃ draft, Call.draftNeed p.decls.host (p.queried shards history).program.types ty name parenless =
        .ok true ∧
      p.decls.host.MethodDraft (p.queried shards history).program.types ty name draft ∧
        draft.IsStoredAs (p.ask shards history (.method ty name parenless)).2.program.types
          (p.ask shards history (.method ty name parenless)).2.signatures id := by
  have sound := (built.reached_queried shards history).sound.program.types
  obtain ⟨faithful, -⟩ := built.faithful_queried shards history
  obtain ⟨drafted, hdrafted, stored⟩ := faithful.drafted_of_ask p.decls.host_persistent answer
  cases drafted with
  | signature draft =>
    obtain ⟨needed, made⟩ := Call.draft_method_eq_signature hdrafted
    exact ⟨draft, needed, sound.draftMethod_eq_ok_iff.1 made, stored⟩
  | decision _ | failure _ | nothing => exact stored.elim

end Program.Built

/-- Every signature that is given in answer to a query is complete and has the shape that the query calls
for, whatever was built and asked before. And while a program is held fixed, a record operator needs to
be instantiated exactly if its record is generic. -/
theorem signatures_have_shape :
    (∀ (s : Session), s.Reached → ∀ (host : Host) (call : Call) (id : SigId),
      ((call.ask host).exec s).1 = .ok (.signature id) →
        ∃ untyped typed, ((call.ask host).exec s).2.signatures.Holds id untyped typed ∧
          IsGenerated call.name untyped typed ∧
            call.Shape ((call.ask host).exec s).2.program.types untyped typed) ∧
    ∀ (p : Program), p.Built → ∀ (shards : Sharding) (history : List Call) (ty : TypeId)
      (name : Name) (parenless : Bool) (id : SigId), name.isRecordOperator = true →
        (p.ask shards history (.method ty name parenless)).1 = .ok (.signature id) →
          ∃ typed genericity,
            (p.ask shards history (.method ty name parenless)).2.signatures.typed id = .ok typed ∧
              p.decls.genericity
                  (p.ask shards history (.method ty name parenless)).2.program.types ty =
                .ok genericity ∧ typed.needsInstantiation = genericity.isGeneric := by
  constructor
  · intro s reached host call id answer
    obtain ⟨host', pool, draft, sound, g, drafts, stored⟩ := reached.drafted_ask host answer
    exact drafts.shape sound g stored
  · intro p built shards history ty name parenless id operator answer
    have sound := (built.reached_queried shards history).sound
    obtain ⟨faithful, -⟩ := built.faithful_queried shards history
    obtain ⟨drafted, hdrafted, stored⟩ :=
      faithful.drafted_of_ask p.decls.host_persistent answer
    cases drafted with
    | signature draft =>
      obtain ⟨genericity, hgenericity, flag⟩ :=
        sound.program.types.needsInstantiation_recordOperator operator hdrafted
      obtain ⟨_, typed, holds, -, -, needs, -⟩ := Draft.IsStoredAs.isGenerated stored
      obtain ⟨g, -⟩ := sound.grows_ask p.decls.host (.method ty name parenless)
      have persistent := p.decls.host_persistent g
      exact ⟨typed, genericity, holds.1, persistent.genericity ty genericity hgenericity,
        needs.trans flag⟩
    | decision _ | failure _ | nothing => exact stored.elim

/-- A record with a field for a type. -/
def openRecord : Program :=
  .ofCalls .bySize [.module "M" none, .composite (.at 0) "R" .record none,
    .field (.known ⟨1, 0⟩) "t" .type]

/-- The question for a method of the record. -/
def openRecordMethod (name : Name) : Call := .method (.known ⟨1, 0⟩) name false

theorem openRecord_signatures : (Session.start openRecord .bySize).Reached ∧ openRecord.Built ∧
    (((openRecordMethod .initCopy).ask openRecord.decls.host).exec (.start openRecord .bySize)).1 =
      .ok (.signature ⟨⟨2, 0⟩⟩) ∧
    (∃ untyped typed,
      (((openRecordMethod .initCopy).ask openRecord.decls.host).exec
        (.start openRecord .bySize)).2.signatures.Holds ⟨⟨2, 0⟩⟩ untyped typed ∧
      IsGenerated .initCopy untyped typed ∧
        (openRecordMethod .initCopy).Shape
          (((openRecordMethod .initCopy).ask openRecord.decls.host).exec
            (.start openRecord .bySize)).2.program.types untyped typed) ∧
    (openRecord.ask .bySize [] (openRecordMethod .equals)).1 = .ok (.signature ⟨⟨3, 0⟩⟩) ∧
    ∃ typed genericity,
      (openRecord.ask .bySize [] (openRecordMethod .equals)).2.signatures.typed ⟨⟨3, 0⟩⟩ = .ok typed ∧
        openRecord.decls.genericity
          (openRecord.ask .bySize [] (openRecordMethod .equals)).2.program.types (.known ⟨1, 0⟩) =
            .ok genericity ∧ typed.needsInstantiation = genericity.isGeneric := by
  have built : openRecord.Built := Program.built_ofCalls _ _
  have reached := Session.reached_start built .bySize
  obtain ⟨shape, flag⟩ := signatures_have_shape
  have initCopy : (((openRecordMethod .initCopy).ask openRecord.decls.host).exec
      (.start openRecord .bySize)).1 = .ok (.signature ⟨⟨2, 0⟩⟩) := by cbv
  have equals : (openRecord.ask .bySize [] (openRecordMethod .equals)).1 =
      .ok (.signature ⟨⟨3, 0⟩⟩) := by cbv
  exact ⟨reached, built, initCopy, shape _ reached _ _ _ initCopy, equals,
    flag _ built .bySize [] _ _ _ _ rfl equals⟩

end MethodSynthesis
