import MethodSynthesis.Proofs.GenericSeeds
import MethodSynthesis.Proofs.SignatureShapes

/-!
# The outcomes of requests for methods

Two dispatches meet in a request for a method: the decision that it is needed, and the choice of what
builds it. `Program.MethodOutcome` lists what a request may come to, without either of them, and
`method_outcome_exact` says that every request comes to exactly what is listed, so that nothing falls
between the two: whatever is needed is built or refused for one of the reasons in the list, and the type
that a refusal names is the type of the request.
-/

set_option autoImplicit false

namespace MethodSynthesis

/-! ## Outcomes -/

/-- A reply, whatever the signature that it gives. -/
def Reply.outcome {σ : Type} : Reply σ → Reply Unit
  | .decision needed => .decision needed
  | .failure e => .failure e
  | .nothing => .nothing
  | .signature _ => .signature ()

/-- The reply for a drafted method, or for the refusal to draft it. -/
def Reply.ofDrafted : Except GenerationError Draft → Reply Draft
  | .error e => .failure e
  | .ok draft => .signature draft

/-- The method of a type is needed, as far as the types of the program go. -/
def Program.Needs (p : Program) (ty : TypeId) (name : Name) (parenless : Bool) : Prop :=
  p.decls.host.needsMethod p.types ty name parenless = .ok true

/-- The class has a parent, which is not the root object. -/
def Composite.Inherits (c : Composite) : Prop :=
  ∃ parent, c.parent = some parent ∧ parent ≠ .rootObject

/-- What the default initializer of a class is refused for, beside open fields. -/
theorem Composite.inheritingClass_iff {c : Composite} :
    (c.kind = .classType && c.hasNontrivialParent) = true ↔ c.kind = .classType ∧ c.Inherits := by
  rw [Bool.and_eq_true, decide_eq_true_eq, hasNontrivialParent, Inherits]
  cases c.parent <;> simp

/-- What a request for a method of a type comes to. -/
inductive Program.MethodOutcome (p : Program) (ty : TypeId) (parenless : Bool) :
    Name → Reply Unit → Prop
  | unknown {name : Name} : ty = .unknown → MethodOutcome p ty parenless name .nothing
  | unneeded {name : Name} : p.decls.host.needsMethod p.types ty name parenless = .ok false →
      MethodOutcome p ty parenless name .nothing
  /-- Lifecycle methods are needed of every type, but only composites have them. -/
  | notComposite {name : Name} {method : CompositeMethod} : p.Needs ty name parenless →
      name.IsLifecycle method → (∀ c, ¬ p.types.HasComposite ty c) →
        MethodOutcome p ty parenless name (.failure (.internal (.notComposite method) ty))
  /-- Whether the type is generic is asked of its generic form, and before its parent is. -/
  | genericInit {basic : TypeId} {c : Composite} {g : Genericity} : p.Needs ty .init parenless →
      p.types.IsFormOf ty basic c → p.decls.genericity p.types (c.genericForm basic) = .ok g →
        g.isGeneric = true →
          MethodOutcome p ty parenless .init (.failure (.unsupported .genericInitializer ty))
  | inheritingInit {basic : TypeId} {c : Composite} {g : Genericity} : p.Needs ty .init parenless →
      p.types.IsFormOf ty basic c → p.decls.genericity p.types (c.genericForm basic) = .ok g →
        g.isGeneric = false → c.kind = .classType → c.Inherits →
          MethodOutcome p ty parenless .init (.failure (.unsupported .inheritingClassInitializer ty))
  | init {basic : TypeId} {c : Composite} {g : Genericity} : p.Needs ty .init parenless →
      p.types.IsFormOf ty basic c → p.decls.genericity p.types (c.genericForm basic) = .ok g →
        g.isGeneric = false → ¬ (c.kind = .classType ∧ c.Inherits) →
          MethodOutcome p ty parenless .init (.signature ())
  | initCopy {c : Composite} : p.Needs ty .initCopy parenless → p.types.HasComposite ty c →
      MethodOutcome p ty parenless .initCopy (.signature ())
  | deinit {c : Composite} : p.Needs ty .deinit parenless → p.types.HasComposite ty c →
      MethodOutcome p ty parenless .deinit (.signature ())
  /-- Every other method that is needed is a record operator or a query, which are always built. -/
  | other {name : Name} : p.Needs ty name parenless → name.isLifecycleMethod = false →
      MethodOutcome p ty parenless name (.signature ())

/-- A refusal names the type of the request, and is never for want of a builder. -/
theorem Program.MethodOutcome.of_failure {p : Program} {ty : TypeId} {name : Name} {parenless : Bool}
    {e : GenerationError} (h : p.MethodOutcome ty parenless name (.failure e)) :
    e.type = ty ∧ ∀ method ty', e ≠ .internal (.noGenerator method) ty' := by
  cases h with
  | notComposite _ _ _ => exact ⟨rfl, fun _ _ => (nomatch ·)⟩
  | genericInit _ _ _ _ => exact ⟨rfl, fun _ _ => (nomatch ·)⟩
  | inheritingInit _ _ _ _ _ _ => exact ⟨rfl, fun _ _ => (nomatch ·)⟩

/-! ## Drafts of needed methods -/

section Drafts

variable {host : Host} {pool : TypePool} {ty basic : TypeId} {data : TypeData} {c : Composite}
  {name : Name} {parenless needed : Bool}

theorem Call.draftNeed_eq (h : host.needsMethod pool ty name parenless = .ok needed) :
    Call.draftNeed host pool ty name parenless = .ok needed := by
  obtain ⟨data, stored⟩ := exists_read?_of_needsMethod h
  rw [Call.draftNeed_of_read? stored, h]

/-- A request is drafted as nothing if the method is not needed. -/
theorem Call.draft_method_of_unneeded
    (h : host.needsMethod pool ty name parenless = .ok false) :
    (Call.method ty name parenless).draft host pool = .ok .nothing := by
  rw [Call.draft, draftNeed_eq h]
  rfl

/-- A request is drafted as what the builder of the method makes, if the method is needed. -/
theorem Call.draft_method_of_needed (h : host.needsMethod pool ty name parenless = .ok true) :
    (Call.method ty name parenless).draft host pool =
      (host.draftMethod pool ty name).run >>= fun made => .ok (.ofDrafted made) := by
  rw [Call.draft, draftNeed_eq h, ok_bind, draftSynthesis]
  rcases (host.draftMethod pool ty name).run with fault | (e | draft) <;> rfl

/-- Types that answer queries are builtin types that something is declared as. -/
theorem TypeKind.exists_queriedKind? {kind : TypeKind} (h : kind.answers name parenless = true) :
    ∃ declared, kind.queriedKind? = some declared := by
  cases kind with
  | tuple | domain | array | cPtr => exact ⟨_, rfl⟩
  | _ => exact nomatch h

/-- Every method that is needed has a builder, apart from the lifecycle methods. -/
theorem exists_draftMethod_of_other (needs : host.needsMethod pool ty name parenless = .ok true)
    (other : name.isLifecycleMethod = false)
    (genericity : ∀ data, pool.read? ty = some data → ∃ g, host.genericity pool ty = .ok g) :
    ∃ draft, (host.draftMethod pool ty name).run = .ok (.ok draft) := by
  obtain ⟨data, stored⟩ := exists_read?_of_needsMethod needs
  rw [TypePool.draftMethod_eq host other, TypePool.read_eq_ok_iff.2 stored, ok_bind]
  rcases Call.provides_or_answers stored (Call.draftNeed_eq needs) with provided | answered
  · obtain ⟨isRecord, operator⟩ : data.kind = .record ∧ name.isRecordOperator = true := by
      simpa [TypeKind.provides, other] using provided
    obtain ⟨c, rfl, -⟩ := TypeData.kind_eq_record_iff.1 isRecord
    obtain ⟨g, hg⟩ := genericity _ stored
    rw [isRecord]
    dsimp only [TypeKind.queriedKind?]
    rw [if_pos ⟨rfl, operator⟩, TypePool.draftRecordOperator_eq host stored, hg]
    exact ⟨_, rfl⟩
  · obtain ⟨declared, queried⟩ := TypeKind.exists_queriedKind? answered
    rw [queried]
    exact ⟨_, rfl⟩

end Drafts

/-! ## Fields of default initializers -/

namespace Declarations

variable {d : Declarations} {pool : TypePool} {form : TypeId} {c : Composite}

/-- The fields of a stored composite are of types that the pool has, and are generic with defaults left
aside exactly if the composite is. -/
theorem fields_of_genericity (wf : pool.WellFormed) (admitted : d.AdmittedBy pool)
    (stored : pool.read? form = some (.composite c)) {g : Genericity}
    (hg : d.genericity pool form = .ok g) :
    ∃ list, d.fields pool .ignoreDefaults form = .ok list ∧ list.isGeneric = g.isGeneric ∧
      ∀ field ∈ list.fields, pool.Admits field.type.type := by
  have found : pool.HasComposite form c := .inl stored
  obtain ⟨list, hlist, listOpen⟩ := fields_ignoreDefaults_spec wf admitted found
  obtain ⟨g', hg', isOpen⟩ := genericity_spec wf admitted (TypePool.admits_of_read? stored)
  obtain rfl := Except.ok.inj (hg.symm.trans hg')
  refine ⟨list, hlist, by rw [Bool.eq_iff_iff, listOpen, isOpen], ?_⟩
  have resolved := fields_eq_ok wf admitted found.compositeOf?_eq_ok .ignoreDefaults
  obtain rfl := Except.ok.inj (hlist.symm.trans resolved)
  intro field mem
  exact admits_of_mem_resolvedFields wf admitted stored mem

/-- Every field of a type that the pool has gives a formal of the default initializer. -/
theorem exists_initFormals (wf : pool.WellFormed) (admitted : d.AdmittedBy pool)
    {fields : List ResolvedField} (types : ∀ field ∈ fields, pool.Admits field.type.type) :
    ∃ formals, fields.mapM (d.host.initFormal pool) = .ok formals := by
  apply exists_mapM_eq_ok
  intro field mem
  obtain ⟨able, hable, -⟩ := isDefaultInitializable_spec wf admitted (types field mem)
  rw [Host.initFormal]
  cases field.hasDefault with
  | true => exact ⟨_, rfl⟩
  | false =>
    rw [if_neg Bool.false_ne_true, show d.host.isDefaultInitializable pool field.type.type = _
      from hable]
    exact ⟨_, rfl⟩

/-- The default initializer of a composite is refused for a generic type, and after that for a class that
inherits; otherwise it is built. -/
theorem draftInit_outcome (sound : pool.Sound) (admitted : d.AdmittedBy pool) {ty basic : TypeId}
    (found : pool.IsFormOf ty basic c) {g : Genericity}
    (hg : d.genericity pool (c.genericForm basic) = .ok g) :
    ∃ made, (d.host.draftMethod pool ty .init).run = .ok made ∧
      (Reply.ofDrafted made).outcome =
        if g.isGeneric then .failure (.unsupported .genericInitializer ty)
        else if c.kind = .classType && c.hasNontrivialParent then
          .failure (.unsupported .inheritingClassInitializer ty)
        else .signature () := by
  obtain ⟨c', stored, -⟩ := sound.read?_genericForm found
  obtain ⟨list, hlist, same, types⟩ := fields_of_genericity sound.wellFormed admitted stored hg
  obtain ⟨formals, hformals⟩ := exists_initFormals sound.wellFormed admitted types
  have drafted : (d.host.draftMethod pool ty .init).run = _ := sound.draftInit_eq d.host found
  rw [show d.host.fields pool .ignoreDefaults (c.genericForm basic) = _ from hlist,
    ok_bind, same, hformals, ok_bind] at drafted
  rw [drafted]
  split
  · exact ⟨_, rfl, rfl⟩
  split
  · exact ⟨_, rfl, rfl⟩
  · exact ⟨_, rfl, rfl⟩

end Declarations

/-! ## The list is exact -/

namespace Program

variable {p : Program} {ty : TypeId} {name : Name} {parenless : Bool} {outcome : Reply Unit}

/-- Each outcome in the list is what the request is drafted as. -/
theorem MethodOutcome.drafted (sound : p.types.Sound) (fit : p.decls.Fit p.types)
    (h : p.MethodOutcome ty parenless name outcome) :
    ∃ drafted, (Call.method ty name parenless).draft p.decls.host p.types = .ok drafted ∧
      drafted.outcome = outcome := by
  -- what is needed is drafted as its builder makes it
  have built : ∀ {made}, p.Needs ty name parenless →
      (p.decls.host.draftMethod p.types ty name).run = .ok made →
        (Call.method ty name parenless).draft p.decls.host p.types = .ok (.ofDrafted made) := by
    intro made needs hmade
    rw [Call.draft_method_of_needed needs, hmade]
    rfl
  cases h with
  | unknown known =>
    subst known
    exact ⟨.nothing, rfl, rfl⟩
  | unneeded unneeded => exact ⟨.nothing, Call.draft_method_of_unneeded unneeded, rfl⟩
  | notComposite needs lifecycle none =>
    obtain ⟨data, stored⟩ := exists_read?_of_needsMethod needs
    exact ⟨_, built needs (sound.draftMethod_of_none _ stored none lifecycle), rfl⟩
  | genericInit needs found hg generic =>
    obtain ⟨made, hmade, refused⟩ := Declarations.draftInit_outcome sound fit.admitted found hg
    exact ⟨_, built needs hmade, refused.trans (if_pos generic)⟩
  | inheritingInit needs found hg closed isClass inherits =>
    obtain ⟨made, hmade, refused⟩ := Declarations.draftInit_outcome sound fit.admitted found hg
    rw [closed, if_neg Bool.false_ne_true,
      if_pos (Composite.inheritingClass_iff.2 ⟨isClass, inherits⟩)] at refused
    exact ⟨_, built needs hmade, refused⟩
  | init needs found hg closed rooted =>
    obtain ⟨made, hmade, given⟩ := Declarations.draftInit_outcome sound fit.admitted found hg
    rw [closed, if_neg Bool.false_ne_true,
      if_neg (mt Composite.inheritingClass_iff.1 rooted)] at given
    exact ⟨_, built needs hmade, given⟩
  | initCopy needs composite =>
    obtain ⟨basic, found⟩ := TypePool.hasComposite_iff.1 composite
    exact ⟨_, built needs (TypePool.draftInitCopy_eq _ found), rfl⟩
  | deinit needs composite =>
    obtain ⟨basic, found⟩ := TypePool.hasComposite_iff.1 composite
    exact ⟨_, built needs (TypePool.draftDeinit_eq _ found), rfl⟩
  | other needs other =>
    obtain ⟨draft, hdraft⟩ := exists_draftMethod_of_other needs other fun data stored =>
      (Declarations.genericity_spec sound.wellFormed fit.admitted
        (TypePool.admits_of_read? stored)).imp fun _ => And.left
    exact ⟨_, built needs hdraft, rfl⟩

/-- A request for which it can be told whether the method is needed is in the list. -/
theorem exists_methodOutcome_of_need (sound : p.types.Sound) (fit : p.decls.Fit p.types)
    {needed : Bool} (hneeded : p.decls.host.needsMethod p.types ty name parenless = .ok needed) :
    ∃ outcome, p.MethodOutcome ty parenless name outcome := by
  cases needed with
  | false => exact ⟨_, .unneeded hneeded⟩
  | true =>
    cases lifecycle : name.isLifecycleMethod with
    | false => exact ⟨_, .other hneeded lifecycle⟩
    | true =>
      obtain ⟨method, lifecycle⟩ := Name.isLifecycleMethod_iff.1 lifecycle
      by_cases composite : ∃ c, p.types.HasComposite ty c
      · obtain ⟨c, hc⟩ := composite
        cases lifecycle with
        | initCopy => exact ⟨_, .initCopy hneeded hc⟩
        | deinit => exact ⟨_, .deinit hneeded hc⟩
        | init =>
          obtain ⟨basic, found⟩ := TypePool.hasComposite_iff.1 hc
          obtain ⟨c', generic, -⟩ := sound.read?_genericForm found
          obtain ⟨g, hg, -⟩ := Declarations.genericity_spec sound.wellFormed fit.admitted
            (TypePool.admits_of_read? generic)
          cases isGeneric : g.isGeneric with
          | true => exact ⟨_, .genericInit hneeded found hg isGeneric⟩
          | false =>
            by_cases inherits : c.kind = .classType ∧ c.Inherits
            · exact ⟨_, .inheritingInit hneeded found hg isGeneric inherits.1 inherits.2⟩
            · exact ⟨_, .init hneeded found hg isGeneric inherits⟩
      · exact ⟨_, .notComposite hneeded lifecycle (not_exists.1 composite)⟩

/-- The list leaves no request out. -/
theorem exists_methodOutcome (sound : p.types.Sound) (fit : p.decls.Fit p.types)
    (known : p.MentionsKnown) (admitted : p.types.Admits ty) (name : Name) (parenless : Bool) :
    ∃ outcome, p.MethodOutcome ty parenless name outcome := by
  rcases admitted with unknown | ⟨data, stored⟩
  · exact ⟨_, .unknown unknown⟩
  obtain ⟨shadows, hshadows, -⟩ := Declarations.isShadowed_spec fit.wellFormed sound known.parents
    (fun id f function formal => known.formals fit.admitted function) stored name
  obtain ⟨needed, hneeded⟩ : ∃ needed,
      p.decls.host.needsMethod p.types ty name parenless = .ok needed := by
    rw [Host.needsMethod_eq _ stored, hshadows]
    split
    · exact ⟨_, rfl⟩
    · exact ⟨_, rfl⟩
  exact exists_methodOutcome_of_need sound fit hneeded

end Program

theorem Reply.IsStoredAs.outcome_eq {types : TypePool} {signatures : SignaturePool}
    {drafted : Reply Draft} {reply : Reply SigId} (h : drafted.IsStoredAs types signatures reply) :
    drafted.outcome = reply.outcome := by
  cases drafted <;> cases reply <;> simp_all [Reply.IsStoredAs, Reply.outcome]

/-- A request for a method has a reply whatever was asked before, and the reply comes to what the list
says of the type, the name and the call shape, and to nothing else. -/
theorem method_outcome_exact (p : Program) (built : p.Built) (known : p.MentionsKnown) {ty : TypeId}
    (admitted : p.types.Admits ty) (name : Name) (parenless : Bool) (shards : Sharding)
    (history : List Call) :
    ∃ reply, (p.ask shards history (.method ty name parenless)).1 = .ok reply ∧
      (∀ outcome, p.MethodOutcome ty parenless name outcome ↔ outcome = reply.outcome) ∧
      ∀ e, reply = .failure e →
        e.type = ty ∧ ∀ method ty', e ≠ .internal (.noGenerator method) ty' := by
  have sound := built.wellFormed.types
  have fit := built.wellFormed.decls
  obtain ⟨faithful, g⟩ := built.faithful_queried shards history
  obtain ⟨outcome, listed⟩ := p.exists_methodOutcome sound fit known admitted name parenless
  obtain ⟨drafted, hdrafted, same⟩ := listed.drafted sound fit
  -- over the pools of the session the request is drafted as it is over those of the program
  obtain ⟨reply, hreply, stored⟩ := faithful.isStoredAs_ask p.decls.host_persistent
    (Call.draft_persists (p.decls.host_persistent g) g _ drafted hdrafted)
  have given : outcome = reply.outcome := same.symm.trans stored.outcome_eq
  refine ⟨reply, hreply, fun outcome' => ⟨fun listed' => ?_, ?_⟩, ?_⟩
  · obtain ⟨drafted', hdrafted', same'⟩ := listed'.drafted sound fit
    obtain rfl := Except.ok.inj (hdrafted.symm.trans hdrafted')
    exact same'.symm.trans stored.outcome_eq
  · rintro rfl
    exact given ▸ listed
  · rintro e rfl
    rw [given] at listed
    exact listed.of_failure

/-- Two classes that inherit from a third, the first of them with a field for a type. -/
def subclasses : Program :=
  .ofCalls .bySize [.module "M" none, .composite (.at 0) "P" .classType none,
    .composite (.at 0) "C" .classType (some (.known ⟨1, 0⟩)), .field (.known ⟨1, 1⟩) "t" .type,
    .composite (.at 0) "D" .classType (some (.known ⟨1, 0⟩))]

/-- The first class is generic and inherits, which are both reasons to refuse, and that it is generic
counts. The other one is refused because it inherits. -/
theorem subclasses_init_outcome : subclasses.Built ∧ subclasses.MentionsKnown ∧
    subclasses.types.Admits (.known ⟨1, 1⟩) ∧ subclasses.types.Admits (.known ⟨1, 2⟩) ∧
    (∀ outcome, subclasses.MethodOutcome (.known ⟨1, 1⟩) false .init outcome ↔
      outcome = .failure (.unsupported .genericInitializer (.known ⟨1, 1⟩))) ∧
    ∀ outcome, subclasses.MethodOutcome (.known ⟨1, 2⟩) false .init outcome ↔
      outcome = .failure (.unsupported .inheritingClassInitializer (.known ⟨1, 2⟩)) := by
  have built : subclasses.Built := Program.built_ofCalls _ _
  have known : subclasses.MentionsKnown := by
    refine ⟨by decide +kernel, ?_⟩
    rw [TypePool.parentsKnown_iff built.wellFormed.types.wellFormed.table]
    decide +kernel
  have admitted : ∀ ty, (subclasses.types.read? ty).isSome = true → subclasses.types.Admits ty :=
    fun _ stored => .inr (Option.isSome_iff_exists.1 stored)
  have generic := admitted (.known ⟨1, 1⟩) (by decide +kernel)
  have inheriting := admitted (.known ⟨1, 2⟩) (by decide +kernel)
  have first : (subclasses.ask .bySize [] (.method (.known ⟨1, 1⟩) .init false)).1 =
      .ok (.failure (.unsupported .genericInitializer (.known ⟨1, 1⟩))) := by cbv
  have second : (subclasses.ask .bySize [] (.method (.known ⟨1, 2⟩) .init false)).1 =
      .ok (.failure (.unsupported .inheritingClassInitializer (.known ⟨1, 2⟩))) := by cbv
  obtain ⟨reply, answer, listed, -⟩ :=
    method_outcome_exact subclasses built known generic .init false .bySize []
  obtain rfl := Except.ok.inj (first.symm.trans answer)
  obtain ⟨reply', answer', listed', -⟩ :=
    method_outcome_exact subclasses built known inheriting .init false .bySize []
  obtain rfl := Except.ok.inj (second.symm.trans answer')
  exact ⟨built, known, generic, inheriting, listed, listed'⟩

end MethodSynthesis
