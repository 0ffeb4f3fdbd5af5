import MethodSynthesis.Proofs.Ancestry
import MethodSynthesis.Proofs.Classification
import MethodSynthesis.Proofs.ReceiverNeeds

/-!
# Queries about programs that mention the unknown type

Fields, formals, receivers and parents of a program may be of unknown type. Most of the queries'
walks pass over the unknown type. Two reads do not: the intent of a receiver that is declared without
one is looked up by the receiver's type, and the search for an ancestor looks at the parent of a class.
`TypePool.Undetermined` says when these make it impossible to tell whether a type passes to a receiver,
and `Declarations.Obstructed` when an overload in sight of a type with such a receiver is considered.

That is all that can go wrong: an accessor always has an answer, and the question for a method, or for
the need of it, has one exactly if the type does not have the method or its overloads are not obstructed
(`answered_iff_not_obstructed`).
-/

set_option autoImplicit false

namespace MethodSynthesis

variable {pool : TypePool} {ty : TypeId} {q : Qualified} {data : TypeData} {c : Composite}

namespace TypePool

/-- It cannot be told whether a type passes to a receiver. -/
inductive Undetermined (pool : TypePool) (ty : TypeId) (q : Qualified) : Prop
  /-- The receiver is declared without an intent, and its type does not tell which one is meant. -/
  | intent : q.binding = .defaultIntent → q.type = .unknown → Undetermined pool ty q
  /-- The receiver is another class, under a decorator that the type may get. The type is not seen as
  this class, and the search among its ancestors comes to a parent that is unknown. -/
  | ancestry {basic form : TypeId} {seen received : Option Decorator} :
      q.binding.isTypeOrParam = false → ty ≠ q.type → pool.IsClassForm ty basic seen →
        pool.IsClassForm q.type form received → (seen.getD .borrowedNonNil).Becomes received →
          ¬ pool.SeenAs basic form → pool.DescendsFromUnknown basic → Undetermined pool ty q

/-- The class behind a type is a class. -/
theorem IsClassForm.isClass {basic : TypeId} {seen : Option Decorator}
    (h : pool.IsClassForm ty basic seen) (stored : pool.read? ty = some data) :
    data.kind.isClass = true := by
  obtain ⟨c, composite, kind⟩ := h.stored
  obtain ⟨data', stored', class?, -⟩ := h.isHeldAs.exists_data composite kind
  obtain rfl := Option.some.inj (stored.symm.trans stored')
  exact class?

/-- A type with a composite is a record or union, or a class. -/
theorem HasComposite.value_or_class (sound : pool.Sound) (hc : pool.HasComposite ty c) :
    (pool.read? ty = some (.composite c) ∧ c.kind ≠ .classType) ∨
      ∃ basic seen, pool.IsClassForm ty basic seen := by
  rcases hc with stored | ⟨basic, decorator, decorated, -⟩
  · by_cases kind : c.kind = .classType
    · exact .inr ⟨ty, none, classForm?_eq_ok_some_iff.2 (.inl ⟨rfl, rfl, c, stored⟩), c, stored, kind⟩
    · exact .inl ⟨stored, kind⟩
  · exact .inr ⟨basic, some decorator, classForm?_eq_ok_some_iff.2 (.inr ⟨decorator, rfl, decorated⟩),
      sound.coherent decorated⟩

theorem ne_unknown_of_read? (stored : pool.read? ty = some data) : ty ≠ .unknown := by
  rintro rfl
  exact nomatch stored

/-- A receiver of a stored type is undetermined only because of the ancestors of a class. -/
theorem Undetermined.of_same {q' : Qualified} (h : pool.Undetermined ty q)
    (known : q.type ≠ .unknown) (type : q'.type = q.type)
    (binding : q'.binding.isTypeOrParam = q.binding.isTypeOrParam) : pool.Undetermined ty q' := by
  rcases h with ⟨-, unknown⟩ | ⟨plain, other, source, target, becomes, unseen, lost⟩
  · exact absurd unknown known
  · exact .ancestry (binding.trans plain) (type ▸ other) source (type ▸ target) becomes unseen lost

theorem IsClassForm.undetermined_iff {basic : TypeId} {seen : Option Decorator}
    (source : pool.IsClassForm ty basic seen) (plain : q.binding.isTypeOrParam = false)
    (known : q.type ≠ .unknown) : pool.Undetermined ty q ↔
      ty ≠ q.type ∧ ∃ form received, pool.IsClassForm q.type form received ∧
        (seen.getD .borrowedNonNil).Becomes received ∧ ¬ pool.SeenAs basic form ∧
          pool.DescendsFromUnknown basic := by
  constructor
  · rintro (⟨-, unknown⟩ | ⟨-, other, source', target, becomes, unseen, lost⟩)
    · exact absurd unknown known
    · obtain ⟨rfl, rfl⟩ := source.unique source'
      exact ⟨other, _, _, target, becomes, unseen, lost⟩
  · rintro ⟨other, form, received, target, becomes, unseen, lost⟩
    exact .ancestry plain other source target becomes unseen lost

/-- Whether a class passes to a stored type can be told, unless its ancestors do not tell. -/
theorem Sound.exists_passTypes_iff (sound : pool.Sound) {basic : TypeId} {seen : Option Decorator}
    (source : pool.IsClassForm ty basic seen) (plain : q.binding.isTypeOrParam = false)
    {target : TypeData} (stored : pool.read? q.type = some target) :
    (∃ result, pool.passTypes ty q.type = .ok result) ↔ ¬ pool.Undetermined ty q := by
  obtain ⟨c, composite, kind⟩ := source.stored
  obtain ⟨data, hdata, class?, -⟩ := source.isHeldAs.exists_data composite kind
  rw [source.undetermined_iff plain (ne_unknown_of_read? stored)]
  by_cases same : ty = q.type
  · refine iff_of_true ⟨.exact, ?_⟩ fun h => h.1 same
    rw [sound.wellFormed.passTypes_eq hdata, passNames?, if_pos same]
  by_cases any : q.type = .any
  · refine iff_of_true ⟨.instantiating, ?_⟩ ?_
    · have other := sound.ne_primitive hdata (TypeData.ne_primitive_of_isClass class?)
      rw [sound.wellFormed.passTypes_eq hdata, passNames?_of_ne_primitive other, if_neg same, if_pos any]
    · rintro ⟨-, form, received, formal, -⟩
      cases (any ▸ formal).isClass (sound.wellFormed.primitives .any)
  rw [sound.passTypes_class source.isHeldAs composite kind same any stored]
  by_cases isClass : target.kind.isClass = true
  case neg =>
    rw [if_neg isClass]
    refine iff_of_true ⟨_, rfl⟩ ?_
    rintro ⟨-, form, received, formal, -⟩
    exact isClass (formal.isClass stored)
  rw [if_pos isClass]
  obtain ⟨form, received, formal⟩ :=
    sound.exists_isClassForm (isClass_eq_ok_true_iff.2 ⟨target, stored, isClass⟩)
  rcases sound.wellFormed.passClasses_cases source.form composite formal.form with
    ⟨result, passed, -, -, sees⟩ | ⟨passed, cannot⟩ | ⟨⟨fault, lost⟩, becomes, unseen, descends⟩
  · refine iff_of_true ⟨result, passed⟩ ?_
    rintro ⟨-, form', received', formal', -, unseen, -⟩
    exact unseen ((formal.unique formal').1 ▸ sees)
  · refine iff_of_true ⟨_, passed⟩ ?_
    rintro ⟨-, form', received', formal', becomes, -, descends⟩
    exact cannot ⟨(formal.unique formal').2 ▸ becomes, .inr descends⟩
  · rw [lost]
    refine iff_of_false (by rintro ⟨result, passed⟩; cases passed) fun told => told ?_
    exact ⟨same, form, received, formal, becomes, unseen, descends⟩

/-- Whether a record, union or class passes to a receiver of a stored type can be told, unless it is
undetermined. -/
theorem Sound.exists_canPass_iff (sound : pool.Sound) (hc : pool.HasComposite ty c)
    {target : TypeData} (stored : pool.read? q.type = some target) :
    (∃ outcome, pool.canPass (.var ty) q = .ok outcome) ↔ ¬ pool.Undetermined ty q := by
  obtain ⟨data, hdata, -, noArray⟩ := hc.stored
  have known := ne_unknown_of_read? stored
  rw [canPass_var_eq hdata noArray, isUnknown_of_read? stored, Bool.false_or]
  cases plain : q.binding.isTypeOrParam with
  | true =>
    refine iff_of_true ⟨_, rfl⟩ ?_
    rintro (⟨-, unknown⟩ | ⟨value, -⟩)
    · exact known unknown
    · exact nomatch plain.symm.trans value
  | false =>
    rw [if_neg Bool.false_ne_true]
    rw [exists_bind_ok_iff]
    rcases hc.value_or_class sound with ⟨composite, kind⟩ | ⟨basic, seen, source⟩
    · refine iff_of_true ⟨_, sound.passTypes_value composite kind ⟨target, stored⟩⟩ ?_
      rintro (⟨-, unknown⟩ | ⟨-, -, source, -⟩)
      · exact known unknown
      · exact kind (by simpa [isClass_composite] using source.isClass composite)
    · exact sound.exists_passTypes_iff source plain stored

/-- The intent of a receiver is resolved to one for values, and only if none is declared. -/
theorem exists_resolveIntent (stored : pool.read? q.type = some data) :
    ∃ receiver, pool.resolveIntent q = .ok receiver ∧ receiver.type = q.type ∧
      receiver.binding.isTypeOrParam = q.binding.isTypeOrParam := by
  have value : data.receiverBinding.isTypeOrParam = false := by
    cases data with
    | composite c =>
      by_cases kind : c.kind = .classType <;> simp [TypeData.receiverBinding, kind] <;> rfl
    | _ => rfl
  cases binding : q.binding with
  | defaultIntent =>
    refine ⟨q.withBinding data.receiverBinding, ?_, rfl, value⟩
    rw [resolveIntent, binding, read_eq_ok_iff.2 stored]
    rfl
  | _ => exact ⟨q, by rw [resolveIntent, binding]; rfl, rfl, by rw [binding]⟩

/-- Whether a record, union or class passes to a declared receiver can be told, unless it is
undetermined. -/
theorem Sound.exists_judgment_iff (sound : pool.Sound) (hc : pool.HasComposite ty c)
    (admitted : pool.Admits q.type) :
    (∃ receiver outcome, pool.resolveIntent q = .ok receiver ∧
      pool.canPass (.var ty) receiver = .ok outcome) ↔ ¬ pool.Undetermined ty q := by
  rcases admitted with unknown | ⟨target, stored⟩
  · by_cases default : q.binding = .defaultIntent
    · -- the type that would tell the intent is not there
      refine iff_of_false ?_ fun told => told (.intent default unknown)
      rintro ⟨receiver, -, resolved, -⟩
      rw [resolveIntent, default, unknown] at resolved
      cases resolved
    · have resolved : pool.resolveIntent q = .ok q := by
        rw [resolveIntent]
        split
        · exact absurd ‹_› default
        · rfl
      have fails : pool.canPass (.var ty) q = .ok .fail := by
        simp [TypePool.canPass, unknown, TypeId.isUnknown]
      refine iff_of_true ⟨q, .fail, resolved, fails⟩ ?_
      rintro (⟨intent, -⟩ | ⟨-, -, -, target, -⟩)
      · exact default intent
      · obtain ⟨c, composite, kind⟩ := target.stored
        obtain ⟨data, stored, -⟩ := target.isHeldAs.exists_data composite kind
        exact ne_unknown_of_read? stored unknown
  · obtain ⟨receiver, resolved, type, binding⟩ := exists_resolveIntent stored
    have stored' : pool.read? receiver.type = some target := type ▸ stored
    have same : pool.Undetermined ty receiver ↔ pool.Undetermined ty q :=
      ⟨fun h => h.of_same (ne_unknown_of_read? stored') type.symm binding.symm,
        fun h => h.of_same (ne_unknown_of_read? stored) type binding⟩
    rw [← same, ← sound.exists_canPass_iff hc stored', resolved]
    simp only [Except.ok.injEq, exists_and_left, exists_eq_left']

end TypePool

/-! ## Overloads in sight -/

namespace Declarations

variable {d : Declarations} {id : DeclId} {formal : FormalDecl} {name : Name}

/-- It cannot be told whether an overload in sight covers a type. Of the declarations that a lookup from
the scope of the type's declaration finds, innermost first, one is an overload whose receiver is
undetermined, and none before it covers the type. -/
def Obstructed (d : Declarations) (pool : TypePool) (ty : TypeId) (name : Name) : Prop :=
  ∃ c owned before id after formal, pool.HasComposite ty c ∧ d.scope? c.decl = some owned ∧
    d.scopes.lookup owned name .all = .ok (before ++ id :: after) ∧
    d.OverloadReceiver id formal ∧ pool.Undetermined ty formal.type ∧
    ∀ earlier ∈ before, ∀ f, d.function? earlier = some f → ¬ pool.IsCoveredBy ty f

theorem OverloadReceiver.unique {formal' : FormalDecl} (h : d.OverloadReceiver id formal)
    (h' : d.OverloadReceiver id formal') : formal = formal' := by
  obtain ⟨f, function, -, receiver⟩ := h
  obtain ⟨f', function', -, receiver'⟩ := h'
  obtain rfl := Option.some.inj (function.symm.trans function')
  exact Option.some.inj ((FunctionDecl.receiver?_eq_some_iff.2 receiver).symm.trans
    (FunctionDecl.receiver?_eq_some_iff.2 receiver'))

/-- The receiver of an overload is of a type that the pool has. -/
theorem OverloadReceiver.admits (h : d.OverloadReceiver id formal) (admitted : d.AdmittedBy pool) :
    pool.Admits formal.type.type := by
  obtain ⟨f, function, -, receiver⟩ := h
  obtain ⟨decl, entry, mentioned⟩ := exists_mem_types function receiver.mem
  exact admitted decl entry _ mentioned

/-- Whether a declaration covers a type can be told, unless it is an overload whose receiver is
undetermined. -/
theorem exists_covers_iff (sound : pool.Sound) (admitted : d.AdmittedBy pool)
    (hc : pool.HasComposite ty c) : (∃ covered, d.host.covers pool ty id = .ok covered) ↔
      ¬ ∃ formal, d.OverloadReceiver id formal ∧ pool.Undetermined ty formal.type := by
  by_cases found : ∃ formal, d.OverloadReceiver id formal
  case neg =>
    refine iff_of_true ⟨_, covers_eq_false (not_exists.1 found)⟩ ?_
    exact fun ⟨formal, overload, _⟩ => found ⟨formal, overload⟩
  obtain ⟨formal, overload⟩ := found
  have only : (∃ formal, d.OverloadReceiver id formal ∧ pool.Undetermined ty formal.type) ↔
      pool.Undetermined ty formal.type :=
    ⟨fun ⟨_, h, lost⟩ => overload.unique h ▸ lost, fun lost => ⟨formal, overload, lost⟩⟩
  rw [only, ← sound.exists_judgment_iff hc (overload.admits admitted), covers_eq overload]
  constructor
  · rintro ⟨covered, h⟩
    obtain ⟨receiver, resolved, h⟩ := bind_eq_ok.1 h
    obtain ⟨outcome, passed, -⟩ := bind_eq_ok.1 h
    exact ⟨receiver, outcome, resolved, passed⟩
  · rintro ⟨receiver, outcome, resolved, passed⟩
    rw [resolved, ok_bind, passed]
    exact ⟨_, rfl⟩

/-- Whether a method is shadowed can be told, unless the overloads are obstructed. -/
theorem exists_isShadowed_iff (wf : d.WellFormed) (sound : pool.Sound) (admitted : d.AdmittedBy pool)
    (stored : pool.read? ty = some data) :
    (∃ shadowed, d.host.isShadowed pool ty name = .ok shadowed) ↔ ¬ d.Obstructed pool ty name := by
  by_cases composite : ∃ c, pool.HasComposite ty c
  case neg =>
    refine iff_of_true ⟨false, isShadowed_of_plain sound stored (not_exists.1 composite) name⟩ ?_
    rintro ⟨c, -, -, -, -, -, hc, -⟩
    exact composite ⟨c, hc⟩
  obtain ⟨c, hc⟩ := composite
  cases scope : d.scope? c.decl with
  | none =>
    refine iff_of_true ⟨false, isShadowed_of_unowned hc scope name⟩ ?_
    rintro ⟨c', owned, -, -, -, -, hc', scope', -⟩
    obtain rfl := hc.unique hc'
    cases scope.symm.trans scope'
  | some owned =>
    obtain ⟨ids, found, -⟩ := ScopeTree.lookup_spec wf.nested owned name .all
    rw [isShadowed_eq_anyM hc scope found, exists_anyM_iff]
    refine not_congr ⟨?_, ?_⟩
    · rintro ⟨before, id, after, rfl, lost, uncovered⟩
      have noAnswer : ¬ ∃ covered, d.host.covers pool ty id = .ok covered := not_exists.2 lost
      rw [exists_covers_iff sound admitted hc, not_not] at noAnswer
      obtain ⟨formal, overload, undetermined⟩ := noAnswer
      refine ⟨c, owned, before, id, after, formal, hc, scope, found, overload, undetermined, ?_⟩
      intro earlier mem f function covered
      exact uncovered earlier mem (covers_eq_ok_true_iff.2 ⟨f, function, covered⟩)
    · rintro ⟨c', owned', before, id, after, formal, hc', scope', found', overload, undetermined,
        uncovered⟩
      obtain rfl := hc.unique hc'
      obtain rfl := Option.some.inj (scope.symm.trans scope')
      obtain rfl := Except.ok.inj (found.symm.trans found')
      refine ⟨before, id, after, rfl, fun covered h => ?_, fun earlier mem covers => ?_⟩
      · exact (exists_covers_iff sound admitted hc).1 ⟨covered, h⟩ ⟨formal, overload, undetermined⟩
      · obtain ⟨f, function, covered⟩ := covers_eq_ok_true_iff.1 covers
        exact uncovered earlier mem f function covered

/-- Whether a method is needed can be told, unless the type has the method and its overloads are
obstructed. -/
theorem exists_needsMethod_iff (wf : d.WellFormed) (sound : pool.Sound)
    (admitted : d.AdmittedBy pool) (stored : pool.read? ty = some data) (parenless : Bool) :
    (∃ needed, d.host.needsMethod pool ty name parenless = .ok needed) ↔
      ¬ (data.HasMethod name ∧ d.Obstructed pool ty name) := by
  rw [d.host.needsMethod_eq stored, ← TypeData.provides_iff]
  cases provides : data.kind.provides name with
  | false => exact iff_of_true ⟨_, rfl⟩ fun h => nomatch h.1
  | true =>
    rw [if_pos rfl, and_iff_right rfl, ← exists_isShadowed_iff wf sound admitted stored]
    cases d.host.isShadowed pool ty name with
    | ok shadowed => exact iff_of_true ⟨_, rfl⟩ ⟨shadowed, rfl⟩
    | error fault => exact iff_of_false (fun ⟨_, h⟩ => nomatch h) fun ⟨_, h⟩ => nomatch h

/-- A field is searched by its name in the declaration of the composite. -/
theorem fieldId?_eq_ok (hc : pool.HasComposite ty c) (field : Name) :
    d.fieldId? pool ty field = .ok (d.fieldNamed? c.decl field) := by
  rw [fieldId?, hc.compositeOf?_eq_ok]
  rfl

/-- The accessor of a composite's field is one of the composite's undecorated form. -/
theorem draftAccessor_eq {basic : TypeId} (form : pool.IsFormOf ty basic c) (field : Name) :
    d.host.draftAccessor pool ty field =
      .ok ((d.fieldNamed? c.decl field).map (d.host.accessorDraft c basic field)) := by
  obtain ⟨hbasic, stored⟩ := TypePool.isFormOf_iff.1 form
  have declared : d.host.fieldId? pool basic field = .ok (d.fieldNamed? c.decl field) :=
    fieldId?_eq_ok (.inl stored) field
  rw [Host.draftAccessor, hbasic, ok_bind, TypePool.composite?_eq_ok_some_iff.2 stored, ok_bind]
  dsimp only
  rw [declared, ok_bind]
  cases d.fieldNamed? c.decl field with
  | none => rfl
  | some id => rfl

/-- A type without a composite has no fields to search and no accessors. -/
theorem fieldId?_of_none (sound : pool.Sound) (stored : pool.read? ty = some data)
    (none : ∀ c, ¬ pool.HasComposite ty c) (field : Name) :
    d.fieldId? pool ty field = .ok .none ∧ d.host.draftAccessor pool ty field = .ok .none := by
  have answer := sound.compositeOf?_of_none stored none
  obtain ⟨basic, hbasic, hfound⟩ := bind_eq_ok.1 answer
  rw [fieldId?, answer, Host.draftAccessor, hbasic, ok_bind, ok_bind, hfound]
  exact ⟨rfl, rfl⟩

/-- Whether a type has an accessor for a field can always be told. -/
theorem exists_draftAccessor (sound : pool.Sound) (stored : pool.read? ty = some data)
    (field : Name) : ∃ drafted, d.host.draftAccessor pool ty field = .ok drafted := by
  by_cases composite : ∃ c, pool.HasComposite ty c
  · obtain ⟨c, hc⟩ := composite
    obtain ⟨basic, form⟩ := TypePool.hasComposite_iff.1 hc
    exact ⟨_, draftAccessor_eq form field⟩
  · exact ⟨none, (fieldId?_of_none sound stored (not_exists.1 composite) field).2⟩

/-- Nothing is obstructed where the parents of classes are known and a receiver without an intent is of
known type. Fields, other formals, and receivers with an intent may be of unknown type. -/
theorem not_obstructed (known : pool.ParentsKnown) (intents : ∀ id formal,
      d.OverloadReceiver id formal → formal.type.binding = .defaultIntent →
        formal.type.type ≠ .unknown) : ¬ d.Obstructed pool ty name := by
  rintro ⟨c, owned, before, id, after, formal, -, -, -, overload, undetermined, -⟩
  cases undetermined with
  | intent default unknown => exact intents id formal overload default unknown
  | ancestry _ _ source _ _ _ lost =>
    obtain ⟨c', stored, -⟩ := source.stored
    -- the last step of the chain is to the unknown parent
    rcases Relation.ReflTransGen.cases_tail lost with same | ⟨last, -, composite, parent, eq⟩
    · exact TypePool.ne_unknown_of_read? stored same.symm
    · exact known parent eq

end Declarations

/-! ## Queries -/

namespace Program

variable {p : Program}

/-- The need for a method is told for the unknown type, and for a stored type unless its overloads are
obstructed. -/
theorem exists_draftNeed_iff (sound : p.types.Sound) (fit : p.decls.Fit p.types)
    (admitted : p.types.Admits ty) (name : Name) (parenless : Bool) :
    (∃ needed, Call.draftNeed p.decls.host p.types ty name parenless = .ok needed) ↔
      ¬ ∃ data, p.types.read? ty = some data ∧ data.HasMethod name ∧
        p.decls.Obstructed p.types ty name := by
  rcases admitted with rfl | ⟨data, stored⟩
  · refine iff_of_true ⟨false, rfl⟩ ?_
    rintro ⟨data, stored, -⟩
    exact nomatch stored
  · rw [Call.draftNeed_of_read? stored,
      Declarations.exists_needsMethod_iff fit.wellFormed sound fit.admitted stored]
    simp only [stored, Option.some.injEq, exists_eq_left']

/-- A method can be drafted, or is refused, wherever the need for it is told. -/
theorem exists_draft_method_iff (sound : p.types.Sound) (fit : p.decls.Fit p.types) (name : Name)
    (parenless : Bool) :
    (∃ drafted, (Call.method ty name parenless).draft p.decls.host p.types = .ok drafted) ↔
      ∃ needed, Call.draftNeed p.decls.host p.types ty name parenless = .ok needed := by
  constructor
  · rintro ⟨drafted, h⟩
    obtain ⟨needed, hneeded, -⟩ := bind_eq_ok.1 h
    exact ⟨needed, hneeded⟩
  · rintro ⟨needed, hneeded⟩
    obtain ⟨outcome, listed⟩ : ∃ outcome, p.MethodOutcome ty parenless name outcome := by
      by_cases unknown : ty = .unknown
      · exact ⟨_, .unknown unknown⟩
      · rw [Call.draftNeed, if_neg (by simpa [TypeId.isUnknown] using unknown)] at hneeded
        exact exists_methodOutcome_of_need sound fit hneeded
    obtain ⟨drafted, hdrafted, -⟩ := listed.drafted sound fit
    exact ⟨drafted, hdrafted⟩

/-- An accessor is drafted, or found not to exist, for every type. -/
theorem exists_draft_accessor (sound : p.types.Sound) (admitted : p.types.Admits ty) (field : Name) :
    ∃ drafted, (Call.accessor (some ty) field).draft p.decls.host p.types = .ok drafted := by
  rcases admitted with rfl | ⟨data, stored⟩
  · exact ⟨.nothing, rfl⟩
  · obtain ⟨drafted, hdrafted⟩ := Declarations.exists_draftAccessor sound stored field
    have known : Option.filter (!·.isUnknown) (some ty) = some ty := by
      simp [TypePool.isUnknown_of_read? stored]
    rw [Call.draft, known]
    exact ⟨_, bind_eq_ok.2 ⟨drafted, hdrafted, rfl⟩⟩

end Program

/-- Whatever types the declarations of a program mention, be they unknown, an accessor is always
answered, and so is the question for a method and for the need of it, unless the type has the method and
its overloads are obstructed. -/
theorem answered_iff_not_obstructed (p : Program) (built : p.Built) (shards : Sharding)
    (history : List Call) {ty : TypeId}
    (admitted : (p.queried shards history).program.types.Admits ty) (name : Name)
    (parenless : Bool) :
    (∀ asked ∈ [none, some ty],
      ∃ reply, (p.ask shards history (.accessor asked name)).1 = .ok reply) ∧
    ((∃ reply, (p.ask shards history (.need ty name parenless)).1 = .ok reply) ↔
      ¬ ∃ data, (p.queried shards history).program.types.read? ty = some data ∧
        data.HasMethod name ∧ p.decls.Obstructed (p.queried shards history).program.types ty name) ∧
    ((∃ reply, (p.ask shards history (.method ty name parenless)).1 = .ok reply) ↔
      ¬ ∃ data, (p.queried shards history).program.types.read? ty = some data ∧
        data.HasMethod name ∧ p.decls.Obstructed (p.queried shards history).program.types ty name) := by
  obtain ⟨faithful, g⟩ := built.faithful_queried shards history
  have sound := (built.reached_queried shards history).sound.program.types
  have fit := built.wellFormed.decls.grows g.before.table g.after.table g.ext
  have asked : ∀ {call : Call}, (∃ reply, (p.ask shards history call).1 = .ok reply) ↔
      ∃ drafted,
        call.draft p.decls.host (p.queried shards history).program.types = .ok drafted :=
    faithful.ask_eq_ok_iff p.decls.host_persistent
  -- the program with the types that the queries have stored besides
  let grown : Program := { p with types := (p.queried shards history).program.types }
  have told := Program.exists_draftNeed_iff (p := grown) sound fit admitted name parenless
  refine ⟨fun asked' mem => asked.2 ?_, ?_, ?_⟩
  · rcases List.mem_cons.1 mem with rfl | mem
    · exact ⟨.nothing, rfl⟩
    · obtain rfl := List.mem_singleton.1 mem
      exact Program.exists_draft_accessor (p := grown) sound admitted name
  · rw [asked, ← told]
    constructor
    · rintro ⟨drafted, h⟩
      obtain ⟨needed, hneeded, -⟩ := bind_eq_ok.1 h
      exact ⟨needed, hneeded⟩
    · rintro ⟨needed, hneeded⟩
      exact ⟨_, bind_eq_ok.2 ⟨needed, hneeded, rfl⟩⟩
  · rw [asked, ← told]
    exact Program.exists_draft_method_iff (p := grown) sound fit name parenless

/-- A record whose initializer has its receiver without an intent and of unknown type. -/
def vagueReceiver : Program :=
  ((Program.ofCalls .bySize [.module "M" none, .composite (.at 0) "R" .record none]).addNamed
    (.at 1) "init" .procedure true [⟨.receiver, ⟨.defaultIntent, .unknown⟩, false⟩]).2

theorem built_vagueReceiver : vagueReceiver.Built := by
  refine @Program.Built.step _ _ (.named (.at 1) "init" .procedure true
    [⟨.receiver, ⟨.defaultIntent, .unknown⟩, false⟩]) (Program.built_ofCalls _ _) ?_ rfl
  intro ty mem
  exact .inl (List.mem_singleton.1 mem)

/-- Whether the record needs the initializer is not answered, and neither is the question for it. -/
theorem vagueReceiver_unanswered : vagueReceiver.Built ∧
    (∃ data, vagueReceiver.types.read? (.known ⟨1, 0⟩) = some data) ∧
    (¬ ∃ reply, (vagueReceiver.ask .bySize [] (.need (.known ⟨1, 0⟩) .init false)).1 = .ok reply) ∧
    ¬ ∃ reply, (vagueReceiver.ask .bySize [] (.method (.known ⟨1, 0⟩) .init false)).1 = .ok reply := by
  have stored : (vagueReceiver.types.read? (.known ⟨1, 0⟩)).isSome = true := by decide +kernel
  have need : (vagueReceiver.ask .bySize [] (.need (.known ⟨1, 0⟩) .init false)).1 =
      .error (.missingType .unknown) := by cbv
  have method : (vagueReceiver.ask .bySize [] (.method (.known ⟨1, 0⟩) .init false)).1 =
      .error (.missingType .unknown) := by cbv
  refine ⟨built_vagueReceiver, Option.isSome_iff_exists.1 stored, ?_, ?_⟩
  · rintro ⟨reply, answer⟩
    cases need.symm.trans answer
  · rintro ⟨reply, answer⟩
    cases method.symm.trans answer

/-- The overloads of the initializer are obstructed. The deinitializer is told, and so is an accessor. -/
theorem vagueReceiver_obstructed : vagueReceiver.Built ∧
    (vagueReceiver.queried .bySize []).program.types.Admits (.known ⟨1, 0⟩) ∧
    vagueReceiver.decls.Obstructed (vagueReceiver.queried .bySize []).program.types
      (.known ⟨1, 0⟩) .init ∧
    (∃ reply,
      (vagueReceiver.ask .bySize [] (.accessor (some (.known ⟨1, 0⟩)) .deinit)).1 = .ok reply) ∧
    ∃ reply, (vagueReceiver.ask .bySize [] (.method (.known ⟨1, 0⟩) .deinit false)).1 = .ok reply := by
  have stored : (vagueReceiver.types.read? (.known ⟨1, 0⟩)).isSome = true := by decide +kernel
  have admitted : (vagueReceiver.queried .bySize []).program.types.Admits (.known ⟨1, 0⟩) :=
    .inr (Option.isSome_iff_exists.1 stored)
  have lost : (vagueReceiver.ask .bySize [] (.need (.known ⟨1, 0⟩) .init false)).1 =
      .error (.missingType .unknown) := by cbv
  have given : (vagueReceiver.ask .bySize [] (.method (.known ⟨1, 0⟩) .deinit false)).1 =
      .ok (.signature ⟨⟨1, 0⟩⟩) := by cbv
  obtain ⟨-, need, -⟩ :=
    answered_iff_not_obstructed vagueReceiver built_vagueReceiver .bySize [] admitted .init false
  obtain ⟨accessor, -, -⟩ :=
    answered_iff_not_obstructed vagueReceiver built_vagueReceiver .bySize [] admitted .deinit false
  refine ⟨built_vagueReceiver, admitted, ?_, accessor _ (.tail _ List.mem_cons_self), ⟨_, given⟩⟩
  by_contra free
  have told : ∃ reply,
      (vagueReceiver.ask .bySize [] (.need (.known ⟨1, 0⟩) .init false)).1 = .ok reply := by
    refine need.2 ?_
    rintro ⟨data, -, -, obstructed⟩
    exact free obstructed
  obtain ⟨reply, answer⟩ := told
  cases lost.symm.trans answer

end MethodSynthesis
