import MethodSynthesis.Proofs.Need
import MethodSynthesis.Proofs.ReceiverFormals

/-!
# What drafts hold

Each builder of drafts is described once, over a sound pool: what it reads, when it refuses, and the
draft that it ends with. `Host.MethodDraft` and `Host.AccessorDraft` are the drafts of the methods and
accessors of a type, and `TypePool.CastDraft` those of casts; `TypePool.Sound.draftMethod_eq_ok_iff`,
`TypePool.draftAccessor_eq_ok_iff` and `TypePool.castDraft_of_eq_ok` say that the builders make no
others. What is said of drafts elsewhere follows from these descriptions.
-/

set_option autoImplicit false

namespace MethodSynthesis

variable {host : Host} {pool : TypePool} {ty basic form : TypeId} {data : TypeData} {c : Composite}
  {name : Name} {draft : Draft}

/-! ## The composite behind a type -/

namespace TypePool

/-- The type is a composite, or a class under a decorator, with the given undecorated form. -/
def IsFormOf (pool : TypePool) (ty basic : TypeId) (c : Composite) : Prop :=
  pool.read? basic = some (.composite c) ∧
    (ty = basic ∨ ∃ decorator, pool.read? ty = some (.decorated basic decorator))

theorem isFormOf_iff : pool.IsFormOf ty basic c ↔
    pool.undecorated ty = .ok basic ∧ pool.read? basic = some (.composite c) := by
  constructor
  · rintro ⟨stored, rfl | ⟨decorator, decorated⟩⟩
    · refine ⟨?_, stored⟩
      rw [undecorated_eq_ok stored]
      by_cases kind : c.kind = .classType <;> simp [TypeData.basicClass?, kind]
    · exact ⟨undecorated_eq_ok decorated, stored⟩
  · rintro ⟨hbasic, stored⟩
    exact ⟨stored, eq_or_decorated hbasic⟩

theorem hasComposite_iff : pool.HasComposite ty c ↔ ∃ basic, pool.IsFormOf ty basic c := by
  constructor
  · rintro (stored | ⟨basic, decorator, decorated, stored⟩)
    · exact ⟨ty, stored, .inl rfl⟩
    · exact ⟨basic, stored, .inr ⟨decorator, decorated⟩⟩
  · rintro ⟨basic, stored, rfl | ⟨decorator, decorated⟩⟩
    · exact .inl stored
    · exact .inr ⟨basic, decorator, decorated, stored⟩

theorem compositeParts_eq_ok_iff {method : CompositeMethod} :
    (pool.compositeParts method ty).run = .ok (.ok (basic, c)) ↔ pool.IsFormOf ty basic c := by
  constructor
  · intro h
    exact isFormOf_iff.2 (compositeParts_eq_ok h)
  · intro found
    obtain ⟨hbasic, stored⟩ := isFormOf_iff.1 found
    rw [compositeParts, run_draft_bind, run_draft_lift, hbasic, ok_bind, ok_bind]
    dsimp only
    rw [run_draft_bind, run_draft_lift, composite?_eq_ok_some_iff.2 stored]
    rfl

/-- Nothing is built from the fields' side of a type that has none. -/
theorem Sound.compositeParts_of_none (sound : pool.Sound) (stored : pool.read? ty = some data)
    (none : ∀ c, ¬ pool.HasComposite ty c) (method : CompositeMethod) :
    (pool.compositeParts method ty).run = .ok (.error (.internal (.notComposite method) ty)) := by
  obtain ⟨basic, hbasic, hnone⟩ := bind_eq_ok.1 (sound.compositeOf?_of_none stored none)
  rw [compositeParts, run_draft_bind, run_draft_lift, hbasic, ok_bind, ok_bind]
  dsimp only
  rw [run_draft_bind, run_draft_lift, hnone]
  rfl

end TypePool

/-! ## Receivers and drafts -/

/-- The generic form of a composite type of this structure. -/
def Composite.genericForm (c : Composite) (ty : TypeId) : TypeId := c.instantiatedFrom.getD ty

/-- The formal that receives a form of the composite in a lifecycle method. -/
def Composite.receiver (c : Composite) (form : TypeId) : DraftFormal :=
  if c.kind = .classType then .plain .receiver .constIn (.borrowed form)
  else .plain .receiver .ref (.given form)

/-- The receiver is a formal that no declaration stands behind. -/
theorem Composite.plain_receiver (c : Composite) (form : TypeId) :
    DraftFormal.plain .receiver (c.receiver form).binding (c.receiver form).type =
      c.receiver form := by
  by_cases class? : c.kind = .classType <;> simp [Composite.receiver, class?, DraftFormal.plain]

namespace TypePool

theorem Sound.read?_genericForm (sound : pool.Sound) (found : pool.IsFormOf ty basic c) :
    ∃ c', pool.read? (c.genericForm basic) = some (.composite c') ∧ c'.kind = c.kind :=
  ⟨_, sound.read?_generic found.1, rfl⟩

theorem lifecycleReceiver_eq_ok {c' : Composite} (stored : pool.read? form = some (.composite c'))
    (kind : c'.kind = c.kind) :
    pool.lifecycleReceiver form = .ok ((c.receiver form).binding, (c.receiver form).type) := by
  have hbasic := (isFormOf_iff.1 ⟨stored, .inl rfl⟩).1
  rw [lifecycleReceiver, isClass_eq_ok stored, isClass_composite, kind, ok_bind, hbasic]
  by_cases class? : c.kind = .classType <;> simp [Composite.receiver, class?, DraftFormal.plain]

end TypePool

namespace Host

/-- The draft of a lifecycle method that receives a form of the composite. -/
def lifecycleDraft (host : Host) (c : Composite) (name : Name) (form : TypeId)
    (rest : List DraftFormal) : Draft :=
  ⟨c.decl, name, true, host.ownerKind c, .procedure, c.receiver form :: rest, false⟩

/-- The draft of a record operator over a form of the record. -/
def recordOperatorDraft (host : Host) (c : Composite) (name : Name) (form : TypeId)
    (genericity : Genericity) : Draft :=
  let binding := if name = .equals then .ref else .constRef
  ⟨c.decl, name, true, host.ownerKind c, .operator,
    [.plain .receiver binding (.given form), .plain .lhs binding (.given form),
      .plain .rhs .constRef (.given form)], genericity.isGeneric⟩

/-- The draft of the accessor of a field. -/
def accessorDraft (host : Host) (c : Composite) (basic : TypeId) (field : Name) (id : DeclId) :
    Draft :=
  ⟨id, field, true, (host.declKind? id).getD .field, .procedure,
    [.plain .receiver .refMaybeConst
      (if c.kind = .classType then .borrowed basic else .given basic)], false⟩

end Host

/-- The draft of a cast between an enumeration and the integral types. -/
def Enumeration.castDraft (e : Enumeration) (ty : TypeId) (direction : CastDirection) : Draft :=
  let (source, target) := match direction with
    | .fromEnum => (ty, TypeId.integral)
    | .toEnum => (TypeId.integral, ty)
  ⟨e.decl, .cast, false, .enum, .operator,
    [.plain .castSource .defaultIntent (.given source), .plain .castTarget .type (.given target)],
    true⟩

/-! ## The builders -/

namespace TypePool

section Builders

variable (host : Host)

theorem draftInitCopy_eq (found : pool.IsFormOf ty basic c) :
    (host.draftInitCopy pool ty).run = .ok (.ok (host.lifecycleDraft c .initCopy basic
      [.plain .other .constRef (c.receiver basic).type])) := by
  rw [Host.draftInitCopy, run_draft_bind, compositeParts_eq_ok_iff.2 found, ok_bind]
  dsimp only
  rw [run_draft_bind, run_draft_lift, lifecycleReceiver_eq_ok found.1 rfl, ok_bind, ok_bind]
  dsimp only
  rw [Composite.plain_receiver]
  rfl

theorem draftDeinit_eq (found : pool.IsFormOf ty basic c) :
    (host.draftDeinit pool ty).run = .ok (.ok (host.lifecycleDraft c .deinit basic [])) := by
  rw [Host.draftDeinit, run_draft_bind, compositeParts_eq_ok_iff.2 found, ok_bind]
  dsimp only
  rw [run_draft_bind, run_draft_lift, lifecycleReceiver_eq_ok found.1 rfl, ok_bind, ok_bind]
  dsimp only
  rw [Composite.plain_receiver]
  rfl

/-- The default initializer is refused for open fields, and after that for a class that inherits. -/
theorem Sound.draftInit_eq (sound : pool.Sound) (found : pool.IsFormOf ty basic c) :
    (host.draftInit pool ty).run =
      host.fields pool .ignoreDefaults (c.genericForm basic) >>= fun fields =>
        if fields.isGeneric then .ok (.error (.unsupported .genericInitializer ty))
        else if c.kind = .classType && c.hasNontrivialParent then
          .ok (.error (.unsupported .inheritingClassInitializer ty))
        else fields.fields.mapM (host.initFormal pool) >>= fun formals =>
          .ok (.ok (host.lifecycleDraft c .init (c.genericForm basic) formals)) := by
  obtain ⟨c', generic, kind⟩ := sound.read?_genericForm found
  have root : pool.genericRoot basic = .ok (c.genericForm basic) := genericRoot_eq_ok found.1
  rw [Host.draftInit, run_draft_bind, compositeParts_eq_ok_iff.2 found, ok_bind]
  dsimp only
  rw [run_draft_bind, run_draft_lift, root, ok_bind, ok_bind]
  dsimp only
  rw [run_draft_bind, run_draft_lift]
  cases host.fields pool .ignoreDefaults (c.genericForm basic) with
  | error fault => rfl
  | ok fields =>
    rw [ok_bind, ok_bind, ok_bind]
    dsimp only
    split
    · rfl
    split
    · rfl
    rw [run_draft_bind, run_draft_lift, lifecycleReceiver_eq_ok generic kind, ok_bind, ok_bind]
    dsimp only
    rw [Composite.plain_receiver, run_draft_bind, run_draft_lift]
    cases fields.fields.mapM (host.initFormal pool) <;> rfl

/-- Comparison and assignment say whether the record is generic. -/
theorem draftRecordOperator_eq (stored : pool.read? ty = some (.composite c)) :
    (host.draftRecordOperator pool ty name).run = host.genericity pool ty >>= fun genericity =>
      .ok (.ok (host.recordOperatorDraft c name (c.genericForm ty) genericity)) := by
  have root : pool.genericRoot ty = .ok (c.genericForm ty) := genericRoot_eq_ok stored
  rw [Host.draftRecordOperator, run_draft_bind,
    compositeParts_eq_ok_iff.2 ⟨stored, .inl rfl⟩, ok_bind]
  dsimp only
  rw [run_draft_bind, run_draft_lift, root, ok_bind, ok_bind]
  dsimp only
  rw [run_draft_bind, run_draft_lift]
  cases host.genericity pool ty <;> rfl

end Builders

end TypePool

/-- The names of lifecycle methods, each with the builder of the method. -/
inductive Name.IsLifecycle : Name → CompositeMethod → Prop
  | init : IsLifecycle .init .init
  | initCopy : IsLifecycle .initCopy .initCopy
  | deinit : IsLifecycle .deinit .deinit

/-- What a builtin type whose values answer queries counts as declared as. -/
def TypeKind.queriedKind? : TypeKind → Option DeclKind
  | .tuple => some .tuple
  | .domain => some .domain
  | .array => some .array
  | .cPtr => some .cPtr
  | _ => none

/-- No operator is a lifecycle method. -/
theorem Name.isLifecycleMethod_of_isRecordOperator (h : name.isRecordOperator = true) :
    name.isLifecycleMethod = false := by
  rcases (by simpa [Name.isRecordOperator] using h) with rfl | rfl <;> rfl

theorem Name.isLifecycleMethod_iff :
    name.isLifecycleMethod = true ↔ ∃ method, name.IsLifecycle method := by
  simp only [Name.isLifecycleMethod, Bool.or_eq_true, decide_eq_true_eq]
  constructor
  · rintro ((rfl | rfl) | rfl)
    · exact ⟨_, .init⟩
    · exact ⟨_, .deinit⟩
    · exact ⟨_, .initCopy⟩
  · rintro ⟨method, lifecycle⟩
    cases lifecycle <;> simp

namespace TypePool

theorem draft_bind_error {α β : Type} {x : Drafting α} {f : α → Drafting β} {e : GenerationError}
    (h : x.run = .ok (.error e)) : (x >>= f).run = .ok (.error e) := by
  rw [run_draft_bind, h]
  rfl

section Methods

variable (host : Host)

/-- A lifecycle method of a type without fields' side is not built. -/
theorem Sound.draftMethod_of_none (sound : pool.Sound) (stored : pool.read? ty = some data)
    (none : ∀ c, ¬ pool.HasComposite ty c) {method : CompositeMethod}
    (lifecycle : name.IsLifecycle method) :
    (host.draftMethod pool ty name).run = .ok (.error (.internal (.notComposite method) ty)) := by
  have parts := sound.compositeParts_of_none stored none method
  cases lifecycle with
  | init | initCopy | deinit => exact draft_bind_error parts

/-- Apart from lifecycle methods, the sort of the type says which builder makes a method. -/
theorem draftMethod_eq (other : name.isLifecycleMethod = false) :
    (host.draftMethod pool ty name).run = pool.read ty >>= fun data =>
      match data.kind.queriedKind? with
      | some kind => .ok (.ok (.query ty name kind))
      | none =>
        if data.kind = .record ∧ name.isRecordOperator = true then
          (host.draftRecordOperator pool ty name).run
        else .ok (.error (.internal (.noGenerator name) ty)) := by
  obtain ⟨⟨noInit, noDeinit⟩, noCopy⟩ : (name ≠ .init ∧ name ≠ .deinit) ∧ name ≠ .initCopy := by
    simpa [Name.isLifecycleMethod] using other
  rw [Host.draftMethod, if_neg noInit, if_neg noCopy, if_neg noDeinit, run_draft_bind,
    run_draft_lift, kind]
  cases pool.read ty with
  | error fault => rfl
  | ok data =>
    rw [ok_bind, pure_eq_ok, ok_bind, ok_bind, ok_bind]
    cases data.kind with
    | record => cases name.isRecordOperator <;> rfl
    | _ => rfl

end Methods

end TypePool

/-! ## The drafts of a type -/

/-- The drafts of the methods of a type, by name. -/
inductive Host.MethodDraft (host : Host) (pool : TypePool) (ty : TypeId) : Name → Draft → Prop
  /-- The default initializer has a formal for each field of the generic form. -/
  | init {basic : TypeId} {c : Composite} {fields : FieldList} {formals : List DraftFormal} :
      pool.IsFormOf ty basic c →
        host.fields pool .ignoreDefaults (c.genericForm basic) = .ok fields →
          fields.isGeneric = false → (c.kind = .classType → c.hasNontrivialParent = false) →
            fields.fields.mapM (host.initFormal pool) = .ok formals →
              MethodDraft host pool ty .init
                (host.lifecycleDraft c .init (c.genericForm basic) formals)
  | initCopy {basic : TypeId} {c : Composite} : pool.IsFormOf ty basic c →
      MethodDraft host pool ty .initCopy (host.lifecycleDraft c .initCopy basic
        [.plain .other .constRef (c.receiver basic).type])
  | deinit {basic : TypeId} {c : Composite} : pool.IsFormOf ty basic c →
      MethodDraft host pool ty .deinit (host.lifecycleDraft c .deinit basic [])
  | recordOperator {c : Composite} {name : Name} {genericity : Genericity} :
      pool.read? ty = some (.composite c) → c.kind = .record → name.isRecordOperator = true →
        host.genericity pool ty = .ok genericity →
          MethodDraft host pool ty name
            (host.recordOperatorDraft c name (c.genericForm ty) genericity)
  | query {data : TypeData} {name : Name} {kind : DeclKind} :
      pool.read? ty = some data → data.kind.queriedKind? = some kind →
        name.isLifecycleMethod = false → MethodDraft host pool ty name (.query ty name kind)

namespace TypePool

/-- A default initializer that is drafted is over the fields of the generic form. -/
theorem Sound.methodDraft_of_draftInit (sound : pool.Sound)
    (h : (host.draftInit pool ty).run = .ok (.ok draft)) : host.MethodDraft pool ty .init draft := by
  obtain ⟨⟨basic, c⟩, hparts, -⟩ := draft_bind_eq_ok.1 h
  have found := compositeParts_eq_ok_iff.1 hparts
  rw [sound.draftInit_eq host found] at h
  obtain ⟨fields, hfields, h⟩ := bind_eq_ok.1 h
  split at h
  · exact nomatch h
  rename_i closed
  split at h
  · exact nomatch h
  rename_i rooted
  obtain ⟨formals, hformals, eq⟩ := bind_eq_ok.1 h
  obtain rfl := Except.ok.inj (Except.ok.inj eq)
  exact .init found hfields (by simpa using closed) (by simpa using rooted) hformals

/-- Any other method that is drafted is an operator of a record, or a query of a builtin type. -/
theorem methodDraft_of_other (other : name.isLifecycleMethod = false)
    (h : (host.draftMethod pool ty name).run = .ok (.ok draft)) :
    host.MethodDraft pool ty name draft := by
  rw [draftMethod_eq host other] at h
  obtain ⟨data, hdata, h⟩ := bind_eq_ok.1 h
  have stored := read_eq_ok_iff.1 hdata
  split at h
  · rename_i queried
    obtain rfl := Except.ok.inj (Except.ok.inj h)
    exact .query stored queried other
  split at h
  · rename_i operator
    obtain ⟨c, rfl, kind⟩ := TypeData.kind_eq_record_iff.1 operator.1
    rw [draftRecordOperator_eq host stored] at h
    obtain ⟨genericity, hgenericity, eq⟩ := bind_eq_ok.1 h
    obtain rfl := Except.ok.inj (Except.ok.inj eq)
    exact .recordOperator stored kind operator.2 hgenericity
  · exact nomatch h

/-- A method that is drafted is one of the drafts of the type. -/
theorem Sound.draftMethod_eq_ok_iff (sound : pool.Sound) :
    (host.draftMethod pool ty name).run = .ok (.ok draft) ↔ host.MethodDraft pool ty name draft := by
  constructor
  · intro h
    by_cases lifecycle : name.isLifecycleMethod = true
    · obtain ⟨method, lifecycle⟩ := Name.isLifecycleMethod_iff.1 lifecycle
      cases lifecycle with
      | init => exact sound.methodDraft_of_draftInit h
      | initCopy =>
        obtain ⟨⟨basic, c⟩, hparts, -⟩ := draft_bind_eq_ok.1 h
        have found := compositeParts_eq_ok_iff.1 hparts
        obtain rfl := Except.ok.inj (Except.ok.inj ((draftInitCopy_eq host found).symm.trans h))
        exact .initCopy found
      | deinit =>
        obtain ⟨⟨basic, c⟩, hparts, -⟩ := draft_bind_eq_ok.1 h
        have found := compositeParts_eq_ok_iff.1 hparts
        obtain rfl := Except.ok.inj (Except.ok.inj ((draftDeinit_eq host found).symm.trans h))
        exact .deinit found
    · exact methodDraft_of_other (by simpa using lifecycle) h
  · intro h
    cases h with
    | init found hfields closed rooted hformals =>
      refine (sound.draftInit_eq host found).trans ?_
      rw [hfields, ok_bind, closed, if_neg Bool.false_ne_true, if_neg (by simpa using rooted),
        hformals, ok_bind]
    | initCopy found => exact draftInitCopy_eq host found
    | deinit found => exact draftDeinit_eq host found
    | recordOperator stored kind operator hgenericity =>
      have isRecord := TypeData.kind_eq_record_iff.2 ⟨_, rfl, kind⟩
      have other := Name.isLifecycleMethod_of_isRecordOperator operator
      rw [draftMethod_eq host other, read_eq_ok_iff.2 stored, ok_bind, isRecord]
      dsimp only [TypeKind.queriedKind?]
      rw [if_pos ⟨rfl, operator⟩, draftRecordOperator_eq host stored, hgenericity, ok_bind]
    | query stored queried other =>
      rw [draftMethod_eq host other, read_eq_ok_iff.2 stored, ok_bind, queried]

end TypePool

/-- The drafts of the accessors of a type, by the name of the field. -/
inductive Host.AccessorDraft (host : Host) (pool : TypePool) (ty : TypeId) : Name → Draft → Prop
  | field {basic : TypeId} {c : Composite} {field : Name} {id : DeclId} :
      pool.IsFormOf ty basic c → host.fieldId? pool basic field = .ok (some id) →
        AccessorDraft host pool ty field (host.accessorDraft c basic field id)

/-- The drafts of the casts between operands of two types. An enumeration on the left decides. -/
inductive TypePool.CastDraft (pool : TypePool) (lhs rhs : TypeId) : Draft → Prop
  | fromEnum {e : Enumeration} : pool.read? lhs = some (.enumeration e) → e.isAbstract = false →
      CastDraft pool lhs rhs (e.castDraft lhs .fromEnum)
  | toEnum {e : Enumeration} : (∀ e, pool.read? lhs ≠ some (.enumeration e)) →
      pool.read? rhs = some (.enumeration e) → e.isAbstract = false →
        CastDraft pool lhs rhs (e.castDraft rhs .toEnum)

namespace TypePool

theorem draftAccessor_eq_ok_iff :
    host.draftAccessor pool ty name = .ok (some draft) ↔ host.AccessorDraft pool ty name draft := by
  constructor
  · intro h
    obtain ⟨basic, hbasic, h⟩ := bind_eq_ok.1 h
    obtain ⟨comp, hcomp, h⟩ := bind_eq_ok.1 h
    cases comp with
    | none => exact nomatch h
    | some c =>
      obtain ⟨id, hid, h⟩ := bind_eq_ok.1 h
      cases id with
      | none => exact nomatch h
      | some id =>
        obtain rfl := Option.some.inj (Except.ok.inj h)
        exact .field (isFormOf_iff.2 ⟨hbasic, composite?_eq_ok_some_iff.1 hcomp⟩) hid
  · intro h
    cases h with
    | field found hid =>
      obtain ⟨hbasic, stored⟩ := isFormOf_iff.1 found
      rw [Host.draftAccessor, hbasic, ok_bind, composite?_eq_ok_some_iff.2 stored, ok_bind]
      dsimp only
      rw [hid]
      rfl

theorem enumeration?_eq_ok_some_iff {e : Enumeration} :
    pool.enumeration? ty = .ok (some e) ↔ pool.read? ty = some (.enumeration e) := by
  rw [enumeration?, bind_eq_ok]
  constructor
  · rintro ⟨data, hdata, eq⟩
    cases data with
    | enumeration e' =>
      obtain rfl : e' = e := by simpa using eq
      exact read_eq_ok_iff.1 hdata
    | _ => simp at eq
  · intro h
    exact ⟨_, read_eq_ok_iff.2 h, rfl⟩

theorem isEnumeration_iff {found : Bool} (h : pool.isEnumeration ty = .ok found) :
    found = true ↔ ∃ e, pool.read? ty = some (.enumeration e) := by
  unfold isEnumeration at h
  split at h
  · rename_i unknown
    obtain rfl := Except.ok.inj h
    refine iff_of_false Bool.false_ne_true ?_
    rintro ⟨e, stored⟩
    exact absurd unknown (by rw [isUnknown_of_read? stored]; exact Bool.false_ne_true)
  · obtain ⟨e?, henum, eq⟩ := bind_eq_ok.1 h
    obtain rfl := Except.ok.inj eq
    simp only [← enumeration?_eq_ok_some_iff, henum, Except.ok.injEq, Option.isSome_iff_exists]

theorem draftEnumCast_eq_ok {direction : CastDirection}
    (h : pool.draftEnumCast ty direction = .ok (some draft)) :
    ∃ e, pool.read? ty = some (.enumeration e) ∧ e.isAbstract = false ∧
      draft = e.castDraft ty direction := by
  obtain ⟨e?, henum, h⟩ := bind_eq_ok.1 h
  cases e? with
  | none => exact nomatch h
  | some e =>
    dsimp only at h
    split at h
    · exact nomatch h
    · rename_i concrete
      refine ⟨e, enumeration?_eq_ok_some_iff.1 henum, by simpa using concrete, ?_⟩
      cases direction with
      | fromEnum | toEnum => exact (Option.some.inj (Except.ok.inj h)).symm

/-- An operator that is drafted is a cast. -/
theorem castDraft_of_eq_ok {lhs rhs : TypeId}
    (h : pool.draftBinaryOp lhs rhs name = .ok (some draft)) :
    name = .cast ∧ pool.CastDraft lhs rhs draft := by
  unfold draftBinaryOp at h
  split at h
  · exact nomatch h
  rename_i cast
  refine ⟨by simpa using cast, ?_⟩
  obtain ⟨left, hleft, h⟩ := bind_eq_ok.1 h
  split at h
  · obtain ⟨e, stored, concrete, rfl⟩ := draftEnumCast_eq_ok h
    exact .fromEnum stored concrete
  rename_i noEnum
  obtain ⟨right, -, h⟩ := bind_eq_ok.1 h
  split at h
  · obtain ⟨e, stored, concrete, rfl⟩ := draftEnumCast_eq_ok h
    refine .toEnum ?_ stored concrete
    intro e' stored'
    exact noEnum ((isEnumeration_iff hleft).2 ⟨e', stored'⟩)
  · exact nomatch h

end TypePool

end MethodSynthesis
