import MethodSynthesis.Declarations.Fields
import MethodSynthesis.Proofs.TypePools

/-!
# Declared fields as data

What a field adds to its composite is a function of its declaration, of the type that takes its place,
if any, and of which types are generic (`FieldDecl.resolvedType`, `FieldDecl.isOpen`). When the
question which of the types are generic has an answer, so has the question for the fields, and the
answer is that function (`Declarations.resolveFields_eq_ok`).

Declarations are admitted by a pool when the pool has each type that a field or formal mentions, or
the type is unknown (`Declarations.AdmittedBy`).
-/

set_option autoImplicit false

namespace MethodSynthesis

namespace FieldDecl

/-- The type of the values of a field, unless the field holds no value or no type is given. -/
def valueType? (field : FieldDecl) : Option TypeId :=
  if field.storage.isTypeOrParam then none else field.declared <|> field.default

/-- The type that a field has in its composite. -/
def resolvedType (field : FieldDecl) (substitution : Option TypeId) (policy : DefaultsPolicy) :
    TypeId :=
  match substitution, field.storage, policy with
  | some ty, _, _ => ty
  | none, .type, .ignoreDefaults => field.declared.getD .any
  | none, .type, .useDefaults => (field.default <|> field.declared).getD .any
  | none, _, _ => (field.declared <|> field.default).getD .any

/-- Whether a field that nothing takes the place of is open whatever types are generic: it has no type
for its values, and if it is a type or param, no default that may be used. -/
def isSelfOpen (field : FieldDecl) (policy : DefaultsPolicy) : Bool :=
  field.valueType?.isNone &&
    !(policy = .useDefaults && field.storage.isTypeOrParam && field.hasDefault)

/-- Whether a field is open, given which types are generic. -/
def isOpen (field : FieldDecl) (substitution : Option TypeId) (policy : DefaultsPolicy)
    (generic : TypeId → Bool) : Bool :=
  substitution.isNone && (field.isSelfOpen policy || field.valueType?.any generic)

theorem resolve_eq_ok (field : FieldDecl) (substitution : Option TypeId) (policy : DefaultsPolicy)
    {isGeneric : TypeId → Except Fault Bool} {generic : TypeId → Bool}
    (h : substitution = none → ∀ ty, field.valueType? = some ty → isGeneric ty = .ok (generic ty)) :
    field.resolve substitution policy isGeneric =
      .ok (⟨field.storage, field.resolvedType substitution policy⟩,
        field.isOpen substitution policy generic) := by
  cases substitution with
  | some ty => rfl
  | none =>
    -- types and params ask nothing; the other bindings share one branch
    obtain ⟨storage, declared, default⟩ := field
    have value := h rfl
    cases storage with
    | type => cases policy <;> cases default <;> rfl
    | param => cases policy <;> cases default <;> rfl
    | _ =>
      cases given : declared <|> default with
      | none => simp [resolve, resolvedType, isOpen, isSelfOpen, valueType?,
          Binding.isTypeOrParam, Binding.isType, Binding.isParam, given]
      | some ty =>
        have answer := value ty (by simp [valueType?, Binding.isTypeOrParam, Binding.isType,
          Binding.isParam, given])
        simp [resolve, resolvedType, isOpen, isSelfOpen, valueType?, Binding.isTypeOrParam,
          Binding.isType, Binding.isParam, given, answer]

end FieldDecl

/-- The types that a declaration mentions. -/
def DeclBody.types : DeclBody → List TypeId
  | .field f => f.declared.toList ++ f.default.toList
  | .function f => f.formals.map (·.type.type)
  | .module _ | .composite _ _ _ | .enum => []

namespace Declarations

variable {d : Declarations} {pool : TypePool}

/-- Each type that the declarations mention is unknown or one that the pool has. -/
def AdmittedBy (d : Declarations) (pool : TypePool) : Prop :=
  ∀ decl ∈ d.entries, ∀ ty ∈ decl.body.types, pool.Admits ty

/-- The fields of a composite, given which types are generic, each with whether it is open. -/
def resolvedFields (d : Declarations) (c : Composite) (policy : DefaultsPolicy)
    (generic : TypeId → Bool) : List (ResolvedField × Bool) :=
  (d.fieldsOf c.decl).map fun (id, name, field) =>
    (⟨name, id, ⟨field.storage, field.resolvedType (c.substitution? name) policy⟩,
      field.hasDefault⟩, field.isOpen (c.substitution? name) policy generic)

/-- The declared fields of a composite that no type takes the place of. -/
def unsubstituted (d : Declarations) (c : Composite) : List (DeclId × Name × FieldDecl) :=
  (d.fieldsOf c.decl).filter fun (_, name, _) => (c.substitution? name).isNone

/-- Some unsubstituted field is open whatever types are generic. -/
def selfOpen (d : Declarations) (policy : DefaultsPolicy) (c : Composite) : Bool :=
  (d.unsubstituted c).any (·.2.2.isSelfOpen policy)

/-- The types of the values of unsubstituted fields. -/
def valueTypes (d : Declarations) (c : Composite) : List TypeId :=
  (d.unsubstituted c).filterMap (·.2.2.valueType?)

theorem mem_unsubstituted_iff {c : Composite} {entry : DeclId × Name × FieldDecl} :
    entry ∈ d.unsubstituted c ↔
      entry ∈ d.fieldsOf c.decl ∧ c.substitution? entry.2.1 = none := by
  simp [unsubstituted, List.mem_filter]

theorem mem_valueTypes_iff {c : Composite} {ty : TypeId} :
    ty ∈ d.valueTypes c ↔ ∃ entry ∈ d.unsubstituted c, entry.2.2.valueType? = some ty :=
  List.mem_filterMap

/-- A field of a composite is open when it is so of itself or its values are of a generic type. -/
theorem isOpen_iff {c : Composite} {entry : DeclId × Name × FieldDecl}
    (mem : entry ∈ d.fieldsOf c.decl) (policy : DefaultsPolicy) (generic : TypeId → Bool) :
    entry.2.2.isOpen (c.substitution? entry.2.1) policy generic = true ↔
      entry ∈ d.unsubstituted c ∧ (entry.2.2.isSelfOpen policy = true ∨
        ∃ ty, entry.2.2.valueType? = some ty ∧ generic ty = true) := by
  simp [FieldDecl.isOpen, mem_unsubstituted_iff, mem, Option.any_eq_true]

/-- Some field of a composite is open when one is so of itself or its values are of a generic type. -/
theorem any_resolvedFields (c : Composite) (policy : DefaultsPolicy) (generic : TypeId → Bool) :
    (d.resolvedFields c policy generic).any (·.2) = true ↔
      d.selfOpen policy c = true ∨ ∃ ty ∈ d.valueTypes c, generic ty = true := by
  simp only [resolvedFields, List.any_map, List.any_eq_true, selfOpen, mem_valueTypes_iff]
  constructor
  · rintro ⟨entry, mem, isOpen⟩
    obtain ⟨free, self | ⟨ty, value, generic⟩⟩ := (isOpen_iff mem policy generic).1 isOpen
    · exact .inl ⟨entry, free, self⟩
    · exact .inr ⟨ty, ⟨entry, free, value⟩, generic⟩
  · rintro (⟨entry, free, self⟩ | ⟨ty, ⟨entry, free, value⟩, isGeneric⟩)
    · have mem := (mem_unsubstituted_iff.1 free).1
      exact ⟨entry, mem, (isOpen_iff mem policy generic).2 ⟨free, .inl self⟩⟩
    · have mem := (mem_unsubstituted_iff.1 free).1
      exact ⟨entry, mem, (isOpen_iff mem policy generic).2 ⟨free, .inr ⟨ty, value, isGeneric⟩⟩⟩

/-- The fields have an answer when the types of their values have one. -/
theorem resolveFields_eq_ok {c : Composite} (policy : DefaultsPolicy)
    {isGeneric : TypeId → Except Fault Bool} {generic : TypeId → Bool}
    (h : ∀ ty ∈ d.valueTypes c, isGeneric ty = .ok (generic ty)) :
    d.resolveFields c policy isGeneric = .ok (d.resolvedFields c policy generic) := by
  refine mapM_eq_ok fun ⟨id, name, field⟩ mem => ?_
  have resolved := field.resolve_eq_ok (c.substitution? name) policy fun free ty value =>
    h ty (mem_valueTypes_iff.2 ⟨_, mem_unsubstituted_iff.2 ⟨mem, free⟩, value⟩)
  show field.resolve (c.substitution? name) policy isGeneric >>= _ = _
  rw [resolved]
  rfl

theorem mem_fieldsOf_iff {composite : DeclId} {entry : DeclId × Name × FieldDecl} :
    entry ∈ d.fieldsOf composite ↔
      entry.1 ∈ d.fieldIds composite ∧ d.field? entry.1 = some entry.2 := by
  obtain ⟨id, field⟩ := entry
  simp [fieldsOf, List.mem_filterMap]

theorem mem_entries_of_get? {id : DeclId} {decl : Declaration} (h : d.get? id = some decl) :
    decl ∈ d.entries := by
  cases id with
  | absent => exact nomatch h
  | «at» index => exact List.mem_of_getElem? h

theorem function?_eq_some_iff {id : DeclId} {f : FunctionDecl} :
    d.function? id = some f ↔ ∃ decl, d.get? id = some decl ∧ decl.body = .function f := by
  unfold function? body?
  cases d.get? id with
  | none => simp
  | some decl => cases body : decl.body <;> simp [body]

/-- The types that a field mentions are admitted with the declarations. -/
theorem AdmittedBy.field (admitted : d.AdmittedBy pool) {composite : DeclId}
    {entry : DeclId × Name × FieldDecl} (mem : entry ∈ d.fieldsOf composite) {ty : TypeId}
    (mentioned : ty ∈ entry.2.2.declared ∨ ty ∈ entry.2.2.default) : pool.Admits ty := by
  obtain ⟨id, name, field⟩ := entry
  have stored := (mem_fieldsOf_iff.1 mem).2
  unfold field? at stored
  split at stored
  · rename_i name' span field' get
    obtain ⟨rfl, rfl⟩ : name' = name ∧ field' = field := by simpa using stored
    exact admitted _ (mem_entries_of_get? get) ty (by simpa [DeclBody.types] using mentioned)
  · exact nomatch stored

theorem AdmittedBy.valueTypes (admitted : d.AdmittedBy pool) {c : Composite} {ty : TypeId}
    (h : ty ∈ d.valueTypes c) : pool.Admits ty := by
  obtain ⟨entry, free, value⟩ := mem_valueTypes_iff.1 h
  refine admitted.field (mem_unsubstituted_iff.1 free).1 ?_
  unfold FieldDecl.valueType? at value
  split at value
  · exact nomatch value
  · cases declared : entry.2.2.declared with
    | some ty' =>
      rw [declared] at value
      exact .inl (by simpa using value)
    | none =>
      rw [declared] at value
      exact .inr (by simpa using value)

/-- The types that the fields of a stored composite have are admitted. -/
theorem AdmittedBy.resolvedType (admitted : d.AdmittedBy pool) (wf : pool.WellFormed) {t : TypeId}
    {c : Composite} (stored : pool.read? t = some (.composite c))
    {entry : DeclId × Name × FieldDecl} (mem : entry ∈ d.fieldsOf c.decl)
    (policy : DefaultsPolicy) :
    pool.Admits (entry.2.2.resolvedType (c.substitution? entry.2.1) policy) := by
  have any : pool.Admits .any := TypePool.admits_of_read? (wf.primitives .any)
  cases substitution : c.substitution? entry.2.1 with
  | some ty =>
    obtain ⟨s, found, rfl⟩ := Option.map_eq_some_iff.1 substitution
    refine wf.admits_part stored ?_
    simp only [TypeData.components, List.mem_append]
    exact .inl (.inr (List.mem_map_of_mem (List.mem_of_find?_eq_some found)))
  | none =>
    have mentioned : ∀ ty, ty ∈ entry.2.2.declared ∨ ty ∈ entry.2.2.default → pool.Admits ty :=
      fun _ => admitted.field mem
    obtain ⟨id, name, ⟨storage, declared, default⟩⟩ := entry
    unfold FieldDecl.resolvedType
    cases declared <;> cases default <;> split <;> simp_all

end Declarations

end MethodSynthesis
