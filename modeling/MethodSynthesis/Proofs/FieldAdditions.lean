import MethodSynthesis.Proofs.Bookkeeping
import MethodSynthesis.Proofs.Stability

/-!
# What it does to add a field

A field is added to the declaration of a type's composite. That declaration may be anything, since a type is
made with whatever declaration its maker gives. `Program.addField_effect` says what comes of it. A field is
added exactly if the declaration owns a scope. If it is that of a composite, every type of that
declaration has the field after those it had, and no other type has other fields than before
(`Program.AddsField`). If it is that of a module, the field is declared, but no type has it. Otherwise
nothing changes at all.

The declarations change in two places, the new entry and the list of its owner
(`Declarations.body?_addField`). What fields a type has depends on the list of its own declaration and the
declared fields in it (`Declarations.exists_fields_eq`), so it is enough to follow these
(`Declarations.fieldsOf_addField`).
-/

set_option autoImplicit false

namespace MethodSynthesis

namespace Declarations

variable {d d' : Declarations} {pool : TypePool} {id owner : DeclId} {name : Name} {field : FieldDecl}
  {ty : TypeId} {data : TypeData} {c : Composite} {s : ScopeId}

/-- A declaration is that of a record, class or union. -/
def DeclaresComposite (d : Declarations) (id : DeclId) : Prop :=
  ∃ kind s fields, d.body? id = some (.composite kind s fields)

/-- A declaration is that of a module. -/
def DeclaresModule (d : Declarations) (id : DeclId) : Prop := ∃ s, d.body? id = some (.module s)

theorem isSome_scope?_iff : (d.scope? id).isSome ↔ d.DeclaresComposite id ∨ d.DeclaresModule id := by
  unfold scope? DeclaresComposite DeclaresModule
  cases d.body? id with
  | none => simp
  | some body => cases body <;> simp [DeclBody.scope?]

theorem DeclaresComposite.not_declaresModule (composite : d.DeclaresComposite id) :
    ¬ d.DeclaresModule id := by
  obtain ⟨kind, s, fields, stored⟩ := composite
  rintro ⟨s', stored'⟩
  cases stored.symm.trans stored'

/-- What declares no composite lists no fields. -/
theorem fieldIds_eq_nil (other : ¬ d.DeclaresComposite id) : d.fieldIds id = [] := by
  rw [fieldIds_eq]
  cases stored : d.body? id with
  | none => rfl
  | some body =>
    cases body with
    | composite kind s fields => exact absurd ⟨kind, s, fields, stored⟩ other
    | _ => rfl

/-! ## The two places that change -/

theorem get?_enlist (d : Declarations) (index : Nat) (s : ScopeId) (entry : ScopeEntry) (id : DeclId) :
    (d.enlist index s entry).get? id = (d.get? id).map fun decl =>
      if id = .at index then { decl with body := decl.body.addField entry.decl } else decl :=
  get?_modify d index _ id

/-- What is a field stays the same field. -/
theorem field?_enlist (d : Declarations) (index : Nat) (s : ScopeId) (entry : ScopeEntry) (id : DeclId) :
    (d.enlist index s entry).field? id = d.field? id := by
  unfold field?
  rw [get?_enlist]
  cases d.get? id with
  | none => rfl
  | some decl =>
    obtain ⟨name, span, body⟩ := decl
    rw [Option.map_some]
    by_cases listing : id = .at index
    · rw [if_pos listing]
      cases body <;> rfl
    · rw [if_neg listing]

theorem field?_append (d : Declarations) (name : Name) (field : FieldDecl) (id : DeclId) :
    (d.append name (.field field)).field? id =
      if id = d.nextId then some (name, field) else d.field? id := by
  unfold field?
  rw [get?_append_eq]
  by_cases new : id = d.nextId
  · rw [if_pos new, if_pos new]
  · rw [if_neg new, if_neg new]

/-- To add a field to what owns a scope is to declare it, and to list it in the scope and the owner. -/
theorem addField_eq (owns : d.scope? owner = some s) (name : Name) (field : FieldDecl) :
    ∃ index, owner = .at index ∧ d.addField owner name field =
      some (d.nextId, (d.append name (.field field)).enlist index s ⟨name, d.nextId, false⟩) := by
  cases owner with
  | absent => cases owns
  | «at» index =>
    refine ⟨index, rfl, ?_⟩
    rw [addField, owns]
    rfl

section Added

variable (added : d.addField owner name field = some (id, d'))

include added

theorem addField_cases : ∃ index s, owner = .at index ∧ d.scope? owner = some s ∧ id = d.nextId ∧
    d' = (d.append name (.field field)).enlist index s ⟨name, d.nextId, false⟩ := by
  obtain ⟨s, owns, -⟩ := Option.map_eq_some_iff.1 added
  obtain ⟨index, rfl, eq⟩ := addField_eq owns name field
  obtain ⟨rfl, rfl⟩ := Prod.mk.inj (Option.some.inj (added.symm.trans eq))
  exact ⟨index, s, rfl, owns, rfl, rfl⟩

theorem get?_addField : d.get? id = none ∧ d'.get? id = some ⟨name, .dummy, .field field⟩ := by
  obtain ⟨index, s, rfl, owns, rfl, rfl⟩ := addField_cases added
  refine ⟨d.get?_nextId, ?_⟩
  have new : DeclId.at index ≠ d.nextId := by
    intro eq
    rw [scope?, body?, eq, get?_nextId] at owns
    cases owns
  rw [get?_enlist, get?_append_nextId, Option.map_some, if_neg (Ne.symm new)]

theorem field?_addField (x : DeclId) : d'.field? x = if x = id then some (name, field) else d.field? x := by
  obtain ⟨index, s, rfl, owns, rfl, rfl⟩ := addField_cases added
  rw [field?_enlist, field?_append]

/-- The new declaration is that of the field, and the owner lists it if it is a composite. -/
theorem body?_addField (x : DeclId) : d'.body? x =
    if x = id then some (.field field)
      else if x = owner then (d.body? x).map (·.addField id) else d.body? x := by
  have new := (get?_addField added).2
  obtain ⟨index, s, rfl, owns, rfl, rfl⟩ := addField_cases added
  by_cases same : x = d.nextId
  · rw [if_pos same, same, body?, new]
    rfl
  · rw [if_neg same, body?_enlist, body?_append, if_neg same]
    by_cases listing : x = .at index
    · rw [if_pos listing]
      simp only [listing, if_true]
    · rw [if_neg listing]
      simp only [listing, if_false, Option.map_id']

/-- What declares a composite does so before and after. -/
theorem declaresComposite_addField (x : DeclId) : d'.DeclaresComposite x ↔ d.DeclaresComposite x := by
  have new : d.body? id = none := by rw [body?, (get?_addField added).1]; rfl
  unfold DeclaresComposite
  rw [body?_addField added]
  by_cases same : x = id
  · simp [same, new]
  rw [if_neg same]
  by_cases listing : x = owner
  · rw [if_pos listing]
    cases d.body? x with
    | none => simp
    | some body => cases body <;> simp [DeclBody.addField]
  · rw [if_neg listing]

/-- One list may be longer, by the new field: that of the owner, if it is a composite. -/
theorem fieldIds_addField (x : DeclId) :
    (x = owner ∧ d.DeclaresComposite owner → d'.fieldIds x = d.fieldIds x ++ [id]) ∧
      (¬ (x = owner ∧ d.DeclaresComposite owner) → d'.fieldIds x = d.fieldIds x) := by
  by_cases composite : d.DeclaresComposite x
  · have old : x ≠ id := by
      rintro rfl
      obtain ⟨kind, s, fields, stored⟩ := composite
      rw [body?, (get?_addField added).1] at stored
      cases stored
    rw [fieldIds_eq, fieldIds_eq, body?_addField added, if_neg old]
    constructor
    · rintro ⟨rfl, -⟩
      obtain ⟨kind, s, fields, stored⟩ := composite
      rw [if_pos rfl, stored]
      rfl
    · intro other
      have unlisted : x ≠ owner := by
        rintro rfl
        exact other ⟨rfl, composite⟩
      rw [if_neg unlisted]
  · -- what is no composite lists nothing
    have later : ¬ d'.DeclaresComposite x := (declaresComposite_addField added x).not.2 composite
    rw [fieldIds_eq_nil later, fieldIds_eq_nil composite]
    constructor
    · rintro ⟨rfl, owns⟩
      exact absurd owns composite
    · intro
      rfl

/-- The declared fields of a declaration stay as they are, but for the new one. -/
theorem fieldsOf_addField (agree : d.FieldsAgree) (x : DeclId) :
    (x = owner ∧ d.DeclaresComposite owner → d'.fieldsOf x = d.fieldsOf x ++ [(id, name, field)]) ∧
      (¬ (x = owner ∧ d.DeclaresComposite owner) → d'.fieldsOf x = d.fieldsOf x) := by
  obtain ⟨longer, same⟩ := fieldIds_addField added x
  -- what was listed before was declared before
  have old : ∀ listed ∈ d.fieldIds x,
      ((d'.field? listed).map (listed, ·)) = ((d.field? listed).map (listed, ·)) := by
    intro listed mem
    rw [field?_addField added, if_neg]
    rintro rfl
    have isField := agree.field mem
    rw [field?, (get?_addField added).1] at isField
    exact Bool.false_ne_true isField
  have new : d'.field? id = some (name, field) := by rw [field?_addField added, if_pos rfl]
  constructor
  · intro owns
    rw [fieldsOf, longer owns, List.filterMap_append, List.filterMap_congr old]
    simp [new, fieldsOf]
  · intro other
    rw [fieldsOf, same other, List.filterMap_congr old, fieldsOf]

end Added

/-! ## The fields of a type -/

/-- A declared field, as a composite has it. -/
def resolvedField (c : Composite) (policy : DefaultsPolicy) (entry : DeclId × Name × FieldDecl) :
    ResolvedField :=
  ⟨entry.2.1, entry.1,
    ⟨entry.2.2.storage, entry.2.2.resolvedType (c.substitution? entry.2.1) policy⟩,
    entry.2.2.hasDefault⟩

/-- The fields of a type are the declared ones of its composite, and none without a composite. -/
theorem exists_fields_eq (sound : pool.Sound) (admitted : d.AdmittedBy pool)
    (stored : pool.read? ty = some data) (policy : DefaultsPolicy) :
    ∃ list, d.fields pool policy ty = .ok list ∧
      (∀ c, pool.HasComposite ty c → list.fields = (d.fieldsOf c.decl).map (resolvedField c policy)) ∧
      ((∀ c, ¬ pool.HasComposite ty c) → list.fields = []) := by
  by_cases composite : ∃ c, pool.HasComposite ty c
  · obtain ⟨c, hc⟩ := composite
    refine ⟨_, fields_eq_ok sound.wellFormed admitted hc.compositeOf?_eq_ok policy, fun c' hc' => ?_,
      fun none => absurd hc (none c)⟩
    obtain rfl := hc.unique hc'
    rw [resolvedFields, List.map_map]
    rfl
  · have none := not_exists.1 composite
    exact ⟨_, fields_of_none sound stored none policy, fun c hc => absurd hc (none c), fun _ => rfl⟩

end Declarations

/-! ## Programs -/

namespace Program

variable {p p' : Program} {owner ty : TypeId} {name : String} {field : FieldDecl} {data : TypeData}
  {c : Composite} {id : DeclId}

/-- A type has the composite that some declaration of a sort declares. -/
def IsDeclaredAs (p : Program) (ty : TypeId) (sort : Declarations → DeclId → Prop) : Prop :=
  ∃ c, p.types.HasComposite ty c ∧ sort p.decls c.decl

/-- What a program has after a field was added under a new declaration. -/
structure AddsField (p : Program) (owner : TypeId) (name : String) (field : FieldDecl) (id : DeclId)
    (p' : Program) : Prop where
  new : p.decls.get? id = none
  declared : p'.decls.get? id = some ⟨(p.internName name).1, .dummy, .field field⟩
  types_eq : p'.types = p.types
  /-- A type whose declaration is the composite that gets the field has it after its other fields. -/
  gains : ∀ {c ty c'}, p.types.HasComposite owner c → p.decls.DeclaresComposite c.decl →
    p.types.HasComposite ty c' → c'.decl = c.decl → ∀ policy, ∃ before after,
      p.decls.fields p.types policy ty = .ok before ∧ p'.decls.fields p'.types policy ty = .ok after ∧
        after.fields = before.fields ++
          [Declarations.resolvedField c' policy (id, (p.internName name).1, field)]
  /-- Any other type has the fields that it had. -/
  keeps : ∀ {c ty data}, p.types.HasComposite owner c → p.types.read? ty = some data →
    (∀ c', p.types.HasComposite ty c' → ¬ (c'.decl = c.decl ∧ p.decls.DeclaresComposite c.decl)) →
      ∀ policy, ∃ before after, p.decls.fields p.types policy ty = .ok before ∧
        p'.decls.fields p'.types policy ty = .ok after ∧ after.fields = before.fields

/-- To add a field to a type with a composite is to add it to the declaration of the composite. -/
theorem addField_eq (hc : p.types.HasComposite owner c) (name : String) (field : FieldDecl) :
    p.addField owner name field =
      .ok ((p.decls.addField c.decl (p.internName name).1 field).map fun made =>
        (made.1, { (p.internName name).2 with decls := made.2 })) := by
  rw [addField, hc.compositeOf?_eq_ok, ok_bind]
  dsimp only
  split
  · rename_i unowned
    have nowhere : p.decls.addField c.decl (p.internName name).1 field = none := by
      rw [Declarations.addField, Option.isNone_iff_eq_none.1 unowned]
      rfl
    rw [nowhere]
    rfl
  · rfl

/-- What a builder is left with when it has tried to add a field. -/
theorem run_field {made : Option (DeclId × Program)} (eq : p.addField owner name field = .ok made) :
    (BuilderCall.field owner name field).run p = .ok ((made.map (·.2)).getD p) := by
  show (p.addField owner name field >>= fun made => _) = _
  rw [eq]
  rfl

/-- A field has somewhere to go in a composite and in a module. -/
theorem isSome_decls_addField (p : Program) (owner : DeclId) (name : Name) (field : FieldDecl) :
    (p.decls.addField owner name field).isSome ↔
      p.decls.DeclaresComposite owner ∨ p.decls.DeclaresModule owner := by
  rw [Declarations.addField, Option.isSome_map, Declarations.isSome_scope?_iff]

/-- A type without a composite gets no field. -/
theorem addField_eq_none (sound : p.types.Sound) (stored : p.types.read? owner = some data)
    (other : ∀ c, ¬ p.types.HasComposite owner c) : p.addField owner name field = .ok none := by
  rw [addField, sound.compositeOf?_of_none stored other]
  rfl

/-- Where a field is added, the types of one declaration get it, and the others keep their fields. -/
theorem Built.addsField (built : p.Built) (admitted : ∀ ty ∈ (DeclBody.field field).types, p.types.Admits ty)
    (hc : p.types.HasComposite owner c) (eq : p.addField owner name field = .ok (some (id, p'))) :
    p.AddsField owner name field id p' := by
  have after : p'.Built := @Built.step _ _ (.field owner name field) built admitted (run_field eq)
  have wf := built.wellFormed
  have wf' := after.wellFormed
  rw [addField_eq hc] at eq
  obtain ⟨⟨_, d'⟩, added, eq⟩ := Option.map_eq_some_iff.1 (Except.ok.inj eq)
  obtain ⟨rfl, rfl⟩ := Prod.mk.inj eq
  have agree := built.consistent.toFieldsAgree
  refine ⟨(Declarations.get?_addField added).1, (Declarations.get?_addField added).2, rfl, ?_, ?_⟩
  · intro c₁ ty c' hc₁ composite hc' same policy
    obtain rfl := hc.unique hc₁
    obtain ⟨data, stored, -⟩ := hc'.stored
    obtain ⟨before, hbefore, listed, -⟩ :=
      Declarations.exists_fields_eq wf.types wf.decls.admitted stored policy
    obtain ⟨later, hlater, listed', -⟩ :=
      Declarations.exists_fields_eq wf'.types wf'.decls.admitted stored policy
    refine ⟨before, later, hbefore, hlater, ?_⟩
    rw [listed c' hc', listed' c' hc',
      (Declarations.fieldsOf_addField added agree c'.decl).1 ⟨same, composite⟩, List.map_append]
    rfl
  · intro c₁ ty data hc₁ stored other policy
    obtain rfl := hc.unique hc₁
    obtain ⟨before, hbefore, listed, empty⟩ :=
      Declarations.exists_fields_eq wf.types wf.decls.admitted stored policy
    obtain ⟨later, hlater, listed', empty'⟩ :=
      Declarations.exists_fields_eq wf'.types wf'.decls.admitted stored policy
    refine ⟨before, later, hbefore, hlater, ?_⟩
    by_cases composite : ∃ c', p.types.HasComposite ty c'
    · obtain ⟨c', hc'⟩ := composite
      rw [listed c' hc', listed' c' hc',
        (Declarations.fieldsOf_addField added agree c'.decl).2 (other c' hc')]
    · have without := not_exists.1 composite
      rw [empty without, empty' without]

/-- What it does to add a field to a stored type. A field is added under a new name exactly if the composite
of the type is declared by a composite or by a module. In the first case the types of that declaration get
it as their last field. In the second no type does, though the answer is the same as in the first; this is
the one case where the answer does not tell whether there is a composite to have the field. Where no field
is added, nothing changes. -/
theorem addField_effect (built : p.Built) (stored : p.types.read? owner = some data)
    (admitted : ∀ ty ∈ (DeclBody.field field).types, p.types.Admits ty) (name : String) :
    ∃ made, p.addField owner name field = .ok made ∧
      (made.isSome ↔ p.IsDeclaredAs owner Declarations.DeclaresComposite ∨
        p.IsDeclaredAs owner Declarations.DeclaresModule) ∧
      ((made.isSome ↔ p.IsDeclaredAs owner Declarations.DeclaresComposite) ↔
        ¬ p.IsDeclaredAs owner Declarations.DeclaresModule) ∧
      (made = none → (BuilderCall.field owner name field).run p = .ok p) ∧
      ∀ id p', made = some (id, p') → p.AddsField owner name field id p' := by
  have sound := built.wellFormed.types
  by_cases composite : ∃ c, p.types.HasComposite owner c
  case neg =>
    have without := not_exists.1 composite
    have undeclared : ∀ sort, ¬ p.IsDeclaredAs owner sort := by
      rintro sort ⟨c, hc, -⟩
      exact without c hc
    have eq : p.addField owner name field = .ok none := addField_eq_none sound stored without
    refine ⟨none, eq, by simp [undeclared], by simp [undeclared], fun _ => run_field eq, ?_⟩
    intro id p' made
    cases made
  obtain ⟨c, hc⟩ := composite
  have declared : ∀ sort, p.IsDeclaredAs owner sort ↔ sort p.decls c.decl := by
    intro sort
    constructor
    · rintro ⟨c', hc', declares⟩
      obtain rfl := hc.unique hc'
      exact declares
    · intro declares
      exact ⟨c, hc, declares⟩
  have eq := addField_eq hc name field
  have somewhere := p.isSome_decls_addField c.decl (p.internName name).1 field
  refine ⟨_, eq, ?_, ?_, fun failed => ?_, fun id p' made => ?_⟩
  · rw [Option.isSome_map, somewhere, declared, declared]
  · rw [Option.isSome_map, somewhere, declared, declared, or_iff_left_iff_imp]
    -- a module is no composite
    constructor
    · intro also module
      exact (also module).not_declaresModule module
    · intro other module
      exact absurd module other
  · exact run_field (eq.trans (congrArg Except.ok failed))
  · exact built.addsField admitted hc (eq.trans (congrArg Except.ok made))

/-- A module with a record, and another type that is made with the declaration of the module. -/
def declaredRecords : Program :=
  .ofCalls .bySize [.module "M" none, .composite (.at 0) "R" .record none,
    .type (.record (.at 0) ⟨⟨9, 0⟩⟩)]

/-- The record gets a field. -/
theorem declaredRecords_gains :
    declaredRecords.Built ∧
      declaredRecords.types.read? (.known ⟨1, 0⟩) =
        some (.composite ⟨.record, .at 1, ⟨⟨2, 1⟩⟩, none, [], none⟩) ∧
      (∀ ty ∈ (DeclBody.field .untyped).types, declaredRecords.types.Admits ty) ∧
      ∃ id p', declaredRecords.addField (.known ⟨1, 0⟩) "x" .untyped = .ok (some (id, p')) ∧
        declaredRecords.AddsField (.known ⟨1, 0⟩) "x" .untyped id p' := by
  have built : declaredRecords.Built := built_ofCalls _ _
  have stored : declaredRecords.types.read? (.known ⟨1, 0⟩) =
      some (.composite ⟨.record, .at 1, ⟨⟨2, 1⟩⟩, none, [], none⟩) := by decide +kernel
  have admitted : ∀ ty ∈ (DeclBody.field .untyped).types, declaredRecords.types.Admits ty :=
    fun _ mem => absurd mem List.not_mem_nil
  have composite : declaredRecords.decls.DeclaresComposite (.at 1) := ⟨.record, ⟨1⟩, [], by cbv⟩
  obtain ⟨made, eq, goes, -, -, adds⟩ := addField_effect built stored admitted "x"
  obtain ⟨⟨id, p'⟩, rfl⟩ := Option.isSome_iff_exists.1 (goes.2 (.inl ⟨_, .inl stored, composite⟩))
  exact ⟨built, stored, admitted, id, p', eq, adds id p' rfl⟩

/-- The other type has no composite declaration, yet it is answered with the name of a field. -/
theorem declaredRecords_unowned :
    declaredRecords.Built ∧
      declaredRecords.types.read? (.known ⟨1, 1⟩) =
        some (.composite ⟨.record, .at 0, ⟨⟨9, 0⟩⟩, none, [], none⟩) ∧
      ¬ declaredRecords.IsDeclaredAs (.known ⟨1, 1⟩) Declarations.DeclaresComposite ∧
      (declaredRecords.addField (.known ⟨1, 1⟩) "x" .untyped).toOption.join.map (·.1) = some (.at 2) ∧
      (declaredRecords.addField (.known ⟨1, 1⟩) "x" .untyped).toOption.join.map
        (fun made => made.2.decls.fieldIds (.at 0)) = some [] := by
  have stored : declaredRecords.types.read? (.known ⟨1, 1⟩) =
      some (.composite ⟨.record, .at 0, ⟨⟨9, 0⟩⟩, none, [], none⟩) := by decide +kernel
  have module : declaredRecords.decls.body? (.at 0) = some (.module ⟨0⟩) := by cbv
  refine ⟨built_ofCalls _ _, stored, ?_, by decide +kernel, by decide +kernel⟩
  rintro ⟨c, hc, kind, s, fields, composite⟩
  obtain rfl := hc.unique (.inl stored)
  cases composite.symm.trans module

end Program

end MethodSynthesis
