import MethodSynthesis.Proofs.ClosedPools
import MethodSynthesis.Proofs.FieldAdditions
import MethodSynthesis.Proofs.GenericSeeds

/-!
# Field lists compared

The fields of a type are the declared ones of its composite. Their types depend on two more things: the
types that an instantiation puts in the place of fields, and whether defaults are used. This module
compares the lists that differ in one of the two.

An instantiation lists the fields of its generic form, each with the first type that is given for its
name, if there is one (`ResolvedField.substituted`). A field that nothing takes the place of in the
instantiation is such a field of the generic form as well, so the instantiation is open only if the
generic form is (`instantiation_refines_root`). The walk from the instantiation and the walk from the
generic form cut their ways at different composites, but each of them answers for a type that is asked
on its own as if nothing were cut (`Declarations.genericity_spec`), and what the two types lead to is
the same but for the substituted fields. So fields that lead back to either type make no difference.

With defaults used the same fields are listed, some of them closed by their defaults
(`defaults_close_fields`).
-/

set_option autoImplicit false

namespace MethodSynthesis

/-- The field with the first type that is given for its name, if there is one, in place of its own. -/
def ResolvedField.substituted (substitutions : List (Name × TypeId)) (field : ResolvedField) :
    ResolvedField :=
  let given := (substitutions.find? (·.1 = field.name)).map (·.2)
  { field with type := { field.type with type := given.getD field.type.type } }

/-- A field with defaults used, beside the same field with defaults left aside. The types may differ if
it is a type with a default that nothing takes the place of. -/
structure ResolvedField.ClosesByDefault (pool : TypePool) (ty : TypeId)
    (ignored used : ResolvedField) : Prop where
  name_eq : used.name = ignored.name
  decl_eq : used.decl = ignored.decl
  binding_eq : used.type.binding = ignored.type.binding
  hasDefault_eq : used.hasDefault = ignored.hasDefault
  type_eq : used.type.type = ignored.type.type ∨
    used.type.binding = .type ∧ used.hasDefault = true ∧
      ∃ c, pool.HasComposite ty c ∧ c.substitution? used.name = none

namespace FieldDecl

variable (field : FieldDecl)

/-- A type that takes the place of a field does so whatever the field is. -/
theorem resolvedType_eq_getD (substitution : Option TypeId) (policy : DefaultsPolicy) :
    field.resolvedType substitution policy = substitution.getD (field.resolvedType none policy) := by
  cases substitution with
  | none => rfl
  | some ty => rfl

/-- To use defaults changes the types of unsubstituted type fields only. -/
theorem resolvedType_useDefaults (substitution : Option TypeId) :
    field.resolvedType substitution .useDefaults = field.resolvedType substitution .ignoreDefaults ∨
      field.storage = .type ∧ field.hasDefault = true ∧ substitution = none := by
  obtain ⟨storage, declared, default⟩ := field
  cases substitution with
  | some ty => exact .inl rfl
  | none =>
    cases storage with
    | type =>
      cases default with
      | none => exact .inl rfl
      | some ty => exact .inr ⟨rfl, rfl, rfl⟩
    | _ => exact .inl rfl

theorem isSelfOpen_of_useDefaults {field : FieldDecl} (h : field.isSelfOpen .useDefaults = true) :
    field.isSelfOpen .ignoreDefaults = true := by
  rw [Declarations.isSelfOpen_ignoreDefaults]
  exact (Bool.and_eq_true _ _ ▸ h).1

end FieldDecl

namespace Declarations

variable {d : Declarations} {pool : TypePool} {ty inst root : TypeId} {data : TypeData}
  {c c' : Composite} {policy : DefaultsPolicy}

/-- A type with a composite lists the declared fields, and the list is open if a field is so of itself or
its values are of an open type. -/
theorem exists_fieldList (sound : pool.Sound) (admitted : d.AdmittedBy pool)
    (hc : pool.HasComposite ty c) (policy : DefaultsPolicy) :
    ∃ list, d.fields pool policy ty = .ok list ∧
      list.fields = (d.fieldsOf c.decl).map (resolvedField c policy) ∧
        (list.isGeneric = true ↔
          d.selfOpen policy c = true ∨ ∃ y ∈ d.valueTypes c, d.OpenAvoiding pool ∅ y) := by
  obtain ⟨data, stored, -⟩ := hc.stored
  obtain ⟨list, found, listed, -⟩ := exists_fields_eq sound admitted stored policy
  obtain ⟨list', found', opens⟩ := fields_open_spec sound.wellFormed admitted hc policy
  obtain rfl := Except.ok.inj (found.symm.trans found')
  exact ⟨list, found, listed c hc, opens⟩

theorem selfOpen_of_useDefaults (h : d.selfOpen .useDefaults c = true) :
    d.selfOpen .ignoreDefaults c = true := by
  obtain ⟨entry, free, isOpen⟩ := List.any_eq_true.1 h
  exact List.any_eq_true.2 ⟨entry, free, FieldDecl.isSelfOpen_of_useDefaults isOpen⟩

/-! ## Instantiations -/

section Generic

variable (same : c'.decl = c.decl)

include same

/-- Nothing takes the place of a field in a generic form. -/
theorem mem_unsubstituted_uninstantiated {entry : DeclId × Name × FieldDecl}
    (free : entry ∈ d.unsubstituted c') : entry ∈ d.unsubstituted c.uninstantiated := by
  obtain ⟨mem, -⟩ := mem_unsubstituted_iff.1 free
  rw [same] at mem
  exact mem_unsubstituted_iff.2 ⟨mem, rfl⟩

theorem selfOpen_uninstantiated (h : d.selfOpen policy c' = true) :
    d.selfOpen policy c.uninstantiated = true := by
  obtain ⟨entry, free, isOpen⟩ := List.any_eq_true.1 h
  exact List.any_eq_true.2 ⟨entry, mem_unsubstituted_uninstantiated same free, isOpen⟩

theorem mem_valueTypes_uninstantiated {y : TypeId} (h : y ∈ d.valueTypes c') :
    y ∈ d.valueTypes c.uninstantiated := by
  obtain ⟨entry, free, value⟩ := mem_valueTypes_iff.1 h
  exact mem_valueTypes_iff.2 ⟨entry, mem_unsubstituted_uninstantiated same free, value⟩

/-- A form of a generic composite is open in fewer ways than the generic form. -/
theorem open_uninstantiated
    (h : d.selfOpen policy c' = true ∨ ∃ y ∈ d.valueTypes c', d.OpenAvoiding pool ∅ y) :
    d.selfOpen policy c.uninstantiated = true ∨
      ∃ y ∈ d.valueTypes c.uninstantiated, d.OpenAvoiding pool ∅ y := by
  rcases h with self | ⟨y, mem, opens⟩
  · exact .inl (selfOpen_uninstantiated same self)
  · exact .inr ⟨y, mem_valueTypes_uninstantiated same mem, opens⟩

end Generic

/-- A declared field of an instantiation is that of the generic form, substituted. -/
theorem resolvedField_eq_substituted (c : Composite) (policy : DefaultsPolicy)
    (entry : DeclId × Name × FieldDecl) :
    resolvedField c policy entry =
      (resolvedField c.uninstantiated policy entry).substituted c.substitutions := by
  rw [resolvedField, FieldDecl.resolvedType_eq_getD]
  rfl

/-- A type is one that was made from a generic form by substitution: it has the substituted fields of
the generic form, and is open only if the generic form is, as is its list of fields. -/
structure Refines (d : Declarations) (pool : TypePool) (substitutions : List (Name × TypeId))
    (inst root : TypeId) : Prop where
  fields : ∀ policy, ∃ list rootList, d.fields pool policy inst = .ok list ∧
    d.fields pool policy root = .ok rootList ∧
      list.fields = rootList.fields.map (·.substituted substitutions) ∧
        (list.isGeneric = true → rootList.isGeneric = true)
  genericity : ∃ g rootG, d.genericity pool inst = .ok g ∧ d.genericity pool root = .ok rootG ∧
    (g.isGeneric = true → rootG.isGeneric = true)

/-- A stored composite refines its generic form. -/
theorem refines_uninstantiated (sound : pool.Sound) (admitted : d.AdmittedBy pool)
    (stored : pool.read? inst = some (.composite c))
    (generic : pool.read? root = some (.composite c.uninstantiated)) :
    d.Refines pool c.substitutions inst root where
  fields policy := by
    obtain ⟨list, found, listed, opens⟩ := exists_fieldList sound admitted (.inl stored) policy
    obtain ⟨rootList, rootFound, rootListed, rootOpens⟩ :=
      exists_fieldList sound admitted (.inl generic) policy
    refine ⟨list, rootList, found, rootFound, ?_, fun isOpen => ?_⟩
    · rw [listed, rootListed, List.map_map]
      exact List.map_congr_left fun entry _ => resolvedField_eq_substituted c policy entry
    · exact rootOpens.2 (open_uninstantiated rfl (opens.1 isOpen))
  genericity := by
    have wf := sound.wellFormed
    obtain ⟨g, found, opens⟩ := genericity_spec wf admitted (TypePool.admits_of_read? stored)
    obtain ⟨rootG, rootFound, rootOpens⟩ :=
      genericity_spec wf admitted (TypePool.admits_of_read? generic)
    refine ⟨g, rootG, found, rootFound, fun isOpen => rootOpens.2 ?_⟩
    -- both types are asked on their own, so no way to an open type is cut
    rw [openAvoiding_iff_fields (.inl stored)] at opens
    rw [openAvoiding_iff_fields (.inl generic)]
    exact open_uninstantiated rfl (opens.1 isOpen)

end Declarations

/-- What is made of a stored composite by substitution. -/
theorem TypePool.Sound.exists_instantiate {pool : TypePool} (sound : pool.Sound) {generic : TypeId}
    {c : Composite} (stored : pool.read? generic = some (.composite c))
    {substitutions : List (Name × TypeId)} (admitted : ∀ given ∈ substitutions, pool.Admits given.2) :
    ∃ inst pool', pool.instantiate generic substitutions = .ok (some (inst, pool')) ∧
      pool'.Sound ∧ pool.Grows pool' ∧ pool'.read? inst = some (.composite
        { c with instantiatedFrom := some (c.instantiatedFrom.getD generic), substitutions }) := by
  have made := instantiate_eq_ok stored substitutions
  have sound' := sound.instantiate admitted made
  have table := sound.wellFormed.table
  exact ⟨_, _, made, sound', ⟨sound.wellFormed, sound'.wellFormed, pool.extends_intern _⟩,
    read?_intern table _⟩

/-- An instantiation of a composite refines the generic form of the composite, in the pool that has the
instantiation. It does so whatever the composite instantiates already and whatever types are given, for
names of fields or not, once or more often. The generic form has the fields that it had before. -/
theorem instantiation_refines_root {s : Session} (reached : s.Reached) {generic : TypeId} {c : Composite}
    (stored : s.program.types.read? generic = some (.composite c))
    {substitutions : List (Name × TypeId)}
    (admitted : ∀ given ∈ substitutions, s.program.types.Admits given.2) :
    ∃ inst pool root,
      s.program.types.instantiate generic substitutions = .ok (some (inst, pool)) ∧
        s.program.types.genericRoot generic = .ok root ∧ pool.genericRoot inst = .ok root ∧
          s.program.decls.Refines pool substitutions inst root ∧
            ∀ policy, s.program.decls.fields pool policy root =
              s.program.decls.fields s.program.types policy root := by
  obtain ⟨types, decls⟩ := reached.sound.program
  obtain ⟨inst, pool, made, sound, grows, instStored⟩ := types.exists_instantiate stored admitted
  have fit := decls.grows types.wellFormed.table sound.wellFormed.table grows.ext
  -- an instantiation of an instantiation has the generic form of the latter
  have rootStored := types.read?_generic stored
  refine ⟨inst, pool, c.instantiatedFrom.getD generic, made, TypePool.genericRoot_eq_ok stored,
    TypePool.genericRoot_eq_ok instStored, ?_, fun policy => ?_⟩
  · exact Declarations.refines_uninstantiated sound fit.admitted instStored (grows.read? rootStored)
  · exact (Declarations.fields_stable grows types decls.admitted
      (TypePool.admits_of_read? rootStored) policy).symm

/-- A record with a type that has a default. Its other fields are a pointer to the record and a value of an
instantiation of it. -/
def returningRecord : Program :=
  .ofCalls .bySize [.module "M" none, .composite (.at 0) "R" .record none,
    .instantiate (.known ⟨1, 0⟩) [("t", .int)], .type (.cPtr (.known ⟨1, 0⟩)),
    .field (.known ⟨1, 0⟩) "t" (FieldDecl.type.withDefault .int),
    .field (.known ⟨1, 0⟩) "next" (.var (.known ⟨7, 0⟩)),
    .field (.known ⟨1, 0⟩) "first" (.var (.known ⟨1, 1⟩))]

/-- Two types for the type field, and one for a name that no field has. -/
def returningRecordTypes : List (Name × TypeId) :=
  [(⟨⟨2, 2⟩⟩, .real), (⟨⟨2, 2⟩⟩, .int), (⟨⟨2, 1⟩⟩, .known ⟨1, 1⟩)]

/-- The instantiation of the record by integers, instantiated again. -/
theorem returningRecord_refines :
    (Session.start returningRecord .bySize).Reached ∧
    returningRecord.types.read? (.known ⟨1, 1⟩) = some (.composite
      ⟨.record, .at 1, ⟨⟨2, 1⟩⟩, some (.known ⟨1, 0⟩), [(⟨⟨2, 2⟩⟩, .int)], none⟩) ∧
    (∀ given ∈ returningRecordTypes, returningRecord.types.Admits given.2) ∧
    ∃ inst pool root,
      returningRecord.types.instantiate (.known ⟨1, 1⟩) returningRecordTypes =
          .ok (some (inst, pool)) ∧
        returningRecord.types.genericRoot (.known ⟨1, 1⟩) = .ok root ∧
          pool.genericRoot inst = .ok root ∧
            returningRecord.decls.Refines pool returningRecordTypes inst root ∧
              ∀ policy, returningRecord.decls.fields pool policy root =
                returningRecord.decls.fields returningRecord.types policy root := by
  have reached := Session.reached_start (Program.built_ofCalls _ _ : returningRecord.Built) .bySize
  have stored : returningRecord.types.read? (.known ⟨1, 1⟩) = some (.composite
      ⟨.record, .at 1, ⟨⟨2, 1⟩⟩, some (.known ⟨1, 0⟩), [(⟨⟨2, 2⟩⟩, .int)], none⟩) := by
    decide +kernel
  have admitted : ∀ given ∈ returningRecordTypes, returningRecord.types.Admits given.2 := by
    decide +kernel
  exact ⟨reached, stored, admitted, instantiation_refines_root reached stored admitted⟩

/-- An instantiation may need types where the generic form has defaults: the record is not found generic
again on a way that leads back to it, but on a way from its instantiation it is. -/
example :
    mutualRecords.decls.genericity mutualRecords.types (.known ⟨1, 0⟩) = .ok .genericWithDefaults ∧
      (mutualRecords.types.instantiate (.known ⟨1, 0⟩) []).map (Option.map fun made =>
        (mutualRecords.decls.genericity made.2 made.1).toOption) = .ok (some (some .generic)) := by
  decide +kernel

/-! ## Defaults -/

namespace Declarations

variable {d : Declarations} {pool : TypePool} {ty : TypeId} {c : Composite}

/-- A declared field with defaults used, and with defaults left aside. -/
theorem closesByDefault_resolvedField (hc : pool.HasComposite ty c)
    (entry : DeclId × Name × FieldDecl) :
    (resolvedField c .ignoreDefaults entry).ClosesByDefault pool ty
      (resolvedField c .useDefaults entry) where
  name_eq := rfl
  decl_eq := rfl
  binding_eq := rfl
  hasDefault_eq := rfl
  type_eq := by
    obtain same | ⟨storage, default, free⟩ :=
      entry.2.2.resolvedType_useDefaults (c.substitution? entry.2.1)
    · exact .inl same
    · exact .inr ⟨storage, default, c, hc, free⟩

end Declarations

/-- With defaults used, a type lists the fields that it lists with defaults left aside, in the same order.
They differ at most in the types of type fields with a default that nothing takes the place of, and the
list is open only if the other is. -/
theorem defaults_close_fields {s : Session} (reached : s.Reached) {ty : TypeId} {data : TypeData}
    (stored : s.program.types.read? ty = some data) :
    ∃ used ignored, s.program.decls.fields s.program.types .useDefaults ty = .ok used ∧
      s.program.decls.fields s.program.types .ignoreDefaults ty = .ok ignored ∧
        List.Forall₂ (ResolvedField.ClosesByDefault s.program.types ty) ignored.fields used.fields ∧
          (used.isGeneric = true → ignored.isGeneric = true) := by
  obtain ⟨types, decls⟩ := reached.sound.program
  by_cases composite : ∃ c, s.program.types.HasComposite ty c
  · obtain ⟨c, hc⟩ := composite
    obtain ⟨used, foundUsed, listedUsed, opensUsed⟩ :=
      Declarations.exists_fieldList types decls.admitted hc .useDefaults
    obtain ⟨ignored, foundIgnored, listedIgnored, opensIgnored⟩ :=
      Declarations.exists_fieldList types decls.admitted hc .ignoreDefaults
    refine ⟨used, ignored, foundUsed, foundIgnored, ?_, fun isOpen => ?_⟩
    · rw [listedUsed, listedIgnored, List.forall₂_map_left_iff, List.forall₂_map_right_iff,
        List.forall₂_same]
      intro entry _
      exact Declarations.closesByDefault_resolvedField hc entry
    · exact opensIgnored.2 ((opensUsed.1 isOpen).imp_left Declarations.selfOpen_of_useDefaults)
  · have none := not_exists.1 composite
    exact ⟨_, _, Declarations.fields_of_none types stored none .useDefaults,
      Declarations.fields_of_none types stored none .ignoreDefaults, .nil, id⟩

/-- The type field of the record is any type with its default left aside, and an integer with it. -/
theorem returningRecord_closed :
    (Session.start returningRecord .bySize).Reached ∧
    returningRecord.types.read? (.known ⟨1, 0⟩) =
      some (.composite ⟨.record, .at 1, ⟨⟨2, 1⟩⟩, none, [], none⟩) ∧
    ∃ used ignored,
      returningRecord.decls.fields returningRecord.types .useDefaults (.known ⟨1, 0⟩) = .ok used ∧
      returningRecord.decls.fields returningRecord.types .ignoreDefaults (.known ⟨1, 0⟩) =
        .ok ignored ∧
      List.Forall₂ (ResolvedField.ClosesByDefault returningRecord.types (.known ⟨1, 0⟩))
        ignored.fields used.fields ∧
      (used.isGeneric = true → ignored.isGeneric = true) := by
  have reached := Session.reached_start (Program.built_ofCalls _ _ : returningRecord.Built) .bySize
  have stored : returningRecord.types.read? (.known ⟨1, 0⟩) =
      some (.composite ⟨.record, .at 1, ⟨⟨2, 1⟩⟩, none, [], none⟩) := by
    decide +kernel
  exact ⟨reached, stored, defaults_close_fields reached stored⟩

end MethodSynthesis
