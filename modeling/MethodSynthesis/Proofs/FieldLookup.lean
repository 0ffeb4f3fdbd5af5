import MethodSynthesis.Proofs.FieldAdditions
import MethodSynthesis.Proofs.Initializers
import MethodSynthesis.Proofs.UnknownTypes

/-!
# Ways of finding a field

A field of a type is found by its name in three ways. The names of the declarations that are listed for
its composite are searched, whatever these declare (`Declarations.fieldId?`). The list of the type's
fields is searched, which has the declared fields only (`FieldList.find?`). And the field has an accessor,
which is a method of its declaration and receives the undecorated type.

`field_searches_agree` states that the three find the same field. The first search and the second differ
in what they pass over: they agree because what a composite lists is declared as a field
(`Declarations.FieldsAgree`), so that the first entry of a name is the first field of that name
(`Declarations.find?_fieldsOf`). The third goes by the first, over the undecorated type
(`Declarations.draftAccessor_eq`).
-/

set_option autoImplicit false

namespace MethodSynthesis

namespace Declarations

variable {d : Declarations} {pool : TypePool} {ty : TypeId} {data : TypeData} {c : Composite}
  {owner id : DeclId} {name : Name}

/-! ## Searching declarations -/

/-- A declared field has its entry under its name. -/
theorem exists_get?_of_field? {field : FieldDecl} (declared : d.field? id = some (name, field)) :
    ∃ span, d.get? id = some ⟨name, span, .field field⟩ := by
  unfold field? at declared
  split at declared
  · rename_i name' span field' get
    obtain ⟨rfl, rfl⟩ : name' = name ∧ field' = field := by simpa using declared
    exact ⟨span, get⟩
  · cases declared

/-- What is listed as a field is declared as one. -/
theorem FieldsAgree.kind?_eq (agree : d.FieldsAgree) (mem : id ∈ d.fieldIds owner) :
    d.kind? id = some .field := by
  obtain ⟨⟨name, field⟩, declared⟩ := Option.isSome_iff_exists.1 (agree.field mem)
  obtain ⟨span, get⟩ := exists_get?_of_field? declared
  simp [kind?, body?, get, DeclBody.kind]

theorem kind?_of_fieldNamed? (agree : d.FieldsAgree) (found : d.fieldNamed? owner name = some id) :
    d.kind? id = some .field :=
  agree.kind?_eq (List.mem_of_find?_eq_some found)

/-- The first listed declaration of a name is that of the first declared field of that name. -/
theorem find?_fieldsOf (agree : d.FieldsAgree) (owner : DeclId) (name : Name) :
    ((d.fieldsOf owner).find? (·.2.1 = name)).map (·.1) = d.fieldNamed? owner name := by
  have declared : ∀ id ∈ d.fieldIds owner, (d.field? id).isSome := fun id => agree.field
  unfold fieldsOf fieldNamed?
  generalize d.fieldIds owner = ids at declared ⊢
  induction ids with
  | nil => rfl
  | cons id ids ih =>
    rw [List.forall_mem_cons] at declared
    obtain ⟨⟨name', field⟩, isField⟩ := Option.isSome_iff_exists.1 declared.1
    obtain ⟨span, get⟩ := exists_get?_of_field? isField
    by_cases named : name' = name
    · simp [isField, get, named]
    · simpa [isField, get, named] using ih declared.2

/-- To search the list of a composite's fields is to search its declared fields. -/
theorem find?_map_resolvedField (c : Composite) (policy : DefaultsPolicy)
    (entries : List (DeclId × Name × FieldDecl)) (name : Name) :
    ((entries.map (resolvedField c policy)).find? (·.name = name)).map (·.decl) =
      (entries.find? (·.2.1 = name)).map (·.1) := by
  rw [List.find?_map, Option.map_map]
  rfl

/-- The search has an answer for every stored type. -/
theorem exists_fieldId? (sound : pool.Sound) (stored : pool.read? ty = some data) (name : Name) :
    ∃ found, d.fieldId? pool ty name = .ok found := by
  by_cases composite : ∃ c, pool.HasComposite ty c
  · obtain ⟨c, hc⟩ := composite
    exact ⟨_, fieldId?_eq_ok hc name⟩
  · exact ⟨none, (fieldId?_of_none sound stored (not_exists.1 composite) name).1⟩

/-- The list of a type's fields is searched with the outcome of searching the declarations. -/
theorem exists_find?_eq (sound : pool.Sound) (admitted : d.AdmittedBy pool) (agree : d.FieldsAgree)
    (stored : pool.read? ty = some data) {found : Option DeclId}
    (direct : d.fieldId? pool ty name = .ok found) (policy : DefaultsPolicy) :
    ∃ list, d.fields pool policy ty = .ok list ∧ (list.find? name).map (·.decl) = found := by
  obtain ⟨list, hlist, listed, unlisted⟩ := exists_fields_eq sound admitted stored policy
  refine ⟨list, hlist, ?_⟩
  by_cases composite : ∃ c, pool.HasComposite ty c
  · obtain ⟨c, hc⟩ := composite
    obtain rfl := Except.ok.inj ((fieldId?_eq_ok hc name).symm.trans direct)
    rw [FieldList.find?, listed c hc, find?_map_resolvedField, find?_fieldsOf agree]
  · have none := not_exists.1 composite
    obtain rfl := Except.ok.inj ((fieldId?_of_none sound stored none name).1.symm.trans direct)
    rw [FieldList.find?, unlisted none]
    rfl

/-- An accessor is drafted for the declaration that is found, and for no other. -/
theorem exists_draftAccessor_eq (sound : pool.Sound) (agree : d.FieldsAgree)
    (stored : pool.read? ty = some data) {found : Option DeclId}
    (direct : d.fieldId? pool ty name = .ok found) :
    ∃ drafted, d.host.draftAccessor pool ty name = .ok drafted ∧ drafted.map (·.owner) = found ∧
      ∀ draft ∈ drafted, draft.ownerKind = .field := by
  by_cases composite : ∃ c, pool.HasComposite ty c
  · obtain ⟨c, hc⟩ := composite
    obtain ⟨basic, form⟩ := TypePool.hasComposite_iff.1 hc
    obtain rfl := Except.ok.inj ((fieldId?_eq_ok hc name).symm.trans direct)
    refine ⟨_, draftAccessor_eq form name, ?_, ?_⟩
    · rw [Option.map_map]
      exact Option.map_id'
    · intro draft mem
      obtain ⟨id, named, rfl⟩ := Option.map_eq_some_iff.1 mem
      exact congrArg (Option.getD · .field) (kind?_of_fieldNamed? agree named)
  · have none := not_exists.1 composite
    obtain ⟨nowhere, undrafted⟩ := fieldId?_of_none (d := d) sound stored none name
    obtain rfl := Except.ok.inj (nowhere.symm.trans direct)
    exact ⟨.none, undrafted, rfl, fun draft mem => nomatch mem⟩

end Declarations

/-! ## Accessors that are not kept -/

/-- The answer to the question for the accessor of a field: nothing if no declaration was found, and
otherwise a method of the declaration, which is one of a field. -/
def Session.AnswersAccessor (s : Session) (ty : TypeId) (name : Name) (found : Option DeclId) : Prop :=
  let answered := ((Call.accessor (some ty) name).ask s.program.decls.host).exec s
  match found with
  | none => answered.1 = .ok .nothing
  | some id => ∃ sig untyped typed, answered.1 = .ok (.signature sig) ∧
    answered.2.signatures.Holds sig untyped typed ∧ untyped.owner = id ∧ untyped.ownerKind = .field

/-- The accessor of a known type is looked up in its table. -/
theorem Call.ask_accessor_eq (host : Host) {ty : TypeId} (known : ty.isUnknown = false) (name : Name) :
    (Call.accessor (some ty) name).ask host =
      .ofOption <$> Query.memoized .accessors ⟨ty, name⟩ (Session.accessorAfresh host ty name) := by
  simp [Call.ask, Session.accessor, Option.filter_some, known]

/-- The session gives what is drafted for an accessor that it has not kept. -/
theorem Session.answersAccessor_of_draft {s : Session} {ty : TypeId} (known : ty.isUnknown = false)
    {name : Name} (wf : s.program.types.WellFormed) (wf' : s.signatures.WellFormed)
    (fresh : s.memo.kept? (.accessor (some ty) name) = none) {drafted : Option Draft}
    (made : s.program.decls.host.draftAccessor s.program.types ty name = .ok drafted)
    (fields : ∀ draft ∈ drafted, draft.ownerKind = .field) :
    s.AnswersAccessor ty name (drafted.map (·.owner)) := by
  have question : (Call.accessor (some ty) name).draft s.program.decls.host s.program.types =
      .ok (.ofOption drafted) := by
    rw [Call.draft_accessor_eq known, made, ok_bind]
  obtain ⟨given, tables⟩ := Query.Settles.of_fresh (MemoSlot.answers_accessors known name)
    (settles_accessorAfresh s.program.decls.host known name) fresh
  rw [← Call.ask_accessor_eq _ known, question] at given tables
  cases drafted with
  | none => exact given
  | some draft =>
    obtain ⟨-, -, stored⟩ := draft.grows_store wf wf' (Call.grounded_draft wf question)
    obtain ⟨_, typed, holds, -, rfl, -⟩ := stored.isGenerated
    refine ⟨_, draft.untyped, typed, given, ?_, rfl, fields draft rfl⟩
    rw [← tables.2]
    exact holds

/-- The ways of finding a field of a name agree on what is found: the search of the declarations, that of
the list of fields under either policy, and the accessor, if none is kept for the field. -/
structure Session.FindsField (s : Session) (ty : TypeId) (name : Name) (found : Option DeclId) :
    Prop where
  declared : s.program.decls.fieldId? s.program.types ty name = .ok found
  listed : ∀ policy, ∃ list, s.program.decls.fields s.program.types policy ty = .ok list ∧
    (list.find? name).map (·.decl) = found
  accessed : s.memo.kept? (.accessor (some ty) name) = none → s.AnswersAccessor ty name found

/-- Each way of finding a field of a stored type has an answer, and it is the same for all of them,
whatever was built and asked before. -/
theorem field_searches_agree {s : Session} (reached : s.Reached) {ty : TypeId} {data : TypeData}
    (stored : s.program.types.read? ty = some data) (name : Name) :
    ∃ found, s.FindsField ty name found := by
  obtain ⟨types, decls⟩ := reached.sound.program
  have agree := reached.consistent.toFieldsAgree
  obtain ⟨found, direct⟩ := Declarations.exists_fieldId? (d := s.program.decls) types stored name
  refine ⟨found, direct, fun policy => ?_, fun fresh => ?_⟩
  · exact Declarations.exists_find?_eq types decls.admitted agree stored direct policy
  · obtain ⟨drafted, made, rfl, fields⟩ :=
      Declarations.exists_draftAccessor_eq types agree stored direct
    exact Session.answersAccessor_of_draft (TypePool.isUnknown_of_read? stored)
      types.wellFormed reached.sound.signatures fresh made fields

/-- A class with two fields of one name, its instantiation by integers, and the instantiation as an owned
class. -/
def twiceNamedClass : Program :=
  .ofCalls .bySize [.module "M" none, .composite (.at 0) "C" .classType none,
    .field (.known ⟨1, 0⟩) "x" .untyped, .field (.known ⟨1, 0⟩) "x" (.var .real),
    .instantiate (.known ⟨1, 0⟩) [("x", .int)], .type (.decorate (.known ⟨1, 1⟩) .ownedNonNil)]

/-- The first of the two fields is found in the owned class. -/
theorem twiceNamedClass_findsField :
    (Session.start twiceNamedClass .bySize).Reached ∧
    twiceNamedClass.types.read? (.known ⟨2, 0⟩) = some (.decorated (.known ⟨1, 1⟩) .ownedNonNil) ∧
    (Session.start twiceNamedClass .bySize).FindsField (.known ⟨2, 0⟩) ⟨⟨2, 2⟩⟩ (some (.at 2)) := by
  have reached := Session.reached_start (Program.built_ofCalls _ _ : twiceNamedClass.Built) .bySize
  have stored : twiceNamedClass.types.read? (.known ⟨2, 0⟩) =
      some (.decorated (.known ⟨1, 1⟩) .ownedNonNil) := by
    decide +kernel
  obtain ⟨found, finds⟩ := field_searches_agree reached stored ⟨⟨2, 2⟩⟩
  have first : twiceNamedClass.decls.fieldId? twiceNamedClass.types (.known ⟨2, 0⟩) ⟨⟨2, 2⟩⟩ =
      .ok (some (.at 2)) := by
    decide +kernel
  obtain rfl := Except.ok.inj (first.symm.trans finds.declared)
  exact ⟨reached, stored, finds⟩

end MethodSynthesis
