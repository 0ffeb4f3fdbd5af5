import MethodSynthesis.Proofs.Receivers

/-!
# When a method is needed

The need for a method of a type is decided by the structure of the type, the name and the call shape,
and by the overloads in sight of the declaration of the type. `needsMethod_iff` states this decision
without the walks that make it: which methods types have (`TypeData.HasMethod`), which queries they
answer (`TypeData.HasQuery`), and when an overload shadows a method (`Declarations.Shadows`).
-/

set_option autoImplicit false

namespace MethodSynthesis

/-! ## Methods and queries -/

/-- The methods that types of a structure have unless they are shadowed. -/
inductive TypeData.HasMethod (data : TypeData) : Name → Prop
  | init : HasMethod data .init
  | deinit : HasMethod data .deinit
  | initCopy : HasMethod data .initCopy
  | equals {c : Composite} : data = .composite c → c.kind = .record → HasMethod data .equals
  | assign {c : Composite} : data = .composite c → c.kind = .record → HasMethod data .assign

/-- The queries that types of a structure answer, by name and by whether they are called without
parentheses. -/
inductive TypeData.HasQuery : TypeData → Name → Bool → Prop
  | tuple {elements : List TypeId} {parenless : Bool} : HasQuery (.tuple elements) .size parenless
  | rectangularField {rank : Nat} {index : TypeId} {strided : Bool} {name : Name} :
      name ∈ [Name.idxType, .rank, .stridable, .parSafe] →
        HasQuery (.rectangular rank index strided) name true
  | rectangularTest {rank : Nat} {index : TypeId} {strided : Bool} {name : Name} :
      name ∈ [Name.isRectangular, .isAssociative] →
        HasQuery (.rectangular rank index strided) name false
  | associativeField {index : TypeId} {parSafe : Bool} {name : Name} :
      name ∈ [Name.idxType, .rank, .stridable, .parSafe] →
        HasQuery (.associative index parSafe) name true
  | associativeTest {index : TypeId} {parSafe : Bool} {name : Name} :
      name ∈ [Name.isRectangular, .isAssociative] → HasQuery (.associative index parSafe) name false
  | array {domain element : TypeId} {name : Name} {parenless : Bool} :
      name ∈ [Name.domain, .eltType] → HasQuery (.array domain element) name parenless
  | cPtr {element : TypeId} {parenless : Bool} : HasQuery (.cPtr element) .eltType parenless

namespace TypeData

variable {data : TypeData} {name : Name} {parenless : Bool}

theorem kind_eq_record_iff :
    data.kind = .record ↔ ∃ c, data = .composite c ∧ c.kind = .record := by
  cases data with
  | composite c => cases h : c.kind <;> simp [kind, h]
  | _ => simp [kind]

theorem provides_iff : data.kind.provides name = true ↔ data.HasMethod name := by
  simp only [TypeKind.provides, Name.isLifecycleMethod, Name.isRecordOperator, Bool.or_eq_true,
    Bool.and_eq_true, decide_eq_true_eq, kind_eq_record_iff]
  constructor
  · rintro (((rfl | rfl) | rfl) | ⟨⟨c, rfl, kind⟩, rfl | rfl⟩)
    · exact .init
    · exact .deinit
    · exact .initCopy
    · exact .equals rfl kind
    · exact .assign rfl kind
  · intro h
    cases h with
    | init => exact .inl (.inl (.inl rfl))
    | deinit => exact .inl (.inl (.inr rfl))
    | initCopy => exact .inl (.inr rfl)
    | equals eq kind => exact .inr ⟨⟨_, eq, kind⟩, .inl rfl⟩
    | assign eq kind => exact .inr ⟨⟨_, eq, kind⟩, .inr rfl⟩

theorem isParenlessDomainQuery_iff :
    name.isParenlessDomainQuery = true ↔ name ∈ [Name.idxType, .rank, .stridable, .parSafe] := by
  simp [Name.isParenlessDomainQuery, or_assoc]

theorem isParenDomainQuery_iff :
    name.isParenDomainQuery = true ↔ name ∈ [Name.isRectangular, .isAssociative] := by
  simp [Name.isParenDomainQuery]

theorem isArrayQuery_iff : name.isArrayQuery = true ↔ name ∈ [Name.domain, .eltType] := by
  simp [Name.isArrayQuery]

theorem answers_iff : data.kind.answers name parenless = true ↔ data.HasQuery name parenless := by
  constructor
  · intro h
    cases data with
    | tuple elements =>
      obtain rfl : name = .size := of_decide_eq_true h
      exact .tuple
    | rectangular rank index strided =>
      cases parenless with
      | true => exact .rectangularField (isParenlessDomainQuery_iff.1 h)
      | false => exact .rectangularTest (isParenDomainQuery_iff.1 h)
    | associative index parSafe =>
      cases parenless with
      | true => exact .associativeField (isParenlessDomainQuery_iff.1 h)
      | false => exact .associativeTest (isParenDomainQuery_iff.1 h)
    | array domain element => exact .array (isArrayQuery_iff.1 h)
    | cPtr element =>
      obtain rfl : name = .eltType := of_decide_eq_true h
      exact .cPtr
    | composite c => cases kind : c.kind <;> simp [kind, TypeData.kind, TypeKind.answers] at h
    | _ => exact nomatch h
  · intro h
    cases h with
    | tuple => rfl
    | rectangularField mem => exact isParenlessDomainQuery_iff.2 mem
    | rectangularTest mem => exact isParenDomainQuery_iff.2 mem
    | associativeField mem => exact isParenlessDomainQuery_iff.2 mem
    | associativeTest mem => exact isParenDomainQuery_iff.2 mem
    | array mem => exact isArrayQuery_iff.2 mem
    | cPtr => rfl

end TypeData

/-! ## Shadowing -/

/-- The body of a composite type lies in another scope. -/
def ScopeTree.LiesIn (t : ScopeTree) (s q : ScopeId) : Prop :=
  ∃ data, t.get? s = some data ∧ data.kind = .composite ∧ data.parent = some q

/-- A function is declared in a scope. -/
def Declarations.DeclaresIn (d : Declarations) (s : ScopeId) (f : FunctionDecl) : Prop :=
  ∃ data entry, d.scopes.get? s = some data ∧ entry ∈ data.entries ∧
    d.function? entry.decl = some f

/-- An overload of a name shadows the method of a type: the type is a composite or a decorated class
whose declaration owns a scope, and the overload covers the type and is declared in that scope or in
one around it, up to the innermost module. -/
def Declarations.Shadows (d : Declarations) (pool : TypePool) (ty : TypeId) (name : Name) : Prop :=
  ∃ c owned s f, pool.HasComposite ty c ∧ d.scope? c.decl = some owned ∧
    Relation.ReflTransGen d.scopes.LiesIn owned s ∧ d.DeclaresIn s f ∧ f.name = name ∧
      pool.IsCoveredBy ty f

namespace Declarations

variable {d : Declarations} {pool : TypePool} {ty : TypeId} {data : TypeData}

theorem follows_all_iff {s q : ScopeId} :
    d.scopes.Follows .all s q ↔ d.scopes.LiesIn s q := by
  simp only [ScopeTree.Follows, ScopeTree.LiesIn, ScopeTree.next?_all_eq_some_iff]

/-- The functions that a lookup of everything finds are those of that name that are declared in the
scope where it starts or in one around it. -/
theorem WellFormed.exists_shown_iff (wf : d.WellFormed) {owned : ScopeId} {name : Name}
    {P : FunctionDecl → Prop} :
    (∃ id, d.scopes.Shows .all owned name id ∧ ∃ f, d.function? id = some f ∧ P f) ↔
      ∃ s f, Relation.ReflTransGen d.scopes.LiesIn owned s ∧ d.DeclaresIn s f ∧ f.name = name ∧
        P f := by
  have path : ∀ s, Relation.ReflTransGen (d.scopes.Follows .all) owned s ↔
      Relation.ReflTransGen d.scopes.LiesIn owned s :=
    fun s => iff_of_eq (congrArg (Relation.ReflTransGen · owned s)
      (funext₂ fun _ _ => propext follows_all_iff))
  constructor
  · rintro ⟨id, ⟨data, entry, ⟨s, reach, get⟩, mem, rfl, -, rfl⟩, f, function, holds⟩
    exact ⟨s, f, (path s).1 reach, ⟨data, entry, get, mem, function⟩,
      wf.name_eq get mem function, holds⟩
  · rintro ⟨s, f, reach, ⟨data, entry, get, mem, function⟩, rfl, holds⟩
    refine ⟨entry.decl, ⟨data, entry, ⟨s, (path s).2 reach, get⟩, mem,
      (wf.name_eq get mem function).symm, ?_, rfl⟩, f, function, holds⟩
    simp [LookupConfig.admits, LookupConfig.all]

/-- A method of a composite is shadowed by what a lookup from the scope of its declaration finds. -/
theorem WellFormed.shadows_iff_shown (wf : d.WellFormed) {c : Composite}
    (composite : pool.HasComposite ty c) (name : Name) :
    d.Shadows pool ty name ↔ ∃ owned, d.scope? c.decl = some owned ∧
      ∃ id, d.scopes.Shows .all owned name id ∧
        ∃ f, d.function? id = some f ∧ pool.IsCoveredBy ty f := by
  constructor
  · rintro ⟨c', owned, s, f, composite', scope, rest⟩
    obtain rfl := composite.unique composite'
    exact ⟨owned, scope, wf.exists_shown_iff.2 ⟨s, f, rest⟩⟩
  · rintro ⟨owned, scope, shown⟩
    obtain ⟨s, f, rest⟩ := wf.exists_shown_iff.1 shown
    exact ⟨c, owned, s, f, composite, scope, rest⟩

/-- A type without a composite asks nothing. -/
theorem isShadowed_of_plain (sound : pool.Sound) (stored : pool.read? ty = some data)
    (plain : ∀ c, ¬ pool.HasComposite ty c) (name : Name) :
    d.host.isShadowed pool ty name = .ok false := by
  rw [Host.isShadowed, sound.compositeOf?_of_none stored plain]
  rfl

/-- A type asks whether one of the overloads covers it that its lookup finds. -/
theorem isShadowed_eq_anyM {c : Composite} {name : Name} {owned : ScopeId} {ids : List DeclId}
    (composite : pool.HasComposite ty c) (owns : d.scope? c.decl = some owned)
    (found : d.scopes.lookup owned name .all = .ok ids) :
    d.host.isShadowed pool ty name = ids.anyM (d.host.covers pool ty) := by
  have owns' : d.host.scope? c.decl = some owned := owns
  have found' : d.host.lookup owned name .all = .ok ids := found
  rw [Host.isShadowed, composite.compositeOf?_eq_ok, ok_bind]
  simp only [owns', found', ok_bind]

/-- A type that owns no scope asks nothing. -/
theorem isShadowed_of_unowned {c : Composite} (composite : pool.HasComposite ty c)
    (unowned : d.scope? c.decl = none) (name : Name) : d.host.isShadowed pool ty name = .ok false := by
  have unowned' : d.host.scope? c.decl = none := unowned
  rw [Host.isShadowed, composite.compositeOf?_eq_ok, ok_bind]
  simp only [unowned']
  rfl

/-- Whether a method of a composite is shadowed is asked of the declarations in sight. -/
theorem isShadowed_eq (wf : d.WellFormed) {c : Composite} (composite : pool.HasComposite ty c)
    (name : Name) :
    ∃ ids : List DeclId, (∀ id, id ∈ ids ↔ ∃ owned, d.scope? c.decl = some owned ∧
        d.scopes.Shows .all owned name id) ∧
      d.host.isShadowed pool ty name = ids.anyM (d.host.covers pool ty) := by
  cases owns : d.scope? c.decl with
  | none => exact ⟨[], by simp, isShadowed_of_unowned composite owns name⟩
  | some owned =>
    obtain ⟨ids, found, listed⟩ := ScopeTree.lookup_spec wf.nested owned name .all
    exact ⟨ids, by simp [listed], isShadowed_eq_anyM composite owns found⟩

/-- Whether a method of a composite is shadowed, where that has an answer. -/
theorem isShadowed_eq_ok (wf : d.WellFormed) {c : Composite} (composite : pool.HasComposite ty c)
    {name : Name} {shadowed : Bool} (h : d.host.isShadowed pool ty name = .ok shadowed) :
    shadowed = true ↔ d.Shadows pool ty name := by
  obtain ⟨ids, listed, eq⟩ := isShadowed_eq wf composite name
  rw [eq] at h
  rw [wf.shadows_iff_shown composite]
  simp only [anyM_eq_ok h, listed, covers_eq_ok_true_iff]
  constructor
  · rintro ⟨id, ⟨owned, scope, shown⟩, covers⟩
    exact ⟨owned, scope, id, shown, covers⟩
  · rintro ⟨owned, scope, id, shown, covers⟩
    exact ⟨id, ⟨owned, scope, shown⟩, covers⟩

/-- Whether a method is shadowed has an answer. -/
theorem isShadowed_spec (wf : d.WellFormed) (sound : pool.Sound) (known : pool.ParentsKnown)
    (formals : ∀ id f, d.function? id = some f →
      ∀ formal ∈ f.formals, ∃ data, pool.read? formal.type.type = some data)
    (stored : pool.read? ty = some data) (name : Name) :
    Answers (d.host.isShadowed pool ty name) (· = true ↔ d.Shadows pool ty name) := by
  by_cases found : ∃ c, pool.HasComposite ty c
  · obtain ⟨c, composite⟩ := found
    obtain ⟨ids, -, eq⟩ := isShadowed_eq wf composite name
    obtain ⟨shadowed, answer, -⟩ :=
      anyM_spec fun id (_ : id ∈ ids) => covers_spec sound known composite (formals id)
    rw [← eq] at answer
    exact ⟨shadowed, answer, isShadowed_eq_ok wf composite answer⟩
  · rw [isShadowed_of_plain sound stored (not_exists.1 found)]
    refine .ok (iff_of_false Bool.false_ne_true ?_)
    rintro ⟨c, _, _, _, composite, -⟩
    exact found ⟨c, composite⟩

end Declarations

/-! ## The decision -/

/-- To decide is to read the type. -/
theorem exists_read?_of_needsMethod {host : Host} {pool : TypePool} {ty : TypeId} {name : Name}
    {parenless needed : Bool} (h : host.needsMethod pool ty name parenless = .ok needed) :
    ∃ data, pool.read? ty = some data := by
  obtain ⟨kind, hkind, -⟩ := bind_eq_ok.1 h
  obtain ⟨data, hdata, -⟩ := bind_eq_ok.1 hkind
  exact ⟨data, TypePool.read_eq_ok_iff.1 hdata⟩

/-- The decision by the structure of the type: a method that the type has is needed unless it is shadowed,
and a query that it answers is needed in any case. -/
theorem Host.needsMethod_eq (host : Host) {pool : TypePool} {ty : TypeId} {data : TypeData}
    (stored : pool.read? ty = some data) (name : Name) (parenless : Bool) :
    host.needsMethod pool ty name parenless =
      if data.kind.provides name then
        host.isShadowed pool ty name >>= fun shadowed =>
          .ok (!shadowed || data.kind.answers name parenless)
      else .ok (data.kind.answers name parenless) := by
  rw [Host.needsMethod, TypePool.kind, TypePool.read_eq_ok_iff.2 stored]
  simp only [ok_bind, pure_eq_ok]
  split
  · refine bind_congr fun shadowed => ?_
    cases shadowed <;> rfl
  · rfl

/-- No declaration mentions the unknown type, and no class inherits from it. -/
structure Program.MentionsKnown (p : Program) : Prop where
  declared : ∀ decl ∈ p.decls.entries, .unknown ∉ decl.body.types
  parents : p.types.ParentsKnown

/-- The types of formals are mentioned by the declarations. -/
theorem Declarations.exists_mem_types {d : Declarations} {id : DeclId} {f : FunctionDecl}
    (function : d.function? id = some f) {formal : FormalDecl} (mem : formal ∈ f.formals) :
    ∃ decl ∈ d.entries, formal.type.type ∈ decl.body.types := by
  obtain ⟨decl, hdecl, body⟩ := Declarations.function?_eq_some_iff.1 function
  refine ⟨decl, Declarations.mem_entries_of_get? hdecl, ?_⟩
  rw [body]
  exact List.mem_map_of_mem mem

theorem Program.MentionsKnown.formals {p : Program} (known : p.MentionsKnown)
    (admitted : p.decls.AdmittedBy p.types) {id : DeclId} {f : FunctionDecl}
    (function : p.decls.function? id = some f) {formal : FormalDecl} (mem : formal ∈ f.formals) :
    ∃ data, p.types.read? formal.type.type = some data := by
  obtain ⟨decl, entry, mentioned⟩ := Declarations.exists_mem_types function mem
  refine (admitted decl entry _ mentioned).resolve_left fun unknown => ?_
  exact known.declared decl entry (unknown ▸ mentioned)

/-- The need for a method, by the structure of the type. The type has the method and nothing shadows
it, or the type answers the name as a query. -/
theorem needsMethod_iff (p : Program) (built : p.Built) (known : p.MentionsKnown) {ty : TypeId}
    {data : TypeData} (stored : p.types.read? ty = some data) (name : Name) (parenless : Bool) :
    ∃ needed, p.decls.host.needsMethod p.types ty name parenless = .ok needed ∧
      (needed = true ↔ (data.HasMethod name ∧ ¬ p.decls.Shadows p.types ty name) ∨
        data.HasQuery name parenless) := by
  have sound := built.wellFormed.types
  have shadowed := Declarations.isShadowed_spec built.wellFormed.decls.wellFormed sound
    known.parents (fun id f function formal =>
      known.formals built.wellFormed.decls.admitted function) stored name
  rw [Host.needsMethod, TypePool.kind, TypePool.read_eq_ok_iff.2 stored, ← TypeData.provides_iff,
    ← TypeData.answers_iff]
  simp only [ok_bind, pure_eq_ok]
  cases provides : data.kind.provides name with
  | false => exact ⟨_, rfl, by simp⟩
  | true =>
    -- a method that is shadowed may still be a query
    refine shadowed.bind fun shadows holds => ?_
    rw [← holds]
    cases shadows with
    | false => exact ⟨true, rfl, by simp⟩
    | true => exact ⟨_, rfl, by simp⟩

/-- A class with its owned and borrowed forms, and an initializer for the borrowed form. -/
def ownedClass : Program :=
  .ofCalls .bySize [.module "M" none, .composite (.at 0) "C" .classType none,
    .type (.decorate (.known ⟨1, 0⟩) ⟨.owned, false⟩),
    .type (.decorate (.known ⟨1, 0⟩) .borrowedNonNil),
    .named (.at 0) "init" .procedure true [⟨.receiver, ⟨.constIn, .known ⟨2, 1⟩⟩, false⟩]]

theorem ownedClass_needsMethod_init :
    ownedClass.Built ∧ ownedClass.MentionsKnown ∧
      ownedClass.types.read? (.known ⟨2, 0⟩) =
        some (.decorated (.known ⟨1, 0⟩) ⟨.owned, false⟩) ∧
      ∃ needed, ownedClass.decls.host.needsMethod ownedClass.types (.known ⟨2, 0⟩) .init false =
          .ok needed ∧
        (needed = true ↔
          (TypeData.HasMethod (.decorated (.known ⟨1, 0⟩) ⟨.owned, false⟩) .init ∧
            ¬ ownedClass.decls.Shadows ownedClass.types (.known ⟨2, 0⟩) .init) ∨
          TypeData.HasQuery (.decorated (.known ⟨1, 0⟩) ⟨.owned, false⟩) .init false) := by
  have built : ownedClass.Built := Program.built_ofCalls _ _
  have known : ownedClass.MentionsKnown := by
    refine ⟨by decide +kernel, ?_⟩
    rw [TypePool.parentsKnown_iff built.wellFormed.types.wellFormed.table]
    decide +kernel
  have stored : ownedClass.types.read? (.known ⟨2, 0⟩) =
      some (.decorated (.known ⟨1, 0⟩) ⟨.owned, false⟩) := by
    decide +kernel
  exact ⟨built, known, stored, needsMethod_iff ownedClass built known stored .init false⟩

/-- The owned form of the class is seen as borrowed by the initializer, which shadows the generated
one. -/
example : ownedClass.decls.host.needsMethod ownedClass.types (.known ⟨2, 0⟩) .init false =
    .ok false := by
  decide +kernel

end MethodSynthesis
