import Mathlib
import MethodSynthesis.Program
import MethodSynthesis.Proofs.FieldTypes
import MethodSynthesis.Proofs.Scopes

/-!
# Programs that builders make

A call of a builder is a value of `BuilderCall`, and `Program.Built` holds of the programs that a
sequence of such calls leads to. The types that a call mentions are to be in the pool at that time, or
unknown. `Built.wellFormed` states the invariant of these programs: the pool is sound and has what the
declarations mention, the parent of a scope is older than the scope, and what a scope lists under a
name is a declaration of that name.

What one call does is said twice, for the two parts of a program. It leaves the pool as it is or makes
one type (`Program.run_types`), and it makes at most one edit of the declarations
(`Program.run_edit`), after which they fit the pool it leaves (`Program.run_decls`).
-/

set_option autoImplicit false

namespace MethodSynthesis

/-! ## Declarations -/

namespace DeclBody

theorem scope?_addField (id : DeclId) (body : DeclBody) :
    (body.addField id).scope? = body.scope? := by
  cases body <;> rfl

theorem types_addField (id : DeclId) (body : DeclBody) : (body.addField id).types = body.types := by
  cases body <;> rfl

theorem eq_function_of_addField {id : DeclId} {body : DeclBody} {f : FunctionDecl}
    (h : body.addField id = .function f) : body = .function f := by
  cases body with
  | composite _ _ _ => exact nomatch h
  | _ => exact h

end DeclBody

namespace Declarations

/-- The invariant of declarations that builders make. -/
structure WellFormed (d : Declarations) : Prop where
  nested : d.scopes.Nested
  owned_lt : ∀ decl ∈ d.entries, ∀ s, decl.body.scope? = some s → s.index < d.scopes.size
  declared : ∀ {s data}, d.scopes.get? s = some data → ∀ e ∈ data.entries,
    ∃ decl, d.get? e.decl = some decl ∧ decl.name = e.name
  function_name : ∀ decl ∈ d.entries, ∀ f, decl.body = .function f → f.name = decl.name

theorem wellFormed_empty : empty.WellFormed where
  nested h := nomatch h
  owned_lt _ h := nomatch h
  declared h := nomatch h
  function_name _ h := nomatch h

variable {d : Declarations} {pool pool' : TypePool}

theorem get?_append {id : DeclId} {decl : Declaration} (h : d.get? id = some decl) (name : Name)
    (body : DeclBody) : (d.append name body).get? id = some decl := by
  cases id with
  | absent => exact nomatch h
  | «at» index =>
    have lt := (List.getElem?_eq_some_iff.1 h).1
    simpa [get?, append, List.getElem?_append_left lt] using h

theorem get?_append_nextId (name : Name) (body : DeclBody) :
    (d.append name body).get? d.nextId = some ⟨name, .dummy, body⟩ := by
  simp [get?, append, nextId, size]

theorem WellFormed.scope?_lt (wf : d.WellFormed) {id : DeclId} {s : ScopeId}
    (h : d.scope? id = some s) : s.index < d.scopes.size := by
  obtain ⟨body, hbody, owned⟩ := Option.bind_eq_some_iff.1 h
  obtain ⟨decl, hdecl, rfl⟩ := Option.map_eq_some_iff.1 hbody
  exact wf.owned_lt decl (mem_entries_of_get? hdecl) s owned

/-- What a scope lists under a name is declared under that name. -/
theorem WellFormed.name_eq (wf : d.WellFormed) {s : ScopeId} {data : ScopeData}
    (get : d.scopes.get? s = some data) {entry : ScopeEntry} (mem : entry ∈ data.entries)
    {f : FunctionDecl} (function : d.function? entry.decl = some f) : f.name = entry.name := by
  obtain ⟨decl, hdecl, body⟩ := function?_eq_some_iff.1 function
  obtain ⟨decl', hdecl', same⟩ := wf.declared get entry mem
  obtain rfl := Option.some.inj (hdecl.symm.trans hdecl')
  exact (wf.function_name decl (mem_entries_of_get? hdecl) f body).trans same

/-- A scope can be added under one that is there. -/
theorem WellFormed.pushScope (wf : d.WellFormed) {parent : Option ScopeId}
    (h : ∀ s ∈ parent, s.index < d.scopes.size) (kind : ScopeKind) :
    (d.pushScope parent kind).2.WellFormed := by
  refine ⟨ScopeTree.Nested.push wf.nested h kind, ?_, ?_, wf.function_name⟩
  · intro decl mem s owned
    have lt := wf.owned_lt decl mem s owned
    simp only [Declarations.pushScope, ScopeTree.push, ScopeTree.size, List.length_append,
      List.length_singleton] at lt ⊢
    omega
  · intro s data get e he
    exact wf.declared (ScopeTree.get?_of_mem_push get he) e he

/-- A declaration can be added if the scope that it owns is there. -/
theorem WellFormed.add (wf : d.WellFormed) (scope : Option ScopeId) (name : Name) (isMethod : Bool)
    {body : DeclBody} (owned : ∀ s, body.scope? = some s → s.index < d.scopes.size)
    (function : ∀ f, body = .function f → f.name = name) :
    (d.add scope name isMethod body).2.WellFormed := by
  -- first the new entry, which no scope lists yet; then the scope that lists it
  have appended : (d.append name body).WellFormed := by
    refine ⟨wf.nested, ?_, ?_, ?_⟩
    · intro decl mem s hs
      rcases List.mem_append.1 mem with old | new
      · exact wf.owned_lt decl old s hs
      · obtain rfl := List.mem_singleton.1 new
        exact owned s hs
    · intro s data get e he
      obtain ⟨decl, hdecl, same⟩ := wf.declared get e he
      exact ⟨decl, get?_append hdecl name body, same⟩
    · intro decl mem f hf
      rcases List.mem_append.1 mem with old | new
      · exact wf.function_name decl old f hf
      · obtain rfl := List.mem_singleton.1 new
        exact function f hf
  cases scope with
  | none => exact appended
  | some scope =>
    refine ⟨ScopeTree.Nested.declare appended.nested scope _, ?_, ?_, appended.function_name⟩
    · intro decl mem s hs
      have lt := appended.owned_lt decl mem s hs
      simpa [Declarations.add, declareIn, ScopeTree.declare, ScopeTree.size] using lt
    · intro s data get e he
      rcases ScopeTree.mem_entries_declare get he with ⟨old, hold, listed⟩ | rfl
      · exact appended.declared hold e listed
      -- the scope lists the new entry under the name it was declared with
      · exact ⟨_, get?_append_nextId name body, rfl⟩

theorem mem_modify {l : List Declaration} {index : Nat} {g : Declaration → Declaration}
    {decl : Declaration} (mem : decl ∈ l.modify index g) : ∃ old ∈ l, decl = old ∨ decl = g old := by
  obtain ⟨i, hi⟩ := List.mem_iff_getElem?.1 mem
  rw [List.getElem?_modify] at hi
  obtain ⟨old, hold, rfl⟩ := Option.map_eq_some_iff.1 hi
  refine ⟨old, List.mem_of_getElem? hold, ?_⟩
  split
  · exact .inr rfl
  · exact .inl rfl

/-- Declarations may be replaced by ones of the same name that own the same scope, mention the same
types and declare the same function. -/
theorem WellFormed.modify (wf : d.WellFormed) (index : Nat) {g : Declaration → Declaration}
    (name : ∀ decl, (g decl).name = decl.name)
    (scope : ∀ decl, (g decl).body.scope? = decl.body.scope?)
    (function : ∀ decl f, (g decl).body = .function f → decl.body = .function f) :
    ({ d with entries := d.entries.modify index g } : Declarations).WellFormed := by
  refine ⟨wf.nested, ?_, ?_, ?_⟩
  · intro decl mem s hs
    obtain ⟨old, hold, rfl | rfl⟩ := mem_modify mem
    · exact wf.owned_lt decl hold s hs
    · exact wf.owned_lt old hold s (scope old ▸ hs)
  · intro s data get e he
    obtain ⟨decl, hdecl, same⟩ := wf.declared get e he
    cases id : e.decl with
    | absent =>
      rw [id] at hdecl
      exact nomatch hdecl
    | «at» i =>
      rw [id] at hdecl
      have stored : d.entries[i]? = some decl := hdecl
      simp only [get?, List.getElem?_modify, stored]
      split
      · exact ⟨_, rfl, (name decl).trans same⟩
      · exact ⟨_, rfl, same⟩
  · intro decl mem f hf
    obtain ⟨old, hold, rfl | rfl⟩ := mem_modify mem
    · exact wf.function_name decl hold f hf
    · exact (wf.function_name old hold f (function old f hf)).trans (name old).symm

theorem AdmittedBy.grows (admitted : d.AdmittedBy pool) (wf : pool.table.WellFormed)
    (wf' : pool'.table.WellFormed) (ext : pool.Extends pool') : d.AdmittedBy pool' :=
  fun decl mem ty hty => ext.admits wf wf' (admitted decl mem ty hty)

theorem AdmittedBy.add (admitted : d.AdmittedBy pool) (scope : Option ScopeId) (name : Name)
    (isMethod : Bool) {body : DeclBody} (h : ∀ ty ∈ body.types, pool.Admits ty) :
    (d.add scope name isMethod body).2.AdmittedBy pool := by
  have appended : (d.append name body).AdmittedBy pool := by
    intro decl mem ty hty
    rcases List.mem_append.1 mem with old | new
    · exact admitted decl old ty hty
    · obtain rfl := List.mem_singleton.1 new
      exact h ty hty
  cases scope with
  | none => exact appended
  | some scope => exact appended

theorem AdmittedBy.modify (admitted : d.AdmittedBy pool) (index : Nat)
    {g : Declaration → Declaration} (types : ∀ decl, (g decl).body.types = decl.body.types) :
    ({ d with entries := d.entries.modify index g } : Declarations).AdmittedBy pool := by
  intro decl mem ty hty
  obtain ⟨old, hold, rfl | rfl⟩ := mem_modify mem
  · exact admitted decl hold ty hty
  · exact admitted old hold ty (types old ▸ hty)

/-! ## Declaring -/

/-- The invariant of declarations over a pool. -/
structure Fit (d : Declarations) (pool : TypePool) : Prop where
  wellFormed : d.WellFormed
  admitted : d.AdmittedBy pool

namespace Fit

/-- The pool may grow under the declarations. -/
theorem grows {pool' : TypePool} (fit : d.Fit pool) (table : pool.table.WellFormed)
    (table' : pool'.table.WellFormed) (ext : pool.Extends pool') : d.Fit pool' :=
  ⟨fit.wellFormed, fit.admitted.grows table table' ext⟩

theorem add (fit : d.Fit pool) (scope : Option ScopeId) (name : Name) (isMethod : Bool)
    {body : DeclBody} (owned : ∀ s, body.scope? = some s → s.index < d.scopes.size)
    (function : ∀ f, body = .function f → f.name = name)
    (types : ∀ ty ∈ body.types, pool.Admits ty) :
    (d.add scope name isMethod body).2.Fit pool :=
  ⟨fit.wellFormed.add scope name isMethod owned function,
    fit.admitted.add scope name isMethod types⟩

theorem pushScope (fit : d.Fit pool) {parent : Option ScopeId}
    (h : ∀ s ∈ parent, s.index < d.scopes.size) (kind : ScopeKind) :
    (d.pushScope parent kind).2.Fit pool :=
  ⟨fit.wellFormed.pushScope h kind, fit.admitted⟩

theorem pushScope_lt (d : Declarations) (parent : Option ScopeId) (kind : ScopeKind) :
    (d.pushScope parent kind).1.index < (d.pushScope parent kind).2.scopes.size := by
  simp [Declarations.pushScope, ScopeTree.push, ScopeTree.size]

theorem addModule (fit : d.Fit pool) (name : Name) (parent : Option DeclId) :
    (d.addModule name parent).2.Fit pool := by
  -- the scope is pushed before the module is declared, so what the module owns is there
  have outer : ∀ s ∈ parent.bind d.scope?, s.index < d.scopes.size := by
    intro s hs
    obtain ⟨_, _, h⟩ := Option.bind_eq_some_iff.1 hs
    exact fit.wellFormed.scope?_lt h
  refine (fit.pushScope outer .module).add _ name false (fun s hs => ?_) (fun _ => (nomatch ·))
    fun _ => (nomatch ·)
  exact Option.some.inj hs ▸ pushScope_lt d _ _

theorem addComposite (fit : d.Fit pool) (module : DeclId) (name : Name) (kind : CompositeKind) :
    (d.addComposite module name kind).2.Fit pool := by
  have outer : ∀ s ∈ d.scope? module, s.index < d.scopes.size :=
    fun _ hs => fit.wellFormed.scope?_lt hs
  refine (fit.pushScope outer .composite).add _ name false (fun s hs => ?_)
    (fun _ => (nomatch ·)) fun _ => (nomatch ·)
  exact Option.some.inj hs ▸ pushScope_lt d _ _

theorem addEnum (fit : d.Fit pool) (module : DeclId) (name : Name) :
    (d.addEnum module name).2.Fit pool :=
  fit.add _ name false (fun _ => (nomatch ·)) (fun _ => (nomatch ·)) fun _ => (nomatch ·)

theorem addField (fit : d.Fit pool) {owner id : DeclId} {name : Name} {field : FieldDecl}
    {d' : Declarations} (types : ∀ ty ∈ (DeclBody.field field).types, pool.Admits ty)
    (eq : d.addField owner name field = some (id, d')) : d'.Fit pool := by
  obtain ⟨scope, -, eq⟩ := Option.map_eq_some_iff.1 eq
  have added : (d.add (some scope) name false (.field field)).2.Fit pool :=
    fit.add _ name false (fun _ => (nomatch ·)) (fun _ => (nomatch ·)) types
  cases owner with
  | absent =>
    obtain rfl := congrArg (·.2) eq
    exact added
  | «at» index =>
    obtain rfl := congrArg (·.2) eq
    -- the owner lists the field as well, and nothing else about the owner is changed
    exact ⟨added.wellFormed.modify index (fun _ => rfl) (fun decl => decl.body.scope?_addField _)
        fun _ _ h => DeclBody.eq_function_of_addField h,
      added.admitted.modify index fun decl => decl.body.types_addField _⟩

theorem addFunction (fit : d.Fit pool) {owner id : DeclId} {f : FunctionDecl} {d' : Declarations}
    (types : ∀ ty ∈ (DeclBody.function f).types, pool.Admits ty)
    (eq : d.addFunction owner f = some (id, d')) : d'.Fit pool := by
  obtain ⟨scope, -, eq⟩ := Option.map_eq_some_iff.1 eq
  obtain rfl := congrArg (·.2) eq
  refine fit.add _ f.name f.isMethod (fun _ => (nomatch ·)) (fun g h => ?_) types
  rw [DeclBody.function.inj h]

theorem setSpan (fit : d.Fit pool) (id : DeclId) (span : Span) : (d.setSpan id span).Fit pool := by
  cases id with
  | absent => exact fit
  | «at» index =>
    exact ⟨fit.wellFormed.modify index (fun _ => rfl) (fun _ => rfl) fun _ _ h => h,
      fit.admitted.modify index fun _ => rfl⟩

end Fit

/-- The edits of declarations that a call of a builder makes, given the types that the call
mentions. -/
inductive Edit (d : Declarations) (types : List TypeId) : Declarations → Prop
  | none : Edit d types d
  | module (name : Name) (parent : Option DeclId) : Edit d types (d.addModule name parent).2
  | composite (module : DeclId) (name : Name) (kind : CompositeKind) :
      Edit d types (d.addComposite module name kind).2
  | enum (module : DeclId) (name : Name) : Edit d types (d.addEnum module name).2
  | field {owner id : DeclId} {name : Name} {field : FieldDecl} {d' : Declarations} :
      (DeclBody.field field).types ⊆ types → d.addField owner name field = some (id, d') →
        Edit d types d'
  | function {owner id : DeclId} {f : FunctionDecl} {d' : Declarations} :
      (DeclBody.function f).types ⊆ types → d.addFunction owner f = some (id, d') →
        Edit d types d'
  | span (id : DeclId) (span : Span) : Edit d types (d.setSpan id span)

end Declarations

/-! ## Programs -/

/-- A call of one of the builders. -/
inductive BuilderCall where
  | module (name : String) (parent : Option DeclId)
  | composite (owner : DeclId) (name : String) (kind : CompositeKind) (parent : Option TypeId)
  | enumeration (owner : DeclId) (name : String) (constants : List (String × Option Int))
  | field (owner : TypeId) (name : String) (field : FieldDecl)
  | function (owner : DeclId) (function : FunctionDecl)
  /-- Secondary methods, operators and procedures, in the scope of a declaration. -/
  | named (owner : DeclId) (name : String) (kind : CallableKind) (isMethod : Bool)
      (formals : List FormalDecl)
  | method (owner : TypeId) (name : String) (kind : CallableKind) (receiver : Qualified)
      (rest : List FormalDecl)
  | span (id : DeclId) (range : Span)
  | instantiate (generic : TypeId) (substitutions : List (String × TypeId))
  | type (call : TypeCall)

namespace BuilderCall

/-- The types that a call mentions. -/
def types : BuilderCall → List TypeId
  | .module _ _ | .enumeration _ _ _ | .span _ _ => []
  | .composite _ _ _ parent => parent.toList
  | .field _ _ f => (DeclBody.field f).types
  | .function _ f => (DeclBody.function f).types
  | .named _ _ _ _ formals => formals.map (·.type.type)
  | .method _ _ _ receiver rest => (Program.methodFormals receiver rest).map (·.type.type)
  | .instantiate _ substitutions => substitutions.map (·.2)
  | .type call => call.arguments

/-- The program after a call. -/
def run (p : Program) : BuilderCall → Except Fault Program
  | .module name parent => return (p.addModule name parent).2
  | .composite owner name kind parent => return (p.addComposite owner name kind parent).2
  | .enumeration owner name constants => return (p.addEnum owner name constants).2
  | .field owner name f => return ((← p.addField owner name f).map (·.2)).getD p
  | .function owner f => return (p.addFunction owner f).2
  | .named owner name kind isMethod formals => return (p.addNamed owner name kind isMethod formals).2
  | .method owner name kind receiver rest => return (← p.addMethod owner name kind receiver rest).2
  | .span id range => return p.setSpan id range
  | .instantiate generic substitutions => return (p.instantiate generic substitutions).2
  | .type call => return ((← call.run p.types).map fun made => { p with types := made.2 }).getD p

end BuilderCall

namespace Program

/-- The programs that calls of builders lead to. Each call mentions types that the program has at that
time, or the unknown type. -/
inductive Built : Program → Prop
  | empty (names : NameTable) (shards : Sharding) : Built (.empty names shards)
  | step {p p' : Program} {call : BuilderCall} :
      Built p → (∀ ty ∈ call.types, p.types.Admits ty) → call.run p = .ok p' → Built p'

/-- The invariant of programs. -/
structure WellFormed (p : Program) : Prop where
  types : p.types.Sound
  decls : p.decls.Fit p.types

variable {p p' : Program} {call : BuilderCall}

theorem internNames_types (p : Program) (l : List String) : (p.internNames l).2.types = p.types := by
  induction l generalizing p with
  | nil => rfl
  | cons s l ih => exact ih (p.internName s).2

/-- To add an enumeration makes its type, after its names are interned. -/
theorem addEnum_types (p : Program) (owner : DeclId) (name : String)
    (constants : List (String × Option Int)) : ∃ decl name' constants',
      (p.addEnum owner name constants).2.types =
        (p.types.enumeration decl name' constants').2 := by
  have same := (p.internName name).2.internNames_types (constants.map (·.1))
  exact ⟨_, _, _, congrArg (fun types : TypePool => (types.enumeration _ _ _).2) same⟩

/-- If a field is added then to the declaration of the composite that owns it. -/
theorem addField_cases {owner : TypeId} {name : String} {f : FieldDecl}
    {made : Option (DeclId × Program)} (eq : p.addField owner name f = .ok made) :
    made = none ∨ ∃ (comp : Composite) (id : DeclId) (decls : Declarations),
      p.decls.addField comp.decl (p.internName name).1 f = some (id, decls) ∧
        made = some (id, { (p.internName name).2 with decls }) := by
  obtain ⟨comp, -, eq⟩ := bind_eq_ok.1 eq
  cases comp with
  | none =>
    obtain rfl := Except.ok.inj eq
    exact .inl rfl
  | some comp =>
    dsimp only at eq
    split at eq
    · obtain rfl := Except.ok.inj eq
      exact .inl rfl
    · obtain rfl := Except.ok.inj eq
      cases added : p.decls.addField comp.decl (p.internName name).1 f with
      | none => exact .inl (congrArg (Option.map _) added)
      | some made => exact .inr ⟨comp, made.1, made.2, added, congrArg (Option.map _) added⟩

/-- If a method is added then as a function of the composite that owns it. -/
theorem addMethod_cases {owner : TypeId} {name : String} {kind : CallableKind}
    {receiver : Qualified} {rest : List FormalDecl} {made : Option DeclId × Program}
    (eq : p.addMethod owner name kind receiver rest = .ok made) :
    made = (none, p) ∨ ∃ comp : Composite,
      made = p.addNamed comp.decl name kind true (methodFormals receiver rest) := by
  obtain ⟨comp, -, eq⟩ := bind_eq_ok.1 eq
  cases comp with
  | none => exact .inl (Except.ok.inj eq).symm
  | some comp => exact .inr ⟨comp, (Except.ok.inj eq).symm⟩

/-- An instantiation interns names, and then at most one type. -/
theorem instantiate_cases (p : Program) (generic : TypeId) (substitutions : List (String × TypeId)) :
    (p.instantiate generic substitutions).2 = (p.internNames (substitutions.map (·.1))).2 ∨
      ∃ (names : List Name) (ty : TypeId) (types : TypePool),
        p.types.instantiate generic (names.zip (substitutions.map (·.2))) = .ok (some (ty, types)) ∧
          (p.instantiate generic substitutions).2 =
            { (p.internNames (substitutions.map (·.1))).2 with types } := by
  have same := p.internNames_types (substitutions.map (·.1))
  unfold instantiate
  dsimp only
  split
  · exact .inl rfl
  · exact .inl rfl
  · rename_i made
    rw [same] at made
    exact .inr ⟨_, _, _, made, rfl⟩

theorem internNames_decls (p : Program) (l : List String) : (p.internNames l).2.decls = p.decls := by
  induction l generalizing p with
  | nil => rfl
  | cons s l ih => exact ih (p.internName s).2

theorem addFunction_types (p : Program) (owner : DeclId) (f : FunctionDecl) :
    (p.addFunction owner f).2.types = p.types := by
  unfold addFunction
  cases p.decls.addFunction owner f with
  | none => rfl
  | some made => rfl

/-- A builder leaves the pool as it is, makes a composite that instantiates nothing, or makes a type as
a single call on the pool does. -/
theorem run_types (admitted : ∀ ty ∈ call.types, p.types.Admits ty) (eq : call.run p = .ok p') :
    p'.types = p.types ∨
      (∃ kind decl name parent, (∀ ty ∈ parent, p.types.Admits ty) ∧
        p'.types = (p.types.plainComposite kind decl name parent).2) ∨
      ∃ (made : TypeCall) (ty : TypeId), (∀ arg ∈ made.arguments, p.types.Admits arg) ∧
        made.run p.types = .ok (some (ty, p'.types)) := by
  cases call with
  | module name parent =>
    obtain rfl := Except.ok.inj eq
    exact .inl rfl
  | composite owner name kind parent =>
    obtain rfl := Except.ok.inj eq
    exact .inr (.inl ⟨kind, _, _, parent, fun ty h => admitted ty (Option.mem_toList.2 h), rfl⟩)
  | enumeration owner name constants =>
    obtain rfl := Except.ok.inj eq
    obtain ⟨decl, name', constants', types⟩ := p.addEnum_types owner name constants
    refine .inr (.inr ⟨.enumeration decl name' constants',
      (p.types.enumeration decl name' constants').1, fun _ mem => (nomatch mem), ?_⟩)
    rw [types]
    rfl
  | field owner name f =>
    obtain ⟨made, hmade, eq⟩ := bind_eq_ok.1 eq
    obtain rfl := Except.ok.inj eq
    obtain rfl | ⟨_, _, _, -, rfl⟩ := addField_cases hmade
    · exact .inl rfl
    · exact .inl rfl
  | function owner f =>
    obtain rfl := Except.ok.inj eq
    exact .inl (p.addFunction_types owner f)
  | named owner name kind isMethod formals =>
    obtain rfl := Except.ok.inj eq
    exact .inl (addFunction_types _ owner _)
  | method owner name kind receiver rest =>
    obtain ⟨made, hmade, eq⟩ := bind_eq_ok.1 eq
    obtain rfl := Except.ok.inj eq
    obtain rfl | ⟨comp, rfl⟩ := addMethod_cases hmade
    · exact .inl rfl
    · exact .inl (addFunction_types _ _ _)
  | span id range =>
    obtain rfl := Except.ok.inj eq
    exact .inl rfl
  | instantiate generic substitutions =>
    obtain rfl := Except.ok.inj eq
    obtain same | ⟨names, ty, types, made, same⟩ := p.instantiate_cases generic substitutions
    · exact .inl ((congrArg Program.types same).trans (p.internNames_types _))
    · have types' : (p.instantiate generic substitutions).2.types = types := congrArg (·.types) same
      rw [← types'] at made
      refine .inr (.inr ⟨.instantiate generic _, ty, ?_, made⟩)
      intro arg mem
      rcases List.mem_cons.1 mem with rfl | mem
      · -- only a stored type can be instantiated
        obtain ⟨base, hbase, -⟩ := bind_eq_ok.1 made
        obtain ⟨data, hdata, -⟩ := bind_eq_ok.1 hbase
        exact TypePool.admits_of_read? (TypePool.read_eq_ok_iff.1 hdata)
      · obtain ⟨s, hs, rfl⟩ := List.mem_map.1 mem
        exact admitted s.2 (List.of_mem_zip hs).2
  | type call =>
    obtain ⟨made, hmade, eq⟩ := bind_eq_ok.1 eq
    obtain rfl := Except.ok.inj eq
    cases made with
    | none => exact .inl rfl
    | some made => exact .inr (.inr ⟨call, made.1, admitted, hmade⟩)

theorem edit_addFunction (p : Program) (owner : DeclId) {f : FunctionDecl} {types : List TypeId}
    (mentioned : (DeclBody.function f).types ⊆ types) :
    p.decls.Edit types (p.addFunction owner f).2.decls := by
  unfold addFunction
  cases h : p.decls.addFunction owner f with
  | none => exact .none
  | some made => exact .function mentioned h

/-- A call of a builder edits the declarations at most once, and mentions what it declares. -/
theorem run_edit (eq : call.run p = .ok p') : p.decls.Edit call.types p'.decls := by
  cases call with
  | module name parent =>
    obtain rfl := Except.ok.inj eq
    exact .module _ parent
  | composite owner name kind parent =>
    obtain rfl := Except.ok.inj eq
    exact .composite owner _ kind
  | enumeration owner name constants =>
    obtain rfl := Except.ok.inj eq
    -- interning the names leaves the declarations
    have same := (p.internName name).2.internNames_decls (constants.map (·.1))
    have decls : (p.addEnum owner name constants).2.decls =
        (p.decls.addEnum owner (p.internName name).1).2 := by
      simp only [addEnum, same]
      rfl
    rw [decls]
    exact .enum owner _
  | field owner name f =>
    obtain ⟨made, hmade, eq⟩ := bind_eq_ok.1 eq
    obtain rfl := Except.ok.inj eq
    obtain rfl | ⟨comp, id, decls, added, rfl⟩ := addField_cases hmade
    · exact .none
    · exact .field (List.Subset.refl _) added
  | function owner f =>
    obtain rfl := Except.ok.inj eq
    exact edit_addFunction p owner (List.Subset.refl _)
  | named owner name kind isMethod formals =>
    obtain rfl := Except.ok.inj eq
    exact edit_addFunction (p.internName name).2 owner (List.Subset.refl _)
  | method owner name kind receiver rest =>
    obtain ⟨made, hmade, eq⟩ := bind_eq_ok.1 eq
    obtain rfl := Except.ok.inj eq
    obtain rfl | ⟨comp, rfl⟩ := addMethod_cases hmade
    · exact .none
    · exact edit_addFunction (p.internName name).2 comp.decl (List.Subset.refl _)
  | span id range =>
    obtain rfl := Except.ok.inj eq
    exact .span id range
  | instantiate generic substitutions =>
    obtain rfl := Except.ok.inj eq
    have same : (p.instantiate generic substitutions).2.decls = p.decls := by
      have names := p.internNames_decls (substitutions.map (·.1))
      obtain eq | ⟨_, _, _, -, eq⟩ := p.instantiate_cases generic substitutions <;> rw [eq]
      · exact names
      · exact names
    rw [same]
    exact .none
  | type call =>
    obtain ⟨made, hmade, eq⟩ := bind_eq_ok.1 eq
    obtain rfl := Except.ok.inj eq
    cases made with
    | none => exact .none
    | some made => exact .none

/-- Declarations that fit the pool after a call fit it with what the call declares. -/
theorem run_decls (fit : p.decls.Fit p'.types)
    (admitted : ∀ ty ∈ call.types, p'.types.Admits ty) (eq : call.run p = .ok p') :
    p'.decls.Fit p'.types := by
  have edit := run_edit eq
  generalize p'.decls = after at edit ⊢
  cases edit with
  | none => exact fit
  | module name parent => exact fit.addModule name parent
  | composite module name kind => exact fit.addComposite module name kind
  | enum module name => exact fit.addEnum module name
  | field mentioned added => exact fit.addField (fun ty mem => admitted ty (mentioned mem)) added
  | function mentioned added =>
    exact fit.addFunction (fun ty mem => admitted ty (mentioned mem)) added
  | span id range => exact fit.setSpan id range

theorem wellFormed_empty (names : NameTable) (shards : Sharding) :
    (Program.empty names shards).WellFormed where
  types := .empty _
  decls := ⟨Declarations.wellFormed_empty, fun _ h => nomatch h⟩

/-- One call keeps a program well formed. -/
theorem WellFormed.run (wf : p.WellFormed) (admitted : ∀ ty ∈ call.types, p.types.Admits ty)
    (eq : call.run p = .ok p') : p'.WellFormed := by
  have ⟨types, ext⟩ : p'.types.Sound ∧ p.types.Extends p'.types := by
    rcases run_types admitted eq with same | ⟨kind, decl, name, parent, has, same⟩ |
      ⟨made, ty, has, run⟩
    · rw [same]
      exact ⟨wf.types, .refl _⟩
    · rw [same]
      exact ⟨wf.types.composite kind decl name has, TypePool.extends_intern _ _⟩
    · exact ⟨wf.types.call has run, TypePool.extends_call run⟩
  have table := wf.types.wellFormed.table
  have table' := types.wellFormed.table
  have later := fun ty mem => ext.admits table table' (admitted ty mem)
  exact ⟨types, run_decls (wf.decls.grows table table' ext) later eq⟩

theorem Built.wellFormed (built : p.Built) : p.WellFormed := by
  -- over the calls: each keeps the invariant
  induction built with
  | empty names shards => exact wellFormed_empty names shards
  | step _ admitted eq ih => exact ih.run admitted eq

/-- The program after calls of builders, if each has an answer and mentions types that the program has
at that time. -/
def build? (p : Program) : List BuilderCall → Option Program
  | [] => some p
  | call :: calls =>
    match call.run p with
    | .ok p' => if call.types.all fun ty => (p.types.read? ty).isSome then p'.build? calls else none
    | .error _ => none

theorem Built.of_build? {calls : List BuilderCall} (built : p.Built)
    (h : p.build? calls = some p') : p'.Built := by
  induction calls generalizing p with
  | nil =>
    obtain rfl := Option.some.inj h
    exact built
  | cons call calls ih =>
    unfold build? at h
    split at h
    · rename_i made hmade
      split at h
      -- the test made with each call is the condition of the step
      · rename_i has
        refine ih (.step built (fun ty mem => ?_) hmade) h
        exact .inr (Option.isSome_iff_exists.1 (List.all_eq_true.1 has ty mem))
      · exact nomatch h
    · exact nomatch h

/-- The program that nothing is declared in, over new tables. -/
def blank (shards : Sharding) : Program := .empty (.empty shards.names) shards

/-- The program that calls of builders make from nothing; nothing is made if one of them fails. -/
def ofCalls (shards : Sharding) (calls : List BuilderCall) : Program :=
  ((blank shards).build? calls).getD (blank shards)

theorem built_ofCalls (shards : Sharding) (calls : List BuilderCall) :
    (ofCalls shards calls).Built := by
  have start : (blank shards).Built := .empty _ shards
  unfold ofCalls
  cases h : (blank shards).build? calls with
  | none => exact start
  | some p => exact .of_build? start h

end Program

end MethodSynthesis
