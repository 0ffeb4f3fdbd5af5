import MethodSynthesis.Proofs.FieldAdditions
import MethodSynthesis.Proofs.ReceiverNeeds
import MethodSynthesis.Proofs.ScopeWalks

/-!
# What it does to add a function

The five ways to add a function to a program come to one: a declaration is appended, and one scope lists
it (`Program.AddsFunction`, `AddsFunction.decls_eq`). `Program.addFunction_frame` says what becomes of the
answers. Nothing changes in what was declared before, in the fields of types, in how open types are and
which have values by default. A method that is needed afterwards was needed before. And one that was needed
before is needed afterwards, unless the function may shadow it: it has the name, is a method or an operator
with a formal, and was added where the type of the method looks.

A lookup over the new scopes visits the scopes that it visited before (`ScopeTree.Walk.declare`), so it finds
what it found before and perhaps the new declaration (`ScopeTree.Walk.lookup_declare`). The overloads that
were there are judged as before, and the new one covers nothing unless it has a receiver.
-/

set_option autoImplicit false

namespace MethodSynthesis

/-! ## Searches -/

/-- A search does not come upon what is found not to meet the condition. -/
theorem anyM_filter {ε α : Type} {f : α → Except ε Bool} {p : α → Bool} {l : List α}
    (h : ∀ a ∈ l, p a = false → f a = .ok false) : (l.filter p).anyM f = l.anyM f := by
  induction l with
  | nil => rfl
  | cons a l ih =>
    have rest := ih fun b mem => h b (List.mem_cons_of_mem a mem)
    cases kept : p a with
    | true => rw [List.filter_cons_of_pos kept, List.anyM_cons, List.anyM_cons, rest]
    | false =>
      rw [List.filter_cons_of_neg (Bool.eq_false_iff.1 kept), List.anyM_cons, h a List.mem_cons_self kept,
        rest]
      rfl

theorem anyM_eq_ok_false {ε α : Type} {f : α → Except ε Bool} {l : List α}
    (h : ∀ a ∈ l, f a = .ok false) : l.anyM f = .ok false := by
  induction l with
  | nil => rfl
  | cons a l ih =>
    rw [List.anyM_cons, h a List.mem_cons_self]
    exact ih fun b mem => h b (List.mem_cons_of_mem a mem)

/-! ## Lookups -/

namespace ScopeData

variable {data : ScopeData} {entry : ScopeEntry} {name : Name} {config : LookupConfig}

theorem filter_declared_of_unlisted {id : DeclId} (unlisted : ∀ e ∈ data.entries, e.decl ≠ id) :
    (data.declared name config).filter (fun shown => decide (shown ≠ id)) = data.declared name config := by
  refine List.filter_eq_self.2 fun shown mem => ?_
  obtain ⟨e, listed, rfl⟩ := List.mem_map.1 mem
  exact decide_eq_true (unlisted e (List.mem_filter.1 listed).1)

/-- A scope that lists one more declaration shows what it showed, and perhaps that one. -/
theorem filter_declared (unlisted : ∀ e ∈ data.entries, e.decl ≠ entry.decl) :
    (({ data with entries := data.entries ++ [entry] } : ScopeData).declared name config).filter
      (fun id => decide (id ≠ entry.decl)) = data.declared name config := by
  have split : ({ data with entries := data.entries ++ [entry] } : ScopeData).declared name config =
      data.declared name config ++
        ([entry].filter fun e => decide (e.name = name) && config.admits e).map (·.decl) := by
    rw [declared, declared, List.filter_append, List.map_append]
  have new : (([entry].filter fun e => decide (e.name = name) && config.admits e).map (·.decl)).filter
      (fun id => decide (id ≠ entry.decl)) = [] := by
    refine List.filter_eq_nil_iff.2 fun id mem => ?_
    obtain ⟨e, shown, rfl⟩ := List.mem_map.1 mem
    obtain rfl := List.mem_singleton.1 (List.mem_filter.1 shown).1
    simp
  rw [split, List.filter_append, filter_declared_of_unlisted unlisted, new, List.append_nil]

end ScopeData

namespace ScopeTree

variable {t : ScopeTree} {config : LookupConfig} {scope s : ScopeId} {visited : List ScopeId}
  {entry : ScopeEntry} {name : Name}

/-- To declare a name leaves the way of a lookup as it is. -/
theorem Walk.declare (walk : t.Walk config scope visited) (s : ScopeId) (entry : ScopeEntry) :
    (t.declare s entry).Walk config scope visited := by
  have next : ∀ {q data}, t.get? q = some data → ∃ data', (t.declare s entry).get? q = some data' ∧
      data'.next? config = data.next? config := by
    intro q data get
    refine ⟨_, (get?_declare t s entry q).trans (congrArg _ get), ?_⟩
    split <;> rfl
  induction walk with
  | absent none =>
    refine .absent ?_
    rw [get?_declare, none]
    rfl
  | last get none =>
    obtain ⟨data', get', same⟩ := next get
    exact .last get' (same.trans none)
  | step get further _ ih =>
    obtain ⟨data', get', same⟩ := next get
    exact .step get' (same.trans further) ih

/-- A lookup that ends finds, after a name was declared, what it found before and perhaps the new
declaration, if it visits the scope that lists it and asks for its name. -/
theorem Walk.lookup_declare (walk : t.Walk config scope visited) (unlisted : entry.decl ∉ t.listed)
    (s : ScopeId) (name : Name) :
    ∃ found, (t.declare s entry).lookup scope name config = .ok found ∧
      t.lookup scope name config = .ok (found.filter fun id => decide (id ≠ entry.decl)) ∧
        (entry.decl ∈ found → s ∈ visited ∧ entry.name = name) := by
  refine ⟨_, (walk.declare s entry).lookup_eq name, ?_, ?_⟩
  · rw [walk.lookup_eq name]
    congr 1
    clear walk
    -- along the scopes that are visited
    induction visited with
    | nil => rfl
    | cons q visited ih =>
      cases get : t.get? q with
      | none =>
        have get' : (t.declare s entry).get? q = none := by rw [get?_declare, get]; rfl
        rw [List.filterMap_cons_none get, List.filterMap_cons_none get', ih]
      | some data =>
        have old : ∀ e ∈ data.entries, e.decl ≠ entry.decl := fun e mem same =>
          unlisted (mem_listed_iff.2 ⟨q, data, get, e, mem, same⟩)
        have get' := (get?_declare t s entry q).trans (congrArg _ get)
        rw [List.filterMap_cons_some get, List.filterMap_cons_some get', List.flatMap_cons,
          List.flatMap_cons, List.filter_append, ih]
        congr 1
        split
        · exact (ScopeData.filter_declared old).symm
        · exact (ScopeData.filter_declared_of_unlisted old).symm
  · intro mem
    obtain ⟨data', visits, shown⟩ := List.mem_flatMap.1 mem
    obtain ⟨q, hq, get⟩ := List.mem_filterMap.1 visits
    obtain ⟨e, he, eq⟩ := List.mem_map.1 shown
    obtain ⟨listed, asked⟩ := List.mem_filter.1 he
    rw [get?_declare] at get
    obtain ⟨data, hdata, rfl⟩ := Option.map_eq_some_iff.1 get
    have old : e ∉ data.entries := fun mem => unlisted (mem_listed_iff.2 ⟨q, data, hdata, e, mem, eq⟩)
    -- no scope listed the declaration before, so the one that does is the one that was extended
    split at listed
    · rename_i same
      obtain rfl := List.mem_singleton.1 ((List.mem_append.1 listed).resolve_left old)
      exact ⟨same ▸ hq, of_decide_eq_true (Bool.and_eq_true_iff.1 asked).1⟩
    · exact absurd listed old

end ScopeTree

/-! ## Declarations -/

namespace Declarations

variable {d d' : Declarations} {pool : TypePool} {ty : TypeId} {data : TypeData} {name : Name}
  {f : FunctionDecl} {s : ScopeId} {unvisited : List TypeId}

/-- A function is appended, and a scope lists it. -/
def withFunction (d : Declarations) (s : ScopeId) (f : FunctionDecl) : Declarations :=
  (d.add (some s) f.name f.isMethod (.function f)).2

theorem get?_withFunction (d : Declarations) (s : ScopeId) (f : FunctionDecl) (id : DeclId) :
    (d.withFunction s f).get? id =
      if id = d.nextId then some ⟨f.name, .dummy, .function f⟩ else d.get? id :=
  get?_append_eq d f.name (.function f) id

theorem body?_withFunction (d : Declarations) (s : ScopeId) (f : FunctionDecl) (id : DeclId) :
    (d.withFunction s f).body? id = if id = d.nextId then some (.function f) else d.body? id :=
  body?_append d f.name (.function f) id

theorem body?_nextId (d : Declarations) : d.body? d.nextId = none := by
  rw [body?, get?_nextId]
  rfl

/-- The function owns no scope. -/
theorem scope?_withFunction (d : Declarations) (s : ScopeId) (f : FunctionDecl) :
    (d.withFunction s f).scope? = d.scope? := by
  funext id
  rw [scope?, scope?, body?_withFunction]
  by_cases new : id = d.nextId
  · rw [if_pos new, new, body?_nextId]
    rfl
  · rw [if_neg new]

/-- It is no field, and has none. -/
theorem fieldsOf_withFunction (d : Declarations) (s : ScopeId) (f : FunctionDecl) :
    (d.withFunction s f).fieldsOf = d.fieldsOf := by
  have listed : ∀ id, (d.withFunction s f).fieldIds id = d.fieldIds id := by
    intro id
    rw [fieldIds_eq, fieldIds_eq, body?_withFunction]
    by_cases new : id = d.nextId
    · rw [if_pos new, new, body?_nextId]
      rfl
    · rw [if_neg new]
  have declared : ∀ id, (d.withFunction s f).field? id = d.field? id := by
    intro id
    unfold field?
    rw [get?_withFunction]
    by_cases new : id = d.nextId
    · rw [if_pos new, new, get?_nextId]
    · rw [if_neg new]
  funext owner
  rw [fieldsOf, fieldsOf, listed]
  exact List.filterMap_congr fun id _ => by rw [declared]

theorem function?_withFunction (d : Declarations) (s : ScopeId) (f : FunctionDecl) (id : DeclId) :
    (d.withFunction s f).function? id = if id = d.nextId then some f else d.function? id := by
  unfold function?
  rw [body?_withFunction]
  by_cases new : id = d.nextId
  · rw [if_pos new, if_pos new]
  · rw [if_neg new, if_neg new]

/-! ### What depends on the fields alone -/

theorem resolveFields_congr (same : d'.fieldsOf = d.fieldsOf) : d'.resolveFields = d.resolveFields := by
  funext c policy isGeneric
  rw [resolveFields, resolveFields, same]

theorem fieldsWith_congr (same : d'.fieldsOf = d.fieldsOf) : d'.fieldsWith pool = d.fieldsWith pool := by
  funext policy isGeneric ty
  rw [fieldsWith, fieldsWith, resolveFields_congr same]

theorem genericityWithin_congr (same : d'.fieldsOf = d.fieldsOf) :
    d'.genericityWithin pool unvisited = d.genericityWithin pool unvisited := by
  -- on the composites that may still be entered
  induction h : unvisited.length using Nat.strongRecOn generalizing unvisited with
  | _ n ih =>
  funext ty
  rw [genericityWithin, genericityWithin]
  congr 1
  funext ty data part
  cases data with
  | primitive p => cases p <;> rfl
  | composite c =>
    dsimp only
    by_cases mem : ty ∈ unvisited
    · have smaller : (unvisited.erase ty).length < n := h ▸ TypePool.length_erase_lt mem
      rw [dif_pos mem, dif_pos mem, ih _ smaller rfl, resolveFields_congr same]
    · rw [dif_neg mem, dif_neg mem]
  | _ => rfl

theorem fieldsWithin_congr (same : d'.fieldsOf = d.fieldsOf) :
    d'.fieldsWithin pool unvisited = d.fieldsWithin pool unvisited := by
  funext policy ty
  rw [fieldsWithin, fieldsWithin, genericityWithin_congr same, fieldsWith_congr same]

theorem defaultInitializableWithin_congr (same : d'.fieldsOf = d.fieldsOf) :
    d'.defaultInitializableWithin pool unvisited = d.defaultInitializableWithin pool unvisited := by
  induction h : unvisited.length using Nat.strongRecOn generalizing unvisited with
  | _ n ih =>
  funext ty
  rw [defaultInitializableWithin, defaultInitializableWithin]
  congr 1
  funext ty data part
  cases data with
  | primitive p => cases p <;> rfl
  | composite c =>
    dsimp only
    split
    · rfl
    by_cases mem : ty ∈ unvisited
    · have smaller : (unvisited.erase ty).length < n := h ▸ TypePool.length_erase_lt mem
      rw [dif_pos mem, dif_pos mem, ih _ smaller rfl, fieldsWithin_congr same]
    · rw [dif_neg mem, dif_neg mem]
  | _ => rfl

/-! ### Shadowing -/

/-- The scope is the one that the declaration of a type owns, or lies around that one, up to the innermost
module. -/
def SeesScope (d : Declarations) (pool : TypePool) (ty : TypeId) (s : ScopeId) : Prop :=
  ∃ c owned, pool.HasComposite ty c ∧ d.scope? c.decl = some owned ∧
    Relation.ReflTransGen d.scopes.LiesIn owned s

/-- What was declared before covers what it covered before. -/
theorem covers_withFunction {id : DeclId} (old : id ≠ d.nextId) :
    (d.withFunction s f).host.covers pool ty id = d.host.covers pool ty id := by
  have same : (d.withFunction s f).function? id = d.function? id := by
    rw [function?_withFunction, if_neg old]
  unfold Host.covers
  simp only [host, receiver?, same]

/-- What is neither a method nor an operator, or has no formal, covers nothing. -/
theorem covers_nextId (noReceiver : ¬ ((f.isMethod = true ∨ f.kind = .operator) ∧ f.formals ≠ [])) :
    (d.withFunction s f).host.covers pool ty d.nextId = .ok false := by
  apply covers_eq_false
  rintro formal ⟨g, function, overload, hasReceiver⟩
  rw [function?_withFunction, if_pos rfl] at function
  obtain rfl := Option.some.inj function
  exact noReceiver ⟨overload, List.ne_nil_of_mem hasReceiver.mem⟩

/-- To ask whether a method is shadowed is to ask the same overloads as before, and the function if it has the
name and was added where the type looks. -/
theorem exists_asked (agree : d.ScopesAgree) (sound : pool.Sound) (stored : pool.read? ty = some data)
    (s : ScopeId) (f : FunctionDecl) (name : Name) : ∃ asked : List DeclId,
      (d.withFunction s f).host.isShadowed pool ty name =
          asked.anyM ((d.withFunction s f).host.covers pool ty) ∧
        d.host.isShadowed pool ty name =
          (asked.filter fun id => decide (id ≠ d.nextId)).anyM (d.host.covers pool ty) ∧
        (d.nextId ∈ asked → f.name = name ∧ d.SeesScope pool ty s) := by
  by_cases found : ∃ c, pool.HasComposite ty c
  case neg =>
    have plain := not_exists.1 found
    exact ⟨[], isShadowed_of_plain sound stored plain name, isShadowed_of_plain sound stored plain name,
      fun mem => absurd mem List.not_mem_nil⟩
  obtain ⟨c, composite⟩ := found
  have scope : (d.withFunction s f).scope? c.decl = d.scope? c.decl := by rw [scope?_withFunction]
  cases owns : d.scope? c.decl with
  | none =>
    exact ⟨[], isShadowed_of_unowned composite (scope.trans owns) name,
      isShadowed_of_unowned composite owns name, fun mem => absurd mem List.not_mem_nil⟩
  | some owned =>
    obtain ⟨visited, walk⟩ : ∃ visited, d.scopes.Walk .all owned visited :=
      ScopeTree.exists_walk_iff.2 (ScopeTree.Nested.not_circles agree.nested)
    obtain ⟨asked, later, before, new⟩ :=
      @ScopeTree.Walk.lookup_declare _ _ _ _ ⟨f.name, d.nextId, f.isMethod⟩ walk
        agree.nextId_not_listed s name
    refine ⟨asked, isShadowed_eq_anyM composite (scope.trans owns) later,
      isShadowed_eq_anyM composite owns before, fun mem => ?_⟩
    obtain ⟨hs, named⟩ := new mem
    have path := (walk.reflTransGen hs).lift id fun _ _ => follows_all_iff.1
    exact ⟨named, c, owned, composite, owns, path⟩

section Shadowing

variable (agree : d.ScopesAgree) (sound : pool.Sound) (stored : pool.read? ty = some data)

include agree sound stored

/-- What is not shadowed afterwards was not shadowed before. -/
theorem not_isShadowed_of_withFunction
    (free : (d.withFunction s f).host.isShadowed pool ty name = .ok false) :
    d.host.isShadowed pool ty name = .ok false := by
  obtain ⟨asked, later, before, -⟩ := exists_asked agree sound stored s f name
  rw [later] at free
  rw [before]
  refine anyM_eq_ok_false fun id mem => ?_
  obtain ⟨mem, old⟩ := List.mem_filter.1 mem
  rw [← covers_withFunction (of_decide_eq_true old)]
  exact eq_ok_false_of_anyM free id mem

/-- A function changes nothing about what is shadowed, unless it has the name and a receiver and was added
where the type looks. -/
theorem isShadowed_withFunction (other : ¬ (f.name = name ∧ (f.isMethod = true ∨ f.kind = .operator) ∧
      f.formals ≠ [] ∧ d.SeesScope pool ty s)) :
    (d.withFunction s f).host.isShadowed pool ty name = d.host.isShadowed pool ty name := by
  obtain ⟨asked, later, before, new⟩ := exists_asked agree sound stored s f name
  have same : ∀ id ∈ asked.filter fun id => decide (id ≠ d.nextId),
      d.host.covers pool ty id = (d.withFunction s f).host.covers pool ty id := fun id mem =>
    (covers_withFunction (of_decide_eq_true (List.mem_filter.1 mem).2)).symm
  rw [later, before, anyM_congr same]
  refine (anyM_filter fun id mem kept => ?_).symm
  obtain rfl : id = d.nextId := not_not.1 (of_decide_eq_false kept)
  obtain ⟨named, sees⟩ := new mem
  apply covers_nextId
  rintro ⟨overload, formals⟩
  exact other ⟨named, overload, formals, sees⟩

end Shadowing

end Declarations

/-- No method that a type has is a query that it answers. -/
theorem TypeKind.answers_of_provides {kind : TypeKind} {name : Name} {parenless : Bool}
    (provides : kind.provides name = true) : kind.answers name parenless = false := by
  rcases Bool.or_eq_true_iff.1 provides with lifecycle | operator
  · exact TypeKind.answers_lifecycle lifecycle
  · obtain rfl : kind = .record := of_decide_eq_true (Bool.and_eq_true_iff.1 operator).1
    rfl

/-! ## Programs -/

namespace Program

variable {p p' : Program} {owner id : DeclId} {f : FunctionDecl}

/-- The ways to add a function to the scope of a declaration, with the function that is added, its name and
the program that has it. -/
inductive AddsFunction (p : Program) : DeclId → FunctionDecl → DeclId → Program → Prop
  | function {owner id : DeclId} {f : FunctionDecl} {p' : Program} :
      p.addFunction owner f = (some id, p') → AddsFunction p owner f id p'
  | method {ty : TypeId} {c : Composite} {name : String} {kind : CallableKind} {receiver : Qualified}
      {rest : List FormalDecl} {id : DeclId} {p' : Program} :
      p.types.HasComposite ty c → p.addMethod ty name kind receiver rest = .ok (some id, p') →
        AddsFunction p c.decl
          ⟨(p.internName name).1, kind, true, methodFormals receiver rest⟩ id p'
  | secondaryMethod {module : DeclId} {name : String} {kind : CallableKind} {receiver : Qualified}
      {rest : List FormalDecl} {id : DeclId} {p' : Program} :
      p.addSecondaryMethod module name kind receiver rest = (some id, p') →
        AddsFunction p module
          ⟨(p.internName name).1, kind, true, methodFormals receiver rest⟩ id p'
  | operator {module : DeclId} {name : String} {formals : List FormalDecl} {id : DeclId} {p' : Program} :
      p.addOperator module name formals = (some id, p') →
        AddsFunction p module ⟨(p.internName name).1, .operator, false, formals⟩ id p'
  | procedure {module : DeclId} {name : String} {formals : List FormalDecl} {id : DeclId} {p' : Program} :
      p.addProcedure module name formals = (some id, p') →
        AddsFunction p module ⟨(p.internName name).1, .procedure, false, formals⟩ id p'

theorem addFunction_eq (eq : p.addFunction owner f = (some id, p')) :
    ∃ s, p.decls.scope? owner = some s ∧ id = p.decls.nextId ∧ p'.types = p.types ∧
      p'.decls = p.decls.withFunction s f := by
  unfold addFunction Declarations.addFunction at eq
  cases owns : p.decls.scope? owner with
  | none =>
    rw [owns] at eq
    cases (Prod.mk.inj eq).1
  | some s =>
    rw [owns] at eq
    obtain ⟨made, rfl⟩ := Prod.mk.inj eq
    exact ⟨s, rfl, (Option.some.inj made).symm, rfl, rfl⟩

/-- To intern the name of a function before it is added changes neither declarations nor types. -/
theorem addNamed_eq {name : String} {kind : CallableKind} {isMethod : Bool} {formals : List FormalDecl}
    (eq : p.addNamed owner name kind isMethod formals = (some id, p')) :
    ∃ s, p.decls.scope? owner = some s ∧ id = p.decls.nextId ∧ p'.types = p.types ∧
      p'.decls = p.decls.withFunction s ⟨(p.internName name).1, kind, isMethod, formals⟩ := by
  have added : (p.internName name).2.addFunction owner ⟨(p.internName name).1, kind, isMethod, formals⟩ =
      (some id, p') := eq
  obtain ⟨s, owns, new, types, decls⟩ := addFunction_eq added
  exact ⟨s, owns, new, types, decls⟩

/-- However a function is added, a declaration is appended and the scope of the owner lists it. -/
theorem AddsFunction.decls_eq (adds : p.AddsFunction owner f id p') :
    ∃ s, p.decls.scope? owner = some s ∧ id = p.decls.nextId ∧ p'.types = p.types ∧
      p'.decls = p.decls.withFunction s f := by
  cases adds with
  | function eq => exact addFunction_eq eq
  | method hc eq =>
    rw [addMethod, hc.compositeOf?_eq_ok] at eq
    exact addNamed_eq (Except.ok.inj eq)
  | secondaryMethod eq => exact addNamed_eq eq
  | operator eq => exact addNamed_eq eq
  | procedure eq => exact addNamed_eq eq

/-- A type sees the scope of the declaration that a function is added to. -/
def Sees (p : Program) (ty : TypeId) (owner : DeclId) : Prop :=
  ∃ s, p.decls.scope? owner = some s ∧ p.decls.SeesScope p.types ty s

section Need

variable {pool : TypePool} {ty : TypeId} {data : TypeData} {name : Name} {parenless : Bool}
  {host host' : Host}

/-- What is needed is still needed where shadowing can only have been lost. -/
theorem needsMethod_of_not_isShadowed (stored : pool.read? ty = some data)
    (free : host'.isShadowed pool ty name = .ok false → host.isShadowed pool ty name = .ok false)
    (needed : host'.needsMethod pool ty name parenless = .ok true) :
    host.needsMethod pool ty name parenless = .ok true := by
  rw [host'.needsMethod_eq stored] at needed
  rw [host.needsMethod_eq stored]
  cases provides : data.kind.provides name with
  | false => simpa [provides] using needed
  | true =>
    -- a method that the type has is no query, so it is needed because it is not shadowed
    rw [if_pos provides, TypeKind.answers_of_provides provides] at needed
    obtain ⟨shadowed, answer, eq⟩ := bind_eq_ok.1 needed
    cases shadowed with
    | true => cases Except.ok.inj eq
    | false =>
      rw [if_pos rfl, free answer]
      rfl

theorem needsMethod_congr (stored : pool.read? ty = some data)
    (same : host'.isShadowed pool ty name = host.isShadowed pool ty name) :
    host'.needsMethod pool ty name parenless = host.needsMethod pool ty name parenless := by
  rw [host'.needsMethod_eq stored, host.needsMethod_eq stored, same]

theorem exists_needsMethod (stored : pool.read? ty = some data)
    (answer : ∃ shadowed, host.isShadowed pool ty name = .ok shadowed) :
    ∃ needed, host.needsMethod pool ty name parenless = .ok needed := by
  obtain ⟨shadowed, answer⟩ := answer
  rw [host.needsMethod_eq stored, answer]
  split
  · exact ⟨_, rfl⟩
  · exact ⟨_, rfl⟩

end Need

/-- Whether a method is shadowed can be told after a function is added whose formals are of stored types. -/
theorem MentionsKnown.exists_isShadowed (known : p.MentionsKnown) (wf : p.WellFormed)
    (formals : ∀ formal ∈ f.formals, ∃ data, p.types.read? formal.type.type = some data) {ty : TypeId}
    {data : TypeData} (stored : p.types.read? ty = some data) (s : ScopeId) (name : Name) :
    ∃ shadowed, (p.decls.withFunction s f).host.isShadowed p.types ty name = .ok shadowed := by
  have fit : (p.decls.withFunction s f).WellFormed := by
    refine wf.decls.wellFormed.add (some s) f.name f.isMethod ?_ ?_
    · intro s' owned
      cases owned
    · intro g same
      rw [DeclBody.function.inj same]
  have judged : ∀ id g, (p.decls.withFunction s f).function? id = some g →
      ∀ formal ∈ g.formals, ∃ data, p.types.read? formal.type.type = some data := by
    intro id g function
    rw [Declarations.function?_withFunction] at function
    split at function
    · obtain rfl := Option.some.inj function
      exact formals
    · exact fun formal => known.formals wf.decls.admitted function
  obtain ⟨shadowed, answer, -⟩ :=
    Declarations.isShadowed_spec fit wf.types known.parents judged stored name
  exact ⟨shadowed, answer⟩

/-- What adding a function does to the answers of a program without unknown types. A method that is needed
afterwards was needed before. Conversely, what was needed is still needed, unless the function has the name of
the method, is a method or an operator with a formal, and was added to the scope of the declaration of the
type or to one around it, up to the innermost module. If the types of its formals are stored there is an
answer in any case. The earlier declarations stay as they are, and so do the fields of types, how open types
are, and which types have values by default. -/
theorem addFunction_frame (built : p.Built) (known : p.MentionsKnown)
    (adds : p.AddsFunction owner f id p') :
    (∀ ty data, p.types.read? ty = some data → ∀ name parenless, ∃ needed,
      p.decls.host.needsMethod p.types ty name parenless = .ok needed ∧
        (p'.decls.host.needsMethod p'.types ty name parenless = .ok true → needed = true) ∧
        (¬ (f.name = name ∧ (f.isMethod = true ∨ f.kind = .operator) ∧ f.formals ≠ [] ∧ p.Sees ty owner) →
          p'.decls.host.needsMethod p'.types ty name parenless = .ok needed) ∧
        ((∀ formal ∈ f.formals, ∃ data, p.types.read? formal.type.type = some data) →
          ∃ needed', p'.decls.host.needsMethod p'.types ty name parenless = .ok needed')) ∧
    p.decls.get? id = none ∧
    (∀ x decl, p.decls.get? x = some decl → p'.decls.get? x = some decl) ∧
    p'.types = p.types ∧ p'.decls.fields p'.types = p.decls.fields p.types ∧
    p'.decls.genericity p'.types = p.decls.genericity p.types ∧
    p'.decls.isDefaultInitializable p'.types = p.decls.isDefaultInitializable p.types := by
  obtain ⟨s, owns, rfl, types, decls⟩ := adds.decls_eq
  have sound := built.wellFormed.types
  have agree := built.consistent.toScopesAgree
  have same := p.decls.fieldsOf_withFunction s f
  rw [types, decls]
  refine ⟨?_, p.decls.get?_nextId, ?_, rfl, ?_, ?_, ?_⟩
  · intro ty data stored name parenless
    obtain ⟨shadowed, hshadowed, -⟩ :=
      Declarations.isShadowed_spec built.wellFormed.decls.wellFormed sound known.parents
        (fun _ _ function _ => known.formals built.wellFormed.decls.admitted function) stored name
    obtain ⟨needed, answer⟩ :
        ∃ needed, p.decls.host.needsMethod p.types ty name parenless = .ok needed :=
      exists_needsMethod stored ⟨shadowed, hshadowed⟩
    refine ⟨needed, answer, fun later => ?_, fun other => ?_, fun formals => ?_⟩
    · have before := needsMethod_of_not_isShadowed stored
        (Declarations.not_isShadowed_of_withFunction agree sound stored) later
      exact Except.ok.inj (answer.symm.trans before)
    · rw [← answer]
      refine needsMethod_congr stored (Declarations.isShadowed_withFunction agree sound stored ?_)
      rintro ⟨named, overload, formals, sees⟩
      exact other ⟨named, overload, formals, s, owns, sees⟩
    · exact exists_needsMethod stored (known.exists_isShadowed built.wellFormed formals stored s name)
  · intro x decl stored
    rw [Declarations.get?_withFunction, if_neg, stored]
    rintro rfl
    cases stored.symm.trans p.decls.get?_nextId
  · funext policy ty
    rw [Declarations.fields, Declarations.fields, Declarations.fieldsWithin_congr same]
  · funext ty
    rw [Declarations.genericity, Declarations.genericity, Declarations.genericityWithin_congr same]
  · funext ty
    rw [Declarations.isDefaultInitializable, Declarations.isDefaultInitializable,
      Declarations.defaultInitializableWithin_congr same]

/-- A record in a module. -/
def plainRecord : Program := .ofCalls .bySize [.module "M" none, .composite (.at 0) "R" .record none]

/-- A procedure of the record that is called as its initializer is. -/
def initProcedure : FunctionDecl := ⟨.init, .procedure, false, [⟨.receiver, ⟨.ref, .known ⟨1, 0⟩⟩, false⟩]⟩

/-- The initializer of the record is needed after the procedure is added to the module, as it was before. -/
theorem plainRecord_needs_init :
    plainRecord.Built ∧ plainRecord.MentionsKnown ∧
      plainRecord.AddsFunction (.at 0) initProcedure (.at 2)
        (plainRecord.addFunction (.at 0) initProcedure).2 ∧
      plainRecord.decls.host.needsMethod plainRecord.types (.known ⟨1, 0⟩) .init false = .ok true ∧
      (plainRecord.addFunction (.at 0) initProcedure).2.decls.host.needsMethod
        (plainRecord.addFunction (.at 0) initProcedure).2.types (.known ⟨1, 0⟩) .init false = .ok true := by
  have built : plainRecord.Built := built_ofCalls _ _
  have known : plainRecord.MentionsKnown := by
    refine ⟨by decide +kernel, ?_⟩
    rw [TypePool.parentsKnown_iff built.wellFormed.types.wellFormed.table]
    decide +kernel
  have added : (plainRecord.addFunction (.at 0) initProcedure).1 = some (.at 2) := by decide +kernel
  have adds := AddsFunction.function (Prod.ext added rfl)
  have stored : plainRecord.types.read? (.known ⟨1, 0⟩) =
      some (.composite ⟨.record, .at 1, ⟨⟨2, 1⟩⟩, none, [], none⟩) := by decide +kernel
  have before : plainRecord.decls.host.needsMethod plainRecord.types (.known ⟨1, 0⟩) .init false =
      .ok true := by decide +kernel
  obtain ⟨answers, -⟩ := addFunction_frame built known adds
  obtain ⟨needed, answer, -, same, -⟩ := answers _ _ stored .init false
  obtain rfl := Except.ok.inj (before.symm.trans answer)
  refine ⟨built, known, adds, before, same ?_⟩
  -- a procedure is neither a method nor an operator
  rintro ⟨-, overload | overload, -⟩
  · cases overload
  · cases overload

/-- As a method in the body of the record it shadows the initializer. -/
example :
    (plainRecord.addFunction (.at 1) { initProcedure with isMethod := true }).2.decls.host.needsMethod
      plainRecord.types (.known ⟨1, 0⟩) .init false = .ok false := by
  decide +kernel

end Program

end MethodSynthesis
