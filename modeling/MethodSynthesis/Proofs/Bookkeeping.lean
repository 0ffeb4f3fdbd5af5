import MethodSynthesis.Proofs.Programs

/-!
# How declarations, scopes and field lists agree

A declaration is recorded in up to three places: among the declarations, in the list of the scope that
it lives in, and, if it is a field, in the list of its owner. The builders write these places one after
another. This module says how the three agree (`Declarations.ScopesAgree`, `Declarations.FieldsAgree`)
and that they do so after any calls of builders, whether the calls succeed or not and whatever becomes
of names and types in between (`Declarations.Made`).

The steps are those that builders are made of: a scope is added, a declaration is appended that no
scope lists yet, a scope comes to list it, and the owner of a field does. Each keeps the agreement on
its own, under a condition that says how new the thing is that it records.
-/

set_option autoImplicit false

namespace MethodSynthesis

/-- One declaration was made before another. -/
def DeclId.Before : DeclId → DeclId → Prop
  | .at i, .at j => i < j
  | _, _ => False

namespace DeclBody

/-- A declaration owns a scope, of the kind that the declaration introduces. -/
inductive Owns : DeclBody → ScopeId → ScopeKind → Prop
  | module (scope : ScopeId) : Owns (.module scope) scope .module
  | composite (kind : CompositeKind) (scope : ScopeId) (fields : List DeclId) :
      Owns (.composite kind scope fields) scope .composite

/-- Whether a declaration is a method. What is no function is no method either. -/
def isMethod : DeclBody → Bool
  | .function f => f.isMethod
  | _ => false

/-- Whether a declaration is a field. -/
def isField : DeclBody → Bool
  | .field _ => true
  | _ => false

/-- The fields that a declaration lists. -/
def fields : DeclBody → List DeclId
  | .composite _ _ fields => fields
  | _ => []

theorem scope?_eq_some_iff {body : DeclBody} {s : ScopeId} :
    body.scope? = some s ↔ ∃ kind, body.Owns s kind := by
  constructor
  · intro h
    cases body with
    | module scope =>
      obtain rfl := Option.some.inj h
      exact ⟨_, .module scope⟩
    | composite kind scope fields =>
      obtain rfl := Option.some.inj h
      exact ⟨_, .composite kind scope fields⟩
    | enum => exact nomatch h
    | field f => exact nomatch h
    | function f => exact nomatch h
  · rintro ⟨kind, owns⟩
    cases owns <;> rfl

theorem owns_addField_iff {id : DeclId} {body : DeclBody} {s : ScopeId} {kind : ScopeKind} :
    (body.addField id).Owns s kind ↔ body.Owns s kind := by
  cases body with
  | composite ck scope fields =>
    constructor
    · rintro ⟨⟩
      exact .composite ck s fields
    · rintro ⟨⟩
      exact .composite ck s (fields ++ [id])
  | _ => exact Iff.rfl

theorem isMethod_addField (id : DeclId) (body : DeclBody) :
    (body.addField id).isMethod = body.isMethod := by
  cases body <;> rfl

theorem isField_addField (id : DeclId) (body : DeclBody) :
    (body.addField id).isField = body.isField := by
  cases body <;> rfl

end DeclBody

/-! ## What scopes list -/

namespace ScopeTree

variable {t : ScopeTree}

/-- The declarations that the scopes of a tree list, one for each entry. -/
def listed (t : ScopeTree) : List DeclId := t.scopes.flatMap fun data => data.entries.map (·.decl)

theorem mem_listed_iff {id : DeclId} :
    id ∈ t.listed ↔ ∃ s data, t.get? s = some data ∧ ∃ e ∈ data.entries, e.decl = id := by
  simp only [listed, List.mem_flatMap, List.mem_map]
  constructor
  · rintro ⟨data, mem, shown⟩
    obtain ⟨i, stored⟩ := List.mem_iff_getElem?.1 mem
    exact ⟨⟨i⟩, data, stored, shown⟩
  · rintro ⟨s, data, stored, shown⟩
    exact ⟨data, List.mem_of_getElem? stored, shown⟩

theorem listed_push (t : ScopeTree) (parent : Option ScopeId) (kind : ScopeKind) :
    (t.push parent kind).2.listed = t.listed := by
  simp [push, listed]

/-- To declare a name adds one entry, or none if there is no such scope. -/
theorem listed_declare (t : ScopeTree) (scope : ScopeId) (entry : ScopeEntry) :
    (t.declare scope entry).listed = t.listed ∨
      (t.declare scope entry).listed.Perm (entry.decl :: t.listed) := by
  obtain ⟨scopes⟩ := t
  obtain ⟨index⟩ := scope
  simp only [listed, declare]
  -- along the scopes, to the one that is extended
  induction scopes generalizing index with
  | nil =>
    left
    rw [List.modify_nil]
  | cons data scopes ih =>
    cases index with
    | zero =>
      right
      simp only [List.modify_zero_cons, List.flatMap_cons, List.map_append, List.map_cons,
        List.map_nil, List.append_assoc, List.cons_append, List.nil_append]
      exact List.perm_middle
    | succ index =>
      simp only [List.modify_succ_cons, List.flatMap_cons]
      rcases ih index with same | perm
      · exact .inl (congrArg _ same)
      · exact .inr ((perm.append_left _).trans List.perm_middle)

theorem kind?_declare (t : ScopeTree) (scope : ScopeId) (entry : ScopeEntry) (s : ScopeId) :
    (t.declare scope entry).kind? s = t.kind? s := by
  rw [kind?, kind?, get?_declare, Option.map_map]
  congr 1
  funext data
  simp only [Function.comp_apply]
  split <;> rfl

theorem kind?_push {parent : Option ScopeId} {kind k : ScopeKind} {s : ScopeId}
    (h : t.kind? s = some k) : (t.push parent kind).2.kind? s = some k := by
  obtain ⟨data, get, rfl⟩ := Option.map_eq_some_iff.1 h
  rw [kind?, get?_push, if_neg (Nat.ne_of_lt (lt_size_of_get? get)), get]
  rfl

end ScopeTree

/-! ## Agreement -/

namespace Declarations

/-- Scopes and declarations agree. -/
structure ScopesAgree (d : Declarations) : Prop where
  /-- The parent of a scope was made before it. -/
  nested : d.scopes.Nested
  /-- What a module or composite owns is a scope, of the kind it introduces. -/
  owned : ∀ {id body s kind}, d.body? id = some body → body.Owns s kind →
    d.scopes.kind? s = some kind
  /-- No two declarations own the same scope. -/
  owner_unique : ∀ {id id' s}, d.scope? id = some s → d.scope? id' = some s → id = id'
  /-- What a scope lists is declared, under that name, and is a method if it is listed as one. -/
  entry : ∀ {s data}, d.scopes.get? s = some data → ∀ e ∈ data.entries,
    ∃ decl, d.get? e.decl = some decl ∧ decl.name = e.name ∧ decl.body.isMethod = e.isMethod
  /-- No declaration is listed twice, in the same scope or in different ones. -/
  once : d.scopes.listed.Nodup

/-- Field lists agree with the declarations and with the scopes. -/
structure FieldsAgree (d : Declarations) : Prop where
  /-- What a list of fields names is a field. -/
  field : ∀ {owner id}, id ∈ d.fieldIds owner → (d.field? id).isSome
  /-- The owner was declared before its fields. -/
  owner_before : ∀ {owner id}, id ∈ d.fieldIds owner → owner.Before id
  /-- Fields are listed in the order in which they were declared. -/
  increasing : ∀ owner, (d.fieldIds owner).Pairwise DeclId.Before
  /-- No field is in two lists. -/
  disjoint : ∀ {owner owner' id}, id ∈ d.fieldIds owner → id ∈ d.fieldIds owner' → owner = owner'
  /-- The fields of a composite are the fields that its scope lists. -/
  complete : ∀ {owner kind s fields data}, d.body? owner = some (.composite kind s fields) →
    d.scopes.get? s = some data →
      ∀ id, id ∈ fields ↔ (d.field? id).isSome ∧ ∃ e ∈ data.entries, e.decl = id

variable {d : Declarations} {id owner : DeclId} {body : DeclBody}

/-! ### Reading -/

theorem scope?_eq_some_iff {s : ScopeId} :
    d.scope? id = some s ↔ ∃ body kind, d.body? id = some body ∧ body.Owns s kind := by
  simp only [scope?, Option.bind_eq_some_iff, DeclBody.scope?_eq_some_iff]
  exact ⟨fun ⟨body, stored, kind, owns⟩ => ⟨body, kind, stored, owns⟩,
    fun ⟨body, kind, stored, owns⟩ => ⟨body, stored, kind, owns⟩⟩

theorem isSome_field? (d : Declarations) (id : DeclId) :
    (d.field? id).isSome = (d.body? id).any (·.isField) := by
  unfold field? body?
  cases d.get? id with
  | none => rfl
  | some decl =>
    obtain ⟨name, span, body⟩ := decl
    cases body <;> rfl

theorem fieldIds_eq (d : Declarations) (id : DeclId) :
    d.fieldIds id = ((d.body? id).map (·.fields)).getD [] := by
  unfold fieldIds
  cases d.body? id with
  | none => rfl
  | some body => cases body <;> rfl

theorem get?_nextId (d : Declarations) : d.get? d.nextId = none :=
  List.getElem?_eq_none (Nat.le_refl _)

/-- What is declared was declared before the declaration that comes next. -/
theorem before_nextId {decl : Declaration} (stored : d.get? id = some decl) :
    id.Before d.nextId := by
  cases id with
  | absent => exact nomatch stored
  | «at» index => exact (List.getElem?_eq_some_iff.1 stored).1

theorem get?_append_eq (d : Declarations) (name : Name) (body : DeclBody) (id : DeclId) :
    (d.append name body).get? id =
      if id = d.nextId then some ⟨name, .dummy, body⟩ else d.get? id := by
  split
  · rename_i new
    exact new ▸ get?_append_nextId name body
  · rename_i old
    cases stored : d.get? id with
    | some decl => exact get?_append stored name body
    | none =>
      cases id with
      | absent => rfl
      | «at» index =>
        have ne : index ≠ d.entries.length := fun eq => old (congrArg DeclId.at eq)
        have ge := List.getElem?_eq_none_iff.1 stored
        refine List.getElem?_eq_none ?_
        rw [append, List.length_append, List.length_singleton]
        omega

theorem body?_append (d : Declarations) (name : Name) (body : DeclBody) (id : DeclId) :
    (d.append name body).body? id = if id = d.nextId then some body else d.body? id := by
  rw [body?, get?_append_eq]
  split <;> rfl

theorem get?_modify (d : Declarations) (index : Nat) (g : Declaration → Declaration) (id : DeclId) :
    ({ d with entries := d.entries.modify index g } : Declarations).get? id =
      (d.get? id).map fun decl => if id = .at index then g decl else decl := by
  cases id with
  | absent => rfl
  | «at» i =>
    have same : index = i ↔ DeclId.at i = .at index := by simp [eq_comm]
    simp only [get?, List.getElem?_modify, same, Option.map_eq_map]

theorem body?_modify (d : Declarations) (index : Nat) {g : Declaration → Declaration}
    {f : DeclBody → DeclBody} (bodies : ∀ decl, (g decl).body = f decl.body) (id : DeclId) :
    ({ d with entries := d.entries.modify index g } : Declarations).body? id =
      (d.body? id).map fun body => if id = .at index then f body else body := by
  rw [body?, get?_modify, body?, Option.map_map, Option.map_map]
  congr 1
  funext decl
  simp only [Function.comp_apply]
  split
  · exact bodies decl
  · rfl

/-- A scope comes to list a field, and so does the declaration at a position. -/
def enlist (d : Declarations) (index : Nat) (s : ScopeId) (entry : ScopeEntry) : Declarations where
  scopes := d.scopes.declare s entry
  entries := d.entries.modify index fun decl => { decl with body := decl.body.addField entry.decl }

section Enlist

variable (d : Declarations) (index : Nat) (s : ScopeId) (entry : ScopeEntry)

theorem body?_enlist (id : DeclId) : (d.enlist index s entry).body? id =
    (d.body? id).map fun body => if id = .at index then body.addField entry.decl else body :=
  body?_modify d index (fun _ => rfl) id

theorem isSome_field?_enlist (id : DeclId) :
    ((d.enlist index s entry).field? id).isSome = (d.field? id).isSome := by
  rw [isSome_field?, isSome_field?, body?_enlist, Option.any_map]
  congr 1
  funext body
  split
  · exact body.isField_addField _
  · rfl

/-- One list of fields at most is longer, by the new field. -/
theorem fieldIds_enlist (id : DeclId) : (d.enlist index s entry).fieldIds id = d.fieldIds id ∨
    id = .at index ∧ (d.enlist index s entry).fieldIds id = d.fieldIds id ++ [entry.decl] := by
  rw [fieldIds_eq, fieldIds_eq, body?_enlist]
  cases d.body? id with
  | none => exact .inl rfl
  | some old =>
    simp only [Option.map_some, Option.getD_some]
    split
    · rename_i listing
      cases old with
      | composite kind s fields => exact .inr ⟨listing, rfl⟩
      | _ => exact .inl rfl
    · exact .inl rfl

variable {d index s entry}

theorem mem_fieldIds_enlist (mem : id ∈ (d.enlist index s entry).fieldIds owner) :
    id ∈ d.fieldIds owner ∨ owner = .at index ∧ id = entry.decl := by
  rcases fieldIds_enlist d index s entry owner with old | ⟨listing, more⟩
  · exact .inl (old ▸ mem)
  · rcases List.mem_append.1 (more ▸ mem) with old | new
    · exact .inl old
    · exact .inr ⟨listing, List.mem_singleton.1 new⟩

end Enlist

/-! ### Scopes and declarations -/

namespace ScopesAgree

variable {s : ScopeId}

/-- A scope that a declaration owns is there. -/
theorem exists_scope (agree : d.ScopesAgree) (owns : d.scope? id = some s) :
    ∃ data, d.scopes.get? s = some data := by
  obtain ⟨body, kind, stored, owns⟩ := scope?_eq_some_iff.1 owns
  obtain ⟨data, get, -⟩ := Option.map_eq_some_iff.1 (agree.owned stored owns)
  exact ⟨data, get⟩

theorem scope?_lt (agree : d.ScopesAgree) (owns : d.scope? id = some s) :
    s.index < d.scopes.size := by
  obtain ⟨data, get⟩ := agree.exists_scope owns
  exact ScopeTree.lt_size_of_get? get

/-- The declaration that comes next is listed nowhere. -/
theorem nextId_not_listed (agree : d.ScopesAgree) : d.nextId ∉ d.scopes.listed := by
  intro listed
  obtain ⟨s, data, get, e, mem, eq⟩ := ScopeTree.mem_listed_iff.1 listed
  obtain ⟨decl, stored, -⟩ := agree.entry get e mem
  rw [eq, get?_nextId] at stored
  exact nomatch stored

/-- A scope may be added under one that is there. -/
theorem pushScope (agree : d.ScopesAgree) {parent : Option ScopeId}
    (older : ∀ q ∈ parent, q.index < d.scopes.size) (kind : ScopeKind) :
    (d.pushScope parent kind).2.ScopesAgree where
  nested := ScopeTree.Nested.push agree.nested older kind
  owned stored owns := ScopeTree.kind?_push (agree.owned stored owns)
  owner_unique := agree.owner_unique
  entry get e mem := agree.entry (ScopeTree.get?_of_mem_push get mem) e mem
  once := by
    have same : (d.pushScope parent kind).2.scopes.listed = d.scopes.listed :=
      d.scopes.listed_push parent kind
    exact same ▸ agree.once

/-- A declaration may be appended if the scope that it owns is there and has no owner yet. -/
theorem append (agree : d.ScopesAgree) (name : Name)
    (owns : ∀ {s kind}, body.Owns s kind → d.scopes.kind? s = some kind ∧ ∀ id, d.scope? id ≠ some s) :
    (d.append name body).ScopesAgree where
  nested := agree.nested
  owned := by
    intro id body' s kind stored owned
    rw [body?_append] at stored
    split at stored
    · obtain rfl := Option.some.inj stored
      exact (owns owned).1
    · exact agree.owned stored owned
  owner_unique := by
    have owner : ∀ {id s}, (d.append name body).scope? id = some s →
        d.scope? id = some s ∨ id = d.nextId ∧ ∃ kind, body.Owns s kind := by
      intro id s h
      rw [scope?, body?_append] at h
      split at h
      · rename_i new
        exact .inr ⟨new, DeclBody.scope?_eq_some_iff.1 h⟩
      · exact .inl h
    -- the scope of the new declaration has no older owner
    intro id id' s h h'
    rcases owner h with old | ⟨rfl, kind, new⟩ <;> rcases owner h' with old' | ⟨rfl, kind', new'⟩
    · exact agree.owner_unique old old'
    · exact absurd old ((owns new').2 id)
    · exact absurd old' ((owns new).2 id')
    · rfl
  entry := by
    intro s data get e mem
    obtain ⟨decl, stored, same⟩ := agree.entry get e mem
    exact ⟨decl, get?_append stored name body, same⟩
  once := agree.once

/-- A scope may list what is declared, as it is declared, unless some scope lists it already. -/
theorem declareIn (agree : d.ScopesAgree) (s : ScopeId) {entry : ScopeEntry} {decl : Declaration}
    (stored : d.get? entry.decl = some decl) (name : decl.name = entry.name)
    (method : decl.body.isMethod = entry.isMethod) (unlisted : entry.decl ∉ d.scopes.listed) :
    (d.declareIn s entry).ScopesAgree where
  nested := ScopeTree.Nested.declare agree.nested s entry
  owned stored owns := (d.scopes.kind?_declare s entry _).trans (agree.owned stored owns)
  owner_unique := agree.owner_unique
  entry := by
    intro s' data get e mem
    rcases ScopeTree.mem_entries_declare get mem with ⟨old, hold, listed⟩ | rfl
    · exact agree.entry hold e listed
    · exact ⟨decl, stored, name, method⟩
  once := by
    rcases d.scopes.listed_declare s entry with same | perm
    · exact same.symm ▸ agree.once
    · exact perm.nodup_iff.2 (List.nodup_cons.2 ⟨unlisted, agree.once⟩)

/-- A declaration may be replaced by one of the same name that owns the same scope and is a method if
the old one is. -/
theorem modify (agree : d.ScopesAgree) (index : Nat) {g : Declaration → Declaration}
    {f : DeclBody → DeclBody} (names : ∀ decl, (g decl).name = decl.name)
    (bodies : ∀ decl, (g decl).body = f decl.body)
    (owns : ∀ {body s kind}, (f body).Owns s kind ↔ body.Owns s kind)
    (method : ∀ body, (f body).isMethod = body.isMethod) :
    ({ d with entries := d.entries.modify index g } : Declarations).ScopesAgree := by
  -- what is owned after the change was owned before
  have before : ∀ {id body s kind},
      ({ d with entries := d.entries.modify index g } : Declarations).body? id = some body →
        body.Owns s kind → ∃ old, d.body? id = some old ∧ old.Owns s kind := by
    intro id body s kind stored owned
    rw [body?_modify d index bodies] at stored
    obtain ⟨old, hold, rfl⟩ := Option.map_eq_some_iff.1 stored
    refine ⟨old, hold, ?_⟩
    split at owned
    · exact owns.1 owned
    · exact owned
  have scope : ∀ {id s},
      ({ d with entries := d.entries.modify index g } : Declarations).scope? id = some s →
        d.scope? id = some s := by
    intro id s h
    obtain ⟨body, kind, stored, owned⟩ := scope?_eq_some_iff.1 h
    obtain ⟨old, hold, owned⟩ := before stored owned
    exact scope?_eq_some_iff.2 ⟨old, kind, hold, owned⟩
  refine ⟨agree.nested, ?_, fun h h' => agree.owner_unique (scope h) (scope h'), ?_, agree.once⟩
  · intro id body s kind stored owned
    obtain ⟨old, hold, owned⟩ := before stored owned
    exact agree.owned hold owned
  · intro s data get e mem
    obtain ⟨decl, stored, name, isMethod⟩ := agree.entry get e mem
    refine ⟨_, (get?_modify d index g _).trans (congrArg _ stored), ?_⟩
    split
    · exact ⟨(names decl).trans name, by rw [bodies, method, isMethod]⟩
    · exact ⟨name, isMethod⟩

end ScopesAgree

/-! ### Field lists -/

namespace FieldsAgree

variable {s : ScopeId}

/-- A field that an owner lists, its scope lists. -/
theorem mem_listed (agree : d.FieldsAgree) (scopes : d.ScopesAgree) (mem : id ∈ d.fieldIds owner) :
    id ∈ d.scopes.listed := by
  rw [fieldIds_eq] at mem
  cases stored : d.body? owner with
  | none =>
    rw [stored] at mem
    exact absurd mem List.not_mem_nil
  | some body =>
    rw [stored] at mem
    cases body with
    | composite kind s fields =>
      obtain ⟨data, get⟩ := scopes.exists_scope
        (scope?_eq_some_iff.2 ⟨_, _, stored, .composite kind s fields⟩)
      obtain ⟨e, listed, eq⟩ := ((agree.complete stored get id).1 mem).2
      exact ScopeTree.mem_listed_iff.2 ⟨s, data, get, e, listed, eq⟩
    | _ => exact absurd mem List.not_mem_nil

theorem pushScope (agree : d.FieldsAgree) (scopes : d.ScopesAgree) (parent : Option ScopeId)
    (kind : ScopeKind) : (d.pushScope parent kind).2.FieldsAgree where
  field := agree.field
  owner_before := agree.owner_before
  increasing := agree.increasing
  disjoint := agree.disjoint
  complete := by
    intro owner ck s fields data stored get
    -- what a composite owns is an older scope
    have lt := scopes.scope?_lt (scope?_eq_some_iff.2 ⟨_, _, stored, .composite ck s fields⟩)
    have get : (d.scopes.push parent kind).2.get? s = some data := get
    rw [ScopeTree.get?_push, if_neg (Nat.ne_of_lt lt)] at get
    exact agree.complete stored get

/-- A declaration may be appended that lists no fields, and owns no scope that lists anything. -/
theorem append (agree : d.FieldsAgree) (scopes : d.ScopesAgree) (name : Name)
    (none : body.fields = [])
    (empty : ∀ {s kind data}, body.Owns s kind → d.scopes.get? s = some data → data.entries = []) :
    (d.append name body).FieldsAgree := by
  have ids : ∀ id, (d.append name body).fieldIds id = d.fieldIds id := by
    intro id
    rw [fieldIds_eq, fieldIds_eq, body?_append]
    split
    · rename_i new
      rw [new, body?, get?_nextId]
      exact none
    · rfl
  have field : ∀ {id}, id ≠ d.nextId →
      ((d.append name body).field? id).isSome = (d.field? id).isSome := by
    intro id old
    rw [isSome_field?, isSome_field?, body?_append, if_neg old]
  have listed : ∀ {id}, id ∈ d.scopes.listed → id ≠ d.nextId := by
    rintro id mem rfl
    exact scopes.nextId_not_listed mem
  refine ⟨?_, ?_, ?_, ?_, ?_⟩
  · intro owner id mem
    rw [ids] at mem
    rw [field (listed (agree.mem_listed scopes mem))]
    exact agree.field mem
  · intro owner id mem
    rw [ids] at mem
    exact agree.owner_before mem
  · intro owner
    rw [ids]
    exact agree.increasing owner
  · intro owner owner' id mem mem'
    rw [ids] at mem mem'
    exact agree.disjoint mem mem'
  · intro owner kind s fields data stored get id
    rw [body?_append] at stored
    split at stored
    · obtain rfl := Option.some.inj stored
      obtain rfl : fields = [] := none
      simp [empty (.composite kind s []) get]
    · rw [agree.complete stored get id]
      refine and_congr_left fun shown => ?_
      rw [field (listed (ScopeTree.mem_listed_iff.2 ⟨s, data, get, shown⟩))]

/-- A scope may list what is no field. -/
theorem declareIn (agree : d.FieldsAgree) (s : ScopeId) {entry : ScopeEntry}
    (other : (d.field? entry.decl).isSome = false) : (d.declareIn s entry).FieldsAgree where
  field := agree.field
  owner_before := agree.owner_before
  increasing := agree.increasing
  disjoint := agree.disjoint
  complete := by
    intro owner kind s' fields data stored get id
    have get : (d.scopes.declare s entry).get? s' = some data := get
    rw [ScopeTree.get?_declare] at get
    obtain ⟨old, hold, rfl⟩ := Option.map_eq_some_iff.1 get
    rw [agree.complete stored hold id]
    refine and_congr_right fun field => ?_
    split
    · have ne : entry.decl ≠ id := by
        rintro rfl
        exact Bool.false_ne_true (other.symm.trans field)
      simp [ne]
    · exact Iff.rfl

/-- A field that no scope lists yet may be listed by the owner of a scope and by the scope. -/
theorem complete_enlist (agree : d.FieldsAgree) (scopes : d.ScopesAgree) {index : Nat}
    {entry : ScopeEntry} (owns : d.scope? (.at index) = some s)
    (isField : (d.field? entry.decl).isSome) {ck : CompositeKind} {s' : ScopeId}
    {fields : List DeclId} {data : ScopeData}
    (stored : (d.enlist index s entry).body? owner = some (.composite ck s' fields))
    (get : (d.scopes.declare s entry).get? s' = some data) (id : DeclId) :
    id ∈ fields ↔ (d.field? id).isSome ∧ ∃ e ∈ data.entries, e.decl = id := by
  rw [body?_enlist] at stored
  rw [ScopeTree.get?_declare] at get
  obtain ⟨old, hold, eq⟩ := Option.map_eq_some_iff.1 stored
  obtain ⟨data', hdata', rfl⟩ := Option.map_eq_some_iff.1 get
  by_cases listing : owner = .at index
  · -- the owner is a composite: its list and its scope get the new field
    subst listing
    rw [if_pos rfl] at eq
    obtain ⟨body, kind, stored', owned⟩ := scope?_eq_some_iff.1 owns
    obtain rfl := Option.some.inj (hold.symm.trans stored')
    cases owned with
    | module _ => exact nomatch eq
    | composite ck' _ fields' =>
      cases eq
      rw [if_pos rfl, List.mem_append, agree.complete hold hdata' id]
      simp only [List.mem_singleton, List.mem_append, or_and_right, exists_or]
      constructor
      · rintro (⟨field, shown⟩ | rfl)
        · exact ⟨field, .inl shown⟩
        · exact ⟨isField, .inr ⟨entry, rfl, rfl⟩⟩
      · rintro ⟨field, shown | ⟨e, rfl, rfl⟩⟩
        · exact .inl ⟨field, shown⟩
        · exact .inr rfl
  · -- another composite has another scope
    rw [if_neg listing] at eq
    subst eq
    have other : s' ≠ s := by
      rintro rfl
      exact listing (scopes.owner_unique
        (scope?_eq_some_iff.2 ⟨_, _, hold, .composite ck s' fields⟩) owns)
    rw [if_neg other]
    exact agree.complete hold hdata' id

/-- The same keeps field lists in agreement if the field is the last declaration. -/
theorem enlist (agree : d.FieldsAgree) (scopes : d.ScopesAgree) {index : Nat} {entry : ScopeEntry}
    (owns : d.scope? (.at index) = some s) (isField : (d.field? entry.decl).isSome)
    (unlisted : entry.decl ∉ d.scopes.listed)
    (last : ∀ {id}, (d.body? id).isSome → id ≠ entry.decl → id.Before entry.decl) :
    (d.enlist index s entry).FieldsAgree := by
  have new : ∀ owner, entry.decl ∉ d.fieldIds owner :=
    fun owner mem => unlisted (agree.mem_listed scopes mem)
  refine ⟨?_, ?_, ?_, ?_, ?_⟩
  · intro owner id mem
    rw [isSome_field?_enlist]
    rcases mem_fieldIds_enlist mem with old | ⟨-, rfl⟩
    · exact agree.field old
    · exact isField
  · intro owner id mem
    rcases mem_fieldIds_enlist mem with old | ⟨rfl, rfl⟩
    · exact agree.owner_before old
    · -- the owner owns a scope, as no field does
      obtain ⟨body, kind, stored, owned⟩ := scope?_eq_some_iff.1 owns
      refine last (Option.isSome_of_mem stored) fun eq => ?_
      rw [isSome_field?, ← eq, stored] at isField
      cases owned <;> exact Bool.false_ne_true isField
  · intro owner
    rcases fieldIds_enlist d index s entry owner with old | ⟨-, more⟩
    · exact old ▸ agree.increasing owner
    · rw [more, List.pairwise_append]
      refine ⟨agree.increasing owner, List.pairwise_singleton _ _, fun id mem id' mem' => ?_⟩
      -- the new field was declared after all that the owner lists
      obtain rfl := List.mem_singleton.1 mem'
      have field := agree.field mem
      rw [isSome_field?] at field
      exact last (Option.isSome_of_any field) fun eq => new owner (eq ▸ mem)
  · intro owner owner' id mem mem'
    rcases mem_fieldIds_enlist mem with old | ⟨listing, rfl⟩ <;>
      rcases mem_fieldIds_enlist mem' with old' | ⟨listing', eq⟩
    · exact agree.disjoint old old'
    · exact absurd (eq ▸ old) (new owner)
    · exact absurd old' (new owner')
    · exact listing.trans listing'.symm
  · intro owner kind s' fields data stored get id
    rw [isSome_field?_enlist]
    exact agree.complete_enlist scopes owns isField stored get id

theorem setSpan (agree : d.FieldsAgree) (id : DeclId) (span : Span) :
    (d.setSpan id span).FieldsAgree := by
  cases id with
  | absent => exact agree
  | «at» index =>
    have body : ∀ id, (d.setSpan (.at index) span).body? id = d.body? id := by
      intro id
      refine (body?_modify d index (g := fun entry => { entry with span }) (f := fun body => body)
        (fun _ => rfl) id).trans ?_
      simp only [ite_self, Option.map_id']
    have ids : (d.setSpan (.at index) span).fieldIds = d.fieldIds := by
      funext id
      rw [fieldIds_eq, fieldIds_eq, body]
    have field : ∀ id, ((d.setSpan (.at index) span).field? id).isSome = (d.field? id).isSome := by
      intro id
      rw [isSome_field?, isSome_field?, body]
    refine ⟨?_, ?_, ids ▸ agree.increasing, ?_, ?_⟩
    · intro owner id mem
      rw [field]
      exact agree.field (ids ▸ mem)
    · intro owner id mem
      exact agree.owner_before (ids ▸ mem)
    · intro owner owner' id mem mem'
      exact agree.disjoint (ids ▸ mem) (ids ▸ mem')
    · intro owner kind s fields data stored get id
      rw [field]
      exact agree.complete (body owner ▸ stored) get id

end FieldsAgree

/-! ### The builders -/

/-- Declarations, scopes and field lists agree. -/
structure Consistent (d : Declarations) : Prop extends d.ScopesAgree, d.FieldsAgree

namespace Consistent

theorem empty : Declarations.empty.Consistent := by
  have body : ∀ id, Declarations.empty.body? id = none := by
    intro id
    cases id <;> rfl
  have scope : ∀ {id s}, Declarations.empty.scope? id ≠ some s := by
    intro id s h
    rw [scope?, body] at h
    exact nomatch h
  have ids : ∀ id, Declarations.empty.fieldIds id = [] := by
    intro id
    rw [fieldIds_eq, body]
    rfl
  have unlisted : ∀ {owner id}, id ∉ Declarations.empty.fieldIds owner := by
    intro owner id
    rw [ids]
    exact List.not_mem_nil
  exact {
    nested := fun h => nomatch h
    owned := fun h => nomatch (body _).symm.trans h
    owner_unique := fun h => absurd h scope
    entry := fun h => nomatch h
    once := List.nodup_nil
    field := fun mem => absurd mem unlisted
    owner_before := fun mem => absurd mem unlisted
    increasing := fun id => ids id ▸ List.Pairwise.nil
    disjoint := fun mem => absurd mem unlisted
    complete := fun h => nomatch (body _).symm.trans h }

/-- A declaration that is no field may be added, with a scope of its own if that scope is new. -/
theorem add (con : d.Consistent) (scope : Option ScopeId) (name : Name)
    (other : body.isField = false) (none : body.fields = [])
    (owns : ∀ {s kind}, body.Owns s kind → d.scopes.get? s = some ⟨scope, kind, []⟩ ∧
      ∀ id, d.scope? id ≠ some s) :
    (d.add scope name body.isMethod body).2.Consistent := by
  have scopes : (d.append name body).ScopesAgree :=
    con.toScopesAgree.append name fun owned =>
      ⟨by rw [ScopeTree.kind?, (owns owned).1]; rfl, (owns owned).2⟩
  have fields : (d.append name body).FieldsAgree := by
    refine con.toFieldsAgree.append con.toScopesAgree name none fun owned get => ?_
    obtain rfl := Option.some.inj ((owns owned).1.symm.trans get)
    rfl
  cases scope with
  | none => exact ⟨scopes, fields⟩
  | some s =>
    have stored := d.get?_append_nextId name body
    refine ⟨scopes.declareIn s stored rfl rfl con.nextId_not_listed, fields.declareIn s ?_⟩
    rw [isSome_field?, body?, stored]
    exact other

/-- A scope may be added for a declaration that is to own it. -/
theorem addScope (con : d.Consistent) {parent : Option ScopeId}
    (older : ∀ q ∈ parent, q.index < d.scopes.size) (kind : ScopeKind) :
    (d.pushScope parent kind).2.Consistent ∧
      (d.pushScope parent kind).2.scopes.get? (d.pushScope parent kind).1 =
        some ⟨parent, kind, []⟩ ∧
      ∀ id, (d.pushScope parent kind).2.scope? id ≠ some (d.pushScope parent kind).1 := by
  refine ⟨⟨con.toScopesAgree.pushScope older kind,
    con.toFieldsAgree.pushScope con.toScopesAgree parent kind⟩, ?_, fun id owned => ?_⟩
  · exact (d.scopes.get?_push parent kind _).trans (if_pos rfl)
  · have old : d.scope? id = some ⟨d.scopes.size⟩ := owned
    exact Nat.lt_irrefl _ (con.scope?_lt old)

theorem addModule (con : d.Consistent) (name : Name) (parent : Option DeclId) :
    (d.addModule name parent).2.Consistent := by
  have older : ∀ q ∈ parent.bind d.scope?, q.index < d.scopes.size := by
    intro q hq
    obtain ⟨_, _, owned⟩ := Option.bind_eq_some_iff.1 hq
    exact con.scope?_lt owned
  obtain ⟨opened, new, free⟩ := con.addScope older .module
  refine opened.add _ name rfl rfl fun owned => ?_
  cases owned
  exact ⟨new, free⟩

theorem addComposite (con : d.Consistent) (module : DeclId) (name : Name) (kind : CompositeKind) :
    (d.addComposite module name kind).2.Consistent := by
  have older : ∀ q ∈ d.scope? module, q.index < d.scopes.size := fun _ owned => con.scope?_lt owned
  obtain ⟨opened, new, free⟩ := con.addScope older .composite
  refine opened.add _ name rfl rfl fun owned => ?_
  cases owned
  exact ⟨new, free⟩

theorem addField (con : d.Consistent) {name : Name} {field : FieldDecl} {d' : Declarations}
    (added : d.addField owner name field = some (id, d')) : d'.Consistent := by
  obtain ⟨s, owns, eq⟩ := Option.map_eq_some_iff.1 added
  have scopes : (d.append name (.field field)).ScopesAgree :=
    con.toScopesAgree.append name fun owned => nomatch owned
  have fields : (d.append name (.field field)).FieldsAgree :=
    con.toFieldsAgree.append con.toScopesAgree name rfl fun owned => nomatch owned
  have stored := d.get?_append_nextId name (.field field)
  cases owner with
  | absent => exact nomatch owns
  | «at» index =>
    obtain rfl := congrArg (·.2) eq
    refine ⟨(scopes.declareIn s stored rfl rfl con.nextId_not_listed).modify index (fun _ => rfl)
      (fun _ => rfl) DeclBody.owns_addField_iff (DeclBody.isMethod_addField _), ?_⟩
    -- the owner was declared before the field
    have older : (d.append name (.field field)).scope? (.at index) = some s := by
      obtain ⟨body, kind, old, owned⟩ := scope?_eq_some_iff.1 owns
      refine scope?_eq_some_iff.2 ⟨body, kind, ?_, owned⟩
      obtain ⟨decl, get, rfl⟩ := Option.map_eq_some_iff.1 old
      exact Option.map_eq_some_iff.2 ⟨decl, get?_append get name _, rfl⟩
    refine FieldsAgree.enlist fields scopes older ?_ con.nextId_not_listed ?_
    · rw [isSome_field?, body?, stored]
      rfl
    · intro id declared ne
      rw [body?_append, if_neg ne] at declared
      obtain ⟨body, old⟩ := Option.isSome_iff_exists.1 declared
      obtain ⟨decl, old, -⟩ := Option.map_eq_some_iff.1 old
      exact before_nextId old

theorem setSpan (con : d.Consistent) (id : DeclId) (span : Span) :
    (d.setSpan id span).Consistent := by
  refine ⟨?_, con.toFieldsAgree.setSpan id span⟩
  cases id with
  | absent => exact con.toScopesAgree
  | «at» index =>
    exact con.toScopesAgree.modify index (f := fun body => body) (fun _ => rfl) (fun _ => rfl)
      Iff.rfl fun _ => rfl

/-- One edit keeps the agreement. -/
theorem edit (con : d.Consistent) {types : List TypeId} {d' : Declarations}
    (edit : d.Edit types d') : d'.Consistent := by
  cases edit with
  | none => exact con
  | module name parent => exact con.addModule name parent
  | composite module name kind => exact con.addComposite module name kind
  | enum module name => exact con.add _ name rfl rfl fun owned => nomatch owned
  | field _ added => exact con.addField added
  | function _ added =>
    obtain ⟨s, -, eq⟩ := Option.map_eq_some_iff.1 added
    obtain rfl := congrArg (·.2) eq
    rename_i f _
    have kept : (d.add (some s) f.name (DeclBody.function f).isMethod (.function f)).2.Consistent :=
      con.add _ _ rfl rfl fun owned => nomatch owned
    exact kept
  | span id span => exact con.setSpan id span

end Consistent

end Declarations

/-- The program after a call of a builder; a call that fails leaves it as it is. -/
def BuilderCall.after (call : BuilderCall) (p : Program) : Program :=
  match call.run p with
  | .ok p' => p'
  | .error _ => p

/-- One call keeps the agreement, since it makes one edit, or fails and makes none. -/
theorem Declarations.Consistent.after {p : Program} (con : p.decls.Consistent) (call : BuilderCall) :
    (call.after p).decls.Consistent := by
  unfold BuilderCall.after
  split
  · rename_i p' eq
    exact con.edit (Program.run_edit eq)
  · exact con

/-- Declarations, scopes and field lists agree in every program that is built. -/
theorem Program.Built.consistent {p : Program} (built : p.Built) : p.decls.Consistent := by
  induction built with
  | empty names => exact .empty
  | step _ _ eq con => exact con.edit (run_edit eq)

/-- The declarations that calls of builders lead to. The calls may succeed or not, and names and types
may be anything at the time of each call. -/
inductive Declarations.Made : Declarations → Prop
  | empty : Made .empty
  | step {p : Program} (call : BuilderCall) : Made p.decls → Made (call.after p).decls

/-- The program after calls of builders, one after another. -/
def Program.afterAll (p : Program) (calls : List BuilderCall) : Program :=
  calls.foldl (fun p call => call.after p) p

theorem Declarations.Made.afterAll {p : Program} (made : p.decls.Made) (calls : List BuilderCall) :
    (p.afterAll calls).decls.Made := by
  induction calls generalizing p with
  | nil => exact made
  | cons call calls ih => exact ih (.step call made)

/-- Declarations, scopes and field lists agree after any calls of builders. -/
theorem Declarations.made_consistent {d : Declarations} (made : d.Made) : d.Consistent := by
  induction made with
  | empty => exact .empty
  | step call _ con => exact con.after call

/-- A record whose fields have a module declared between them. The field of a type that is not there
and the procedure of an owner that is not there are not made. -/
def interruptedRecord : Program :=
  (Program.blank .bySize).afterAll
    [.module "M" none, .composite (.at 0) "R" .record none, .field (.known ⟨1, 0⟩) "x" .untyped,
      .module "N" (some (.at 1)), .field (.known ⟨1, 7⟩) "z" .untyped,
      .named (.at 9) "p" .procedure false [], .field (.known ⟨1, 0⟩) "y" .untyped,
      .method (.known ⟨1, 0⟩) "m" .procedure ⟨.ref, .known ⟨1, 0⟩⟩ []]

theorem interruptedRecord_consistent :
    interruptedRecord.decls.Made ∧
      interruptedRecord.decls.fieldIds (.at 1) = [.at 2, .at 4] ∧
      interruptedRecord.decls.Consistent := by
  have made : interruptedRecord.decls.Made := Declarations.Made.afterAll .empty _
  exact ⟨made, by decide +kernel, Declarations.made_consistent made⟩

end MethodSynthesis
