import MethodSynthesis.Fault
import Mathlib.Logic.Relation

/-!
# What a lookup finds

A lookup that starts in a scope follows parents as far as its configuration lets it
(`ScopeTree.Follows`). When parents are older than the scopes inside them (`ScopeTree.Nested`), every
lookup ends, and it finds what is listed under the name in the scopes that it reaches
(`ScopeTree.lookup_spec`).
-/

set_option autoImplicit false

namespace MethodSynthesis

namespace ScopeTree

variable {t : ScopeTree} {config : LookupConfig} {scope s q : ScopeId} {data : ScopeData}

/-- The parent of a scope is older than the scope. -/
def Nested (t : ScopeTree) : Prop :=
  ∀ {s data q}, t.get? s = some data → data.parent = some q → q.index < s.index

/-- A lookup goes on from one scope to another. -/
def Follows (t : ScopeTree) (config : LookupConfig) (s q : ScopeId) : Prop :=
  ∃ data, t.get? s = some data ∧ data.next? config = some q

/-- A scope that is reached from another one by a lookup, with what it holds. -/
def Reaches (t : ScopeTree) (config : LookupConfig) (scope : ScopeId) (data : ScopeData) : Prop :=
  ∃ s, Relation.ReflTransGen (t.Follows config) scope s ∧ t.get? s = some data

/-- A declaration is listed under a name in a scope that a lookup reaches. -/
def Shows (t : ScopeTree) (config : LookupConfig) (scope : ScopeId) (name : Name) (id : DeclId) :
    Prop :=
  ∃ data entry, t.Reaches config scope data ∧ entry ∈ data.entries ∧ entry.name = name ∧
    config.admits entry = true ∧ entry.decl = id

/-! ## Adding to a tree -/

theorem lt_size_of_get? (get : t.get? s = some data) : s.index < t.size :=
  (List.getElem?_eq_some_iff.1 get).1

/-- A scope that is added lists nothing, and the older scopes stay as they are. -/
theorem get?_push (t : ScopeTree) (parent : Option ScopeId) (kind : ScopeKind) (s : ScopeId) :
    (t.push parent kind).2.get? s =
      if s.index = t.size then some ⟨parent, kind, []⟩ else t.get? s := by
  have append : (t.push parent kind).2.get? s =
      (t.scopes ++ [(⟨parent, kind, []⟩ : ScopeData)])[s.index]? := rfl
  rw [append]
  by_cases new : s.index = t.size
  · rw [if_pos new, new]
    exact List.getElem?_concat_length
  · rw [if_neg new]
    rcases Nat.lt_or_gt_of_ne new with lt | gt
    · exact List.getElem?_append_left lt
    · rw [get?, List.getElem?_eq_none (Nat.le_of_lt gt)]
      refine List.getElem?_eq_none ?_
      rw [List.length_append, List.length_singleton]
      exact gt

/-- To declare a name extends what its scope lists. -/
theorem get?_declare (t : ScopeTree) (scope : ScopeId) (entry : ScopeEntry) (s : ScopeId) :
    (t.declare scope entry).get? s = (t.get? s).map fun data =>
      if s = scope then { data with entries := data.entries ++ [entry] } else data := by
  have same : scope.index = s.index ↔ s = scope := by
    cases s
    cases scope
    simp [eq_comm]
  simp only [get?, declare, List.getElem?_modify, same, Option.map_eq_map]

/-- What a scope lists after a scope is added it listed before. -/
theorem get?_of_mem_push {parent : Option ScopeId} {kind : ScopeKind} {e : ScopeEntry}
    (get : (t.push parent kind).2.get? s = some data) (mem : e ∈ data.entries) :
    t.get? s = some data := by
  rw [get?_push] at get
  split at get
  · obtain rfl := Option.some.inj get
    cases mem
  · exact get

/-- What a scope lists after a name is declared it listed before, or it is that name. -/
theorem mem_entries_declare {entry e : ScopeEntry}
    (get : (t.declare scope entry).get? s = some data) (mem : e ∈ data.entries) :
    (∃ old, t.get? s = some old ∧ e ∈ old.entries) ∨ e = entry := by
  rw [get?_declare] at get
  obtain ⟨old, hold, rfl⟩ := Option.map_eq_some_iff.1 get
  split at mem
  · rcases List.mem_append.1 mem with listed | new
    · exact .inl ⟨old, hold, listed⟩
    · exact .inr (List.mem_singleton.1 new)
  · exact .inl ⟨old, hold, mem⟩

theorem Nested.push (nested : t.Nested) {parent : Option ScopeId}
    (older : ∀ q ∈ parent, q.index < t.size) (kind : ScopeKind) : (t.push parent kind).2.Nested := by
  intro s data q get hq
  rw [get?_push] at get
  split at get
  · rename_i new
    obtain rfl := Option.some.inj get
    exact new ▸ older q hq
  · exact nested get hq

theorem Nested.declare (nested : t.Nested) (scope : ScopeId) (entry : ScopeEntry) :
    (t.declare scope entry).Nested := by
  intro s data q get hq
  rw [get?_declare] at get
  obtain ⟨old, hold, rfl⟩ := Option.map_eq_some_iff.1 get
  refine nested hold ?_
  split at hq
  · exact hq
  · exact hq

/-! ## Following parents -/

theorem parent_eq_of_next?_eq (h : data.next? config = some q) : data.parent = some q := by
  unfold ScopeData.next? at h
  split at h
  · exact h
  · exact nomatch h

theorem next?_all_eq_some_iff :
    data.next? .all = some q ↔ data.kind = .composite ∧ data.parent = some q := by
  simp [ScopeData.next?, LookupConfig.all]

theorem not_reaches (absent : t.get? scope = none) : ¬ t.Reaches config scope data := by
  rintro ⟨s, path, get⟩
  rcases path.cases_head with rfl | ⟨_, ⟨_, get', _⟩, _⟩
  · exact nomatch absent.symm.trans get
  · exact nomatch absent.symm.trans get'

/-- A lookup reaches the scope where it starts, and what it reaches from the next scope. -/
theorem reaches_iff {start : ScopeData} (get : t.get? scope = some start) :
    t.Reaches config scope data ↔
      data = start ∨ ∃ q, start.next? config = some q ∧ t.Reaches config q data := by
  constructor
  · rintro ⟨s, path, get'⟩
    rcases path.cases_head with rfl | ⟨q, ⟨data', get'', next⟩, path⟩
    · exact .inl (Option.some.inj (get'.symm.trans get))
    · obtain rfl := Option.some.inj (get.symm.trans get'')
      exact .inr ⟨q, next, s, path, get'⟩
  · rintro (rfl | ⟨q, next, s, path, get'⟩)
    · exact ⟨scope, .refl, get⟩
    · exact ⟨s, .head ⟨start, get, next⟩ path, get'⟩

/-- A lookup that may take more steps than there are older scopes ends. -/
theorem visibleWithin_spec (nested : t.Nested) {steps : Nat} (lt : scope.index < steps) :
    ∃ l, t.visibleWithin config steps scope = some l ∧
      ∀ data, data ∈ l ↔ t.Reaches config scope data := by
  induction steps generalizing scope with
  | zero => exact absurd lt (Nat.not_lt_zero _)
  | succ steps ih =>
    unfold visibleWithin
    cases get : t.get? scope with
    | none => exact ⟨[], rfl, fun data => iff_of_false List.not_mem_nil (not_reaches get)⟩
    | some start =>
      simp only [reaches_iff get]
      cases next : start.next? config with
      | none => exact ⟨[start], rfl, fun data => by simp⟩
      | some parent =>
        -- the next scope is older, and one step less is enough for it
        have older := nested get (parent_eq_of_next?_eq next)
        obtain ⟨l, hl, reached⟩ := @ih parent (by omega)
        refine ⟨start :: l, by simp [hl], fun data => ?_⟩
        simp [reached]

theorem visible?_spec (nested : t.Nested) (config : LookupConfig) (scope : ScopeId) :
    ∃ l, t.visible? config scope = some l ∧ ∀ data, data ∈ l ↔ t.Reaches config scope data := by
  by_cases lt : scope.index < t.size + 1
  · exact visibleWithin_spec nested lt
  · have absent : t.get? scope = none := List.getElem?_eq_none (by
      simp only [size] at lt
      omega)
    refine ⟨[], ?_, fun data => iff_of_false List.not_mem_nil (not_reaches absent)⟩
    rw [visible?, visibleWithin, absent]

/-- A lookup has an answer: the declarations that are listed under the name in the scopes that it
reaches. -/
theorem lookup_spec (nested : t.Nested) (scope : ScopeId) (name : Name) (config : LookupConfig) :
    ∃ found, t.lookup scope name config = .ok found ∧
      ∀ id, id ∈ found ↔ t.Shows config scope name id := by
  obtain ⟨l, hl, reached⟩ := visible?_spec nested config scope
  refine ⟨l.flatMap (·.declared name config), ?_, fun id => ?_⟩
  · rw [lookup, lookup?, hl]
    rfl
  · simp only [List.mem_flatMap, reached, ScopeData.declared, List.mem_map, List.mem_filter,
      Bool.and_eq_true, decide_eq_true_eq]
    constructor
    · rintro ⟨data, reaches, entry, ⟨mem, same, admits⟩, eq⟩
      exact ⟨data, entry, reaches, mem, same, admits, eq⟩
    · rintro ⟨data, entry, reaches, mem, same, admits, eq⟩
      exact ⟨data, reaches, entry, ⟨mem, same, admits⟩, eq⟩

end ScopeTree

end MethodSynthesis
