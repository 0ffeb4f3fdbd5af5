import MethodSynthesis.Proofs.Building

/-!
# Types as trees

A pool compares types one level deep, by the handles of their parts. Unfolded all the way down, with
names replaced by their strings, a type becomes a tree (`TypePool.tree`). Two types that clients get
from a pool, at whatever times, are the same type exactly when their trees are equal
(`eq_iff_tree_eq`).

The argument has two halves. Later names and types change nothing in the tree of an earlier type
(`Extends.tree_eq`), because a stored type has all its parts and names in the tables. In one pair of
tables distinct types have distinct trees (`Invariant.tree_injective`), by induction along the pool:
where all parts and names are told apart by their trees and strings, so are the structures.
-/

set_option autoImplicit false

namespace MethodSynthesis

/-- What a type is all the way down. A name is given by its string, if the table has it. -/
inductive TypeTree where
  | unknown
  | primitive (p : Primitive)
  | composite (kind : CompositeKind) (decl : DeclId) (name : Option String)
      (instantiatedFrom : Option TypeTree) (substitutions : List (Option String × TypeTree))
      (parent : Option TypeTree)
  | decorated (basic : TypeTree) (decorator : Decorator)
  | tuple (elements : List TypeTree)
  | array (domain element : TypeTree)
  | rectangular (rank : Nat) (index : TypeTree) (strided : Bool)
  | associative (index : TypeTree) (parSafe : Bool)
  | cPtr (element : TypeTree)
  | enumeration (decl : DeclId) (name : Option String)
      (constants : List (Option String × Option Int))

namespace TypeData

/-- The tree of a structure, from the strings of its names and the trees of its parts. -/
def tree (text? : Name → Option String) (part : TypeId → TypeTree) : TypeData → TypeTree
  | .primitive p => .primitive p
  | .composite c =>
    .composite c.kind c.decl (text? c.name) (c.instantiatedFrom.map part)
      (c.substitutions.map fun s => (text? s.1, part s.2)) (c.parent.map part)
  | .decorated basic decorator => .decorated (part basic) decorator
  | .tuple elements => .tuple (elements.map part)
  | .array domain element => .array (part domain) (part element)
  | .rectangular rank index strided => .rectangular rank (part index) strided
  | .associative index parSafe => .associative (part index) parSafe
  | .cPtr element => .cPtr (part element)
  | .enumeration e =>
    .enumeration e.decl (text? e.name) (e.constants.map fun c => (text? c.name, c.value))

end TypeData

/-- The tree of a type. -/
def TypePool.tree (pool : TypePool) (names : NameTable) : TypeId → TypeTree :=
  pool.fold (fun _ => .unknown) fun _ data part => data.tree names.text? part

theorem TypePool.tree_unknown (pool : TypePool) (names : NameTable) :
    pool.tree names .unknown = .unknown :=
  pool.fold_unknown

/-! ## Trees of structures -/

theorem eq_of_map_eq {α β : Type} {f : α → β} {l l' : List α}
    (inj : ∀ a ∈ l, ∀ b ∈ l', f a = f b → a = b) (h : l.map f = l'.map f) : l = l' := by
  induction l generalizing l' with
  | nil => exact (List.map_eq_nil_iff.1 h.symm).symm
  | cons a l ih =>
    cases l' with
    | nil => exact nomatch h
    | cons b l' =>
      obtain ⟨head, tail⟩ := List.cons.inj h
      have rest := ih (fun a ha b hb => inj a (.tail _ ha) b (.tail _ hb)) tail
      rw [inj a List.mem_cons_self b List.mem_cons_self head, rest]

theorem eq_of_option_map_eq {α β : Type} {f : α → β} {o o' : Option α}
    (inj : ∀ a ∈ o, ∀ b ∈ o', f a = f b → a = b) (h : o.map f = o'.map f) : o = o' := by
  cases o with
  | none => exact (Option.map_eq_none_iff.1 h.symm).symm
  | some a =>
    cases o' with
    | none => exact nomatch h
    | some b => rw [inj a rfl b rfl (Option.some.inj h)]

namespace TypeData

variable {text? text?' : Name → Option String} {part part' : TypeId → TypeTree}

/-- The tree of a structure depends on its names and parts alone. -/
theorem tree_congr {data : TypeData} (names : ∀ n ∈ data.names, text? n = text?' n)
    (parts : ∀ ty ∈ data.components, part ty = part' ty) :
    data.tree text? part = data.tree text?' part' := by
  cases data with
  | primitive p => rfl
  | composite c =>
    simp only [TypeData.names, List.mem_cons, List.mem_map, components, List.mem_append,
      Option.mem_toList] at names parts
    simp only [tree, TypeTree.composite.injEq, true_and]
    refine ⟨names _ (.inl rfl), ?_, ?_, ?_⟩
    · exact Option.map_congr fun ty mem => parts ty (.inl (.inl mem))
    · refine List.map_congr_left ?_
      intro s mem
      rw [names s.1 (.inr ⟨s, mem, rfl⟩), parts s.2 (.inl (.inr ⟨s, mem, rfl⟩))]
    · exact Option.map_congr fun ty mem => parts ty (.inr mem)
  | decorated basic decorator => rw [tree, tree, parts basic (by simp [components])]
  | tuple elements => exact congrArg TypeTree.tuple (List.map_congr_left parts)
  | array domain element =>
    rw [tree, tree, parts domain (by simp [components]), parts element (by simp [components])]
  | rectangular rank index strided => rw [tree, tree, parts index (by simp [components])]
  | associative index parSafe => rw [tree, tree, parts index (by simp [components])]
  | cPtr element => rw [tree, tree, parts element (by simp [components])]
  | enumeration e =>
    simp only [TypeData.names, List.mem_cons, List.mem_map] at names
    simp only [tree, TypeTree.enumeration.injEq, true_and]
    refine ⟨names _ (.inl rfl), List.map_congr_left ?_⟩
    intro c mem
    rw [names c.name (.inr ⟨c, mem, rfl⟩)]

theorem tree_ne_unknown (data : TypeData) : data.tree text? part ≠ .unknown := by
  cases data <;> exact TypeTree.noConfusion

/-- Structures are told apart by their trees when their names and parts are. -/
theorem eq_of_tree_eq {data data' : TypeData}
    (names : ∀ a ∈ data.names, ∀ b ∈ data'.names, text? a = text? b → a = b)
    (parts : ∀ a ∈ data.components, ∀ b ∈ data'.components, part a = part b → a = b)
    (h : data.tree text? part = data'.tree text? part) : data = data' := by
  -- a tree shows which structure it is of, so both are of one constructor
  cases data with
  | primitive p =>
    cases data' with
    | primitive p' => rw [TypeTree.primitive.inj h]
    | _ => cases h
  | composite c =>
    cases data' with
    | composite c' =>
      obtain ⟨kind, decl, name, from?, substitutions, parent⟩ := c
      obtain ⟨kind', decl', name', from?', substitutions', parent'⟩ := c'
      obtain ⟨rfl, rfl, hname, hfrom, hsubst, hparent⟩ := TypeTree.composite.inj h
      simp only [TypeData.names, List.mem_cons, List.mem_map, components, List.mem_append,
        Option.mem_toList] at names parts
      obtain rfl : name = name' := names _ (.inl rfl) _ (.inl rfl) hname
      obtain rfl : from? = from?' := eq_of_option_map_eq
        (fun a ha b hb => parts a (.inl (.inl ha)) b (.inl (.inl hb))) hfrom
      obtain rfl : parent = parent' := eq_of_option_map_eq
        (fun a ha b hb => parts a (.inr ha) b (.inr hb)) hparent
      obtain rfl : substitutions = substitutions' := by
        refine eq_of_map_eq ?_ hsubst
        rintro ⟨a, ty⟩ ha ⟨b, ty'⟩ hb same
        obtain ⟨text, sub⟩ := Prod.mk.inj same
        rw [names a (.inr ⟨_, ha, rfl⟩) b (.inr ⟨_, hb, rfl⟩) text,
          parts ty (.inl (.inr ⟨_, ha, rfl⟩)) ty' (.inl (.inr ⟨_, hb, rfl⟩)) sub]
      rfl
    | _ => cases h
  | decorated basic decorator =>
    cases data' with
    | decorated basic' decorator' =>
      obtain ⟨same, rfl⟩ := TypeTree.decorated.inj h
      rw [parts basic List.mem_cons_self basic' List.mem_cons_self same]
    | _ => cases h
  | tuple elements =>
    cases data' with
    | tuple elements' => exact congrArg tuple (eq_of_map_eq parts (TypeTree.tuple.inj h))
    | _ => cases h
  | array domain element =>
    cases data' with
    | array domain' element' =>
      obtain ⟨same, same'⟩ := TypeTree.array.inj h
      rw [parts domain (by simp [components]) domain' (by simp [components]) same,
        parts element (by simp [components]) element' (by simp [components]) same']
    | _ => cases h
  | rectangular rank index strided =>
    cases data' with
    | rectangular rank' index' strided' =>
      obtain ⟨rfl, same, rfl⟩ := TypeTree.rectangular.inj h
      rw [parts index List.mem_cons_self index' List.mem_cons_self same]
    | _ => cases h
  | associative index parSafe =>
    cases data' with
    | associative index' parSafe' =>
      obtain ⟨same, rfl⟩ := TypeTree.associative.inj h
      rw [parts index List.mem_cons_self index' List.mem_cons_self same]
    | _ => cases h
  | cPtr element =>
    cases data' with
    | cPtr element' =>
      rw [parts element List.mem_cons_self element' List.mem_cons_self (TypeTree.cPtr.inj h)]
    | _ => cases h
  | enumeration e =>
    cases data' with
    | enumeration e' =>
      obtain ⟨decl, name, constants⟩ := e
      obtain ⟨decl', name', constants'⟩ := e'
      obtain ⟨rfl, hname, hconst⟩ := TypeTree.enumeration.inj h
      simp only [TypeData.names, List.mem_cons, List.mem_map] at names
      obtain rfl : name = name' := names _ (.inl rfl) _ (.inl rfl) hname
      obtain rfl : constants = constants' := by
        refine eq_of_map_eq ?_ hconst
        rintro ⟨a, value⟩ ha ⟨b, value'⟩ hb same
        obtain ⟨text, rfl⟩ := Prod.mk.inj same
        rw [names a (.inr ⟨_, ha, rfl⟩) b (.inr ⟨_, hb, rfl⟩) text]
      rfl
    | _ => cases h

end TypeData

namespace TypePool

variable {pool : TypePool}

/-- The tree of a type unfolds to its structure, with the trees of its parts. -/
theorem WellFormed.tree_eq (wf : pool.WellFormed) (names : NameTable) {ty : TypeId}
    {data : TypeData} (h : pool.read? ty = some data) :
    pool.tree names ty = data.tree names.text? (pool.tree names) :=
  wf.fold_eq h fun _ _ parts => TypeData.tree_congr (fun _ _ => rfl) parts

end TypePool

/-! ## Clients of the two tables -/

/-- A table of names, a pool over it, and the types that calls on the pool have returned. -/
structure TypeTables where
  names : NameTable
  types : TypePool
  returned : List TypeId

namespace TypeTables

/-- Nothing is interned yet. -/
def start (shards : Sharding) : TypeTables := ⟨.empty shards.names, .empty shards.types, []⟩

/-- The types that a client can have: the unknown type, the primitive types, and those returned. -/
def Has (s : TypeTables) (ty : TypeId) : Prop :=
  ty = .unknown ∨ (∃ p, ty = .primitive p) ∨ ty ∈ s.returned

/-- A client interns a string, or makes a type of names and types that it has. -/
inductive Step : TypeTables → TypeTables → Prop
  | name (s : TypeTables) (text : String) : Step s { s with names := (s.names.intern text).2 }
  | type {s : TypeTables} (call : TypeCall) (ty : TypeId) (types : TypePool) :
      (∀ arg ∈ call.arguments, s.Has arg) → (∀ n ∈ call.names, (s.names.text? n).isSome) →
        call.run s.types = .ok (some (ty, types)) → Step s ⟨s.names, types, ty :: s.returned⟩

/-- Any number of steps. -/
def Reaches : TypeTables → TypeTables → Prop := Relation.ReflTransGen Step

/-- The tree of a type at this time. -/
def tree (s : TypeTables) : TypeId → TypeTree := s.types.tree s.names

/-- The invariant of the tables: what is stored or returned has its names and parts in them. -/
structure Invariant (s : TypeTables) : Prop where
  names : s.names.table.WellFormed
  types : s.types.Sound
  named : ∀ {ty data}, s.types.read? ty = some data → ∀ n ∈ data.names, (s.names.text? n).isSome
  returned : ∀ ty ∈ s.returned, s.types.Admits ty

/-- The tables of `t` have everything that those of `s` have. -/
structure Extends (s t : TypeTables) : Prop where
  names : s.names.table.Extends t.names.table
  types : s.types.Extends t.types

variable {s t : TypeTables}

theorem invariant_start (shards : Sharding) : (start shards).Invariant where
  names := InternTable.wellFormed_pinned (by decide)
  types := .empty _
  named := by
    intro ty data h n mem
    -- a primitive type has no names
    obtain ⟨p, rfl⟩ := TypePool.read?_empty h
    exact nomatch mem
  returned _ mem := nomatch mem

theorem text?_extends (wf : s.names.table.WellFormed) (wf' : t.names.table.WellFormed)
    (ext : s.names.table.Extends t.names.table) {n : Name} (has : (s.names.text? n).isSome) :
    s.names.text? n = t.names.text? n := by
  obtain ⟨text, eq⟩ := Option.isSome_iff_exists.1 has
  have later : t.names.text? n = some text := ext.get? wf wf' eq
  rw [eq, later]

theorem Step.extends (step : Step s t) : s.Extends t := by
  cases step with
  | name text => exact ⟨s.names.table.extends_intern text, .refl _⟩
  | type _ _ _ _ _ eq => exact ⟨.refl _, TypePool.extends_call eq⟩

namespace Invariant

theorem admits (inv : s.Invariant) {ty : TypeId} (has : s.Has ty) : s.types.Admits ty := by
  rcases has with rfl | ⟨p, rfl⟩ | returned
  · exact .inl rfl
  · exact .inr ⟨_, inv.types.wellFormed.primitives p⟩
  · exact inv.returned ty returned

/-- One step keeps the invariant. -/
theorem step (inv : s.Invariant) (step : Step s t) : t.Invariant := by
  have ext := step.extends
  cases step with
  | name text =>
    have names : (s.names.table.intern text).2.WellFormed := inv.names.intern text
    refine ⟨names, inv.types, ?_, inv.returned⟩
    intro ty data h n mem
    have has := inv.named h n mem
    rwa [text?_extends inv.names names ext.names has] at has
  | type call ty types args named eq =>
    have sound := inv.types.call (fun arg mem => inv.admits (args arg mem)) eq
    have table := inv.types.wellFormed.table
    refine ⟨inv.names, sound, ?_, ?_⟩
    · intro ty' found h n mem
      rcases TypePool.run_cases eq with ⟨rfl, -⟩ | ⟨data, made, -, fresh⟩
      · exact inv.named h n mem
      obtain rfl : _ = types := congrArg (·.2) made
      rcases TypePool.read?_intern_cases table h with rfl | old
      · rcases fresh n mem with given | ⟨generic, base, stored, mem⟩
        · exact named n given
        · exact inv.named stored n mem
      · exact inv.named old n mem
    · intro ty' mem
      rcases List.mem_cons.1 mem with rfl | mem
      · rcases TypePool.run_cases eq with ⟨rfl, data, h⟩ | ⟨data, made, -, -⟩
        · exact .inr ⟨data, h⟩
        · have stored := TypePool.read?_intern table data
          rw [made] at stored
          exact .inr ⟨data, stored⟩
      · exact ext.types.admits table sound.wellFormed.table (inv.returned ty' mem)

end Invariant

/-- A run keeps the invariant, and what the tables have. -/
theorem Reaches.invariant (reaches : Reaches s t) (inv : s.Invariant) :
    t.Invariant ∧ s.Extends t := by
  induction reaches with
  | refl => exact ⟨inv, .refl _, .refl _⟩
  | tail _ step ih =>
    obtain ⟨inv, ext⟩ := ih
    have more := step.extends
    exact ⟨inv.step step, ext.names.trans more.names, ext.types.trans more.types⟩

/-! ## Trees over time -/

theorem tree_unknown (s : TypeTables) : s.tree .unknown = .unknown :=
  s.types.tree_unknown s.names

theorem Invariant.tree_eq (inv : s.Invariant) {ty : TypeId} {data : TypeData}
    (h : s.types.read? ty = some data) : s.tree ty = data.tree s.names.text? s.tree :=
  inv.types.wellFormed.tree_eq s.names h

/-- What is interned later leaves the trees of earlier types. -/
theorem Extends.tree_eq (ext : s.Extends t) (inv : s.Invariant) (inv' : t.Invariant) {ty : TypeId}
    (admitted : s.types.Admits ty) : s.tree ty = t.tree ty := by
  -- along the earlier pool: names keep their strings and, by induction, parts their trees
  refine inv.types.wellFormed.induction (motive := fun ty => s.tree ty = t.tree ty) ?_ ?_ admitted
  · rw [tree_unknown, tree_unknown]
  · intro ty data h ih
    have later := ext.types.read? inv.types.wellFormed.table inv'.types.wellFormed.table h
    rw [inv.tree_eq h, inv'.tree_eq later]
    refine TypeData.tree_congr ?_ ih
    intro n mem
    exact text?_extends inv.names inv'.names ext.names (inv.named h n mem)

/-- In the same tables, a type is the only one with its tree. -/
theorem Invariant.tree_injective (inv : s.Invariant) {ty : TypeId}
    (admitted : s.types.Admits ty) :
    ∀ ty', s.types.Admits ty' → s.tree ty = s.tree ty' → ty = ty' := by
  have wf := inv.types.wellFormed
  refine wf.induction (motive := fun ty =>
    ∀ ty', s.types.Admits ty' → s.tree ty = s.tree ty' → ty = ty') ?_ ?_ admitted
  · rintro ty' (rfl | ⟨data', h'⟩) h
    · rfl
    · rw [tree_unknown, inv.tree_eq h'] at h
      exact absurd h.symm data'.tree_ne_unknown
  · rintro ty data stored ih ty' (rfl | ⟨data', stored'⟩) h
    · rw [tree_unknown, inv.tree_eq stored] at h
      exact absurd h data.tree_ne_unknown
    · rw [inv.tree_eq stored, inv.tree_eq stored'] at h
      obtain rfl : data = data' := by
        refine TypeData.eq_of_tree_eq ?_ ?_ h
        · intro a ha b hb same
          obtain ⟨text, eq⟩ := Option.isSome_iff_exists.1 (inv.named stored a ha)
          have handles := (InternTable.intern_of_get? inv.names eq).symm.trans
            (InternTable.intern_of_get? inv.names (same.symm.trans eq))
          exact congrArg Name.mk (Prod.mk.inj handles).1
        · intro a ha b hb same
          exact ih a ha b (wf.admits_part stored' hb) same
      exact TypePool.eq_of_read? wf.table stored stored'

/-- Types that clients have, at two times of a run, are equal exactly when their trees are. -/
theorem eq_iff_tree_eq {shards : Sharding} (reached : Reaches (start shards) s)
    (later : Reaches s t) {ty ty' : TypeId} (has : s.Has ty) (has' : t.Has ty') :
    ty = ty' ↔ s.tree ty = t.tree ty' := by
  obtain ⟨inv, -⟩ := reached.invariant (invariant_start shards)
  obtain ⟨inv', ext⟩ := later.invariant inv
  have admitted := inv.admits has
  rw [ext.tree_eq inv inv' admitted]
  constructor
  · exact congrArg t.tree
  · have kept := ext.types.admits inv.types.wellFormed.table inv'.types.wellFormed.table admitted
    exact inv'.tree_injective kept ty' (inv'.admits has')

/-- The tables with the name of a record. -/
def oneName : TypeTables :=
  { start .bySize with names := ((start .bySize).names.intern "Box").2 }

/-- The tables with the record. -/
def oneRecord : TypeTables where
  names := oneName.names
  types := (oneName.types.record (.at 0) ⟨⟨4, 0⟩⟩).2
  returned := [.known ⟨1, 0⟩]

/-- The tables with pairs of that record as well. -/
def recordPairs : TypeTables where
  names := oneRecord.names
  types := (oneRecord.types.tuple [.known ⟨1, 0⟩, .known ⟨1, 0⟩]).2
  returned := [.known ⟨3, 0⟩, .known ⟨1, 0⟩]

/-- The record and the pairs of it are made in turn, and their trees differ. -/
theorem recordPairs_tree_ne : Reaches (start .bySize) oneRecord ∧ Reaches oneRecord recordPairs ∧
    oneRecord.Has (.known ⟨1, 0⟩) ∧ recordPairs.Has (.known ⟨3, 0⟩) ∧
      ¬ oneRecord.tree (.known ⟨1, 0⟩) = recordPairs.tree (.known ⟨3, 0⟩) := by
  have record : Step oneName oneRecord :=
    .type (.record (.at 0) ⟨⟨4, 0⟩⟩) _ _ (fun _ mem => nomatch mem) (by decide +kernel) rfl
  have reached : Reaches (start .bySize) oneRecord := .tail (.single (.name _ "Box")) record
  have has : oneRecord.Has (.known ⟨1, 0⟩) := .inr (.inr List.mem_cons_self)
  have pairs : Step oneRecord recordPairs := by
    refine .type (.tuple [.known ⟨1, 0⟩, .known ⟨1, 0⟩]) _ _ ?_ (fun _ mem => nomatch mem) rfl
    intro arg mem
    obtain rfl : arg = .known ⟨1, 0⟩ := by simpa [TypeCall.arguments] using mem
    exact has
  have has' : recordPairs.Has (.known ⟨3, 0⟩) := .inr (.inr List.mem_cons_self)
  refine ⟨reached, .single pairs, has, has', ?_⟩
  rw [← eq_iff_tree_eq reached (.single pairs) has has']
  decide

end TypeTables

end MethodSynthesis
