import MethodSynthesis.Types.Pool
import MethodSynthesis.Proofs.Answers
import MethodSynthesis.Proofs.InternTables

/-!
# Pools of types as programs make them

`TypePool.Interned` holds of the pools in which every structure was stored over types that the pool
had at that time, or the unknown type. Such a pool is well formed: the parts of a stored type are
stored before it. A recursion over the structure of types (`TypePool.fold`) then unfolds to its step,
with the results for the parts at hand (`WellFormed.fold_eq`), and a property of all types that holds
of a type when it holds of its parts holds throughout (`WellFormed.induction`).

A call of an operation that makes a type is a value of `TypeCall`, and `TypePool.Built` holds of the
pools that a sequence of such calls leads to. In these pools, moreover, a decorated type is a class,
and an instantiation agrees with the generic type that it came from (`Built.sound`).
-/

set_option autoImplicit false

namespace MethodSynthesis

/-- A call of one of the operations that make a type. -/
inductive TypeCall where
  | record (decl : DeclId) (name : Name)
  | basicClass (decl : DeclId) (name : Name) (parent : Option TypeId)
  | union (decl : DeclId) (name : Name)
  | instantiate (generic : TypeId) (substitutions : List (Name × TypeId))
  | decorate (ty : TypeId) (decorator : Decorator)
  | tuple (elements : List TypeId)
  | array (domain element : TypeId)
  | rectangular (rank : Nat) (index : TypeId) (strided : Bool)
  | associative (index : TypeId) (parSafe : Bool)
  | cPtr (element : TypeId)
  | enumeration (decl : DeclId) (name : Name) (constants : List EnumConstant)

namespace TypeCall

/-- The types that a call is applied to. -/
def arguments : TypeCall → List TypeId
  | .record _ _ | .union _ _ | .enumeration _ _ _ => []
  | .basicClass _ _ parent => parent.toList
  | .instantiate generic substitutions => generic :: substitutions.map (·.2)
  | .decorate ty _ => [ty]
  | .tuple elements => elements
  | .array domain element => [domain, element]
  | .rectangular _ index _ | .associative index _ => [index]
  | .cPtr element => [element]

/-- The type that a call makes, with the pool that has it. -/
def run (pool : TypePool) : TypeCall → Except Fault (Option (TypeId × TypePool))
  | .record decl name => return some (pool.record decl name)
  | .basicClass decl name parent => return some (pool.basicClass decl name parent)
  | .union decl name => return some (pool.union decl name)
  | .instantiate generic substitutions => pool.instantiate generic substitutions
  | .decorate ty decorator => return some (← pool.decorate ty decorator)
  | .tuple elements => return some (pool.tuple elements)
  | .array domain element => return some (pool.array domain element)
  | .rectangular rank index strided => return some (pool.rectangular rank index strided)
  | .associative index parSafe => return some (pool.associative index parSafe)
  | .cPtr element => return some (pool.cPtr element)
  | .enumeration decl name constants => return some (pool.enumeration decl name constants)

end TypeCall

/-- The undecorated class behind a type of the given structure. -/
def TypeData.basicClass? (ty : TypeId) : TypeData → Option TypeId
  | .decorated basic _ => some basic
  | .composite c => if c.kind = .classType then some ty else none
  | _ => none

/-- The fields' side of a structure. -/
def TypeData.composite? : TypeData → Option Composite
  | .composite c => some c
  | _ => none

/-- A composite without what its instantiation added. -/
def Composite.uninstantiated (c : Composite) : Composite :=
  { c with instantiatedFrom := none, substitutions := [] }

namespace TypePool

variable {pool pool' : TypePool}

/-- The unknown type, and the types that the pool has. -/
def Admits (pool : TypePool) (ty : TypeId) : Prop :=
  ty = .unknown ∨ ∃ data, pool.read? ty = some data

instance (pool : TypePool) (ty : TypeId) : Decidable (pool.Admits ty) :=
  decidable_of_iff (ty = .unknown ∨ (pool.read? ty).isSome = true)
    (or_congr_right Option.isSome_iff_exists)

/-- The pools that are made by storing structures, each over types that the pool admits then. -/
inductive Interned : TypePool → Prop
  | empty (shardOf : TypeData → Fin 16) : Interned (.empty shardOf)
  | intern {pool : TypePool} (data : TypeData) :
      Interned pool → (∀ part ∈ data.components, pool.Admits part) →
        Interned (pool.intern data).2

/-- The pools that calls lead to, each applied to types that the pool admits then. -/
inductive Built : TypePool → Prop
  | empty (shardOf : TypeData → Fin 16) : Built (.empty shardOf)
  | step {pool pool' : TypePool} {call : TypeCall} {ty : TypeId} :
      Built pool → (∀ arg ∈ call.arguments, pool.Admits arg) →
        call.run pool = .ok (some (ty, pool')) → Built pool'

/-- A decorated type is a class, and an instantiation has its generic type in the pool. -/
def Coherent (pool : TypePool) : TypeData → Prop
  | .decorated basic _ => ∃ c, pool.read? basic = some (.composite c) ∧ c.kind = .classType
  | .composite c =>
    (c.instantiatedFrom = none → c.substitutions = []) ∧
      ∀ root, c.instantiatedFrom = some root → pool.read? root = some (.composite c.uninstantiated)
  | _ => True

/-- The invariant of all pools. -/
structure WellFormed (pool : TypePool) : Prop where
  table : pool.table.WellFormed
  primitives : ∀ p, pool.read? (.primitive p) = some (.primitive p)
  /-- The parts of a type are stored before the type. -/
  parts : ∀ {e older}, e :: older <:+ pool.table.entries → ∀ part ∈ e.value.components,
    part = .unknown ∨ part ∈ older.map fun e => TypeId.known e.handle

/-- The invariant of the pools that calls lead to. -/
structure Sound (pool : TypePool) : Prop where
  interned : pool.Interned
  coherent : ∀ {ty data}, pool.read? ty = some data → pool.Coherent data

/-- `pool'` has the types of `pool` and possibly newer ones. -/
def Extends (pool pool' : TypePool) : Prop := pool.table.Extends pool'.table

/-! ## Reading a type -/

theorem read?_known_eq_some_iff (wf : pool.table.WellFormed) {h : Handle} {data : TypeData} :
    pool.read? (.known h) = some data ↔ ⟨h, data⟩ ∈ pool.table.entries :=
  InternTable.get?_eq_some_iff wf

theorem read_eq_ok_iff {ty : TypeId} {data : TypeData} :
    pool.read ty = .ok data ↔ pool.read? ty = some data := by
  cases h : pool.read? ty with
  | some found => simp [read, h]
  | none => simp [read, h]

theorem admits_of_read? {ty : TypeId} {data : TypeData} (h : pool.read? ty = some data) :
    pool.Admits ty :=
  .inr ⟨data, h⟩

theorem admits_iff_mem (wf : pool.table.WellFormed) {ty : TypeId} :
    pool.Admits ty ↔
      ty = .unknown ∨ ty ∈ pool.table.entries.map fun e => TypeId.known e.handle := by
  refine or_congr_right ⟨?_, ?_⟩
  · rintro ⟨data, h⟩
    cases ty with
    | unknown => exact nomatch h
    | known handle => exact List.mem_map.2 ⟨_, (read?_known_eq_some_iff wf).1 h, rfl⟩
  · intro mem
    obtain ⟨e, he, rfl⟩ := List.mem_map.1 mem
    exact ⟨e.value, (read?_known_eq_some_iff wf).2 he⟩

theorem mem_composites_iff (wf : pool.table.WellFormed) {ty : TypeId} :
    ty ∈ pool.composites ↔ ∃ c, pool.read? ty = some (.composite c) := by
  rw [composites, List.mem_filterMap]
  constructor
  · rintro ⟨⟨handle, data⟩, he, eq⟩
    cases data with
    | composite c =>
      obtain rfl : TypeId.known handle = ty := by simpa using eq
      exact ⟨c, (read?_known_eq_some_iff wf).2 he⟩
    | _ => simp at eq
  · rintro ⟨c, h⟩
    cases ty with
    | unknown => exact nomatch h
    | known handle => exact ⟨_, (read?_known_eq_some_iff wf).1 h, rfl⟩

theorem nodup_composites (wf : pool.table.WellFormed) : pool.composites.Nodup := by
  have apart := List.pairwise_map.1 wf.handles_nodup
  -- distinct entries have distinct handles, and a type is named by its handle
  refine List.pairwise_filterMap.2 (apart.imp fun {e e'} ne ty hty ty' hty' same => ne ?_)
  have handle : ∀ {e : InternTable.Entry TypeData} {ty : TypeId},
      (match e.value with
        | .composite _ => some (TypeId.known e.handle)
        | _ => none) = some ty → ty = .known e.handle := by
    intro e ty h
    split at h
    · exact (Option.some.inj h).symm
    · exact nomatch h
  exact TypeId.known.inj ((handle hty).symm.trans (same.trans (handle hty')))

/-- A walk that enters a composite has fewer left to enter. -/
theorem length_erase_lt {unvisited : List TypeId} {ty : TypeId} (mem : ty ∈ unvisited) :
    (unvisited.erase ty).length < unvisited.length := by
  have length := List.length_erase_add_one mem
  omega

/-! ## Growth of a pool -/

theorem Extends.refl (pool : TypePool) : pool.Extends pool := InternTable.Extends.refl _

theorem Extends.trans {pool'' : TypePool} (h : pool.Extends pool') (h' : pool'.Extends pool'') :
    pool.Extends pool'' :=
  InternTable.Extends.trans h h'

theorem extends_intern (pool : TypePool) (data : TypeData) : pool.Extends (pool.intern data).2 :=
  InternTable.extends_intern pool.table data

section Growth

variable (ext : pool.Extends pool') (wf : pool.table.WellFormed) (wf' : pool'.table.WellFormed)

include ext wf wf'

theorem Extends.read? {ty : TypeId} {data : TypeData} (h : pool.read? ty = some data) :
    pool'.read? ty = some data := by
  cases ty with
  | unknown => exact nomatch h
  | known handle => exact InternTable.Extends.get? ext wf wf' h

theorem Extends.admits {ty : TypeId} (h : pool.Admits ty) : pool'.Admits ty :=
  h.imp_right fun ⟨data, h⟩ => ⟨data, ext.read? wf wf' h⟩

theorem Extends.coherent {data : TypeData} (h : pool.Coherent data) : pool'.Coherent data := by
  cases data with
  | decorated basic decorator =>
    obtain ⟨c, hc, kind⟩ := h
    exact ⟨c, ext.read? wf wf' hc, kind⟩
  | composite c => exact ⟨h.1, fun root from? => ext.read? wf wf' (h.2 root from?)⟩
  | _ => trivial

end Growth

/-! ## The invariant -/

/-- The type that a structure is interned as has that structure. -/
theorem read?_intern (wf : pool.table.WellFormed) (data : TypeData) :
    (pool.intern data).2.read? (pool.intern data).1 = some data :=
  InternTable.get?_intern wf data

theorem intern_of_read? (wf : pool.table.WellFormed) {ty : TypeId} {data : TypeData}
    (h : pool.read? ty = some data) : pool.intern data = (ty, pool) := by
  cases ty with
  | unknown => exact nomatch h
  | known handle => rw [intern, InternTable.intern_of_get? wf h]

/-- One structure is stored as one type. -/
theorem eq_of_read? (wf : pool.table.WellFormed) {ty ty' : TypeId} {data : TypeData}
    (h : pool.read? ty = some data) (h' : pool.read? ty' = some data) : ty = ty' :=
  (Prod.mk.inj ((intern_of_read? wf h).symm.trans (intern_of_read? wf h'))).1

theorem wellFormed_empty (shardOf : TypeData → Fin 16) : (empty shardOf).WellFormed where
  table := InternTable.wellFormed_pinned (by decide)
  primitives := by
    intro p
    cases p <;> rfl
  parts := by
    intro e older suffix part mem
    have he : e ∈ InternTable.pinnedEntries (Primitive.all.map TypeData.primitive) :=
      List.IsSuffix.mem List.mem_cons_self suffix
    have bare : ∀ e ∈ InternTable.pinnedEntries (Primitive.all.map TypeData.primitive),
        e.value.components = [] := by decide
    rw [bare e he] at mem
    exact nomatch mem

/-- At first the primitive types alone are stored. -/
theorem read?_empty {shardOf : TypeData → Fin 16} {ty : TypeId} {data : TypeData}
    (h : (empty shardOf).read? ty = some data) : ∃ p, data = .primitive p := by
  have primitive : ∀ e ∈ (empty shardOf).table.entries, ∃ p, e.value = .primitive p := by
    simp [empty, InternTable.pinned, InternTable.pinnedEntries, Primitive.all, List.zipIdx]
  cases ty with
  | unknown => cases h
  | known handle => exact primitive _ ((read?_known_eq_some_iff (wellFormed_empty shardOf).table).1 h)

/-- A structure whose parts the pool admits can be stored. -/
theorem WellFormed.intern (wf : pool.WellFormed) {data : TypeData}
    (admitted : ∀ part ∈ data.components, pool.Admits part) :
    (pool.intern data).2.WellFormed := by
  have ext := pool.extends_intern data
  have table : (pool.intern data).2.table.WellFormed := wf.table.intern data
  refine ⟨table, fun p => ext.read? wf.table table (wf.primitives p), ?_⟩
  intro e older suffix part mem
  obtain ⟨h, -, eq⟩ | ⟨-, eq⟩ := pool.table.intern_cases data
  · simp only [TypePool.intern, eq] at suffix
    exact wf.parts suffix part mem
  · simp only [TypePool.intern, eq] at suffix
    -- only the suffix that starts with the new entry is new
    rcases List.suffix_cons_iff.1 suffix with same | suffix
    · obtain ⟨rfl, rfl⟩ := List.cons.inj same
      exact (admits_iff_mem wf.table).1 (admitted part mem)
    · exact wf.parts suffix part mem

theorem Interned.wellFormed (interned : pool.Interned) : pool.WellFormed := by
  induction interned with
  | empty shardOf => exact wellFormed_empty shardOf
  | intern data _ admitted ih => exact ih.intern admitted

/-- A part of a stored type is admitted. -/
theorem WellFormed.admits_part (wf : pool.WellFormed) {ty part : TypeId} {data : TypeData}
    (h : pool.read? ty = some data) (mem : part ∈ data.components) : pool.Admits part := by
  cases ty with
  | unknown => exact nomatch h
  | known handle =>
    obtain ⟨newer, older, eq⟩ := List.append_of_mem ((read?_known_eq_some_iff wf.table).1 h)
    have suffix : ⟨handle, data⟩ :: older <:+ pool.table.entries := ⟨newer, eq.symm⟩
    refine (admits_iff_mem wf.table).2 ((wf.parts suffix part mem).imp_right fun mem => ?_)
    rw [eq, List.map_append, List.map_cons]
    exact List.mem_append_right _ (List.mem_cons_of_mem _ mem)

/-! ## Classes and composites -/

theorem composite?_eq_ok {ty : TypeId} {data : TypeData} (h : pool.read? ty = some data) :
    pool.composite? ty = .ok data.composite? := by
  rw [composite?, read_eq_ok_iff.2 h]
  rfl

theorem composite?_eq_ok_some_iff {ty : TypeId} {c : Composite} :
    pool.composite? ty = .ok (some c) ↔ pool.read? ty = some (.composite c) := by
  rw [composite?, bind_eq_ok]
  constructor
  · rintro ⟨data, hdata, eq⟩
    cases data with
    | composite c' =>
      obtain rfl : c' = c := by simpa using eq
      exact read_eq_ok_iff.1 hdata
    | _ => simp at eq
  · intro h
    exact ⟨_, read_eq_ok_iff.2 h, rfl⟩

theorem genericRoot_eq_ok {ty : TypeId} {c : Composite}
    (h : pool.read? ty = some (.composite c)) :
    pool.genericRoot ty = .ok (c.instantiatedFrom.getD ty) := by
  rw [genericRoot, read_eq_ok_iff.2 h]
  rfl

theorem basicClass?_eq_ok {ty : TypeId} {data : TypeData} (h : pool.read? ty = some data) :
    pool.basicClass? ty = .ok (data.basicClass? ty) := by
  rw [basicClass?, read_eq_ok_iff.2 h]
  rfl

theorem undecorated_eq_ok {ty : TypeId} {data : TypeData} (h : pool.read? ty = some data) :
    pool.undecorated ty = .ok ((data.basicClass? ty).getD ty) := by
  rw [undecorated, basicClass?_eq_ok h]
  rfl

theorem compositeOf?_eq_ok {ty : TypeId} {c : Composite}
    (h : pool.read? ty = some (.composite c)) : pool.compositeOf? ty = .ok (some c) := by
  rw [compositeOf?, undecorated_eq_ok h]
  by_cases kind : c.kind = .classType
  · simpa [TypeData.basicClass?, kind] using composite?_eq_ok_some_iff.2 h
  · simpa [TypeData.basicClass?, kind] using composite?_eq_ok_some_iff.2 h

theorem undecorated_eq_ok_iff {ty basic : TypeId} : pool.undecorated ty = .ok basic ↔
    ∃ data, pool.read? ty = some data ∧ (data.basicClass? ty).getD ty = basic := by
  constructor
  · intro h
    obtain ⟨class?, hclass, -⟩ := bind_eq_ok.1 h
    obtain ⟨data, hdata, -⟩ := bind_eq_ok.1 hclass
    have stored := read_eq_ok_iff.1 hdata
    rw [undecorated_eq_ok stored] at h
    exact ⟨data, stored, Except.ok.inj h⟩
  · rintro ⟨data, stored, rfl⟩
    exact undecorated_eq_ok stored

/-- The undecorated form of a stored type is admitted. -/
theorem WellFormed.admits_undecorated (wf : pool.WellFormed) {ty basic : TypeId}
    (h : pool.undecorated ty = .ok basic) : pool.Admits basic := by
  obtain ⟨data, stored, rfl⟩ := undecorated_eq_ok_iff.1 h
  cases data with
  | decorated basic decorator => exact wf.admits_part stored List.mem_cons_self
  | composite c =>
    by_cases kind : c.kind = .classType
    · simpa [TypeData.basicClass?, kind] using admits_of_read? stored
    · simpa [TypeData.basicClass?, kind] using admits_of_read? stored
  | _ => exact admits_of_read? stored

/-! ## Pools that calls lead to -/

/-- What is read after a structure was stored is that structure, or was there before. -/
theorem read?_intern_cases (wf : pool.table.WellFormed) {data found : TypeData} {ty : TypeId}
    (h : (pool.intern data).2.read? ty = some found) :
    found = data ∨ pool.read? ty = some found := by
  cases ty with
  | unknown => exact nomatch h
  | known handle =>
    have mem := (read?_known_eq_some_iff (wf.intern data)).1 h
    obtain ⟨_, -, eq⟩ | ⟨-, eq⟩ := pool.table.intern_cases data
    · simp only [TypePool.intern, eq] at mem
      exact .inr ((read?_known_eq_some_iff wf).2 mem)
    · simp only [TypePool.intern, eq] at mem
      rcases List.mem_cons.1 mem with same | mem
      · exact .inl (InternTable.Entry.mk.inj same).2
      · exact .inr ((read?_known_eq_some_iff wf).2 mem)

namespace Sound

theorem empty (shardOf : TypeData → Fin 16) : (TypePool.empty shardOf).Sound where
  interned := .empty shardOf
  coherent := by
    intro ty data h
    obtain ⟨p, rfl⟩ := read?_empty h
    trivial

variable (sound : pool.Sound)

include sound

theorem wellFormed : pool.WellFormed := sound.interned.wellFormed

theorem intern {data : TypeData} (admitted : ∀ part ∈ data.components, pool.Admits part)
    (coherent : pool.Coherent data) : (pool.intern data).2.Sound where
  interned := .intern data sound.interned admitted
  coherent := by
    intro ty found h
    have table := sound.wellFormed.table
    have ext := pool.extends_intern data
    rcases read?_intern_cases table h with rfl | h
    · exact ext.coherent table (table.intern _) coherent
    · exact ext.coherent table (table.intern _) (sound.coherent h)

/-- The undecorated class behind a stored type is a class that the pool has. -/
theorem read?_basicClass {ty basic : TypeId} {data : TypeData} (h : pool.read? ty = some data)
    (eq : pool.basicClass? ty = .ok (some basic)) :
    ∃ c, pool.read? basic = some (.composite c) ∧ c.kind = .classType := by
  rw [basicClass?_eq_ok h, Except.ok.injEq] at eq
  cases data with
  | decorated basic' decorator =>
    obtain rfl : basic' = basic := by simpa [TypeData.basicClass?] using eq
    exact sound.coherent h
  | composite c =>
    by_cases kind : c.kind = .classType
    · obtain rfl : ty = basic := by simpa [TypeData.basicClass?, kind] using eq
      exact ⟨c, h, kind⟩
    · simp [TypeData.basicClass?, kind] at eq
  | _ => simp [TypeData.basicClass?] at eq

theorem composite (kind : CompositeKind) (decl : DeclId) (name : Name) {parent : Option TypeId}
    (admitted : ∀ ty ∈ parent, pool.Admits ty) :
    (pool.plainComposite kind decl name parent).2.Sound :=
  sound.intern (fun part mem => admitted part (by simpa [TypeData.components] using mem))
    ⟨fun _ => rfl, fun _ => (nomatch ·)⟩

/-- The generic form of a composite is the composite without its instantiation. -/
theorem read?_generic {ty : TypeId} {c : Composite} (h : pool.read? ty = some (.composite c)) :
    pool.read? (c.instantiatedFrom.getD ty) = some (.composite c.uninstantiated) := by
  have coherent := sound.coherent h
  cases from? : c.instantiatedFrom with
  | none =>
    have plain : c.uninstantiated = c := by
      rw [Composite.uninstantiated, ← from?, ← coherent.1 from?]
    rw [plain]
    exact h
  | some root => exact coherent.2 root from?

theorem instantiate {generic ty : TypeId} {substitutions : List (Name × TypeId)}
    (admitted : ∀ s ∈ substitutions, pool.Admits s.2)
    (eq : pool.instantiate generic substitutions = .ok (some (ty, pool'))) : pool'.Sound := by
  obtain ⟨base, hbase, eq⟩ := bind_eq_ok.1 eq
  cases base with
  | none => simp at eq
  | some base =>
    have stored := composite?_eq_ok_some_iff.1 hbase
    obtain rfl : _ = pool' := congrArg (·.2) (Option.some.inj (Except.ok.inj eq))
    have root := sound.read?_generic stored
    refine sound.intern (fun part mem => ?_) ⟨(nomatch ·), fun _ h => Option.some.inj h ▸ root⟩
    simp only [TypeData.components, Option.toList_some, List.mem_append, List.mem_singleton,
      List.mem_map, Option.mem_toList] at mem
    rcases mem with (rfl | ⟨s, hs, rfl⟩) | parent
    · exact admits_of_read? root
    · exact admitted s hs
    · exact sound.wellFormed.admits_part stored (by simp [TypeData.components, parent])

theorem decorate {ty ty' : TypeId} {decorator : Decorator}
    (eq : pool.decorate ty decorator = .ok (ty', pool')) : pool'.Sound := by
  obtain ⟨basic, hbasic, eq⟩ := bind_eq_ok.1 eq
  cases basic with
  | none =>
    obtain rfl : pool = pool' := congrArg (·.2) (Except.ok.inj eq)
    exact sound
  | some basic =>
    obtain rfl : _ = pool' := congrArg (·.2) (Except.ok.inj eq)
    obtain ⟨data, hdata, -⟩ := bind_eq_ok.1 hbasic
    obtain ⟨c, hc, kind⟩ := sound.read?_basicClass (read_eq_ok_iff.1 hdata) hbasic
    refine sound.intern (fun part mem => ?_) ⟨c, hc, kind⟩
    obtain rfl : part = basic := by simpa [TypeData.components] using mem
    exact admits_of_read? hc

/-- One call keeps a pool sound. -/
theorem call {call : TypeCall} {ty : TypeId} (admitted : ∀ arg ∈ call.arguments, pool.Admits arg)
    (eq : call.run pool = .ok (some (ty, pool'))) : pool'.Sound := by
  cases call with
  | instantiate generic substitutions =>
    refine sound.instantiate (fun s hs => admitted s.2 ?_) eq
    exact List.mem_cons_of_mem _ (List.mem_map_of_mem hs)
  | decorate ty decorator =>
    obtain ⟨made, hmade, eq⟩ := bind_eq_ok.1 eq
    obtain rfl : made = (_, pool') := Option.some.inj (Except.ok.inj eq)
    exact sound.decorate hmade
  | record decl name | union decl name =>
    obtain rfl : _ = pool' := congrArg (·.2) (Option.some.inj (Except.ok.inj eq))
    exact sound.composite _ decl name fun _ h => nomatch h
  | basicClass decl name parent =>
    obtain rfl : _ = pool' := congrArg (·.2) (Option.some.inj (Except.ok.inj eq))
    exact sound.composite .classType decl name fun ty h => admitted ty (Option.mem_toList.2 h)
  | tuple | array | rectangular | associative | cPtr | enumeration =>
    obtain rfl : _ = pool' := congrArg (·.2) (Option.some.inj (Except.ok.inj eq))
    exact sound.intern admitted trivial

end Sound

/-- One call only adds to a pool. -/
theorem extends_call {call : TypeCall} {ty : TypeId}
    (eq : call.run pool = .ok (some (ty, pool'))) : pool.Extends pool' := by
  cases call with
  | instantiate generic substitutions =>
    obtain ⟨base, -, eq⟩ := bind_eq_ok.1 eq
    obtain ⟨c, -, made⟩ := Option.map_eq_some_iff.1 (Except.ok.inj eq)
    obtain rfl : _ = pool' := congrArg (·.2) made
    exact pool.extends_intern _
  | decorate ty decorator =>
    obtain ⟨made, hmade, eq⟩ := bind_eq_ok.1 eq
    obtain rfl : made = (_, pool') := Option.some.inj (Except.ok.inj eq)
    obtain ⟨basic, -, eq⟩ := bind_eq_ok.1 hmade
    cases basic with
    | none =>
      obtain rfl : pool = pool' := congrArg (·.2) (Except.ok.inj eq)
      exact .refl pool
    | some basic =>
      obtain rfl : _ = pool' := congrArg (·.2) (Except.ok.inj eq)
      exact pool.extends_intern _
  | _ =>
    obtain rfl : _ = pool' := congrArg (·.2) (Option.some.inj (Except.ok.inj eq))
    exact pool.extends_intern _

theorem Built.sound (built : pool.Built) : pool.Sound := by
  induction built with
  | empty shardOf => exact .empty shardOf
  | step _ admitted eq ih => exact ih.call admitted eq

/-! ## Recursion over structure -/

section Fold

variable {β : Type} {absent : TypeId → β} {step : TypeId → TypeData → (TypeId → β) → β}

theorem foldEntries_append {newer : List (InternTable.Entry TypeData)} {ty : TypeId}
    (older : List (InternTable.Entry TypeData)) (h : ∀ e ∈ newer, ty ≠ .known e.handle) :
    foldEntries absent step (newer ++ older) ty = foldEntries absent step older ty := by
  induction newer with
  | nil => rfl
  | cons e newer ih =>
    rw [List.cons_append, foldEntries, if_neg (h e List.mem_cons_self)]
    exact ih fun e' he' => h e' (List.mem_cons_of_mem e he')

theorem foldEntries_absent {l : List (InternTable.Entry TypeData)} {ty : TypeId}
    (h : ∀ e ∈ l, ty ≠ .known e.handle) : foldEntries absent step l ty = absent ty := by
  rw [← List.append_nil l, foldEntries_append [] h, foldEntries]

theorem fold_unknown (pool : TypePool) : pool.fold absent step .unknown = absent .unknown :=
  foldEntries_absent fun _ _ => (nomatch ·)

/-- A type outside the older part of a table is passed over until that part is reached. -/
theorem foldEntries_of_suffix (wf : pool.table.WellFormed)
    {older : List (InternTable.Entry TypeData)} (suffix : older <:+ pool.table.entries)
    {ty : TypeId} (mem : ty ∈ older.map fun e => TypeId.known e.handle) :
    foldEntries absent step older ty = pool.fold absent step ty := by
  obtain ⟨newer, eq⟩ := suffix
  obtain ⟨e, he, rfl⟩ := List.mem_map.1 mem
  have nodup := wf.handles_nodup
  rw [← eq, List.map_append] at nodup
  rw [fold, ← eq]
  refine (foldEntries_append older fun e' he' same => ?_).symm
  exact List.disjoint_of_nodup_append nodup (List.mem_map_of_mem he')
    (TypeId.known.inj same ▸ List.mem_map_of_mem he)

/-- A recursion whose step looks at the parts of a structure alone unfolds to the step. -/
theorem WellFormed.fold_eq (wf : pool.WellFormed) {ty : TypeId} {data : TypeData}
    (h : pool.read? ty = some data)
    (congr : ∀ f g : TypeId → β, (∀ part ∈ data.components, f part = g part) →
      step ty data f = step ty data g) :
    pool.fold absent step ty = step ty data (pool.fold absent step) := by
  cases ty with
  | unknown => exact nomatch h
  | known handle =>
    obtain ⟨newer, older, eq⟩ := List.append_of_mem ((read?_known_eq_some_iff wf.table).1 h)
    have suffix : ⟨handle, data⟩ :: older <:+ pool.table.entries := ⟨newer, eq.symm⟩
    rw [← foldEntries_of_suffix wf.table suffix (List.mem_cons_self), foldEntries, if_pos rfl]
    -- the step sees the results over the older entries, which is where the parts are
    refine congr _ _ fun part mem => ?_
    rcases wf.parts suffix part mem with rfl | mem
    · rw [fold_unknown]
      exact fold_unknown ⟨{ pool.table with entries := older }⟩
    · exact foldEntries_of_suffix wf.table ((List.suffix_cons _ _).trans suffix) mem

end Fold

/-- What holds of a type when it holds of its parts holds of every admitted type. -/
theorem WellFormed.induction (wf : pool.WellFormed) {motive : TypeId → Prop}
    (unknown : motive .unknown)
    (stored : ∀ ty data, pool.read? ty = some data →
      (∀ part ∈ data.components, motive part) → motive ty) {ty : TypeId}
    (admitted : pool.Admits ty) : motive ty := by
  -- by induction on the entries, the oldest first
  have older : ∀ l, l <:+ pool.table.entries →
      ∀ ty ∈ l.map fun e => TypeId.known e.handle, motive ty := by
    intro l
    induction l with
    | nil => exact fun _ _ h => nomatch h
    | cons e l ih =>
      intro suffix ty mem
      have ih := ih ((List.suffix_cons e l).trans suffix)
      rcases List.mem_cons.1 mem with rfl | mem
      · have he := List.IsSuffix.mem List.mem_cons_self suffix
        refine stored _ e.value ((read?_known_eq_some_iff wf.table).2 he) fun part hpart => ?_
        rcases wf.parts suffix part hpart with rfl | mem
        · exact unknown
        · exact ih part mem
      · exact ih ty mem
  rcases (admits_iff_mem wf.table).1 admitted with rfl | mem
  · exact unknown
  · exact older _ List.suffix_rfl ty mem

end TypePool

end MethodSynthesis
