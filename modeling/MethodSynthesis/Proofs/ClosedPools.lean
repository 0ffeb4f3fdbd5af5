import MethodSynthesis.Proofs.Building

/-!
# Pools over known types

A client of a pool starts from the primitive types, and applies the operations that make types to
these and to the types that it got before (`TypePool.Made`). The unknown type is no such type, so it
is no part of anything stored: each part of a stored type is primitive or was stored before the type
(`Made.stored_before`). Every call on types at hand has an answer, and only an instantiation may
answer that there is no such type (`Made.exists_run`).

`TypePool.Regular` puts the shapes of stored types together, and holds of all these pools. It follows
that the generic form of a type is its own generic form, and that an instantiation of an
instantiation is one of the generic form (`made_regular`).
-/

set_option autoImplicit false

namespace MethodSynthesis

namespace TypePool

variable {pool pool' : TypePool} {returned : List TypeId}

/-- A primitive type, or one of the given ones. -/
def AtHand (returned : List TypeId) (ty : TypeId) : Prop :=
  (∃ p, ty = .primitive p) ∨ ty ∈ returned

/-- The pools that calls lead to, with the types that the calls returned, the newest first. Each call
is applied to types at hand. A call without a result leaves the pool and makes no step here. -/
inductive Made : TypePool → List TypeId → Prop
  | empty (shardOf : TypeData → Fin 16) : Made (.empty shardOf) []
  | call {pool pool' : TypePool} {returned : List TypeId} (call : TypeCall) {ty : TypeId} :
      Made pool returned → (∀ arg ∈ call.arguments, AtHand returned arg) →
        call.run pool = .ok (some (ty, pool')) → Made pool' (ty :: returned)

/-- At some time the pool had one type and not the other. -/
def StoredBefore (pool : TypePool) (earlier later : TypeId) : Prop :=
  ∃ old : TypePool, old.Extends pool ∧ (∃ data, old.read? earlier = some data) ∧
    old.read? later = none

/-- The shapes of the types of a pool. -/
structure Regular (pool : TypePool) : Prop where
  /-- What is decorated is an undecorated class. -/
  decorated : ∀ {ty basic decorator}, pool.read? ty = some (.decorated basic decorator) →
    ∃ c, pool.read? basic = some (.composite c) ∧ c.kind = .classType
  /-- An instantiation has its generic form in the pool, and differs from it by its substitutions. -/
  instantiated : ∀ {ty c root}, pool.read? ty = some (.composite c) →
    c.instantiatedFrom = some root →
      ∃ generic, pool.read? root = some (.composite generic) ∧ generic.instantiatedFrom = none ∧
        generic.kind = c.kind ∧ generic.decl = c.decl ∧ generic.name = c.name ∧
          generic.parent = c.parent
  /-- A generic form has no substitutions. -/
  generic : ∀ {ty c}, pool.read? ty = some (.composite c) → c.instantiatedFrom = none →
    c.substitutions = []
  /-- A part of a type is primitive or was stored before the type. -/
  parts : ∀ {ty data part}, pool.read? ty = some data → part ∈ data.components →
    (∃ p, part = .primitive p) ∨ pool.StoredBefore part ty

/-! ## Generic forms -/

/-- To instantiate a composite is to intern its shape with the new substitutions. -/
theorem instantiate_eq_ok {ty : TypeId} {data : TypeData} (h : pool.read? ty = some data)
    (substitutions : List (Name × TypeId)) : pool.instantiate ty substitutions =
      .ok (data.composite?.map fun c => pool.intern (.composite
        { c with instantiatedFrom := some (c.instantiatedFrom.getD ty), substitutions })) := by
  rw [instantiate, composite?_eq_ok h]
  rfl

/-- The generic form of a stored type is its own generic form, and the type is instantiated as its
generic form is. -/
theorem Sound.exists_generic (sound : pool.Sound) {ty : TypeId} {data : TypeData}
    (h : pool.read? ty = some data) :
    ∃ root, pool.genericRoot ty = .ok root ∧ pool.genericRoot root = .ok root ∧
      ∀ substitutions, pool.instantiate ty substitutions = pool.instantiate root substitutions := by
  cases data with
  | composite c =>
    have generic := sound.read?_generic h
    refine ⟨c.instantiatedFrom.getD ty, genericRoot_eq_ok h, genericRoot_eq_ok generic, ?_⟩
    intro substitutions
    -- the new structure names the root either way, by the link or as the type that has none
    rw [instantiate_eq_ok h, instantiate_eq_ok generic]
    rfl
  | _ =>
    have itself : pool.genericRoot ty = .ok ty := by
      rw [genericRoot, read_eq_ok_iff.2 h]
      rfl
    exact ⟨ty, itself, itself, fun _ => rfl⟩

/-- Only composites have instantiations. -/
theorem instantiate_eq_ok_none_iff {ty : TypeId} {data : TypeData} (h : pool.read? ty = some data)
    (substitutions : List (Name × TypeId)) : pool.instantiate ty substitutions = .ok none ↔
      ∀ c, pool.read? ty ≠ some (.composite c) := by
  rw [instantiate_eq_ok h, Except.ok.injEq, Option.map_eq_none_iff, h]
  cases data with
  | composite c => simp [TypeData.composite?]
  | _ => simp [TypeData.composite?]

/-! ## Pools of clients -/

/-- A call stores the type that it returns and no other. -/
theorem stored_run_iff (wf : pool.WellFormed) {call : TypeCall} {made ty : TypeId}
    (run : call.run pool = .ok (some (made, pool'))) (wf' : pool'.WellFormed) :
    (∃ data, pool'.read? ty = some data) ↔ ty = made ∨ ∃ data, pool.read? ty = some data := by
  rcases run_cases run with ⟨rfl, present⟩ | ⟨fresh, eq, -⟩
  · constructor
    · exact .inr
    · rintro (rfl | stored)
      · exact present
      · exact stored
  · obtain rfl : _ = pool' := congrArg (·.2) eq
    obtain rfl : _ = made := congrArg (·.1) eq
    have present := read?_intern wf.table fresh
    constructor
    · rintro ⟨data, stored⟩
      rcases read?_intern_cases wf.table stored with rfl | old
      · exact .inl (eq_of_read? wf'.table stored present)
      · exact .inr ⟨data, old⟩
    · rintro (rfl | ⟨data, old⟩)
      · exact ⟨fresh, present⟩
      · exact ⟨data, (pool.extends_intern fresh).read? wf.table wf'.table old⟩

namespace Made

/-- The pool is as calls make it, and the types at hand are the stored ones. -/
theorem invariant (made : Made pool returned) :
    pool.Sound ∧ ∀ ty, AtHand returned ty ↔ ∃ data, pool.read? ty = some data := by
  induction made with
  | empty shardOf =>
    have wf := wellFormed_empty shardOf
    refine ⟨.empty shardOf, fun ty => ⟨fun has => ?_, fun ⟨data, h⟩ => ?_⟩⟩
    · obtain ⟨p, rfl⟩ := has.resolve_right List.not_mem_nil
      exact ⟨_, wf.primitives p⟩
    · obtain ⟨p, rfl⟩ := read?_empty h
      exact .inl ⟨p, eq_of_read? wf.table h (wf.primitives p)⟩
  | @call pool pool' returned call made _ has run ih =>
    obtain ⟨sound, stored⟩ := ih
    have sound' := sound.call (fun arg mem => .inr ((stored arg).1 (has arg mem))) run
    refine ⟨sound', fun ty => ?_⟩
    rw [stored_run_iff sound.wellFormed run sound'.wellFormed, ← stored, AtHand, AtHand,
      List.mem_cons]
    exact or_left_comm

theorem sound (made : Made pool returned) : pool.Sound := made.invariant.1

theorem atHand_iff (made : Made pool returned) (ty : TypeId) :
    AtHand returned ty ↔ ∃ data, pool.read? ty = some data :=
  made.invariant.2 ty

/-- A call on types at hand has an answer. -/
theorem exists_run (made : Made pool returned) {call : TypeCall}
    (has : ∀ arg ∈ call.arguments, AtHand returned arg) : ∃ answer, call.run pool = .ok answer := by
  have stored : ∀ arg ∈ call.arguments, ∃ data, pool.read? arg = some data :=
    fun arg mem => (made.atHand_iff arg).1 (has arg mem)
  cases call with
  | instantiate generic substitutions =>
    obtain ⟨data, h⟩ := stored generic List.mem_cons_self
    exact ⟨_, instantiate_eq_ok h substitutions⟩
  | decorate ty decorator =>
    obtain ⟨data, h⟩ := stored ty List.mem_cons_self
    rw [TypeCall.run, decorate, basicClass?_eq_ok h]
    exact ⟨_, rfl⟩
  | _ => exact ⟨_, rfl⟩

/-- A part of a stored type is primitive or was stored before it. -/
theorem stored_before (made : Made pool returned) {ty part : TypeId} {data : TypeData}
    (h : pool.read? ty = some data) (mem : part ∈ data.components) :
    (∃ p, part = .primitive p) ∨ pool.StoredBefore part ty := by
  induction made generalizing ty part data with
  | empty =>
    obtain ⟨p, rfl⟩ := read?_empty h
    exact nomatch mem
  | @call pool pool' returned call made earlier has run ih =>
    have sound := earlier.sound
    have table := sound.wellFormed.table
    have ext := extends_call run
    cases old : pool.read? ty with
    | some found =>
      -- an older type has the parts that it had
      have kept := ext.read? table (earlier.call call has run).sound.wellFormed.table old
      obtain rfl : found = data := Option.some.inj (kept.symm.trans h)
      refine (ih old mem).imp_right ?_
      rintro ⟨older, upTo, present, absent⟩
      exact ⟨older, upTo.trans ext, present, absent⟩
    | none =>
      -- a new type was made over types of the pool before the call
      have before {part : TypeId} (present : ∃ data, pool.read? part = some data) :
          pool'.StoredBefore part ty := ⟨pool, ext, present, old⟩
      rcases run_cases run with ⟨rfl, -⟩ | ⟨fresh, eq, parts, -⟩
      · rw [old] at h
        exact nomatch h
      obtain rfl : _ = pool' := congrArg (·.2) eq
      obtain rfl : data = fresh := by
        rcases read?_intern_cases table h with same | present
        · exact same
        · rw [old] at present
          exact nomatch present
      rcases parts part mem with given | ⟨base, shape, present, mem⟩
      · exact .inr (before ((earlier.atHand_iff part).1 (has part given)))
      · rcases ih present mem with primitive | ⟨older, -, ⟨data, known⟩, -⟩
        · exact .inl primitive
        rcases sound.wellFormed.admits_part present mem with rfl | present
        · exact nomatch known
        · exact .inr (before present)

/-- The shapes of the types of a client's pool. -/
theorem regular (made : Made pool returned) : pool.Regular where
  decorated h := made.sound.coherent h
  instantiated h from? := ⟨_, (made.sound.coherent h).2 _ from?, rfl, rfl, rfl, rfl, rfl⟩
  generic h := (made.sound.coherent h).1
  parts h mem := made.stored_before h mem

end Made

/-- Whatever calls a client makes on primitive types and on types that it got before, each call has an
answer and the pool stays regular, with just those types in it. The generic form of a type is its own
generic form, the type is instantiated as that form is, and what has no instantiation is what is no
undecorated composite. -/
theorem made_regular (made : Made pool returned) :
    (∀ call : TypeCall, (∀ arg ∈ call.arguments, AtHand returned arg) →
      ∃ answer, call.run pool = .ok answer) ∧
    pool.Regular ∧
    (∀ ty, AtHand returned ty ↔ ∃ data, pool.read? ty = some data) ∧
    ∀ ty, AtHand returned ty →
      (∃ root, pool.genericRoot ty = .ok root ∧ pool.genericRoot root = .ok root ∧
        ∀ substitutions, pool.instantiate ty substitutions = pool.instantiate root substitutions) ∧
      ∀ substitutions, pool.instantiate ty substitutions = .ok none ↔
        ∀ c, pool.read? ty ≠ some (.composite c) := by
  refine ⟨fun call has => made.exists_run has, made.regular, made.atHand_iff, fun ty has => ?_⟩
  obtain ⟨data, stored⟩ := (made.atHand_iff ty).1 has
  exact ⟨made.sound.exists_generic stored, instantiate_eq_ok_none_iff stored⟩

/-- A generic class. -/
def cellClass : TypePool := ((TypePool.empty Sharding.bySize.types).basicClass (.at 0) ⟨⟨5, 0⟩⟩ none).2

/-- That class, and its instantiation by integers. -/
def cellOfInts : TypePool :=
  (cellClass.intern (.composite ⟨.classType, .at 0, ⟨⟨5, 0⟩⟩, some (.known ⟨1, 0⟩),
    [(⟨⟨6, 0⟩⟩, .int)], none⟩)).2

/-- These, and the instantiation as an owned class. -/
def ownedCell : TypePool := (cellOfInts.intern (.decorated (.known ⟨1, 1⟩) .ownedNonNil)).2

/-- The pool is a client's. The instantiation is instantiated as the class is, and the owned class
not at all. -/
theorem ownedCell_regular :
    Made ownedCell [.known ⟨2, 0⟩, .known ⟨1, 1⟩, .known ⟨1, 0⟩] ∧ ownedCell.Regular ∧
      (∀ substitutions, ownedCell.instantiate (.known ⟨1, 1⟩) substitutions =
        ownedCell.instantiate (.known ⟨1, 0⟩) substitutions) ∧
      ownedCell.instantiate (.known ⟨2, 0⟩) [] = .ok none := by
  have generic : Made cellClass [.known ⟨1, 0⟩] :=
    .call (.basicClass (.at 0) ⟨⟨5, 0⟩⟩ none) (.empty Sharding.bySize.types)
      (fun _ mem => nomatch mem) rfl
  have ints : Made cellOfInts [.known ⟨1, 1⟩, .known ⟨1, 0⟩] := by
    refine .call (.instantiate (.known ⟨1, 0⟩) [(⟨⟨6, 0⟩⟩, .int)]) generic ?_ rfl
    intro arg mem
    rcases List.mem_cons.1 mem with rfl | mem
    · exact .inr List.mem_cons_self
    · exact .inl ⟨.int, List.mem_singleton.1 mem⟩
  have made : Made ownedCell [.known ⟨2, 0⟩, .known ⟨1, 1⟩, .known ⟨1, 0⟩] := by
    refine .call (.decorate (.known ⟨1, 1⟩) .ownedNonNil) ints ?_ rfl
    intro arg mem
    rw [List.mem_singleton.1 mem]
    exact .inr List.mem_cons_self
  obtain ⟨-, regular, -, shapes⟩ := made_regular made
  refine ⟨made, regular, ?_, ?_⟩
  · obtain ⟨⟨root, hroot, -, same⟩, -⟩ := shapes (.known ⟨1, 1⟩) (.inr (.tail _ List.mem_cons_self))
    obtain rfl : root = .known ⟨1, 0⟩ := (Except.ok.inj hroot).symm
    exact same
  · obtain ⟨-, none⟩ := shapes (.known ⟨2, 0⟩) (.inr List.mem_cons_self)
    refine (none []).2 fun c h => ?_
    have stored : ownedCell.read? (.known ⟨2, 0⟩) =
        some (.decorated (.known ⟨1, 1⟩) .ownedNonNil) := rfl
    rw [stored] at h
    exact nomatch h

end TypePool

end MethodSynthesis
