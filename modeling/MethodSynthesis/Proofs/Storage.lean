import MethodSynthesis.Proofs.Drafts

/-!
# Stored signatures

`Draft.IsStoredAs` says what a stored signature holds, read back from the pools. A draft is stored as
the signature that storing it gives (`Draft.grows_store`), it stays so while the pools grow
(`Draft.IsStoredAs.grows`), and to store it once more gives the same signature and adds nothing
(`Draft.IsStoredAs.store_eq`).
-/

set_option autoImplicit false

namespace MethodSynthesis

/-! ## Pools of signatures -/

namespace SignaturePool

variable {pool pool' : SignaturePool}

/-- Both tables of the pool are well formed. -/
structure WellFormed (pool : SignaturePool) : Prop where
  untyped : pool.untypedTable.WellFormed
  typed : pool.typedTable.WellFormed

/-- Two well-formed pools of which the second extends the first. -/
structure Grows (pool pool' : SignaturePool) : Prop where
  before : pool.WellFormed
  after : pool'.WellFormed
  untyped_ext : pool.untypedTable.Extends pool'.untypedTable
  typed_ext : pool.typedTable.Extends pool'.typedTable

theorem wellFormed_empty (shards : Sharding) : (empty shards).WellFormed :=
  ⟨InternTable.wellFormed_empty, InternTable.wellFormed_empty⟩

theorem Grows.refl (wf : pool.WellFormed) : pool.Grows pool :=
  ⟨wf, wf, .refl _, .refl _⟩

theorem Grows.trans {pool'' : SignaturePool} (g : pool.Grows pool') (g' : pool'.Grows pool'') :
    pool.Grows pool'' :=
  ⟨g.before, g'.after, g.untyped_ext.trans g'.untyped_ext, g.typed_ext.trans g'.typed_ext⟩

theorem untyped_eq_ok_iff {id : UntypedSigId} {s : UntypedSignature} :
    pool.untyped id = .ok s ↔ pool.untypedTable.get? id.handle = some s := by
  cases h : pool.untypedTable.get? id.handle with
  | some found => simp [untyped, h]
  | none => simp [untyped, h]

theorem typed_eq_ok_iff {id : SigId} {s : TypedSignature} :
    pool.typed id = .ok s ↔ pool.typedTable.get? id.handle = some s := by
  cases h : pool.typedTable.get? id.handle with
  | some found => simp [typed, h]
  | none => simp [typed, h]

theorem Grows.untyped (g : pool.Grows pool') {id : UntypedSigId} {s : UntypedSignature}
    (h : pool.untyped id = .ok s) : pool'.untyped id = .ok s :=
  untyped_eq_ok_iff.2
    (g.untyped_ext.get? g.before.untyped g.after.untyped (untyped_eq_ok_iff.1 h))

theorem Grows.typed (g : pool.Grows pool') {id : SigId} {s : TypedSignature}
    (h : pool.typed id = .ok s) : pool'.typed id = .ok s :=
  typed_eq_ok_iff.2 (g.typed_ext.get? g.before.typed g.after.typed (typed_eq_ok_iff.1 h))

theorem grows_internUntyped (wf : pool.WellFormed) (s : UntypedSignature) :
    pool.Grows (pool.internUntyped s).2 :=
  ⟨wf, ⟨wf.untyped.intern s, wf.typed⟩, InternTable.extends_intern _ s, .refl _⟩

theorem grows_internTyped (wf : pool.WellFormed) (s : TypedSignature) :
    pool.Grows (pool.internTyped s).2 :=
  ⟨wf, ⟨wf.untyped, wf.typed.intern s⟩, .refl _, InternTable.extends_intern _ s⟩

theorem untyped_internUntyped (wf : pool.WellFormed) (s : UntypedSignature) :
    (pool.internUntyped s).2.untyped (pool.internUntyped s).1 = .ok s :=
  untyped_eq_ok_iff.2 (InternTable.get?_intern wf.untyped s)

theorem typed_internTyped (wf : pool.WellFormed) (s : TypedSignature) :
    (pool.internTyped s).2.typed (pool.internTyped s).1 = .ok s :=
  typed_eq_ok_iff.2 (InternTable.get?_intern wf.typed s)

theorem internUntyped_of_untyped (wf : pool.WellFormed) {id : UntypedSigId}
    {s : UntypedSignature} (h : pool.untyped id = .ok s) : pool.internUntyped s = (id, pool) := by
  rw [internUntyped, InternTable.intern_of_get? wf.untyped (untyped_eq_ok_iff.1 h)]

theorem internTyped_of_typed (wf : pool.WellFormed) {id : SigId} {s : TypedSignature}
    (h : pool.typed id = .ok s) : pool.internTyped s = (id, pool) := by
  rw [internTyped, InternTable.intern_of_get? wf.typed (typed_eq_ok_iff.1 h)]

end SignaturePool

/-! ## What a stored signature holds -/

/-- The type that a drafted type stands for. -/
def DraftType.IsStoredAs (pool : TypePool) : DraftType → TypeId → Prop
  | .given ty, stored => stored = ty
  | .borrowed basic, stored => pool.read? stored = some (.decorated basic .borrowedNonNil)

/-- The qualified type that a drafted formal stands for. -/
def DraftFormal.IsStoredAs (pool : TypePool) (formal : DraftFormal) (stored : Qualified) : Prop :=
  stored.binding = formal.binding ∧ formal.type.IsStoredAs pool stored.type

/-- The typed part of a draft, over the stored untyped part and the stored types. -/
def Draft.typed (draft : Draft) (untyped : UntypedSigId) (formalTypes : List Qualified) :
    TypedSignature where
  untyped := untyped
  formalTypes := formalTypes
  whereClause := .absent
  needsInstantiation := draft.needsInstantiation
  instantiatedFrom := none
  parentFunction := none
  formalsInstantiated := []

/-- The signature of that name holds what the draft says. -/
def Draft.IsStoredAs (draft : Draft) (types : TypePool) (signatures : SignaturePool) (id : SigId) :
    Prop :=
  ∃ untyped formalTypes, signatures.untyped untyped = .ok draft.untyped ∧
    List.Forall₂ (DraftFormal.IsStoredAs types) draft.formals formalTypes ∧
    signatures.typed id = .ok (draft.typed untyped formalTypes)

section Types

variable {pool pool' : TypePool}

theorem DraftType.IsStoredAs.grows {type : DraftType} {ty : TypeId} (h : type.IsStoredAs pool ty)
    (g : pool.Grows pool') : type.IsStoredAs pool' ty := by
  cases type with
  | given _ => exact h
  | borrowed basic => exact g.read? h

theorem DraftType.Grounded.grows {type : DraftType} (h : type.Grounded pool)
    (g : pool.Grows pool') : type.Grounded pool' := by
  cases type with
  | given _ => trivial
  | borrowed basic => exact g.ext.admits g.before.table g.after.table h

theorem DraftType.IsStoredAs.store_eq (wf : pool.WellFormed) {type : DraftType} {ty : TypeId}
    (h : type.IsStoredAs pool ty) : type.store pool = (ty, pool) := by
  cases type with
  | given _ => rw [DraftType.store, h]
  | borrowed basic => exact TypePool.intern_of_read? wf.table h

theorem DraftType.grows_store (wf : pool.WellFormed) {type : DraftType}
    (grounded : type.Grounded pool) :
    pool.Grows (type.store pool).2 ∧ type.IsStoredAs (type.store pool).2 (type.store pool).1 := by
  cases type with
  | given ty => exact ⟨.refl wf, rfl⟩
  | borrowed basic =>
    refine ⟨⟨wf, wf.intern fun part mem => ?_, pool.extends_intern _⟩, ?_⟩
    · obtain rfl := List.mem_singleton.1 mem
      exact grounded
    · exact TypePool.read?_intern wf.table _

theorem DraftFormal.storeTypes_eq (wf : pool.WellFormed) {formals : List DraftFormal}
    {types : List Qualified} (h : List.Forall₂ (DraftFormal.IsStoredAs pool) formals types) :
    DraftFormal.storeTypes pool formals = (types, pool) := by
  induction h with
  | nil => rfl
  | cons first _ ih =>
    rw [DraftFormal.storeTypes, first.2.store_eq wf]
    dsimp only
    rw [ih, ← first.1]

theorem DraftFormal.grows_storeTypes (wf : pool.WellFormed) {formals : List DraftFormal}
    (grounded : ∀ formal ∈ formals, formal.type.Grounded pool) :
    pool.Grows (DraftFormal.storeTypes pool formals).2 ∧
      List.Forall₂ (DraftFormal.IsStoredAs (DraftFormal.storeTypes pool formals).2) formals
        (DraftFormal.storeTypes pool formals).1 := by
  induction formals generalizing pool with
  | nil => exact ⟨.refl wf, .nil⟩
  | cons formal formals ih =>
    obtain ⟨g, first⟩ := formal.type.grows_store wf (grounded _ List.mem_cons_self)
    obtain ⟨g', rest⟩ := ih g.after fun f hf => (grounded f (List.mem_cons_of_mem _ hf)).grows g
    exact ⟨g.trans g', .cons ⟨rfl, first.grows g'⟩ rest⟩

end Types

/-! ## Storing drafts -/

namespace Draft

variable {draft : Draft} {types types' : TypePool} {signatures signatures' : SignaturePool}

/-- A stored signature keeps what it holds while the pools grow. -/
theorem IsStoredAs.grows {id : SigId} (h : draft.IsStoredAs types signatures id)
    (g : types.Grows types') (g' : signatures.Grows signatures') :
    draft.IsStoredAs types' signatures' id := by
  obtain ⟨untyped, formalTypes, huntyped, hformals, htyped⟩ := h
  refine ⟨untyped, formalTypes, g'.untyped huntyped, ?_, g'.typed htyped⟩
  exact hformals.imp fun _ _ stored => ⟨stored.1, stored.2.grows g⟩

/-- To store what is stored gives the same signature and adds nothing. -/
theorem IsStoredAs.store_eq (wf : types.WellFormed) (wf' : signatures.WellFormed) {id : SigId}
    (h : draft.IsStoredAs types signatures id) :
    draft.store types signatures = (id, types, signatures) := by
  obtain ⟨untyped, formalTypes, huntyped, hformals, htyped⟩ := h
  rw [store, DraftFormal.storeTypes_eq wf hformals]
  dsimp only
  rw [SignaturePool.internUntyped_of_untyped wf' huntyped]
  dsimp only
  rw [← typed, SignaturePool.internTyped_of_typed wf' htyped]

/-- A grounded draft can be stored, and the signature that it is stored as holds what it says. -/
theorem grows_store (wf : types.WellFormed) (wf' : signatures.WellFormed)
    (grounded : draft.Grounded types) :
    types.Grows (draft.store types signatures).2.1 ∧
      signatures.Grows (draft.store types signatures).2.2 ∧
      draft.IsStoredAs (draft.store types signatures).2.1 (draft.store types signatures).2.2
        (draft.store types signatures).1 := by
  obtain ⟨g, formals⟩ := DraftFormal.grows_storeTypes wf grounded
  -- the untyped part is stored first, and is still there after the typed part
  have g₁ := SignaturePool.grows_internUntyped wf' draft.untyped
  have g₂ := SignaturePool.grows_internTyped g₁.after
    (draft.typed (signatures.internUntyped draft.untyped).1
      (DraftFormal.storeTypes types draft.formals).1)
  refine ⟨g, g₁.trans g₂, _, _, ?_, formals, SignaturePool.typed_internTyped g₁.after _⟩
  exact g₂.untyped (SignaturePool.untyped_internUntyped wf' _)

end Draft

end MethodSynthesis
