import MethodSynthesis.Proofs.TypePools
import MethodSynthesis.Synthesis.Need

/-!
# Questions about types in a growing pool

While signatures are synthesized, the pool of types grows under the questions that were asked before.
No answer is lost by that: what has an answer over a pool has the same answer over every pool that
extends it. The statement is proved question by question in the form `Persists`, from the reading of
one type up to the judgment of arguments (`Grows.canPass`), the walks through fields
(`Grows.genericity`, `Grows.fields`, `Grows.isDefaultInitializable`) and the need for a method
(`Host.Persistent.needsMethod`).

A fault over the smaller pool may become an answer over the larger one, which holds more types; that
is why the statement is not an equation.
-/

set_option autoImplicit false

namespace MethodSynthesis

namespace TypePool

variable {pool pool' : TypePool}

/-- Two well-formed pools of which the second extends the first. -/
structure Grows (pool pool' : TypePool) : Prop where
  before : pool.WellFormed
  after : pool'.WellFormed
  ext : pool.Extends pool'

namespace Grows

theorem refl (wf : pool.WellFormed) : pool.Grows pool :=
  ⟨wf, wf, .refl _⟩

theorem trans {pool'' : TypePool} (g : pool.Grows pool') (g' : pool'.Grows pool'') :
    pool.Grows pool'' :=
  ⟨g.before, g'.after, g.ext.trans g'.ext⟩

theorem read? (g : pool.Grows pool') {ty : TypeId} {data : TypeData}
    (h : pool.read? ty = some data) : pool'.read? ty = some data :=
  g.ext.read? g.before.table g.after.table h

/-! ## Reading -/

theorem read (g : pool.Grows pool') (ty : TypeId) : Persists (pool.read ty) (pool'.read ty) :=
  fun _ h => read_eq_ok_iff.2 (g.read? (read_eq_ok_iff.1 h))

theorem kind (g : pool.Grows pool') (ty : TypeId) : Persists (pool.kind ty) (pool'.kind ty) :=
  (g.read ty).map _

theorem isClass (g : pool.Grows pool') (ty : TypeId) :
    Persists (pool.isClass ty) (pool'.isClass ty) :=
  (g.kind ty).map _

theorem composite? (g : pool.Grows pool') (ty : TypeId) :
    Persists (pool.composite? ty) (pool'.composite? ty) :=
  (g.read ty).map _

theorem basicClass? (g : pool.Grows pool') (ty : TypeId) :
    Persists (pool.basicClass? ty) (pool'.basicClass? ty) :=
  (g.read ty).map _

theorem undecorated (g : pool.Grows pool') (ty : TypeId) :
    Persists (pool.undecorated ty) (pool'.undecorated ty) :=
  (g.basicClass? ty).map _

theorem compositeOf? (g : pool.Grows pool') (ty : TypeId) :
    Persists (pool.compositeOf? ty) (pool'.compositeOf? ty) :=
  (g.undecorated ty).bind fun basic _ => g.composite? basic

theorem genericRoot (g : pool.Grows pool') (ty : TypeId) :
    Persists (pool.genericRoot ty) (pool'.genericRoot ty) :=
  (g.read ty).map _

theorem enumeration? (g : pool.Grows pool') (ty : TypeId) :
    Persists (pool.enumeration? ty) (pool'.enumeration? ty) :=
  (g.read ty).map _

theorem classForm? (g : pool.Grows pool') (ty : TypeId) :
    Persists (pool.classForm? ty) (pool'.classForm? ty) :=
  (g.read ty).map _

/-! ## Recursion over structure -/

section Fold

variable {β γ : Type} {R : β → γ → Prop} {absent : TypeId → β} {absent' : TypeId → γ}
  {step : TypeId → TypeData → (TypeId → β) → β} {step' : TypeId → TypeData → (TypeId → γ) → γ}

/-- Results of recursions over two pools are related when the steps relate them at the types of the
smaller pool, and the larger pool's step gives something related where the smaller has no type. -/
theorem fold (g : pool.Grows pool') (absent_absent : ∀ ty, R (absent ty) (absent' ty))
    (absent_step : ∀ handle data part,
      R (absent (.known handle)) (step' (.known handle) data part))
    (step_step : ∀ ty data part part', pool.read? ty = some data →
      (∀ ty, R (part ty) (part' ty)) → R (step ty data part) (step' ty data part'))
    (ty : TypeId) : R (pool.fold absent step ty) (pool'.fold absent' step' ty) := by
  -- the entries that both pools have, then those of the larger pool alone
  have common : ∀ l, l <:+ pool.table.entries → ∀ ty,
      R (foldEntries absent step l ty) (foldEntries absent' step' l ty) := by
    intro l
    induction l with
    | nil => exact fun _ => absent_absent
    | cons e l ih =>
      intro suffix ty
      have he := List.IsSuffix.mem List.mem_cons_self suffix
      have ih := ih ((List.suffix_cons e l).trans suffix)
      rw [foldEntries, foldEntries]
      by_cases same : ty = .known e.handle
      · rw [if_pos same, if_pos same]
        subst same
        exact step_step _ _ _ _ ((read?_known_eq_some_iff g.before.table).2 he) ih
      · rw [if_neg same, if_neg same]
        exact ih ty
  obtain ⟨newer, eq⟩ := g.ext
  have nodup := g.after.table.handles_nodup
  rw [← eq, List.map_append] at nodup
  have disjoint := List.disjoint_of_nodup_append nodup
  rw [TypePool.fold, TypePool.fold, ← eq]
  clear eq nodup
  induction newer with
  | nil => exact common _ List.suffix_rfl ty
  | cons e newer ih =>
    rw [List.cons_append, foldEntries]
    by_cases same : ty = .known e.handle
    · -- A type that is new in the larger pool is absent from the smaller one.
      rw [if_pos same]
      subst same
      rw [foldEntries_absent fun e' he' same => disjoint List.mem_cons_self
        (List.mem_map.2 ⟨e', he', (TypeId.known.inj same).symm⟩)]
      exact absent_step _ _ _
    · rw [if_neg same]
      exact ih fun handle h => disjoint (List.mem_cons_of_mem _ h)

end Fold

/-! ## Ancestors -/

/-- The search for an ancestor of a type ends at the latest with the oldest type, so that no number of
steps above the age of the type changes its answer. -/
theorem hasAncestorWithin (g : pool.Grows pool') (base : TypeId) {l : List (InternTable.Entry TypeData)}
    (suffix : l <:+ pool.table.entries) {n m : Nat} (hn : l.length ≤ n) (hm : l.length ≤ m)
    {ty : TypeId} (mem : ty ∈ l.map fun e => TypeId.known e.handle) :
    Persists (pool.hasAncestorWithin base n ty) (pool'.hasAncestorWithin base m ty) := by
  induction l generalizing n m ty with
  | nil => exact nomatch mem
  | cons e l ih =>
    have older := (List.suffix_cons e l).trans suffix
    rw [List.length_cons] at hn hm
    rcases List.mem_cons.1 mem with rfl | mem
    -- the type is the newest of these entries: take one step in both pools
    · obtain ⟨n, rfl⟩ := Nat.exists_eq_add_of_le' hn
      obtain ⟨m, rfl⟩ := Nat.exists_eq_add_of_le' hm
      have he := List.IsSuffix.mem List.mem_cons_self suffix
      have stored := (read?_known_eq_some_iff g.before.table).2 he
      rw [← Nat.add_assoc, ← Nat.add_assoc, TypePool.hasAncestorWithin, TypePool.hasAncestorWithin]
      refine (g.composite? _).bind fun comp hcomp => ?_
      cases hparent : comp.bind (·.parent) with
      | none => exact .refl _
      | some parent =>
        dsimp only
        split
        · exact .refl _
        refine (g.genericRoot parent).bind fun root hroot => ?_
        split
        · exact .refl _
        split
        · exact .refl _
        -- A parent that has a generic form is stored, and it is a part of the class.
        have part : parent ∈ e.value.components := by
          obtain ⟨c, rfl, hc⟩ := Option.bind_eq_some_iff.1 hparent
          obtain ⟨data, hdata, eq⟩ := bind_eq_ok.1 hcomp
          rw [read_eq_ok_iff, stored, Option.some.injEq] at hdata
          subst hdata
          cases data : e.value with
          | composite c' =>
            rw [data] at eq
            obtain rfl : c' = c := by simpa using eq
            simp [TypeData.components, hc]
          | _ =>
            rw [data] at eq
            simp at eq
        rcases g.before.parts suffix parent part with rfl | mem
        · exact absurd hroot (by simp [TypePool.genericRoot, TypePool.read, TypePool.read?])
        · exact ih older (by omega) (by omega) mem
    · exact ih older (by omega) (by omega) mem

theorem size_pos (wf : pool.WellFormed) : 0 < pool.size := by
  have stored := (read?_known_eq_some_iff wf.table).1 (wf.primitives .int)
  exact List.length_pos_of_mem stored

theorem isSubclass (g : pool.Grows pool') (derived base : TypeId) :
    Persists (pool.isSubclass derived base) (pool'.isSubclass derived base) := by
  by_cases stored : ∃ data, pool.read? derived = some data
  · rcases (admits_iff_mem g.before.table).1 (.inr stored) with rfl | mem
    · exact absurd stored (by simp [TypePool.read?])
    · exact g.hasAncestorWithin base List.suffix_rfl Nat.le.refl (List.IsSuffix.length_le g.ext) mem
  -- over a missing type the first step already fails
  · obtain ⟨n, hn⟩ := Nat.exists_eq_succ_of_ne_zero (Nat.ne_of_gt (size_pos g.before))
    have missing : pool.read? derived = none :=
      Option.eq_none_iff_forall_ne_some.2 fun data h => stored ⟨data, h⟩
    rw [TypePool.isSubclass, hn, TypePool.hasAncestorWithin, TypePool.composite?, TypePool.read,
      missing]
    exact .of_error _ _

/-! ## Passing an argument -/

theorem passClasses (g : pool.Grows pool') (actual formal : TypeId) :
    Persists (pool.passClasses actual formal) (pool'.passClasses actual formal) := by
  unfold TypePool.passClasses
  refine (g.classForm? actual).bind fun source _ => ?_
  cases source with
  | none => exact .refl _
  | some source =>
    refine (g.classForm? formal).bind fun target _ => ?_
    cases target with
    | none => exact .refl _
    | some target =>
      dsimp only
      split
      · split
        · exact .refl _
        · refine (g.genericRoot _).bind fun root _ => ?_
          split
          · exact .refl _
          · refine (g.isSubclass _ _).bind fun inherits _ => ?_
            exact .refl _
      · exact .refl _

theorem passElements {pass pass' : TypeId → TypeId → Except Fault Passing}
    (h : ∀ actual formal, Persists (pass actual formal) (pass' actual formal)) :
    ∀ actuals formals, Persists (TypePool.passElements pass actuals formals)
      (TypePool.passElements pass' actuals formals)
  | [], _ => .refl _
  | _ :: _, [] => .refl _
  | actual :: actuals, formal :: formals => by
    rw [TypePool.passElements, TypePool.passElements]
    refine (h actual formal).bind fun first _ => ?_
    split
    · exact .refl _
    · exact (passElements h actuals formals).map _

theorem passStructures (g : pool.Grows pool') (actual : TypeId) (data : TypeData)
    {pass pass' : TypeId → TypeId → Except Fault Passing}
    (h : ∀ actual formal, Persists (pass actual formal) (pass' actual formal)) (formal : TypeId) :
    Persists (pool.passStructures actual data pass formal)
      (pool'.passStructures actual data pass' formal) := by
  unfold TypePool.passStructures
  refine (g.read formal).bind fun target _ => ?_
  split
  · exact g.passClasses actual formal
  · split
    · exact (g.genericRoot actual).bind fun root _ => .refl _
    · split
      · exact passElements h _ _
      · exact .refl _
    · exact .refl _

theorem passTypes (g : pool.Grows pool') (actual formal : TypeId) :
    Persists (pool.passTypes actual formal) (pool'.passTypes actual formal) := by
  unfold TypePool.passTypes
  refine g.fold (R := fun (x y : TypeId → Except Fault Passing) =>
    ∀ formal, Persists (x formal) (y formal)) ?_ ?_ ?_ actual formal
  · exact fun _ _ => .refl _
  -- what the names settle needs no pool; over the smaller pool the rest is a fault
  · intro handle data part formal
    cases passNames? (.known handle) formal with
    | some p => exact .refl _
    | none => exact .of_error _ _
  · intro actual data part part' _ h formal
    cases passNames? actual formal with
    | some p => exact .refl _
    | none => exact g.passStructures actual data h formal

theorem passPromoted (g : pool.Grows pool') (actual formal : Qualified) :
    Persists (pool.passPromoted actual formal) (pool'.passPromoted actual formal) := by
  unfold TypePool.passPromoted
  refine (g.read actual.type).bind fun data _ => ?_
  split
  · refine (g.read formal.type).bind fun target _ => ?_
    split
    · exact .refl _
    · exact (g.passTypes _ _).map _
  · exact .refl _

/-- The judgment of an argument persists. -/
theorem canPass (g : pool.Grows pool') (actual formal : Qualified) :
    Persists (pool.canPass actual formal) (pool'.canPass actual formal) := by
  unfold TypePool.canPass
  split
  · exact .refl _
  split
  · exact .refl _
  split
  · exact (g.passTypes _ _).bind fun _ _ => .refl _
  split
  · exact .refl _
  refine (g.passTypes _ _).bind fun result _ => ?_
  dsimp only
  split
  · exact .refl _
  · exact g.passPromoted actual formal

end Grows

end TypePool

/-! ## Fields -/

theorem FieldDecl.resolve_persists (field : FieldDecl) (substitution : Option TypeId)
    (policy : DefaultsPolicy) {f g : TypeId → Except Fault Bool}
    (h : ∀ ty, Persists (f ty) (g ty)) :
    Persists (field.resolve substitution policy f) (field.resolve substitution policy g) := by
  unfold FieldDecl.resolve
  cases substitution with
  | some ty => exact .refl _
  | none =>
    dsimp only
    split
    · exact .refl _
    · exact .refl _
    · split
      · exact (h _).map _
      · exact .refl _

namespace Declarations

variable (d : Declarations) {pool pool' : TypePool}

theorem resolveFields_persists (comp : Composite) (policy : DefaultsPolicy)
    {f g : TypeId → Except Fault Bool} (h : ∀ ty, Persists (f ty) (g ty)) :
    Persists (d.resolveFields comp policy f) (d.resolveFields comp policy g) :=
  Persists.mapM fun _ _ => (FieldDecl.resolve_persists _ _ policy h).bind fun _ _ => .refl _

theorem fieldsWith_persists (grows : pool.Grows pool') (policy : DefaultsPolicy)
    {f g : TypeId → Except Fault Bool} (h : ∀ ty, Persists (f ty) (g ty)) (ty : TypeId) :
    Persists (d.fieldsWith pool policy f ty) (d.fieldsWith pool' policy g ty) := by
  unfold fieldsWith
  refine (grows.compositeOf? ty).bind fun comp _ => ?_
  cases comp with
  | none => exact .refl _
  | some comp => exact (d.resolveFields_persists comp policy h).bind fun _ _ => .refl _

end Declarations

/-! ## Walks through fields -/

/-- Two walks may still enter the same types of a pool. -/
structure SameUnvisited (pool : TypePool) (unvisited unvisited' : List TypeId) : Prop where
  nodup : unvisited.Nodup
  nodup' : unvisited'.Nodup
  mem_iff : ∀ {ty data}, pool.read? ty = some data → (ty ∈ unvisited ↔ ty ∈ unvisited')

namespace SameUnvisited

variable {pool pool' : TypePool} {unvisited unvisited' : List TypeId}

/-- Two such walks stay so when they enter one type. -/
theorem erase (same : SameUnvisited pool unvisited unvisited') (ty : TypeId) :
    SameUnvisited pool (unvisited.erase ty) (unvisited'.erase ty) where
  nodup := same.nodup.erase ty
  nodup' := same.nodup'.erase ty
  mem_iff h := by
    rw [same.nodup.mem_erase_iff, same.nodup'.mem_erase_iff, same.mem_iff h]

end SameUnvisited

namespace TypePool

variable {pool pool' : TypePool}

theorem Grows.sameUnvisited (g : pool.Grows pool') :
    SameUnvisited pool pool.composites pool'.composites where
  nodup := nodup_composites g.before.table
  nodup' := nodup_composites g.after.table
  mem_iff h := by
    rw [mem_composites_iff g.before.table, mem_composites_iff g.after.table, h, g.read? h]

end TypePool

namespace Declarations

variable (d : Declarations) {pool pool' : TypePool}

theorem genericityWithin_persists (grows : pool.Grows pool') {unvisited unvisited' : List TypeId}
    (same : SameUnvisited pool unvisited unvisited') (ty : TypeId) :
    Persists (d.genericityWithin pool unvisited ty) (d.genericityWithin pool' unvisited' ty) := by
  -- on the composites that may still be entered, then on the structure of the type
  induction h : unvisited.length using Nat.strongRecOn generalizing unvisited unvisited' ty with
  | _ n ih =>
  rw [genericityWithin, genericityWithin]
  refine grows.fold (fun _ => .refl _) (fun handle data part => ?_) ?_ ty
  · exact .of_error _ _
  · intro ty data part part' stored hpart
    cases data with
    | primitive p => cases p <;> exact .refl _
    | composite comp =>
      dsimp only
      by_cases mem : ty ∈ unvisited
      · rw [dif_pos mem, dif_pos ((same.mem_iff stored).1 mem)]
        have lt : (unvisited.erase ty).length < n := h ▸ TypePool.length_erase_lt mem
        refine (d.resolveFields_persists comp _ fun field => ?_).map _
        exact (ih _ lt (same.erase ty) field rfl).map _
      · rw [dif_neg mem, dif_neg (mem ∘ (same.mem_iff stored).2)]
        exact .refl _
    | decorated basic decorator => exact hpart basic
    | tuple elements =>
      exact Persists.foldlM (fun acc e _ => (hpart e).map _) _
    | array domain element | cPtr element => exact hpart element
    | rectangular rank index strided | associative index parSafe => exact hpart index
    | enumeration e => exact .refl _

theorem fieldsWithin_persists (grows : pool.Grows pool') {unvisited unvisited' : List TypeId}
    (same : SameUnvisited pool unvisited unvisited') (policy : DefaultsPolicy) (ty : TypeId) :
    Persists (d.fieldsWithin pool unvisited policy ty)
      (d.fieldsWithin pool' unvisited' policy ty) :=
  d.fieldsWith_persists grows policy
    (fun field => (d.genericityWithin_persists grows same field).map _) ty

theorem defaultInitializableWithin_persists (grows : pool.Grows pool')
    {unvisited unvisited' : List TypeId} (same : SameUnvisited pool unvisited unvisited')
    (ty : TypeId) :
    Persists (d.defaultInitializableWithin pool unvisited ty)
      (d.defaultInitializableWithin pool' unvisited' ty) := by
  induction h : unvisited.length using Nat.strongRecOn generalizing unvisited unvisited' ty with
  | _ n ih =>
  rw [defaultInitializableWithin, defaultInitializableWithin]
  refine grows.fold (fun _ => .refl _) (fun handle data part => ?_) ?_ ty
  · exact .of_error _ _
  · intro ty data part part' stored hpart
    cases data with
    | primitive p => cases p <;> exact .refl _
    | composite comp =>
      dsimp only
      split
      · exact .refl _
      by_cases mem : ty ∈ unvisited
      · rw [dif_pos mem, dif_pos ((same.mem_iff stored).1 mem)]
        have lt : (unvisited.erase ty).length < n := h ▸ TypePool.length_erase_lt mem
        -- the fields, and then the types that they need, are asked for with the composite entered
        refine (d.fieldsWithin_persists grows (same.erase ty) _ ty).bind fun list _ => ?_
        split
        · exact .refl _
        · refine Persists.allM fun field _ => ?_
          split
          · exact .refl _
          · exact ih _ lt (same.erase ty) _ rfl
      · rw [dif_neg mem, dif_neg (mem ∘ (same.mem_iff stored).2)]
        exact .refl _
    | decorated basic decorator => exact .refl _
    | tuple elements => exact Persists.allM fun e _ => hpart e
    | array domain element | rectangular rank index strided | associative index parSafe
    | cPtr element | enumeration e => exact .refl _

theorem genericity_persists (grows : pool.Grows pool') (ty : TypeId) :
    Persists (d.genericity pool ty) (d.genericity pool' ty) :=
  d.genericityWithin_persists grows grows.sameUnvisited ty

theorem fields_persists (grows : pool.Grows pool') (policy : DefaultsPolicy) (ty : TypeId) :
    Persists (d.fields pool policy ty) (d.fields pool' policy ty) :=
  d.fieldsWithin_persists grows grows.sameUnvisited policy ty

theorem isDefaultInitializable_persists (grows : pool.Grows pool') (ty : TypeId) :
    Persists (d.isDefaultInitializable pool ty) (d.isDefaultInitializable pool' ty) :=
  d.defaultInitializableWithin_persists grows grows.sameUnvisited ty

theorem receiver?_persists (grows : pool.Grows pool') (id : DeclId) :
    Persists (d.receiver? pool id) (d.receiver? pool' id) := by
  unfold receiver?
  split
  · unfold TypePool.resolveIntent
    split
    · exact ((grows.read _).map _).map _
    · exact .refl _
  · exact .refl _

end Declarations

/-! ## The need for a method -/

/-- The questions that a host answers over a pool keep their answers over another one. -/
structure Host.Persistent (host : Host) (pool pool' : TypePool) : Prop where
  receiver? : ∀ id, Persists (host.receiver? pool id) (host.receiver? pool' id)
  fields : ∀ policy ty, Persists (host.fields pool policy ty) (host.fields pool' policy ty)
  isDefaultInitializable : ∀ ty,
    Persists (host.isDefaultInitializable pool ty) (host.isDefaultInitializable pool' ty)
  genericity : ∀ ty, Persists (host.genericity pool ty) (host.genericity pool' ty)
  fieldId? : ∀ ty name, Persists (host.fieldId? pool ty name) (host.fieldId? pool' ty name)
  canPass : ∀ actual formal,
    Persists (host.canPass pool actual formal) (host.canPass pool' actual formal)

theorem Declarations.host_persistent (d : Declarations) {pool pool' : TypePool}
    (grows : pool.Grows pool') : d.host.Persistent pool pool' where
  receiver? := d.receiver?_persists grows
  fields := d.fields_persists grows
  isDefaultInitializable := d.isDefaultInitializable_persists grows
  genericity := d.genericity_persists grows
  fieldId? ty _ := (grows.compositeOf? ty).map _
  canPass := grows.canPass

namespace Host.Persistent

variable {host : Host} {pool pool' : TypePool}

theorem covers (p : host.Persistent pool pool') (ty : TypeId) (decl : DeclId) :
    Persists (host.covers pool ty decl) (host.covers pool' ty decl) := by
  unfold Host.covers
  split
  · split
    · exact .refl _
    · refine (p.receiver? decl).bind fun receiver _ => ?_
      cases receiver with
      | none => exact .refl _
      | some receiver => exact (p.canPass _ _).map _
  · exact .refl _

theorem isShadowed (p : host.Persistent pool pool') (grows : pool.Grows pool') (ty : TypeId)
    (name : Name) : Persists (host.isShadowed pool ty name) (host.isShadowed pool' ty name) := by
  unfold Host.isShadowed
  refine (grows.compositeOf? ty).bind fun comp _ => ?_
  cases comp with
  | none => exact .refl _
  | some comp =>
    dsimp only
    split
    · exact (Persists.refl _).bind fun decls _ => Persists.anyM fun decl _ => p.covers ty decl
    · exact .refl _

theorem needsMethod (p : host.Persistent pool pool') (grows : pool.Grows pool') (ty : TypeId)
    (name : Name) (parenless : Bool) :
    Persists (host.needsMethod pool ty name parenless)
      (host.needsMethod pool' ty name parenless) := by
  unfold Host.needsMethod
  refine (grows.kind ty).bind fun kind _ => ?_
  split
  · exact (p.isShadowed grows ty name).bind fun _ _ => .refl _
  · exact .refl _

end Host.Persistent

end MethodSynthesis
