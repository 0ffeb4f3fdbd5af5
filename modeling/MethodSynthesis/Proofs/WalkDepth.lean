import MethodSynthesis.Proofs.Stability

/-!
# How deep the walks nest

The walks through the types of fields follow declarations, which may lead back to where they came from.
All that keeps a walk from going round is that a composite on its way adds nothing when it is met
again. The walks are stated here with no more at hand than this: the composites on the way, the last
entered first, and a depth to which questions may be nested. A question that is nested deeper is at
fault, and so is each question on the way to it.

`walks_end` gives a depth that is enough for every stored type of a built program, whatever circles its
declarations run in. The measure behind it is the number of composites that are not on the way, and
below that the height of the type (`TypePool.nesting`). Each step to a part lowers the height; each
composite entered may lead to a type of any height, and leaves one composite fewer to enter.
-/

set_option autoImplicit false

namespace MethodSynthesis

/-! ## The height of types -/

namespace TypePool

variable {pool : TypePool} {ty part : TypeId} {data : TypeData} {unvisited : List TypeId}

/-- How far the parts of a type are nested in it. -/
def height (pool : TypePool) : TypeId → Nat :=
  pool.fold (fun _ => 0) fun _ data part => (data.components.map part).foldr max 0 + 1

theorem height_eq (wf : pool.WellFormed) (stored : pool.read? ty = some data) :
    pool.height ty = (data.components.map pool.height).foldr max 0 + 1 :=
  wf.fold_eq stored fun _ _ parts => by rw [List.map_congr_left parts]

theorem height_pos (wf : pool.WellFormed) (stored : pool.read? ty = some data) :
    0 < pool.height ty := by
  rw [height_eq wf stored]
  exact Nat.succ_pos _

theorem height_part (wf : pool.WellFormed) (stored : pool.read? ty = some data)
    (mem : part ∈ data.components) : pool.height part < pool.height ty := by
  rw [height_eq wf stored, Nat.lt_succ_iff]
  exact List.le_max_of_le' 0 (List.mem_map_of_mem mem) le_rfl

/-- Parts are older than what they are parts of, so no type is higher than there are types. -/
theorem height_le_size (pool : TypePool) (ty : TypeId) : pool.height ty ≤ pool.size := by
  unfold height fold size InternTable.size
  induction pool.table.entries generalizing ty with
  | nil => exact le_rfl
  | cons entry older ih =>
    rw [foldEntries, List.length_cons]
    split
    · refine Nat.succ_le_succ (List.max_le_of_forall_le _ _ fun height mem => ?_)
      obtain ⟨part, -, rfl⟩ := List.mem_map.1 mem
      exact ih part
    · exact (ih ty).trans (Nat.le_succ _)

/-! ## What is left to a walk -/

/-- How deep a walk from a type may nest its questions, when it may still enter the given composites. -/
def nesting (pool : TypePool) (unvisited : List TypeId) (ty : TypeId) : Nat :=
  unvisited.length * (pool.size + 1) + pool.height ty

theorem nesting_part (wf : pool.WellFormed) (stored : pool.read? ty = some data)
    (mem : part ∈ data.components) : pool.nesting unvisited part < pool.nesting unvisited ty :=
  Nat.add_lt_add_left (height_part wf stored mem) _

theorem nesting_lt (pool : TypePool) (unvisited : List TypeId) (ty : TypeId) :
    pool.nesting unvisited ty < (unvisited.length + 1) * (pool.size + 1) := by
  rw [nesting, Nat.add_one_mul]
  exact Nat.add_lt_add_left (Nat.lt_succ_of_le (pool.height_le_size ty)) _

/-- Entering a composite leaves less than what a walk from the composite may take. -/
theorem length_erase_mul_lt (wf : pool.WellFormed) (stored : pool.read? ty = some data)
    (mem : ty ∈ unvisited) :
    ((unvisited.erase ty).length + 1) * (pool.size + 1) < pool.nesting unvisited ty := by
  rw [nesting, List.length_erase_add_one mem]
  exact Nat.lt_add_of_pos_right (height_pos wf stored)

/-- Entering a type puts it on the way. -/
theorem insert_setOf_mem (ty : TypeId) (way : List TypeId) :
    insert ty {x | x ∈ way} = {x | x ∈ ty :: way} :=
  Set.ext fun _ => List.mem_cons.symm

theorem Visits.enter_cons {way : List TypeId} (visits : pool.Visits unvisited {x | x ∈ way})
    {c : Composite} (stored : pool.read? ty = some (.composite c)) :
    pool.Visits (unvisited.erase ty) {x | x ∈ ty :: way} :=
  insert_setOf_mem ty way ▸ visits.enter stored

/-- The induction along a walk with a limited depth. Each question has depth left for its parts, and a
composite that is entered for every type. -/
theorem WellFormed.depth_induction (wf : pool.WellFormed)
    {motive : List TypeId → List TypeId → Nat → TypeId → Prop}
    (unknown : ∀ {unvisited way depth}, motive unvisited way (depth + 1) .unknown)
    (stored : ∀ {unvisited way depth ty data}, pool.Visits unvisited {x | x ∈ way} →
      pool.read? ty = some data → pool.nesting unvisited ty ≤ depth →
        (∀ part ∈ data.components, motive unvisited way depth part) →
          (∀ c, data = .composite c → ty ∈ unvisited → ∀ y, pool.Admits y →
            motive (unvisited.erase ty) (ty :: way) depth y) → motive unvisited way (depth + 1) ty)
    {way : List TypeId} {depth : Nat} (visits : pool.Visits unvisited {x | x ∈ way})
    (ha : pool.Admits ty) (enough : pool.nesting unvisited ty < depth) :
    motive unvisited way depth ty := by
  refine wf.walk_induction (motive := fun unvisited visiting ty => ∀ way depth,
    visiting = {x | x ∈ way} → pool.nesting unvisited ty < depth → motive unvisited way depth ty)
    ?_ ?_ visits ha way depth rfl enough
  · intro unvisited visiting way depth _ enough
    obtain ⟨depth, rfl⟩ := Nat.exists_eq_add_one_of_ne_zero (Nat.ne_zero_of_lt enough)
    exact unknown
  · intro unvisited visiting ty data visits hty parts inside way depth onWay enough
    obtain ⟨depth, rfl⟩ := Nat.exists_eq_add_one_of_ne_zero (Nat.ne_zero_of_lt enough)
    have left : pool.nesting unvisited ty ≤ depth := Nat.lt_succ_iff.1 enough
    subst onWay
    refine stored visits hty left (fun part mem => ?_) fun c eq mem y hy => ?_
    · exact parts part mem way depth rfl ((nesting_part wf hty mem).trans_le left)
    · have less : pool.nesting (unvisited.erase ty) y < pool.nesting unvisited ty :=
        (pool.nesting_lt _ y).trans (length_erase_mul_lt wf hty mem)
      exact inside c eq mem y hy (ty :: way) depth (insert_setOf_mem ty way) (less.trans_le left)

end TypePool

/-! ## The walks with a limited depth -/

namespace Declarations

variable {d : Declarations} {pool : TypePool} {tooDeep : Fault} {ty : TypeId} {data : TypeData}
  {unvisited way : List TypeId} {visiting : Set TypeId} {depth : Nat}

/-- How open a type is, asked on the way through the given composites. -/
def genericityAlong (d : Declarations) (pool : TypePool) (tooDeep : Fault) :
    Nat → List TypeId → TypeId → Except Fault Genericity
  | 0, _, _ => .error tooDeep
  | depth + 1, way, ty => do
    if ty.isUnknown then return .concrete
    match ← pool.read ty with
    | .primitive .any | .primitive .integral => return .generic
    | .primitive _ | .enumeration _ => return .concrete
    | .composite c =>
      if ty ∈ way then return .concrete
      let isGeneric := fun field =>
        return (← d.genericityAlong pool tooDeep depth (ty :: way) field).isGeneric
      return .ofFields (← d.resolveFields c .ignoreDefaults isGeneric)
    | .decorated basic _ => d.genericityAlong pool tooDeep depth way basic
    | .tuple elements =>
      elements.foldlM
        (fun acc e => return acc.join (← d.genericityAlong pool tooDeep depth way e)) .concrete
    | .array _ element | .cPtr element => d.genericityAlong pool tooDeep depth way element
    | .rectangular _ index _ | .associative index _ =>
      d.genericityAlong pool tooDeep depth way index

/-- The fields of a type, asked on the way through the given composites. -/
def fieldsAlong (d : Declarations) (pool : TypePool) (tooDeep : Fault) :
    Nat → List TypeId → DefaultsPolicy → TypeId → Except Fault FieldList
  | 0, _, _, _ => .error tooDeep
  | depth + 1, way, policy, ty =>
    let isGeneric := fun field =>
      return (← d.genericityAlong pool tooDeep depth way field).isGeneric
    d.fieldsWith pool policy isGeneric ty

/-- Whether a value of a type can be made without an initializer, asked on the way through the given
composites. The walks for the fields of an entered composite start with the same way. -/
def initializableAlong (d : Declarations) (pool : TypePool) (tooDeep : Fault) :
    Nat → List TypeId → TypeId → Except Fault Bool
  | 0, _, _ => .error tooDeep
  | depth + 1, way, ty => do
    if ty.isUnknown then return false
    match ← pool.read ty with
    | .primitive .any | .primitive .integral | .primitive .rootObject => return false
    | .primitive _ => return true
    | .composite c =>
      if c.kind = .classType then return false
      if ty ∈ way then return false
      let list ← d.fieldsAlong pool tooDeep depth (ty :: way) .useDefaults ty
      if list.isGeneric then return false
      list.fields.allM fun field =>
        if field.hasDefault || field.type.binding.isTypeOrParam then return true
        else d.initializableAlong pool tooDeep depth (ty :: way) field.type.type
    | .decorated _ decorator => return decorator.nilable
    | .tuple elements => elements.allM (d.initializableAlong pool tooDeep depth way)
    | .array _ _ | .rectangular _ _ _ | .associative _ _ | .cPtr _ => return true
    | .enumeration e => return !e.constants.isEmpty

/-- A walk may enter the composites that are not on its way. -/
theorem mem_unvisited_iff (visits : pool.Visits unvisited {x | x ∈ way}) {c : Composite}
    (stored : pool.read? ty = some (.composite c)) : ty ∈ unvisited ↔ ty ∉ way :=
  visits.mem_iff stored

section Agreement

variable (wf : pool.WellFormed) (admitted : d.AdmittedBy pool)

include wf admitted

/-- Two walks that agree on the types of values agree on the fields of a composite. -/
theorem resolveFields_along (visits : pool.Visits unvisited visiting) (c : Composite)
    (policy : DefaultsPolicy)
    (agree : ∀ y ∈ d.valueTypes c, d.genericityAlong pool tooDeep depth way y =
      d.genericityWithin pool unvisited y) :
    (d.resolveFields c policy fun y =>
        return (← d.genericityAlong pool tooDeep depth way y).isGeneric) =
      d.resolveFields c policy fun y => return (← d.genericityWithin pool unvisited y).isGeneric := by
  have answer : ∀ y ∈ d.valueTypes c, (do return (← d.genericityWithin pool unvisited y).isGeneric) =
      (.ok (d.genericWithin pool unvisited y) : Except Fault Bool) := fun y hy =>
    genericWithin_eq_ok
      ((genericityWithin_spec wf admitted visits (admitted.valueTypes hy)).imp fun _ => And.left)
  rw [resolveFields_eq_ok policy answer]
  refine resolveFields_eq_ok policy fun y hy => ?_
  rw [agree y hy, answer y hy]

/-- With depth enough, a walk that knows its way answers as one that knows what it may still enter. -/
theorem genericityAlong_eq (visits : pool.Visits unvisited {x | x ∈ way}) (ha : pool.Admits ty)
    (enough : pool.nesting unvisited ty < depth) :
    d.genericityAlong pool tooDeep depth way ty = d.genericityWithin pool unvisited ty := by
  refine wf.depth_induction (motive := fun unvisited way depth ty =>
    d.genericityAlong pool tooDeep depth way ty = d.genericityWithin pool unvisited ty)
    ?_ ?_ visits ha enough
  · intro unvisited way depth
    rw [genericityWithin_unknown]
    rfl
  · intro unvisited way depth ty data visits stored _ parts inside
    rw [genericityWithin_eq wf stored, genericityAlong, TypePool.isUnknown_of_read? stored,
      TypePool.read_eq_ok_iff.2 stored]
    cases data with
    | composite c =>
      have onWay := mem_unvisited_iff visits stored
      by_cases mem : ty ∈ unvisited
      · -- the composite goes on the way, and its fields may be of any type
        have fields := resolveFields_along wf admitted (visits.enter_cons stored) c .ignoreDefaults
          fun y hy => inside c rfl mem y (admitted.valueTypes hy)
        simp only [Bool.false_eq_true, if_false, ok_bind, if_pos mem, if_neg (onWay.1 mem), fields]
      · have met : ty ∈ way := not_not.1 (mt onWay.2 mem)
        simp only [Bool.false_eq_true, if_false, ok_bind, if_neg mem, if_pos met, pure_eq_ok]
    | tuple elements => exact foldlM_congr (fun acc e he => by rw [parts e he]) _
    | primitive p => cases p <;> rfl
    | enumeration e => rfl
    | decorated basic _ => exact parts basic List.mem_cons_self
    | cPtr element => exact parts element List.mem_cons_self
    | rectangular _ index _ | associative index _ => exact parts index List.mem_cons_self
    | array domain element => exact parts element (List.mem_cons_of_mem _ List.mem_cons_self)

/-- With depth enough for any type, the fields have the answer that they have in the other walk. -/
theorem fieldsAlong_eq (visits : pool.Visits unvisited {x | x ∈ way}) (policy : DefaultsPolicy)
    (ty : TypeId) (enough : (unvisited.length + 1) * (pool.size + 1) < depth) :
    d.fieldsAlong pool tooDeep depth way policy ty = d.fieldsWithin pool unvisited policy ty := by
  obtain ⟨depth, rfl⟩ := Nat.exists_eq_add_one_of_ne_zero (Nat.ne_zero_of_lt enough)
  rw [fieldsAlong, fieldsWithin, fieldsWith, fieldsWith]
  refine bind_congr fun found => ?_
  cases found with
  | none => rfl
  | some c =>
    dsimp only
    rw [resolveFields_along wf admitted visits c policy fun y hy => ?_]
    exact genericityAlong_eq wf admitted visits (admitted.valueTypes hy)
      ((pool.nesting_lt unvisited y).trans_le (Nat.lt_succ_iff.1 enough))

/-- As `genericityAlong_eq`, for values by default. -/
theorem initializableAlong_eq (visits : pool.Visits unvisited {x | x ∈ way}) (ha : pool.Admits ty)
    (enough : pool.nesting unvisited ty < depth) :
    d.initializableAlong pool tooDeep depth way ty =
      d.defaultInitializableWithin pool unvisited ty := by
  refine wf.depth_induction (motive := fun unvisited way depth ty =>
    d.initializableAlong pool tooDeep depth way ty =
      d.defaultInitializableWithin pool unvisited ty) ?_ ?_ visits ha enough
  · intro unvisited way depth
    rw [defaultInitializableWithin_unknown]
    rfl
  · intro unvisited way depth ty data visits stored left parts inside
    rw [defaultInitializableWithin_eq wf stored, initializableAlong,
      TypePool.isUnknown_of_read? stored, TypePool.read_eq_ok_iff.2 stored]
    cases data with
    | composite c =>
      have onWay := mem_unvisited_iff visits stored
      by_cases kind : c.kind = .classType
      · simp only [Bool.false_eq_true, if_false, ok_bind, if_pos kind, pure_eq_ok]
      by_cases mem : ty ∈ unvisited
      · -- the walks for the fields start with the composite on the way, as what it needs does
        have entered := visits.enter_cons stored
        have fields : d.fieldsAlong pool tooDeep depth (ty :: way) .useDefaults ty =
            d.fieldsWithin pool (unvisited.erase ty) .useDefaults ty :=
          fieldsAlong_eq wf admitted entered .useDefaults ty
            ((TypePool.length_erase_mul_lt wf stored mem).trans_le left)
        have answer := fieldsWithin_composite stored .useDefaults fun y hy =>
          (genericityWithin_spec wf admitted entered (admitted.valueTypes hy)).imp fun _ => And.left
        simp only [Bool.false_eq_true, if_false, ok_bind, if_neg kind, if_pos mem,
          if_neg (onWay.1 mem), fields, answer]
        refine if_congr Iff.rfl rfl (allM_congr fun field listed => if_congr Iff.rfl rfl ?_)
        exact inside c rfl mem _ (admits_of_mem_resolvedFields wf admitted stored listed)
      · have met : ty ∈ way := not_not.1 (mt onWay.2 mem)
        simp only [Bool.false_eq_true, if_false, ok_bind, if_neg kind, if_neg mem, if_pos met,
          pure_eq_ok]
    | tuple elements => exact allM_congr parts
    | primitive p => cases p <;> rfl
    | enumeration _ | decorated _ _ | array _ _ | rectangular _ _ _ | associative _ _ | cPtr _ => rfl

end Agreement

end Declarations

/-- The walks from a stored type of a built program end: nested no deeper than there are pairs of a
composite and a type, with one more of each counted, they have answers, and the answers are those to
the three questions. -/
theorem walks_end {p : Program} (built : p.Built) {ty : TypeId} {data : TypeData}
    (stored : p.types.read? ty = some data) (tooDeep : Fault) {depth : Nat}
    (enough : (p.types.composites.length + 1) * (p.types.size + 1) < depth) :
    (∃ g, p.decls.genericityAlong p.types tooDeep depth [] ty = .ok g ∧
      p.decls.genericity p.types ty = .ok g) ∧
    (∃ able, p.decls.initializableAlong p.types tooDeep depth [] ty = .ok able ∧
      p.decls.isDefaultInitializable p.types ty = .ok able) ∧
    ∀ policy, ∃ list, p.decls.fieldsAlong p.types tooDeep depth [] policy ty = .ok list ∧
      p.decls.fields p.types policy ty = .ok list := by
  have sound := built.wellFormed.types
  have wf := sound.wellFormed
  have admitted := built.wellFormed.decls.admitted
  have ha : p.types.Admits ty := TypePool.admits_of_read? stored
  have visits : p.types.Visits p.types.composites {x | x ∈ ([] : List TypeId)} := by
    simpa using TypePool.visits_start wf.table
  have nested : p.types.nesting p.types.composites ty < depth :=
    (p.types.nesting_lt _ ty).trans enough
  refine ⟨?_, ?_, fun policy => ?_⟩
  · obtain ⟨g, answer, -⟩ := Declarations.genericity_spec wf admitted ha
    exact ⟨g, (Declarations.genericityAlong_eq wf admitted visits ha nested).trans answer,
      answer⟩
  · obtain ⟨able, answer, -⟩ := Declarations.isDefaultInitializable_spec wf admitted ha
    exact ⟨able, (Declarations.initializableAlong_eq wf admitted visits ha nested).trans answer,
      answer⟩
  · obtain ⟨list, answer⟩ := Declarations.exists_fields sound admitted stored policy
    exact ⟨list, (Declarations.fieldsAlong_eq wf admitted visits policy ty enough).trans answer,
      answer⟩

/-- Records that point to each other, with fields that were added after the pointer was made. -/
theorem mutualRecords_walks_end :
    mutualRecords.Built ∧
      mutualRecords.types.read? (.known ⟨1, 0⟩) = some (.composite firstRecord) ∧
      (mutualRecords.types.composites.length + 1) * (mutualRecords.types.size + 1) < 40 ∧
      (∃ g, mutualRecords.decls.genericityAlong mutualRecords.types (.missingType .unknown) 40 []
          (.known ⟨1, 0⟩) = .ok g ∧
        mutualRecords.decls.genericity mutualRecords.types (.known ⟨1, 0⟩) = .ok g) ∧
      (∃ able, mutualRecords.decls.initializableAlong mutualRecords.types (.missingType .unknown) 40
          [] (.known ⟨1, 0⟩) = .ok able ∧
        mutualRecords.decls.isDefaultInitializable mutualRecords.types (.known ⟨1, 0⟩) = .ok able) ∧
      ∀ policy, ∃ list,
        mutualRecords.decls.fieldsAlong mutualRecords.types (.missingType .unknown) 40 [] policy
          (.known ⟨1, 0⟩) = .ok list ∧
        mutualRecords.decls.fields mutualRecords.types policy (.known ⟨1, 0⟩) = .ok list := by
  have built : mutualRecords.Built := Program.built_ofCalls _ _
  have stored : mutualRecords.types.read? (.known ⟨1, 0⟩) = some (.composite firstRecord) := by
    decide +kernel
  have enough :
      (mutualRecords.types.composites.length + 1) * (mutualRecords.types.size + 1) < 40 := by
    decide +kernel
  exact ⟨built, stored, enough, walks_end built stored (.missingType .unknown) enough⟩

end MethodSynthesis
