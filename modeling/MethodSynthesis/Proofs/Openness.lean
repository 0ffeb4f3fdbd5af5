import MethodSynthesis.Proofs.Programs
import Mathlib.Data.Set.Insert
import Mathlib.Logic.Relation

/-!
# Which types are open

A type is open of itself if it is one of the two generic primitive types, or a composite with an
unsubstituted field that has no type of its own. It is open if it leads to such a type through the
values of unsubstituted fields and through the parts of other types. `Declarations.OpenAvoiding` is
this relation with a set of types that the way may not touch. Its main property is the cut at the last
visit of a type (`OpenAvoiding.cut`): what is open at all is open on a way that avoids the type, or
the type itself leads on to something open without coming back.

The walk behind the genericity of a type cuts its way at each composite that it has entered. It always
has an answer, and the answer is generic exactly for the types that are open on a way that avoids the
entered composites (`genericityWithin_spec`).
-/

set_option autoImplicit false

namespace MethodSynthesis

/-! ## Joining -/

namespace Genericity

theorem isGeneric_join (a b : Genericity) : (a.join b).isGeneric = (a.isGeneric || b.isGeneric) := by
  cases a <;> cases b <;> rfl

theorem join_eq_generic_iff {a b : Genericity} :
    a.join b = .generic ↔ a = .generic ∨ b = .generic := by
  cases a <;> cases b <;> simp [join]

theorem isGeneric_eq_false_iff {g : Genericity} : g.isGeneric = false ↔ g = .concrete := by
  cases g <;> simp [isGeneric]

theorem isGeneric_foldl_join {α : Type} (f : α → Genericity) (l : List α) (g : Genericity) :
    (l.foldl (fun acc a => acc.join (f a)) g).isGeneric =
      (g.isGeneric || l.any fun a => (f a).isGeneric) := by
  induction l generalizing g with
  | nil => simp
  | cons a l ih => rw [List.foldl_cons, ih, isGeneric_join, List.any_cons, Bool.or_assoc]

theorem foldl_join_eq_generic_iff {α : Type} (f : α → Genericity) (l : List α) (g : Genericity) :
    l.foldl (fun acc a => acc.join (f a)) g = .generic ↔ g = .generic ∨ ∃ a ∈ l, f a = .generic := by
  induction l generalizing g with
  | nil => simp
  | cons a l ih => rw [List.foldl_cons, ih, join_eq_generic_iff, List.exists_mem_cons_iff, or_assoc]

/-- What one field adds. -/
def ofField (field : ResolvedField × Bool) : Genericity :=
  if field.2 then if field.1.hasDefault then .genericWithDefaults else .generic else .concrete

theorem ofFields_eq_foldl (fields : List (ResolvedField × Bool)) :
    ofFields fields = fields.foldl (fun acc field => acc.join (ofField field)) .concrete := by
  refine congrArg (fun f => List.foldl f _ fields) (funext fun acc => funext fun ⟨field, isOpen⟩ => ?_)
  cases isOpen with
  | true => rfl
  | false => cases acc <;> rfl

theorem isGeneric_ofFields (fields : List (ResolvedField × Bool)) :
    (ofFields fields).isGeneric = fields.any (·.2) := by
  rw [ofFields_eq_foldl, isGeneric_foldl_join]
  refine congrArg (List.any fields) (funext fun ⟨field, isOpen⟩ => ?_)
  cases isOpen with
  | true => cases h : field.hasDefault <;> simp [ofField, h, isGeneric]
  | false => rfl

theorem ofFields_eq_generic_iff {fields : List (ResolvedField × Bool)} :
    ofFields fields = .generic ↔ ∃ field ∈ fields, field.2 = true ∧ field.1.hasDefault = false := by
  rw [ofFields_eq_foldl, foldl_join_eq_generic_iff]
  simp only [reduceCtorEq, false_or]
  refine exists_congr fun field => and_congr_right fun _ => ?_
  obtain ⟨field, isOpen⟩ := field
  cases isOpen <;> cases h : field.hasDefault <;> simp [ofField, h]

end Genericity

/-! ## Ways to an open type -/

namespace Declarations

variable {d : Declarations} {pool : TypePool} {visiting visiting' : Set TypeId} {t x y : TypeId}

/-- The types that a structure leads to when it is asked whether it is open. -/
def leads (d : Declarations) : TypeData → List TypeId
  | .primitive _ | .enumeration _ => []
  | .composite c => d.valueTypes c
  | .decorated basic _ => [basic]
  | .tuple elements => elements
  | .array _ element | .cPtr element => [element]
  | .rectangular _ index _ | .associative index _ => [index]

/-- Whether a structure is open of itself. -/
def seeds (d : Declarations) : TypeData → Bool
  | .primitive p => p = .any || p = .integral
  | .composite c => d.selfOpen .ignoreDefaults c
  | _ => false

/-- A type leads to another in one step. -/
def Leads (d : Declarations) (pool : TypePool) (x y : TypeId) : Prop :=
  ∃ data, pool.read? x = some data ∧ y ∈ d.leads data

/-- A type is open of itself. -/
def IsSeed (d : Declarations) (pool : TypePool) (x : TypeId) : Prop :=
  ∃ data, pool.read? x = some data ∧ d.seeds data = true

/-- A type leads to one that is open of itself, and no type on the way is among the given ones. -/
inductive OpenAvoiding (d : Declarations) (pool : TypePool) (visiting : Set TypeId) :
    TypeId → Prop
  | seed {x : TypeId} : x ∉ visiting → d.IsSeed pool x → OpenAvoiding d pool visiting x
  | step {x y : TypeId} : x ∉ visiting → d.Leads pool x y → OpenAvoiding d pool visiting y →
      OpenAvoiding d pool visiting x

namespace OpenAvoiding

theorem not_mem (h : d.OpenAvoiding pool visiting x) : x ∉ visiting := by
  cases h with
  | seed h _ => exact h
  | step h _ _ => exact h

theorem mono (h : d.OpenAvoiding pool visiting x) (sub : visiting' ⊆ visiting) :
    d.OpenAvoiding pool visiting' x := by
  induction h with
  | seed avoided isSeed => exact .seed (avoided ∘ @sub _) isSeed
  | step avoided leads _ ih => exact .step (avoided ∘ @sub _) leads ih

/-- The cut at the last visit of `t`. -/
theorem cut (h : d.OpenAvoiding pool visiting x) (t : TypeId) :
    d.OpenAvoiding pool (insert t visiting) x ∨ d.IsSeed pool t ∨
      ∃ y, d.Leads pool t y ∧ d.OpenAvoiding pool (insert t visiting) y := by
  induction h with
  | @seed x avoided isSeed =>
    by_cases same : x = t
    · exact .inr (.inl (same ▸ isSeed))
    · exact .inl (.seed (by simp [same, avoided]) isSeed)
  | @step x y avoided leads _ ih =>
    -- the rest of the way avoids `t`, or has a last visit of `t` on it
    rcases ih with rest | visit
    · by_cases same : x = t
      · exact .inr (.inr ⟨y, same ▸ leads, rest⟩)
      · exact .inl (.step (by simp [same, avoided]) leads rest)
    · exact .inr visit

/-- A way that cannot avoid `t` leads there. -/
theorem reaches (h : d.OpenAvoiding pool visiting x)
    (blocked : ¬ d.OpenAvoiding pool (insert t visiting) x) :
    Relation.ReflTransGen (d.Leads pool) x t := by
  induction h with
  | @seed x avoided isSeed =>
    by_cases same : x = t
    · rw [same]
    · exact absurd (.seed (by simp [same, avoided]) isSeed) blocked
  | @step x y avoided leads _ ih =>
    by_cases same : x = t
    · rw [same]
    · refine .head leads (ih fun rest => blocked ?_)
      exact .step (by simp [same, avoided]) leads rest

theorem of_reaches (reaches : Relation.ReflTransGen (d.Leads pool) x t)
    (h : d.OpenAvoiding pool ∅ t) : d.OpenAvoiding pool ∅ x := by
  induction reaches using Relation.ReflTransGen.head_induction_on with
  | refl => exact h
  | head leads _ ih => exact .step (Set.notMem_empty _) leads ih

/-- A type that leads to one that is open of itself is open on a way that avoids the given types, or
the way leaves them for the last time. -/
theorem of_lastExit (reaches : Relation.ReflTransGen (d.Leads pool) x t) (isSeed : d.IsSeed pool t)
    (avoided : t ∉ visiting) :
    d.OpenAvoiding pool visiting x ∨
      ∃ z ∈ visiting, ∃ y, d.Leads pool z y ∧ d.OpenAvoiding pool visiting y := by
  induction reaches using Relation.ReflTransGen.head_induction_on with
  | refl => exact .inl (.seed avoided isSeed)
  | @head x y leads _ ih =>
    -- a last exit further on is one of this way; otherwise it may be here
    rcases ih with opens | exit
    · by_cases mem : x ∈ visiting
      · exact .inr ⟨x, mem, y, leads, opens⟩
      · exact .inl (.step mem leads opens)
    · exact .inr exit

end OpenAvoiding

/-- A type is open when it is so of itself, or when it leads to an open type. -/
theorem openAvoiding_iff {data : TypeData} (stored : pool.read? x = some data) :
    d.OpenAvoiding pool visiting x ↔ x ∉ visiting ∧
      (d.seeds data = true ∨ ∃ y ∈ d.leads data, d.OpenAvoiding pool visiting y) := by
  constructor
  · intro h
    cases h with
    | seed avoided isSeed =>
      obtain ⟨data', stored', isSeed⟩ := isSeed
      obtain rfl := Option.some.inj (stored.symm.trans stored')
      exact ⟨avoided, .inl isSeed⟩
    | step avoided leads rest =>
      obtain ⟨data', stored', leads⟩ := leads
      obtain rfl := Option.some.inj (stored.symm.trans stored')
      exact ⟨avoided, .inr ⟨_, leads, rest⟩⟩
  · rintro ⟨avoided, isSeed | ⟨y, leads, rest⟩⟩
    · exact .seed avoided ⟨data, stored, isSeed⟩
    · exact .step avoided ⟨data, stored, leads⟩ rest

/-- The way from a type to an open one need not come back to the type. -/
theorem openAvoiding_iff_insert {data : TypeData} (stored : pool.read? x = some data) :
    d.OpenAvoiding pool visiting x ↔ x ∉ visiting ∧
      (d.seeds data = true ∨
        ∃ y ∈ d.leads data, d.OpenAvoiding pool (insert x visiting) y) := by
  constructor
  · intro h
    refine ⟨h.not_mem, ?_⟩
    rcases h.cut x with rest | ⟨data', stored', isSeed⟩ | ⟨y, ⟨data', stored', leads⟩, rest⟩
    · exact absurd (Set.mem_insert x visiting) rest.not_mem
    · obtain rfl := Option.some.inj (stored.symm.trans stored')
      exact .inl isSeed
    · obtain rfl := Option.some.inj (stored.symm.trans stored')
      exact .inr ⟨y, leads, rest⟩
  · rintro ⟨avoided, isSeed | ⟨y, leads, rest⟩⟩
    · exact .seed avoided ⟨data, stored, isSeed⟩
    · exact .step avoided ⟨data, stored, leads⟩ (rest.mono (Set.subset_insert x visiting))

end Declarations

/-! ## The walk -/

namespace TypePool

variable {pool : TypePool} {unvisited : List TypeId} {visiting : Set TypeId}

/-- A walk that may still enter the composites of the list has entered those of the set. -/
structure Visits (pool : TypePool) (unvisited : List TypeId) (visiting : Set TypeId) : Prop where
  nodup : unvisited.Nodup
  composite : ∀ x ∈ visiting, ∃ c, pool.read? x = some (.composite c)
  mem_iff : ∀ {x c}, pool.read? x = some (.composite c) → (x ∈ unvisited ↔ x ∉ visiting)

theorem visits_start (wf : pool.table.WellFormed) : pool.Visits pool.composites ∅ where
  nodup := nodup_composites wf
  composite _ h := h.elim
  mem_iff h := by simp [(mem_composites_iff wf).2 ⟨_, h⟩]

theorem Visits.enter (visits : pool.Visits unvisited visiting) {x : TypeId} {c : Composite}
    (stored : pool.read? x = some (.composite c)) :
    pool.Visits (unvisited.erase x) (insert x visiting) where
  nodup := visits.nodup.erase x
  composite := by
    rintro y (rfl | h)
    · exact ⟨c, stored⟩
    · exact visits.composite y h
  mem_iff h := by
    rw [visits.nodup.mem_erase_iff, visits.mem_iff h, Set.mem_insert_iff, not_or]

/-- Types that are no composites are never among the entered ones. -/
theorem Visits.not_mem (visits : pool.Visits unvisited visiting) {x : TypeId} {data : TypeData}
    (stored : pool.read? x = some data) (other : ∀ c, data ≠ .composite c) : x ∉ visiting := by
  intro mem
  obtain ⟨c, h⟩ := visits.composite x mem
  exact other c (Option.some.inj (stored.symm.trans h))

/-- The induction along a walk: a type may rely on its parts, and a composite that the walk may still
enter on every type, with the composite entered. -/
theorem WellFormed.walk_induction (wf : pool.WellFormed)
    {motive : List TypeId → Set TypeId → TypeId → Prop}
    (unknown : ∀ {unvisited visiting}, motive unvisited visiting .unknown)
    (stored : ∀ {unvisited visiting ty data}, pool.Visits unvisited visiting →
      pool.read? ty = some data → (∀ part ∈ data.components, motive unvisited visiting part) →
        (∀ c, data = .composite c → ty ∈ unvisited → ∀ y, pool.Admits y →
          motive (unvisited.erase ty) (insert ty visiting) y) → motive unvisited visiting ty)
    (visits : pool.Visits unvisited visiting) {ty : TypeId} (ha : pool.Admits ty) :
    motive unvisited visiting ty := by
  -- the outer induction is on what may still be entered, the inner one on the structure of the type
  induction h : unvisited.length using Nat.strongRecOn generalizing unvisited visiting ty with
  | _ n ih =>
  refine wf.induction unknown (fun ty data hty parts => ?_) ha
  refine stored visits hty parts fun c eq mem y hy => ?_
  subst eq
  exact ih _ (h ▸ length_erase_lt mem) (visits.enter hty) hy rfl

end TypePool

namespace Declarations

variable {d : Declarations} {pool : TypePool} {unvisited : List TypeId} {visiting : Set TypeId}

/-- Whether a walk finds a type generic. -/
def genericWithin (d : Declarations) (pool : TypePool) (unvisited : List TypeId) (ty : TypeId) :
    Bool :=
  match d.genericityWithin pool unvisited ty with
  | .ok g => g.isGeneric
  | .error _ => false

theorem genericityWithin_unknown :
    d.genericityWithin pool unvisited .unknown = .ok .concrete := by
  rw [genericityWithin, TypePool.fold_unknown]
  rfl

/-- One step of the walk. -/
theorem genericityWithin_eq (wf : pool.WellFormed) {ty : TypeId} {data : TypeData} :
    pool.read? ty = some data → d.genericityWithin pool unvisited ty = match data with
      | .primitive .any | .primitive .integral => .ok .generic
      | .primitive _ | .enumeration _ => .ok .concrete
      | .composite c =>
        if ty ∈ unvisited then do
          let fields ← d.resolveFields c .ignoreDefaults fun field =>
            return (← d.genericityWithin pool (unvisited.erase ty) field).isGeneric
          return .ofFields fields
        else .ok .concrete
      | .decorated basic _ => d.genericityWithin pool unvisited basic
      | .tuple elements =>
        elements.foldlM (fun acc e => return acc.join (← d.genericityWithin pool unvisited e))
          .concrete
      | .array _ element | .cPtr element => d.genericityWithin pool unvisited element
      | .rectangular _ index _ | .associative index _ => d.genericityWithin pool unvisited index := by
  intro stored
  have walk := genericityWithin.eq_1 d pool unvisited
  conv_lhs => rw [walk]
  rw [wf.fold_eq stored]
  · rw [← walk]
    cases data with
    | primitive p => cases p <;> rfl
    | composite c => by_cases mem : ty ∈ unvisited <;> simp [mem]
    | _ => rfl
  · intro f g agree
    cases data with
    | primitive p => cases p <;> rfl
    | tuple elements => exact foldlM_congr (fun acc e mem => by rw [agree e mem]) _
    | decorated basic decorator => exact agree basic List.mem_cons_self
    | rectangular _ index _ | associative index _ => exact agree index List.mem_cons_self
    | cPtr element => exact agree element List.mem_cons_self
    | array domain element => exact agree element (List.mem_cons_of_mem _ List.mem_cons_self)
    | composite _ | enumeration _ => rfl

theorem genericWithin_eq_ok {ty : TypeId}
    (h : ∃ g, d.genericityWithin pool unvisited ty = .ok g) :
    (do return (← d.genericityWithin pool unvisited ty).isGeneric) =
      (.ok (d.genericWithin pool unvisited ty) : Except Fault Bool) := by
  obtain ⟨g, hg⟩ := h
  rw [genericWithin, hg]
  rfl

theorem genericWithin_eq_true_iff {ty : TypeId} {P : Prop}
    (h : ∃ g, d.genericityWithin pool unvisited ty = .ok g ∧ (g.isGeneric = true ↔ P)) :
    d.genericWithin pool unvisited ty = true ↔ P := by
  obtain ⟨g, hg, opens⟩ := h
  rwa [genericWithin, hg]

/-- The walk enters a composite, and finds it as open as its fields. -/
theorem genericityWithin_composite (wf : pool.WellFormed) {x : TypeId} {c : Composite}
    (stored : pool.read? x = some (.composite c)) (mem : x ∈ unvisited)
    (value : ∀ ty ∈ d.valueTypes c, ∃ g, d.genericityWithin pool (unvisited.erase x) ty = .ok g) :
    d.genericityWithin pool unvisited x = .ok (.ofFields
      (d.resolvedFields c .ignoreDefaults (d.genericWithin pool (unvisited.erase x)))) := by
  rw [genericityWithin_eq wf stored]
  dsimp only
  rw [if_pos mem, resolveFields_eq_ok .ignoreDefaults fun ty h => genericWithin_eq_ok (value ty h)]
  rfl

/-- The walk has an answer, which is generic exactly if the type is open on a way that avoids the
entered composites. -/
theorem genericityWithin_spec (wf : pool.WellFormed) (admitted : d.AdmittedBy pool)
    (visits : pool.Visits unvisited visiting) {ty : TypeId} (ha : pool.Admits ty) :
    ∃ g, d.genericityWithin pool unvisited ty = .ok g ∧
      (g.isGeneric = true ↔ d.OpenAvoiding pool visiting ty) := by
  refine wf.walk_induction (motive := fun unvisited visiting ty =>
    ∃ g, d.genericityWithin pool unvisited ty = .ok g ∧
      (g.isGeneric = true ↔ d.OpenAvoiding pool visiting ty)) ?_ ?_ visits ha
  · intro unvisited visiting
    refine ⟨.concrete, genericityWithin_unknown, iff_of_false Bool.false_ne_true fun opens => ?_⟩
    cases opens with
    | seed _ isSeed => cases isSeed.choose_spec.1
    | step _ leads _ => cases leads.choose_spec.1
  · intro unvisited visiting ty data visits stored parts inside
    have unfolded : d.OpenAvoiding pool visiting ty ↔ ty ∉ visiting ∧
        (d.seeds data = true ∨ ∃ y ∈ d.leads data, d.OpenAvoiding pool visiting y) :=
      openAvoiding_iff stored
    cases data with
    | composite c =>
      by_cases mem : ty ∈ unvisited
      · have value : ∀ y ∈ d.valueTypes c, _ := fun y hy =>
          inside c rfl mem y (admitted.valueTypes hy)
        refine ⟨_, genericityWithin_composite wf stored mem
          fun y hy => (value y hy).imp fun _ => And.left, ?_⟩
        rw [Genericity.isGeneric_ofFields, any_resolvedFields, openAvoiding_iff_insert stored,
          and_iff_right ((visits.mem_iff stored).1 mem)]
        refine or_congr_right (exists_congr fun y => and_congr_right fun hy => ?_)
        exact genericWithin_eq_true_iff (value y hy)
      · refine ⟨.concrete, ?_, iff_of_false Bool.false_ne_true fun opens => ?_⟩
        · rw [genericityWithin_eq wf stored]
          exact if_neg mem
        · exact mem ((visits.mem_iff stored).2 opens.not_mem)
    | tuple elements =>
      have avoided := visits.not_mem stored (by simp)
      -- the answers of the elements as a function, so that the fold is one of joins
      let found := fun e => (d.genericityWithin pool unvisited e).toOption.getD .concrete
      have answer : ∀ e ∈ elements, d.genericityWithin pool unvisited e = .ok (found e) ∧
          ((found e).isGeneric = true ↔ d.OpenAvoiding pool visiting e) := by
        intro e he
        obtain ⟨g, hg, opens⟩ := parts e he
        simp only [found, hg]
        exact ⟨rfl, opens⟩
      refine ⟨_, (genericityWithin_eq wf stored).trans
        (foldlM_eq_ok (g := fun acc e => acc.join (found e)) (fun acc e he => ?_) _), ?_⟩
      · rw [(answer e he).1]
        rfl
      · rw [Genericity.isGeneric_foldl_join, unfolded, and_iff_right avoided]
        simp only [Genericity.isGeneric, seeds, leads, Bool.false_or, Bool.false_eq_true, false_or,
          List.any_eq_true]
        exact exists_congr fun e => and_congr_right fun he => (answer e he).2
    | primitive p =>
      have avoided := visits.not_mem stored (by simp)
      rw [unfolded]
      cases p <;> exact ⟨_, genericityWithin_eq wf stored, by
        simp [avoided, seeds, leads, Genericity.isGeneric]⟩
    | enumeration e =>
      rw [unfolded]
      exact ⟨_, genericityWithin_eq wf stored, by simp [seeds, leads, Genericity.isGeneric]⟩
    | decorated y _ | cPtr y | array _ y | rectangular _ y _ | associative y _ =>
      have avoided := visits.not_mem stored (by simp)
      -- one part decides, and the type itself was not entered
      obtain ⟨g, hg, opens⟩ := parts y (by simp [TypeData.components])
      refine ⟨g, (genericityWithin_eq wf stored).trans hg, ?_⟩
      rw [opens, unfolded]
      simp [avoided, seeds, leads]

/-! ## Genericity and the fields -/

/-- How open a type is has an answer, which is generic exactly for the types that are open. -/
theorem genericity_spec (wf : pool.WellFormed) (admitted : d.AdmittedBy pool) {ty : TypeId}
    (ha : pool.Admits ty) :
    ∃ g, d.genericity pool ty = .ok g ∧ (g.isGeneric = true ↔ d.OpenAvoiding pool ∅ ty) :=
  genericityWithin_spec wf admitted (TypePool.visits_start wf.table) ha

/-- A declared field of a composite is generic: nothing takes its place, and it is a type or param, or
has no type for its values, or has one that is generic when it is asked afresh. -/
def IsGenericField (d : Declarations) (pool : TypePool) (c : Composite)
    (entry : DeclId × Name × FieldDecl) : Prop :=
  c.substitution? entry.2.1 = none ∧
    (entry.2.2.storage.isTypeOrParam = true ∨
      (entry.2.2.declared <|> entry.2.2.default) = none ∨
      ∃ ty g, (entry.2.2.declared <|> entry.2.2.default) = some ty ∧
        d.genericity pool ty = .ok g ∧ g.isGeneric = true)

variable {c : Composite} {entry : DeclId × Name × FieldDecl}

theorem isGenericField_iff (wf : pool.WellFormed) (admitted : d.AdmittedBy pool)
    (mem : entry ∈ d.fieldsOf c.decl) :
    d.IsGenericField pool c entry ↔ entry ∈ d.unsubstituted c ∧
      ∀ ty, entry.2.2.valueType? = some ty → d.OpenAvoiding pool ∅ ty := by
  rw [IsGenericField, mem_unsubstituted_iff, and_iff_right mem]
  refine and_congr_right fun free => ?_
  have answer : ∀ ty, entry.2.2.valueType? = some ty →
      ∃ g, d.genericity pool ty = .ok g ∧ (g.isGeneric = true ↔ d.OpenAvoiding pool ∅ ty) :=
    fun ty value => genericity_spec wf admitted <|
      admitted.valueTypes (mem_valueTypes_iff.2 ⟨entry, mem_unsubstituted_iff.2 ⟨mem, free⟩, value⟩)
  unfold FieldDecl.valueType? at answer ⊢
  cases storage : entry.2.2.storage.isTypeOrParam with
  | true => simp
  | false =>
    cases given : (entry.2.2.declared <|> entry.2.2.default) with
    | none => simp
    | some ty =>
      obtain ⟨g, hg, opens⟩ := answer ty (by simp [storage, given])
      simp [hg, opens]

theorem isSelfOpen_ignoreDefaults (field : FieldDecl) :
    field.isSelfOpen .ignoreDefaults = field.valueType?.isNone := by
  simp [FieldDecl.isSelfOpen]

/-- The fields that the walk from a composite finds open. -/
theorem isOpen_genericWithin_iff (wf : pool.WellFormed) (admitted : d.AdmittedBy pool)
    {t : TypeId} (stored : pool.read? t = some (.composite c)) (mem : entry ∈ d.fieldsOf c.decl) :
    entry.2.2.isOpen (c.substitution? entry.2.1) .ignoreDefaults
        (d.genericWithin pool (pool.composites.erase t)) = true ↔
      entry ∈ d.unsubstituted c ∧
        ∀ ty, entry.2.2.valueType? = some ty → d.OpenAvoiding pool (insert t ∅) ty := by
  rw [isOpen_iff mem, isSelfOpen_ignoreDefaults]
  refine and_congr_right fun free => ?_
  cases value : entry.2.2.valueType? with
  | none => simp
  | some ty =>
    have visits := (TypePool.visits_start wf.table).enter stored
    have ha := admitted.valueTypes (mem_valueTypes_iff.2 ⟨entry, free, value⟩)
    simp [genericWithin_eq_true_iff (genericityWithin_spec wf admitted visits ha)]

/-- A composite is generic exactly if one of its fields is. -/
theorem openAvoiding_iff_exists_field (wf : pool.WellFormed) (admitted : d.AdmittedBy pool)
    {t : TypeId} (stored : pool.read? t = some (.composite c)) :
    d.OpenAvoiding pool ∅ t ↔ ∃ entry ∈ d.fieldsOf c.decl, d.IsGenericField pool c entry := by
  rw [openAvoiding_iff stored, and_iff_right (Set.notMem_empty t)]
  simp only [seeds, leads, selfOpen, List.any_eq_true, isSelfOpen_ignoreDefaults,
    mem_valueTypes_iff]
  constructor
  · rintro (⟨entry, free, none⟩ | ⟨ty, ⟨entry, free, value⟩, opens⟩)
    · have mem := (mem_unsubstituted_iff.1 free).1
      refine ⟨entry, mem, (isGenericField_iff wf admitted mem).2 ⟨free, fun ty value => ?_⟩⟩
      rw [value] at none
      cases none
    · have mem := (mem_unsubstituted_iff.1 free).1
      refine ⟨entry, mem, (isGenericField_iff wf admitted mem).2 ⟨free, fun ty' value' => ?_⟩⟩
      exact Option.some.inj (value.symm.trans value') ▸ opens
  · rintro ⟨entry, mem, generic⟩
    obtain ⟨free, opens⟩ := (isGenericField_iff wf admitted mem).1 generic
    cases value : entry.2.2.valueType? with
    | none => exact .inl ⟨entry, free, by rw [value]; rfl⟩
    | some ty => exact .inr ⟨ty, ⟨entry, free, value⟩, opens ty value⟩

/-- The walk finds a composite generic without defaults if it finds such a field. -/
theorem genericity_composite (wf : pool.WellFormed) (admitted : d.AdmittedBy pool) {t : TypeId}
    (stored : pool.read? t = some (.composite c)) :
    ∃ g, d.genericity pool t = .ok g ∧
      (g = .generic ↔ ∃ entry ∈ d.unsubstituted c, entry.2.2.hasDefault = false ∧
        ∀ ty, entry.2.2.valueType? = some ty → d.OpenAvoiding pool (insert t ∅) ty) := by
  have visits := (TypePool.visits_start wf.table).enter stored
  have inside : t ∈ pool.composites := (TypePool.mem_composites_iff wf.table).2 ⟨c, stored⟩
  refine ⟨_, genericityWithin_composite wf stored inside fun ty h =>
    (genericityWithin_spec wf admitted visits (admitted.valueTypes h)).imp fun _ => And.left, ?_⟩
  rw [Genericity.ofFields_eq_generic_iff]
  simp only [resolvedFields, List.mem_map]
  constructor
  · rintro ⟨field, ⟨entry, mem, rfl⟩, isOpen, bare⟩
    obtain ⟨free, opens⟩ := (isOpen_genericWithin_iff wf admitted stored mem).1 isOpen
    exact ⟨entry, free, bare, opens⟩
  · rintro ⟨entry, free, bare, opens⟩
    have mem := (mem_unsubstituted_iff.1 free).1
    exact ⟨_, ⟨entry, mem, rfl⟩,
      (isOpen_genericWithin_iff wf admitted stored mem).2 ⟨free, opens⟩, bare⟩

/-- Some generic field has no default. -/
def HasBareField (d : Declarations) (pool : TypePool) (c : Composite) : Prop :=
  ∃ entry ∈ d.fieldsOf c.decl, d.IsGenericField pool c entry ∧ entry.2.2.hasDefault = false

/-- The values of some unsubstituted field without a default are of a type that leads to `t`. -/
def HasReturningField (d : Declarations) (pool : TypePool) (c : Composite) (t : TypeId) : Prop :=
  ∃ entry ∈ d.unsubstituted c, entry.2.2.hasDefault = false ∧
    ∃ ty, entry.2.2.valueType? = some ty ∧ Relation.ReflTransGen (d.Leads pool) ty t

/-- A degree of openness tells the generic fields with and without defaults apart: there are defaults
exactly if some field is generic and each generic field has a default, and types are needed exactly if
some generic field has none. -/
def TellsDefaults (d : Declarations) (pool : TypePool) (c : Composite) (g : Genericity) : Prop :=
  (g = .genericWithDefaults ↔ (∃ entry ∈ d.fieldsOf c.decl, d.IsGenericField pool c entry) ∧
    ∀ entry ∈ d.fieldsOf c.decl, d.IsGenericField pool c entry → entry.2.2.hasDefault = true) ∧
  (g = .generic ↔ d.HasBareField pool c)

section Bare

variable (wf : pool.WellFormed) (admitted : d.AdmittedBy pool) {t : TypeId} {g : Genericity}

include wf admitted

/-- A field that the walk finds open is generic when it is asked afresh. -/
theorem hasBareField_of_generic (stored : pool.read? t = some (.composite c))
    (h : d.genericity pool t = .ok .generic) : d.HasBareField pool c := by
  obtain ⟨g, hg, generic_iff⟩ := genericity_composite wf admitted stored
  obtain ⟨entry, free, bare, rest⟩ := generic_iff.1 (Except.ok.inj (hg.symm.trans h))
  have mem := (mem_unsubstituted_iff.1 free).1
  exact ⟨entry, mem, (isGenericField_iff wf admitted mem).2
    ⟨free, fun ty value => (rest ty value).mono (Set.empty_subset _)⟩, bare⟩

/-- A generic field that the walk does not find open has a type that leads back to the composite. -/
theorem hasReturningField (stored : pool.read? t = some (.composite c))
    (h : d.genericity pool t = .ok g) (other : g ≠ .generic) (hasBare : d.HasBareField pool c) :
    d.HasReturningField pool c t := by
  obtain ⟨g', hg', generic_iff⟩ := genericity_composite wf admitted stored
  obtain rfl := Except.ok.inj (h.symm.trans hg')
  obtain ⟨entry, mem, generic, bare⟩ := hasBare
  obtain ⟨free, rest⟩ := (isGenericField_iff wf admitted mem).1 generic
  -- if no type led back, the walk would have found the field open
  by_contra none
  refine other (generic_iff.2 ⟨entry, free, bare, fun ty value => ?_⟩)
  by_contra blocked
  exact none ⟨entry, free, bare, ty, value, (rest ty value).reaches blocked⟩

/-- A type that leads back to a generic composite is generic. -/
theorem hasBareField_of_returning (opens : d.OpenAvoiding pool ∅ t)
    (h : d.HasReturningField pool c t) : d.HasBareField pool c := by
  obtain ⟨entry, free, bare, ty, value, back⟩ := h
  have mem := (mem_unsubstituted_iff.1 free).1
  refine ⟨entry, mem, (isGenericField_iff wf admitted mem).2 ⟨free, fun ty' value' => ?_⟩, bare⟩
  obtain rfl := Option.some.inj (value.symm.trans value')
  exact .of_reaches back opens

end Bare

/-- A decorated class is as open as its class. -/
theorem genericity_undecorated (wf : pool.WellFormed) {t basic : TypeId}
    (h : pool.undecorated t = .ok basic) : d.genericity pool t = d.genericity pool basic := by
  obtain ⟨data, stored, rfl⟩ := TypePool.undecorated_eq_ok_iff.1 h
  cases data with
  | decorated basic decorator => exact genericityWithin_eq wf stored
  | composite c => by_cases kind : c.kind = .classType <;> simp [TypeData.basicClass?, kind]
  | _ => rfl

end Declarations

/-- How open a composite is, by its fields, each asked afresh. It is concrete exactly if no field is
generic. Otherwise the answer tells defaults apart, except in one case: the answer is that there are
defaults, and the values of an unsubstituted field without one are of a type that leads back to the
composite. -/
theorem genericity_fieldwise_iff (p : Program) (built : p.Built) {t basic : TypeId} {c : Composite}
    (undecorated : p.types.undecorated t = .ok basic)
    (stored : p.types.read? basic = some (.composite c)) :
    ∃ g, p.decls.genericity p.types t = .ok g ∧
      (g = .concrete ↔
        ∀ entry ∈ p.decls.fieldsOf c.decl, ¬ p.decls.IsGenericField p.types c entry) ∧
      (p.decls.TellsDefaults p.types c g ↔
        ¬ (g = .genericWithDefaults ∧ p.decls.HasReturningField p.types c basic)) := by
  have wf := built.wellFormed.types.wellFormed
  have admitted := built.wellFormed.decls.admitted
  obtain ⟨g, hg, opens⟩ := Declarations.genericity_spec wf admitted (TypePool.admits_of_read? stored)
  have fieldwise := Declarations.openAvoiding_iff_exists_field wf admitted stored
  have concrete : g = .concrete ↔
      ∀ entry ∈ p.decls.fieldsOf c.decl, ¬ p.decls.IsGenericField p.types c entry := by
    rw [← Genericity.isGeneric_eq_false_iff, ← Bool.not_eq_true, opens, fieldwise]
    simp only [not_exists, not_and]
  have all_default : (∀ entry ∈ p.decls.fieldsOf c.decl,
      p.decls.IsGenericField p.types c entry → entry.2.2.hasDefault = true) ↔
        ¬ p.decls.HasBareField p.types c := by
    simp only [Declarations.HasBareField, not_exists, not_and, Bool.not_eq_false]
  refine ⟨g, (Declarations.genericity_undecorated wf undecorated).trans hg, concrete, ?_⟩
  rw [Declarations.TellsDefaults, all_default, ← fieldwise, ← opens]
  cases g with
  | concrete =>
    have none : ¬ p.decls.HasBareField p.types c :=
      fun ⟨entry, mem, generic, _⟩ => concrete.1 rfl entry mem generic
    simp [Genericity.isGeneric, none]
  | generic =>
    have bare := Declarations.hasBareField_of_generic wf admitted stored hg
    simp [Genericity.isGeneric, bare]
  | genericWithDefaults =>
    have agree : p.decls.HasBareField p.types c ↔ p.decls.HasReturningField p.types c basic :=
      ⟨Declarations.hasReturningField wf admitted stored hg (nomatch ·),
        Declarations.hasBareField_of_returning wf admitted (opens.1 rfl)⟩
    simp [Genericity.isGeneric, agree]

/-- A record with a defaulted type and a value of a second record, which points to the first. -/
def mutualRecords : Program :=
  .ofCalls .bySize [.module "M" none, .composite (.at 0) "A" .record none,
    .composite (.at 0) "B" .record none, .type (.cPtr (.known ⟨1, 0⟩)),
    .field (.known ⟨1, 0⟩) "t" (FieldDecl.type.withDefault .int),
    .field (.known ⟨1, 0⟩) "b" (.var (.known ⟨1, 1⟩)),
    .field (.known ⟨1, 1⟩) "a" (.var (.known ⟨7, 0⟩))]

/-- The first of the mutual records. -/
def firstRecord : Composite := ⟨.record, .at 1, ⟨⟨2, 1⟩⟩, none, [], none⟩

theorem mutualRecords_fieldwise :
    mutualRecords.Built ∧ mutualRecords.types.undecorated (.known ⟨1, 0⟩) = .ok (.known ⟨1, 0⟩) ∧
      mutualRecords.types.read? (.known ⟨1, 0⟩) = some (.composite firstRecord) ∧
      ∃ g, mutualRecords.decls.genericity mutualRecords.types (.known ⟨1, 0⟩) = .ok g ∧
        (g = .concrete ↔ ∀ entry ∈ mutualRecords.decls.fieldsOf firstRecord.decl,
          ¬ mutualRecords.decls.IsGenericField mutualRecords.types firstRecord entry) ∧
        (mutualRecords.decls.TellsDefaults mutualRecords.types firstRecord g ↔
          ¬ (g = .genericWithDefaults ∧ mutualRecords.decls.HasReturningField mutualRecords.types
            firstRecord (.known ⟨1, 0⟩))) := by
  have built : mutualRecords.Built := Program.built_ofCalls _ _
  have undecorated : mutualRecords.types.undecorated (.known ⟨1, 0⟩) = .ok (.known ⟨1, 0⟩) := by
    decide +kernel
  have stored : mutualRecords.types.read? (.known ⟨1, 0⟩) = some (.composite firstRecord) := by
    decide +kernel
  exact ⟨built, undecorated, stored,
    genericity_fieldwise_iff mutualRecords built undecorated stored⟩

/-- The first of the mutual records is found to have defaults. Its field of the second record has none,
and the second record is found generic, as it points to the first. -/
theorem mutualRecords_not_tellsDefaults :
    ∃ g, mutualRecords.decls.genericity mutualRecords.types (.known ⟨1, 0⟩) = .ok g ∧
      ¬ mutualRecords.decls.TellsDefaults mutualRecords.types firstRecord g := by
  have first : mutualRecords.decls.genericity mutualRecords.types (.known ⟨1, 0⟩) =
      .ok .genericWithDefaults := by
    decide +kernel
  have second : mutualRecords.decls.genericity mutualRecords.types (.known ⟨1, 1⟩) =
      .ok .generic := by
    decide +kernel
  have mem : (.at 4, ⟨⟨2, 4⟩⟩, .var (.known ⟨1, 1⟩)) ∈
      mutualRecords.decls.fieldsOf firstRecord.decl := by
    decide +kernel
  refine ⟨_, first, fun tells => nomatch tells.2.2 ⟨_, mem, ⟨rfl, ?_⟩, rfl⟩⟩
  exact .inr (.inr ⟨_, _, rfl, second, rfl⟩)

end MethodSynthesis
