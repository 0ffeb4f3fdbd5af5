import MethodSynthesis.Proofs.Coverage

/-!
# How two types are compared

`TypePool.passTypes` settles most pairs of types by what they are called, or by the generic form of the
first. Two kinds of pairs need more: classes, which are compared by their decorators and ancestors, and
tuples of one length, which are compared by their elements. `TypePool.Comparison` lists the ways, and every
two stored types are compared in one of them (`WellFormed.comparison`). What is proved of all outcomes is
proved way by way, and for tuples by induction on the structure of the first type.

The unknown type has no structure. It is equal to itself and passes to the type of everything, and is read
in any other comparison.
-/

set_option autoImplicit false

namespace MethodSynthesis

namespace TypePool

variable {pool : TypePool} {source target : TypeId} {data form : TypeData} {outcome : Passing}

/-! ## The unknown type -/

theorem passTypes_unknown (pool : TypePool) (target : TypeId) : pool.passTypes .unknown target =
    if target = .unknown then .ok .exact
      else if target = .any then .ok .instantiating else .error (.missingType .unknown) := by
  have names := @passNames?_of_ne_primitive .unknown (fun _ => (nomatch ·)) target
  rw [passTypes, fold_unknown, names]
  by_cases same : target = .unknown
  · rw [if_pos same.symm, if_pos same]
    rfl
  rw [if_neg (Ne.symm same), if_neg same]
  by_cases any : target = .any
  · rw [if_pos any, if_pos any]
    rfl
  · rw [if_neg any, if_neg any]

theorem WellFormed.passTypes_to_unknown (wf : pool.WellFormed)
    (stored : pool.read? source = some data) :
    pool.passTypes source .unknown = .error (.missingType .unknown) := by
  have known : source ≠ .unknown := by
    rintro rfl
    exact nomatch stored
  rw [wf.passTypes_eq stored, passNames?_eq_none known fun _ => (nomatch ·)]
  rfl

/-! ## Stored types -/

/-- What the names of two types settle by themselves is that they are one, or the outcome is that of a
primitive type which takes others. -/
theorem passNames?_cases (h : passNames? source target = some outcome) :
    source = target ∧ outcome = .exact ∨ source ≠ target ∧
      (outcome = .instantiating ∨ outcome = .converting .numeric) ∧ ∃ p, target = .primitive p := by
  by_cases same : source = target
  · rw [passNames?, if_pos same] at h
    exact .inl ⟨same, (Option.some.inj h).symm⟩
  simp only [passNames?, if_neg same] at h
  refine .inr ⟨same, ?_⟩
  split at h
  · exact ⟨.inl (Option.some.inj h).symm, .any, ‹_›⟩
  split at h
  · rename_i integral
    obtain ⟨integral, -⟩ := Bool.and_eq_true_iff.1 integral
    exact ⟨.inl (Option.some.inj h).symm, .integral, of_decide_eq_true integral⟩
  split at h
  · rename_i real
    obtain ⟨real, -⟩ := Bool.and_eq_true_iff.1 real
    exact ⟨.inr (Option.some.inj h).symm, .real, of_decide_eq_true real⟩
  · cases h

/-- How the outcome for two stored types comes about. They are one type, or they are two classes, or two
tuples of as many elements, and are compared by what is behind these; anything else is settled by the
names of the types or by the generic form of the first. -/
inductive Comparison (pool : TypePool) (source target : TypeId) (data form : TypeData) : Prop
  | same : source = target → pool.passTypes source target = .ok .exact →
      Comparison pool source target data form
  | classes : source ≠ target → data.kind.isClass = true → form.kind.isClass = true →
      pool.passTypes source target = pool.passClasses source target →
        Comparison pool source target data form
  | tuples {elements elements' : List TypeId} : source ≠ target → data = .tuple elements →
      form = .tuple elements' → elements.length = elements'.length →
        pool.passTypes source target = passElements pool.passTypes elements elements' →
          Comparison pool source target data form
  | settled {p : Passing} : source ≠ target →
      p = .fail ∨ p = .instantiating ∨ p = .converting .numeric →
        ¬ (data.kind.isClass = true ∧ form.kind.isClass = true) →
          (∀ elements elements', data = .tuple elements → form = .tuple elements' →
            elements.length ≠ elements'.length) →
              pool.passTypes source target = .ok p → Comparison pool source target data form

theorem comparison_of_passStructures (ne : source ≠ target) (stored : pool.read? source = some data)
    (stored' : pool.read? target = some form) (passed : pool.passTypes source target =
      pool.passStructures source data pool.passTypes target) :
    pool.Comparison source target data form := by
  rw [passStructures, read_eq_ok_iff.2 stored', ok_bind] at passed
  by_cases classes : (data.kind.isClass && form.kind.isClass) = true
  · obtain ⟨class?, class?'⟩ := Bool.and_eq_true_iff.1 classes
    rw [if_pos classes] at passed
    exact .classes ne class? class?' passed
  rw [if_neg classes] at passed
  rw [Bool.and_eq_true_iff] at classes
  split at passed
  · -- a composite takes its instantiations
    obtain ⟨root, hroot, -⟩ := exists_genericRoot stored
    rw [hroot, ok_bind] at passed
    split at passed
    · exact .settled ne (.inr (.inl rfl)) classes (fun _ _ _ => TypeData.noConfusion) passed
    · exact .settled ne (.inl rfl) classes (fun _ _ _ => TypeData.noConfusion) passed
  · split at passed
    · rename_i length
      exact .tuples ne rfl rfl length passed
    · rename_i length
      refine .settled ne (.inl rfl) classes ?_ passed
      intro elements elements' eq eq'
      rwa [← TypeData.tuple.inj eq, ← TypeData.tuple.inj eq']
  · rename_i noTuples
    refine .settled ne (.inl rfl) classes ?_ passed
    intro elements elements' eq eq'
    exact absurd eq' (noTuples _ _ eq)

theorem WellFormed.comparison (wf : pool.WellFormed) (stored : pool.read? source = some data)
    (stored' : pool.read? target = some form) : pool.Comparison source target data form := by
  have passed := wf.passTypes_eq stored target
  -- the names are asked first, and the structures only if they leave it open
  cases names : passNames? source target with
  | some p =>
    rw [names] at passed
    rcases passNames?_cases names with ⟨same, rfl⟩ | ⟨ne, takes, primitive, rfl⟩
    · exact .same same passed
    · -- a primitive type is no class and no tuple
      obtain rfl := Option.some.inj (stored'.symm.trans (wf.primitives primitive))
      refine .settled ne (.inr takes) ?_ (fun _ _ _ => TypeData.noConfusion) passed
      rintro ⟨-, class?⟩
      cases class?
  | none =>
    rw [names] at passed
    refine comparison_of_passStructures (fun same => ?_) stored stored' passed
    rw [passNames?, if_pos same] at names
    cases names

end TypePool

end MethodSynthesis
