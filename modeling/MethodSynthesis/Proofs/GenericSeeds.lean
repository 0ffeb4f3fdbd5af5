import MethodSynthesis.Proofs.Building
import MethodSynthesis.Proofs.DefaultValues
import MethodSynthesis.Proofs.Receivers

/-!
# Genericity is reachability of a seed

Although the walk behind genericity cuts its way at each composite on it, what it says of a type asked
for itself is exact: the type is generic if and only if steps to parts and to the types of unsubstituted
field values lead to a type that is open of itself. The fields of a composite are found open under the
same condition, although the walk for them starts without the composite on its way
(`genericity_iff_leads_to_seed`).
-/

set_option autoImplicit false

namespace MethodSynthesis

namespace Declarations

variable {d : Declarations} {pool : TypePool} {ty : TypeId} {c : Composite}

/-- A type leads, in any number of steps, to one that is open of itself. -/
def LeadsToSeed (d : Declarations) (pool : TypePool) (ty : TypeId) : Prop :=
  ∃ seed, Relation.ReflTransGen (d.Leads pool) ty seed ∧ d.IsSeed pool seed

/-- To avoid nothing on the way is no condition. -/
theorem openAvoiding_empty_iff : d.OpenAvoiding pool ∅ ty ↔ d.LeadsToSeed pool ty := by
  constructor
  · intro h
    induction h with
    | @seed x _ isSeed => exact ⟨x, .refl, isSeed⟩
    | step _ leads _ ih =>
      obtain ⟨seed, rest, isSeed⟩ := ih
      exact ⟨seed, .head leads rest, isSeed⟩
  · rintro ⟨seed, reaches, isSeed⟩
    exact .of_reaches reaches (.seed (Set.notMem_empty seed) isSeed)

/-- A composite, and a decorated form of it, leads to a seed when the composite does. -/
theorem openAvoiding_iff_fields (hc : pool.HasComposite ty c) :
    d.OpenAvoiding pool ∅ ty ↔
      d.selfOpen .ignoreDefaults c = true ∨ ∃ y ∈ d.valueTypes c, d.OpenAvoiding pool ∅ y := by
  have composite : ∀ {x}, pool.read? x = some (.composite c) → (d.OpenAvoiding pool ∅ x ↔
      d.selfOpen .ignoreDefaults c = true ∨ ∃ y ∈ d.valueTypes c, d.OpenAvoiding pool ∅ y) := by
    intro x stored
    rw [openAvoiding_iff stored, and_iff_right (Set.notMem_empty x)]
    rfl
  rcases hc with stored | ⟨basic, decorator, decorated, stored⟩
  · exact composite stored
  · rw [openAvoiding_iff decorated, and_iff_right (Set.notMem_empty ty), ← composite stored]
    simp [seeds, leads]

/-- The fields of a composite are asked in a walk that has entered nothing, so some field is open exactly
if one is so of itself or its values are of a type that is open when it is asked on its own. -/
theorem fields_open_spec (wf : pool.WellFormed) (admitted : d.AdmittedBy pool)
    (hc : pool.HasComposite ty c) (policy : DefaultsPolicy) :
    ∃ list, d.fields pool policy ty = .ok list ∧
      (list.isGeneric = true ↔
        d.selfOpen policy c = true ∨ ∃ y ∈ d.valueTypes c, d.OpenAvoiding pool ∅ y) := by
  refine ⟨_, fields_eq_ok wf admitted hc.compositeOf?_eq_ok policy, ?_⟩
  rw [any_resolvedFields]
  refine or_congr_right (exists_congr fun y => and_congr_right fun hy => ?_)
  exact genericWithin_eq_true_iff (genericity_spec wf admitted (admitted.valueTypes hy))

theorem fields_ignoreDefaults_spec (wf : pool.WellFormed) (admitted : d.AdmittedBy pool)
    (hc : pool.HasComposite ty c) :
    ∃ list, d.fields pool .ignoreDefaults ty = .ok list ∧
      (list.isGeneric = true ↔ d.OpenAvoiding pool ∅ ty) := by
  rw [openAvoiding_iff_fields hc]
  exact fields_open_spec wf admitted hc .ignoreDefaults

/-- A type without a composite has no fields. -/
theorem fields_of_none (sound : pool.Sound) {data : TypeData} (stored : pool.read? ty = some data)
    (none : ∀ c, ¬ pool.HasComposite ty c) (policy : DefaultsPolicy) :
    d.fields pool policy ty = .ok ⟨ty, [], false⟩ := by
  rw [fields, fieldsWithin, fieldsWith, sound.compositeOf?_of_none stored none]
  rfl

end Declarations

/-- A type is generic exactly if it leads to a type that is open of itself. The fields of a composite,
with defaults left aside, are generic exactly if the composite is. -/
theorem genericity_iff_leads_to_seed {p : Program} (assembled : p.Assembled) :
    (∀ ty, p.types.Admits ty → ∃ g, p.decls.genericity p.types ty = .ok g ∧
      (g.isGeneric = true ↔ p.decls.LeadsToSeed p.types ty)) ∧
    ∀ ty c, p.types.HasComposite ty c →
      ∃ g list, p.decls.genericity p.types ty = .ok g ∧
        p.decls.fields p.types .ignoreDefaults ty = .ok list ∧ list.isGeneric = g.isGeneric := by
  obtain ⟨interned, fit⟩ := assembled.closed
  have wf := interned.wellFormed
  constructor
  · intro ty ha
    obtain ⟨g, hg, opens⟩ := Declarations.genericity_spec wf fit.admitted ha
    exact ⟨g, hg, opens.trans Declarations.openAvoiding_empty_iff⟩
  · intro ty c hc
    obtain ⟨data, stored, -⟩ := hc.stored
    have ha : p.types.Admits ty := TypePool.admits_of_read? stored
    obtain ⟨g, hg, opens⟩ := Declarations.genericity_spec wf fit.admitted ha
    obtain ⟨list, hlist, listOpens⟩ := Declarations.fields_ignoreDefaults_spec wf fit.admitted hc
    refine ⟨g, list, hg, hlist, ?_⟩
    rw [Bool.eq_iff_iff, listOpens, opens]

/-- The records of a cycle: the second leads to the first, which is open of itself. -/
theorem mutualRecords_leadsToSeed : mutualRecords.Assembled ∧
    mutualRecords.types.HasComposite (.known ⟨1, 1⟩) ⟨.record, .at 2, ⟨⟨2, 2⟩⟩, none, [], none⟩ ∧
      mutualRecords.decls.LeadsToSeed mutualRecords.types (.known ⟨1, 1⟩) ∧
        ∃ list, mutualRecords.decls.fields mutualRecords.types .ignoreDefaults (.known ⟨1, 1⟩) =
          .ok list ∧ list.isGeneric = true := by
  have assembled : mutualRecords.Assembled := (Program.built_ofCalls _ _).assembled
  have stored : mutualRecords.types.read? (.known ⟨1, 1⟩) =
      some (.composite ⟨.record, .at 2, ⟨⟨2, 2⟩⟩, none, [], none⟩) := by decide +kernel
  have generic : mutualRecords.decls.genericity mutualRecords.types (.known ⟨1, 1⟩) =
      .ok .generic := by decide +kernel
  obtain ⟨reaches, agree⟩ := genericity_iff_leads_to_seed assembled
  obtain ⟨g, hg, opens⟩ := reaches _ (TypePool.admits_of_read? stored)
  obtain ⟨g', list, hg', hlist, same⟩ := agree _ _ (.inl stored)
  obtain rfl := Except.ok.inj (generic.symm.trans hg)
  obtain rfl := Except.ok.inj (generic.symm.trans hg')
  exact ⟨assembled, .inl stored, opens.1 rfl, list, hlist, same⟩

end MethodSynthesis
