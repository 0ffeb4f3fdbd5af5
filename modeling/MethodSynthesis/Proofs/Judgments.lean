import MethodSynthesis.Proofs.Stability

/-!
# What the judgment of an argument reports

`TypePool.canPass` compares the types of an actual and a formal, holds the outcome against the intent of
the formal, and turns to the elements of an array only where that fails. `Comparable` says when it
compares at all, `Passing.restricted` what a formal leaves of an outcome, and `Promotable` when it turns to
the elements. The judgment is put together from these in `canPass_of_comparable`, and `Judgment` lists the
ways to its outcomes (`WellFormed.judgment`).

What callers read off an outcome follows from the list (`canPass_respects_intent`): an outcome that
does not pass says nothing else, what is bound to a type or by reference is not converted, and only an
array that does not pass as a whole is promoted, with the outcome of its elements.
-/

set_option autoImplicit false

namespace MethodSynthesis

/-! ## Intents -/

/-- Type formals take types and nothing else does, and param formals take compile-time constants. -/
def Binding.Fits (actual formal : Binding) : Prop :=
  actual.isType = formal.isType ∧ (formal.isParam = true → actual.isParam = true)

namespace Passing

variable {p : Passing} {binding : Binding}

/-- What a formal leaves of an outcome: what is bound to a type or by reference is not converted. -/
def restricted (p : Passing) (formal : Binding) : Passing :=
  if (formal.isType || formal.isRef) && p.converts then fail else p

/-- The outcome says that the argument does not pass and nothing else, or that it passes without
promotion. -/
def IsDirect (p : Passing) : Prop := p = .fail ∨ p.passes = true ∧ p.promotes = false

theorem fail_ne_exact : fail ≠ exact := by decide

theorem restricted_of_value (value : binding.isType = false) :
    p.restricted binding = p.underBinding binding := by
  rw [restricted, underBinding, value, Bool.false_or]

theorem restricted_of_type (type : binding.isType = true) :
    p.restricted binding = if p.converts then .fail else p := by
  rw [restricted, type, Bool.true_or, Bool.true_and]

theorem restricted_cases : p.restricted binding = .fail ∨ p.restricted binding = p := by
  rw [restricted]
  split
  · exact .inl rfl
  · exact .inr rfl

theorem converts_restricted (strict : (binding.isType || binding.isRef) = true) :
    (p.restricted binding).converts = false := by
  rw [restricted, strict, Bool.true_and]
  cases converts : p.converts with
  | true => rfl
  | false => exact converts

namespace IsDirect

theorem fail : Passing.fail.IsDirect := .inl rfl

theorem passing {conversion : Conversion} {instantiates : Bool} :
    IsDirect ⟨true, conversion, instantiates, false⟩ :=
  .inr ⟨rfl, rfl⟩

theorem eq_fail (direct : p.IsDirect) (fails : p.passes = false) : p = .fail :=
  direct.resolve_right fun h => Bool.noConfusion (fails.symm.trans h.1)

theorem promotes (direct : p.IsDirect) : p.promotes = false := by
  rcases direct with rfl | ⟨-, promotes⟩
  · rfl
  · exact promotes

theorem restricted (direct : p.IsDirect) : (p.restricted binding).IsDirect := by
  rcases @restricted_cases p binding with eq | eq
  · rw [eq]
    exact fail
  · rw [eq]
    exact direct

end IsDirect

end Passing

namespace TypePool

variable {pool : TypePool} {actual formal : Qualified} {outcome : Passing}

/-! ## The outcome for two types -/

/-- Elements are passed as they are: what a tuple reports beyond that is whether one of them instantiates
its formal. -/
theorem passElements_cases {pass : TypeId → TypeId → Except Fault Passing}
    {actuals formals : List TypeId} (h : passElements pass actuals formals = .ok outcome) :
    outcome = .fail ∨ outcome = .exact ∨ outcome = .instantiating := by
  induction actuals generalizing formals outcome with
  | nil => exact .inr (.inl (Except.ok.inj h).symm)
  | cons a actuals ih =>
    cases formals with
    | nil => exact .inr (.inl (Except.ok.inj h).symm)
    | cons f formals =>
      obtain ⟨first, -, h⟩ := bind_eq_ok.1 h
      split at h
      · exact .inl (Except.ok.inj h).symm
      obtain ⟨rest, hrest, h⟩ := bind_eq_ok.1 h
      obtain rfl := Except.ok.inj h
      rcases ih hrest with rfl | rfl | rfl
      · exact .inl rfl
      · cases instantiates : first.instantiates with
        | true => exact .inr (.inr (by simp [Passing.exact, Passing.instantiating]))
        | false => exact .inr (.inl (by simp [Passing.exact]))
      · exact .inr (.inr (by simp [Passing.instantiating]))

theorem passClasses_isDirect {source target : TypeId}
    (h : pool.passClasses source target = .ok outcome) : outcome.IsDirect := by
  have fails : ∀ {p : Passing}, Except.ok (ε := Fault) Passing.fail = .ok p → p.IsDirect :=
    fun eq => Except.ok.inj eq ▸ .fail
  have passes : ∀ {p : Passing} {conversion instantiates},
      Except.ok (ε := Fault) ⟨true, conversion, instantiates, false⟩ = .ok p → p.IsDirect :=
    fun eq => Except.ok.inj eq ▸ .passing
  obtain ⟨source?, -, h⟩ := bind_eq_ok.1 h
  cases source? with
  | none => exact fails h
  | some source =>
    obtain ⟨target?, -, h⟩ := bind_eq_ok.1 h
    cases target? with
    | none => exact fails h
    | some target =>
      dsimp only at h
      split at h
      case h_2 => exact fails h
      split at h
      · exact passes h
      obtain ⟨root, -, h⟩ := bind_eq_ok.1 h
      split at h
      · exact passes h
      obtain ⟨found, -, h⟩ := bind_eq_ok.1 h
      split at h
      · exact passes h
      · exact fails h

/-- The judgment of two types reports no promotion, and nothing where they do not pass. -/
theorem WellFormed.passTypes_isDirect (wf : pool.WellFormed) {source target : TypeId}
    (ha : pool.Admits source) (hf : pool.Admits target) (h : pool.passTypes source target = .ok outcome) :
    outcome.IsDirect := by
  rcases ha with rfl | ⟨data, stored⟩
  · rw [passTypes_unknown] at h
    split at h
    · exact Except.ok.inj h ▸ .passing
    split at h
    · exact Except.ok.inj h ▸ .passing
    · exact nomatch h
  rcases hf with rfl | ⟨form, stored'⟩
  · rw [wf.passTypes_to_unknown stored] at h
    exact nomatch h
  cases wf.comparison stored stored' with
  | same _ passed => exact Except.ok.inj (passed.symm.trans h) ▸ .passing
  | classes _ _ _ passed => exact passClasses_isDirect (passed.symm.trans h)
  | tuples _ _ _ _ passed =>
    rcases passElements_cases (passed.symm.trans h) with rfl | rfl | rfl
    · exact .fail
    · exact .passing
    · exact .passing
  | settled _ outcomes _ _ passed =>
    obtain rfl := Except.ok.inj (passed.symm.trans h)
    rcases outcomes with rfl | rfl | rfl
    · exact .fail
    · exact .passing
    · exact .passing

/-! ## The outcome for an actual and a formal -/

/-- The types of an actual and a formal are compared: both are known, and the one may be bound to the
other. -/
structure Comparable (actual formal : Qualified) : Prop where
  actual_known : actual.type ≠ .unknown
  formal_known : formal.type ≠ .unknown
  fits : actual.binding.Fits formal.binding

/-- The outcome for the types of an actual and a formal by themselves. -/
def DirectOutcome (pool : TypePool) (actual formal : Qualified) (outcome : Passing) : Prop :=
  ∃ p, pool.passTypes actual.type formal.type = .ok p ∧ p.restricted formal.binding = outcome

/-- An actual is an array over elements that may be passed in its place. -/
def Promotable (pool : TypePool) (actual formal : Qualified) (element : TypeId) : Prop :=
  formal.isType = false ∧ (∃ domain, pool.read? actual.type = some (.array domain element)) ∧
    ∀ domain element', pool.read? formal.type ≠ some (.array domain element')

theorem comparable_iff : Comparable actual formal ↔
    (actual.type.isUnknown || formal.type.isUnknown) = false ∧ actual.isType = formal.isType ∧
      (formal.binding.isParam && !actual.binding.isParam) = false := by
  simp only [TypeId.isUnknown, Qualified.isType, Bool.or_eq_false_iff, decide_eq_false_iff_not,
    Bool.and_eq_false_imp, Bool.not_eq_eq_eq_not, Bool.not_false]
  exact ⟨fun h => ⟨⟨h.1, h.2⟩, h.3⟩, fun h => ⟨h.1.1, h.1.2, h.2⟩⟩

theorem canPass_of_not_comparable (h : ¬ Comparable actual formal) :
    pool.canPass actual formal = .ok .fail := by
  rw [comparable_iff, not_and, not_and] at h
  unfold canPass
  split
  · rfl
  rename_i known
  split
  · rfl
  rename_i kinds
  have noConstant := h (by simpa using known) (by simpa using kinds)
  split
  · -- a type formal is no param formal
    rename_i type
    have binding : formal.binding = .type := of_decide_eq_true type
    rw [binding] at noConstant
    exact absurd rfl noConstant
  · rw [if_pos (by simpa using noConstant)]
    rfl

theorem canPass_of_comparable (h : Comparable actual formal) :
    pool.canPass actual formal = pool.passTypes actual.type formal.type >>= fun p =>
      if (p.restricted formal.binding).passes || formal.isType then .ok (p.restricted formal.binding)
      else pool.passPromoted actual formal := by
  obtain ⟨known, kinds, constant⟩ := comparable_iff.1 h
  rw [canPass, known, if_neg Bool.false_ne_true, if_neg (not_not.2 kinds), constant]
  cases type : formal.isType with
  | true =>
    have restricted := fun p => Passing.restricted_of_type (p := p) type
    simp only [restricted, Bool.or_true, if_true]
    rfl
  | false =>
    have restricted := fun p => Passing.restricted_of_value (p := p) type
    simp only [restricted, Bool.or_false, Bool.false_eq_true, if_false]
    rfl

theorem passPromoted_of_promotable {element : TypeId} {target : TypeData}
    (stored : pool.read? formal.type = some target) (h : pool.Promotable actual formal element) :
    pool.passPromoted actual formal = pool.passTypes element formal.type >>= fun p =>
      .ok (p.restricted formal.binding).promoted := by
  obtain ⟨value, ⟨domain, array⟩, noArray⟩ := h
  have restricted := fun p => Passing.restricted_of_value (p := p) value
  rw [passPromoted, read_eq_ok_iff.2 array, ok_bind]
  dsimp only
  rw [read_eq_ok_iff.2 stored, ok_bind]
  simp only [restricted]
  split
  · exact absurd stored (noArray _ _)
  · rfl

theorem passPromoted_of_not_promotable {data target : TypeData} (value : formal.isType = false)
    (stored : pool.read? actual.type = some data) (stored' : pool.read? formal.type = some target)
    (h : ∀ element, ¬ pool.Promotable actual formal element) :
    pool.passPromoted actual formal = .ok .fail := by
  rw [passPromoted, read_eq_ok_iff.2 stored, ok_bind]
  split
  · rename_i domain element
    rw [read_eq_ok_iff.2 stored', ok_bind]
    split
    · rfl
    · rename_i noArray
      refine absurd ⟨value, ⟨domain, stored⟩, ?_⟩ (h element)
      intro domain' element' array
      exact noArray _ _ (Option.some.inj (stored'.symm.trans array))
  · rfl

theorem canPass_of_directOutcome (comparable : Comparable actual formal)
    (direct : pool.DirectOutcome actual formal outcome) (passes : outcome.passes = true) :
    pool.canPass actual formal = .ok outcome := by
  obtain ⟨p, passed, rfl⟩ := direct
  rw [canPass_of_comparable comparable, passed, ok_bind, passes, Bool.true_or, if_pos rfl]

/-- The ways to an outcome: nothing was compared, the types pass by themselves, the elements of an array
pass in its place, or none of this. -/
inductive Judgment (pool : TypePool) (actual formal : Qualified) : Passing → Prop
  | incomparable : ¬ Comparable actual formal → Judgment pool actual formal .fail
  | direct {outcome : Passing} : Comparable actual formal →
      pool.DirectOutcome actual formal outcome → outcome.passes = true →
        Judgment pool actual formal outcome
  | promoted {first result : Passing} {element : TypeId} : Comparable actual formal →
      pool.DirectOutcome actual formal first → first.passes = false →
        pool.Promotable actual formal element →
          pool.DirectOutcome ⟨actual.binding, element⟩ formal result → result.passes = true →
            Judgment pool actual formal { result with promotes := true }
  | failed {first : Passing} : Comparable actual formal →
      pool.DirectOutcome actual formal first → first.passes = false →
        (∀ element result, pool.Promotable actual formal element →
          pool.DirectOutcome ⟨actual.binding, element⟩ formal result → result.passes = false) →
            Judgment pool actual formal .fail

theorem DirectOutcome.unique {outcome' : Passing} (h : pool.DirectOutcome actual formal outcome)
    (h' : pool.DirectOutcome actual formal outcome') : outcome = outcome' := by
  obtain ⟨p, passed, rfl⟩ := h
  obtain ⟨p', passed', rfl⟩ := h'
  rw [Except.ok.inj (passed.symm.trans passed')]

theorem Promotable.unique {element element' : TypeId} (h : pool.Promotable actual formal element)
    (h' : pool.Promotable actual formal element') : element = element' := by
  obtain ⟨-, ⟨domain, array⟩, -⟩ := h
  obtain ⟨-, ⟨domain', array'⟩, -⟩ := h'
  exact (TypeData.array.inj (Option.some.inj (array.symm.trans array'))).2

theorem WellFormed.directOutcome_isDirect (wf : pool.WellFormed) (ha : pool.Admits actual.type)
    (hf : pool.Admits formal.type) (h : pool.DirectOutcome actual formal outcome) :
    outcome.IsDirect := by
  obtain ⟨p, passed, rfl⟩ := h
  exact (wf.passTypes_isDirect ha hf passed).restricted

/-- What does not pass by itself passes by its elements or not at all. -/
theorem judgment_of_passPromoted {data target : TypeData} {first : Passing}
    (comparable : Comparable actual formal) (value : formal.isType = false)
    (stored : pool.read? actual.type = some data) (stored' : pool.read? formal.type = some target)
    (direct : pool.DirectOutcome actual formal first) (fails : first.passes = false)
    (h : pool.passPromoted actual formal = .ok outcome) : pool.Judgment actual formal outcome := by
  by_cases promotable : ∃ element, pool.Promotable actual formal element
  case neg =>
    rw [passPromoted_of_not_promotable value stored stored' (not_exists.1 promotable)] at h
    obtain rfl := Except.ok.inj h
    exact .failed comparable direct fails fun element _ h _ => absurd ⟨element, h⟩ promotable
  obtain ⟨element, promotable⟩ := promotable
  rw [passPromoted_of_promotable stored' promotable] at h
  obtain ⟨p, passed, h⟩ := bind_eq_ok.1 h
  obtain rfl := Except.ok.inj h
  have direct' : pool.DirectOutcome ⟨actual.binding, element⟩ formal (p.restricted formal.binding) :=
    ⟨p, passed, rfl⟩
  by_cases passes : (p.restricted formal.binding).passes = true
  · rw [Passing.promoted, if_pos passes]
    exact .promoted comparable direct fails promotable direct' passes
  · rw [Passing.promoted, if_neg passes]
    refine .failed comparable direct fails fun element' result promotable' other => ?_
    obtain rfl := promotable.unique promotable'
    rw [other.unique direct']
    exact Bool.eq_false_iff.2 passes

/-- Every outcome is come to in one of the ways. -/
theorem WellFormed.judgment (wf : pool.WellFormed) (ha : pool.Admits actual.type)
    (hf : pool.Admits formal.type) (h : pool.canPass actual formal = .ok outcome) :
    pool.Judgment actual formal outcome := by
  by_cases comparable : Comparable actual formal
  case neg =>
    rw [canPass_of_not_comparable comparable] at h
    obtain rfl := Except.ok.inj h
    exact .incomparable comparable
  obtain ⟨data, stored⟩ := ha.resolve_left comparable.actual_known
  obtain ⟨target, stored'⟩ := hf.resolve_left comparable.formal_known
  rw [canPass_of_comparable comparable] at h
  obtain ⟨p, passed, h⟩ := bind_eq_ok.1 h
  have direct : pool.DirectOutcome actual formal (p.restricted formal.binding) := ⟨p, passed, rfl⟩
  cases passes : (p.restricted formal.binding).passes with
  | true =>
    rw [passes, Bool.true_or, if_pos rfl] at h
    obtain rfl := Except.ok.inj h
    exact .direct comparable direct passes
  | false =>
    rw [passes, Bool.false_or] at h
    cases type : formal.isType with
    | true =>
      -- what does not pass to a type formal has failed, and elements are not passed to one
      rw [type, if_pos rfl, (wf.directOutcome_isDirect ha hf direct).eq_fail passes] at h
      obtain rfl := Except.ok.inj h
      exact .failed comparable direct passes fun _ _ promotable _ =>
        nomatch type.symm.trans promotable.1
    | false =>
      rw [type, if_neg Bool.false_ne_true] at h
      exact judgment_of_passPromoted comparable type stored stored' direct passes h

/-! ## What an outcome reports -/

/-- The types of an actual and a formal pass by themselves. -/
def PassesDirectly (pool : TypePool) (actual formal : Qualified) : Prop :=
  ∃ outcome, pool.DirectOutcome actual formal outcome ∧ outcome.passes = true

/-- What an outcome says is in accord with the intent of the formal. -/
structure RespectsIntent (pool : TypePool) (actual formal : Qualified) (outcome : Passing) : Prop where
  /-- An argument that does not pass is reported as such and as nothing else. -/
  fails : outcome.passes = false → outcome = .fail
  /-- What is bound to a type or by reference is not converted. -/
  converts : formal.isType = true ∨ formal.binding.isRef = true → outcome.converts = false
  /-- No type is promoted. -/
  types : formal.isType = true → outcome.promotes = false
  /-- An array is promoted if its elements pass in its place, without promotion, and it does not. -/
  promotes : outcome.promotes = true ↔ ∃ element result, pool.Promotable actual formal element ∧
    ¬ pool.PassesDirectly actual formal ∧
      pool.canPass ⟨actual.binding, element⟩ formal = .ok result ∧
        result.passes = true ∧ result.promotes = false
  /-- The outcome of a promoted array is that of its elements. -/
  elements : outcome.promotes = true → ∀ element result, pool.Promotable actual formal element →
    pool.canPass ⟨actual.binding, element⟩ formal = .ok result →
      outcome = { result with promotes := true }

theorem converts_directOutcome (direct : pool.DirectOutcome actual formal outcome)
    (strict : formal.isType = true ∨ formal.binding.isRef = true) : outcome.converts = false := by
  obtain ⟨p, -, rfl⟩ := direct
  exact Passing.converts_restricted (Bool.or_eq_true_iff.2 strict)

/-- What was not promoted is in accord with the intent, provided no element passes in its place. -/
theorem respectsIntent_of_isDirect (direct : outcome.IsDirect)
    (converts : formal.isType = true ∨ formal.binding.isRef = true → outcome.converts = false)
    (none : ∀ element result, pool.Promotable actual formal element →
      ¬ pool.PassesDirectly actual formal → pool.canPass ⟨actual.binding, element⟩ formal = .ok result →
        result.passes = true → result.promotes = true) :
    pool.RespectsIntent actual formal outcome where
  fails := direct.eq_fail
  converts := converts
  types _ := direct.promotes
  promotes := by
    refine iff_of_false (by simp [direct.promotes]) ?_
    rintro ⟨element, result, promotable, notDirect, passed, passes, unpromoted⟩
    exact nomatch unpromoted.symm.trans (none element result promotable notDirect passed passes)
  elements promotes := nomatch direct.promotes.symm.trans promotes

theorem Promotable.exists_read? (known : pool.PartsKnown) (wf : pool.WellFormed) {element : TypeId}
    (h : pool.Promotable actual formal element) : ∃ data, pool.read? element = some data := by
  obtain ⟨-, ⟨domain, array⟩, -⟩ := h
  exact known.read?_part wf array (by simp [TypeData.components])

/-- Every argument is judged, and its outcome is in accord with the intent of the formal. -/
theorem canPass_respects_intent (built : pool.Built) (known : pool.PartsKnown)
    (ha : pool.Admits actual.type) (hf : pool.Admits formal.type) :
    ∃ outcome, pool.canPass actual formal = .ok outcome ∧
      pool.RespectsIntent actual formal outcome := by
  have wf := built.sound.wellFormed
  obtain ⟨outcome, judged⟩ := built.sound.exists_canPass known ha hf
  refine ⟨outcome, judged, ?_⟩
  cases wf.judgment ha hf judged with
  | incomparable incomparable =>
    refine respectsIntent_of_isDirect .fail (fun _ => rfl) ?_
    intro element result promotable _ passed passes
    obtain ⟨-, ⟨domain, array⟩, -⟩ := promotable
    -- its elements are compared no more than the array, which is known
    have incomparable' : ¬ Comparable ⟨actual.binding, element⟩ formal := fun h =>
      incomparable ⟨ne_unknown_of_read? array, h.formal_known, h.fits⟩
    rw [canPass_of_not_comparable incomparable'] at passed
    exact nomatch (Except.ok.inj passed) ▸ passes
  | direct _ direct passes =>
    refine respectsIntent_of_isDirect (wf.directOutcome_isDirect ha hf direct)
      (converts_directOutcome direct) ?_
    exact fun _ _ _ notDirect => absurd ⟨outcome, direct, passes⟩ notDirect
  | @promoted first result element comparable direct fails promotable direct' passes =>
    obtain ⟨data, stored⟩ := promotable.exists_read? known wf
    have unpromoted := (wf.directOutcome_isDirect (admits_of_read? stored) hf direct').promotes
    have passed : pool.canPass ⟨actual.binding, element⟩ formal = .ok result :=
      canPass_of_directOutcome ⟨ne_unknown_of_read? stored, comparable.formal_known, comparable.fits⟩
        direct' passes
    have notDirect : ¬ pool.PassesDirectly actual formal := by
      rintro ⟨other, direct'', passes''⟩
      exact nomatch (direct.unique direct'' ▸ fails).symm.trans passes''
    exact
      { fails := fun fails => nomatch fails.symm.trans passes
        converts := fun strict => show result.converts = false from
          converts_directOutcome direct' strict
        types := fun type => nomatch type.symm.trans promotable.1
        promotes := iff_of_true rfl
          ⟨element, result, promotable, notDirect, passed, passes, unpromoted⟩
        elements := by
          intro _ element' result' promotable' passed'
          obtain rfl := promotable.unique promotable'
          rw [Except.ok.inj (passed.symm.trans passed')] }
  | @failed first comparable direct fails none =>
    refine respectsIntent_of_isDirect .fail (fun _ => rfl) ?_
    intro element result promotable _ passed passes
    obtain ⟨data, stored⟩ := promotable.exists_read? known wf
    -- what passes for an element by itself would pass for the array
    cases wf.judgment (admits_of_read? stored) hf passed with
    | incomparable _ => exact nomatch passes
    | direct _ direct' _ => exact nomatch (none element _ promotable direct').symm.trans passes
    | promoted _ _ _ _ _ _ => rfl
    | failed _ _ _ _ => exact nomatch passes

/-- Arrays of integers over one dimension. -/
def intArrays : TypePool :=
  (((TypePool.empty Sharding.bySize.types).rectangular 1 .int false).2.array (.known ⟨5, 0⟩) .int).2

theorem built_intArrays : intArrays.Built := by
  have domain : Built ((TypePool.empty Sharding.bySize.types).rectangular 1 .int false).2 :=
    @Built.step _ _ (.rectangular 1 .int false) _ (.empty _) (by decide) rfl
  exact @Built.step _ _ (.array (.known ⟨5, 0⟩) .int) _ domain (by decide) rfl

/-- An array of integers passes to a real that is copied, by its elements and with their conversion. -/
theorem intArrays_promoted :
    intArrays.Built ∧ intArrays.PartsKnown ∧ intArrays.Admits (.known ⟨4, 0⟩) ∧
      intArrays.Admits .real ∧
      intArrays.canPass (.var (.known ⟨4, 0⟩)) ⟨.copyIn, .real⟩ = .ok ⟨true, .numeric, false, true⟩ ∧
      intArrays.RespectsIntent (.var (.known ⟨4, 0⟩)) ⟨.copyIn, .real⟩
        ⟨true, .numeric, false, true⟩ := by
  have known : intArrays.PartsKnown :=
    (partsKnown_iff built_intArrays.sound.wellFormed.table).2 (by decide)
  have array : intArrays.Admits (.known ⟨4, 0⟩) := .inr ⟨_, rfl⟩
  have real : intArrays.Admits .real := .inr ⟨_, rfl⟩
  have judged : intArrays.canPass (.var (.known ⟨4, 0⟩)) ⟨.copyIn, .real⟩ =
      .ok ⟨true, .numeric, false, true⟩ := rfl
  obtain ⟨outcome, judged', respects⟩ :=
    @canPass_respects_intent _ (.var (.known ⟨4, 0⟩)) ⟨.copyIn, .real⟩ built_intArrays known array real
  obtain rfl := Except.ok.inj (judged.symm.trans judged')
  exact ⟨built_intArrays, known, array, real, judged, respects⟩

end TypePool

end MethodSynthesis
