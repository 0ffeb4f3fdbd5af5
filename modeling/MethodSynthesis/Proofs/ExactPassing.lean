import MethodSynthesis.Proofs.ClassConversions
import MethodSynthesis.Proofs.Judgments

/-!
# Exact outcomes

An argument passes exactly if nothing has to be done to it. `TypePool.ReadsAs` says when that is so, by the
types alone: the actual is of the type of the formal, or is an undecorated class where the formal is its
borrow, and a tuple may have such elements at any depth.

The judgment reports an exact outcome in these cases and no others (`canPass_exact_iff`), so whatever else
passes is reported as converted, instantiated or promoted. The induction is on the nesting of tuples
(`Sound.passTypes_eq_exact_iff`); classes are the one kind of type besides where two types pass exactly
without being one (`passClasses_eq_exact_iff`).
-/

set_option autoImplicit false

namespace MethodSynthesis

namespace Passing

variable {p : Passing} {binding : Binding}

theorem eq_exact_iff : p = .exact ↔
    p.passes = true ∧ p.converts = false ∧ p.instantiates = false ∧ p.promotes = false := by
  obtain ⟨passes, conversion, instantiates, promotes⟩ := p
  simp [exact, converts]

/-- An exact outcome is within every intent. -/
theorem restricted_eq_exact_iff : p.restricted binding = .exact ↔ p = .exact := by
  constructor
  · intro h
    rcases @restricted_cases p binding with fails | same
    · exact absurd (fails.symm.trans h) fail_ne_exact
    · exact same.symm.trans h
  · rintro rfl
    rw [restricted, if_neg (by simp [exact, converts])]

/-- What passes and is not exact is reported as something else. -/
theorem reports_of_ne_exact (passes : p.passes = true) (inexact : p ≠ .exact) :
    p.converts = true ∨ p.instantiates = true ∨ p.promotes = true := by
  by_contra silent
  simp only [not_or, Bool.not_eq_true] at silent
  exact inexact (eq_exact_iff.2 ⟨passes, silent⟩)

end Passing

namespace TypePool

variable {pool : TypePool} {source target basic form : TypeId} {data data' : TypeData}
  {seen received : Option Decorator} {actual formal : Qualified} {outcome : Passing}

/-- The first type is the second one, as an actual is read against a formal: an undecorated class is read as
its borrow where that is asked for, also among the elements of tuples. The unknown type is not read as anything. -/
inductive ReadsAs (pool : TypePool) : TypeId → TypeId → Prop
  | same {ty : TypeId} {data : TypeData} : pool.read? ty = some data → ReadsAs pool ty ty
  | borrow {basic target : TypeId} {c : Composite} :
      pool.read? basic = some (.composite c) → c.kind = .classType →
        pool.read? target = some (.decorated basic .borrowedNonNil) → ReadsAs pool basic target
  | tuple {source target : TypeId} {elements elements' : List TypeId} :
      pool.read? source = some (.tuple elements) → pool.read? target = some (.tuple elements') →
        elements.length = elements'.length → (∀ e ∈ elements.zip elements', ReadsAs pool e.1 e.2) →
          ReadsAs pool source target

theorem ReadsAs.stored (h : pool.ReadsAs source target) :
    (∃ data, pool.read? source = some data) ∧ ∃ data, pool.read? target = some data := by
  cases h with
  | same stored => exact ⟨⟨_, stored⟩, _, stored⟩
  | borrow stored _ stored' => exact ⟨⟨_, stored⟩, _, stored'⟩
  | tuple stored stored' => exact ⟨⟨_, stored⟩, _, stored'⟩

/-! ## Classes -/

/-- The outcome for two classes is exact if the formal names the class itself, under the decorator that the
actual has it under. -/
theorem passClasses_eq_exact_iff (ne : source ≠ target)
    (hsource : pool.IsClassForm source basic seen) (htarget : pool.IsClassForm target form received) :
    pool.passClasses source target = .ok .exact ↔
      basic = form ∧ received = some (seen.getD .borrowedNonNil) := by
  obtain ⟨c, stored, -⟩ := hsource.stored
  constructor
  · intro passed
    have becomes : (seen.getD .borrowedNonNil).Becomes received := by
      by_contra held
      rw [passClasses_of_not_becomes hsource.form htarget.form held] at passed
      exact Passing.fail_ne_exact (Except.ok.inj passed)
    obtain ⟨change, hchange⟩ := Decorator.becomes_iff.1 becomes
    obtain ⟨itself, above⟩ := passClasses_of_changeTo? hsource.form stored htarget.form hchange
    have own : pool.IsInstanceOf basic form := by
      by_contra other
      rw [above other] at passed
      obtain ⟨found, -, eq⟩ := bind_eq_ok.1 passed
      cases found with
      | true =>
        -- the step to an ancestor is a conversion
        obtain ⟨-, unconverted, -, -⟩ := Passing.mk.inj (Except.ok.inj eq)
        exact nomatch (DecoratorChange.conversion_eq_none_iff.1 unconverted).2.2
      | false => exact Passing.fail_ne_exact (Except.ok.inj eq)
    rw [itself own] at passed
    obtain ⟨-, unconverted, concrete, -⟩ := Passing.mk.inj (Except.ok.inj passed)
    obtain ⟨noBorrow, never, -⟩ := DecoratorChange.conversion_eq_none_iff.1 unconverted
    obtain ⟨same, decorated⟩ := Bool.or_eq_false_iff.1 concrete
    refine ⟨not_not.1 (of_decide_eq_false same), ?_⟩
    refine ((Decorator.changes_iff hchange).1.2 ⟨noBorrow, never⟩).resolve_right ?_
    rintro ⟨rfl, -⟩
    exact of_decide_eq_false decorated ne
  · rintro ⟨rfl, keeps⟩
    obtain ⟨itself, -⟩ :=
      passClasses_of_changeTo? hsource.form stored htarget.form (Decorator.keeps_iff.1 (.inl keeps))
    rw [itself (.inl rfl), keeps]
    simp [DecoratorChange.conversion, Passing.exact]

/-- Two types of classes name one class under one decorator if the second is a borrow of the first, which is
undecorated, or they are one type. -/
theorem Sound.same_form_iff (sound : pool.Sound) (ne : source ≠ target)
    (hsource : pool.IsClassForm source basic seen) (htarget : pool.IsClassForm target form received) :
    (basic = form ∧ received = some (seen.getD .borrowedNonNil)) ↔
      pool.read? target = some (.decorated source .borrowedNonNil) := by
  constructor
  · rintro ⟨rfl, rfl⟩
    have stored' : pool.read? target = some (.decorated basic (seen.getD .borrowedNonNil)) := by
      rcases classForm?_eq_ok_some_iff.1 htarget.form with ⟨-, undecorated, -⟩ | ⟨_, eq, stored'⟩
      · exact nomatch undecorated
      · rwa [Option.some.inj eq]
    rcases classForm?_eq_ok_some_iff.1 hsource.form with ⟨rfl, rfl, -⟩ | ⟨decorator, rfl, stored⟩
    · exact stored'
    · exact absurd (eq_of_read? sound.wellFormed.table stored stored') ne
  · intro borrow
    obtain ⟨c, stored, kind⟩ := sound.coherent borrow
    have undecorated : pool.IsClassForm source source none :=
      ⟨classForm?_eq_ok_some_iff.2 (.inl ⟨rfl, rfl, c, stored⟩), c, stored, kind⟩
    have borrowed : pool.IsClassForm target source (some .borrowedNonNil) :=
      ⟨classForm?_eq_ok_some_iff.2 (.inr ⟨_, rfl, borrow⟩), c, stored, kind⟩
    obtain ⟨rfl, rfl⟩ := hsource.unique undecorated
    obtain ⟨rfl, rfl⟩ := htarget.unique borrowed
    exact ⟨rfl, rfl⟩

/-! ## Tuples -/

/-- The outcome for two tuples of one length is exact if it is for each pair of elements. -/
theorem passElements_eq_exact_iff {pass : TypeId → TypeId → Except Fault Passing}
    {elements elements' : List TypeId} (length : elements.length = elements'.length)
    (direct : ∀ e ∈ elements, ∀ f ∈ elements', ∀ p, pass e f = .ok p → p.IsDirect) :
    passElements pass elements elements' = .ok .exact ↔
      ∀ e ∈ elements.zip elements', pass e.1 e.2 = .ok .exact := by
  induction elements generalizing elements' with
  | nil => simp [passElements]
  | cons e elements ih =>
    cases elements' with
    | nil => simp at length
    | cons f elements' =>
      have rest := @ih elements' (Nat.succ.inj length) fun e' he' f' hf' =>
        direct e' (List.mem_cons_of_mem e he') f' (List.mem_cons_of_mem f hf')
      rw [List.zip_cons_cons, List.forall_mem_cons, ← rest]
      constructor
      · intro passed
        obtain ⟨first, hfirst, passed⟩ := bind_eq_ok.1 passed
        have promotes := (direct e List.mem_cons_self f List.mem_cons_self first hfirst).promotes
        split at passed
        · exact absurd (Except.ok.inj passed) Passing.fail_ne_exact
        rename_i asItIs
        simp only [Bool.or_eq_true, not_or, Bool.not_eq_true, Bool.not_eq_true', Bool.not_eq_false] at asItIs
        obtain ⟨rest, hrest, passed⟩ := bind_eq_ok.1 passed
        split at passed
        case isFalse => exact absurd (Except.ok.inj passed) Passing.fail_ne_exact
        -- the outcome for all has kept what that for the first one says
        obtain ⟨passes, conversion, instantiates, promotes'⟩ := Passing.mk.inj (Except.ok.inj passed)
        obtain ⟨concrete, concrete'⟩ := Bool.or_eq_false_iff.1 instantiates
        have unconverted : rest.converts = false := by simp [Passing.converts, conversion]
        constructor
        · rw [hfirst, Passing.eq_exact_iff.2 ⟨asItIs.1, asItIs.2, concrete, promotes⟩]
        · rw [hrest, Passing.eq_exact_iff.2 ⟨passes, unconverted, concrete', promotes'⟩]
      · rintro ⟨first, rest⟩
        rw [passElements, first, ok_bind, rest]
        rfl

/-! ## Types -/

/-- Tuples are read as one another by their elements. -/
theorem readsAs_tuple_iff (ne : source ≠ target) {elements elements' : List TypeId}
    (stored : pool.read? source = some (.tuple elements))
    (stored' : pool.read? target = some (.tuple elements')) (length : elements.length = elements'.length) :
    pool.ReadsAs source target ↔ ∀ e ∈ elements.zip elements', pool.ReadsAs e.1 e.2 := by
  constructor
  · intro reads
    cases reads with
    | same => exact absurd rfl ne
    | borrow composite => exact nomatch stored.symm.trans composite
    | tuple tuple tuple' _ all =>
      obtain rfl := TypeData.tuple.inj (Option.some.inj (stored.symm.trans tuple))
      obtain rfl := TypeData.tuple.inj (Option.some.inj (stored'.symm.trans tuple'))
      exact all
  · exact .tuple stored stored' length

/-- Two types of classes are read as one another if the second is a borrow of the first. -/
theorem Sound.readsAs_class_iff (sound : pool.Sound) (ne : source ≠ target)
    (stored : pool.read? source = some data) (class? : data.kind.isClass = true) :
    pool.ReadsAs source target ↔ pool.read? target = some (.decorated source .borrowedNonNil) := by
  constructor
  · intro reads
    cases reads with
    | same => exact absurd rfl ne
    | borrow _ _ borrow => exact borrow
    | tuple tuple =>
      obtain rfl := Option.some.inj (stored.symm.trans tuple)
      exact nomatch class?
  · intro borrow
    obtain ⟨c, composite, kind⟩ := sound.coherent borrow
    exact .borrow composite kind borrow

theorem not_readsAs_of_settled (ne : source ≠ target) (stored : pool.read? source = some data)
    (stored' : pool.read? target = some data')
    (noClasses : ¬ (data.kind.isClass = true ∧ data'.kind.isClass = true))
    (noTuples : ∀ elements elements', data = .tuple elements → data' = .tuple elements' →
      elements.length ≠ elements'.length) : ¬ pool.ReadsAs source target := by
  intro reads
  cases reads with
  | same => exact ne rfl
  | borrow composite kind borrow =>
    obtain rfl := Option.some.inj (stored.symm.trans composite)
    obtain rfl := Option.some.inj (stored'.symm.trans borrow)
    exact noClasses ⟨by simp [isClass_composite, kind], rfl⟩
  | tuple tuple tuple' length =>
    obtain rfl := Option.some.inj (stored.symm.trans tuple)
    obtain rfl := Option.some.inj (stored'.symm.trans tuple')
    exact noTuples _ _ rfl rfl length

/-- The outcome for two types is exact if the one is read as the other. -/
theorem Sound.passTypes_eq_exact_iff (sound : pool.Sound) (known : pool.PartsKnown)
    (stored : pool.read? source = some data) (stored' : pool.read? target = some data') :
    pool.passTypes source target = .ok .exact ↔ pool.ReadsAs source target := by
  have wf := sound.wellFormed
  -- on the structure of the first type, since the elements of a tuple are its parts
  refine wf.induction (motive := fun source => ∀ data, pool.read? source = some data →
    ∀ target data', pool.read? target = some data' →
      (pool.passTypes source target = .ok .exact ↔ pool.ReadsAs source target)) ?_ ?_
    (admits_of_read? stored) data stored target data' stored'
  · intro data stored
    exact nomatch stored
  intro source data stored ih _ _ target data' stored'
  cases wf.comparison stored stored' with
  | same same passed =>
    subst same
    exact iff_of_true passed (.same stored)
  | classes ne class? class?' passed =>
    obtain ⟨basic, seen, hsource⟩ := sound.exists_isClassForm (isClass_eq_ok_true_iff.2 ⟨_, stored, class?⟩)
    obtain ⟨form, received, htarget⟩ :=
      sound.exists_isClassForm (isClass_eq_ok_true_iff.2 ⟨_, stored', class?'⟩)
    rw [passed, passClasses_eq_exact_iff ne hsource htarget, sound.same_form_iff ne hsource htarget,
      sound.readsAs_class_iff ne stored class?]
  | @tuples elements elements' ne eq eq' length passed =>
    subst eq eq'
    have direct : ∀ e ∈ elements, ∀ f ∈ elements', ∀ p, pool.passTypes e f = .ok p → p.IsDirect := by
      intro e he f hf p
      exact wf.passTypes_isDirect (wf.admits_part stored he) (wf.admits_part stored' hf)
    rw [passed, passElements_eq_exact_iff length direct, readsAs_tuple_iff ne stored stored' length]
    refine forall₂_congr fun e he => ?_
    obtain ⟨he, hf⟩ := List.of_mem_zip he
    obtain ⟨part, hpart⟩ := known.read?_part wf stored he
    obtain ⟨part', hpart'⟩ := known.read?_part wf stored' hf
    exact ih e.1 he part hpart e.2 part' hpart'
  | settled ne outcomes noClasses noTuples passed =>
    rw [passed]
    refine iff_of_false ?_ (not_readsAs_of_settled ne stored stored' noClasses noTuples)
    intro eq
    obtain rfl := Except.ok.inj eq
    exact absurd outcomes (by decide)

/-! ## Arguments -/

/-- The outcome for the types of an actual and a formal is exact if the one is read as the other, whatever
the intent. -/
theorem Sound.directOutcome_eq_exact_iff (sound : pool.Sound) (known : pool.PartsKnown)
    (stored : pool.read? actual.type = some data) (stored' : pool.read? formal.type = some data')
    (direct : pool.DirectOutcome actual formal outcome) :
    outcome = .exact ↔ pool.ReadsAs actual.type formal.type := by
  obtain ⟨p, passed, rfl⟩ := direct
  rw [Passing.restricted_eq_exact_iff, ← sound.passTypes_eq_exact_iff known stored stored', passed,
    Except.ok.injEq]

/-- In whatever way an outcome is come to, it is exact if the one type is read as the other. -/
theorem Sound.judgment_exact_iff (sound : pool.Sound) (known : pool.PartsKnown)
    (ha : pool.Admits actual.type) (hf : pool.Admits formal.type)
    (fits : actual.binding.Fits formal.binding) (judgment : pool.Judgment actual formal outcome) :
    outcome = .exact ↔ pool.ReadsAs actual.type formal.type := by
  by_cases comparable : Comparable actual formal
  case neg =>
    have unread : ¬ pool.ReadsAs actual.type formal.type := by
      intro reads
      obtain ⟨⟨_, stored⟩, ⟨_, stored'⟩⟩ := reads.stored
      exact comparable ⟨ne_unknown_of_read? stored, ne_unknown_of_read? stored', fits⟩
    cases judgment with
    | incomparable => exact iff_of_false Passing.fail_ne_exact unread
    | _ => contradiction
  obtain ⟨data, stored⟩ := ha.resolve_left comparable.actual_known
  obtain ⟨data', stored'⟩ := hf.resolve_left comparable.formal_known
  have reads_iff : ∀ {first}, pool.DirectOutcome actual formal first →
      (first = .exact ↔ pool.ReadsAs actual.type formal.type) :=
    sound.directOutcome_eq_exact_iff known stored stored'
  -- types of which one is read as the other pass by themselves
  have unread : ∀ {first}, pool.DirectOutcome actual formal first → first.passes = false →
      ¬ pool.ReadsAs actual.type formal.type := by
    intro first direct fails reads
    rw [(reads_iff direct).2 reads] at fails
    exact nomatch fails
  cases judgment with
  | incomparable incomparable => exact absurd comparable incomparable
  | direct _ direct _ => exact reads_iff direct
  | promoted _ direct fails _ _ _ =>
    refine iff_of_false ?_ (unread direct fails)
    intro eq
    exact nomatch (Passing.mk.inj eq).2.2.2
  | failed _ direct fails _ => exact iff_of_false Passing.fail_ne_exact (unread direct fails)

/-- An argument that may be bound to a formal passes exactly if its type is read as that of the formal. If
it passes otherwise, that it is converted, instantiated or promoted is reported. -/
theorem canPass_exact_iff (built : pool.Built) (known : pool.PartsKnown) (ha : pool.Admits actual.type)
    (hf : pool.Admits formal.type) (fits : actual.binding.Fits formal.binding) :
    ∃ outcome, pool.canPass actual formal = .ok outcome ∧
      (outcome = .exact ↔ pool.ReadsAs actual.type formal.type) ∧
      (outcome.passes = true → ¬ pool.ReadsAs actual.type formal.type →
        outcome.converts = true ∨ outcome.instantiates = true ∨ outcome.promotes = true) := by
  have sound := built.sound
  obtain ⟨outcome, judged⟩ := sound.exists_canPass known ha hf
  have reads := sound.judgment_exact_iff known ha hf fits (sound.wellFormed.judgment ha hf judged)
  refine ⟨outcome, judged, reads, ?_⟩
  intro passes unread
  exact Passing.reports_of_ne_exact passes (mt reads.1 unread)

/-- The pairs of a class and an integer, with the class undecorated in the one and borrowed in the other. -/
def classPairs : TypePool :=
  ((decoratedClasses.tuple [.known ⟨1, 0⟩, .int]).2.tuple [.known ⟨2, 1⟩, .int]).2

theorem built_classPairs : classPairs.Built := by
  have undecorated : Built (decoratedClasses.tuple [.known ⟨1, 0⟩, .int]).2 :=
    @Built.step _ _ (.tuple [.known ⟨1, 0⟩, .int]) _ built_decoratedClasses (by decide) rfl
  exact @Built.step _ _ (.tuple [.known ⟨2, 1⟩, .int]) _ undecorated (by decide) rfl

/-- The first pair passes to the second as it is, even by reference. -/
theorem classPairs_exact :
    classPairs.Built ∧ classPairs.PartsKnown ∧ classPairs.Admits (.known ⟨3, 0⟩) ∧
      classPairs.Admits (.known ⟨3, 1⟩) ∧ Binding.Fits .var .ref ∧
      classPairs.canPass (.var (.known ⟨3, 0⟩)) ⟨.ref, .known ⟨3, 1⟩⟩ = .ok .exact ∧
      classPairs.ReadsAs (.known ⟨3, 0⟩) (.known ⟨3, 1⟩) := by
  have known : classPairs.PartsKnown :=
    (partsKnown_iff built_classPairs.sound.wellFormed.table).2 (by decide)
  have first : classPairs.Admits (.known ⟨3, 0⟩) := .inr ⟨_, rfl⟩
  have second : classPairs.Admits (.known ⟨3, 1⟩) := .inr ⟨_, rfl⟩
  have fits : Binding.Fits .var .ref := ⟨rfl, fun param => nomatch param⟩
  have judged : classPairs.canPass (.var (.known ⟨3, 0⟩)) ⟨.ref, .known ⟨3, 1⟩⟩ = .ok .exact := rfl
  obtain ⟨outcome, judged', reads, -⟩ := @canPass_exact_iff _ (.var (.known ⟨3, 0⟩))
    ⟨.ref, .known ⟨3, 1⟩⟩ built_classPairs known first second fits
  obtain rfl := Except.ok.inj (judged.symm.trans judged')
  exact ⟨built_classPairs, known, first, second, fits, judged, reads.1 rfl⟩

end TypePool

end MethodSynthesis
