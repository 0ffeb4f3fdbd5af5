import MethodSynthesis.Proofs.Ancestry

/-!
# The conversions of a class

To pass a class takes two things that do not depend on each other: a change of its decorator, and a way
from the class to the one that the formal names. The decorator stays as it is, becomes that of a borrow, or
comes to allow nil (`Decorator.Keeps`, `Borrows`, `GainsNil`); the formal names the class itself, in its own
or its generic form, or a strict ancestor (`TypePool.IsInstanceOf`, `StrictlySeenAs`). `ClassPassing` lists
the outcomes by these two.

The label that an outcome carries tells exactly which of them were needed, by value, and what needs either
does not pass by reference (`class_conversions_labelled`).
-/

set_option autoImplicit false

namespace MethodSynthesis

/-! ## Changes of the decorator -/

namespace Decorator

variable {held : Decorator} {received : Option Decorator}

/-- Neither the management nor the nilability of a class changes. Without a decorator, a class that is
never nil is received under the management that it has. -/
def Keeps (held : Decorator) (received : Option Decorator) : Prop :=
  received = some held ∨ received = none ∧ held.nilable = false

/-- A managed class is received as borrowed, and is as nilable as before. -/
def Borrows (held : Decorator) (received : Option Decorator) : Prop :=
  ∃ decorator, received = some decorator ∧ decorator.management = .borrowed ∧
    held.management ≠ .borrowed ∧ held.nilable = decorator.nilable

/-- A class that is never nil is received as one that may be, under its management or as borrowed. -/
def GainsNil (held : Decorator) (received : Option Decorator) : Prop :=
  ∃ decorator, received = some decorator ∧ held.nilable = false ∧ decorator.nilable = true ∧
    (decorator.management = held.management ∨ decorator.management = .borrowed)

theorem changeTo?_none_eq_some_iff {change : DecoratorChange} :
    held.changeTo? none = some change ↔ held.nilable = false ∧ change = ⟨false, false⟩ := by
  cases nilable : held.nilable <;> simp [changeTo?, nilable, eq_comm]

theorem keeps_iff : held.Keeps received ↔ held.changeTo? received = some ⟨false, false⟩ := by
  obtain ⟨management, nilable⟩ := held
  rcases received with _ | ⟨management', nilable'⟩
  · simp [Keeps, changeTo?_none_eq_some_iff]
  · grind [Keeps, changeTo?]

theorem borrows_iff : held.Borrows received ↔ held.changeTo? received = some ⟨true, false⟩ := by
  obtain ⟨management, nilable⟩ := held
  rcases received with _ | ⟨management', nilable'⟩
  · simp [Borrows, changeTo?_none_eq_some_iff]
  · grind [Borrows, changeTo?]

theorem gainsNil_iff :
    held.GainsNil received ↔ ∃ borrows, held.changeTo? received = some ⟨borrows, true⟩ := by
  obtain ⟨management, nilable⟩ := held
  rw [Bool.exists_bool]
  rcases received with _ | ⟨management', nilable'⟩
  · simp [GainsNil, changeTo?_none_eq_some_iff]
  · grind [GainsNil, changeTo?]

/-- What changes of a decorator, by the change that is made. -/
theorem changes_iff {change : DecoratorChange} (hchange : held.changeTo? received = some change) :
    (held.Keeps received ↔ change.borrows = false ∧ change.nilable = false) ∧
      (held.Borrows received ↔ change.borrows = true ∧ change.nilable = false) ∧
        (held.GainsNil received ↔ change.nilable = true) := by
  obtain ⟨borrows, nilable⟩ := change
  rw [keeps_iff, borrows_iff, gainsNil_iff, hchange]
  cases borrows <;> cases nilable <;> simp

/-- A class that passes at all gains nil if it is never nil and is received as one that may be. -/
theorem gainsNil_iff_of_becomes (becomes : held.Becomes received) : held.GainsNil received ↔
    held.nilable = false ∧ ∃ decorator, received = some decorator ∧ decorator.nilable = true := by
  constructor
  · rintro ⟨decorator, same, never, may, -⟩
    exact ⟨never, decorator, same, may⟩
  · rintro ⟨never, decorator, rfl, may⟩
    exact ⟨decorator, rfl, never, may, becomes.2⟩

end Decorator

/-! ## Labels of changes -/

namespace DecoratorChange

variable {change : DecoratorChange} {isAncestor : Bool}

theorem conversion_eq_none_iff : change.conversion isAncestor = .none ↔
    change.borrows = false ∧ change.nilable = false ∧ isAncestor = false := by
  obtain ⟨borrows, nilable⟩ := change
  cases borrows <;> cases nilable <;> cases isAncestor <;> simp [conversion]

theorem conversion_eq_borrows_iff : change.conversion isAncestor = .borrows ↔
    (change.borrows = true ∧ change.nilable = false) ∧ isAncestor = false := by
  obtain ⟨borrows, nilable⟩ := change
  cases borrows <;> cases nilable <;> cases isAncestor <;> simp [conversion]

theorem conversion_eq_subtype_iff : change.conversion isAncestor = .subtype ↔
    (change.borrows = false ∧ change.nilable = false) ∧ isAncestor = true := by
  obtain ⟨borrows, nilable⟩ := change
  cases borrows <;> cases nilable <;> cases isAncestor <;> simp [conversion]

theorem conversion_eq_borrowsSubtype_iff : change.conversion isAncestor = .borrowsSubtype ↔
    (change.borrows = true ∧ change.nilable = false) ∧ isAncestor = true := by
  obtain ⟨borrows, nilable⟩ := change
  cases borrows <;> cases nilable <;> cases isAncestor <;> simp [conversion]

theorem conversion_eq_nilable_iff : change.conversion isAncestor = .nilable ↔ change.nilable = true := by
  obtain ⟨borrows, nilable⟩ := change
  cases borrows <;> cases nilable <;> cases isAncestor <;> simp [conversion]

end DecoratorChange

namespace Passing

variable {conversion : Conversion} {instantiates : Bool} {binding : Binding}

/-- What passes by its type passes to a formal unless it is converted and the formal is a reference. -/
theorem passes_underBinding_iff :
    (Passing.underBinding ⟨true, conversion, instantiates, false⟩ binding).passes = true ↔
      (binding.isRef = true → conversion = .none) := by
  cases isRef : binding.isRef with
  | false => simp [underBinding, isRef]
  | true => cases conversion <;> simp [underBinding, converts, fail, isRef]

theorem conversion_underBinding_eq_iff {label : Conversion} (ne : label ≠ .none) :
    (Passing.underBinding ⟨true, conversion, instantiates, false⟩ binding).conversion = label ↔
      conversion = label ∧ binding.isRef = false := by
  cases isRef : binding.isRef with
  | false => simp [underBinding, isRef]
  | true =>
    by_cases free : conversion = .none
    · simp [underBinding, converts, isRef, free, ne.symm]
    · simp [underBinding, converts, fail, isRef, free, ne.symm]

end Passing

namespace TypePool

variable {pool : TypePool} {basic form actual formal : TypeId} {c : Composite}
  {seen received : Option Decorator} {change : DecoratorChange} {binding : Binding} {outcome : Passing}

/-! ## The way to the class of the formal -/

/-- A class is seen as another, which it is no instance of: an ancestor, or the generic form of one. -/
def StrictlySeenAs (pool : TypePool) (basic form : TypeId) : Prop :=
  ¬ pool.IsInstanceOf basic form ∧ ∃ parent, pool.Inherits basic parent ∧ pool.SeenAs parent form

theorem seenAs_iff_or_strictly :
    pool.SeenAs basic form ↔ pool.IsInstanceOf basic form ∨ pool.StrictlySeenAs basic form := by
  rw [seenAs_iff, StrictlySeenAs]
  by_cases own : pool.IsInstanceOf basic form
  · simp [own]
  · simp [own]

/-- The outcomes for a class that is held under a decorator, and a formal that names a class under another.
By the class or its generic form only the decorator counts, by an ancestor the step to it counts as well. -/
inductive ClassPassing (pool : TypePool) (held : Decorator) (basic : TypeId)
    (received : Option Decorator) (form : TypeId) : Passing → Prop
  | own {change : DecoratorChange} {instantiates : Bool} :
      held.changeTo? received = some change → pool.IsInstanceOf basic form →
        ClassPassing pool held basic received form ⟨true, change.conversion false, instantiates, false⟩
  | ancestor {change : DecoratorChange} {instantiates : Bool} :
      held.changeTo? received = some change → pool.StrictlySeenAs basic form →
        ClassPassing pool held basic received form ⟨true, change.conversion true, instantiates, false⟩
  | fails : ¬ (held.Becomes received ∧ pool.SeenAs basic form) →
      ClassPassing pool held basic received form .fail

theorem ParentsKnown.not_descendsFromUnknown (known : pool.ParentsKnown) {data : TypeData}
    (stored : pool.read? basic = some data) : ¬ pool.DescendsFromUnknown basic := by
  intro lost
  rcases Relation.ReflTransGen.cases_tail lost with rfl | ⟨child, -, c, stored', parent⟩
  · exact nomatch stored
  · exact known stored' parent

/-- Each class has an outcome for each. -/
theorem Sound.exists_classPassing (sound : pool.Sound) (known : pool.ParentsKnown)
    (source : pool.IsClassForm actual basic seen) (target : pool.IsClassForm formal form received) :
    ∃ p, pool.passClasses actual formal = .ok p ∧
      pool.ClassPassing (seen.getD .borrowedNonNil) basic received form p := by
  obtain ⟨c, stored, -⟩ := source.stored
  by_cases becomes : (seen.getD .borrowedNonNil).Becomes received
  case neg =>
    exact ⟨.fail, passClasses_of_not_becomes source.form target.form becomes, .fails fun h => becomes h.1⟩
  obtain ⟨change, hchange⟩ := Decorator.becomes_iff.1 becomes
  obtain ⟨itself, above⟩ := passClasses_of_changeTo? source.form stored target.form hchange
  by_cases own : pool.IsInstanceOf basic form
  · exact ⟨_, itself own, .own hchange own⟩
  rw [above own]
  obtain ⟨finds, ends⟩ : pool.SearchIsExact form basic := sound.wellFormed.searchIsExact stored
  by_cases strictly : ∃ parent, pool.Inherits basic parent ∧ pool.SeenAs parent form
  · rw [finds.2 strictly]
    exact ⟨_, rfl, .ancestor hchange ⟨own, strictly⟩⟩
  · -- no parent is unknown, so the search ends
    have ended : pool.isSubclass basic form = .ok false := by
      refine ends.2 fun parent inherits => ⟨fun sees => strictly ⟨parent, inherits, sees⟩, fun lost => ?_⟩
      exact known.not_descendsFromUnknown stored (.head inherits lost)
    rw [ended]
    refine ⟨.fail, rfl, .fails fun h => ?_⟩
    exact (seenAs_iff_or_strictly.1 h.2).elim own fun h => strictly h.2

theorem ClassPassing.refl (basic : TypeId) (received : Option Decorator) :
    pool.ClassPassing (received.getD .borrowedNonNil) basic received basic .exact := by
  have keeps : (received.getD .borrowedNonNil).Keeps received := by
    cases received with
    | none => exact .inr ⟨rfl, rfl⟩
    | some decorator => exact .inl rfl
  exact .own (Decorator.keeps_iff.1 keeps) (.inl rfl)

/-- What the intent of a formal leaves of an outcome fails or is that outcome. -/
theorem ClassPassing.underBinding_or_fail {held : Decorator} {p : Passing}
    (passing : pool.ClassPassing held basic received form p) :
    (if (p.underBinding binding).passes then p.underBinding binding else .fail) =
      p.underBinding binding := by
  split
  · rfl
  rename_i fails
  rw [Passing.underBinding] at fails ⊢
  split
  · rfl
  · rename_i free
    rw [if_neg free] at fails
    cases passing with
    | own => exact absurd rfl fails
    | ancestor => exact absurd rfl fails
    | fails => rfl

/-- A class passes to a formal of a class by value or reference as it passes by its type, with what the
intent leaves of that. -/
theorem Sound.exists_canPass_classPassing (sound : pool.Sound) (known : pool.ParentsKnown)
    (plain : binding.isTypeOrParam = false) (source : pool.IsClassForm actual basic seen)
    (target : pool.IsClassForm formal form received) :
    ∃ p, pool.canPass (.var actual) ⟨binding, formal⟩ = .ok (p.underBinding binding) ∧
      pool.ClassPassing (seen.getD .borrowedNonNil) basic received form p := by
  rw [sound.canPass_class_eq plain source target]
  by_cases same : actual = formal
  · subst same
    obtain ⟨rfl, rfl⟩ := source.unique target
    refine ⟨.exact, ?_, .refl basic seen⟩
    rw [if_pos rfl, Passing.underBinding, if_neg (by simp [Passing.exact, Passing.converts])]
  · obtain ⟨p, passed, passing⟩ := sound.exists_classPassing known source target
    refine ⟨p, ?_, passing⟩
    rw [if_neg same, passed, ok_bind, passing.underBinding_or_fail]
    rfl

/-! ## What a label says -/

/-- What the outcome for a class says about the change of its decorator and the way to the class of the
formal. -/
structure LabelsClass (pool : TypePool) (held : Decorator) (basic : TypeId)
    (received : Option Decorator) (form : TypeId) (binding : Binding) (outcome : Passing) : Prop where
  /-- A class that can be seen as that of the formal passes by value, and by reference if nothing of it
  has to change. -/
  passes : outcome.passes = true ↔ held.Becomes received ∧ pool.SeenAs basic form ∧
    (binding.isRef = true → held.Keeps received ∧ pool.IsInstanceOf basic form)
  /-- One label says that a managed class is borrowed and nothing else. -/
  borrows : outcome.convertsWithBorrowing = true ↔
    held.Borrows received ∧ pool.IsInstanceOf basic form ∧ binding.isRef = false
  /-- One says that a class is seen as its ancestor and nothing else. -/
  subtype : outcome.conversion = .subtype ↔
    held.Keeps received ∧ pool.StrictlySeenAs basic form ∧ binding.isRef = false
  /-- One says both of these. -/
  borrowsSubtype : outcome.conversion = .borrowsSubtype ↔
    held.Borrows received ∧ pool.StrictlySeenAs basic form ∧ binding.isRef = false
  /-- One says that a class that is never nil passes as one that may be, whatever else it takes. -/
  nilable : outcome.conversion = .nilable ↔
    outcome.passes = true ∧ held.nilable = false ∧ ∃ decorator, received = some decorator ∧
      decorator.nilable = true
  /-- Where any of this is needed, a class does not pass by reference. -/
  byReference : binding.isRef = true →
    held.Borrows received ∨ held.GainsNil received ∨ pool.StrictlySeenAs basic form →
      outcome.passes = false

/-- What passes is labelled by the change of the decorator and by whether an ancestor was asked for. -/
theorem labelsClass_of_change {held : Decorator} {isAncestor instantiates : Bool}
    (hchange : held.changeTo? received = some change)
    (own : pool.IsInstanceOf basic form ↔ isAncestor = false)
    (strictly : pool.StrictlySeenAs basic form ↔ isAncestor = true) :
    pool.LabelsClass held basic received form binding
      (Passing.underBinding ⟨true, change.conversion isAncestor, instantiates, false⟩ binding) := by
  have becomes : held.Becomes received := Decorator.becomes_iff.2 ⟨change, hchange⟩
  have sees : pool.SeenAs basic form := by
    rw [seenAs_iff_or_strictly, own, strictly]
    exact (Bool.eq_false_or_eq_true isAncestor).symm
  obtain ⟨keeps, borrows, gains⟩ := Decorator.changes_iff hchange
  constructor
  · rw [Passing.passes_underBinding_iff, DecoratorChange.conversion_eq_none_iff, keeps, own, and_assoc]
    exact ⟨fun free => ⟨becomes, sees, free⟩, fun h => h.2.2⟩
  · rw [Passing.convertsWithBorrowing, decide_eq_true_eq, Passing.conversion_underBinding_eq_iff (by decide),
      DecoratorChange.conversion_eq_borrows_iff, borrows, own, and_assoc]
  · rw [Passing.conversion_underBinding_eq_iff (by decide), DecoratorChange.conversion_eq_subtype_iff, keeps,
      strictly, and_assoc]
  · rw [Passing.conversion_underBinding_eq_iff (by decide), DecoratorChange.conversion_eq_borrowsSubtype_iff,
      borrows, strictly, and_assoc]
  · rw [Passing.conversion_underBinding_eq_iff (by decide), DecoratorChange.conversion_eq_nilable_iff,
      Passing.passes_underBinding_iff, ← Decorator.gainsNil_iff_of_becomes becomes, gains]
    -- what gains nil is converted, so it passes by value only
    constructor
    · rintro ⟨nilable, value⟩
      exact ⟨fun isRef => Bool.noConfusion (value.symm.trans isRef), nilable⟩
    · rintro ⟨free, nilable⟩
      refine ⟨nilable, Bool.eq_false_iff.2 fun isRef => ?_⟩
      obtain ⟨-, never, -⟩ := DecoratorChange.conversion_eq_none_iff.1 (free isRef)
      cases never.symm.trans nilable
  · intro isRef needed
    refine Bool.eq_false_iff.2 fun passes => ?_
    obtain ⟨noBorrow, never, itself⟩ :=
      DecoratorChange.conversion_eq_none_iff.1 (Passing.passes_underBinding_iff.1 passes isRef)
    rw [borrows, gains, strictly] at needed
    rcases needed with ⟨borrow, -⟩ | may | ancestor
    · cases noBorrow.symm.trans borrow
    · cases never.symm.trans may
    · cases itself.symm.trans ancestor

/-- What does not pass has no label. -/
theorem labelsClass_fail {held : Decorator}
    (fails : ¬ (held.Becomes received ∧ pool.SeenAs basic form)) :
    pool.LabelsClass held basic received form binding .fail := by
  have noBorrow : pool.SeenAs basic form → ¬ held.Borrows received := fun sees borrows =>
    fails ⟨Decorator.becomes_iff.2 ⟨_, Decorator.borrows_iff.1 borrows⟩, sees⟩
  have noKeep : pool.SeenAs basic form → ¬ held.Keeps received := fun sees keeps =>
    fails ⟨Decorator.becomes_iff.2 ⟨_, Decorator.keeps_iff.1 keeps⟩, sees⟩
  have own : pool.IsInstanceOf basic form → pool.SeenAs basic form :=
    fun own => seenAs_iff_or_strictly.2 (.inl own)
  have strictly : pool.StrictlySeenAs basic form → pool.SeenAs basic form :=
    fun strictly => seenAs_iff_or_strictly.2 (.inr strictly)
  constructor
  · exact iff_of_false nofun fun h => fails ⟨h.1, h.2.1⟩
  · exact iff_of_false nofun fun h => noBorrow (own h.2.1) h.1
  · exact iff_of_false nofun fun h => noKeep (strictly h.2.1) h.1
  · exact iff_of_false nofun fun h => noBorrow (strictly h.2.1) h.1
  · exact iff_of_false nofun fun h => nomatch h.1
  · exact fun _ _ => rfl

theorem ClassPassing.labelsClass {held : Decorator} {p : Passing}
    (passing : pool.ClassPassing held basic received form p) :
    pool.LabelsClass held basic received form binding (p.underBinding binding) := by
  cases passing with
  | own hchange own =>
    exact labelsClass_of_change hchange (by simp [own]) (by simp [StrictlySeenAs, own])
  | ancestor hchange strictly =>
    exact labelsClass_of_change hchange (by simp [strictly.1]) (by simp [strictly])
  | fails fails =>
    rw [Passing.underBinding, if_neg (by simp [Passing.fail, Passing.converts])]
    exact labelsClass_fail fails

/-- Each class is judged against each formal of a class, by value or by reference, and the label of the
outcome tells what it takes to pass the one to the other. An undecorated class is held as a borrow that is
never nil. -/
theorem class_conversions_labelled (built : pool.Built) (known : pool.ParentsKnown)
    (source : pool.isClass actual = .ok true) (target : pool.isClass formal = .ok true)
    (plain : binding.isTypeOrParam = false) :
    ∃ basic seen form received outcome, pool.IsClassForm actual basic seen ∧
      pool.IsClassForm formal form received ∧
        pool.canPass (.var actual) ⟨binding, formal⟩ = .ok outcome ∧
          pool.LabelsClass (seen.getD .borrowedNonNil) basic received form binding outcome := by
  have sound := built.sound
  obtain ⟨basic, seen, source⟩ := sound.exists_isClassForm source
  obtain ⟨form, received, target⟩ := sound.exists_isClassForm target
  obtain ⟨p, judged, passing⟩ := sound.exists_canPass_classPassing known plain source target
  exact ⟨basic, seen, form, received, p.underBinding binding, source, target, judged,
    passing.labelsClass⟩

/-- An owned class passes to a borrow of its parent by value, as borrowed and as an ancestor. -/
theorem decoratedClasses_labelled :
    decoratedClasses.Built ∧ decoratedClasses.ParentsKnown ∧
      decoratedClasses.isClass (.known ⟨2, 0⟩) = .ok true ∧
      decoratedClasses.isClass (.known ⟨2, 1⟩) = .ok true ∧
      decoratedClasses.canPass (.var (.known ⟨2, 0⟩)) ⟨.copyIn, .known ⟨2, 1⟩⟩ =
        .ok ⟨true, .borrowsSubtype, false, false⟩ ∧
      decoratedClasses.LabelsClass .ownedNonNil (.known ⟨1, 1⟩) (some .borrowedNonNil) (.known ⟨1, 0⟩)
        .copyIn ⟨true, .borrowsSubtype, false, false⟩ := by
  have built := built_decoratedClasses
  have known : decoratedClasses.ParentsKnown :=
    (parentsKnown_iff built.sound.wellFormed.table).2 (by decide)
  have passed : decoratedClasses.canPass (.var (.known ⟨2, 0⟩)) ⟨.copyIn, .known ⟨2, 1⟩⟩ =
      .ok ⟨true, .borrowsSubtype, false, false⟩ := rfl
  have owned : decoratedClasses.classForm? (.known ⟨2, 0⟩) =
      .ok (some ⟨.known ⟨1, 1⟩, some .ownedNonNil⟩) := rfl
  have borrowed : decoratedClasses.classForm? (.known ⟨2, 1⟩) =
      .ok (some ⟨.known ⟨1, 0⟩, some .borrowedNonNil⟩) := rfl
  obtain ⟨basic, seen, form, received, outcome, source, target, judged, labels⟩ :=
    @class_conversions_labelled _ (.known ⟨2, 0⟩) (.known ⟨2, 1⟩) .copyIn built known rfl rfl rfl
  obtain ⟨rfl, rfl⟩ :=
    ClassForm.mk.inj (Option.some.inj (Except.ok.inj (owned.symm.trans source.form)))
  obtain ⟨rfl, rfl⟩ :=
    ClassForm.mk.inj (Option.some.inj (Except.ok.inj (borrowed.symm.trans target.form)))
  obtain rfl := Except.ok.inj (passed.symm.trans judged)
  exact ⟨built, known, rfl, rfl, passed, labels⟩

end TypePool

end MethodSynthesis
