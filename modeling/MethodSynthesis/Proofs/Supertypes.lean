import MethodSynthesis.Proofs.ClassConversions

/-!
# The supertypes of a class

A class has the root object for its parent if none is recorded (`TypePool.HasParent`). Its supertypes are
what one or more steps to a parent lead to, and the generic forms of these (`TypePool.HasSupertype`).
The search through the ancestors takes the recorded steps only. So it finds every supertype, however
long the chain, but the root object of a class whose chain ends without a recorded parent
(`isSubclass_supertypes`).

No class is its own ancestor (`WellFormed.not_ancestor_self`), so a generic form that a class instantiates is
not among the ancestors of the class. A formal that names such a form is instantiated by the class. That
is reported if the class itself is the instantiation, and not if one of its strict ancestors is
(`instantiates_of_decorated`).
-/

set_option autoImplicit false

namespace MethodSynthesis

namespace TypePool

variable {pool : TypePool} {ty basic base form parent actual formal ancestor derived bare rooted : TypeId}
  {data : TypeData} {c : Composite} {decorator : Decorator} {seen received : Option Decorator}
  {outcome : Passing}

/-! ## Parents -/

/-- The parent of a type: the one that is recorded, and the root object for a class that records none. -/
inductive HasParent (pool : TypePool) : TypeId → TypeId → Prop
  | recorded {ty parent : TypeId} : pool.Inherits ty parent → HasParent pool ty parent
  | implicit {ty : TypeId} {c : Composite} : pool.read? ty = some (.composite c) →
      c.kind = .classType → c.parent = none → HasParent pool ty .rootObject

/-- A type is a strict ancestor of another, or the generic form of one. -/
def HasSupertype (pool : TypePool) (derived base : TypeId) : Prop :=
  ∃ ancestor, Relation.TransGen pool.HasParent derived ancestor ∧ pool.IsInstanceOf ancestor base

/-- A class that records no parent. -/
def IsBareClass (pool : TypePool) (ty : TypeId) : Prop :=
  ∃ c, pool.read? ty = some (.composite c) ∧ c.kind = .classType ∧ c.parent = none

/-- The recorded ancestors of a type end in a class that records no parent. -/
def EndsInBareClass (pool : TypePool) (derived : TypeId) : Prop :=
  ∃ last, Relation.ReflTransGen pool.Inherits derived last ∧ pool.IsBareClass last

theorem IsBareClass.not_inherits (bare? : pool.IsBareClass bare) : ¬ pool.Inherits bare parent := by
  obtain ⟨c, stored, -, none⟩ := bare?
  rintro ⟨c', stored', some⟩
  obtain rfl := TypeData.composite.inj (Option.some.inj (stored.symm.trans stored'))
  cases none.symm.trans some

theorem IsBareClass.hasParent (bare? : pool.IsBareClass bare) : pool.HasParent bare .rootObject := by
  obtain ⟨c, stored, kind, none⟩ := bare?
  exact .implicit stored kind none

theorem WellFormed.not_inherits_rootObject (wf : pool.WellFormed) :
    ¬ pool.Inherits .rootObject parent := by
  rintro ⟨c, composite, -⟩
  cases composite.symm.trans (wf.primitives .rootObject)

theorem WellFormed.not_hasParent_rootObject (wf : pool.WellFormed) :
    ¬ pool.HasParent .rootObject parent := by
  intro above
  cases above with
  | recorded inherits => exact wf.not_inherits_rootObject inherits
  | implicit composite => cases composite.symm.trans (wf.primitives .rootObject)

/-- The recorded ancestors are the ancestors, except that the root object may be one without a record. -/
theorem WellFormed.ancestor_iff (wf : pool.WellFormed) :
    Relation.TransGen pool.HasParent derived ancestor ↔
      Relation.TransGen pool.Inherits derived ancestor ∨
        ancestor = .rootObject ∧ pool.EndsInBareClass derived := by
  constructor
  · intro path
    -- the last step is the only one that may have no record
    induction path with
    | single step =>
      cases step with
      | recorded inherits => exact .inl (.single inherits)
      | implicit stored kind none => exact .inr ⟨rfl, derived, .refl, _, stored, kind, none⟩
    | tail _ step ih =>
      rcases ih with recorded | ⟨rfl, -⟩
      · cases step with
        | recorded inherits => exact .inl (recorded.tail inherits)
        | implicit stored kind none =>
          exact .inr ⟨rfl, _, recorded.to_reflTransGen, _, stored, kind, none⟩
      · exact absurd step wf.not_hasParent_rootObject
  · rintro (recorded | ⟨rfl, last, path, bare?⟩)
    · exact recorded.lift id fun _ _ => .recorded
    · exact .tail' (path.lift id fun _ _ => .recorded) bare?.hasParent

/-- The chain of a class ends once: in the root object, or in a class that records no parent. -/
theorem WellFormed.not_inherits_root_of_endsInBareClass (wf : pool.WellFormed)
    (ends : pool.EndsInBareClass derived) :
    ¬ Relation.ReflTransGen pool.Inherits derived .rootObject := by
  intro path
  obtain ⟨last, path', bare?⟩ := ends
  have unique : Relator.RightUnique pool.Inherits := fun _ _ _ => Inherits.unique
  -- of two ancestors, one is an ancestor of the other, and neither of these has a parent
  have apart : last ≠ .rootObject := by
    rintro rfl
    obtain ⟨c, composite, -⟩ := bare?
    cases composite.symm.trans (wf.primitives .rootObject)
  rcases Relation.ReflTransGen.total_of_right_unique unique path path' with above | above
  · rcases Relation.ReflTransGen.cases_head above with same | ⟨_, step, -⟩
    · exact apart same.symm
    · exact wf.not_inherits_rootObject step
  · rcases Relation.ReflTransGen.cases_head above with same | ⟨_, step, -⟩
    · exact apart same
    · exact bare?.not_inherits step

/-- The root object is an instance of itself alone, and nothing else is an instance of it. -/
theorem Sound.isInstanceOf_rootObject_iff (sound : pool.Sound) :
    pool.IsInstanceOf ancestor .rootObject ↔ ancestor = .rootObject := by
  refine ⟨fun instance_ => instance_.elim id fun root => ?_, .inl⟩
  obtain ⟨data, hdata, eq⟩ := bind_eq_ok.1 root
  have stored := read_eq_ok_iff.1 hdata
  cases data with
  | composite c =>
    -- the generic form of a composite is a composite
    have generic := sound.read?_generic stored
    rw [Except.ok.inj ((genericRoot_eq_ok stored).symm.trans root)] at generic
    cases generic.symm.trans (sound.wellFormed.primitives .rootObject)
  | _ => exact Except.ok.inj eq

theorem WellFormed.genericRoot_rootObject (wf : pool.WellFormed) :
    pool.genericRoot .rootObject = .ok .rootObject := by
  have stored : pool.read .rootObject = .ok (.primitive .rootObject) :=
    read_eq_ok_iff.2 (wf.primitives .rootObject)
  rw [genericRoot, stored]
  rfl

theorem WellFormed.rootObject_isInstanceOf_iff (wf : pool.WellFormed) :
    pool.IsInstanceOf .rootObject base ↔ base = .rootObject := by
  rw [IsInstanceOf, wf.genericRoot_rootObject, Except.ok.injEq, or_self, eq_comm]

/-! ## The search -/

/-- The search has an answer, and finds what the recorded steps lead to. -/
theorem WellFormed.exists_isSubclass (wf : pool.WellFormed) (known : pool.ParentsKnown)
    (stored : pool.read? derived = some data) (base : TypeId) :
    ∃ found, pool.isSubclass derived base = .ok found ∧ (found = true ↔
      ∃ ancestor, Relation.TransGen pool.Inherits derived ancestor ∧
        pool.IsInstanceOf ancestor base) := by
  obtain ⟨finds, ends⟩ : pool.SearchIsExact base derived := wf.searchIsExact stored
  have above_iff : (∃ ancestor, Relation.TransGen pool.Inherits derived ancestor ∧
      pool.IsInstanceOf ancestor base) ↔
        ∃ parent, pool.Inherits derived parent ∧ pool.SeenAs parent base := by
    constructor
    · rintro ⟨ancestor, path, instance_⟩
      obtain ⟨parent, step, path⟩ := Relation.TransGen.head'_iff.1 path
      exact ⟨parent, step, ancestor, path, instance_⟩
    · rintro ⟨parent, step, ancestor, path, instance_⟩
      exact ⟨ancestor, .head' step path, instance_⟩
  rw [above_iff]
  by_cases above : ∃ parent, pool.Inherits derived parent ∧ pool.SeenAs parent base
  · exact ⟨true, finds.2 above, iff_of_true rfl above⟩
  · refine ⟨false, ends.2 fun parent inherits => ⟨fun sees => above ⟨parent, inherits, sees⟩, ?_⟩,
      iff_of_false nofun above⟩
    exact fun lost => known.not_descendsFromUnknown stored (.head inherits lost)

/-- The recorded steps miss one supertype: the root object of a class whose chain ends without a record. -/
theorem Sound.hasSupertype_iff (sound : pool.Sound) : pool.HasSupertype derived base ↔
    (∃ ancestor, Relation.TransGen pool.Inherits derived ancestor ∧ pool.IsInstanceOf ancestor base) ∨
      base = .rootObject ∧ pool.EndsInBareClass derived := by
  have wf := sound.wellFormed
  constructor
  · rintro ⟨ancestor, path, instance_⟩
    rcases wf.ancestor_iff.1 path with recorded | ⟨rfl, ends⟩
    · exact .inl ⟨ancestor, recorded, instance_⟩
    · exact .inr ⟨wf.rootObject_isInstanceOf_iff.1 instance_, ends⟩
  · rintro (⟨ancestor, recorded, instance_⟩ | ⟨rfl, ends⟩)
    · exact ⟨ancestor, wf.ancestor_iff.2 (.inl recorded), instance_⟩
    · exact ⟨.rootObject, wf.ancestor_iff.2 (.inr ⟨rfl, ends⟩), .inl rfl⟩

/-- That supertype is not found by recorded steps. -/
theorem Sound.not_ancestor_rootObject (sound : pool.Sound) (ends : pool.EndsInBareClass derived) :
    ¬ ∃ ancestor, Relation.TransGen pool.Inherits derived ancestor ∧
      pool.IsInstanceOf ancestor .rootObject := by
  rintro ⟨ancestor, path, instance_⟩
  obtain rfl := sound.isInstanceOf_rootObject_iff.1 instance_
  exact sound.wellFormed.not_inherits_root_of_endsInBareClass ends path.to_reflTransGen

/-- A class with the root object for a recorded parent has this one ancestor. -/
theorem WellFormed.isSubclass_of_inherits_rootObject (wf : pool.WellFormed)
    (inherits : pool.Inherits rooted .rootObject) :
    pool.isSubclass rooted base = .ok (decide (base = .rootObject)) := by
  rw [wf.isSubclass_eq_ok_iff inherits]
  by_cases same : .rootObject = base
  · rw [if_pos same, same]
    exact decide_eq_true rfl
  · rw [if_neg same]
    refine ⟨.rootObject, wf.genericRoot_rootObject, ?_⟩
    rw [if_neg same, wf.isSubclass_rootObject, decide_eq_false (Ne.symm same)]

theorem WellFormed.isSubclass_of_isBareClass (wf : pool.WellFormed) (bare? : pool.IsBareClass bare) :
    pool.isSubclass bare base = .ok false := by
  have last : ∀ parent, ¬ pool.Inherits bare parent := fun _ => bare?.not_inherits
  obtain ⟨c, stored, -⟩ := bare?
  exact wf.isSubclass_of_not_inherits stored last

/-- The search finds a supertype of a class, in its own or its generic form, after any number of steps, with
one exception: it does not find the root object where the ancestors end in a class that records no
parent. So a class without a recorded parent and one whose recorded parent is the root object differ in
this supertype, and in no other. -/
theorem isSubclass_supertypes (built : pool.Built) (known : pool.ParentsKnown) :
    (∀ derived data base, pool.read? derived = some data →
      ∃ found, pool.isSubclass derived base = .ok found ∧
        (found = true ↔ ∃ ancestor, Relation.TransGen pool.Inherits derived ancestor ∧
          pool.IsInstanceOf ancestor base) ∧
        ((found = true ↔ pool.HasSupertype derived base) ↔
          ¬ (base = .rootObject ∧ pool.EndsInBareClass derived))) ∧
    (∀ bare rooted, pool.IsBareClass bare → pool.Inherits rooted .rootObject →
      ∀ base, pool.isSubclass bare base = pool.isSubclass rooted base ↔ base ≠ .rootObject) := by
  have sound := built.sound
  have wf := sound.wellFormed
  constructor
  · intro derived data base stored
    obtain ⟨found, search, finds⟩ := wf.exists_isSubclass known stored base
    refine ⟨found, search, finds, ?_⟩
    rw [finds, sound.hasSupertype_iff]
    constructor
    · rintro all ⟨rfl, ends⟩
      exact sound.not_ancestor_rootObject ends (all.2 (.inr ⟨rfl, ends⟩))
    · intro regular
      exact (or_iff_left regular).symm
  · intro bare rooted bare? inherits base
    rw [wf.isSubclass_of_isBareClass bare?, wf.isSubclass_of_inherits_rootObject inherits,
      Except.ok.injEq, eq_comm, decide_eq_false_iff_not]

/-- A class without a recorded parent, and one whose recorded parent is the root object. -/
def rootedClasses : TypePool :=
  (((TypePool.empty Sharding.bySize.types).basicClass (.at 0) ⟨⟨5, 0⟩⟩ none).2.basicClass
    (.at 1) ⟨⟨6, 0⟩⟩ (some .rootObject)).2

theorem built_rootedClasses : rootedClasses.Built := by
  have first : Built ((TypePool.empty Sharding.bySize.types).basicClass (.at 0) ⟨⟨5, 0⟩⟩ none).2 :=
    @Built.step _ _ (.basicClass (.at 0) ⟨⟨5, 0⟩⟩ none) _ (.empty _) (by decide) rfl
  exact @Built.step _ _ (.basicClass (.at 1) ⟨⟨6, 0⟩⟩ (some .rootObject)) _ first (by decide) rfl

theorem parentsKnown_rootedClasses : rootedClasses.ParentsKnown :=
  (parentsKnown_iff built_rootedClasses.sound.wellFormed.table).2 (by decide)

theorem isBareClass_rootedClasses : rootedClasses.IsBareClass (.known ⟨1, 0⟩) :=
  ⟨_, rfl, rfl, rfl⟩

/-- The two differ in the root object, and in that alone. -/
theorem rootedClasses_supertypes :
    rootedClasses.Built ∧ rootedClasses.ParentsKnown ∧
      (∃ found, rootedClasses.isSubclass (.known ⟨1, 0⟩) .rootObject = .ok found ∧
        ¬ (found = true ↔ rootedClasses.HasSupertype (.known ⟨1, 0⟩) .rootObject)) ∧
      (∀ base, rootedClasses.isSubclass (.known ⟨1, 0⟩) base =
        rootedClasses.isSubclass (.known ⟨1, 1⟩) base ↔ base ≠ .rootObject) := by
  have built := built_rootedClasses
  have known : rootedClasses.ParentsKnown := parentsKnown_rootedClasses
  have bare? := isBareClass_rootedClasses
  obtain ⟨finds, alike⟩ := isSubclass_supertypes built known
  obtain ⟨found, search, -, misses⟩ := finds (.known ⟨1, 0⟩) _ .rootObject rfl
  have rooted : rootedClasses.Inherits (.known ⟨1, 1⟩) .rootObject := ⟨_, rfl, rfl⟩
  exact ⟨built, known, ⟨found, search, fun agrees => misses.1 agrees ⟨rfl, _, .refl, bare?⟩⟩,
    alike _ _ bare? rooted⟩

/-- The root object is the parent of both, and the search finds it for one of them. -/
theorem rootedClasses_unlike :
    rootedClasses.Built ∧ rootedClasses.ParentsKnown ∧
      rootedClasses.HasSupertype (.known ⟨1, 0⟩) .rootObject ∧
      rootedClasses.isSubclass (.known ⟨1, 0⟩) .rootObject = .ok false ∧
      rootedClasses.isSubclass (.known ⟨1, 1⟩) .rootObject = .ok true :=
  ⟨built_rootedClasses, parentsKnown_rootedClasses,
    ⟨.rootObject, .single isBareClass_rootedClasses.hasParent, .inl rfl⟩, rfl, rfl⟩

/-! ## Instantiated formals -/

/-- A generic form is met by instantiation: it is neither a class nor one of its ancestors, but the generic
form of one of these. -/
def MetByInstantiation (pool : TypePool) (basic form : TypeId) : Prop :=
  ¬ Relation.ReflTransGen pool.Inherits basic form ∧
    ∃ ancestor, Relation.ReflTransGen pool.Inherits basic ancestor ∧
      pool.genericRoot ancestor = .ok form

/-- No type is its own ancestor. -/
theorem WellFormed.not_ancestor_self (wf : pool.WellFormed) (admitted : pool.Admits ty) :
    ¬ Relation.TransGen pool.Inherits ty ty := by
  -- a circle through a type is one through its parent, which is a part of the type
  refine wf.induction (motive := fun ty => ¬ Relation.TransGen pool.Inherits ty ty) ?_ ?_ admitted
  · intro circle
    obtain ⟨parent, step, -⟩ := Relation.TransGen.head'_iff.1 circle
    exact not_inherits_unknown step
  · intro ty data stored ih circle
    obtain ⟨parent, step, path⟩ := Relation.TransGen.head'_iff.1 circle
    obtain ⟨c, composite, hparent⟩ := step
    obtain rfl : data = .composite c := Option.some.inj (stored.symm.trans composite)
    have part : parent ∈ (TypeData.composite c).components := by
      simp [TypeData.components, hparent]
    exact ih parent part (.tail' path ⟨c, composite, hparent⟩)

/-- What a class instantiates is not among its ancestors: it has the ancestors that the class has. -/
theorem Sound.metByInstantiation_of_genericRoot (sound : pool.Sound)
    (stored : pool.read? basic = some (.composite c)) (ne : basic ≠ form)
    (root : pool.genericRoot basic = .ok form) : pool.MetByInstantiation basic form := by
  refine ⟨fun path => ?_, basic, .refl, root⟩
  obtain rfl := Except.ok.inj ((genericRoot_eq_ok stored).symm.trans root)
  have generic := sound.read?_generic stored
  rcases Relation.ReflTransGen.cases_head path with same | ⟨parent, ⟨c', stored', hparent⟩, path⟩
  · exact ne same
  · obtain rfl := TypeData.composite.inj (Option.some.inj (stored.symm.trans stored'))
    have step : pool.Inherits (c.instantiatedFrom.getD basic) parent := ⟨_, generic, hparent⟩
    exact sound.wellFormed.not_ancestor_self (admits_of_read? generic) (.head' step path)

/-- What passes by value and is not of the formal's own type passes as classes do. -/
theorem Sound.passClasses_of_canPass (sound : pool.Sound) (source : pool.IsClassForm actual basic seen)
    (target : pool.IsClassForm formal form received) (other : actual ≠ formal)
    (passed : pool.canPass (.var actual) ⟨.copyIn, formal⟩ = .ok outcome)
    (passes : outcome.passes = true) : pool.passClasses actual formal = .ok outcome := by
  rw [sound.canPass_class source target, if_neg other] at passed
  obtain ⟨result, judged, eq⟩ := bind_eq_ok.1 passed
  cases passing : result.passes with
  | true =>
    obtain rfl : result = outcome := by simpa [passing] using eq
    exact judged
  | false =>
    obtain rfl : Passing.fail = outcome := by simpa [passing] using eq
    cases passes

/-- When a class that passes is said to instantiate the formal: if it is itself an instantiation of what the
formal names, or if the formal leaves the decorator open and is not the type that is passed. -/
theorem passClasses_instantiates_iff (source : pool.IsClassForm actual basic seen)
    (target : pool.IsClassForm formal form received)
    (judged : pool.passClasses actual formal = .ok outcome) (passes : outcome.passes = true) :
    outcome.instantiates = true ↔
      basic ≠ form ∧ pool.genericRoot basic = .ok form ∨ received = none ∧ actual ≠ formal := by
  obtain ⟨c, stored, -⟩ := source.stored
  by_cases becomes : (seen.getD .borrowedNonNil).Becomes received
  case neg =>
    rw [passClasses_of_not_becomes source.form target.form becomes] at judged
    obtain rfl := Except.ok.inj judged
    cases passes
  obtain ⟨change, hchange⟩ := Decorator.becomes_iff.1 becomes
  obtain ⟨itself, above⟩ := passClasses_of_changeTo? source.form stored target.form hchange
  by_cases own : pool.IsInstanceOf basic form
  · rw [itself own] at judged
    obtain rfl := Except.ok.inj judged
    by_cases same : basic = form
    · simp [same]
    · simp [same, own.resolve_left same]
  · -- an ancestor was asked for, and so the generic form of the class is not what the formal names
    have root : pool.genericRoot basic ≠ .ok form := fun root => own (.inr root)
    rw [above own] at judged
    obtain ⟨found, -, eq⟩ := bind_eq_ok.1 judged
    obtain rfl := Except.ok.inj eq
    cases found with
    | true => simp [root]
    | false => cases passes

/-- A class that passes by value is said to instantiate the formal in the same cases. -/
theorem Sound.canPass_instantiates_iff (sound : pool.Sound)
    (source : pool.IsClassForm actual basic seen) (target : pool.IsClassForm formal form received)
    (passed : pool.canPass (.var actual) ⟨.copyIn, formal⟩ = .ok outcome)
    (passes : outcome.passes = true) : outcome.instantiates = true ↔
      basic ≠ form ∧ pool.genericRoot basic = .ok form ∨ received = none ∧ actual ≠ formal := by
  by_cases same : actual = formal
  · subst same
    obtain ⟨rfl, rfl⟩ := source.unique target
    rw [sound.canPass_class source target, if_pos rfl] at passed
    obtain rfl := Except.ok.inj passed
    simp [Passing.exact]
  · have judged := sound.passClasses_of_canPass source target same passed passes
    exact passClasses_instantiates_iff source target judged passes

/-- Where a class passes by value to a decorated class, the outcome says so if the class is an instantiation
of what the formal names. This is less than what the formal is instantiated by: an instantiation that only
an ancestor of the class is goes unreported, and no other does. -/
theorem instantiates_of_decorated (built : pool.Built) (known : pool.ParentsKnown)
    (isClass : pool.isClass actual = .ok true)
    (decorated : pool.read? formal = some (.decorated form decorator)) :
    ∃ basic seen outcome, pool.IsClassForm actual basic seen ∧
      pool.canPass (.var actual) ⟨.copyIn, formal⟩ = .ok outcome ∧
        (outcome.passes = true →
          (outcome.instantiates = true ↔ basic ≠ form ∧ pool.genericRoot basic = .ok form) ∧
          ((outcome.instantiates = true ↔ pool.MetByInstantiation basic form) ↔
            (pool.MetByInstantiation basic form → pool.genericRoot basic = .ok form))) := by
  have sound := built.sound
  obtain ⟨basic, seen, source⟩ := sound.exists_isClassForm isClass
  have target : pool.IsClassForm formal form (some decorator) :=
    ⟨classForm?_eq_ok_some_iff.2 (.inr ⟨decorator, rfl, decorated⟩), sound.coherent decorated⟩
  have formalIsClass : pool.isClass formal = .ok true :=
    isClass_eq_ok_true_iff.2 ⟨_, decorated, rfl⟩
  obtain ⟨outcome, passed⟩ := sound.exists_canPass_class known isClass formalIsClass
  refine ⟨basic, seen, outcome, source, passed, fun passes => ?_⟩
  obtain ⟨c, stored, -⟩ := source.stored
  have flag : outcome.instantiates = true ↔ basic ≠ form ∧ pool.genericRoot basic = .ok form := by
    simpa using sound.canPass_instantiates_iff source target passed passes
  refine ⟨flag, ?_⟩
  rw [flag]
  constructor
  · intro exact_ met
    exact (exact_.2 met).2
  · intro itself
    constructor
    · rintro ⟨ne, root⟩
      exact sound.metByInstantiation_of_genericRoot stored ne root
    · intro met
      refine ⟨?_, itself met⟩
      rintro rfl
      exact met.1 .refl

/-- A generic class, its instantiation by an integer, and a class that inherits from the instantiation. -/
def instantiatedParent : TypePool :=
  ((((TypePool.empty Sharding.bySize.types).basicClass (.at 0) ⟨⟨5, 0⟩⟩ none).2.intern
    (.composite ⟨.classType, .at 0, ⟨⟨5, 0⟩⟩, some (.known ⟨1, 0⟩), [(⟨⟨7, 0⟩⟩, .int)], none⟩)).2.basicClass
      (.at 1) ⟨⟨6, 0⟩⟩ (some (.known ⟨1, 1⟩))).2

/-- These, and the generic class as a borrowed one. -/
def borrowedGeneric : TypePool :=
  (instantiatedParent.intern (.decorated (.known ⟨1, 0⟩) .borrowedNonNil)).2

theorem built_borrowedGeneric : borrowedGeneric.Built := by
  have generic : Built ((TypePool.empty Sharding.bySize.types).basicClass (.at 0) ⟨⟨5, 0⟩⟩ none).2 :=
    @Built.step _ _ (.basicClass (.at 0) ⟨⟨5, 0⟩⟩ none) _ (.empty _) (by decide) rfl
  have parent :
      Built (((TypePool.empty Sharding.bySize.types).basicClass (.at 0) ⟨⟨5, 0⟩⟩ none).2.intern
        (.composite ⟨.classType, .at 0, ⟨⟨5, 0⟩⟩, some (.known ⟨1, 0⟩),
          [(⟨⟨7, 0⟩⟩, .int)], none⟩)).2 :=
    @Built.step _ _ (.instantiate (.known ⟨1, 0⟩) [(⟨⟨7, 0⟩⟩, .int)]) _ generic (by decide) rfl
  have child : instantiatedParent.Built :=
    @Built.step _ _ (.basicClass (.at 1) ⟨⟨6, 0⟩⟩ (some (.known ⟨1, 1⟩))) _ parent (by decide) rfl
  exact @Built.step _ _ (.decorate (.known ⟨1, 0⟩) .borrowedNonNil) _ child (by decide) rfl

theorem parentsKnown_borrowedGeneric : borrowedGeneric.ParentsKnown :=
  (parentsKnown_iff built_borrowedGeneric.sound.wellFormed.table).2 (by decide)

/-- The child inherits from the instantiation only. -/
theorem metByInstantiation_borrowedGeneric :
    borrowedGeneric.MetByInstantiation (.known ⟨1, 2⟩) (.known ⟨1, 0⟩) := by
  have first : borrowedGeneric.Inherits (.known ⟨1, 2⟩) (.known ⟨1, 1⟩) := ⟨_, rfl, rfl⟩
  have last : ∀ parent, ¬ borrowedGeneric.Inherits (.known ⟨1, 1⟩) parent := by
    rintro parent ⟨c, stored, hparent⟩
    obtain rfl := TypeData.composite.inj (Option.some.inj stored)
    cases hparent
  refine ⟨fun path => ?_, .known ⟨1, 1⟩, .single first, rfl⟩
  obtain ⟨_, step, path⟩ := (Relation.ReflTransGen.cases_head path).resolve_left (by decide)
  obtain rfl := first.unique step
  obtain ⟨_, step, -⟩ := (Relation.ReflTransGen.cases_head path).resolve_left (by decide)
  exact last _ step

/-- The instantiation is said to instantiate the borrowed generic class. -/
theorem borrowedGeneric_instantiates :
    borrowedGeneric.Built ∧ borrowedGeneric.ParentsKnown ∧
      borrowedGeneric.isClass (.known ⟨1, 1⟩) = .ok true ∧
      borrowedGeneric.read? (.known ⟨2, 0⟩) = some (.decorated (.known ⟨1, 0⟩) .borrowedNonNil) ∧
      ∃ outcome, borrowedGeneric.canPass (.var (.known ⟨1, 1⟩)) ⟨.copyIn, .known ⟨2, 0⟩⟩ = .ok outcome ∧
        outcome.instantiates = true := by
  have known : borrowedGeneric.ParentsKnown := parentsKnown_borrowedGeneric
  have passed : borrowedGeneric.canPass (.var (.known ⟨1, 1⟩)) ⟨.copyIn, .known ⟨2, 0⟩⟩ =
    .ok ⟨true, .none, true, false⟩ := rfl
  obtain ⟨basic, seen, outcome, source, judged, flagged⟩ :=
    @instantiates_of_decorated _ (.known ⟨1, 0⟩) (.known ⟨1, 1⟩) (.known ⟨2, 0⟩) _
      built_borrowedGeneric known rfl rfl
  obtain rfl := Except.ok.inj (passed.symm.trans judged)
  have plain : borrowedGeneric.classForm? (.known ⟨1, 1⟩) = .ok (some ⟨.known ⟨1, 1⟩, none⟩) := rfl
  obtain ⟨rfl, rfl⟩ :=
    ClassForm.mk.inj (Option.some.inj (Except.ok.inj (plain.symm.trans source.form)))
  exact ⟨built_borrowedGeneric, known, rfl, rfl, _, judged, (flagged rfl).1.2 ⟨by decide, rfl⟩⟩

/-- The child of the instantiation passes to the borrowed generic class, which it meets by instantiation, and
is not said to instantiate it. -/
theorem borrowedGeneric_unreported :
    borrowedGeneric.Built ∧ borrowedGeneric.ParentsKnown ∧
      borrowedGeneric.read? (.known ⟨2, 0⟩) = some (.decorated (.known ⟨1, 0⟩) .borrowedNonNil) ∧
      borrowedGeneric.MetByInstantiation (.known ⟨1, 2⟩) (.known ⟨1, 0⟩) ∧
      borrowedGeneric.canPass (.var (.known ⟨1, 2⟩)) ⟨.copyIn, .known ⟨2, 0⟩⟩ =
        .ok ⟨true, .subtype, false, false⟩ :=
  ⟨built_borrowedGeneric, parentsKnown_borrowedGeneric, rfl, metByInstantiation_borrowedGeneric, rfl⟩

end TypePool

end MethodSynthesis
