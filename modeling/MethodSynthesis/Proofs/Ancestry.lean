import MethodSynthesis.Proofs.Coverage
import MethodSynthesis.Proofs.Growth
import Mathlib.Logic.Relation

/-!
# Classes and their ancestors

`TypePool.SeenAs` says as what a class can be seen: as itself or one of its ancestors, or as the
generic form of one of these. The search through the ancestors decides this wherever it has an answer,
and it has none exactly when it comes upon a parent that is unknown before it finds what it looks for
(`WellFormed.searchIsExact`). So a class either passes to another, or does not, or comes upon an unknown
parent (`WellFormed.passClasses_cases`).

To be seen as something and to change a decorator are each transitive (`Sound.seenAs_trans`,
`Decorator.Becomes.trans`), the one because a class and its instantiations have the same parent. So
the classes are preordered by passing (`class_passing_preorder`).
-/

set_option autoImplicit false

namespace MethodSynthesis

namespace Decorator

/-- A class under this decorator can be seen under that one: what may be nil is not seen as what never
is, and the management stays or becomes that of a borrow. Without a decorator, any class that is never
nil is received. -/
def Becomes (held : Decorator) : Option Decorator → Prop
  | none => held.nilable = false
  | some received => (held.nilable = true → received.nilable = true) ∧
      (received.management = held.management ∨ received.management = .borrowed)

theorem becomes_iff {held : Decorator} {received : Option Decorator} :
    held.Becomes received ↔ ∃ change, held.changeTo? received = some change := by
  obtain ⟨management, nilable⟩ := held
  cases received with
  | none => cases nilable <;> simp [Becomes, changeTo?]
  | some received =>
    obtain ⟨management', nilable'⟩ := received
    by_cases same : management = management'
    · cases nilable <;> cases nilable' <;> simp [Becomes, changeTo?, same]
    · by_cases borrowed : management' = .borrowed
      · cases nilable <;> cases nilable' <;> simp [Becomes, changeTo?, borrowed, borrowed ▸ same]
      · cases nilable <;> cases nilable' <;> simp [Becomes, changeTo?, same, Ne.symm same, borrowed]

theorem Becomes.refl (received : Option Decorator) :
    (received.getD .borrowedNonNil).Becomes received := by
  cases received with
  | none => rfl
  | some received => exact ⟨id, .inl rfl⟩

/-- A class that is received without a decorator is passed on as a borrow that is never nil. -/
theorem Becomes.trans {held : Decorator} {between received : Option Decorator}
    (first : held.Becomes between) (second : (between.getD .borrowedNonNil).Becomes received) :
    held.Becomes received := by
  cases between with
  | none =>
    have nilable : held.nilable = false := first
    cases received with
    | none => exact nilable
    | some received =>
      refine ⟨fun may => Bool.noConfusion (nilable.symm.trans may), .inr ?_⟩
      exact second.2.elim id id
  | some between =>
    obtain ⟨nilable, management⟩ := first
    cases received with
    | none =>
      have never : between.nilable = false := second
      exact Bool.eq_false_iff.2 fun may => Bool.noConfusion (never.symm.trans (nilable may))
    | some received =>
      obtain ⟨nilable', management'⟩ := second
      refine ⟨nilable' ∘ nilable, ?_⟩
      rcases management' with same | borrowed
      · rw [same]
        exact management
      · exact .inr borrowed

end Decorator

namespace TypePool

variable {pool : TypePool} {ty basic base form parent actual formal : TypeId} {data : TypeData}
  {c : Composite} {decorator : Decorator} {received : Option Decorator}

/-! ## Ancestors -/

/-- The second type is the parent of the first. -/
def Inherits (pool : TypePool) (ty parent : TypeId) : Prop :=
  ∃ c, pool.read? ty = some (.composite c) ∧ c.parent = some parent

/-- The second type is the first, or its generic form. -/
def IsInstanceOf (pool : TypePool) (ty form : TypeId) : Prop :=
  ty = form ∨ pool.genericRoot ty = .ok form

/-- What a class can be seen as: itself, an ancestor, or the generic form of one of these. -/
def SeenAs (pool : TypePool) (ty form : TypeId) : Prop :=
  ∃ ancestor, Relation.ReflTransGen pool.Inherits ty ancestor ∧ pool.IsInstanceOf ancestor form

/-- The ancestors of a class end in a parent that is unknown. -/
def DescendsFromUnknown (pool : TypePool) (ty : TypeId) : Prop :=
  Relation.ReflTransGen pool.Inherits ty .unknown

theorem Inherits.unique {parent' : TypeId} (h : pool.Inherits ty parent)
    (h' : pool.Inherits ty parent') : parent = parent' := by
  obtain ⟨c, stored, eq⟩ := h
  obtain ⟨c', stored', eq'⟩ := h'
  obtain rfl := TypeData.composite.inj (Option.some.inj (stored.symm.trans stored'))
  exact Option.some.inj (eq.symm.trans eq')

theorem not_inherits_unknown : ¬ pool.Inherits .unknown parent :=
  fun ⟨_, stored, _⟩ => nomatch stored

theorem isInstanceOf_unknown_iff : pool.IsInstanceOf .unknown form ↔ form = .unknown := by
  constructor
  · rintro (same | root)
    · exact same.symm
    · exact nomatch root
  · rintro rfl
    exact .inl rfl

/-- What a class can be seen as is its own form, or a form of its parent. -/
theorem seenAs_iff : pool.SeenAs ty form ↔
    pool.IsInstanceOf ty form ∨ ∃ parent, pool.Inherits ty parent ∧ pool.SeenAs parent form := by
  constructor
  · rintro ⟨ancestor, path, instance_⟩
    rcases Relation.ReflTransGen.cases_head path with rfl | ⟨parent, step, path⟩
    · exact .inl instance_
    · exact .inr ⟨parent, step, ancestor, path, instance_⟩
  · rintro (instance_ | ⟨parent, step, ancestor, path, instance_⟩)
    · exact ⟨ty, .refl, instance_⟩
    · exact ⟨ancestor, .head step path, instance_⟩

/-- What is stored descends from an unknown parent exactly if its parent does. -/
theorem descendsFromUnknown_iff (stored : pool.read? ty = some data) :
    pool.DescendsFromUnknown ty ↔
      ∃ parent, pool.Inherits ty parent ∧ pool.DescendsFromUnknown parent := by
  rw [DescendsFromUnknown, Relation.ReflTransGen.cases_head_iff, or_iff_right]
  · rfl
  · rintro rfl
    exact nomatch stored

/-- The search ends at a type without a parent. -/
theorem WellFormed.isSubclass_of_not_inherits (wf : pool.WellFormed)
    (stored : pool.read? ty = some data) (last : ∀ parent, ¬ pool.Inherits ty parent) :
    pool.isSubclass ty base = .ok false := by
  have none : data.composite?.bind (·.parent) = none := by
    refine Option.eq_none_iff_forall_ne_some.2 fun parent eq => ?_
    obtain ⟨c, hc, hparent⟩ := Option.bind_eq_some_iff.1 eq
    cases data with
    | composite c' =>
      obtain rfl : c' = c := Option.some.inj hc
      exact last parent ⟨c', stored, hparent⟩
    | _ => exact nomatch hc
  obtain ⟨n, size⟩ := Nat.exists_eq_add_of_lt (Grows.size_pos wf)
  rw [isSubclass, size, TypePool.hasAncestorWithin, composite?_eq_ok stored, ok_bind, none]
  rfl

/-- From a type on, there are enough steps if there are as many as types that are not newer. -/
theorem WellFormed.hasAncestorWithin_eq_ok_iff (wf : pool.WellFormed)
    {oldest : List (InternTable.Entry TypeData)} (suffix : oldest <:+ pool.table.entries)
    (mem : ty ∈ oldest.map fun e => TypeId.known e.handle) {n : Nat} (enough : oldest.length ≤ n)
    {found : Bool} :
    pool.hasAncestorWithin base n ty = .ok found ↔ pool.isSubclass ty base = .ok found := by
  have grows : pool.Grows pool := .refl wf
  have all : oldest.length ≤ pool.size := suffix.length_le
  constructor
  · exact grows.hasAncestorWithin base suffix enough all mem found
  · exact grows.hasAncestorWithin base suffix all enough mem found

theorem WellFormed.isSubclass_rootObject (wf : pool.WellFormed) :
    pool.isSubclass .rootObject base = .ok false := by
  refine wf.isSubclass_of_not_inherits (wf.primitives .rootObject) ?_
  rintro parent ⟨c, composite, -⟩
  cases composite.symm.trans (wf.primitives .rootObject)

/-- One step of the search. How many steps are left plays no part where it has an answer: the parent is
older than the class, and there are as many steps as types. -/
theorem WellFormed.isSubclass_eq_ok_iff (wf : pool.WellFormed) {found : Bool}
    (inherits : pool.Inherits ty parent) : pool.isSubclass ty base = .ok found ↔
      if parent = base then found = true else ∃ root, pool.genericRoot parent = .ok root ∧
        if root = base then found = true else pool.isSubclass parent base = .ok found := by
  obtain ⟨c, stored, hparent⟩ := inherits
  cases ty with
  | unknown => cases stored
  | known handle =>
    obtain ⟨newer, older, eq⟩ := List.append_of_mem ((read?_known_eq_some_iff wf.table).1 stored)
    have suffix : ⟨handle, .composite c⟩ :: older <:+ pool.table.entries := ⟨newer, eq.symm⟩
    have length : older.length + 1 ≤ pool.size := suffix.length_le
    obtain ⟨n, size⟩ : ∃ n, pool.size = n + 1 := Nat.exists_eq_add_of_le' (by omega)
    rw [isSubclass, size, TypePool.hasAncestorWithin, composite?_eq_ok_some_iff.2 stored, ok_bind,
      Option.bind_some, hparent]
    dsimp only
    by_cases same : parent = base
    · simp [same]
    simp only [if_neg same, bind_eq_ok]
    refine exists_congr fun root => and_congr_right fun hroot => ?_
    by_cases generic : root = base
    · simp [generic]
    rw [if_neg generic, if_neg generic]
    -- a parent with a generic form is stored, and before the class
    have before : parent ∈ older.map fun e => TypeId.known e.handle := by
      refine (wf.parts suffix parent (by simp [TypeData.components, hparent])).resolve_left ?_
      rintro rfl
      cases hroot
    by_cases root? : parent = .rootObject
    · rw [if_pos root?, root?, wf.isSubclass_rootObject]
      rfl
    · rw [if_neg root?]
      exact wf.hasAncestorWithin_eq_ok_iff ((List.suffix_cons _ older).trans suffix) before (by omega)

/-- The search finds what the parent can be seen as. It finds that there is nothing where this is not so
and the parent does not descend from an unknown one. -/
def SearchIsExact (pool : TypePool) (base ty : TypeId) : Prop :=
  (pool.isSubclass ty base = .ok true ↔
    ∃ parent, pool.Inherits ty parent ∧ pool.SeenAs parent base) ∧
  (pool.isSubclass ty base = .ok false ↔ ∀ parent, pool.Inherits ty parent →
    ¬ pool.SeenAs parent base ∧ ¬ pool.DescendsFromUnknown parent)

/-- The search is exact at a class if its step to the parent is. -/
theorem SearchIsExact.of_inherits (inherits : pool.Inherits ty parent)
    (finds : pool.isSubclass ty base = .ok true ↔ pool.SeenAs parent base)
    (ends : pool.isSubclass ty base = .ok false ↔
      ¬ pool.SeenAs parent base ∧ ¬ pool.DescendsFromUnknown parent) :
    pool.SearchIsExact base ty := by
  constructor
  · rw [finds]
    exact ⟨fun seen => ⟨parent, inherits, seen⟩, fun ⟨_, h, seen⟩ => inherits.unique h ▸ seen⟩
  · rw [ends]
    exact ⟨fun exact _ h => inherits.unique h ▸ exact, fun all => all parent inherits⟩

/-- An unknown parent is all that it can be seen as, and the search does not get past it. -/
theorem WellFormed.searchIsExact_unknown (wf : pool.WellFormed)
    (inherits : pool.Inherits ty .unknown) : pool.SearchIsExact base ty := by
  have seen : pool.SeenAs .unknown base ↔ base = .unknown := by
    rw [seenAs_iff, isInstanceOf_unknown_iff, or_iff_left]
    exact fun ⟨_, above, _⟩ => not_inherits_unknown above
  have noRoot : ∀ root, pool.genericRoot .unknown ≠ .ok root := fun _ => (nomatch ·)
  refine .of_inherits inherits ?_ ?_
  · rw [wf.isSubclass_eq_ok_iff inherits, seen]
    by_cases same : .unknown = base
    · simp [same]
    · simp [same, Ne.symm same, noRoot]
  · have lost : pool.DescendsFromUnknown .unknown := .refl
    rw [wf.isSubclass_eq_ok_iff inherits, seen]
    by_cases same : .unknown = base
    · simp [same]
    · simp [same, noRoot, lost]

/-- The search is exact at a class if it is at the parent. -/
theorem WellFormed.searchIsExact_step (wf : pool.WellFormed) (inherits : pool.Inherits ty parent)
    (stored : pool.read? parent = some data) (above : pool.SearchIsExact base parent) :
    pool.SearchIsExact base ty := by
  obtain ⟨root, hroot, -⟩ := exists_genericRoot stored
  refine .of_inherits inherits ?_ ?_
  · rw [wf.isSubclass_eq_ok_iff inherits, seenAs_iff, ← above.1, IsInstanceOf, hroot]
    by_cases same : parent = base
    · simp [same]
    · by_cases generic : root = base <;> simp [same, generic]
  · rw [wf.isSubclass_eq_ok_iff inherits, seenAs_iff, IsInstanceOf, hroot,
      descendsFromUnknown_iff stored]
    by_cases same : parent = base
    · simp [same]
    · by_cases generic : root = base
      · simp [same, generic]
      · simp [same, generic, above.2, forall_and]

theorem WellFormed.searchIsExact (wf : pool.WellFormed) (stored : pool.read? ty = some data) :
    pool.SearchIsExact base ty := by
  -- along the pool: the parent of a class is a part of it
  refine wf.induction (motive := fun ty => ∀ data, pool.read? ty = some data →
    pool.SearchIsExact base ty) ?_ ?_ (admits_of_read? stored) data stored
  · exact fun _ stored => nomatch stored
  intro ty data stored ih data' _
  by_cases last : ∀ parent, ¬ pool.Inherits ty parent
  · rw [SearchIsExact, wf.isSubclass_of_not_inherits stored last]
    refine ⟨iff_of_false (nomatch ·) ?_, iff_of_true rfl ?_⟩
    · exact fun ⟨parent, inherits, _⟩ => last parent inherits
    · exact fun parent inherits => absurd inherits (last parent)
  obtain ⟨parent, inherits⟩ := not_forall_not.1 last
  obtain ⟨c, composite, hparent⟩ := inherits
  obtain rfl : data = .composite c := Option.some.inj (stored.symm.trans composite)
  have part : parent ∈ (TypeData.composite c).components := by
    simp [TypeData.components, hparent]
  rcases wf.admits_part composite part with rfl | ⟨above, known⟩
  · exact wf.searchIsExact_unknown ⟨c, composite, hparent⟩
  · exact wf.searchIsExact_step ⟨c, composite, hparent⟩ known (ih parent part above known)

/-! ## Passing a class -/

/-- An undecorated composite stands for itself, and a decorated class for what it decorates. -/
theorem classForm?_eq_ok_some_iff {seen : Option Decorator} :
    pool.classForm? ty = .ok (some ⟨basic, seen⟩) ↔
      (ty = basic ∧ seen = none ∧ ∃ c, pool.read? ty = some (.composite c)) ∨
      ∃ decorator, seen = some decorator ∧ pool.read? ty = some (.decorated basic decorator) := by
  constructor
  · intro h
    obtain ⟨data, hdata, eq⟩ := bind_eq_ok.1 h
    have stored := read_eq_ok_iff.1 hdata
    cases data with
    | composite c =>
      obtain ⟨rfl, rfl⟩ := ClassForm.mk.inj (Option.some.inj (Except.ok.inj eq))
      exact .inl ⟨rfl, rfl, c, stored⟩
    | decorated basic' decorator =>
      obtain ⟨rfl, rfl⟩ := ClassForm.mk.inj (Option.some.inj (Except.ok.inj eq))
      exact .inr ⟨decorator, rfl, stored⟩
    | _ => exact nomatch eq
  · rintro (⟨rfl, rfl, c, stored⟩ | ⟨decorator, rfl, stored⟩)
    · rw [classForm?, read_eq_ok_iff.2 stored]
      rfl
    · rw [classForm?, read_eq_ok_iff.2 stored]
      rfl

/-- The class behind a type, and the decorator under which the type has it. -/
structure IsClassForm (pool : TypePool) (ty basic : TypeId) (seen : Option Decorator) : Prop where
  form : pool.classForm? ty = .ok (some ⟨basic, seen⟩)
  stored : ∃ c, pool.read? basic = some (.composite c) ∧ c.kind = .classType

theorem IsClassForm.unique {basic' : TypeId} {seen seen' : Option Decorator}
    (h : pool.IsClassForm ty basic seen) (h' : pool.IsClassForm ty basic' seen') :
    basic = basic' ∧ seen = seen' :=
  ClassForm.mk.inj (Option.some.inj (Except.ok.inj (h.form.symm.trans h'.form)))

theorem isClass_eq_ok_true_iff : pool.isClass ty = .ok true ↔
    ∃ data, pool.read? ty = some data ∧ data.kind.isClass = true := by
  constructor
  · intro h
    obtain ⟨kind, hkind, -⟩ := bind_eq_ok.1 h
    obtain ⟨data, hdata, -⟩ := bind_eq_ok.1 hkind
    have stored := read_eq_ok_iff.1 hdata
    rw [isClass_eq_ok stored] at h
    exact ⟨data, stored, Except.ok.inj h⟩
  · rintro ⟨data, stored, class?⟩
    rw [isClass_eq_ok stored, class?]

theorem Sound.exists_isClassForm (sound : pool.Sound) (isClass : pool.isClass ty = .ok true) :
    ∃ basic seen, pool.IsClassForm ty basic seen := by
  obtain ⟨data, stored, class?⟩ := isClass_eq_ok_true_iff.1 isClass
  cases data with
  | composite c =>
    rw [isClass_composite, decide_eq_true_eq] at class?
    exact ⟨ty, none, classForm?_eq_ok_some_iff.2 (.inl ⟨rfl, rfl, c, stored⟩), c, stored, class?⟩
  | decorated basic decorator =>
    exact ⟨basic, some decorator, classForm?_eq_ok_some_iff.2 (.inr ⟨decorator, rfl, stored⟩),
      sound.coherent stored⟩
  | _ => exact nomatch class?

/-- The class is held under the decorator that it has, or as a borrow. -/
theorem IsClassForm.isHeldAs {seen : Option Decorator} (h : pool.IsClassForm ty basic seen) :
    pool.IsHeldAs ty basic (seen.getD .borrowedNonNil) := by
  rcases classForm?_eq_ok_some_iff.1 h.form with ⟨rfl, rfl, -⟩ | ⟨decorator, rfl, decorated⟩
  · exact .inl ⟨rfl, rfl⟩
  · exact .inr decorated

theorem isInstanceOf_iff (stored : pool.read? ty = some (.composite c)) :
    pool.IsInstanceOf ty form ↔ ty = form ∨ c.instantiatedFrom.getD ty = form := by
  rw [IsInstanceOf, genericRoot_eq_ok stored, Except.ok.injEq]

section Classes

variable {seen : Option Decorator} (source : pool.classForm? actual = .ok (some ⟨basic, seen⟩))
  (stored : pool.read? basic = some (.composite c))
  (target : pool.classForm? formal = .ok (some ⟨form, received⟩))

include source target

theorem passClasses_of_not_becomes (held : ¬ (seen.getD .borrowedNonNil).Becomes received) :
    pool.passClasses actual formal = .ok .fail := by
  have none : (seen.getD .borrowedNonNil).changeTo? received = none :=
    Option.eq_none_iff_forall_ne_some.2 fun change h => held (Decorator.becomes_iff.2 ⟨change, h⟩)
  simp only [passClasses, source, target, ok_bind, none]
  rfl

include stored

/-- The outcome for two classes, when the decorator of the one changes to that of the other. The ancestors
are asked only if the one is no instance of the other. -/
theorem passClasses_of_changeTo? {change : DecoratorChange}
    (hchange : (seen.getD .borrowedNonNil).changeTo? received = some change) :
    (pool.IsInstanceOf basic form → pool.passClasses actual formal = .ok
      ⟨true, change.conversion false,
        decide (basic ≠ form) || (received.isNone && decide (actual ≠ formal)), false⟩) ∧
    (¬ pool.IsInstanceOf basic form → pool.passClasses actual formal =
      pool.isSubclass basic form >>= fun found => .ok (if found then
        ⟨true, change.conversion true, received.isNone && decide (actual ≠ formal), false⟩
        else .fail)) := by
  simp only [passClasses, source, target, ok_bind, hchange, genericRoot_eq_ok stored,
    isInstanceOf_iff stored]
  by_cases same : basic = form
  · simp only [if_pos same]
    exact ⟨fun _ => by simp [same], fun other => absurd (.inl same) other⟩
  by_cases generic : c.instantiatedFrom.getD basic = form
  · simp only [if_neg same, if_pos generic]
    exact ⟨fun _ => by simp [same], fun other => absurd (.inr generic) other⟩
  simp only [if_neg same, if_neg generic]
  refine ⟨fun own => (own.elim same generic).elim, fun _ => ?_⟩
  cases pool.isSubclass basic form with
  | ok found => cases found <;> rfl
  | error fault => rfl

/-- A class passes to its own form at once, and to that of an ancestor if it has it. -/
theorem passClasses_of_becomes (becomes : (seen.getD .borrowedNonNil).Becomes received) :
    (pool.IsInstanceOf basic form →
      ∃ result, pool.passClasses actual formal = .ok result ∧ result.passes = true) ∧
    (¬ pool.IsInstanceOf basic form → ∃ result, result.passes = true ∧
      pool.passClasses actual formal =
        pool.isSubclass basic form >>= fun found => .ok (if found then result else .fail)) := by
  obtain ⟨change, hchange⟩ := Decorator.becomes_iff.1 becomes
  obtain ⟨itself, above⟩ := passClasses_of_changeTo? source stored target hchange
  exact ⟨fun own => ⟨_, itself own, rfl⟩, fun other => ⟨_, rfl, above other⟩⟩

/-- What a class passes to, what it does not pass to, and where this cannot be told. -/
theorem WellFormed.passClasses_cases (wf : pool.WellFormed) :
    (∃ result, pool.passClasses actual formal = .ok result ∧ result.passes = true ∧
      (seen.getD .borrowedNonNil).Becomes received ∧ pool.SeenAs basic form) ∨
    (pool.passClasses actual formal = .ok .fail ∧ ¬ ((seen.getD .borrowedNonNil).Becomes received ∧
      (pool.SeenAs basic form ∨ pool.DescendsFromUnknown basic))) ∨
    ((∃ fault, pool.passClasses actual formal = .error fault) ∧
      (seen.getD .borrowedNonNil).Becomes received ∧ ¬ pool.SeenAs basic form ∧
        pool.DescendsFromUnknown basic) := by
  by_cases becomes : (seen.getD .borrowedNonNil).Becomes received
  case neg =>
    exact .inr (.inl ⟨passClasses_of_not_becomes source target becomes, fun h => becomes h.1⟩)
  obtain ⟨itself, above⟩ := passClasses_of_becomes source stored target becomes
  by_cases own : pool.IsInstanceOf basic form
  · obtain ⟨result, passed, passes⟩ := itself own
    exact .inl ⟨result, passed, passes, becomes, seenAs_iff.2 (.inl own)⟩
  obtain ⟨result, passes, passed⟩ := above own
  obtain ⟨finds, ends⟩ := wf.searchIsExact stored
  have seen_iff : pool.SeenAs basic form ↔ pool.isSubclass basic form = .ok true := by
    rw [seenAs_iff, or_iff_right own]
    exact finds.symm
  cases search : pool.isSubclass basic form with
  | ok found =>
    rw [search, ok_bind] at passed
    cases found with
    | true => exact .inl ⟨result, passed, passes, becomes, seen_iff.2 search⟩
    | false =>
      refine .inr (.inl ⟨passed, ?_⟩)
      rintro ⟨-, seen | lost⟩
      · exact nomatch search.symm.trans (seen_iff.1 seen)
      · obtain ⟨parent, inherits, lost⟩ := (descendsFromUnknown_iff stored).1 lost
        exact (ends.1 search parent inherits).2 lost
  | error fault =>
    rw [search] at passed
    have unseen : ¬ pool.SeenAs basic form := fun seen => nomatch search.symm.trans (seen_iff.1 seen)
    refine .inr (.inr ⟨⟨fault, passed⟩, becomes, unseen, ?_⟩)
    -- a search that neither finds a form nor the end of the chain comes to an unknown parent
    by_contra known
    refine nomatch search.symm.trans (ends.2 fun parent inherits => ⟨fun seen => ?_, fun lost => ?_⟩)
    · exact unseen (seenAs_iff.2 (.inr ⟨parent, inherits, seen⟩))
    · exact known (.head inherits lost)

end Classes

/-! ## The preorder -/

theorem SeenAs.refl (ty : TypeId) : pool.SeenAs ty ty :=
  ⟨ty, .refl, .inl rfl⟩

/-- An instantiation can be seen as what its generic form can be seen as, since it has its parent. -/
theorem Sound.seenAs_of_isInstanceOf (sound : pool.Sound) (instance_ : pool.IsInstanceOf ty form)
    (seen : pool.SeenAs form base) : pool.SeenAs ty base := by
  by_cases same : ty = form
  · exact same ▸ seen
  have root := instance_.resolve_left same
  obtain ⟨data, hdata, eq⟩ := bind_eq_ok.1 root
  have stored := read_eq_ok_iff.1 hdata
  cases data with
  | composite c =>
    obtain rfl := Except.ok.inj ((genericRoot_eq_ok stored).symm.trans root)
    have generic := sound.read?_generic stored
    rcases seenAs_iff.1 seen with own | ⟨parent, ⟨c', stored', hparent⟩, seen⟩
    · -- the generic form is a form of itself alone
      rcases (isInstanceOf_iff generic).1 own with rfl | rfl
      · exact seenAs_iff.2 (.inl instance_)
      · exact seenAs_iff.2 (.inl instance_)
    · obtain rfl := TypeData.composite.inj (Option.some.inj (generic.symm.trans stored'))
      exact seenAs_iff.2 (.inr ⟨parent, ⟨c, stored, hparent⟩, seen⟩)
  | _ => exact absurd (Except.ok.inj eq) same

theorem Sound.seenAs_trans (sound : pool.Sound) (first : pool.SeenAs ty form)
    (second : pool.SeenAs form base) : pool.SeenAs ty base := by
  obtain ⟨ancestor, path, instance_⟩ := first
  obtain ⟨ancestor', path', instance'⟩ := sound.seenAs_of_isInstanceOf instance_ second
  exact ⟨ancestor', path.trans path', instance'⟩

/-- The first type passes to the second as a copied argument does. -/
def PassesIn (pool : TypePool) (actual formal : TypeId) : Prop :=
  ∃ result, pool.canPass (.var actual) ⟨.copyIn, formal⟩ = .ok result ∧ result.passes = true

/-- A class passes to a class by its name or by what the class can be seen as. -/
theorem Sound.canPass_class_eq (sound : pool.Sound) {seen : Option Decorator} {binding : Binding}
    (plain : binding.isTypeOrParam = false) (source : pool.IsClassForm actual basic seen)
    (target : pool.IsClassForm formal form received) :
    pool.canPass (.var actual) ⟨binding, formal⟩ = if actual = formal then .ok .exact else do
      let result ← pool.passClasses actual formal
      return if (result.underBinding binding).passes then result.underBinding binding else .fail := by
  obtain ⟨c, stored, kind⟩ := source.stored
  obtain ⟨c', stored', kind'⟩ := target.stored
  obtain ⟨data, hdata, class?, noArray⟩ := source.isHeldAs.exists_data stored kind
  obtain ⟨data', hdata', class?', -⟩ := target.isHeldAs.exists_data stored' kind'
  by_cases same : actual = formal
  · rw [if_pos same, ← same]
    exact sound.wellFormed.canPass_self hdata plain
  have notAny : formal ≠ .any :=
    sound.ne_primitive hdata' (TypeData.ne_primitive_of_isClass class?') .any
  rw [if_neg same, canPass_var_eq hdata noArray, isUnknown_of_read? hdata', plain,
    sound.passTypes_class source.isHeldAs stored kind same notAny hdata', if_pos class?']
  rfl

/-- A copied argument is passed as its type passes. -/
theorem Sound.canPass_class (sound : pool.Sound) {seen : Option Decorator}
    (source : pool.IsClassForm actual basic seen) (target : pool.IsClassForm formal form received) :
    pool.canPass (.var actual) ⟨.copyIn, formal⟩ = if actual = formal then .ok .exact else do
      let result ← pool.passClasses actual formal
      return if result.passes then result else .fail :=
  sound.canPass_class_eq rfl source target

/-- A class passes to another exactly if its decorator changes to that of the other and it can be seen
as the class behind the other. -/
theorem Sound.passesIn_iff (sound : pool.Sound) {seen : Option Decorator}
    (source : pool.IsClassForm actual basic seen) (target : pool.IsClassForm formal form received) :
    pool.PassesIn actual formal ↔
      (seen.getD .borrowedNonNil).Becomes received ∧ pool.SeenAs basic form := by
  rw [PassesIn, sound.canPass_class source target]
  by_cases same : actual = formal
  · subst same
    obtain ⟨rfl, rfl⟩ := ClassForm.mk.inj
      (Option.some.inj (Except.ok.inj (source.form.symm.trans target.form)))
    rw [if_pos rfl]
    exact iff_of_true ⟨_, rfl, rfl⟩ ⟨.refl _, .refl _⟩
  rw [if_neg same]
  obtain ⟨c, stored, -⟩ := source.stored
  rcases sound.wellFormed.passClasses_cases source.form stored target.form with
    ⟨result, passed, passes, can⟩ | ⟨passed, cannot⟩ | ⟨⟨fault, lost⟩, -, unseen, -⟩
  · rw [passed, ok_bind, if_pos passes]
    exact iff_of_true ⟨_, rfl, passes⟩ can
  · rw [passed]
    refine iff_of_false ?_ fun can => cannot ⟨can.1, .inl can.2⟩
    rintro ⟨result, eq, passes⟩
    obtain rfl := Except.ok.inj eq
    exact nomatch passes
  · rw [lost]
    exact iff_of_false (fun ⟨_, eq, _⟩ => nomatch eq) fun can => unseen can.2

/-- Whether a class passes to a class can be told, provided the parents of classes are known. -/
theorem Sound.exists_canPass_class (sound : pool.Sound) (known : pool.ParentsKnown)
    (source : pool.isClass actual = .ok true) (target : pool.isClass formal = .ok true) :
    ∃ result, pool.canPass (.var actual) ⟨.copyIn, formal⟩ = .ok result := by
  obtain ⟨basic, seen, source⟩ := sound.exists_isClassForm source
  obtain ⟨data, stored, -⟩ := isClass_eq_ok_true_iff.1 target
  obtain ⟨c, composite, -⟩ := source.stored
  have hc : pool.HasComposite actual c := by
    rcases source.isHeldAs with ⟨rfl, -⟩ | decorated
    · exact .inl composite
    · exact .inr ⟨basic, _, decorated, composite⟩
  have admitted : pool.Admits (Qualified.mk .copyIn formal).type := .inr ⟨data, stored⟩
  obtain ⟨result, outcome, -⟩ := sound.canPass known hc admitted
  exact ⟨result, outcome⟩

/-- Passing of classes to copying formals is a preorder, whatever their management and nilability, be
they instantiations or not and whatever their ancestors: each class passes to its own type, and what
passes in two steps passes in one. No parent of a class being unknown, each question has an answer. -/
theorem class_passing_preorder (built : pool.Built) :
    (∀ a, pool.isClass a = .ok true → pool.PassesIn a a) ∧
    (∀ a b c, pool.isClass a = .ok true → pool.isClass b = .ok true → pool.isClass c = .ok true →
      pool.PassesIn a b → pool.PassesIn b c → pool.PassesIn a c) ∧
    (pool.ParentsKnown → ∀ a b, pool.isClass a = .ok true → pool.isClass b = .ok true →
      ∃ result, pool.canPass (.var a) ⟨.copyIn, b⟩ = .ok result) := by
  have sound := built.sound
  refine ⟨?_, ?_, fun known a b => sound.exists_canPass_class known⟩
  · intro a isClass
    obtain ⟨basic, seen, source⟩ := sound.exists_isClassForm isClass
    exact (sound.passesIn_iff source source).2 ⟨.refl seen, .refl basic⟩
  · intro a b c ha hb hc first second
    obtain ⟨basic, seen, source⟩ := sound.exists_isClassForm ha
    obtain ⟨form, between, through⟩ := sound.exists_isClassForm hb
    obtain ⟨last, received, target⟩ := sound.exists_isClassForm hc
    obtain ⟨becomes, sees⟩ := (sound.passesIn_iff source through).1 first
    obtain ⟨becomes', sees'⟩ := (sound.passesIn_iff through target).1 second
    exact (sound.passesIn_iff source target).2
      ⟨becomes.trans becomes', sound.seenAs_trans sees sees'⟩

/-- A class and one that inherits from it. -/
def twoClasses : TypePool :=
  (((TypePool.empty Sharding.bySize.types).basicClass (.at 0) ⟨⟨5, 0⟩⟩ none).2.basicClass
    (.at 1) ⟨⟨6, 0⟩⟩ (some (.known ⟨1, 0⟩))).2

/-- These, the second as an owned class and the first as a borrowed one. -/
def decoratedClasses : TypePool :=
  ((twoClasses.intern (.decorated (.known ⟨1, 1⟩) .ownedNonNil)).2.intern
    (.decorated (.known ⟨1, 0⟩) .borrowedNonNil)).2

theorem built_decoratedClasses : decoratedClasses.Built := by
  have parent : Built ((TypePool.empty Sharding.bySize.types).basicClass (.at 0) ⟨⟨5, 0⟩⟩ none).2 :=
    @Built.step _ _ (.basicClass (.at 0) ⟨⟨5, 0⟩⟩ none) _ (.empty _) (by decide) rfl
  have child : twoClasses.Built :=
    @Built.step _ _ (.basicClass (.at 1) ⟨⟨6, 0⟩⟩ (some (.known ⟨1, 0⟩))) _ parent (by decide) rfl
  have owned : (twoClasses.intern (.decorated (.known ⟨1, 1⟩) .ownedNonNil)).2.Built :=
    @Built.step _ _ (.decorate (.known ⟨1, 1⟩) .ownedNonNil) _ child (by decide) rfl
  exact @Built.step _ _ (.decorate (.known ⟨1, 0⟩) .borrowedNonNil) _ owned (by decide) rfl

/-- The owned class passes to the class under any management, which passes to a borrow of its parent,
and so the first passes to the last. -/
theorem decoratedClasses_passesIn :
    decoratedClasses.Built ∧ decoratedClasses.PassesIn (.known ⟨2, 0⟩) (.known ⟨1, 1⟩) ∧
      decoratedClasses.PassesIn (.known ⟨1, 1⟩) (.known ⟨2, 1⟩) ∧
      decoratedClasses.PassesIn (.known ⟨2, 0⟩) (.known ⟨2, 1⟩) := by
  have first : decoratedClasses.PassesIn (.known ⟨2, 0⟩) (.known ⟨1, 1⟩) := ⟨_, rfl, rfl⟩
  have second : decoratedClasses.PassesIn (.known ⟨1, 1⟩) (.known ⟨2, 1⟩) := ⟨_, rfl, rfl⟩
  obtain ⟨-, trans, -⟩ := class_passing_preorder built_decoratedClasses
  exact ⟨built_decoratedClasses, first, second, trans _ _ _ rfl rfl rfl first second⟩

end TypePool

end MethodSynthesis
