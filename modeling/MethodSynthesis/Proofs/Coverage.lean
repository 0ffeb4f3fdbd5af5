import MethodSynthesis.Proofs.ReceiverFormals

/-!
# Which receivers cover a type

A receiver takes a variable of a type when the variable passes to it as it is, or as a borrow
(`TypePool.Takes`); an overload with such a receiver covers the type. For composites this is a matter of
names: a record or union is taken by receivers of its own type, of its generic form and of any type
(`TypePool.Sound.takes_value_iff`); a class by receivers of these classes whose decorator leaves the
nilability of the class as it is, and its management too unless the class may be seen as borrowed
(`TypePool.Sound.takes_class_iff`). Neither asks for the ancestors of a class, since a class that is seen
as its parent is converted.
-/

set_option autoImplicit false

namespace MethodSynthesis

variable {pool : TypePool} {ty basic target : TypeId} {data : TypeData} {c : Composite}
  {decorator : Decorator} {q : Qualified}

/-! ## Outcomes that cover -/

/-- The conversions under which a receiver still covers: none, or to a borrow that is no reference. -/
def Conversion.IsFree (byRef : Bool) (conversion : Conversion) : Prop :=
  conversion = .none ∨ conversion = .borrows ∧ byRef = false

theorem Passing.not_covers_fail (binding : Binding) :
    (Passing.fail.underBinding binding).covers = false := by
  simp [Passing.underBinding, Passing.covers, Passing.fail]

/-- An outcome that passes without promotion covers exactly if its conversion is free. -/
theorem Passing.covers_underBinding_iff {conversion : Conversion} {instantiates : Bool}
    {binding : Binding} :
    (Passing.underBinding ⟨true, conversion, instantiates, false⟩ binding).covers = true ↔
      conversion.IsFree binding.isRef := by
  cases conversion <;> cases isRef : binding.isRef <;>
    simp [Passing.underBinding, Passing.covers, Passing.converts, Passing.convertsWithBorrowing,
      Passing.fail, Conversion.IsFree, isRef]

theorem TypeData.ne_primitive_of_isClass (h : data.kind.isClass = true) (p : Primitive) :
    data ≠ .primitive p := by
  rintro rfl
  exact nomatch h

namespace TypePool

/-- How a variable passes to a formal, unless it is an array. -/
theorem canPass_var_eq (stored : pool.read? ty = some data)
    (noArray : ∀ domain element, data ≠ .array domain element) (q : Qualified) :
    pool.canPass (.var ty) q =
      if q.type.isUnknown || q.binding.isTypeOrParam then .ok .fail
      else pool.passTypes ty q.type >>= fun result =>
        .ok (if (result.underBinding q.binding).passes then result.underBinding q.binding
          else .fail) := by
  have known := isUnknown_of_read? stored
  have notPromoted : pool.passPromoted (.var ty) q = .ok .fail := by
    rw [passPromoted, Qualified.var, read_eq_ok_iff.2 stored, ok_bind]
    split
    · exact absurd rfl (noArray _ _)
    · rfl
  have varType : (Qualified.var ty).isType = false := rfl
  have varParam : (Qualified.var ty).binding.isParam = false := rfl
  rw [canPass, notPromoted, varType, varParam, show (Qualified.var ty).type = ty from rfl, known,
    Bool.false_or, Qualified.isType, Binding.isTypeOrParam]
  cases q.type.isUnknown with
  | true => rfl
  | false =>
    cases q.binding.isType with
    | true => rfl
    | false =>
      cases q.binding.isParam with
      | true => rfl
      | false =>
        cases pool.passTypes ty q.type with
        | error fault => rfl
        | ok result => cases h : (result.underBinding q.binding).passes <;> simp [h]

theorem takes_iff (stored : pool.read? ty = some data)
    (noArray : ∀ domain element, data ≠ .array domain element) :
    pool.Takes ty q ↔ q.type.isUnknown = false ∧ q.binding.isTypeOrParam = false ∧
      ∃ result, pool.passTypes ty q.type = .ok result ∧
        (result.underBinding q.binding).covers = true := by
  rw [Takes, canPass_var_eq stored noArray]
  cases q.type.isUnknown with
  | true => simp [Passing.covers, Passing.fail]
  | false =>
    cases q.binding.isTypeOrParam with
    | true => simp [Passing.covers, Passing.fail]
    | false =>
      cases pool.passTypes ty q.type with
      | error fault => simp
      | ok result =>
        cases passes : (result.underBinding q.binding).passes <;>
          simp [passes, Passing.covers, Passing.fail]

/-- A class or other composite passes by its name to its own type and to the type of everything. -/
theorem passNames?_of_ne_primitive (other : ∀ p, ty ≠ .primitive p) (target : TypeId) :
    passNames? ty target = if ty = target then some .exact
      else if target = .any then some .instantiating else none := by
  have int : ty ≠ .int := other .int
  have uint : ty ≠ .uint := other .uint
  simp [passNames?, int, uint]

/-- What a type passes to, other than to itself or to the type of everything, is in the pool. -/
theorem Sound.exists_read?_of_passTypes (sound : pool.Sound) (stored : pool.read? ty = some data)
    (other : ∀ p, data ≠ .primitive p) (ne : ty ≠ target) (notAny : target ≠ .any) {result : Passing}
    (passed : pool.passTypes ty target = .ok result) : ∃ data, pool.read? target = some data := by
  rw [sound.wellFormed.passTypes_eq stored, passNames?_of_ne_primitive (sound.ne_primitive stored other),
    if_neg ne, if_neg notAny] at passed
  obtain ⟨data, hdata, -⟩ := bind_eq_ok.1 passed
  exact ⟨data, read_eq_ok_iff.1 hdata⟩

/-! ## Records and unions -/

/-- A record or union passes to its own type, its generic form, and the type of everything. -/
theorem Sound.passTypes_value (sound : pool.Sound) (stored : pool.read? ty = some (.composite c))
    (kind : c.kind ≠ .classType) (ha : ∃ data, pool.read? target = some data) :
    pool.passTypes ty target = .ok (if ty = target then .exact
      else if target = .any ∨ c.instantiatedFrom = some target then .instantiating else .fail) := by
  obtain ⟨data, stored'⟩ := ha
  rw [sound.wellFormed.passTypes_eq stored,
    passNames?_of_ne_primitive (sound.ne_primitive stored fun _ => (nomatch ·))]
  by_cases same : ty = target
  · simp [same]
  by_cases any : target = .any
  · rw [if_neg same, if_pos any, if_neg same, if_pos (.inl any)]
  simp only [if_neg same, any, if_false, false_or]
  rw [passStructures, read_eq_ok_iff.2 stored', ok_bind, isClass_composite, decide_eq_false kind]
  by_cases from? : c.instantiatedFrom = some target
  · have generic := sound.read?_root stored from?
    obtain rfl := Option.some.inj (stored'.symm.trans generic)
    simp [Composite.uninstantiated, genericRoot_eq_ok stored, from?]
  · have root : c.instantiatedFrom.getD ty ≠ target := by
      intro eq
      cases h : c.instantiatedFrom with
      | none => exact same (by simpa [h] using eq)
      | some root => exact from? (by simpa [h] using eq)
    cases data with
    | composite c' => cases h : c'.instantiatedFrom <;> simp [genericRoot_eq_ok stored, root, from?, h]
    | _ => simp [from?]

/-- A receiver takes a record or union if it is of its type, of its generic form, or of any type. -/
theorem Sound.takes_value_iff (sound : pool.Sound) (stored : pool.read? ty = some (.composite c))
    (kind : c.kind ≠ .classType) :
    pool.Takes ty q ↔ q.binding.isTypeOrParam = false ∧
      (q.type = ty ∨ q.type = .any ∨ c.instantiatedFrom = some q.type) := by
  rw [takes_iff stored fun _ _ => (nomatch ·)]
  constructor
  · rintro ⟨known, plain, result, passed, covers⟩
    refine ⟨plain, ?_⟩
    by_cases same : ty = q.type
    · exact .inl same.symm
    by_cases any : q.type = .any
    · exact .inr (.inl any)
    obtain ⟨data, target⟩ :=
      sound.exists_read?_of_passTypes stored (fun _ => (nomatch ·)) same any passed
    rw [sound.passTypes_value stored kind ⟨_, target⟩, if_neg same] at passed
    by_contra other
    obtain ⟨-, other⟩ := not_or.1 other
    rw [if_neg other] at passed
    obtain rfl := Except.ok.inj passed
    exact nomatch (Passing.not_covers_fail q.binding).symm.trans covers
  · rintro ⟨plain, name⟩
    obtain ⟨data, target⟩ : ∃ data, pool.read? q.type = some data := by
      rcases name with same | any | from?
      · exact ⟨_, same ▸ stored⟩
      · rw [any]
        exact ⟨_, sound.wellFormed.primitives .any⟩
      · exact ⟨_, sound.read?_root stored from?⟩
    refine ⟨isUnknown_of_read? target, plain, _, sound.passTypes_value stored kind ⟨_, target⟩, ?_⟩
    by_cases same : ty = q.type
    · rw [if_pos same]
      exact Passing.covers_underBinding_iff.2 (.inl rfl)
    · rw [if_neg same, if_pos (name.resolve_left (Ne.symm same))]
      exact Passing.covers_underBinding_iff.2 (.inl rfl)

/-- To pass a record or union has an outcome, whatever it is passed to. -/
theorem Sound.canPass_value (sound : pool.Sound) (stored : pool.read? ty = some (.composite c))
    (kind : c.kind ≠ .classType) (ha : pool.Admits q.type) :
    ∃ outcome, pool.canPass (.var ty) q = .ok outcome := by
  rw [canPass_var_eq stored fun _ _ => (nomatch ·)]
  split
  · exact ⟨_, rfl⟩
  rename_i known
  have target := ha.resolve_left fun unknown => known (by rw [unknown]; rfl)
  rw [sound.passTypes_value stored kind target]
  exact ⟨_, rfl⟩

end TypePool

/-! ## Classes -/

/-- A decorator of a receiver lets a class as it is held. A receiver without one takes what is never nil;
any other has the nilability of the class, and has its management or borrows it by value. -/
def Decorator.Admits (held : Decorator) (byRef : Bool) : Option Decorator → Prop
  | none => held.nilable = false
  | some received => received.nilable = held.nilable ∧
    (received.management = held.management ∨ received.management = .borrowed ∧ byRef = false)

/-- To change a decorator takes a free conversion exactly if the new one admits the old. -/
theorem Decorator.admits_iff {byRef : Bool} {received : Option Decorator} :
    decorator.Admits byRef received ↔ ∃ change, decorator.changeTo? received = some change ∧
      (change.conversion false).IsFree byRef := by
  obtain ⟨management, nilable⟩ := decorator
  cases received with
  | none => cases nilable <;> simp [Admits, changeTo?, DecoratorChange.conversion, Conversion.IsFree]
  | some received =>
    obtain ⟨management', nilable'⟩ := received
    by_cases same : management = management'
    · cases nilable <;> cases nilable' <;>
        simp [Admits, changeTo?, DecoratorChange.conversion, Conversion.IsFree, same]
    · by_cases borrowed : management' = .borrowed
      · subst borrowed
        cases nilable <;> cases nilable' <;>
          simp [Admits, changeTo?, DecoratorChange.conversion, Conversion.IsFree, same, Ne.symm same]
      · cases nilable <;> cases nilable' <;>
          simp [Admits, changeTo?, same, borrowed, Ne.symm same]

/-- What is seen as an ancestor is converted. -/
theorem DecoratorChange.not_isFree_ancestor (change : DecoratorChange) (byRef : Bool) :
    ¬ (change.conversion true).IsFree byRef := by
  obtain ⟨borrows, nilable⟩ := change
  cases borrows <;> cases nilable <;> simp [conversion, Conversion.IsFree]

namespace TypePool

/-- A receiver is of a class, or of its generic form, under a decorator that lets the class as it is
held. -/
def TakesClass (pool : TypePool) (basic : TypeId) (c : Composite) (decorator : Decorator)
    (byRef : Bool) (target : TypeId) : Prop :=
  ∃ form received, pool.classForm? target = .ok (some ⟨form, received⟩) ∧
    (form = basic ∨ c.instantiatedFrom = some form) ∧ decorator.Admits byRef received

/-- A class passes freely only to the receivers that take it: a step to an ancestor converts it. -/
theorem takesClass_of_passClasses (held : pool.IsHeldAs ty basic decorator)
    (stored : pool.read? basic = some (.composite c)) {binding : Binding} {result : Passing}
    (passed : pool.passClasses ty target = .ok result)
    (covers : (result.underBinding binding).covers = true) :
    pool.TakesClass basic c decorator binding.isRef target := by
  obtain ⟨seen, source, rfl⟩ := held.exists_classForm? stored
  have notFail : result ≠ .fail := by
    rintro rfl
    exact nomatch (Passing.not_covers_fail binding).symm.trans covers
  rw [passClasses, source, ok_bind] at passed
  obtain ⟨found, formal, passed⟩ := bind_eq_ok.1 passed
  rcases found with _ | ⟨form, received⟩
  · exact absurd (Except.ok.inj passed).symm notFail
  dsimp only at passed
  split at passed
  case h_2 => exact absurd (Except.ok.inj passed).symm notFail
  rename_i change hchange
  have admits : (change.conversion false).IsFree binding.isRef →
      (seen.getD .borrowedNonNil).Admits binding.isRef received :=
    fun free => Decorator.admits_iff.2 ⟨change, hchange, free⟩
  rw [genericRoot_eq_ok stored, ok_bind] at passed
  split at passed
  · rename_i same
    obtain rfl := Except.ok.inj passed
    exact ⟨form, received, formal, .inl same.symm,
      admits (Passing.covers_underBinding_iff.1 covers)⟩
  split at passed
  · rename_i other generic
    obtain rfl := Except.ok.inj passed
    have from? : c.instantiatedFrom = some form := by
      cases h : c.instantiatedFrom with
      | none => exact absurd (by simpa [h] using generic) other
      | some root => exact congrArg some (by simpa [h] using generic)
    exact ⟨form, received, formal, .inr from?,
      admits (Passing.covers_underBinding_iff.1 covers)⟩
  obtain ⟨isAncestor, -, passed⟩ := bind_eq_ok.1 passed
  split at passed
  · obtain rfl := Except.ok.inj passed
    exact absurd (Passing.covers_underBinding_iff.1 covers) (change.not_isFree_ancestor _)
  · exact absurd (Except.ok.inj passed).symm notFail

/-- A class passes freely to the receivers that take it. -/
theorem TakesClass.exists_passClasses {binding : Binding}
    (takes : pool.TakesClass basic c decorator binding.isRef target)
    (held : pool.IsHeldAs ty basic decorator) (stored : pool.read? basic = some (.composite c)) :
    ∃ result, pool.passClasses ty target = .ok result ∧
      (result.underBinding binding).covers = true := by
  obtain ⟨seen, source, rfl⟩ := held.exists_classForm? stored
  obtain ⟨form, received, formal, form?, admits⟩ := takes
  obtain ⟨change, hchange, free⟩ := Decorator.admits_iff.1 admits
  simp only [passClasses, source, formal, ok_bind, hchange, genericRoot_eq_ok stored]
  by_cases same : basic = form
  · rw [if_pos same]
    exact ⟨_, rfl, Passing.covers_underBinding_iff.2 free⟩
  · have from? := form?.resolve_left (Ne.symm same)
    rw [if_neg same, if_pos (by rw [from?]; rfl)]
    exact ⟨_, rfl, Passing.covers_underBinding_iff.2 free⟩

/-- What it takes to pass a class to another type than its own: to another class, what it takes to change
the class; nothing else lets it, unless it lets everything. -/
theorem Sound.passTypes_class (sound : pool.Sound) (held : pool.IsHeldAs ty basic decorator)
    (stored : pool.read? basic = some (.composite c)) (isClass : c.kind = .classType)
    (ne : ty ≠ target) (notAny : target ≠ .any) (target? : pool.read? target = some data) :
    pool.passTypes ty target =
      if data.kind.isClass then pool.passClasses ty target else .ok .fail := by
  obtain ⟨data', hdata, class?, -⟩ := held.exists_data stored isClass
  have noPrimitive := TypeData.ne_primitive_of_isClass class?
  rw [sound.wellFormed.passTypes_eq hdata,
    passNames?_of_ne_primitive (sound.ne_primitive hdata noPrimitive), if_neg ne, if_neg notAny]
  dsimp only
  rw [passStructures, read_eq_ok_iff.2 target?, ok_bind, class?, Bool.true_and]
  split
  · rfl
  rename_i noClass
  -- the generic form of a class is a class, so no record or union is met by it
  have root : ∀ c', data = .composite c' → pool.genericRoot ty ≠ .ok target := by
    rintro c' rfl eq
    rcases held with ⟨rfl, -⟩ | decorated
    · obtain ⟨c'', form, kind⟩ := sound.exists_form stored (eq_or_instantiatedFrom stored eq)
      obtain rfl := TypeData.composite.inj (Option.some.inj (form.symm.trans target?))
      exact noClass (by simp [isClass_composite, kind, isClass])
    · rw [genericRoot, read_eq_ok_iff.2 decorated] at eq
      exact ne (Except.ok.inj eq)
  cases data with
  | composite c' =>
    obtain ⟨found, hfound, -⟩ := exists_genericRoot hdata
    have other : found ≠ target := fun eq => root c' rfl (eq ▸ hfound)
    simp [hfound, other]
  | _ => cases data' <;> first | rfl | cases class?

theorem Sound.isClass_of_takesClass (sound : pool.Sound) {byRef : Bool}
    (stored : pool.read? basic = some (.composite c)) (isClass : c.kind = .classType)
    (takes : pool.TakesClass basic c decorator byRef target) :
    ∃ data, pool.read? target = some data ∧ data.kind.isClass = true := by
  obtain ⟨form, received, formal, form?, -⟩ := takes
  obtain ⟨data, hdata, formal⟩ := bind_eq_ok.1 formal
  have target? := read_eq_ok_iff.1 hdata
  refine ⟨data, target?, ?_⟩
  cases data with
  | composite c' =>
    obtain ⟨rfl, -⟩ := ClassForm.mk.inj (Option.some.inj (Except.ok.inj formal))
    obtain ⟨c'', form, kind⟩ := sound.exists_form stored form?
    obtain rfl := TypeData.composite.inj (Option.some.inj (form.symm.trans target?))
    simp [isClass_composite, kind, isClass]
  | decorated _ _ => rfl
  | _ => exact nomatch formal

/-- A receiver of the type of a class takes it. -/
theorem IsHeldAs.takesClass (held : pool.IsHeldAs ty basic decorator)
    (stored : pool.read? basic = some (.composite c)) (byRef : Bool) :
    pool.TakesClass basic c decorator byRef ty := by
  obtain ⟨seen, source, rfl⟩ := held.exists_classForm? stored
  refine ⟨basic, seen, source, .inl rfl, ?_⟩
  cases seen with
  | none => rfl
  | some seen => exact ⟨rfl, .inl rfl⟩

/-- A receiver takes a class if it lets every type, or the class itself or in its generic form under a
decorator that lets it as it is held. -/
theorem Sound.takes_class_iff (sound : pool.Sound) (held : pool.IsHeldAs ty basic decorator)
    (stored : pool.read? basic = some (.composite c)) (isClass : c.kind = .classType) :
    pool.Takes ty q ↔ q.binding.isTypeOrParam = false ∧
      (q.type = .any ∨ pool.TakesClass basic c decorator q.binding.isRef q.type) := by
  obtain ⟨data', hdata, class?, noArray⟩ := held.exists_data stored isClass
  have noPrimitive := TypeData.ne_primitive_of_isClass class?
  rw [takes_iff hdata noArray]
  by_cases same : ty = q.type
  · refine ⟨fun takes => ⟨takes.2.1, .inr (same ▸ held.takesClass stored _)⟩, fun takes => ?_⟩
    refine ⟨same ▸ isUnknown_of_read? hdata, takes.1, .exact, ?_,
      Passing.covers_underBinding_iff.2 (.inl rfl)⟩
    rw [sound.wellFormed.passTypes_eq hdata, passNames?, if_pos same]
  by_cases any : q.type = .any
  · refine ⟨fun takes => ⟨takes.2.1, .inl any⟩, fun takes => ?_⟩
    refine ⟨by rw [any]; rfl, takes.1, .instantiating, ?_, Passing.covers_underBinding_iff.2 (.inl rfl)⟩
    rw [sound.wellFormed.passTypes_eq hdata,
      passNames?_of_ne_primitive (sound.ne_primitive hdata noPrimitive), if_neg same, if_pos any]
  rw [or_iff_right any]
  constructor
  · rintro ⟨-, plain, result, passed, covers⟩
    obtain ⟨data, target⟩ := sound.exists_read?_of_passTypes hdata noPrimitive same any passed
    rw [sound.passTypes_class held stored isClass same any target] at passed
    split at passed
    · exact ⟨plain, takesClass_of_passClasses held stored passed covers⟩
    · obtain rfl := Except.ok.inj passed
      cases (Passing.not_covers_fail q.binding).symm.trans covers
  · rintro ⟨plain, takes⟩
    obtain ⟨data, target, classes⟩ := sound.isClass_of_takesClass stored isClass takes
    obtain ⟨result, passed, covers⟩ := takes.exists_passClasses held stored
    refine ⟨isUnknown_of_read? target, plain, result, ?_, covers⟩
    rw [sound.passTypes_class held stored isClass same any target, if_pos classes, passed]

end TypePool

end MethodSynthesis
