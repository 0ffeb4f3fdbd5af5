import MethodSynthesis.Proofs.Receivers
import MethodSynthesis.Proofs.Storage

/-!
# Receivers of synthesized methods

The first formal of a synthesized method or accessor is its receiver. A class is received as a borrow of
its undecorated form or of the generic form of that, any other type as it is or in its generic form
(`TypePool.Receives`). Every draft is of that kind (`TypePool.Sound.isFor_draftMethod`,
`TypePool.Sound.isFor_draftAccessor`).

Whether a variable of the type passes to such a formal follows from the decorator of the type alone
(`TypePool.Sound.canPass_receiver`): a borrow is never nil, and a reference to a borrow leaves no room
for a managed class to be seen as borrowed. Nothing is ever promoted.
-/

set_option autoImplicit false

namespace MethodSynthesis

variable {pool : TypePool} {ty basic form : TypeId} {data : TypeData} {c : Composite}

namespace TypePool

/-- How a method of a type receives it, where classes are received under the given binding. -/
inductive Receives (pool : TypePool) (ty : TypeId) (borrowing : Binding) : Binding → DraftType → Prop
  /-- A type that is no class is received as it is. -/
  | itself {data : TypeData} {binding : Binding} :
      pool.read? ty = some data → data.kind.isClass = false → binding.isTypeOrParam = false →
        Receives pool ty borrowing binding (.given ty)
  /-- An instantiation that is no class may be received in its generic form. -/
  | generic {c : Composite} {binding : Binding} {root : TypeId} :
      pool.read? ty = some (.composite c) → c.kind ≠ .classType → c.instantiatedFrom = some root →
        binding.isTypeOrParam = false → Receives pool ty borrowing binding (.given root)
  /-- A class, with a decorator or without, is borrowed, as it is or in its generic form. -/
  | borrowed {c : Composite} {basic form : TypeId} :
      (ty = basic ∨ ∃ decorator, pool.read? ty = some (.decorated basic decorator)) →
        pool.read? basic = some (.composite c) → c.kind = .classType →
          (form = basic ∨ c.instantiatedFrom = some form) →
            Receives pool ty borrowing borrowing (.borrowed form)

/-- The type is admitted as a borrow: if it is a decorated class then it is never nil, and if it is
borrowed by reference then it is borrowed already. -/
def MayBorrow (pool : TypePool) (ty : TypeId) (borrowing : Binding) : Prop :=
  ∀ basic decorator, pool.read? ty = some (.decorated basic decorator) →
    decorator.nilable = false ∧ (borrowing.isRef = true → decorator.management = .borrowed)

end TypePool

/-- A draft for a type: its receiver receives the type, and no other formal borrows another class. -/
def Draft.IsFor (pool : TypePool) (ty : TypeId) (borrowing : Binding) (draft : Draft) : Prop :=
  ∃ binding type rest, draft.formals = .plain .receiver binding type :: rest ∧
    pool.Receives ty borrowing binding type ∧
      ∀ formal ∈ rest, formal.type = type ∨ ∃ given, formal.type = .given given

/-! ## Drafts -/

namespace TypePool

/-- A type and its undecorated form are the same, or the type is the decorated form of it. -/
theorem eq_or_decorated (h : pool.undecorated ty = .ok basic) :
    ty = basic ∨ ∃ decorator, pool.read? ty = some (.decorated basic decorator) := by
  obtain ⟨data, stored, rfl⟩ := undecorated_eq_ok_iff.1 h
  cases data with
  | decorated basic decorator => exact .inr ⟨decorator, stored⟩
  | composite c => by_cases kind : c.kind = .classType <;> simp [TypeData.basicClass?, kind]
  | _ => exact .inl rfl

theorem isClass_eq_ok (h : pool.read? ty = some data) :
    pool.isClass ty = .ok data.kind.isClass := by
  rw [isClass, kind, read_eq_ok_iff.2 h]
  rfl

/-- The generic form of a composite is the composite or what it instantiates. -/
theorem eq_or_instantiatedFrom (stored : pool.read? ty = some (.composite c))
    (h : pool.genericRoot ty = .ok form) : form = ty ∨ c.instantiatedFrom = some form := by
  rw [genericRoot_eq_ok stored, Except.ok.injEq] at h
  cases from? : c.instantiatedFrom with
  | none => exact .inl (by simpa [from?] using h.symm)
  | some root => exact .inr (by simpa [from?] using h)

theorem isClass_composite : (TypeData.composite c).kind.isClass = decide (c.kind = .classType) := by
  obtain ⟨kind, _, _, _, _, _⟩ := c
  cases kind <;> rfl

/-- A record or union is received as it is or in its generic form. -/
theorem receives_value {borrowing binding : Binding} (stored : pool.read? ty = some (.composite c))
    (kind : c.kind ≠ .classType) (form? : form = ty ∨ c.instantiatedFrom = some form)
    (plain : binding.isTypeOrParam = false) : pool.Receives ty borrowing binding (.given form) := by
  rcases form? with rfl | from?
  · exact .itself stored (by simp [isClass_composite, kind]) plain
  · exact .generic stored kind from? plain

theorem compositeParts_eq_ok {method : CompositeMethod}
    (h : (pool.compositeParts method ty).run = .ok (.ok (basic, c))) :
    pool.undecorated ty = .ok basic ∧ pool.read? basic = some (.composite c) := by
  obtain ⟨basic', hbasic, h⟩ := draft_bind_eq_ok.1 h
  obtain ⟨found, hfound, h⟩ := draft_bind_eq_ok.1 h
  cases found with
  | none => exact absurd h not_throw_eq_ok
  | some c' =>
    obtain ⟨rfl, rfl⟩ := Prod.mk.inj (Except.ok.inj (Except.ok.inj h))
    exact ⟨draft_lift_eq_ok.1 hbasic, composite?_eq_ok_some_iff.1 (draft_lift_eq_ok.1 hfound)⟩

namespace Sound

variable (sound : pool.Sound)

include sound

/-- The generic form of a composite is a composite of the same kind that instantiates nothing. -/
theorem read?_root {root : TypeId} (stored : pool.read? ty = some (.composite c))
    (from? : c.instantiatedFrom = some root) :
    pool.read? root = some (.composite c.uninstantiated) :=
  (sound.coherent stored).2 root from?

/-- What is no class has no decorator. -/
theorem eq_of_undecorated (hbasic : pool.undecorated ty = .ok basic)
    (stored : pool.read? basic = some (.composite c)) (kind : c.kind ≠ .classType) : ty = basic := by
  rcases eq_or_decorated hbasic with same | ⟨decorator, decorated⟩
  · exact same
  · obtain ⟨c', stored', isClass⟩ := sound.coherent decorated
    obtain rfl := TypeData.composite.inj (Option.some.inj (stored.symm.trans stored'))
    exact absurd isClass kind

theorem exists_form (stored : pool.read? basic = some (.composite c))
    (form? : form = basic ∨ c.instantiatedFrom = some form) :
    ∃ c', pool.read? form = some (.composite c') ∧ c'.kind = c.kind := by
  rcases form? with rfl | from?
  · exact ⟨c, stored, rfl⟩
  · exact ⟨_, sound.read?_root stored from?, rfl⟩

/-- A lifecycle method receives the type that it is asked for. -/
theorem receives_lifecycleReceiver {receiver : Binding × DraftType}
    (hbasic : pool.undecorated ty = .ok basic) (stored : pool.read? basic = some (.composite c))
    (form? : form = basic ∨ c.instantiatedFrom = some form)
    (h : pool.lifecycleReceiver form = .ok receiver) :
    pool.Receives ty .constIn receiver.1 receiver.2 := by
  obtain ⟨c', stored', kind'⟩ := sound.exists_form stored form?
  obtain ⟨isClass, hclass, h⟩ := bind_eq_ok.1 h
  rw [isClass_eq_ok stored', isClass_composite, kind', Except.ok.injEq] at hclass
  by_cases kind : c.kind = .classType
  · obtain rfl : true = isClass := by simpa [kind] using hclass
    obtain ⟨basic', hbasic', h⟩ := bind_eq_ok.1 h
    obtain rfl := Except.ok.inj h
    rw [undecorated_eq_ok stored'] at hbasic'
    obtain rfl : form = basic' := by simpa [TypeData.basicClass?, kind', kind] using hbasic'
    exact .borrowed (eq_or_decorated hbasic) stored kind form?
  · obtain rfl : false = isClass := by simpa [kind] using hclass
    obtain rfl := Except.ok.inj h
    obtain rfl := sound.eq_of_undecorated hbasic stored kind
    exact receives_value stored kind form? rfl

theorem isFor_draftInit (host : Host) {draft : Draft}
    (h : (host.draftInit pool ty).run = .ok (.ok draft)) : draft.IsFor pool ty .constIn := by
  obtain ⟨⟨basic, comp⟩, hparts, h⟩ := draft_bind_eq_ok.1 h
  obtain ⟨hbasic, stored⟩ := compositeParts_eq_ok hparts
  obtain ⟨generic, hgeneric, h⟩ := draft_bind_eq_ok.1 h
  obtain ⟨fields, -, h⟩ := draft_bind_eq_ok.1 h
  dsimp only at h
  split at h
  · exact absurd h not_throw_eq_ok
  split at h
  · exact absurd h not_throw_eq_ok
  obtain ⟨⟨binding, receiver⟩, hreceiver, h⟩ := draft_bind_eq_ok.1 h
  obtain ⟨formals, hformals, h⟩ := draft_bind_eq_ok.1 h
  obtain rfl := Except.ok.inj (Except.ok.inj h)
  have form? := eq_or_instantiatedFrom stored (draft_lift_eq_ok.1 hgeneric)
  refine ⟨_, _, formals, rfl, ?_, ?_⟩
  · exact sound.receives_lifecycleReceiver hbasic stored form? (draft_lift_eq_ok.1 hreceiver)
  · intro formal mem
    obtain ⟨field, -, type⟩ := given_of_mem_initFormals (draft_lift_eq_ok.1 hformals) mem
    exact .inr ⟨_, type⟩

theorem isFor_draftInitCopy (host : Host) {draft : Draft}
    (h : (host.draftInitCopy pool ty).run = .ok (.ok draft)) : draft.IsFor pool ty .constIn := by
  obtain ⟨⟨basic, comp⟩, hparts, h⟩ := draft_bind_eq_ok.1 h
  obtain ⟨hbasic, stored⟩ := compositeParts_eq_ok hparts
  obtain ⟨⟨binding, receiver⟩, hreceiver, h⟩ := draft_bind_eq_ok.1 h
  obtain rfl := Except.ok.inj (Except.ok.inj h)
  refine ⟨_, _, _, rfl, ?_, ?_⟩
  · exact sound.receives_lifecycleReceiver hbasic stored (.inl rfl) (draft_lift_eq_ok.1 hreceiver)
  · intro formal mem
    obtain rfl := List.mem_singleton.1 mem
    exact .inl rfl

theorem isFor_draftDeinit (host : Host) {draft : Draft}
    (h : (host.draftDeinit pool ty).run = .ok (.ok draft)) : draft.IsFor pool ty .constIn := by
  obtain ⟨⟨basic, comp⟩, hparts, h⟩ := draft_bind_eq_ok.1 h
  obtain ⟨hbasic, stored⟩ := compositeParts_eq_ok hparts
  obtain ⟨⟨binding, receiver⟩, hreceiver, h⟩ := draft_bind_eq_ok.1 h
  obtain rfl := Except.ok.inj (Except.ok.inj h)
  refine ⟨_, _, _, rfl, ?_, fun _ mem => nomatch mem⟩
  exact sound.receives_lifecycleReceiver hbasic stored (.inl rfl) (draft_lift_eq_ok.1 hreceiver)

omit sound in
theorem isFor_draftRecordOperator (host : Host) {name : Name} {draft : Draft}
    (stored : pool.read? ty = some (.composite c)) (kind : c.kind ≠ .classType)
    (h : (host.draftRecordOperator pool ty name).run = .ok (.ok draft)) :
    draft.IsFor pool ty .constIn := by
  obtain ⟨⟨_, comp⟩, -, h⟩ := draft_bind_eq_ok.1 h
  obtain ⟨generic, hgeneric, h⟩ := draft_bind_eq_ok.1 h
  obtain ⟨genericity, -, h⟩ := draft_bind_eq_ok.1 h
  obtain rfl := Except.ok.inj (Except.ok.inj h)
  have form? := eq_or_instantiatedFrom stored (draft_lift_eq_ok.1 hgeneric)
  refine ⟨_, _, _, rfl, receives_value stored kind form? ?_, fun formal mem => .inr ?_⟩
  · split <;> rfl
  · rcases List.mem_pair.1 mem with rfl | rfl <;> exact ⟨_, rfl⟩

omit sound in
/-- A query of a builtin type receives the type itself. -/
theorem isFor_query {name : Name} {kind : DeclKind} (stored : pool.read? ty = some data)
    (noClass : data.kind.isClass = false) : (Draft.query ty name kind).IsFor pool ty .constIn :=
  ⟨_, _, _, rfl, .itself stored noClass rfl, fun _ mem => nomatch mem⟩

/-- Every draft of a method receives the type that it is asked for. -/
theorem isFor_draftMethod (host : Host) {name : Name} {draft : Draft}
    (h : (host.draftMethod pool ty name).run = .ok (.ok draft)) : draft.IsFor pool ty .constIn := by
  unfold Host.draftMethod at h
  split at h
  · exact sound.isFor_draftInit host h
  split at h
  · exact sound.isFor_draftInitCopy host h
  split at h
  · exact sound.isFor_draftDeinit host h
  obtain ⟨kind, hkind, h⟩ := draft_bind_eq_ok.1 h
  obtain ⟨data, hdata, eq⟩ := bind_eq_ok.1 (draft_lift_eq_ok.1 hkind)
  have stored := read_eq_ok_iff.1 hdata
  have same : data.kind = kind := Except.ok.inj eq
  cases kind with
  | tuple | domain | array | cPtr =>
    obtain rfl := Except.ok.inj (Except.ok.inj h)
    exact isFor_query stored (by rw [same]; rfl)
  | record =>
    dsimp only at h
    split at h
    · have noClass : data.kind.isClass = false := by
        rw [same]
        rfl
      cases data with
      | composite c =>
        rw [isClass_composite] at noClass
        exact isFor_draftRecordOperator host stored (of_decide_eq_false noClass) h
      | _ => exact nomatch same
    · exact absurd h not_throw_eq_ok
  | _ => exact absurd h not_throw_eq_ok

/-- Every draft of an accessor receives the type that it is asked for, a class by reference. -/
theorem isFor_draftAccessor (host : Host) {field : Name} {draft : Draft}
    (h : host.draftAccessor pool ty field = .ok (some draft)) :
    draft.IsFor pool ty .refMaybeConst := by
  obtain ⟨basic, hbasic, h⟩ := bind_eq_ok.1 h
  obtain ⟨comp, hcomp, h⟩ := bind_eq_ok.1 h
  cases comp with
  | none => exact nomatch h
  | some comp =>
    have stored := composite?_eq_ok_some_iff.1 hcomp
    obtain ⟨id, -, h⟩ := bind_eq_ok.1 h
    cases id with
    | none => exact nomatch h
    | some id =>
      obtain rfl := Option.some.inj (Except.ok.inj h)
      refine ⟨_, _, _, rfl, ?_, fun _ mem => nomatch mem⟩
      by_cases kind : comp.kind = .classType
      · rw [if_pos kind]
        exact .borrowed (eq_or_decorated hbasic) stored kind (.inl rfl)
      · rw [if_neg kind]
        obtain rfl := sound.eq_of_undecorated hbasic stored kind
        exact receives_value stored kind (.inl rfl) rfl

theorem ne_primitive (stored : pool.read? ty = some data) (other : ∀ p, data ≠ .primitive p)
    (p : Primitive) : ty ≠ .primitive p := by
  rintro rfl
  exact other p (Option.some.inj (stored.symm.trans (sound.wellFormed.primitives p)))

end Sound

/-! ## Passing to the receiver -/

theorem isUnknown_of_read? (stored : pool.read? ty = some data) : ty.isUnknown = false := by
  cases ty with
  | unknown => exact nomatch stored
  | known handle => rfl

/-- Two names are told apart without a look into the pool only where the formal is a primitive type. -/
theorem passNames?_eq_none {actual formal : TypeId} (ne : actual ≠ formal)
    (other : ∀ p, formal ≠ .primitive p) : passNames? actual formal = none := by
  have any : formal ≠ .any := other .any
  have integral : formal ≠ .integral := other .integral
  have real : formal ≠ .real := other .real
  simp [passNames?, ne, any, integral, real]

/-- A variable that does not pass by its type passes in no other way, unless it is an array. -/
theorem canPass_eq_ok {binding : Binding} {result : Passing}
    (stored : pool.read? ty = some data) (known : form.isUnknown = false)
    (plain : binding.isTypeOrParam = false) (h : pool.passTypes ty form = .ok result)
    (direct : (result.underBinding binding).passes = true ∨ ∀ domain e, data ≠ .array domain e) :
    pool.canPass (.var ty) ⟨binding, form⟩ = .ok
      (if (result.underBinding binding).passes then result.underBinding binding else .fail) := by
  have known' := isUnknown_of_read? stored
  obtain ⟨noType, noParam⟩ : binding.isType = false ∧ binding.isParam = false := by
    simpa [Binding.isTypeOrParam] using plain
  have noType' : (Qualified.var ty).isType = false := rfl
  have promoted : (result.underBinding binding).passes = false →
      pool.passPromoted (.var ty) ⟨binding, form⟩ = .ok .fail := by
    intro fails
    have noArray := direct.resolve_left (by simp [fails])
    rw [passPromoted, Qualified.var, read_eq_ok_iff.2 stored, ok_bind]
    split
    · exact absurd rfl (noArray _ _)
    · rfl
  rw [canPass, noType']
  cases passes : (result.underBinding binding).passes with
  | true => simp [Qualified.var, Qualified.isType, known', known, noType, noParam, h, passes]
  | false =>
    rw [promoted passes]
    simp [Qualified.var, Qualified.isType, known', known, noType, noParam, h, passes]

theorem WellFormed.canPass_self (wf : pool.WellFormed) {binding : Binding}
    (stored : pool.read? ty = some data) (plain : binding.isTypeOrParam = false) :
    pool.canPass (.var ty) ⟨binding, ty⟩ = .ok .exact := by
  have known := isUnknown_of_read? stored
  have passed : pool.passTypes ty ty = .ok .exact := by
    rw [wf.passTypes_eq stored, passNames?, if_pos rfl]
  have fits : (Passing.exact.underBinding binding) = .exact := by
    simp [Passing.underBinding, Passing.exact, Passing.converts]
  rw [canPass_eq_ok stored known plain passed (.inl (by rw [fits]; rfl)), fits]
  rfl

/-- An instantiation that is no class passes to its generic form. -/
theorem Sound.canPass_generic (sound : pool.Sound) {binding : Binding} {root : TypeId}
    (stored : pool.read? ty = some (.composite c)) (kind : c.kind ≠ .classType)
    (from? : c.instantiatedFrom = some root) (plain : binding.isTypeOrParam = false) :
    pool.canPass (.var ty) ⟨binding, root⟩ = .ok .instantiating := by
  have target := sound.read?_root stored from?
  have known := isUnknown_of_read? target
  -- the generic form instantiates nothing, so it is another type
  have ne : ty ≠ root := by
    rintro rfl
    have same := TypeData.composite.inj (Option.some.inj (stored.symm.trans target))
    rw [same] at from?
    exact nomatch from?
  have passed := sound.wellFormed.passTypes_eq stored root
  rw [passNames?_eq_none ne (sound.ne_primitive target fun _ => (nomatch ·))] at passed
  dsimp only at passed
  rw [passStructures, read_eq_ok_iff.2 target, ok_bind, isClass_composite,
    decide_eq_false kind, genericRoot_eq_ok stored, from?] at passed
  have instantiates : pool.passTypes ty root = .ok .instantiating := by
    rw [passed]
    simp [Composite.uninstantiated]
  have fits : (Passing.instantiating.underBinding binding) = .instantiating := by
    simp [Passing.underBinding, Passing.instantiating, Passing.converts]
  rw [canPass_eq_ok stored known plain instantiates (.inl (by rw [fits]; rfl)), fits]
  rfl

/-- The class that a borrowing method sees behind a type, under the decorator that the type has. An
undecorated class counts as borrowed and never nil. -/
def IsHeldAs (pool : TypePool) (ty basic : TypeId) (decorator : Decorator) : Prop :=
  ty = basic ∧ decorator = .borrowedNonNil ∨ pool.read? ty = some (.decorated basic decorator)

/-- The class as it is passed. -/
theorem IsHeldAs.exists_classForm? {decorator : Decorator} (held : pool.IsHeldAs ty basic decorator)
    (stored : pool.read? basic = some (.composite c)) :
    ∃ seen, pool.classForm? ty = .ok (some ⟨basic, seen⟩) ∧
      seen.getD .borrowedNonNil = decorator := by
  rcases held with ⟨rfl, rfl⟩ | decorated
  · exact ⟨none, by rw [classForm?, read_eq_ok_iff.2 stored]; rfl, rfl⟩
  · exact ⟨some decorator, by rw [classForm?, read_eq_ok_iff.2 decorated]; rfl, rfl⟩

theorem IsHeldAs.exists_data {decorator : Decorator} (held : pool.IsHeldAs ty basic decorator)
    (stored : pool.read? basic = some (.composite c)) (isClass : c.kind = .classType) :
    ∃ data, pool.read? ty = some data ∧ data.kind.isClass = true ∧
      ∀ domain e, data ≠ .array domain e := by
  rcases held with ⟨rfl, -⟩ | decorated
  · exact ⟨_, stored, by simp [isClass_composite, isClass], fun _ _ => (nomatch ·)⟩
  · exact ⟨_, decorated, rfl, fun _ _ => (nomatch ·)⟩

theorem changeTo?_borrowedNonNil (decorator : Decorator) :
    decorator.changeTo? (some .borrowedNonNil) = if decorator.nilable then none
      else some ⟨!decide (decorator.management = .borrowed), false⟩ := by
  obtain ⟨management, nilable⟩ := decorator
  cases nilable <;> cases management <;> rfl

theorem conversion_borrow (management : Management) :
    DecoratorChange.conversion ⟨!decide (management = .borrowed), false⟩ false =
      if management = .borrowed then .none else .borrows := by
  cases management <;> rfl

/-- What it takes to pass a class to a borrow of it, or of its generic form. -/
theorem passClasses_borrow {decorator : Decorator} {borrow : TypeId}
    (held : pool.IsHeldAs ty basic decorator) (stored : pool.read? basic = some (.composite c))
    (form? : form = basic ∨ c.instantiatedFrom = some form)
    (target : pool.read? borrow = some (.decorated form .borrowedNonNil)) :
    ∃ instantiates, pool.passClasses ty borrow = .ok (if decorator.nilable then .fail else
      ⟨true, if decorator.management = .borrowed then .none else .borrows, instantiates, false⟩) := by
  -- an undecorated class is seen as borrowed and never nil
  obtain ⟨seen, source, rfl⟩ := held.exists_classForm? stored
  have formal : pool.classForm? borrow = .ok (some ⟨form, some .borrowedNonNil⟩) := by
    rw [classForm?, read_eq_ok_iff.2 target]
    rfl
  simp only [passClasses, source, formal, ok_bind, changeTo?_borrowedNonNil]
  by_cases nilable : (seen.getD .borrowedNonNil).nilable = true
  · exact ⟨false, by simp [nilable]⟩
  · by_cases same : basic = form
    · exact ⟨false, by simp [nilable, same, conversion_borrow]⟩
    · have from? := form?.resolve_left (Ne.symm same)
      have root : pool.genericRoot basic = .ok form := by
        rw [genericRoot_eq_ok stored, from?]
        rfl
      exact ⟨true, by simp [nilable, same, root, conversion_borrow]⟩

/-- A class passes to a borrow of it unless it may be nil, or the borrow is by reference and the class
is held in another way. -/
theorem Sound.canPass_borrow (sound : pool.Sound) {decorator : Decorator} {borrow : TypeId}
    {binding : Binding} (held : pool.IsHeldAs ty basic decorator)
    (stored : pool.read? basic = some (.composite c)) (isClass : c.kind = .classType)
    (form? : form = basic ∨ c.instantiatedFrom = some form)
    (target : pool.read? borrow = some (.decorated form .borrowedNonNil))
    (plain : binding.isTypeOrParam = false) :
    ∃ p, pool.canPass (.var ty) ⟨binding, borrow⟩ = .ok p ∧ p.promotes = false ∧
      (p.passes = true ↔ decorator.nilable = false ∧
        (binding.isRef = true → decorator.management = .borrowed)) := by
  obtain ⟨data, hdata, class?, noArray⟩ := held.exists_data stored isClass
  have known := isUnknown_of_read? target
  by_cases same : ty = borrow
  · -- The type is the borrow itself.
    subst same
    have decorated : decorator = .borrowedNonNil := by
      rcases held with ⟨rfl, rfl⟩ | decorated
      · rfl
      · exact (TypeData.decorated.inj (Option.some.inj (decorated.symm.trans target))).2
    rw [sound.wellFormed.canPass_self target plain]
    exact ⟨.exact, rfl, rfl, by simp [decorated, Passing.exact, Decorator.borrowedNonNil]⟩
  · obtain ⟨instantiates, outcome⟩ := passClasses_borrow held stored form? target
    have passed := sound.wellFormed.passTypes_eq hdata borrow
    rw [passNames?_eq_none same (sound.ne_primitive target fun _ => (nomatch ·))] at passed
    dsimp only at passed
    rw [passStructures, read_eq_ok_iff.2 target, ok_bind, class?] at passed
    have structures : pool.passTypes ty borrow = pool.passClasses ty borrow := passed
    rw [outcome] at structures
    rw [canPass_eq_ok hdata known plain structures (.inr noArray)]
    refine ⟨_, rfl, ?_⟩
    obtain ⟨management, nilable⟩ := decorator
    cases nilable <;> cases isRef : binding.isRef <;> by_cases borrowed : management = .borrowed <;>
      simp [Passing.underBinding, Passing.fail, Passing.converts, isRef, borrowed]

/-- A variable passes to a receiver of its type unless the receiver is a borrow that the type may not
be seen as. It is never promoted. -/
theorem Sound.canPass_receiver (sound : pool.Sound) {borrowing binding : Binding} {type : DraftType}
    {received : TypeId} (receives : pool.Receives ty borrowing binding type)
    (stored : type.IsStoredAs pool received) (plain : borrowing.isTypeOrParam = false) :
    ∃ p, pool.canPass (.var ty) ⟨binding, received⟩ = .ok p ∧ p.promotes = false ∧
      (p.passes = true ↔ pool.MayBorrow ty borrowing) := by
  cases receives with
  | itself held noClass plain =>
    obtain rfl : received = ty := stored
    rw [sound.wellFormed.canPass_self held plain]
    refine ⟨.exact, rfl, rfl, iff_of_true rfl ?_⟩
    intro basic decorator decorated
    obtain rfl := Option.some.inj (held.symm.trans decorated)
    exact nomatch noClass
  | generic held kind from? plain =>
    obtain rfl : received = _ := stored
    rw [sound.canPass_generic held kind from? plain]
    -- the type has no decorator, so nothing is asked of it
    refine ⟨.instantiating, rfl, rfl, iff_of_true rfl ?_⟩
    intro basic decorator decorated
    exact nomatch held.symm.trans decorated
  | borrowed held composite kind form? =>
    rcases held with rfl | ⟨decorator, decorated⟩
    · obtain ⟨p, hp, promotes, passes⟩ :=
        sound.canPass_borrow (.inl ⟨rfl, rfl⟩) composite kind form? stored plain
      refine ⟨p, hp, promotes, passes.trans (iff_of_true ⟨rfl, fun _ => rfl⟩ ?_)⟩
      intro basic decorator decorated
      exact nomatch composite.symm.trans decorated
    · obtain ⟨p, hp, promotes, passes⟩ :=
        sound.canPass_borrow (.inr decorated) composite kind form? stored plain
      refine ⟨p, hp, promotes, passes.trans ⟨?_, fun may => may _ _ decorated⟩⟩
      intro fits basic' decorator' decorated'
      obtain ⟨-, rfl⟩ :=
        TypeData.decorated.inj (Option.some.inj (decorated.symm.trans decorated'))
      exact fits

end TypePool

end MethodSynthesis
