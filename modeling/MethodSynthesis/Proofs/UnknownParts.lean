import MethodSynthesis.Proofs.Judgments

/-!
# Judgments that come upon the unknown type

The unknown type may be a part of other types: an element of a tuple or an array, or the parent of a class.
An argument whose own type is unknown does not pass, but the judgment looks at parts as well and does not
ask there. `TypePool.MeetsUnknown` says when the comparison of two types comes upon the unknown type where
it has to read it, and `TypePool.ReadsUnknown` when the judgment of an argument does.

That is all that can go wrong. Reads are at fault at the unknown type only (`FaultsAtUnknown`), and a
judgment has no outcome exactly if it reads the unknown type (`canPass_faults_iff`). The condition follows
the order of the judgment: what comes after an element that does not pass as it is, or after types that do
pass, is not looked at.
-/

set_option autoImplicit false

namespace MethodSynthesis

/-! ## Faults of reads -/

/-- If there is no answer, the structure of the unknown type was read. -/
def FaultsAtUnknown {α : Type} (x : Except Fault α) : Prop :=
  ∀ fault, x = .error fault → fault = .missingType .unknown

namespace FaultsAtUnknown

variable {α β : Type} {x : Except Fault α}

theorem ok (a : α) : FaultsAtUnknown (.ok a) := fun _ h => nomatch h

theorem error : FaultsAtUnknown (.error (.missingType .unknown) : Except Fault α) :=
  fun _ h => (Except.error.inj h).symm

theorem bind {f : α → Except Fault β} (first : FaultsAtUnknown x)
    (next : ∀ a, x = .ok a → FaultsAtUnknown (f a)) : FaultsAtUnknown (x >>= f) := by
  cases x with
  | ok a => exact next a rfl
  | error fault =>
    obtain rfl := first fault rfl
    exact .error

end FaultsAtUnknown

namespace TypePool

variable {pool : TypePool} {source target : TypeId} {data data' : TypeData} {actual formal : Qualified}

theorem faultsAtUnknown_read (admitted : pool.Admits source) : FaultsAtUnknown (pool.read source) := by
  rcases admitted with rfl | ⟨data, stored⟩
  · exact .error
  · rw [read_eq_ok_iff.2 stored]
    exact .ok data

theorem faultsAtUnknown_genericRoot (admitted : pool.Admits source) :
    FaultsAtUnknown (pool.genericRoot source) :=
  (faultsAtUnknown_read admitted).bind fun _ _ => .ok _

theorem faultsAtUnknown_classForm? (admitted : pool.Admits source) :
    FaultsAtUnknown (pool.classForm? source) :=
  (faultsAtUnknown_read admitted).bind fun _ _ => .ok _

namespace WellFormed

variable (wf : pool.WellFormed)

include wf

theorem faultsAtUnknown_hasAncestorWithin (base : TypeId) (steps : Nat) (admitted : pool.Admits source) :
    FaultsAtUnknown (pool.hasAncestorWithin base steps source) := by
  induction steps generalizing source with
  | zero => exact .ok false
  | succ steps ih =>
    rw [TypePool.hasAncestorWithin]
    apply ((faultsAtUnknown_read admitted).bind fun _ _ => .ok _).bind
    intro c? hc
    split
    · exact .ok false
    rename_i parent hparent
    obtain ⟨c, rfl, inherits⟩ := Option.bind_eq_some_iff.1 hparent
    -- the parent is a part of the class, and may be unknown like any part
    have above : pool.Admits parent :=
      wf.admits_part (composite?_eq_ok_some_iff.1 hc) (by simp [TypeData.components, inherits])
    split
    · exact .ok true
    apply (faultsAtUnknown_genericRoot above).bind
    intro root _
    split
    · exact .ok true
    split
    · exact .ok false
    · exact ih above

theorem admits_classForm? {held : ClassForm} (h : pool.classForm? source = .ok (some held)) :
    pool.Admits held.basic := by
  rcases classForm?_eq_ok_some_iff.1 h with ⟨rfl, -, c, stored⟩ | ⟨decorator, -, decorated⟩
  · exact admits_of_read? stored
  · exact wf.admits_part decorated (by simp [TypeData.components])

theorem faultsAtUnknown_passClasses (ha : pool.Admits source) (hf : pool.Admits target) :
    FaultsAtUnknown (pool.passClasses source target) := by
  apply (faultsAtUnknown_classForm? ha).bind
  intro held? hheld
  cases held? with
  | none => exact .ok _
  | some held =>
    have behind := wf.admits_classForm? hheld
    apply (faultsAtUnknown_classForm? hf).bind
    intro received? _
    cases received? with
    | none => exact .ok _
    | some received =>
      dsimp only
      split
      case h_2 => exact .ok _
      split
      · exact .ok _
      apply (faultsAtUnknown_genericRoot behind).bind
      intro root _
      split
      · exact .ok _
      apply (wf.faultsAtUnknown_hasAncestorWithin _ _ behind).bind
      intro found _
      split
      · exact .ok _
      · exact .ok _

end WellFormed

theorem faultsAtUnknown_passElements {pass : TypeId → TypeId → Except Fault Passing}
    {elements elements' : List TypeId}
    (h : ∀ e ∈ elements, ∀ f ∈ elements', FaultsAtUnknown (pass e f)) :
    FaultsAtUnknown (passElements pass elements elements') := by
  induction elements generalizing elements' with
  | nil => exact .ok _
  | cons e elements ih =>
    cases elements' with
    | nil => exact .ok _
    | cons f elements' =>
      apply (h e List.mem_cons_self f List.mem_cons_self).bind
      intro first _
      split
      · exact .ok _
      refine FaultsAtUnknown.bind (ih fun e' he' f' hf' => ?_) fun rest _ => .ok _
      exact h e' (List.mem_cons_of_mem e he') f' (List.mem_cons_of_mem f hf')

namespace WellFormed

variable (wf : pool.WellFormed)

include wf

theorem faultsAtUnknown_passTypes (ha : pool.Admits source) (hf : pool.Admits target) :
    FaultsAtUnknown (pool.passTypes source target) := by
  -- on the structure of the first type, against any second one
  refine wf.induction (motive := fun source => ∀ target, pool.Admits target →
    FaultsAtUnknown (pool.passTypes source target)) ?_ ?_ ha target hf
  · intro target _
    rw [passTypes_unknown]
    split
    · exact .ok _
    split
    · exact .ok _
    · exact .error
  intro source data stored ih target hf
  rcases hf with rfl | ⟨data', stored'⟩
  · rw [wf.passTypes_to_unknown stored]
    exact .error
  cases wf.comparison stored stored' with
  | same _ passed =>
    rw [passed]
    exact .ok _
  | classes _ _ _ passed =>
    rw [passed]
    exact wf.faultsAtUnknown_passClasses (admits_of_read? stored) (admits_of_read? stored')
  | tuples _ eq eq' _ passed =>
    subst eq eq'
    rw [passed]
    apply faultsAtUnknown_passElements
    intro e he f hf
    exact ih e he f (wf.admits_part stored' hf)
  | settled _ _ _ _ passed =>
    rw [passed]
    exact .ok _

theorem faultsAtUnknown_passPromoted (ha : pool.Admits actual.type) (hf : pool.Admits formal.type) :
    FaultsAtUnknown (pool.passPromoted actual formal) := by
  apply (faultsAtUnknown_read ha).bind
  intro data hdata
  split
  case h_2 => exact .ok _
  rename_i domain element
  have part : pool.Admits element :=
    wf.admits_part (read_eq_ok_iff.1 hdata) (by simp [TypeData.components])
  apply (faultsAtUnknown_read hf).bind
  intro form _
  split
  · exact .ok _
  · exact (wf.faultsAtUnknown_passTypes part hf).bind fun _ _ => .ok _

/-- The judgment of an argument is at fault only where it reads the unknown type. -/
theorem faultsAtUnknown_canPass (ha : pool.Admits actual.type) (hf : pool.Admits formal.type) :
    FaultsAtUnknown (pool.canPass actual formal) := by
  by_cases comparable : Comparable actual formal
  case neg =>
    rw [canPass_of_not_comparable comparable]
    exact .ok _
  rw [canPass_of_comparable comparable]
  apply (wf.faultsAtUnknown_passTypes ha hf).bind
  intro p _
  split
  · exact .ok _
  · exact wf.faultsAtUnknown_passPromoted ha hf

end WellFormed

/-! ## Comparing types -/

/-- The elements of tuples are compared further after two that pass as they are. -/
def PassesUnconverted (pool : TypePool) (source target : TypeId) : Prop :=
  ∃ p, pool.passTypes source target = .ok p ∧ p.passes = true ∧ p.converts = false

/-- The comparison of two types comes upon the unknown type. -/
inductive MeetsUnknown (pool : TypePool) : TypeId → TypeId → Prop
  /-- Unless they are one or the second takes any type, the first is read. -/
  | source {target : TypeId} : target ≠ .unknown → target ≠ .any → MeetsUnknown pool .unknown target
  /-- Unless they are one, the second is read. -/
  | target {source : TypeId} : source ≠ .unknown → MeetsUnknown pool source .unknown
  /-- The search through the ancestors of a class ends at a parent that is unknown. -/
  | ancestor {source target : TypeId} : pool.Undetermined source (.var target) →
      MeetsUnknown pool source target
  /-- The comparison of two elements of tuples does, and all that come before them pass as they are. -/
  | element {source target : TypeId} {elements elements' : List TypeId} {pair : TypeId × TypeId}
      {before after : List (TypeId × TypeId)} : source ≠ target →
        pool.read? source = some (.tuple elements) → pool.read? target = some (.tuple elements') →
          elements.length = elements'.length → elements.zip elements' = before ++ pair :: after →
            MeetsUnknown pool pair.1 pair.2 → (∀ earlier ∈ before,
              pool.PassesUnconverted earlier.1 earlier.2) → MeetsUnknown pool source target

/-- The comparison of two lists of elements has an outcome, unless that of two of them has none and all
before them pass as they are. -/
theorem exists_passElements_iff {pass : TypeId → TypeId → Except Fault Passing}
    {elements elements' : List TypeId} (length : elements.length = elements'.length) :
    (∃ p, passElements pass elements elements' = .ok p) ↔
      ¬ ∃ before pair after, elements.zip elements' = before ++ pair :: after ∧
        (¬ ∃ p, pass pair.1 pair.2 = .ok p) ∧ ∀ earlier ∈ before,
          ∃ p, pass earlier.1 earlier.2 = .ok p ∧ p.passes = true ∧ p.converts = false := by
  induction elements generalizing elements' with
  | nil => simp [passElements]
  | cons e elements ih =>
    cases elements' with
    | nil => simp at length
    | cons f elements' =>
      rw [List.zip_cons_cons, exists_split_cons_iff, not_or, not_and, not_not,
        ← @ih elements' (Nat.succ.inj length), passElements]
      cases pass e f with
      | error fault => simp
      | ok first =>
        rw [ok_bind]
        by_cases asItIs : first.passes = true ∧ first.converts = false
        · rw [if_neg (by simp [asItIs])]
          simp [exists_bind_ok_iff, asItIs]
        · rw [if_pos (by simpa [imp_iff_not_or] using asItIs)]
          simp [asItIs]

theorem Undetermined.classes (h : pool.Undetermined source (.var target)) : source ≠ target ∧
    (∃ basic seen, pool.IsClassForm source basic seen) ∧
      ∃ form received, pool.IsClassForm target form received := by
  cases h with
  | intent default => exact nomatch default
  | ancestry _ ne hsource htarget => exact ⟨ne, ⟨_, _, hsource⟩, _, _, htarget⟩

theorem Undetermined.isClass (h : pool.Undetermined source (.var target))
    (stored : pool.read? source = some data) (stored' : pool.read? target = some data') :
    data.kind.isClass = true ∧ data'.kind.isClass = true := by
  obtain ⟨-, ⟨_, _, hsource⟩, _, _, htarget⟩ := h.classes
  exact ⟨hsource.isClass stored, htarget.isClass stored'⟩

theorem not_isClassForm_unknown {basic : TypeId} {seen : Option Decorator} :
    ¬ pool.IsClassForm .unknown basic seen :=
  fun h => nomatch h.form

theorem meetsUnknown_unknown_iff :
    pool.MeetsUnknown .unknown target ↔ target ≠ .unknown ∧ target ≠ .any := by
  constructor
  · intro meets
    cases meets with
    | source known other => exact ⟨known, other⟩
    | target known => exact absurd rfl known
    | ancestor lost =>
      obtain ⟨-, ⟨_, _, hsource⟩, -⟩ := lost.classes
      exact absurd hsource not_isClassForm_unknown
    | element _ stored => exact nomatch stored
  · rintro ⟨known, other⟩
    exact .source known other

/-- The comparison of two classes comes upon the unknown type only in the search through ancestors. -/
theorem meetsUnknown_class_iff (stored : pool.read? source = some data)
    (stored' : pool.read? target = some data') (class? : data.kind.isClass = true) :
    pool.MeetsUnknown source target ↔ pool.Undetermined source (.var target) := by
  constructor
  · intro meets
    cases meets with
    | source => exact nomatch stored
    | target => exact nomatch stored'
    | ancestor lost => exact lost
    | element _ tuple =>
      obtain rfl := Option.some.inj (stored.symm.trans tuple)
      exact nomatch class?
  · exact .ancestor

/-- The comparison of two tuples comes upon the unknown type only in that of their elements. -/
theorem meetsUnknown_tuple_iff (ne : source ≠ target) {elements elements' : List TypeId}
    (stored : pool.read? source = some (.tuple elements))
    (stored' : pool.read? target = some (.tuple elements')) (length : elements.length = elements'.length) :
    pool.MeetsUnknown source target ↔ ∃ before pair after,
      elements.zip elements' = before ++ pair :: after ∧ pool.MeetsUnknown pair.1 pair.2 ∧
        ∀ earlier ∈ before, pool.PassesUnconverted earlier.1 earlier.2 := by
  constructor
  · intro meets
    cases meets with
    | source => exact nomatch stored
    | target => exact nomatch stored'
    | ancestor lost => exact nomatch (lost.isClass stored stored').1
    | element _ tuple tuple' _ split meets earlier =>
      obtain rfl := TypeData.tuple.inj (Option.some.inj (stored.symm.trans tuple))
      obtain rfl := TypeData.tuple.inj (Option.some.inj (stored'.symm.trans tuple'))
      exact ⟨_, _, _, split, meets, earlier⟩
  · rintro ⟨before, pair, after, split, meets, earlier⟩
    exact .element ne stored stored' length split meets earlier

theorem not_meetsUnknown_self (source : TypeId) : ¬ pool.MeetsUnknown source source := by
  intro meets
  cases meets with
  | source known => exact known rfl
  | target known => exact known rfl
  | ancestor lost => exact lost.classes.1 rfl
  | element ne => exact ne rfl

/-- Of stored types, only classes and tuples of one length are looked into. -/
theorem not_meetsUnknown_of_settled (stored : pool.read? source = some data)
    (stored' : pool.read? target = some data')
    (noClasses : ¬ (data.kind.isClass = true ∧ data'.kind.isClass = true))
    (noTuples : ∀ elements elements', data = .tuple elements → data' = .tuple elements' →
      elements.length ≠ elements'.length) : ¬ pool.MeetsUnknown source target := by
  intro meets
  cases meets with
  | source => exact nomatch stored
  | target => exact nomatch stored'
  | ancestor lost => exact noClasses (lost.isClass stored stored')
  | element _ tuple tuple' length =>
    obtain rfl := Option.some.inj (stored.symm.trans tuple)
    obtain rfl := Option.some.inj (stored'.symm.trans tuple')
    exact noTuples _ _ rfl rfl length

/-- The comparison of two types has an outcome unless it comes upon the unknown type. -/
theorem Sound.exists_passTypes_iff_not_meetsUnknown (sound : pool.Sound) (ha : pool.Admits source)
    (hf : pool.Admits target) :
    (∃ p, pool.passTypes source target = .ok p) ↔ ¬ pool.MeetsUnknown source target := by
  have wf := sound.wellFormed
  -- on the structure of the first type, since the elements of a tuple are its parts
  refine wf.induction (motive := fun source => ∀ target, pool.Admits target →
    ((∃ p, pool.passTypes source target = .ok p) ↔ ¬ pool.MeetsUnknown source target)) ?_ ?_ ha target hf
  · intro target _
    rw [meetsUnknown_unknown_iff, passTypes_unknown]
    by_cases same : target = .unknown
    · simp [same]
    rw [if_neg same]
    by_cases any : target = .any
    · simp [any]
    · simp [same, any]
  intro source data stored ih target hf
  rcases hf with rfl | ⟨data', stored'⟩
  · have meets : pool.MeetsUnknown source .unknown := .target (ne_unknown_of_read? stored)
    refine iff_of_false ?_ (not_not.2 meets)
    rintro ⟨p, passed⟩
    exact nomatch (wf.passTypes_to_unknown stored).symm.trans passed
  cases wf.comparison stored stored' with
  | same same passed =>
    subst same
    exact iff_of_true ⟨_, passed⟩ (not_meetsUnknown_self source)
  | classes ne class? class?' passed =>
    obtain ⟨basic, seen, hsource⟩ := sound.exists_isClassForm (isClass_eq_ok_true_iff.2 ⟨_, stored, class?⟩)
    rw [meetsUnknown_class_iff stored stored' class?]
    -- whether a class passes is told as it is told for a receiver
    exact @Sound.exists_passTypes_iff _ _ (.var target) sound _ _ hsource rfl _ stored'
  | @tuples elements elements' ne eq eq' length passed =>
    subst eq eq'
    rw [passed, exists_passElements_iff length, meetsUnknown_tuple_iff ne stored stored' length]
    refine not_congr (exists₃_congr fun before pair after => and_congr_right fun split => ?_)
    -- the pair that is compared last is one of elements
    obtain ⟨he, hf⟩ := List.of_mem_zip (split ▸ List.mem_append_right before List.mem_cons_self)
    rw [ih pair.1 he pair.2 (wf.admits_part stored' hf), not_not]
    rfl
  | settled _ _ noClasses noTuples passed =>
    exact iff_of_true ⟨_, passed⟩ (not_meetsUnknown_of_settled stored stored' noClasses noTuples)

/-! ## Judging arguments -/

/-- The judgment of an argument comes upon the unknown type: where it compares the types, or where these do
not pass and it turns to the elements of an array. -/
inductive ReadsUnknown (pool : TypePool) (actual formal : Qualified) : Prop
  | types : Comparable actual formal → pool.MeetsUnknown actual.type formal.type →
      ReadsUnknown pool actual formal
  | elements {element : TypeId} : Comparable actual formal → ¬ pool.PassesDirectly actual formal →
      pool.Promotable actual formal element → pool.MeetsUnknown element formal.type →
        ReadsUnknown pool actual formal

/-- To turn to the elements of an array has an outcome unless that comes upon the unknown type. -/
theorem Sound.exists_passPromoted_iff (sound : pool.Sound) (value : formal.isType = false)
    (stored : pool.read? actual.type = some data) (stored' : pool.read? formal.type = some data') :
    (∃ outcome, pool.passPromoted actual formal = .ok outcome) ↔
      ¬ ∃ element, pool.Promotable actual formal element ∧ pool.MeetsUnknown element formal.type := by
  by_cases promotable : ∃ element, pool.Promotable actual formal element
  case neg =>
    refine iff_of_true ⟨_, passPromoted_of_not_promotable value stored stored' (not_exists.1 promotable)⟩ ?_
    rintro ⟨element, h, -⟩
    exact promotable ⟨element, h⟩
  obtain ⟨element, promotable⟩ := promotable
  obtain ⟨-, ⟨domain, array⟩, -⟩ := id promotable
  have admitted : pool.Admits element :=
    sound.wellFormed.admits_part array (by simp [TypeData.components])
  rw [passPromoted_of_promotable stored' promotable, exists_bind_ok_iff,
    sound.exists_passTypes_iff_not_meetsUnknown admitted (admits_of_read? stored')]
  refine not_congr ⟨fun meets => ⟨element, promotable, meets⟩, ?_⟩
  rintro ⟨element', promotable', meets⟩
  exact promotable.unique promotable' ▸ meets

/-- The judgment of an argument has an outcome unless it comes upon the unknown type. -/
theorem Sound.exists_canPass_iff_not_readsUnknown (sound : pool.Sound) (ha : pool.Admits actual.type)
    (hf : pool.Admits formal.type) :
    (∃ outcome, pool.canPass actual formal = .ok outcome) ↔ ¬ pool.ReadsUnknown actual formal := by
  by_cases comparable : Comparable actual formal
  case neg =>
    refine iff_of_true ⟨_, canPass_of_not_comparable comparable⟩ ?_
    rintro (⟨comparable', -⟩ | ⟨comparable', -⟩)
    · exact comparable comparable'
    · exact comparable comparable'
  obtain ⟨data, stored⟩ := ha.resolve_left comparable.actual_known
  obtain ⟨data', stored'⟩ := hf.resolve_left comparable.formal_known
  have compared := sound.exists_passTypes_iff_not_meetsUnknown ha hf
  rw [canPass_of_comparable comparable]
  by_cases meets : pool.MeetsUnknown actual.type formal.type
  · refine iff_of_false ?_ (not_not.2 (.types comparable meets))
    rintro ⟨outcome, h⟩
    obtain ⟨p, passed, -⟩ := bind_eq_ok.1 h
    exact compared.1 ⟨p, passed⟩ meets
  obtain ⟨p, passed⟩ := compared.2 meets
  have direct : pool.DirectOutcome actual formal (p.restricted formal.binding) := ⟨p, passed, rfl⟩
  rw [passed, ok_bind]
  -- elements are not asked for where the types pass, and not for a type formal
  by_cases settled : ((p.restricted formal.binding).passes || formal.isType) = true
  · rw [if_pos settled]
    refine iff_of_true ⟨_, rfl⟩ ?_
    rintro (⟨-, meets'⟩ | ⟨-, notDirect, promotable, -⟩)
    · exact meets meets'
    · rcases Bool.or_eq_true_iff.1 settled with passes | type
      · exact notDirect ⟨_, direct, passes⟩
      · exact nomatch type.symm.trans promotable.1
  rw [if_neg settled]
  obtain ⟨fails, value⟩ := Bool.or_eq_false_iff.1 (Bool.eq_false_iff.2 settled)
  rw [sound.exists_passPromoted_iff value stored stored']
  refine not_congr ⟨?_, ?_⟩
  · rintro ⟨element, promotable, meets'⟩
    refine .elements comparable ?_ promotable meets'
    rintro ⟨outcome, direct', passes⟩
    rw [← direct.unique direct', fails] at passes
    exact nomatch passes
  · rintro (⟨-, meets'⟩ | ⟨-, -, promotable, meets'⟩)
    · exact absurd meets' meets
    · exact ⟨_, promotable, meets'⟩

/-- No judgment comes upon the unknown type in a pool of which no part is unknown. -/
theorem Sound.not_readsUnknown (sound : pool.Sound) (known : pool.PartsKnown)
    (ha : pool.Admits actual.type) (hf : pool.Admits formal.type) : ¬ pool.ReadsUnknown actual formal :=
  (sound.exists_canPass_iff_not_readsUnknown ha hf).1 (sound.exists_canPass known ha hf)

/-- The judgment of an argument reads the structure of the unknown type if it comes upon it, and has an
outcome otherwise. It never reads any other type that is not stored, and an argument or formal whose own
type is unknown is judged without a read: it does not pass. -/
theorem canPass_faults_iff (built : pool.Built) (ha : pool.Admits actual.type)
    (hf : pool.Admits formal.type) :
    (pool.canPass actual formal = .error (.missingType .unknown) ↔ pool.ReadsUnknown actual formal) ∧
      ((∃ outcome, pool.canPass actual formal = .ok outcome) ↔ ¬ pool.ReadsUnknown actual formal) ∧
      (actual.type = .unknown ∨ formal.type = .unknown → pool.canPass actual formal = .ok .fail) := by
  have told := built.sound.exists_canPass_iff_not_readsUnknown ha hf
  refine ⟨?_, told, ?_⟩
  · cases judged : pool.canPass actual formal with
    | ok outcome => exact iff_of_false (fun h => nomatch h) (told.1 ⟨outcome, judged⟩)
    | error fault =>
      obtain rfl := built.sound.wellFormed.faultsAtUnknown_canPass ha hf fault judged
      refine iff_of_true rfl ?_
      by_contra known
      obtain ⟨outcome, judged'⟩ := told.2 known
      exact nomatch judged.symm.trans judged'
  · rintro (unknown | unknown)
    · exact canPass_of_not_comparable fun comparable => comparable.actual_known unknown
    · exact canPass_of_not_comparable fun comparable => comparable.formal_known unknown

/-- A tuple of one element of unknown type, and one of an integer. -/
def vagueTuples : TypePool :=
  (((TypePool.empty Sharding.bySize.types).tuple [.unknown]).2.tuple [.int]).2

theorem built_vagueTuples : vagueTuples.Built := by
  have vague : Built ((TypePool.empty Sharding.bySize.types).tuple [.unknown]).2 :=
    @Built.step _ _ (.tuple [.unknown]) _ (.empty _) (by decide) rfl
  exact @Built.step _ _ (.tuple [.int]) _ vague (by decide) rfl

/-- Whether the first tuple passes to the second is not told. -/
theorem vagueTuples_unanswered :
    vagueTuples.Built ∧ vagueTuples.Admits (.known ⟨3, 0⟩) ∧ vagueTuples.Admits (.known ⟨3, 1⟩) ∧
      ¬ ∃ outcome,
        vagueTuples.canPass (.var (.known ⟨3, 0⟩)) ⟨.copyIn, .known ⟨3, 1⟩⟩ = .ok outcome := by
  have judged : vagueTuples.canPass (.var (.known ⟨3, 0⟩)) ⟨.copyIn, .known ⟨3, 1⟩⟩ =
      .error (.missingType .unknown) := rfl
  refine ⟨built_vagueTuples, .inr ⟨_, rfl⟩, .inr ⟨_, rfl⟩, ?_⟩
  rintro ⟨outcome, judged'⟩
  exact nomatch judged.symm.trans judged'

/-- The judgment of the first for the second comes upon the unknown type. That of the first for itself does
not. -/
theorem vagueTuples_readsUnknown :
    vagueTuples.Built ∧ vagueTuples.Admits (.known ⟨3, 0⟩) ∧ vagueTuples.Admits (.known ⟨3, 1⟩) ∧
      vagueTuples.ReadsUnknown (.var (.known ⟨3, 0⟩)) ⟨.copyIn, .known ⟨3, 1⟩⟩ ∧
      ¬ vagueTuples.ReadsUnknown (.var (.known ⟨3, 0⟩)) ⟨.copyIn, .known ⟨3, 0⟩⟩ ∧
      vagueTuples.canPass (.var .unknown) ⟨.copyIn, .known ⟨3, 0⟩⟩ = .ok .fail := by
  have vague : vagueTuples.Admits (.known ⟨3, 0⟩) := .inr ⟨_, rfl⟩
  have known : vagueTuples.Admits (.known ⟨3, 1⟩) := .inr ⟨_, rfl⟩
  obtain ⟨faults, -, -⟩ := @canPass_faults_iff _ (.var (.known ⟨3, 0⟩)) ⟨.copyIn, .known ⟨3, 1⟩⟩
    built_vagueTuples vague known
  obtain ⟨-, answers, -⟩ := @canPass_faults_iff _ (.var (.known ⟨3, 0⟩)) ⟨.copyIn, .known ⟨3, 0⟩⟩
    built_vagueTuples vague vague
  obtain ⟨-, -, fails⟩ := @canPass_faults_iff _ (.var .unknown) ⟨.copyIn, .known ⟨3, 0⟩⟩
    built_vagueTuples (.inl rfl) vague
  exact ⟨built_vagueTuples, vague, known, faults.1 rfl, answers.1 ⟨.exact, rfl⟩, fails (.inl rfl)⟩

end TypePool

end MethodSynthesis
