import MethodSynthesis.Proofs.Openness

/-!
# Which types have values by default

A record or union can be made without an initializer when its defaults close it and each type that its
fields need can be made so. `Declarations.InitializableAvoiding` is the relation behind the walk
that answers this (`defaultInitializableWithin_spec`): it carries the composites that the walk has
entered, which count as closed for the question what is open, and cannot be entered again.

The rule for records and unions asks its questions afresh, with nothing entered.
`defaultInitializable_rule_iff` states that the rule implies the answer, and that the answer implies
the rule except for a type that is open of itself and that a composite it needs leads back to.
-/

set_option autoImplicit false

namespace MethodSynthesis

namespace Declarations

variable {d : Declarations} {pool : TypePool} {unvisited : List TypeId}
  {visiting visiting' : Set TypeId} {t x y : TypeId} {c : Composite}

/-! ## What a value needs -/

/-- The type that has to be made for a field, unless the field has a default or holds no value. -/
def neededType? (c : Composite) (entry : DeclId × Name × FieldDecl) : Option TypeId :=
  if entry.2.2.hasDefault || entry.2.2.storage.isTypeOrParam then none
  else some (entry.2.2.resolvedType (c.substitution? entry.2.1) .useDefaults)

/-- The types that have to be made for a value by default. -/
def needs (d : Declarations) : TypeData → List TypeId
  | .tuple elements => elements
  | .composite c => (d.fieldsOf c.decl).filterMap (neededType? c)
  | _ => []

/-- A value of one type by default needs one of another. -/
def Needs (d : Declarations) (pool : TypePool) (x y : TypeId) : Prop :=
  ∃ data, pool.read? x = some data ∧ y ∈ d.needs data

/-- Some field of a composite stays open when defaults are used. -/
def StillOpen (d : Declarations) (pool : TypePool) (visiting : Set TypeId) (c : Composite) : Prop :=
  d.selfOpen .useDefaults c = true ∨ ∃ ty ∈ d.valueTypes c, d.OpenAvoiding pool visiting ty

/-- What a structure itself has to do with a value by default, its needs apart. -/
def Ready (d : Declarations) (pool : TypePool) (visiting : Set TypeId) (x : TypeId) :
    TypeData → Prop
  | .primitive p => p ≠ .any ∧ p ≠ .integral ∧ p ≠ .rootObject
  | .composite c =>
    c.kind ≠ .classType ∧ x ∉ visiting ∧ ¬ d.StillOpen pool (insert x visiting) c
  | .decorated _ decorator => decorator.nilable = true
  | .enumeration e => e.constants ≠ []
  | .tuple _ | .array _ _ | .rectangular _ _ _ | .associative _ _ | .cPtr _ => True

/-- The entered composites after a type is entered. -/
def entered (visiting : Set TypeId) (x : TypeId) : TypeData → Set TypeId
  | .composite _ => insert x visiting
  | _ => visiting

/-- A value can be made by default while the given composites have been entered. -/
inductive InitializableAvoiding (d : Declarations) (pool : TypePool) : Set TypeId → TypeId → Prop
  | intro {visiting : Set TypeId} {x : TypeId} {data : TypeData} :
      pool.read? x = some data → d.Ready pool visiting x data →
        (∀ y ∈ d.needs data, InitializableAvoiding d pool (entered visiting x data) y) →
          InitializableAvoiding d pool visiting x

theorem StillOpen.mono (h : d.StillOpen pool visiting c) (sub : visiting' ⊆ visiting) :
    d.StillOpen pool visiting' c :=
  h.imp_right fun ⟨ty, mem, opens⟩ => ⟨ty, mem, opens.mono sub⟩

theorem subset_entered (visiting : Set TypeId) (x : TypeId) (data : TypeData) :
    visiting ⊆ entered visiting x data := by
  cases data with
  | composite c => exact Set.subset_insert x visiting
  | _ => exact subset_rfl

theorem entered_insert (visiting : Set TypeId) (t x : TypeId) (data : TypeData) :
    entered (insert t visiting) x data = insert t (entered visiting x data) := by
  cases data with
  | composite c => exact Set.insert_comm x t visiting
  | _ => rfl

namespace InitializableAvoiding

theorem unfold {data : TypeData} (h : d.InitializableAvoiding pool visiting x)
    (stored : pool.read? x = some data) : d.Ready pool visiting x data ∧
      ∀ y ∈ d.needs data, d.InitializableAvoiding pool (entered visiting x data) y := by
  cases h with
  | intro stored' ready rest =>
    obtain rfl := Option.some.inj (stored.symm.trans stored')
    exact ⟨ready, rest⟩

theorem composite (h : d.InitializableAvoiding pool visiting x)
    (stored : pool.read? x = some (.composite c)) :
    c.kind ≠ .classType ∧ x ∉ visiting ∧ ¬ d.StillOpen pool (insert x visiting) c :=
  (h.unfold stored).1

/-- What a value needs can be made when the value has been entered. -/
theorem of_needs {nodes : Set TypeId} (h : d.InitializableAvoiding pool visiting x)
    (needs : Relation.ReflTransGen (d.Needs pool) x y) (sub : visiting ⊆ nodes)
    (within : ∀ z c, pool.read? z = some (.composite c) →
      Relation.ReflTransGen (d.Needs pool) x z → z ∈ nodes) :
    ∃ visiting' ⊆ nodes, visiting ⊆ visiting' ∧ d.InitializableAvoiding pool visiting' y := by
  induction needs with
  | refl => exact ⟨visiting, sub, subset_rfl, h⟩
  | @tail y z path step ih =>
    obtain ⟨visiting', sub', larger, hy⟩ := ih
    obtain ⟨data, stored, mem⟩ := step
    refine ⟨entered visiting' y data, ?_, larger.trans (subset_entered _ _ _),
      (hy.unfold stored).2 z mem⟩
    cases data with
    | composite c => exact Set.insert_subset (within y c stored path) sub'
    | _ => exact sub'

/-- A composite that can be made does not need itself. -/
theorem not_cyclic (h : d.InitializableAvoiding pool visiting x)
    (stored : pool.read? x = some (.composite c)) :
    ¬ Relation.TransGen (d.Needs pool) x x := by
  intro cycle
  obtain ⟨y, ⟨data, stored', mem⟩, path⟩ := Relation.TransGen.head'_iff.1 cycle
  obtain rfl := Option.some.inj (stored.symm.trans stored')
  -- on the way back to `x`, `x` has been entered
  obtain ⟨visiting', -, larger, again⟩ := ((h.unfold stored).2 y mem).of_needs path
    (Set.subset_univ _) fun z _ _ _ => Set.mem_univ z
  exact (again.composite stored).2.1 (larger (Set.mem_insert x visiting))

/-- A value that does not need `t` can be made when `t` has been entered as well. -/
theorem insert (h : d.InitializableAvoiding pool visiting x)
    (free : ¬ Relation.ReflTransGen (d.Needs pool) x t) :
    d.InitializableAvoiding pool (insert t visiting) x := by
  induction h with
  | @intro visiting x data stored ready _ ih =>
    refine .intro stored ?_ fun y mem => ?_
    · cases data with
      | composite c =>
        obtain ⟨kind, avoided, closed⟩ := ready
        have ne : x ≠ t := by
          rintro rfl
          exact free .refl
        -- with more composites entered, fewer types are open
        refine ⟨kind, by simp [ne, avoided], fun opens => closed (opens.mono ?_)⟩
        exact Set.insert_subset_insert (Set.subset_insert t visiting)
      | _ => exact ready
    · rw [entered_insert]
      exact ih y mem fun path => free (.head ⟨data, stored, mem⟩ path)

/-- Where a value cannot be made unless `t` has been entered, a composite that it needs has a type that
is open on a way through `t` alone. -/
theorem blocked {entered : Set TypeId} (h : d.InitializableAvoiding pool entered x)
    (eq : entered = Insert.insert t visiting) (no : ¬ d.InitializableAvoiding pool visiting x) :
    ∃ y c, Relation.ReflTransGen (d.Needs pool) x y ∧ pool.read? y = some (.composite c) ∧
      ∃ ty ∈ d.valueTypes c, ∃ avoided, d.OpenAvoiding pool avoided ty ∧
        ¬ d.OpenAvoiding pool (Insert.insert t avoided) ty := by
  induction h generalizing visiting with
  | @intro entered x data stored ready _ ih =>
    subst eq
    by_cases ready' : d.Ready pool visiting x data
    · -- the value itself is ready, so one of its needs cannot be made
      have : ∃ y ∈ d.needs data,
          ¬ d.InitializableAvoiding pool (Declarations.entered visiting x data) y := by
        by_contra all
        push Not at all
        exact no (.intro stored ready' all)
      obtain ⟨y, mem, no'⟩ := this
      obtain ⟨z, c, path, rest⟩ := ih y mem (entered_insert visiting t x data) no'
      exact ⟨z, c, .head ⟨data, stored, mem⟩ path, rest⟩
    · cases data with
      | composite c =>
        obtain ⟨kind, avoided, closed⟩ := ready
        have opens : d.StillOpen pool (Insert.insert x visiting) c := by
          by_contra closed'
          exact ready' ⟨kind, fun mem => avoided (Set.mem_insert_of_mem t mem), closed'⟩
        rw [Set.insert_comm] at closed
        rcases opens with self | ⟨ty, mem, opens⟩
        · exact absurd (.inl self) closed
        · exact ⟨x, c, .refl, stored, ty, mem, _, opens, fun h => closed (.inr ⟨ty, mem, h⟩)⟩
      | _ => exact absurd ready ready'

end InitializableAvoiding

/-! ## The rule and the relation -/

/-- The rule for records and unions, with each question asked when nothing has been entered. -/
def MeetsRuleAfresh (d : Declarations) (pool : TypePool) (c : Composite) : Prop :=
  ¬ d.StillOpen pool ∅ c ∧ ∀ y ∈ d.needs (.composite c), d.InitializableAvoiding pool ∅ y

/-- A type that is open of itself, with a composite that a value of it needs and whose fields lead back
to the type. -/
def IsCircular (d : Declarations) (pool : TypePool) (t : TypeId) : Prop :=
  d.IsSeed pool t ∧ ∃ x c, pool.read? x = some (.composite c) ∧
    Relation.ReflTransGen (d.Needs pool) t x ∧
      ∃ ty ∈ d.valueTypes c, Relation.ReflTransGen (d.Leads pool) ty t

section Rule

variable (stored : pool.read? t = some (.composite c))

include stored

/-- The rule is sufficient. What a value needs can be made with the composite entered, as it does not
need the composite itself. -/
theorem initializable_of_meetsRuleAfresh (kind : c.kind ≠ .classType)
    (rule : d.MeetsRuleAfresh pool c) : d.InitializableAvoiding pool ∅ t := by
  refine .intro stored ⟨kind, Set.notMem_empty t, fun opens => ?_⟩ fun y mem => ?_
  · exact rule.1 (opens.mono (Set.empty_subset _))
  · refine (rule.2 y mem).insert fun back => ?_
    obtain ⟨_, -, -, again⟩ := (rule.2 y mem).of_needs back (Set.subset_univ _)
      fun z _ _ _ => Set.mem_univ z
    exact again.not_cyclic stored (.head' ⟨_, stored, mem⟩ back)

/-- Where the rule fails for a value that can be made, the type is circular. -/
theorem isCircular_of_not_meetsRuleAfresh (able : d.InitializableAvoiding pool ∅ t)
    (fails : ¬ d.MeetsRuleAfresh pool c) : d.IsCircular pool t := by
  obtain ⟨⟨-, -, closed⟩, parts⟩ := able.unfold stored
  -- a type whose every way to an open one leads through the composite
  have : ∃ x c', pool.read? x = some (.composite c') ∧ Relation.ReflTransGen (d.Needs pool) t x ∧
      ∃ ty ∈ d.valueTypes c', ∃ avoided, d.OpenAvoiding pool avoided ty ∧
        ¬ d.OpenAvoiding pool (insert t avoided) ty := by
    by_cases opens : d.StillOpen pool ∅ c
    · rcases opens with self | ⟨ty, mem, opens⟩
      · exact absurd (.inl self) closed
      · exact ⟨t, c, stored, .refl, ty, mem, ∅, opens, fun h => closed (.inr ⟨ty, mem, h⟩)⟩
    · have : ∃ y ∈ d.needs (.composite c), ¬ d.InitializableAvoiding pool ∅ y := by
        by_contra all
        push Not at all
        exact fails ⟨opens, all⟩
      obtain ⟨y, mem, no⟩ := this
      obtain ⟨x, c', path, stored', rest⟩ := (parts y mem).blocked rfl no
      exact ⟨x, c', stored', .head ⟨_, stored, mem⟩ path, rest⟩
  obtain ⟨x, c', stored', path, ty, mem, avoided, opens, blocked⟩ := this
  refine ⟨?_, x, c', stored', path, ty, mem, opens.reaches blocked⟩
  -- after its last visit of `t` the way leads on from a field of `t`, unless it ends there
  rcases opens.cut t with rest | isSeed | ⟨y, ⟨data, stored'', leads⟩, rest⟩
  · exact absurd rest blocked
  · exact isSeed
  · obtain rfl := Option.some.inj (stored.symm.trans stored'')
    refine absurd (.inr ⟨y, leads, rest.mono ?_⟩) closed
    exact Set.insert_subset_insert (Set.empty_subset _)

/-- The rule fails for a circular type. -/
theorem not_meetsRuleAfresh_of_isCircular (able : d.InitializableAvoiding pool ∅ t)
    (circular : d.IsCircular pool t) : ¬ d.MeetsRuleAfresh pool c := by
  rintro ⟨closed, parts⟩
  obtain ⟨isSeed, x, c', stored', path, ty, mem, back⟩ := circular
  rcases Relation.ReflTransGen.cases_head path with rfl | ⟨b, ⟨data, found, need⟩, path⟩
  · -- the composite itself leads back
    obtain rfl : c = c' := by simpa using stored.symm.trans stored'
    exact closed (.inr ⟨ty, mem, .of_reaches back (.seed (Set.notMem_empty t) isSeed)⟩)
  · obtain rfl := Option.some.inj (stored.symm.trans found)
    -- no composite that `b` needs has a type that is open on a way avoiding all of these
    let nodes := {z | (∃ c, pool.read? z = some (.composite c)) ∧
      Relation.ReflTransGen (d.Needs pool) b z}
    have closed' : ∀ z c, pool.read? z = some (.composite c) →
        Relation.ReflTransGen (d.Needs pool) b z → ∀ y ∈ d.valueTypes c,
          ¬ d.OpenAvoiding pool nodes y := by
      intro z c hz path y hy opens
      obtain ⟨visiting, sub, -, hz'⟩ := (parts b need).of_needs path (Set.empty_subset nodes)
        fun w c hw path => ⟨⟨c, hw⟩, path⟩
      refine (hz'.composite hz).2.2 (.inr ⟨y, hy, opens.mono ?_⟩)
      exact Set.insert_subset ⟨⟨c, hz⟩, path⟩ sub
    have outside : t ∉ nodes := fun again =>
      able.not_cyclic stored (.head' ⟨_, stored, need⟩ again.2)
    rcases OpenAvoiding.of_lastExit back isSeed outside with opens | ⟨z, ⟨⟨c, hz⟩, path⟩, y, hy, opens⟩
    · exact closed' x c' stored' path ty mem opens
    · obtain ⟨data, hz', leads⟩ := hy
      obtain rfl := Option.some.inj (hz.symm.trans hz')
      exact closed' z c hz path y leads opens

end Rule

/-! ## The walk -/

/-- A field has a value by default when it has a default, holds no value, or is of a type for which a
condition holds. -/
def FieldHasValue (P : TypeId → Prop) (field : ResolvedField) : Prop :=
  field.hasDefault = true ∨ field.type.binding.isTypeOrParam = true ∨ P field.type.type

theorem forall_fieldHasValue_iff {P : TypeId → Prop} {generic : TypeId → Bool} :
    (∀ field ∈ (d.resolvedFields c .useDefaults generic).map (·.1), FieldHasValue P field) ↔
      ∀ y ∈ d.needs (.composite c), P y := by
  simp only [resolvedFields, List.map_map, List.forall_mem_map, needs, List.mem_filterMap,
    forall_exists_index, and_imp]
  rw [forall_comm]
  refine forall_congr' fun entry => ?_
  by_cases given : entry.2.2.hasDefault = true ∨ entry.2.2.storage.isTypeOrParam = true
  · have none : neededType? c entry = none := if_pos (by simpa using given)
    simp only [none, reduceCtorEq, false_implies, implies_true, iff_true]
    exact fun _ => given.imp_right .inl
  · have some : neededType? c entry =
        some (entry.2.2.resolvedType (c.substitution? entry.2.1) .useDefaults) :=
      if_neg (by simpa using given)
    obtain ⟨noDefault, holdsValue⟩ := not_or.1 given
    simp [some, FieldHasValue, noDefault, holdsValue]

/-- The fields can be asked in order whether they have values when the types that are needed can be. -/
theorem allM_fields_spec {walk : TypeId → Except Fault Bool} {P : TypeId → Prop}
    {generic : TypeId → Bool}
    (h : ∀ y ∈ d.needs (.composite c), ∃ able, walk y = .ok able ∧ (able = true ↔ P y)) :
    ∃ able, (((d.resolvedFields c .useDefaults generic).map (·.1)).allM fun field =>
        if field.hasDefault || field.type.binding.isTypeOrParam then return true
        else walk field.type.type) = .ok able ∧
      (able = true ↔ ∀ y ∈ d.needs (.composite c), P y) := by
  -- turn from the needed types to the fields, which are what the walk asks in order
  rw [← forall_fieldHasValue_iff] at h ⊢
  refine allM_spec fun field mem => ?_
  by_cases given : field.hasDefault = true ∨ field.type.binding.isTypeOrParam = true
  · exact ⟨true, if_pos (by simpa using given), iff_of_true rfl (given.imp_right .inl)⟩
  · obtain ⟨noDefault, holdsValue⟩ := not_or.1 given
    obtain ⟨able, answer, holds⟩ := ((h field mem).resolve_left noDefault).resolve_left holdsValue
    refine ⟨able, (if_neg (by simpa using given)).trans answer, ?_⟩
    simp [FieldHasValue, noDefault, holdsValue, holds]

/-- The fields of a type have an answer when the types of their values have one. -/
theorem fieldsWithin_eq_ok (comp : pool.compositeOf? t = .ok (some c)) (policy : DefaultsPolicy)
    (value : ∀ y ∈ d.valueTypes c, ∃ g, d.genericityWithin pool unvisited y = .ok g) :
    d.fieldsWithin pool unvisited policy t =
      let found := d.resolvedFields c policy (d.genericWithin pool unvisited)
      .ok ⟨t, found.map (·.1), found.any (·.2)⟩ := by
  rw [fieldsWithin, fieldsWith, comp, ok_bind]
  show d.resolveFields c policy _ >>= _ = _
  rw [resolveFields_eq_ok policy fun y h => genericWithin_eq_ok (value y h)]
  rfl

theorem fieldsWithin_composite (stored : pool.read? t = some (.composite c))
    (policy : DefaultsPolicy)
    (value : ∀ y ∈ d.valueTypes c, ∃ g, d.genericityWithin pool unvisited y = .ok g) :
    d.fieldsWithin pool unvisited policy t =
      let found := d.resolvedFields c policy (d.genericWithin pool unvisited)
      .ok ⟨t, found.map (·.1), found.any (·.2)⟩ :=
  fieldsWithin_eq_ok (TypePool.compositeOf?_eq_ok stored) policy value

/-- The fields that a walk from a composite finds are open exactly if some field stays open. -/
theorem any_resolvedFields_iff_stillOpen (wf : pool.WellFormed) (admitted : d.AdmittedBy pool)
    (visits : pool.Visits unvisited visiting) :
    (d.resolvedFields c .useDefaults (d.genericWithin pool unvisited)).any (·.2) = true ↔
      d.StillOpen pool visiting c := by
  rw [any_resolvedFields]
  refine or_congr_right (exists_congr fun y => and_congr_right fun hy => ?_)
  exact genericWithin_eq_true_iff (genericityWithin_spec wf admitted visits (admitted.valueTypes hy))

theorem defaultInitializableWithin_unknown :
    d.defaultInitializableWithin pool unvisited .unknown = .ok false := by
  rw [defaultInitializableWithin, TypePool.fold_unknown]
  rfl

/-- One step of the walk. -/
theorem defaultInitializableWithin_eq (wf : pool.WellFormed) {ty : TypeId} {data : TypeData} :
    pool.read? ty = some data → d.defaultInitializableWithin pool unvisited ty = match data with
      | .primitive p => .ok (p ≠ .any ∧ p ≠ .integral ∧ p ≠ .rootObject)
      | .composite c =>
        if c.kind = .classType then .ok false
        else if ty ∈ unvisited then do
          let list ← d.fieldsWithin pool (unvisited.erase ty) .useDefaults ty
          if list.isGeneric then return false
          list.fields.allM fun field =>
            if field.hasDefault || field.type.binding.isTypeOrParam then return true
            else d.defaultInitializableWithin pool (unvisited.erase ty) field.type.type
        else .ok false
      | .decorated _ decorator => .ok decorator.nilable
      | .tuple elements => elements.allM (d.defaultInitializableWithin pool unvisited)
      | .array _ _ | .rectangular _ _ _ | .associative _ _ | .cPtr _ => .ok true
      | .enumeration e => .ok !e.constants.isEmpty := by
  intro stored
  have walk := defaultInitializableWithin.eq_1 d pool unvisited
  conv_lhs => rw [walk]
  rw [wf.fold_eq stored]
  · rw [← walk]
    cases data with
    | primitive p => cases p <;> rfl
    | composite c => by_cases mem : ty ∈ unvisited <;> simp [mem]
    | _ => rfl
  · intro f g agree
    cases data with
    | primitive p => cases p <;> rfl
    | tuple elements => exact allM_congr agree
    | _ => rfl

theorem admits_of_mem_needs (wf : pool.WellFormed) (admitted : d.AdmittedBy pool)
    (stored : pool.read? t = some (.composite c)) (mem : y ∈ d.needs (.composite c)) :
    pool.Admits y := by
  obtain ⟨entry, mem, needed⟩ := List.mem_filterMap.1 mem
  unfold neededType? at needed
  split at needed
  · exact nomatch needed
  · exact Option.some.inj needed ▸ admitted.resolvedType wf stored mem .useDefaults

/-- The walk has an answer, which is that a value can be made exactly if it can be made while the
entered composites count as entered. -/
theorem defaultInitializableWithin_spec (wf : pool.WellFormed) (admitted : d.AdmittedBy pool)
    (visits : pool.Visits unvisited visiting) {ty : TypeId} (ha : pool.Admits ty) :
    ∃ able, d.defaultInitializableWithin pool unvisited ty = .ok able ∧
      (able = true ↔ d.InitializableAvoiding pool visiting ty) := by
  refine wf.walk_induction (motive := fun unvisited visiting ty => ∃ able,
    d.defaultInitializableWithin pool unvisited ty = .ok able ∧
      (able = true ↔ d.InitializableAvoiding pool visiting ty)) ?_ ?_ visits ha
  · intro unvisited visiting
    refine ⟨false, defaultInitializableWithin_unknown, iff_of_false Bool.false_ne_true ?_⟩
    rintro ⟨stored, -, -⟩
    exact nomatch stored
  · intro unvisited visiting ty data visits stored parts inside
    have unfolded : d.InitializableAvoiding pool visiting ty ↔ d.Ready pool visiting ty data ∧
        ∀ y ∈ d.needs data, d.InitializableAvoiding pool (entered visiting ty data) y :=
      ⟨fun h => h.unfold stored, fun ⟨ready, rest⟩ => .intro stored ready rest⟩
    rw [unfolded, defaultInitializableWithin_eq wf stored]
    cases data with
    | composite c =>
      by_cases kind : c.kind = .classType
      · exact ⟨false, if_pos kind, iff_of_false Bool.false_ne_true fun h => h.1.1 kind⟩
      by_cases mem : ty ∈ unvisited
      · have avoided : ty ∉ visiting := (visits.mem_iff stored).1 mem
        have visits := visits.enter stored
        have opens := any_resolvedFields_iff_stillOpen (c := c) wf admitted visits
        simp only [if_neg kind, if_pos mem]
        rw [fieldsWithin_composite stored .useDefaults fun y hy =>
          (genericityWithin_spec wf admitted visits (admitted.valueTypes hy)).imp fun _ => And.left]
        dsimp only [ok_bind]
        -- fields that stay open decide; else the answer is left to what the fields need
        split
        · rename_i isGeneric
          exact ⟨false, rfl, iff_of_false Bool.false_ne_true fun h => h.1.2.2 (opens.1 isGeneric)⟩
        · rename_i isConcrete
          rw [Ready, and_iff_right ⟨kind, avoided, fun h => isConcrete (opens.2 h)⟩]
          exact allM_fields_spec fun y hy =>
            inside c rfl mem y (admits_of_mem_needs wf admitted stored hy)
      · refine ⟨false, ?_, iff_of_false Bool.false_ne_true fun h => ?_⟩
        · simp only [if_neg kind, if_neg mem]
        · exact mem ((visits.mem_iff stored).2 h.1.2.1)
    | tuple elements =>
      obtain ⟨able, answer, all⟩ := allM_spec parts
      exact ⟨able, answer, by simpa [Ready, needs, entered, TypeData.components] using all⟩
    | primitive p => exact ⟨_, rfl, by simp [Ready, needs]⟩
    | enumeration e => exact ⟨_, rfl, by simp [Ready, needs]⟩
    | decorated _ decorator => exact ⟨_, rfl, by simp [Ready, needs]⟩
    | array _ _ | rectangular _ _ _ | associative _ _ | cPtr _ =>
      exact ⟨_, rfl, by simp [Ready, needs]⟩

/-! ## Asked afresh -/

/-- Whether a value of a type can be made by default has an answer. -/
theorem isDefaultInitializable_spec (wf : pool.WellFormed) (admitted : d.AdmittedBy pool)
    {ty : TypeId} (ha : pool.Admits ty) :
    ∃ able, d.isDefaultInitializable pool ty = .ok able ∧
      (able = true ↔ d.InitializableAvoiding pool ∅ ty) :=
  defaultInitializableWithin_spec wf admitted (TypePool.visits_start wf.table) ha

theorem isDefaultInitializable_eq_ok_true_iff (wf : pool.WellFormed) (admitted : d.AdmittedBy pool)
    {ty : TypeId} (ha : pool.Admits ty) :
    d.isDefaultInitializable pool ty = .ok true ↔ d.InitializableAvoiding pool ∅ ty := by
  obtain ⟨able, answer, holds⟩ := isDefaultInitializable_spec wf admitted ha
  rw [answer, Except.ok.injEq, holds]

/-- The rule for records and unions, about the fields with their defaults used: none stays open, and
each has a default, or is a type or param, or is of a type whose values can be made by default. -/
def MeetsRule (d : Declarations) (pool : TypePool) (list : FieldList) : Prop :=
  list.isGeneric = false ∧
    ∀ field ∈ list.fields, FieldHasValue (d.isDefaultInitializable pool · = .ok true) field

theorem admits_of_mem_resolvedFields (wf : pool.WellFormed) (admitted : d.AdmittedBy pool)
    (stored : pool.read? t = some (.composite c)) {policy : DefaultsPolicy}
    {generic : TypeId → Bool} {field : ResolvedField}
    (mem : field ∈ (d.resolvedFields c policy generic).map (·.1)) :
    pool.Admits field.type.type := by
  rw [resolvedFields, List.map_map] at mem
  obtain ⟨entry, declared, rfl⟩ := List.mem_map.1 mem
  exact admitted.resolvedType wf stored declared policy

/-- The fields of a type with a composite, each with whether the walk for it finds it open. -/
theorem fields_eq_ok (wf : pool.WellFormed) (admitted : d.AdmittedBy pool)
    (comp : pool.compositeOf? t = .ok (some c)) (policy : DefaultsPolicy) :
    d.fields pool policy t =
      let found := d.resolvedFields c policy (d.genericWithin pool pool.composites)
      .ok ⟨t, found.map (·.1), found.any (·.2)⟩ :=
  fieldsWithin_eq_ok comp policy fun _ hy =>
    (genericity_spec wf admitted (admitted.valueTypes hy)).imp fun _ => And.left

/-- The fields of a stored composite have an answer, and the rule about them is the relation's. -/
theorem fields_spec (wf : pool.WellFormed) (admitted : d.AdmittedBy pool)
    (stored : pool.read? t = some (.composite c)) :
    ∃ list, d.fields pool .useDefaults t = .ok list ∧
      (∀ field ∈ list.fields, pool.Admits field.type.type) ∧
      (d.MeetsRule pool list ↔ d.MeetsRuleAfresh pool c) := by
  have visits := TypePool.visits_start wf.table
  refine ⟨_, fields_eq_ok wf admitted (TypePool.compositeOf?_eq_ok stored) .useDefaults,
    fun field => admits_of_mem_resolvedFields wf admitted stored, ?_⟩
  rw [MeetsRule, MeetsRuleAfresh, forall_fieldHasValue_iff,
    ← any_resolvedFields_iff_stillOpen wf admitted visits, Bool.not_eq_true]
  refine and_congr_right fun _ => forall_congr' fun y => forall_congr' fun hy => ?_
  exact isDefaultInitializable_eq_ok_true_iff wf admitted (admits_of_mem_needs wf admitted stored hy)

end Declarations

/-- Whether a record or union can be made by default, by its fields, each question asked afresh. The
rule is sufficient. It is also necessary, except for a type that is open of itself, can be made by
default, and is led back to by a field of a composite that a value of it needs. -/
theorem defaultInitializable_rule_iff (p : Program) (built : p.Built) {t : TypeId} {c : Composite}
    (stored : p.types.read? t = some (.composite c)) (kind : c.kind ≠ .classType) :
    ∃ able list, p.decls.isDefaultInitializable p.types t = .ok able ∧
      p.decls.fields p.types .useDefaults t = .ok list ∧
      (∀ field ∈ list.fields, ∃ answer,
        p.decls.isDefaultInitializable p.types field.type.type = .ok answer) ∧
      (p.decls.MeetsRule p.types list → able = true) ∧
      ((able = true ↔ p.decls.MeetsRule p.types list) ↔
        ¬ (able = true ∧ p.decls.IsCircular p.types t)) := by
  have wf := built.wellFormed.types.wellFormed
  have admitted := built.wellFormed.decls.admitted
  obtain ⟨able, answer, holds⟩ :=
    Declarations.isDefaultInitializable_spec wf admitted (TypePool.admits_of_read? stored)
  obtain ⟨list, found, types, rule⟩ := Declarations.fields_spec wf admitted stored
  have sufficient : p.decls.MeetsRule p.types list → able = true := fun meets =>
    holds.2 (Declarations.initializable_of_meetsRuleAfresh stored kind (rule.1 meets))
  have exception : able = true → (¬ p.decls.MeetsRule p.types list ↔
      p.decls.IsCircular p.types t) := by
    intro isAble
    rw [rule]
    exact ⟨Declarations.isCircular_of_not_meetsRuleAfresh stored (holds.1 isAble),
      Declarations.not_meetsRuleAfresh_of_isCircular stored (holds.1 isAble)⟩
  refine ⟨able, list, answer, found, fun field mem => ?_, sufficient, ?_⟩
  · exact (Declarations.isDefaultInitializable_spec wf admitted (types field mem)).imp
      fun _ => And.left
  · constructor
    · rintro agree ⟨isAble, circular⟩
      exact (exception isAble).2 circular (agree.1 isAble)
    · intro regular
      refine ⟨fun isAble => ?_, sufficient⟩
      by_contra fails
      exact regular ⟨isAble, (exception isAble).1 fails⟩

theorem mutualRecords_rule_iff :
    mutualRecords.Built ∧
      mutualRecords.types.read? (.known ⟨1, 0⟩) = some (.composite firstRecord) ∧
      firstRecord.kind ≠ .classType ∧
      ∃ able list,
        mutualRecords.decls.isDefaultInitializable mutualRecords.types (.known ⟨1, 0⟩) = .ok able ∧
        mutualRecords.decls.fields mutualRecords.types .useDefaults (.known ⟨1, 0⟩) = .ok list ∧
        (∀ field ∈ list.fields, ∃ answer,
          mutualRecords.decls.isDefaultInitializable mutualRecords.types field.type.type =
            .ok answer) ∧
        (mutualRecords.decls.MeetsRule mutualRecords.types list → able = true) ∧
        ((able = true ↔ mutualRecords.decls.MeetsRule mutualRecords.types list) ↔
          ¬ (able = true ∧
            mutualRecords.decls.IsCircular mutualRecords.types (.known ⟨1, 0⟩))) := by
  have built : mutualRecords.Built := Program.built_ofCalls _ _
  have stored : mutualRecords.types.read? (.known ⟨1, 0⟩) = some (.composite firstRecord) := by
    decide +kernel
  have kind : firstRecord.kind ≠ .classType := by decide
  exact ⟨built, stored, kind, defaultInitializable_rule_iff mutualRecords built stored kind⟩

/-- The first of the mutual records can be made by default, though its field of the second record stays
open and cannot be made by default when it is asked for by itself. -/
theorem mutualRecords_not_meetsRule :
    mutualRecords.decls.isDefaultInitializable mutualRecords.types (.known ⟨1, 0⟩) = .ok true ∧
      mutualRecords.decls.isDefaultInitializable mutualRecords.types (.known ⟨1, 1⟩) = .ok false ∧
      ∃ list, mutualRecords.decls.fields mutualRecords.types .useDefaults (.known ⟨1, 0⟩) =
        .ok list ∧ ¬ mutualRecords.decls.MeetsRule mutualRecords.types list := by
  have first : mutualRecords.decls.isDefaultInitializable mutualRecords.types (.known ⟨1, 0⟩) =
      .ok true := by
    decide +kernel
  have second : mutualRecords.decls.isDefaultInitializable mutualRecords.types (.known ⟨1, 1⟩) =
      .ok false := by
    decide +kernel
  have stillOpen : (mutualRecords.decls.fields mutualRecords.types .useDefaults (.known ⟨1, 0⟩)).map
      (·.isGeneric) = .ok true := by
    decide +kernel
  cases found : mutualRecords.decls.fields mutualRecords.types .useDefaults (.known ⟨1, 0⟩) with
  | error fault =>
    rw [found] at stillOpen
    exact nomatch stillOpen
  | ok list =>
    rw [found] at stillOpen
    refine ⟨first, second, list, rfl, fun meets => ?_⟩
    exact Bool.false_ne_true (meets.1.symm.trans (Except.ok.inj stillOpen))

end MethodSynthesis
