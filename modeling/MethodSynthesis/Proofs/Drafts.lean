import MethodSynthesis.Proofs.Growth
import MethodSynthesis.Synthesis.Draft

/-!
# Drafts over a growing pool

A draft is a function of the program and the pool of types alone. Over a pool that extends the pool
it was drafted from, the same draft comes out (`Host.Persistent.draftMethod`,
`Host.Persistent.draftAccessor`, `TypePool.Grows.draftBinaryOp`), and the classes that it borrows are
in the pool (`Draft.Grounded`).
-/

set_option autoImplicit false

namespace MethodSynthesis

/-! ## Steps of drafting -/

section Drafting

variable {α β : Type}

theorem run_draft_bind (x : Drafting α) (f : α → Drafting β) :
    (x >>= f).run = x.run >>= fun
      | .ok a => (f a).run
      | .error e => .ok (.error e) := by
  refine congrArg (x.run >>= ·) (funext fun a => ?_)
  cases a with
  | ok a => rfl
  | error e => rfl

theorem run_draft_lift (x : Except Fault α) :
    (liftM x : Drafting α).run = x >>= fun a => .ok (.ok a) := by
  cases x with
  | ok a => rfl
  | error e => rfl

theorem draft_bind_eq_ok {x : Drafting α} {f : α → Drafting β} {r : β} :
    (x >>= f).run = .ok (.ok r) ↔ ∃ a, x.run = .ok (.ok a) ∧ (f a).run = .ok (.ok r) := by
  rw [run_draft_bind, bind_eq_ok]
  constructor
  -- an error of the first step is the error of both
  · rintro ⟨a | a, ha, hr⟩
    · exact nomatch hr
    · exact ⟨a, ha, hr⟩
  · rintro ⟨a, ha, hr⟩
    exact ⟨.ok a, ha, hr⟩

theorem draft_lift_eq_ok {x : Except Fault α} {a : α} :
    (liftM x : Drafting α).run = .ok (.ok a) ↔ x = .ok a := by
  rw [run_draft_lift, bind_eq_ok]
  simp

theorem not_throw_eq_ok {e : GenerationError} {a : α} :
    (throw e : Drafting α).run ≠ .ok (.ok a) :=
  (nomatch ·)

theorem Persists.draft_bind {x y : Drafting α} {f g : α → Drafting β}
    (h : Persists x.run y.run) (hfg : ∀ a, x.run = .ok (.ok a) → Persists (f a).run (g a).run) :
    Persists (x >>= f).run (y >>= g).run := by
  rw [run_draft_bind, run_draft_bind]
  refine h.bind fun a ha => ?_
  cases a with
  | ok a => exact hfg a ha
  | error e => exact .refl _

theorem Persists.draft_lift {x y : Except Fault α} (h : Persists x y) :
    Persists (liftM x : Drafting α).run (liftM y : Drafting α).run := by
  rw [run_draft_lift, run_draft_lift]
  exact h.map _

/-- A draft that fails at its first step persists whatever the other steps are. -/
theorem Persists.draft_throw (e : GenerationError) (f g : α → Drafting β) :
    Persists ((throw e : Drafting α) >>= f).run ((throw e : Drafting α) >>= g).run :=
  .refl _

end Drafting

/-! ## Drafts over a growing pool -/

namespace TypePool.Grows

variable {pool pool' : TypePool} (g : pool.Grows pool')

include g

theorem compositeParts (method : CompositeMethod) (ty : TypeId) :
    Persists (pool.compositeParts method ty).run (pool'.compositeParts method ty).run := by
  unfold TypePool.compositeParts
  refine (g.undecorated ty).draft_lift.draft_bind fun basic _ => ?_
  exact (g.composite? basic).draft_lift.draft_bind fun _ _ => .refl _

theorem lifecycleReceiver (ty : TypeId) :
    Persists (pool.lifecycleReceiver ty) (pool'.lifecycleReceiver ty) := by
  unfold TypePool.lifecycleReceiver
  refine (g.isClass ty).bind fun isClass _ => ?_
  split
  · exact (g.undecorated ty).map _
  · exact .refl _

theorem draftEnumCast (ty : TypeId) (direction : CastDirection) :
    Persists (pool.draftEnumCast ty direction) (pool'.draftEnumCast ty direction) :=
  (g.enumeration? ty).bind fun _ _ => .refl _

theorem isEnumeration (ty : TypeId) :
    Persists (pool.isEnumeration ty) (pool'.isEnumeration ty) := by
  unfold TypePool.isEnumeration
  split
  · exact .refl _
  · exact (g.enumeration? ty).map _

theorem draftBinaryOp (lhs rhs : TypeId) (name : Name) :
    Persists (pool.draftBinaryOp lhs rhs name) (pool'.draftBinaryOp lhs rhs name) := by
  unfold TypePool.draftBinaryOp
  split
  · exact .refl _
  refine (g.isEnumeration lhs).bind fun left _ => ?_
  split
  · exact g.draftEnumCast lhs .fromEnum
  refine (g.isEnumeration rhs).bind fun right _ => ?_
  split
  · exact g.draftEnumCast rhs .toEnum
  · exact .refl _

end TypePool.Grows

namespace Host.Persistent

variable {host : Host} {pool pool' : TypePool} (p : host.Persistent pool pool')
  (g : pool.Grows pool')

include p g

omit g in
theorem initFormal (field : ResolvedField) :
    Persists (host.initFormal pool field) (host.initFormal pool' field) := by
  unfold Host.initFormal
  dsimp only
  split
  · exact .refl _
  · exact (p.isDefaultInitializable _).map _

theorem draftInit (ty : TypeId) :
    Persists (host.draftInit pool ty).run (host.draftInit pool' ty).run := by
  unfold Host.draftInit
  refine (g.compositeParts .init ty).draft_bind fun ⟨basic, comp⟩ _ => ?_
  refine (g.genericRoot basic).draft_lift.draft_bind fun generic _ => ?_
  refine (p.fields .ignoreDefaults generic).draft_lift.draft_bind fun fields _ => ?_
  dsimp only
  -- both refusals are decided by what has persisted up to here
  split
  · exact .draft_throw _ _ _
  split
  · exact .draft_throw _ _ _
  refine (g.lifecycleReceiver generic).draft_lift.draft_bind fun ⟨binding, receiver⟩ _ => ?_
  refine (Persists.mapM fun field _ => p.initFormal field).draft_lift.draft_bind fun _ _ => ?_
  exact .refl _

omit p in
theorem draftInitCopy (ty : TypeId) :
    Persists (host.draftInitCopy pool ty).run (host.draftInitCopy pool' ty).run := by
  unfold Host.draftInitCopy
  refine (g.compositeParts .initCopy ty).draft_bind fun ⟨basic, comp⟩ _ => ?_
  exact (g.lifecycleReceiver basic).draft_lift.draft_bind fun _ _ => .refl _

omit p in
theorem draftDeinit (ty : TypeId) :
    Persists (host.draftDeinit pool ty).run (host.draftDeinit pool' ty).run := by
  unfold Host.draftDeinit
  refine (g.compositeParts .deinit ty).draft_bind fun ⟨basic, comp⟩ _ => ?_
  exact (g.lifecycleReceiver basic).draft_lift.draft_bind fun _ _ => .refl _

theorem draftRecordOperator (ty : TypeId) (name : Name) :
    Persists (host.draftRecordOperator pool ty name).run
      (host.draftRecordOperator pool' ty name).run := by
  unfold Host.draftRecordOperator
  refine (g.compositeParts .recordOperator ty).draft_bind fun ⟨_, comp⟩ _ => ?_
  refine (g.genericRoot ty).draft_lift.draft_bind fun generic _ => ?_
  exact (p.genericity ty).draft_lift.draft_bind fun _ _ => .refl _

/-- The drafts of a method persist, and so do the reasons why there is none. -/
theorem draftMethod (ty : TypeId) (name : Name) :
    Persists (host.draftMethod pool ty name).run (host.draftMethod pool' ty name).run := by
  unfold Host.draftMethod
  split
  · exact p.draftInit g ty
  split
  · exact draftInitCopy g ty
  split
  · exact draftDeinit g ty
  refine (g.kind ty).draft_lift.draft_bind fun kind _ => ?_
  cases kind with
  | record =>
    dsimp only
    split
    · exact p.draftRecordOperator g ty name
    · exact .refl _
  | _ => exact .refl _

theorem draftAccessor (ty : TypeId) (field : Name) :
    Persists (host.draftAccessor pool ty field) (host.draftAccessor pool' ty field) := by
  unfold Host.draftAccessor
  refine (g.undecorated ty).bind fun basic _ => ?_
  refine (g.composite? basic).bind fun comp _ => ?_
  cases comp with
  | none => exact .refl _
  | some comp => exact (p.fieldId? basic field).bind fun _ _ => .refl _

end Host.Persistent

/-! ## What drafts refer to -/

/-- The class that a drafted type borrows is admitted. -/
def DraftType.Grounded (pool : TypePool) : DraftType → Prop
  | .given _ => True
  | .borrowed basic => pool.Admits basic

/-- All types of a draft are grounded. -/
def Draft.Grounded (pool : TypePool) (draft : Draft) : Prop :=
  ∀ formal ∈ draft.formals, formal.type.Grounded pool

/-- The formal that a default initializer has for a field. Whether it has a default is asked of the type
only if the field has none. -/
theorem Host.initFormal_eq_ok {host : Host} {pool : TypePool} {field : ResolvedField}
    {formal : DraftFormal} (h : host.initFormal pool field = .ok formal) :
    ∃ hasDefault, (field.hasDefault = true ∧ hasDefault = true ∨ field.hasDefault = false ∧
        host.isDefaultInitializable pool field.type.type = .ok hasDefault) ∧
      formal = ⟨⟨field.name, hasDefault, field.decl⟩,
        if field.type.binding.isTypeOrParam then field.type.binding else .copyIn,
        .given field.type.type⟩ := by
  unfold Host.initFormal at h
  cases given : field.hasDefault with
  | true =>
    rw [given] at h
    exact ⟨true, .inl ⟨rfl, rfl⟩, (Except.ok.inj h).symm⟩
  | false =>
    rw [given] at h
    obtain ⟨hasDefault, answer, h⟩ := bind_eq_ok.1 h
    exact ⟨hasDefault, .inr ⟨rfl, answer⟩, (Except.ok.inj h).symm⟩

/-- The formals of a default initializer are of the types of the fields. -/
theorem given_of_mem_initFormals {host : Host} {pool : TypePool} {fields : List ResolvedField}
    {formals : List DraftFormal} (h : fields.mapM (host.initFormal pool) = .ok formals)
    {formal : DraftFormal} (mem : formal ∈ formals) :
    ∃ field ∈ fields, formal.type = .given field.type.type := by
  induction fields generalizing formals with
  | nil =>
    obtain rfl := Except.ok.inj h
    exact nomatch mem
  | cons field fields ih =>
    rw [List.mapM_cons] at h
    obtain ⟨first, hfirst, h⟩ := bind_eq_ok.1 h
    obtain ⟨rest, hrest, h⟩ := bind_eq_ok.1 h
    obtain rfl := Except.ok.inj h
    rcases List.mem_cons.1 mem with rfl | mem
    · obtain ⟨_, -, rfl⟩ := Host.initFormal_eq_ok hfirst
      exact ⟨field, List.mem_cons_self, rfl⟩
    · obtain ⟨field', mem', type⟩ := ih hrest mem
      exact ⟨field', List.mem_cons_of_mem field mem', type⟩

namespace TypePool.WellFormed

variable {pool : TypePool} (wf : pool.WellFormed)

include wf

/-- The receiver of a lifecycle method is grounded. -/
theorem grounded_lifecycleReceiver {ty : TypeId} {receiver : Binding × DraftType}
    (h : pool.lifecycleReceiver ty = .ok receiver) : receiver.2.Grounded pool := by
  obtain ⟨isClass, hclass, h⟩ := bind_eq_ok.1 h
  cases isClass with
  | false =>
    obtain rfl := Except.ok.inj h
    trivial
  | true =>
    obtain ⟨basic, hbasic, h⟩ := bind_eq_ok.1 h
    obtain rfl := Except.ok.inj h
    exact wf.admits_undecorated hbasic

theorem grounded_draftInit (host : Host) {ty : TypeId} {draft : Draft}
    (h : (host.draftInit pool ty).run = .ok (.ok draft)) : draft.Grounded pool := by
  obtain ⟨⟨basic, comp⟩, -, h⟩ := draft_bind_eq_ok.1 h
  obtain ⟨generic, -, h⟩ := draft_bind_eq_ok.1 h
  obtain ⟨fields, -, h⟩ := draft_bind_eq_ok.1 h
  dsimp only at h
  split at h
  · exact absurd h not_throw_eq_ok
  split at h
  · exact absurd h not_throw_eq_ok
  obtain ⟨⟨binding, receiver⟩, hreceiver, h⟩ := draft_bind_eq_ok.1 h
  obtain ⟨formals, hformals, h⟩ := draft_bind_eq_ok.1 h
  obtain rfl := Except.ok.inj (Except.ok.inj h)
  intro formal mem
  rcases List.mem_cons.1 mem with rfl | mem
  · exact wf.grounded_lifecycleReceiver (draft_lift_eq_ok.1 hreceiver)
  -- the formals of the fields have given types; the receiver alone may be borrowed
  · obtain ⟨field, -, eq⟩ := given_of_mem_initFormals (draft_lift_eq_ok.1 hformals) mem
    rw [eq]
    trivial

theorem grounded_draftInitCopy (host : Host) {ty : TypeId} {draft : Draft}
    (h : (host.draftInitCopy pool ty).run = .ok (.ok draft)) : draft.Grounded pool := by
  obtain ⟨⟨basic, comp⟩, -, h⟩ := draft_bind_eq_ok.1 h
  obtain ⟨⟨binding, receiver⟩, hreceiver, h⟩ := draft_bind_eq_ok.1 h
  obtain rfl := Except.ok.inj (Except.ok.inj h)
  have grounded := wf.grounded_lifecycleReceiver (draft_lift_eq_ok.1 hreceiver)
  simpa [Draft.Grounded, DraftFormal.plain] using grounded

theorem grounded_draftDeinit (host : Host) {ty : TypeId} {draft : Draft}
    (h : (host.draftDeinit pool ty).run = .ok (.ok draft)) : draft.Grounded pool := by
  obtain ⟨⟨basic, comp⟩, -, h⟩ := draft_bind_eq_ok.1 h
  obtain ⟨⟨binding, receiver⟩, hreceiver, h⟩ := draft_bind_eq_ok.1 h
  obtain rfl := Except.ok.inj (Except.ok.inj h)
  have grounded := wf.grounded_lifecycleReceiver (draft_lift_eq_ok.1 hreceiver)
  simpa [Draft.Grounded, DraftFormal.plain] using grounded

omit wf in
theorem grounded_draftRecordOperator (host : Host) {ty : TypeId} {name : Name} {draft : Draft}
    (h : (host.draftRecordOperator pool ty name).run = .ok (.ok draft)) :
    draft.Grounded pool := by
  obtain ⟨⟨_, comp⟩, -, h⟩ := draft_bind_eq_ok.1 h
  obtain ⟨generic, -, h⟩ := draft_bind_eq_ok.1 h
  obtain ⟨genericity, -, h⟩ := draft_bind_eq_ok.1 h
  obtain rfl := Except.ok.inj (Except.ok.inj h)
  simp [Draft.Grounded, DraftFormal.plain, DraftType.Grounded]

omit wf in
theorem grounded_query (ty : TypeId) (name : Name) (kind : DeclKind) :
    (Draft.query ty name kind).Grounded pool := by
  simp [Draft.Grounded, Draft.query, DraftFormal.plain, DraftType.Grounded]

/-- Every draft of a method is grounded. -/
theorem grounded_draftMethod (host : Host) {ty : TypeId} {name : Name} {draft : Draft}
    (h : (host.draftMethod pool ty name).run = .ok (.ok draft)) : draft.Grounded pool := by
  unfold Host.draftMethod at h
  split at h
  · exact wf.grounded_draftInit host h
  split at h
  · exact wf.grounded_draftInitCopy host h
  split at h
  · exact wf.grounded_draftDeinit host h
  obtain ⟨kind, -, h⟩ := draft_bind_eq_ok.1 h
  cases kind with
  | tuple | domain | array | cPtr =>
    obtain rfl := Except.ok.inj (Except.ok.inj h)
    exact grounded_query _ _ _
  | record =>
    dsimp only at h
    split at h
    · exact grounded_draftRecordOperator host h
    · exact absurd h not_throw_eq_ok
  | _ => exact absurd h not_throw_eq_ok

omit wf in
theorem grounded_draftAccessor (host : Host) {ty : TypeId} {field : Name} {draft : Draft}
    (h : host.draftAccessor pool ty field = .ok (some draft)) : draft.Grounded pool := by
  obtain ⟨basic, -, h⟩ := bind_eq_ok.1 h
  obtain ⟨comp, hcomp, h⟩ := bind_eq_ok.1 h
  cases comp with
  | none => exact nomatch h
  | some comp =>
    obtain ⟨id, -, h⟩ := bind_eq_ok.1 h
    cases id with
    | none => exact nomatch h
    | some id =>
      obtain rfl := Option.some.inj (Except.ok.inj h)
      simp only [Draft.Grounded, DraftFormal.plain, List.mem_singleton, forall_eq]
      -- the receiver of a class is borrowed, and the class was read from the pool
      split
      · exact admits_of_read? (composite?_eq_ok_some_iff.1 hcomp)
      · trivial

omit wf in
theorem grounded_draftBinaryOp {lhs rhs : TypeId} {name : Name} {draft : Draft}
    (h : pool.draftBinaryOp lhs rhs name = .ok (some draft)) : draft.Grounded pool := by
  -- both operands lead to the same cast, in one direction or the other
  have cast : ∀ {ty : TypeId} {direction : CastDirection},
      pool.draftEnumCast ty direction = .ok (some draft) → draft.Grounded pool := by
    intro ty direction h
    obtain ⟨e, -, h⟩ := bind_eq_ok.1 h
    cases e with
    | none => exact nomatch h
    | some e =>
      dsimp only at h
      split at h
      · exact nomatch h
      · cases direction with
        | fromEnum | toEnum =>
          obtain rfl := Option.some.inj (Except.ok.inj h)
          simp [Draft.Grounded, DraftFormal.plain, DraftType.Grounded]
  unfold TypePool.draftBinaryOp at h
  split at h
  · exact nomatch h
  obtain ⟨left, -, h⟩ := bind_eq_ok.1 h
  split at h
  · exact cast h
  obtain ⟨right, -, h⟩ := bind_eq_ok.1 h
  split at h
  · exact cast h
  · exact nomatch h

end TypePool.WellFormed

end MethodSynthesis
