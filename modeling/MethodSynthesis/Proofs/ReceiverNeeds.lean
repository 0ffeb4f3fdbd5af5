import MethodSynthesis.Proofs.Coverage
import MethodSynthesis.Proofs.SignatureShapes

/-!
# Overloads that cover a receiver

A lifecycle method is needed of a type that no overload covers, and receives a form of it that an
overload may cover all the same: a borrow that is never nil is taken where a class that may be nil is
not, and a reference to a borrow is taken where a managed class is not. These are the only ways.
`receiver_needs_iff` states when the receiver of a synthesized lifecycle method needs the method itself:
unless an overload in sight covers the receiver and withholds itself from the type in one of the two ways
(`TypePool.Withholds`).
-/

set_option autoImplicit false

namespace MethodSynthesis

/-! ## Overloads in sight -/

/-- A function of a name is in sight of the declaration of a type: it is declared in the scope that the
declaration owns, or in one around it up to the innermost module. -/
def Declarations.InSight (d : Declarations) (pool : TypePool) (ty : TypeId) (name : Name)
    (f : FunctionDecl) : Prop :=
  ∃ c owned s, pool.HasComposite ty c ∧ d.scope? c.decl = some owned ∧
    Relation.ReflTransGen d.scopes.LiesIn owned s ∧ d.DeclaresIn s f ∧ f.name = name

/-- The type is a decorated class that may be nil. -/
def TypePool.MayBeNil (pool : TypePool) (ty : TypeId) : Prop :=
  ∃ basic decorator, pool.read? ty = some (.decorated basic decorator) ∧ decorator.nilable = true

/-- The type is a decorated class that is not borrowed. -/
def TypePool.IsManaged (pool : TypePool) (ty : TypeId) : Prop :=
  ∃ basic decorator, pool.read? ty = some (.decorated basic decorator) ∧
    decorator.management ≠ .borrowed

/-- The overload has its receiver by reference. -/
def TypePool.ReceivesByReference (pool : TypePool) (f : FunctionDecl) : Prop :=
  ∃ formal receiver, f.HasReceiver formal ∧ pool.resolveIntent formal.type = .ok receiver ∧
    receiver.binding.isRef = true

/-- The overload does not take the type, although it may take a borrow of it that is never nil. -/
def TypePool.Withholds (pool : TypePool) (ty : TypeId) (f : FunctionDecl) : Prop :=
  pool.MayBeNil ty ∨ pool.IsManaged ty ∧ pool.ReceivesByReference f

theorem Declarations.shadows_iff {d : Declarations} {pool : TypePool} {ty : TypeId} {name : Name} :
    d.Shadows pool ty name ↔ ∃ f, d.InSight pool ty name f ∧ pool.IsCoveredBy ty f := by
  constructor
  · rintro ⟨c, owned, s, f, composite, scope, lies, declares, same, covers⟩
    exact ⟨f, ⟨c, owned, s, composite, scope, lies, declares, same⟩, covers⟩
  · rintro ⟨f, ⟨c, owned, s, composite, scope, lies, declares, same⟩, covers⟩
    exact ⟨c, owned, s, f, composite, scope, lies, declares, same, covers⟩

/-! ## Receivers that stand for a type -/

/-- What admits a borrow that is never nil admits a class that is never nil, by reference only if the
class is borrowed. -/
theorem Decorator.Admits.of_borrowedNonNil {held : Decorator} {byRef : Bool}
    {received : Option Decorator} (h : borrowedNonNil.Admits byRef received)
    (noNil : held.nilable = false) (free : byRef = true → held.management = .borrowed) :
    held.Admits byRef received := by
  cases received with
  | none => exact noNil
  | some received =>
    obtain ⟨nilable, management⟩ := h
    have borrows : received.management = .borrowed := management.elim id And.left
    refine ⟨nilable.trans noNil.symm, ?_⟩
    cases byRef with
    | true => exact .inl (borrows.trans (free rfl).symm)
    | false => exact .inr ⟨borrows, rfl⟩

namespace TypePool

variable {pool : TypePool} {ty basic : TypeId} {c : Composite} {name : Name}
  {receiver q : Qualified}

/-- The form that a lifecycle method receives is the composite or its generic form. -/
theorem receivedForm_cases (c : Composite) (name : Name) (basic : TypeId) :
    c.receivedForm name basic = basic ∨ c.instantiatedFrom = some (c.receivedForm name basic) := by
  unfold Composite.receivedForm Composite.genericForm
  split
  · cases c.instantiatedFrom with
    | none => exact .inl rfl
    | some root => exact .inr rfl
  · exact .inl rfl

/-- What instantiates a form of a composite is no other than what the composite instantiates. -/
theorem Sound.instantiatedFrom_form (sound : pool.Sound) {form target : TypeId} {c' : Composite}
    (stored : pool.read? basic = some (.composite c))
    (form? : form = basic ∨ c.instantiatedFrom = some form)
    (stored' : pool.read? form = some (.composite c'))
    (target? : target = form ∨ c'.instantiatedFrom = some target) :
    target = basic ∨ c.instantiatedFrom = some target := by
  rcases form? with rfl | from?
  · obtain rfl := TypeData.composite.inj (Option.some.inj (stored.symm.trans stored'))
    exact target?
  · have generic := sound.read?_root stored from?
    obtain rfl := TypeData.composite.inj (Option.some.inj (generic.symm.trans stored'))
    rcases target? with rfl | none
    · exact .inr from?
    · exact nomatch none

/-- The receiver of a lifecycle method belongs to the declaration of the type. -/
theorem Sound.hasComposite_receiver (sound : pool.Sound)
    (received : pool.LifecycleReceiver ty name receiver) :
    ∃ c c', pool.HasComposite ty c ∧ pool.HasComposite receiver.type c' ∧ c'.decl = c.decl := by
  have same : ∀ {basic c c'}, pool.read? basic = some (.composite c) →
      pool.read? (c.receivedForm name basic) = some (.composite c') → c'.decl = c.decl := by
    intro basic c c' stored form
    rcases receivedForm_cases c name basic with eq | from?
    · rw [eq, stored] at form
      obtain rfl := TypeData.composite.inj (Option.some.inj form)
      rfl
    · rw [sound.read?_root stored from?] at form
      obtain rfl := TypeData.composite.inj (Option.some.inj form)
      rfl
  cases received with
  | @borrowed basic received c c' found isClass form kind stored =>
    exact ⟨c, c', hasComposite_iff.2 ⟨basic, found⟩, .inr ⟨_, _, stored, form⟩, same found.1 form⟩
  | @reference c c' stored noClass form kind =>
    exact ⟨c, c', .inl stored, .inl form, same stored form⟩

/-- What takes the receiver of a lifecycle method takes the type, unless the type may be nil, or is
managed and taken by reference. -/
theorem Sound.takes_of_takes_receiver (sound : pool.Sound)
    (received : pool.LifecycleReceiver ty name receiver) (takes : pool.Takes receiver.type q)
    (noNil : ¬ pool.MayBeNil ty) (free : q.binding.isRef = true → ¬ pool.IsManaged ty) :
    pool.Takes ty q := by
  cases received with
  | @reference c c' stored noClass form kind =>
    obtain ⟨plain, name?⟩ := (sound.takes_value_iff form (kind ▸ noClass)).1 takes
    refine (sound.takes_value_iff stored noClass).2 ⟨plain, ?_⟩
    have form? := receivedForm_cases c name ty
    rcases name? with same | any | from?
    · exact (sound.instantiatedFrom_form stored form? form (.inl same)).imp_right .inr
    · exact .inr (.inl any)
    · exact (sound.instantiatedFrom_form stored form? form (.inr from?)).imp_right .inr
  | @borrowed basic received c c' found isClass form kind target =>
    obtain ⟨plain, taken⟩ := (sound.takes_class_iff (.inr target) form kind).1 takes
    -- an undecorated class is held as the receiver has it
    obtain ⟨decorator, held, nilable, borrows⟩ : ∃ decorator, pool.IsHeldAs ty basic decorator ∧
        decorator.nilable = false ∧ (q.binding.isRef = true → decorator.management = .borrowed) := by
      rcases found.2 with same | ⟨decorator, decorated⟩
      · exact ⟨.borrowedNonNil, .inl ⟨same, rfl⟩, rfl, fun _ => rfl⟩
      · refine ⟨decorator, .inr decorated, ?_, fun byRef => ?_⟩
        · exact Bool.eq_false_iff.2 fun nilable => noNil ⟨_, _, decorated, nilable⟩
        · by_contra managed
          exact free byRef ⟨_, _, decorated, managed⟩
    refine (sound.takes_class_iff held found.1 isClass).2 ⟨plain, taken.imp_right ?_⟩
    rintro ⟨form', seen, formal, form?, admits⟩
    exact ⟨form', seen, formal,
      sound.instantiatedFrom_form found.1 (receivedForm_cases c name basic) form form?,
      admits.of_borrowedNonNil nilable borrows⟩

/-- To pass the receiver of a lifecycle method has an outcome if no class inherits from the unknown
type, and for a record or union in any case. -/
theorem Sound.exists_canPass_receiver (sound : pool.Sound)
    (received : pool.LifecycleReceiver ty name receiver)
    (known : pool.ParentsKnown ∨ ∃ c, pool.HasComposite ty c ∧ c.kind ≠ .classType)
    (admits : pool.Admits q.type) : ∃ outcome, pool.canPass (.var receiver.type) q = .ok outcome := by
  rcases known with known | ⟨c, composite, noClass⟩
  · obtain ⟨-, c', -, composite', -⟩ := sound.hasComposite_receiver received
    exact (sound.canPass known composite' admits).imp fun _ => And.left
  · cases received with
    | reference _ other form kind => exact sound.canPass_value form (kind ▸ other) admits
    | @borrowed basic _ _ _ found isClass _ _ _ =>
      obtain rfl := composite.unique (hasComposite_iff.2 ⟨basic, found⟩)
      exact absurd isClass noClass

/-- An overload that covers the receiver of a lifecycle method and not the type withholds itself. -/
theorem Sound.withholds_of_isCoveredBy (sound : pool.Sound) {f : FunctionDecl}
    (received : pool.LifecycleReceiver ty name receiver) (covers : pool.IsCoveredBy receiver.type f)
    (uncovered : ¬ pool.IsCoveredBy ty f) : pool.Withholds ty f := by
  obtain ⟨overload, formal, q, first, resolved, takes⟩ := isCoveredBy_iff.1 covers
  by_contra withheld
  obtain ⟨noNil, free⟩ := not_or.1 withheld
  refine uncovered (isCoveredBy_iff.2 ⟨overload, formal, q, first, resolved, ?_⟩)
  refine sound.takes_of_takes_receiver received takes noNil fun byRef managed => ?_
  exact free ⟨managed, formal, q, first, resolved, byRef⟩

end TypePool

/-! ## The decision over receivers -/

theorem TypePool.type_of_resolveIntent {pool : TypePool} {formal receiver : Qualified}
    (h : pool.resolveIntent formal = .ok receiver) : receiver.type = formal.type := by
  unfold TypePool.resolveIntent at h
  split at h
  · obtain ⟨data, -, eq⟩ := bind_eq_ok.1 h
    obtain rfl := Except.ok.inj eq
    rfl
  · obtain rfl := Except.ok.inj h
    rfl

/-- No type answers a lifecycle method as a query. -/
theorem TypeKind.answers_lifecycle {kind : TypeKind} {name : Name} {parenless : Bool}
    (lifecycle : name.isLifecycleMethod = true) : kind.answers name parenless = false := by
  obtain ⟨method, lifecycle⟩ := Name.isLifecycleMethod_iff.1 lifecycle
  cases lifecycle <;> cases kind <;> cases parenless <;> rfl

section Decision

variable {d : Declarations} {pool : TypePool} {ty : TypeId} {data : TypeData} {name : Name}
  {parenless : Bool} {receiver : Qualified}

/-- A lifecycle method is needed exactly if it is not shadowed. -/
theorem Host.needsMethod_lifecycle (host : Host) (stored : pool.read? ty = some data)
    (lifecycle : name.isLifecycleMethod = true) :
    host.needsMethod pool ty name parenless =
      host.isShadowed pool ty name >>= fun shadowed => .ok !shadowed := by
  have provides : data.kind.provides name = true := by simp [TypeKind.provides, lifecycle]
  rw [host.needsMethod_eq stored, provides, if_pos rfl, TypeKind.answers_lifecycle lifecycle]
  simp only [Bool.or_false]

theorem isShadowed_of_needs {host : Host} (lifecycle : name.isLifecycleMethod = true)
    (needs : host.needsMethod pool ty name parenless = .ok true) :
    host.isShadowed pool ty name = .ok false := by
  obtain ⟨data, stored⟩ := exists_read?_of_needsMethod needs
  rw [host.needsMethod_lifecycle stored lifecycle] at needs
  obtain ⟨shadowed, hshadowed, eq⟩ := bind_eq_ok.1 needs
  cases shadowed with
  | false => exact hshadowed
  | true => exact nomatch Except.ok.inj eq

namespace Declarations

/-- What is in sight of a type is in sight of what its lifecycle methods receive. -/
theorem inSight_receiver_iff (sound : pool.Sound)
    (received : pool.LifecycleReceiver ty name receiver) {f : FunctionDecl} :
    d.InSight pool receiver.type name f ↔ d.InSight pool ty name f := by
  obtain ⟨c, c', composite, composite', decl⟩ := sound.hasComposite_receiver received
  constructor
  · rintro ⟨c₁, owned, s, composite₁, scope, rest⟩
    obtain rfl := composite'.unique composite₁
    exact ⟨c, owned, s, composite, decl ▸ scope, rest⟩
  · rintro ⟨c₁, owned, s, composite₁, scope, rest⟩
    obtain rfl := composite.unique composite₁
    exact ⟨c', owned, s, composite', decl.symm ▸ scope, rest⟩

/-- The receiver of a lifecycle method that is needed does not need the method itself exactly if an
overload in sight covers the receiver and withholds itself from the type. -/
theorem needs_receiver_iff (wf : d.WellFormed) (sound : pool.Sound)
    (lifecycle : name.isLifecycleMethod = true)
    (received : pool.LifecycleReceiver ty name receiver)
    (needs : d.host.needsMethod pool ty name parenless = .ok true) {parenless' needed : Bool}
    (h : d.host.needsMethod pool receiver.type name parenless' = .ok needed) :
    needed = false ↔ ∃ f, d.InSight pool ty name f ∧ pool.IsCoveredBy receiver.type f ∧
      pool.Withholds ty f := by
  obtain ⟨c, c', composite, composite', -⟩ := sound.hasComposite_receiver received
  have unshadowed : ¬ d.Shadows pool ty name := fun shadows => Bool.false_ne_true
    ((isShadowed_eq_ok wf composite (isShadowed_of_needs lifecycle needs)).2 shadows)
  obtain ⟨data, stored⟩ := exists_read?_of_needsMethod h
  rw [d.host.needsMethod_lifecycle stored lifecycle] at h
  obtain ⟨shadowed, hshadowed, eq⟩ := bind_eq_ok.1 h
  obtain rfl := Except.ok.inj eq
  rw [Bool.not_eq_false', isShadowed_eq_ok wf composite' hshadowed, shadows_iff]
  simp only [inSight_receiver_iff sound received]
  refine exists_congr fun f => and_congr_right fun sight => ?_
  refine ⟨fun covers => ⟨covers, ?_⟩, And.left⟩
  refine sound.withholds_of_isCoveredBy received covers fun covers' => ?_
  exact unshadowed (shadows_iff.2 ⟨f, sight, covers'⟩)

/-- Whether the receiver of a lifecycle method that is needed needs the method itself has an answer if
no class inherits from the unknown type, and for a record or union in any case. -/
theorem exists_needs_receiver (wf : d.WellFormed) (admitted : d.AdmittedBy pool) (sound : pool.Sound)
    (lifecycle : name.isLifecycleMethod = true)
    (received : pool.LifecycleReceiver ty name receiver)
    (needs : d.host.needsMethod pool ty name parenless = .ok true)
    (known : pool.ParentsKnown ∨ ∃ c, pool.HasComposite ty c ∧ c.kind ≠ .classType)
    (parenless' : Bool) :
    ∃ needed, d.host.needsMethod pool receiver.type name parenless' = .ok needed := by
  obtain ⟨c, c', composite, composite', decl⟩ := sound.hasComposite_receiver received
  -- the overloads in sight were all judged for the type, so their intents are resolved
  obtain ⟨ids, sight, unshadowed⟩ := isShadowed_eq wf composite name
  rw [isShadowed_of_needs lifecycle needs] at unshadowed
  have judged := eq_ok_false_of_anyM unshadowed.symm
  obtain ⟨ids', sight', shadowed⟩ := isShadowed_eq wf composite' name
  obtain ⟨data, stored, -⟩ := composite'.stored
  have covered : ∀ id ∈ ids', Answers (d.host.covers pool receiver.type id)
      (· = true ↔ ∃ f, d.function? id = some f ∧ pool.IsCoveredBy receiver.type f) := by
    intro id mem
    have answer := judged id ((sight id).2 (decl ▸ (sight' id).1 mem))
    apply exists_covers
    intro formal overloads
    rw [covers_eq overloads] at answer
    obtain ⟨q, resolved, -⟩ := bind_eq_ok.1 answer
    obtain ⟨f, function, -, first⟩ := overloads
    have ha : pool.Admits q.type := by
      obtain ⟨decl, entry, mentioned⟩ := exists_mem_types function first.mem
      rw [TypePool.type_of_resolveIntent resolved]
      exact admitted decl entry _ mentioned
    obtain ⟨outcome, passed⟩ := sound.exists_canPass_receiver received known ha
    exact ⟨q, outcome, resolved, passed⟩
  obtain ⟨answer, hanswer, -⟩ := anyM_spec covered
  rw [d.host.needsMethod_lifecycle stored lifecycle, shadowed, hanswer]
  exact ⟨_, rfl⟩

end Declarations

end Decision

/-! ## Composites are not made by queries -/

section Composites

variable {pool : TypePool} {ty : TypeId} {c : Composite}

/-- To store the types of formals makes no composite. -/
theorem DraftFormal.read?_of_storeTypes (wf : pool.WellFormed) {formals : List DraftFormal}
    (grounded : ∀ formal ∈ formals, formal.type.Grounded pool)
    (h : (DraftFormal.storeTypes pool formals).2.read? ty = some (.composite c)) :
    pool.read? ty = some (.composite c) := by
  induction formals generalizing pool with
  | nil => exact h
  | cons formal formals ih =>
    obtain ⟨g, -⟩ := formal.type.grows_store wf (grounded _ List.mem_cons_self)
    have before := ih g.after (fun f mem => (grounded f (List.mem_cons_of_mem _ mem)).grows g) h
    cases type : formal.type with
    | given given =>
      rw [type] at before
      exact before
    | borrowed basic =>
      rw [type] at before
      exact (TypePool.read?_intern_cases wf.table before).resolve_left fun eq => nomatch eq

namespace Session

variable {s : Session}

/-- A query makes no composite. -/
theorem Sound.read?_of_ask (sound : s.Sound) (host : Host) (call : Call)
    (h : ((call.ask host).exec s).2.program.types.read? ty = some (.composite c)) :
    s.program.types.read? ty = some (.composite c) := by
  have types := sound.program.types
  rcases provides_ask host call s types with ⟨tables, -⟩ | ⟨draft, -, drafts, -, -, tables⟩
  · rwa [← tables.1] at h
  · rw [← tables.1] at h
    exact DraftFormal.read?_of_storeTypes types.wellFormed (drafts.grounded types) h

/-- No sequence of queries makes a composite. -/
theorem Reached.read?_of_after (reached : s.Reached) (host : Host) (calls : List Call)
    (h : (s.after host calls).program.types.read? ty = some (.composite c)) :
    s.program.types.read? ty = some (.composite c) := by
  induction calls generalizing s with
  | nil => exact h
  | cons call calls ih =>
    exact reached.sound.read?_of_ask host call (ih (.ask host call reached) h)

end Session

end Composites

/-! ## Requests -/

theorem Program.queried_append (p : Program) (shards : Sharding) (history : List Call)
    (call : Call) :
    p.queried shards (history ++ [call]) = (p.ask shards history call).2 := by
  simp [Program.queried, Program.ask, Session.after]

/-- A need has an answer exactly if the decision has one, which is the answer. -/
theorem Session.Faithful.need_eq_ok_iff {host : Host} {s : Session} (faithful : s.Faithful host)
    (persistent : ∀ {pool pool' : TypePool}, pool.Grows pool' → host.Persistent pool pool')
    {ty : TypeId} {data : TypeData} (stored : s.program.types.read? ty = some data) {name : Name}
    {parenless needed : Bool} :
    (((Call.need ty name parenless).ask host).exec s).1 = .ok (.decision needed) ↔
      host.needsMethod s.program.types ty name parenless = .ok needed := by
  have drafts : ∀ {needed}, host.needsMethod s.program.types ty name parenless = .ok needed →
      (Call.need ty name parenless).draft host s.program.types = .ok (.decision needed) := by
    intro needed h
    rw [Call.draft, Call.draftNeed_of_read? stored, h]
    rfl
  constructor
  · intro answer
    obtain ⟨drafted, hdrafted, given⟩ := faithful.drafted_of_ask persistent answer
    obtain ⟨needed', hneeded, eq⟩ := bind_eq_ok.1 hdrafted
    obtain rfl := Except.ok.inj eq
    obtain rfl : needed = needed' := given
    rwa [Call.draftNeed_of_read? stored] at hneeded
  · intro h
    obtain ⟨reply, answer, given⟩ := faithful.isStoredAs_ask persistent (drafts h)
    cases reply with
    | decision needed' =>
      obtain rfl : needed' = needed := given
      exact answer
    | failure _ | nothing | signature _ => exact given.elim

section Held

variable {p : Program} {shards : Sharding} {history : List Call} {ty : TypeId} {name : Name}
  {parenless : Bool} {id : SigId} {s : Session}

/-- A lifecycle method that is given was needed, and its signature starts with its receiver. -/
theorem Program.Built.exists_receiver (built : p.Built) (lifecycle : name.isLifecycleMethod = true)
    (found : p.ask shards history (.method ty name parenless) = (.ok (.signature id), s)) :
    ∃ signature receiver, s.signatures.typed id = .ok signature ∧
      signature.formalTypes.head? = some receiver ∧
      s.program.types.LifecycleReceiver ty name receiver ∧
      p.decls.host.needsMethod s.program.types ty name parenless = .ok true := by
  have sound := (built.reached_queried shards history).sound
  obtain ⟨g, -⟩ := sound.grows_ask p.decls.host (.method ty name parenless)
  have last : (((Call.method ty name parenless).ask p.decls.host).exec
      (p.queried shards history)).2 = s := congrArg Prod.snd found
  obtain ⟨draft, needed, made, stored⟩ := built.drafted_method (congrArg Prod.fst found)
  rw [found] at stored
  rw [last] at g
  have drafts : (Call.method ty name parenless).Drafts p.decls.host
      (p.queried shards history).program.types draft := .method made
  obtain ⟨untyped, typed, holds, -, shape⟩ := drafts.shape sound.program.types g stored
  have needs := Call.needsMethod_of_draftNeed needed
  have persistent := p.decls.host_persistent g
  cases shape with
  | lifecycle _ _ first received _ _ =>
    exact ⟨typed, _, holds.1, first, received,
      persistent.needsMethod g ty name parenless true needs⟩
  | recordOperator operator _ =>
    have other := Name.isLifecycleMethod_of_isRecordOperator operator
    exact absurd (lifecycle.symm.trans other) (by decide)
  | query other _ _ _ => exact absurd (lifecycle.symm.trans other) (by decide)

/-- If no class of a program inherits from the unknown type, none does after queries. -/
theorem Program.Built.parentsKnown_queried (built : p.Built) (shards : Sharding)
    (history : List Call) :
    p.types.ParentsKnown → (p.queried shards history).program.types.ParentsKnown := by
  intro known ty c composite
  exact known ((Session.reached_start built shards).read?_of_after p.decls.host history composite)

end Held

/-- The receiver of a lifecycle method that was synthesized for a type needs the method itself, unless
an overload in sight covers the receiver and withholds itself from the type: because the type may be
nil, or because it is managed and the overload has its receiver by reference. -/
theorem receiver_needs_iff (p : Program) (built : p.Built) {shards : Sharding}
    {history : List Call} {ty : TypeId} {name : Name} {parenless : Bool} {id : SigId} {s : Session}
    (lifecycle : name.isLifecycleMethod = true)
    (found : p.ask shards history (.method ty name parenless) = (.ok (.signature id), s)) :
    ∃ signature receiver, s.signatures.typed id = .ok signature ∧
      signature.formalTypes.head? = some receiver ∧
      ∀ parenless', (p.types.ParentsKnown ∨
          (∃ c, s.program.types.HasComposite ty c ∧ c.kind ≠ .classType) →
            ∃ needed, (p.ask shards (history ++ [.method ty name parenless])
              (.need receiver.type name parenless')).1 = .ok (.decision needed)) ∧
        ∀ needed, (p.ask shards (history ++ [.method ty name parenless])
            (.need receiver.type name parenless')).1 = .ok (.decision needed) →
          (needed = false ↔ ∃ f, p.decls.InSight s.program.types ty name f ∧
            s.program.types.IsCoveredBy receiver.type f ∧ s.program.types.Withholds ty f) := by
  obtain ⟨signature, receiver, typed, first, received, needs⟩ := built.exists_receiver lifecycle found
  -- the request is over, and the session is that of the program after one more query
  obtain rfl : p.queried shards (history ++ [.method ty name parenless]) = s := by
    rw [p.queried_append, found]
  obtain ⟨faithful, g⟩ := built.faithful_queried shards (history ++ [.method ty name parenless])
  have reached := built.reached_queried shards (history ++ [.method ty name parenless])
  have sound := reached.sound.program.types
  have fit := built.wellFormed.decls.grows g.before.table g.after.table g.ext
  have wf := fit.wellFormed
  obtain ⟨-, c, -, composite, -⟩ := sound.hasComposite_receiver received
  obtain ⟨data, stored, -⟩ := composite.stored
  have decides : ∀ {parenless' needed}, (p.ask shards (history ++ [.method ty name parenless])
        (.need receiver.type name parenless')).1 = .ok (.decision needed) ↔
      p.decls.host.needsMethod
        (p.queried shards (history ++ [.method ty name parenless])).program.types
        receiver.type name parenless' = .ok needed :=
    faithful.need_eq_ok_iff p.decls.host_persistent stored
  refine ⟨signature, receiver, typed, first, fun parenless' => ⟨fun known => ?_, fun needed h => ?_⟩⟩
  · have known := known.imp_left
      (built.parentsKnown_queried shards (history ++ [.method ty name parenless]))
    obtain ⟨needed, hneeded⟩ := Declarations.exists_needs_receiver wf fit.admitted sound lifecycle
      received needs known parenless'
    exact ⟨needed, decides.2 hneeded⟩
  · exact Declarations.needs_receiver_iff wf sound lifecycle received needs (decides.1 h)

/-- A class with an initializer for its borrow and a deinitializer for references to the borrow. -/
def borrowingClass : Program :=
  .ofCalls .bySize [.module "M" none, .composite (.at 0) "C" .classType none,
    .type (.decorate (.known ⟨1, 0⟩) ⟨.owned, true⟩),
    .type (.decorate (.known ⟨1, 0⟩) ⟨.owned, false⟩),
    .type (.decorate (.known ⟨1, 0⟩) .borrowedNonNil),
    .named (.at 0) "init" .procedure true [⟨.receiver, ⟨.constIn, .known ⟨2, 2⟩⟩, false⟩],
    .named (.at 0) "deinit" .procedure true [⟨.receiver, ⟨.ref, .known ⟨2, 2⟩⟩, false⟩]]

/-- The request for a method of the class in one of its forms. -/
def borrowingMethod (n : Nat) (name : Name) : Call := .method (.known ⟨2, n⟩) name false

theorem borrowingClass_init_needs : borrowingClass.Built ∧ Name.init.isLifecycleMethod = true ∧
    borrowingClass.ask .bySize [] (borrowingMethod 0 .init) = (.ok (.signature ⟨⟨1, 0⟩⟩),
      (borrowingClass.ask .bySize [] (borrowingMethod 0 .init)).2) ∧
    ∃ signature receiver needed,
      (borrowingClass.ask .bySize [] (borrowingMethod 0 .init)).2.signatures.typed ⟨⟨1, 0⟩⟩ =
        .ok signature ∧
      signature.formalTypes.head? = some receiver ∧
      (borrowingClass.ask .bySize [borrowingMethod 0 .init] (.need receiver.type .init false)).1 =
        .ok (.decision needed) ∧
      (needed = false ↔ ∃ f,
        borrowingClass.decls.InSight
          (borrowingClass.ask .bySize [] (borrowingMethod 0 .init)).2.program.types
          (.known ⟨2, 0⟩) .init f ∧
        (borrowingClass.ask .bySize [] (borrowingMethod 0 .init)).2.program.types.IsCoveredBy
          receiver.type f ∧
        (borrowingClass.ask .bySize [] (borrowingMethod 0 .init)).2.program.types.Withholds
          (.known ⟨2, 0⟩) f) := by
  have built : borrowingClass.Built := Program.built_ofCalls _ _
  have known : borrowingClass.types.ParentsKnown := by
    rw [TypePool.parentsKnown_iff built.wellFormed.types.wellFormed.table]
    decide +kernel
  have answer : (borrowingClass.ask .bySize [] (borrowingMethod 0 .init)).1 =
      .ok (.signature ⟨⟨1, 0⟩⟩) := by cbv
  have found : borrowingClass.ask .bySize [] (borrowingMethod 0 .init) = (.ok (.signature ⟨⟨1, 0⟩⟩),
      (borrowingClass.ask .bySize [] (borrowingMethod 0 .init)).2) := Prod.ext answer rfl
  obtain ⟨signature, receiver, typed, first, needs⟩ := receiver_needs_iff borrowingClass built rfl found
  obtain ⟨answers, exactly⟩ := needs false
  obtain ⟨needed, decided⟩ := answers (.inl known)
  exact ⟨built, rfl, found, signature, receiver, needed, typed, first, decided,
    exactly needed decided⟩

/-- The form that may be nil is given an initializer, and the owned form a deinitializer, whose
receivers the declared methods cover. -/
theorem borrowingClass_unneeded : borrowingClass.Built ∧
    ((borrowingClass.ask .bySize [] (borrowingMethod 0 .init)).1 = .ok (.signature ⟨⟨1, 0⟩⟩) ∧
      ((borrowingClass.ask .bySize [] (borrowingMethod 0 .init)).2.signatures.typed ⟨⟨1, 0⟩⟩).map
        (·.formalTypes.head?) = .ok (some ⟨.constIn, .known ⟨2, 2⟩⟩) ∧
      (borrowingClass.ask .bySize [borrowingMethod 0 .init] (.need (.known ⟨2, 2⟩) .init false)).1 =
        .ok (.decision false)) ∧
    (borrowingClass.ask .bySize [] (borrowingMethod 1 .deinit)).1 = .ok (.signature ⟨⟨1, 0⟩⟩) ∧
      ((borrowingClass.ask .bySize [] (borrowingMethod 1 .deinit)).2.signatures.typed ⟨⟨1, 0⟩⟩).map
        (·.formalTypes.head?) = .ok (some ⟨.constIn, .known ⟨2, 2⟩⟩) ∧
      (borrowingClass.ask .bySize [borrowingMethod 1 .deinit]
        (.need (.known ⟨2, 2⟩) .deinit false)).1 = .ok (.decision false) := by
  refine ⟨Program.built_ofCalls _ _, ⟨?_, ?_, ?_⟩, ?_, ?_, ?_⟩ <;> cbv

end MethodSynthesis
