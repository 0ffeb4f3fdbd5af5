import MethodSynthesis.Proofs.Comparisons
import MethodSynthesis.Proofs.SignatureTrees
import MethodSynthesis.Proofs.UnknownTypes

/-!
# Answers over larger pools

What is interned after a program was built changes no answer about it. Over the pool that the types of the
program live in, and over any later state of the tables of names, types and signatures, the questions
about types have the same answers, faults included, and synthesis builds the same signatures
(`Pools.agree_of_reaches`). Types keep their handles and are compared as they are. A new signature may get
another handle, and so may the class that is borrowed for it; signatures are compared as trees. Types
are written as before, and an error has the text that it had when it arose
(`TypeTables.message_eq_of_reaches`).

An answer over the smaller pool persists (`TypePool.Grows`, `Host.Persistent`), but a fault might turn
into an answer, since the larger pool holds more types. So the questions are shown to have an answer over
a pool without unknown parts. The one question that may still be at fault is whether a method is needed;
there each overload is judged alike over both pools (`Declarations.covers_stable`).
-/

set_option autoImplicit false

namespace MethodSynthesis

/-! ## Pools without unknown parts -/

namespace TypePool

variable {pool pool' : TypePool} {ty actual formal : TypeId} {data target : TypeData}

/-- No part of a stored type is unknown. -/
def PartsKnown (pool : TypePool) : Prop :=
  ∀ {ty data}, pool.read? ty = some data → .unknown ∉ data.components

theorem partsKnown_iff (wf : pool.table.WellFormed) : pool.PartsKnown ↔
    ∀ e ∈ pool.table.entries, .unknown ∉ e.value.components := by
  constructor
  · intro known e mem
    exact known ((read?_known_eq_some_iff wf).2 mem)
  · intro known ty data stored
    cases ty with
    | unknown => exact nomatch stored
    | known handle => exact known _ ((read?_known_eq_some_iff wf).1 stored)

theorem PartsKnown.parentsKnown (known : pool.PartsKnown) : pool.ParentsKnown := by
  intro ty c stored parent
  exact known stored (by simp [TypeData.components, parent])

/-- The parts of a stored type are stored. -/
theorem PartsKnown.read?_part (known : pool.PartsKnown) (wf : pool.WellFormed)
    (stored : pool.read? ty = some data) {part : TypeId} (mem : part ∈ data.components) :
    ∃ data', pool.read? part = some data' := by
  refine (wf.admits_part stored mem).resolve_left ?_
  rintro rfl
  exact known stored mem

/-! ## Judgments of arguments

The parts of a stored type are stored, so `canPass` never comes to a type that it cannot read: not among
the elements of tuples, which are judged in turn, nor at the element of an array that is promoted. -/

theorem exists_passElements {pass : TypeId → TypeId → Except Fault Passing}
    {actuals formals : List TypeId}
    (h : ∀ a ∈ actuals, ∀ f ∈ formals, ∃ result, pass a f = .ok result) :
    ∃ result, passElements pass actuals formals = .ok result := by
  induction actuals generalizing formals with
  | nil => exact ⟨_, rfl⟩
  | cons a actuals ih =>
    cases formals with
    | nil => exact ⟨_, rfl⟩
    | cons f formals =>
      obtain ⟨first, hfirst⟩ := h a List.mem_cons_self f List.mem_cons_self
      obtain ⟨rest, hrest⟩ : ∃ result, passElements pass actuals formals = .ok result :=
        ih fun a' ha' f' hf' => h a' (List.mem_cons_of_mem a ha') f' (List.mem_cons_of_mem f hf')
      rw [passElements, hfirst, ok_bind]
      split
      · exact ⟨_, rfl⟩
      · rw [hrest, ok_bind]
        exact ⟨_, rfl⟩

namespace Sound

variable (sound : pool.Sound) (known : pool.PartsKnown)

include sound known

/-- To pass a type has an outcome. -/
theorem exists_passTypes (stored : pool.read? actual = some data)
    (stored' : pool.read? formal = some target) :
    ∃ result, pool.passTypes actual formal = .ok result := by
  have wf := sound.wellFormed
  -- on the structure of the actual, whose elements are passed if it is a tuple
  refine wf.induction (motive := fun actual => (∃ data, pool.read? actual = some data) →
    ∀ formal target, pool.read? formal = some target →
      ∃ result, pool.passTypes actual formal = .ok result) ?_ ?_ (admits_of_read? stored)
    ⟨data, stored⟩ formal target stored'
  · rintro ⟨data, stored⟩
    exact nomatch stored
  intro actual data stored ih _ formal target stored'
  cases wf.comparison stored stored' with
  | same _ passed => exact ⟨_, passed⟩
  | classes _ _ _ passed =>
    obtain ⟨result, classes, -⟩ := sound.passClasses known.parentsKnown stored stored'
    exact ⟨result, passed.trans classes⟩
  | tuples _ eq eq' _ passed =>
    subst eq eq'
    rw [passed]
    refine exists_passElements fun e he f hf => ?_
    obtain ⟨data', part⟩ := known.read?_part wf stored he
    obtain ⟨target', part'⟩ := known.read?_part wf stored' hf
    exact ih e he ⟨data', part⟩ f target' part'
  | settled _ _ _ _ passed => exact ⟨_, passed⟩

theorem exists_passPromoted {actual formal : Qualified} (stored : pool.read? actual.type = some data)
    (stored' : pool.read? formal.type = some target) :
    ∃ result, pool.passPromoted actual formal = .ok result := by
  rw [passPromoted, read_eq_ok_iff.2 stored, ok_bind]
  cases data with
  | array domain element =>
    dsimp only
    rw [read_eq_ok_iff.2 stored', ok_bind]
    split
    · exact ⟨_, rfl⟩
    · have mem : element ∈ (TypeData.array domain element).components := by simp [TypeData.components]
      obtain ⟨data', part⟩ := known.read?_part sound.wellFormed stored mem
      obtain ⟨result, passed⟩ := sound.exists_passTypes known part stored'
      rw [passed]
      exact ⟨_, rfl⟩
  | _ => exact ⟨_, rfl⟩

/-- Every actual is judged against every formal. -/
theorem exists_canPass {actual formal : Qualified} (ha : pool.Admits actual.type)
    (hf : pool.Admits formal.type) : ∃ outcome, pool.canPass actual formal = .ok outcome := by
  unfold TypePool.canPass
  split
  · exact ⟨_, rfl⟩
  rename_i noUnknown
  rw [Bool.or_eq_true, not_or] at noUnknown
  -- both types are stored from here on
  obtain ⟨data, stored⟩ := ha.resolve_left fun eq => noUnknown.1 (by simp [eq, TypeId.isUnknown])
  obtain ⟨target, stored'⟩ := hf.resolve_left fun eq => noUnknown.2 (by simp [eq, TypeId.isUnknown])
  obtain ⟨result, passed⟩ := sound.exists_passTypes known stored stored'
  split
  · exact ⟨_, rfl⟩
  split
  · rw [passed]
    exact ⟨_, rfl⟩
  split
  · exact ⟨_, rfl⟩
  rw [passed, ok_bind]
  dsimp only
  split
  · exact ⟨_, rfl⟩
  · exact sound.exists_passPromoted known stored stored'

end Sound

/-! ## The written form -/

/-- The written form of a structure depends on its names and parts alone. -/
theorem renderStep_congr {names names' : NameTable} {part part' : TypeId → Except Fault String}
    (text : ∀ n ∈ data.names, names.text n = names'.text n)
    (parts : ∀ ty ∈ data.components, part ty = part' ty) :
    renderStep names data part = renderStep names' data part' := by
  cases data with
  | primitive p => rfl
  | composite c =>
    have substitution : ∀ s ∈ c.substitutions, names.text s.1 = names'.text s.1 ∧
        part s.2 = part' s.2 := by
      intro s mem
      exact ⟨text s.1 (List.mem_cons_of_mem _ (List.mem_map_of_mem mem)),
        parts s.2 (by simp [TypeData.components, List.mem_map_of_mem mem])⟩
    simp only [renderStep, text c.name List.mem_cons_self]
    rw [mapM_congr fun s mem => by rw [(substitution s mem).1, (substitution s mem).2]]
  | tuple elements => rw [renderStep, renderStep, mapM_congr (l := elements) parts]
  | decorated basic decorator => simp only [renderStep, parts basic List.mem_cons_self]
  | array domain element =>
    simp only [renderStep, parts domain (by simp [TypeData.components]),
      parts element (by simp [TypeData.components])]
  | rectangular rank index strided => simp only [renderStep, parts index List.mem_cons_self]
  | associative index parSafe => simp only [renderStep, parts index List.mem_cons_self]
  | cPtr element => simp only [renderStep, parts element List.mem_cons_self]
  | enumeration e => exact text e.name List.mem_cons_self

theorem render_unknown (pool : TypePool) (names : NameTable) :
    pool.render names .unknown = .ok "<none>" :=
  pool.fold_unknown

theorem WellFormed.render_eq (wf : pool.WellFormed) (names : NameTable)
    (stored : pool.read? ty = some data) :
    pool.render names ty = renderStep names data (pool.render names) :=
  wf.fold_eq stored fun _ _ parts => renderStep_congr (fun _ _ => rfl) parts

end TypePool

namespace TypeTables

variable {s t : TypeTables}

/-- A type is written the same way after more has been interned. -/
theorem Extends.render_eq (ext : s.Extends t) (inv : s.Invariant) (inv' : t.Invariant) {ty : TypeId}
    (admitted : s.types.Admits ty) : s.types.render s.names ty = t.types.render t.names ty := by
  have wf := inv.types.wellFormed
  have wf' := inv'.types.wellFormed
  refine wf.induction
    (motive := fun ty => s.types.render s.names ty = t.types.render t.names ty) ?_ ?_ admitted
  · rw [TypePool.render_unknown, TypePool.render_unknown]
  · intro ty data stored ih
    have later := ext.types.read? wf.table wf'.table stored
    rw [wf.render_eq s.names stored, wf'.render_eq t.names later]
    refine TypePool.renderStep_congr ?_ ih
    intro n mem
    have same := text?_extends inv.names inv'.names ext.names (inv.named stored n mem)
    rw [NameTable.text, NameTable.text, same]

/-- What is said of a defect at its time is what is said of it after more has been interned. -/
theorem Extends.defectText_eq (ext : s.Extends t) (inv : s.Invariant) (inv' : t.Invariant)
    {ty : TypeId} (admitted : s.types.Admits ty) {defect : Defect}
    (named : ∀ name, defect = .noGenerator name → (s.names.text? name).isSome) :
    GenerationError.defectText s.names s.types ty defect =
      GenerationError.defectText t.names t.types ty defect := by
  have render := ext.render_eq inv inv' admitted
  cases defect with
  | notComposite method => simp only [GenerationError.defectText, render]
  | noGenerator name =>
    have text := text?_extends inv.names inv'.names ext.names (named name rfl)
    simp only [GenerationError.defectText, render, NameTable.text, text]
  | stated message => rfl

/-- An error has one text from the time of its failure on, whenever it is put into words. -/
theorem message_eq_of_reaches {shards : Sharding} (reached : (start shards).Reaches s)
    (later : s.Reaches t) {e : GenerationError} (admitted : s.types.Admits e.type)
    (named : ∀ name ty, e = .internal (.noGenerator name) ty → (s.names.text? name).isSome) :
    e.message s.names s.types = e.message t.names t.types := by
  obtain ⟨inv, -⟩ := reached.invariant (invariant_start shards)
  obtain ⟨inv', ext⟩ := later.invariant inv
  cases e with
  | unsupported feature ty => rfl
  | internal defect ty =>
    have text : GenerationError.defectText s.names s.types ty defect =
        GenerationError.defectText t.names t.types ty defect :=
      ext.defectText_eq inv inv' admitted fun name eq => named name ty (eq ▸ rfl)
    simp only [GenerationError.message, text]

end TypeTables

/-! ## Questions about declarations

Each question that has an answer over the smaller pool keeps it (`Persists.eq`). -/

namespace TypePool.Grows

variable {pool pool' : TypePool} (g : pool.Grows pool') {ty : TypeId}

include g

/-- To read a type gives the same over both pools: the unknown type has no structure in either. -/
theorem read_eq (admitted : pool.Admits ty) : pool.read ty = pool'.read ty := by
  rcases admitted with rfl | ⟨data, stored⟩
  · rfl
  · exact (g.read ty).eq ⟨data, read_eq_ok_iff.2 stored⟩

theorem kind_eq (admitted : pool.Admits ty) : pool.kind ty = pool'.kind ty := by
  rw [TypePool.kind, TypePool.kind, g.read_eq admitted]

theorem resolveIntent_eq {q : Qualified} (admitted : pool.Admits q.type) :
    pool.resolveIntent q = pool'.resolveIntent q := by
  unfold TypePool.resolveIntent
  rw [g.read_eq admitted]

theorem compositeOf?_eq (sound : pool.Sound) (admitted : pool.Admits ty) :
    pool.compositeOf? ty = pool'.compositeOf? ty := by
  rcases admitted with rfl | ⟨data, stored⟩
  · rfl
  · exact (g.compositeOf? ty).eq ((sound.compositeOf?_spec stored).imp fun _ => And.left)

theorem canPass_eq (sound : pool.Sound) (known : pool.PartsKnown) {actual formal : Qualified}
    (ha : pool.Admits actual.type) (hf : pool.Admits formal.type) :
    pool.canPass actual formal = pool'.canPass actual formal :=
  (g.canPass actual formal).eq (sound.exists_canPass known ha hf)

end TypePool.Grows

namespace Declarations

variable {d : Declarations} {pool pool' : TypePool} {ty : TypeId} {data : TypeData}

/-- A type that is read has fields. -/
theorem exists_fields (sound : pool.Sound) (admitted : d.AdmittedBy pool)
    (stored : pool.read? ty = some data) (policy : DefaultsPolicy) :
    ∃ list, d.fields pool policy ty = .ok list := by
  by_cases composite : ∃ c, pool.HasComposite ty c
  · obtain ⟨c, hc⟩ := composite
    exact ⟨_, fields_eq_ok sound.wellFormed admitted hc.compositeOf?_eq_ok policy⟩
  · exact ⟨_, fields_of_none sound stored (not_exists.1 composite) policy⟩

/-- Nothing is drafted for the unknown type. -/
theorem draftMethod_unknown (name : Name) :
    (d.host.draftMethod pool .unknown name).run = .error (.missingType .unknown) := by
  unfold Host.draftMethod
  split
  · rfl
  split
  · rfl
  split
  · rfl
  · rfl

/-- A method of a type has a draft, or a reason why it has none. -/
theorem exists_draftMethod (sound : pool.Sound) (admitted : d.AdmittedBy pool)
    (stored : pool.read? ty = some data) (name : Name) :
    ∃ made, (d.host.draftMethod pool ty name).run = .ok made := by
  -- lifecycle methods ask for a composite, any other name for a kind of type that has the method
  by_cases lifecycle : name.isLifecycleMethod = true
  · obtain ⟨method, lifecycle⟩ := Name.isLifecycleMethod_iff.1 lifecycle
    by_cases composite : ∃ c, pool.HasComposite ty c
    · obtain ⟨c, hc⟩ := composite
      obtain ⟨basic, found⟩ := TypePool.hasComposite_iff.1 hc
      cases lifecycle with
      | init =>
        obtain ⟨c', generic, -⟩ := sound.read?_genericForm found
        obtain ⟨g, hg, -⟩ :=
          genericity_spec sound.wellFormed admitted (TypePool.admits_of_read? generic)
        exact (draftInit_outcome sound admitted found hg).imp fun _ => And.left
      | initCopy => exact ⟨_, TypePool.draftInitCopy_eq _ found⟩
      | deinit => exact ⟨_, TypePool.draftDeinit_eq _ found⟩
    · exact ⟨_, sound.draftMethod_of_none _ stored (not_exists.1 composite) lifecycle⟩
  · rw [TypePool.draftMethod_eq _ (by simpa using lifecycle), TypePool.read_eq_ok_iff.2 stored,
      ok_bind]
    split
    · exact ⟨_, rfl⟩
    split
    · rename_i operator
      obtain ⟨c, rfl, -⟩ := TypeData.kind_eq_record_iff.1 operator.1
      obtain ⟨g, hg, -⟩ :=
        genericity_spec sound.wellFormed admitted (TypePool.admits_of_read? stored)
      rw [TypePool.draftRecordOperator_eq _ stored,
        show d.host.genericity pool ty = .ok g from hg]
      exact ⟨_, rfl⟩
    · exact ⟨_, rfl⟩

section Growth

variable (g : pool.Grows pool') (sound : pool.Sound) (admitted : d.AdmittedBy pool)

include g sound admitted

theorem genericity_stable (ha : pool.Admits ty) : d.genericity pool ty = d.genericity pool' ty :=
  (d.genericity_persists g ty).eq
    ((genericity_spec sound.wellFormed admitted ha).imp fun _ => And.left)

theorem isDefaultInitializable_stable (ha : pool.Admits ty) :
    d.isDefaultInitializable pool ty = d.isDefaultInitializable pool' ty :=
  (d.isDefaultInitializable_persists g ty).eq
    ((isDefaultInitializable_spec sound.wellFormed admitted ha).imp fun _ => And.left)

theorem fields_stable (ha : pool.Admits ty) (policy : DefaultsPolicy) :
    d.fields pool policy ty = d.fields pool' policy ty := by
  rcases ha with rfl | ⟨data, stored⟩
  · rfl
  · exact (d.fields_persists g policy ty).eq (exists_fields sound admitted stored policy)

/-- Over both pools an overload covers a type, or does not, or cannot be judged. -/
theorem covers_stable (known : pool.PartsKnown) (ha : pool.Admits ty) (id : DeclId) :
    d.host.covers pool ty id = d.host.covers pool' ty id := by
  by_cases found : ∃ formal, d.OverloadReceiver id formal
  · obtain ⟨formal, overload⟩ := found
    have received := overload.admits admitted
    rw [covers_eq overload, covers_eq overload, ← g.resolveIntent_eq received]
    cases resolved : pool.resolveIntent formal.type with
    -- a receiver of unknown type without an intent is at fault over every pool
    | error fault => rfl
    | ok receiver =>
      have type : receiver.type = formal.type.type := TypePool.type_of_resolveIntent resolved
      rw [ok_bind, ok_bind, g.canPass_eq sound known ha (type ▸ received)]
  · rw [covers_eq_false (not_exists.1 found), covers_eq_false (not_exists.1 found)]

/-- The need for a method is decided alike. Which overloads are in sight does not depend on the pool. -/
theorem needsMethod_stable (known : pool.PartsKnown) (ha : pool.Admits ty) (name : Name)
    (parenless : Bool) : d.host.needsMethod pool ty name parenless =
      d.host.needsMethod pool' ty name parenless := by
  have shadowed : d.host.isShadowed pool ty name = d.host.isShadowed pool' ty name := by
    rw [Host.isShadowed, Host.isShadowed, ← g.compositeOf?_eq sound ha]
    refine bind_congr fun comp => ?_
    cases comp with
    | none => rfl
    | some comp =>
      dsimp only
      cases d.host.scope? comp.decl with
      | none => rfl
      | some scope =>
        refine bind_congr fun decls => ?_
        exact anyM_congr fun id _ => covers_stable g sound admitted known ha id
  rw [Host.needsMethod, Host.needsMethod, g.kind_eq ha, shadowed]

theorem draftMethod_stable (ha : pool.Admits ty) (name : Name) :
    (d.host.draftMethod pool ty name).run = (d.host.draftMethod pool' ty name).run := by
  rcases ha with rfl | ⟨data, stored⟩
  · rw [draftMethod_unknown, draftMethod_unknown]
  · exact ((d.host_persistent g).draftMethod g ty name).eq
      (exists_draftMethod sound admitted stored name)

omit admitted in
theorem draftAccessor_stable (ha : pool.Admits ty) (field : Name) :
    d.host.draftAccessor pool ty field = d.host.draftAccessor pool' ty field := by
  rcases ha with rfl | ⟨data, stored⟩
  · rfl
  · exact ((d.host_persistent g).draftAccessor g ty field).eq
      (exists_draftAccessor sound stored field)

end Growth

end Declarations

/-! ## Growing pools -/

/-- The tables that a client shares: names and types, and the signatures over them. -/
structure Pools where
  tables : TypeTables
  signatures : SignaturePool

namespace Pools

/-- Nothing is interned yet. -/
def start (shards : Sharding) : Pools := ⟨.start shards, .empty shards⟩

/-- A client interns a string, makes a type, or interns an untyped or a typed signature. -/
inductive Step : Pools → Pools → Prop
  | tables {s t : TypeTables} (signatures : SignaturePool) :
      s.Step t → Step ⟨s, signatures⟩ ⟨t, signatures⟩
  | untyped (p : Pools) (shape : UntypedSignature) :
      Step p { p with signatures := (p.signatures.internUntyped shape).2 }
  | typed (p : Pools) (signature : TypedSignature) :
      Step p { p with signatures := (p.signatures.internTyped signature).2 }

/-- Any number of steps. -/
def Reaches : Pools → Pools → Prop := Relation.ReflTransGen Step

/-- The types. -/
def types (p : Pools) : TypePool := p.tables.types

/-- The names. -/
def names (p : Pools) : NameTable := p.tables.names

/-- The session over the tables that has the given declarations and answers. -/
def session (p : Pools) (d : Declarations) (memo : MemoTables) : Session :=
  ⟨⟨p.names, p.types, d⟩, p.signatures, memo⟩

/-- Every question about types of the first tables is answered alike over both, and the same signatures
are built, whatever was asked before. -/
structure Agree (d : Declarations) (p q : Pools) : Prop where
  canPass : ∀ actual formal : Qualified, p.types.Admits actual.type → p.types.Admits formal.type →
    p.types.canPass actual formal = q.types.canPass actual formal
  render : ∀ ty, p.types.Admits ty → p.types.render p.names ty = q.types.render q.names ty
  genericity : ∀ ty, p.types.Admits ty → d.genericity p.types ty = d.genericity q.types ty
  isDefaultInitializable : ∀ ty, p.types.Admits ty →
    d.isDefaultInitializable p.types ty = d.isDefaultInitializable q.types ty
  fields : ∀ ty policy, p.types.Admits ty → d.fields p.types policy ty = d.fields q.types policy ty
  needsMethod : ∀ ty name parenless, p.types.Admits ty →
    d.host.needsMethod p.types ty name parenless = d.host.needsMethod q.types ty name parenless
  method : ∀ ty name memo memo', p.types.Admits ty →
    (Reply.ofMethod <$> Session.synthesize d.host ty name true).treeAnswer (p.session d memo) =
      (Reply.ofMethod <$> Session.synthesize d.host ty name true).treeAnswer (q.session d memo')
  accessor : ∀ ty field memo memo', p.types.Admits ty →
    (Reply.ofOption <$> Session.accessorAfresh d.host ty field).treeAnswer (p.session d memo) =
      (Reply.ofOption <$> Session.accessorAfresh d.host ty field).treeAnswer (q.session d memo')

variable {p q : Pools}

/-- A run on all tables is a run on names and types, and keeps the signatures in order. -/
theorem Reaches.tables (reaches : Reaches p q) (wf : p.signatures.WellFormed) :
    p.tables.Reaches q.tables ∧ q.signatures.WellFormed := by
  induction reaches with
  | refl => exact ⟨.refl, wf⟩
  | tail _ step ih =>
    obtain ⟨reached, wf⟩ := ih
    cases step with
    | tables signatures step => exact ⟨.tail reached step, wf⟩
    | untyped _ shape => exact ⟨reached, (SignaturePool.grows_internUntyped wf shape).after⟩
    | typed _ signature => exact ⟨reached, (SignaturePool.grows_internTyped wf signature).after⟩

section Settled

variable {β : Type} {query : Query β} {encode : β → Reply SigId} {d : Declarations}
  {drafted : TypePool → Except Fault (Reply Draft)}

/-- A query answers alike over both tables if it drafts the same over both, from types of the first. -/
theorem treeAnswer_eq (settles : query.Settles encode drafted) (inv : p.tables.Invariant)
    (inv' : q.tables.Invariant) (ext : p.tables.Extends q.tables) (wf : p.signatures.WellFormed)
    (wf' : q.signatures.WellFormed) (same : drafted p.types = drafted q.types)
    (admitted : ∀ draft, drafted p.types = .ok (.signature draft) → draft.Admitted p.types)
    (memo memo' : MemoTables) : (encode <$> query).treeAnswer (p.session d memo) =
      (encode <$> query).treeAnswer (q.session d memo') := by
  have g : p.types.Grows q.types := ⟨inv.types.wellFormed, inv'.types.wellFormed, ext.types⟩
  have admitted' : ∀ draft, drafted q.types = .ok (.signature draft) → draft.Admitted q.types :=
    fun draft h => (admitted draft (same.trans h)).grows g
  rw [settles.treeAnswer_eq (s := p.session d memo) g.before wf admitted,
    settles.treeAnswer_eq (s := q.session d memo') g.after wf' admitted']
  show (drafted p.types).map _ = (drafted q.types).map _
  rw [← same]
  cases h : drafted p.types with
  | error fault => rfl
  | ok reply =>
    cases reply with
    | signature draft =>
      -- one draft, and its tree is the same whichever tables its types are unfolded in
      have tree := (admitted draft h).tree_congr fun ty ha => ext.tree_eq inv inv' ha
      exact congrArg (Except.ok ∘ Reply.signature) tree
    | _ => rfl

end Settled

/-- What is interned later changes no answer about the types there were, and no signature that is built
for them, if no type has an unknown part and the declarations mention only types that there were. -/
theorem agree_of_reaches {shards : Sharding} (d : Declarations)
    (reached : (start shards).Reaches p) (later : p.Reaches q) (known : p.types.PartsKnown)
    (admitted : d.AdmittedBy p.types) : Agree d p q := by
  obtain ⟨tables, wf⟩ := reached.tables (SignaturePool.wellFormed_empty shards)
  obtain ⟨tables', wf'⟩ := later.tables wf
  obtain ⟨inv, -⟩ := tables.invariant (TypeTables.invariant_start shards)
  obtain ⟨inv', ext⟩ := tables'.invariant inv
  have sound : p.types.Sound := inv.types
  have g : p.types.Grows q.types := ⟨sound.wellFormed, inv'.types.wellFormed, ext.types⟩
  refine ⟨fun actual formal => g.canPass_eq sound known, fun ty => ext.render_eq inv inv',
    fun ty => Declarations.genericity_stable g sound admitted,
    fun ty => Declarations.isDefaultInitializable_stable g sound admitted,
    fun ty policy ha => Declarations.fields_stable g sound admitted ha policy,
    fun ty name parenless ha =>
      Declarations.needsMethod_stable g sound admitted known ha name parenless, ?_, ?_⟩
  · intro ty name memo memo' ha
    refine treeAnswer_eq (settles_synthesize d.host ty name true) inv inv' ext wf wf' ?_ ?_
      memo memo'
    · dsimp only [Call.draftSynthesis]
      rw [Declarations.draftMethod_stable g sound admitted ha name]
    · intro draft h
      have drafted := sound.draftMethod_eq_ok_iff.1 (Call.draftSynthesis_eq_signature h).2
      exact drafted.admitted sound admitted
  · intro ty field memo memo' ha
    cases isUnknown : ty.isUnknown with
    | true =>
      obtain rfl := eq_unknown_of_isUnknown isUnknown
      rfl
    | false =>
      refine treeAnswer_eq (settles_accessorAfresh d.host isUnknown field) inv inv' ext wf wf' ?_ ?_
        memo memo'
      · rw [Call.draft_accessor_eq isUnknown, Call.draft_accessor_eq isUnknown,
          Declarations.draftAccessor_stable g sound ha field]
      · intro draft h
        rw [Call.draft_accessor_eq isUnknown] at h
        obtain ⟨found, hfound, eq⟩ := bind_eq_ok.1 h
        rw [Reply.eq_some_of_ofOption (Except.ok.inj eq)] at hfound
        exact (TypePool.draftAccessor_eq_ok_iff.1 hfound).admitted

/-- A class with a field. -/
def fieldClass : Program :=
  .ofCalls .bySize [.module "M" none, .composite (.at 0) "C" .classType none,
    .field (.known ⟨1, 0⟩) "x" (.var .int)]

/-- The names of the module and the class. -/
def declaredNames : NameTable :=
  (((NameTable.empty Sharding.bySize.names).intern "M").2.intern "C").2

/-- The tables of the class. -/
def fieldClassPools : Pools where
  tables := ⟨fieldClass.names, fieldClass.types, [.known ⟨1, 0⟩]⟩
  signatures := .empty .bySize

/-- These tables after a string, the class as owned and an untyped signature were interned. -/
def laterPools : Pools where
  tables :=
    ⟨(fieldClass.names.intern "next").2,
      (fieldClass.types.intern (.decorated (.known ⟨1, 0⟩) .ownedNonNil)).2,
      [.known ⟨2, 0⟩, .known ⟨1, 0⟩]⟩
  signatures := ((SignaturePool.empty .bySize).internUntyped
    ⟨.absent, .deinit, true, false, false, false, .classType, .procedure, []⟩).2

/-- The types of the initializer of the class that is built over the tables. -/
def initializerTypes (p : Pools) : Except Fault (List Qualified) := do
  let (answer, s) := (Session.synthesize fieldClass.decls.host (.known ⟨1, 0⟩) .init true).exec
    (p.session fieldClass.decls .empty)
  match ← answer with
  | .ok (some id) => return (← s.signatures.typed id).formalTypes
  | _ => return []

/-- The borrowed class gets another handle in the later tables, where it was interned as owned before. -/
example : initializerTypes fieldClassPools = .ok [⟨.constIn, .known ⟨2, 0⟩⟩, ⟨.copyIn, .int⟩] ∧
    initializerTypes laterPools = .ok [⟨.constIn, .known ⟨2, 1⟩⟩, ⟨.copyIn, .int⟩] := by
  decide +kernel

/-- The class has its answers and signatures in the later tables too. -/
theorem fieldClass_agree : (start .bySize).Reaches fieldClassPools ∧
    fieldClassPools.Reaches laterPools ∧ fieldClassPools.types.PartsKnown ∧
    fieldClass.decls.AdmittedBy fieldClassPools.types ∧
      Agree fieldClass.decls fieldClassPools laterPools := by
  have built : fieldClass.Built := Program.built_ofCalls _ _
  have made : TypeTables.Step ⟨declaredNames, .empty Sharding.bySize.types, []⟩
      ⟨declaredNames, fieldClass.types, [.known ⟨1, 0⟩]⟩ :=
    .type (.basicClass (.at 1) ⟨⟨2, 1⟩⟩ none) _ _ (fun _ mem => nomatch mem) (by decide +kernel) rfl
  have reached : (start .bySize).Reaches fieldClassPools :=
    .tail (.tail (.tail (.single (.tables _ (.name _ "M"))) (.tables _ (.name _ "C")))
      (.tables _ made)) (.tables _ (.name _ "x"))
  have owned : TypeTables.Step
      ⟨(fieldClass.names.intern "next").2, fieldClass.types, [.known ⟨1, 0⟩]⟩ laterPools.tables := by
    refine .type (.decorate (.known ⟨1, 0⟩) .ownedNonNil) _ _ ?_ (fun _ mem => nomatch mem) rfl
    intro arg mem
    obtain rfl : arg = .known ⟨1, 0⟩ := by simpa [TypeCall.arguments] using mem
    exact .inr (.inr List.mem_cons_self)
  have later : fieldClassPools.Reaches laterPools :=
    .tail (.tail (.single (.tables _ (.name _ "next"))) (.tables _ owned)) (.untyped _ _)
  have known : fieldClassPools.types.PartsKnown :=
    (TypePool.partsKnown_iff built.wellFormed.types.wellFormed.table).2 (by decide +kernel)
  have admitted : fieldClass.decls.AdmittedBy fieldClassPools.types :=
    built.wellFormed.decls.admitted
  exact ⟨reached, later, known, admitted, agree_of_reaches _ reached later known admitted⟩

end Pools

end MethodSynthesis
