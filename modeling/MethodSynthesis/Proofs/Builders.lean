import MethodSynthesis.Proofs.Classification
import MethodSynthesis.Proofs.Footprint
import MethodSynthesis.Synthesis.Builders

/-!
# Building is drafting and storing

A builder of signatures reads and stores by turns. What it gives and what it leaves in the pools is
what storing the draft of the signature gives and leaves (`Building.Gives`). A builder begins with
the steps of drafting, which change nothing and are taken on both sides together (`gives_view_bind`,
`gives_look_bind`). Only the receiver is stored before the builder is done (`gives_receiver_bind`).
What is read after it is read as it was before, since answers persist in a growing pool
(`exec_foldlM_pushField`), and the collected formals are at the end those of the draft, as they are
stored (`exec_finish`).

So over every session that can be reached, a query that is answered afresh may as well build its
signature as draft and store it (`Session.Reached.askAfresh_eq_build`).
-/

set_option autoImplicit false

namespace MethodSynthesis

namespace Building

variable {α β : Type}

/-- What building comes to over a session, and the session afterwards. -/
def exec (b : Building α) (s : Session) : Except Fault (Except GenerationError α) × Session :=
  Query.exec b.run s

theorem exec_bind (b : Building α) (f : α → Building β) (s : Session) :
    (b >>= f).exec s = match b.exec s with
      | (.ok (.ok a), s') => (f a).exec s'
      | (.ok (.error e), s') => (.ok (.error e), s')
      | (.error fault, s') => (.error fault, s') := by
  show Query.exec (b.run >>= _) s = _
  rw [Query.exec_bind]
  rcases eq : b.exec s with ⟨fault | (e | a), s'⟩
  · rw [show Query.exec b.run s = _ from eq]
  · rw [show Query.exec b.run s = _ from eq]
    rfl
  · rw [show Query.exec b.run s = _ from eq]
    rfl

theorem exec_look (answer : TypePool → Drafting α) (s : Session) :
    (look answer).exec s = ((answer s.program.types).run, s) :=
  Query.exec_read _ s

theorem exec_view (answer : TypePool → Except Fault α) (s : Session) :
    (view answer).exec s = ((answer s.program.types).map .ok, s) := by
  rw [view, exec_look, run_draft_lift]
  cases answer s.program.types <;> rfl

/-- A step with a known answer is passed over. -/
theorem exec_view_bind {answer : TypePool → Except Fault α} {f : α → Building β} {s : Session}
    {a : α} (found : answer s.program.types = .ok a) :
    (view answer >>= f).exec s = (f a).exec s := by
  rw [exec_bind, exec_view, found]
  rfl

end Building

/-- The session over another pool of types. -/
def Session.withTypes (s : Session) (types : TypePool) : Session :=
  { s with program := { s.program with types } }

/-- The draft of a signature with this header. -/
def Header.draft (header : Header) (formals : List DraftFormal) (needsInstantiation : Bool) :
    Draft :=
  ⟨header.owner, header.name, header.isMethod, header.ownerKind, header.kind, formals,
    needsInstantiation⟩

/-- The parts that drafted formals come to, when their types are stored in order. -/
def Parts.ofDrafted (pool : TypePool) (formals : List DraftFormal) : Parts :=
  ⟨formals.map (·.formal), (DraftFormal.storeTypes pool formals).1⟩

theorem Parts.ofDrafted_receiver (pool : TypePool) (c : Composite) (form : TypeId)
    (rest : List DraftFormal) :
    ofDrafted pool (c.receiver form :: rest) =
      ⟨⟨.receiver, false, .absent⟩ :: rest.map (·.formal),
        ⟨(c.receiver form).binding, ((c.receiver form).type.store pool).1⟩ ::
          (DraftFormal.storeTypes ((c.receiver form).type.store pool).2 rest).1⟩ := by
  rw [ofDrafted, List.map_cons, ← Composite.plain_receiver]
  rfl

namespace Building

variable {α : Type}

theorem exec_borrowedNonNil {s : Session} {form : TypeId} {c : Composite}
    (stored : s.program.types.read? form = some (.composite c)) (class? : c.kind = .classType) :
    (borrowedNonNil form).exec s =
      (.ok (.ok (s.program.types.intern (.decorated form .borrowedNonNil)).1),
        s.withTypes (s.program.types.intern (.decorated form .borrowedNonNil)).2) := by
  have decorated : s.program.types.decorate form .borrowedNonNil =
      .ok (s.program.types.intern (.decorated form .borrowedNonNil)) := by
    rw [TypePool.decorate, TypePool.basicClass?_eq_ok stored, TypeData.basicClass?, if_pos class?]
    rfl
  rw [borrowedNonNil, exec_view_bind decorated]
  rfl

/-- The receiver of a form of a composite: its type is stored as the drafted one is. -/
theorem exec_lifecycleReceiver {s : Session} {form : TypeId} {c c' : Composite}
    (stored : s.program.types.read? form = some (.composite c')) (kind : c'.kind = c.kind) :
    (lifecycleReceiver form).exec s =
      (.ok (.ok ⟨(c.receiver form).binding,
          ((c.receiver form).type.store s.program.types).1⟩),
        s.withTypes ((c.receiver form).type.store s.program.types).2) := by
  have isClass : s.program.types.isClass form = .ok (decide (c.kind = .classType)) := by
    rw [TypePool.isClass_eq_ok stored, TypePool.isClass_composite, kind]
  rw [lifecycleReceiver, exec_view_bind isClass, exec_view_bind isClass]
  by_cases class? : c.kind = .classType
  · have received : c.receiver form = .plain .receiver .constIn (.borrowed form) := if_pos class?
    simp only [class?, decide_true, if_true]
    rw [exec_bind, exec_borrowedNonNil stored (kind.trans class?), received]
    rfl
  · have received : c.receiver form = .plain .receiver .ref (.given form) := if_neg class?
    simp only [class?, decide_false, received]
    rfl

/-! ## What building gives -/

/-- The reply for what building comes to. -/
def replyOf (encode : α → Reply SigId) : Except GenerationError α → Reply SigId
  | .error e => .failure e
  | .ok a => encode a

/-- Over the session, building gives what is drafted, with what has to be stored for it. -/
def Gives (b : Building α) (encode : α → Reply SigId) (drafted : Except Fault (Reply Draft))
    (s : Session) : Prop :=
  ((b.exec s).1.map (replyOf encode), (b.exec s).2) = s.settle drafted

section Gives

variable {γ : Type} {encode : α → Reply SigId} {s : Session}

/-- A step that only reads is taken on both sides. -/
theorem gives_view_bind {δ : Type} {answer : TypePool → Except Fault γ} {f : γ → Building α}
    {g : γ → Except Fault δ} {reply : δ → Reply Draft}
    (next : ∀ a, answer s.program.types = .ok a → (f a).Gives encode ((g a).map reply) s) :
    (view answer >>= f).Gives encode ((answer s.program.types >>= g).map reply) s := by
  rw [Gives, exec_bind, exec_view]
  cases found : answer s.program.types with
  | error fault => rfl
  | ok a => exact next a found

/-- So is a step of drafting. -/
theorem gives_look_bind {answer : TypePool → Drafting γ} {f : γ → Building SigId}
    {g : γ → Drafting Draft}
    (next : ∀ a, (answer s.program.types).run = .ok (.ok a) →
      (f a).Gives .signature ((g a).run.map .ofDrafted) s) :
    (look answer >>= f).Gives .signature ((answer s.program.types >>= g).run.map .ofDrafted) s := by
  rw [Gives, exec_bind, exec_look, run_draft_bind]
  rcases found : (answer s.program.types).run with fault | (e | a)
  · rfl
  · rfl
  · exact next a found

/-- A step whose answer is known need not stand on the other side. -/
theorem gives_view_bind_of_eq_ok {answer : TypePool → Except Fault γ} {f : γ → Building α} {a : γ}
    {drafted : Except Fault (Reply Draft)} (found : answer s.program.types = .ok a)
    (next : (f a).Gives encode drafted s) : (view answer >>= f).Gives encode drafted s := by
  rw [Gives, exec_view_bind found]
  exact next

end Gives

/-! ## Collected formals -/

section Finishing

variable {s : Session} (header : Header) {formals : List DraftFormal} {needs : Bool}

/-- The formals of a draft were collected, and their types are stored: then the signature is
stored. -/
theorem exec_finish (s : Session) (formals : List DraftFormal) (needs : Bool) :
    (finish header (.ofDrafted s.program.types formals) needs).exec
        (s.withTypes (DraftFormal.storeTypes s.program.types formals).2) =
      (.ok (.ok (s.stored (header.draft formals needs)).1),
        (s.stored (header.draft formals needs)).2) :=
  rfl

/-- Formals of given types leave the pool as it is. -/
theorem gives_finish (formals : List DraftFormal) (needs : Bool)
    (given : ∀ formal ∈ formals, ∀ basic, formal.type ≠ .borrowed basic) :
    (finish header (.ofDrafted s.program.types formals) needs).Gives .signature
      (.ok (.signature (header.draft formals needs))) s := by
  have run := exec_finish header s formals needs
  rw [DraftFormal.storeTypes_of_not_borrowed given] at run
  rw [Gives, show (finish header (.ofDrafted s.program.types formals) needs).exec s = _ from run]
  rfl

/-- A lifecycle method stores its receiver, and then nothing more up to the signature. -/
theorem gives_receiver_bind {form : TypeId} {c c' : Composite} {rest : List DraftFormal}
    {f : Qualified → Building SigId}
    (stored : s.program.types.read? form = some (.composite c')) (kind : c'.kind = c.kind)
    (settled : (DraftFormal.storeTypes ((c.receiver form).type.store s.program.types).2 rest).2 =
      ((c.receiver form).type.store s.program.types).2)
    (next : (f ⟨(c.receiver form).binding, ((c.receiver form).type.store s.program.types).1⟩).exec
        (s.withTypes ((c.receiver form).type.store s.program.types).2) =
      (finish header (.ofDrafted s.program.types (c.receiver form :: rest)) needs).exec
        (s.withTypes ((c.receiver form).type.store s.program.types).2)) :
    (lifecycleReceiver form >>= f).Gives .signature
      (.ok (.signature (header.draft (c.receiver form :: rest) needs))) s := by
  have run := exec_finish header s (c.receiver form :: rest) needs
  rw [DraftFormal.storeTypes] at run
  dsimp only at run
  rw [settled] at run
  rw [Gives, exec_bind, exec_lifecycleReceiver stored kind]
  dsimp only
  rw [next, run]
  rfl

end Finishing

end Building

/-! ## Methods -/

namespace Host

open Building

variable {s : Session} {ty basic : TypeId} {c : Composite}

/-- A field is given the formal that is drafted for it, also over a pool that has grown. -/
theorem exec_pushField {host : Host} {pool : TypePool} {field : ResolvedField}
    {formal : DraftFormal} (persistent : host.Persistent pool s.program.types)
    (drafted : host.initFormal pool field = .ok formal) (parts : Parts) :
    (host.pushField parts field).exec s = (.ok (.ok (parts.push formal.formal
      ⟨formal.binding, (formal.type.store s.program.types).1⟩)), s) := by
  obtain ⟨hasDefault, asked, rfl⟩ := initFormal_eq_ok drafted
  obtain ⟨given, rfl⟩ | ⟨none, answer⟩ := asked
  · rw [pushField, given, if_pos rfl]
    cases field.type.binding.isTypeOrParam <;> rfl
  · rw [pushField, none, if_neg Bool.false_ne_true,
      exec_view_bind (persistent.isDefaultInitializable _ _ answer)]
    cases field.type.binding.isTypeOrParam <;> rfl

/-- The formals of all fields come after those that are there, and nothing is stored for them. -/
theorem exec_foldlM_pushField {host : Host} {pool : TypePool} {fields : List ResolvedField}
    {formals : List DraftFormal} (persistent : host.Persistent pool s.program.types)
    (drafted : fields.mapM (host.initFormal pool) = .ok formals) (parts : Parts) :
    (fields.foldlM host.pushField parts).exec s =
      (.ok (.ok ⟨parts.formals ++ formals.map (·.formal),
        parts.types ++ (DraftFormal.storeTypes s.program.types formals).1⟩), s) := by
  induction fields generalizing formals parts with
  | nil =>
    obtain rfl : [] = formals := Except.ok.inj drafted
    simp only [List.map_nil, DraftFormal.storeTypes, List.append_nil]
    rfl
  | cons field fields ih =>
    rw [List.mapM_cons] at drafted
    obtain ⟨first, hfirst, drafted⟩ := bind_eq_ok.1 drafted
    obtain ⟨rest, hrest, drafted⟩ := bind_eq_ok.1 drafted
    obtain rfl := Except.ok.inj drafted
    obtain ⟨_, -, eq⟩ := initFormal_eq_ok hfirst
    rw [List.foldlM_cons, exec_bind, exec_pushField persistent hfirst]
    dsimp only
    rw [ih hrest]
    subst eq
    simp [Parts.push, DraftFormal.storeTypes, DraftType.store]

/-- The default initializer stores the borrowed form before it asks for the defaults of the
fields. -/
theorem gives_buildInit {d : Declarations} (sound : s.program.types.Sound)
    (admitted : d.AdmittedBy s.program.types) (ty : TypeId) :
    (d.host.buildInit ty).Gives .signature
      ((d.host.draftInit s.program.types ty).run.map .ofDrafted) s := by
  refine gives_look_bind ?_
  rintro ⟨basic, c⟩ parts
  have found := TypePool.compositeParts_eq_ok_iff.1 parts
  have drafted := sound.draftInit_eq d.host found
  rw [Host.draftInit, run_draft_bind, parts, ok_bind] at drafted
  dsimp only at drafted ⊢
  rw [drafted]
  refine gives_view_bind_of_eq_ok (TypePool.genericRoot_eq_ok found.1) ?_
  refine gives_view_bind fun fields hfields => ?_
  split
  · rfl
  rename_i closed
  split
  · rfl
  have wf := sound.wellFormed
  obtain ⟨c', stored, kind⟩ := sound.read?_genericForm found
  -- the fields are of types that the pool has, so each of them is drafted as a formal
  obtain ⟨g, hg, -⟩ := Declarations.genericity_spec wf admitted (TypePool.admits_of_read? stored)
  obtain ⟨list, hlist, -, types⟩ := Declarations.fields_of_genericity wf admitted stored hg
  obtain rfl := Except.ok.inj (hlist.symm.trans hfields)
  obtain ⟨formals, hformals⟩ := Declarations.exists_initFormals wf admitted types
  rw [hformals, ok_bind]
  have given : ∀ formal ∈ formals, ∀ basic, formal.type ≠ .borrowed basic := by
    intro formal mem basic borrowed
    obtain ⟨field, -, type⟩ := given_of_mem_initFormals hformals mem
    cases type.symm.trans borrowed
  -- the defaults of the fields are asked for over the pool that has the borrowed form as well
  have grows := (DraftType.grows_store wf (wf.grounded_lifecycleReceiver
    (TypePool.lifecycleReceiver_eq_ok stored kind))).1
  refine gives_receiver_bind ⟨c.decl, .init, true, d.host.ownerKind c, .procedure⟩ stored kind
    (DraftFormal.storeTypes_of_not_borrowed given) ?_
  rw [exec_bind, exec_foldlM_pushField (d.host_persistent grows) hformals,
    Bool.eq_false_of_not_eq_true closed, Parts.ofDrafted_receiver]
  rfl

/-- The receiver is of the undecorated form, which is the type itself unless the type is a class. -/
theorem gives_basicOrInstance_bind (found : s.program.types.IsFormOf ty basic c)
    {f : TypeId → Building SigId} {drafted : Except Fault (Reply Draft)}
    (next : (f basic).Gives .signature drafted s) :
    (basicOrInstance ty basic >>= f).Gives .signature drafted s := by
  have run : (basicOrInstance ty basic).exec s = (.ok (.ok basic), s) := by
    obtain ⟨stored, rfl | ⟨decorator, decorated⟩⟩ := found
    · rw [basicOrInstance, exec_view_bind (TypePool.isClass_eq_ok stored)]
      cases (TypeData.composite c).kind.isClass <;> rfl
    · rw [basicOrInstance, exec_view_bind (TypePool.isClass_eq_ok decorated)]
      rfl
  rw [Gives, exec_bind, run]
  exact next

/-- The borrowed form is stored once, for both formals. -/
theorem gives_buildInitCopy (host : Host) (wf : s.program.types.WellFormed) (ty : TypeId) :
    (host.buildInitCopy ty).Gives .signature
      ((host.draftInitCopy s.program.types ty).run.map .ofDrafted) s := by
  refine gives_look_bind ?_
  rintro ⟨basic, c⟩ parts
  have found := TypePool.compositeParts_eq_ok_iff.1 parts
  have drafted := TypePool.draftInitCopy_eq host found
  rw [Host.draftInitCopy, run_draft_bind, parts, ok_bind] at drafted
  dsimp only at drafted ⊢
  rw [drafted]
  -- the second formal is of the type that was stored for the receiver
  have again : (c.receiver basic).type.store ((c.receiver basic).type.store s.program.types).2 =
      (c.receiver basic).type.store s.program.types := by
    obtain ⟨grows, stored⟩ := DraftType.grows_store wf (wf.grounded_lifecycleReceiver
      (TypePool.lifecycleReceiver_eq_ok found.1 rfl))
    exact stored.store_eq grows.after
  have other : DraftFormal.storeTypes ((c.receiver basic).type.store s.program.types).2
      [.plain .other .constRef (c.receiver basic).type] =
        ([⟨.constRef, ((c.receiver basic).type.store s.program.types).1⟩],
          ((c.receiver basic).type.store s.program.types).2) := by
    simp only [DraftFormal.storeTypes, DraftFormal.plain, again]
  refine gives_basicOrInstance_bind found ?_
  refine gives_receiver_bind ⟨c.decl, .initCopy, true, host.ownerKind c, .procedure⟩ found.1 rfl
    (congrArg Prod.snd other) ?_
  rw [Parts.ofDrafted_receiver, other]
  rfl

theorem gives_buildDeinit (host : Host) (ty : TypeId) :
    (host.buildDeinit ty).Gives .signature
      ((host.draftDeinit s.program.types ty).run.map .ofDrafted) s := by
  refine gives_look_bind ?_
  rintro ⟨basic, c⟩ parts
  have found := TypePool.compositeParts_eq_ok_iff.1 parts
  have drafted := TypePool.draftDeinit_eq host found
  rw [Host.draftDeinit, run_draft_bind, parts, ok_bind] at drafted
  dsimp only at drafted ⊢
  rw [drafted]
  refine gives_basicOrInstance_bind found ?_
  refine gives_receiver_bind ⟨c.decl, .deinit, true, host.ownerKind c, .procedure⟩ found.1 rfl
    rfl ?_
  rw [Parts.ofDrafted_receiver]
  rfl

theorem gives_buildRecordOperator (host : Host) (ty : TypeId) (name : Name) :
    (host.buildRecordOperator ty name).Gives .signature
      ((host.draftRecordOperator s.program.types ty name).run.map .ofDrafted) s := by
  refine gives_look_bind ?_
  rintro ⟨basic, c⟩ -
  refine gives_look_bind fun generic _ => ?_
  refine gives_look_bind fun genericity _ => ?_
  let binding : Binding := if name = .equals then .ref else .constRef
  refine gives_finish ⟨c.decl, name, true, host.ownerKind c, .operator⟩
    [.plain .receiver binding (.given generic), .plain .lhs binding (.given generic),
      .plain .rhs .constRef (.given generic)] genericity.isGeneric ?_
  simp [DraftFormal.plain]

theorem gives_query (ty : TypeId) (name : Name) (kind : DeclKind) :
    (query ty name kind).Gives .signature (.ok (.signature (.query ty name kind))) s := by
  refine gives_finish ⟨.absent, name, true, kind, .procedure⟩
    [.plain .receiver .constRef (.given ty)] false ?_
  simp [DraftFormal.plain]

/-- Every method is built as it is drafted, and what is refused is refused with the same error. -/
theorem gives_buildMethod {d : Declarations} (sound : s.program.types.Sound)
    (admitted : d.AdmittedBy s.program.types) (ty : TypeId) (name : Name) :
    (d.host.buildMethod ty name).Gives .signature
      ((d.host.draftMethod s.program.types ty name).run.map .ofDrafted) s := by
  unfold buildMethod draftMethod
  split
  · exact gives_buildInit sound admitted ty
  split
  · exact gives_buildInitCopy d.host sound.wellFormed ty
  split
  · exact gives_buildDeinit d.host ty
  refine gives_look_bind fun kind _ => ?_
  cases kind with
  | tuple | domain | array | cPtr => exact gives_query ty name _
  | record =>
    dsimp only
    split
    · exact gives_buildRecordOperator d.host ty name
    · rfl
  | _ => rfl

/-! ## Accessors and casts -/

/-- An accessor of a class stores the borrowed form of the class. -/
theorem gives_buildAccessor (host : Host) (ty : TypeId) (field : Name) :
    (host.buildAccessor ty field).Gives .ofOption
      ((host.draftAccessor s.program.types ty field).map .ofOption) s := by
  refine gives_view_bind fun basic _ => ?_
  refine gives_view_bind fun found hfound => ?_
  cases found with
  | none => rfl
  | some c =>
    have stored := TypePool.composite?_eq_ok_some_iff.1 hfound
    refine gives_view_bind fun id _ => ?_
    cases id with
    | none => rfl
    | some id =>
      rw [Gives, exec_view_bind (TypePool.isClass_eq_ok stored), TypePool.isClass_composite]
      by_cases class? : c.kind = .classType
      · simp only [class?, decide_true, if_true]
        rw [exec_bind, exec_borrowedNonNil stored class?]
        rfl
      · simp only [class?, decide_false, if_false]
        rfl

end Host

namespace Building

variable {s : Session}

theorem gives_enumCast (ty : TypeId) (direction : CastDirection) :
    (enumCast ty direction).Gives .ofOption
      ((s.program.types.draftEnumCast ty direction).map .ofOption) s := by
  refine gives_view_bind fun found _ => ?_
  cases found with
  | none => rfl
  | some e =>
    dsimp only
    split
    · rfl
    · cases direction <;> rfl

theorem gives_binaryOp (lhs rhs : TypeId) (name : Name) :
    (binaryOp lhs rhs name).Gives .ofOption
      ((s.program.types.draftBinaryOp lhs rhs name).map .ofOption) s := by
  unfold binaryOp TypePool.draftBinaryOp
  split
  · rfl
  refine gives_view_bind fun left _ => ?_
  split
  · exact gives_enumCast lhs .fromEnum
  refine gives_view_bind fun right _ => ?_
  split
  · exact gives_enumCast rhs .toEnum
  · rfl

end Building

/-! ## Queries -/

/-- The reply to a query that is answered afresh, where the signatures are built. -/
def Call.build (host : Host) : Call → Building (Reply SigId)
  | .need ty name parenless => .decision <$> Building.view (Call.draftNeed host · ty name parenless)
  | .method ty name parenless => do
    if !(← Building.view (Call.draftNeed host · ty name parenless)) then return .nothing
    .signature <$> host.buildMethod ty name
  | .binaryOp lhs rhs name => .ofOption <$> Building.binaryOp lhs.type rhs.type name
  | .accessor ty field =>
    match ty.filter (!·.isUnknown) with
    | none => return .nothing
    | some ty => .ofOption <$> host.buildAccessor ty field

section Calls

open Building

variable {s : Session} {d : Declarations}

theorem Building.Gives.map {α : Type} {b : Building α} {encode : α → Reply SigId}
    {drafted : Except Fault (Reply Draft)} (gives : b.Gives encode drafted s) :
    (encode <$> b).Gives (fun reply => reply) drafted s := by
  rw [Gives] at gives ⊢
  rw [← gives, map_eq_pure_bind, exec_bind]
  rcases b.exec s with ⟨fault | (e | a), s'⟩ <;> rfl

/-- A query builds what it is drafted as, and stores what has to be stored for it. -/
theorem Call.gives_build (sound : s.program.types.Sound) (admitted : d.AdmittedBy s.program.types)
    (call : Call) :
    (call.build d.host).Gives (fun reply => reply) (call.draft d.host s.program.types) s := by
  cases call with
  | need ty name parenless =>
    have gives : (view (Call.draftNeed d.host · ty name parenless)).Gives .decision
        ((Call.draftNeed d.host s.program.types ty name parenless).map .decision) s := by
      rw [Gives, exec_view]
      cases Call.draftNeed d.host s.program.types ty name parenless <;> rfl
    exact gives.map
  | method ty name parenless =>
    rw [Gives, Call.build, exec_bind, exec_view, Call.draft]
    cases Call.draftNeed d.host s.program.types ty name parenless with
    | error fault => rfl
    | ok needed =>
      cases needed with
      | false => rfl
      | true =>
        have synthesized : Call.draftSynthesis d.host s.program.types ty name true =
            (d.host.draftMethod s.program.types ty name).run.map .ofDrafted := by
          rw [Call.draftSynthesis]
          rcases (d.host.draftMethod s.program.types ty name).run with fault | (e | draft) <;> rfl
        rw [ok_bind, synthesized]
        exact (Host.gives_buildMethod sound admitted ty name).map
  | binaryOp lhs rhs name => exact (Building.gives_binaryOp lhs.type rhs.type name).map
  | accessor ty field =>
    cases known : ty.filter (!·.isUnknown) with
    | none =>
      simp only [Call.build, Call.draft, known]
      rfl
    | some ty' =>
      simp only [Call.build, Call.draft, known]
      exact (Host.gives_buildAccessor d.host ty' field).map

end Calls

/-- Over a session that can be reached, a query that is answered afresh gives the reply that
building its signature gives, and leaves the same session. -/
theorem Session.Reached.askAfresh_eq_build {s : Session} (reached : s.Reached) (call : Call) :
    (call.askAfresh s.program.decls.host).exec s =
      (((call.build s.program.decls.host).exec s).1.map (Building.replyOf fun reply => reply),
        ((call.build s.program.decls.host).exec s).2) := by
  have sound := reached.sound.program
  rw [exec_askAfresh]
  exact (Call.gives_build sound.types sound.decls.admitted call).symm

end MethodSynthesis
