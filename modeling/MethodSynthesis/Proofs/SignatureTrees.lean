import MethodSynthesis.Proofs.Classification
import MethodSynthesis.Proofs.TypeTrees

/-!
# Signatures as trees

A signature names its untyped part and its types by handles, which differ from session to session. With
the untyped part and the trees of the types in their place, signatures of different sessions can be
compared (`SignatureTree`). A query that drafts its answer and stores the draft answers with the tree of
the draft (`Query.Settles.treeAnswer_eq`). That tree is made of the trees of types that the pool had
before (`Host.MethodDraft.admitted`, `Host.AccessorDraft.admitted`): what is stored for a draft is the
borrowed form of a class, and its tree is over the tree of the class.
-/

set_option autoImplicit false

namespace MethodSynthesis

/-! ## Signatures all the way down -/

/-- What a signature is all the way down: its untyped part and the trees of its types stand where it has
their handles. Handles of other functions are kept; a synthesized signature has none. -/
structure SignatureTree where
  untyped : UntypedSignature
  formals : List (Binding × TypeTree)
  whereClause : WhereClause
  needsInstantiation : Bool
  instantiatedFrom : Option SigId
  parentFunction : Option SigId
  formalsInstantiated : List Bool

/-- The reply with something else in place of its signature. -/
def Reply.map {σ τ : Type} (f : σ → τ) : Reply σ → Reply τ
  | .decision needed => .decision needed
  | .failure e => .failure e
  | .nothing => .nothing
  | .signature s => .signature (f s)

namespace Session

/-- The tree of a type in a session. -/
def typeTree (s : Session) : TypeId → TypeTree := s.program.types.tree s.program.names

/-- The tree of a signature in a session. -/
def signatureTree (s : Session) (id : SigId) : Except Fault SignatureTree := do
  let typed ← s.signatures.typed id
  let untyped ← s.signatures.untyped typed.untyped
  return ⟨untyped, typed.formalTypes.map fun q => (q.binding, s.typeTree q.type), typed.whereClause,
    typed.needsInstantiation, typed.instantiatedFrom, typed.parentFunction,
    typed.formalsInstantiated⟩

/-- A reply in a session, with the tree of its signature. -/
def replyTree (s : Session) : Reply SigId → Except Fault (Reply SignatureTree)
  | .decision needed => return .decision needed
  | .failure e => return .failure e
  | .nothing => return .nothing
  | .signature id => return .signature (← s.signatureTree id)

end Session

/-- What a query answers from a session, with the tree that the signature has when the query is done. -/
def Query.treeAnswer (q : Query (Reply SigId)) (s : Session) : Except Fault (Reply SignatureTree) :=
  (q.exec s).1 >>= (q.exec s).2.replyTree

/-- The type of the pool that a drafted type is or borrows. -/
def DraftType.base : DraftType → TypeId
  | .given ty | .borrowed ty => ty

/-- The tree of a drafted type, from those of the types of the pool. -/
def DraftType.tree (tree : TypeId → TypeTree) : DraftType → TypeTree
  | .given ty => tree ty
  | .borrowed basic => .decorated (tree basic) .borrowedNonNil

/-- The tree of a drafted signature, from those of the types of the pool. -/
def Draft.tree (draft : Draft) (tree : TypeId → TypeTree) : SignatureTree :=
  ⟨draft.untyped, draft.formals.map fun formal => (formal.binding, formal.type.tree tree), .absent,
    draft.needsInstantiation, none, none, []⟩

/-- Every type that a draft is made of is in the pool. -/
def Draft.Admitted (pool : TypePool) (draft : Draft) : Prop :=
  ∀ formal ∈ draft.formals, pool.Admits formal.type.base

section Trees

variable {pool pool' : TypePool} {draft : Draft}

theorem TypePool.Grows.tree_eq (g : pool.Grows pool') (names : NameTable) {ty : TypeId}
    (admitted : pool.Admits ty) : pool.tree names ty = pool'.tree names ty := by
  -- on the structure of the type, all of which the smaller pool has
  refine g.before.induction (motive := fun ty => pool.tree names ty = pool'.tree names ty) ?_ ?_
    admitted
  · rw [TypePool.tree_unknown, TypePool.tree_unknown]
  · intro ty data stored ih
    rw [g.before.tree_eq names stored, g.after.tree_eq names (g.read? stored)]
    exact TypeData.tree_congr (fun _ _ => rfl) ih

theorem DraftType.IsStoredAs.tree_eq (g : pool.Grows pool') (names : NameTable) {type : DraftType}
    {stored : TypeId} (admitted : pool.Admits type.base) (h : type.IsStoredAs pool' stored) :
    pool'.tree names stored = type.tree (pool.tree names) := by
  cases type with
  | given ty =>
    obtain rfl : stored = ty := h
    exact (g.tree_eq names admitted).symm
  | borrowed basic =>
    -- the borrowed form itself may be new, the class is not
    have same : pool.tree names basic = pool'.tree names basic := g.tree_eq names admitted
    rw [g.after.tree_eq names h, TypeData.tree, DraftType.tree, same]

theorem Draft.Admitted.grounded (admitted : draft.Admitted pool) : draft.Grounded pool := by
  intro formal mem
  have base := admitted formal mem
  cases type : formal.type with
  | given ty => trivial
  | borrowed basic =>
    rw [type] at base
    exact base

theorem Draft.Admitted.grows (admitted : draft.Admitted pool) (g : pool.Grows pool') :
    draft.Admitted pool' :=
  fun formal mem => g.ext.admits g.before.table g.after.table (admitted formal mem)

/-- The tree of a draft depends on the trees of the types that it is made of. -/
theorem Draft.Admitted.tree_congr (admitted : draft.Admitted pool) {tree tree' : TypeId → TypeTree}
    (h : ∀ ty, pool.Admits ty → tree ty = tree' ty) : draft.tree tree = draft.tree tree' := by
  have formals : draft.formals.map (fun formal => (formal.binding, formal.type.tree tree)) =
      draft.formals.map fun formal => (formal.binding, formal.type.tree tree') := by
    refine List.map_congr_left fun formal mem => ?_
    have base := h _ (admitted formal mem)
    cases type : formal.type with
    | given ty | borrowed ty =>
      rw [type] at base
      rw [DraftType.tree, DraftType.tree, show tree ty = tree' ty from base]
  rw [Draft.tree, Draft.tree, formals]

/-- The types that formals are stored with have the trees of the drafted types. -/
theorem DraftFormal.map_tree_eq (g : pool.Grows pool') (names : NameTable)
    {formals : List DraftFormal} {types : List Qualified}
    (h : List.Forall₂ (DraftFormal.IsStoredAs pool') formals types)
    (admitted : ∀ formal ∈ formals, pool.Admits formal.type.base) :
    types.map (fun q => (q.binding, pool'.tree names q.type)) =
      formals.map fun formal => (formal.binding, formal.type.tree (pool.tree names)) := by
  induction h with
  | nil => rfl
  | cons first _ ih =>
    obtain ⟨head, tail⟩ := List.forall_mem_cons.1 admitted
    rw [List.map_cons, List.map_cons, ih tail, first.1, first.2.tree_eq g names head]

/-- A signature that was stored for a draft has the tree of the draft. -/
theorem Session.signatureTree_stored {s : Session} (wf : s.program.types.WellFormed)
    (wf' : s.signatures.WellFormed) (admitted : draft.Admitted s.program.types) :
    (s.stored draft).2.signatureTree (s.stored draft).1 = .ok (draft.tree s.typeTree) := by
  obtain ⟨g, -, untyped, types, huntyped, hformals, htyped⟩ :=
    draft.grows_store wf wf' admitted.grounded
  have formals := DraftFormal.map_tree_eq g s.program.names hformals admitted
  rw [signatureTree, show (s.stored draft).2.signatures.typed (s.stored draft).1 = _ from htyped,
    ok_bind]
  show (s.stored draft).2.signatures.untyped untyped >>= _ = _
  rw [show (s.stored draft).2.signatures.untyped untyped = _ from huntyped, ok_bind, Draft.tree,
    show s.typeTree = s.program.types.tree s.program.names from rfl, ← formals]
  rfl

end Trees

/-- A query that settles a draft answers with the tree of the draft. -/
theorem Query.Settles.treeAnswer_eq {β : Type} {q : Query β} {encode : β → Reply SigId}
    {drafted : TypePool → Except Fault (Reply Draft)} (settles : q.Settles encode drafted)
    {s : Session} (wf : s.program.types.WellFormed) (wf' : s.signatures.WellFormed)
    (admitted : ∀ draft, drafted s.program.types = .ok (.signature draft) →
      draft.Admitted s.program.types) :
    (encode <$> q).treeAnswer s =
      (drafted s.program.types).map (Reply.map fun draft => draft.tree s.typeTree) := by
  rw [Query.treeAnswer, settles s]
  cases h : drafted s.program.types with
  | error fault => rfl
  | ok reply =>
    cases reply with
    | signature draft =>
      show (s.stored draft).2.signatureTree (s.stored draft).1 >>= _ = _
      rw [Session.signatureTree_stored wf wf' (admitted draft h)]
      rfl
    | _ => rfl

/-! ## Drafts of types of the pool -/

theorem Composite.base_receiver (c : Composite) (form : TypeId) :
    (c.receiver form).type.base = form := by
  by_cases class? : c.kind = .classType <;>
    simp [Composite.receiver, class?, DraftFormal.plain, DraftType.base]

section Made

variable {d : Declarations} {pool : TypePool} {ty : TypeId} {name : Name} {draft : Draft}

/-- The drafts of a method are made of types of the pool: forms of the type itself, and types of its
fields. -/
theorem Host.MethodDraft.admitted (h : d.host.MethodDraft pool ty name draft) (sound : pool.Sound)
    (admitted : d.AdmittedBy pool) : draft.Admitted pool := by
  cases h with
  | init found hfields closed rooted hformals =>
    obtain ⟨c', generic, -⟩ := sound.read?_genericForm found
    have form := TypePool.admits_of_read? generic
    obtain ⟨g, hg, -⟩ := Declarations.genericity_spec sound.wellFormed admitted form
    obtain ⟨list, hlist, -, types⟩ :=
      Declarations.fields_of_genericity sound.wellFormed admitted generic hg
    obtain rfl := Except.ok.inj (hlist.symm.trans hfields)
    intro formal mem
    -- the receiver is a form of the type, and each further formal has the type of a field
    rcases List.mem_cons.1 mem with rfl | mem
    · rw [Composite.base_receiver]
      exact form
    · obtain ⟨field, mem', type⟩ := given_of_mem_initFormals hformals mem
      rw [type]
      exact types field mem'
  | initCopy found =>
    have form := TypePool.admits_of_read? found.1
    simpa [Draft.Admitted, Host.lifecycleDraft, DraftFormal.plain, Composite.base_receiver]
      using form
  | deinit found =>
    have form := TypePool.admits_of_read? found.1
    simpa [Draft.Admitted, Host.lifecycleDraft, Composite.base_receiver] using form
  | recordOperator stored kind operator hgenericity =>
    have form : pool.Admits (Composite.genericForm _ ty) :=
      TypePool.admits_of_read? (sound.read?_generic stored)
    simpa [Draft.Admitted, Host.recordOperatorDraft, DraftFormal.plain, DraftType.base] using form
  | query stored queried other =>
    have form := TypePool.admits_of_read? stored
    simpa [Draft.Admitted, Draft.query, DraftFormal.plain, DraftType.base] using form

theorem Host.AccessorDraft.admitted (h : d.host.AccessorDraft pool ty name draft) :
    draft.Admitted pool := by
  cases h with
  | @field basic c _ id found declared =>
    have form := TypePool.admits_of_read? found.1
    by_cases class? : c.kind = .classType <;>
      simpa [Draft.Admitted, Host.accessorDraft, class?, DraftFormal.plain, DraftType.base]
        using form

end Made

end MethodSynthesis
