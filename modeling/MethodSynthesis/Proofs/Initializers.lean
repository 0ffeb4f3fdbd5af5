import MethodSynthesis.Proofs.Bookkeeping
import MethodSynthesis.Proofs.DefaultValues
import MethodSynthesis.Proofs.SignatureShapes

/-!
# Default initializers mirror fields

A default initializer that is synthesized has its receiver and then one formal for each declared field
of the composite, in the order of the declarations (`Declarations.IsInitializer`).
`initializer_mirrors_fields` states this of every initializer at the time when it is made, whatever has
been built and asked before, and of every answer while a program is held fixed.

The fields pass through three lists on the way: the declarations, the fields that are found for the
generic form, and the formals of the draft. Each list is made from the one before, member by member, so
the proof follows one place through all of them.
-/

set_option autoImplicit false

namespace MethodSynthesis

/-! ## Lists made member by member -/

section Lists

variable {ε α β : Type}

/-- Questions about the members of a list, asked in order, are answered one by one. -/
theorem forall₂_of_mapM_eq_ok {f : α → Except ε β} {l : List α} {bs : List β}
    (h : l.mapM f = .ok bs) : List.Forall₂ (fun a b => f a = .ok b) l bs := by
  induction l generalizing bs with
  | nil =>
    obtain rfl := Except.ok.inj h
    exact .nil
  | cons a l ih =>
    rw [List.mapM_cons] at h
    obtain ⟨b, hb, h⟩ := bind_eq_ok.1 h
    obtain ⟨rest, hrest, h⟩ := bind_eq_ok.1 h
    obtain rfl := Except.ok.inj h
    exact .cons hb (ih hrest)

/-- Each place of a list has its counterpart. -/
theorem exists_getElem?_of_forall₂ {R : α → β → Prop} {l : List α} {l' : List β}
    (h : List.Forall₂ R l l') {i : Nat} {a : α} (place : l[i]? = some a) :
    ∃ b, l'[i]? = some b ∧ R a b := by
  induction h generalizing i with
  | nil => exact nomatch place
  | @cons x y l l' related _ ih =>
    cases i with
    | zero =>
      obtain rfl := Option.some.inj place
      exact ⟨y, rfl, related⟩
    | succ i => exact ih place

end Lists

/-! ## Initializers -/

namespace Declarations

/-- A formal, with its type, stands for a declared field whose values are of a type. A type or param is
passed as such, and any other field as a copy. The formal has a default exactly if the field has one or
the type gives one. -/
structure StandsFor (d : Declarations) (pool : TypePool) (id : DeclId) (field : FieldDecl)
    (ty : TypeId) (formal : Formal) (type : Qualified) : Prop where
  declared : d.field? id = some (formal.name, field)
  decl_eq : formal.decl = id
  type_eq : type = ⟨if field.storage.isTypeOrParam then field.storage else .copyIn, ty⟩
  hasDefault : ∃ able, d.isDefaultInitializable pool ty = .ok able ∧
    (formal.hasDefault = true ↔ field.hasDefault = true ∨ able = true)

/-- A signature has the receiver and then, for each declared field of the composite, a formal that
stands for it. The type of the field is the one that is found with defaults left aside. -/
structure IsInitializer (d : Declarations) (pool : TypePool) (c : Composite) (generic : TypeId)
    (untyped : UntypedSignature) (typed : TypedSignature) : Prop where
  closed : typed.needsInstantiation = false
  formals : untyped.formals.length = (d.fieldIds c.decl).length + 1
  types : typed.formalTypes.length = (d.fieldIds c.decl).length + 1
  receiver : untyped.formals.head? = some (.plain .receiver)
  fields : ∃ list, d.fields pool .ignoreDefaults generic = .ok list ∧
    list.fields.length = (d.fieldIds c.decl).length ∧
    ∀ (i : Nat) (id : DeclId), (d.fieldIds c.decl)[i]? = some id → ∃ found field formal type,
      list.fields[i]? = some found ∧ found.decl = id ∧ found.type.binding = field.storage ∧
        untyped.formals[i + 1]? = some formal ∧ typed.formalTypes[i + 1]? = some type ∧
          d.StandsFor pool id field found.type.type formal type

variable {d : Declarations} {pool pool' : TypePool} {ty basic : TypeId} {c : Composite}

/-- Where field lists agree with the declarations, each listed field is read. -/
theorem map_fst_fieldsOf (agree : d.FieldsAgree) (owner : DeclId) :
    (d.fieldsOf owner).map (·.1) = d.fieldIds owner := by
  rw [fieldsOf, List.map_filterMap]
  refine (List.filterMap_congr fun id mem => ?_).trans List.filterMap_some
  obtain ⟨field, declared⟩ := Option.isSome_iff_exists.1 (agree.field mem)
  rw [declared]
  rfl

/-- A field is found as it was declared, and its type is one that the pool has, or unknown. -/
structure Finds (pool : TypePool) (entry : DeclId × Name × FieldDecl) (found : ResolvedField) :
    Prop where
  decl : found.decl = entry.1
  name : found.name = entry.2.1
  binding : found.type.binding = entry.2.2.storage
  hasDefault : found.hasDefault = entry.2.2.hasDefault
  admits : pool.Admits found.type.type

/-- The fields that are found for a stored composite are the declared ones, one by one. -/
theorem forall₂_fields (wf : pool.WellFormed) (admitted : d.AdmittedBy pool)
    (stored : pool.read? ty = some (.composite c)) (policy : DefaultsPolicy) :
    ∃ list, d.fields pool policy ty = .ok list ∧
      List.Forall₂ (Finds pool) (d.fieldsOf c.decl) list.fields := by
  refine ⟨_, fields_eq_ok wf admitted (TypePool.compositeOf?_eq_ok stored) policy, ?_⟩
  dsimp only
  rw [resolvedFields, List.map_map, List.forall₂_map_right_iff, List.forall₂_same]
  intro entry mem
  exact ⟨rfl, rfl, rfl, rfl, admitted.resolvedType wf stored mem policy⟩

section Drafted

variable (sound : pool.Sound) (admitted : d.AdmittedBy pool) (g : pool.Grows pool')

include sound admitted g

/-- What the formal that is drafted for a field is stored as stands for the field. -/
theorem standsFor_of_initFormal {entry : DeclId × Name × FieldDecl} {found : ResolvedField}
    {formal : DraftFormal} {type : Qualified} (declared : d.field? entry.1 = some entry.2)
    (finds : Finds pool entry found) (made : d.host.initFormal pool found = .ok formal)
    (stored : formal.IsStoredAs pool' type) :
    d.StandsFor pool' entry.1 entry.2.2 found.type.type formal.formal type := by
  obtain ⟨hasDefault, asked, rfl⟩ := Host.initFormal_eq_ok made
  obtain ⟨able, answer, -⟩ :=
    isDefaultInitializable_spec sound.wellFormed admitted finds.admits
  obtain ⟨binding, stored⟩ := type
  obtain ⟨rfl, rfl⟩ := stored
  refine ⟨?_, finds.decl, ?_, able, (d.host_persistent g).isDefaultInitializable _ _ answer, ?_⟩
  · rw [declared, finds.name]
  · rw [finds.binding]
  · rw [← finds.hasDefault]
    rcases asked with ⟨given, rfl⟩ | ⟨bare, asked⟩
    · exact iff_of_true rfl (.inl given)
    · obtain rfl := Except.ok.inj (asked.symm.trans answer)
      simp [bare]

/-- The signature that the draft of an initializer is stored as mirrors the declared fields. -/
theorem isInitializer_of_draft (agree : d.FieldsAgree) (form : pool.IsFormOf ty basic c)
    {list : FieldList} {formals : List DraftFormal} {typed : TypedSignature}
    (fields : d.fields pool .ignoreDefaults (c.genericForm basic) = .ok list)
    (made : list.fields.mapM (d.host.initFormal pool) = .ok formals)
    (closed : typed.needsInstantiation = false)
    (stored : List.Forall₂ (DraftFormal.IsStoredAs pool')
      (d.host.lifecycleDraft c .init (c.genericForm basic) formals).formals typed.formalTypes) :
    d.IsInitializer pool' c (c.genericForm basic)
      (d.host.lifecycleDraft c .init (c.genericForm basic) formals).untyped typed := by
  have generic : pool.read? (c.genericForm basic) = some (.composite c.uninstantiated) :=
    sound.read?_generic form.1
  obtain ⟨list', fields', finds⟩ :=
    forall₂_fields sound.wellFormed admitted generic .ignoreDefaults
  obtain rfl := Except.ok.inj (fields.symm.trans fields')
  have ids : (d.fieldsOf c.decl).map (·.1) = d.fieldIds c.decl := map_fst_fieldsOf agree c.decl
  have drafted := forall₂_of_mapM_eq_ok made
  -- the four lists are of one length
  have count : (d.fieldIds c.decl).length = list.fields.length := by
    rw [← ids, List.length_map]
    exact finds.length_eq
  have count' : formals.length = (d.fieldIds c.decl).length := by
    rw [count, drafted.length_eq]
  refine ⟨closed, ?_, ?_, congrArg some (c.receiver_formal _),
    list, (d.host_persistent g).fields _ _ _ fields, count.symm, ?_⟩
  · simp [Draft.untyped, Host.lifecycleDraft, count']
  · rw [← stored.length_eq]
    simp [Host.lifecycleDraft, count']
  · -- one place of the declared fields, followed through the lists
    intro i id place
    rw [← ids, List.getElem?_map] at place
    obtain ⟨entry, entryPlace, rfl⟩ := Option.map_eq_some_iff.1 place
    have declared := (mem_fieldsOf_iff.1 (List.mem_of_getElem? entryPlace)).2
    obtain ⟨found, foundPlace, finds⟩ := exists_getElem?_of_forall₂ finds entryPlace
    obtain ⟨formal, formalPlace, made⟩ := exists_getElem?_of_forall₂ drafted foundPlace
    obtain ⟨type, typePlace, stored⟩ := exists_getElem?_of_forall₂ stored
      (show (d.host.lifecycleDraft c .init (c.genericForm basic) formals).formals[i + 1]? = _ from
        formalPlace)
    refine ⟨found, entry.2.2, formal.formal, type, foundPlace, finds.decl, finds.binding, ?_,
      typePlace, standsFor_of_initFormal sound admitted g declared finds made stored⟩
    simp [Draft.untyped, Host.lifecycleDraft, formalPlace]

/-- A signature that holds a draft of the initializer mirrors the declared fields. -/
theorem isInitializer_of_methodDraft (agree : d.FieldsAgree) {draft : Draft}
    {signatures : SignaturePool} {id : SigId} (drafts : d.host.MethodDraft pool ty .init draft)
    (stored : draft.IsStoredAs pool' signatures id) :
    ∃ basic c untyped typed, pool'.IsFormOf ty basic c ∧ signatures.Holds id untyped typed ∧
      d.IsInitializer pool' c (c.genericForm basic) untyped typed := by
  obtain ⟨_, typed, holds, -, rfl, closed, types⟩ := stored.isGenerated
  generalize name : Name.init = method at drafts
  cases drafts with
  | init form fields _ _ made =>
    exact ⟨_, _, _, typed, form.grows g, holds,
      isInitializer_of_draft sound admitted g agree form fields made closed types⟩
  | initCopy _ => exact absurd name (by decide)
  | deinit _ => exact absurd name (by decide)
  | recordOperator _ _ operator _ =>
    subst name
    exact nomatch operator
  | query _ _ other =>
    subst name
    exact nomatch other

end Drafted

end Declarations

/-! ## Answers -/

/-- The signature is held as an initializer of the type that mirrors its declared fields. -/
def Session.HoldsInitializer (s : Session) (d : Declarations) (ty : TypeId) (id : SigId) : Prop :=
  ∃ basic c untyped typed, s.program.types.IsFormOf ty basic c ∧
    s.signatures.Holds id untyped typed ∧
      d.IsInitializer s.program.types c (c.genericForm basic) untyped typed

/-- Declarations, scopes and field lists agree in every state that is reached, since a question declares nothing. -/
theorem Session.Reached.consistent {s : Session} (reached : s.Reached) : s.program.decls.Consistent := by
  induction reached with
  | empty names => exact .empty
  | build _ _ eq con => exact con.edit (Program.run_edit eq)
  | @ask s host call _ con =>
    rw [decls_ask]
    exact con

/-- An initializer that has just been synthesized mirrors the fields as they are declared now, whatever
was built and asked before. While a program is held fixed, every answer that is an initializer does. -/
theorem initializer_mirrors_fields :
    (∀ s : Session, s.Reached → ∀ (ty : TypeId) (parenless : Bool) (id : SigId),
      s.memo.kept? (.method ty .init parenless) = none →
        (((Call.method ty .init parenless).ask s.program.decls.host).exec s).1 =
          .ok (.signature id) →
        (((Call.method ty .init parenless).ask s.program.decls.host).exec s).2.HoldsInitializer
          s.program.decls ty id) ∧
    ∀ p : Program, p.Built → ∀ (shards : Sharding) (history : List Call) (ty : TypeId)
      (parenless : Bool) (id : SigId),
      (p.ask shards history (.method ty .init parenless)).1 = .ok (.signature id) →
        (p.ask shards history (.method ty .init parenless)).2.HoldsInitializer p.decls ty id := by
  constructor
  · intro s reached ty parenless id fresh answer
    have sound := reached.sound
    obtain ⟨g, -⟩ := sound.grows_ask s.program.decls.host (.method ty .init parenless)
    have agree := reached.consistent.toFieldsAgree
    rcases sound.kept_or_stored s.program.decls.host answer with kept | ⟨draft, drafts, stored⟩
    · exact nomatch fresh.symm.trans kept
    · cases drafts with
      | method drafts =>
        exact Declarations.isInitializer_of_methodDraft sound.program.types
          sound.program.decls.admitted g agree drafts stored
  · intro p built shards history ty parenless id answer
    have sound := (built.reached_queried shards history).sound
    obtain ⟨-, grown⟩ := built.faithful_queried shards history
    have fit := built.wellFormed.decls.grows grown.before.table grown.after.table grown.ext
    have agree := built.consistent.toFieldsAgree
    obtain ⟨g, -⟩ := sound.grows_ask p.decls.host (.method ty .init parenless)
    obtain ⟨draft, -, drafts, stored⟩ := built.drafted_method answer
    exact Declarations.isInitializer_of_methodDraft sound.program.types fit.admitted g agree drafts
      stored

/-- A record with two fields of one name, the second of the record's own type, and an untyped field that
has a default. -/
def listedRecord : Program :=
  .ofCalls .bySize [.module "M" none, .composite (.at 0) "R" .record none,
    .field (.known ⟨1, 0⟩) "x" (.var .int),
    .field (.known ⟨1, 0⟩) "y" (FieldDecl.untyped.withDefault .real),
    .field (.known ⟨1, 0⟩) "x" (.var (.known ⟨1, 0⟩))]

/-- The question for the initializer of the record. -/
def listedRecordInit : Call := .method (.known ⟨1, 0⟩) .init false

theorem listedRecord_initializer :
    (Session.start listedRecord .bySize).Reached ∧
    (Session.start listedRecord .bySize).memo.kept? listedRecordInit = none ∧
    ((listedRecordInit.ask listedRecord.decls.host).exec (.start listedRecord .bySize)).1 =
      .ok (.signature ⟨⟨4, 0⟩⟩) ∧
    ((listedRecordInit.ask listedRecord.decls.host).exec
      (.start listedRecord .bySize)).2.HoldsInitializer listedRecord.decls (.known ⟨1, 0⟩) ⟨⟨4, 0⟩⟩ ∧
    listedRecord.Built ∧
    (listedRecord.ask .bySize [listedRecordInit] listedRecordInit).1 = .ok (.signature ⟨⟨4, 0⟩⟩) ∧
    (listedRecord.ask .bySize [listedRecordInit] listedRecordInit).2.HoldsInitializer
      listedRecord.decls (.known ⟨1, 0⟩) ⟨⟨4, 0⟩⟩ := by
  have built : listedRecord.Built := Program.built_ofCalls _ _
  have reached := Session.reached_start built .bySize
  have fresh : (Session.start listedRecord .bySize).memo.kept? listedRecordInit = none :=
    MemoTables.kept?_empty _
  have first :
      ((listedRecordInit.ask listedRecord.decls.host).exec (.start listedRecord .bySize)).1 =
        .ok (.signature ⟨⟨4, 0⟩⟩) := by cbv
  have again : (listedRecord.ask .bySize [listedRecordInit] listedRecordInit).1 =
      .ok (.signature ⟨⟨4, 0⟩⟩) := by cbv
  obtain ⟨made, given⟩ := initializer_mirrors_fields
  exact ⟨reached, fresh, first, made _ reached _ _ _ fresh first, built, again,
    given _ built .bySize [listedRecordInit] _ _ _ again⟩

end MethodSynthesis
