import MethodSynthesis.Proofs.Provenance
import MethodSynthesis.Proofs.SharedSignatures

/-!
# The casts of enumerations

An operator is synthesized between two operands exactly if it is the cast and an enumeration with an
explicitly valued constant decides over it (`TypePool.CastBy`): the type of the left operand, or the
type of the right one where the left is no enumeration. Every operator query over known types is
answered so, whatever has been built and asked before (`enum_casts`).

The signature of a cast takes the enumeration and the integral types, in the order of its direction.
So two casts have one signature exactly if they have one enumeration and one direction
(`castDraft_same_iff`), at whatever times they are asked for: what a session keeps for an operator
is stored as what the operator is drafted as over the present pools (`Session.HasOperator`).
-/

set_option autoImplicit false

namespace MethodSynthesis

/-! ## The enumeration that decides -/

theorem Enumeration.isAbstract_eq_false_iff {e : Enumeration} :
    e.isAbstract = false ↔ ∃ c ∈ e.constants, c.value.isSome = true := by
  simp [isAbstract, List.all_eq_false, Option.isSome_iff_ne_none]

namespace TypePool

variable {pool : TypePool} {ty ty' lhs rhs : TypeId} {name : Name} {draft : Draft}
  {direction direction' : CastDirection} {e e' : Enumeration}

/-- The type is an enumeration. -/
def IsEnum (pool : TypePool) (ty : TypeId) : Prop :=
  ∃ e, pool.read? ty = some (.enumeration e)

/-- The type is an enumeration in which some constant has an explicit value. -/
def HasValues (pool : TypePool) (ty : TypeId) : Prop :=
  ∃ e, pool.read? ty = some (.enumeration e) ∧ ∃ c ∈ e.constants, c.value.isSome = true

/-- The enumeration and the direction of the cast between two operands. -/
inductive CastBy (pool : TypePool) (lhs rhs : TypeId) : CastDirection → TypeId → Prop
  | fromEnum (valued : pool.HasValues lhs) : CastBy pool lhs rhs .fromEnum lhs
  | toEnum (other : ¬ pool.IsEnum lhs) (valued : pool.HasValues rhs) :
      CastBy pool lhs rhs .toEnum rhs

theorem HasValues.isEnum (valued : pool.HasValues ty) : pool.IsEnum ty := by
  obtain ⟨e, stored, -⟩ := valued
  exact ⟨e, stored⟩

theorem hasValues_iff (stored : pool.read? ty = some (.enumeration e)) :
    pool.HasValues ty ↔ e.isAbstract = false := by
  rw [Enumeration.isAbstract_eq_false_iff]
  constructor
  · rintro ⟨e', stored', valued⟩
    obtain rfl := TypeData.enumeration.inj (Option.some.inj (stored.symm.trans stored'))
    exact valued
  · exact fun valued => ⟨e, stored, valued⟩

/-- The drafts of casts are those of the deciding enumeration. -/
theorem CastDraft.castBy (cast : pool.CastDraft lhs rhs draft) :
    ∃ direction ty e, pool.CastBy lhs rhs direction ty ∧
      pool.read? ty = some (.enumeration e) ∧ draft = e.castDraft ty direction := by
  cases cast with
  | @fromEnum e stored concrete =>
    exact ⟨_, _, e, .fromEnum ((hasValues_iff stored).2 concrete), stored, rfl⟩
  | @toEnum e other stored concrete =>
    refine ⟨_, _, e, .toEnum ?_ ((hasValues_iff stored).2 concrete), stored, rfl⟩
    rintro ⟨e', stored'⟩
    exact other e' stored'

theorem exists_isEnumeration (admitted : pool.Admits ty) :
    ∃ found, pool.isEnumeration ty = .ok found ∧ (found = true ↔ pool.IsEnum ty) := by
  have answered : ∃ found, pool.isEnumeration ty = .ok found := by
    rcases admitted with rfl | ⟨data, stored⟩
    · exact ⟨false, rfl⟩
    · rw [isEnumeration, isUnknown_of_read? stored, if_neg Bool.false_ne_true, enumeration?,
        read_eq_ok_iff.2 stored]
      exact ⟨_, rfl⟩
  obtain ⟨found, eq⟩ := answered
  exact ⟨found, eq, isEnumeration_iff eq⟩

theorem exists_draftEnumCast (enum : pool.IsEnum ty) (direction : CastDirection) :
    ∃ drafted, pool.draftEnumCast ty direction = .ok drafted ∧
      (drafted.isSome = true ↔ pool.HasValues ty) := by
  obtain ⟨e, stored⟩ := enum
  rw [hasValues_iff stored]
  unfold draftEnumCast
  rw [enumeration?_eq_ok_some_iff.2 stored, ok_bind]
  dsimp only
  cases e.isAbstract with
  | true => exact ⟨none, rfl, by simp⟩
  | false => cases direction <;> exact ⟨some _, rfl, by simp⟩

/-- Over types that the pool admits, an operator is drafted exactly if it is the cast and an
enumeration decides over it. -/
theorem exists_draftBinaryOp (left : pool.Admits lhs) (right : pool.Admits rhs) (name : Name) :
    ∃ drafted, pool.draftBinaryOp lhs rhs name = .ok drafted ∧ (drafted.isSome = true ↔
      name = .cast ∧ (pool.HasValues lhs ∨ ¬ pool.IsEnum lhs ∧ pool.HasValues rhs)) := by
  obtain ⟨foundLeft, eqLeft, enumLeft⟩ := exists_isEnumeration left
  obtain ⟨foundRight, eqRight, enumRight⟩ := exists_isEnumeration right
  by_cases cast : name = .cast
  swap
  · exact ⟨none, by rw [draftBinaryOp, if_pos cast]; rfl, by simp [cast]⟩
  rw [draftBinaryOp, if_neg (not_not.2 cast), eqLeft, ok_bind]
  by_cases enum : pool.IsEnum lhs
  · obtain ⟨drafted, eq, some?⟩ := exists_draftEnumCast enum .fromEnum
    refine ⟨drafted, ?_, some?.trans ?_⟩
    · rw [enumLeft.2 enum, if_pos rfl, eq]
    · simp [cast, enum]
  have notLeft : foundLeft = false := Bool.eq_false_iff.2 (mt enumLeft.1 enum)
  rw [notLeft, if_neg Bool.false_ne_true, eqRight, ok_bind]
  have noLeft : ¬ pool.HasValues lhs := fun valued => enum valued.isEnum
  by_cases enum' : pool.IsEnum rhs
  · obtain ⟨drafted, eq, some?⟩ := exists_draftEnumCast enum' .toEnum
    refine ⟨drafted, ?_, some?.trans ?_⟩
    · rw [enumRight.2 enum', if_pos rfl, eq]
    · simp [cast, enum, noLeft]
  · have notRight : foundRight = false := Bool.eq_false_iff.2 (mt enumRight.1 enum')
    have noRight : ¬ pool.HasValues rhs := fun valued => enum' valued.isEnum
    refine ⟨none, ?_, ?_⟩
    · rw [notRight, if_neg Bool.false_ne_true]
      rfl
    · simp [noLeft, noRight]

/-! ## The signature of a cast -/

/-- The types of the two formals, in order. -/
def castTypes (ty : TypeId) : CastDirection → List TypeId
  | .fromEnum => [ty, .integral]
  | .toEnum => [.integral, ty]

theorem types_of_castDraft {types : List Qualified}
    (stored : List.Forall₂ (DraftFormal.IsStoredAs pool) (e.castDraft ty direction).formals types) :
    types.map (·.type) = castTypes ty direction := by
  cases direction with
  | fromEnum | toEnum =>
    obtain ⟨source, _, ⟨-, held⟩, rest, rfl⟩ := List.forall₂_cons_left_iff.1 stored
    obtain ⟨target, _, ⟨-, held'⟩, last, rfl⟩ := List.forall₂_cons_left_iff.1 rest
    obtain rfl := List.forall₂_nil_left_iff.1 last
    rw [List.map_cons, List.map_cons, List.map_nil, held, held']
    rfl

/-- No enumeration is the type of integers of any width, so the formals tell which is the
enumeration. -/
theorem castTypes_injective (enum : ty ≠ .integral)
    (eq : castTypes ty direction = castTypes ty' direction') :
    direction = direction' ∧ ty = ty' := by
  cases direction <;> cases direction' <;> simp_all [castTypes]

theorem WellFormed.ne_integral (wf : pool.WellFormed)
    (stored : pool.read? ty = some (.enumeration e)) : ty ≠ .integral := by
  rintro rfl
  cases stored.symm.trans (wf.primitives .integral)

/-- Two stored casts are one signature exactly if they go in one direction between one enumeration
and the integral types. -/
theorem WellFormed.castDraft_same_iff {signatures : SignaturePool} {id id' : SigId}
    (wf : pool.WellFormed) (wf' : signatures.WellFormed)
    (enum : pool.read? ty = some (.enumeration e))
    (enum' : pool.read? ty' = some (.enumeration e'))
    (stored : (e.castDraft ty direction).IsStoredAs pool signatures id)
    (stored' : (e'.castDraft ty' direction').IsStoredAs pool signatures id') :
    id = id' ↔ direction = direction' ∧ ty = ty' := by
  constructor
  · rintro rfl
    obtain ⟨untyped, types, -, formals, typed⟩ := stored
    obtain ⟨untyped', types', -, formals', typed'⟩ := stored'
    have same : types = types' :=
      congrArg TypedSignature.formalTypes (Except.ok.inj (typed.symm.trans typed'))
    refine castTypes_injective (wf.ne_integral enum) ?_
    rw [← types_of_castDraft formals, same, types_of_castDraft formals']
  · rintro ⟨rfl, rfl⟩
    obtain rfl := TypeData.enumeration.inj (Option.some.inj (enum.symm.trans enum'))
    -- one draft is stored once
    have once := (stored.store_eq wf wf').symm.trans (stored'.store_eq wf wf')
    exact (Prod.mk.inj once).1

end TypePool

/-! ## What is kept for operators -/

namespace Session

variable {s t : Session} {lhs rhs : Qualified} {name : Name} {reply : Reply SigId}

/-- The reply is stored as what the operator is drafted as over the present pools. -/
def HasOperator (s : Session) (lhs rhs : TypeId) (name : Name) (reply : Reply SigId) : Prop :=
  ∃ drafted, s.program.types.draftBinaryOp lhs rhs name = .ok drafted ∧
    (Reply.ofOption drafted).IsStoredAs s.program.types s.signatures reply

theorem HasOperator.grows {lhs rhs : TypeId} (has : s.HasOperator lhs rhs name reply)
    (g : s.PoolsGrow t) : t.HasOperator lhs rhs name reply := by
  obtain ⟨drafted, eq, stored⟩ := has
  exact ⟨drafted, g.types.draftBinaryOp lhs rhs name drafted eq, stored.grows g.types g.signatures⟩

theorem HasOperator.of_sameTables {lhs rhs : TypeId} (has : s.HasOperator lhs rhs name reply)
    (same : SameTables s t) : t.HasOperator lhs rhs name reply := by
  obtain ⟨drafted, eq, stored⟩ := has
  rw [same.1] at eq stored
  rw [same.2] at stored
  exact ⟨drafted, eq, stored⟩

/-- What an operator query does: it gives what is kept for it, or what is found afresh. -/
theorem binaryOp_kept_or_afresh (s : Session) (lhs rhs : Qualified) (name : Name) :
    (∃ found, s.memo.kept? (.binaryOp lhs rhs name) = some (.ofOption found) ∧
      ((binaryOp lhs rhs name).exec s).1 = .ok found ∧
        SameTables s ((binaryOp lhs rhs name).exec s).2) ∨
    ((binaryOp lhs rhs name).exec s).1 =
        ((binaryOpAfresh lhs rhs name).exec (Query.missed .binaryOps s)).1 ∧
      SameTables ((binaryOpAfresh lhs rhs name).exec (Query.missed .binaryOps s)).2
        ((binaryOp lhs rhs name).exec s).2 := by
  have settles := settles_binaryOpAfresh s.program.decls.host lhs rhs name
  have answers := MemoSlot.answers_binaryOps lhs rhs name
  rcases answers.hit_or_miss (fun s => congrArg MemoTables.binaryOps (settles.memo_eq s)) s
    with hit | miss
  · obtain ⟨found, find, answer⟩ := hit.found
    exact .inl ⟨found, by rw [answers.kept, find]; rfl, answer, hit.tables⟩
  · exact .inr ⟨miss.answer, miss.tables⟩

/-- An operator that is found afresh is stored as drafted. -/
theorem afresh_hasOperator (types : s.program.types.WellFormed)
    (signatures : s.signatures.WellFormed) {found : Option SigId}
    (fresh : ((binaryOpAfresh lhs rhs name).exec s).1 = .ok found) :
    ((binaryOpAfresh lhs rhs name).exec s).2.HasOperator lhs.type rhs.type name
      (.ofOption found) := by
  -- no host has a part in it, so that of the declarations at hand will do
  have settles := settles_binaryOpAfresh s.program.decls.host lhs rhs name
  obtain ⟨reply, made, stored⟩ :=
    settles.stored s.program.decls.host_persistent types signatures fresh
  obtain ⟨drafted, eq, same⟩ := bind_eq_ok.1 made
  obtain rfl := Except.ok.inj same
  exact ⟨drafted, eq, stored⟩

/-- An operator that is drafted is found afresh. -/
theorem exists_afresh (types : s.program.types.WellFormed) (signatures : s.signatures.WellFormed)
    {drafted : Option Draft}
    (eq : s.program.types.draftBinaryOp lhs.type rhs.type name = .ok drafted) :
    ∃ found, ((binaryOpAfresh lhs rhs name).exec s).1 = .ok found := by
  have made : Call.draft s.program.decls.host s.program.types (.binaryOp lhs rhs name) =
      .ok (.ofOption drafted) := by
    rw [Call.draft, eq]
    rfl
  have run := settles_binaryOpAfresh s.program.decls.host lhs rhs name s
  dsimp only at run
  obtain ⟨reply, given, -⟩ := isStoredAs_settle types signatures (Call.grounded_draft types made)
  rw [← made, ← run, Query.exec_map] at given
  cases fresh : ((binaryOpAfresh lhs rhs name).exec s).1 with
  | error fault =>
    rw [fresh] at given
    cases given
  | ok found => exact ⟨found, rfl⟩

/-- The answer to an operator query is stored as drafted, if that holds of what is kept for it. -/
theorem binaryOp_hasOperator (types : s.program.types.WellFormed)
    (signatures : s.signatures.WellFormed)
    (kept : ∀ reply, s.memo.kept? (.binaryOp lhs rhs name) = some reply →
      s.HasOperator lhs.type rhs.type name reply)
    {found : Option SigId} (answer : ((binaryOp lhs rhs name).exec s).1 = .ok found) :
    ((binaryOp lhs rhs name).exec s).2.HasOperator lhs.type rhs.type name (.ofOption found) := by
  rcases s.binaryOp_kept_or_afresh lhs rhs name with ⟨found', find, answer', same⟩ | ⟨fresh, same⟩
  · obtain rfl := Except.ok.inj (answer'.symm.trans answer)
    exact (kept _ find).of_sameTables same
  · have has := afresh_hasOperator (s := Query.missed .binaryOps s) types signatures
      (fresh.symm.trans answer)
    exact has.of_sameTables same

/-- An operator query leaves its answer kept. -/
theorem kept?_binaryOp (s : Session) (lhs rhs : Qualified) (name : Name) :
    ((binaryOp lhs rhs name).exec s).2.memo.kept? (.binaryOp lhs rhs name) =
      ((binaryOp lhs rhs name).exec s).1.toOption.map .ofOption :=
  (isKept_binaryOp s.program.decls.host lhs rhs name).kept_eq s

/-! ## Runs -/

/-- One step of a run: a builder is called with types that the program has, or with the unknown
type, or a query is asked of any host. -/
inductive Onward : Session → Session → Prop
  | build {s : Session} {call : BuilderCall} {p : Program} :
      (∀ ty ∈ call.types, s.program.types.Admits ty) → call.run s.program = .ok p →
        Onward s { s with program := p }
  | ask (s : Session) (host : Host) (call : Call) : Onward s ((call.ask host).exec s).2

/-- A step leads on from a session that builders and queries lead to, and only adds to the pools. -/
theorem Reached.step (reached : s.Reached) (step : Onward s t) : t.Reached ∧ s.PoolsGrow t := by
  have sound := reached.sound
  cases step with
  | @build call p admitted run =>
    have next := reached.build admitted run
    obtain ⟨-, ext⟩ := Program.run_interned sound.program.types.interned admitted run
    exact ⟨next, ⟨sound.program.types.wellFormed, next.sound.program.types.wellFormed, ext⟩,
      .refl sound.signatures⟩
  | ask host call =>
    obtain ⟨g, g'⟩ := sound.grows_ask host call
    exact ⟨reached.ask host call, g, g'⟩

theorem Reached.run (reached : s.Reached) (run : Relation.ReflTransGen Onward s t) :
    t.Reached ∧ s.PoolsGrow t := by
  induction run with
  | refl => exact ⟨reached, .refl reached.sound.program.types.wellFormed,
      .refl reached.sound.signatures⟩
  | tail _ step ih =>
    obtain ⟨mid, g⟩ := ih
    obtain ⟨last, g'⟩ := mid.step step
    exact ⟨last, g.trans g'⟩

/-- In a session that builders and queries lead to, what is kept for an operator is stored as what
the operator is drafted as. -/
theorem Reached.hasOperator_of_kept (reached : s.Reached)
    (kept : s.memo.kept? (.binaryOp lhs rhs name) = some reply) :
    s.HasOperator lhs.type rhs.type name reply := by
  induction reached generalizing lhs rhs name reply with
  | empty names => exact nomatch (MemoTables.kept?_empty _).symm.trans kept
  | build reached admitted run ih =>
    exact (ih kept).grows (reached.step (.build admitted run)).2
  | @ask s host asked reached ih =>
    obtain ⟨-, g⟩ := reached.step (.ask s host asked)
    by_cases this : asked = .binaryOp lhs rhs name
    · subst this
      rw [Call.ask, Query.exec_map] at kept ⊢
      rw [kept?_binaryOp] at kept
      obtain ⟨found, answer, rfl⟩ := Option.map_eq_some_iff.1 kept
      have sound := reached.sound
      exact binaryOp_hasOperator sound.program.types.wellFormed sound.signatures (fun _ => ih)
        (eq_ok_of_toOption answer)
    · have noNeed : ∀ ty name' parenless,
          Call.binaryOp lhs rhs name ≠ .need ty name' parenless := by
        intro ty name' parenless same
        cases same
      rw [kept?_ask_of_ne host (Ne.symm this) noNeed] at kept
      exact (ih kept).grows g

/-- An answered operator is stored, from then on, as what it is drafted as. -/
theorem Reached.hasOperator_of_answer (reached : s.Reached) {found : Option SigId}
    (answer : ((binaryOp lhs rhs name).exec s).1 = .ok found) :
    ((binaryOp lhs rhs name).exec s).2.HasOperator lhs.type rhs.type name (.ofOption found) :=
  have sound := reached.sound
  binaryOp_hasOperator sound.program.types.wellFormed sound.signatures
    (fun _ => reached.hasOperator_of_kept) answer

theorem Reached.exists_answer (reached : s.Reached) {drafted : Option Draft}
    (eq : s.program.types.draftBinaryOp lhs.type rhs.type name = .ok drafted) :
    ∃ found, ((binaryOp lhs rhs name).exec s).1 = .ok found := by
  have sound := reached.sound
  rcases s.binaryOp_kept_or_afresh lhs rhs name with ⟨found, -, answer, -⟩ | ⟨fresh, -⟩
  · exact ⟨found, answer⟩
  · rw [fresh]
    exact exists_afresh (s := Query.missed .binaryOps s) sound.program.types.wellFormed
      sound.signatures eq

/-- To query an operator is a step of a run. -/
theorem onward_binaryOp (s : Session) (lhs rhs : Qualified) (name : Name) :
    Onward s ((binaryOp lhs rhs name).exec s).2 := by
  have step := Onward.ask s s.program.decls.host (.binaryOp lhs rhs name)
  rwa [Call.ask, Query.exec_map] at step

/-- The signature is stored as the cast that an enumeration decides over. -/
def HasCast (s : Session) (direction : CastDirection) (ty : TypeId) (id : SigId) : Prop :=
  ∃ e, s.program.types.read? ty = some (.enumeration e) ∧
    (e.castDraft ty direction).IsStoredAs s.program.types s.signatures id

theorem HasCast.grows {direction : CastDirection} {ty : TypeId} {id : SigId}
    (has : s.HasCast direction ty id) (g : s.PoolsGrow t) : t.HasCast direction ty id := by
  obtain ⟨e, enum, stored⟩ := has
  exact ⟨e, g.types.read? enum, stored.grows g.types g.signatures⟩

/-- An operator query over known types is answered with a signature exactly if an enumeration
decides over a cast, and then with the signature of this cast. -/
theorem Reached.answers_operator (reached : s.Reached) (left : s.program.types.Admits lhs.type)
    (right : s.program.types.Admits rhs.type) (name : Name) :
    ∃ found, ((binaryOp lhs rhs name).exec s).1 = .ok found ∧
      (found.isSome = true ↔ name = .cast ∧ (s.program.types.HasValues lhs.type ∨
        ¬ s.program.types.IsEnum lhs.type ∧ s.program.types.HasValues rhs.type)) ∧
      ∀ id, found = some id → ∃ direction ty,
        s.program.types.CastBy lhs.type rhs.type direction ty ∧
          ((binaryOp lhs rhs name).exec s).2.HasCast direction ty id := by
  obtain ⟨drafted, eq, some?⟩ := TypePool.exists_draftBinaryOp left right name
  obtain ⟨found, answer⟩ := reached.exists_answer eq
  obtain ⟨-, g⟩ := reached.step (onward_binaryOp s lhs rhs name)
  -- what is stored for the answer is the draft at hand, since this one persists
  obtain ⟨drafted', eq', stored⟩ := reached.hasOperator_of_answer answer
  obtain rfl := Except.ok.inj ((g.types.draftBinaryOp _ _ _ drafted eq).symm.trans eq')
  refine ⟨found, answer, ?_, ?_⟩
  · rw [← some?]
    cases drafted <;> cases found <;> first | exact stored.elim | simp
  · rintro id rfl
    cases drafted with
    | none => exact stored.elim
    | some draft =>
      obtain ⟨-, cast⟩ := TypePool.castDraft_of_eq_ok eq
      obtain ⟨direction, ty, e, decides, enum, rfl⟩ := cast.castBy
      exact ⟨direction, ty, decides, e, g.types.read? enum, stored⟩

end Session

/-- In every session that builders and queries lead to, every operator query over known types, or
the unknown one, is answered, and with a signature exactly if the operator is the cast and an
enumeration with an explicit value decides over it. Of two such signatures, the second one asked for
at any later time, the two are the same exactly if their casts have one direction and one
enumeration. -/
theorem enum_casts {s : Session} (reached : s.Reached) (lhs rhs : Qualified)
    (left : s.program.types.Admits lhs.type) (right : s.program.types.Admits rhs.type)
    (name : Name) : ∃ found, ((Session.binaryOp lhs rhs name).exec s).1 = .ok found ∧
      (found.isSome = true ↔ name = .cast ∧ (s.program.types.HasValues lhs.type ∨
        ¬ s.program.types.IsEnum lhs.type ∧ s.program.types.HasValues rhs.type)) ∧
      ∀ id, found = some id →
        ∀ t, Relation.ReflTransGen Session.Onward ((Session.binaryOp lhs rhs name).exec s).2 t →
          ∀ (lhs' rhs' : Qualified) (name' : Name) (id' : SigId),
            t.program.types.Admits lhs'.type → t.program.types.Admits rhs'.type →
            ((Session.binaryOp lhs' rhs' name').exec t).1 = .ok (some id') →
              ∃ direction ty direction' ty',
                s.program.types.CastBy lhs.type rhs.type direction ty ∧
                t.program.types.CastBy lhs'.type rhs'.type direction' ty' ∧
                (id = id' ↔ direction = direction' ∧ ty = ty') := by
  obtain ⟨found, answer, some?, cast⟩ := reached.answers_operator left right name
  refine ⟨found, answer, some?, ?_⟩
  intro id same t run lhs' rhs' name' id' left' right' answer'
  obtain ⟨direction, ty, decides, has⟩ := cast id same
  obtain ⟨after, -⟩ := reached.step (Session.onward_binaryOp s lhs rhs name)
  obtain ⟨later, g⟩ := after.run run
  obtain ⟨found', given, -, cast'⟩ := later.answers_operator left' right' name'
  obtain ⟨direction', ty', decides', e', enum', stored'⟩ :=
    cast' id' (Except.ok.inj (given.symm.trans answer'))
  -- both signatures are compared over the pools after the second query
  obtain ⟨last, g'⟩ := later.step (Session.onward_binaryOp t lhs' rhs' name')
  obtain ⟨e, enum, stored⟩ := (has.grows g).grows g'
  have sound := last.sound
  exact ⟨direction, ty, direction', ty', decides, decides',
    sound.program.types.wellFormed.castDraft_same_iff sound.signatures enum enum' stored stored'⟩

/-- A module with an enumeration of two constants, one of which has an explicit value. -/
def colors : Program :=
  .ofCalls .bySize [.module "M" none, .enumeration (.at 0) "Color" [("red", some 1), ("green", none)]]

/-- The cast of a colour to an integer, over the program as it is declared. -/
def colorToInt : Except Fault (Option SigId) × Session :=
  (Session.binaryOp (.var (.known ⟨8, 0⟩)) (.typeOf .int) .cast).exec (.start colors .bySize)

/-- The cast of something unknown to a colour, asked for afterwards. -/
def unknownToColor : Except Fault (Option SigId) × Session :=
  (Session.binaryOp ⟨.ref, .unknown⟩ (.typeOf (.known ⟨8, 0⟩)) .cast).exec colorToInt.2

/-- The two casts of the colours have signatures of their own. -/
theorem colors_casts : (Session.start colors .bySize).Reached ∧
    colorToInt.1 = .ok (some ⟨⟨2, 0⟩⟩) ∧ unknownToColor.1 = .ok (some ⟨⟨2, 1⟩⟩) ∧
    (colors.types.HasValues (.known ⟨8, 0⟩) ∨
      ¬ colors.types.IsEnum (.known ⟨8, 0⟩) ∧ colors.types.HasValues .int) ∧
    ∃ direction ty direction' ty',
      colors.types.CastBy (.known ⟨8, 0⟩) .int direction ty ∧
      colorToInt.2.program.types.CastBy .unknown (.known ⟨8, 0⟩) direction' ty' ∧
      ((⟨⟨2, 0⟩⟩ : SigId) = ⟨⟨2, 1⟩⟩ ↔ direction = direction' ∧ ty = ty') := by
  have reached := Session.reached_start (Program.built_ofCalls _ _ : colors.Built) .bySize
  have first : colorToInt.1 = .ok (some ⟨⟨2, 0⟩⟩) := by decide +kernel
  have second : unknownToColor.1 = .ok (some ⟨⟨2, 1⟩⟩) := by decide +kernel
  obtain ⟨found, answer, some?, later⟩ := enum_casts reached (.var (.known ⟨8, 0⟩))
    (.typeOf .int) (by decide +kernel) (by decide +kernel) .cast
  obtain rfl := Except.ok.inj (answer.symm.trans first)
  refine ⟨reached, first, second, (some?.1 rfl).2, ?_⟩
  exact later _ rfl _ .refl ⟨.ref, .unknown⟩ (.typeOf (.known ⟨8, 0⟩)) .cast _ (.inl rfl)
    (by decide +kernel) second

end MethodSynthesis
