import MethodSynthesis.Proofs.Callability
import MethodSynthesis.Proofs.DraftForms
import MethodSynthesis.Proofs.Footprint

/-!
# Where signatures come from

A query that gives a signature found it in a memo table, or has drafted it over the pool at hand and
stored the draft (`provides_ask`). So each signature that a session keeps or gives was drafted for its
query by some host, over a pool that the present one extends (`Session.Drafted`,
`Session.Reached.drafted_ask`), whatever has been built and asked in between.
-/

set_option autoImplicit false

namespace MethodSynthesis

/-- The drafts that a query may be answered by, over a pool. -/
inductive Call.Drafts (host : Host) (pool : TypePool) : Call → Draft → Prop
  | method {ty : TypeId} {name : Name} {parenless : Bool} {draft : Draft} :
      host.MethodDraft pool ty name draft → Drafts host pool (.method ty name parenless) draft
  | binaryOp {lhs rhs : Qualified} {draft : Draft} :
      pool.CastDraft lhs.type rhs.type draft → Drafts host pool (.binaryOp lhs rhs .cast) draft
  | accessor {ty : TypeId} {field : Name} {draft : Draft} :
      host.AccessorDraft pool ty field draft → Drafts host pool (.accessor (some ty) field) draft

/-- Each signature that the query gives is kept for `call`, in which case nothing is stored, or it is a
draft of `call` that is stored now. -/
def Query.Provides {β : Type} (host : Host) (q : Query β) (encode : β → Reply SigId) (call : Call) :
    Prop :=
  ∀ s : Session, s.program.types.Sound →
    (Session.SameTables s (q.exec s).2 ∧ ∀ b id, (q.exec s).1 = .ok b → encode b = .signature id →
      s.memo.kept? call = some (.signature id)) ∨
    ∃ draft b, call.Drafts host s.program.types draft ∧ (q.exec s).1 = .ok b ∧
      encode b = .signature (s.stored draft).1 ∧
        Session.SameTables (s.stored draft).2 (q.exec s).2

/-- What a query made it has drafted in one of the ways that `Call.Drafts` lists. -/
theorem Call.Makes.drafts {host : Host} {pool : TypePool} {call : Call} {draft : Draft}
    (h : call.Makes host pool draft) (sound : pool.Sound) : call.Drafts host pool draft := by
  cases h with
  | method h => exact .method (sound.draftMethod_eq_ok_iff.1 h)
  | binaryOp h =>
    obtain ⟨rfl, cast⟩ := TypePool.castDraft_of_eq_ok h
    exact .binaryOp cast
  | accessor h => exact .accessor (TypePool.draftAccessor_eq_ok_iff.1 h)

/-- A query gives a signature that is kept for it, or one that it has drafted. -/
theorem provides_ask (host : Host) (call : Call) :
    (call.ask host).Provides host (fun reply => reply) call := by
  intro s sound
  rcases gives_ask host call s with kept | ⟨draft, b, makes, made⟩
  · exact .inl kept
  · exact .inr ⟨draft, b, makes.drafts sound, made⟩

/-! ## Runs -/

/-- What the drafts of queries borrow are classes of the pool. -/
theorem Call.Drafts.borrowsClasses {host : Host} {pool : TypePool} {call : Call} {draft : Draft}
    (h : call.Drafts host pool draft) (sound : pool.Sound) : draft.BorrowsClasses pool := by
  cases h with
  | method h =>
    have isFor := sound.isFor_draftMethod host (sound.draftMethod_eq_ok_iff.2 h)
    exact isFor.borrowsClasses sound
  | binaryOp h =>
    intro formal mem
    cases h with
    | fromEnum _ _ | toEnum _ _ _ =>
      rcases List.mem_pair.1 mem with rfl | rfl <;> trivial
  | accessor h =>
    have isFor := sound.isFor_draftAccessor host (TypePool.draftAccessor_eq_ok_iff.2 h)
    exact isFor.borrowsClasses sound

theorem Call.Drafts.grounded {host : Host} {pool : TypePool} {call : Call} {draft : Draft}
    (h : call.Drafts host pool draft) (sound : pool.Sound) : draft.Grounded pool :=
  fun formal mem => (h.borrowsClasses sound formal mem).grounded

namespace Session

/-- The signature was drafted for the query by some host, over a pool that the present one extends. -/
def Drafted (s : Session) (call : Call) (id : SigId) : Prop :=
  ∃ (host : Host) (pool : TypePool) (draft : Draft), pool.Sound ∧ pool.Grows s.program.types ∧
    call.Drafts host pool draft ∧ draft.IsStoredAs s.program.types s.signatures id

variable {s s' : Session} {call : Call} {id : SigId}

theorem Drafted.grows (h : s.Drafted call id) (g : s.program.types.Grows s'.program.types)
    (g' : s.signatures.Grows s'.signatures) : s'.Drafted call id := by
  obtain ⟨host, pool, draft, sound, g₀, drafts, stored⟩ := h
  exact ⟨host, pool, draft, sound, g₀.trans g, drafts, stored.grows g g'⟩

/-- A query only adds to the pools, and leaves the pool of types sound. -/
theorem sound_ask (types : s.program.types.Sound) (signatures : s.signatures.WellFormed) (host : Host)
    (call : Call) :
    ((call.ask host).exec s).2.program.types.Sound ∧
      s.program.types.Grows ((call.ask host).exec s).2.program.types ∧
        s.signatures.Grows ((call.ask host).exec s).2.signatures := by
  have wf := types.wellFormed
  rcases provides_ask host call s types with ⟨tables, -⟩ | ⟨draft, -, drafts, -, -, tables⟩
  · rw [← tables.1, ← tables.2]
    exact ⟨types, .refl wf, .refl signatures⟩
  · rw [← tables.1, ← tables.2]
    obtain ⟨g, g', -⟩ := draft.grows_store wf signatures (drafts.grounded types)
    exact ⟨DraftFormal.sound_storeTypes types (drafts.borrowsClasses types), g, g'⟩

theorem Sound.grows_ask (sound : s.Sound) (host : Host) (call : Call) :
    s.program.types.Grows ((call.ask host).exec s).2.program.types ∧
      s.signatures.Grows ((call.ask host).exec s).2.signatures :=
  (sound_ask sound.program.types sound.signatures host call).2

/-- A query that gives a signature had it kept, or has just drafted and stored it. -/
theorem Sound.kept_or_stored (sound : s.Sound) (host : Host)
    (answer : ((call.ask host).exec s).1 = .ok (.signature id)) :
    s.memo.kept? call = some (.signature id) ∨
      ∃ draft, call.Drafts host s.program.types draft ∧
        draft.IsStoredAs ((call.ask host).exec s).2.program.types
          ((call.ask host).exec s).2.signatures id := by
  have types := sound.program.types
  rcases provides_ask host call s types with ⟨-, found⟩ | ⟨draft, reply, drafts, given, eq, tables⟩
  · exact .inl (found _ id answer rfl)
  · obtain ⟨-, -, stored⟩ :=
      draft.grows_store types.wellFormed sound.signatures (drafts.grounded types)
    obtain rfl := Except.ok.inj (given.symm.trans answer)
    obtain rfl := Reply.signature.inj eq
    refine .inr ⟨draft, drafts, ?_⟩
    rw [← tables.1, ← tables.2]
    exact stored

/-- A signature that a query gives was drafted for it, if that holds of what is kept. -/
theorem Sound.drafted_ask (sound : s.Sound) (host : Host)
    (kept : s.memo.kept? call = some (.signature id) → s.Drafted call id)
    (answer : ((call.ask host).exec s).1 = .ok (.signature id)) :
    ((call.ask host).exec s).2.Drafted call id := by
  obtain ⟨g, g'⟩ := sound.grows_ask host call
  rcases sound.kept_or_stored host answer with found | ⟨draft, drafts, stored⟩
  · exact (kept found).grows g g'
  · exact ⟨host, s.program.types, draft, sound.program.types, g, drafts, stored⟩

/-- In a session that builders and queries lead to, each kept signature was drafted for its query. -/
theorem Reached.drafted_of_kept (reached : s.Reached)
    (kept : s.memo.kept? call = some (.signature id)) : s.Drafted call id := by
  induction reached generalizing call id with
  | empty names => exact nomatch (MemoTables.kept?_empty call).symm.trans kept
  | @build s builder p reached admitted eq ih =>
    obtain ⟨-, ext⟩ := Program.run_interned reached.sound.program.types.interned admitted eq
    have after := (reached.build admitted eq).sound
    exact (ih kept).grows ⟨reached.sound.program.types.wellFormed, after.program.types.wellFormed, ext⟩
      (.refl reached.sound.signatures)
  | @ask s host asked reached ih =>
    obtain ⟨g, g'⟩ := reached.sound.grows_ask host asked
    by_cases this : call = asked
    · subst this
      -- what is kept for the query is its answer
      rcases isKept_ask call with isKept | ⟨reply, uncounted⟩
      · have given := (isKept host).kept_eq s
        rw [kept] at given
        refine reached.sound.drafted_ask host ih ?_
        cases answer : ((call.ask host).exec s).1 with
        | error fault =>
          rw [answer] at given
          exact nomatch given
        | ok reply =>
          rw [answer] at given
          exact congrArg Except.ok (Option.some.inj given).symm
      · rw [uncounted.exec_ask] at kept ⊢
        exact ih kept
    · have noNeed : ∀ ty name parenless, call ≠ .need ty name parenless := by
        rintro ty name parenless rfl
        obtain ⟨needed, -, eq⟩ := Option.map_eq_some_iff.1 kept
        exact nomatch eq
      rw [kept?_ask_of_ne host this noNeed] at kept
      exact (ih kept).grows g g'

/-- A signature that a query gives in such a session was drafted for it. -/
theorem Reached.drafted_ask (reached : s.Reached) (host : Host)
    (answer : ((call.ask host).exec s).1 = .ok (.signature id)) :
    ((call.ask host).exec s).2.Drafted call id :=
  reached.sound.drafted_ask host reached.drafted_of_kept answer

end Session

end MethodSynthesis
