import MethodSynthesis.Proofs.Scopes
import Mathlib.Data.List.Nodup
import Mathlib.Data.List.Perm.Subperm
import Mathlib.Data.List.Range

/-!
# When a lookup ends

A lookup visits one scope after another and knows of no bound. `ScopeTree.Walk` says that it ends, and
after which scopes; `ScopeTree.Circles` that it comes back to a scope where it was before. Exactly one
of the two holds in every tree (`ScopeTree.exists_walk_iff`), a walk visits no scope twice
(`Walk.nodup`), and the number of steps that `ScopeTree.visible?` allows is enough for every walk that
ends (`Walk.visible?_eq`). A tree where each scope is added under one that is there has no circle, but a
scope may be added under itself (`selfParent_circles`).
-/

set_option autoImplicit false

namespace MethodSynthesis

namespace ScopeTree

variable {t : ScopeTree} {config : LookupConfig} {scope s q : ScopeId} {visited : List ScopeId}

/-- A lookup that starts in a scope ends after it visits these scopes, in this order. -/
inductive Walk (t : ScopeTree) (config : LookupConfig) : ScopeId → List ScopeId → Prop
  /-- There is no such scope. -/
  | absent {scope : ScopeId} : t.get? scope = none → Walk t config scope []
  /-- The lookup does not leave the scope. -/
  | last {scope : ScopeId} {data : ScopeData} : t.get? scope = some data →
      data.next? config = none → Walk t config scope [scope]
  | step {scope parent : ScopeId} {data : ScopeData} {visited : List ScopeId} :
      t.get? scope = some data → data.next? config = some parent →
        Walk t config parent visited → Walk t config scope (scope :: visited)

/-- A lookup that starts in a scope comes to some scope again and again. -/
def Circles (t : ScopeTree) (config : LookupConfig) (scope : ScopeId) : Prop :=
  ∃ s, Relation.ReflTransGen (t.Follows config) scope s ∧ Relation.TransGen (t.Follows config) s s

/-! ## Walks -/

namespace Walk

/-- What follows a scope is visited next. -/
theorem of_follows (walk : t.Walk config s visited) (follows : t.Follows config s q) :
    ∃ rest, visited = s :: rest ∧ t.Walk config q rest := by
  obtain ⟨data, get, next⟩ := follows
  cases walk with
  | absent none => exact nomatch none.symm.trans get
  | last get' none =>
    obtain rfl := Option.some.inj (get'.symm.trans get)
    exact nomatch none.symm.trans next
  | step get' next' walk =>
    obtain rfl := Option.some.inj (get'.symm.trans get)
    obtain rfl := Option.some.inj (next'.symm.trans next)
    exact ⟨_, rfl, walk⟩

/-- What comes later on the way has fewer scopes ahead. -/
theorem of_transGen (walk : t.Walk config s visited)
    (path : Relation.TransGen (t.Follows config) s q) :
    ∃ rest, t.Walk config q rest ∧ rest.length < visited.length := by
  induction path with
  | single follows =>
    obtain ⟨rest, rfl, walk'⟩ := walk.of_follows follows
    exact ⟨rest, walk', Nat.lt_succ_self _⟩
  | tail _ follows ih =>
    obtain ⟨before, walk', lt⟩ := ih
    obtain ⟨rest, rfl, further⟩ := walk'.of_follows follows
    exact ⟨rest, further, Nat.lt_of_succ_lt lt⟩

theorem unique (walk : t.Walk config s visited) {visited' : List ScopeId}
    (walk' : t.Walk config s visited') : visited = visited' := by
  induction walk generalizing visited' with
  | absent none =>
    cases walk' with
    | absent _ => rfl
    | last get _ => exact nomatch none.symm.trans get
    | step get _ _ => exact nomatch none.symm.trans get
  | last get none =>
    cases walk' with
    | absent absent => exact nomatch absent.symm.trans get
    | last _ _ => rfl
    | step get' next _ =>
      obtain rfl := Option.some.inj (get.symm.trans get')
      exact nomatch none.symm.trans next
  | step get next _ ih =>
    obtain ⟨rest, rfl, further⟩ := walk'.of_follows ⟨_, get, next⟩
    exact congrArg _ (ih further)

/-- A lookup that ends comes to no scope again. -/
theorem not_circles (walk : t.Walk config scope visited) : ¬ t.Circles config scope := by
  rintro ⟨s, path, circle⟩
  obtain ⟨ahead, walk⟩ : ∃ ahead, t.Walk config s ahead := by
    rcases Relation.reflTransGen_iff_eq_or_transGen.1 path with rfl | path
    · exact ⟨visited, walk⟩
    · obtain ⟨rest, walk', -⟩ := walk.of_transGen path
      exact ⟨rest, walk'⟩
  -- once around, fewer scopes would be ahead than there are
  obtain ⟨rest, walk', lt⟩ := walk.of_transGen circle
  exact absurd lt (by rw [walk.unique walk']; exact Nat.lt_irrefl _)

theorem exists_get? (walk : t.Walk config scope visited) (mem : s ∈ visited) :
    ∃ data, t.get? s = some data := by
  induction walk with
  | absent _ => exact absurd mem List.not_mem_nil
  | last get _ => exact ⟨_, List.mem_singleton.1 mem ▸ get⟩
  | step get _ _ ih =>
    rcases List.mem_cons.1 mem with rfl | mem
    · exact ⟨_, get⟩
    · exact ih mem

theorem reflTransGen (walk : t.Walk config scope visited) (mem : s ∈ visited) :
    Relation.ReflTransGen (t.Follows config) scope s := by
  induction walk with
  | absent _ => exact absurd mem List.not_mem_nil
  | last _ _ => exact List.mem_singleton.1 mem ▸ .refl
  | step get next _ ih =>
    rcases List.mem_cons.1 mem with rfl | mem
    · exact .refl
    · exact .head ⟨_, get, next⟩ (ih mem)

/-- A lookup that ends visits no scope twice. -/
theorem nodup (walk : t.Walk config scope visited) : visited.Nodup := by
  induction walk with
  | absent _ => exact List.nodup_nil
  | last _ _ => exact List.nodup_singleton _
  | @step scope parent _ visited get next walk ih =>
    refine List.nodup_cons.2 ⟨fun again => ?_, ih⟩
    have circle : Relation.TransGen (t.Follows config) scope scope :=
      .head' ⟨_, get, next⟩ (walk.reflTransGen again)
    exact (Walk.step get next walk).not_circles ⟨scope, .refl, circle⟩

end Walk

/-- Different scopes that are there are no more than the tree has. -/
theorem length_le_size (nodup : visited.Nodup) (stored : ∀ s ∈ visited, ∃ data, t.get? s = some data) :
    visited.length ≤ t.size := by
  have injective : Function.Injective ScopeId.index := by
    rintro ⟨i⟩ ⟨j⟩ rfl
    rfl
  have subset : visited.map ScopeId.index ⊆ List.range t.size := by
    intro i mem
    obtain ⟨s, hs, rfl⟩ := List.mem_map.1 mem
    obtain ⟨data, get⟩ := stored s hs
    exact List.mem_range.2 (lt_size_of_get? get)
  have le := ((nodup.map injective).subperm subset).length_le
  rwa [List.length_map, List.length_range] at le

/-! ## Steps -/

/-- A walk that ends does so within any greater number of steps. -/
theorem Walk.visibleWithin_eq (walk : t.Walk config scope visited) {steps : Nat}
    (lt : visited.length < steps) :
    t.visibleWithin config steps scope = some (visited.filterMap t.get?) := by
  induction walk generalizing steps with
  | absent none =>
    obtain ⟨steps, rfl⟩ := Nat.exists_eq_succ_of_ne_zero (Nat.ne_of_gt lt)
    simp [visibleWithin, none]
  | last get none =>
    obtain ⟨steps, rfl⟩ := Nat.exists_eq_succ_of_ne_zero (Nat.ne_zero_of_lt lt)
    simp [visibleWithin, get, none]
  | step get next _ ih =>
    obtain ⟨steps, rfl⟩ := Nat.exists_eq_succ_of_ne_zero (Nat.ne_zero_of_lt lt)
    have rest := ih (Nat.lt_of_succ_lt_succ lt)
    simp [visibleWithin, get, next, rest]

/-- The steps that are allowed are enough for every walk that ends. -/
theorem Walk.visible?_eq (walk : t.Walk config scope visited) :
    t.visible? config scope = some (visited.filterMap t.get?) := by
  -- no scope is visited twice, so a walk is no longer than the tree has scopes
  have le := length_le_size walk.nodup fun s mem => walk.exists_get? mem
  exact walk.visibleWithin_eq (Nat.lt_succ_of_le le)

/-- A lookup that does not end within some steps has taken as many, from scope to scope. -/
theorem path_of_visibleWithin_eq_none {steps : Nat}
    (endless : t.visibleWithin config steps scope = none) :
    ∃ path : List ScopeId, path.length = steps ∧
      (∀ s ∈ path, (∃ data, t.get? s = some data) ∧
        Relation.ReflTransGen (t.Follows config) scope s) ∧
      path.Pairwise (Relation.TransGen (t.Follows config)) := by
  induction steps generalizing scope with
  | zero => exact ⟨[], rfl, fun _ mem => absurd mem List.not_mem_nil, List.Pairwise.nil⟩
  | succ steps ih =>
    unfold visibleWithin at endless
    split at endless
    · cases endless
    · rename_i data get
      split at endless
      · cases endless
      · rename_i parent next
        have follows : t.Follows config scope parent := ⟨data, get, next⟩
        obtain ⟨path, length, stored, pairwise⟩ := ih (Option.map_eq_none_iff.1 endless)
        -- the path goes on from the parent, so the scope leads to each scope on it
        refine ⟨scope :: path, congrArg Nat.succ length, fun s mem => ?_,
          List.pairwise_cons.2 ⟨fun s mem => .head' follows (stored s mem).2, pairwise⟩⟩
        rcases List.mem_cons.1 mem with rfl | mem
        · exact ⟨⟨data, get⟩, .refl⟩
        · exact ⟨(stored s mem).1, .head follows (stored s mem).2⟩

/-- A lookup that ends within some steps makes a walk. -/
theorem exists_walk_of_visibleWithin {steps : Nat} {l : List ScopeData}
    (ends : t.visibleWithin config steps scope = some l) : ∃ visited, t.Walk config scope visited := by
  induction steps generalizing scope l with
  | zero => exact nomatch ends
  | succ steps ih =>
    unfold visibleWithin at ends
    split at ends
    · rename_i none
      exact ⟨[], .absent none⟩
    · rename_i data get
      split at ends
      · rename_i none
        exact ⟨[scope], .last get none⟩
      · rename_i parent next
        obtain ⟨l, rest, -⟩ := Option.map_eq_some_iff.1 ends
        obtain ⟨visited, walk⟩ := ih rest
        exact ⟨scope :: visited, .step get next walk⟩

/-- A lookup ends, or it runs in a circle. -/
theorem exists_walk_iff : (∃ visited, t.Walk config scope visited) ↔ ¬ t.Circles config scope := by
  constructor
  · rintro ⟨visited, walk⟩
    exact walk.not_circles
  · intro straight
    cases ends : t.visibleWithin config (t.size + 1) scope with
    | some l => exact exists_walk_of_visibleWithin ends
    | none =>
      -- on a way longer than the tree has scopes, some scope comes twice
      obtain ⟨path, length, stored, pairwise⟩ := path_of_visibleWithin_eq_none ends
      have nodup : path.Nodup := by
        refine pairwise.imp_of_mem fun mem _ later eq => ?_
        subst eq
        exact straight ⟨_, (stored _ mem).2, later⟩
      have le := length_le_size nodup fun s mem => (stored s mem).1
      omega

/-- When a lookup ends it finds what is declared in the scopes it visits. -/
theorem Walk.lookup_eq (walk : t.Walk config scope visited) (name : Name) :
    t.lookup scope name config =
      .ok ((visited.filterMap t.get?).flatMap (·.declared name config)) := by
  rw [lookup, lookup?, walk.visible?_eq]
  rfl

/-- A lookup that runs in a circle has no answer, however many steps it may take. -/
theorem Circles.visibleWithin_eq_none (circles : t.Circles config scope) (steps : Nat) :
    t.visibleWithin config steps scope = none := by
  cases ends : t.visibleWithin config steps scope with
  | none => rfl
  | some l => exact absurd circles (exists_walk_iff.1 (exists_walk_of_visibleWithin ends))

/-- Parents that are older than the scopes inside them lead to no circle. -/
theorem Nested.not_circles (nested : t.Nested) : ¬ t.Circles config scope := by
  rintro ⟨s, -, circle⟩
  have older : ∀ {q}, Relation.TransGen (t.Follows config) s q → q.index < s.index := by
    intro q path
    induction path with
    | single follows =>
      obtain ⟨data, get, next⟩ := follows
      exact nested get (parent_eq_of_next?_eq next)
    | tail _ follows ih =>
      obtain ⟨data, get, next⟩ := follows
      exact (nested get (parent_eq_of_next?_eq next)).trans ih
  exact Nat.lt_irrefl _ (older circle)

end ScopeTree

/-! ## Trees that calls make -/

/-- A call that changes a tree of scopes. -/
inductive ScopeCall where
  | push (parent : Option ScopeId) (kind : ScopeKind)
  | declare (scope : ScopeId) (entry : ScopeEntry)

namespace ScopeCall

/-- The tree after a call. -/
def run (t : ScopeTree) : ScopeCall → ScopeTree
  | .push parent kind => (t.push parent kind).2
  | .declare scope entry => t.declare scope entry

/-- A scope is added under one that is there, or under none. -/
def Founded (t : ScopeTree) : ScopeCall → Prop
  | .push parent _ => ∀ q ∈ parent, q.index < t.size
  | .declare _ _ => True

/-- So is every scope that a sequence of calls adds. -/
def AllFounded (t : ScopeTree) : List ScopeCall → Prop
  | [] => True
  | call :: calls => call.Founded t ∧ AllFounded (call.run t) calls

end ScopeCall

namespace ScopeTree

/-- The tree that calls lead to. -/
def runAll (t : ScopeTree) (calls : List ScopeCall) : ScopeTree := calls.foldl ScopeCall.run t

theorem Nested.runAll {t : ScopeTree} (nested : t.Nested) {calls : List ScopeCall}
    (founded : ScopeCall.AllFounded t calls) : (t.runAll calls).Nested := by
  induction calls generalizing t with
  | nil => exact nested
  | cons call calls ih =>
    refine ih ?_ founded.2
    cases call with
    | push parent kind => exact Nested.push nested founded.1 kind
    | declare scope entry => exact Nested.declare nested scope entry

/-- A lookup ends, visits each scope at most once and finds what is declared there, exactly if the
parents do not run in a circle; and they do not if each scope is added under one that is there. -/
theorem lookup_ends_iff (calls : List ScopeCall) (scope : ScopeId) (name : Name)
    (config : LookupConfig) :
    ((∃ visited, (empty.runAll calls).Walk config scope visited ∧ visited.Nodup ∧
        (empty.runAll calls).lookup scope name config =
          .ok ((visited.filterMap (empty.runAll calls).get?).flatMap (·.declared name config))) ↔
      ¬ (empty.runAll calls).Circles config scope) ∧
    (ScopeCall.AllFounded empty calls → ¬ (empty.runAll calls).Circles config scope) := by
  refine ⟨⟨?_, ?_⟩, ?_⟩
  · rintro ⟨visited, walk, -⟩
    exact walk.not_circles
  · intro straight
    obtain ⟨visited, walk⟩ := exists_walk_iff.2 straight
    exact ⟨visited, walk, walk.nodup, walk.lookup_eq name⟩
  · intro founded
    have nested : empty.Nested := fun h => nomatch h
    exact Nested.not_circles (Nested.runAll nested founded)

/-- A scope that is its own parent. -/
def selfParent : ScopeTree := empty.runAll [.push (some ⟨0⟩) .composite]

/-- A lookup that starts in it comes back to it at once, and does not end within any number of steps. -/
theorem selfParent_circles :
    selfParent.Circles .all ⟨0⟩ ∧ (¬ ∃ visited, selfParent.Walk .all ⟨0⟩ visited) ∧
      (∀ steps, selfParent.visibleWithin .all steps ⟨0⟩ = none) ∧
      ∀ name, selfParent.lookup ⟨0⟩ name .all = .error (.endlessScopes ⟨0⟩) := by
  have circles : selfParent.Circles .all ⟨0⟩ :=
    ⟨⟨0⟩, .refl, .single ⟨⟨some ⟨0⟩, .composite, []⟩, rfl, rfl⟩⟩
  exact ⟨circles, fun ends => exists_walk_iff.1 ends circles, circles.visibleWithin_eq_none,
    fun _ => rfl⟩

/-- A body whose parent, a module, is added only after it: there is no circle, and the lookup visits
both. When the module is added first there is none from the start. -/
theorem bodyInModule_lookup_ends :
    let late := [.push (some ⟨1⟩) .composite, .push none .module,
      .declare ⟨1⟩ ⟨.receiver, .at 0, false⟩]
    let early := [.push none .module, .push (some ⟨0⟩) .composite]
    (¬ (empty.runAll late).Circles .all ⟨0⟩ ∧
      ∃ visited, (empty.runAll late).Walk .all ⟨0⟩ visited ∧ visited.Nodup ∧
        (empty.runAll late).lookup ⟨0⟩ .receiver .all =
          .ok ((visited.filterMap (empty.runAll late).get?).flatMap
            (·.declared .receiver .all))) ∧
    ScopeCall.AllFounded empty early ∧ ¬ (empty.runAll early).Circles .all ⟨1⟩ := by
  intro late early
  have body : (empty.runAll late).get? ⟨0⟩ = some ⟨some ⟨1⟩, .composite, []⟩ := rfl
  have module : (empty.runAll late).get? ⟨1⟩ =
      some ⟨none, .module, [⟨.receiver, .at 0, false⟩]⟩ := rfl
  have walk : (empty.runAll late).Walk .all ⟨0⟩ [⟨0⟩, ⟨1⟩] :=
    .step body rfl (.last module rfl)
  have founded : ScopeCall.AllFounded empty early := by
    refine ⟨fun q hq => (nomatch hq), fun q hq => ?_, trivial⟩
    obtain rfl := Option.some.inj hq
    exact Nat.zero_lt_one
  exact ⟨⟨walk.not_circles, (lookup_ends_iff late ⟨0⟩ .receiver .all).1.2 walk.not_circles⟩,
    founded, (lookup_ends_iff early ⟨1⟩ .receiver .all).2 founded⟩

end ScopeTree

end MethodSynthesis
