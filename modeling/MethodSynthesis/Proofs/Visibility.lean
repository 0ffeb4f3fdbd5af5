import MethodSynthesis.Proofs.ScopeWalks

/-!
# What can be seen from a scope

A tree of scopes is what a history of calls has made of it. `ScopeCall.pushed` reads off a history
which scopes there are, `ScopeCall.declared` what is declared in each, and `ScopeCall.Chain` which
scopes are in sight from another; none of them looks at a tree. `ScopeTree.get?_runAll` says that the
tree holds what the history says, by induction over the calls.

From this `ScopeTree.lookup_eq_visible` follows: a lookup gives what the history declares under the
name along the chain, each declaration once and in order, and one more declaration is seen from a
scope exactly if it is made under that name in a scope of the chain and is of a sort that is looked
for. It is then listed after what its scope has, and nothing else moves.
-/

set_option autoImplicit false

namespace MethodSynthesis

/-! ## Histories -/

namespace ScopeCall

/-- The scopes that calls add, in order, each with its parent and what introduced it. -/
def pushed (calls : List ScopeCall) : List (Option ScopeId × ScopeKind) :=
  calls.filterMap fun
    | .push parent kind => some (parent, kind)
    | .declare _ _ => none

/-- What calls declare in a scope, in order, if `size` scopes are there before them. What is declared
before the scope is there is lost. -/
def declared (scope : ScopeId) (size : Nat) : List ScopeCall → List ScopeEntry
  | [] => []
  | .push _ _ :: calls => declared scope (size + 1) calls
  | .declare s entry :: calls =>
    if s = scope ∧ scope.index < size then entry :: declared scope size calls
    else declared scope size calls

/-- The scopes in sight from a scope, innermost first, when these scopes have been added. The parents
are in sight if they are asked for, up to the first module or to a scope without a parent. -/
inductive Chain (scopes : List (Option ScopeId × ScopeKind)) (config : LookupConfig) :
    ScopeId → List ScopeId → Prop
  | missing {scope : ScopeId} : scopes[scope.index]? = none → Chain scopes config scope []
  | alone {scope : ScopeId} {parent : Option ScopeId} {kind : ScopeKind} :
      scopes[scope.index]? = some (parent, kind) → config.parents = false →
        Chain scopes config scope [scope]
  | module {scope : ScopeId} {parent : Option ScopeId} :
      scopes[scope.index]? = some (parent, .module) → Chain scopes config scope [scope]
  | root {scope : ScopeId} {kind : ScopeKind} :
      scopes[scope.index]? = some (none, kind) → Chain scopes config scope [scope]
  | outward {scope parent : ScopeId} {chain : List ScopeId} :
      scopes[scope.index]? = some (some parent, .composite) → config.parents = true →
        Chain scopes config parent chain → Chain scopes config scope (scope :: chain)

/-- Whether a lookup keeps an entry: methods are kept if methods are looked for, and other
declarations if those are. -/
def Keeps (config : LookupConfig) (entry : ScopeEntry) : Prop :=
  (entry.isMethod = true → config.methods = true) ∧ (entry.isMethod = false → config.decls = true)

instance (config : LookupConfig) (entry : ScopeEntry) : Decidable (Keeps config entry) :=
  inferInstanceAs (Decidable (_ ∧ _))

/-- What calls declare under a name in a scope, as far as a lookup keeps it. -/
def found (calls : List ScopeCall) (name : Name) (config : LookupConfig) (scope : ScopeId) :
    List DeclId :=
  ((declared scope 0 calls).filter fun e => e.name = name ∧ Keeps config e).map (·.decl)

/-- What calls declare under a name along a chain of scopes. -/
def foundAlong (calls : List ScopeCall) (name : Name) (config : LookupConfig)
    (chain : List ScopeId) : List DeclId :=
  chain.flatMap (found calls name config)

/-- A declaration can be seen along a chain: it is made under the name, in a scope of the chain that is
there, and is of a sort that is looked for. -/
def IsSeen (calls : List ScopeCall) (name : Name) (config : LookupConfig) (chain : List ScopeId)
    (q : ScopeId) (entry : ScopeEntry) : Prop :=
  entry.name = name ∧ q.index < (pushed calls).length ∧ q ∈ chain ∧ Keeps config entry

variable {scope q : ScopeId} {config : LookupConfig} {entry : ScopeEntry}

theorem admits_eq_true_iff : config.admits entry = true ↔ Keeps config entry := by
  unfold LookupConfig.admits Keeps
  cases entry.isMethod <;> simp

theorem pushed_append (calls more : List ScopeCall) :
    pushed (calls ++ more) = pushed calls ++ pushed more :=
  List.filterMap_append

theorem declared_append (scope : ScopeId) (size : Nat) (calls more : List ScopeCall) :
    declared scope size (calls ++ more) =
      declared scope size calls ++ declared scope (size + (pushed calls).length) more := by
  induction calls generalizing size with
  | nil => rfl
  | cons call calls ih =>
    cases call with
    | push parent kind =>
      have length : size + 1 + (pushed calls).length =
          size + (pushed (.push parent kind :: calls)).length := by
        simp only [pushed, List.filterMap_cons, List.length_cons]
        omega
      simp only [List.cons_append, declared, ih, length]
    | declare s entry =>
      have length : (pushed (.declare s entry :: calls)).length = (pushed calls).length := rfl
      simp only [List.cons_append, declared, ih, length]
      split <;> rfl

/-- Nothing is declared in a scope before it is there. -/
theorem declared_eq_nil {size : Nat} {calls : List ScopeCall}
    (missing : size + (pushed calls).length ≤ scope.index) : declared scope size calls = [] := by
  induction calls generalizing size with
  | nil => rfl
  | cons call calls ih =>
    cases call with
    | push parent kind =>
      simp only [pushed, List.filterMap_cons, List.length_cons] at missing
      exact ih (by simp only [pushed]; omega)
    | declare s entry =>
      have later : size + (pushed calls).length ≤ scope.index := missing
      rw [declared, if_neg (by omega)]
      exact ih later

/-- One more declaration is found in its scope alone, after what is found there. -/
theorem found_declare (calls : List ScopeCall) (name : Name) (config : LookupConfig)
    (q : ScopeId) (entry : ScopeEntry) (scope : ScopeId) :
    found (calls ++ [.declare q entry]) name config scope =
      found calls name config scope ++
        if q = scope ∧ scope.index < (pushed calls).length ∧ entry.name = name ∧ Keeps config entry
        then [entry.decl] else [] := by
  unfold found
  rw [declared_append, List.filter_append, List.map_append, Nat.zero_add]
  congr 1
  by_cases inside : q = scope ∧ scope.index < (pushed calls).length
  · by_cases kept : entry.name = name ∧ Keeps config entry
    · simp [declared, inside, kept]
    · simp [declared, inside, kept]
  · have outside : ¬ (q = scope ∧ scope.index < (pushed calls).length ∧ entry.name = name ∧
        Keeps config entry) :=
      fun ⟨same, there, _⟩ => inside ⟨same, there⟩
    simp [declared, inside, outside]

end ScopeCall

/-! ## Trees and their histories -/

namespace ScopeTree

open ScopeCall

variable {calls : List ScopeCall} {config : LookupConfig} {scope q : ScopeId}
  {visited : List ScopeId}

theorem runAll_append (t : ScopeTree) (calls : List ScopeCall) (call : ScopeCall) :
    t.runAll (calls ++ [call]) = call.run (t.runAll calls) :=
  List.foldl_append

theorem size_runAll (calls : List ScopeCall) :
    (empty.runAll calls).size = (pushed calls).length := by
  induction calls using List.reverseRecOn with
  | nil => rfl
  | append_singleton calls call ih =>
    rw [runAll_append, pushed_append, List.length_append, ← ih]
    cases call with
    | push parent kind => exact List.length_append
    | declare s entry => exact List.length_modify ..

/-- The tree that calls lead to holds what the calls say of each scope. -/
theorem get?_runAll (calls : List ScopeCall) (s : ScopeId) :
    (empty.runAll calls).get? s =
      (pushed calls)[s.index]?.map fun (parent, kind) => ⟨parent, kind, declared s 0 calls⟩ := by
  induction calls using List.reverseRecOn with
  | nil => rfl
  | append_singleton calls call ih =>
    rw [runAll_append, pushed_append, declared_append, Nat.zero_add]
    cases call with
    | push parent kind =>
      have last : pushed [.push parent kind] = [(parent, kind)] := rfl
      have nothing : declared s (pushed calls).length [.push parent kind] = [] := rfl
      rw [ScopeCall.run, get?_push, size_runAll, ih, last, nothing, List.append_nil]
      by_cases new : s.index = (pushed calls).length
      · -- the scope is the new one, and what was declared in it before is lost
        rw [if_pos new, new, List.getElem?_concat_length, declared_eq_nil (by omega)]
        rfl
      · rw [if_neg new]
        rcases Nat.lt_or_gt_of_ne new with lt | gt
        · rw [List.getElem?_append_left lt]
        · rw [List.getElem?_eq_none (Nat.le_of_lt gt), List.getElem?_eq_none]
          rw [List.length_append, List.length_singleton]
          exact gt
    | declare q entry =>
      have none : pushed [.declare q entry] = [] := rfl
      rw [ScopeCall.run, get?_declare, ih, none, List.append_nil]
      cases get : (pushed calls)[s.index]? with
      | none => rfl
      | some scope =>
        have there : s.index < (pushed calls).length := (List.getElem?_eq_some_iff.1 get).1
        by_cases same : s = q
        · subst same
          simp [declared, there]
        · simp [declared, same, Ne.symm same]

/-- A lookup visits the scopes in sight, and no others. -/
theorem walk_iff_chain :
    (empty.runAll calls).Walk config scope visited ↔ Chain (pushed calls) config scope visited := by
  constructor
  · intro walk
    induction walk with
    | absent none =>
      rw [get?_runAll, Option.map_eq_none_iff] at none
      exact .missing none
    | last get next =>
      rw [get?_runAll, Option.map_eq_some_iff] at get
      obtain ⟨⟨parent, kind⟩, added, rfl⟩ := get
      cases wide : config.parents with
      | false => exact .alone added wide
      | true =>
        cases kind with
        | module => exact .module added
        | composite =>
          obtain rfl : parent = none := by simpa [ScopeData.next?, wide] using next
          exact .root added
    | step get next _ ih =>
      rw [get?_runAll, Option.map_eq_some_iff] at get
      obtain ⟨⟨parent, kind⟩, added, rfl⟩ := get
      obtain ⟨⟨wide, rfl⟩, rfl⟩ : (config.parents = true ∧ kind = .composite) ∧ parent = some _ := by
        simpa [ScopeData.next?] using next
      exact .outward added wide ih
  · intro chain
    induction chain with
    | missing none => exact .absent (by rw [get?_runAll, none]; rfl)
    | alone added narrow =>
      refine .last (by rw [get?_runAll, added]; rfl) ?_
      simp [ScopeData.next?, narrow]
    | module added =>
      refine .last (by rw [get?_runAll, added]; rfl) ?_
      simp [ScopeData.next?]
    | root added =>
      refine .last (by rw [get?_runAll, added]; rfl) ?_
      simp [ScopeData.next?]
    | outward added wide _ ih =>
      refine .step (by rw [get?_runAll, added]; rfl) ?_ ih
      simp [ScopeData.next?, wide]

/-- A lookup finds what the history declares along the chain. -/
theorem lookup_eq_of_chain (chain : Chain (pushed calls) config scope visited) (name : Name) :
    (empty.runAll calls).lookup scope name config =
      .ok (foundAlong calls name config visited) := by
  have walk := walk_iff_chain.2 chain
  rw [walk.lookup_eq name]
  -- each scope that is visited is there, and declares what the history says
  have shown : ∀ s ∈ visited, ∃ data, (empty.runAll calls).get? s = some data ∧
      data.declared name config = found calls name config s := by
    intro s mem
    obtain ⟨data, get⟩ := walk.exists_get? mem
    refine ⟨data, get, ?_⟩
    rw [get?_runAll, Option.map_eq_some_iff] at get
    obtain ⟨added, -, rfl⟩ := get
    refine congrArg (List.map _) (List.filter_congr fun e _ => ?_)
    rw [Bool.eq_iff_iff, Bool.and_eq_true, admits_eq_true_iff]
    simp
  clear walk chain
  refine congrArg Except.ok ?_
  induction visited with
  | nil => rfl
  | cons s rest ih =>
    obtain ⟨data, get, same⟩ := shown s List.mem_cons_self
    have others := ih fun s mem => shown s (List.mem_cons_of_mem _ mem)
    rw [List.filterMap_cons_some get, List.flatMap_cons, same, others]
    rfl

/-- A declaration that can be seen is found after what its scope has, and nothing else moves. -/
theorem foundAlong_declare_of_isSeen {name : Name} {chain : List ScopeId} {entry : ScopeEntry}
    (nodup : chain.Nodup) (seen : IsSeen calls name config chain q entry) :
    ∃ inner outer, chain = inner ++ q :: outer ∧
      foundAlong (calls ++ [.declare q entry]) name config chain =
        foundAlong calls name config inner ++ (found calls name config q ++ [entry.decl]) ++
          foundAlong calls name config outer := by
  obtain ⟨named, there, mem, kept⟩ := seen
  obtain ⟨inner, outer, rfl⟩ := List.append_of_mem mem
  -- the scope stands in one place of the chain only
  obtain ⟨-, later, apart⟩ := List.nodup_append.1 nodup
  have elsewhere : ∀ s, s ≠ q →
      found (calls ++ [.declare q entry]) name config s = found calls name config s := by
    intro s ne
    rw [found_declare, if_neg fun h => ne h.1.symm, List.append_nil]
  have before : ∀ s ∈ inner, found (calls ++ [.declare q entry]) name config s =
      found calls name config s :=
    fun s hs => elsewhere s fun same => apart s hs q List.mem_cons_self same
  have after : ∀ s ∈ outer, found (calls ++ [.declare q entry]) name config s =
      found calls name config s :=
    fun s hs => elsewhere s fun same => (List.nodup_cons.1 later).1 (same ▸ hs)
  refine ⟨inner, outer, rfl, ?_⟩
  simp only [foundAlong]
  rw [List.flatMap_append, List.flatMap_cons, found_declare calls name config q entry q,
    if_pos ⟨rfl, there, named, kept⟩, List.flatMap_congr before, List.flatMap_congr after]
  exact (List.append_assoc ..).symm

/-- A declaration that cannot be seen changes nothing of what is found. -/
theorem foundAlong_declare_of_not_isSeen {name : Name} {chain : List ScopeId} {entry : ScopeEntry}
    (unseen : ¬ IsSeen calls name config chain q entry) :
    foundAlong (calls ++ [.declare q entry]) name config chain =
      foundAlong calls name config chain := by
  refine List.flatMap_congr fun s mem => ?_
  rw [found_declare, if_neg, List.append_nil]
  rintro ⟨rfl, there, named, kept⟩
  exact unseen ⟨named, there, mem, kept⟩

/-- A lookup gives what the history declares along the chain of the scope, in order and each
declaration once; there is exactly one chain, without repetition, and it is empty for a scope that is
not there. One more declaration changes what is found exactly if it can be seen along the chain. It then
stands right after the other results of its scope. -/
theorem lookup_eq_visible (calls : List ScopeCall) (founded : AllFounded empty calls)
    (scope : ScopeId) (config : LookupConfig) :
    ∃ chain, (∀ visited, Chain (pushed calls) config scope visited ↔ visited = chain) ∧
      chain.Nodup ∧ ((pushed calls).length ≤ scope.index → chain = []) ∧
      ∀ name,
        (empty.runAll calls).lookup scope name config = .ok (foundAlong calls name config chain) ∧
        ∀ q entry,
          ((empty.runAll (calls ++ [.declare q entry])).lookup scope name config ≠
            (empty.runAll calls).lookup scope name config ↔
              IsSeen calls name config chain q entry) ∧
          (IsSeen calls name config chain q entry → ∃ inner outer, chain = inner ++ q :: outer ∧
            (empty.runAll (calls ++ [.declare q entry])).lookup scope name config =
              .ok (foundAlong calls name config inner ++
                (found calls name config q ++ [entry.decl]) ++
                  foundAlong calls name config outer)) := by
  have nested : empty.Nested := fun h => nomatch h
  have straight : ¬ (empty.runAll calls).Circles config scope :=
    Nested.not_circles (Nested.runAll nested founded)
  obtain ⟨chain, walk⟩ := exists_walk_iff.2 straight
  have visible := walk_iff_chain.1 walk
  refine ⟨chain, fun visited => ⟨fun other => (walk_iff_chain.2 other).unique walk, ?_⟩,
    walk.nodup, fun missing => ?_, fun name => ⟨lookup_eq_of_chain visible name, ?_⟩⟩
  · rintro rfl
    exact visible
  · have none : (pushed calls)[scope.index]? = none := List.getElem?_eq_none missing
    exact walk.unique (walk_iff_chain.2 (.missing none))
  · intro q entry
    -- a declaration adds no scope, so the chain stays
    have same : pushed (calls ++ [.declare q entry]) = pushed calls := by
      rw [pushed_append]
      exact List.append_nil _
    rw [lookup_eq_of_chain visible name, lookup_eq_of_chain (same ▸ visible) name]
    refine ⟨⟨fun changed => ?_, fun seen unchanged => ?_⟩, fun seen => ?_⟩
    · by_contra unseen
      exact changed (congrArg Except.ok (foundAlong_declare_of_not_isSeen unseen))
    · -- one result more than before
      obtain ⟨inner, outer, rfl, eq⟩ := foundAlong_declare_of_isSeen walk.nodup seen
      have lengths := congrArg List.length (eq.symm.trans (Except.ok.inj unchanged))
      simp only [foundAlong, List.flatMap_append, List.flatMap_cons, List.length_append,
        List.length_cons, List.length_nil] at lengths
      omega
    · obtain ⟨inner, outer, split, eq⟩ := foundAlong_declare_of_isSeen walk.nodup seen
      exact ⟨inner, outer, split, congrArg Except.ok eq⟩

/-- A body in a module, with a declaration under one name in each and one in a scope that is not
there. -/
def bodyAndModule : List ScopeCall :=
  [.push none .module, .push (some ⟨0⟩) .composite, .declare ⟨0⟩ ⟨.init, .at 3, false⟩,
    .declare ⟨7⟩ ⟨.init, .at 4, true⟩, .declare ⟨1⟩ ⟨.init, .at 2, true⟩]

/-- Seen from the body, its own declaration comes first, although it was made last, and one more
declaration in the body comes between the two. -/
theorem bodyAndModule_visible :
    AllFounded empty bodyAndModule ∧
      (empty.runAll bodyAndModule).lookup ⟨1⟩ .init .all = .ok [.at 2, .at 3] ∧
      IsSeen bodyAndModule .init .all [⟨1⟩, ⟨0⟩] ⟨1⟩ ⟨.init, .at 5, true⟩ ∧
      ∃ inner outer, [⟨1⟩, ⟨0⟩] = inner ++ ⟨1⟩ :: outer ∧
        (empty.runAll (bodyAndModule ++ [.declare ⟨1⟩ ⟨.init, .at 5, true⟩])).lookup ⟨1⟩ .init .all =
          .ok (foundAlong bodyAndModule .init .all inner ++
            (found bodyAndModule .init .all ⟨1⟩ ++ [.at 5]) ++
              foundAlong bodyAndModule .init .all outer) := by
  have founded : AllFounded empty bodyAndModule := by
    refine ⟨fun q hq => (nomatch hq), fun q hq => ?_, trivial, trivial, trivial, trivial⟩
    obtain rfl := Option.some.inj hq
    exact Nat.zero_lt_one
  have body : (pushed bodyAndModule)[1]? = some (some ⟨0⟩, .composite) := rfl
  have module : (pushed bodyAndModule)[0]? = some (none, .module) := rfl
  have inSight : Chain (pushed bodyAndModule) .all ⟨1⟩ [⟨1⟩, ⟨0⟩] :=
    .outward body rfl (.module module)
  have seen : IsSeen bodyAndModule .init .all [⟨1⟩, ⟨0⟩] ⟨1⟩ ⟨.init, .at 5, true⟩ :=
    ⟨rfl, Nat.lt_succ_self 1, List.mem_cons_self, by decide⟩
  obtain ⟨chain, unique, -, -, names⟩ := lookup_eq_visible bodyAndModule founded ⟨1⟩ .all
  obtain rfl := (unique _).1 inSight
  obtain ⟨answer, declares⟩ := names .init
  exact ⟨founded, answer.trans rfl, seen, (declares ⟨1⟩ ⟨.init, .at 5, true⟩).2 seen⟩

end ScopeTree

end MethodSynthesis
