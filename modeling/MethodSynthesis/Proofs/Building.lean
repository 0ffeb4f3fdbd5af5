import MethodSynthesis.Proofs.Programs

/-!
# What builders do to the pool

A call that makes a type returns a type that the pool has, or interns one structure, whose parts and
names are given with the call or are those of a stored type (`TypePool.run_cases`). So a builder only
adds to the pool, and what it adds refers to what is there (`Program.run_interned`).

`Program.Assembled` holds of the programs that come from builders and from structures stored in the
pool directly. The directly stored ones need not be such as builders make: a decorated type may be
anything.
-/

set_option autoImplicit false

namespace MethodSynthesis

/-- The names in a structure. -/
def TypeData.names : TypeData → List Name
  | .composite c => c.name :: c.substitutions.map (·.1)
  | .enumeration e => e.name :: e.constants.map (·.name)
  | _ => []

/-- The names that a call is given. -/
def TypeCall.names : TypeCall → List Name
  | .record _ name | .union _ name | .basicClass _ name _ => [name]
  | .instantiate _ substitutions => substitutions.map (·.1)
  | .enumeration _ name constants => name :: constants.map (·.name)
  | _ => []

namespace TypePool

variable {pool pool' : TypePool} {call : TypeCall} {ty : TypeId}

/-- A call returns a type that the pool has, or interns a structure. Its parts and names are given
with the call or are those of a stored type. -/
theorem run_cases (eq : call.run pool = .ok (some (ty, pool'))) :
    (pool' = pool ∧ ∃ data, pool.read? ty = some data) ∨
      ∃ data, pool.intern data = (ty, pool') ∧
        (∀ part ∈ data.components, part ∈ call.arguments ∨
          ∃ base stored, pool.read? base = some stored ∧ part ∈ stored.components) ∧
        ∀ n ∈ data.names, n ∈ call.names ∨
          ∃ base stored, pool.read? base = some stored ∧ n ∈ stored.names := by
  cases call with
  | instantiate generic substitutions =>
    obtain ⟨base, hbase, eq⟩ := bind_eq_ok.1 eq
    obtain ⟨c, rfl, made⟩ := Option.map_eq_some_iff.1 (Except.ok.inj eq)
    have stored := composite?_eq_ok_some_iff.1 hbase
    refine .inr ⟨_, made, ?_, ?_⟩
    · intro part mem
      simp only [TypeData.components, Option.toList_some, List.mem_append, List.mem_singleton,
        Option.mem_toList] at mem
      rcases mem with (rfl | given) | parent
      · -- the generic form is the given type, unless that instantiates another
        cases from? : c.instantiatedFrom with
        | none => exact .inl List.mem_cons_self
        | some root => exact .inr ⟨generic, _, stored, by simp [TypeData.components, from?]⟩
      · exact .inl (List.mem_cons_of_mem _ given)
      · exact .inr ⟨generic, _, stored, by simp [TypeData.components, parent]⟩
    · intro n mem
      rcases List.mem_cons.1 mem with rfl | mem
      · exact .inr ⟨generic, _, stored, List.mem_cons_self⟩
      · exact .inl mem
  | decorate ty decorator =>
    obtain ⟨made, hmade, eq⟩ := bind_eq_ok.1 eq
    obtain rfl : made = (_, pool') := Option.some.inj (Except.ok.inj eq)
    obtain ⟨basic, hbasic, eq⟩ := bind_eq_ok.1 hmade
    obtain ⟨data, hdata, hbasic⟩ := bind_eq_ok.1 hbasic
    have stored := read_eq_ok_iff.1 hdata
    cases basic with
    | none =>
      -- what is no class is returned as it is
      obtain ⟨rfl, rfl⟩ := Prod.mk.inj (Except.ok.inj eq)
      exact .inl ⟨rfl, data, stored⟩
    | some basic =>
      refine .inr ⟨_, Except.ok.inj eq, ?_, fun _ mem => absurd mem List.not_mem_nil⟩
      intro part mem
      obtain rfl := List.mem_singleton.1 mem
      have class? := (basicClass?_eq_ok stored).symm.trans
        ((bind_eq_ok (x := pool.read ty)).2 ⟨data, hdata, hbasic⟩)
      cases data with
      | decorated basic' decorator' =>
        obtain rfl : basic' = part := Option.some.inj (Except.ok.inj class?)
        exact .inr ⟨ty, _, stored, List.mem_singleton_self _⟩
      | composite c =>
        by_cases kind : c.kind = .classType
        · obtain rfl : ty = part := by simpa [TypeData.basicClass?, kind] using class?
          exact .inl (List.mem_singleton_self _)
        · simp [TypeData.basicClass?, kind] at class?
      | _ => cases Except.ok.inj class?
  | record decl name | union decl name =>
    refine .inr ⟨_, Option.some.inj (Except.ok.inj eq), ?_, fun _ mem => .inl mem⟩
    intro part mem
    simp [TypeData.components] at mem
  | basicClass decl name parent =>
    refine .inr ⟨_, Option.some.inj (Except.ok.inj eq), ?_, fun _ mem => .inl mem⟩
    intro part mem
    exact .inl (by simpa [TypeData.components, TypeCall.arguments] using mem)
  | tuple | array | rectangular | associative | cPtr | enumeration =>
    exact .inr ⟨_, Option.some.inj (Except.ok.inj eq), fun _ mem => .inl mem,
      fun _ mem => .inl mem⟩

/-- A call on admitted types leaves the pool, or interns a structure over admitted types. -/
theorem WellFormed.run_cases (wf : pool.WellFormed)
    (admitted : ∀ arg ∈ call.arguments, pool.Admits arg)
    (eq : call.run pool = .ok (some (ty, pool'))) :
    pool' = pool ∨ ∃ data, (∀ part ∈ data.components, pool.Admits part) ∧
      pool' = (pool.intern data).2 := by
  rcases TypePool.run_cases eq with ⟨rfl, -⟩ | ⟨data, made, parts, -⟩
  · exact .inl rfl
  · refine .inr ⟨data, ?_, (congrArg (·.2) made).symm⟩
    intro part mem
    rcases parts part mem with given | ⟨base, stored, read, mem⟩
    · exact admitted part given
    · exact wf.admits_part read mem

end TypePool

namespace Program

variable {p p' : Program} {call : BuilderCall}

/-- A builder only adds to the pool, and keeps it an interned one. -/
theorem run_interned (interned : p.types.Interned)
    (admitted : ∀ ty ∈ call.types, p.types.Admits ty) (eq : call.run p = .ok p') :
    p'.types.Interned ∧ p.types.Extends p'.types := by
  rcases run_types admitted eq with same | ⟨kind, decl, name, parent, has, same⟩ | ⟨made, ty, has, run⟩
  · rw [same]
    exact ⟨interned, .refl _⟩
  · rw [same]
    refine ⟨.intern _ interned fun part mem => has part ?_, p.types.extends_intern _⟩
    simpa [TypeData.components] using mem
  · refine ⟨?_, TypePool.extends_call run⟩
    rcases interned.wellFormed.run_cases has run with same | ⟨data, parts, same⟩
    · rw [same]
      exact interned
    · rw [same]
      exact .intern data interned parts

/-- The programs that builders lead to, where structures are stored in the pool besides. Each is given
types that the program has at that time, or the unknown type. -/
inductive Assembled : Program → Prop
  | empty (names : NameTable) (shards : Sharding) : Assembled (.empty names shards)
  | step {p p' : Program} {call : BuilderCall} :
      Assembled p → (∀ ty ∈ call.types, p.types.Admits ty) → call.run p = .ok p' → Assembled p'
  | intern {p : Program} (data : TypeData) :
      Assembled p → (∀ part ∈ data.components, p.types.Admits part) →
        Assembled { p with types := (p.types.intern data).2 }

theorem Built.assembled (built : p.Built) : p.Assembled := by
  induction built with
  | empty names shards => exact .empty names shards
  | step _ admitted eq ih => exact .step ih admitted eq

/-- The invariant of assembled programs. -/
theorem Assembled.closed (assembled : p.Assembled) :
    p.types.Interned ∧ p.decls.Fit p.types := by
  induction assembled with
  | empty names shards => exact ⟨.empty _, Declarations.wellFormed_empty, fun _ h => nomatch h⟩
  | @step p p' call _ admitted eq ih =>
    obtain ⟨interned, fit⟩ := ih
    obtain ⟨interned', ext⟩ := run_interned interned admitted eq
    have table := interned.wellFormed.table
    have table' := interned'.wellFormed.table
    have later := fun ty mem => ext.admits table table' (admitted ty mem)
    exact ⟨interned', run_decls (fit.grows table table' ext) later eq⟩
  | @intern p data _ admitted ih =>
    obtain ⟨interned, fit⟩ := ih
    have interned' := TypePool.Interned.intern data interned admitted
    exact ⟨interned', fit.grows interned.wellFormed.table interned'.wellFormed.table
      (p.types.extends_intern data)⟩

end Program

end MethodSynthesis
