import MethodSynthesis.Proofs.GenericSeeds

/-!
# Generic parts of types

One would expect a type with a generic part to be generic. `generic_parts_iff` says how far that is so.
A type is generic when it leads to a generic type in one step, and that step goes to the elements of a
tuple, the element of an array, the index of a domain, the target of a pointer and the class under a
decorator. Two sorts of parts are passed over: the domain of an array, and what takes the place of a
composite's fields. A type whose generic parts are all of these sorts is called concrete
(`openDomain_concrete`).
-/

set_option autoImplicit false

namespace MethodSynthesis

namespace Declarations

variable {d : Declarations} {pool : TypePool} {ty part : TypeId} {data : TypeData}

/-- A type is found generic when it is asked for itself. -/
def IsGeneric (d : Declarations) (pool : TypePool) (ty : TypeId) : Prop :=
  ∃ g, d.genericity pool ty = .ok g ∧ g.isGeneric = true

/-- The types that take the place of a composite's declared fields. -/
def substitutes (d : Declarations) (c : Composite) : List TypeId :=
  (d.fieldsOf c.decl).filterMap fun (_, name, _) => c.substitution? name

/-- The types that a type is made of. -/
def parts (d : Declarations) : TypeData → List TypeId
  | .primitive _ | .enumeration _ => []
  | .composite c => d.substitutes c
  | .decorated basic _ => [basic]
  | .tuple elements => elements
  | .array domain element => [domain, element]
  | .rectangular _ index _ | .associative index _ => [index]
  | .cPtr element => [element]

/-- The parts of a type that do not count for its genericity. -/
def passedOver (d : Declarations) : TypeData → List TypeId
  | .composite c => d.substitutes c
  | .array domain _ => [domain]
  | _ => []

theorem mem_parts_of_mem_passedOver (mem : part ∈ d.passedOver data) : part ∈ d.parts data := by
  cases data with
  | composite c => exact mem
  | array domain element => exact List.mem_cons.2 (.inl (List.mem_singleton.1 mem))
  | _ => exact absurd mem List.not_mem_nil

/-- A part counts for the genericity of its type unless it is passed over. -/
theorem mem_leads_or_passedOver (mem : part ∈ d.parts data) :
    part ∈ d.leads data ∨ part ∈ d.passedOver data := by
  cases data with
  | primitive _ | enumeration _ => exact absurd mem List.not_mem_nil
  | composite c => exact .inr mem
  | array domain element =>
    rcases List.mem_cons.1 mem with rfl | mem
    · exact .inr (List.mem_singleton_self _)
    · exact .inl mem
  | decorated _ _ | tuple _ | rectangular _ _ _ | associative _ _ | cPtr _ => exact .inl mem

/-- What a stored type leads to is admitted by the pool. -/
theorem admits_of_mem_leads (wf : pool.WellFormed) (admitted : d.AdmittedBy pool)
    (stored : pool.read? ty = some data) (mem : part ∈ d.leads data) : pool.Admits part := by
  cases data with
  | composite c => exact admitted.valueTypes mem
  | array domain element => exact wf.admits_part stored (List.mem_cons_of_mem _ mem)
  | _ => exact wf.admits_part stored mem

theorem isGeneric_iff (wf : pool.WellFormed) (admitted : d.AdmittedBy pool)
    (ha : pool.Admits ty) : d.IsGeneric pool ty ↔ d.OpenAvoiding pool ∅ ty := by
  obtain ⟨g, hg, opens⟩ := genericity_spec wf admitted ha
  rw [← opens]
  constructor
  · rintro ⟨g', hg', isGeneric⟩
    exact Except.ok.inj (hg'.symm.trans hg) ▸ isGeneric
  · intro isGeneric
    exact ⟨g, hg, isGeneric⟩

/-- A type is generic exactly if it is open of itself or leads to a generic type. -/
theorem isGeneric_iff_step (wf : pool.WellFormed) (admitted : d.AdmittedBy pool)
    (stored : pool.read? ty = some data) :
    d.IsGeneric pool ty ↔
      d.seeds data = true ∨ ∃ part ∈ d.leads data, d.IsGeneric pool part := by
  rw [isGeneric_iff wf admitted (TypePool.admits_of_read? stored), openAvoiding_iff stored,
    and_iff_right (Set.notMem_empty ty)]
  refine or_congr_right (exists_congr fun part => and_congr_right fun mem => ?_)
  exact (isGeneric_iff wf admitted (admits_of_mem_leads wf admitted stored mem)).symm

end Declarations

/-- A type is generic if one of the parts that it leads to is. That every generic part makes its type
generic fails exactly where a part that is passed over is generic, while the type is not open of itself
and leads to no generic type. -/
theorem generic_parts_iff {p : Program} (assembled : p.Assembled) {ty : TypeId} {data : TypeData}
    (stored : p.types.read? ty = some data) :
    (∃ g, p.decls.genericity p.types ty = .ok g) ∧
      (∀ part ∈ p.decls.parts data, part ∈ p.decls.leads data →
        p.decls.IsGeneric p.types part → p.decls.IsGeneric p.types ty) ∧
      ((∀ part ∈ p.decls.parts data,
          p.decls.IsGeneric p.types part → p.decls.IsGeneric p.types ty) ↔
        ¬ ((∃ part ∈ p.decls.passedOver data, p.decls.IsGeneric p.types part) ∧
          p.decls.seeds data = false ∧
            ∀ part ∈ p.decls.leads data, ¬ p.decls.IsGeneric p.types part)) := by
  obtain ⟨interned, fit⟩ := assembled.closed
  have wf := interned.wellFormed
  have step := Declarations.isGeneric_iff_step wf fit.admitted stored
  obtain ⟨g, hg, -⟩ :=
    Declarations.genericity_spec wf fit.admitted (TypePool.admits_of_read? stored)
  refine ⟨⟨g, hg⟩, fun part _ counts generic => step.2 (.inr ⟨part, counts, generic⟩), ?_, ?_⟩
  · rintro rule ⟨⟨part, passed, generic⟩, closed, others⟩
    rcases step.1 (rule part (Declarations.mem_parts_of_mem_passedOver passed) generic) with
      isSeed | ⟨part', leads, generic'⟩
    · exact nomatch closed.symm.trans isSeed
    · exact others part' leads generic'
  · intro excluded part mem generic
    rcases Declarations.mem_leads_or_passedOver mem with counts | passed
    · exact step.2 (.inr ⟨part, counts, generic⟩)
    · -- a generic part that is passed over is covered up by something that counts
      by_contra concrete
      refine excluded ⟨⟨part, passed, generic⟩, ?_, fun part' leads generic' => ?_⟩
      · exact Bool.not_eq_true _ ▸ fun isSeed => concrete (step.2 (.inl isSeed))
      · exact concrete (step.2 (.inr ⟨part', leads, generic'⟩))

/-- A record with a field for a type, an array of integers over a domain of any integral type, and the
record with any type at all in the place of the field. -/
def openDomain : Program :=
  .ofCalls .bySize [.module "M" none, .composite (.at 0) "R" .record none,
    .field (.known ⟨1, 0⟩) "t" .type, .type (.rectangular 1 .integral false),
    .type (.array (.known ⟨5, 0⟩) .int), .instantiate (.known ⟨1, 0⟩) [("t", .any)]]

theorem openDomain_generic_parts :
    openDomain.Assembled ∧
      openDomain.types.read? (.known ⟨4, 0⟩) = some (.array (.known ⟨5, 0⟩) .int) ∧
      ((∀ part ∈ [.known ⟨5, 0⟩, .int], openDomain.decls.IsGeneric openDomain.types part →
          openDomain.decls.IsGeneric openDomain.types (.known ⟨4, 0⟩)) ↔
        ¬ ((∃ part ∈ [.known ⟨5, 0⟩], openDomain.decls.IsGeneric openDomain.types part) ∧
          openDomain.decls.seeds (.array (.known ⟨5, 0⟩) .int) = false ∧
            ∀ part ∈ [.int], ¬ openDomain.decls.IsGeneric openDomain.types part)) := by
  have assembled : openDomain.Assembled := (Program.built_ofCalls _ _).assembled
  have stored : openDomain.types.read? (.known ⟨4, 0⟩) = some (.array (.known ⟨5, 0⟩) .int) := by
    decide +kernel
  obtain ⟨_, _, exactly⟩ := generic_parts_iff assembled stored
  exact ⟨assembled, stored, exactly⟩

/-- The array is concrete though its domain is generic, and so is the instantiated record, though any
type at all stands in the place of its field. -/
theorem openDomain_concrete :
    (∃ part ∈ openDomain.decls.parts (.array (.known ⟨5, 0⟩) .int),
      openDomain.types.read? (.known ⟨4, 0⟩) = some (.array (.known ⟨5, 0⟩) .int) ∧
        openDomain.decls.genericity openDomain.types part = .ok .generic ∧
          openDomain.decls.genericity openDomain.types (.known ⟨4, 0⟩) = .ok .concrete) ∧
    ∃ c, ∃ part ∈ openDomain.decls.parts (.composite c),
      openDomain.types.read? (.known ⟨1, 1⟩) = some (.composite c) ∧
        openDomain.decls.genericity openDomain.types part = .ok .generic ∧
          openDomain.decls.genericity openDomain.types (.known ⟨1, 1⟩) = .ok .concrete := by
  constructor
  · exact ⟨.known ⟨5, 0⟩, List.mem_cons_self, by decide +kernel, by decide +kernel,
      by decide +kernel⟩
  · refine ⟨⟨.record, .at 1, ⟨⟨2, 1⟩⟩, some (.known ⟨1, 0⟩), [(⟨⟨2, 2⟩⟩, .any)], none⟩, .any,
      ?_, ?_, ?_, ?_⟩
    all_goals decide +kernel

end MethodSynthesis
