import MethodSynthesis.Synthesis.Need
import MethodSynthesis.Proofs.Programs

/-!
# Which types a receiver takes

An overload covers a type when its receiver takes a variable of the type as it is, or as borrowed
(`TypePool.IsCoveredBy`). To ask this of a record, union or class has an answer
(`Declarations.covers_spec`), since the classes that it inherits from are in the pool. The judgment of
a class walks through them, so they have to be known (`TypePool.ParentsKnown`).
-/

set_option autoImplicit false

namespace MethodSynthesis

/-! ## Receivers -/

/-- The receiver of a function. A method has the first formal named `this`, or else its first formal;
an operator that is no method has its first formal. -/
inductive FunctionDecl.HasReceiver (f : FunctionDecl) : FormalDecl → Prop
  | named {before after : List FormalDecl} {formal : FormalDecl} :
      f.isMethod = true → f.formals = before ++ formal :: after → formal.name = .receiver →
        (∀ g ∈ before, g.name ≠ .receiver) → HasReceiver f formal
  | unnamed {formal : FormalDecl} {rest : List FormalDecl} :
      f.isMethod = true → f.formals = formal :: rest → (∀ g ∈ f.formals, g.name ≠ .receiver) →
        HasReceiver f formal
  | operand {formal : FormalDecl} {rest : List FormalDecl} :
      f.isMethod = false → f.kind = .operator → f.formals = formal :: rest → HasReceiver f formal

theorem FunctionDecl.receiver?_eq_some_iff {f : FunctionDecl} {formal : FormalDecl} :
    f.receiver? = some formal ↔ f.HasReceiver formal := by
  unfold receiver?
  constructor
  · intro h
    cases isMethod : f.isMethod with
    | true =>
      rw [isMethod, if_pos rfl, Option.or_eq_some_iff] at h
      rcases h with named | ⟨none, first⟩
      · obtain ⟨isReceiver, before, after, eq, earlier⟩ := List.find?_eq_some_iff_append.1 named
        exact .named isMethod eq (by simpa using isReceiver) (by simpa using earlier)
      · obtain ⟨rest, eq⟩ := List.head?_eq_some_iff.1 first
        exact .unnamed isMethod eq (by simpa using none)
    | false =>
      rw [isMethod, if_neg Bool.false_ne_true] at h
      cases kind : f.kind with
      | operator =>
        rw [kind] at h
        obtain ⟨rest, eq⟩ := List.head?_eq_some_iff.1 h
        exact .operand isMethod kind eq
      | procedure =>
        rw [kind] at h
        exact nomatch h
  · intro h
    cases h with
    | named isMethod eq isReceiver earlier =>
      have named : f.formals.find? (·.name = .receiver) = some formal :=
        List.find?_eq_some_iff_append.2
          ⟨by simpa using isReceiver, _, _, eq, by simpa using earlier⟩
      rw [if_pos isMethod, named, Option.some_or]
    | unnamed isMethod eq none =>
      have named : f.formals.find? (·.name = .receiver) = Option.none := by simpa using none
      rw [if_pos isMethod, named, Option.none_or, eq, List.head?_cons]
    | operand isMethod kind eq =>
      rw [isMethod, if_neg Bool.false_ne_true, kind, eq]
      rfl

theorem FunctionDecl.HasReceiver.mem {f : FunctionDecl} {formal : FormalDecl}
    (h : f.HasReceiver formal) : formal ∈ f.formals := by
  cases h with
  | named _ eq _ _ => simp [eq]
  | unnamed _ eq _ => simp [eq]
  | operand _ _ eq => simp [eq]

/-! ## Totality -/

namespace TypePool

variable {pool : TypePool} {ty actual formal : TypeId} {data : TypeData} {c : Composite}

/-- The parents of classes are known. -/
def ParentsKnown (pool : TypePool) : Prop :=
  ∀ {ty c}, pool.read? ty = some (.composite c) → c.parent ≠ some .unknown

theorem parentsKnown_iff (wf : pool.table.WellFormed) : pool.ParentsKnown ↔
    ∀ e ∈ pool.table.entries, e.value.composite?.bind (·.parent) ≠ some .unknown := by
  constructor
  · rintro known ⟨handle, value⟩ mem
    cases value with
    | composite c => exact known ((read?_known_eq_some_iff wf).2 mem)
    | _ => exact (nomatch ·)
  · intro known ty c stored
    cases ty with
    | unknown => exact nomatch stored
    | known handle => exact known _ ((read?_known_eq_some_iff wf).1 stored)

/-- The composite that a type is, or whose decorated form it is. -/
def HasComposite (pool : TypePool) (ty : TypeId) (c : Composite) : Prop :=
  pool.read? ty = some (.composite c) ∨ ∃ basic decorator,
    pool.read? ty = some (.decorated basic decorator) ∧ pool.read? basic = some (.composite c)

theorem HasComposite.compositeOf?_eq_ok (hc : pool.HasComposite ty c) :
    pool.compositeOf? ty = .ok (some c) := by
  rcases hc with stored | ⟨basic, decorator, decorated, stored⟩
  · exact TypePool.compositeOf?_eq_ok stored
  · rw [compositeOf?, undecorated_eq_ok decorated]
    exact composite?_eq_ok_some_iff.2 stored

theorem HasComposite.unique {c' : Composite} (hc : pool.HasComposite ty c)
    (hc' : pool.HasComposite ty c') : c = c' :=
  Option.some.inj (Except.ok.inj (hc.compositeOf?_eq_ok.symm.trans hc'.compositeOf?_eq_ok))

theorem Sound.compositeOf?_spec (sound : pool.Sound) (stored : pool.read? ty = some data) :
    Answers (pool.compositeOf? ty) fun found => ∀ c, found = some c ↔ pool.HasComposite ty c := by
  cases data with
  | composite c =>
    rw [compositeOf?_eq_ok stored]
    exact .ok fun c' => by simp [HasComposite, stored]
  | decorated basic decorator =>
    obtain ⟨c, hc, -⟩ := sound.coherent stored
    have found : pool.HasComposite ty c := .inr ⟨basic, decorator, stored, hc⟩
    refine ⟨some c, found.compositeOf?_eq_ok, fun c' => ?_⟩
    simp [HasComposite, stored, hc]
  | _ =>
    have none : pool.compositeOf? ty = .ok none := by
      rw [compositeOf?, undecorated_eq_ok stored]
      exact composite?_eq_ok stored
    rw [none]
    exact .ok fun c' => by simp [HasComposite, stored]

theorem Sound.compositeOf?_of_none (sound : pool.Sound) (stored : pool.read? ty = some data)
    (none : ∀ c, ¬ pool.HasComposite ty c) : pool.compositeOf? ty = .ok .none := by
  obtain ⟨found, answer, only⟩ := sound.compositeOf?_spec stored
  cases found with
  | none => exact answer
  | some c => exact absurd ((only c).1 rfl) (none c)

theorem exists_genericRoot (stored : pool.read? ty = some data) :
    Answers (pool.genericRoot ty) fun _ => True := by
  rw [genericRoot, read_eq_ok_iff.2 stored]
  exact .ok trivial

/-- The parent of a stored class is stored. -/
theorem WellFormed.read?_parent (wf : pool.WellFormed) (known : pool.ParentsKnown)
    (stored : pool.read? ty = some (.composite c)) {parent : TypeId} (h : c.parent = some parent) :
    ∃ data, pool.read? parent = some data := by
  have part : parent ∈ (TypeData.composite c).components := by simp [TypeData.components, h]
  refine (wf.admits_part stored part).resolve_left ?_
  rintro rfl
  exact known stored h

theorem WellFormed.hasAncestorWithin (wf : pool.WellFormed) (known : pool.ParentsKnown)
    (base : TypeId) (steps : Nat) (stored : pool.read? ty = some data) :
    Answers (pool.hasAncestorWithin base steps ty) fun _ => True := by
  induction steps generalizing ty data with
  | zero => exact .ok trivial
  | succ steps ih =>
    rw [TypePool.hasAncestorWithin, composite?_eq_ok stored, ok_bind]
    cases parent : data.composite?.bind (·.parent) with
    | none => exact .ok trivial
    | some parent' =>
      -- the search goes on from the parent, which has to be in the pool
      obtain ⟨data', stored'⟩ : ∃ data, pool.read? parent' = some data := by
        cases data with
        | composite c => exact wf.read?_parent known stored parent
        | _ => exact nomatch parent
      dsimp only
      split
      · exact .ok trivial
      · refine (exists_genericRoot stored').bind fun root _ => ?_
        split
        · exact .ok trivial
        · split
          · exact .ok trivial
          · exact ih stored'

/-- A class as it is passed is a stored composite. -/
theorem Sound.classForm? (sound : pool.Sound) (stored : pool.read? ty = some data) :
    Answers (pool.classForm? ty) fun found =>
      ∀ form, found = some form → ∃ c, pool.read? form.basic = some (.composite c) := by
  rw [TypePool.classForm?, read_eq_ok_iff.2 stored]
  cases data with
  | composite c =>
    refine .ok fun form eq => ?_
    obtain rfl := Option.some.inj eq
    exact ⟨c, stored⟩
  | decorated basic decorator =>
    refine .ok fun form eq => ?_
    obtain rfl := Option.some.inj eq
    exact (sound.coherent stored).imp fun _ => And.left
  | _ => exact .ok fun _ => (nomatch ·)

theorem Sound.passClasses (sound : pool.Sound) (known : pool.ParentsKnown)
    (stored : pool.read? actual = some data) {target : TypeData}
    (stored' : pool.read? formal = some target) :
    Answers (pool.passClasses actual formal) fun _ => True := by
  unfold TypePool.passClasses
  refine (sound.classForm? stored).bind fun source hsource => ?_
  cases source with
  | none => exact .ok trivial
  | some source =>
    obtain ⟨c, hc⟩ := hsource source rfl
    refine (sound.classForm? stored').bind fun target _ => ?_
    cases target with
    | none => exact .ok trivial
    | some target =>
      dsimp only
      split
      · split
        · exact .ok trivial
        · refine (exists_genericRoot hc).bind fun root _ => ?_
          split
          · exact .ok trivial
          · refine (sound.wellFormed.hasAncestorWithin known _ _ hc).bind fun isAncestor _ => ?_
            split
            · exact .ok trivial
            · exact .ok trivial
      · exact .ok trivial

theorem passElements_congr {f g : TypeId → TypeId → Except Fault Passing} {actuals : List TypeId}
    (h : ∀ e ∈ actuals, f e = g e) (formals : List TypeId) :
    passElements f actuals formals = passElements g actuals formals := by
  induction actuals generalizing formals with
  | nil => simp [passElements]
  | cons e actuals ih =>
    cases formals with
    | nil => simp [passElements]
    | cons formal formals =>
      rw [passElements, passElements, h e List.mem_cons_self,
        ih fun e' he' => h e' (List.mem_cons_of_mem e he')]

/-- One step of the judgment of two types. -/
theorem WellFormed.passTypes_eq (wf : pool.WellFormed) (stored : pool.read? actual = some data)
    (formal : TypeId) : pool.passTypes actual formal = match passNames? actual formal with
      | some p => .ok p
      | none => pool.passStructures actual data pool.passTypes formal := by
  refine (congrFun (wf.fold_eq stored fun f g agree => funext fun formal => ?_) formal)
  cases passNames? actual formal with
  | some p => rfl
  | none =>
    unfold passStructures
    refine bind_congr fun target => ?_
    cases data with
    | tuple elements =>
      cases target with
      | tuple formals =>
        have same : passElements f elements formals = passElements g elements formals :=
          passElements_congr agree formals
        simp only [same]
      | _ => rfl
    | _ => cases target <;> rfl

/-- To pass a type that is no tuple has an outcome. -/
theorem Sound.passTypes (sound : pool.Sound) (known : pool.ParentsKnown)
    (stored : pool.read? actual = some data) (noTuple : ∀ elements, data ≠ .tuple elements)
    (ha : ∃ target, pool.read? formal = some target) :
    Answers (pool.passTypes actual formal) fun _ => True := by
  obtain ⟨target, stored'⟩ := ha
  rw [sound.wellFormed.passTypes_eq stored]
  cases passNames? actual formal with
  | some p => exact .ok trivial
  | none =>
    dsimp only
    rw [passStructures, read_eq_ok_iff.2 stored', ok_bind]
    split
    · exact sound.passClasses known stored stored'
    · split
      · refine (exists_genericRoot stored).bind fun root _ => ?_
        split
        · exact .ok trivial
        · exact .ok trivial
      · exact absurd rfl (noTuple _)
      · exact .ok trivial

/-- A type with a composite is neither a tuple nor an array. -/
theorem HasComposite.stored (hc : pool.HasComposite ty c) :
    ∃ data, pool.read? ty = some data ∧ (∀ elements, data ≠ .tuple elements) ∧
      ∀ domain element, data ≠ .array domain element := by
  rcases hc with stored | ⟨basic, decorator, stored, -⟩
  · exact ⟨_, stored, fun _ => (nomatch ·), fun _ _ => (nomatch ·)⟩
  · exact ⟨_, stored, fun _ => (nomatch ·), fun _ _ => (nomatch ·)⟩

/-- To pass a variable of a record, union or class has an outcome. -/
theorem Sound.canPass (sound : pool.Sound) (known : pool.ParentsKnown)
    (hc : pool.HasComposite ty c) {receiver : Qualified} (ha : pool.Admits receiver.type) :
    Answers (pool.canPass (.var ty) receiver) fun _ => True := by
  obtain ⟨data, stored, noTuple, noArray⟩ := hc.stored
  rcases ha with unknown | target
  · have fails : pool.canPass (.var ty) receiver = .ok .fail := by
      simp [TypePool.canPass, unknown, TypeId.isUnknown]
    exact fails ▸ .ok trivial
  have passed := sound.passTypes known stored noTuple target
  -- only arrays are promoted over
  have notPromoted : pool.passPromoted (.var ty) receiver = .ok .fail := by
    rw [passPromoted, Qualified.var, read_eq_ok_iff.2 stored, ok_bind]
    split
    · exact absurd rfl (noArray _ _)
    · rfl
  unfold TypePool.canPass
  split
  · exact .ok trivial
  split
  · exact .ok trivial
  split
  · exact passed.bind fun _ _ => .ok trivial
  split
  · exact .ok trivial
  refine passed.bind fun result _ => ?_
  dsimp only
  split
  · exact .ok trivial
  · exact notPromoted ▸ .ok trivial

/-! ## Overloads -/

/-- An overload covers a type: it is a method or an operator with a receiver, which takes a variable of
the type as it is or as borrowed. -/
def IsCoveredBy (pool : TypePool) (ty : TypeId) (f : FunctionDecl) : Prop :=
  (f.isMethod = true ∨ f.kind = .operator) ∧ ∃ formal receiver outcome,
    f.HasReceiver formal ∧ pool.resolveIntent formal.type = .ok receiver ∧
      pool.canPass (.var ty) receiver = .ok outcome ∧ outcome.passes = true ∧
        (outcome.conversion = .none ∨ outcome.conversion = .borrows) ∧ outcome.promotes = false

theorem resolveIntent_spec {receiver : Qualified} (stored : pool.read? receiver.type = some data) :
    Answers (pool.resolveIntent receiver) (·.type = receiver.type) := by
  unfold resolveIntent
  split
  · rw [read_eq_ok_iff.2 stored]
    exact .ok rfl
  · exact .ok rfl

end TypePool

theorem Passing.covers_iff {outcome : Passing} :
    outcome.covers = true ↔ outcome.passes = true ∧
      (outcome.conversion = .none ∨ outcome.conversion = .borrows) ∧ outcome.promotes = false := by
  simp [Passing.covers, converts, convertsWithBorrowing, and_assoc]

/-- A receiver takes a variable of the type, as it is or as borrowed. -/
def TypePool.Takes (pool : TypePool) (ty : TypeId) (q : Qualified) : Prop :=
  ∃ outcome, pool.canPass (.var ty) q = .ok outcome ∧ outcome.covers = true

theorem TypePool.isCoveredBy_iff {pool : TypePool} {ty : TypeId} {f : FunctionDecl} :
    pool.IsCoveredBy ty f ↔
    (f.isMethod = true ∨ f.kind = .operator) ∧ ∃ formal receiver,
      f.HasReceiver formal ∧ pool.resolveIntent formal.type = .ok receiver ∧
        pool.Takes ty receiver := by
  refine and_congr_right fun _ => exists_congr fun formal => exists_congr fun receiver => ?_
  simp only [TypePool.Takes, Passing.covers_iff, exists_and_left]

namespace Declarations

variable {d : Declarations} {pool : TypePool} {ty : TypeId} {c : Composite} {id : DeclId}
  {formal : FormalDecl}

/-- The declaration is a method or an operator with the receiver. -/
def OverloadReceiver (d : Declarations) (id : DeclId) (formal : FormalDecl) : Prop :=
  ∃ f, d.function? id = some f ∧ (f.isMethod = true ∨ f.kind = .operator) ∧ f.HasReceiver formal

/-- An overload covers what passes to its receiver. -/
theorem covers_eq (h : d.OverloadReceiver id formal) :
    d.host.covers pool ty id = pool.resolveIntent formal.type >>= fun receiver =>
      pool.canPass (.var ty) receiver >>= fun outcome => .ok outcome.covers := by
  obtain ⟨f, function, overload, hasReceiver⟩ := h
  have considered : (!f.isMethod && decide (f.kind ≠ .operator)) = false := by
    rcases overload with isMethod | operator
    · simp [isMethod]
    · simp [operator]
  unfold Host.covers
  simp only [Declarations.host, Declarations.receiver?, function, considered, Option.bind_some,
    FunctionDecl.receiver?_eq_some_iff.2 hasReceiver, Bool.false_eq_true, if_false, pure_eq_ok]
  cases pool.resolveIntent formal.type <;> rfl

/-- What is no overload with a receiver covers nothing. -/
theorem covers_eq_false (h : ∀ formal, ¬ d.OverloadReceiver id formal) :
    d.host.covers pool ty id = .ok false := by
  unfold Host.covers
  simp only [Declarations.host, Declarations.receiver?]
  cases function : d.function? id with
  | none => rfl
  | some f =>
    simp only [Option.bind_some]
    split
    · rfl
    rename_i considered
    have overload : f.isMethod = true ∨ f.kind = .operator := by
      simpa [or_iff_not_imp_left] using considered
    cases first : f.receiver? with
    | none => rfl
    | some formal =>
      exact absurd ⟨f, function, overload, FunctionDecl.receiver?_eq_some_iff.1 first⟩ (h formal)

/-- A declaration is found to cover a type exactly if it is a function that does. -/
theorem covers_eq_ok_true_iff : d.host.covers pool ty id = .ok true ↔
    ∃ f, d.function? id = some f ∧ pool.IsCoveredBy ty f := by
  simp only [TypePool.isCoveredBy_iff]
  constructor
  · intro h
    by_cases found : ∃ formal, d.OverloadReceiver id formal
    · obtain ⟨formal, overloads⟩ := found
      rw [covers_eq overloads] at h
      obtain ⟨receiver, resolved, h⟩ := bind_eq_ok.1 h
      obtain ⟨outcome, passed, covers⟩ := bind_eq_ok.1 h
      obtain ⟨f, function, overload, hasReceiver⟩ := overloads
      exact ⟨f, function, overload, formal, receiver, hasReceiver, resolved, outcome, passed,
        Except.ok.inj covers⟩
    · rw [covers_eq_false (not_exists.1 found)] at h
      exact nomatch h
  · rintro ⟨f, function, overload, formal, receiver, hasReceiver, resolved, outcome, passed, covers⟩
    rw [covers_eq ⟨f, function, overload, hasReceiver⟩, resolved, ok_bind, passed, ok_bind, covers]

/-- Whether a declaration covers a type has an answer when its receiver can be judged. -/
theorem exists_covers (h : ∀ formal, d.OverloadReceiver id formal → ∃ receiver outcome,
      pool.resolveIntent formal.type = .ok receiver ∧
        pool.canPass (.var ty) receiver = .ok outcome) :
    Answers (d.host.covers pool ty id)
      (· = true ↔ ∃ f, d.function? id = some f ∧ pool.IsCoveredBy ty f) := by
  have answer : ∃ covered, d.host.covers pool ty id = .ok covered := by
    by_cases found : ∃ formal, d.OverloadReceiver id formal
    · obtain ⟨formal, overloads⟩ := found
      obtain ⟨receiver, outcome, resolved, passed⟩ := h formal overloads
      rw [covers_eq overloads, resolved, ok_bind, passed]
      exact ⟨_, rfl⟩
    · exact ⟨_, covers_eq_false (not_exists.1 found)⟩
  obtain ⟨covered, answer⟩ := answer
  refine ⟨covered, answer, ?_⟩
  rw [← covers_eq_ok_true_iff, answer, Except.ok.injEq]

/-- Whether a declaration covers a record, union or class has an answer. -/
theorem covers_spec (sound : pool.Sound) (known : pool.ParentsKnown) (hc : pool.HasComposite ty c)
    (formals : ∀ f, d.function? id = some f →
      ∀ formal ∈ f.formals, ∃ data, pool.read? formal.type.type = some data) :
    Answers (d.host.covers pool ty id)
      (· = true ↔ ∃ f, d.function? id = some f ∧ pool.IsCoveredBy ty f) := by
  apply exists_covers
  rintro formal ⟨f, function, -, hasReceiver⟩
  obtain ⟨data, stored⟩ := formals f function formal hasReceiver.mem
  obtain ⟨receiver, resolved, same⟩ := TypePool.resolveIntent_spec stored
  have ha : pool.Admits receiver.type := .inr ⟨data, same ▸ stored⟩
  obtain ⟨outcome, passed, -⟩ := sound.canPass known hc ha
  exact ⟨receiver, outcome, resolved, passed⟩

end Declarations

end MethodSynthesis
