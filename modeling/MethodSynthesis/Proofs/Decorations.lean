import MethodSynthesis.Proofs.FieldLookup
import MethodSynthesis.Proofs.SharedSignatures

/-!
# What is asked of decorated classes

A class is put under a decorator, and what comes of it is a class again, which may be put under another
one. However often this is done, the type keeps the undecorated class and its composite
(`TypePool.DecoratedFrom.isFormOf`), and the last decorator alone is kept (`TypePool.IsFormOf.decorate_eq`).

Each question about a class depends on its undecorated class alone. So two types that come of one class
look alike (`Declarations.LookAlike`), the drafts of their accessors are the same, and so are those of
their lifecycle methods, if both have one. In a session whose declarations are held fixed an answer is
stored as it is drafted, once and for all, so what is drafted alike is answered alike
(`Session.Steady.same_reply`). `decorations_seen_through` collects this. That the declarations are held
fixed is needed: were a field declared between two questions, an answer kept from before would be given
for one type and a new answer for the other.
-/

set_option autoImplicit false

namespace MethodSynthesis

/-- Both questions have an answer, and it is the same. -/
def SameAnswer {ε α : Type} (x y : Except ε α) : Prop := ∃ a, x = .ok a ∧ y = .ok a

/-! ## Decorations -/

namespace TypePool

variable {pool : TypePool} {cls ty ty' basic : TypeId} {c : Composite}

/-- The types that come of a type when it is put under decorators, one after another or none at all. Each
was decorated in a pool that has grown since. -/
inductive DecoratedFrom (pool : TypePool) (cls : TypeId) : TypeId → Prop
  | refl : DecoratedFrom pool cls cls
  | decorate {earlier later : TypePool} {ty made : TypeId} {decorator : Decorator} :
      DecoratedFrom pool cls ty → earlier.Grows pool →
        earlier.decorate ty decorator = .ok (made, later) → later.Grows pool →
          DecoratedFrom pool cls made

theorem IsFormOf.isUnknown_eq (form : pool.IsFormOf ty basic c) : ty.isUnknown = false := by
  obtain ⟨stored, rfl | ⟨decorator, decorated⟩⟩ := form
  · exact isUnknown_of_read? stored
  · exact isUnknown_of_read? decorated

theorem IsFormOf.basicClass?_eq (form : pool.IsFormOf ty basic c) (kind : c.kind = .classType) :
    pool.basicClass? ty = .ok (some basic) := by
  obtain ⟨stored, rfl | ⟨decorator, decorated⟩⟩ := form
  · rw [basicClass?_eq_ok stored]
    simp [TypeData.basicClass?, kind]
  · rw [basicClass?_eq_ok decorated]
    rfl

/-- To decorate a class is to put its undecorated class under the decorator, whatever it was under. -/
theorem IsFormOf.decorate_eq (form : pool.IsFormOf ty basic c) (kind : c.kind = .classType)
    (decorator : Decorator) :
    pool.decorate ty decorator = .ok (pool.intern (.decorated basic decorator)) := by
  rw [decorate, form.basicClass?_eq kind]
  rfl

/-- What comes of a class has the undecorated class and the composite of that class. -/
theorem DecoratedFrom.isFormOf (h : pool.DecoratedFrom cls ty) (form : pool.IsFormOf cls basic c)
    (kind : c.kind = .classType) : pool.IsFormOf ty basic c := by
  induction h with
  | refl => exact form
  | @decorate earlier later ty made decorator _ before eq after ih =>
    obtain ⟨found, hfound, eq⟩ := bind_eq_ok.1 eq
    -- the class that was found then is the one that is found now
    have now := before.basicClass? ty _ hfound
    obtain rfl := Except.ok.inj ((ih.basicClass?_eq kind).symm.trans now)
    obtain ⟨rfl, rfl⟩ := Prod.mk.inj (Except.ok.inj eq)
    have stored := read?_intern before.before.table (.decorated basic decorator)
    exact ⟨form.1, .inr ⟨decorator, after.read? stored⟩⟩

/-- Whatever is stored as the class under a decorator comes of the class. -/
theorem DecoratedFrom.of_read? (wf : pool.WellFormed) (form : pool.IsFormOf cls basic c)
    (kind : c.kind = .classType) (decorator : Decorator)
    (stored : pool.read? ty = some (.decorated basic decorator)) : pool.DecoratedFrom cls ty := by
  have again : pool.decorate cls decorator = .ok (ty, pool) := by
    rw [form.decorate_eq kind, intern_of_read? wf.table stored]
  exact .decorate .refl (.refl wf) again (.refl wf)

/-- A class is a form of the undecorated class behind it. -/
theorem Sound.exists_isFormOf (sound : pool.Sound) (isClass : pool.isClass cls = .ok true) :
    ∃ basic c, pool.IsFormOf cls basic c ∧ c.kind = .classType := by
  obtain ⟨data, stored, class?⟩ := isClass_eq_ok_true_iff.1 isClass
  cases data with
  | composite c =>
    rw [isClass_composite, decide_eq_true_eq] at class?
    exact ⟨cls, c, ⟨stored, .inl rfl⟩, class?⟩
  | decorated basic decorator =>
    obtain ⟨c, composite, kind⟩ := sound.coherent stored
    exact ⟨basic, c, ⟨composite, .inr ⟨decorator, stored⟩⟩, kind⟩
  | _ => cases class?

end TypePool

/-! ## Questions about a class -/

namespace Declarations

variable {d : Declarations} {pool : TypePool} {ty ty' basic : TypeId} {c : Composite}

/-- Two types look alike: what is asked about the class behind a type has an answer, and the same for
both. Their lists of fields differ in the type that is recorded in them. -/
structure LookAlike (d : Declarations) (pool : TypePool) (ty ty' : TypeId) : Prop where
  basicClass? : SameAnswer (pool.basicClass? ty) (pool.basicClass? ty')
  compositeOf? : SameAnswer (pool.compositeOf? ty) (pool.compositeOf? ty')
  declOf? : SameAnswer (pool.declOf? ty) (pool.declOf? ty')
  genericity : SameAnswer (d.genericity pool ty) (d.genericity pool ty')
  fieldId? : ∀ name, SameAnswer (d.fieldId? pool ty name) (d.fieldId? pool ty' name)
  fields : ∀ policy, ∃ fields isGeneric, d.fields pool policy ty = .ok ⟨ty, fields, isGeneric⟩ ∧
    d.fields pool policy ty' = .ok ⟨ty', fields, isGeneric⟩

theorem declOf?_eq (form : pool.IsFormOf ty basic c) : pool.declOf? ty = .ok (some c.decl) := by
  obtain ⟨hbasic, stored⟩ := TypePool.isFormOf_iff.1 form
  rw [TypePool.declOf?, hbasic, ok_bind, TypePool.read_eq_ok_iff.2 stored]
  rfl

/-- The forms of one class look alike. -/
theorem lookAlike_of_forms (sound : pool.Sound) (admitted : d.AdmittedBy pool)
    (form : pool.IsFormOf ty basic c) (form' : pool.IsFormOf ty' basic c) (kind : c.kind = .classType) :
    d.LookAlike pool ty ty' := by
  have wf := sound.wellFormed
  have hc := TypePool.hasComposite_iff.2 ⟨basic, form⟩
  have hc' := TypePool.hasComposite_iff.2 ⟨basic, form'⟩
  obtain ⟨hbasic, stored⟩ := TypePool.isFormOf_iff.1 form
  obtain ⟨hbasic', -⟩ := TypePool.isFormOf_iff.1 form'
  exact {
    basicClass? := ⟨_, form.basicClass?_eq kind, form'.basicClass?_eq kind⟩
    compositeOf? := ⟨_, hc.compositeOf?_eq_ok, hc'.compositeOf?_eq_ok⟩
    declOf? := ⟨_, declOf?_eq form, declOf?_eq form'⟩
    genericity := by
      obtain ⟨g, hg, -⟩ := genericity_spec wf admitted (TypePool.admits_of_read? stored)
      exact ⟨g, (genericity_undecorated wf hbasic).trans hg,
        (genericity_undecorated wf hbasic').trans hg⟩
    fieldId? := fun name => ⟨_, fieldId?_eq_ok hc name, fieldId?_eq_ok hc' name⟩
    fields := fun policy => ⟨_, _, fields_eq_ok wf admitted hc.compositeOf?_eq_ok policy,
      fields_eq_ok wf admitted hc'.compositeOf?_eq_ok policy⟩ }

/-- What is drafted for an accessor depends on the undecorated form. -/
theorem draft_accessor_of_form (form : pool.IsFormOf ty basic c) (name : Name) :
    (Call.accessor (some ty) name).draft d.host pool =
      .ok (.ofOption ((d.fieldNamed? c.decl name).map (d.host.accessorDraft c basic name))) := by
  rw [Call.draft_accessor_eq form.isUnknown_eq, draftAccessor_eq form, ok_bind]

end Declarations

/-! ## Questions to a session -/

namespace Session

variable {d : Declarations} {s s' t : Session} {ty ty' basic : TypeId} {c : Composite} {name : Name}
  {parenless parenless' : Bool} {id id' : SigId}

/-- A question that is drafted as one that has an answer is answered alike. -/
theorem Steady.same_reply (steady : s.Steady d) {call call' : Call} {reply : Reply SigId}
    (first : (call.ask d.host).exec s = (.ok reply, s'))
    (between : Relation.ReflTransGen (HeldStep d) s' t)
    (same : call.draft d.host t.program.types = call'.draft d.host t.program.types) :
    ((call'.ask d.host).exec t).1 = .ok reply := by
  obtain ⟨after, -, drafted, made, stored⟩ := steady.stored_of_ask first
  obtain ⟨later, g⟩ := after.run between
  have again := Call.draft_persists (d.host_persistent g.types) g.types call _ made
  rw [same] at again
  obtain ⟨answer, -, -⟩ := simulates_ask d.host_persistent call' t t later.faithful ⟨rfl, rfl⟩
  -- the reply is stored as this draft, so it is given once more
  rw [answer, exec_askAfresh, again, settle_of_isStoredAs later.faithful.types
    later.faithful.signatures (stored.grows g.types g.signatures)]

/-- An accessor is always answered. -/
theorem Steady.exists_reply_accessor (steady : s.Steady d) (form : s.program.types.IsFormOf ty basic c)
    (name : Name) :
    ∃ reply s', ((Call.accessor (some ty) name).ask d.host).exec s = (.ok reply, s') := by
  obtain ⟨reply, answer⟩ := (steady.faithful.ask_eq_ok_iff d.host_persistent).2
    ⟨_, Declarations.draft_accessor_of_form form name⟩
  exact ⟨reply, _, Prod.ext answer rfl⟩

/-- The forms of one composite have one signature for a lifecycle method. -/
theorem Steady.eq_of_hasMethod (steady : t.Steady d) (form : t.program.types.IsFormOf ty basic c)
    (form' : t.program.types.IsFormOf ty' basic c) (lifecycle : name.isLifecycleMethod = true)
    (has : t.HasMethod d ty name parenless id) (has' : t.HasMethod d ty' name parenless' id') :
    id = id' := by
  obtain ⟨draft, made, stored⟩ := has
  obtain ⟨draft', made', stored'⟩ := has'
  obtain ⟨received, received', hreceived, hreceived', same⟩ :=
    steady.types.same_iff_of_isStoredAs steady.faithful.signatures made made' stored stored'
  have forms := form.receiverForm_eq form' lifecycle
  rw [hreceived, hreceived'] at forms
  refine same.2 ⟨rfl, Except.ok.inj forms, fun operator => ?_⟩
  cases (Name.isLifecycleMethod_of_isRecordOperator operator).symm.trans lifecycle

end Session

/-- In a session whose declarations are held fixed, two types that come of a class are told apart by their
decorators alone. They look alike, and to decorate one of them is to decorate the class. The accessor of
the first is answered, and from then on that of the second is answered alike. A lifecycle method that both
have is one method, in whichever call shapes it is asked for. -/
structure Session.SeesThrough (s : Session) (d : Declarations) (cls ty ty' : TypeId) : Prop where
  lookAlike : d.LookAlike s.program.types ty ty'
  decorate : ∀ decorator, SameAnswer (s.program.types.decorate ty decorator)
    (s.program.types.decorate cls decorator)
  accessor : ∀ name, ∃ reply s',
    ((Call.accessor (some ty) name).ask d.host).exec s = (.ok reply, s') ∧
      ∀ t, Relation.ReflTransGen (Session.HeldStep d) s' t →
        (((Call.accessor (some ty') name).ask d.host).exec t).1 = .ok reply
  method : ∀ {name parenless parenless' s' t t' id id'}, name.isLifecycleMethod = true →
    ((Call.method ty name parenless).ask d.host).exec s = (.ok (.signature id), s') →
      Relation.ReflTransGen (Session.HeldStep d) s' t →
        ((Call.method ty' name parenless').ask d.host).exec t = (.ok (.signature id'), t') → id = id'

/-- What is asked about a class is answered as if it had no decorator, whatever queries were asked and types
made before, and however often the class was put under a decorator. -/
theorem decorations_seen_through {p : Program} (built : p.Built) {shards : Sharding} {s : Session}
    (held : Relation.ReflTransGen (Session.HeldStep p.decls) (.start p shards) s)
    {cls ty ty' : TypeId}
    (isClass : s.program.types.isClass cls = .ok true) (made : s.program.types.DecoratedFrom cls ty)
    (made' : s.program.types.DecoratedFrom cls ty') : s.SeesThrough p.decls cls ty ty' := by
  obtain ⟨steady, g⟩ := (Session.Steady.start built.wellFormed.types shards).run held
  have fit := built.wellFormed.decls.grows g.types.before.table g.types.after.table g.types.ext
  obtain ⟨basic, c, form, kind⟩ := steady.types.exists_isFormOf isClass
  have tyForm := made.isFormOf form kind
  have tyForm' := made'.isFormOf form kind
  constructor
  · exact Declarations.lookAlike_of_forms steady.types fit.admitted tyForm tyForm' kind
  · intro decorator
    exact ⟨_, tyForm.decorate_eq kind decorator, form.decorate_eq kind decorator⟩
  · intro name
    obtain ⟨reply, s', first⟩ := steady.exists_reply_accessor tyForm name
    refine ⟨reply, s', first, fun t between => steady.same_reply first between ?_⟩
    obtain ⟨after, grown, -⟩ := steady.stored_of_ask first
    have since := grown.trans (after.run between).2
    rw [Declarations.draft_accessor_of_form (tyForm.grows since.types),
      Declarations.draft_accessor_of_form (tyForm'.grows since.types)]
  · intro name parenless parenless' s' t t' id id' lifecycle first between second
    obtain ⟨after, grown, has⟩ := steady.hasMethod_of_ask first
    obtain ⟨later, g⟩ := after.run between
    obtain ⟨last, g', has'⟩ := later.hasMethod_of_ask second
    have since := grown.trans (g.trans g')
    exact last.eq_of_hasMethod (tyForm.grows since.types) (tyForm'.grows since.types) lifecycle
      (has.grows (g.trans g')) has'

/-- A class with a field, as an owned class, and the owned class as a shared one that may be nil. -/
def redecoratedClass : Program :=
  .ofCalls .bySize [.module "M" none, .composite (.at 0) "C" .classType none,
    .field (.known ⟨1, 0⟩) "x" (.var .int), .type (.decorate (.known ⟨1, 0⟩) .ownedNonNil),
    .type (.decorate (.known ⟨2, 0⟩) ⟨.shared, true⟩)]

theorem redecoratedClass_seen_through :
    redecoratedClass.Built ∧ redecoratedClass.types.isClass (.known ⟨1, 0⟩) = .ok true ∧
      redecoratedClass.types.DecoratedFrom (.known ⟨1, 0⟩) (.known ⟨2, 0⟩) ∧
      redecoratedClass.types.DecoratedFrom (.known ⟨1, 0⟩) (.known ⟨2, 1⟩) ∧
      (Session.start redecoratedClass .bySize).SeesThrough redecoratedClass.decls (.known ⟨1, 0⟩)
        (.known ⟨2, 0⟩) (.known ⟨2, 1⟩) := by
  have built : redecoratedClass.Built := Program.built_ofCalls _ _
  have isClass : redecoratedClass.types.isClass (.known ⟨1, 0⟩) = .ok true := by decide +kernel
  have wf := built.wellFormed.types.wellFormed
  have form : redecoratedClass.types.IsFormOf (.known ⟨1, 0⟩) (.known ⟨1, 0⟩)
      ⟨.classType, .at 1, ⟨⟨2, 1⟩⟩, none, [], none⟩ := ⟨by decide +kernel, .inl rfl⟩
  have owned : redecoratedClass.types.DecoratedFrom (.known ⟨1, 0⟩) (.known ⟨2, 0⟩) :=
    .of_read? wf form rfl .ownedNonNil (by decide +kernel)
  have shared : redecoratedClass.types.DecoratedFrom (.known ⟨1, 0⟩) (.known ⟨2, 1⟩) :=
    .of_read? wf form rfl ⟨.shared, true⟩ (by decide +kernel)
  exact ⟨built, isClass, owned, shared, decorations_seen_through built .refl isClass owned shared⟩

end MethodSynthesis
