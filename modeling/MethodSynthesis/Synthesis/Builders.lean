import MethodSynthesis.Synthesis.Session

/-!
# Builders of signatures

The builders of signatures in the order in which they read and store. A receiver that is a class is
stored in its borrowed form as soon as its formal is made, before the other formals are; the untyped
and the typed part of the signature are stored last. A session drafts a signature instead and stores
it, with its types, once the draft is complete, which comes to the same.
-/

set_option autoImplicit false

namespace MethodSynthesis

/-- Building reads and stores as a query does, and may find that it cannot build what is asked. -/
abbrev Building (α : Type) : Type := ExceptT GenerationError Query α

/-- The formals collected so far, and their types with them. -/
structure Parts where
  formals : List Formal
  types : List Qualified

namespace Parts

/-- No formals. -/
def empty : Parts := ⟨[], []⟩

/-- One more formal, after those there are. -/
def push (parts : Parts) (formal : Formal) (type : Qualified) : Parts :=
  ⟨parts.formals ++ [formal], parts.types ++ [type]⟩

/-- One more formal, which no declaration stands behind. -/
def pushPlain (parts : Parts) (name : Name) (type : Qualified) : Parts :=
  parts.push ⟨name, false, .absent⟩ type

end Parts

/-- What an untyped signature says beside its formals, as far as synthesized ones differ in it. -/
structure Header where
  owner : DeclId
  name : Name
  isMethod : Bool
  ownerKind : DeclKind
  kind : CallableKind

/-! ## Steps of building -/

namespace Building

/-- A step that reads the pool of types, and may fault or refuse. -/
def look {α : Type} (answer : TypePool → Drafting α) : Building α :=
  .mk (.read fun s => (answer s.program.types).run)

/-- A step that reads the pool of types, and may fault. -/
def view {α : Type} (answer : TypePool → Except Fault α) : Building α :=
  look fun pool => liftM (answer pool)

/-- The borrowed form of a class, never nil, which is stored now if it was not before; any other
type as it is. -/
def borrowedNonNil (ty : TypeId) : Building TypeId := do
  let (made, types) ← view (·.decorate ty .borrowedNonNil)
  modify fun s => { s with program := { s.program with types } }
  return made

/-- Stores the untyped part of a signature and then the typed one. -/
def finish (header : Header) (parts : Parts) (needsInstantiation : Bool) : Building SigId :=
  modifyGet fun s =>
    let (untyped, signatures) := s.signatures.internUntyped
      { owner := header.owner, name := header.name, isMethod := header.isMethod,
        isTypeConstructor := false, isCompilerGenerated := true, throws := false,
        ownerKind := header.ownerKind, kind := header.kind, formals := parts.formals }
    let (id, signatures) := signatures.internTyped
      { untyped, formalTypes := parts.types, whereClause := .absent, needsInstantiation,
        instantiatedFrom := none, parentFunction := none, formalsInstantiated := [] }
    (id, { s with signatures })

/-- The receiver of a lifecycle method. -/
def lifecycleReceiver (ty : TypeId) : Building Qualified := do
  let binding := if ← view (·.isClass ty) then .constIn else .ref
  if ← view (·.isClass ty) then return ⟨binding, ← borrowedNonNil ty⟩
  return ⟨binding, ty⟩

end Building

/-! ## Methods -/

namespace Host

open Building

/-- Adds the formal of a default initializer for a field. -/
def pushField (host : Host) (parts : Parts) (field : ResolvedField) : Building Parts := do
  let hasDefault ←
    if field.hasDefault then pure true
    else view (host.isDefaultInitializable · field.type.type)
  let type :=
    if field.type.binding.isTypeOrParam then field.type else field.type.withBinding .copyIn
  return parts.push ⟨field.name, hasDefault, field.decl⟩ type

/-- The default initializer. -/
def buildInit (host : Host) (ty : TypeId) : Building SigId := do
  let (basic, comp) ← look (·.compositeParts .init ty)
  let generic ← view (·.genericRoot basic)
  let fields ← view (host.fields · .ignoreDefaults generic)
  if fields.isGeneric then throw (.unsupported .genericInitializer ty)
  if comp.kind = .classType && comp.hasNontrivialParent then
    throw (.unsupported .inheritingClassInitializer ty)
  let receiver ← lifecycleReceiver generic
  let parts ← fields.fields.foldlM host.pushField (Parts.empty.pushPlain .receiver receiver)
  finish ⟨comp.decl, .init, true, host.ownerKind comp, .procedure⟩ parts fields.isGeneric

/-- The class behind a class, and any other type as it was requested. -/
def basicOrInstance (ty basic : TypeId) : Building TypeId := do
  if ← view (·.isClass ty) then return basic
  return ty

/-- The copy initializer. -/
def buildInitCopy (host : Host) (ty : TypeId) : Building SigId := do
  let (basic, comp) ← look (·.compositeParts .initCopy ty)
  let receiver ← lifecycleReceiver (← basicOrInstance ty basic)
  let parts := (Parts.empty.pushPlain .receiver receiver).pushPlain .other
    (receiver.withBinding .constRef)
  finish ⟨comp.decl, .initCopy, true, host.ownerKind comp, .procedure⟩ parts false

/-- The deinitializer. -/
def buildDeinit (host : Host) (ty : TypeId) : Building SigId := do
  let (basic, comp) ← look (·.compositeParts .deinit ty)
  let receiver ← lifecycleReceiver (← basicOrInstance ty basic)
  finish ⟨comp.decl, .deinit, true, host.ownerKind comp, .procedure⟩
    (Parts.empty.pushPlain .receiver receiver) false

/-- Comparison or assignment of records. -/
def buildRecordOperator (host : Host) (ty : TypeId) (name : Name) : Building SigId := do
  let (_, comp) ← look (·.compositeParts .recordOperator ty)
  let generic ← view (·.genericRoot ty)
  let binding := if name = .equals then .ref else .constRef
  let parts := ((Parts.empty.pushPlain .receiver ⟨binding, generic⟩).pushPlain .lhs
    ⟨binding, generic⟩).pushPlain .rhs ⟨.constRef, generic⟩
  let genericity ← view (host.genericity · ty)
  finish ⟨comp.decl, name, true, host.ownerKind comp, .operator⟩ parts genericity.isGeneric

end Host

open Building

/-- A query of a builtin type. -/
def Building.query (ty : TypeId) (name : Name) (ownerKind : DeclKind) : Building SigId :=
  finish ⟨.absent, name, true, ownerKind, .procedure⟩
    (Parts.empty.pushPlain .receiver ⟨.constRef, ty⟩) false

/-- The method of a name for a type. It is to be one that the type needs. -/
def Host.buildMethod (host : Host) (ty : TypeId) (name : Name) : Building SigId := do
  if name = .init then return ← host.buildInit ty
  if name = .initCopy then return ← host.buildInitCopy ty
  if name = .deinit then return ← host.buildDeinit ty
  match ← view (·.kind ty) with
  | .tuple => query ty name .tuple
  | .domain => query ty name .domain
  | .array => query ty name .array
  | .cPtr => query ty name .cPtr
  | .record =>
    if name.isRecordOperator then return ← host.buildRecordOperator ty name
    throw (.internal (.noGenerator name) ty)
  | _ => throw (.internal (.noGenerator name) ty)

/-! ## Accessors and casts -/

/-- The accessor of a type's field. -/
def Host.buildAccessor (host : Host) (ty : TypeId) (field : Name) :
    Building (Option SigId) := do
  let basic ← view (·.undecorated ty)
  let some _ ← view (·.composite? basic) | return none
  let some id ← view (host.fieldId? · basic field) | return none
  let received ←
    if ← view (·.isClass basic) then borrowedNonNil basic else pure basic
  return some (← finish ⟨id, field, true, (host.declKind? id).getD .field, .procedure⟩
    (Parts.empty.pushPlain .receiver ⟨.refMaybeConst, received⟩) false)

/-- A cast between an enumeration and the integral types. -/
def Building.enumCast (ty : TypeId) (direction : CastDirection) : Building (Option SigId) := do
  let some e ← view (·.enumeration? ty) | return none
  if e.isAbstract then return none
  let (source, target) := match direction with
    | .fromEnum => (ty, TypeId.integral)
    | .toEnum => (TypeId.integral, ty)
  let parts := (Parts.empty.pushPlain .castSource ⟨.defaultIntent, source⟩).pushPlain .castTarget
    (.typeOf target)
  return some (← finish ⟨e.decl, .cast, false, .enum, .operator⟩ parts true)

/-- The operator of a name between operands of two types. -/
def Building.binaryOp (lhs rhs : TypeId) (name : Name) : Building (Option SigId) := do
  if name ≠ .cast then return none
  if ← view (·.isEnumeration lhs) then return ← enumCast lhs .fromEnum
  if ← view (·.isEnumeration rhs) then return ← enumCast rhs .toEnum
  return none

end MethodSynthesis
