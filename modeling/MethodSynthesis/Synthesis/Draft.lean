import MethodSynthesis.Signature.Pool
import MethodSynthesis.Synthesis.Error

/-!
# Drafts of signatures

A draft is a signature before it is stored: it says what the signature will hold, and names the one
type that may have to be made for it, the borrowed form of a class. Drafting reads the program and
the pools and changes neither; `Draft.store` then stores the signature, which cannot fail. The same
methods are built in steps that read and store by turns in `Host.buildMethod`.
-/

set_option autoImplicit false

namespace MethodSynthesis

/-- The type of a drafted formal. -/
inductive DraftType where
  /-- A type that is in the pool. -/
  | given (ty : TypeId)
  /-- An undecorated class, as borrowed and never nil. -/
  | borrowed (basic : TypeId)
deriving DecidableEq

/-- A drafted formal. -/
structure DraftFormal where
  formal : Formal
  binding : Binding
  type : DraftType
deriving DecidableEq

/-- A signature before it is stored. -/
structure Draft where
  /-- The declaration that the method belongs to. -/
  owner : DeclId
  name : Name
  isMethod : Bool
  /-- What sort of declaration `owner` is. -/
  ownerKind : DeclKind
  kind : CallableKind
  formals : List DraftFormal
  /-- Some formal is generic, so that a call has to instantiate the signature. -/
  needsInstantiation : Bool
deriving DecidableEq

/-- Drafting reads the tables, which is where a fault may arise, and may find that it cannot build
what is asked. -/
abbrev Drafting (α : Type) : Type := ExceptT GenerationError (Except Fault) α

namespace DraftFormal

/-- A formal that no declaration stands behind. -/
def plain (name : Name) (binding : Binding) (type : DraftType) : DraftFormal :=
  ⟨⟨name, false, .absent⟩, binding, type⟩

end DraftFormal

/-- The class or other composite behind a type, and its fields' side. -/
def TypePool.compositeParts (pool : TypePool) (method : CompositeMethod) (ty : TypeId) :
    Drafting (TypeId × Composite) := do
  let basic ← pool.undecorated ty
  match ← pool.composite? basic with
  | some comp => return (basic, comp)
  | none => throw (.internal (.notComposite method) ty)

/-- How a lifecycle method of a type receives it: a class as a constant borrow, any other type by
reference. -/
def TypePool.lifecycleReceiver (pool : TypePool) (ty : TypeId) :
    Except Fault (Binding × DraftType) := do
  if ← pool.isClass ty then return (.constIn, .borrowed (← pool.undecorated ty))
  return (.ref, .given ty)

namespace Host

/-- What sort of declaration a composite type belongs to. -/
def ownerKind (host : Host) (comp : Composite) : DeclKind :=
  (host.declKind? comp.decl).getD comp.kind.declKind

/-- The formal of a default initializer for a field. It keeps the binding of a type or param, and it
has a default if the field has one or its type gives one. -/
def initFormal (host : Host) (pool : TypePool) (field : ResolvedField) :
    Except Fault DraftFormal := do
  let hasDefault ←
    if field.hasDefault then pure true else host.isDefaultInitializable pool field.type.type
  let binding := if field.type.binding.isTypeOrParam then field.type.binding else .copyIn
  return ⟨⟨field.name, hasDefault, field.decl⟩, binding, .given field.type.type⟩

/-- The default initializer: it receives the generic form of the type, and has a formal for each
field. -/
def draftInit (host : Host) (pool : TypePool) (ty : TypeId) : Drafting Draft := do
  let (basic, comp) ← pool.compositeParts .init ty
  let generic ← pool.genericRoot basic
  let fields ← host.fields pool .ignoreDefaults generic
  if fields.isGeneric then throw (.unsupported .genericInitializer ty)
  if comp.kind = .classType && comp.hasNontrivialParent then
    throw (.unsupported .inheritingClassInitializer ty)
  let (binding, receiver) ← pool.lifecycleReceiver generic
  let formals ← (fields.fields.mapM (host.initFormal pool) : Except Fault _)
  return ⟨comp.decl, .init, true, host.ownerKind comp, .procedure,
    .plain .receiver binding receiver :: formals, false⟩

/-- The copy initializer: it receives the type itself and a constant reference to another value of
it. -/
def draftInitCopy (host : Host) (pool : TypePool) (ty : TypeId) : Drafting Draft := do
  let (basic, comp) ← pool.compositeParts .initCopy ty
  let (binding, receiver) ← pool.lifecycleReceiver basic
  return ⟨comp.decl, .initCopy, true, host.ownerKind comp, .procedure,
    [.plain .receiver binding receiver, .plain .other .constRef receiver], false⟩

/-- The deinitializer: it receives the type itself. -/
def draftDeinit (host : Host) (pool : TypePool) (ty : TypeId) : Drafting Draft := do
  let (basic, comp) ← pool.compositeParts .deinit ty
  let (binding, receiver) ← pool.lifecycleReceiver basic
  return ⟨comp.decl, .deinit, true, host.ownerKind comp, .procedure,
    [.plain .receiver binding receiver], false⟩

/-- Comparison or assignment of records, over the generic form of the type. Comparison takes its
receiver and left operand as mutable references. -/
def draftRecordOperator (host : Host) (pool : TypePool) (ty : TypeId) (name : Name) :
    Drafting Draft := do
  let (_, comp) ← pool.compositeParts .recordOperator ty
  let generic ← pool.genericRoot ty
  let binding := if name = .equals then .ref else .constRef
  let genericity ← host.genericity pool ty
  return ⟨comp.decl, name, true, host.ownerKind comp, .operator,
    [.plain .receiver binding (.given generic), .plain .lhs binding (.given generic),
      .plain .rhs .constRef (.given generic)],
    genericity.isGeneric⟩

end Host

/-- A query of a builtin type: it receives the exact type. -/
def Draft.query (ty : TypeId) (name : Name) (ownerKind : DeclKind) : Draft :=
  ⟨.absent, name, true, ownerKind, .procedure, [.plain .receiver .constRef (.given ty)], false⟩

/-- The method of a name for a type. It is to be one that the type needs. -/
def Host.draftMethod (host : Host) (pool : TypePool) (ty : TypeId) (name : Name) :
    Drafting Draft := do
  if name = .init then return ← host.draftInit pool ty
  if name = .initCopy then return ← host.draftInitCopy pool ty
  if name = .deinit then return ← host.draftDeinit pool ty
  match ← pool.kind ty with
  | .tuple => return .query ty name .tuple
  | .domain => return .query ty name .domain
  | .array => return .query ty name .array
  | .cPtr => return .query ty name .cPtr
  | .record =>
    if name.isRecordOperator then return ← host.draftRecordOperator pool ty name
    throw (.internal (.noGenerator name) ty)
  | _ => throw (.internal (.noGenerator name) ty)

/-- The accessor of a type's field: it belongs to the field's declaration. A type that is no composite
or has no such field has no accessor. -/
def Host.draftAccessor (host : Host) (pool : TypePool) (ty : TypeId) (field : Name) :
    Except Fault (Option Draft) := do
  let basic ← pool.undecorated ty
  let some comp ← pool.composite? basic | return none
  let some id ← host.fieldId? pool basic field | return none
  let receiver := if comp.kind = .classType then .borrowed basic else .given basic
  return some ⟨id, field, true, (host.declKind? id).getD .field, .procedure,
    [.plain .receiver .refMaybeConst receiver], false⟩

/-- The two casts of an enumeration. -/
inductive CastDirection where
  /-- To the integral types. -/
  | fromEnum
  /-- From the integral types. -/
  | toEnum
deriving DecidableEq

/-- A cast between an enumeration and the integral types. An abstract enumeration has none. -/
def TypePool.draftEnumCast (pool : TypePool) (ty : TypeId) (direction : CastDirection) :
    Except Fault (Option Draft) := do
  let some e ← pool.enumeration? ty | return none
  if e.isAbstract then return none
  let (source, target) := match direction with
    | .fromEnum => (ty, TypeId.integral)
    | .toEnum => (TypeId.integral, ty)
  return some ⟨e.decl, .cast, false, .enum, .operator,
    [.plain .castSource .defaultIntent (.given source), .plain .castTarget .type (.given target)],
    true⟩

/-- Whether a type is an enumeration; the unknown type is not. -/
def TypePool.isEnumeration (pool : TypePool) (ty : TypeId) : Except Fault Bool :=
  if ty.isUnknown then return false else return (← pool.enumeration? ty).isSome

/-- The operator of a name between operands of two types. Only the cast of an enumeration is
synthesized; an enumeration on the left decides over one on the right. -/
def TypePool.draftBinaryOp (pool : TypePool) (lhs rhs : TypeId) (name : Name) :
    Except Fault (Option Draft) := do
  if name ≠ .cast then return none
  if ← pool.isEnumeration lhs then return ← pool.draftEnumCast lhs .fromEnum
  if ← pool.isEnumeration rhs then return ← pool.draftEnumCast rhs .toEnum
  return none

/-! ## Storing a draft -/

/-- The type of a drafted formal, which is stored now if it was not before. -/
def DraftType.store (pool : TypePool) : DraftType → TypeId × TypePool
  | .given ty => (ty, pool)
  | .borrowed basic => pool.intern (.decorated basic .borrowedNonNil)

/-- The qualified types of drafted formals, in order. -/
def DraftFormal.storeTypes (pool : TypePool) : List DraftFormal → List Qualified × TypePool
  | [] => ([], pool)
  | formal :: rest =>
    let (ty, pool) := formal.type.store pool
    let (types, pool) := storeTypes pool rest
    (⟨formal.binding, ty⟩ :: types, pool)

/-- The untyped part of a draft. -/
def Draft.untyped (draft : Draft) : UntypedSignature where
  owner := draft.owner
  name := draft.name
  isMethod := draft.isMethod
  isTypeConstructor := false
  isCompilerGenerated := true
  throws := false
  ownerKind := draft.ownerKind
  kind := draft.kind
  formals := draft.formals.map (·.formal)

/-- Stores a drafted signature with the types that it needs. -/
def Draft.store (draft : Draft) (types : TypePool) (signatures : SignaturePool) :
    SigId × TypePool × SignaturePool :=
  let (formalTypes, types) := DraftFormal.storeTypes types draft.formals
  let (untyped, signatures) := signatures.internUntyped draft.untyped
  let (id, signatures) := signatures.internTyped
    { untyped, formalTypes, whereClause := .absent,
      needsInstantiation := draft.needsInstantiation, instantiatedFrom := none,
      parentFunction := none, formalsInstantiated := [] }
  (id, types, signatures)

end MethodSynthesis
