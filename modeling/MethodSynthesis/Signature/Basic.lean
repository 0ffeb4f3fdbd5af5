import MethodSynthesis.Types.Qualified

/-!
# Signatures

An untyped signature is the shape of a function as it is written: its name, its formals and what
marks it. A typed signature adds a qualified type for each formal. Both are interned, so a signature
names its untyped part, and others that it comes from, by handle.
-/

set_option autoImplicit false

namespace MethodSynthesis

/-- The name of an untyped signature. -/
structure UntypedSigId where
  handle : Handle
deriving DecidableEq

/-- The name of a typed signature. -/
structure SigId where
  handle : Handle
deriving DecidableEq

/-- The outcome of a where clause. -/
inductive WhereClause where
  | absent
  | holds
  | fails
deriving DecidableEq

/-- A formal without its type. -/
structure Formal where
  name : Name
  hasDefault : Bool
  /-- The formal's declaration, if it comes from one. -/
  decl : DeclId
deriving DecidableEq

/-- The shape of a function. -/
structure UntypedSignature where
  /-- The declaration that the function belongs to. -/
  owner : DeclId
  name : Name
  isMethod : Bool
  isTypeConstructor : Bool
  isCompilerGenerated : Bool
  throws : Bool
  /-- What sort of declaration `owner` is. -/
  ownerKind : DeclKind
  kind : CallableKind
  formals : List Formal
deriving DecidableEq

/-- A function with the types of its formals. -/
structure TypedSignature where
  untyped : UntypedSigId
  /-- One type for each formal, in order. -/
  formalTypes : List Qualified
  whereClause : WhereClause
  /-- Some formal is generic, so that a call has to instantiate the signature. -/
  needsInstantiation : Bool
  instantiatedFrom : Option SigId
  /-- The function around a nested one. -/
  parentFunction : Option SigId
  /-- Which formals were instantiated. -/
  formalsInstantiated : List Bool
deriving DecidableEq

/-- The type of a formal by its position. -/
def TypedSignature.formalType? (s : TypedSignature) (i : Nat) : Option Qualified :=
  s.formalTypes[i]?

end MethodSynthesis
