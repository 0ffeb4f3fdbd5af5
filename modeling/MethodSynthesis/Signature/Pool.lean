import MethodSynthesis.Sharding
import MethodSynthesis.Types.Printing

/-!
# The pool of signatures

Signatures are stored once each, so that requests which build equal signatures get the same one. As
with any pool, storing is for shards with room; where there is none the program stops
(`InternTable.intern`).
-/

set_option autoImplicit false

namespace MethodSynthesis

/-- The stored signatures. -/
structure SignaturePool where
  untypedTable : InternTable UntypedSignature
  typedTable : InternTable TypedSignature

namespace SignaturePool

/-- The pool without signatures. -/
def empty (shards : Sharding) : SignaturePool := ⟨.empty shards.untyped, .empty shards.typed⟩

/-- The name of an untyped signature, which is stored now if it was not before. -/
def internUntyped (pool : SignaturePool) (s : UntypedSignature) : UntypedSigId × SignaturePool :=
  let (handle, untypedTable) := pool.untypedTable.intern s
  (⟨handle⟩, { pool with untypedTable })

/-- The name of a typed signature, which is stored now if it was not before. -/
def internTyped (pool : SignaturePool) (s : TypedSignature) : SigId × SignaturePool :=
  let (handle, typedTable) := pool.typedTable.intern s
  (⟨handle⟩, { pool with typedTable })

/-- An untyped signature that has to be there. -/
def untyped (pool : SignaturePool) (id : UntypedSigId) : Except Fault UntypedSignature :=
  match pool.untypedTable.get? id.handle with
  | some s => .ok s
  | none => .error (.missingSignature id.handle)

/-- A typed signature that has to be there. -/
def typed (pool : SignaturePool) (id : SigId) : Except Fault TypedSignature :=
  match pool.typedTable.get? id.handle with
  | some s => .ok s
  | none => .error (.missingSignature id.handle)

/-- The name of the function behind a typed signature. -/
def name (pool : SignaturePool) (id : SigId) : Except Fault Name :=
  return (← pool.untyped (← pool.typed id).untyped).name

/-- Number of typed signatures. -/
def size (pool : SignaturePool) : Nat := pool.typedTable.size

/-- Whether there is no typed signature. -/
def isEmpty (pool : SignaturePool) : Bool := pool.typedTable.isEmpty

/-- The text of a pool in traces. -/
def describe (pool : SignaturePool) : String :=
  s!"SignaturePool \x7b untyped: {pool.untypedTable.size}, typed: {pool.size} \x7d"

/-- The written form of a formal: its intent if it has one, its name and its type; a default is
written as a question mark. -/
def renderFormal (names : NameTable) (types : TypePool) (formal : Formal) (type : Qualified) :
    Except Fault String := do
  let intent := match type.binding with
    | .defaultIntent => ""
    | binding => binding.keyword ++ " "
  return intent ++ (← names.text formal.name) ++ ": " ++ (← types.render names type.type) ++
    if formal.hasDefault then " = ?" else ""

/-- The written form of a signature. Formals and types are paired up to the shorter list. -/
def render (pool : SignaturePool) (names : NameTable) (types : TypePool) (id : SigId) :
    Except Fault String := do
  let typed ← pool.typed id
  let untyped ← pool.untyped typed.untyped
  let formals ← (untyped.formals.zip typed.formalTypes).mapM fun (formal, type) =>
    renderFormal names types formal type
  return untyped.kind.keyword ++ " " ++ (← names.text untyped.name) ++
    "(" ++ commaSeparated formals ++ ")"

end SignaturePool

end MethodSynthesis
