import MethodSynthesis.Program
import MethodSynthesis.Synthesis.Draft
import MethodSynthesis.Synthesis.Memo
import MethodSynthesis.Synthesis.Need

/-!
# Sessions

A session holds a program, the signatures synthesized for it and the answers given so far. Each
question has an answer found afresh (`needAfresh`, `methodAfresh`, `binaryOpAfresh`,
`accessorAfresh`), which depends on the session as it stands. The queries `need`, `method`,
`binaryOp` and `accessor` keep what they find: a question that was answered before is answered the
same way, whatever has happened to the program since. A query that ends in a fault keeps no answer,
but its questions stay counted.
-/

set_option autoImplicit false

namespace MethodSynthesis

/-- The question for a method of a type. -/
structure MethodKey where
  type : TypeId
  name : Name
  parenless : Bool
deriving DecidableEq

/-- The question for an operator between two operands. -/
structure BinaryOpKey where
  lhs : Qualified
  rhs : Qualified
  name : Name
deriving DecidableEq

/-- The question for the accessor of a field. -/
structure AccessorKey where
  type : TypeId
  field : Name
deriving DecidableEq

/-- The answers given so far. -/
structure MemoTables where
  need : Memo MethodKey Bool
  methods : Memo MethodKey (Except GenerationError (Option SigId))
  binaryOps : Memo BinaryOpKey (Option SigId)
  accessors : Memo AccessorKey (Option SigId)

namespace MemoTables

/-- No answers. -/
def empty : MemoTables := ⟨.empty, .empty, .empty, .empty⟩

/-- The text of the counts in traces. -/
def describe (m : MemoTables) : String :=
  s!"CacheStats \x7b need: {m.need.stats.describe}, methods: {m.methods.stats.describe}, " ++
    s!"binary_ops: {m.binaryOps.stats.describe}, accessors: {m.accessors.stats.describe} \x7d"

end MemoTables

/-- One of the tables of answers, with the way to replace it. -/
structure MemoSlot (κ β : Type) where
  view : MemoTables → Memo κ β
  replace : Memo κ β → MemoTables → MemoTables

namespace MemoSlot

/-- The answers on whether a method is needed. -/
def need : MemoSlot MethodKey Bool := ⟨(·.need), fun need m => { m with need }⟩

/-- The methods. -/
def methods : MemoSlot MethodKey (Except GenerationError (Option SigId)) :=
  ⟨(·.methods), fun methods m => { m with methods }⟩

/-- The operators. -/
def binaryOps : MemoSlot BinaryOpKey (Option SigId) :=
  ⟨(·.binaryOps), fun binaryOps m => { m with binaryOps }⟩

/-- The accessors. -/
def accessors : MemoSlot AccessorKey (Option SigId) :=
  ⟨(·.accessors), fun accessors m => { m with accessors }⟩

end MemoSlot

/-- A program with the signatures and answers of its queries. -/
structure Session where
  program : Program
  signatures : SignaturePool
  memo : MemoTables

/-- A query answers from a session and may add to it. What it has added stays when it ends in a
fault. -/
abbrev Query (α : Type) : Type := ExceptT Fault (StateM Session) α

namespace Query

/-- A question that is answered by reading alone. -/
def read {α : Type} (answer : Session → Except Fault α) : Query α := do
  liftExcept (answer (← get))

/-- Answers a question from a table; the first time, by a computation whose answer is kept. -/
def memoized {κ β : Type} [DecidableEq κ] (slot : MemoSlot κ β) (key : κ) (compute : Query β) :
    Query β := do
  match (slot.view (← get).memo).find? key with
  | some kept =>
    modify fun s => { s with memo := slot.replace (slot.view s.memo).hit s.memo }
    return kept
  | none =>
    modify fun s => { s with memo := slot.replace (slot.view s.memo).miss s.memo }
    let value ← compute
    modifyGet fun s =>
      let (kept, table) := (slot.view s.memo).keep key value
      (kept, { s with memo := slot.replace table s.memo })

/-- Stores a drafted signature. -/
def store (draft : Draft) : Query SigId :=
  modifyGet fun s =>
    let (id, types, signatures) := draft.store s.program.types s.signatures
    (id, { s with program := { s.program with types }, signatures })

/-- Stores a drafted signature, if there is one. -/
def storeOptional : Option Draft → Query (Option SigId)
  | none => return none
  | some draft => return some (← store draft)

end Query

namespace Session

/-- The session over a table of names that has no declarations. -/
def empty (names : NameTable) (shards : Sharding) : Session :=
  ⟨.empty names shards, .empty shards, .empty⟩

/-! ## Answers found afresh -/

/-- Whether a method has to be synthesized for a type. An unknown type needs none. -/
def needAfresh (host : Host) (ty : TypeId) (name : Name) (parenless : Bool) : Query Bool :=
  if ty.isUnknown then return false
  else .read fun s => host.needsMethod s.program.types ty name parenless

/-- The method of a name for a type, given whether one is needed. An error is an answer like any
other. -/
def synthesize (host : Host) (ty : TypeId) (name : Name) (needed : Bool) :
    Query (Except GenerationError (Option SigId)) := do
  if !needed then return .ok none
  match ← .read fun s => (host.draftMethod s.program.types ty name).run with
  | .error e => return .error e
  | .ok draft => return .ok (some (← .store draft))

/-- The method of a name for a type: nothing if none is needed. -/
def methodAfresh (host : Host) (ty : TypeId) (name : Name) (parenless : Bool) :
    Query (Except GenerationError (Option SigId)) := do
  synthesize host ty name (← needAfresh host ty name parenless)

/-- The operator of a name between two operands. -/
def binaryOpAfresh (lhs rhs : Qualified) (name : Name) : Query (Option SigId) := do
  .storeOptional (← .read fun s => s.program.types.draftBinaryOp lhs.type rhs.type name)

/-- The accessor of a known type's field. -/
def accessorAfresh (host : Host) (ty : TypeId) (field : Name) : Query (Option SigId) := do
  .storeOptional (← .read fun s => host.draftAccessor s.program.types ty field)

/-! ## Answers from the tables -/

/-- Whether a method has to be synthesized for a type. The question for an unknown type is not
counted. -/
def need (host : Host) (ty : TypeId) (name : Name) (parenless : Bool) : Query Bool :=
  if ty.isUnknown then return false
  else .memoized .need ⟨ty, name, parenless⟩ (needAfresh host ty name parenless)

/-- The method of a name for a type. To find one is to ask for the need first. -/
def method (host : Host) (ty : TypeId) (name : Name) (parenless : Bool) :
    Query (Except GenerationError (Option SigId)) :=
  .memoized .methods ⟨ty, name, parenless⟩ do
    synthesize host ty name (← need host ty name parenless)

/-- The operator of a name between two operands. -/
def binaryOp (lhs rhs : Qualified) (name : Name) : Query (Option SigId) :=
  .memoized .binaryOps ⟨lhs, rhs, name⟩ (binaryOpAfresh lhs rhs name)

/-- The accessor of a type's field. Without a type, or for the unknown type, there is none, and the
question is not counted. -/
def accessor (host : Host) (ty : Option TypeId) (field : Name) : Query (Option SigId) :=
  match ty.filter (!·.isUnknown) with
  | none => return none
  | some ty => .memoized .accessors ⟨ty, field⟩ (accessorAfresh host ty field)

/-- The written form of a session in traces. -/
def describe (s : Session) : String :=
  s!"CompilationContext \x7b types: {s.program.types.size}, " ++
    s!"signatures: {s.signatures.describe}, generated: {s.memo.describe}, .. \x7d"

end Session

end MethodSynthesis
