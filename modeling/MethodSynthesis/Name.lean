import MethodSynthesis.InternTable

/-!
# Names

A name is the handle of an identifier in a table of strings. Every table of names reserves the
empty string and the vocabulary that method synthesis dispatches on, so those names are constants
and to classify a name is to compare handles.
-/

set_option autoImplicit false

namespace MethodSynthesis

/-- An interned identifier. -/
structure Name where
  handle : Handle
deriving DecidableEq

namespace Name

/-- The identifiers with a fixed meaning: lifecycle methods, formals of synthesized methods,
operators, and queries of builtin types. -/
def vocabulary : List String :=
  ["init", "init=", "deinit",
    "this", "other", "lhs", "rhs", "from", "to",
    "==", "=", ":",
    "size", "idxType", "rank", "stridable", "parSafe", "isRectangular", "isAssociative",
    "domain", "eltType"]

/-- The name in a reserved slot: slot 0 is the empty string, slot `k + 1` is entry `k` of the
vocabulary. -/
def reserved (slot : Nat) : Name := ⟨⟨0, slot⟩⟩

/-- The empty identifier. -/
def empty : Name := reserved 0
/-- `init`, the default initializer. -/
def init : Name := reserved 1
/-- `init=`, the copy initializer. -/
def initCopy : Name := reserved 2
/-- `deinit`, the deinitializer. -/
def deinit : Name := reserved 3
/-- `this`, the receiver formal of a method. -/
def receiver : Name := reserved 4
/-- `other`, the source of a copy. -/
def other : Name := reserved 5
/-- `lhs`, the left operand. -/
def lhs : Name := reserved 6
/-- `rhs`, the right operand. -/
def rhs : Name := reserved 7
/-- `from`, the value to cast. -/
def castSource : Name := reserved 8
/-- `to`, the type to cast to. -/
def castTarget : Name := reserved 9
/-- `==`. -/
def equals : Name := reserved 10
/-- `=`. -/
def assign : Name := reserved 11
/-- `:`, the cast operator. -/
def cast : Name := reserved 12
/-- `size`. -/
def size : Name := reserved 13
/-- `idxType`. -/
def idxType : Name := reserved 14
/-- `rank`. -/
def rank : Name := reserved 15
/-- `stridable`. -/
def stridable : Name := reserved 16
/-- `parSafe`. -/
def parSafe : Name := reserved 17
/-- `isRectangular`. -/
def isRectangular : Name := reserved 18
/-- `isAssociative`. -/
def isAssociative : Name := reserved 19
/-- `domain`. -/
def domain : Name := reserved 20
/-- `eltType`. -/
def eltType : Name := reserved 21

/-- Methods that every type has: `init`, `deinit` and `init=`. -/
def isLifecycleMethod (n : Name) : Bool := n = init || n = deinit || n = initCopy

/-- Operators that are synthesized for records alone: `==` and `=`. -/
def isRecordOperator (n : Name) : Bool := n = equals || n = assign

/-- Domain queries that are called without parentheses. -/
def isParenlessDomainQuery (n : Name) : Bool :=
  n = idxType || n = rank || n = stridable || n = parSafe

/-- Domain queries that are called with parentheses. -/
def isParenDomainQuery (n : Name) : Bool := n = isRectangular || n = isAssociative

/-- Array queries, in either call shape. -/
def isArrayQuery (n : Name) : Bool := n = domain || n = eltType

/-- The text of a name in traces: shard and slot. -/
def describe (n : Name) : String := s!"Name({n.handle.shard.val}:{n.handle.slot})"

end Name

/-- The interned identifiers. -/
structure NameTable where
  table : InternTable String

namespace NameTable

/-- The table with the reserved identifiers only. -/
def empty (shardOf : String → Fin 16) : NameTable := ⟨.pinned shardOf ("" :: Name.vocabulary)⟩

/-- The name of a string, which is stored now if it was not before; the program stops where its shard
has no room (`InternTable.intern`). -/
def intern (t : NameTable) (s : String) : Name × NameTable :=
  let (handle, table) := t.table.intern s
  (⟨handle⟩, ⟨table⟩)

/-- As `intern`, but a new string is refused when its shard is full. -/
def tryIntern (t : NameTable) (s : String) : Except ShardOverflow (Name × NameTable) :=
  (t.table.tryIntern s).map fun (handle, table) => (⟨handle⟩, ⟨table⟩)

/-- The string behind a name. -/
def text? (t : NameTable) (n : Name) : Option String := t.table.get? n.handle

/-- Number of strings, the reserved ones included. -/
def size (t : NameTable) : Nat := t.table.size

/-- Whether only the reserved strings are stored. -/
def isEmpty (t : NameTable) : Bool := t.table.isEmpty

/-- The text of a table in traces. -/
def describe (t : NameTable) : String := s!"SharedInterner \x7b len: {t.size} \x7d"

end NameTable

end MethodSynthesis
