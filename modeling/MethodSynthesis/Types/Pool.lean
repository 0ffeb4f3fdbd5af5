import MethodSynthesis.Fault

/-!
# The pool of types

The pool stores the structure of each type once, so that types of equal structure are one type.
The parts of a type are in the pool before the type itself, and `TypePool.fold` recurses from a
type to its parts along that order.
-/

set_option autoImplicit false

namespace MethodSynthesis

/-- The stored types. -/
structure TypePool where
  table : InternTable TypeData

namespace TypePool

/-- The pool with the primitive types only. -/
def empty (shardOf : TypeData → Fin 16) : TypePool :=
  ⟨.pinned shardOf (Primitive.all.map .primitive)⟩

/-- The type of a structure, which is stored now if it was not before. As for every table, this is
for shards with room (`InternTable.intern`). -/
def intern (pool : TypePool) (data : TypeData) : TypeId × TypePool :=
  let (handle, table) := pool.table.intern data
  (.known handle, ⟨table⟩)

/-- Number of types, the primitive ones included. -/
def size (pool : TypePool) : Nat := pool.table.size

/-- Whether nothing beyond the primitive types is stored. -/
def isEmpty (pool : TypePool) : Bool := pool.table.isEmpty

/-- The text of a pool in traces. -/
def describe (pool : TypePool) : String := s!"SharedTypePool(TypePool \x7b len: {pool.size}, .. \x7d)"

/-! ## Reading a type -/

/-- The structure of a type. -/
def read? (pool : TypePool) : TypeId → Option TypeData
  | .unknown => none
  | .known handle => pool.table.get? handle

/-- The structure of a type that has to be there. -/
def read (pool : TypePool) (ty : TypeId) : Except Fault TypeData :=
  match pool.read? ty with
  | some data => .ok data
  | none => .error (.missingType ty)

/-- What sort of type it is. -/
def kind (pool : TypePool) (ty : TypeId) : Except Fault TypeKind := return (← pool.read ty).kind

/-- Whether a type is a class, with or without a decorator. -/
def isClass (pool : TypePool) (ty : TypeId) : Except Fault Bool := return (← pool.kind ty).isClass

/-- The fields' side of a record, undecorated class or union. -/
def composite? (pool : TypePool) (ty : TypeId) : Except Fault (Option Composite) :=
  return match ← pool.read ty with
    | .composite c => some c
    | _ => none

/-- The undecorated class behind a class. -/
def basicClass? (pool : TypePool) (ty : TypeId) : Except Fault (Option TypeId) :=
  return match ← pool.read ty with
    | .decorated basic _ => some basic
    | .composite c => if c.kind = .classType then some ty else none
    | _ => none

/-- A class without its decorator; any other type as it is. -/
def undecorated (pool : TypePool) (ty : TypeId) : Except Fault TypeId :=
  return (← pool.basicClass? ty).getD ty

/-- As `composite?`, but a decorated class counts as its class. -/
def compositeOf? (pool : TypePool) (ty : TypeId) : Except Fault (Option Composite) := do
  pool.composite? (← pool.undecorated ty)

/-- The generic type that a composite instantiates; any other type as it is. -/
def genericRoot (pool : TypePool) (ty : TypeId) : Except Fault TypeId :=
  return match ← pool.read ty with
    | .composite c => c.instantiatedFrom.getD ty
    | _ => ty

/-- The enumeration behind a type. -/
def enumeration? (pool : TypePool) (ty : TypeId) : Except Fault (Option Enumeration) :=
  return match ← pool.read ty with
    | .enumeration e => some e
    | _ => none

/-- The declaration of a composite or enumeration; a decorated class counts as its class. -/
def declOf? (pool : TypePool) (ty : TypeId) : Except Fault (Option DeclId) := do
  return match ← pool.read (← pool.undecorated ty) with
    | .composite c => some c.decl
    | .enumeration e => some e.decl
    | _ => none

/-- The records, undecorated classes and unions of the pool. -/
def composites (pool : TypePool) : List TypeId :=
  pool.table.entries.filterMap fun entry =>
    match entry.value with
    | .composite _ => some (.known entry.handle)
    | _ => none

/-! ## Recursion over structure -/

section Fold

variable {β : Type}

/-- The recursion behind `fold`, over the types that are left. -/
def foldEntries (absent : TypeId → β) (step : TypeId → TypeData → (TypeId → β) → β) :
    List (InternTable.Entry TypeData) → TypeId → β
  | [], ty => absent ty
  | entry :: older, ty =>
    if ty = .known entry.handle then step ty entry.value (foldEntries absent step older)
    else foldEntries absent step older ty

/-- Computes a result for a type from its structure and the results for its parts. The results at
hand are those of older types, which is where the parts of a stored type are found; `absent` gives
the result for a type that is not among them. -/
def fold (pool : TypePool) (absent : TypeId → β)
    (step : TypeId → TypeData → (TypeId → β) → β) : TypeId → β :=
  foldEntries absent step pool.table.entries

end Fold

/-! ## Making types -/

/-- A composite that instantiates nothing. -/
def plainComposite (pool : TypePool) (kind : CompositeKind) (decl : DeclId) (name : Name)
    (parent : Option TypeId) : TypeId × TypePool :=
  pool.intern (.composite ⟨kind, decl, name, none, [], parent⟩)

/-- The generic form of a record. -/
def record (pool : TypePool) (decl : DeclId) (name : Name) : TypeId × TypePool :=
  pool.plainComposite .record decl name none

/-- The generic form of an undecorated class. -/
def basicClass (pool : TypePool) (decl : DeclId) (name : Name) (parent : Option TypeId) :
    TypeId × TypePool :=
  pool.plainComposite .classType decl name parent

/-- The generic form of a union. -/
def union (pool : TypePool) (decl : DeclId) (name : Name) : TypeId × TypePool :=
  pool.plainComposite .union decl name none

/-- The instantiation of a composite by types for its fields. An instantiation of an instantiation
instantiates the generic form. Only undecorated composites can be instantiated. -/
def instantiate (pool : TypePool) (generic : TypeId) (substitutions : List (Name × TypeId)) :
    Except Fault (Option (TypeId × TypePool)) :=
  return (← pool.composite? generic).map fun base =>
    pool.intern (.composite
      { base with instantiatedFrom := some (base.instantiatedFrom.getD generic), substitutions })

/-- A class under a decorator, which replaces the one it has; any other type as it is. -/
def decorate (pool : TypePool) (ty : TypeId) (decorator : Decorator) :
    Except Fault (TypeId × TypePool) :=
  return match ← pool.basicClass? ty with
    | some basic => pool.intern (.decorated basic decorator)
    | none => (ty, pool)

/-- The type of tuples of the given elements. -/
def tuple (pool : TypePool) (elements : List TypeId) : TypeId × TypePool :=
  pool.intern (.tuple elements)

/-- The type of arrays over a domain. -/
def array (pool : TypePool) (domain element : TypeId) : TypeId × TypePool :=
  pool.intern (.array domain element)

/-- The type of rectangular index sets. -/
def rectangular (pool : TypePool) (rank : Nat) (index : TypeId) (strided : Bool) :
    TypeId × TypePool :=
  pool.intern (.rectangular rank index strided)

/-- The type of index sets of keys. -/
def associative (pool : TypePool) (index : TypeId) (parSafe : Bool) : TypeId × TypePool :=
  pool.intern (.associative index parSafe)

/-- The type of pointers to an element. -/
def cPtr (pool : TypePool) (element : TypeId) : TypeId × TypePool := pool.intern (.cPtr element)

/-- An enumeration's type. -/
def enumeration (pool : TypePool) (decl : DeclId) (name : Name) (constants : List EnumConstant) :
    TypeId × TypePool :=
  pool.intern (.enumeration ⟨decl, name, constants⟩)

end TypePool

end MethodSynthesis
