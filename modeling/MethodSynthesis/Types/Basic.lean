import MethodSynthesis.Name
import MethodSynthesis.Declaration

/-!
# Types

A type is named by its handle in a pool, and its structure names the types it is made of the same
way. The nine primitive types are reserved, so their handles are constants. A type that is not
known yet has a name of its own and no structure.
-/

set_option autoImplicit false

namespace MethodSynthesis

/-- The types without parts that every pool holds. -/
inductive Primitive where
  | int
  | uint
  | real
  | bool
  | string
  /-- The type of no value. -/
  | nothing
  /-- Any integral type. -/
  | integral
  /-- Any type at all. -/
  | any
  /-- The root of every class hierarchy. -/
  | rootObject
deriving DecidableEq

namespace Primitive

/-- The primitive types in the order of their slots. -/
def all : List Primitive :=
  [.int, .uint, .real, .bool, .string, .nothing, .integral, .any, .rootObject]

/-- The reserved slot of a primitive type. -/
def slot : Primitive → Nat
  | .int => 0
  | .uint => 1
  | .real => 2
  | .bool => 3
  | .string => 4
  | .nothing => 5
  | .integral => 6
  | .any => 7
  | .rootObject => 8

/-- The written form of a primitive type. -/
def text : Primitive → String
  | .int => "int"
  | .uint => "uint"
  | .real => "real"
  | .bool => "bool"
  | .string => "string"
  | .nothing => "nothing"
  | .integral => "integral"
  | .any => "?"
  | .rootObject => "RootObject"

end Primitive

/-- The name of a type: unknown as yet, or the place where a pool stores its structure. -/
inductive TypeId where
  | unknown
  | known (handle : Handle)
deriving DecidableEq

namespace TypeId

/-- The name of a primitive type. -/
def primitive (p : Primitive) : TypeId := .known ⟨0, p.slot⟩

/-- The signed integers. -/
def int : TypeId := primitive .int
/-- The unsigned integers. -/
def uint : TypeId := primitive .uint
/-- The reals. -/
def real : TypeId := primitive .real
/-- Any integral type. -/
def integral : TypeId := primitive .integral
/-- Any type at all. -/
def any : TypeId := primitive .any
/-- The root of every class hierarchy. -/
def rootObject : TypeId := primitive .rootObject

/-- The largest 32-bit word stands for the unknown type. -/
def unknownRaw : Nat := 0xFFFFFFFF

/-- The packed form. -/
def raw : TypeId → Nat
  | .unknown => unknownRaw
  | .known handle => handle.raw

/-- The type with a given packed form. -/
def ofRaw (raw : Nat) : TypeId := if raw = unknownRaw then .unknown else .known (.ofRaw raw)

/-- Whether the type is unknown. -/
def isUnknown (ty : TypeId) : Bool := ty = .unknown

/-- The primitive type of that name. -/
def primitive? (ty : TypeId) : Option Primitive := Primitive.all.find? (primitive · = ty)

/-- The text of a type name in traces. -/
def describe (ty : TypeId) : String :=
  match ty, ty.primitive? with
  | .unknown, _ => "Idx::NONE"
  | .known _, some p => s!"Idx({p.text})"
  | .known handle, none => s!"Idx({handle.raw})"

end TypeId

/-- How the memory of a class value is managed. -/
inductive Management where
  | borrowed
  | owned
  | shared
  | unmanaged
deriving DecidableEq

/-- The word for a management. -/
def Management.text : Management → String
  | .borrowed => "borrowed"
  | .owned => "owned"
  | .shared => "shared"
  | .unmanaged => "unmanaged"

/-- What a decorated class adds to its class. -/
structure Decorator where
  management : Management
  nilable : Bool
deriving DecidableEq

namespace Decorator

/-- Borrowed, never nil: the form in which synthesized methods receive a class. -/
def borrowedNonNil : Decorator := ⟨.borrowed, false⟩
/-- Borrowed, possibly nil. -/
def borrowedNilable : Decorator := ⟨.borrowed, true⟩
/-- Owned, never nil. -/
def ownedNonNil : Decorator := ⟨.owned, false⟩
/-- Shared, never nil. -/
def sharedNonNil : Decorator := ⟨.shared, false⟩
/-- Unmanaged, never nil. -/
def unmanagedNonNil : Decorator := ⟨.unmanaged, false⟩

end Decorator

/-- The types with named fields. -/
inductive CompositeKind where
  | record
  | classType
  | union
deriving DecidableEq

/-- What a type of this kind is declared as. -/
def CompositeKind.declKind : CompositeKind → DeclKind
  | .record => .record
  | .classType => .classType
  | .union => .union

/-- A record, undecorated class or union, possibly an instantiation of a generic one. -/
structure Composite where
  kind : CompositeKind
  /-- Where the type is declared. -/
  decl : DeclId
  name : Name
  /-- The generic type that this one instantiates. -/
  instantiatedFrom : Option TypeId
  /-- The types that take the place of fields, by field name; the first of a name counts. -/
  substitutions : List (Name × TypeId)
  /-- The parent of a class. Without one a class has the root object for its parent. -/
  parent : Option TypeId
deriving DecidableEq

namespace Composite

/-- Whether there is a parent other than the root object. -/
def hasNontrivialParent (c : Composite) : Bool := c.parent.any (· ≠ TypeId.rootObject)

/-- The type that takes the place of a field. -/
def substitution? (c : Composite) (field : Name) : Option TypeId :=
  (c.substitutions.find? (·.1 = field)).map (·.2)

end Composite

/-- One constant of an enumeration, with its explicit value if it has one. -/
structure EnumConstant where
  name : Name
  value : Option Int
deriving DecidableEq

/-- An enumeration. -/
structure Enumeration where
  decl : DeclId
  name : Name
  constants : List EnumConstant
deriving DecidableEq

/-- An enumeration in which no constant has an explicit value has no integer form. -/
def Enumeration.isAbstract (e : Enumeration) : Bool := e.constants.all (·.value.isNone)

/-- The structure of a type, one level deep. -/
inductive TypeData where
  | primitive (p : Primitive)
  | composite (c : Composite)
  /-- A class with a management and nilability. -/
  | decorated (basic : TypeId) (decorator : Decorator)
  | tuple (elements : List TypeId)
  | array (domain element : TypeId)
  /-- A rectangular index set of a number of dimensions. -/
  | rectangular (rank : Nat) (index : TypeId) (strided : Bool)
  /-- An index set of keys. -/
  | associative (index : TypeId) (parSafe : Bool)
  /-- A pointer to a value outside the language's memory management. -/
  | cPtr (element : TypeId)
  | enumeration (e : Enumeration)
deriving DecidableEq

/-- What sort of type a structure is. -/
inductive TypeKind where
  | primitive (p : Primitive)
  | record
  | basicClass
  | union
  | decoratedClass
  | tuple
  | array
  | domain
  | cPtr
  | enumeration
deriving DecidableEq

namespace TypeKind

/-- The word for a kind in messages. -/
def label : TypeKind → String
  | .primitive .any => "any"
  | .primitive p => p.text
  | .record => "record"
  | .basicClass => "class"
  | .union => "union"
  | .decoratedClass => "decorated class"
  | .tuple => "tuple"
  | .array => "array"
  | .domain => "domain"
  | .cPtr => "c_ptr"
  | .enumeration => "enum"

/-- Records, unions, and classes with or without a decorator. -/
def isComposite : TypeKind → Bool
  | .record | .basicClass | .union | .decoratedClass => true
  | _ => false

/-- Classes with or without a decorator. -/
def isClass : TypeKind → Bool
  | .basicClass | .decoratedClass => true
  | _ => false

/-- The types without parts that every pool holds. -/
def isPrimitive : TypeKind → Bool
  | .primitive _ => true
  | _ => false

end TypeKind

namespace TypeData

/-- What sort of type the structure is. -/
def kind : TypeData → TypeKind
  | .primitive p => .primitive p
  | .composite c =>
    match c.kind with
    | .record => .record
    | .classType => .basicClass
    | .union => .union
  | .decorated _ _ => .decoratedClass
  | .tuple _ => .tuple
  | .array _ _ => .array
  | .rectangular _ _ _ | .associative _ _ => .domain
  | .cPtr _ => .cPtr
  | .enumeration _ => .enumeration

/-- The types that a structure names. -/
def components : TypeData → List TypeId
  | .primitive _ | .enumeration _ => []
  | .composite c =>
    c.instantiatedFrom.toList ++ c.substitutions.map (·.2) ++ c.parent.toList
  | .decorated basic _ => [basic]
  | .tuple elements => elements
  | .array domain element => [domain, element]
  | .rectangular _ index _ | .associative index _ => [index]
  | .cPtr element => [element]

end TypeData

end MethodSynthesis
