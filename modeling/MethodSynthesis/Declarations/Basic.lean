import MethodSynthesis.Scope
import MethodSynthesis.Span
import MethodSynthesis.Types.Qualified

/-!
# Declarations

The declarations of a program, in order, with the scopes they live in. A module, record, class or
union owns a scope; a composite also lists its fields. Declarations are only ever added, and an
addition that has nowhere to go changes nothing.
-/

set_option autoImplicit false

namespace MethodSynthesis

/-- A field as it is declared. -/
structure FieldDecl where
  /-- How the field holds its value: as a variable, constant, type or param. -/
  storage : Binding
  /-- The declared type, if it is written. -/
  declared : Option TypeId
  /-- The type of the default value, if there is one. -/
  default : Option TypeId
deriving DecidableEq

namespace FieldDecl

/-- A variable of a declared type. -/
def var (ty : TypeId) : FieldDecl := ⟨.var, some ty, none⟩

/-- A constant of a declared type. -/
def constVar (ty : TypeId) : FieldDecl := ⟨.constVar, some ty, none⟩

/-- A variable whose type is left to the initializer. -/
def untyped : FieldDecl := ⟨.var, none, none⟩

/-- A type. -/
def type : FieldDecl := ⟨.type, none, none⟩

/-- A compile-time constant of a declared type. -/
def param (ty : TypeId) : FieldDecl := ⟨.param, some ty, none⟩

/-- Adds a default value of the given type. -/
def withDefault (f : FieldDecl) (ty : TypeId) : FieldDecl := { f with default := some ty }

/-- Whether there is a default value. -/
def hasDefault (f : FieldDecl) : Bool := f.default.isSome

end FieldDecl

/-- A formal of a declared function. -/
structure FormalDecl where
  name : Name
  type : Qualified
  hasDefault : Bool
deriving DecidableEq

/-- A declared function, method or operator. -/
structure FunctionDecl where
  name : Name
  kind : CallableKind
  isMethod : Bool
  /-- The formals in order, the receiver of a method among them. -/
  formals : List FormalDecl
deriving DecidableEq

/-- What a declaration consists of. -/
inductive DeclBody where
  | module (scope : ScopeId)
  | composite (kind : CompositeKind) (scope : ScopeId) (fields : List DeclId)
  | enum
  | field (field : FieldDecl)
  | function (function : FunctionDecl)

namespace DeclBody

/-- What sort of declaration it is. -/
def kind : DeclBody → DeclKind
  | .module _ => .module
  | .composite kind _ _ => kind.declKind
  | .enum => .enum
  | .field _ => .field
  | .function _ => .function

/-- The scope that a declaration owns. -/
def scope? : DeclBody → Option ScopeId
  | .module scope | .composite _ scope _ => some scope
  | .enum | .field _ | .function _ => none

/-- Adds a field to a composite, after those present; other declarations have no fields. -/
def addField (id : DeclId) : DeclBody → DeclBody
  | .composite kind scope fields => .composite kind scope (fields ++ [id])
  | body => body

end DeclBody

/-- One declaration. -/
structure Declaration where
  name : Name
  span : Span
  body : DeclBody

/-- The declarations of a program. -/
structure Declarations where
  scopes : ScopeTree
  /-- All declarations, in order. -/
  entries : List Declaration

namespace Declarations

/-- No declarations. -/
def empty : Declarations := ⟨.empty, []⟩

/-- Number of declarations. -/
def size (d : Declarations) : Nat := d.entries.length

/-! ## Reading -/

/-- The declaration behind its name. -/
def get? (d : Declarations) : DeclId → Option Declaration
  | .absent => none
  | .at index => d.entries[index]?

/-- What a declaration consists of. -/
def body? (d : Declarations) (id : DeclId) : Option DeclBody := (d.get? id).map (·.body)

/-- What sort of declaration it is. -/
def kind? (d : Declarations) (id : DeclId) : Option DeclKind := (d.body? id).map (·.kind)

/-- Where a declaration stands in the source text. -/
def span (d : Declarations) (id : DeclId) : Span := ((d.get? id).map (·.span)).getD .dummy

/-- The scope that a declaration owns. -/
def scope? (d : Declarations) (id : DeclId) : Option ScopeId := (d.body? id).bind (·.scope?)

/-- The function that is declared. -/
def function? (d : Declarations) (id : DeclId) : Option FunctionDecl :=
  match d.body? id with
  | some (.function f) => some f
  | _ => none

/-- The field that is declared, with its name. -/
def field? (d : Declarations) (id : DeclId) : Option (Name × FieldDecl) :=
  match d.get? id with
  | some ⟨name, _, .field f⟩ => some (name, f)
  | _ => none

/-- The names of a composite's fields, in order. -/
def fieldIds (d : Declarations) (composite : DeclId) : List DeclId :=
  match d.body? composite with
  | some (.composite _ _ fields) => fields
  | _ => []

/-- A composite's fields, in order. -/
def fieldsOf (d : Declarations) (composite : DeclId) : List (DeclId × Name × FieldDecl) :=
  (d.fieldIds composite).filterMap fun id => (d.field? id).map (id, ·)

/-- The first field of a composite that has the given name. -/
def fieldNamed? (d : Declarations) (composite : DeclId) (name : Name) : Option DeclId :=
  (d.fieldIds composite).find? fun id => (d.get? id).any (·.name = name)

/-! ## Adding -/

/-- The name of the next declaration. -/
def nextId (d : Declarations) : DeclId := .at d.size

/-- Adds a declaration that no scope knows yet. -/
def append (d : Declarations) (name : Name) (body : DeclBody) : Declarations :=
  { d with entries := d.entries ++ [⟨name, .dummy, body⟩] }

/-- Adds a scope. -/
def pushScope (d : Declarations) (parent : Option ScopeId) (kind : ScopeKind) :
    ScopeId × Declarations :=
  let (scope, scopes) := d.scopes.push parent kind
  (scope, { d with scopes })

/-- Declares a name in a scope. -/
def declareIn (d : Declarations) (scope : ScopeId) (entry : ScopeEntry) : Declarations :=
  { d with scopes := d.scopes.declare scope entry }

/-- Adds a declaration and declares it in a scope, if one is given. -/
def add (d : Declarations) (scope : Option ScopeId) (name : Name) (isMethod : Bool)
    (body : DeclBody) : DeclId × Declarations :=
  let id := d.nextId
  let added := d.append name body
  match scope with
  | some scope => (id, added.declareIn scope ⟨name, id, isMethod⟩)
  | none => (id, added)

/-- Adds a module, inside another declaration that owns a scope or at the top. -/
def addModule (d : Declarations) (name : Name) (parent : Option DeclId) : DeclId × Declarations :=
  let outer := parent.bind d.scope?
  let (scope, d) := d.pushScope outer .module
  d.add outer name false (.module scope)

/-- Adds a record, class or union to a module. -/
def addComposite (d : Declarations) (module : DeclId) (name : Name) (kind : CompositeKind) :
    DeclId × Declarations :=
  let outer := d.scope? module
  let (scope, d) := d.pushScope outer .composite
  d.add outer name false (.composite kind scope [])

/-- Adds an enumeration to a module. -/
def addEnum (d : Declarations) (module : DeclId) (name : Name) : DeclId × Declarations :=
  d.add (d.scope? module) name false .enum

/-- Adds a field to a composite, after those it has. -/
def addField (d : Declarations) (owner : DeclId) (name : Name) (field : FieldDecl) :
    Option (DeclId × Declarations) :=
  (d.scope? owner).map fun scope =>
    let (id, d) := d.add (some scope) name false (.field field)
    match owner with
    | .absent => (id, d)
    | .at index =>
      let listed := fun entry : Declaration => { entry with body := entry.body.addField id }
      (id, { d with entries := d.entries.modify index listed })

/-- Adds a function to the scope of a module or composite. -/
def addFunction (d : Declarations) (owner : DeclId) (function : FunctionDecl) :
    Option (DeclId × Declarations) :=
  (d.scope? owner).map fun scope =>
    d.add (some scope) function.name function.isMethod (.function function)

/-- Sets the place of a declaration in the source text. -/
def setSpan (d : Declarations) (id : DeclId) (span : Span) : Declarations :=
  match id with
  | .absent => d
  | .at index => { d with entries := d.entries.modify index fun entry => { entry with span } }

end Declarations

end MethodSynthesis
