import MethodSynthesis.Declarations.Basic
import MethodSynthesis.Sharding
import MethodSynthesis.Types.Pool

/-!
# Programs

A program is its declarations together with the tables that their names and types live in. The
operations here take names as strings; they intern what they add, and only that.
-/

set_option autoImplicit false

namespace MethodSynthesis

/-- Declarations with their names and types. -/
structure Program where
  names : NameTable
  types : TypePool
  decls : Declarations

namespace Program

/-- The program without declarations, over a table of names. -/
def empty (names : NameTable) (shards : Sharding) : Program := ⟨names, .empty shards.types, .empty⟩

/-- The name of a string, which is stored now if it was not before. -/
def internName (p : Program) (s : String) : Name × Program :=
  let (name, names) := p.names.intern s
  (name, { p with names })

/-- The names of strings, in order. -/
def internNames (p : Program) : List String → List Name × Program
  | [] => ([], p)
  | s :: rest =>
    let (name, p) := p.internName s
    let (names, p) := p.internNames rest
    (name :: names, p)

/-- Adds a module, inside another declaration that owns a scope or at the top. -/
def addModule (p : Program) (name : String) (parent : Option DeclId) : DeclId × Program :=
  let (name, p) := p.internName name
  let (id, decls) := p.decls.addModule name parent
  (id, { p with decls })

/-- Adds a record, class or union to a module and makes its type. -/
def addComposite (p : Program) (module : DeclId) (name : String) (kind : CompositeKind)
    (parent : Option TypeId) : TypeId × Program :=
  let (name, p) := p.internName name
  let (id, decls) := p.decls.addComposite module name kind
  let (ty, types) := p.types.plainComposite kind id name parent
  (ty, { p with decls, types })

/-- Adds a record to a module. -/
def addRecord (p : Program) (module : DeclId) (name : String) : TypeId × Program :=
  p.addComposite module name .record none

/-- Adds a class to a module. Without a parent it inherits from the root object. -/
def addClass (p : Program) (module : DeclId) (name : String) (parent : Option TypeId) :
    TypeId × Program :=
  p.addComposite module name .classType parent

/-- Adds a union to a module. -/
def addUnion (p : Program) (module : DeclId) (name : String) : TypeId × Program :=
  p.addComposite module name .union none

/-- Adds an enumeration to a module and makes its type. -/
def addEnum (p : Program) (module : DeclId) (name : String)
    (constants : List (String × Option Int)) : TypeId × Program :=
  let (name, p) := p.internName name
  let (names, p) := p.internNames (constants.map (·.1))
  let constants := (names.zip (constants.map (·.2))).map fun (name, value) => ⟨name, value⟩
  let (id, decls) := p.decls.addEnum module name
  let (ty, types) := p.types.enumeration id name constants
  (ty, { p with decls, types })

/-- Adds a field to a composite, after those it has. Nothing is added, and no name is interned, for a
type that is no composite or whose declaration owns no scope. -/
def addField (p : Program) (owner : TypeId) (name : String) (field : FieldDecl) :
    Except Fault (Option (DeclId × Program)) := do
  let some comp ← p.types.compositeOf? owner | return none
  if (p.decls.scope? comp.decl).isNone then return none
  let (name, p) := p.internName name
  return (p.decls.addField comp.decl name field).map fun (id, decls) => (id, { p with decls })

/-- Adds a function to the scope of a module or composite. -/
def addFunction (p : Program) (owner : DeclId) (function : FunctionDecl) :
    Option DeclId × Program :=
  match p.decls.addFunction owner function with
  | some (id, decls) => (some id, { p with decls })
  | none => (none, p)

/-- Adds a function of a given name. The name is interned even if there is nowhere to add it. -/
def addNamed (p : Program) (owner : DeclId) (name : String) (kind : CallableKind)
    (isMethod : Bool) (formals : List FormalDecl) : Option DeclId × Program :=
  let (name, p) := p.internName name
  p.addFunction owner ⟨name, kind, isMethod, formals⟩

/-- The formals of a method: its receiver, then the rest. -/
def methodFormals (receiver : Qualified) (rest : List FormalDecl) : List FormalDecl :=
  ⟨.receiver, receiver, false⟩ :: rest

/-- Adds a method to the body of a composite. -/
def addMethod (p : Program) (owner : TypeId) (name : String) (kind : CallableKind)
    (receiver : Qualified) (rest : List FormalDecl) : Except Fault (Option DeclId × Program) := do
  let some comp ← p.types.compositeOf? owner | return (none, p)
  return p.addNamed comp.decl name kind true (methodFormals receiver rest)

/-- Adds a method outside the body of its type, to a module. -/
def addSecondaryMethod (p : Program) (module : DeclId) (name : String) (kind : CallableKind)
    (receiver : Qualified) (rest : List FormalDecl) : Option DeclId × Program :=
  p.addNamed module name kind true (methodFormals receiver rest)

/-- Adds an operator that is no method to a module. -/
def addOperator (p : Program) (module : DeclId) (name : String) (formals : List FormalDecl) :
    Option DeclId × Program :=
  p.addNamed module name .operator false formals

/-- Adds a procedure that is no method to a module. -/
def addProcedure (p : Program) (module : DeclId) (name : String) (formals : List FormalDecl) :
    Option DeclId × Program :=
  p.addNamed module name .procedure false formals

/-- Sets the place of a declaration in the source text. -/
def setSpan (p : Program) (id : DeclId) (span : Span) : Program :=
  { p with decls := p.decls.setSpan id span }

/-- Instantiates a composite by types for its fields. The field names are interned first, whatever
comes of it. -/
def instantiate (p : Program) (generic : TypeId) (substitutions : List (String × TypeId)) :
    Except Fault (Option TypeId) × Program :=
  let (names, p) := p.internNames (substitutions.map (·.1))
  match p.types.instantiate generic (names.zip (substitutions.map (·.2))) with
  | .error fault => (.error fault, p)
  | .ok none => (.ok none, p)
  | .ok (some (ty, types)) => (.ok (some ty), { p with types })

/-- The written form of a program in traces: how much it declares. -/
def describe (p : Program) : String :=
  s!"ModuleDb \x7b decls: {p.decls.size}, scopes: {p.decls.scopes.size}, .. \x7d"

end Program

end MethodSynthesis
