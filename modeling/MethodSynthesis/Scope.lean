import MethodSynthesis.Name
import MethodSynthesis.Declaration

/-!
# Scopes

Scopes hold the declarations that can be seen by name. Each scope may have a parent: the body of a
composite type lies in the module that declares it, and a module may lie in another. A lookup that
may leave a scope follows parents up to and including the innermost enclosing module, and lists
what it finds from the inside out.
-/

set_option autoImplicit false

namespace MethodSynthesis

/-- A scope, named by its position in the tree. -/
structure ScopeId where
  index : Nat
deriving DecidableEq

/-- The text of a scope in traces. -/
def ScopeId.describe (s : ScopeId) : String := s!"ScopeId({s.index})"

/-- What introduced a scope. -/
inductive ScopeKind where
  | module
  /-- The body of a record, class or union. -/
  | composite
deriving DecidableEq

/-- What a lookup considers. -/
structure LookupConfig where
  /-- Declarations that are not methods. -/
  decls : Bool
  /-- The parents of a scope, up to the enclosing module. -/
  parents : Bool
  /-- Methods. -/
  methods : Bool
deriving DecidableEq

/-- Everything that can be seen. -/
def LookupConfig.all : LookupConfig := ⟨true, true, true⟩

/-- A declaration under a name of a scope. -/
structure ScopeEntry where
  name : Name
  decl : DeclId
  isMethod : Bool
deriving DecidableEq

/-- One scope. -/
structure ScopeData where
  parent : Option ScopeId
  kind : ScopeKind
  /-- What is declared here, in order of declaration. -/
  entries : List ScopeEntry

/-- All scopes of a program, in order of creation. -/
structure ScopeTree where
  scopes : List ScopeData

/-- Whether a lookup keeps an entry of a scope that it visits. -/
def LookupConfig.admits (config : LookupConfig) (entry : ScopeEntry) : Bool :=
  if entry.isMethod then config.methods else config.decls

namespace ScopeData

/-- The declarations of a name in this scope alone. -/
def declared (data : ScopeData) (name : Name) (config : LookupConfig) : List DeclId :=
  (data.entries.filter fun e => e.name = name && config.admits e).map (·.decl)

/-- The scope where a lookup goes on after this one. -/
def next? (data : ScopeData) (config : LookupConfig) : Option ScopeId :=
  if config.parents && data.kind = .composite then data.parent else none

end ScopeData

namespace ScopeTree

/-- The tree without scopes. -/
def empty : ScopeTree := ⟨[]⟩

/-- Number of scopes. -/
def size (t : ScopeTree) : Nat := t.scopes.length

/-- Whether there is no scope. -/
def isEmpty (t : ScopeTree) : Bool := t.scopes.isEmpty

/-- The scope behind its name. -/
def get? (t : ScopeTree) (scope : ScopeId) : Option ScopeData := t.scopes[scope.index]?

/-- The parent of a scope. -/
def parent? (t : ScopeTree) (scope : ScopeId) : Option ScopeId := (t.get? scope).bind (·.parent)

/-- What introduced a scope. -/
def kind? (t : ScopeTree) (scope : ScopeId) : Option ScopeKind := (t.get? scope).map (·.kind)

/-- Adds a scope that declares nothing. The parent is taken as given; a parent that does not exist
is as good as none until a scope of that name is added. -/
def push (t : ScopeTree) (parent : Option ScopeId) (kind : ScopeKind) : ScopeId × ScopeTree :=
  (⟨t.size⟩, ⟨t.scopes ++ [⟨parent, kind, []⟩]⟩)

/-- Declares a name in a scope, after what is declared there. Nothing happens if there is no such
scope. -/
def declare (t : ScopeTree) (scope : ScopeId) (entry : ScopeEntry) : ScopeTree :=
  ⟨t.scopes.modify scope.index fun data => { data with entries := data.entries ++ [entry] }⟩

/-- The scopes that a lookup visits from `scope` on, if it ends within the given number of steps. -/
def visibleWithin (t : ScopeTree) (config : LookupConfig) :
    Nat → ScopeId → Option (List ScopeData)
  | 0, _ => none
  | steps + 1, scope =>
    match t.get? scope with
    | none => some []
    | some data =>
      match data.next? config with
      | none => some [data]
      | some parent => (t.visibleWithin config steps parent).map (data :: ·)

/-- The scopes that a lookup visits, innermost first. There are none to give when the parents run
in a circle; otherwise a lookup meets each scope at most once and one more step ends it. -/
def visible? (t : ScopeTree) (config : LookupConfig) (scope : ScopeId) : Option (List ScopeData) :=
  t.visibleWithin config (t.size + 1) scope

/-- The declarations of a name that can be seen from a scope, innermost first and in order of
declaration within a scope. -/
def lookup? (t : ScopeTree) (scope : ScopeId) (name : Name) (config : LookupConfig) :
    Option (List DeclId) :=
  (t.visible? config scope).map (·.flatMap (·.declared name config))

end ScopeTree

end MethodSynthesis
