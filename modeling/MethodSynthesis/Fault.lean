import MethodSynthesis.Scope
import MethodSynthesis.Types.Basic

/-!
# Faults

A fault is a question that has no answer because a handle is read that its table does not hold, or
because scopes run in a circle. Handles that a table gave out are never at fault there; the unknown
type is at fault wherever its structure is read.
-/

set_option autoImplicit false

namespace MethodSynthesis

/-- Why a question has no answer. -/
inductive Fault where
  /-- The structure of this type was read, and the pool does not hold it. -/
  | missingType (ty : TypeId)
  /-- The string of this name was read, and the table does not hold it. -/
  | missingName (name : Name)
  /-- A signature was read, and its pool does not hold it. -/
  | missingSignature (handle : Handle)
  /-- The parents of this scope run in a circle. -/
  | endlessScopes (scope : ScopeId)
deriving DecidableEq

/-- The string behind a name. -/
def NameTable.text (t : NameTable) (n : Name) : Except Fault String :=
  match t.text? n with
  | some s => .ok s
  | none => .error (.missingName n)

/-- The declarations of a name that can be seen from a scope. -/
def ScopeTree.lookup (t : ScopeTree) (scope : ScopeId) (name : Name) (config : LookupConfig) :
    Except Fault (List DeclId) :=
  match t.lookup? scope name config with
  | some decls => .ok decls
  | none => .error (.endlessScopes scope)

end MethodSynthesis
