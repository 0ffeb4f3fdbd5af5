import MethodSynthesis.Declarations.Fields
import MethodSynthesis.Declarations.Receiver
import MethodSynthesis.Types.Passing

/-!
# The host of method synthesis

Synthesis asks its questions about a program through a host, a record of answers. Questions about
types are asked over the pool as it stands. `Declarations.host` answers them from declarations.
-/

set_option autoImplicit false

namespace MethodSynthesis

/-- The questions that synthesis asks about a program. -/
structure Host where
  /-- What sort of declaration it is. -/
  declKind? : DeclId → Option DeclKind
  /-- Where a declaration stands in the source text. -/
  declSpan : DeclId → Span
  /-- The scope that a declaration owns. -/
  scope? : DeclId → Option ScopeId
  /-- The declarations of a name that can be seen from a scope. -/
  lookup : ScopeId → Name → LookupConfig → Except Fault (List DeclId)
  /-- The function that is declared. -/
  function? : DeclId → Option FunctionDecl
  /-- The receiver of a declared function. -/
  receiver? : TypePool → DeclId → Except Fault (Option Qualified)
  /-- The fields of a type. -/
  fields : TypePool → DefaultsPolicy → TypeId → Except Fault FieldList
  /-- Whether a value of a type can be made without an initializer. -/
  isDefaultInitializable : TypePool → TypeId → Except Fault Bool
  /-- How open a type is. -/
  genericity : TypePool → TypeId → Except Fault Genericity
  /-- The declaration of a type's field. -/
  fieldId? : TypePool → TypeId → Name → Except Fault (Option DeclId)
  /-- Whether an actual may be bound to a formal. -/
  canPass : TypePool → Qualified → Qualified → Except Fault Passing

/-- The host that answers from declarations. -/
def Declarations.host (d : Declarations) : Host where
  declKind? := d.kind?
  declSpan := d.span
  scope? := d.scope?
  lookup := d.scopes.lookup
  function? := d.function?
  receiver? := d.receiver?
  fields := d.fields
  isDefaultInitializable := d.isDefaultInitializable
  genericity := d.genericity
  fieldId? := d.fieldId?
  canPass := TypePool.canPass

end MethodSynthesis
