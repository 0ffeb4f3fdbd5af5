import MethodSynthesis.Declarations.Basic
import MethodSynthesis.Types.Pool

/-!
# Receivers

The receiver of a declared function is the formal that an actual of the function's own type is bound
to: the one named `this` in a method, else the first one of a method or operator.
-/

set_option autoImplicit false

namespace MethodSynthesis

/-- The binding that a receiver without an intent gets, by the structure of its type: values that are
costly to copy are passed by reference. -/
def TypeData.receiverBinding : TypeData → Binding
  | .composite comp => if comp.kind = .classType then .constIn else .constRef
  | .tuple _ | .array _ _ | .rectangular _ _ _ | .associative _ _ => .constRef
  | _ => .constIn

/-- The formal of a function that is its receiver. -/
def FunctionDecl.receiver? (f : FunctionDecl) : Option FormalDecl :=
  if f.isMethod then (f.formals.find? (·.name = .receiver)).or f.formals.head?
  else match f.kind with
    | .operator => f.formals.head?
    | .procedure => none

/-- A formal's type once its intent is resolved. -/
def TypePool.resolveIntent (pool : TypePool) (formal : Qualified) : Except Fault Qualified :=
  match formal.binding with
  | .defaultIntent => return formal.withBinding (← pool.read formal.type).receiverBinding
  | _ => return formal

/-- The receiver of a declared function. -/
def Declarations.receiver? (d : Declarations) (pool : TypePool) (id : DeclId) :
    Except Fault (Option Qualified) :=
  match (d.function? id).bind (·.receiver?) with
  | some formal => return some (← pool.resolveIntent formal.type)
  | none => return none

end MethodSynthesis
