import MethodSynthesis.Synthesis.Host

/-!
# The need for a method

A method has to be synthesized for a type when the type answers it as a builtin query, or when every
type of its sort has it and no overload in sight of the type's declaration covers it. An overload
covers a method if its receiver takes the type as it is, or as borrowed.
-/

set_option autoImplicit false

namespace MethodSynthesis

/-- Whether a receiver that takes the type in this way covers the synthesized method. -/
def Passing.covers (p : Passing) : Bool :=
  p.passes && (!p.converts || p.convertsWithBorrowing) && !p.promotes

/-- Whether values of this sort answer a query of that name, in the given call shape. -/
def TypeKind.answers (kind : TypeKind) (name : Name) (parenless : Bool) : Bool :=
  match kind with
  | .tuple => name = .size
  | .domain => if parenless then name.isParenlessDomainQuery else name.isParenDomainQuery
  | .array => name.isArrayQuery
  | .cPtr => name = .eltType
  | _ => false

/-- Whether types of this sort have a method of that name unless an overload covers it. -/
def TypeKind.provides (kind : TypeKind) (name : Name) : Bool :=
  name.isLifecycleMethod || (kind = .record && name.isRecordOperator)

namespace Host

/-- Whether a declaration is a method or operator whose receiver covers the type. -/
def covers (host : Host) (pool : TypePool) (ty : TypeId) (decl : DeclId) : Except Fault Bool := do
  let some function := host.function? decl | return false
  if !function.isMethod && function.kind ≠ .operator then return false
  let some receiver ← host.receiver? pool decl | return false
  return (← host.canPass pool (.var ty) receiver).covers

/-- Whether an overload of a name covers the type in the scope that the type's declaration owns, or in
those around it up to the module. A type without such a scope is not covered. -/
def isShadowed (host : Host) (pool : TypePool) (ty : TypeId) (name : Name) :
    Except Fault Bool := do
  let some comp ← pool.compositeOf? ty | return false
  let some scope := host.scope? comp.decl | return false
  (← host.lookup scope name .all).anyM (host.covers pool ty)

/-- Whether a method has to be synthesized for a type. What an overload covers may still be a builtin
query. -/
def needsMethod (host : Host) (pool : TypePool) (ty : TypeId) (name : Name) (parenless : Bool) :
    Except Fault Bool := do
  let kind ← pool.kind ty
  if kind.provides name then
    if !(← host.isShadowed pool ty name) then return true
  return kind.answers name parenless

end Host

end MethodSynthesis
