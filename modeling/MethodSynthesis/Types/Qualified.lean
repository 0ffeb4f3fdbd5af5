import MethodSynthesis.Types.Basic

/-!
# Qualified types

A qualified type pairs a type with the way a value of it is bound. Bindings mix the storage of
variables and fields with the intents of formals: an intent becomes a binding once it is resolved.
-/

set_option autoImplicit false

namespace MethodSynthesis

/-- How a value is bound to a variable, field, formal or receiver. -/
inductive Binding where
  /-- No intent is written; the type decides which one is meant. -/
  | defaultIntent
  | var
  | constVar
  | ref
  | constRef
  /-- By reference, constant unless the body writes to it. -/
  | refMaybeConst
  /-- A copy. -/
  | copyIn
  /-- A constant copy. -/
  | constIn
  /-- A type instead of a value. -/
  | type
  /-- A constant that is known at compile time. -/
  | param
deriving DecidableEq

namespace Binding

/-- The keyword of a binding. -/
def keyword : Binding → String
  | .defaultIntent => ""
  | .var => "var"
  | .constVar => "const"
  | .ref => "ref"
  | .constRef => "const ref"
  | .refMaybeConst => "ref-maybe-const"
  | .copyIn => "in"
  | .constIn => "const in"
  | .type => "type"
  | .param => "param"

/-- Whether a type is bound instead of a value. -/
def isType (b : Binding) : Bool := b = .type

/-- Whether a compile-time constant is bound. -/
def isParam (b : Binding) : Bool := b = .param

/-- The bindings that a field keeps when it becomes a formal of an initializer. -/
def isTypeOrParam (b : Binding) : Bool := b.isType || b.isParam

/-- The bindings to the storage of a value, which leave no room for a conversion. -/
def isRef : Binding → Bool
  | .ref | .constRef | .refMaybeConst => true
  | _ => false

end Binding

/-- A type with the way a value of it is bound. -/
structure Qualified where
  binding : Binding
  type : TypeId
deriving DecidableEq

namespace Qualified

/-- A mutable value, as an actual argument is seen. -/
def var (ty : TypeId) : Qualified := ⟨.var, ty⟩

/-- A type that is used as one. -/
def typeOf (ty : TypeId) : Qualified := ⟨.type, ty⟩

/-- Whether a type is bound instead of a value. -/
def isType (q : Qualified) : Bool := q.binding.isType

/-- The same type under another binding. -/
def withBinding (q : Qualified) (binding : Binding) : Qualified := ⟨binding, q.type⟩

end Qualified

end MethodSynthesis
