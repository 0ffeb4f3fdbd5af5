import MethodSynthesis.Types.Pool
import MethodSynthesis.Types.Qualified

/-!
# Passing an argument

`TypePool.canPass` judges one formal of a call: whether the actual argument may be bound to it and
what that takes, an implicit conversion, the instantiation of a generic formal, or the promotion of
the call over the elements of an array. An argument that passes without promotion is not promoted.
-/

set_option autoImplicit false

namespace MethodSynthesis

/-- An implicit conversion of an actual argument. -/
inductive Conversion where
  | none
  /-- An integer becomes a real. -/
  | numeric
  /-- A managed class is seen as borrowed. -/
  | borrows
  /-- A class is seen as one of its ancestors. -/
  | subtype
  /-- Both of the above. -/
  | borrowsSubtype
  /-- A class that is never nil is seen as one that may be. -/
  | nilable
deriving DecidableEq

/-- The outcome for one formal. -/
structure Passing where
  passes : Bool
  conversion : Conversion
  /-- The formal is generic and gets instantiated. -/
  instantiates : Bool
  /-- The call is promoted over the elements of an array. -/
  promotes : Bool
deriving DecidableEq

namespace Passing

/-- The argument does not pass. -/
def fail : Passing := ⟨false, .none, false, false⟩

/-- The argument passes as it is. -/
def exact : Passing := ⟨true, .none, false, false⟩

/-- The argument passes as it is and instantiates the formal. -/
def instantiating : Passing := ⟨true, .none, true, false⟩

/-- The argument passes by a conversion. -/
def converting (conversion : Conversion) : Passing := ⟨true, conversion, false, false⟩

/-- Whether passing takes a conversion. -/
def converts (p : Passing) : Bool := p.conversion ≠ .none

/-- Whether the one conversion is that a managed class is seen as borrowed. -/
def convertsWithBorrowing (p : Passing) : Bool := p.conversion = .borrows

/-- The outcome under a binding: a reference allows no conversion. -/
def underBinding (p : Passing) (formal : Binding) : Passing :=
  if formal.isRef && p.converts then fail else p

/-- The outcome of a call that is promoted to pass the elements of an array. -/
def promoted (p : Passing) : Passing := if p.passes then { p with promotes := true } else fail

end Passing

/-- A class as it is passed: the undecorated class and its decorator, if any. -/
structure ClassForm where
  basic : TypeId
  decorator : Option Decorator

/-- What it takes to change the decorator of a class. -/
structure DecoratorChange where
  /-- A managed class is seen as borrowed. -/
  borrows : Bool
  /-- A class that is never nil is seen as one that may be. -/
  nilable : Bool

namespace Decorator

/-- The change from the decorator of an actual to that of a formal, if there is one. A formal without
a decorator takes any class that is never nil. A class may be seen as borrowed and as possibly nil,
but neither the other way round. -/
def changeTo? (actual : Decorator) : Option Decorator → Option DecoratorChange
  | none => if actual.nilable then none else some ⟨false, false⟩
  | some formal =>
    if actual.nilable && !formal.nilable then none
    else if actual.management = formal.management then
      some ⟨false, formal.nilable && !actual.nilable⟩
    else if formal.management = .borrowed then
      some ⟨true, formal.nilable && !actual.nilable⟩
    else none

end Decorator

/-- The conversion that a change of decorator and a step to an ancestor amount to. -/
def DecoratorChange.conversion (change : DecoratorChange) (isAncestor : Bool) : Conversion :=
  if change.nilable then .nilable
  else match change.borrows, isAncestor with
    | true, true => .borrowsSubtype
    | true, false => .borrows
    | false, true => .subtype
    | false, false => .none

namespace TypePool

/-- A class as it is passed. An undecorated composite stands for itself. -/
def classForm? (pool : TypePool) (ty : TypeId) : Except Fault (Option ClassForm) :=
  return match ← pool.read ty with
    | .decorated basic decorator => some ⟨basic, some decorator⟩
    | .composite _ => some ⟨ty, none⟩
    | _ => none

/-- Whether `base` is met among the first ancestors of a class, `steps` of them at most, as the
ancestor or as its generic form. The root object ends the search. -/
def hasAncestorWithin (pool : TypePool) (base : TypeId) : Nat → TypeId → Except Fault Bool
  | 0, _ => return false
  | steps + 1, ty => do
    match (← pool.composite? ty).bind (·.parent) with
    | none => return false
    | some parent =>
      if parent = base then return true
      if (← pool.genericRoot parent) = base then return true
      if parent = .rootObject then return false
      pool.hasAncestorWithin base steps parent

/-- Whether a class inherits from another, in any number of steps. A class has fewer ancestors than
the pool has types. -/
def isSubclass (pool : TypePool) (derived base : TypeId) : Except Fault Bool :=
  pool.hasAncestorWithin base pool.size derived

/-- The outcome for an actual and a formal that are classes. An undecorated class is passed as
borrowed. -/
def passClasses (pool : TypePool) (actual formal : TypeId) : Except Fault Passing := do
  let some source ← pool.classForm? actual | return .fail
  let some target ← pool.classForm? formal | return .fail
  let some change := (source.decorator.getD .borrowedNonNil).changeTo? target.decorator
    | return .fail
  let generic := target.decorator.isNone && actual ≠ formal
  if source.basic = target.basic then
    return ⟨true, change.conversion false, generic, false⟩
  if (← pool.genericRoot source.basic) = target.basic then
    return ⟨true, change.conversion false, true, false⟩
  if ← pool.isSubclass source.basic target.basic then
    return ⟨true, change.conversion true, generic, false⟩
  return .fail

/-- The outcomes that need no look into the pool: equal types, the two generic primitive types, and
integers that become reals. -/
def passNames? (actual formal : TypeId) : Option Passing :=
  let actualIsInteger := actual = .int || actual = .uint
  if actual = formal then some .exact
  else if formal = .any then some .instantiating
  else if formal = .integral && actualIsInteger then some .instantiating
  else if formal = .real && actualIsInteger then some (.converting .numeric)
  else none

/-- The outcome for two tuples of one length: the elements have to pass in order and as they are, and
one that instantiates its formal makes the tuple do so. -/
def passElements (pass : TypeId → TypeId → Except Fault Passing) :
    List TypeId → List TypeId → Except Fault Passing
  | actual :: actuals, formal :: formals => do
    let first ← pass actual formal
    if !first.passes || first.converts then return .fail
    let rest ← passElements pass actuals formals
    return if rest.passes then { rest with instantiates := first.instantiates || rest.instantiates }
      else .fail
  | _, _ => return .exact

/-- The outcome for two types by their structure. A generic composite takes its instantiations, and a
tuple takes tuples of as many elements that pass one by one. -/
def passStructures (pool : TypePool) (actual : TypeId) (data : TypeData)
    (pass : TypeId → TypeId → Except Fault Passing) (formal : TypeId) : Except Fault Passing := do
  let target ← pool.read formal
  if data.kind.isClass && target.kind.isClass then return ← pool.passClasses actual formal
  match data, target with
  | _, .composite c =>
    if c.instantiatedFrom.isNone && (← pool.genericRoot actual) = formal then
      return .instantiating
    return .fail
  | .tuple actuals, .tuple formals =>
    if actuals.length = formals.length then return ← passElements pass actuals formals
    return .fail
  | _, _ => return .fail

/-- The outcome for two types, whatever the bindings. -/
def passTypes (pool : TypePool) : TypeId → TypeId → Except Fault Passing :=
  pool.fold
    (fun actual formal =>
      match passNames? actual formal with
      | some p => return p
      | none => .error (.missingType actual))
    fun actual data pass formal =>
      match passNames? actual formal with
      | some p => return p
      | none => pool.passStructures actual data pass formal

/-- The outcome for the elements of an actual that is an array, when the formal is not one. -/
def passPromoted (pool : TypePool) (actual formal : Qualified) : Except Fault Passing := do
  match ← pool.read actual.type with
  | .array _ element =>
    match ← pool.read formal.type with
    | .array _ _ => return .fail
    | _ => return ((← pool.passTypes element formal.type).underBinding formal.binding).promoted
  | _ => return .fail

/-- The outcome for an actual and a formal. An unknown type never passes. Types pass to type formals
and nothing else does; only compile-time constants pass to param formals. -/
def canPass (pool : TypePool) (actual formal : Qualified) : Except Fault Passing := do
  if actual.type.isUnknown || formal.type.isUnknown then return .fail
  if actual.isType ≠ formal.isType then return .fail
  if formal.isType then
    let result ← pool.passTypes actual.type formal.type
    return if result.converts then .fail else result
  if formal.binding.isParam && !actual.binding.isParam then return .fail
  let result := (← pool.passTypes actual.type formal.type).underBinding formal.binding
  if result.passes then return result
  pool.passPromoted actual formal

end TypePool

end MethodSynthesis
