/-!
# Genericity

A type is generic when parts of it are still open. A generic type whose open parts all have a
default is told apart from one that needs them to be given.
-/

set_option autoImplicit false

namespace MethodSynthesis

/-- How open a type is. -/
inductive Genericity where
  /-- Fully known. -/
  | concrete
  /-- Open, with a default for every open field. -/
  | genericWithDefaults
  /-- Open, with a field that has no default. -/
  | generic
deriving DecidableEq

namespace Genericity

/-- Whether a type has to be instantiated before it is used. -/
def isGeneric : Genericity → Bool
  | .concrete => false
  | .genericWithDefaults | .generic => true

/-- How open a type with two parts is: as open as the more open one. -/
def join : Genericity → Genericity → Genericity
  | .generic, _ | _, .generic => .generic
  | .genericWithDefaults, _ | _, .genericWithDefaults => .genericWithDefaults
  | .concrete, .concrete => .concrete

end Genericity

end MethodSynthesis
