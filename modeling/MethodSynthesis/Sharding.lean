import MethodSynthesis.Signature.Basic

/-!
# Shards of the tables

A table of names, of types or of signatures is made with the function that spreads its values over
the shards. Which function that is does not matter to anything that is proved here: every statement
holds for all of them. To run the program is to choose one, such as `Sharding.bySize`.
-/

set_option autoImplicit false

namespace MethodSynthesis

/-- The shards in which a program and its signatures store their values. -/
structure Sharding where
  names : String → Fin 16
  types : TypeData → Fin 16
  untyped : UntypedSignature → Fin 16
  typed : TypedSignature → Fin 16

/-- Identifiers go to shards 1 to 15 by their length, structures by their sort, and signatures by
the number of their formals. -/
def Sharding.bySize : Sharding where
  names s := .ofNat 16 (s.utf8ByteSize % 15 + 1)
  types
    | .primitive _ => 0
    | .composite _ => 1
    | .decorated _ _ => 2
    | .tuple _ => 3
    | .array _ _ => 4
    | .rectangular _ _ _ => 5
    | .associative _ _ => 6
    | .cPtr _ => 7
    | .enumeration _ => 8
  untyped s := .ofNat 16 s.formals.length
  typed s := .ofNat 16 s.formalTypes.length

end MethodSynthesis
