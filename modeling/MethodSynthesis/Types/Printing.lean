import MethodSynthesis.Types.Pool

/-!
# The written form of types

`TypePool.render` writes a type in full, its parts included. The unknown type is written `<none>`
wherever it stands.
-/

set_option autoImplicit false

namespace MethodSynthesis

/-- Texts in order, with a comma and a blank between two. -/
def commaSeparated : List String → String
  | [] => ""
  | [text] => text
  | text :: rest => text ++ ", " ++ commaSeparated rest

namespace TypePool

/-- The written form of a structure, given that of its parts. -/
def renderStep (names : NameTable) (data : TypeData) (part : TypeId → Except Fault String) :
    Except Fault String :=
  match data with
  | .primitive p => return p.text
  | .composite c => do
    let name ← names.text c.name
    if c.substitutions.isEmpty then return name
    let substitutions ← c.substitutions.mapM fun (field, ty) =>
      return (← names.text field) ++ "=" ++ (← part ty)
    return name ++ "(" ++ commaSeparated substitutions ++ ")"
  | .decorated basic decorator =>
    return decorator.management.text ++ " " ++ (← part basic) ++ if decorator.nilable then "?" else ""
  | .tuple elements => return "(" ++ commaSeparated (← elements.mapM part) ++ ")"
  | .array domain element => return "[" ++ (← part domain) ++ "] " ++ (← part element)
  | .rectangular rank index strided =>
    return "domain(" ++ toString rank ++ ", " ++ (← part index) ++
      (if strided then ", strided" else "") ++ ")"
  | .associative index parSafe =>
    return "domain(" ++ (← part index) ++ (if parSafe then ", parSafe" else "") ++ ")"
  | .cPtr element => return "c_ptr(" ++ (← part element) ++ ")"
  | .enumeration e => names.text e.name

/-- The written form of a type. -/
def render (pool : TypePool) (names : NameTable) : TypeId → Except Fault String :=
  pool.fold (fun ty => if ty.isUnknown then .ok "<none>" else .error (.missingType ty))
    fun _ data part => renderStep names data part

end TypePool

end MethodSynthesis
