import MethodSynthesis.Diagnostic
import MethodSynthesis.Synthesis.Host
import MethodSynthesis.Types.Printing

/-!
# Failures of synthesis

A method that is needed may be one that cannot be built: because the construct is not supported, or
because synthesis was asked for something that the decision to ask should have ruled out.
-/

set_option autoImplicit false

namespace MethodSynthesis

/-- Constructs without support. -/
inductive UnsupportedFeature where
  /-- The default initializer of a type with open fields. -/
  | genericInitializer
  /-- The default initializer of a class whose parent is not the root object. -/
  | inheritingClassInitializer
deriving DecidableEq

namespace UnsupportedFeature

/-- The construct in words. -/
def text : UnsupportedFeature → String
  | .genericInitializer => "default initializer for a generic type"
  | .inheritingClassInitializer => "default initializer for an inheriting class"

/-- The code of the diagnostic. -/
def code : UnsupportedFeature → ErrorCode
  | .genericInitializer => .e2101
  | .inheritingClassInitializer => .e2102

end UnsupportedFeature

/-- The methods that are built from the fields' side of a type. -/
inductive CompositeMethod where
  | init
  | initCopy
  | deinit
  | recordOperator
deriving DecidableEq

/-- The method in words. -/
def CompositeMethod.text : CompositeMethod → String
  | .init => "init"
  | .initCopy => "init="
  | .deinit => "deinit"
  | .recordOperator => "record operator"

/-- What went wrong inside synthesis. -/
inductive Defect where
  /-- A method of composites was to be built for a type that is none. -/
  | notComposite (method : CompositeMethod)
  /-- Nothing builds a method of this name for the type. -/
  | noGenerator (name : Name)
  /-- Anything else, in words. -/
  | stated (message : String)
deriving DecidableEq

/-- Why a method could not be built for a type. A defect is put into words when its text is asked for.
The program does that as soon as it fails; the text is the same, since tables only grow and a type
keeps the text that it has. -/
inductive GenerationError where
  | unsupported (feature : UnsupportedFeature) (ty : TypeId)
  | internal (defect : Defect) (ty : TypeId)
deriving DecidableEq

namespace GenerationError

/-- The type that the method was requested for. -/
def type : GenerationError → TypeId
  | .unsupported _ ty | .internal _ ty => ty

/-- The code of the diagnostic. -/
def code : GenerationError → ErrorCode
  | .unsupported feature _ => feature.code
  | .internal _ _ => .e9001

/-- The defect of a type in words. -/
def defectText (names : NameTable) (types : TypePool) (ty : TypeId) :
    Defect → Except Fault String
  | .notComposite method => do
    let written ← types.render names ty
    return s!"`{method.text}` requested on non-composite type `{written}`"
  | .noGenerator name => do
    let method ← names.text name
    let written ← types.render names ty
    return s!"no generator for `{method}` on `{written}`"
  | .stated message => return message

/-- The text of an error. -/
def message (e : GenerationError) (names : NameTable) (types : TypePool) : Except Fault String :=
  match e with
  | .unsupported feature _ => return s!"{feature.text} is not supported yet"
  | .internal defect ty => return "internal error: " ++ (← defectText names types ty defect)

/-- The diagnostic for the user, at the declaration of the type. A type without a declaration has no
place in the source text. -/
def diagnostic (e : GenerationError) (host : Host) (names : NameTable) (types : TypePool) :
    Except Fault Diagnostic := do
  let span := ((← types.declOf? e.type).map host.declSpan).getD .dummy
  let base := Diagnostic.ofCode e.code
  match e with
  | .unsupported feature ty =>
    let written ← types.render names ty
    return ((base.withMessage s!"{feature.text} `{written}` is not supported yet").withLabel span
      "type declared here").withNote "declare an `init` for this type explicitly"
  | .internal defect ty =>
    let text ← defectText names types ty defect
    return ((base.withMessage s!"internal compiler error: {text}").withLabel span
      "while generating a method for this").withNote "this is a bug in the compiler"

end GenerationError

end MethodSynthesis
