import MethodSynthesis.Declarations.Basic
import MethodSynthesis.Types.Pool
import MethodSynthesis.Types.Genericity

/-!
# Fields of composite types

The types of a composite's fields follow from its declaration and its substitutions, and decide how
open the composite is and whether a value of it can be made without an initializer. Both questions
walk through the fields' types, which may lead back to the composite. A walk carries the composites
that are not on its path; one that is on the path adds nothing on the second meeting, so a walk ends
because each composite that it enters leaves fewer to enter.
-/

set_option autoImplicit false

namespace MethodSynthesis

/-- Whether the default of an open field takes its place. -/
inductive DefaultsPolicy where
  | ignoreDefaults
  | useDefaults
deriving DecidableEq

/-- One field of a composite type. -/
structure ResolvedField where
  name : Name
  decl : DeclId
  type : Qualified
  /-- The declaration has a default value. -/
  hasDefault : Bool
deriving DecidableEq

/-- The fields of a composite type, in order of declaration. -/
structure FieldList where
  type : TypeId
  fields : List ResolvedField
  /-- Some field is still open. -/
  isGeneric : Bool
deriving DecidableEq

/-- The first field of a name. -/
def FieldList.find? (l : FieldList) (name : Name) : Option ResolvedField :=
  l.fields.find? (·.name = name)

namespace FieldDecl

/-- The type of a field, and whether it is open. A substitution closes any field. Types and params
are open without a default that may be used; other fields are open when their type is generic, or
when neither a type nor a default is given. -/
def resolve (field : FieldDecl) (substitution : Option TypeId) (policy : DefaultsPolicy)
    (isGeneric : TypeId → Except Fault Bool) : Except Fault (Qualified × Bool) :=
  let qualified := Qualified.mk field.storage
  match substitution with
  | some ty => return (qualified ty, false)
  | none =>
    match field.storage with
    | .type =>
      match policy, field.default with
      | .useDefaults, some ty => return (qualified ty, false)
      | _, _ => return (qualified (field.declared.getD .any), true)
    | .param =>
      let closed := policy = .useDefaults && field.hasDefault
      return (qualified ((field.declared <|> field.default).getD .any), !closed)
    | _ =>
      match field.declared <|> field.default with
      | some ty => return (qualified ty, ← isGeneric ty)
      | none => return (qualified .any, true)

end FieldDecl

namespace Genericity

/-- How open a composite is whose fields are as given, each with whether it is open. -/
def ofFields (fields : List (ResolvedField × Bool)) : Genericity :=
  fields.foldl
    (fun acc (field, isOpen) =>
      if isOpen then acc.join (if field.hasDefault then .genericWithDefaults else .generic) else acc)
    .concrete

end Genericity

namespace Declarations

/-- The fields of a composite, each with whether it is open. -/
def resolveFields (d : Declarations) (comp : Composite) (policy : DefaultsPolicy)
    (isGeneric : TypeId → Except Fault Bool) : Except Fault (List (ResolvedField × Bool)) :=
  (d.fieldsOf comp.decl).mapM fun (id, name, field) => do
    let (type, isOpen) ← field.resolve (comp.substitution? name) policy isGeneric
    return (⟨name, id, type, field.hasDefault⟩, isOpen)

/-- The fields of a type; a type that is no composite has none. -/
def fieldsWith (d : Declarations) (pool : TypePool) (policy : DefaultsPolicy)
    (isGeneric : TypeId → Except Fault Bool) (ty : TypeId) : Except Fault FieldList := do
  match ← pool.compositeOf? ty with
  | none => return ⟨ty, [], false⟩
  | some comp =>
    let fields ← d.resolveFields comp policy isGeneric
    return ⟨ty, fields.map (·.1), fields.any (·.2)⟩

/-- How open a type is, when the walk may still enter the given composites. A type is as open as its
parts; the domain of an array does not count. -/
def genericityWithin (d : Declarations) (pool : TypePool) (unvisited : List TypeId) :
    TypeId → Except Fault Genericity :=
  pool.fold (fun ty => if ty.isUnknown then return .concrete else .error (.missingType ty))
    fun ty data part =>
      match data with
      | .primitive .any | .primitive .integral => return .generic
      | .primitive _ | .enumeration _ => return .concrete
      | .composite comp =>
        if _h : ty ∈ unvisited then do
          let isGeneric := fun field =>
            return (← d.genericityWithin pool (unvisited.erase ty) field).isGeneric
          return .ofFields (← d.resolveFields comp .ignoreDefaults isGeneric)
        else return .concrete
      | .decorated basic _ => part basic
      | .tuple elements => elements.foldlM (fun acc e => return acc.join (← part e)) .concrete
      | .array _ element | .cPtr element => part element
      | .rectangular _ index _ | .associative index _ => part index
termination_by unvisited.length
decreasing_by
  have length_erase := List.length_erase_of_mem _h
  have length_pos := List.length_pos_of_mem _h
  omega

/-- The fields of a type, when the walk may still enter the given composites. -/
def fieldsWithin (d : Declarations) (pool : TypePool) (unvisited : List TypeId)
    (policy : DefaultsPolicy) (ty : TypeId) : Except Fault FieldList :=
  let isGeneric := fun field => return (← d.genericityWithin pool unvisited field).isGeneric
  d.fieldsWith pool policy isGeneric ty

/-- Whether a value of a type can be made without an initializer, when the walk may still enter the
given composites. A record or union needs fields that are closed by their defaults, each with a
default value, or a type or param, or itself of such a type; a class needs to be nilable. -/
def defaultInitializableWithin (d : Declarations) (pool : TypePool) (unvisited : List TypeId) :
    TypeId → Except Fault Bool :=
  pool.fold (fun ty => if ty.isUnknown then return false else .error (.missingType ty))
    fun ty data part =>
      match data with
      | .primitive .any | .primitive .integral | .primitive .rootObject => return false
      | .primitive _ => return true
      | .composite comp =>
        if comp.kind = .classType then return false
        else if _h : ty ∈ unvisited then do
          let list ← d.fieldsWithin pool (unvisited.erase ty) .useDefaults ty
          if list.isGeneric then return false
          list.fields.allM fun field =>
            if field.hasDefault || field.type.binding.isTypeOrParam then return true
            else d.defaultInitializableWithin pool (unvisited.erase ty) field.type.type
        else return false
      | .decorated _ decorator => return decorator.nilable
      | .tuple elements => elements.allM part
      | .array _ _ | .rectangular _ _ _ | .associative _ _ | .cPtr _ => return true
      | .enumeration e => return !e.constants.isEmpty
termination_by unvisited.length
decreasing_by
  have length_erase := List.length_erase_of_mem _h
  have length_pos := List.length_pos_of_mem _h
  omega

/-- How open a type is. -/
def genericity (d : Declarations) (pool : TypePool) (ty : TypeId) : Except Fault Genericity :=
  d.genericityWithin pool pool.composites ty

/-- The fields of a type; a type that is no composite has none. -/
def fields (d : Declarations) (pool : TypePool) (policy : DefaultsPolicy) (ty : TypeId) :
    Except Fault FieldList :=
  d.fieldsWithin pool pool.composites policy ty

/-- Whether a value of a type can be made without an initializer. -/
def isDefaultInitializable (d : Declarations) (pool : TypePool) (ty : TypeId) :
    Except Fault Bool :=
  d.defaultInitializableWithin pool pool.composites ty

/-- The declaration of a type's first field of a name. -/
def fieldId? (d : Declarations) (pool : TypePool) (ty : TypeId) (name : Name) :
    Except Fault (Option DeclId) :=
  return (← pool.compositeOf? ty).bind fun comp => d.fieldNamed? comp.decl name

end Declarations

end MethodSynthesis
