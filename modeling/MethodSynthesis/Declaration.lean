/-!
# Declaration handles and kinds

A declaration is named by its position in the database of declarations. Signatures of methods on
builtin type families point at no declaration.
-/

set_option autoImplicit false

namespace MethodSynthesis

/-- The name of a declaration, or the mark that there is none. -/
inductive DeclId where
  | absent
  | at (index : Nat)
deriving DecidableEq

namespace DeclId

/-- The largest 32-bit word stands for the absent declaration. -/
def absentRaw : Nat := 0xFFFFFFFF

/-- The packed form. -/
def raw : DeclId → Nat
  | .absent => absentRaw
  | .at index => index

/-- The declaration with a given packed form. -/
def ofRaw (raw : Nat) : DeclId := if raw = absentRaw then .absent else .at raw

/-- Whether there is no declaration. -/
def isAbsent (d : DeclId) : Bool := d = .absent

/-- The text of a declaration in traces. -/
def describe : DeclId → String
  | .absent => "DeclId::NONE"
  | .at index => s!"DeclId({index})"

end DeclId

/-- What a declaration declares. The last four kinds belong to signatures of methods on builtin type
families, which have no declaration. -/
inductive DeclKind where
  | module
  | record
  | classType
  | union
  | enum
  | field
  | function
  | tuple
  | domain
  | array
  | cPtr
deriving DecidableEq

namespace DeclKind

/-- The word for a kind in messages. -/
def label : DeclKind → String
  | .module => "module"
  | .record => "record"
  | .classType => "class"
  | .union => "union"
  | .enum => "enum"
  | .field => "field"
  | .function => "function"
  | .tuple => "tuple"
  | .domain => "domain"
  | .array => "array"
  | .cPtr => "c_ptr"

/-- Whether declarations of this kind own a scope and a list of fields. -/
def isComposite : DeclKind → Bool
  | .record | .classType | .union => true
  | _ => false

end DeclKind

/-- Whether a function is called by name or written between operands. -/
inductive CallableKind where
  | procedure
  | operator
deriving DecidableEq

/-- The keyword that introduces a function. -/
def CallableKind.keyword : CallableKind → String
  | .procedure => "proc"
  | .operator => "operator"

end MethodSynthesis
