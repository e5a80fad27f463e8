/-!
# Schemas

A schema describes the values seen at one position of the samples: which kinds of value occur there,
what arrays hold, which fields objects have and how often each was seen. Schemas are built by
inference (`Options.infer`) and by merging (`Schema.merge`), but any tree of these nodes is a schema,
also one that no sample leads to.
-/

namespace SampleSchema

/-- The kinds of schema. -/
inductive Kind where
  | null | bool | int | float | string | timestamp | array | object | optional | union
  deriving DecidableEq, Repr

/-- The word for a kind. -/
def Kind.label : Kind → String
  | .null      => "null"
  | .bool      => "bool"
  | .int       => "int"
  | .float     => "float"
  | .string    => "string"
  | .timestamp => "timestamp"
  | .array     => "array"
  | .object    => "object"
  | .optional  => "optional"
  | .union     => "union"

/-- A field of an object schema: its type, whether it may be missing, and in how many of how many
objects it was seen. -/
structure Field (α : Type) where
  name     : String
  type     : α
  optional : Bool
  observed : Int
  total    : Int
  deriving BEq, Repr

/-- A schema. -/
inductive Schema where
  | null
  | bool
  | int
  | float
  /-- Text; `numeric` when every text looked like a number. -/
  | string (numeric : Bool)
  | timestamp
  /-- Arrays of one element type; `empty` marks the schema of arrays without elements. -/
  | array (element : Schema) (empty : Bool)
  /-- Objects, of which `samples` were seen; the name is given when the schema is named. -/
  | object (name : Option String) (samples : Int) (fields : List (Field Schema))
  /-- A type that also admits null. -/
  | optional (inner : Schema)
  /-- A choice between types of different kinds. -/
  | union (variants : List Schema)
  deriving BEq, Inhabited, Repr

namespace Schema

/-- The kind of a schema. -/
def kind : Schema → Kind
  | .null      => .null
  | .bool      => .bool
  | .int       => .int
  | .float     => .float
  | .string _  => .string
  | .timestamp => .timestamp
  | .array ..  => .array
  | .object .. => .object
  | .optional _ => .optional
  | .union _   => .union

/-- Whether the schema says at its top that null occurs. -/
def isNullable : Schema → Bool
  | .null | .optional _ => true
  | _ => false

/-- The schema with null admitted. -/
def makeOptional : Schema → Schema
  | .null       => .null
  | .optional t => .optional t
  | t           => .optional t

/-- The schema without one optional at its top. -/
def unwrapOptional : Schema → Schema
  | .optional t => t
  | t           => t

/-- A schema that admits null is not wrapped again. -/
theorem makeOptional_of_isNullable {t : Schema} (h : t.isNullable = true) : t.makeOptional = t := by
  cases t <;> simp_all [isNullable, makeOptional]

/-- Any other schema is wrapped once. -/
theorem makeOptional_of_not_isNullable {t : Schema} (h : t.isNullable = false) :
    t.makeOptional = .optional t := by
  cases t <;> simp_all [isNullable, makeOptional]

/-- Admitting null makes a schema nullable. -/
@[simp] theorem isNullable_makeOptional (t : Schema) : t.makeOptional.isNullable = true := by
  cases t <;> rfl

end Schema

/-- The first field of a name. -/
def findField? (fields : List (Field Schema)) (name : String) : Option (Field Schema) :=
  fields.find? (·.name = name)

mutual

/-- A schema on one line. -/
def Schema.describe : Schema → String
  | .string true      => "string(numeric)"
  | .array _ true     => "[]empty"
  | .array e false    => "[]" ++ e.describe
  | .object n _ fs    => (match n with | some "" | none => "object" | some n => n) ++
      "\x7b" ++ ", ".intercalate (describeFields fs) ++ "\x7d"
  | .optional t       => "optional(" ++ t.describe ++ ")"
  | .union ts         => "union(" ++ " | ".intercalate (describeAll ts) ++ ")"
  | .null             => Kind.null.label
  | .bool             => Kind.bool.label
  | .int              => Kind.int.label
  | .float            => Kind.float.label
  | .string false     => Kind.string.label
  | .timestamp        => Kind.timestamp.label

/-- The fields of an object schema, each with a question mark if it may be missing. -/
def describeFields : List (Field Schema) → List String
  | [] => []
  | ⟨name, type, optional, _, _⟩ :: fs =>
    (name ++ (if optional then "?" else "") ++ ": " ++ type.describe) :: describeFields fs

/-- The schemas of a list, each on one line. -/
def describeAll : List Schema → List String
  | [] => []
  | t :: ts => t.describe :: describeAll ts

end

end SampleSchema
