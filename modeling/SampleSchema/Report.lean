import SampleSchema.Json.Value
import SampleSchema.Naming
import SampleSchema.Schema.Conflict

/-!
# Reports

The published form of an inference: the root type, the definitions and the conflicts. In a report an
object stands as a reference to the definition of its name, so no type is written out twice.
-/

namespace SampleSchema

/-- A type as a report describes it. -/
inductive Descriptor where
  /-- A kind without parts. -/
  | leaf (kind : Kind)
  | string (numeric : Bool)
  | array (element : Descriptor) (empty : Bool)
  /-- The definition of a name. -/
  | object (name : Option String)
  | optional (inner : Descriptor)
  | union (variants : List Descriptor)
  deriving Repr

mutual

/-- The description of a schema. -/
def Schema.descriptor : Schema → Descriptor
  | .string numeric => .string numeric
  | .array e empty  => .array e.descriptor empty
  | .object name .. => .object name
  | .optional t     => .optional t.descriptor
  | .union ts       => .union (descriptors ts)
  | .null           => .leaf .null
  | .bool           => .leaf .bool
  | .int            => .leaf .int
  | .float          => .leaf .float
  | .timestamp      => .leaf .timestamp

/-- The descriptions of a list of schemas. -/
def descriptors : List Schema → List Descriptor
  | []      => []
  | t :: ts => t.descriptor :: descriptors ts

end

/-- A definition as a report describes it. -/
structure DefinitionReport where
  name    : String
  samples : Int
  fields  : List (Field Descriptor)
  deriving Repr

/-- The field with its type described. -/
def Field.described (f : Field Schema) : Field Descriptor :=
  ⟨f.name, f.type.descriptor, f.optional, f.observed, f.total⟩

/-- The description of a definition. -/
def Definition.report (d : Definition) : DefinitionReport :=
  ⟨d.name, d.samples, d.fields.map Field.described⟩

/-- The report of an inference; `runId` numbers it once it is stored. -/
structure Report where
  runId        : Option Nat
  rootTypeName : String
  sampleCount  : Int
  root         : Descriptor
  definitions  : List DefinitionReport
  conflicts    : List Conflict
  deriving Repr

mutual

/-- The JSON value of a description, which has all members whatever the kind. -/
def Descriptor.toJson : Descriptor → Json
  | .leaf kind      => describedAs kind .null false false .null .null []
  | .string numeric => describedAs .string .null numeric false .null .null []
  | .array e empty  => describedAs .array .null false empty e.toJson .null []
  | .object name    => describedAs .object (Json.ofText? name) false false .null .null []
  | .optional t     => describedAs .optional .null false false .null t.toJson []
  | .union ts       => describedAs .union .null false false .null .null (descriptorsToJson ts)
where
  /-- The members of every description. -/
  describedAs (kind : Kind) (name : Json) (numeric empty : Bool) (element inner : Json)
      (variants : List Json) : Json :=
    .object [("kind", .string kind.label), ("name", name), ("numeric_hint", .bool numeric),
      ("empty", .bool empty), ("element", element), ("inner", inner), ("variants", .array variants)]

/-- The JSON values of a list of descriptions. -/
def descriptorsToJson : List Descriptor → List Json
  | []      => []
  | d :: ds => d.toJson :: descriptorsToJson ds

end

/-- The JSON value of a field. -/
def fieldToJson (f : Field Descriptor) : Json :=
  .object [("name", .string f.name), ("type", f.type.toJson), ("optional", .bool f.optional),
    ("observed_count", .int f.observed), ("total_samples", .int f.total)]

/-- The JSON value of a definition. -/
def DefinitionReport.toJson (d : DefinitionReport) : Json :=
  .object [("name", .string d.name), ("sample_count", .int d.samples),
    ("fields", .array (d.fields.map fieldToJson))]

/-- The JSON value of a conflict. -/
def Conflict.toJson (c : Conflict) : Json :=
  .object [("path", .string c.path), ("kinds_observed", .array (c.labels.map Json.string))]

/-- The JSON value of a report. -/
def Report.toJson (r : Report) : Json :=
  .object [("inference_run_id", Json.ofNat? r.runId), ("root_type_name", .string r.rootTypeName),
    ("sample_count", .int r.sampleCount), ("root", r.root.toJson),
    ("definitions", .array (r.definitions.map DefinitionReport.toJson)),
    ("conflicts", .array (r.conflicts.map Conflict.toJson))]

end SampleSchema
