import SampleSchema.Datum

/-!
# Loaded documents

What a loader of YAML makes of a text: the documents of a stream, or an error. How a loader reads the
text is not said here. The values of a document refer to each other, so that an alias is one more
reference to a value, which may even contain itself.
-/

namespace SampleSchema

/-- A value in a document of `size` values. The parts of a collection are values of the document. -/
inductive Document.Value (size : Nat) where
  | scalar (value : Datum)
  | sequence (items : List (Fin size))
  | pairs (entries : List (Fin size × Fin size))
  | set
  | mapping (entries : List (Datum × Fin size))

/-- A document: its values, and the one that it stands for. -/
structure Document where
  size  : Nat
  value : Fin size → Document.Value size
  root  : Fin size

/-- Whether a document stands for null. -/
def Document.isNull (d : Document) : Bool :=
  match d.value d.root with
  | .scalar .null => true
  | _             => false

/-- A failure that is no error of YAML: the name of its class and, where a key is missing, the key. -/
structure LoadFailure where
  className : String
  key       : Option String := none
  deriving DecidableEq, Repr

/-- A reason why a loader has no documents. -/
inductive LoadError where
  /-- The text breaks the rules of YAML, with the words for it. -/
  | malformed (text : String)
  | other (failure : LoadFailure)
  deriving DecidableEq, Repr

/-- A loader of YAML. -/
abbrev Loader := String → Except LoadError (List Document)

end SampleSchema
