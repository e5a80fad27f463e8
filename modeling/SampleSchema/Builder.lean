import SampleSchema.Inference.Run

/-!
# Incremental inference

A builder takes samples one after the other, or schemas that stand for several samples, and holds
their merge. Building names the merge as it is at that moment and leaves the builder unchanged.
-/

namespace SampleSchema

/-- The samples added so far: their merge, their number and the conflicts met. -/
structure Builder where
  options     : Options
  merged?     : Option Schema := none
  sampleCount : Int := 0
  conflicts   : List Conflict := []

namespace Builder

/-- The merge of the samples so far; without samples it is null. -/
def merged (b : Builder) : Schema := b.merged?.getD .null

/-- The builder after merging in a schema that stands for a number of samples. -/
def addSchema (b : Builder) (t : Schema) (count : Int) : Builder :=
  match b.merged? with
  | none => { b with merged? := some t, sampleCount := b.sampleCount + count }
  | some m =>
    { b with
      merged? := some (m.merge t)
      sampleCount := b.sampleCount + count
      conflicts := b.conflicts ++ m.conflicts "" t }

/-- The builder after one more sample. -/
def add (b : Builder) (s : Sample) : Builder :=
  { b with conflicts := b.conflicts ++ b.options.conflicts "" s }.addSchema (b.options.infer s) 1

/-- The builder after more samples. -/
def extend (b : Builder) (samples : List Sample) : Builder := samples.foldl add b

/-- The result for the samples so far, under a root name. -/
def build (b : Builder) (rootName : Option String) : Except NameCollision Inferred := do
  let schema ← b.merged.named (givenOr rootName ({} : Settings).rootTypeName)
  return ⟨schema, b.merged, b.conflicts, b.sampleCount⟩

end Builder

end SampleSchema
