import SampleSchema.Sample
import SampleSchema.Schema.Conflict
import SampleSchema.Timestamp

/-!
# Inference

The schema of one sample. An integer outside the range of the options counts as a float, a text has
the meaning that the layouts of the options give it, the items of an array are merged, and each field
of an object is seen in one object out of one.

* `Options.infer` gives the schema, `Options.conflicts` what is recorded while merging the items.
-/

namespace SampleSchema

/-- A reason why options cannot be used. -/
inductive OptionsError where
  | unknownLayouts (names : List String)
  | emptyRange (intMin intMax : Int)
  deriving DecidableEq, Repr

/-- The message for options that cannot be used. -/
def OptionsError.message : OptionsError → String
  | .unknownLayouts names => "Unknown timestamp layouts: " ++ ", ".intercalate names
  | .emptyRange lo hi =>
    "int_min (" ++ toString lo ++ ") must not exceed int_max (" ++ toString hi ++ ")"

/-- How leaves are classified: the timestamp layouts to try, and the range of the integers. -/
structure Options where
  layouts : List Layout := Layout.all
  intMin  : Int := -9223372036854775808
  intMax  : Int := 9223372036854775807
  ordered : intMin ≤ intMax := by decide

namespace Options

/-- The options with layouts of the given names, or all layouts, and the given range. -/
def of (names : Option (List String)) (intMin intMax : Int) : Except OptionsError Options := do
  let layouts ← match names with
    | none => .ok Layout.all
    | some names => (Layout.ofNames names).mapError .unknownLayouts
  if h : intMin ≤ intMax then .ok ⟨layouts, intMin, intMax, h⟩
  else .error (.emptyRange intMin intMax)

/-- The schema of a text. -/
def inferText (o : Options) (s : String) : Schema :=
  match meaning? o.layouts s with
  | some (.timestamp _) => .timestamp
  | some .number        => .string true
  | none                => .string false

/-- The schema of an integer. -/
def inferInt (o : Options) (n : Int) : Schema :=
  if o.intMin ≤ n ∧ n ≤ o.intMax then .int else .float

mutual

/-- The schema of a sample. -/
def infer (o : Options) : Sample → Schema
  | .null         => .null
  | .bool _       => .bool
  | .int n        => o.inferInt n
  | .float _      => .float
  | .string s     => o.inferText s
  | .array items  =>
    match mergeAll (inferAll o items) with
    | none   => .array .null true
    | some t => .array t false
  | .object fields => .object none 1 (inferFields o fields)

/-- The schemas of a list of samples. -/
def inferAll (o : Options) : List Sample → List Schema
  | []      => []
  | s :: ss => o.infer s :: inferAll o ss

/-- The fields of an object sample. -/
def inferFields (o : Options) : List (String × Sample) → List (Field Schema)
  | []           => []
  | (n, s) :: fs => ⟨n, o.infer s, false, 1, 1⟩ :: inferFields o fs

end

mutual

/-- What is recorded while inferring the schema of a sample at a path. -/
def conflicts (o : Options) (path : String) : Sample → List Conflict
  | .array items   => itemConflicts o (elementPath path) none items
  | .object fields => memberConflicts o path fields
  | _              => []

/-- What is recorded while inferring items and merging them into those before, which have the given
schema. -/
def itemConflicts (o : Options) (path : String) : Option Schema → List Sample → List Conflict
  | _, [] => []
  | none, s :: ss => o.conflicts path s ++ itemConflicts o path (some (o.infer s)) ss
  | some t, s :: ss =>
    o.conflicts path s ++ t.conflicts path (o.infer s) ++
      itemConflicts o path (some (t.merge (o.infer s))) ss

/-- What is recorded while inferring the fields of an object. -/
def memberConflicts (o : Options) (path : String) : List (String × Sample) → List Conflict
  | []           => []
  | (n, s) :: fs => o.conflicts (fieldPath path n) s ++ memberConflicts o path fs

end

/-- There is one schema for each sample. -/
theorem inferAll_eq_map (o : Options) : ∀ ss : List Sample, o.inferAll ss = ss.map o.infer
  | []      => rfl
  | s :: ss => by rw [inferAll, inferAll_eq_map o ss, List.map_cons]

end Options

end SampleSchema
