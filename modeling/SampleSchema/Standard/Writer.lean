import SampleSchema.Service.Writer

/-!
# Levels of answers

A description of a type is written as long as there are not too many descriptions in each other, and a
stored value as long as there are not too many arrays and objects in each other.

* `Service.Writer.standard` is the writer with these limits.
-/

namespace SampleSchema

mutual

/-- The levels of a description. -/
def Descriptor.levels : Descriptor → Nat
  | .array e _  => e.levels + 1
  | .optional t => t.levels + 1
  | .union ts   => descriptorLevels ts + 1
  | .leaf _ | .string _ | .object _ => 1

/-- The levels of the deepest of some descriptions. -/
def descriptorLevels : List Descriptor → Nat
  | []      => 0
  | t :: ts => max t.levels (descriptorLevels ts)

end

mutual

/-- The levels of a value. -/
def Json.levels : Json → Nat
  | .array xs  => itemLevels xs + 1
  | .object ms => memberLevels ms + 1
  | .null | .bool _ | .int _ | .string _ => 1

/-- The levels of the deepest of some values. -/
def itemLevels : List Json → Nat
  | []      => 0
  | x :: xs => max x.levels (itemLevels xs)

/-- The levels of the deepest value of some members. -/
def memberLevels : List (String × Json) → Nat
  | []      => 0
  | m :: ms => max m.2.levels (memberLevels ms)

end

namespace Service

/-- The most levels that are written. -/
def maxLevels : Nat := 255

/-- Whether the types of all fields of a report, which stand inside of a definition, can be written. -/
def fieldsFit (r : Report) : Bool :=
  r.definitions.all fun d => d.fields.all fun f => f.type.levels < maxLevels

/-- Whether a report can be written, in which the root stands one level down. -/
def reportFits (r : Report) : Bool := r.root.levels < maxLevels && fieldsFit r

/-- The writer of answers. -/
def Writer.standard : Writer where
  dumps r  := r.root.levels ≤ maxLevels && fieldsFit r
  writes   := reportFits
  prints   := reportFits
  shows r  := r.root.levels ≤ maxLevels && r.definitions.all (·.levels ≤ maxLevels) &&
    r.conflicts.all (·.levels ≤ maxLevels)

end Service

end SampleSchema
