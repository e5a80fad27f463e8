import SampleSchema.Packages
import SampleSchema.Standard.Database
import SampleSchema.Standard.Framework
import SampleSchema.Standard.Versioning
import SampleSchema.Standard.Writer
import SampleSchema.Yaml.Value

/-!
# The packages that the program runs with

Packages of the program's own in place of those that it is written for, so that it runs by itself. The
limits of nesting are those of a stack of a thousand calls, of which a level of a text takes one and a
level of a value two.
-/

namespace SampleSchema

/-- What the reading of texts depends on. -/
def Reading.standard : Reading where
  textLevels  := 990
  valueLevels := 490
  loadYaml    := Yaml.load

/-- The packages of the program. -/
def Packages.standard : Packages where
  reading    := .standard
  framework  := .standard
  writer     := .standard
  database   := .standard
  versioning := .standard

end SampleSchema
