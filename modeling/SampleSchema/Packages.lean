import SampleSchema.Service.Database
import SampleSchema.Service.Framework
import SampleSchema.Service.Writer
import SampleSchema.Versioning

/-!
# Packages

What the program uses and is no part of it: a loader of YAML, a framework for requests, a writer of
answers, a database and the package for its versions.  Reading, the service, the deployment and the
command line are programs over them.
-/

namespace SampleSchema

/-- The packages that the program is put together with. -/
structure Packages where
  reading    : Reading
  framework  : Service.Framework
  writer     : Service.Writer
  database   : Database
  versioning : Versioning

/-- What the program relies on in its packages.  Of a loader of YAML it relies on nothing. -/
structure Packages.Lawful (p : Packages) : Prop where
  framework  : p.framework.Lawful
  writer     : p.writer.Lawful
  database   : p.database.Lawful
  versioning : p.versioning.Lawful

end SampleSchema
