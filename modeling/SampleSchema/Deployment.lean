import SampleSchema.Service

/-!
# Deployment

The database of the service, with the version where it stands.  Commands move it from there to another
version, or write the statements that would do so and leave the database alone.

* `Deployment.run` is the effect of a command, `Deployment.handle` that of a request.
-/

namespace SampleSchema

/-- The database of the service and the version where it stands. -/
structure Deployment (p : Packages) where
  version  : Version
  database : p.database.State

namespace Deployment

variable {p : Packages}

/-- The database before the first command: there is nothing in it. -/
def start (p : Packages) : Deployment p := ⟨.base, p.database.blank⟩

/-- The tables of the database, other than that of the version. -/
def tables (d : Deployment p) : List StoredTable := p.database.tables d.database

/-- The database after a request, with the answer. -/
def handle (d : Deployment p) (r : Service.Request) : Service.Response × Deployment p :=
  let (response, database) := Service.handle p d.database r
  (response, { d with database := database })

/-- The database after a move from the version where it stands.  A database that does not take the
changes refuses the move. -/
def moveTo (d : Deployment p) (direction : Direction) (revision : String) :
    Except MoveError (Deployment p) :=
  match p.versioning.target d.version direction revision with
  | .error e    => .error e
  | .ok version =>
    if version = d.version then .ok d
    else match p.database.perform? d.database (runsMigration.changes direction) with
      | some database => .ok ⟨version, database⟩
      | none          => .error .refused

/-- The database after a command, with the statements that the command writes.  A command that fails
leaves the database alone. -/
def run (d : Deployment p) (m : Move) : Except MoveError (Option String) × Deployment p :=
  if m.offline then ((p.versioning.script m.direction m.revision).map some, d)
  else match d.moveTo m.direction m.revision with
    | .ok d    => (.ok none, d)
    | .error e => (.error e, d)

end Deployment

end SampleSchema
