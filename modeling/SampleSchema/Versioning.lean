import SampleSchema.Migration

/-!
# Versions

There are two versions of the database, the base and the latest one, with a migration between them. A
command names a revision, and a package finds out what version that is. Offline, the package writes the
statements of a move in place of making it.

* `Versioning` is such a package, and `Versioning.Lawful` what the deployment relies on.
-/

namespace SampleSchema

/-- A version of the database. -/
inductive Version where
  | base
  | latest
  deriving DecidableEq, Repr

/-- The name of the latest version. -/
def Version.latestName : String := "20261019_0001"

/-- The version that a move in a direction leads to. -/
def Direction.target : Direction → Version
  | .upgrade   => .latest
  | .downgrade => .base

/-- A reason why a command has no effect. -/
inductive MoveError where
  /-- There is no such version, or no way to it. -/
  | refused
  /-- A number of steps from a named version that leads to none that can be reached. -/
  | noTarget
  /-- More than one colon in a range of versions. -/
  | severalRanges
  /-- A range without a version at its start. -/
  | noStart
  deriving DecidableEq, Repr

/-- A command: where to move, and whether only to write the statements for it. -/
structure Move where
  direction : Direction
  revision  : String
  offline   : Bool
  deriving Repr

/-- A package that resolves revisions. -/
structure Versioning where
  /-- The version where a move from a version ends. -/
  target : Version → Direction → (revision : String) → Except MoveError Version
  /-- The statements of a move. -/
  script : Direction → (revision : String) → Except MoveError String

/-- What the deployment relies on: a move goes in its direction or nowhere, and the ends of the history
have their names. -/
structure Versioning.Lawful (v : Versioning) : Prop where
  target_cases : ∀ {current direction revision version},
    v.target current direction revision = .ok version → version = current ∨ version = direction.target
  head : ∀ current, v.target current .upgrade "head" = .ok .latest
  base : ∀ current, v.target current .downgrade "base" = .ok .base

end SampleSchema
