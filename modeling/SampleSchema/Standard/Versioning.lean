import SampleSchema.Number.Literal
import SampleSchema.Text.DecimalDigit
import SampleSchema.Standard.Address
import SampleSchema.Versioning

/-!
# Revisions

The revisions that commands name: a version by its name or by the start of it, a number of steps from a
named version or from that of the database, and for statements a range of two versions.

* `Versioning.standard` resolves them.
-/

namespace SampleSchema

/-- The table that holds the version. -/
def versionLayout : TableLayout where
  name       := "alembic_version"
  columns    := [⟨"version_num", .text 32, false, none⟩]
  primaryKey := ["version_num"]
  keyName    := some "alembic_version_pkc"

namespace Version

/-- The version that a name stands for; the latest one may be shortened. -/
def ofName? (name : String) : Option Version :=
  if name = "base" then some .base
  else if name = "head" || name = "heads" then some .latest
  else if name != "" && name.toList.isPrefixOf latestName.toList then some .latest
  else none

/-- The version some steps up from another one. -/
def up? : Version → (steps : Nat) → Option Version
  | v, 0      => some v
  | .base, 1  => some .latest
  | _, _      => none

/-- The version some steps down from the latest one. -/
def downFromLatest? : (steps : Nat) → Option Version
  | 0 => some .latest
  | 1 => some .base
  | _ => none

/-- The version some steps down from a named one. From the base the first step leads to the latest
version. -/
def down? : Version → (steps : Nat) → Option Version
  | .latest, n   => downFromLatest? n
  | .base, 0     => some .base
  | .base, n + 1 => downFromLatest? n

/-- The version some steps up or, for a negative number, down from a named one. -/
def walk? (v : Version) (steps : Int) : Option Version :=
  if 0 ≤ steps then v.up? steps.toNat else v.down? steps.natAbs

end Version

/-- A text after a branch and an at sign. -/
def afterBranch (cs : List Char) : List Char := (cs.dropWhile (· != '@')).drop 1

/-- Whether a character may stand in the name of a version. -/
def isVersionChar (c : Char) : Bool := c.isAlphanum || c = '_'

/-- A number of steps at the start of a text, with the name before it, if there is one. -/
def stepsAt? (cs : List Char) : Option (Option String × Int) :=
  let name := cs.takeWhile isVersionChar
  match cs.drop name.length with
  | [] => none
  | sign :: rest =>
    let digits := (rest.map Text.decimalValue?).takeWhile Option.isSome
    if (sign = '+' || sign = '-') && !digits.isEmpty then
      let n : Int := Text.ofDigits (digits.filterMap id)
      some (if name.isEmpty then none else some (String.ofList name), if sign = '-' then -n else n)
    else none

/-- Whether there is a branch of a name before an at sign. The only one is that of the latest version. -/
def isKnownBranch (cs : List Char) : Bool :=
  !cs.contains '@' || (cs.takeWhile (· != '@')).isPrefixOf Version.latestName.toList

/-- The number of steps that a revision asks for, with the name of the version to start from; without
a name that is the one where the database stands. -/
def relative? (revision : String) : Option (Option String × Int) :=
  let cs := revision.toList
  let branched := if cs.contains '@' && cs.head? != some '@' then stepsAt? (afterBranch cs) else none
  branched <|> stepsAt? cs

/-- The version that an upgrade leads to. -/
def upgradeTarget (current : Version) (revision : String) : Except MoveError Version :=
  match relative? revision with
  | some (none, steps) =>
    if 0 < steps && isKnownBranch revision.toList then
      match current.up? steps.toNat with
      | some v => .ok v
      | none => .error .refused
    else .error .refused
  | some (some name, steps) =>
    match Version.ofName? name with
    | none => .error .refused
    | some v =>
      match v.walk? steps with
      | some .latest => .ok .latest
      | _ => .error .noTarget
  | none =>
    let cs := revision.toList
    let name := if cs.contains '@' then String.ofList (afterBranch cs) else revision
    let known := isKnownBranch cs
    match Version.ofName? name with
    | some .base => .ok .base
    | some .latest => if known then .ok .latest else .error .refused
    | none => if name = "" && known then .error .noTarget else .error .refused

/-- The version that a downgrade leads to. -/
def downgradeTarget (current : Version) (revision : String) : Except MoveError Version :=
  match relative? revision with
  | some (none, steps) =>
    if 0 ≤ steps || current = .base || !isKnownBranch revision.toList then .error .refused
    else match Version.downFromLatest? steps.natAbs with
      | some v => .ok v
      | none => .error .refused
  | some (some name, steps) =>
    match (Version.ofName? name).bind (·.walk? steps) with
    | some v => if v = .base && steps = 0 then .error .refused else .ok v
    | none => .error .refused
  | none =>
    let name := String.ofList (revision.toList.reverse.takeWhile (· != '@')).reverse
    if name = "" then .ok .base
    else match Version.ofName? name with
      | some v => .ok v
      | none => .error .refused

/-- Whether a move leads from one version to the other one. -/
def isEffective (direction : Direction) (current : Version) (revision : String) :
    Except MoveError Bool :=
  match direction with
  | .upgrade => do
    let target ← upgradeTarget current revision
    return current = .base && target = .latest
  | .downgrade => do
    let target ← downgradeTarget current revision
    if current = .base && target = .latest then throw .refused
    return current = .latest && target = .base

/-- The version that a range starts from. -/
def startOf (name : String) : Except MoveError Version :=
  if name = "" then .error .noStart
  else match Version.ofName? name with
    | some v => .ok v
    | none => .error .refused

/-- The statements of a move from one version to the other one. The first version makes the table that
holds the version. -/
def stepText : Direction → String
  | .upgrade =>
    versionLayout.create ++ "-- Running upgrade  -> " ++ Version.latestName ++ "\n\n" ++
      runsMigration.text .upgrade ++
      TableLayout.statement ("INSERT INTO " ++ versionLayout.name ++ " (version_num) VALUES ('" ++
        Version.latestName ++ "') RETURNING version_num")
  | .downgrade =>
    "-- Running downgrade " ++ Version.latestName ++ " -> \n\n" ++ runsMigration.text .downgrade ++
      TableLayout.statement ("DELETE FROM " ++ versionLayout.name ++ " WHERE " ++
        versionLayout.name ++ ".version_num = '" ++ Version.latestName ++ "'")

/-- The statements of a move, which starts at the version before the colon, or else at the base. A
downgrade has to say where it starts. -/
def moveText (direction : Direction) (revision : String) : Except MoveError String := do
  let (current, target) ← match direction, Address.parts ':' revision.toList with
    | .upgrade, [_] => pure (Version.base, revision)
    | .downgrade, [_] => .error .refused
    | _, [start, target] => do pure (← startOf (String.ofList start), String.ofList target)
    | _, _ => .error .severalRanges
  return if ← isEffective direction current target then stepText direction else ""

/-- The version where a move from a version ends. -/
def Standard.target (current : Version) (direction : Direction) (revision : String) :
    Except MoveError Version :=
  if revision.contains ':' then .error .refused
  else do return if ← isEffective direction current revision then direction.target else current

/-- The resolution of revisions. -/
def Versioning.standard : Versioning where
  target := Standard.target
  script := moveText

end SampleSchema
