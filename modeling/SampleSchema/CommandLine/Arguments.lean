import SampleSchema.CommandLine.SamplePath
import SampleSchema.Text.DecimalDigit

/-!
# Arguments

The arguments of the command line: options, which start with a dash, and the paths of the sample
files, which stand together. The name of an option may be shortened; a value either follows an equals
sign or is the next argument. Two dashes alone end the options; negative numbers and arguments
with a space are no options.

* `Arguments.read` reads the arguments.
-/

namespace SampleSchema

/-- The options of the command line. -/
inductive Switch where
  | help
  | format
  | rootName
  | numericColumn
  | parallel
  deriving DecidableEq, Repr

namespace Switch

/-- The name of an option. -/
def name : Switch → String
  | .help          => "--help"
  | .format        => "--format"
  | .rootName      => "--root-name"
  | .numericColumn => "--numeric-column"
  | .parallel      => "--parallel"

/-- All options. -/
def all : List Switch := [.help, .format, .rootName, .numericColumn, .parallel]

/-- Every option is among all options. -/
theorem mem_all : ∀ s : Switch, s ∈ all
  | .help | .format | .rootName | .numericColumn | .parallel => by simp [all]

/-- The options whose name starts with some characters. -/
def named (start : List Char) : List Switch := all.filter fun s => start.isPrefixOf s.name.toList

end Switch

/-- What an argument is by its form. -/
inductive ArgumentForm where
  | plain (text : String)
  /-- The end of the options. -/
  | separator
  /-- An option, with the value that belongs to the same argument. -/
  | option (option : Switch) (value : Option String)
  | unknown
  deriving DecidableEq, Repr

namespace ArgumentForm

/-- Whether characters are one or more digits. -/
def areDigits (cs : List Char) : Bool := !cs.isEmpty && cs.all Text.isDecimal

/-- Whether characters after a dash make a negative number. A line feed may stand at the end. -/
def isNumber (cs : List Char) : Bool :=
  let cs := if cs.getLast? = some '\n' then cs.dropLast else cs
  areDigits cs ||
    match cs.dropWhile Text.isDecimal with
    | '.' :: ds => areDigits ds
    | _         => false

/-- The form of an argument that is no option, although it starts with a dash. -/
def other (cs : List Char) : ArgumentForm :=
  if isNumber (cs.drop 1) || cs.contains ' ' then .plain (String.ofList cs) else .unknown

/-- The form of an argument that starts with two dashes; none if it shortens several options. -/
def long? (cs : List Char) : Option ArgumentForm :=
  let name := cs.takeWhile (· != '=')
  let value := match cs.dropWhile (· != '=') with
    | _ :: v => some (String.ofList v)
    | []     => none
  match Switch.named name with
  | []  => some (other cs)
  | [s] => some (.option s value)
  | _   => none

/-- The form of an argument that starts with a dash and the letter of the help. Letters after it do not
matter, but an equals sign or a dash gives a value, which the help does not take. -/
def short (rest : List Char) : ArgumentForm :=
  match rest.dropWhile (· = 'h') with
  | '=' :: _ | '-' :: _ => .option .help (some (String.ofList rest))
  | _                   => .option .help none

/-- The form of an argument; none if it shortens several options. -/
def of? (s : String) : Option ArgumentForm :=
  match s.toList with
  | ['-', '-']       => some .separator
  | '-' :: '-' :: cs => long? ('-' :: '-' :: cs)
  | '-' :: 'h' :: cs => some (short cs)
  | '-' :: c :: cs   => some (other ('-' :: c :: cs))
  | _                => some (.plain s)

/-- The forms of arguments; after the separator all are plain. -/
def ofAll? : List String → Option (List ArgumentForm)
  | []      => some []
  | s :: ss => do
    match ← of? s with
    | .separator => return .separator :: ss.map .plain
    | form       => return form :: (← ofAll? ss)

end ArgumentForm

/-- What the arguments ask for. -/
structure Arguments where
  paths          : List SamplePath := []
  format         : Option Format := none
  rootName       : Option String := none
  numericColumns : List String := []
  parallel       : Bool := false
  deriving Repr

/-- A reason why arguments ask for no run. -/
inductive Rejection where
  /-- Help is asked for. -/
  | help
  /-- The arguments do not fit the usage. -/
  | usage
  deriving DecidableEq, Repr

/-- How far the arguments are read. -/
structure ReadingArguments extends Arguments where
  /-- Whether the next plain argument is one more path. -/
  inPaths : Bool := true
  /-- Whether there was an argument that means nothing. -/
  stray   : Bool := false
  deriving Repr

namespace ReadingArguments

/-- After a plain argument. All paths stand together. -/
def plain (r : ReadingArguments) (s : String) : ReadingArguments :=
  if r.inPaths then { r with paths := r.paths ++ [SamplePath.ofText s] } else { r with stray := true }

/-- After the separator, which may stand anywhere among the paths. -/
def separator (r : ReadingArguments) : ReadingArguments :=
  if r.inPaths then r else { r with stray := true }

/-- At an option, which ends the paths if there are any. -/
def atOption (r : ReadingArguments) : ReadingArguments := { r with inPaths := r.paths.isEmpty }

/-- After an option with a value. -/
def withValue (r : ReadingArguments) (value : String) : Switch → Except Rejection ReadingArguments
  | .format        =>
    match Format.ofName? value with
    | some f => .ok { r with format := some f }
    | none   => .error .usage
  | .rootName      => .ok { r with rootName := some value }
  | .numericColumn => .ok { r with numericColumns := r.numericColumns ++ [value] }
  | .help | .parallel => .error .usage

/-- Reads further arguments. An option that takes a value and has none yet takes the next argument, if
that is plain. -/
def readAll (r : ReadingArguments) : List ArgumentForm → Except Rejection ReadingArguments
  | []                                  => .ok r
  | .plain s :: forms                   => readAll (r.plain s) forms
  | .separator :: forms                 => readAll r.separator forms
  | .unknown :: forms                   => readAll { r.atOption with stray := true } forms
  | .option .help none :: _             => .error .help
  | .option .parallel none :: forms     => readAll { r.atOption with parallel := true } forms
  | .option o (some v) :: forms         => do readAll (← r.atOption.withValue v o) forms
  | .option o none :: .plain v :: forms => do readAll (← r.atOption.withValue v o) forms
  | .option _ none :: _                 => .error .usage

end ReadingArguments

/-- Reads arguments. There has to be a path, and every argument has to mean something. -/
def Arguments.read (arguments : List String) : Except Rejection Arguments :=
  match ArgumentForm.ofAll? arguments with
  | none => .error .usage
  | some forms => do
    let r ← ReadingArguments.readAll {} forms
    if r.paths.isEmpty || r.stray then throw .usage
    return r.toArguments

end SampleSchema
