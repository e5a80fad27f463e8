import SampleSchema.Naming.Identifier
import SampleSchema.Schema.Signature
import SampleSchema.Text.Quoted

/-!
# Naming object types

Every object of a schema is given a name, and objects of the same structure share one definition. A
schema is walked in post-order. The first object of a structure gets the first name among its
candidates that no other structure owns: the last word of its path, longer and longer ends of its
path, its name behind the name of the root, and its whole path joined by underscores. The name of the
root belongs to the object at the root. Naming fails when no candidate is left.

* `NamedSchema.find?`, `NamedSchema.indexOf?` look a definition up by its name.
* `Names.owner?_own`: a name that is given away belongs to whom it was given.
-/

namespace SampleSchema

/-- A named object type. -/
structure Definition where
  name    : String
  samples : Int
  fields  : List (Field Schema)

/-- The schema of a definition. -/
def Definition.toSchema (d : Definition) : Schema := .object (some d.name) d.samples d.fields

/-- A schema whose objects are named, and their definitions in post-order. -/
structure NamedSchema where
  root        : Schema
  definitions : List Definition

/-- The names of the definitions. -/
def NamedSchema.names (s : NamedSchema) : List String := s.definitions.map Definition.name

/-- The first definition of a name. -/
def NamedSchema.find? (s : NamedSchema) (name : String) : Option Definition :=
  s.definitions.find? (·.name = name)

/-- The place of the first definition of a name. -/
def NamedSchema.indexOf? (s : NamedSchema) (name : String) : Option Nat := s.names.idxOf? name

/-- An object for which no name is left: the last word of its path and the path itself. -/
structure NameCollision where
  base : String
  path : String
  deriving DecidableEq, Repr

/-- The message for an object without a name. -/
def NameCollision.message (c : NameCollision) : String :=
  "No unique type name available for " ++ Text.quoted c.base ++ " at path " ++
    Text.quoted (if c.path = "" then "<root>" else c.path)

/-- The path of the elements of an array at a path, below a root of the given name. -/
def elementWords (root : String) (words : List String) : List String :=
  match words.getLast? with
  | none => [root ++ "Item"]
  | some w => words.dropLast ++ [singular w]

/-- Each word of a reversed path, with the words after it in the path behind. -/
def endsOfPath (behind : String) : List String → List String
  | []      => []
  | w :: ws => (w ++ behind) :: endsOfPath (w ++ behind) ws

/-- The names that an object at a path below a root may have, the preferred ones first. -/
def candidates (root : String) (words : List String) : List String :=
  if words.isEmpty then [root]
  else
    let ends := endsOfPath "" words.reverse
    let fallback := root ++ String.join words
    ends ++ (if ends.contains fallback then [] else [fallback]) ++
      ["_".intercalate (root :: words)]

/-- The names given so far. -/
structure Names where
  root    : String
  /-- The structures with a definition, in the order of their definitions. -/
  defined : List (Signature × Definition)
  /-- The structures that own a name. -/
  owners  : List (String × Signature)

namespace Names

/-- No names, before a schema with the given root name. -/
def start (rootName : String) : Names := ⟨typeName rootName, [], []⟩

/-- The definition of a structure. -/
def definition? (n : Names) (key : Signature) : Option Definition :=
  (n.defined.find? (·.1 = key)).map Prod.snd

/-- The structure that owns a name. -/
def owner? (n : Names) (name : String) : Option Signature := n.owners.lookup name

/-- The names after giving one to a structure. -/
def own (n : Names) (name : String) (key : Signature) : Names :=
  { n with owners := (name, key) :: n.owners }

/-- The names after defining a structure. -/
def define (n : Names) (key : Signature) (d : Definition) : Names :=
  { n with defined := n.defined ++ [(key, d)] }

/-- A name that is given away belongs to whom it was given. -/
theorem owner?_own (n : Names) (name : String) (key : Signature) :
    (n.own name key).owner? name = some key := by
  simp [own, owner?]

/-- Giving a name away leaves the other names alone. -/
theorem owner?_own_of_ne (n : Names) {name other : String} (key : Signature) (h : other ≠ name) :
    (n.own name key).owner? other = n.owner? other := by
  simp [own, owner?, List.lookup_cons, beq_false_of_ne h]

/-- Whether a name can be given to a structure. -/
def isFree (n : Names) (key : Signature) (name : String) : Bool :=
  match n.owner? name with
  | none => true
  | some k => k = key

end Names

/-- Naming passes the names on, also past a failure. -/
abbrev Naming := ExceptT NameCollision (StateM Names)

/-- Gives a structure at a path the first candidate that is free. -/
def assignName (key : Signature) (words : List String) : Naming String := do
  let n ← get
  match (candidates n.root words).find? (n.isFree key) with
  | some name =>
    set (n.own name key)
    return name
  | none => throw ⟨words.getLast?.getD n.root, ".".intercalate words⟩

mutual

/-- Names the objects of a schema at a path. -/
def nameObjects (words : List String) : Schema → Naming Schema
  | .optional t => return .optional (← nameObjects words t)
  | .union ts => return .union (← nameObjectsOfAll words ts)
  | .array e empty => do
    let n ← get
    return .array (← nameObjects (elementWords n.root words) e) empty
  | .object name samples fields => do
    let key := (Schema.object name samples fields).signature
    let n ← get
    match n.definition? key with
    | some d => return d.toSchema
    | none =>
      let fields ← nameObjectsOfFields words fields
      let name ← assignName key words
      let d : Definition := ⟨name, samples, fields⟩
      modify fun n => n.define key d
      return d.toSchema
  | .null => return .null
  | .bool => return .bool
  | .int => return .int
  | .float => return .float
  | .string numeric => return .string numeric
  | .timestamp => return .timestamp

/-- Names the objects of the variants of a union. -/
def nameObjectsOfAll (words : List String) : List Schema → Naming (List Schema)
  | [] => return []
  | t :: ts => do
    let t ← nameObjects words t
    return t :: (← nameObjectsOfAll words ts)

/-- Names the objects of fields, each at the path that its name continues. -/
def nameObjectsOfFields (words : List String) : List (Field Schema) → Naming (List (Field Schema))
  | [] => return []
  | ⟨name, type, optional, observed, total⟩ :: fs => do
    let type ← nameObjects (words ++ [typeName name]) type
    return ⟨name, type, optional, observed, total⟩ :: (← nameObjectsOfFields words fs)

end

/-- Whether a schema is an object. -/
def Schema.isObject : Schema → Bool
  | .object .. => true
  | _ => false

/-- The object that the root name belongs to: the schema itself or the first object among its
variants, below one optional. -/
def Schema.rootObject? (t : Schema) : Option Schema :=
  match t.unwrapOptional with
  | .union ts => ts.find? Schema.isObject
  | t => if t.isObject then some t else none

/-- Names a schema after keeping the root name for the object at its root. -/
def nameNext (t : Schema) : Naming NamedSchema := do
  if let some object := t.rootObject? then
    modify fun n => n.own n.root object.signature
  let root ← nameObjects [] t
  return ⟨root, (← get).defined.map Prod.snd⟩

/-- A schema with its objects named, given the name of its root. -/
def Schema.named (rootName : String) (t : Schema) : Except NameCollision NamedSchema :=
  ((nameNext t).run.run (Names.start rootName)).1

end SampleSchema
