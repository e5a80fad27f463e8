import SampleSchema.Document
import SampleSchema.Yaml.Graph
import SampleSchema.Yaml.Scalar
import SampleSchema.Yaml.Token.Reader

/-!
# The values of documents

The value of a document is worked out level by level from its root. A scalar has its value at once; a
collection is filled after all collections that were met before it. Before a mapping is filled, the
mappings that its merge keys name are put in front of its own entries, where a later entry of the same
key prevails. A key has to be a scalar.

Values refer to each other by the indices of their nodes, so that a node may contain itself.

* `Yaml.load` is the loader that all of this makes.
-/

namespace SampleSchema.Yaml

/-- The value of a node. -/
inductive Value where
  | scalar (value : Datum)
  /-- A collection that has still to be filled. -/
  | waiting
  | sequence (items : List Nat)
  | pairs (entries : List (Nat × Nat))
  | set
  | mapping (entries : List (Datum × Nat))

/-- Nodes with the values worked out so far, and the collections met since the last level began, the
latest first. -/
structure Work where
  nodes   : Array Node
  values  : Array (Option Value)
  pending : List Nat := []
  /-- A number greater than that of all merge keys. -/
  limit   : Nat

/-- A step of working out values. -/
abbrev Build := StateT Work (Except Fault)

namespace Build

/-- The node of an index. -/
def node (i : Nat) : Build Node := do
  match (← get).nodes[i]? with
  | some n => return n
  | none => throw .malformed

/-- The entries of a node, which has to be a mapping. -/
def entries (i : Nat) : Build (List (Nat × Nat)) := do
  match (← node i).content with
  | .mapping es => return es
  | _ => throw .malformed

/-- The items of a node, which has to be a sequence. -/
def items (i : Nat) : Build (List Nat) := do
  match (← node i).content with
  | .sequence is => return is
  | _ => throw .malformed

/-- Changes a node. -/
def change (i : Nat) (f : Node → Node) : Build Unit :=
  modify fun w => { w with nodes := w.nodes.modify i f }

/-- Notes the value of a node. -/
def note (i : Nat) (v : Value) : Build Unit :=
  modify fun w => { w with values := w.values.setIfInBounds i (some v) }

/-- Splits entries at the first one whose key has a tag. -/
def splitAtTag (t : Tag) :
    List (Nat × Nat) → Build (Option (List (Nat × Nat) × Nat × List (Nat × Nat)))
  | [] => return none
  | (k, v) :: es => do
    if (← node k).tag = t then return some ([], v, es)
    else return (← splitAtTag t es).map fun (before, w, after) => ((k, v) :: before, w, after)

/-- The text of a node that stands for a scalar. A mapping stands for its default value; at most
`depth` mappings are looked into. -/
def scalarText : (depth : Nat) → (i : Nat) → Build String
  | 0, _ => throw .endless
  | depth + 1, i => do
    match (← node i).content with
    | .scalar s => return s
    | .sequence _ => throw .malformed
    | .mapping es =>
      match ← splitAtTag .defaultValue es with
      | some (_, v, _) => scalarText depth v
      | none => throw .malformed

/-- Merges into a mapping what its merge keys name: a mapping, or a sequence of mappings of which the
first prevails. Each merge key is taken out of its mapping before it is followed, so that `limit` may
be any number greater than that of all merge keys. -/
def flatten : (limit : Nat) → (i : Nat) → (merged : List (Nat × Nat)) → Build Unit
  | 0, _, _ => throw .endless
  | limit + 1, i, merged => do
    match ← splitAtTag .merge (← entries i) with
    | none =>
      let es := merged ++ (← entries i)
      change i fun n => { n with content := .mapping es }
      es.forM fun e => change e.1 fun n =>
        if n.tag = .defaultValue then { n with tag := .text } else n
    | some (before, source, after) =>
      change i fun n => { n with content := .mapping (before ++ after) }
      match (← node source).content with
      | .scalar _ => throw .malformed
      | .mapping _ =>
        flatten limit source []
        flatten limit i (merged ++ (← entries source))
      | .sequence sources =>
        let parts ← sources.mapM fun source => do
          let _ ← entries source
          flatten limit source []
          entries source
        flatten limit i (merged ++ parts.reverse.flatten)

/-- Works out the value of a node, which for a collection is put off. -/
def construct (i : Nat) : Build Value := do
  match (← get).values[i]?.join with
  | some v => return v
  | none =>
    let n ← node i
    match n.tag with
    | .sequence | .mapping | .set | .orderedMap | .pairs =>
      note i .waiting
      modify fun w => { w with pending := i :: w.pending }
      return .waiting
    | tag =>
      match tag with
      | .merge | .defaultValue | .other _ => throw .malformed
      | _ => pure ()
      let s ← scalarText ((← get).nodes.size + 1) i
      match tag, n.content with
      | .timestamp, .mapping _ => throw .timestampMapping
      | _, _ => pure ()
      match scalarValue? tag s with
      | none => throw .malformed
      | some value =>
        let v := Value.scalar (← value)
        note i v
        return v

/-- Whether two keys of a mapping are the same; what is not a number counts as one key. -/
def isSameKey (a b : Datum) : Bool :=
  match a, b with
  | .float x, .float y => x.isNaN && y.isNaN || Datum.sameKey a b
  | _, _ => Datum.sameKey a b

/-- The entries after giving a key a value; an equal key keeps its place and its form. -/
def insertKey (key : Datum) (value : Nat) : List (Datum × Nat) → List (Datum × Nat)
  | [] => [(key, value)]
  | (k, v) :: es => if isSameKey k key then (k, value) :: es else (k, v) :: insertKey key value es

/-- Works out the keys and values of a mapping. -/
def mappingEntries (i : Nat) : Build (List (Datum × Nat)) := do
  let _ ← entries i
  flatten (← get).limit i []
  (← entries i).foldlM (fun es e => do
    match ← construct e.1 with
    | .scalar key =>
      let _ ← construct e.2
      return insertKey key e.2 es
    | _ => throw .malformed) []

/-- Works out the keys and values of a sequence of mappings with one entry each. -/
def pairEntries (i : Nat) : Build (List (Nat × Nat)) := do
  (← items i).mapM fun item => do
    match ← entries item with
    | [(k, v)] =>
      let _ ← construct k
      let _ ← construct v
      return (k, v)
    | _ => throw .malformed

/-- Fills a collection. -/
def fill (i : Nat) : Build Unit := do
  match (← node i).tag with
  | .mapping => note i (.mapping (← mappingEntries i))
  | .set =>
    let _ ← mappingEntries i
    note i .set
  | .orderedMap | .pairs => note i (.pairs (← pairEntries i))
  | _ =>
    let is ← items i
    is.forM fun item => do let _ ← construct item
    note i (.sequence is)

/-- Fills the collections of a level and of at most `limit` levels below it. -/
def fillLevels : (limit : Nat) → List Nat → Build Unit
  | 0, _ => return ()
  | limit + 1, level => do
    if !level.isEmpty then
      level.forM fill
      let next := (← get).pending.reverse
      modify fun w => { w with pending := [] }
      fillLevels limit next

/-- Works out all values that are reached from a node. -/
def all (root : Nat) : Build Unit := do
  let _ ← construct root
  let level := (← get).pending
  modify fun w => { w with pending := [] }
  fillLevels ((← get).nodes.size + 1) level

end Build

/-- The number of merge keys of a document. -/
def Graph.mergeKeys (g : Graph) : Nat :=
  (g.nodes.toList.map fun n => match n.content with
    | .mapping es => (es.filter fun e => (g.nodes[e.1]?.map Node.tag) = some .merge).length
    | _ => 0).foldl (· + ·) 0

/-- The value of an index in a document of so many nodes. All that is no node is the value past the
last one. -/
def place (size i : Nat) : Fin (size + 1) := ⟨min i size, Nat.lt_succ_of_le (Nat.min_le_right i size)⟩

/-- A value of a document of so many nodes. Once a document is worked out, none is waiting. -/
def Value.inDocument (size : Nat) : Value → Document.Value (size + 1)
  | .scalar value    => .scalar value
  | .waiting         => .scalar .null
  | .sequence items  => .sequence (items.map (place size))
  | .pairs entries   => .pairs (entries.map fun e => (place size e.1, place size e.2))
  | .set             => .set
  | .mapping entries => .mapping (entries.map fun e => (e.1, place size e.2))

/-- The document of values that have been worked out. -/
def documentOf (values : Array (Option Value)) (root : Nat) : Document where
  size    := values.size + 1
  value i := (values[i.val]?.join.getD .waiting).inDocument values.size
  root    := place values.size root

/-- The document that nodes stand for. -/
def Graph.document (g : Graph) : Except Fault Document := do
  let work : Work :=
    { nodes := g.nodes, values := Array.replicate g.nodes.size none, limit := g.mergeKeys + 1 }
  let (_, w) ← (Build.all g.root).run work
  return documentOf w.values g.root

/-- The failure that a fault is, with the name of its class. -/
def Fault.error : Fault → LoadError
  | .malformed        => .malformed "the text breaks a rule"
  | .badScalar        => .other ⟨"ValueError", none⟩
  | .unknownWord word => .other ⟨"KeyError", some word⟩
  | .emptyNumber      => .other ⟨"IndexError", none⟩
  | .notATimestamp    => .other ⟨"AttributeError", none⟩
  | .timestampMapping => .other ⟨"TypeError", none⟩
  | .outOfRange       => .other ⟨"OverflowError", none⟩
  | .endless          => .other ⟨"RecursionError", none⟩

/-- The documents of a stream. Those before a fault are worked out before it is told. -/
def load : Loader := fun s => do
  let (graphs, fault) := Graph.ofEvents (events (tokens s))
  let documents ← (graphs.mapM Graph.document).mapError Fault.error
  match fault with
  | some reason => throw reason.error
  | none        => return documents

end SampleSchema.Yaml
