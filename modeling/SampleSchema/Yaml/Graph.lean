import SampleSchema.Yaml.Event
import SampleSchema.Yaml.Tag

/-!
# Node graphs

The nodes of one document, each with its tag and its content. Nodes refer to each other by their
index, so that an alias is one more reference to the node of its anchor, which may even contain it.

* `Graph.ofEvents` are the graphs of the documents of a stream, up to the first fault.
-/

namespace SampleSchema.Yaml

/-- What a node holds. -/
inductive Content where
  | scalar (text : String)
  | sequence (items : List Nat)
  | mapping (entries : List (Nat × Nat))
  deriving DecidableEq, Repr

/-- A node. -/
structure Node where
  tag     : Tag
  content : Content
  deriving DecidableEq, Repr

/-- The nodes of a document and the index of the root. -/
structure Graph where
  nodes : Array Node
  root  : Nat
  deriving DecidableEq, Repr

/-- A collection that has not ended: its node and the nodes in it, the last one first. -/
structure OpenNode where
  index : Nat
  inner : List Nat

/-- What is known of a document that has not ended. -/
structure Draft where
  nodes   : Array Node := #[]
  anchors : List (String × Nat) := []
  opened  : List OpenNode := []
  root    : Nat := 0

namespace Draft

/-- Puts a node into the innermost collection, or makes it the root. -/
def place (d : Draft) (index : Nat) : Draft :=
  match d.opened with
  | [] => { d with root := index }
  | o :: os => { d with opened := { o with inner := index :: o.inner } :: os }

/-- Adds a node, which has the given anchor. -/
def add (d : Draft) (anchor : Option String) (n : Node) : Except Fault Draft :=
  let index := d.nodes.size
  let d := { d with nodes := d.nodes.push n }
  match anchor with
  | none => .ok d
  | some a =>
    if (d.anchors.lookup a).isSome then .error .malformed
    else .ok { d with anchors := (a, index) :: d.anchors }

/-- Adds a collection, which stays open. -/
def enter (d : Draft) (anchor : Option String) (n : Node) : Except Fault Draft := do
  let d' ← d.add anchor n
  return { d' with opened := ⟨d.nodes.size, []⟩ :: d'.opened }

/-- The entries of a mapping whose keys and values alternate. -/
def entriesOf : List Nat → List (Nat × Nat)
  | k :: v :: rest => (k, v) :: entriesOf rest
  | _ => []

/-- Gives a node its content. -/
def fill (d : Draft) (index : Nat) (c : Content) : Draft :=
  match d.nodes[index]? with
  | some n => { d with nodes := d.nodes.setIfInBounds index { n with content := c } }
  | none => d

/-- Ends the innermost collection, whose content is made of the nodes in it. -/
def leave (d : Draft) (content : List Nat → Content) : Draft :=
  match d.opened with
  | [] => d
  | o :: os => ({ d with opened := os }.fill o.index (content o.inner.reverse)).place o.index

/-- The tag of a node for which `tag` is written, and `none` or a mark alone leave it open. -/
def tagOr (tag : Option String) (default : Tag) : Tag :=
  match tag with
  | none => default
  | some "!" => default
  | some name => Tag.ofName name

/-- The draft after an event other than the end of the document. -/
def step (d : Draft) : Event → Except Fault Draft
  | .alias name =>
    match d.anchors.lookup name with
    | some index => .ok (d.place index)
    | none => .error .malformed
  | .scalar anchor tag text plain => do
    let default := if plain || tag.isSome then Tag.ofPlain text else .text
    let d' ← d.add anchor ⟨tagOr tag default, .scalar text⟩
    return d'.place d.nodes.size
  | .sequenceStart anchor tag => d.enter anchor ⟨tagOr tag .sequence, .sequence []⟩
  | .mappingStart anchor tag => d.enter anchor ⟨tagOr tag .mapping, .mapping []⟩
  | .sequenceEnd => .ok (d.leave .sequence)
  | .mappingEnd => .ok (d.leave fun inner => .mapping (entriesOf inner))
  | .documentEnd => .ok d
  | .fault reason => .error reason

end Draft

/-- The graphs of documents, where a part of the first one has been read already. -/
def Graph.ofEventsFrom (d : Draft) : List Event → List Graph × Option Fault
  | [] => ([], none)
  | .documentEnd :: es =>
    let (gs, fault) := ofEventsFrom {} es
    (⟨d.nodes, d.root⟩ :: gs, fault)
  | e :: es =>
    match d.step e with
    | .error reason => ([], some reason)
    | .ok d => ofEventsFrom d es

/-- The graphs of the documents of a stream, up to the first fault. -/
def Graph.ofEvents (es : List Event) : List Graph × Option Fault := ofEventsFrom {} es

end SampleSchema.Yaml
