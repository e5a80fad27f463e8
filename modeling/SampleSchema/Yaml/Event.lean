import SampleSchema.Yaml.Token

/-!
# Events

The nodes of a YAML stream in the order in which they start, each collection with an event at its end
and each document with one after its root. A node has the anchor and the tag that stand before it;
tag handles are resolved.

What has still to be read of a stream is a list of goals. A step looks at the next tokens, takes some
of them and puts other goals in the place of the first one; `Goal.weight` makes goals and tokens
shrink together, so that the reading ends.

* `measure_step`: a step makes the measure of the reading smaller.
-/

namespace SampleSchema.Yaml

/-- An event; a fault stands in the place of the event that cannot be read. -/
inductive Event where
  | documentEnd
  | alias (name : String)
  /-- A scalar; `plain` ones without a tag may be other things than text. -/
  | scalar (anchor tag : Option String) (text : String) (plain : Bool)
  | sequenceStart (anchor tag : Option String)
  | sequenceEnd
  | mappingStart (anchor tag : Option String)
  | mappingEnd
  | fault (reason : Fault)
  deriving DecidableEq, Repr

/-- The scalar that stands where nothing is written. -/
def Event.empty : Event := .scalar none none "" true

/-- Something to read. -/
inductive Goal where
  /-- The documents of a stream, the first of which needs no mark. -/
  | stream
  /-- Documents with a mark before each of them. -/
  | documents
  | documentContent
  | documentEnd
  /-- A node. Only some places have room for `block` collections, and for sequences `indentless`ly
  under a key. -/
  | node (block indentless : Bool)
  | blockEntries
  | indentlessEntries
  | blockKeys
  | blockValue
  | flowEntries (first : Bool)
  /-- The value of a pair that stands in a flow sequence. -/
  | pairValue
  | pairEnd
  | flowKeys (first : Bool)
  | flowValue
  /-- The value of a key without a colon. -/
  | emptyValue
  deriving DecidableEq, Repr

/-- How many steps a goal may take before it takes a token, at most. -/
def Goal.weight : Goal → Nat
  | .stream => 5
  | .documents => 1
  | .documentContent => 3
  | .documentEnd => 2
  | .node .. => 2
  | .blockEntries => 1
  | .indentlessEntries => 1
  | .blockKeys => 1
  | .blockValue => 2
  | .flowEntries first => if first then 4 else 1
  | .pairValue => 2
  | .pairEnd => 1
  | .flowKeys first => if first then 5 else 1
  | .flowValue => 1
  | .emptyValue => 1

/-- The weight of several goals. -/
def weightOf : List Goal → Nat
  | []      => 0
  | g :: gs => g.weight + weightOf gs

/-- The weight of goals before other goals. -/
@[simp] theorem weightOf_append (gs hs : List Goal) :
    weightOf (gs ++ hs) = weightOf gs + weightOf hs := by
  induction gs with
  | nil => simp [weightOf]
  | cons g gs ih => simp [weightOf, ih]; omega

/-- What is left to read, as a number. -/
def measureOf (goals : List Goal) (tokens : List Token) : Nat :=
  8 * tokens.length + weightOf goals

/-- What tag handles stand for, the latest first. -/
abbrev Handles := List (String × String)

/-- The handles that need no directive. -/
def Handles.default : Handles := [("!", "!"), ("!!", "tag:yaml.org,2002:")]

/-- The outcome of a step: events, goals in the place of the one before, and the tokens left. -/
structure Step where
  events  : List Event
  goals   : List Goal
  tokens  : List Token
  handles : Handles := Handles.default

/-- The fault of tokens that fit no goal. -/
def unexpected {α : Type} : List Token → Except Fault α
  | .fault reason :: _ => .error reason
  | _ => .error .malformed

/-- Reads directives, of which one may be a version and no two may be for one handle. -/
def directives (versioned : Bool) (handles : Handles) :
    List Token → Except Fault (Handles × List Token)
  | .directive (.version major) :: ts =>
    if versioned || major != 1 then .error .malformed else directives true handles ts
  | .directive (.handle name uri) :: ts =>
    if (handles.lookup name).isSome then .error .malformed
    else directives versioned ((name, uri) :: handles) ts
  | .directive .other :: ts => directives versioned handles ts
  | ts => .ok (handles ++ Handles.default, ts)

/-- Reads the anchor and the tag before a node, in either order. -/
def properties : List Token → Option String × Option (Option String × String) × List Token
  | .anchor a :: .tag h s :: ts => (some a, some (h, s), ts)
  | .anchor a :: ts             => (some a, none, ts)
  | .tag h s :: .anchor a :: ts => (some a, some (h, s), ts)
  | .tag h s :: ts              => (none, some (h, s), ts)
  | ts                          => (none, none, ts)

/-- The full name of a tag. -/
def resolveTag (handles : Handles) : Option (Option String × String) → Except Fault (Option String)
  | none => .ok none
  | some (none, name) => .ok (some name)
  | some (some handle, suffix) =>
    match handles.lookup handle with
    | some uri => .ok (some (uri ++ suffix))
    | none => .error .malformed

/-- Whether the next token is one of those given. -/
def nextIs (choices : List Token) (ts : List Token) : Bool := ts.head?.any (choices.contains ·)

/-- The tokens before which no block entry is written. -/
def afterBlockEntry : List Token := [.blockEntry, .blockEnd]

/-- The tokens before which no indentless entry is written. -/
def afterIndentlessEntry : List Token := [.blockEntry, .key, .value, .blockEnd]

/-- The tokens before which no key or value of a block mapping is written. -/
def afterBlockPart : List Token := [.key, .value, .blockEnd]

/-- A node, or an empty scalar before any of the given tokens, and then further goals. -/
def nodeUnless (absent : List Token) (block indentless : Bool) (goals : List Goal)
    (ts : List Token) : Step :=
  if nextIs absent ts then ⟨[.empty], goals, ts, .default⟩
  else ⟨[], .node block indentless :: goals, ts, .default⟩

/-- Reads the content of a node after its anchor and its tag. -/
def content (block indentless : Bool) (anchor tag : Option String) :
    List Token → Except Fault Step
  | .scalar text plain :: ts => .ok { events := [.scalar anchor tag text plain], goals := [], tokens := ts }
  | .flowSequenceStart :: ts =>
    .ok { events := [.sequenceStart anchor tag], goals := [.flowEntries true], tokens := ts }
  | .flowMappingStart :: ts =>
    .ok { events := [.mappingStart anchor tag], goals := [.flowKeys true], tokens := ts }
  | ts =>
    match block, indentless, ts with
    | true, _, .blockSequenceStart :: ts =>
      .ok { events := [.sequenceStart anchor tag], goals := [.blockEntries], tokens := ts }
    | true, _, .blockMappingStart :: ts =>
      .ok { events := [.mappingStart anchor tag], goals := [.blockKeys], tokens := ts }
    | _, true, .blockEntry :: ts =>
      .ok { events := [.sequenceStart anchor tag], goals := [.indentlessEntries],
            tokens := .blockEntry :: ts }
    | _, _, .fault reason :: _ => .error reason
    | _, _, ts =>
      if anchor.isSome || tag.isSome then
        .ok { events := [.scalar anchor tag "" true], goals := [], tokens := ts }
      else .error .malformed

/-- Reads the next key of a flow mapping. -/
def flowKey : List Token → Except Fault Step
  | .key :: ts =>
    .ok (nodeUnless [.value, .flowEntry, .flowMappingEnd] false false [.flowValue, .flowKeys false] ts)
  | .flowMappingEnd :: ts => .ok { events := [.mappingEnd], goals := [], tokens := ts }
  | ts =>
    .ok { events := [], goals := [.node false false, .emptyValue, .flowKeys false], tokens := ts }

/-- Reads the next entry of a flow sequence; a key starts a mapping of one pair. -/
def flowEntry : List Token → Except Fault Step
  | .key :: ts =>
    let s := nodeUnless [.value, .flowEntry, .flowSequenceEnd] false false
      [.pairValue, .flowEntries false] ts
    .ok { s with events := .mappingStart none none :: s.events }
  | .flowSequenceEnd :: ts => .ok { events := [.sequenceEnd], goals := [], tokens := ts }
  | ts => .ok { events := [], goals := [.node false false, .flowEntries false], tokens := ts }

/-- Takes a step for a goal. The handles of the outcome matter for the goal `documents` alone. -/
def step (handles : Handles) : Goal → List Token → Except Fault Step
  | .stream, ts =>
    match ts with
    | .directive _ :: _ | .documentStart :: _ | .streamEnd :: _ =>
      .ok { events := [], goals := [.documents], tokens := ts }
    | _ => .ok { events := [], goals := [.node true false, .documentEnd], tokens := ts }
  | .documents, ts =>
    match ts.dropWhile (· = .documentEnd) with
    | .streamEnd :: ts => .ok { events := [], goals := [], tokens := ts }
    | ts => do
      let (handles, ts) ← directives false [] ts
      match ts with
      | .documentStart :: ts =>
        return { events := [], goals := [.documentContent, .documentEnd], tokens := ts,
                 handles := handles }
      | ts => unexpected ts
  | .documentContent, ts =>
    match ts with
    | .directive _ :: _ | .documentStart :: _ | .documentEnd :: _ | .streamEnd :: _ =>
      .ok { events := [.empty], goals := [], tokens := ts }
    | _ => .ok { events := [], goals := [.node true false], tokens := ts }
  | .documentEnd, ts =>
    match ts with
    | .fault reason :: _ => .error reason
    | .documentEnd :: ts => .ok { events := [.documentEnd], goals := [.documents], tokens := ts }
    | _ => .ok { events := [.documentEnd], goals := [.documents], tokens := ts }
  | .node block indentless, ts =>
    match ts with
    | .alias name :: ts => .ok { events := [.alias name], goals := [], tokens := ts }
    | ts => do
      let (anchor, tag, rest) := properties ts
      content block indentless anchor (← resolveTag handles tag) rest
  | .blockEntries, ts =>
    match ts with
    | .blockEntry :: ts => .ok (nodeUnless afterBlockEntry true false [.blockEntries] ts)
    | .blockEnd :: ts => .ok { events := [.sequenceEnd], goals := [], tokens := ts }
    | ts => unexpected ts
  | .indentlessEntries, ts =>
    match ts with
    | .blockEntry :: ts => .ok (nodeUnless afterIndentlessEntry true false [.indentlessEntries] ts)
    | .fault reason :: _ => .error reason
    | ts => .ok { events := [.sequenceEnd], goals := [], tokens := ts }
  | .blockKeys, ts =>
    match ts with
    | .key :: ts => .ok (nodeUnless afterBlockPart true true [.blockValue] ts)
    | .blockEnd :: ts => .ok { events := [.mappingEnd], goals := [], tokens := ts }
    | ts => unexpected ts
  | .blockValue, ts =>
    match ts with
    | .value :: ts => .ok (nodeUnless afterBlockPart true true [.blockKeys] ts)
    | .fault reason :: _ => .error reason
    | ts => .ok { events := [.empty], goals := [.blockKeys], tokens := ts }
  | .flowEntries true, ts => flowEntry ts
  | .flowEntries false, ts =>
    match ts with
    | .flowSequenceEnd :: ts => .ok { events := [.sequenceEnd], goals := [], tokens := ts }
    | .flowEntry :: ts => flowEntry ts
    | ts => unexpected ts
  | .pairValue, ts =>
    match ts with
    | .value :: ts =>
      .ok (nodeUnless [.flowEntry, .flowSequenceEnd] false false [.pairEnd] ts)
    | .fault reason :: _ => .error reason
    | ts => .ok { events := [.empty], goals := [.pairEnd], tokens := ts }
  | .pairEnd, ts => .ok { events := [.mappingEnd], goals := [], tokens := ts }
  | .flowKeys true, ts => flowKey ts
  | .flowKeys false, ts =>
    match ts with
    | .flowMappingEnd :: ts => .ok { events := [.mappingEnd], goals := [], tokens := ts }
    | .flowEntry :: ts => flowKey ts
    | ts => unexpected ts
  | .flowValue, ts =>
    match ts with
    | .value :: ts =>
      .ok (nodeUnless [.flowEntry, .flowMappingEnd] false false [] ts)
    | .fault reason :: _ => .error reason
    | ts => .ok { events := [.empty], goals := [], tokens := ts }
  | .emptyValue, ts => .ok { events := [.empty], goals := [], tokens := ts }

/-! ### The reading ends -/

/-- Directives leave no more tokens than there were. -/
theorem length_directives {versioned : Bool} {handles : Handles} {ts : List Token}
    {r : Handles × List Token} (h : directives versioned handles ts = .ok r) :
    r.2.length ≤ ts.length := by
  fun_induction directives versioned handles ts <;> grind

/-- Properties leave no more tokens than there were. -/
theorem length_properties (ts : List Token) : (properties ts).2.2.length ≤ ts.length := by
  unfold properties; split <;> simp <;> omega

/-- The measure of a node or an empty scalar before further goals. -/
theorem measure_nodeUnless (absent : List Token) (block indentless : Bool) (goals : List Goal)
    (ts : List Token) :
    measureOf (nodeUnless absent block indentless goals ts).goals
      (nodeUnless absent block indentless goals ts).tokens ≤ measureOf goals ts + 2 := by
  unfold nodeUnless; split <;> simp [measureOf, weightOf, Goal.weight]; omega

/-- Reading the content of a node makes the measure smaller. -/
theorem measure_content {block indentless : Bool} {anchor tag : Option String} {ts : List Token}
    {s : Step} (h : content block indentless anchor tag ts = .ok s) :
    measureOf s.goals s.tokens < 8 * ts.length + 2 := by
  unfold content at h
  split at h <;> try (split at h) <;> try (split at h)
  all_goals cases h
  all_goals simp [measureOf, weightOf, Goal.weight]
  all_goals omega

/-- Reading a key of a flow mapping makes the measure smaller than that of a first key. -/
theorem measure_flowKey {ts : List Token} {s : Step} (h : flowKey ts = .ok s) :
    measureOf s.goals s.tokens < 8 * ts.length + 5 := by
  unfold flowKey at h
  split at h <;> cases h
  · rename_i ts
    have := measure_nodeUnless [.value, .flowEntry, .flowMappingEnd] false false
      [.flowValue, .flowKeys false] ts
    simp [measureOf, weightOf, Goal.weight] at this ⊢; omega
  all_goals simp [measureOf, weightOf, Goal.weight]
  all_goals omega

/-- Reading an entry of a flow sequence makes the measure smaller than that of a first entry. -/
theorem measure_flowEntry {ts : List Token} {s : Step} (h : flowEntry ts = .ok s) :
    measureOf s.goals s.tokens < 8 * ts.length + 4 := by
  unfold flowEntry at h
  split at h <;> cases h
  · rename_i ts
    have := measure_nodeUnless [.value, .flowEntry, .flowSequenceEnd] false false
      [.pairValue, .flowEntries false] ts
    simp [measureOf, weightOf, Goal.weight] at this ⊢; omega
  all_goals simp [measureOf, weightOf, Goal.weight]
  all_goals omega

/-- Reading a document separator with the directives before it makes the measure smaller. -/
theorem measure_documents {handles : Handles} {ts : List Token} {s : Step}
    (h : step handles .documents ts = .ok s) :
    measureOf s.goals s.tokens < 8 * ts.length + 1 := by
  have hd : (ts.dropWhile (· = Token.documentEnd)).length ≤ ts.length :=
    (List.dropWhile_sublist _).length_le
  simp only [step] at h
  split at h
  · cases h; simp_all [measureOf, weightOf]; omega
  · cases hr : directives false [] (ts.dropWhile (· = Token.documentEnd)) with
    | error r => simp [hr, bind, Except.bind] at h
    | ok r =>
      have hl := length_directives hr
      obtain ⟨handles, rest⟩ := r
      simp only [hr, bind, Except.bind] at h
      split at h
      · cases h; simp [measureOf, weightOf, Goal.weight] at *; omega
      · unfold unexpected at h; split at h <;> cases h

/-- Reading a node makes the measure smaller. -/
theorem measure_node {handles : Handles} {block indentless : Bool} {ts : List Token} {s : Step}
    (h : step handles (.node block indentless) ts = .ok s) :
    measureOf s.goals s.tokens < 8 * ts.length + 2 := by
  simp only [step] at h
  split at h
  · cases h; simp [measureOf, weightOf]; omega
  · have hl := length_properties ts
    generalize properties ts = r at h hl
    obtain ⟨anchor, tag, rest⟩ := r
    cases ht : resolveTag handles tag with
    | error r => simp [ht, bind, Except.bind] at h
    | ok name =>
      simp only [ht, bind, Except.bind] at h
      have := measure_content h
      simp at hl; omega

/-- What fits no goal is no step. -/
theorem unexpected_ne_ok {α : Type} {ts : List Token} {a : α} : unexpected ts ≠ .ok a := by
  unfold unexpected; split <;> simp

/-- A step makes the measure of the reading smaller. -/
theorem measure_step {handles : Handles} {g : Goal} {goals : List Goal} {ts : List Token} {s : Step}
    (h : step handles g ts = .ok s) :
    measureOf (s.goals ++ goals) s.tokens < measureOf (g :: goals) ts := by
  suffices measureOf s.goals s.tokens < 8 * ts.length + g.weight by
    simp [measureOf, weightOf] at this ⊢; omega
  cases g with
  | documents => exact measure_documents h
  | node block indentless => exact measure_node h
  | flowEntries first =>
    cases first
    · simp only [step] at h
      split at h
      · cases h; simp [measureOf, weightOf]; omega
      · have := measure_flowEntry h
        simp [Goal.weight]; omega
      · exact absurd h unexpected_ne_ok
    · exact measure_flowEntry h
  | flowKeys first =>
    cases first
    · simp only [step] at h
      split at h
      · cases h; simp [measureOf, weightOf]; omega
      · have := measure_flowKey h
        simp [Goal.weight]; omega
      · exact absurd h unexpected_ne_ok
    · exact measure_flowKey h
  | blockEntries | indentlessEntries | blockKeys | blockValue | pairValue | flowValue =>
    simp only [step] at h
    split at h
    · rename_i rest
      obtain rfl := Except.ok.inj h
      refine Nat.lt_of_le_of_lt (measure_nodeUnless _ _ _ _ rest) ?_
      simp only [measureOf, weightOf, Goal.weight, List.length_cons]
      omega
    all_goals first
      | exact absurd h unexpected_ne_ok
      | (obtain rfl := Except.ok.inj h; simp [measureOf, weightOf, Goal.weight]; try omega)
      | cases h
  | _ =>
    simp only [step] at h
    try split at h
    all_goals first
      | (obtain rfl := Except.ok.inj h; simp [measureOf, weightOf, Goal.weight]; try omega)
      | cases h

/-- The events of the tokens, for what is left to read. -/
def eventsFrom (handles : Handles) (goals : List Goal) (ts : List Token) : List Event :=
  match goals with
  | [] => []
  | g :: goals =>
    match _h : step handles g ts with
    | .error reason => [.fault reason]
    | .ok s =>
      let handles := if g = .documents then s.handles else handles
      s.events ++ eventsFrom handles (s.goals ++ goals) s.tokens
termination_by measureOf goals ts
decreasing_by exact measure_step _h

/-- The events of a stream. -/
def events (ts : List Token) : List Event := eventsFrom .default [.stream] ts

end SampleSchema.Yaml
