import SampleSchema.Proofs.YamlMerging

/-!
# Values of nodes

While the collections of a document are filled level by level, the values noted so far refer to
nodes that have values too, and a collection that has still to be filled is on the level or was met
since (`Noted`).  A node gets its first value only once, so that there is room for as many more
collections as there are nodes without a value.

A document is decodable (`Graph.Decodable`) if no node contains itself and each scalar is written in
a way that its tag admits.  Then a node gets its value, or the text is malformed (`ends_construct`).
-/

namespace SampleSchema.Yaml

/-- Whether all values of a document can be worked out, unless it is malformed. -/
structure Graph.Decodable (g : Graph) : Prop where
  acyclic    : g.IsAcyclic
  /-- What a node writes, it writes in a way that its tag admits. -/
  scalars    : ∀ {i j : Nat} {n m : Node} {s : String} {f : Fault}, g.nodes[i]? = some n →
    Relation.ReflTransGen g.Holds i j → g.nodes[j]? = some m → m.content = .scalar s →
    scalarValue? n.tag s = some (.error f) → f = .malformed
  timestamps : ∀ {i : Nat} {n : Node} {es : List (Nat × Nat)}, g.nodes[i]? = some n →
    n.tag = .timestamp → n.content ≠ .mapping es

namespace Graph.Decodable

variable {g : Graph}

/-- A scalar of a decodable graph has a value or is malformed, also where a node has lost its mark.
-/
theorem malformed_of_scalarValue? (hg : g.Decodable) {i j : Nat} {n n' m : Node} {s : String}
    {f : Fault} (hn : g.nodes[i]? = some n) (hb : n.Becomes n')
    (hj : Relation.ReflTransGen g.Holds i j) (hm : g.nodes[j]? = some m)
    (hs : m.content = .scalar s) (h : scalarValue? n'.tag s = some (.error f)) : f = .malformed := by
  obtain ht | ⟨-, ht⟩ := hb.tag
  · exact hg.scalars hn hj hm hs (ht ▸ h)
  · rw [ht] at h
    exact nomatch h

/-- No mapping of a decodable graph is tagged as a timestamp. -/
theorem not_timestamp (hg : g.Decodable) {i : Nat} {n n' : Node}
    (hn : g.nodes[i]? = some n) (hb : n.Becomes n') (ht : n'.tag = .timestamp) :
    ¬ ∃ es, n'.content = .mapping es := by
  have htag : n.tag = .timestamp := by grind [hb.tag]
  have hmapping : ∀ es, n.content ≠ .mapping es := fun _ => hg.timestamps hn htag
  grind [hb.content]

end Graph.Decodable

/-- The document of a single scalar. -/
def Graph.ofScalar (t : Tag) (s : String) : Graph := ⟨#[⟨t, .scalar s⟩], 0⟩

/-- The nodes that a value refers to. -/
def Value.inner : Value → List Nat
  | .sequence items  => items
  | .pairs entries   => entries.flatMap fun e => [e.1, e.2]
  | .mapping entries => entries.map Prod.snd
  | _                => []

/-- The value that a node has got. -/
def valueAt (values : Array (Option Value)) (i : Nat) : Option Value := values[i]?.join

/-- Whether a node has got a value. -/
def HasValue (values : Array (Option Value)) (i : Nat) : Prop := (valueAt values i).isSome

/-- The number of nodes without a value. -/
def missing (values : Array (Option Value)) : Nat := values.countP Option.isNone

section Values

variable {values : Array (Option Value)} {i j : Nat} {v : Value}

/-- A value that is noted is found at its node, and the others as before. -/
theorem valueAt_set (hi : i < values.size) (v : Value) (j : Nat) :
    valueAt (values.setIfInBounds i (some v)) j = if i = j then some v else valueAt values j := by
  unfold valueAt
  rw [Array.getElem?_setIfInBounds, if_pos hi]
  split
  · simp
  · rfl

/-- A node that has a value keeps having one. -/
theorem HasValue.set (h : HasValue values j) (hi : i < values.size) (v : Value) :
    HasValue (values.setIfInBounds i (some v)) j := by
  unfold HasValue
  rw [valueAt_set hi]
  split
  · rfl
  · exact h

/-- There are at most as many nodes without a value as there are nodes. -/
theorem missing_le_size (values : Array (Option Value)) : missing values ≤ values.size :=
  Array.countP_le_size

theorem missing_set (hi : i < values.size) (v : Value) :
    missing (values.setIfInBounds i (some v)) ≤ missing values := by
  rw [Array.setIfInBounds_def, dif_pos hi, missing, Array.countP_set]
  exact Nat.sub_le ..

theorem missing_set_lt (hi : i < values.size) (hv : valueAt values i = none) (v : Value) :
    missing (values.setIfInBounds i (some v)) < missing values := by
  have hnone : values[i] = none := by simpa [valueAt, hi] using hv
  have hpos : 0 < missing values := Array.countP_pos_iff.mpr ⟨values[i], by simp, by simp [hnone]⟩
  rw [Array.setIfInBounds_def, dif_pos hi, missing, Array.countP_set]
  simp only [hnone, Option.isNone_none, if_true, Option.isNone_some, Bool.false_eq_true, if_false]
  exact Nat.sub_lt hpos Nat.one_pos

end Values

/-- What goes on to hold when more nodes get values. -/
def Lasting (r : Array (Option Value) → Prop) : Prop :=
  ∀ values values', (∀ i, HasValue values i → HasValue values' i) → r values → r values'

theorem Merging.imp {g : Graph} {limit : Nat} {r r' : Work → Prop} {w : Work} (hr : r w → r' w)
    (h : Merging g limit r w) : Merging g limit r' w :=
  { h with rest := hr h.rest }

/-- What holds of the values noted so far. -/
structure Noted (g : Graph) (level : List Nat) (room : Nat) (r : Array (Option Value) → Prop)
    (w : Work) : Prop where
  size    : w.values.size = g.nodes.size
  inner   : ∀ {i : Nat} {v : Value}, valueAt w.values i = some v →
    ∀ j ∈ v.inner, g.Contains i j ∧ HasValue w.values j
  waiting : ∀ {i : Nat}, valueAt w.values i = some .waiting → i ∈ w.pending ∨ i ∈ level
  room    : missing w.values + w.pending.length ≤ room
  rest    : r w.values

namespace Noted

variable {g : Graph} {level level' : List Nat} {room : Nat} {r r' : Array (Option Value) → Prop}
  {w : Work} {i : Nat} {v : Value}

theorem imp (hr : r w.values → r' w.values) (h : Noted g level room r w) :
    Noted g level room r' w :=
  { h with rest := hr h.rest }

theorem inner_set (h : Noted g level room r w) (hi : i < w.values.size)
    (hin : ∀ j ∈ v.inner, g.Contains i j ∧ HasValue w.values j) {k : Nat} {u : Value}
    (hk : valueAt (w.values.setIfInBounds i (some v)) k = some u) :
    ∀ j ∈ u.inner, g.Contains k j ∧ HasValue (w.values.setIfInBounds i (some v)) j := by
  intro j hj
  rw [valueAt_set hi] at hk
  split at hk
  · obtain rfl := Option.some.inj hk
    subst k
    exact ⟨(hin j hj).1, (hin j hj).2.set hi v⟩
  · exact ⟨(h.inner hk j hj).1, (h.inner hk j hj).2.set hi v⟩

/-- Where a node gets a value that refers to nodes with values. -/
theorem note (hr : Lasting r) (h : Noted g level room r w) (hi : i < g.nodes.size)
    (hv : v ≠ .waiting) (hin : ∀ j ∈ v.inner, g.Contains i j ∧ HasValue w.values j)
    (hl : ∀ j ∈ level, j ≠ i → j ∈ level') :
    Noted g level' room r { w with values := w.values.setIfInBounds i (some v) } := by
  have hi : i < w.values.size := h.size ▸ hi
  refine ⟨by simp [h.size], h.inner_set hi hin, fun {k} hk => ?_, ?_, ?_⟩
  · rw [valueAt_set hi] at hk
    split at hk
    · exact absurd (Option.some.inj hk) hv
    · exact (h.waiting hk).imp id fun hk' => hl k hk' (Ne.symm ‹_›)
  · exact (Nat.add_le_add_right (missing_set hi v) _).trans h.room
  · exact hr _ _ (fun _ hj => hj.set hi v) h.rest

/-- Where a collection is met for the first time. -/
theorem await (hr : Lasting r) (h : Noted g level room r w) (hi : i < g.nodes.size)
    (hv : valueAt w.values i = none) :
    Noted g level room r { w with values  := w.values.setIfInBounds i (some .waiting)
                                  pending := i :: w.pending } := by
  have hi : i < w.values.size := h.size ▸ hi
  refine ⟨by simp [h.size], h.inner_set hi fun _ hj => absurd hj List.not_mem_nil, fun {k} hk => ?_, ?_, ?_⟩
  · rw [valueAt_set hi] at hk
    split at hk
    · subst k
      exact .inl List.mem_cons_self
    · exact (h.waiting hk).imp (List.mem_cons_of_mem i) id
  · have := missing_set_lt hi hv .waiting
    have := h.room
    simp only [List.length_cons]
    omega
  · exact hr _ _ (fun _ hj => hj.set hi .waiting) h.rest

end Noted

/-- What holds while collections are filled. -/
abbrev Filling (g : Graph) (level : List Nat) (room : Nat) (r : Array (Option Value) → Prop)
    (w : Work) : Prop :=
  Merging g w.limit (Noted g level room r) w

namespace Build

variable {g : Graph} {level : List Nat} {room : Nat} {r : Array (Option Value) → Prop}

/-- A collection that is met for the first time. -/
theorem ends_await (hr : Lasting r) {i : Nat} {n : Node} {w : Work} (hw : Filling g level room r w)
    (hv : valueAt w.values i = none) :
    Ends (fun w' => w'.nodes[i]? = some n ∧ w' = w) IsMalformed
      (do note i .waiting
          modify fun w => { w with pending := i :: w.pending }
          return .waiting)
      fun v w => valueAt w.values i = some v ∧ Filling g level room r w := by
  refine Ends.known (fun w' hw' => hw'.2 ▸ hw'.1) fun (hn : w.nodes[i]? = some n) => ?_
  have hi : i < g.nodes.size := hw.nodes.size ▸ (Array.getElem?_eq_some_iff.mp hn).1
  refine Ends.bind (q := fun _ w' =>
    w' = { w with values := w.values.setIfInBounds i (some .waiting) })
    (Ends.modified fun w' hw' => by rw [hw'.2]) fun _ => ?_
  refine Ends.bind (q := fun _ w => valueAt w.values i = some .waiting ∧ Filling g level room r w)
    (Ends.modified fun w' hw' => ?_) fun _ => .pure fun _ => id
  subst hw'
  exact ⟨by rw [valueAt_set (hw.rest.size ▸ hi), if_pos rfl],
    ⟨hw.nodes, hw.merges, hw.rest.await hr hi hv⟩⟩

/-- A scalar, with the text of its default value where a mapping stands for one. -/
theorem ends_scalar (hg : g.Decodable) (hr : Lasting r) {i : Nat} {n : Node} {w : Work}
    (hw : Filling g level room r w) :
    Ends (fun w' => w'.nodes[i]? = some n ∧ w' = w) IsMalformed
      (do let s ← scalarText ((← get).nodes.size + 1) i
          match n.tag, n.content with
          | .timestamp, .mapping _ => throw .timestampMapping
          | _, _ => pure ()
          match scalarValue? n.tag s with
          | none => throw .malformed
          | some value =>
            let v := Value.scalar (← value)
            note i v
            return v)
      fun v w => valueAt w.values i = some v ∧ Filling g level room r w := by
  refine Ends.known (fun w' hw' => hw'.2 ▸ hw'.1) fun (hn : w.nodes[i]? = some n) => ?_
  obtain ⟨m, hm, hb⟩ := hw.nodes.node hn
  have hi : i < g.nodes.size := (Array.getElem?_eq_some_iff.mp hm).1
  have hrank : g.rank i < w.nodes.size + 1 := hw.nodes.size ▸ Nat.lt_succ_of_le (g.rank_le i)
  refine Ends.pre (fun w' hw' => hw'.2) (Ends.get_bind fun w' hw' => ?_)
  subst hw'
  refine Ends.bind (ends_scalarText (p := (· = w')) hg.acyclic (fun _ h => h ▸ hw.nodes) _ i hrank)
    fun s => ?_
  refine Ends.known (fun _ h => h.1) fun ⟨j, m', hj, hm', hs⟩ => ?_
  dsimp only
  split
  · exact absurd ⟨_, ‹_›⟩ (hg.not_timestamp hm hb ‹_›)
  · split
    · exact .throw rfl
    · rename_i value hvalue
      refine Ends.bind (Ends.lifted (q := fun _ => Filling g level room r) (fun _ _ _ h => h.2 ▸ hw)
        fun f hf => hg.malformed_of_scalarValue? hm hb hj hm' hs (hf ▸ hvalue)) fun d => ?_
      refine Ends.bind (q := fun _ w => valueAt w.values i = some (.scalar d) ∧
        Filling g level room r w) (Ends.modified fun w hw => ?_) fun _ => .pure fun _ => id
      exact ⟨by rw [valueAt_set (hw.rest.size ▸ hi), if_pos rfl],
        hw.nodes, hw.merges, hw.rest.note hr hi nofun nofun fun _ h _ => h⟩

/-- **A node of a decodable graph gets its value, or the text is malformed.** -/
theorem ends_construct (hg : g.Decodable) (hr : Lasting r) (i : Nat) :
    Ends (Filling g level room r) IsMalformed (construct i) fun v w =>
      valueAt w.values i = some v ∧ Filling g level room r w := by
  refine Ends.get_bind fun w hw => ?_
  split
  · exact .pure fun _ hw' => hw' ▸ ⟨‹_›, hw⟩
  · refine Ends.bind (ends_node i) fun n => ?_
    split
    case h_6 =>
      extract_lets rest
      split
      -- tags that no scalar has
      iterate 3 exact Ends.bind (q := fun _ _ => False) (.throw rfl) fun _ => nofun
      exact ends_scalar hg hr hw
    all_goals exact ends_await hr hw ‹_›

end Build

end SampleSchema.Yaml
