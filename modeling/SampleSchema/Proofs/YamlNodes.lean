import Mathlib.Algebra.BigOperators.Group.Finset.Basic
import Mathlib.Logic.Relation
import SampleSchema.Proofs.Faults
import SampleSchema.Yaml.Value

/-!
# Nodes while values are worked out

While the values of a document are worked out, mappings get other entries, but what stands in a node
later stood in it, at some depth, from the start (`NodesOf`).  Where no node contains itself, a node
has a greater rank than what it holds (`Graph.rank_lt`), so that the text of a node is found within
as many steps as there are nodes (`ends_scalarText`).
-/

namespace SampleSchema.Yaml

/-- The nodes that a content refers to. -/
def Content.inner : Content → List Nat
  | .scalar _       => []
  | .sequence items => items
  | .mapping es     => es.flatMap fun e => [e.1, e.2]

/-- A mapping refers to the keys and the values of its entries. -/
theorem Content.mem_inner_mapping {es : List (Nat × Nat)} {j : Nat} :
    j ∈ (Content.mapping es).inner ↔ ∃ e ∈ es, j = e.1 ∨ j = e.2 := by
  simp [inner]

namespace Graph

/-- Whether a node refers to another one. -/
def Holds (g : Graph) (i j : Nat) : Prop := ∃ n, g.nodes[i]? = some n ∧ j ∈ n.content.inner

/-- Whether a node holds another one, at some depth. -/
abbrev Contains (g : Graph) : Nat → Nat → Prop := Relation.TransGen g.Holds

/-- Whether no node contains itself. -/
def IsAcyclic (g : Graph) : Prop := ∀ i, ¬ g.Contains i i

variable {g : Graph} {i j : Nat}

/-- A node that contains another is a node of the graph. -/
theorem Contains.lt_size (h : g.Contains i j) : i < g.nodes.size := by
  obtain ⟨k, ⟨n, hn, -⟩, -⟩ := Relation.TransGen.head'_iff.mp h
  exact (Array.getElem?_eq_some_iff.mp hn).1

open Classical in
/-- The number of nodes that are, or are in, a node. -/
noncomputable def rank (g : Graph) (i : Nat) : Nat :=
  ((Finset.range g.nodes.size).filter fun j => Relation.ReflTransGen g.Holds i j).card

/-- There are at most as many nodes inside of a node as there are nodes. -/
theorem rank_le (g : Graph) (i : Nat) : g.rank i ≤ g.nodes.size := by
  classical
  calc g.rank i ≤ (Finset.range g.nodes.size).card := Finset.card_filter_le ..
    _ = g.nodes.size := Finset.card_range _

/-- Where no node contains itself, a node ranks above all nodes that it contains. -/
theorem rank_lt (hg : g.IsAcyclic) (h : g.Contains i j) : g.rank j < g.rank i := by
  classical
  refine Finset.card_lt_card ((Finset.ssubset_iff_of_subset fun k hk => ?_).mpr ⟨i, ?_, ?_⟩)
  · rw [Finset.mem_filter] at hk ⊢
    exact ⟨hk.1, h.to_reflTransGen.trans hk.2⟩
  · exact Finset.mem_filter.mpr ⟨Finset.mem_range.mpr h.lt_size, .refl⟩
  · exact fun hi => hg i (h.trans_left (Finset.mem_filter.mp hi).2)

end Graph

/-- What a node may become: the mark of a default value becomes a text, and a mapping may get other
entries. -/
structure Node.Becomes (n n' : Node) : Prop where
  tag     : n'.tag = n.tag ∨ n.tag = .defaultValue ∧ n'.tag = .text
  content : n'.content = n.content ∨
    (∃ es, n.content = .mapping es) ∧ ∃ es, n'.content = .mapping es

namespace Node.Becomes

variable {n n' n'' : Node}

theorem refl (n : Node) : n.Becomes n := ⟨.inl rfl, .inl rfl⟩

theorem trans (h : n.Becomes n') (h' : n'.Becomes n'') : n.Becomes n'' where
  tag := by grind [h.tag, h'.tag]
  content := by grind [h.content, h'.content]

theorem scalar_iff (h : n.Becomes n') {s : String} :
    n'.content = .scalar s ↔ n.content = .scalar s := by grind [h.content]

theorem merge_iff (h : n.Becomes n') : n'.tag = .merge ↔ n.tag = .merge := by grind [h.tag]

end Node.Becomes

/-- Whether nodes are those of a document, changed by merging. -/
structure NodesOf (g : Graph) (nodes : Array Node) : Prop where
  size  : nodes.size = g.nodes.size
  node  : ∀ {i : Nat} {n' : Node}, nodes[i]? = some n' →
    ∃ n, g.nodes[i]? = some n ∧ n.Becomes n'
  inner : ∀ {i : Nat} {n' : Node}, nodes[i]? = some n' → ∀ j ∈ n'.content.inner, g.Contains i j

namespace NodesOf

variable {g : Graph} {nodes : Array Node} {i : Nat} {n : Node}

theorem self (g : Graph) : NodesOf g g.nodes :=
  ⟨rfl, fun hn => ⟨_, hn, .refl _⟩, fun hn _ hj => .single ⟨_, hn, hj⟩⟩

/-- A node may be replaced by one that it becomes, if that refers to what the node contains only. -/
theorem modify {f : Node → Node} (h : NodesOf g nodes)
    (hf : ∀ n, nodes[i]? = some n → n.Becomes (f n) ∧ ∀ j ∈ (f n).content.inner, g.Contains i j) :
    NodesOf g (nodes.modify i f) where
  size := by rw [Array.size_modify, h.size]
  node {k n'} hn' := by
    rw [Array.getElem?_modify] at hn'
    split at hn'
    · subst k
      obtain ⟨m, hm, rfl⟩ := Option.map_eq_some_iff.mp hn'
      obtain ⟨n, hn, hb⟩ := h.node hm
      exact ⟨n, hn, hb.trans (hf m hm).1⟩
    · exact h.node hn'
  inner {k n'} hn' := by
    rw [Array.getElem?_modify] at hn'
    split at hn'
    · subst k
      obtain ⟨m, hm, rfl⟩ := Option.map_eq_some_iff.mp hn'
      exact (hf m hm).2
    · exact h.inner hn'

/-- The keys and the values of a mapping were inside of its node from the start. -/
theorem contains_entry {es : List (Nat × Nat)} (h : NodesOf g nodes) (hn : nodes[i]? = some n)
    (hes : n.content = .mapping es) {e : Nat × Nat} (he : e ∈ es) :
    g.Contains i e.1 ∧ g.Contains i e.2 := by
  have hi := h.inner hn
  simp only [hes, Content.mem_inner_mapping] at hi
  exact ⟨hi _ ⟨e, he, .inl rfl⟩, hi _ ⟨e, he, .inr rfl⟩⟩

/-- The items of a sequence were inside of its node from the start. -/
theorem contains_item {js : List Nat} (h : NodesOf g nodes) (hn : nodes[i]? = some n)
    (hjs : n.content = .sequence js) {j : Nat} (hj : j ∈ js) : g.Contains i j :=
  h.inner hn j (by rwa [hjs])

end NodesOf

/-- The fault of a text that breaks the rules. -/
def IsMalformed (f : Fault) : Prop := f = .malformed

/-- Whether a node is a mapping with the given entries. -/
def Work.HasEntries (w : Work) (i : Nat) (es : List (Nat × Nat)) : Prop :=
  ∃ n, w.nodes[i]? = some n ∧ n.content = .mapping es

namespace Build

variable {g : Graph} {p : Work → Prop}

/-- A node is found, or the text is malformed, and nothing changes. -/
theorem ends_node (i : Nat) : Ends p IsMalformed (node i) fun n w => w.nodes[i]? = some n ∧ p w := by
  refine Ends.get_bind fun w hw => ?_
  split
  · exact .pure fun _ he => by
      subst he
      exact ⟨‹_›, hw⟩
  · exact .throw rfl

/-- The entries of a mapping are found, or the text is malformed, and nothing changes. -/
theorem ends_entries (i : Nat) : Ends p IsMalformed (entries i) fun es w =>
    w.HasEntries i es ∧ p w := by
  refine Ends.bind (ends_node i) fun n => ?_
  split
  · exact .pure fun w hw => ⟨⟨n, hw.1, ‹_›⟩, hw.2⟩
  · exact .throw rfl

/-- The items of a sequence are found, or the text is malformed, and nothing changes. -/
theorem ends_items (i : Nat) : Ends p IsMalformed (items i) fun js w =>
    (∃ n, w.nodes[i]? = some n ∧ n.content = .sequence js) ∧ p w := by
  refine Ends.bind (ends_node i) fun n => ?_
  split
  · exact .pure fun w hw => ⟨⟨n, hw.1, ‹_›⟩, hw.2⟩
  · exact .throw rfl

/-- Whether entries have been split at one whose key has the tag, if there is one. -/
def IsSplit (nodes : Array Node) (t : Tag) (es : List (Nat × Nat)) :
    Option (List (Nat × Nat) × Nat × List (Nat × Nat)) → Prop
  | none => ∀ e ∈ es, ∃ n, nodes[e.1]? = some n ∧ n.tag ≠ t
  | some (before, v, after) =>
    ∃ k n, es = before ++ (k, v) :: after ∧ nodes[k]? = some n ∧ n.tag = t

theorem ends_splitAtTag (t : Tag) : ∀ (es : List (Nat × Nat)) (p : Work → Prop),
    Ends p IsMalformed (splitAtTag t es) fun r w => IsSplit w.nodes t es r ∧ p w
  | [], _ => .pure fun _ hw => ⟨nofun, hw⟩
  | (k, v) :: es, p => by
      refine Ends.bind (ends_node k) fun n => ?_
      split
      · exact .pure fun w hw => ⟨⟨k, n, rfl, hw.1, ‹_›⟩, hw.2⟩
      · refine Ends.bind (ends_splitAtTag t es _) fun r => .pure fun w ⟨hr, hn, hw⟩ => ⟨?_, hw⟩
        cases r with
        | none => exact List.forall_mem_cons.mpr ⟨⟨n, hn, ‹_›⟩, hr⟩
        | some r =>
            obtain ⟨k', n', rfl, hn'⟩ := hr
            exact ⟨k', n', rfl, hn'⟩

/-- The text of a node that stands for a scalar is one that it is or contains. -/
theorem ends_scalarText (hg : g.IsAcyclic) (hp : ∀ w, p w → NodesOf g w.nodes) :
    ∀ (depth i : Nat), g.rank i < depth → Ends p IsMalformed (scalarText depth i) fun s w =>
      (∃ j n, Relation.ReflTransGen g.Holds i j ∧ g.nodes[j]? = some n ∧ n.content = .scalar s) ∧
        p w
  | 0, _, h => absurd h (Nat.not_lt_zero _)
  | depth + 1, i, h => by
      refine Ends.bind (ends_node i) fun n => ?_
      split
      · rename_i s hs
        refine .pure fun w ⟨hn, hw⟩ => ⟨?_, hw⟩
        obtain ⟨m, hm, hb⟩ := (hp w hw).node hn
        exact ⟨i, m, .refl, hm, hb.scalar_iff.mp hs⟩
      · exact .throw rfl
      · rename_i es hes
        refine Ends.bind (ends_splitAtTag .defaultValue es _) fun r => ?_
        split
        · rename_i before v after
          -- the default value is contained in the mapping, whatever was merged into it
          have hin : ∀ w, IsSplit w.nodes .defaultValue es (some (before, v, after)) ∧
              w.nodes[i]? = some n ∧ p w → g.Contains i v := by
            rintro w ⟨⟨k, -, rfl, -⟩, hn, hw⟩
            exact ((hp w hw).contains_entry hn hes (e := (k, v)) (by simp)).2
          refine Ends.known hin fun hv => Ends.pre (fun w hw => hw.2.2) ?_
          refine (ends_scalarText hg hp depth v ?_).post ?_
          · exact Nat.lt_of_lt_of_le (Graph.rank_lt hg hv) (Nat.lt_succ_iff.mp h)
          · rintro s w ⟨⟨j, m, hj, hm⟩, hw⟩
            exact ⟨⟨j, m, hv.to_reflTransGen.trans hj, hm⟩, hw⟩
        · exact .throw rfl

end Build

end SampleSchema.Yaml
