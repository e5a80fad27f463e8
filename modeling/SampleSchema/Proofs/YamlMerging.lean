import SampleSchema.Proofs.YamlNodes

/-!
# Merging mappings

Merging puts into a mapping what other mappings in it hold.  What is put into it merges nothing, and
the mapping contained it before (`Graph.Admits`); each merge key is taken out when it is followed, so
that there are fewer and fewer of them and merging ends (`ends_flatten`).
-/

namespace SampleSchema.Yaml

/-- Whether a node is the key of a merge. -/
def Graph.IsMergeKey (g : Graph) (j : Nat) : Prop := g.nodes[j]?.map Node.tag = some .merge

instance (g : Graph) (j : Nat) : Decidable (g.IsMergeKey j) := inferInstanceAs (Decidable (_ = _))

/-- The number of merge keys in a content. -/
def Content.merges (g : Graph) : Content → Nat
  | .mapping es => es.countP fun e => g.IsMergeKey e.1
  | _           => 0

/-- The number of merge keys in nodes. -/
def mergesIn (g : Graph) : List Node → Nat
  | []      => 0
  | n :: ns => n.content.merges g + mergesIn g ns

@[simp] theorem Content.merges_mapping (g : Graph) (es : List (Nat × Nat)) :
    (Content.mapping es).merges g = es.countP fun e => g.IsMergeKey e.1 := rfl

/-- At first the nodes have the merge keys of the graph. -/
theorem mergesIn_nodes (g : Graph) : mergesIn g g.nodes.toList = g.mergeKeys := by
  unfold Graph.mergeKeys
  rw [← List.sum_eq_foldl]
  induction g.nodes.toList with
  | nil => rfl
  | cons n ns ih =>
      rw [mergesIn, ih, List.map_cons, List.sum_cons]
      congr 1
      cases n.content <;> simp [Content.merges, Graph.IsMergeKey, List.countP_eq_length_filter]

/-- Replacing a node changes the number of merge keys by those of its content. -/
theorem mergesIn_modify {g : Graph} {n : Node} (f : Node → Node) : ∀ {ns : List Node} {i : Nat},
    ns[i]? = some n →
      mergesIn g (ns.modify i f) + n.content.merges g = mergesIn g ns + (f n).content.merges g
  | [], _, h => nomatch h
  | m :: ns, 0, h => by
      obtain rfl : m = n := by simpa using h
      simp only [List.modify_zero_cons, mergesIn]
      omega
  | m :: ns, i + 1, h => by
      have ih := mergesIn_modify (g := g) f (show ns[i]? = some n by simpa using h)
      simp only [List.modify_succ_cons, mergesIn]
      omega

/-- Whether an entry may be put into a mapping: its key merges nothing, and the mapping contains
it. -/
structure Graph.Admits (g : Graph) (i : Nat) (e : Nat × Nat) : Prop where
  plain : ¬ g.IsMergeKey e.1
  key   : g.Contains i e.1
  value : g.Contains i e.2

/-- What a node admits, a node around it admits. -/
theorem Graph.Admits.outer {g : Graph} {i j : Nat} {e : Nat × Nat} (h : g.Admits j e)
    (hij : g.Contains i j) : g.Admits i e :=
  ⟨h.plain, hij.trans h.key, hij.trans h.value⟩

/-- The nodes after a node has got other entries. -/
def Work.withEntries (w : Work) (i : Nat) (es : List (Nat × Nat)) : Work :=
  { w with nodes := w.nodes.modify i fun n => { n with content := .mapping es } }

/-- The node where the mark of a default value has become a text. -/
def Node.unmarked (n : Node) : Node := if n.tag = .defaultValue then { n with tag := .text } else n

@[simp] theorem Node.content_unmarked (n : Node) : n.unmarked.content = n.content := by
  unfold unmarked
  split <;> rfl

/-- A node becomes itself without its mark. -/
theorem Node.becomes_unmarked (n : Node) : n.Becomes n.unmarked := by
  refine ⟨?_, .inl n.content_unmarked⟩
  unfold unmarked
  split
  · exact .inr ⟨‹_›, rfl⟩
  · exact .inl rfl

/-- The nodes after a node has lost the mark of a default value. -/
def Work.unmark (w : Work) (i : Nat) : Work := { w with nodes := w.nodes.modify i Node.unmarked }

/-- Without a mark on a node the entries are the same. -/
theorem Work.hasEntries_unmark {w : Work} {i k : Nat} {es : List (Nat × Nat)} :
    (w.unmark k).HasEntries i es ↔ w.HasEntries i es := by
  unfold HasEntries unmark
  rw [Array.getElem?_modify]
  split
  · cases w.nodes[i]? <;> simp
  · rfl

/-- Without a mark on a node there are as many merge keys. -/
theorem mergesIn_unmark {g : Graph} : ∀ (ns : List Node) (i : Nat),
    mergesIn g (ns.modify i Node.unmarked) = mergesIn g ns
  | [], i => by cases i <;> rfl
  | n :: ns, 0 => by simp only [List.modify_zero_cons, mergesIn, Node.content_unmarked]
  | n :: ns, i + 1 => by simp only [List.modify_succ_cons, mergesIn, mergesIn_unmark ns i]

/-- A node has the entries that it is given. -/
theorem Work.HasEntries.withEntries {w : Work} {i : Nat} {es : List (Nat × Nat)}
    (h : w.HasEntries i es) (es' : List (Nat × Nat)) : (w.withEntries i es').HasEntries i es' := by
  obtain ⟨n, hn, -⟩ := h
  exact ⟨{ n with content := .mapping es' }, by simp [Work.withEntries, Array.getElem?_modify, hn],
    rfl⟩

/-- Whether a condition is on something else than the nodes. -/
def IsElsewhere (r : Work → Prop) : Prop := ∀ w nodes, r w → r { w with nodes := nodes }

/-- What holds while mappings are merged: there are fewer merge keys than the limit. -/
structure Merging (g : Graph) (limit : Nat) (r : Work → Prop) (w : Work) : Prop where
  nodes  : NodesOf g w.nodes
  merges : mergesIn g w.nodes.toList < limit
  rest   : r w

/-- Whether nothing is left to be merged into a node. -/
def IsMerged (g : Graph) (i : Nat) (w : Work) : Prop :=
  ∀ es, w.HasEntries i es → ∀ e ∈ es, ¬ g.IsMergeKey e.1

/-- A node has one list of entries. -/
theorem Work.HasEntries.unique {w : Work} {i : Nat} {es es' : List (Nat × Nat)}
    (h : w.HasEntries i es) (h' : w.HasEntries i es') : es = es' := by
  obtain ⟨n, hn, hes⟩ := h
  obtain ⟨n', hn', hes'⟩ := h'
  grind

theorem NodesOf.isMergeKey_iff {g : Graph} {nodes : Array Node} {i : Nat} {n' : Node}
    (h : NodesOf g nodes) (hn : nodes[i]? = some n') : g.IsMergeKey i ↔ n'.tag = .merge := by
  obtain ⟨n, hn, hb⟩ := h.node hn
  rw [hb.merge_iff, Graph.IsMergeKey, hn]
  simp

namespace Merging

variable {g : Graph} {limit limit' : Nat} {r : Work → Prop} {w : Work} {i : Nat}
  {es es' : List (Nat × Nat)}

/-- While merging, a node contains what its entries refer to. -/
theorem contains_entry (h : Merging g limit r w) (hes : w.HasEntries i es) {e : Nat × Nat}
    (he : e ∈ es) : g.Contains i e.1 ∧ g.Contains i e.2 := by
  obtain ⟨n, hn, hc⟩ := hes
  exact h.nodes.contains_entry hn hc he

theorem admits (h : Merging g limit r w) (hm : IsMerged g i w) (hes : w.HasEntries i es) :
    ∀ e ∈ es, g.Admits i e := fun e he =>
  have hc := h.contains_entry hes he
  ⟨hm es hes e he, hc.1, hc.2⟩

theorem isMerged_of_isSplit (h : Merging g limit r w) (hes : w.HasEntries i es)
    (hs : Build.IsSplit w.nodes .merge es none) : IsMerged g i w := by
  intro es' hes' e he
  obtain rfl := hes.unique hes'
  obtain ⟨n, hn, ht⟩ := hs e he
  rwa [h.nodes.isMergeKey_iff hn]

theorem withEntries (hr : IsElsewhere r) (h : Merging g limit r w)
    (hes : w.HasEntries i es) (hc : ∀ e ∈ es', g.Contains i e.1 ∧ g.Contains i e.2)
    (hm : limit + (Content.mapping es').merges g ≤ limit' + (Content.mapping es).merges g) :
    Merging g limit' r (w.withEntries i es') := by
  obtain ⟨n, hn, hes⟩ := hes
  have hnodes : NodesOf g (w.withEntries i es').nodes :=
    h.nodes.modify (f := fun n => { n with content := .mapping es' }) fun m hm => by
      rw [hn] at hm
      obtain rfl := Option.some.inj hm
      refine ⟨⟨.inl rfl, .inr ⟨⟨es, hes⟩, es', rfl⟩⟩, fun j hj => ?_⟩
      obtain ⟨e, he, rfl | rfl⟩ := Content.mem_inner_mapping.mp hj
      exacts [(hc e he).1, (hc e he).2]
  have hsum := mergesIn_modify (g := g) (fun n => { n with content := .mapping es' })
    (show w.nodes.toList[i]? = some n by simpa using hn)
  have hlt := h.merges
  rw [hes] at hsum
  have hmerges : mergesIn g (w.withEntries i es').nodes.toList < limit' := by
    simp only [Work.withEntries, Array.toList_modify, Content.merges_mapping] at hsum hm ⊢
    omega
  exact ⟨hnodes, hmerges, hr w _ h.rest⟩

theorem unmark (hr : IsElsewhere r) (h : Merging g limit r w)
    (k : Nat) : Merging g limit r (w.unmark k) := by
  refine ⟨h.nodes.modify fun n hn => ⟨n.becomes_unmarked, ?_⟩, ?_, hr w _ h.rest⟩
  · rw [n.content_unmarked]
    exact h.nodes.inner hn
  · rw [Work.unmark, Array.toList_modify, mergesIn_unmark]
    exact h.merges

/-- Taking a merge key out of a mapping leaves one less. -/
theorem takeOut (hr : IsElsewhere r) (h : Merging g (limit + 1) r w) (hes : w.HasEntries i es)
    {before after : List (Nat × Nat)} {source : Nat}
    (hs : Build.IsSplit w.nodes .merge es (some (before, source, after))) :
    g.Contains i source ∧ Merging g limit r (w.withEntries i (before ++ after)) := by
  obtain ⟨k, n, rfl, hn, ht⟩ := hs
  have hin := fun e => h.contains_entry hes (e := e)
  refine ⟨(hin (k, source) (by simp)).2, h.withEntries hr hes (fun e he => hin e (by grind)) ?_⟩
  have hk : g.IsMergeKey k := (h.nodes.isMergeKey_iff hn).mpr ht
  simp only [Content.merges_mapping, List.countP_append, List.countP_cons, hk, decide_true, if_true]
  omega

end Merging

namespace Build

variable {g : Graph} {limit : Nat} {r : Work → Prop} {i : Nat}

/-- Entries that are admitted are put into a mapping, and the marks of default values among their
keys become texts. -/
theorem ends_put (hr : IsElsewhere r) {es : List (Nat × Nat)} (hes : ∀ e ∈ es, g.Admits i e) :
    Ends (fun w => (∃ old, w.HasEntries i old) ∧ Merging g limit r w) IsMalformed
      (do change i fun n => { n with content := .mapping es }
          es.forM fun e => change e.1 fun n =>
            if n.tag = .defaultValue then { n with tag := .text } else n)
      fun _ w => IsMerged g i w ∧ Merging g limit r w := by
  have hnone : (Content.mapping es).merges g = 0 := by
    rw [Content.merges_mapping, List.countP_eq_zero]
    exact fun e he => by simpa using (hes e he).plain
  refine Ends.bind (q := fun _ w => w.HasEntries i es ∧ Merging g limit r w)
    (Ends.modified fun w ⟨⟨old, hold⟩, hw⟩ => ⟨hold.withEntries es, ?_⟩) fun _ => ?_
  · exact hw.withEntries hr hold (fun e he => ⟨(hes e he).key, (hes e he).value⟩) (by omega)
  · refine (Ends.keeps_forM fun e _ => Ends.modified fun w hw =>
      ⟨Work.hasEntries_unmark.mpr hw.1, hw.2.unmark hr e.1⟩).post fun _ w ⟨hw, hm⟩ => ⟨?_, hm⟩
    intro es' hes' e he
    obtain rfl := hw.unique hes'
    exact (hes e he).plain

/-- The entries of the mappings of a sequence, each of them after what it merges in. -/
theorem ends_parts {sources : List Nat} (hin : ∀ j ∈ sources, g.Contains i j)
    (hflatten : ∀ j, Ends (Merging g limit r) IsMalformed (flatten limit j [])
      fun _ w => IsMerged g j w ∧ Merging g limit r w) :
    Ends (Merging g limit r) IsMalformed
      (sources.mapM fun j => do
        let _ ← entries j
        flatten limit j []
        entries j)
      fun parts w => (∀ part ∈ parts, ∀ e ∈ part, g.Admits i e) ∧ Merging g limit r w := by
  refine Ends.pre (fun w hw => ?_) (Ends.mapM
    (I := fun parts w => (∀ part ∈ parts, ∀ e ∈ part, g.Admits i e) ∧ Merging g limit r w)
    [] fun done j hj => ?_)
  · exact ⟨nofun, hw⟩
  · refine Ends.known (fun w hw => hw.1) fun hdone => ?_
    refine Ends.bind (ends_entries j) fun _ => ?_
    refine Ends.bind ((hflatten j).pre fun w hw => hw.2.2) fun _ => ?_
    refine (ends_entries j).post fun part w hw => ⟨?_, hw.2.2⟩
    refine List.forall_mem_append.mpr ⟨hdone, List.forall_mem_singleton.mpr fun e he => ?_⟩
    exact (hw.2.2.admits hw.2.1 hw.1 e he).outer (hin j hj)

/-- Merging ends where the limit is greater than the number of merge keys. -/
theorem ends_flatten (hr : IsElsewhere r) : ∀ (limit i : Nat) (merged : List (Nat × Nat)),
    (∀ e ∈ merged, g.Admits i e) → Ends (Merging g limit r) IsMalformed (flatten limit i merged)
      fun _ w => IsMerged g i w ∧ Merging g limit r w
  | 0, _, _, _ => fun _ hw => absurd hw.merges (Nat.not_lt_zero _)
  | limit + 1, i, merged, hmerged => by
      refine Ends.bind (ends_entries i) fun es => ?_
      refine Ends.bind (ends_splitAtTag .merge es _) fun split => ?_
      split
      · refine Ends.bind (ends_entries i) fun es' => ?_
        have hadmits : ∀ w, (w.HasEntries i es' ∧ IsSplit w.nodes .merge es none ∧
            w.HasEntries i es ∧ Merging g (limit + 1) r w) → ∀ e ∈ merged ++ es', g.Admits i e :=
          fun w ⟨hes', hs, hes, hw⟩ => List.forall_mem_append.mpr
            ⟨hmerged, hw.admits (hw.isMerged_of_isSplit hes hs) hes'⟩
        exact Ends.known hadmits fun hes => (ends_put hr hes).pre fun w hw =>
          ⟨⟨es', hw.1⟩, hw.2.2.2⟩
      · rename_i before source after
        refine Ends.known (fun w hw => (hw.2.2.takeOut hr hw.2.1 hw.1).1) fun hsource => ?_
        refine Ends.bind (q := fun _ => Merging g limit r)
          (Ends.modified fun w hw => (hw.2.2.takeOut hr hw.2.1 hw.1).2) fun _ => ?_
        refine Ends.bind (ends_node source) fun n => ?_
        -- what the merge key names is admitted, and then the other merge keys are followed
        have hflatten : ∀ j, Ends (Merging g limit r) IsMalformed (flatten limit j [])
            fun _ w => IsMerged g j w ∧ Merging g limit r w := fun j =>
          ends_flatten hr limit j [] nofun
        have hrest : ∀ more, (∀ e ∈ more, g.Admits i e) →
            Ends (Merging g limit r) IsMalformed (flatten limit i (merged ++ more))
              fun _ w => IsMerged g i w ∧ Merging g (limit + 1) r w := fun more hmore =>
          have hall := List.forall_mem_append.mpr ⟨hmerged, hmore⟩
          (ends_flatten hr limit i (merged ++ more) hall).post fun _ w hw =>
            ⟨hw.1, hw.2.nodes, Nat.lt_succ_of_lt hw.2.merges, hw.2.rest⟩
        split
        · exact .throw rfl
        · refine Ends.bind ((hflatten source).pre fun w hw => hw.2) fun _ => ?_
          refine Ends.bind (ends_entries source) fun more => ?_
          refine Ends.known (fun w hw e he => (hw.2.2.admits hw.2.1 hw.1 e he).outer hsource)
            fun hmore => (hrest more hmore).pre fun w hw => hw.2.2
        · rename_i sources hsources
          have hin : ∀ w, (w.nodes[source]? = some n ∧ Merging g limit r w) →
              ∀ j ∈ sources, g.Contains i j := fun w hw j hj =>
            hsource.trans (hw.2.nodes.contains_item hw.1 hsources hj)
          refine Ends.known hin fun hin => ?_
          refine Ends.bind ((ends_parts hin hflatten).pre fun w hw => hw.2) fun parts => ?_
          refine Ends.known (fun w hw => hw.1) fun hparts => ?_
          refine (hrest _ fun e he => ?_).pre fun w hw => hw.2
          obtain ⟨part, hpart, he⟩ := List.mem_flatten.mp he
          exact hparts part (List.mem_reverse.mp hpart) e he

end Build

end SampleSchema.Yaml
