import SampleSchema.Proofs.Outcomes
import SampleSchema.Proofs.YamlValues

/-!
# Documents of node graphs

Of a decodable graph every collection is filled (`ends_fill`).  There are no more levels than nodes,
so that in the end no collection is left to be filled (`ends_all`), and every fault is one of a
malformed text (`Graph.Decodable.document`).
-/

namespace SampleSchema.Yaml

namespace Build

variable {g : Graph} {level : List Nat} {room : Nat} {r : Array (Option Value) → Prop}

/-- A new entry refers to its own value and to nothing else that is new. -/
theorem map_insertKey_subset (key : Datum) (value : Nat) : ∀ es : List (Datum × Nat),
    (insertKey key value es).map Prod.snd ⊆ value :: es.map Prod.snd
  | [] => List.Subset.refl _
  | (k, v) :: es => by
      unfold insertKey
      split
      · exact List.cons_subset_cons _ (List.subset_cons_self v _)
      · rintro j (_ | ⟨_, hj⟩)
        · exact List.mem_cons_of_mem _ List.mem_cons_self
        · have := map_insertKey_subset key value es hj
          grind

/-- Merging leaves the values alone. -/
theorem ends_merge {w : Work} (hw : Filling g level room r w) (i : Nat) :
    Ends (· = w) IsMalformed (flatten w.limit i []) fun _ => Filling g level room r := by
  refine ((ends_flatten (g := g) (r := fun w' => w'.limit = w.limit ∧ Noted g level room r w')
    (fun _ _ h => ⟨h.1, { h.2 with }⟩) w.limit i [] nofun).pre ?_).post ?_
  · rintro _ rfl
    exact ⟨hw.nodes, hw.merges, rfl, hw.rest⟩
  · exact fun _ w' h => ⟨h.2.nodes, h.2.rest.1 ▸ h.2.merges, h.2.rest.2⟩

/-- What holds when the nodes of `js`, which node `i` contains, have values. -/
def Found (g : Graph) (r : Array (Option Value) → Prop) (i : Nat) (js : List Nat)
    (values : Array (Option Value)) : Prop :=
  r values ∧ ∀ j ∈ js, g.Contains i j ∧ HasValue values j

/-- What was found stays found as more values are noted. -/
theorem lasting_found (hr : Lasting r) (i : Nat) (js : List Nat) : Lasting (Found g r i js) :=
  fun _ _ hv h => ⟨hr _ _ hv h.1, fun j hj => ⟨(h.2 j hj).1, hv j (h.2 j hj).2⟩⟩

theorem Found.mono {i : Nat} {js js' : List Nat} {values : Array (Option Value)} (hjs : js' ⊆ js)
    (h : Found g r i js values) : Found g r i js' values :=
  ⟨h.1, fun j hj => h.2 j (hjs hj)⟩

/-- Another node in a node gets its value. -/
theorem ends_constructIn (hg : g.Decodable) (hr : Lasting r) {i j : Nat} (hij : g.Contains i j)
    (js : List Nat) :
    Ends (Filling g level room (Found g r i js)) IsMalformed (construct j)
      fun _ => Filling g level room (Found g r i (j :: js)) :=
  (ends_construct hg (lasting_found hr i js) j).post fun _ _ hw =>
    hw.2.imp fun h => h.imp fun hf =>
      ⟨hf.1, List.forall_mem_cons.mpr ⟨⟨hij, Option.isSome_of_eq_some hw.1⟩, hf.2⟩⟩

/-- The keys of a mapping get their values, or the text is malformed. -/
theorem ends_mappingEntries (hg : g.Decodable) (hr : Lasting r) (i : Nat) :
    Ends (Filling g level room r) IsMalformed (mappingEntries i) fun es =>
      Filling g level room (Found g r i (es.map Prod.snd)) := by
  refine Ends.bind (ends_entries i) fun _ => ?_
  refine Ends.get_bind fun w hw => ?_
  refine Ends.bind (ends_merge hw.2 i) fun _ => ?_
  refine Ends.bind (ends_entries i) fun es => ?_
  have hcontains : ∀ w, (w.HasEntries i es ∧ Filling g level room r w) →
      ∀ e ∈ es, g.Contains i e.1 ∧ g.Contains i e.2 := fun w hw e he =>
    hw.2.contains_entry hw.1 he
  refine Ends.known hcontains fun hin => ?_
  refine Ends.pre (fun w hw => ?_) (Ends.foldlM
    (I := fun es : List (Datum × Nat) => Filling g level room (Found g r i (es.map Prod.snd)))
    fun done e he => ?_)
  · exact hw.2.imp fun h => h.imp fun hr => ⟨hr, nofun⟩
  · refine Ends.bind (ends_constructIn hg hr (hin e he).1 _) fun v => ?_
    split
    · rename_i key
      refine Ends.bind (ends_constructIn hg hr (hin e he).2 _) fun _ => .pure fun w hw => ?_
      refine hw.imp fun h => h.imp fun hf => hf.mono ?_
      have := map_insertKey_subset key e.2 done
      grind
    · exact .throw rfl

/-- A sequence contains its items. -/
theorem contains_of_items {i : Nat} {js : List Nat} {w : Work}
    (h : (∃ n, w.nodes[i]? = some n ∧ n.content = .sequence js) ∧ Filling g level room r w) :
    ∀ j ∈ js, g.Contains i j := by
  obtain ⟨⟨n, hn, hc⟩, hw⟩ := h
  exact fun j hj => hw.nodes.contains_item hn hc hj

theorem ends_pairEntries (hg : g.Decodable) (hr : Lasting r) (i : Nat) :
    Ends (Filling g level room r) IsMalformed (pairEntries i) fun es =>
      Filling g level room (Found g r i (es.flatMap fun e => [e.1, e.2])) := by
  refine Ends.bind (ends_items i) fun items => ?_
  refine Ends.known (fun _ => contains_of_items) fun hin => ?_
  refine Ends.pre (fun w hw => ?_) (Ends.mapM (I := fun es : List (Nat × Nat) =>
    Filling g level room (Found g r i (es.flatMap fun e => [e.1, e.2]))) []
    fun done j hj => ?_)
  · exact hw.2.imp fun h => h.imp fun hr => ⟨hr, nofun⟩
  · refine Ends.bind (ends_entries j) fun es => ?_
    split
    · rename_i k v
      have hkv : ∀ w, (w.HasEntries j [(k, v)] ∧ Filling g level room
          (Found g r i (done.flatMap fun e => [e.1, e.2])) w) → g.Contains i k ∧ g.Contains i v :=
        fun w hw =>
          have h := hw.2.contains_entry hw.1 (e := (k, v)) List.mem_cons_self
          ⟨(hin j hj).trans h.1, (hin j hj).trans h.2⟩
      refine Ends.known hkv fun hkv => Ends.pre (fun w hw => hw.2) ?_
      refine Ends.bind (ends_constructIn hg hr hkv.1 _) fun _ => ?_
      refine Ends.bind (ends_constructIn hg hr hkv.2 _) fun _ => .pure fun w hw => ?_
      refine hw.imp fun h => h.imp fun hf => hf.mono ?_
      grind
    · exact .throw rfl

/-- A collection of a level that has been filled. -/
theorem ends_note {i : Nat} {v : Value} (hr : Lasting r) (hv : v ≠ .waiting) :
    Ends (fun w => i < g.nodes.size ∧ Filling g (i :: level) room (Found g r i v.inner) w)
      IsMalformed (note i v) fun _ => Filling g level room r := by
  refine Ends.modified fun w ⟨hi, hw⟩ => ⟨hw.nodes, hw.merges, ?_⟩
  exact (hw.rest.imp fun hf => hf.1).note hr hi hv hw.rest.rest.2 fun j hj hji =>
    List.mem_of_ne_of_mem hji hj

theorem ends_fill (hg : g.Decodable) (hr : Lasting r) (i : Nat) :
    Ends (Filling g (i :: level) room r) IsMalformed (fill i) fun _ => Filling g level room r := by
  refine Ends.bind (ends_node i) fun n => ?_
  have hbound : ∀ w, (w.nodes[i]? = some n ∧ Filling g (i :: level) room r w) → i < g.nodes.size :=
    fun w ⟨hn, hw⟩ => hw.nodes.size ▸ (Array.getElem?_eq_some_iff.mp hn).1
  refine Ends.known hbound fun hi => Ends.pre (fun w hw => hw.2) ?_
  split
  · refine Ends.bind (ends_mappingEntries hg hr i) fun es => ?_
    exact (ends_note (v := .mapping es) hr nofun).pre fun w hw => ⟨hi, hw⟩
  · refine Ends.bind (ends_mappingEntries hg hr i) fun es => ?_
    exact (ends_note (v := .set) hr nofun).pre fun w hw =>
      ⟨hi, hw.imp fun h => h.imp fun hf => hf.mono nofun⟩
  · refine Ends.bind (ends_pairEntries hg hr i) fun es => ?_
    exact (ends_note (v := .pairs es) hr nofun).pre fun w hw => ⟨hi, hw⟩
  · refine Ends.bind (ends_pairEntries hg hr i) fun es => ?_
    exact (ends_note (v := .pairs es) hr nofun).pre fun w hw => ⟨hi, hw⟩
  · refine Ends.bind (ends_items i) fun items => ?_
    refine Ends.known (fun _ => contains_of_items) fun hin => ?_
    refine Ends.bind (Ends.pre (fun w hw => ?_) (Ends.forM
      (I := fun js => Filling g (i :: level) room (Found g r i js)) []
      fun done j hj => ?_)) fun _ => ?_
    · exact hw.2.imp fun h => h.imp fun hr => ⟨hr, nofun⟩
    · refine Ends.bind (ends_constructIn hg hr (hin j hj) _) fun _ => .pure fun w hw => ?_
      exact hw.imp fun h => h.imp fun hf => hf.mono (by grind)
    · exact (ends_note (v := .sequence items) hr nofun).pre fun w hw => ⟨hi, hw⟩

theorem ends_fillLevel (hg : g.Decodable) (hr : Lasting r) : ∀ level : List Nat,
    Ends (Filling g level room r) IsMalformed (level.forM fill) fun _ => Filling g [] room r
  | []         => .pure fun _ => id
  | i :: level => Ends.bind (ends_fill hg hr i) fun _ => ends_fillLevel hg hr level

/-- The next level is what has been met while a level was filled. -/
theorem filling_next {w : Work} (h : Filling g [] room r w) (hl : w.pending ⊆ level) :
    Filling g level (room - w.pending.length) r { w with pending := [] } := by
  refine ⟨h.nodes, h.merges, h.rest.size, h.rest.inner, fun hi => .inr ?_, ?_, h.rest.rest⟩
  · exact hl ((h.rest.waiting hi).resolve_right List.not_mem_nil)
  · have := h.rest.room
    simp only [List.length_nil]
    omega

/-- Each level has room for fewer nodes than the one before. -/
theorem ends_fillLevels (hg : g.Decodable) (hr : Lasting r) : ∀ (limit : Nat) (level : List Nat)
    (room : Nat), level = [] ∨ room < limit →
    Ends (fun w => Filling g level room r w ∧ w.pending = []) IsMalformed (fillLevels limit level)
      fun _ w => ∃ room, Filling g [] room r w ∧ w.pending = []
  | 0, level, room, hl => by
      obtain rfl := hl.resolve_right (Nat.not_lt_zero _)
      exact .pure fun w hw => ⟨room, hw⟩
  | limit + 1, level, room, hl => by
      unfold fillLevels
      split
      · rename_i hlevel
        have hroom : room < limit + 1 := hl.resolve_left (by simpa using hlevel)
        refine Ends.bind ((ends_fillLevel hg hr level).pre fun w hw => hw.1) fun _ => ?_
        refine Ends.get_bind fun w hw => ?_
        refine Ends.bind (q := fun _ w' =>
          Filling g w.pending.reverse (room - w.pending.length) r w' ∧ w'.pending = [])
          (Ends.modified ?_) fun _ => ends_fillLevels hg hr limit _ _ ?_
        · rintro _ rfl
          exact ⟨filling_next hw fun _ => List.mem_reverse.mpr, rfl⟩
        · have := hw.rest.room
          rw [List.reverse_eq_nil_iff, ← List.length_eq_zero_iff]
          omega
      · rename_i hlevel
        obtain rfl : level = [] := by simpa using hlevel
        exact .pure fun w hw => ⟨room, hw⟩

/-- When all values have been worked out, no collection is left to be filled. -/
theorem ends_all (hg : g.Decodable) (root : Nat) :
    Ends (Filling g [] g.nodes.size fun _ => True) IsMalformed (all root)
      fun _ w => ∃ room, Filling g [] room (HasValue · root) w ∧ w.pending = [] := by
  have hroot : Lasting (HasValue · root) := fun _ _ h => h root
  refine Ends.bind (ends_construct hg (fun _ _ _ => id) root) fun v => ?_
  refine Ends.get_bind fun w ⟨hv, hw⟩ => ?_
  have hw : Filling g [] g.nodes.size (HasValue · root) w :=
    hw.imp fun h => h.imp fun _ => Option.isSome_of_eq_some hv
  refine Ends.bind (q := fun _ w' => Filling g w.pending (g.nodes.size - w.pending.length)
    (HasValue · root) w' ∧ w'.pending = []) (Ends.modified ?_) fun _ => ?_
  · rintro _ rfl
    exact ⟨filling_next hw (List.Subset.refl _), rfl⟩
  · refine Ends.get_bind fun w' hw' => ?_
    have hlt : g.nodes.size - w.pending.length < w'.nodes.size + 1 := by
      have := hw'.1.nodes.size
      omega
    exact (ends_fillLevels hg hroot _ _ _ (.inr hlt)).pre fun _ h => h ▸ hw'

end Build

/-- What holds of the values of a document once they have been worked out. -/
structure Complete (g : Graph) (values : Array (Option Value)) : Prop where
  size   : values.size = g.nodes.size
  inner  : ∀ {i : Nat} {v : Value}, valueAt values i = some v →
    ∀ j ∈ v.inner, g.Contains i j ∧ HasValue values j
  filled : ∀ i, valueAt values i ≠ some .waiting

theorem complete_of_filling {g : Graph} {room : Nat} {r : Array (Option Value) → Prop} {w : Work}
    (h : Filling g [] room r w) (hp : w.pending = []) : Complete g w.values :=
  ⟨h.rest.size, h.rest.inner, fun _ hi => by simpa [hp] using h.rest.waiting hi⟩

theorem filling_start (g : Graph) : Filling g [] g.nodes.size (fun _ => True)
    { nodes := g.nodes, values := Array.replicate g.nodes.size none, limit := g.mergeKeys + 1 } := by
  have hnone : ∀ i, valueAt (Array.replicate g.nodes.size none) i = none := fun i => by
    simp only [valueAt, Array.getElem?_replicate]
    split <;> rfl
  have hmerges : mergesIn g g.nodes.toList < g.mergeKeys + 1 :=
    Nat.lt_succ_of_le (mergesIn_nodes g).le
  refine ⟨.self g, hmerges, by simp, ?_, ?_, ?_, trivial⟩
  · intro i v hv
    cases (hnone i).symm.trans hv
  · intro i hv
    cases (hnone i).symm.trans hv
  · simpa using missing_le_size (Array.replicate g.nodes.size none)

/-- The values of a decodable graph are worked out to the last one, or the text is malformed. -/
theorem Graph.Decodable.document {g : Graph} (hg : g.Decodable) :
    (∀ d, g.document = .ok d → ∃ values, d = documentOf values g.root ∧ Complete g values ∧
      HasValue values g.root) ∧ ∀ f, g.document = .error f → f = .malformed := by
  have hall := Build.ends_all hg g.root _ (filling_start g)
  unfold Graph.document StateT.run
  constructor
  · intro d hd
    obtain ⟨⟨u, w⟩, hw, h⟩ := ok_of_bind hd
    cases h
    obtain ⟨room, hf, hp⟩ := hall.1 u w hw
    exact ⟨w.values, rfl, complete_of_filling hf hp, hf.rest.rest⟩
  · intro f hf
    exact hall.2 f (error_of_return hf)

/-! ### Documents of a single scalar -/

section
variable {s : String} {v : Datum}

/-- A scalar has its value at once. -/
theorem Build.construct_ofScalar (h : scalarValue? .timestamp s = some (.ok v)) (limit : Nat) :
    construct 0 ⟨#[⟨.timestamp, .scalar s⟩], #[none], [], limit⟩ =
      .ok (.scalar v, ⟨#[⟨.timestamp, .scalar s⟩], #[some (.scalar v)], [], limit⟩) := by
  have hread : construct 0 ⟨#[⟨.timestamp, .scalar s⟩], #[none], [], limit⟩ =
      ((scalarValue? .timestamp s).elim (throw .malformed) fun value => do
        let v := Value.scalar (← value)
        note 0 v
        return v : Build Value) ⟨#[⟨.timestamp, .scalar s⟩], #[none], [], limit⟩ := rfl
  rw [hread, h]
  rfl

theorem Graph.document_ofScalar (h : scalarValue? .timestamp s = some (.ok v)) :
    (ofScalar .timestamp s).document = .ok (documentOf #[some (.scalar v)] 0) := by
  have hall : Build.all 0 ⟨#[⟨.timestamp, .scalar s⟩], #[none], [], 1⟩ =
      .ok ((), ⟨#[⟨.timestamp, .scalar s⟩], #[some (.scalar v)], [], 1⟩) := by
    unfold Build.all
    simp only [bind, StateT.bind, Build.construct_ofScalar h]
    rfl
  have hdocument : (ofScalar .timestamp s).document =
      Build.all 0 ⟨#[⟨.timestamp, .scalar s⟩], #[none], [], 1⟩ >>= fun r =>
        .ok (documentOf r.2.values 0) := by
    have hmerges : (ofScalar .timestamp s).mergeKeys = 0 := rfl
    unfold Graph.document
    rw [hmerges]
    rfl
  rw [hdocument, hall]
  rfl

/-- A stream of one timestamp is loaded to the document of its value. -/
theorem load_of_scalar
    (hgraphs : Graph.ofEvents (events (tokens s)) = ([.ofScalar .timestamp s], none))
    (h : scalarValue? .timestamp s = some (.ok v)) :
    load s = .ok [documentOf #[some (.scalar v)] 0] := by
  rw [load, hgraphs]
  simp only [List.mapM_cons, List.mapM_nil, Graph.document_ofScalar h]
  rfl

end

end SampleSchema.Yaml
