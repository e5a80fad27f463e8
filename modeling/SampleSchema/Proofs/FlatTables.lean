import SampleSchema.Proofs.Rearrangement
import SampleSchema.Proofs.TableRows
import SampleSchema.Proofs.UniformValues
import SampleSchema.Standard

/-!
# Schemas of tables are flat

The records of a table are objects with the same fields, so a run over them gives a single definition
with one field for each column of the header.  Every record has every field, and what stands in a
column is null or of one kind, so that no field is optional and there is nothing to record
(`run_over_table`).
-/

namespace SampleSchema

namespace Observation

/-! ### Objects with the same fields -/

variable {os : List (List (String × Observation))} {ns : List String}

/-- Objects with the same fields have the names of each. -/
theorem names_of_same (hne : os ≠ []) (hns : ns.Nodup) (h : ∀ fs ∈ os, fs.map Prod.fst = ns) :
    names os = ns := by
  cases os with
  | nil => exact absurd rfl hne
  | cons fs os =>
      have hfirst : names [fs] = ns := by
        rw [names, List.flatMap_singleton, h fs List.mem_cons_self, eraseDups_of_nodup hns]
      have hrest : (names os).filter (fun name => !ns.contains name) = [] := by
        refine List.filter_eq_nil_iff.mpr fun name hname => ?_
        obtain ⟨fs', hfs', hmem⟩ := mem_names.mp hname
        rw [h fs' (List.mem_cons_of_mem fs hfs')] at hmem
        simpa using hmem
      rw [← List.singleton_append, names_append, hfirst, hrest, List.append_nil]

/-- A field that every object has. -/
theorem fieldOf_of_same {name : String} (h : ∀ fs ∈ os, name ∈ fs.map Prod.fst) :
    fieldOf os name = ⟨name, summary (valuesUnder name os), false, os.length, os.length⟩ := by
  have hlt : ¬ (valuesUnder name os).length < os.length := fun hlt => by
    obtain ⟨fs, hfs, hno⟩ := length_valuesUnder_lt_iff.mp hlt
    exact hno (h fs hfs)
  have heq : (valuesUnder name os).length = os.length :=
    Nat.le_antisymm (length_valuesUnder_le name os) (Nat.not_lt.mp hlt)
  rw [fieldOf, decide_eq_false hlt, heq]
  rfl

/-- What stands under a name is the value of a field of this name. -/
theorem exists_field_of_mem_valuesUnder {name : String} {x : Observation}
    (h : x ∈ valuesUnder name os) : ∃ fs ∈ os, (name, x) ∈ fs := by
  obtain ⟨fs, hfs, hx⟩ := List.mem_filterMap.mp h
  obtain ⟨before, after, rfl, -⟩ := List.lookup_eq_some_iff.mp hx
  exact ⟨_, hfs, by simp⟩

end Observation

open Observation

/-! ### Observed records -/

namespace Table

variable {hints header : List String} {vs : List Sample}

/-- Whether an observation is that of a record, with null or values of one kind in each column. -/
def SeesRecord (hints header : List String) (fs : List (String × Observation)) : Prop :=
  fs.map Prod.fst = header.eraseDups ∧ ∀ f ∈ fs, f.2 = .null ∨
    if f.1 ∈ hints then ∃ p, f.2 = .number p else ∃ p, f.2 = .string p

theorem Holds.observe {column : String} {v : Sample} (h : Holds hints column v) (o : Options) :
    o.observe v = .null ∨
      if column ∈ hints then ∃ p, o.observe v = .number p else ∃ p, o.observe v = .string p := by
  cases h with
  | null => exact .inl rfl
  | int hc => exact .inr ((if_pos hc).mpr ⟨_, rfl⟩)
  | float hc => exact .inr ((if_pos hc).mpr ⟨_, rfl⟩)
  | text hc => exact .inr ((if_neg hc).mpr ⟨_, rfl⟩)

theorem exists_observed_records (o : Options) : ∀ {vs : List Sample},
    (∀ v ∈ vs, IsRecord hints header v) → ∃ os : List (List (String × Observation)),
      vs.map o.observe = os.map .object ∧ os.length = vs.length ∧
        ∀ fs ∈ os, SeesRecord hints header fs
  | [], _ => ⟨[], rfl, rfl, by simp⟩
  | v :: vs, h => by
      obtain ⟨⟨fs, rfl, hnames, hall⟩, hvs⟩ := List.forall_mem_cons.mp h
      obtain ⟨os, hos, hlength, hsees⟩ := exists_observed_records o hvs
      refine ⟨o.observeFields fs :: os, ?_, congrArg (· + 1) hlength,
        List.forall_mem_cons.mpr ⟨⟨?_, fun f hf => ?_⟩, hsees⟩⟩
      · rw [List.map_cons, List.map_cons, hos, Options.observe]
      · rw [o.observeFields_eq_map, List.map_map, ← hnames]
        rfl
      · rw [o.observeFields_eq_map] at hf
        obtain ⟨g, hg, rfl⟩ := List.mem_map.mp hf
        exact (hall g hg).observe o

variable {os : List (List (String × Observation))}

/-- The type of a column. -/
theorem nullOr_of_sees (h : ∀ fs ∈ os, SeesRecord hints header fs) (name : String) :
    (name ∈ hints → (summary (valuesUnder name os)).NullOr numberTypes) ∧
      (name ∉ hints → (summary (valuesUnder name os)).NullOr textTypes) := by
  have hvalue : ∀ x ∈ valuesUnder name os, x = .null ∨
      if name ∈ hints then ∃ p, x = .number p else ∃ p, x = .string p := fun x hx => by
    obtain ⟨fs, hfs, hmem⟩ := exists_field_of_mem_valuesUnder hx
    exact (h fs hfs).2 _ hmem
  constructor
  · intro hn
    exact nullOr_summary_of_numbers (by simpa only [if_pos hn] using hvalue)
  · intro hn
    exact nullOr_summary_of_texts (by simpa only [if_neg hn] using hvalue)

/-- The summary of records has one field for each column, and each record has it. -/
theorem summary_of_sees (hne : os ≠ []) (h : ∀ fs ∈ os, SeesRecord hints header fs) :
    summary (os.map .object) = .object none os.length (header.eraseDups.map fun name =>
      ⟨name, summary (valuesUnder name os), false, os.length, os.length⟩) := by
  have hnames : ∀ fs ∈ os, fs.map Prod.fst = header.eraseDups := fun fs hfs => (h fs hfs).1
  rw [summary_of_objects hne, names_of_same hne (nodup_eraseDups _) hnames]
  congr 1
  refine List.map_congr_left fun name hname => fieldOf_of_same fun fs hfs => ?_
  rwa [hnames fs hfs]

end Table

/-! ### Runs -/

section
variable {s : Settings} {r : RunRequest} {o : Options} (ho : s.optionsFor r = .ok o)
  (hw : 0 ≤ r.maxWorkers.getD 0)
include ho hw

theorem Settings.run_nil : s.run r [] = .ok ⟨⟨.null, []⟩, .null, [], 0⟩ := by
  have hsummary : summary (([] : List Sample).map o.observe) = .null := summary_nil
  have hnamed : (summary (([] : List Sample).map o.observe)).named
      (givenOr r.rootName s.rootTypeName) = .ok ⟨.null, []⟩ := by
    rw [hsummary]
    exact Schema.named_of_objects_eq_nil rfl _
  rw [run_of_named (by simp) ho hw (by rw [hsummary]; rfl) hnamed, hsummary]
  rfl

/-- A run over samples whose summary is an object with plain fields. -/
theorem Settings.run_of_plain_fields {samples : List Sample} {count : Int}
    {fields : List (Field Schema)} (h : ∀ v ∈ samples, v.hasDistinctNames = true)
    (hsummary : summary (samples.map o.observe) = .object none count fields)
    (hplain : ∀ f ∈ fields, f.type.IsPlain) :
    s.run r samples = .ok
      ⟨⟨.object (some (typeName (givenOr r.rootName s.rootTypeName))) count fields,
        [⟨typeName (givenOr r.rootName s.rootTypeName), count, fields⟩]⟩,
        .object none count fields, [], samples.length⟩ := by
  obtain ⟨hunions, hobjects⟩ := isPlain_fields hplain
  rw [run_of_named h ho hw (hsummary ▸ hunions "") (hsummary ▸ Schema.named_of_flat hobjects _),
    hsummary]

end

/-- **The schemas of tables are flat and free of conflicts.**  Without records the schema is null.
Otherwise it is a single definition under the name of the root, with one field for each column of the
header in their order.  Every record has every field; a column that is hinted is null or of numbers,
and any other one null or of texts. -/
theorem run_over_table {p : Reading} {hints : List String} {text : String} {vs : List Sample}
    (h : Format.table.read p hints text = .ok vs) {s : Settings} {r : RunRequest} {o : Options}
    (ho : s.optionsFor r = .ok o) (hw : 0 ≤ r.maxWorkers.getD 0) :
    ∃ i, s.run r vs = .ok i ∧ i.conflicts = [] ∧ i.sampleCount = vs.length ∧
      (vs = [] → i.schema = ⟨.null, []⟩) ∧
      (vs ≠ [] → ∃ (header : List String) (below : List (List String)) (root : String)
        (fields : List (Field Schema)), Table.rows text = (header :: below, none) ∧
        vs.length = (Table.nonEmpty below).length ∧
        root = typeName (givenOr r.rootName s.rootTypeName) ∧
        i.schema = ⟨.object (some root) vs.length fields, [⟨root, vs.length, fields⟩]⟩ ∧
        fields.map Field.name = header.eraseDups ∧
        ∀ f ∈ fields, f.optional = false ∧ f.observed = vs.length ∧ f.total = vs.length ∧
          (f.name ∈ hints → f.type.NullOr numberTypes) ∧
          (f.name ∉ hints → f.type.NullOr textTypes)) := by
  have hnames := Format.hasDistinctNames_of_read h
  by_cases hvs : vs = []
  · subst hvs
    exact ⟨_, Settings.run_nil ho hw, rfl, rfl, fun _ => rfl, fun hne => absurd rfl hne⟩
  · obtain ⟨-, hnil⟩ | ⟨header, below, hrows, hlength, hrecords⟩ :=
      Table.isRecord_of_read (ok_of_mapError h)
    · exact absurd hnil hvs
    obtain ⟨os, hos, hcount, hsees⟩ := Table.exists_observed_records o hrecords
    have hne : os ≠ [] := fun hnil => hvs (List.length_eq_zero_iff.mp (by rw [← hcount, hnil]; rfl))
    have hsummary := Table.summary_of_sees hne hsees
    rw [← hos, hcount] at hsummary
    have htypes := Table.nullOr_of_sees hsees
    refine ⟨_, Settings.run_of_plain_fields ho hw hnames hsummary ?_, rfl, rfl,
      fun hnil => absurd hnil hvs, fun _ => ⟨header, below, _, _, hrows, hlength, rfl, rfl, ?_, ?_⟩⟩
    · -- the type of a column holds neither unions nor objects, so the root is all that is named
      intro f hf
      obtain ⟨name, -, rfl⟩ := List.mem_map.mp hf
      by_cases hname : name ∈ hints
      · exact ((htypes name).1 hname).isPlain isPlain_of_mem_numberTypes
      · exact ((htypes name).2 hname).isPlain isPlain_of_mem_textTypes
    · rw [List.map_map]
      exact List.map_id _
    · intro f hf
      obtain ⟨name, -, rfl⟩ := List.mem_map.mp hf
      exact ⟨rfl, rfl, rfl, htypes name⟩

/-- A table with a repeated column, a blank number, an empty row and a row that is too short. -/
def raggedTable : String := "n,at,n\n1,2024-03-01, \n\n2\n"

/-- The records of that table, where the last cell of a repeated column counts. -/
def raggedRecords : List Sample :=
  [.object [("n", .null), ("at", .string "2024-03-01")], .object [("n", .null), ("at", .null)]]

theorem run_over_table_of_ragged :
    Format.table.read .standard ["n"] raggedTable = .ok raggedRecords ∧
      ∃ i fields, ({} : Settings).run {} raggedRecords = .ok i ∧ i.conflicts = [] ∧
        i.schema = ⟨.object (some "Root") 2 fields, [⟨"Root", 2, fields⟩]⟩ ∧
        fields.map Field.name = ["n", "at"] := by
  have hread : Format.table.read .standard ["n"] raggedTable = .ok raggedRecords := rfl
  obtain ⟨i, hrun, hconflicts, -, -, hrecords⟩ :=
    run_over_table hread (show ({} : Settings).optionsFor {} = .ok {} from rfl) (by decide)
  obtain ⟨header, below, root, fields, hheader, -, rfl, hschema, hnames, -⟩ :=
    hrecords (List.cons_ne_nil _ _)
  refine ⟨hread, i, fields, hrun, hconflicts, hschema, ?_⟩
  have hcolumns : header = ["n", "at", "n"] := by
    have hrows : Table.rows raggedTable =
        (["n", "at", "n"] :: [["1", "2024-03-01", " "], [], ["2"]], none) := rfl
    rw [hrows] at hheader
    cases hheader
    rfl
  rw [hnames, hcolumns]
  rfl

end SampleSchema
