import SampleSchema.Format
import SampleSchema.Proofs.Nesting

/-!
# Samples whose objects have distinct names

`Sample.hasDistinctNames` says that no object in a sample has two fields of one name.  Whatever is
read in some format has that property (`Format.hasDistinctNames_of_read`): every object that a
reader makes is made by `Sample.ofFields`, which refuses names that repeat.
-/

namespace SampleSchema

mutual

/-- Whether no object in a sample has two fields of one name. -/
def Sample.hasDistinctNames : Sample → Bool
  | .array items   => allHaveDistinctNames items
  | .object fields => decide (fields.map Prod.fst).Nodup && fieldsHaveDistinctNames fields
  | _              => true

/-- Whether that holds for all samples of a list. -/
def allHaveDistinctNames : List Sample → Bool
  | []      => true
  | v :: vs => v.hasDistinctNames && allHaveDistinctNames vs

/-- Whether that holds for the values of all fields. -/
def fieldsHaveDistinctNames : List (String × Sample) → Bool
  | []           => true
  | (_, v) :: fs => v.hasDistinctNames && fieldsHaveDistinctNames fs

end

theorem allHaveDistinctNames_iff : ∀ {vs : List Sample},
    allHaveDistinctNames vs = true ↔ ∀ v ∈ vs, v.hasDistinctNames = true
  | [] => by simp [allHaveDistinctNames]
  | v :: vs => by
      rw [allHaveDistinctNames, Bool.and_eq_true, allHaveDistinctNames_iff, List.forall_mem_cons]

theorem fieldsHaveDistinctNames_iff : ∀ {fs : List (String × Sample)},
    fieldsHaveDistinctNames fs = true ↔ ∀ f ∈ fs, f.2.hasDistinctNames = true
  | [] => by simp [fieldsHaveDistinctNames]
  | (n, v) :: fs => by
      rw [fieldsHaveDistinctNames, Bool.and_eq_true, fieldsHaveDistinctNames_iff,
        List.forall_mem_cons]

/-- Objects that do not have the same fields, nested arrays, and values of other kinds. -/
def mixedSamples : List Sample :=
  [.object [("id", .int 1), ("tags", .array [])],
    .object [("tags", .array [.array [.int 2, .null], .array []]), ("at", .string "2024-01-01")],
    .array [.bool true], .null, .int 10000000000000000000]

/-! ### Readings -/

theorem Sample.hasDistinctNames_of_ofDouble {x : Double} {v : Sample} (h : ofDouble x = .ok v) :
    v.hasDistinctNames = true := by
  obtain ⟨-, rfl⟩ := ofDouble_eq_ok_iff.mp h
  rfl

/-- An object is made of members with different names only. -/
theorem Sample.hasDistinctNames_of_ofFields {fields : List (String × Sample)} {v : Sample}
    (hf : ∀ f ∈ fields, f.2.hasDistinctNames = true) (h : ofFields fields = .ok v) :
    v.hasDistinctNames = true := by
  obtain ⟨rfl, hn⟩ := eq_object_of_ofFields h
  rw [hasDistinctNames, decide_eq_true hn, fieldsHaveDistinctNames_iff.mpr hf]
  rfl

/-! ### Decoded values -/

namespace Datum

theorem hasDistinctNames_of_sampleOfDecimal {d : Decimal} {v : Sample}
    (h : sampleOfDecimal d = .ok v) : v.hasDistinctNames = true := by
  cases d with
  | finite negative c e =>
      rw [sampleOfDecimal] at h
      split at h
      · cases h
        rfl
      · exact Sample.hasDistinctNames_of_ofDouble h
  | _ => cases h

mutual

/-- The sample of a decoded value has distinct names, whatever the keys of its mappings are. -/
theorem hasDistinctNames_of_decode : ∀ {d : Datum} {v : Sample}, decode d = .ok v →
    v.hasDistinctNames = true
  | .null, _, h | .bool _, _, h | .int _, _, h | .string _, _, h | .date _, _, h
  | .moment _, _, h | .time _ _, _, h => by
      cases h
      rfl
  | .float x, _, h => Sample.hasDistinctNames_of_ofDouble (ok_of_mapError h)
  | .decimal d, _, h => hasDistinctNames_of_sampleOfDecimal (ok_of_mapError h)
  | .map es, _, h => by
      rw [decode] at h
      obtain ⟨fields, hf, h⟩ := ok_of_bind h
      exact Sample.hasDistinctNames_of_ofFields (hasDistinctNames_of_decodeEntries hf)
        (ok_of_mapError h)
  | .list xs, _, h | .tuple xs, _, h => by
      rw [decode] at h
      obtain ⟨items, hi, h⟩ := ok_of_bind h
      cases h
      exact allHaveDistinctNames_iff.mpr (hasDistinctNames_of_decodeAll hi)
  | .set _, _, h | .bytes _, _, h | .complex _ _, _, h | .other .., _, h => by cases h

/-- Samples of values have distinct names. -/
theorem hasDistinctNames_of_decodeAll : ∀ {ds : List Datum} {vs : List Sample},
    decodeAll ds = .ok vs → ∀ v ∈ vs, v.hasDistinctNames = true
  | [], vs, h => by
      cases h
      simp
  | d :: ds, vs, h => by
      rw [decodeAll] at h
      obtain ⟨w, hw, h⟩ := ok_of_bind h
      obtain ⟨ws, hws, h⟩ := ok_of_bind h
      cases h
      exact List.forall_mem_cons.mpr
        ⟨hasDistinctNames_of_decode hw, hasDistinctNames_of_decodeAll hws⟩

/-- Members of a decoded mapping have distinct names inside of them. -/
theorem hasDistinctNames_of_decodeEntries : ∀ {es : List (Datum × Datum)}
    {fs : List (String × Sample)}, decodeEntries es = .ok fs →
      ∀ f ∈ fs, f.2.hasDistinctNames = true
  | [], fs, h => by
      cases h
      simp
  | (k, d) :: es, fs, h => by
      rw [decodeEntries] at h
      obtain ⟨n, -, h⟩ := ok_of_bind h
      obtain ⟨w, hw, h⟩ := ok_of_bind h
      obtain ⟨ws, hws, h⟩ := ok_of_bind h
      cases h
      exact List.forall_mem_cons.mpr
        ⟨hasDistinctNames_of_decode hw, hasDistinctNames_of_decodeEntries hws⟩

end

/-- A value within the levels is decoded to a sample with distinct names. -/
theorem hasDistinctNames_of_decodeWithin {limit : Nat} {d : Datum} {v : Sample}
    (h : d.decodeWithin limit = .ok v) : v.hasDistinctNames = true :=
  hasDistinctNames_of_decode (decode_of_decodeWithin h)

end Datum

/-! ### Tables -/

namespace Table

/-- A cell is no object. -/
theorem hasDistinctNames_of_cellSample {hints : List String} {record : Nat} {column : String}
    {content : Option String} {v : Sample} (h : cellSample hints record column content = .ok v) :
    v.hasDistinctNames = true := by
  cases content with
  | none =>
      cases h
      rfl
  | some content =>
      rw [cellSample] at h
      split at h
      · rw [numberCell] at h
        split at h
        · cases h
          rfl
        · split at h
          · cases h
            rfl
          · split at h
            · exact Sample.hasDistinctNames_of_ofDouble h
            · cases h
      · cases h
        rfl

/-- The cells of a row are no objects. -/
theorem hasDistinctNames_of_rowFields {hints : List String} {record : Nat} :
    ∀ {cells : List Cell} {fs : List (String × Sample)}, rowFields hints record cells = .ok fs →
      ∀ f ∈ fs, f.2.hasDistinctNames = true
  | [], fs, h => by
      cases h
      simp
  | ⟨none, _⟩ :: _, _, h => by cases h
  | ⟨some column, content⟩ :: cells, fs, h => by
      rw [rowFields] at h
      obtain ⟨w, hw, h⟩ := ok_of_bind h
      obtain ⟨ws, hws, h⟩ := ok_of_bind h
      cases h
      exact List.forall_mem_cons.mpr
        ⟨hasDistinctNames_of_cellSample hw, hasDistinctNames_of_rowFields hws⟩

/-- The records of a table have distinct names. -/
theorem hasDistinctNames_of_recordsFrom {hints : List String} {rows : List (List Cell)}
    {record : Nat} : ∀ v ∈ (recordsFrom hints record rows).1, v.hasDistinctNames = true := by
  intro v hv
  obtain ⟨row, -, n, hn⟩ := exists_row_of_recordsFrom v hv
  rw [rowSample] at hn
  obtain ⟨fs, hfs, hn⟩ := ok_of_bind hn
  exact Sample.hasDistinctNames_of_ofFields (hasDistinctNames_of_rowFields hfs) hn

/-- The records that are read from a table have distinct names. -/
theorem hasDistinctNames_of_read {hints : List String} {s : String} {vs : List Sample}
    (h : read hints s = .ok vs) : ∀ v ∈ vs, v.hasDistinctNames = true := by
  intro v hv
  simp only [read] at h
  split at h
  · cases h
  · cases h
  · rename_i hr _
    cases h
    have hs : vs = (records hints _).1 := congrArg Prod.fst hr.symm
    rw [hs] at hv
    exact hasDistinctNames_of_recordsFrom v hv

end Table

/-! ### Documents -/

namespace Document

/-- A node of a document has a sample with distinct names. -/
theorem hasDistinctNames_of_sampleAt {d : Document} : ∀ {limit : Nat} {i : Fin d.size} {v : Sample},
    d.sampleAt limit i = .ok v → v.hasDistinctNames = true
  | 0, i, v, h => by
      rw [sampleAt] at h
      split at h
      · exact Datum.hasDistinctNames_of_decodeWithin h
      · cases h
      · cases h
      · cases h
      · cases h
  | limit + 1, i, v, h => by
      -- one arm for each kind of value; only mappings make objects
      have ih : ∀ {i w}, d.sampleAt limit i = .ok w → w.hasDistinctNames = true :=
        hasDistinctNames_of_sampleAt
      rw [sampleAt] at h
      split at h
      · exact Datum.hasDistinctNames_of_decodeWithin h
      · cases h
      · obtain ⟨items, hi, h⟩ := ok_of_bind h
        cases h
        refine allHaveDistinctNames_iff.mpr fun w hw => ?_
        obtain ⟨j, -, hj⟩ := ok_of_mapM hi w hw
        exact ih hj
      · obtain ⟨items, hi, h⟩ := ok_of_bind h
        cases h
        refine allHaveDistinctNames_iff.mpr fun w hw => ?_
        obtain ⟨e, -, he⟩ := ok_of_mapM hi w hw
        cases limit with
        | zero => cases he
        | succ limit =>
            obtain ⟨k, hk, he⟩ := ok_of_bind he
            obtain ⟨u, hu, he⟩ := ok_of_bind he
            cases he
            have hkey := hasDistinctNames_of_sampleAt hk
            have hvalue := hasDistinctNames_of_sampleAt hu
            exact allHaveDistinctNames_iff.mpr (by simp [hkey, hvalue])
      · obtain ⟨fields, hf, h⟩ := ok_of_bind h
        refine Sample.hasDistinctNames_of_ofFields (fun f hm => ?_) (ok_of_mapError h)
        obtain ⟨e, -, he⟩ := ok_of_mapM hf f hm
        obtain ⟨n, -, he⟩ := ok_of_bind he
        obtain ⟨u, hu, he⟩ := ok_of_bind he
        cases he
        exact ih hu

end Document

/-! ### All formats -/

namespace Format

variable {p : Reading}

/-- A JSON text is read to a sample with distinct names. -/
theorem hasDistinctNames_of_readJson {place : Place} {s : String} {v : Sample}
    (h : readJson p place s = .ok v) : v.hasDistinctNames = true := by
  rw [readJson] at h
  split at h
  · exact Datum.hasDistinctNames_of_decodeWithin h
  · cases h
  · cases h
  · cases h

theorem hasDistinctNames_of_readLines : ∀ {lines : List String} {number : Nat}
    {vs : List Sample}, readLines p number lines = .ok vs → ∀ v ∈ vs, v.hasDistinctNames = true
  | [], _, vs, h => by
      cases h
      simp
  | line :: lines, number, vs, h => by
      rw [readLines] at h
      split at h
      · exact hasDistinctNames_of_readLines h
      · obtain ⟨w, hw, h⟩ := ok_of_bind h
        obtain ⟨ws, hws, h⟩ := ok_of_bind h
        cases h
        exact List.forall_mem_cons.mpr
          ⟨hasDistinctNames_of_readJson hw, hasDistinctNames_of_readLines hws⟩

theorem hasDistinctNames_of_readYaml {s : String} {vs : List Sample} (h : readYaml p s = .ok vs) :
    ∀ v ∈ vs, v.hasDistinctNames = true := by
  intro v hv
  obtain ⟨documents, -, h⟩ := ok_of_bind h
  obtain ⟨d, -, hd⟩ := ok_of_mapM h v hv
  exact Document.hasDistinctNames_of_sampleAt hd

/-- **What is read has distinct names**, in whatever format it is read. -/
theorem hasDistinctNames_of_read {f : Format} {hints : List String} {s : String}
    {vs : List Sample} (h : f.read p hints s = .ok vs) : ∀ v ∈ vs, v.hasDistinctNames = true := by
  cases f with
  | json =>
      obtain ⟨v, hv, h⟩ := ok_of_bind h
      cases h
      simpa using hasDistinctNames_of_readJson hv
  | jsonLines => exact hasDistinctNames_of_readLines h
  | yaml => exact hasDistinctNames_of_readYaml h
  | table => exact Table.hasDistinctNames_of_read (ok_of_mapError h)

end Format

end SampleSchema
