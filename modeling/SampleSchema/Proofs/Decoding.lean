import SampleSchema.Proofs.Conversion
import SampleSchema.Proofs.JsonReading
import SampleSchema.Proofs.RunSteps
import SampleSchema.Proofs.StandardPackages
import SampleSchema.Proofs.YamlDocuments
import SampleSchema.Proofs.YamlEvents
import SampleSchema.Proofs.YamlTokens

/-!
# What reading fails for

A text that can be decoded (`Format.Decodable`) is read to samples, or it is malformed and a request
that submits it is answered with the message (`Format.read_or_malformed`).  What cannot be decoded
stands where a decoder has errors of other kinds, which nothing turns into those of a malformed text
(`Format.not_read_or_malformed`):

* in JSON, an integer of too many digits, and more open brackets than there is room for;
* in YAML, whatever the loader has no error of YAML for, more levels of collections than there is room
  for, and a key that shows an integer of too many digits.

The loader that the program runs with has errors of other kinds only for texts that are not
`Yaml.Decodable` (`Yaml.malformed_of_load`): for a long number in the version, an escape by a number
that is no code point, a scalar that is not written as its tag admits, a mapping in the place of a
timestamp, and a node that contains itself.
-/

namespace SampleSchema

/-! ### JSON -/

namespace JsonText

/-- Opening brackets, one after the other. -/
def brackets (n : Nat) (rest : List Char) : List Char := List.replicate n '[' ++ rest

/-- Reading fails at the first bracket for which there is no room. -/
theorem value_brackets (rest : List Char) : ∀ {levels n : Nat}, levels < n →
    value levels (brackets n rest) = .error .tooDeep
  | 0, n + 1, _          => by
      unfold value
      rfl
  | levels + 1, n + 2, h => by
      have hhead : (brackets (n + 2) rest).head? = some '[' := rfl
      have hspace : skipSpace (brackets (n + 2) rest).tail = brackets (n + 1) rest := rfl
      have hnext : ¬ (brackets (n + 1) rest).head? = some ']' := fun h => nomatch h
      have hitems : ∀ limit hle,
          items levels limit [] (brackets (n + 1) rest) hle = .error .tooDeep := by
        intro limit hle
        unfold items
        rw [value_brackets rest (Nat.lt_of_succ_lt_succ h)]
        rfl
      unfold value
      rw [dif_neg (fun h => nomatch h), dif_pos hhead]
      simp only [hspace, dif_neg hnext, hitems]
      rfl

theorem read_brackets (rest : List Char) {levels n : Nat} (h : levels < n) :
    read levels (String.ofList (brackets n rest)) = .error .tooDeep := by
  obtain ⟨m, rfl⟩ : ∃ m, n = m + 1 := ⟨n - 1, by omega⟩
  have hspace : skipSpace (brackets (m + 1) rest) = brackets (m + 1) rest := rfl
  rw [read_eq, String.toList_ofList, if_neg (fun h => nomatch h), hspace, value_brackets rest h]
  rfl

end JsonText

namespace Format

variable {p : Reading}

/-- Whether a text of JSON has neither a run of too many digits nor too many open brackets, for the
reader of texts or for samples. -/
structure Readable (p : Reading) (s : String) : Prop where
  digits : ¬ JsonText.LongRun s.toList
  text   : ¬ JsonText.Deep p.textLevels s.toList
  value  : ¬ JsonText.Deep p.valueLevels s.toList

/-- Such a text can only be malformed. -/
theorem malformed_of_readJson {place : Place} {s : String} {e : ReadError} (hs : Readable p s)
    (h : readJson p place s = .error e) : ∃ m, e = .malformed m := by
  unfold readJson at h
  split at h
  · rename_i d hread
    obtain (⟨hm, -⟩ | ⟨-, hkey⟩) | ⟨-, hdeep⟩ := Datum.blames_of_decodeWithin h
    · exact hm
    · exact absurd hkey (JsonText.hasTextKeys_of_read hread).not_hasLongKey
    · exact absurd (JsonText.deep_of_nesting hread hdeep) hs.value
  · exact absurd (JsonText.longRun_of_read ‹_›) hs.digits
  · exact absurd (JsonText.deep_of_read ‹_›) hs.text
  · cases h
    exact ⟨_, rfl⟩

theorem malformed_of_readLines {e : ReadError} : ∀ (ls : List String) (number : Nat),
    (∀ l ∈ ls, Readable p l) → readLines p number ls = .error e → ∃ m, e = .malformed m
  | [], _, _, h => by cases h
  | l :: ls, number, hls, h => by
      have ih : readLines p (number + 1) ls = .error e → ∃ m, e = .malformed m :=
        malformed_of_readLines ls (number + 1) fun l' hl' => hls l' (List.mem_cons_of_mem l hl')
      unfold readLines at h
      split at h
      · exact ih h
      · obtain hl | ⟨_, -, h⟩ := error_of_bind h
        · exact malformed_of_readJson (hls l List.mem_cons_self) hl
        · exact ih (error_of_return h)

/-- A text with more open brackets than there is room for is not malformed. -/
theorem readJson_brackets (place : Place) (rest : List Char) {n : Nat} (h : p.textLevels < n) :
    readJson p place (String.ofList (JsonText.brackets n rest)) = .error .tooDeep := by
  rw [readJson, JsonText.read_brackets rest h]

end Format

/-! ### Documents -/

namespace Document

/-- Whether a value lies so many levels of collections below another one.  A pair is a collection. -/
inductive Below (d : Document) : (levels : Nat) → Fin d.size → Fin d.size → Prop where
  | self (i : Fin d.size) : Below d 0 i i
  | item {levels : Nat} {i j k : Fin d.size} {items : List (Fin d.size)}
      (hi : d.value i = .sequence items) (hj : j ∈ items) (h : Below d levels j k) :
      Below d (levels + 1) i k
  | pair {levels : Nat} {i j k : Fin d.size} {entries : List (Fin d.size × Fin d.size)}
      {e : Fin d.size × Fin d.size} (hi : d.value i = .pairs entries) (he : e ∈ entries)
      (hj : j = e.1 ∨ j = e.2) (h : Below d levels j k) : Below d (levels + 2) i k
  | entry {levels : Nat} {i k : Fin d.size} {entries : List (Datum × Fin d.size)}
      {e : Datum × Fin d.size} (hi : d.value i = .mapping entries) (he : e ∈ entries)
      (h : Below d levels e.2 k) : Below d (levels + 1) i k

/-- The levels of collections that a value has apart from those of its parts. -/
def Value.ownLevels {size : Nat} : Value size → Nat
  | .scalar v       => v.nesting
  | .set            => 0
  | .pairs (_ :: _) => 2
  | .pairs [] | .sequence _ | .mapping _ => 1

/-- Whether there are more levels of collections below a value than there is room for.  A value that
contains itself has levels without end. -/
def IsDeep (d : Document) (limit : Nat) (i : Fin d.size) : Prop :=
  ∃ levels j, d.Below levels i j ∧ limit < levels + (d.value j).ownLevels

/-- Whether a value has a key that shows an integer of too many digits. -/
inductive Value.ShowsLongKey {size : Nat} : Value size → Prop where
  | scalar {v : Datum} (h : v.HasLongKey) : ShowsLongKey (.scalar v)
  | mapping {entries : List (Datum × Fin size)} {e : Datum × Fin size} (he : e ∈ entries)
      (h : e.1.showsLongInteger = true) : ShowsLongKey (.mapping entries)

/-- Whether such a key is somewhere below a value. -/
def HasLongKey (d : Document) (i : Fin d.size) : Prop :=
  ∃ levels j, d.Below levels i j ∧ (d.value j).ShowsLongKey

section
variable {d : Document} {i j : Fin d.size} {levels limit : Nat}

/-- What an error of a value tells about it. -/
def Blames (d : Document) (limit : Nat) (i : Fin d.size) (e : ReadError) : Prop :=
  (∃ m, e = .malformed m) ∨ d.HasLongKey i ∨ d.IsDeep limit i

/-- What is told about a part is told about the whole. -/
theorem Blames.outer {e : ReadError} {n : Nat} (h : d.Blames limit j e)
    (hbelow : ∀ {levels k}, d.Below levels j k → d.Below (levels + n) i k) :
    d.Blames (limit + n) i e := by
  obtain hm | ⟨levels, k, hk, hkey⟩ | ⟨levels, k, hk, hdeep⟩ := h
  · exact .inl hm
  · exact .inr (.inl ⟨_, k, hbelow hk, hkey⟩)
  · exact .inr (.inr ⟨_, k, hbelow hk, by omega⟩)

theorem blames_of_scalar {v : Datum} {e : ReadError} (hv : d.value i = .scalar v)
    (h : v.decodeWithin limit = .error e) : d.Blames limit i e := by
  obtain (⟨hm, -⟩ | ⟨-, hkey⟩) | ⟨-, hdeep⟩ := Datum.blames_of_decodeWithin h
  · exact .inl hm
  · exact .inr (.inl ⟨0, i, .self i, hv ▸ .scalar hkey⟩)
  · exact .inr (.inr ⟨0, i, .self i, by rwa [hv, Nat.zero_add]⟩)

theorem blames_of_level {e : ReadError} (h : limit < (d.value i).ownLevels) : d.Blames limit i e :=
  .inr (.inr ⟨0, i, .self i, by rwa [Nat.zero_add]⟩)

/-- A value has no sample because something in it has none, a key has no text, or room is lacking. -/
theorem blames_of_sampleAt {e : ReadError} : ∀ {limit : Nat} {i : Fin d.size},
    d.sampleAt limit i = .error e → d.Blames limit i e
  | 0, i, h         => by
      rw [sampleAt] at h
      split at h
      · exact blames_of_scalar ‹_› h
      · cases h
        exact .inl ⟨_, rfl⟩
      · exact blames_of_level (by rw [‹d.value i = _›]; exact Nat.one_pos)
      · rename_i entries hi
        exact blames_of_level (by rw [hi]; cases entries <;> exact Nat.succ_pos _)
      · exact blames_of_level (by rw [‹d.value i = _›]; exact Nat.one_pos)
  | limit + 1, i, h => by
      rw [sampleAt] at h
      split at h
      · exact blames_of_scalar ‹_› h
      · cases h
        exact .inl ⟨_, rfl⟩
      · rename_i items hi
        obtain ⟨j, hj, he⟩ := error_of_mapM (error_of_return h)
        exact (blames_of_sampleAt he).outer fun hk => .item hi hj hk
      · rename_i entries hi
        obtain ⟨p, hp, he⟩ := error_of_mapM (error_of_return h)
        -- a pair takes a level of its own
        match limit with
        | 0         =>
            obtain ⟨q, qs, rfl⟩ := List.exists_cons_of_ne_nil (List.ne_nil_of_mem hp)
            exact blames_of_level (by rw [hi]; exact Nat.one_lt_two)
        | limit + 1 =>
            obtain hkey | ⟨v, -, he⟩ := error_of_bind he
            · exact (blames_of_sampleAt hkey).outer fun hk => .pair hi hp (.inl rfl) hk
            · exact (blames_of_sampleAt (error_of_return he)).outer fun hk =>
                .pair hi hp (.inr rfl) hk
      · rename_i entries hi
        obtain hfields | ⟨fs, -, h⟩ := error_of_bind h
        · obtain ⟨p, hp, he⟩ := error_of_mapM hfields
          obtain hk | ⟨n, -, hv⟩ := error_of_bind he
          · obtain ⟨-, hlong⟩ := Datum.fieldName_eq_error hk
            exact .inr (.inl ⟨0, i, .self i, hi ▸ .mapping hp hlong⟩)
          · exact (blames_of_sampleAt (error_of_return hv)).outer fun hk => .entry hi hp hk
        · obtain ⟨m, -, hm⟩ := error_of_mapError h
          exact .inl ⟨m, hm.symm⟩

end

end Document

/-! ### YAML -/

namespace Yaml

/-- Whether the values of all documents of a stream can be worked out, unless one is malformed. -/
structure Decodable (s : String) : Prop where
  version : ¬ LongVersion s.toList
  codes   : ¬ HugeCode s.toList
  graphs  : ∀ g ∈ (Graph.ofEvents (events (tokens s))).1, g.Decodable

/-- The loader of the program has no other errors than those of a malformed text. -/
theorem malformed_of_load {s : String} {e : LoadError} (hs : Decodable s) (h : load s = .error e) :
    ∃ text, e = .malformed text := by
  have hmalformed : ∀ {f : Fault}, f = .malformed → ∃ text, f.error = .malformed text := by
    rintro _ rfl
    exact ⟨_, rfl⟩
  obtain h | ⟨documents, -, h⟩ := error_of_bind h
  · -- the values of a document
    obtain ⟨f, hf, rfl⟩ := error_of_mapError h
    obtain ⟨g, hg, hgf⟩ := error_of_mapM hf
    exact hmalformed ((hs.graphs g hg).document.2 f hgf)
  · -- the text
    split at h
    · rename_i f hf
      cases h
      have hexpected : f = .malformed ∨ Expected s.toList f :=
        (Graph.mem_events_of_ofEvents hf).imp id fun hmem =>
          (mem_tokens_of_mem_events hmem).elim (fun h => .inl h) expected_of_mem_tokens
      refine hmalformed ?_
      obtain h | h | h | h := hexpected
      exacts [h, h, absurd h hs.version, absurd h hs.codes]
    · cases h

end Yaml

/-! ### All formats -/

/-- Whether a text of YAML is loaded, unless it is malformed, to documents with levels for which there
is room and with keys that have texts. -/
structure Format.Loadable (p : Reading) (s : String) : Prop where
  loads  : ∀ failure, p.loadYaml s ≠ .error (.other failure)
  levels : ∀ {ds}, p.loadYaml s = .ok ds → ∀ d ∈ ds, d.isNull = false → ¬ d.IsDeep p.valueLevels d.root
  keys   : ∀ {ds}, p.loadYaml s = .ok ds → ∀ d ∈ ds, d.isNull = false → ¬ d.HasLongKey d.root

/-- Whether what a text writes in a format can be decoded, unless the text is malformed. -/
def Format.Decodable (p : Reading) (f : Format) (s : String) : Prop :=
  match f with
  | .json      => Readable p s
  | .jsonLines => ∀ l ∈ Text.lines s, Readable p l
  | .yaml      => Loadable p s
  | .table     => True

namespace Format

variable {f : Format} {s : String}

theorem malformed_of_readYaml {p : Reading} {e : ReadError} (hs : Loadable p s)
    (h : readYaml p s = .error e) : ∃ m, e = .malformed m := by
  obtain h | ⟨ds, hds, h⟩ := error_of_bind h
  · obtain ⟨error, herror, rfl⟩ := error_of_mapError h
    cases error with
    | malformed text => exact ⟨_, rfl⟩
    | other failure => exact absurd herror (hs.loads failure)
  · have hds : p.loadYaml s = .ok ds := ok_of_mapError hds
    obtain ⟨d, hd, he⟩ := error_of_mapM h
    obtain ⟨hd, hnull⟩ := List.mem_filter.mp hd
    have hnull : d.isNull = false := by simpa using hnull
    obtain hm | hkey | hdeep := Document.blames_of_sampleAt he
    exacts [hm, absurd hkey (hs.keys hds d hd hnull), absurd hdeep (hs.levels hds d hd hnull)]

theorem malformed_of_read {p : Reading} (hs : f.Decodable p s) {hints : List String} {e : ReadError}
    (h : f.read p hints s = .error e) : ∃ m, e = .malformed m := by
  cases f with
  | json => exact malformed_of_readJson hs (error_of_return h)
  | jsonLines => exact malformed_of_readLines _ 1 hs h
  | yaml => exact malformed_of_readYaml hs h
  | table =>
      obtain ⟨m, -, hm⟩ := error_of_mapError h
      exact ⟨m, hm.symm⟩

/-- A text that can be decoded is read to samples, or it is malformed and a request that submits it
is answered with the message. -/
theorem read_or_malformed (p : Packages) (hs : f.Decodable p.reading s) (hints : List String) :
    (∃ vs, f.read p.reading hints s = .ok vs) ∨
      ∃ m : Malformed, f.read p.reading hints s = .error (.malformed m) ∧
        ∀ (db : p.database.State) (r : Service.Request) (rootName : Option String) (persist : Bool),
          p.framework.dispatch r = .infer ⟨f, .content s, hints, rootName, persist⟩ →
          Service.handle p db r = (⟨422, .reason m.message⟩, db) := by
  cases h : f.read p.reading hints s with
  | ok vs => exact .inl ⟨vs, rfl⟩
  | error e =>
      obtain ⟨m, rfl⟩ := malformed_of_read hs h
      refine .inr ⟨m, rfl, fun db r rootName persist hr => ?_⟩
      have hreport : (⟨f, .content s, hints, rootName, persist⟩ : Submission).report p.reading {} =
          .error (.read (.malformed m)) := by
        simp only [Submission.report, Submission.sampleList, h]
        rfl
      rw [Service.handle_of_infer hr, Service.submit_of_error hreport]
      rfl

/-- A date is loaded to a document that has neither levels nor keys. -/
theorem loadable_date : Loadable .standard "2024-12-01" := by
  have hgraphs : Yaml.Graph.ofEvents (Yaml.events (Yaml.tokens "2024-12-01")) =
      ([.ofScalar .timestamp "2024-12-01"], none) := by decide +kernel
  have hload : Reading.standard.loadYaml "2024-12-01" =
      .ok [Yaml.documentOf #[some (.scalar (.date ⟨2024, 12, 1, by decide⟩))] 0] :=
    Yaml.load_of_scalar hgraphs rfl
  have hbelow : ∀ {d : Document} {v : Datum} {levels j}, d.value d.root = .scalar v →
      d.Below levels d.root j → levels = 0 ∧ j = d.root := by
    intro d v levels j hv h
    cases h with
    | self => exact ⟨rfl, rfl⟩
    | item hi | pair hi | entry hi => cases hv.symm.trans hi
  refine ⟨fun failure h => (nomatch hload.symm.trans h), fun {ds} hds d hd _ => ?_,
    fun {ds} hds d hd _ => ?_⟩
  all_goals
    cases hload.symm.trans hds
    obtain rfl := List.mem_singleton.mp hd
    rintro ⟨levels, j, hj, h⟩
    obtain ⟨rfl, rfl⟩ := hbelow rfl hj
  · exact absurd h (Nat.not_lt_zero _)
  · obtain ⟨⟨es, e, hes, -⟩⟩ | - := h
    cases hes

/-- A document that is a date. -/
theorem read_or_malformed_of_date : Format.yaml.Decodable .standard "2024-12-01" ∧
    ((∃ vs, Format.yaml.read .standard [] "2024-12-01" = .ok vs) ∨
      ∃ m : Malformed, Format.yaml.read .standard [] "2024-12-01" = .error (.malformed m) ∧
        ∀ (db : Packages.standard.database.State) (r : Service.Request) (rootName : Option String)
          (persist : Bool), Packages.standard.framework.dispatch r =
            .infer ⟨.yaml, .content "2024-12-01", [], rootName, persist⟩ →
          Service.handle .standard db r = (⟨422, .reason m.message⟩, db)) :=
  ⟨loadable_date, read_or_malformed (f := .yaml) .standard loadable_date []⟩

/-- A date in a month that no year has is no malformed text. -/
theorem read_of_no_date :
    Format.yaml.read .standard [] "2024-13-01" = .error (.loading ⟨"ValueError", none⟩) := by
  have hgraphs : Yaml.Graph.ofEvents (Yaml.events (Yaml.tokens "2024-13-01")) =
      ([.ofScalar .timestamp "2024-13-01"], none) := by decide +kernel
  have hdocument : (Yaml.Graph.ofScalar .timestamp "2024-13-01").document =
      .error .badScalar := rfl
  have hload : Reading.standard.loadYaml "2024-13-01" = .error (.other ⟨"ValueError", none⟩) := by
    simp only [Reading.standard, Yaml.load, hgraphs, List.mapM_cons, hdocument]
    rfl
  rw [read, readYaml, hload]
  rfl

/-- Neither a date in a month that no year has nor a thousand brackets in JSON are malformed, and a
request that submits the date fails. -/
theorem not_read_or_malformed :
    (¬ ∀ (s : String) (hints : List String), (∃ vs, Format.yaml.read .standard hints s = .ok vs) ∨
      ∃ m : Malformed, Format.yaml.read .standard hints s = .error (.malformed m)) ∧
    (¬ ∀ (s : String) (hints : List String), (∃ vs, Format.json.read .standard hints s = .ok vs) ∨
      ∃ m : Malformed, Format.json.read .standard hints s = .error (.malformed m)) ∧
    ∀ db, Service.handle .standard db (Service.statement .yaml "2024-13-01" [] none true) =
      (Service.failed, db) := by
  refine ⟨fun h => ?_, fun h => ?_, fun db => ?_⟩
  · obtain ⟨vs, hvs⟩ | ⟨m, hm⟩ := h "2024-13-01" []
    · cases read_of_no_date.symm.trans hvs
    · cases read_of_no_date.symm.trans hm
  · have hdeep : Format.json.read .standard []
        (String.ofList (JsonText.brackets 1000 (List.replicate 1000 ']'))) = .error .tooDeep := by
      rw [read, readJson_brackets .document _ (by decide : Reading.standard.textLevels < 1000)]
      rfl
    obtain ⟨vs, hvs⟩ | ⟨m, hm⟩ := h _ []
    · cases hdeep.symm.trans hvs
    · cases hdeep.symm.trans hm
  · have hcall := Packages.lawful_standard.framework.statement .yaml "2024-13-01" [] none true
      fun n hn => absurd hn (Option.not_mem_none n)
    have hreport : (⟨.yaml, .content "2024-13-01", [], none, true⟩ : Submission).report
        Packages.standard.reading {} = .error (.read (.loading ⟨"ValueError", none⟩)) := by
      have hread := read_of_no_date
      simp only [Submission.report, Submission.sampleList, Packages.standard, hread]
      rfl
    rw [Service.handle_of_infer hcall, Service.submit_of_error hreport]
    rfl

end Format

end SampleSchema
