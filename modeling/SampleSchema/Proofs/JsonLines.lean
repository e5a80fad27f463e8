import Mathlib.Data.List.Forall2
import SampleSchema.Proofs.JsonTexts
import SampleSchema.Proofs.Nesting
import SampleSchema.Standard

/-!
# JSON Lines and JSON

Texts that JSON accepts, joined by line feeds with any number of empty lines between them, are read
as JSON Lines to the samples of the texts in their order (`jsonLines_of_json`).

* An accepted text is no blank line, and what it gives does not depend on the number of its line.
* Lines are cut at every line boundary of Unicode, and three of them may stand in a JSON text: the
  law is for texts without them, and it fails for others (`not_jsonLines_of_json`).
-/

namespace SampleSchema

/-! ### Lines -/

namespace Text

/-- A line ends at a line feed. -/
theorem linesFrom_append_lineFeed (cs line rest : List Char)
    (h : ∀ c ∈ cs, isLineBoundary c = false) :
    linesFrom line (cs ++ '\n' :: rest) = (line.reverse ++ cs) :: linesFrom [] rest := by
  induction cs generalizing line with
  | nil =>
    rw [List.nil_append, List.append_nil, linesFrom]
    · rfl
    · intro ds hds
      cases hds
  | cons c cs ih =>
    have hc : isLineBoundary c = false := h c List.mem_cons_self
    rw [List.cons_append, linesFrom, hc, if_neg Bool.false_ne_true,
      ih (c :: line) fun d hd => h d (List.mem_cons_of_mem c hd), List.reverse_cons,
      List.append_assoc, List.singleton_append]
    · rintro ds rfl
      cases hc

/-- Runs of characters joined by line feeds, with or without one at the end, are the lines, but for
empty ones. -/
theorem linesFrom_intercalate {final : List Char} (hf : final = [] ∨ final = ['\n']) :
    ∀ css : List (List Char), (∀ cs ∈ css, ∀ c ∈ cs, isLineBoundary c = false) →
    (linesFrom [] (['\n'].intercalate css ++ final)).filter (· ≠ []) = css.filter (· ≠ [])
  | [], _ => by rcases hf with rfl | rfl <;> rfl
  | [cs], h => by
      have hcs := h cs List.mem_cons_self
      rw [List.intercalate_singleton]
      rcases hf with rfl | rfl
      · rw [List.append_nil, linesFrom_of_unbroken cs [] hcs]
        cases cs <;> rfl
      · rw [linesFrom_append_lineFeed cs [] [] hcs]
        rfl
  | cs :: ds :: css, h => by
      have ih := linesFrom_intercalate hf (ds :: css) fun es hes => h es (List.mem_cons_of_mem cs hes)
      rw [List.intercalate_cons_cons, List.append_assoc, List.append_assoc, List.singleton_append,
        linesFrom_append_lineFeed cs [] _ (h cs List.mem_cons_self)]
      rw [List.filter_cons, List.filter_cons, ih]
      rfl

theorem filter_ofList (css : List (List Char)) :
    (css.map String.ofList).filter (· ≠ "") = (css.filter (· ≠ [])).map String.ofList := by
  rw [List.filter_map]
  refine congrArg _ (List.filter_congr fun cs _ => ?_)
  simp

theorem lines_intercalate {ls : List String} {final : String} (hf : final = "" ∨ final = "\n")
    (h : ∀ l ∈ ls, ∀ c ∈ l.toList, isLineBoundary c = false) :
    (lines ("\n".intercalate ls ++ final)).filter (· ≠ "") = ls.filter (· ≠ "") := by
  have hfinal : final.toList = [] ∨ final.toList = ['\n'] :=
    hf.imp (congrArg String.toList) (congrArg String.toList)
  have hcss : ∀ cs ∈ ls.map String.toList, ∀ c ∈ cs, isLineBoundary c = false :=
    List.forall_mem_map.mpr h
  have hls : ls = (ls.map String.toList).map String.ofList := by simp [Function.comp_def]
  rw [lines, String.toList_append, String.toList_intercalate, filter_ofList]
  conv => rhs; rw [hls, filter_ofList]
  exact congrArg _ (linesFrom_intercalate hfinal _ hcss)

end Text

/-! ### Accepted texts -/

namespace Format

variable {p : Reading}

/-- An accepted JSON text is read to a value. -/
theorem exists_read_of_readJson {place : Place} {s : String} {v : Sample}
    (h : readJson p place s = .ok v) :
    ∃ d, JsonText.read p.textLevels s = .ok d ∧ d.decodeWithin p.valueLevels = .ok v := by
  unfold readJson at h
  split at h
  · exact ⟨_, ‹_›, h⟩
  · cases h
  · cases h
  · cases h

/-- What an accepted JSON text gives does not depend on where it stands. -/
theorem readJson_of_ok {place : Place} {s : String} {v : Sample} (h : readJson p place s = .ok v)
    (other : Place) : readJson p other s = .ok v := by
  obtain ⟨d, hd, hv⟩ := exists_read_of_readJson h
  unfold readJson
  rw [hd]
  exact hv

theorem isBlankText_of_readJson {place : Place} {s : String} {v : Sample}
    (h : readJson p place s = .ok v) : Text.isBlankText s = false := by
  obtain ⟨d, hd, -⟩ := exists_read_of_readJson h
  exact JsonText.isBlankText_of_read hd

/-- An accepted JSON text is one sample. -/
theorem read_json {hints : List String} {s : String} {v : Sample}
    (h : readJson p .document s = .ok v) : Format.json.read p hints s = .ok [v] := by
  rw [Format.read, h]
  rfl

/-- A text that writes a value is read to the sample of the value. -/
theorem readJson_of_written {place : Place} {n : Nat} {cs : List Char} {d : Datum}
    (h : JsonText.Written n cs d) (hroom : n ≤ p.textLevels) (hmark : cs.head? ≠ some '\ufeff') :
    readJson p place (String.ofList cs) = d.decodeWithin p.valueLevels := by
  rw [readJson, h.read hroom hmark]

/-- A text in quotes is read to the text. -/
theorem readJson_quoted (place : Place) (s : String) :
    readJson p place (String.ofList (JsonText.quoted s)) = .ok (.string s) := by
  rw [readJson_of_written (JsonText.written_quoted s) (Nat.zero_le _)
    (fun h => absurd (Option.some.inj h) (by decide))]
  exact Datum.decodeWithin_of_leaf rfl _

/-- Two brackets are read to the empty array. -/
theorem readJson_noItems (place : Place) : readJson .standard place "[]" = .ok (.array []) :=
  readJson_of_written (n := 1) (JsonText.written_array (List.forall_mem_nil _)) (by decide)
    (by decide)

/-- Lines of accepted texts, and empty lines, are read to the samples of the texts. -/
theorem readLines_of_accepted : ∀ (ls : List String) (number : Nat) {vs : List Sample},
    List.Forall₂ (fun t v => readJson p .document t = .ok v) (ls.filter (· ≠ "")) vs →
    readLines p number ls = .ok vs
  | [], number, vs, h => by
      cases h
      rfl
  | l :: ls, number, vs, h => by
      by_cases hl : l = ""
      · subst hl
        exact readLines_of_accepted ls (number + 1) h
      · rw [List.filter_cons, if_pos (decide_eq_true hl)] at h
        obtain ⟨v, us, hv, hus, rfl⟩ := List.forall₂_cons_left_iff.mp h
        have ih := readLines_of_accepted ls (number + 1) hus
        rw [readLines, isBlankText_of_readJson hv, readJson_of_ok hv (.line number), ih]
        rfl

/-- A line boundary that may stand in a JSON text is one of five characters. -/
theorem isLineBoundary_eq_false {c : Char} (hplain : JsonText.IsPlain c)
    (hone : c ≠ '\n' ∧ c ≠ '\r') (hwide : c ≠ '\u0085' ∧ c ≠ '\u2028' ∧ c ≠ '\u2029') :
    Text.isLineBoundary c = false := by
  have hcontrol : ∀ d, ¬ JsonText.IsPlain d → c ≠ d := fun d hd e => hd (e ▸ hplain)
  simp only [Text.isLineBoundary, Bool.or_eq_false_iff, decide_eq_false_iff_not]
  exact ⟨⟨⟨⟨⟨⟨⟨⟨⟨hone.1, hone.2⟩, hcontrol _ (by decide)⟩, hcontrol _ (by decide)⟩,
    hcontrol _ (by decide)⟩, hcontrol _ (by decide)⟩, hcontrol _ (by decide)⟩, hwide.1⟩, hwide.2.1⟩,
    hwide.2.2⟩

theorem isPlain_of_readJson {place : Place} {s : String} {v : Sample}
    (h : readJson p place s = .ok v) : ∀ c ∈ s.toList, JsonText.IsPlain c := by
  obtain ⟨d, hd, -⟩ := exists_read_of_readJson h
  exact JsonText.isPlain_of_read hd

theorem exists_samples_of_read {hints : List String} : ∀ {ts : List String}
    {results : List (List Sample)},
    List.Forall₂ (fun t samples => Format.json.read p hints t = .ok samples) ts results →
    List.Forall₂ (fun t v => readJson p .document t = .ok v) ts results.flatten
  | [], _, .nil => .nil
  | t :: ts, samples :: results, .cons ht hts => by
      obtain ⟨v, hv, hsamples⟩ := ok_of_bind ht
      cases hsamples
      exact .cons hv (exists_samples_of_read hts)

/-- Texts that JSON accepts, one on a line and with any empty lines between them, are read as JSON
Lines to the samples of the texts in their order. -/
theorem jsonLines_of_json (hints : List String) {lines : List String} {final : String}
    {results : List (List Sample)} (hf : final = "" ∨ final = "\n")
    (hone : ∀ t ∈ lines, ∀ c ∈ t.toList, c ≠ '\n' ∧ c ≠ '\r')
    (hwide : ∀ t ∈ lines, ∀ c ∈ t.toList, c ≠ '\u0085' ∧ c ≠ '\u2028' ∧ c ≠ '\u2029')
    (hread : List.Forall₂ (fun t samples => Format.json.read p hints t = .ok samples)
      (lines.filter (· ≠ "")) results) :
    Format.jsonLines.read p hints ("\n".intercalate lines ++ final) = .ok results.flatten := by
  have haccepted := exists_samples_of_read hread
  have hplain : ∀ t ∈ lines.filter (· ≠ ""), ∀ c ∈ t.toList, JsonText.IsPlain c :=
    (List.forall₂_and_left _ _).mp (haccepted.imp fun t v hv => ⟨isPlain_of_readJson hv, hv⟩) |>.1
  have hlines : ∀ t ∈ lines, ∀ c ∈ t.toList, Text.isLineBoundary c = false := by
    intro t ht c hc
    have hne : t ≠ "" := by
      rintro rfl
      cases hc
    have hmem : t ∈ lines.filter (· ≠ "") := List.mem_filter.mpr ⟨ht, decide_eq_true hne⟩
    exact isLineBoundary_eq_false (hplain t hmem c hc) (hone t ht c hc) (hwide t ht c hc)
  refine readLines_of_accepted _ 1 ?_
  rwa [Text.lines_intercalate hf hlines]

/-- A list and a text, with an empty line between them and a line feed at the end. -/
theorem jsonLines_of_json_of_two :
    Format.jsonLines.read .standard [] ("\n".intercalate ["[]", "", "\"a\""] ++ "\n") =
      .ok [.array [], .string "a"] := by
  have hnone : readJson .standard .document "[]" = .ok (.array []) := readJson_noItems .document
  have htext : readJson .standard .document "\"a\"" = .ok (.string "a") := readJson_quoted _ "a"
  have hread : List.Forall₂ (fun t samples => Format.json.read .standard [] t = .ok samples)
      ["[]", "\"a\""] [[.array []], [.string "a"]] := by
    refine .cons ?_ (.cons ?_ .nil)
    · exact read_json hnone
    · exact read_json htext
  have hone : ∀ t ∈ ["[]", "", "\"a\""], ∀ c ∈ t.toList, c ≠ '\n' ∧ c ≠ '\r' := by simp
  exact jsonLines_of_json [] (.inr rfl) hone (by simp) hread

/-- The text of a line separator is JSON, and as JSON Lines it is refused. -/
theorem not_jsonLines_of_json :
    Format.json.read .standard [] "\"\u2028\"" = .ok [.string "\u2028"] ∧
      Format.jsonLines.read .standard [] "\"\u2028\"" ≠ .ok [.string "\u2028"] := by
  have htext : readJson .standard .document "\"\u2028\"" = .ok (.string "\u2028") :=
    readJson_quoted _ "\u2028"
  refine ⟨read_json htext, fun h => ?_⟩
  -- the first line is a quote that nothing closes
  have hlines : Text.lines "\"\u2028\"" = ["\"", "\""] := by decide +kernel
  have hblank : Text.isBlankText "\"" = false := by decide +kernel
  rw [Format.read, hlines, readLines, hblank, if_neg Bool.false_ne_true] at h
  obtain ⟨v, hv, -⟩ := ok_of_bind h
  obtain ⟨d, hd, -⟩ := exists_read_of_readJson hv
  obtain ⟨used, hused, -, hafter⟩ := JsonText.moves_of_read hd
  rw [List.append_nil] at hused
  subst hused
  exact absurd (congrArg JsonText.Brackets.quotes hafter) (by decide)

end Format

end SampleSchema
