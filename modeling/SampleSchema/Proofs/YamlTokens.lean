import SampleSchema.Proofs.YamlScalars
import SampleSchema.Yaml.Token.Reader

/-!
# The faults among the tokens of YAML

A step of the reading of tokens adds no fault to them, and it fails as its readers do (`Scans`).  So
the only fault among the tokens of a text is one that may come up while it is read
(`expected_of_mem_tokens`).
-/

namespace SampleSchema.Yaml

/-- Whether a reading of tokens is inside of a text and has met no fault. -/
structure Scanner.Sound (cs : List Char) (s : Scanner) : Prop where
  rest   : s.cursor.rest <:+ cs
  tokens : ∀ f, Token.fault f ∉ s.tokens

/-- Whether a step of a reading of tokens keeps it inside of a text and without faults, and fails for
nothing unexpected. -/
def Scans {α : Type} (cs : List Char) (m : Scan α) : Prop :=
  Keeps (Scanner.Sound cs) (Expected cs) m

namespace Scans

variable {α β : Type} {cs : List Char}

theorem pure (a : α) : Scans cs (Pure.pure a) := Ends.pure fun _ h => h

/-- A scanner may go on from what was scanned. -/
theorem bind {m : Scan α} {f : α → Scan β} (hm : Scans cs m) (hf : ∀ a, Scans cs (f a)) :
    Scans cs (m >>= f) := Ends.bind hm hf

theorem ite {c : Prop} [Decidable c] {m n : Scan α} (hm : Scans cs m) (hn : Scans cs n) :
    Scans cs (if c then m else n) := by
  split
  · exact hm
  · exact hn

/-- A look at the state of the reading. -/
theorem look {f : Scanner → Scan α} (h : ∀ s, s.Sound cs → Scans cs (f s)) :
    Scans cs (get >>= f) :=
  Ends.get_bind fun s hs => (h s hs).imp (fun _ he => he ▸ hs) fun _ _ ht => ht

theorem refuse : Scans cs (throw .malformed : Scan α) := Ends.throw (.inl rfl)

/-- A change of what is neither the place nor the tokens. -/
theorem change {f : Scanner → Scanner} (hcursor : ∀ s, (f s).cursor = s.cursor)
    (htokens : ∀ s, (f s).tokens = s.tokens) : Scans cs (modify f) :=
  Ends.modified fun s hs => ⟨hcursor s ▸ hs.rest, htokens s ▸ hs.tokens⟩

/-- A scanner may be put in the place of another, if its tokens hold expected faults only. -/
theorem replace {s : Scanner} (hs : s.Sound cs) : Scans cs (set s) := Ends.replaced fun _ _ => hs

/-- What is known of what a reader gives is known of what is read from the text. -/
theorem reading_given {r : Read α} {q : α → Prop}
    (h : Ends (fun c => c.rest <:+ cs) (Expected cs) r fun a c => q a ∧ c.rest <:+ cs) :
    Ends (Scanner.Sound cs) (Expected cs) (Scan.reading r) fun a s => q a ∧ s.Sound cs := by
  intro s hs
  obtain ⟨hok, herror⟩ := h s.cursor hs.rest
  unfold Scan.reading
  cases hr : r s.cursor with
  | error f =>
      refine ⟨nofun, ?_⟩
      rintro _ ⟨⟩
      exact herror f hr
  | ok x =>
      refine ⟨?_, nofun⟩
      rintro _ _ ⟨⟩
      exact ⟨(hok x.1 x.2 hr).1, (hok x.1 x.2 hr).2, hs.tokens⟩

/-- A reading of characters scans them without another fault. -/
theorem reading {r : Read α} (h : Reads cs r) : Scans cs (Scan.reading r) :=
  (reading_given (h.imp (fun _ hc => hc) fun _ _ hc => ⟨trivial, hc⟩)).imp (fun _ hs => hs)
    fun _ _ hs => hs.2

/-- A token that is no fault may be noted. -/
theorem emit {t : Token} (ht : ∀ f, t ≠ .fault f) : Scans cs (Scan.emit t) :=
  Ends.modified fun s hs => ⟨hs.rest, fun f hf => by
    rcases Array.mem_push.mp hf with hf | hf
    · exact hs.tokens f hf
    · exact ht f hf.symm⟩

/-- A token that is no fault may be noted in front of others. -/
theorem insertToken (index : Nat) {t : Token} (ht : ∀ f, t ≠ .fault f) :
    Scans cs (Scan.insertToken index t) := by
  refine Ends.modified fun s hs => ⟨hs.rest, fun f hf => ?_⟩
  have hmem : .fault f ∈ s.tokens.insertIdxIfInBounds index t := hf
  unfold Array.insertIdxIfInBounds at hmem
  split at hmem
  · rcases Array.mem_insertIdx.mp hmem with hmem | hmem
    · exact ht f hmem.symm
    · exact hs.tokens f hmem
  · exact hs.tokens f hmem

theorem inFlow : Scans cs Scan.inFlow := .look fun _ _ => .pure _

theorem column : Scans cs Scan.column := .look fun _ _ => .pure _

theorem allowKey (allowed : Bool) : Scans cs (Scan.allowKey allowed) :=
  .change (fun _ => rfl) fun _ => rfl

/-- Closing the blocks that end before a column is no fault. -/
theorem closeBlocks (column : Int) : ∀ indents, Scans cs (Scan.closeBlocks column indents)
  | [] => .pure _
  | outer :: rest => by
      refine .look fun s hs => ?_
      split
      · exact .bind (.emit nofun) fun _ => .bind (.change (fun _ => rfl) fun _ => rfl) fun _ =>
          closeBlocks column rest
      · exact .pure _

/-- Leaving the blocks that a column ends is no fault. -/
theorem unwind (column : Int) : Scans cs (Scan.unwind column) := by
  refine .bind .inFlow fun flow => ?_
  split
  · exact .look fun s hs => .closeBlocks column s.indents
  · exact .pure _

theorem openBlock (column : Int) : Scans cs (Scan.openBlock column) := by
  refine .look fun s hs => ?_
  split
  · exact .bind (.replace ⟨hs.rest, hs.tokens⟩) fun _ => .pure _
  · exact .pure _

/-- A possible key is given up, or the text is malformed where it had to be one. -/
theorem giveUp (key : Option PossibleKey) : Scans cs (Scan.giveUp key) := by
  unfold Scan.giveUp
  split
  · exact .refuse
  · exact .pure _

theorem removeKey : Scans cs Scan.removeKey := by
  refine .look fun s hs => ?_
  split
  · exact .pure _
  · exact .bind (.giveUp _) fun _ => .replace ⟨hs.rest, hs.tokens⟩

theorem dropStaleKeys : Scans cs Scan.dropStaleKeys := by
  refine .look fun s hs => ?_
  extract_lets isStale
  exact .bind (Ends.keeps_forM fun key _ => Scans.giveUp _) fun _ => .replace ⟨hs.rest, hs.tokens⟩

/-- Noting a possible key is no fault. -/
theorem saveKey : Scans cs Scan.saveKey := by
  refine .look fun s hs => ?_
  split
  · refine .bind .removeKey fun _ => .bind .inFlow fun _ => ?_
    exact .replace ⟨hs.rest, hs.tokens⟩
  · exact .pure _

/-- Skipping blanks and comments is no fault. -/
theorem skipToToken : Scans cs Scan.skipToToken := by
  refine .bind .inFlow fun flow => .bind (.reading (.many (fun broken => ?_) _)) fun broken => ?_
  · refine .bind .skipSpaces fun _ => .bind (.peek 0) fun _ => ?_
    extract_lets jp
    have hrest : Reads cs (jp ()) := .bind .lineBreak fun _ => .pure _
    split
    · exact .bind (.takeWhile _) fun _ => hrest
    · exact hrest
  · split
    · exact .allowKey true
    · exact .pure _

theorem mark (length : Nat) {t : Token} (ht : ∀ f, t ≠ .fault f) : Scans cs (Scan.mark length t) :=
  .bind (.reading (.skip length)) fun _ => .emit ht

/-- A line with a directive has no fault but that of a long version. -/
theorem directiveLine : Scans cs Scan.directiveLine :=
  .bind (.unwind _) fun _ => .bind .removeKey fun _ => .bind (.allowKey _) fun _ =>
    .bind (.reading .directive) fun _ => .emit nofun

theorem separator {t : Token} (ht : ∀ f, t ≠ .fault f) : Scans cs (Scan.separator t) :=
  .bind (.unwind _) fun _ => .bind .removeKey fun _ => .bind (.allowKey _) fun _ => .mark 3 ht

/-- The start of a collection in brackets is no fault. -/
theorem flowStart {t : Token} (ht : ∀ f, t ≠ .fault f) : Scans cs (Scan.flowStart t) :=
  .bind .saveKey fun _ => .bind (.change (fun _ => rfl) fun _ => rfl) fun _ =>
    .bind (.allowKey _) fun _ => .mark 1 ht

/-- The end of a collection in brackets is no fault. -/
theorem flowEnd {t : Token} (ht : ∀ f, t ≠ .fault f) : Scans cs (Scan.flowEnd t) :=
  .bind .removeKey fun _ => .bind (.change (fun _ => rfl) fun _ => rfl) fun _ =>
    .bind (.allowKey _) fun _ => .mark 1 ht

theorem flowSeparator : Scans cs Scan.flowSeparator :=
  .bind (.allowKey _) fun _ => .bind .removeKey fun _ => .mark 1 nofun

/-- A block is opened where one may be, or the text is malformed. -/
theorem openBlockAt (column : Int) {t : Token} (ht : ∀ f, t ≠ .fault f) :
    Scans cs (Scan.openBlockAt column t) := by
  refine .bind .inFlow fun _ => ?_
  split
  · refine .look fun s hs => ?_
    extract_lets jp
    have hrest : Scans cs (jp ()) := by
      refine .bind (.openBlock column) fun _ => ?_
      split
      · exact .emit ht
      · exact .pure _
    split
    · exact .bind .refuse fun _ => hrest
    · exact hrest
  · exact .pure _

theorem dash : Scans cs Scan.dash :=
  .bind .column fun _ => .bind (.openBlockAt _ nofun) fun _ => .bind (.allowKey _) fun _ =>
    .bind .removeKey fun _ => .mark 1 nofun

theorem questionMark : Scans cs Scan.questionMark :=
  .bind .column fun _ => .bind (.openBlockAt _ nofun) fun _ => .bind .inFlow fun _ =>
    .bind (.allowKey _) fun _ => .bind .removeKey fun _ => .mark 1 nofun

/-- A colon makes a key of what stands before it, or the text is malformed. -/
theorem colon : Scans cs Scan.colon := by
  refine .look fun s hs => ?_
  extract_lets jp jp'
  have hrest : Scans cs (jp ()) := .mark 1 nofun
  have hafter : Scans cs (jp' ()) := .bind (.allowKey false) fun _ => hrest
  split
  · exact .bind (.replace ⟨hs.rest, hs.tokens⟩) fun _ => .bind (.insertToken _ nofun) fun _ =>
      .bind .inFlow fun _ => .ite (.bind (.openBlock _) fun _ =>
        .ite (.bind (.insertToken _ nofun) fun _ => hafter) hafter) hafter
  · exact .bind .column fun _ => .bind (.openBlockAt _ nofun) fun _ => .bind .inFlow fun _ =>
      .bind (.allowKey _) fun _ => .bind .removeKey fun _ => hrest

/-- A token that may start a key is no fault. -/
theorem keyPart {r : Read Token} (h : Ends (fun c => c.rest <:+ cs) (Expected cs) r fun t c =>
    (∀ f, t ≠ .fault f) ∧ c.rest <:+ cs) : Scans cs (Scan.keyPart r) :=
  .bind .saveKey fun _ => .bind (.allowKey _) fun _ =>
    Ends.bind (reading_given h) fun _ => Ends.given fun ht => Scans.emit ht

theorem plain : Scans cs Scan.plain :=
  .bind .saveKey fun _ => .bind .inFlow fun _ => .look fun _ _ =>
    .bind (.reading (.plainScalar _ _)) fun _ => .bind (.allowKey _) fun _ => .emit nofun

theorem block (fold : Bool) : Scans cs (Scan.block fold) :=
  .bind (.allowKey _) fun _ => .bind .removeKey fun _ => .look fun _ _ =>
    .bind (.reading (.blockScalar _ _)) fun _ => .emit nofun

/-- At the end all blocks are closed. -/
theorem finish : Scans cs Scan.finish :=
  .bind (.unwind _) fun _ => .bind .removeKey fun _ => .emit nofun

/-- Every character starts a token, or the text is malformed. -/
theorem tokenAt (c : Char) : Scans cs (Scan.tokenAt c) := by
  refine .bind .inFlow fun flow => .look fun s hs => ?_
  refine .ite .directiveLine <| .ite (.separator nofun) <| .ite (.separator nofun) <|
    .ite (.flowStart nofun) <| .ite (.flowStart nofun) <| .ite (.flowEnd nofun) <|
    .ite (.flowEnd nofun) <| .ite .flowSeparator <| .ite .dash <| .ite .questionMark <|
    .ite .colon <| .ite (.keyPart ?_) <| .ite (.keyPart ?_) <| .ite (.keyPart ?_) <|
    .ite (.block false) <| .ite (.block true) <| .ite (.keyPart ?_) <| .ite .refuse .plain
  · exact Ends.bind Reads.anchorName fun _ => Ends.pure fun _ h => ⟨nofun, h⟩
  · exact Ends.bind Reads.anchorName fun _ => Ends.pure fun _ h => ⟨nofun, h⟩
  · exact Ends.bind Reads.tag fun _ => Ends.pure fun _ h => ⟨nofun, h⟩
  · exact Ends.bind (Reads.quotedScalar c) fun _ => Ends.pure fun _ h => ⟨nofun, h⟩

/-- **A token is scanned without a fault that is not expected.** -/
theorem nextToken : Scans cs Scan.nextToken := by
  refine .bind .skipToToken fun _ => .bind .dropStaleKeys fun _ => .bind .column fun _ =>
    .bind (.unwind _) fun _ => .look fun s hs => ?_
  split
  · exact .bind .finish fun _ => .pure _
  · exact .bind (.tokenAt _) fun _ => .bind .dropStaleKeys fun _ => .pure _

end Scans

/-- The faults among the tokens of a reading. -/
theorem Scanner.expected_of_mem_run {cs : List Char} {f : Fault} (s : Scanner) (hs : s.Sound cs)
    (hf : Token.fault f ∈ s.run) : Expected cs f := by
  rw [Scanner.run] at hf
  split at hf
  · rename_i reason hnext
    rcases Array.mem_push.mp hf with hf | hf
    · have hmem : Token.fault f ∈ s.tokens := by
        rw [Array.take, ← Array.mem_toList_iff, Array.toList_extract, List.extract_eq_take_drop] at hf
        exact Array.mem_toList_iff.mp (List.mem_of_mem_drop (List.mem_of_mem_take hf))
      exact absurd hmem (hs.tokens f)
    · cases hf
      exact (Scans.nextToken s hs).2 f hnext
  · rename_i more t hnext
    have ht : t.Sound cs := (Scans.nextToken s hs).1 more t hnext
    split at hf
    · exact expected_of_mem_run t ht hf
    · exact absurd hf (ht.tokens f)
termination_by s.cursor.left
decreasing_by simp_all

/-- The only fault among the tokens of a text is one that may come up while it is read. -/
theorem expected_of_mem_tokens {s : String} {f : Fault} (hf : Token.fault f ∈ tokens s) :
    Expected s.toList f := by
  unfold tokens at hf
  split at hf
  · obtain rfl : f = .malformed := by simpa using hf
    exact .inl rfl
  · extract_lets start start' at hf
    have hstart : start'.rest <:+ s.toList := by
      unfold start'
      split
      · rw [Cursor.rest_next]
        exact List.tail_suffix _
      · exact List.suffix_rfl
    have hsound : Scanner.Sound s.toList { cursor := start' } := ⟨hstart, fun f => by simp⟩
    exact Scanner.expected_of_mem_run _ hsound (Array.mem_toList_iff.mp hf)

end SampleSchema.Yaml
