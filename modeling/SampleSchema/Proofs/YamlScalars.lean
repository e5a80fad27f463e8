import SampleSchema.Proofs.YamlReaders
import SampleSchema.Yaml.Token.Scalar

/-!
# What readers of scalars fail for

Scalars are plain, in quotes or in blocks, and none of their readers leaves the text (`Reads`).  Only
an escape inside of double quotes can fail otherwise than by a malformed text, and it does so by the
number of its character (`codeChar_expected`).
-/

namespace SampleSchema.Yaml

namespace Reads

variable {α β : Type} {cs : List Char}

/-- The line ends inside of a plain scalar stay inside of the text. -/
theorem plainBreaks : Reads cs plainBreaks := by
  refine .many (fun breaks => .bind .skipSpaces fun _ => ?_) _
  split
  · exact .pure _
  · refine .bind .lineBreak fun _ => ?_
    split
    · exact .pure _
    · refine .look fun c => ?_
      split
      · exact .pure _
      · exact .pure _

theorem plainSpace : Reads cs plainSpace := by
  refine .bind (.takeWhile _) fun _ => .bind .lineBreak fun _ => ?_
  split
  · exact .pure _
  · refine .look fun c => ?_
    split
    · exact .pure _
    · refine .bind .plainBreaks fun _ => ?_
      split
      · exact .pure _
      · exact .pure _

/-- A plain scalar is read, or the text is malformed. -/
theorem plainScalar (flow : Bool) (indent : Int) : Reads cs (plainScalar flow indent) := by
  refine .bind (.many (fun t => .look fun c => ?_) _) fun _ => .pure _
  extract_lets run
  refine .bind (.peek 0) fun _ => ?_
  split
  · exact .pure _
  · exact .bind (.skip _) fun _ => .bind .plainSpace fun _ => .look fun _ => .pure _

theorem quotedBreaks : Reads cs quotedBreaks := by
  refine .many (fun text => .look fun c => ?_) _
  extract_lets jp
  have hrest : Reads cs (jp ()) := .bind (.takeWhile _) fun _ => .bind .lineBreak fun _ => .pure _
  split
  · exact .bind .refuse fun _ => hrest
  · exact hrest

/-- A code point that is written in an escape. -/
theorem codeChar_expected {letter : Char} {digits : List Char} {ns : List Nat} {f : Fault}
    (hpart : '\\' :: letter :: digits <:+: cs) (hns : digits.mapM Text.hexValue? = some ns)
    (hcount : codeDigits? letter = some ns.length)
    (h : codeChar (ns.foldl (fun n d => 16 * n + d) 0) = .error f) : Expected cs f := by
  refine .inr (.inr ⟨letter, digits, ns, hpart, hns, hcount, ?_⟩)
  generalize ns.foldl (fun n d => 16 * n + d) 0 = n at h ⊢
  by_contra hpoint
  have hcode : ¬ maxCode < n :=
    fun hlt => hpoint (Nat.lt_trans (by decide : maxCodePoint < maxCode) hlt)
  rw [codeChar, if_neg hcode, if_neg hpoint] at h
  by_cases hvalid : n.isValidChar
  · rw [dif_pos hvalid] at h
    cases h
  · rw [dif_neg hvalid] at h
    cases h

/-- An escape fails unexpectedly only where a number is no code point. -/
theorem escape : Ends (fun c => '\\' :: c.rest <:+ cs) (Expected cs) escape fun _ c =>
    c.rest <:+ cs := by
  refine Ends.bind (peek_eq 0 _) fun x => ?_
  split
  · exact Ends.throw (.inl rfl)
  · rename_i letter
    have hrest : ∀ c : Cursor, some letter = c.peek 0 ∧ '\\' :: c.rest <:+ cs → c.rest <:+ cs :=
      fun c h => (List.suffix_cons _ _).trans h.2
    split
    · exact Ends.imp hrest (fun _ _ h => h) (Reads.bind (.skip 1) fun _ => .pure _)
    · rename_i n _ hn
      refine Ends.bind (skip_known ['\\'] letter) fun _ => Ends.get_bind fun c hc => ?_
      extract_lets digits
      have hpart : '\\' :: letter :: digits <:+: cs := by
        refine List.IsInfix.trans ?_ hc.isInfix
        exact List.IsPrefix.isInfix (by simpa using List.take_prefix n c.rest)
      have hcursor : ∀ d, d = c → d.rest <:+ cs := by
        rintro d rfl
        exact (List.suffix_cons _ _).trans ((List.suffix_cons _ _).trans hc)
      split
      · rename_i ns hns
        refine Ends.bind (need_true _ _) fun _ => Ends.given fun hlength => ?_
        have hcount : codeDigits? letter = some ns.length := by
          rw [hn, of_decide_eq_true hlength]
        refine Ends.imp hcursor (fun _ _ h => h)
          (Reads.bind (.skip n) fun _ => Reads.bind ?_ fun _ => .pure _)
        exact Ends.lifted (fun _ _ _ h => h) fun f hf => codeChar_expected hpart hns hcount hf
      · exact Ends.throw (.inl rfl)
    · exact Ends.imp hrest (fun _ _ h => h)
        (Reads.bind (.need _) fun _ => .bind .lineBreak fun _ => .quotedBreaks)

/-- Blanks and line ends between quotes stay inside of the text. -/
theorem quotedSpace : Reads cs quotedSpace := by
  refine .bind (.takeWhile _) fun _ => .bind .lineBreak fun _ => ?_
  split
  · exact .pure _
  · exact .bind .quotedBreaks fun _ => .pure _

/-- A piece of a quoted scalar is no fault, unless it is an escape by a number of no character. -/
theorem quotedPiece (quote : Char) (text : String) : Reads cs (quotedPiece quote text) := by
  refine Ends.bind (peek_eq 0 _) fun x => ?_
  have hrest : ∀ c : Cursor, x = c.peek 0 ∧ c.rest <:+ cs → c.rest <:+ cs := fun _ h => h.2
  split
  · exact Ends.throw (.inl rfl)
  · rename_i c
    split
    · refine Ends.imp hrest (fun _ _ h => h) (Reads.bind (.peek 1) fun _ => ?_)
      split
      · exact .bind (.skip 2) fun _ => .pure _
      · exact .bind (.skip 1) fun _ => .pure _
    · split
      · rename_i hmark
        obtain rfl : c = '\\' := of_decide_eq_true (Bool.and_eq_true_iff.mp hmark).1
        exact Ends.bind (skip_known [] '\\') fun _ => Ends.bind Reads.escape fun _ => Reads.pure _
      · split
        · exact Ends.imp hrest (fun _ _ h => h) (Reads.bind .quotedSpace fun _ => .pure _)
        · exact Ends.imp hrest (fun _ _ h => h) (Reads.bind (.takeWhile _) fun _ => .pure _)

/-- A quoted scalar is no fault but for its escapes. -/
theorem quotedScalar (quote : Char) : Reads cs (quotedScalar quote) :=
  .bind (.skip 1) fun _ => .many (.quotedPiece quote) _

/-- The signs after the start of a block stay inside of the text. -/
theorem blockHeader : Reads cs blockHeader := by
  refine .bind (.peek 0) fun _ => .skipIf _ fun _ => .bind (.peek 0) fun _ => .skipIf _ fun _ =>
    .bind (.peek 0) fun _ => .skipIf _ fun _ => ?_
  exact .bind (.need _) fun _ => .bind (.peek 0) fun _ => .bind (.need _) fun _ =>
    .bind .commentLine fun _ => .pure _

theorem blockIndentation : Reads cs blockIndentation :=
  .many (fun _ => .bind (.takeWhile _) fun _ => .look fun _ => .bind .lineBreak fun _ => .pure _) _

theorem skipIndent (indent : Nat) : Reads cs (skipIndent indent) := .look fun _ => .skip _

theorem blockBreaks (indent : Nat) : Reads cs (blockBreaks indent) :=
  .many (fun _ => .bind (.skipIndent indent) fun _ => .bind .lineBreak fun _ => .pure _) _

/-- A line of a block stays inside of the text. -/
theorem blockLine (fold : Bool) (indent : Nat) (t : BlockText) :
    Reads cs (blockLine fold indent t) := by
  refine .look fun c => ?_
  split
  · exact .pure _
  · refine .bind (.takeWhile _) fun _ => .bind .lineBreak fun _ => ?_
    refine .bind (.blockBreaks indent) fun _ => .look fun d => ?_
    split
    · exact .pure _
    · exact .pure _

/-- A block scalar is read, or the text is malformed. -/
theorem blockScalar (fold : Bool) (parent : Int) : Reads cs (blockScalar fold parent) := by
  refine .bind (.skip 1) fun _ => .bind .blockHeader fun header => ?_
  split
  extract_lets least jp
  have hrest : ∀ x, Reads cs (jp x) := fun _ =>
    .look fun _ => .bind (.many (fun _ => .blockLine fold _ _) _) fun _ => .pure _
  split
  · exact .bind .blockIndentation fun _ => .bind (.pure _) hrest
  · exact .bind (.blockBreaks _) fun _ => .bind (.pure _) hrest

end Reads

end SampleSchema.Yaml
