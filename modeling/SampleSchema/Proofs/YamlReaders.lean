import Mathlib.Data.List.TakeWhile
import Mathlib.Order.Basic
import SampleSchema.Proofs.Faults
import SampleSchema.Yaml.Token
import SampleSchema.Yaml.Token.Scalar

/-!
# What readers of YAML fail for

A reader that starts inside of a text stays inside of it, and where it fails the text is malformed,
unless a version has more digits than an integer may have or an escape is by a number that is no code
point (`Expected`).  `Reads` says both, and there is one lemma for each reader.
-/

namespace SampleSchema.Yaml

/-- Whether a character may stand between the name of a directive and a number of the version. -/
def IsVersionChar (c : Char) : Prop := c = ' ' ∨ c = '.' ∨ c.isDigit = true

/-- Whether a number of the version of YAML is written with more digits than an integer may have. -/
def LongVersion (cs : List Char) : Prop :=
  ∃ before ds, "YAML".toList ++ before ++ ds <:+: cs ∧
    (∀ c ∈ before, IsVersionChar c) ∧
    (∀ d ∈ ds, d.isDigit = true) ∧ Literal.maxDigits < ds.length

/-- Whether a text has an escape by a number that is no code point. -/
def HugeCode (cs : List Char) : Prop :=
  ∃ letter ds ns, '\\' :: letter :: ds <:+: cs ∧ ds.mapM Text.hexValue? = some ns ∧
    codeDigits? letter = some ns.length ∧ maxCodePoint < ns.foldl (fun n d => 16 * n + d) 0

/-- Whether a fault may come up while a text is read. -/
def Expected (cs : List Char) (f : Fault) : Prop := f = .malformed ∨ LongVersion cs ∨ HugeCode cs

/-- Whether a reader stays inside of a text and fails for nothing unexpected. -/
def Reads {α : Type} (cs : List Char) (m : Read α) : Prop :=
  Keeps (fun c => c.rest <:+ cs) (Expected cs) m

/-! ### Cursors -/

/-- After the next character the rest of the text is shorter by one, also across a line end. -/
theorem Cursor.rest_next (c : Cursor) : c.next.rest = c.rest.tail := by
  unfold next
  split
  · rename_i h
    rw [h]
    rfl
  · rename_i h
    rw [h]
    split <;> rfl

/-- After `n` characters the rest of the text is shorter by `n`. -/
theorem Cursor.rest_forward : ∀ (n : Nat) (c : Cursor), (c.forward n).rest = c.rest.drop n
  | 0, _ => rfl
  | n + 1, c => by rw [forward, rest_forward n c.next, rest_next, List.drop_tail]

namespace Reads

variable {α β : Type} {cs : List Char}

theorem pure (a : α) : Reads cs (Pure.pure a) := Ends.pure fun _ h => h

/-- What follows a reading may depend on its value, not on where it ended. -/
theorem bind {m : Read α} {f : α → Read β} (hm : Reads cs m) (hf : ∀ a, Reads cs (f a)) :
    Reads cs (m >>= f) := Ends.bind hm hf

/-- A look at the place of the cursor. -/
theorem look {f : Cursor → Read α} (h : ∀ c, Reads cs (f c)) : Reads cs (get >>= f) :=
  Ends.get_bind fun c hc => (h c).imp (fun _ he => he ▸ hc) fun _ _ hd => hd

theorem refuse : Reads cs (refuse : Read α) := Ends.throw (.inl rfl)

/-- A repetition fails only as its step does. -/
theorem many {step : α → Read (α × Bool)} (h : ∀ a, Reads cs (step a)) (a : α) :
    Reads cs (many step a) := by
  intro c hc
  induction hn : c.left using Nat.strong_induction_on generalizing a c with
  | _ n ih =>
      subst hn
      rw [Yaml.many]
      cases hstep : step a c with
      | error f =>
          refine ⟨nofun, ?_⟩
          rintro _ ⟨⟩
          exact (h a c hc).2 f hstep
      | ok x =>
          obtain ⟨⟨b, more⟩, d⟩ := x
          have hd : d.rest <:+ cs := (h a c hc).1 _ d hstep
          have hstop : (∀ x t, (Except.ok (b, d) : Except Fault (α × Cursor)) = .ok (x, t) →
              t.rest <:+ cs) ∧ ∀ f, (Except.ok (b, d) : Except Fault (α × Cursor)) = .error f →
              Expected cs f := by
            refine ⟨?_, nofun⟩
            rintro _ _ ⟨⟩
            exact hd
          cases more with
          | false => exact hstop
          | true =>
              by_cases hleft : d.left < c.left
              · have hmore := ih d.left hleft b d hd rfl
                simpa only [Bind.bind, Except.bind, if_pos hleft, if_true] using hmore
              · simp only [Bind.bind, Except.bind, if_neg hleft, if_true]
                exact hstop

theorem skip (n : Nat) : Reads cs (skip n) := Ends.modified fun c hc => by
  rw [Cursor.rest_forward]
  exact (List.drop_suffix n c.rest).trans hc

/-- A mark that may be missing. -/
theorem skipIf (c : Prop) [Decidable c] {f : Unit → Read α} (h : ∀ u, Reads cs (f u)) :
    Reads cs (if c then Yaml.skip 1 >>= f else f ()) := by
  split
  · exact .bind (.skip 1) h
  · exact h ()

theorem peek (n : Nat) : Reads cs (peek n) := .look fun _ => .pure _

/-- A character that is looked at is known where the reading goes on. -/
theorem peek_eq (n : Nat) (p : Cursor → Prop) :
    Ends p (Expected cs) (Yaml.peek n) fun x c => x = c.peek n ∧ p c :=
  Ends.get_bind fun c hc => .pure fun _ he => by
    subst he
    exact ⟨rfl, hc⟩

/-- A known character is behind the cursor after it is read. -/
theorem skip_known (before : List Char) (x : Char) :
    Ends (fun c => some x = c.peek 0 ∧ before ++ c.rest <:+ cs) (Expected cs) (Yaml.skip 1)
      fun _ c => before ++ x :: c.rest <:+ cs := by
  refine Ends.modified fun c ⟨hx, hc⟩ => ?_
  obtain ⟨rest, hrest⟩ : ∃ rest, c.rest = x :: rest := by
    rw [Cursor.peek, ← List.head?_eq_getElem?] at hx
    exact List.head?_eq_some_iff.mp hx.symm
  rw [Cursor.rest_forward]
  rwa [hrest] at hc ⊢

/-- What a reading needs holds where it goes on. -/
theorem need_true (condition : Bool) (p : Cursor → Prop) :
    Ends p (Expected cs) (Yaml.need condition) fun _ c => condition = true ∧ p c := by
  unfold Yaml.need
  split
  · exact .pure fun _ hc => ⟨‹_›, hc⟩
  · exact .throw (.inl rfl)

theorem need (condition : Bool) : Reads cs (need condition) := by
  unfold Yaml.need
  split
  · exact .pure ()
  · exact .refuse

/-- The longest run of characters of a class is behind the cursor after it is read. -/
theorem takeWhile_known (before : List Char) (p : Char → Bool) :
    Ends (fun c => before ++ c.rest <:+ cs) (Expected cs) (Yaml.takeWhile p) fun run c =>
      (∀ d ∈ run, p d = true) ∧ before ++ run ++ c.rest <:+ cs := by
  refine Ends.get_bind fun c hc => Ends.bind (q := fun _ d =>
    before ++ c.rest.takeWhile p ++ d.rest <:+ cs) (Ends.modified ?_) fun _ =>
      .pure fun _ hd => ⟨fun _ => List.mem_takeWhile_imp, hd⟩
  rintro _ rfl
  rw [Cursor.rest_forward, List.append_assoc,
    List.prefix_iff_eq_append.mp (List.takeWhile_prefix p)]
  exact hc

/-- Taking characters while they pass a test reads forward only. -/
theorem takeWhile (p : Char → Bool) : Reads cs (takeWhile p) :=
  .look fun _ => .bind (.skip _) fun _ => .pure _

theorem lineBreak : Reads cs lineBreak := by
  unfold Yaml.lineBreak
  refine .bind (.peek 0) fun c => ?_
  split
  · split
    · exact .bind (.skip 1) fun _ => .pure _
    · split
      · exact .bind (.peek 1) fun _ => .bind (.skip _) fun _ => .pure _
      · exact .pure _
  · exact .pure _

theorem skipSpaces : Reads cs skipSpaces := .bind (.takeWhile _) fun _ => .pure _

theorem commentLine : Reads cs commentLine := by
  refine .bind .skipSpaces fun _ => .bind (.peek 0) fun c => ?_
  extract_lets jp
  have hrest : Reads cs (jp ()) :=
    .bind (.peek 0) fun _ => .bind (.need _) fun _ => .bind .lineBreak fun _ => .pure _
  split
  · exact .bind (.takeWhile _) fun _ => hrest
  · exact hrest

/-- The name that was read stands in the text in front of where the reading goes on. -/
theorem name_known : Ends (fun c => c.rest <:+ cs) (Expected cs) Yaml.name fun n c =>
    n.toList ++ c.rest <:+ cs := by
  refine Ends.bind (takeWhile_known [] _) fun run => Ends.bind (need_true _ _) fun _ => ?_
  exact .pure fun c hc => by simpa using hc.2.2

theorem name : Reads cs name :=
  .bind (.takeWhile _) fun _ => .bind (.need _) fun _ => .pure _

/-! ### Names, tags and directives -/

/-- Whether the cursor stands in the version of YAML. -/
def InVersion (cs : List Char) (c : Cursor) : Prop :=
  ∃ before, "YAML".toList ++ before ++ c.rest <:+ cs ∧ ∀ x ∈ before, IsVersionChar x

/-- Where a version may be, the rest is one of the text. -/
theorem InVersion.isSuffix {c : Cursor} (h : InVersion cs c) : c.rest <:+ cs := by
  obtain ⟨before, h, -⟩ := h
  exact (List.suffix_append _ _).trans h

/-- A run of characters that may stand in a version. -/
theorem versionRun {p : Char → Bool} (hp : ∀ x, p x = true → IsVersionChar x) :
    Ends (InVersion cs) (Expected cs) (Yaml.takeWhile p) fun run c => ((∀ d ∈ run, p d = true) ∧
      ∃ before, "YAML".toList ++ before ++ run <:+: cs ∧ ∀ x ∈ before, IsVersionChar x) ∧
        InVersion cs c := by
  intro c ⟨before, hc, hbefore⟩
  refine ⟨fun run d hd => ?_, (takeWhile_known _ p c hc).2⟩
  obtain ⟨hrun, h⟩ := (takeWhile_known _ p c hc).1 run d hd
  refine ⟨⟨hrun, before, (List.prefix_append _ _).isInfix.trans h.isInfix, hbefore⟩, before ++ run, ?_, ?_⟩
  · rwa [← List.append_assoc]
  · exact List.forall_mem_append.mpr ⟨hbefore, fun x hx => hp x (hrun x hx)⟩

/-- The point in a version leaves the reading before its second number. -/
theorem versionPoint :
    Ends (fun c => some '.' = c.peek 0 ∧ InVersion cs c) (Expected cs) (Yaml.skip 1) fun _ =>
      InVersion cs := by
  rintro c ⟨hx, before, hc, hbefore⟩
  refine ⟨fun _ d hd => ⟨before ++ ['.'], ?_, ?_⟩, (skip_known _ '.' c ⟨hx, hc⟩).2⟩
  · simpa using (skip_known _ '.' c ⟨hx, hc⟩).1 _ d hd
  · exact List.forall_mem_append.mpr ⟨hbefore, List.forall_mem_singleton.mpr (.inr (.inl rfl))⟩

/-- A version is read without a fault, unless one of its numbers is too long. -/
theorem versionNumber : Keeps (InVersion cs) (Expected cs) versionNumber := by
  refine Ends.bind (versionRun fun x hx => .inr (.inr hx)) fun ds => Ends.given fun ⟨hrun, before, hpart, hbefore⟩ => ?_
  refine Ends.bind ((need_true _ _).post fun _ _ h => h.2) fun _ => ?_
  extract_lets jp
  have hrest : Keeps (InVersion cs) (Expected cs) (jp ()) := .pure fun _ h => h
  split
  · exact Ends.bind (Ends.throw (.inr (.inl ⟨before, ds, hpart, hbefore, hrun, ‹_›⟩))) fun _ => hrest
  · exact hrest

theorem tagHandle : Reads cs tagHandle := by
  refine .bind (.peek 0) fun _ => .bind (.need _) fun _ => .bind (.skip 1) fun _ =>
    .bind (.peek 0) fun _ => ?_
  split
  · exact .pure _
  · exact .bind (.takeWhile _) fun _ => .bind (.peek 0) fun _ => .bind (.need _) fun _ =>
      .bind (.skip 1) fun _ => .pure _

/-- A byte that a tag escapes is no fault, unless its number is none. -/
theorem escapedByte : Reads cs escapedByte := by
  refine .bind (.skip 1) fun _ => .bind (.peek 0) fun _ => .bind (.peek 1) fun _ => ?_
  split
  · exact .bind (.skip 2) fun _ => .pure _
  · exact .refuse

/-- The bytes that a tag escapes are a text, or the text is malformed. -/
theorem escapedBytes : Reads cs escapedBytes := by
  refine .bind (.many (fun bytes => .bind (.peek 0) fun _ => ?_) _) fun _ => ?_
  · split
    · exact .bind .escapedByte fun _ => .pure _
    · exact .pure _
  · split
    · exact .pure _
    · exact .refuse

theorem tagName : Reads cs tagName := by
  refine .bind (.many (fun text => .bind (.takeWhile _) fun _ => ?_) _) fun _ =>
    .bind (.need _) fun _ => .pure _
  refine .bind (.peek 0) fun _ => ?_
  split
  · exact .bind .escapedBytes fun _ => .pure _
  · exact .pure _

/-- The version in a directive, and what is read after it. -/
theorem version {f : Directive → Read α} (hf : ∀ v, Reads cs (f v)) :
    Ends (InVersion cs) (Expected cs)
    (do Yaml.skipSpaces
        let major ← Yaml.versionNumber
        Yaml.need ((← Yaml.peek 0) = some '.')
        Yaml.skip 1
        let _ ← Yaml.versionNumber
        Yaml.need (isSpaceOrEnd (← Yaml.peek 0))
        f (← Pure.pure (Directive.version major)))
    fun _ c => c.rest <:+ cs := by
  have hspaces : Keeps (InVersion cs) (Expected cs) Yaml.skipSpaces :=
    .bind (versionRun fun x hx => .inl (of_decide_eq_true hx)) fun _ => .pure fun _ h => h.2
  refine Ends.bind hspaces fun _ => Ends.bind versionNumber fun major => ?_
  refine Ends.bind (peek_eq 0 _) fun x => Ends.bind (need_true _ _) fun _ => ?_
  refine Ends.bind (q := fun _ => InVersion cs) (Ends.pre ?_ versionPoint) fun _ => ?_
  · exact fun c ⟨hx, hpoint, hc⟩ => ⟨(of_decide_eq_true hx).symm.trans hpoint, hc⟩
  · exact Ends.bind versionNumber fun _ => Ends.pre (fun _ => InVersion.isSuffix)
      (Reads.bind (.peek 0) fun _ => .bind (.need _) fun _ => .bind (.pure _) hf)

/-- A directive is no fault, unless it gives a version with a long number. -/
theorem directive : Reads cs directive := by
  refine .bind (.skip 1) fun _ => Ends.bind name_known fun n => ?_
  refine Ends.bind (peek_eq 0 _) fun _ => Ends.bind (need_true _ _) fun _ => ?_
  extract_lets jp
  have hrest : ∀ value, Reads cs (jp value) := fun _ => .bind .commentLine fun _ => .pure _
  refine Ends.pre (p := fun c => n.toList ++ c.rest <:+ cs) (fun c hc => hc.2.2) ?_
  have hsuffix : ∀ c : Cursor, n.toList ++ c.rest <:+ cs → c.rest <:+ cs := fun c hc =>
    (List.suffix_append _ _).trans hc
  split
  · exact Ends.pre (fun c hc => ⟨[], hc, nofun⟩) (version hrest)
  · exact Ends.pre hsuffix (Reads.bind .skipSpaces fun _ => .bind .tagHandle fun _ =>
      .bind (.peek 0) fun _ => .bind (.need _) fun _ => .bind .skipSpaces fun _ =>
      .bind .tagName fun _ => .bind (.peek 0) fun _ => .bind (.need _) fun _ =>
      .bind (.pure _) hrest)
  · exact Ends.pre hsuffix (Reads.bind (.takeWhile _) fun _ => .bind (.pure _) hrest)

theorem anchorName : Reads cs anchorName :=
  .bind (.skip 1) fun _ => .bind .name fun _ => .bind (.peek 0) fun _ => .bind (.need _) fun _ =>
    .pure _

/-- A tag is read, or the text is malformed. -/
theorem tag : Reads cs tag := by
  refine .bind (.peek 1) fun _ => ?_
  extract_lets jp jp'
  have hrest : ∀ x, Reads cs (jp x) := fun _ =>
    .bind (.peek 0) fun _ => .bind (.need _) fun _ => .pure _
  have hname : ∀ handle, Reads cs (jp' handle) := fun _ =>
    .bind .tagName fun _ => .bind (.pure _) hrest
  split
  · exact .bind (.skip 2) fun _ => .bind .tagName fun _ => .bind (.peek 0) fun _ =>
      .bind (.need _) fun _ => .bind (.skip 1) fun _ => .bind (.pure _) hrest
  · split
    · exact .bind (.skip 1) fun _ => .bind (.pure _) hrest
    · refine .look fun c => ?_
      extract_lets word
      split
      · exact .bind .tagHandle hname
      · exact .bind (.skip 1) fun _ => .bind (.pure _) hname

end Reads

end SampleSchema.Yaml
