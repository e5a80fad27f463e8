import Mathlib
import SampleSchema.Naming.Identifier

/-!
# The form of names

The words that names are made of have ASCII letters and digits only, so no word holds an underscore.
Every `typeName` is moreover a capital with letters and digits after it (`IsTypeName`), and a name of
this form is its own `typeName`.  So it does not matter how often a name is made into the name of a
type (`typeName_typeName`).

* `length_typeName`: the name of a type is as long as the letters and digits of its text, and longer by
  a word if they start with a digit.
-/

namespace SampleSchema

/-- Whether a text has ASCII letters and digits only. -/
def IsAlphanumeric (s : String) : Prop := ∀ c ∈ s.toList, c.isAlphanum = true

instance (s : String) : Decidable (IsAlphanumeric s) :=
  decidable_of_iff (s.toList.all Char.isAlphanum = true) List.all_eq_true

namespace IsAlphanumeric
variable {s t : String}

/-- Letters and digits make an alphanumeric text. -/
theorem ofList {cs : List Char} (h : ∀ c ∈ cs, c.isAlphanum = true) :
    IsAlphanumeric (String.ofList cs) := by
  rwa [IsAlphanumeric, String.toList_ofList]

/-- Alphanumeric texts can be put together. -/
theorem append (hs : IsAlphanumeric s) (ht : IsAlphanumeric t) : IsAlphanumeric (s ++ t) := by
  intro c hc
  rw [String.toList_append] at hc
  exact (List.mem_append.mp hc).elim (hs c) (ht c)

/-- Any number of alphanumeric texts can be put together. -/
theorem join {ws : List String} (h : ∀ w ∈ ws, IsAlphanumeric w) :
    IsAlphanumeric (String.join ws) := by
  intro c hc
  rw [String.toList_join, List.mem_flatMap] at hc
  obtain ⟨w, hw, hc⟩ := hc
  exact h w hw c hc

theorem underscore_notMem (hs : IsAlphanumeric s) : '_' ∉ s.toList := fun h => by
  cases hs _ h

end IsAlphanumeric

/-- A capital stands 32 places before its small letter. -/
theorem toNat_capital {v : UInt32} (h : 97 ≤ v.toNat) :
    (v + ('A'.val - 'a'.val)).toNat = v.toNat - 32 := by
  have hlt : v.toNat < 4294967296 := v.toNat_lt
  rw [UInt32.toNat_add, show ('A'.val - 'a'.val).toNat = 4294967264 from rfl]
  omega

/-- In upper case a digit is a digit, and nothing else becomes one. -/
theorem isDigit_toUpper (c : Char) : c.toUpper.isDigit = c.isDigit := by
  rw [Char.toUpper]
  split
  · rename_i hlower
    obtain ⟨hle, -⟩ := hlower
    have hle : 97 ≤ c.val.toNat := hle
    have hval := toNat_capital hle
    have hnine : '9'.val.toNat = 57 := rfl
    -- both the small letter and its capital are past the digits
    have hsmall : ¬ c.val ≤ '9'.val := by
      rw [UInt32.le_iff_toNat_le, hnine]
      omega
    have hcapital : ¬ c.val + ('A'.val - 'a'.val) ≤ '9'.val := by
      rw [UInt32.le_iff_toNat_le, hval, hnine]
      omega
    simp only [Char.isDigit, hsmall, hcapital, decide_false, Bool.and_false]
  · rfl

/-- A letter or digit in upper case is a letter or digit. -/
theorem isAlphanum_toUpper {c : Char} (h : c.isAlphanum = true) : c.toUpper.isAlphanum = true := by
  rwa [Char.isAlphanum, Char.isAlpha_toUpper_eq_isAlpha, isDigit_toUpper]

theorem isAlphanum_of_isUpper {c : Char} (h : c.isUpper = true) : c.isAlphanum = true := by
  rw [Char.isAlphanum, Char.isAlpha, h, Bool.true_or, Bool.true_or]

/-- A capital is no digit. -/
theorem isDigit_eq_false_of_isUpper {c : Char} (h : c.isUpper = true) : c.isDigit = false := by
  simp only [Char.isUpper, Char.isDigit] at *
  grind

/-- Joined words keep letters and digits only. -/
theorem isAlphanum_of_mem_joinWords {c : Char} : ∀ {cs : List Char} {first : Bool},
    c ∈ joinWords first cs → c.isAlphanum = true
  | [], _, h => by cases h
  | d :: cs, first, h => by
      rw [joinWords] at h
      split at h
      · rename_i hd
        rcases List.mem_cons.mp h with rfl | h
        · cases first
          · exact hd
          · exact isAlphanum_toUpper hd
        · exact isAlphanum_of_mem_joinWords h
      · exact isAlphanum_of_mem_joinWords h

/-- A type is named by letters and digits. -/
theorem isAlphanumeric_typeName (s : String) : IsAlphanumeric (typeName s) := by
  have hfield : ∀ c ∈ fieldWord, c.isAlphanum = true := List.all_eq_true.mp rfl
  have hwords : ∀ c ∈ joinWords true s.toList, c.isAlphanum = true := fun _ =>
    isAlphanum_of_mem_joinWords
  rw [typeName]
  split
  · exact .ofList hfield
  · rename_i d cs e
    rw [e] at hwords
    split
    · exact .ofList fun c hc => (List.mem_append.mp hc).elim (hfield c) (hwords c)
    · exact .ofList hwords

/-! ### The form of type names -/

/-- Whether a text is a capital with characters of a class after it. -/
def IsCapitalized (p : Char → Bool) (s : String) : Prop :=
  ∃ c cs, s.toList = c :: cs ∧ c.isUpper = true ∧ ∀ d ∈ cs, p d = true

/-- Whether a text is a capital with letters and digits after it. -/
def IsTypeName (s : String) : Prop := IsCapitalized Char.isAlphanum s

section
variable {p q : Char → Bool} {s t : String}

theorem IsCapitalized.mono (hpq : ∀ c, p c = true → q c = true) (h : IsCapitalized p s) :
    IsCapitalized q s := by
  obtain ⟨c, cs, hs, hc, hcs⟩ := h
  exact ⟨c, cs, hs, hc, fun d hd => hpq d (hcs d hd)⟩

theorem IsCapitalized.append (hs : IsCapitalized p s) (ht : ∀ c ∈ t.toList, p c = true) :
    IsCapitalized p (s ++ t) := by
  obtain ⟨c, cs, hs, hc, hcs⟩ := hs
  refine ⟨c, cs ++ t.toList, ?_, hc, List.forall_mem_append.mpr ⟨hcs, ht⟩⟩
  rw [String.toList_append, hs, List.cons_append]

theorem isTypeName_iff :
    IsTypeName s ↔ IsAlphanumeric s ∧ ∃ c, s.toList.head? = some c ∧ c.isUpper = true := by
  constructor
  · rintro ⟨c, cs, hs, hc, hcs⟩
    refine ⟨?_, c, by rw [hs, List.head?_cons], hc⟩
    rw [IsAlphanumeric, hs]
    exact List.forall_mem_cons.mpr ⟨isAlphanum_of_isUpper hc, hcs⟩
  · rintro ⟨hs, c, hhead, hc⟩
    obtain ⟨cs, hcs⟩ := List.head?_eq_some_iff.mp hhead
    rw [IsAlphanumeric, hcs] at hs
    exact ⟨c, cs, hcs, hc, (List.forall_mem_cons.mp hs).2⟩

theorem IsTypeName.isAlphanumeric (h : IsTypeName s) : IsAlphanumeric s := (isTypeName_iff.mp h).1

end

/-- Joined words start with the first letter or digit, in upper case. -/
theorem head?_joinWords (cs : List Char) :
    (joinWords true cs).head? = (cs.filter Char.isAlphanum).head?.map Char.toUpper := by
  induction cs with
  | nil => rfl
  | cons c cs ih =>
      rw [joinWords]
      by_cases hc : c.isAlphanum = true
      · rw [if_pos hc, List.filter_cons_of_pos hc]
        rfl
      · rw [if_neg hc, List.filter_cons_of_neg hc, ih]

/-- A type is named by a capital with letters and digits after it. -/
theorem isTypeName_typeName (s : String) : IsTypeName (typeName s) := by
  refine isTypeName_iff.mpr ⟨isAlphanumeric_typeName s, ?_⟩
  have hhead := head?_joinWords s.toList
  rw [typeName]
  cases hjoin : joinWords true s.toList with
  | nil => exact ⟨'F', rfl, rfl⟩
  | cons c cs =>
      rw [hjoin] at hhead
      obtain ⟨d, hd, rfl⟩ := Option.map_eq_some_iff.mp hhead.symm
      cases hdigit : d.toUpper.isDigit with
      | true => exact ⟨'F', by simp [hdigit, fieldWord], rfl⟩
      | false =>
          refine ⟨d.toUpper, by simp [hdigit], ?_⟩
          -- the first character is a letter or digit, and no digit
          have halphanum : d.isAlphanum = true := (List.mem_filter.mp (List.mem_of_mem_head? hd)).2
          rw [isDigit_toUpper] at hdigit
          rw [Char.isUpper_toUpper_eq_isAlpha]
          rwa [Char.isAlphanum, hdigit, Bool.or_false] at halphanum

/-- Letters and digits inside of a word stay as they are. -/
theorem joinWords_of_isAlphanum : ∀ {cs : List Char}, (∀ c ∈ cs, c.isAlphanum = true) →
    joinWords false cs = cs
  | [], _ => rfl
  | c :: cs, h => by
      obtain ⟨hc, hcs⟩ := List.forall_mem_cons.mp h
      rw [joinWords, if_pos hc, joinWords_of_isAlphanum hcs]
      rfl

/-- A name of the form of a type name is the name of its type. -/
theorem IsTypeName.typeName_eq {s : String} (h : IsTypeName s) : typeName s = s := by
  obtain ⟨c, cs, hs, hc, hcs⟩ := h
  have hjoin : joinWords true s.toList = c :: cs := by
    rw [hs, joinWords, if_pos (isAlphanum_of_isUpper hc), if_pos rfl,
      Char.toUpper_eq_of_not_isLower (Char.not_isLower_of_isUpper hc), joinWords_of_isAlphanum hcs]
  have hdigit : c.isDigit = false := isDigit_eq_false_of_isUpper hc
  calc typeName s = String.ofList (c :: cs) := by simp [typeName, hjoin, hdigit]
    _ = s := by rw [← hs, String.ofList_toList]

/-- The name of a type is the name of its own type. -/
theorem typeName_typeName (s : String) : typeName (typeName s) = typeName s :=
  (isTypeName_typeName s).typeName_eq

/-! ### The length of names -/

/-- The letters and digits of a text. -/
def lettersAndDigits (s : String) : List Char := s.toList.filter Char.isAlphanum

/-- Whether the first of the letters and digits of a text is a digit. -/
def startsWithDigit (s : String) : Bool := (lettersAndDigits s).head?.any Char.isDigit

theorem length_joinWords (first : Bool) (cs : List Char) :
    (joinWords first cs).length = (cs.filter Char.isAlphanum).length := by
  induction cs generalizing first with
  | nil => rfl
  | cons c cs ih =>
      rw [joinWords]
      by_cases hc : c.isAlphanum = true
      · rw [if_pos hc, List.filter_cons_of_pos hc, List.length_cons, List.length_cons, ih]
      · rw [if_neg hc, List.filter_cons_of_neg hc, ih]

/-- The name of a type has the letters and digits of the text, with a word in front if they start with
a digit or if there are none. -/
theorem length_typeName (s : String) : (typeName s).length =
    (if startsWithDigit s || (lettersAndDigits s).isEmpty then fieldWord.length else 0) +
      (lettersAndDigits s).length := by
  have hlength : (joinWords true s.toList).length = (lettersAndDigits s).length :=
    length_joinWords true s.toList
  have hhead : (joinWords true s.toList).head? = (lettersAndDigits s).head?.map Char.toUpper :=
    head?_joinWords s.toList
  rw [typeName, String.length_ofList, startsWithDigit, ← hlength]
  cases hjoin : joinWords true s.toList with
  | nil =>
      rw [hjoin] at hlength
      rw [List.length_eq_zero_iff.mp hlength.symm]
      rfl
  | cons c cs =>
      rw [hjoin] at hlength hhead
      cases hkept : lettersAndDigits s with
      | nil =>
          rw [hkept] at hlength
          cases hlength
      | cons d ds =>
          rw [hkept] at hhead
          obtain rfl : c = d.toUpper := Option.some.inj hhead
          have hdigit := isDigit_toUpper d
          cases hd : d.isDigit with
          | true => simp [hdigit, hd]
          | false => simp [hdigit, hd]

end SampleSchema
