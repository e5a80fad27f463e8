import SampleSchema.Proofs.JsonReading
import SampleSchema.Standard.Framework

/-!
# Addresses in their plainest form

An address without percent signs writes its own characters, and a number that is written in decimal is
read as this number, unless it has too many digits (`Address.integer_repr`).

* `Address.path_runAddress`, `Address.value?_limit` and `Address.value?_offset` are what is read of the
  addresses of a run and of a page.
-/

namespace SampleSchema

open Text

/-! ### Decimal numbers -/

namespace Literal

/-- An ASCII digit has its distance from zero for its value. -/
theorem digitValue?_of_isDigit {c : Char} (h : c.isDigit = true) :
    digitValue? 10 c = some (c.toNat - '0'.toNat) := by
  have hbounds : '0'.toNat ≤ c.toNat ∧ c.toNat ≤ '9'.toNat := Char.isDigit_iff_toNat.mp h
  have hhex : hexValue? c = some (c.toNat - '0'.toNat) := if_pos hbounds
  have hlt : c.toNat - '0'.toNat < 10 := Nat.lt_succ_of_le (Nat.sub_le_sub_right hbounds.2 _)
  rw [digitValue?, hhex, Option.filter_some, if_pos (decide_eq_true hlt)]

/-- All of some digits are read. -/
theorem moreDigits_of_isDigit : ∀ {cs : List Char}, (∀ c ∈ cs, c.isDigit = true) →
    moreDigits 10 cs = (cs.map fun c => c.toNat - '0'.toNat, [])
  | [], _      => rfl
  | c :: cs, h => by
      obtain ⟨hc, hcs⟩ := List.forall_mem_cons.mp h
      rw [moreDigits, digitValue?_of_isDigit hc]
      · simp only [moreDigits_of_isDigit hcs, List.map_cons]
      · rintro d ds rfl
        cases hc

/-- All of some digits are read, one after the other without underscores. -/
theorem leadingDigits_of_isDigit {cs : List Char} (h : ∀ c ∈ cs, c.isDigit = true) :
    leadingDigits 10 cs = (cs.map fun c => c.toNat - '0'.toNat, []) := by
  cases cs with
  | nil => rfl
  | cons c cs =>
      obtain ⟨hc, hcs⟩ := List.forall_mem_cons.mp h
      rw [leadingDigits, digitValue?_of_isDigit hc]
      simp only [moreDigits_of_isDigit hcs, List.map_cons]

/-- Digits have no sign in front of them. -/
theorem sign_of_isDigit {cs : List Char} (h : ∀ c ∈ cs, c.isDigit = true) : sign cs = (false, cs) := by
  rw [sign]
  · rintro ds rfl
    exact absurd (h '-' List.mem_cons_self) (by decide)
  · rintro ds rfl
    exact absurd (h '+' List.mem_cons_self) (by decide)

end Literal

namespace Address

open Service

/-- A number is written in ASCII digits. -/
theorem isDigit_of_mem_repr {n : Nat} {c : Char} (h : c ∈ (Nat.repr n).toList) : c.isDigit = true := by
  rw [Nat.repr_eq_ofList_toDigits, String.toList_ofList] at h
  exact Nat.isDigit_of_mem_toDigits (by decide) (by decide) h

/-- What is no digit is not in a written number. -/
theorem not_mem_repr {c : Char} (h : c.isDigit = false) (n : Nat) : c ∉ (Nat.repr n).toList :=
  fun hmem => Bool.false_ne_true (h.symm.trans (isDigit_of_mem_repr hmem))

theorem isSpace_of_isDigit {c : Char} (h : c.isDigit = true) : isSpace c = false := by
  rw [isSpace, JsonText.isBlank_of_isVisible (JsonText.isVisible_of_isDigit h), Bool.false_and]

/-- There are no blanks in front of digits. -/
theorem dropWhile_isSpace {cs : List Char} (h : ∀ c ∈ cs, c.isDigit = true) :
    cs.dropWhile isSpace = cs := by
  cases cs with
  | nil => rfl
  | cons c cs =>
      rw [List.dropWhile_cons, isSpace_of_isDigit (h c List.mem_cons_self), if_neg Bool.false_ne_true]

/-- The digits of a written number have its value. -/
theorem ofDigits_repr (n : Nat) :
    ofDigits ((Nat.repr n).toList.map fun c => c.toNat - '0'.toNat) = n := by
  rw [Nat.repr_eq_ofList_toDigits, String.toList_ofList, ofDigits, List.foldl_map,
    ← Nat.ofDigitChars_eq_foldl, Nat.ofDigitChars_ten_toDigits]

/-- A number that is written in decimal is read, unless it has too many digits. -/
theorem integer_repr (n : Nat) : integer (Nat.repr n) =
    if maxNumberDigits < (Nat.repr n).length then .error .integerTooLong else .ok (n : Int) := by
  have hdigits : ∀ c ∈ (Nat.repr n).toList, c.isDigit = true := fun _ => isDigit_of_mem_repr
  have hreverse : ∀ c ∈ (Nat.repr n).toList.reverse, c.isDigit = true := fun c hc =>
    hdigits c (List.mem_reverse.mp hc)
  have hempty : ((Nat.repr n).toList.map fun c => c.toNat - '0'.toNat).isEmpty = false := by
    simp
  simp only [integer, dropWhile_isSpace hdigits, dropWhile_isSpace hreverse, List.reverse_reverse,
    Literal.sign_of_isDigit hdigits, Literal.leadingDigits_of_isDigit hdigits, hempty,
    ofDigits_repr, String.length_toList, Bool.not_true, Bool.or_false, Bool.false_eq_true, if_false]

/-- A number within bounds. -/
theorem integerWithin_repr {n : Nat} (hlength : (Nat.repr n).length ≤ maxNumberDigits) {least : Nat}
    {greatest : Option Nat} (hleast : least ≤ n) (hgreatest : ∀ g ∈ greatest, n ≤ g) :
    integerWithin least greatest (Nat.repr n) = .ok n := by
  have hbound : greatest.any (fun g : Nat => (g : Int) < n) = false := by
    cases greatest with
    | none   => rfl
    | some g =>
        have hle : n ≤ g := hgreatest g rfl
        simp only [Option.any_some, decide_eq_false_iff_not]
        omega
  rw [integerWithin, integer_repr, if_neg (Nat.not_lt.mpr hlength)]
  simp only [bind, Except.bind, pure, Except.pure]
  rw [if_neg (by omega)]
  simp only [hbound, Bool.false_eq_true, if_false, Int.toNat_natCast]

/-- A number of too many digits is refused for their number, whatever its bounds are. -/
theorem integerWithin_of_long {n : Nat} (hlength : maxNumberDigits < (Nat.repr n).length) (least : Nat)
    (greatest : Option Nat) : integerWithin least greatest (Nat.repr n) = .error .integerTooLong := by
  rw [integerWithin, integer_repr, if_pos hlength]
  rfl

/-- A number that is read is within its bounds. -/
theorem bounds_of_integerWithin {text : String} {least n : Nat} {greatest : Option Nat}
    (h : integerWithin least greatest text = .ok n) : least ≤ n ∧ ∀ g ∈ greatest, n ≤ g := by
  obtain ⟨m, -, h⟩ := ok_of_bind h
  by_cases hleast : m < least
  · rw [if_pos hleast] at h
    cases h
  · rw [if_neg hleast] at h
    by_cases hgreatest : greatest.any (fun g : Nat => g < m) = true
    · simp only [hgreatest, if_true] at h
      cases h
    · simp only [hgreatest, Bool.false_eq_true, if_false] at h
      cases h
      refine ⟨by omega, ?_⟩
      rintro g ⟨⟩
      simp only [Option.any_some, decide_eq_true_eq] at hgreatest
      omega

/-! ### Characters -/

/-- Without escapes the bytes of a text are those of its characters. -/
theorem decodedBytes_eq : ∀ {cs : List Char}, '%' ∉ cs → decodedBytes cs = cs.flatMap String.utf8EncodeChar
  | [], _      => rfl
  | c :: cs, h => by
      have hc : c ≠ '%' := fun e => h (e ▸ List.mem_cons_self)
      have hcs : '%' ∉ cs := fun hmem => h (List.mem_cons_of_mem c hmem)
      rw [decodedBytes, decodedBytes_eq hcs, List.flatMap_cons]
      rintro a b ds rfl
      exact absurd rfl hc

/-- Characters other than percent signs write themselves. -/
theorem decoded_eq {cs : List Char} (h : '%' ∉ cs) : decoded cs = String.ofList cs := by
  have hbytes : (decodedBytes cs).toByteArray = (String.ofList cs).toUTF8 := by
    rw [decodedBytes_eq h]
    rfl
  have hvalid : String.fromUTF8? (String.ofList cs).toUTF8 = some (String.ofList cs) := by
    unfold String.fromUTF8?
    rw [String.toUTF8_eq_toByteArray, dif_pos (String.ofList cs).isValidUTF8]
    rfl
  rw [decoded, hbytes, hvalid, Option.getD_some]

theorem cut_of_notMem {mark : Char} {cs : List Char} (h : mark ∉ cs) : cut mark cs = (cs, []) := by
  have hne : ∀ c ∈ cs, (c != mark) = true := fun c hc => bne_iff_ne.mpr fun e => h (e ▸ hc)
  rw [cut, List.takeWhile_eq_self_iff.mpr hne, List.dropWhile_eq_nil_iff.mpr hne, List.drop_nil]

theorem cut_append {mark : Char} {cs : List Char} (h : mark ∉ cs) (ds : List Char) :
    cut mark (cs ++ mark :: ds) = (cs, ds) := by
  have hne : ∀ c ∈ cs, (c != mark) = true := fun c hc => bne_iff_ne.mpr fun e => h (e ▸ hc)
  rw [cut, List.takeWhile_append_of_pos hne, List.dropWhile_append_of_pos hne]
  simp

theorem parts_of_notMem {mark : Char} : ∀ {cs : List Char}, mark ∉ cs → parts mark cs = [cs]
  | [], _      => rfl
  | c :: cs, h => by
      have hc : c ≠ mark := fun e => h (e ▸ List.mem_cons_self)
      have ih : parts mark cs = [cs] := parts_of_notMem fun hmem => h (List.mem_cons_of_mem c hmem)
      rw [parts, List.foldr_cons, if_neg hc, ← parts, ih]

theorem parts_append {mark : Char} : ∀ {cs : List Char}, mark ∉ cs → ∀ ds : List Char,
    parts mark (cs ++ mark :: ds) = cs :: parts mark ds
  | [], _, ds      => by
      rw [List.nil_append, parts, List.foldr_cons, if_pos rfl]
      rfl
  | c :: cs, h, ds => by
      have hc : c ≠ mark := fun e => h (e ▸ List.mem_cons_self)
      have ih : parts mark (cs ++ mark :: ds) = cs :: parts mark ds :=
        parts_append (fun hmem => h (List.mem_cons_of_mem c hmem)) ds
      rw [List.cons_append, parts, List.foldr_cons, if_neg hc, ← parts, ih]

/-! ### Runs and pages -/

/-- A text without marks is a path. -/
theorem path_of_plain {s : String} (h : '#' ∉ s.toList ∧ '?' ∉ s.toList ∧ '%' ∉ s.toList) :
    path s = s := by
  rw [path, cut_of_notMem h.1, cut_of_notMem h.2.1, decoded_eq h.2.2, String.ofList_toList]

/-- A text without plus signs and escapes stands for itself in a query. -/
theorem queryText_of_plain {cs : List Char} (hplus : '+' ∉ cs) (hpercent : '%' ∉ cs) :
    queryText cs = String.ofList cs := by
  have hmap : (cs.map fun c => if c = '+' then ' ' else c) = cs := by
    refine (List.map_congr_left fun c hc => ?_).trans (List.map_id cs)
    exact if_neg fun e : c = '+' => hplus (e ▸ hc)
  rw [queryText, hmap, decoded_eq hpercent]

/-- The address of the run of a number is its path. -/
theorem path_runAddress (n : Nat) :
    path (runAddress n) = runAddress n := by
  have hnot : ∀ c : Char, c.isDigit = false → c ∉ "/schema/runs/".toList →
      c ∉ (runAddress n).toList := by
    intro c hc hplain
    rw [runAddress, String.toList_append, List.mem_append]
    exact not_or.mpr ⟨hplain, not_mem_repr hc n⟩
  exact path_of_plain ⟨hnot _ rfl (by decide), hnot _ rfl (by decide), hnot _ rfl (by decide)⟩

section
variable (limit offset : Nat)

/-- The characters of a name with a number as its value. -/
def assigned (name : String) (n : Nat) : List Char := name.toList ++ '=' :: (Nat.repr n).toList

/-- The address of a page: its path and two assignments. -/
theorem toList_pageAddress : (pageAddress limit offset).toList =
    "/schema/runs".toList ++ '?' :: (assigned "limit" limit ++ '&' :: assigned "offset" offset) := by
  have hlimit : "/schema/runs?limit=".toList =
      "/schema/runs".toList ++ '?' :: ("limit".toList ++ ['=']) := by decide
  have hoffset : "&offset=".toList = '&' :: ("offset".toList ++ ['=']) := by decide
  unfold pageAddress assigned
  simp only [String.toList_append, hlimit, hoffset, List.append_assoc, List.cons_append,
    List.nil_append]

variable {limit offset}

theorem notMem_assigned {c : Char} (hdigit : c.isDigit = false) (hmark : c ≠ '=') {name : String}
    (hname : c ∉ name.toList) (n : Nat) : c ∉ assigned name n := by
  rw [assigned, List.mem_append, List.mem_cons]
  exact not_or.mpr ⟨hname, not_or.mpr ⟨hmark, not_mem_repr hdigit n⟩⟩

/-- An assignment is cut into its name and its number. -/
theorem cut_assigned {name : String} (hname : '=' ∉ name.toList) (n : Nat) :
    cut '=' (assigned name n) = (name.toList, (Nat.repr n).toList) := by
  rw [assigned, cut_append hname]

/-- A name whose value is a number. -/
theorem queryText_assigned {name : String} (hname : '=' ∉ name.toList) (hplus : '+' ∉ name.toList)
    (hpercent : '%' ∉ name.toList) (n : Nat) :
    (queryText (cut '=' (assigned name n)).1, queryText (cut '=' (assigned name n)).2) =
      (name, Nat.repr n) := by
  rw [cut_assigned hname, queryText_of_plain hplus hpercent, queryText_of_plain (not_mem_repr rfl n)
    (not_mem_repr rfl n), String.ofList_toList, String.ofList_toList]

theorem cut_hash_pageAddress :
    cut '#' (pageAddress limit offset).toList = ((pageAddress limit offset).toList, []) := by
  refine cut_of_notMem ?_
  rw [toList_pageAddress]
  simp [notMem_assigned]

/-- The path of a page. -/
theorem path_pageAddress : path (pageAddress limit offset) = "/schema/runs" := by
  have hplain : '%' ∉ "/schema/runs".toList := by decide
  rw [path, cut_hash_pageAddress, toList_pageAddress, cut_append (by decide)]
  exact decoded_eq hplain

theorem query_pageAddress : query (pageAddress limit offset) =
    [("limit", Nat.repr limit), ("offset", Nat.repr offset)] := by
  have hparts : parts '&' (assigned "limit" limit ++ '&' :: assigned "offset" offset) =
      [assigned "limit" limit, assigned "offset" offset] := by
    rw [parts_append (notMem_assigned rfl (by decide) (by decide) _),
      parts_of_notMem (notMem_assigned rfl (by decide) (by decide) _)]
  have hlimit := queryText_assigned (show '=' ∉ "limit".toList by decide) (by decide) (by decide) limit
  have hoffset :=
    queryText_assigned (show '=' ∉ "offset".toList by decide) (by decide) (by decide) offset
  have hfilter : [assigned "limit" limit, assigned "offset" offset].filter (!·.isEmpty) =
      [assigned "limit" limit, assigned "offset" offset] := by
    simp [assigned]
  rw [query, cut_hash_pageAddress, toList_pageAddress, cut_append (by decide)]
  simp only [hparts, hfilter, List.map_cons, List.map_nil, hlimit, hoffset]

theorem value?_limit : value? (pageAddress limit offset) "limit" = some (Nat.repr limit) := by
  rw [value?, query_pageAddress]
  rfl

theorem value?_offset : value? (pageAddress limit offset) "offset" = some (Nat.repr offset) := by
  rw [value?, query_pageAddress]
  rfl

end

end Address

end SampleSchema
