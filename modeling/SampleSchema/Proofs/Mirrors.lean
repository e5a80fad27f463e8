import Mathlib.Algebra.Group.Int.Defs
import SampleSchema.Proofs.Nesting

/-!
# Samples mirror their values

A sample mirrors the value that it is decoded from node for node (`Datum.Mirrors`).  So nothing inside
of a value with a sample is refused (`Datum.ok_of_within`, `Datum.not_refused_of_decode`), and no key
in it is too long to have a text (`Datum.not_hasLongKey_of_decode`).
-/

namespace SampleSchema.Datum

/-- Whether a value is another one or stands inside of it, keys of mappings left aside. -/
inductive Within (x : Datum) : Datum → Prop where
  | self : Within x x
  | list {d : Datum} {ds : List Datum} : d ∈ ds → Within x d → Within x (.list ds)
  | tuple {d : Datum} {ds : List Datum} : d ∈ ds → Within x d → Within x (.tuple ds)
  | map {k d : Datum} {es : List (Datum × Datum)} : (k, d) ∈ es → Within x d → Within x (.map es)

/-- Whether a value itself has no sample, whatever stands inside of it. -/
inductive Refused : Datum → Prop where
  | float {x : Double} : x.isFinite = false → Refused (.float x)
  | infinity {negative : Bool} : Refused (.decimal (.infinity negative))
  | nan {negative signaling : Bool} {payload : Nat} :
      Refused (.decimal (.nan negative signaling payload))
  | overflow {negative : Bool} {c : Nat} {e : Int} : e < 0 →
      (Double.ofDecimal negative c e).isFinite = false → Refused (.decimal (.finite negative c e))
  | clash {es : List (Datum × Datum)} : ¬ (es.map fun e => e.1.text).Nodup → Refused (.map es)
  | set {ds : List Datum} : Refused (.set ds)
  | bytes {bs : List UInt8} : Refused (.bytes bs)
  | complex {re im : Double} : Refused (.complex re im)
  | other {type text shown : String} : Refused (.other type text shown)

mutual

/-- Whether a sample is that of a value, node for node. -/
inductive Mirrors : Datum → Sample → Prop where
  | null : Mirrors .null .null
  | bool {b : Bool} : Mirrors (.bool b) (.bool b)
  | int {n : Int} : Mirrors (.int n) (.int n)
  | float {x : Double} : x.isFinite = true → Mirrors (.float x) (.float x)
  | integer {negative : Bool} {c e : Nat} :
      Mirrors (.decimal (.finite negative c e)) (.int ((if negative then -1 else 1) * (c * 10 ^ e)))
  | fraction {negative : Bool} {c : Nat} {e : Int} : e < 0 →
      (Double.ofDecimal negative c e).isFinite = true →
      Mirrors (.decimal (.finite negative c e)) (.float (Double.ofDecimal negative c e))
  | string {s : String} : Mirrors (.string s) (.string s)
  | date {d : Date} : Mirrors (.date d) (.string d.text)
  | moment {m : Moment} : Mirrors (.moment m) (.string m.text)
  | time {c : Clock} {o : Option Offset} : Mirrors (.time c o) (.string (c.text ++ offsetText o))
  | list {ds : List Datum} {vs : List Sample} : AllMirror ds vs → Mirrors (.list ds) (.array vs)
  | tuple {ds : List Datum} {vs : List Sample} : AllMirror ds vs → Mirrors (.tuple ds) (.array vs)
  | map {es : List (Datum × Datum)} {fs : List (String × Sample)} : EntriesMirror es fs →
      (fs.map Prod.fst).Nodup → Mirrors (.map es) (.object fs)

/-- Whether samples are those of values in their order. -/
inductive AllMirror : List Datum → List Sample → Prop where
  | nil : AllMirror [] []
  | cons {d : Datum} {v : Sample} {ds : List Datum} {vs : List Sample} :
      Mirrors d v → AllMirror ds vs → AllMirror (d :: ds) (v :: vs)

/-- Whether fields are the entries of a mapping in their order, under the texts of the keys. -/
inductive EntriesMirror : List (Datum × Datum) → List (String × Sample) → Prop where
  | nil : EntriesMirror [] []
  | cons {k d : Datum} {v : Sample} {es : List (Datum × Datum)} {fs : List (String × Sample)} :
      Mirrors d v → EntriesMirror es fs → EntriesMirror ((k, d) :: es) ((k.text, v) :: fs)

end

/-- Whether something inside of a value has no sample of its own. -/
def HasRefused (d : Datum) : Prop := ∃ x : Datum, x.Within d ∧ x.Refused

/-- Whether a mapping in a value has a key that shows an integer of too many digits. -/
def HasLongKey (d : Datum) : Prop :=
  ∃ (es : List (Datum × Datum)) (e : Datum × Datum), Within (.map es) d ∧ e ∈ es ∧
    e.1.showsLongInteger = true

theorem Within.trans {x y d : Datum} (hxy : x.Within y) (hyd : y.Within d) : x.Within d := by
  induction hyd with
  | self => exact hxy
  | list hd _ ih => exact .list hd ih
  | tuple hd _ ih => exact .tuple hd ih
  | map hd _ ih => exact .map hd ih

/-! ### Numbers -/

/-- The sample of a decimal mirrors it. -/
theorem mirrors_of_sampleOfDecimal {d : Decimal} {v : Sample} (h : sampleOfDecimal d = .ok v) :
    Mirrors (.decimal d) v := by
  cases d with
  | finite negative c e =>
      rw [sampleOfDecimal] at h
      split at h
      · rename_i he
        obtain ⟨n, rfl⟩ := Int.eq_ofNat_of_zero_le he
        have hv : v = .int ((if negative then -1 else 1) * (c * 10 ^ n)) := by
          cases h
          cases negative <;> simp
        exact hv ▸ .integer
      · rename_i he
        obtain ⟨hx, rfl⟩ := Sample.ofDouble_eq_ok_iff.mp h
        exact .fraction (Int.not_le.mp he) hx
  | infinity => cases h
  | nan => cases h

/-- A decimal without a sample is not finite. -/
theorem refused_of_sampleOfDecimal {d : Decimal} {m : Malformed} (h : sampleOfDecimal d = .error m) :
    Refused (.decimal d) := by
  cases d with
  | finite negative c e =>
      rw [sampleOfDecimal] at h
      split at h
      · cases h
      · rename_i he
        exact .overflow (Int.not_le.mp he) (Sample.isFinite_of_ofDouble_eq_error h)
  | infinity => exact .infinity
  | nan => exact .nan

/-! ### Keys -/

/-- The name of a field is the text of its key, which shows no long integer. -/
theorem fieldName_eq_ok {k : Datum} {n : String} (h : k.fieldName = .ok n) :
    n = k.text ∧ k.showsLongInteger = false := by
  rw [fieldName] at h
  split at h
  · cases h
  · cases h
    exact ⟨rfl, Bool.eq_false_iff.mpr ‹_›⟩

/-- Only a key that shows a long integer has no name. -/
theorem fieldName_eq_error {k : Datum} {e : ReadError} (h : k.fieldName = .error e) :
    e = .longInteger ∧ k.showsLongInteger = true := by
  rw [fieldName] at h
  split at h
  · cases h
    exact ⟨rfl, ‹_›⟩
  · cases h

/-- The names of an object are the texts of the keys. -/
theorem EntriesMirror.names : ∀ {es : List (Datum × Datum)} {fs : List (String × Sample)},
    EntriesMirror es fs → fs.map Prod.fst = es.map fun e => e.1.text
  | _, _, .nil => rfl
  | _, _, .cons _ h => by rw [List.map_cons, List.map_cons, h.names]

/-! ### What has a sample -/

mutual

/-- The sample of a value mirrors it. -/
theorem mirrors_of_decode : ∀ {d : Datum} {v : Sample},
    decode d = .ok v → d.Mirrors v
  | .null, _, h => by
      cases h
      exact .null
  | .bool b, _, h => by
      cases h
      exact .bool
  | .int n, _, h => by
      cases h
      exact .int
  | .float x, _, h => by
      obtain ⟨hx, rfl⟩ := Sample.ofDouble_eq_ok_iff.mp (ok_of_mapError h)
      exact .float hx
  | .decimal d, _, h => mirrors_of_sampleOfDecimal (ok_of_mapError h)
  | .string s, _, h => by
      cases h
      exact .string
  | .date d, _, h => by
      cases h
      exact .date
  | .moment m, _, h => by
      cases h
      exact .moment
  | .time c o, _, h => by
      cases h
      exact .time
  | .list ds, _, h => by
      rw [decode] at h
      obtain ⟨vs, hvs, h⟩ := ok_of_bind h
      cases h
      exact .list (allMirror_of_decode hvs)
  | .tuple ds, _, h => by
      rw [decode] at h
      obtain ⟨vs, hvs, h⟩ := ok_of_bind h
      cases h
      exact .tuple (allMirror_of_decode hvs)
  | .map es, _, h => by
      rw [decode] at h
      obtain ⟨fs, hfs, h⟩ := ok_of_bind h
      obtain ⟨rfl, hn⟩ := Sample.eq_object_of_ofFields (ok_of_mapError h)
      exact .map (entriesMirror_of_decode hfs) hn
  | .set _, _, h | .bytes _, _, h | .complex _ _, _, h | .other .., _, h => by cases h

/-- The samples of several values mirror them one by one. -/
theorem allMirror_of_decode : ∀ {ds : List Datum} {vs : List Sample},
    decodeAll ds = .ok vs → AllMirror ds vs
  | [], _, h => by
      cases h
      exact .nil
  | d :: ds, _, h => by
      rw [decodeAll] at h
      obtain ⟨v, hv, h⟩ := ok_of_bind h
      obtain ⟨vs, hvs, h⟩ := ok_of_bind h
      cases h
      exact .cons (mirrors_of_decode hv) (allMirror_of_decode hvs)

/-- The members of an object mirror the entries one by one. -/
theorem entriesMirror_of_decode : ∀ {es : List (Datum × Datum)} {fs : List (String × Sample)},
    decodeEntries es = .ok fs → EntriesMirror es fs
  | [], _, h => by
      cases h
      exact .nil
  | (k, d) :: es, _, h => by
      rw [decodeEntries] at h
      obtain ⟨n, hn, h⟩ := ok_of_bind h
      obtain ⟨v, hv, h⟩ := ok_of_bind h
      obtain ⟨fs, hfs, h⟩ := ok_of_bind h
      cases h
      obtain ⟨rfl, -⟩ := fieldName_eq_ok hn
      exact .cons (mirrors_of_decode hv) (entriesMirror_of_decode hfs)

end

/-- If several values have samples, each of them has one. -/
theorem ok_of_decodeAll {ds : List Datum} {vs : List Sample}
    (h : decodeAll ds = .ok vs) {d : Datum} (hd : d ∈ ds) :
    ∃ v, d.decode = .ok v := by
  rw [decodeAll_eq_mapM] at h
  exact exists_ok_of_mapM h hd

theorem ok_of_decodeEntries {es : List (Datum × Datum)} {fs : List (String × Sample)}
    (h : decodeEntries es = .ok fs) {e : Datum × Datum} (he : e ∈ es) :
    e.1.showsLongInteger = false ∧ ∃ v, e.2.decode = .ok v := by
  rw [decodeEntries_eq_mapM] at h
  obtain ⟨f, hf⟩ := exists_ok_of_mapM h he
  obtain ⟨n, hn, hf⟩ := ok_of_bind hf
  obtain ⟨v, hv, -⟩ := ok_of_bind hf
  exact ⟨(fieldName_eq_ok hn).2, v, hv⟩

/-- What stands inside of a value with a sample has a sample. -/
theorem ok_of_within {x d : Datum} (hx : x.Within d) : ∀ {v : Sample}, d.decode = .ok v →
    ∃ u, x.decode = .ok u := by
  induction hx with
  | self => exact fun h => ⟨_, h⟩
  | list hd _ ih | tuple hd _ ih =>
      intro v h
      rw [decode] at h
      obtain ⟨vs, hvs, -⟩ := ok_of_bind h
      obtain ⟨u, hu⟩ := ok_of_decodeAll hvs hd
      exact ih hu
  | map hd _ ih =>
      intro v h
      rw [decode] at h
      obtain ⟨fs, hfs, -⟩ := ok_of_bind h
      obtain ⟨-, u, hu⟩ := ok_of_decodeEntries hfs hd
      exact ih hu

theorem not_refused_of_decode {d : Datum} {v : Sample} (h : d.decode = .ok v) : ¬ d.Refused := by
  intro hd
  have hm := mirrors_of_decode h
  cases hd with
  | float hx =>
      cases hm with
      | float hx' => exact Bool.false_ne_true (hx.symm.trans hx')
  | overflow he hx =>
      cases hm with
      | integer => omega
      | fraction _ hx' => exact Bool.false_ne_true (hx.symm.trans hx')
  | clash hes =>
      cases hm with
      | map hfs hn => exact hes (hfs.names ▸ hn)
  | _ => cases hm

theorem not_hasLongKey_of_decode {d : Datum} {v : Sample} (h : d.decode = .ok v) :
    ¬ d.HasLongKey := by
  rintro ⟨es, e, hes, he, hlong⟩
  obtain ⟨u, hu⟩ := ok_of_within hes h
  rw [decode] at hu
  obtain ⟨fs, hfs, -⟩ := ok_of_bind hu
  exact Bool.false_ne_true ((ok_of_decodeEntries hfs he).1.symm.trans hlong)

end SampleSchema.Datum
