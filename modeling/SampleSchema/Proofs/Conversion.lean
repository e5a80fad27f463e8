import Mathlib.Data.List.Nodup
import SampleSchema.Proofs.Mirrors

/-!
# Which decoded values have samples

There is no sample of a value if something inside of it has no sample of its own (`Datum.Refused`): a
value of another type, a number that is not finite, or a mapping in which two keys have the same text,
one of which would overwrite the other.  Nothing else is refused as malformed
(`Datum.decode_iff_refused`).

A key that shows an integer of too many digits has no text at all, and the failure to write it is no
error of malformed input (`Datum.not_decode_iff_refused`).
-/

namespace SampleSchema.Datum

/-- Whether an error says what is wrong inside of a value. -/
def Blames (d : Datum) (e : ReadError) : Prop :=
  (∃ m, e = .malformed m) ∧ d.HasRefused ∨ e = .longInteger ∧ d.HasLongKey

theorem Blames.of_refused {d : Datum} {e : ReadError} {m : Malformed} (he : e = .malformed m)
    (h : d.Refused) : d.Blames e :=
  .inl ⟨⟨m, he⟩, d, .self, h⟩

theorem Blames.outer {x d : Datum} {e : ReadError} (h : x.Blames e) (hx : x.Within d) :
    d.Blames e := by
  rcases h with ⟨hm, y, hy, hr⟩ | ⟨he, es, k, hes, hk, hl⟩
  · exact .inl ⟨hm, y, hy.trans hx, hr⟩
  · exact .inr ⟨he, es, k, hes.trans hx, hk, hl⟩

theorem error_of_decodeAll {e : ReadError} {ds : List Datum}
    (h : decodeAll ds = .error e) :
    ∃ d ∈ ds, d.decode = .error e := by
  rw [decodeAll_eq_mapM] at h
  exact error_of_mapM h

theorem error_of_decodeEntries {e : ReadError} {es : List (Datum × Datum)}
    (h : decodeEntries es = .error e) :
    ∃ p ∈ es, p.1.fieldName = .error e ∨ p.2.decode = .error e := by
  rw [decodeEntries_eq_mapM] at h
  obtain ⟨p, hp, he⟩ := error_of_mapM h
  rcases error_of_bind he with hk | ⟨n, -, hd⟩
  · exact ⟨p, hp, .inl hk⟩
  · exact ⟨p, hp, .inr (error_of_return hd)⟩

/-- A value has no sample for a reason inside of it. -/
theorem blames_of_decode {e : ReadError} : ∀ {d : Datum}, d.decode = .error e → d.Blames e
  | .null, h | .bool _, h | .int _, h | .string _, h | .date _, h | .moment _, h | .time _ _, h => by
      cases h
  | .float x, h => by
      obtain ⟨m, hm, he⟩ := error_of_mapError h
      exact .of_refused he.symm (.float (Sample.isFinite_of_ofDouble_eq_error hm))
  | .decimal d, h => by
      obtain ⟨m, hm, he⟩ := error_of_mapError h
      exact .of_refused he.symm (refused_of_sampleOfDecimal hm)
  | .list ds, h => by
      rw [decode] at h
      obtain ⟨d, hd, he⟩ := error_of_decodeAll (error_of_return h)
      exact (blames_of_decode he).outer (.list hd .self)
  | .tuple ds, h => by
      rw [decode] at h
      obtain ⟨d, hd, he⟩ := error_of_decodeAll (error_of_return h)
      exact (blames_of_decode he).outer (.tuple hd .self)
  | .map es, h => by
      rw [decode] at h
      rcases error_of_bind h with h | ⟨fs, hfs, h⟩
      · obtain ⟨p, hp, hk | hd⟩ := error_of_decodeEntries h
        · obtain ⟨rfl, hlong⟩ := fieldName_eq_error hk
          exact .inr ⟨rfl, es, p, .self, hp, hlong⟩
        · exact (blames_of_decode hd).outer (.map hp .self)
      · obtain ⟨m, hm, he⟩ := error_of_mapError h
        refine .of_refused he.symm (.clash fun hn => ?_)
        rw [Sample.ofFields_eq_ok_iff.mpr ((entriesMirror_of_decode hfs).names ▸ hn)] at hm
        cases hm
  | .set _, h => by
      cases h
      exact .of_refused rfl .set
  | .bytes _, h => by
      cases h
      exact .of_refused rfl .bytes
  | .complex _ _, h => by
      cases h
      exact .of_refused rfl .complex
  | .other .., h => by
      cases h
      exact .of_refused rfl .other
termination_by d => sizeOf d
decreasing_by
  all_goals simp_wf
  · have := List.sizeOf_lt_of_mem hd
    omega
  · have := List.sizeOf_lt_of_mem hd
    omega
  · have := List.sizeOf_lt_of_mem hp
    obtain ⟨_, _⟩ := p
    simp at this ⊢
    omega

/-- Where room is limited, a value may have no sample for the lack of it as well. -/
theorem blames_of_decodeWithin {e : ReadError} : ∀ {limit : Nat} {d : Datum},
    d.decodeWithin limit = .error e → d.Blames e ∨ e = .tooDeep ∧ limit < d.nesting
  | 0, d, h         => by
      cases d with
      | list | tuple | map =>
          cases h
          exact .inr ⟨rfl, Nat.succ_pos _⟩
      | _ => exact .inl (blames_of_decode h)
  | limit + 1, d, h => by
      -- an error of a part is one of the whole, and a part has fewer levels
      have hpart : ∀ {x : Datum}, x.Within d → x.nesting < d.nesting →
          x.decodeWithin limit = .error e → d.Blames e ∨ e = .tooDeep ∧ limit + 1 < d.nesting := by
        intro x hx hlt he
        obtain hblames | ⟨rfl, hdeep⟩ := blames_of_decodeWithin he
        · exact .inl (hblames.outer hx)
        · exact .inr ⟨rfl, Nat.lt_of_le_of_lt hdeep hlt⟩
      cases d with
      | list ds =>
          obtain ⟨x, hx, he⟩ := error_of_mapM (error_of_return h)
          exact hpart (.list hx .self) (Nat.lt_succ_of_le (nesting_le_of_mem hx)) he
      | tuple ds =>
          obtain ⟨x, hx, he⟩ := error_of_mapM (error_of_return h)
          exact hpart (.tuple hx .self) (Nat.lt_succ_of_le (nesting_le_of_mem hx)) he
      | map es =>
          rw [decodeWithin] at h
          obtain hfields | ⟨fs, hfs, h⟩ := error_of_bind h
          · obtain ⟨p, hp, he⟩ := error_of_mapM hfields
            obtain hk | ⟨n, -, hv⟩ := error_of_bind he
            · obtain ⟨rfl, hlong⟩ := fieldName_eq_error hk
              exact .inl (.inr ⟨rfl, es, p, .self, hp, hlong⟩)
            · exact hpart (.map hp .self) (Nat.lt_succ_of_le (nesting_le_of_mem_entries hp))
                (error_of_return hv)
          · refine .inl (blames_of_decode ?_)
            rw [decode, decodeEntries_of_ok hfs]
            exact h
      | _ => exact .inl (blames_of_decode h)

/-- **Decoding refuses exactly what has no sample.**  If no key shows an integer of too many digits,
a value is malformed exactly if something inside of it is refused, and otherwise it has a sample,
which mirrors it; and it is decoded so wherever there is room for its levels. -/
theorem decode_iff_refused {d : Datum} (h : ¬ d.HasLongKey) :
    ((∃ m, d.decode = .error (.malformed m)) ↔ d.HasRefused) ∧
    (¬ d.HasRefused → ∃ v, d.decode = .ok v ∧ d.Mirrors v) ∧
    ∀ limit, d.nesting ≤ limit → d.decodeWithin limit = d.decode := by
  rw [← and_assoc]
  refine ⟨?_, fun limit => decodeWithin_eq_decode⟩
  cases hd : d.decode with
  | ok v =>
      have hnone : ¬ d.HasRefused := fun ⟨x, hx, hr⟩ =>
        have ⟨_, hu⟩ := ok_of_within hx hd
        not_refused_of_decode hu hr
      refine ⟨⟨fun ⟨m, hm⟩ => (nomatch hm), fun hx => absurd hx hnone⟩, fun _ => ?_⟩
      exact ⟨v, rfl, mirrors_of_decode hd⟩
  | error e =>
      obtain ⟨⟨m, rfl⟩, hx⟩ | ⟨-, hlong⟩ := blames_of_decode hd
      · exact ⟨⟨fun _ => hx, fun _ => ⟨m, rfl⟩⟩, fun hnone => absurd hx hnone⟩
      · exact absurd hlong h

/-- A mapping with two keys of one text, and one with a tuple in it. -/
theorem decode_iff_refused_of_clash :
    (∃ m, decode (.map [(.int 1, .null), (.string "1", .null)]) = .error (.malformed m)) ∧
      ∃ v, decode (.map [(.int 1, .tuple [.bool true, .decimal (.finite true 12 1)])]) = .ok v ∧
        Mirrors (.map [(.int 1, .tuple [.bool true, .decimal (.finite true 12 1)])]) v := by
  have hshort : showsLongInteger (.int 1) = false := by decide +kernel
  have hname : fieldName (.int 1) = .ok "1" := by
    rw [fieldName, hshort]
    rfl
  constructor
  · have hclash : ¬ HasLongKey (.map [(.int 1, .null), (.string "1", .null)]) := by
      rintro ⟨es, e, hes, he, hlong⟩
      cases hes with
      | self =>
          simp only [List.mem_cons, List.not_mem_nil, or_false] at he
          rcases he with rfl | rfl
          · exact Bool.false_ne_true (hshort.symm.trans hlong)
          · cases hlong
      | map hd hes =>
          simp only [List.mem_cons, List.not_mem_nil, or_false] at hd
          rcases hd with hd | hd <;> cases hd <;> cases hes
    exact (decode_iff_refused hclash).1.mpr ⟨_, .self, .clash (by decide)⟩
  · have hok : decode (.map [(.int 1, .tuple [.bool true, .decimal (.finite true 12 1)])]) =
        .ok (.object [("1", .array [.bool true, .int (-120)])]) := by
      rw [decode, decodeEntries, hname]
      rfl
    refine (decode_iff_refused (not_hasLongKey_of_decode hok)).2.1 fun hrefused => ?_
    obtain ⟨x, hx, hr⟩ := hrefused
    obtain ⟨u, hu⟩ := ok_of_within hx hok
    exact not_refused_of_decode hu hr

/-- A key that is an integer of too many digits. -/
theorem not_decode_iff_refused :
    ¬ ∀ d : Datum, ¬ d.HasRefused → ∃ v, d.decode = .ok v ∧ d.Mirrors v := by
  intro h
  have hnone : ¬ HasRefused (.map [(.int (10 ^ Literal.maxDigits), .null)]) := by
    rintro ⟨x, hx, hr⟩
    cases hx with
    | self =>
        cases hr with
        | clash hes => exact hes (by simp)
    | map hd hx =>
        obtain rfl := (Prod.ext_iff.mp (List.mem_singleton.mp hd)).2
        cases hx
        cases hr
  obtain ⟨v, hv, -⟩ := h _ hnone
  refine not_hasLongKey_of_decode hv ⟨_, _, .self, List.mem_singleton_self _, ?_⟩
  rw [showsLongInteger, decide_eq_true_eq, Int.natAbs_pow]
  generalize Literal.maxDigits = n
  exact Nat.le_refl (10 ^ n)

end SampleSchema.Datum
