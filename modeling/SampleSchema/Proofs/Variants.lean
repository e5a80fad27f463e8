import SampleSchema.Proofs.MergedFields

/-!
# The variants of unions

The types that a union may choose from are each in a bucket, and each bucket has at most one.
`IsChoice` asks for no more than that, `AreVariants` for two types or more in the order of the
buckets, as in the unions that merging makes.

* `IsChoice.mem_toList_iff`: the parts of a union are its variants, in whatever order these are.
* `areVariants_iff`: lists of variants are the lists of two or more parts.
-/

namespace SampleSchema

/-- The bucket of the schemas of a kind.  Null, optionals and unions are in none. -/
def Kind.bucket? : Kind → Option Bucket
  | .bool                => some .bool
  | .int | .float        => some .number
  | .string | .timestamp => some .string
  | .array               => some .array
  | .object              => some .object
  | .null | .optional | .union => none

/-- The buckets in the order that the variants of unions have. -/
def Bucket.all : List Bucket := [.bool, .number, .string, .array, .object]

theorem Bucket.mem_all (b : Bucket) : b ∈ Bucket.all := by cases b <;> decide

/-- The buckets of types; `none` stands for types in no bucket. -/
def bucketsOf (ts : List Schema) : List (Option Bucket) := ts.map fun t => t.kind.bucket?

/-- Whether there are types to choose from: each is in a bucket, and each bucket has at most one. -/
def IsChoice (ts : List Schema) : Prop :=
  ts ≠ [] ∧ ∃ bs : List Bucket, bs.Nodup ∧ bucketsOf ts = bs.map some

/-- Whether types are the variants of a union: there are two or more, each is in a bucket, and each
bucket has at most one, in the order of the buckets. -/
def AreVariants (ts : List Schema) : Prop :=
  2 ≤ ts.length ∧ ∃ bs : List Bucket, bs.Sublist Bucket.all ∧ bucketsOf ts = bs.map some

/-- Variants are a choice. -/
theorem AreVariants.isChoice {ts : List Schema} (h : AreVariants ts) : IsChoice ts := by
  obtain ⟨hlen, bs, hs, hb⟩ := h
  refine ⟨fun e => ?_, bs, ?_, hb⟩
  · rw [e] at hlen
    cases hlen
  · have hall : Bucket.all.Nodup := by decide
    exact hall.sublist hs

/-- Each member of a choice has a bucket. -/
theorem IsChoice.exists_bucket {ts : List Schema} (h : IsChoice ts) {t : Schema} (ht : t ∈ ts) :
    ∃ b, t.kind.bucket? = some b := by
  obtain ⟨-, bs, -, hb⟩ := h
  have hmem : t.kind.bucket? ∈ bs.map some := hb ▸ List.mem_map_of_mem ht
  obtain ⟨b, -, e⟩ := List.mem_map.mp hmem
  exact ⟨b, e.symm⟩

/-! ### The part of a bucket -/

namespace Parts
variable {p q : Parts} {b : Bucket} {t : Schema}

/-- The schema of the part in a bucket. -/
def variant? (p : Parts) : Bucket → Option Schema
  | .bool   => if p.bool then some .bool else none
  | .number => p.number.map NumberPart.toSchema
  | .string => p.string.map StringPart.toSchema
  | .array  => p.array.map ArrayPart.toSchema
  | .object => p.object.map ObjectPart.toSchema

/-- The part in a bucket is a schema of this bucket. -/
theorem bucket_of_variant? (h : p.variant? b = some t) : t.kind.bucket? = some b := by
  cases b with
  | bool =>
      rw [variant?] at h
      split at h <;> cases h
      rfl
  | number =>
      obtain ⟨n, -, rfl⟩ := Option.map_eq_some_iff.mp h
      cases n <;> rfl
  | string =>
      obtain ⟨s, -, rfl⟩ := Option.map_eq_some_iff.mp h
      cases s <;> rfl
  | array | object =>
      obtain ⟨_, -, rfl⟩ := Option.map_eq_some_iff.mp h
      rfl

/-- The parts are listed bucket by bucket. -/
theorem toList_eq_filterMap (p : Parts) : p.toList = Bucket.all.filterMap p.variant? := by
  obtain ⟨b, n, s, a, o⟩ := p
  cases b <;> cases n <;> cases s <;> cases a <;> cases o <;> rfl

/-- The schemas of parts are those in their buckets. -/
theorem mem_toList_iff_variant? : t ∈ p.toList ↔ ∃ b, p.variant? b = some t := by
  rw [toList_eq_filterMap, List.mem_filterMap]
  exact ⟨fun ⟨b, _, h⟩ => ⟨b, h⟩, fun ⟨b, h⟩ => ⟨b, b.mem_all, h⟩⟩

/-- A type in a bucket is listed when it is the part of that bucket. -/
theorem mem_toList_iff_of_bucket (h : t.kind.bucket? = some b) :
    t ∈ p.toList ↔ p.variant? b = some t := by
  rw [mem_toList_iff_variant?]
  refine ⟨fun ⟨c, hc⟩ => ?_, fun hb => ⟨b, hb⟩⟩
  cases h.symm.trans (bucket_of_variant? hc)
  exact hc

/-- The buckets of the parts, in order. -/
theorem bucketsOf_toList (p : Parts) :
    bucketsOf p.toList = (Bucket.all.filter fun b => (p.variant? b).isSome).map some := by
  rw [bucketsOf, toList_eq_filterMap]
  induction Bucket.all with
  | nil => rfl
  | cons b bs ih =>
      cases h : p.variant? b with
      | none => simpa [h] using ih
      | some t => simpa [h, bucket_of_variant? h] using ih

/-- What overrides has its way in its own buckets only. -/
theorem variant?_overriddenBy (p q : Parts) (b : Bucket) :
    (p.overriddenBy q).variant? b = (q.variant? b).or (p.variant? b) := by
  cases b with
  | bool =>
      rw [overriddenBy, variant?, variant?, variant?]
      cases p.bool <;> cases q.bool <;> rfl
  | _ => exact Option.map_or

/-- A type that is in a bucket is the only part of itself. -/
theorem variant?_parts (h : t.kind.bucket? = some b) (c : Bucket) :
    t.parts.variant? c = if c = b then some t else none := by
  cases t with
  | null | optional _ | union _ => cases h
  | string numeric => cases numeric <;> cases h <;> cases c <;> rfl
  | _ => cases h; cases c <;> rfl

end Parts

/-- The parts of types of distinct buckets are these types. -/
theorem mem_toList_partsOfAll : ∀ {ts : List Schema} {bs : List Bucket}, bs.Nodup →
    bucketsOf ts = bs.map some → ∀ t, t ∈ (partsOfAll ts).toList ↔ t ∈ ts
  | [], _, _, _, t => by simp [partsOfAll, Parts.toList]
  | _ :: _, [], _, h, _ => by cases h
  | t :: ts, b :: bs, hn, h, u => by
      obtain ⟨hb, hbs⟩ := List.cons_eq_cons.mp h
      obtain ⟨hnb, hn⟩ := List.nodup_cons.mp hn
      have ih := mem_toList_partsOfAll hn hbs
      -- the bucket of the first type is empty in the rest
      have hnone : (partsOfAll ts).variant? b = none := by
        cases hv : (partsOfAll ts).variant? b with
        | none => rfl
        | some v =>
            have hmem : v ∈ ts := (ih v).mp (Parts.mem_toList_iff_variant?.mpr ⟨b, hv⟩)
            have hvb : some b ∈ bs.map some :=
              hbs ▸ Parts.bucket_of_variant? hv ▸ List.mem_map_of_mem hmem
            exact absurd (by simpa using hvb) hnb
      rw [List.mem_cons, ← ih u, Parts.mem_toList_iff_variant?, Parts.mem_toList_iff_variant?]
      simp only [partsOfAll, Parts.variant?_overriddenBy, Parts.variant?_parts hb,
        Option.or_eq_some_iff]
      constructor
      · rintro ⟨c, hc | ⟨-, hc⟩⟩
        · exact .inr ⟨c, hc⟩
        · split at hc <;> cases hc
          exact .inl rfl
      · rintro (rfl | ⟨c, hc⟩)
        · exact ⟨b, .inr ⟨hnone, if_pos rfl⟩⟩
        · exact ⟨c, .inl hc⟩

theorem IsChoice.mem_toList_iff {ts : List Schema} (h : IsChoice ts) (t : Schema) :
    t ∈ (partsOfAll ts).toList ↔ t ∈ ts := by
  obtain ⟨-, bs, hn, hb⟩ := h
  exact mem_toList_partsOfAll hn hb t

/-! ### Variants in the order of their buckets -/

/-- The place of a bucket in the order of the buckets. -/
def Bucket.rank : Bucket → Nat
  | .bool   => 0
  | .number => 1
  | .string => 2
  | .array  => 3
  | .object => 4

/-- Whether the bucket of one type comes before that of another. -/
def InOrder (t u : Schema) : Prop :=
  ∃ b c, t.kind.bucket? = some b ∧ u.kind.bucket? = some c ∧ b.rank < c.rank

/-- No two schemas are in order both ways. -/
theorem InOrder.asymm {t u : Schema} (htu : InOrder t u) (hut : InOrder u t) : False := by
  obtain ⟨b, c, hb, hc, hlt⟩ := htu
  obtain ⟨c', b', hc', hb', hgt⟩ := hut
  cases hb.symm.trans hb'
  cases hc.symm.trans hc'
  exact Nat.lt_asymm hlt hgt

theorem pairwise_inOrder {ts : List Schema} {bs : List Bucket} (hs : bs.Sublist Bucket.all)
    (h : bucketsOf ts = bs.map some) : ts.Pairwise InOrder := by
  have hall : Bucket.all.Pairwise fun b c => b.rank < c.rank := by decide
  have hbs : (bs.map some).Pairwise fun x y => ∃ b c, x = some b ∧ y = some c ∧ b.rank < c.rank :=
    List.pairwise_map.mpr ((hall.sublist hs).imp fun {b c} hlt => ⟨b, c, rfl, rfl, hlt⟩)
  rwa [← h, bucketsOf, List.pairwise_map] at hbs

theorem nodup_of_pairwise_inOrder {ts : List Schema} (h : ts.Pairwise InOrder) : ts.Nodup :=
  h.imp fun {t u} hlt e => by
    rw [e] at hlt
    exact hlt.asymm hlt

theorem Parts.exists_buckets (p : Parts) : ∃ bs : List Bucket, bs.Sublist Bucket.all ∧
    bucketsOf p.toList = bs.map some := ⟨_, List.filter_sublist, p.bucketsOf_toList⟩

/-- Variants in the order of their buckets are listed in the order of the parts. -/
theorem AreVariants.toList_eq {ts : List Schema} (h : AreVariants ts) :
    (partsOfAll ts).toList = ts := by
  have hmem := h.isChoice.mem_toList_iff
  obtain ⟨-, bs, hs, hb⟩ := h
  obtain ⟨cs, hcs, hcb⟩ := (partsOfAll ts).exists_buckets
  have hts := pairwise_inOrder hs hb
  have hparts := pairwise_inOrder hcs hcb
  have hperm : (partsOfAll ts).toList.Perm ts :=
    (List.perm_ext_iff_of_nodup (nodup_of_pairwise_inOrder hparts)
      (nodup_of_pairwise_inOrder hts)).mpr hmem
  exact hperm.eq_of_pairwise (fun t u _ _ htu hut => (htu.asymm hut).elim) hparts hts

theorem areVariants_iff {ts : List Schema} :
    AreVariants ts ↔ 2 ≤ ts.length ∧ ∃ p : Parts, p.toList = ts := by
  constructor
  · intro h
    exact ⟨h.1, partsOfAll ts, h.toList_eq⟩
  · rintro ⟨hlen, p, rfl⟩
    exact ⟨hlen, p.exists_buckets⟩

end SampleSchema
