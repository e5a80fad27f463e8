import SampleSchema.Malformed
import SampleSchema.Number.Shortest

/-!
# Samples

A sample is a tree of values, whatever format it was read from. A number is an integer of any size
or a finite double, and the fields of an object have distinct names: `Sample.ofDouble` and
`Sample.ofFields` build these two and refuse anything else.

* `ofDouble_eq_ok_iff`: a double makes a sample exactly when it is finite.
* `ofFields_eq_ok_iff`: fields make an object exactly when their names are distinct.
-/

namespace SampleSchema

/-- A sample value. -/
inductive Sample where
  | null
  | bool (value : Bool)
  | int (value : Int)
  | float (value : Double)
  | string (value : String)
  | array (items : List Sample)
  | object (fields : List (String × Sample))
  deriving Repr

/-- The first element that has occurred before, where `seen` are the elements before the list. -/
def firstRepeat? (seen : List String) : List String → Option String
  | [] => none
  | x :: xs => if x ∈ seen then some x else firstRepeat? (x :: seen) xs

/-- Nothing repeats exactly when the elements are distinct and new. -/
theorem firstRepeat?_eq_none_iff : ∀ (xs seen : List String),
    firstRepeat? seen xs = none ↔ xs.Nodup ∧ ∀ x ∈ xs, x ∉ seen
  | [], seen => by simp [firstRepeat?]
  | x :: xs, seen => by
      by_cases h : x ∈ seen
      · simp [firstRepeat?, h]
      · simp only [firstRepeat?, h, if_false, firstRepeat?_eq_none_iff xs, List.nodup_cons,
          List.mem_cons, not_or]
        constructor
        · rintro ⟨hn, hs⟩
          exact ⟨⟨fun hx => (hs x hx).1 rfl, hn⟩, by
            rintro y (rfl | hy)
            · exact h
            · exact (hs y hy).2⟩
        · rintro ⟨⟨hx, hn⟩, hs⟩
          exact ⟨hn, fun y hy => ⟨fun e => hx (e ▸ hy), hs y (.inr hy)⟩⟩

namespace Sample

/-- The sample of a double. -/
def ofDouble (x : Double) : Except Malformed Sample :=
  if x.isFinite then .ok (.float x) else .error (.nonFinite x.text)

/-- A double makes a sample exactly when it is finite. -/
theorem ofDouble_eq_ok_iff {x : Double} {v : Sample} :
    ofDouble x = .ok v ↔ x.isFinite = true ∧ v = .float x := by
  rw [ofDouble]
  split
  · rename_i hx
    refine ⟨fun h => ⟨hx, (Except.ok.inj h).symm⟩, ?_⟩
    rintro ⟨-, rfl⟩
    rfl
  · exact ⟨fun h => (nomatch h), fun h => absurd h.1 ‹_›⟩

theorem isFinite_of_ofDouble_eq_error {x : Double} {m : Malformed} (h : ofDouble x = .error m) :
    x.isFinite = false := by
  rw [ofDouble] at h
  split at h
  · cases h
  · exact Bool.eq_false_iff.mpr ‹_›

/-- The object with the given fields. -/
def ofFields (fields : List (String × Sample)) : Except Malformed Sample :=
  match firstRepeat? [] (fields.map Prod.fst) with
  | none => .ok (.object fields)
  | some name => .error (.duplicateField name)

/-- Fields make an object exactly when their names are distinct. -/
theorem ofFields_eq_ok_iff {fields : List (String × Sample)} :
    ofFields fields = .ok (.object fields) ↔ (fields.map Prod.fst).Nodup := by
  have h := firstRepeat?_eq_none_iff (fields.map Prod.fst) []
  simp only [List.not_mem_nil, not_false_eq_true, implies_true, and_true] at h
  unfold ofFields
  split <;> simp_all

/-- An object is made of the fields as they are, or not at all. -/
theorem eq_object_of_ofFields {fields : List (String × Sample)} {v : Sample}
    (h : ofFields fields = .ok v) : v = .object fields ∧ (fields.map Prod.fst).Nodup := by
  obtain rfl : v = .object fields := by
    rw [ofFields] at h
    split at h <;> cases h
    rfl
  exact ⟨rfl, ofFields_eq_ok_iff.mp h⟩

/-- The names of the fields of an object, in order. -/
def keys : List (String × Sample) → List String := List.map Prod.fst

/-- The value of the first field with a name. -/
def get? (fields : List (String × Sample)) (name : String) : Option Sample :=
  (fields.find? (·.1 = name)).map Prod.snd

end Sample

end SampleSchema
