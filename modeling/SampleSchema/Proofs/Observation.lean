import SampleSchema.Inference

/-!
# What inference observes

All that the schema of a sample depends on is its *observation*: the sample with its numbers and
texts replaced by their classes (`Options.observe`).  Lists of observations are what is seen at one
position of the samples; `numbers`, `texts`, `arrays` and `objects` pick out the values of one kind,
and `names` and `valuesUnder` give the names that occur among objects and what stands under them.

Each of these turns appended lists into appended results, except `names`, in which the names of the
second list come only where they are new (`names_append`).
-/

namespace SampleSchema

/-- A sample as inference sees it. -/
inductive Observation where
  | null
  | bool
  | number (part : NumberPart)
  | string (part : StringPart)
  | array (items : List Observation)
  | object (fields : List (String × Observation))

namespace Observation

/-- Whether a value is null. -/
def isNull : Observation → Bool
  | .null => true
  | _ => false

/-- Whether a value is a truth value. -/
def isBool : Observation → Bool
  | .bool => true
  | _ => false

/-- What is seen of a number. -/
def number? : Observation → Option NumberPart
  | .number p => some p
  | _ => none

/-- What is seen of a text. -/
def string? : Observation → Option StringPart
  | .string p => some p
  | _ => none

/-- The items of an array. -/
def items? : Observation → Option (List Observation)
  | .array items => some items
  | _ => none

/-- The members of an object. -/
def fields? : Observation → Option (List (String × Observation))
  | .object fields => some fields
  | _ => none

@[simp] theorem number?_eq_some {x : Observation} {p : NumberPart} :
    x.number? = some p ↔ x = .number p := by cases x <;> simp [number?]

@[simp] theorem string?_eq_some {x : Observation} {p : StringPart} :
    x.string? = some p ↔ x = .string p := by cases x <;> simp [string?]

@[simp] theorem items?_eq_some {x : Observation} {as : List Observation} :
    x.items? = some as ↔ x = .array as := by cases x <;> simp [items?]

@[simp] theorem fields?_eq_some {x : Observation} {fs : List (String × Observation)} :
    x.fields? = some fs ↔ x = .object fs := by cases x <;> simp [fields?]

/-! ### The values of one kind -/

/-- The numbers among values. -/
def numbers (xs : List Observation) : List NumberPart := xs.filterMap number?

/-- The texts among values. -/
def texts (xs : List Observation) : List StringPart := xs.filterMap string?

/-- The arrays among values. -/
def arrays (xs : List Observation) : List (List Observation) := xs.filterMap items?

/-- The objects among values. -/
def objects (xs : List Observation) : List (List (String × Observation)) := xs.filterMap fields?

/-- The items of all arrays, in order. -/
def items (xs : List Observation) : List Observation := (arrays xs).flatten

section
variable {xs : List Observation}

@[simp] theorem mem_numbers {p : NumberPart} : p ∈ numbers xs ↔ .number p ∈ xs := by
  simp [numbers]

@[simp] theorem mem_texts {p : StringPart} : p ∈ texts xs ↔ .string p ∈ xs := by simp [texts]

@[simp] theorem mem_arrays {as : List Observation} : as ∈ arrays xs ↔ .array as ∈ xs := by
  simp [arrays]

@[simp] theorem mem_objects {fs : List (String × Observation)} :
    fs ∈ objects xs ↔ .object fs ∈ xs := by simp [objects]

end

theorem any_isNull_iff {xs : List Observation} : xs.any isNull = true ↔ .null ∈ xs := by
  rw [List.any_eq_true]
  refine ⟨fun ⟨x, hx, h⟩ => ?_, fun h => ⟨_, h, rfl⟩⟩
  cases x with
  | null => exact hx
  | _ => cases h

theorem any_isBool_iff {xs : List Observation} : xs.any isBool = true ↔ .bool ∈ xs := by
  rw [List.any_eq_true]
  refine ⟨fun ⟨x, hx, h⟩ => ?_, fun h => ⟨_, h, rfl⟩⟩
  cases x with
  | bool => exact hx
  | _ => cases h

/-- An item of the values is an item of one of their arrays. -/
theorem mem_items {xs : List Observation} {x : Observation} :
    x ∈ items xs ↔ ∃ as, .array as ∈ xs ∧ x ∈ as := by
  simp only [items, List.mem_flatten, mem_arrays]

/-- More values have more items. -/
theorem items_subset {xs ys : List Observation} (h : xs ⊆ ys) : items xs ⊆ items ys :=
  fun x hx => by
    obtain ⟨as, ha, hxa⟩ := mem_items.mp hx
    exact mem_items.mpr ⟨as, h ha, hxa⟩

section
variable (xs ys : List Observation)

@[simp] theorem numbers_append : numbers (xs ++ ys) = numbers xs ++ numbers ys :=
  List.filterMap_append

@[simp] theorem texts_append : texts (xs ++ ys) = texts xs ++ texts ys := List.filterMap_append

@[simp] theorem arrays_append : arrays (xs ++ ys) = arrays xs ++ arrays ys :=
  List.filterMap_append

@[simp] theorem objects_append : objects (xs ++ ys) = objects xs ++ objects ys :=
  List.filterMap_append

/-- The items of two lists of values are those of the first and those of the second. -/
@[simp] theorem items_append : items (xs ++ ys) = items xs ++ items ys := by
  simp only [items, arrays_append, List.flatten_append]

end

/-! ### The fields of objects -/

/-- The names of the fields of objects, in the order in which they first occur. -/
def names (os : List (List (String × Observation))) : List String :=
  (os.flatMap fun fields => fields.map Prod.fst).eraseDups

/-- The values that objects have under a name. -/
def valuesUnder (name : String) (os : List (List (String × Observation))) : List Observation :=
  os.filterMap (List.lookup name)

/-- The values under a name in two lists of objects are those in the first and those in the second.
-/
@[simp] theorem valuesUnder_append (name : String) (os ps : List (List (String × Observation))) :
    valuesUnder name (os ++ ps) = valuesUnder name os ++ valuesUnder name ps :=
  List.filterMap_append

/-- An object has at most one value under a name. -/
theorem length_valuesUnder_le (name : String) (os : List (List (String × Observation))) :
    (valuesUnder name os).length ≤ os.length := List.length_filterMap_le _ _

/-- A name of objects is the name of a member of one of them. -/
theorem mem_names {name : String} {os : List (List (String × Observation))} :
    name ∈ names os ↔ ∃ fields ∈ os, name ∈ fields.map Prod.fst := by
  rw [names, List.mem_eraseDups, List.mem_flatMap]

/-- A field has a value when its name is there. -/
theorem isSome_lookup_iff {name : String} {fields : List (String × Observation)} :
    (fields.lookup name).isSome ↔ name ∈ fields.map Prod.fst := by
  rw [List.lookup_isSome_iff, List.mem_map]
  exact ⟨fun ⟨p, hp, e⟩ => ⟨p, hp, (eq_of_beq e).symm⟩,
    fun ⟨p, hp, e⟩ => ⟨p, hp, beq_iff_eq.mpr e.symm⟩⟩

/-- Nothing stands under a name exactly when the name does not occur. -/
theorem valuesUnder_eq_nil_iff {name : String} {os : List (List (String × Observation))} :
    valuesUnder name os = [] ↔ name ∉ names os := by
  rw [valuesUnder, List.filterMap_eq_nil_iff, mem_names]
  constructor
  · rintro h ⟨fields, hf, hn⟩
    have hs := isSome_lookup_iff.mpr hn
    rw [h fields hf] at hs
    cases hs
  · intro h fields hf
    cases e : fields.lookup name with
    | none => rfl
    | some v => exact absurd ⟨fields, hf, isSome_lookup_iff.mp (by rw [e]; rfl)⟩ h

/-- Fewer values than objects stand under a name when some object lacks it. -/
theorem length_valuesUnder_lt_iff {name : String} {os : List (List (String × Observation))} :
    (valuesUnder name os).length < os.length ↔ ∃ fields ∈ os, name ∉ fields.map Prod.fst := by
  have hle := length_valuesUnder_le name os
  have hall : (valuesUnder name os).length = os.length ↔
      ∀ fields ∈ os, name ∈ fields.map Prod.fst := by
    rw [valuesUnder, List.length_filterMap_eq_countP, List.countP_eq_length]
    exact ⟨fun h fields hf => isSome_lookup_iff.mp (h fields hf),
      fun h fields hf => isSome_lookup_iff.mpr (h fields hf)⟩
  constructor
  · intro hlt
    refine Classical.byContradiction fun hno => Nat.ne_of_lt hlt (hall.mpr fun fields hf => ?_)
    exact Classical.byContradiction fun hn => hno ⟨fields, hf, hn⟩
  · rintro ⟨fields, hf, hn⟩
    exact Nat.lt_of_le_of_ne hle fun e => hn (hall.mp e fields hf)

/-- Erasing duplicates after picking out elements is picking out elements after erasing
duplicates. -/
theorem eraseDups_filter (p : String → Bool) : ∀ l : List String,
    (l.filter p).eraseDups = l.eraseDups.filter p
  | [] => rfl
  | a :: l => by
      -- the tail loses the first element before the recursion, so this is not structural
      have ih := eraseDups_filter p (l.filter fun b => !b == a)
      rw [List.eraseDups_cons, List.filter_cons, List.filter_cons, ← ih, List.filter_filter]
      split
      · rw [List.eraseDups_cons, List.filter_filter]
        simp only [Bool.and_comm]
      · rename_i ha
        congr 1
        -- an element that is not picked out need not be taken out of the rest
        refine List.filter_congr fun b _ => ?_
        by_cases hb : b = a <;> simp_all
termination_by l => l.length
decreasing_by
  exact Nat.lt_succ_of_le (List.length_filter_le _ _)

/-- The names among more objects are those among the first, and then those that are new. -/
theorem names_append (os ps : List (List (String × Observation))) :
    names (os ++ ps) = names os ++ (names ps).filter fun name => !(names os).contains name := by
  have h : ∀ (l : List String) (name : String), l.eraseDups.contains name = l.contains name :=
    fun l name => by
      rw [Bool.eq_iff_iff, List.contains_iff_mem, List.contains_iff_mem, List.mem_eraseDups]
  rw [names, List.flatMap_append, List.eraseDups_append, List.removeAll, eraseDups_filter]
  simp only [List.elem_eq_contains, ← h (os.flatMap _)]
  rfl

/-! ### Sizes -/

/-- Picking something smaller out of each element, or nothing, makes a list smaller. -/
theorem sizeOf_filterMap_le {α β : Type} [SizeOf α] [SizeOf β] {f : α → Option β}
    (hf : ∀ a b, f a = some b → sizeOf b < sizeOf a) : ∀ l : List α,
      sizeOf (l.filterMap f) + (l.filterMap f).length ≤ sizeOf l
  | []     => by simp
  | a :: l => by
      have ih := sizeOf_filterMap_le hf l
      rw [List.filterMap_cons, List.cons.sizeOf_spec]
      split
      · omega
      · rename_i b hb
        have := hf a b hb
        simp only [List.cons.sizeOf_spec, List.length_cons]
        omega

theorem sizeOf_append (xs ys : List Observation) :
    sizeOf (xs ++ ys) + 1 = sizeOf xs + sizeOf ys := by
  induction xs with
  | nil => simp only [List.nil_append, List.nil.sizeOf_spec]; omega
  | cons x xs ih => simp only [List.cons_append, List.cons.sizeOf_spec]; omega

/-- The items of arrays are smaller than the arrays. -/
theorem sizeOf_flatten_le (as : List (List Observation)) : sizeOf as.flatten ≤ sizeOf as := by
  induction as with
  | nil => exact Nat.le_refl _
  | cons a as ih =>
      have := sizeOf_append a as.flatten
      rw [List.flatten_cons, List.cons.sizeOf_spec]
      omega

/-- The items of arrays are smaller than the values that the arrays are among. -/
theorem sizeOf_items_lt {xs : List Observation} (h : arrays xs ≠ []) :
    sizeOf (items xs) < sizeOf xs := by
  have hf : ∀ x as, items? x = some as → sizeOf as < sizeOf x := fun x as e => by
    rw [items?_eq_some.mp e, array.sizeOf_spec]; omega
  -- one array at least is unwrapped, and that makes the list strictly smaller
  have h₁ : sizeOf (arrays xs) + (arrays xs).length ≤ sizeOf xs := sizeOf_filterMap_le hf xs
  have h₂ : sizeOf (items xs) ≤ sizeOf (arrays xs) := sizeOf_flatten_le _
  have h₃ := List.length_pos_iff.mpr h
  omega

/-- A member of an object is smaller than the object. -/
theorem sizeOf_lookup_lt {name : String} {v : Observation} {fields : List (String × Observation)}
    (h : fields.lookup name = some v) : sizeOf v < sizeOf fields := by
  obtain ⟨l₁, l₂, rfl, -⟩ := List.lookup_eq_some_iff.mp h
  have : sizeOf (name, v) < sizeOf (l₁ ++ (name, v) :: l₂) := List.sizeOf_lt_of_mem (by simp)
  rw [Prod.mk.sizeOf_spec] at this
  omega

/-- The values under a name are smaller than the values that the objects are among. -/
theorem sizeOf_valuesUnder_lt (name : String) {xs : List Observation} (h : objects xs ≠ []) :
    sizeOf (valuesUnder name (objects xs)) < sizeOf xs := by
  have hf : ∀ x fs, fields? x = some fs → sizeOf fs < sizeOf x := fun x fs e => by
    rw [fields?_eq_some.mp e, object.sizeOf_spec]; omega
  have h₁ : sizeOf (objects xs) + (objects xs).length ≤ sizeOf xs := sizeOf_filterMap_le hf xs
  have h₂ : sizeOf (valuesUnder name (objects xs)) + _ ≤ sizeOf (objects xs) :=
    sizeOf_filterMap_le (fun _ _ h => sizeOf_lookup_lt h) (objects xs)
  have h₃ := List.length_pos_iff.mpr h
  omega

end Observation

/-! ### The observation of a sample -/

namespace Options

/-- The class of a text. -/
def textPart (o : Options) (s : String) : StringPart :=
  match meaning? o.layouts s with
  | some (.timestamp _) => .timestamp
  | some .number        => .numeric
  | none                => .plain

mutual

/-- What inference sees of a sample: an integer counts as one when it lies in the range. -/
def observe (o : Options) : Sample → Observation
  | .null          => .null
  | .bool _        => .bool
  | .int n         => .number (if o.intMin ≤ n ∧ n ≤ o.intMax then .int else .float)
  | .float _       => .number .float
  | .string s      => .string (o.textPart s)
  | .array items   => .array (observeAll o items)
  | .object fields => .object (observeFields o fields)

/-- What is seen of several samples. -/
def observeAll (o : Options) : List Sample → List Observation
  | []      => []
  | s :: ss => o.observe s :: observeAll o ss

/-- What is seen of the members of an object. -/
def observeFields (o : Options) : List (String × Sample) → List (String × Observation)
  | []           => []
  | (n, s) :: fs => (n, o.observe s) :: observeFields o fs

end

theorem observeAll_eq_map (o : Options) : ∀ ss : List Sample, o.observeAll ss = ss.map o.observe
  | []      => rfl
  | s :: ss => by rw [observeAll, observeAll_eq_map o ss, List.map_cons]

theorem observeFields_eq_map (o : Options) : ∀ fs : List (String × Sample),
    o.observeFields fs = fs.map fun f => (f.1, o.observe f.2)
  | []           => rfl
  | (n, s) :: fs => by rw [observeFields, observeFields_eq_map o fs, List.map_cons]

end Options

end SampleSchema
