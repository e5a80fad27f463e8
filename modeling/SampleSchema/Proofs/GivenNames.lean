import SampleSchema.Proofs.Definitions
import SampleSchema.Proofs.WordPaths

/-!
# The names that objects are given

The words of paths are names of types, and so is every candidate for the name of an object but the
last one, which joins the whole path by underscores (`isGivenName_of_mem_candidates`).  Naming gives
no other names.  That is so also when schemas are named one after the other, each with the names given
before, and whether all of them can be named or not (`Names.afterAll`).  So an underscore in the name
of a definition tells that it is the joined path of an object (`names_closed_and_stable`).
-/

namespace SampleSchema
open Names

/-! ### The form of candidates -/

/-- Whether a character is a letter, a digit or an underscore. -/
def isNameChar (c : Char) : Bool := c.isAlphanum || c = '_'

theorem isNameChar_of_isAlphanum {c : Char} (h : c.isAlphanum = true) : isNameChar c = true := by
  rw [isNameChar, h, Bool.true_or]

/-- Whether a text is a capital with letters, digits and underscores after it, and has an underscore
only as a path below a root that is joined by underscores. -/
structure IsGivenName (root : String) (words : List String) (name : String) : Prop where
  isCapitalized  : IsCapitalized isNameChar name
  underscore_iff : '_' ∈ name.toList ↔ words ≠ [] ∧ name = "_".intercalate (root :: words)

theorem isNameChar_of_mem_intercalate {c : Char} : ∀ {ws : List String},
    (∀ w ∈ ws, IsAlphanumeric w) → c ∈ ("_".intercalate ws).toList → isNameChar c = true
  | [], _, h => by cases h
  | [w], hws, h => by
      rw [String.intercalate_singleton] at h
      exact isNameChar_of_isAlphanum (hws w List.mem_cons_self c h)
  | w :: v :: ws, hws, h => by
      obtain ⟨hw, hvs⟩ := List.forall_mem_cons.mp hws
      rw [String.intercalate_cons_cons, String.toList_append, String.toList_append] at h
      rcases List.mem_append.mp h with h | h
      · rcases List.mem_append.mp h with h | h
        · exact isNameChar_of_isAlphanum (hw c h)
        · obtain rfl : c = '_' := List.mem_singleton.mp h
          rfl
      · exact isNameChar_of_mem_intercalate hvs h

section
variable {root : String} (hroot : IsTypeName root)
include hroot

/-- Every candidate at a path of type names has the form of a given name. -/
theorem isGivenName_of_mem_candidates {words : List String} (hwords : ∀ w ∈ words, IsTypeName w)
    {name : String} (h : name ∈ candidates root words) : IsGivenName root words name := by
  have hletters : ∀ w ∈ words, IsAlphanumeric w := fun w hw => (hwords w hw).isAlphanumeric
  rcases candidates_cases hletters h with ⟨hne, rfl⟩ | ⟨w, hw, rest, hrest, rfl⟩
  · refine ⟨?_, fun _ => ⟨hne, rfl⟩, fun _ => underscore_mem_intercalate root hne⟩
    rw [String.intercalate_cons_of_ne_nil hne]
    refine ((hroot.mono fun _ => isNameChar_of_isAlphanum).append ?_).append fun c => ?_
    · exact List.forall_mem_singleton.mpr rfl
    · exact isNameChar_of_mem_intercalate hletters
  · have hword : IsTypeName w := List.forall_mem_cons.mpr ⟨hroot, hwords⟩ w hw
    have hnot : '_' ∉ (w ++ rest).toList := (hword.isAlphanumeric.append hrest).underscore_notMem
    refine ⟨(hword.append hrest).mono fun _ => isNameChar_of_isAlphanum, fun h => absurd h hnot, ?_⟩
    rintro ⟨hne, e⟩
    exact absurd (e ▸ underscore_mem_intercalate root hne) hnot

/-- The words of the paths to objects are names of types. -/
theorem isTypeName_of_mem_words {t : Schema} {p : Occurrence} (hp : p ∈ t.occurrences root .top) :
    ∀ w ∈ p.words, IsTypeName w := by
  have hitem : IsAlphanumeric "Item" := by decide
  exact forall_words_of_mem (P := IsTypeName) (hroot.append hitem) (fun _ hw => hw.singular)
    isTypeName_typeName hp

end

/-! ### Naming schemas one after the other -/

/-- The names after naming schemas one after the other, whether they could be named or not. -/
def Names.afterAll (rootName : String) (ts : List Schema) : Names :=
  ts.foldl (fun n t => ((nameNext t).run.run n).2) (start rootName)

theorem Names.afterAll_concat (rootName : String) (ts : List Schema) (t : Schema) :
    afterAll rootName (ts ++ [t]) = ((nameNext t).run.run (afterAll rootName ts)).2 := by
  rw [afterAll, List.foldl_concat, afterAll]

/-- Whether every definition is one of an object of given schemas, under a candidate for its name. -/
structure Names.GivenIn (root : String) (ts : List Schema) (n : Names) : Prop where
  root_eq : n.root = root
  closed  : n.Closed
  given   : ∀ d ∈ n.definitions, ∃ t ∈ ts, ∃ p ∈ t.occurrences root .top,
    d.signature = p.signature ∧ d.name ∈ candidates root p.words

section
variable {root : String} {ts : List Schema} {n : Names}

/-- Naming one more schema defines objects of this schema only. -/
theorem Names.GivenIn.next (h : n.GivenIn root ts) (t : Schema) :
    ((nameNext t).run.run n).2.GivenIn root (ts ++ [t]) := by
  obtain ⟨rfl, hclosed, hgiven⟩ := h
  obtain ⟨ps, hps, hs⟩ : ∃ ps ⊆ t.occurrences n.root .top,
      Steps ps (n.reserve t) ((nameNext t).run.run n).2 := by
    have ho := nameNext_outcome t hclosed
    generalize (nameNext t).run.run n = r at ho
    cases ho with
    | done hs _ => exact ⟨_, List.Subset.refl _, hs⟩
    | stuck before he hs _ => exact ⟨before, he ▸ List.subset_append_left _ _, hs⟩
  refine ⟨hs.root_eq.trans (root_reserve n t), hs.closed (hclosed.reserve t), fun d hd => ?_⟩
  rcases hs.mem_definitions hd with hd | ⟨p, hp, hsig, hname⟩
  · rw [definitions_reserve] at hd
    obtain ⟨u, hu, hd⟩ := hgiven d hd
    exact ⟨u, List.mem_append_left _ hu, hd⟩
  · rw [root_reserve] at hname
    exact ⟨t, List.mem_append_right _ (List.mem_singleton_self _), p, hps hp, hsig, hname⟩

end

/-- Naming defines objects of the schemas it has come to, under candidates for their names. -/
theorem Names.givenIn_afterAll (rootName : String) (ts : List Schema) :
    (afterAll rootName ts).GivenIn (typeName rootName) ts := by
  induction ts using List.reverseRecOn with
  | nil =>
      have hstart : (start rootName).Sound := sound_of_defined_eq_nil rfl
      exact ⟨rfl, hstart.closed, List.forall_mem_nil _⟩
  | append_singleton ts t ih =>
      rw [afterAll_concat]
      exact ih.next t

/-- What naming one more schema gives. -/
theorem Names.GivenIn.definitions_eq {root : String} {ts : List Schema} {n : Names}
    (h : n.GivenIn root ts) {t : Schema} {s : NamedSchema}
    (hs : ((nameNext t).run.run n).1 = .ok s) :
    s.definitions = ((nameNext t).run.run n).2.definitions ∧
      ∀ u ∈ s.root.objects, ∃ d ∈ s.definitions, d.toSchema = u := by
  have hclosed := (h.next t).closed
  have ho := nameNext_outcome t h.closed
  generalize (nameNext t).run.run n = r at ho hs hclosed
  cases ho with
  | done _ ha =>
      cases hs
      obtain ⟨hdefinitions, hnamed⟩ := ha
      refine ⟨hdefinitions, fun u hu => ?_⟩
      rw [hdefinitions]
      exact hclosed.exists_of_namedBy hnamed hu
  | stuck _ _ _ _ => cases hs

/-! ### Root names -/

/-- A root name may be made into the name of a type before it is given. -/
theorem Schema.named_typeName (rootName : String) (t : Schema) :
    t.named (typeName rootName) = t.named rootName := by
  rw [named, named, start, start, typeName_typeName]

theorem givenOr_typeName (name otherwise : String) :
    givenOr (some (typeName name)) otherwise = typeName name := by
  refine if_neg fun h => typeName_ne_empty name ?_
  rw [h, String.toList_empty]

/-- A report is that of the run under the root name as it was given. -/
theorem Settings.report_eq_map_run (s : Settings) (rootName : Option String)
    (parallel : Option Bool) (samples : List Sample) :
    s.report rootName parallel samples =
      (s.run { rootName := rootName, parallel := parallel } samples).map
        (·.report (typeName (givenOr rootName s.rootTypeName)) none) := by
  have hrun : s.run
      { rootName := some (typeName (givenOr rootName s.rootTypeName)), parallel := parallel } samples =
        s.run { rootName := rootName, parallel := parallel } samples := by
    rw [run, run]
    simp only [givenOr_typeName, Schema.named_typeName]
    rfl
  rw [report, hrun]
  cases s.run { rootName := rootName, parallel := parallel } samples <;> rfl

/-! ### Names of types and of objects -/

/-- **Names are closed and stable.**  The name of a type is a capital with letters and digits after it,
and it is its own name.  So it does not matter whether a root name was made into one before: schemas
are named the same, and reports are those of runs under the root name as it was given.  The singular
of such a name is one, and not longer, and the singular of any text is its own singular.  Hence the
names that are given to the objects of schemas, named one after the other, are capitals with
letters, digits and underscores after them, and those with an underscore are joined paths. -/
theorem names_closed_and_stable :
    (∀ s : String, IsTypeName (typeName s) ∧ typeName (typeName s) = typeName s) ∧
    (∀ (rootName : String) (t : Schema), t.named (typeName rootName) = t.named rootName) ∧
    (∀ (s : Settings) (rootName : Option String) (parallel : Option Bool) (samples : List Sample),
      s.report rootName parallel samples =
        (s.run { rootName := rootName, parallel := parallel } samples).map
          (·.report (typeName (givenOr rootName s.rootTypeName)) none)) ∧
    (∀ s : String, IsTypeName s → IsTypeName (singular s) ∧ (singular s).length ≤ s.length) ∧
    (∀ s : String, singular (singular s) = singular s) ∧
    ∀ (rootName : String) (ts : List Schema),
      (∀ d ∈ (afterAll rootName ts).definitions, ∃ t ∈ ts,
        ∃ p ∈ t.occurrences (typeName rootName) .top,
          d.signature = p.signature ∧ IsGivenName (typeName rootName) p.words d.name) ∧
      ∀ (t : Schema) (s : NamedSchema),
        ((nameNext t).run.run (afterAll rootName ts)).1 = .ok s →
          s.definitions = (afterAll rootName (ts ++ [t])).definitions ∧
            ∀ u ∈ s.root.objects, ∃ d ∈ s.definitions, d.toSchema = u := by
  refine ⟨fun s => ⟨isTypeName_typeName s, typeName_typeName s⟩, Schema.named_typeName,
    Settings.report_eq_map_run, fun s hs => ⟨hs.singular, length_singular_le s⟩, singular_singular,
    fun rootName ts => ⟨fun d hd => ?_, fun t s hs => ?_⟩⟩
  · have hroot : IsTypeName (typeName rootName) := isTypeName_typeName rootName
    obtain ⟨t, ht, p, hp, hsig, hname⟩ := (givenIn_afterAll rootName ts).given d hd
    exact ⟨t, ht, p, hp, hsig,
      isGivenName_of_mem_candidates hroot (isTypeName_of_mem_words hroot hp) hname⟩
  · rw [afterAll_concat]
    exact (givenIn_afterAll rootName ts).definitions_eq hs

/-- An object with one number. -/
def numberIn (name : String) : Schema := .object none 1 [⟨name, .int, false, 1, 1⟩]

/-- Objects in arrays in an array, which share a path. -/
def boxesSchema : Schema :=
  .object none 1 [⟨"boxes", .array (.union [.array (.union [.array (numberIn "a") false,
    numberIn "b"]) false, numberIn "c"]) false, false, 1, 1⟩]

/-- The last of the objects that share a path is given the joined path. -/
theorem names_of_boxes :
    (singular "Categories" = "Category" ∧ IsTypeName (singular "Categories")) ∧
    ∃ s, boxesSchema.named "root" = .ok s ∧
      s.names = ["Box", "RootBox", "Root_Box", "Root"] ∧
      (∀ u ∈ s.root.objects, ∃ d ∈ s.definitions, d.toSchema = u) ∧
      ∀ d ∈ s.definitions, ∃ p ∈ boxesSchema.occurrences (typeName "root") .top,
        d.signature = p.signature ∧ IsGivenName (typeName "root") p.words d.name := by
  obtain ⟨-, -, -, hsingular, -, hnames⟩ := names_closed_and_stable
  have hcategories : IsTypeName "Categories" := isTypeName_iff.mpr ⟨by decide, 'C', rfl, rfl⟩
  have hboxes : (boxesSchema.named "root").map NamedSchema.names =
      .ok ["Box", "RootBox", "Root_Box", "Root"] := by cbv
  refine ⟨⟨by cbv, (hsingular _ hcategories).1⟩, ?_⟩
  cases hs : boxesSchema.named "root" with
  | error c =>
      rw [hs] at hboxes
      cases hboxes
  | ok s =>
      rw [hs] at hboxes
      obtain ⟨hdefinitions, hobjects⟩ := (hnames "root" []).2 boxesSchema s hs
      refine ⟨s, rfl, Except.ok.inj hboxes, hobjects, fun d hd => ?_⟩
      rw [hdefinitions] at hd
      obtain ⟨t, ht, hgiven⟩ := (hnames "root" [boxesSchema]).1 d hd
      obtain rfl := List.mem_singleton.mp ht
      exact hgiven

end SampleSchema
