import SampleSchema.Proofs.JsonTexts
import SampleSchema.Proofs.NamingRuns
import SampleSchema.Proofs.Nesting
import SampleSchema.Proofs.Runs
import SampleSchema.Standard

/-!
# Samples of many levels

Arrays in each other have a schema with as many arrays in each other, and twice as many levels where
each array holds a truth value next to the array in it (`levels_arrays`, `levels_pairs`).  There is a
report on such a sample however many levels it has (`Submission.exists_report`), but not all of its
forms can be written.
-/

namespace SampleSchema

/-! ### Texts and samples -/

/-- Values in an array that is the innermost of `depth + 1` arrays; each of the others has the same
values before the array in it. -/
def layeredDatum (ds : List Datum) : (depth : Nat) → Datum
  | 0         => .list ds
  | depth + 1 => .list (ds ++ [layeredDatum ds depth])

/-- The text that writes such arrays, where texts write the values. -/
def layeredText (css : List (List Char)) : (depth : Nat) → List Char
  | 0         => JsonText.arrayText css
  | depth + 1 => JsonText.arrayText (css ++ [layeredText css depth])

/-- The sample of such arrays. -/
def layeredSample (vs : List Sample) : (depth : Nat) → Sample
  | 0         => .array vs
  | depth + 1 => .array (vs ++ [layeredSample vs depth])

/-- **The text of arrays in each other writes them, with one level for each.** -/
theorem written_layeredText {ws : List (List Char × Datum)}
    (h : ∀ w ∈ ws, JsonText.Written 0 w.1 w.2) : ∀ depth : Nat,
    JsonText.Written (depth + 1) (layeredText (ws.map Prod.fst) depth)
      (layeredDatum (ws.map Prod.snd) depth)
  | 0         => JsonText.written_array h
  | depth + 1 => by
      have hall : ∀ w ∈ ws ++ [(layeredText (ws.map Prod.fst) depth,
          layeredDatum (ws.map Prod.snd) depth)], JsonText.Written (depth + 1) w.1 w.2 := by
        intro w hw
        rcases List.mem_append.mp hw with hw | hw
        · exact (h w hw).mono (Nat.zero_le _)
        · obtain rfl := List.mem_singleton.mp hw
          exact written_layeredText h depth
      have harray := JsonText.written_array hall
      rwa [List.map_append, List.map_append] at harray

theorem nestings_append (ds es : List Datum) :
    Datum.nestings (ds ++ es) = max (Datum.nestings ds) (Datum.nestings es) := by
  induction ds with
  | nil => rw [List.nil_append, Datum.nestings, Nat.zero_max]
  | cons d ds ih => rw [List.cons_append, Datum.nestings, Datum.nestings, ih, Nat.max_assoc]

/-- Arrays in each other have one level for each. -/
theorem nesting_layeredDatum {ds : List Datum} (h : Datum.nestings ds = 0) : ∀ depth : Nat,
    (layeredDatum ds depth).nesting = depth + 1
  | 0         => by rw [layeredDatum, Datum.nesting, h]
  | depth + 1 => by
      rw [layeredDatum, Datum.nesting, nestings_append, h, Datum.nestings, nesting_layeredDatum h depth]
      simp [Datum.nestings]

/-- Arrays in each other are decoded to arrays in each other. -/
theorem decode_layeredDatum {ds : List Datum} {vs : List Sample} (h : ds.mapM Datum.decode = .ok vs) :
    ∀ depth : Nat, (layeredDatum ds depth).decode = .ok (layeredSample vs depth)
  | 0         => by
      rw [layeredDatum, Datum.decode, Datum.decodeAll_eq_mapM, h]
      rfl
  | depth + 1 => by
      rw [layeredDatum, Datum.decode, Datum.decodeAll_eq_mapM, List.mapM_append, h, List.mapM_cons,
        decode_layeredDatum h depth]
      rfl

/-! ### Schemas -/

/-- The schema of truth values in arrays, each next to the array in it. -/
def pairsSchema : (depth : Nat) → Schema
  | 0         => .array .bool false
  | depth + 1 => .array (.union [.bool, pairsSchema depth]) false

theorem exists_pairsSchema_eq (depth : Nat) : ∃ e, pairsSchema depth = .array e false := by
  cases depth <;> exact ⟨_, rfl⟩

/-- The schema of arrays that hold a truth value and an array each. -/
theorem infer_pairs (o : Options) : ∀ depth : Nat,
    o.infer (layeredSample [.bool false] depth) = pairsSchema depth
  | 0         => rfl
  | depth + 1 => by
      have hmerge : Schema.bool.merge (pairsSchema depth) = .union [.bool, pairsSchema depth] := by
        obtain ⟨e, he⟩ := exists_pairsSchema_eq depth
        rw [he, merge_eq]
        rfl
      simp only [layeredSample, List.cons_append, List.nil_append, Options.infer, Options.inferAll,
        mergeAll, List.foldl_cons, List.foldl_nil, infer_pairs o depth, hmerge, pairsSchema]

theorem objects_pairsSchema : ∀ depth : Nat, (pairsSchema depth).objects = []
  | 0         => rfl
  | depth + 1 => by
      rw [pairsSchema, Schema.objects, Schema.objects, objectsOfAll, objectsOfAll,
        objects_pairsSchema depth]
      rfl

/-! ### Levels -/

/-- The description of arrays with a truth value next to each inner one has two levels for each of
them. -/
theorem levels_pairs : ∀ depth : Nat, (pairsSchema depth).descriptor.levels = 2 * depth + 2
  | 0         => rfl
  | depth + 1 => by
      simp only [pairsSchema, Schema.descriptor, descriptors, Descriptor.levels, descriptorLevels,
        levels_pairs depth]
      omega

theorem levels_toJson_pairs : ∀ depth : Nat,
    (pairsSchema depth).descriptor.toJson.levels = 3 * depth + 3
  | 0         => rfl
  | depth + 1 => by
      simp only [pairsSchema, Schema.descriptor, descriptors, Descriptor.toJson,
        Descriptor.toJson.describedAs, descriptorsToJson, Json.levels, memberLevels, itemLevels,
        levels_toJson_pairs depth]
      omega

/-! ### Reports -/

/-- The report on a single sample whose schema has no objects. -/
theorem Submission.exists_report {p : Reading} {s : Submission} {v : Sample}
    (hsamples : s.sampleList p = .ok [v]) (hroot : s.rootName = none)
    (hobjects : (({} : Options).infer v).objects = []) : ∃ conflicts,
      s.report p {} = .ok ⟨none, "Root", 1, (({} : Options).infer v).descriptor, [], conflicts⟩ := by
  have hoptions : ({} : Settings).optionsFor { rootName := some "Root" } = .ok {} := rfl
  have hmerged : ({} : Options).inferMerged false [v] = ({} : Options).infer v := rfl
  have hparallel : ({ rootName := some "Root" } : RunRequest).isParallel {} 1 = false := by decide
  have hrun : ({} : Settings).run { rootName := some "Root" } [v] = .ok
      ⟨⟨({} : Options).infer v, []⟩, ({} : Options).infer v, ({} : Options).inferConflicts false [v],
        1⟩ := by
    rw [Settings.run_eq hoptions, List.length_singleton, hparallel, hmerged,
      Schema.named_of_objects_eq_nil hobjects]
    rfl
  have hreport : ({} : Settings).report none none [v] =
      .ok ⟨none, "Root", 1, (({} : Options).infer v).descriptor, [],
        ({} : Options).inferConflicts false [v]⟩ := by
    have hname : typeName (givenOr none "Root") = "Root" := by decide
    rw [Settings.report, hname, hrun]
    rfl
  refine ⟨({} : Options).inferConflicts false [v], ?_⟩
  rw [report, hsamples, hroot]
  exact congrArg (Except.mapError Failure.run) hreport

end SampleSchema
