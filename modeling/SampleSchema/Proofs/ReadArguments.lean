import SampleSchema.CommandLine

/-!
# Reading arguments

Whatever can be asked for on the command line is asked for by some arguments
(`Arguments.read_spelled`): options with their values, two dashes and the paths.  One more argument in
front of any others asks for a parallel run and for nothing else (`Arguments.read_cons_parallel`).
-/

namespace SampleSchema

/-- The argument that gives an option its value. -/
def Switch.withValue (s : Switch) (value : String) : String := s.name ++ "=" ++ value

namespace ArgumentForm

/-- An option with its value behind an equals sign is read as such. -/
theorem of?_withValue (s : Switch) (value : String) :
    of? (s.withValue value) = some (.option s (some value)) := by
  have hchars : (s.withValue value).toList = s.name.toList ++ '=' :: value.toList := by
    simp [Switch.withValue]
  unfold of?
  rw [hchars]
  cases s <;> simp [Switch.name, long?, Switch.named, Switch.all]

/-- An option is the first of the forms that are read. -/
theorem ofAll?_cons_option {text : String} {s : Switch} {value : Option String}
    (h : of? text = some (.option s value)) (texts : List String) :
    ofAll? (text :: texts) = (ofAll? texts).map (.option s value :: ·) := by
  rw [ofAll?, h]
  cases ofAll? texts <;> rfl

/-- Options with their values, a separator and paths are read one by one. -/
theorem ofAll?_options (paths : List String) : ∀ options : List (Switch × String),
    ofAll? (options.map (fun o => o.1.withValue o.2) ++ "--" :: paths) =
      some (options.map (fun o => .option o.1 (some o.2)) ++ .separator :: paths.map .plain)
  | []           => rfl
  | o :: options => by
      rw [List.map_cons, List.cons_append, ofAll?_cons_option (of?_withValue o.1 o.2),
        ofAll?_options paths options]
      rfl

end ArgumentForm

namespace ReadingArguments

/-- Plain arguments are paths, as long as paths are read. -/
theorem readAll_plain : ∀ (paths : List String) {r : ReadingArguments}, r.inPaths = true →
    r.readAll (paths.map .plain) = .ok { r with paths := r.paths ++ paths.map SamplePath.ofText }
  | [], r, _ => by rw [List.map_nil, List.map_nil, List.append_nil, readAll]
  | path :: paths, r, h => by
      have ih := readAll_plain paths (r := { r with paths := r.paths ++ [SamplePath.ofText path] }) h
      rw [List.append_assoc] at ih
      rw [List.map_cons, readAll, plain, if_pos h]
      exact ih

section
variable {r : ReadingArguments} (hpaths : r.paths = []) (hin : r.inPaths = true)
include hpaths hin

/-- Before the first path an option with its value leaves the reading of paths open. -/
theorem readAll_option (s : Switch) (value : String) (forms : List ArgumentForm) :
    r.readAll (.option s (some value) :: forms) = r.withValue value s >>= (readAll · forms) := by
  have hr : r.atOption = r := by rw [atOption, hpaths, List.isEmpty_nil, ← hin]
  cases s <;> rw [readAll, hr]

theorem readAll_format (f : Format) (forms : List ArgumentForm) :
    r.readAll (.option .format (some f.name) :: forms) =
      readAll { r with format := some f } forms := by
  rw [readAll_option hpaths hin, withValue, Format.ofName?_name]
  rfl

end

/-- Columns are noted in their order, and all after the separator are paths. -/
theorem readAll_numericColumns (paths : List String) : ∀ (columns : List String)
    {r : ReadingArguments}, r.paths = [] → r.inPaths = true →
      r.readAll (columns.map (fun c => .option .numericColumn (some c)) ++
          .separator :: paths.map .plain) =
        .ok { r with numericColumns := r.numericColumns ++ columns,
                     paths := paths.map SamplePath.ofText }
  | [], r, hpaths, hin => by
      rw [List.map_nil, List.nil_append, readAll, separator, if_pos hin, readAll_plain paths hin,
        hpaths, List.nil_append, List.append_nil]
  | column :: columns, r, hpaths, hin => by
      have ih := readAll_numericColumns paths columns
        (r := { r with numericColumns := r.numericColumns ++ [column] }) hpaths hin
      rw [List.append_assoc] at ih
      rw [List.map_cons, List.cons_append, readAll_option hpaths hin]
      exact ih

/-- The same, but the run is to be parallel. -/
def inParallel (r : ReadingArguments) : ReadingArguments := { r with parallel := true }

/-- Whether a run is parallel makes no difference to reading a path. -/
theorem plain_inParallel (r : ReadingArguments) (text : String) :
    r.inParallel.plain text = (r.plain text).inParallel := by
  rw [plain, plain, apply_ite inParallel]
  rfl

theorem separator_inParallel (r : ReadingArguments) :
    r.inParallel.separator = r.separator.inParallel := by
  rw [separator, separator, apply_ite inParallel]
  rfl

theorem withValue_inParallel (r : ReadingArguments) (value : String) (s : Switch) :
    r.inParallel.withValue value s = (r.withValue value s).map inParallel := by
  cases s with
  | format => unfold withValue; cases Format.ofName? value <;> rfl
  | _ => rfl

/-- Whether the run is to be parallel has no influence on what the other arguments mean. -/
theorem readAll_inParallel (forms : List ArgumentForm) (r : ReadingArguments) :
    r.inParallel.readAll forms = (r.readAll forms).map inParallel := by
  -- an option that takes a value, whether it follows an equals sign or is the next argument
  have hvalue : ∀ (r : ReadingArguments) (s : Switch) (value : String) (forms : List ArgumentForm),
      (∀ r : ReadingArguments, r.inParallel.readAll forms = (r.readAll forms).map inParallel) →
      (r.inParallel.atOption.withValue value s >>= (readAll · forms)) =
        (r.atOption.withValue value s >>= (readAll · forms)).map inParallel := by
    intro r s value forms ih
    have hoption : r.inParallel.atOption = r.atOption.inParallel := rfl
    rw [hoption, withValue_inParallel]
    cases r.atOption.withValue value s with
    | error e => rfl
    | ok r => exact ih r
  fun_induction readAll r forms with
  | case1 r => rfl
  | case2 r text forms ih => rw [readAll, plain_inParallel, ih]
  | case3 r forms ih => rw [readAll, separator_inParallel, ih]
  | case4 r forms ih => exact ih
  | case5 r forms => rfl
  | case6 r forms ih => exact ih
  | case7 r s value forms ih =>
      rw [readAll]
      exact hvalue r s value forms ih
  | case8 r s value forms hhelp hparallel ih =>
      rw [readAll]
      · exact hvalue r s value forms ih
      · exact hhelp
      · exact hparallel
  | case9 r s forms hhelp hparallel hplain =>
      rw [readAll]
      · rfl
      · exact hhelp
      · exact hparallel
      · exact hplain

/-- What is read when there are no further arguments. -/
def finish (r : ReadingArguments) : Except Rejection Arguments :=
  if r.paths.isEmpty || r.stray then .error .usage else .ok r.toArguments

theorem finish_inParallel (r : ReadingArguments) :
    r.inParallel.finish = r.finish.map fun a => { a with parallel := true } := by
  rw [finish, finish, apply_ite (Except.map _)]
  rfl

end ReadingArguments

namespace Arguments

theorem read_of_forms {arguments : List String} {forms : List ArgumentForm}
    (h : ArgumentForm.ofAll? arguments = some forms) :
    read arguments = ReadingArguments.readAll {} forms >>= ReadingArguments.finish := by
  simp only [read, h]
  cases ReadingArguments.readAll {} forms with
  | error e => rfl
  | ok r =>
      simp only [bind, Except.bind, ReadingArguments.finish]
      split <;> rfl

/-- The options that give values to the format, to the root name and to the numeric columns. -/
def valued (format : Option Format) (rootName : Option String) (columns : List String) :
    List (Switch × String) :=
  format.toList.map (fun f => (.format, f.name)) ++ rootName.toList.map (fun n => (.rootName, n)) ++
    columns.map (fun c => (.numericColumn, c))

/-- The arguments that give these values and name paths. -/
def spelled (format : Option Format) (rootName : Option String) (columns paths : List String) :
    List String :=
  (valued format rootName columns).map (fun o => o.1.withValue o.2) ++ "--" :: paths

/-- Whatever the values and the paths are, some arguments ask for them. -/
theorem read_spelled (format : Option Format) (rootName : Option String) (columns : List String)
    {paths : List String} (h : paths ≠ []) :
    read (spelled format rootName columns paths) =
      .ok { paths := paths.map SamplePath.ofText, format := format, rootName := rootName,
            numericColumns := columns } := by
  have hread : ReadingArguments.readAll {} ((valued format rootName columns).map
      (fun o => .option o.1 (some o.2)) ++ .separator :: paths.map .plain) =
      .ok { paths := paths.map SamplePath.ofText, format := format, rootName := rootName,
            numericColumns := columns } := by
    rw [valued, List.map_append, List.map_append, List.map_map, List.map_map, List.map_map,
      List.append_assoc, List.append_assoc]
    rcases format with - | f <;> rcases rootName with - | n
    · exact ReadingArguments.readAll_numericColumns paths columns rfl rfl
    · exact ReadingArguments.readAll_numericColumns paths columns rfl rfl
    · exact (ReadingArguments.readAll_format rfl rfl f _).trans
        (ReadingArguments.readAll_numericColumns paths columns rfl rfl)
    · exact (ReadingArguments.readAll_format rfl rfl f _).trans
        (ReadingArguments.readAll_numericColumns paths columns rfl rfl)
  have hpaths : (paths.map SamplePath.ofText).isEmpty = false := by simpa using h
  rw [spelled, read_of_forms (ArgumentForm.ofAll?_options paths _), hread]
  exact if_neg (by simp [hpaths])

/-- One more argument asks for a parallel run and for nothing else. -/
theorem read_cons_parallel (arguments : List String) :
    read (Switch.parallel.name :: arguments) =
      (read arguments).map fun a => { a with parallel := true } := by
  have hform : ArgumentForm.of? Switch.parallel.name = some (.option .parallel none) := by decide
  cases hforms : ArgumentForm.ofAll? arguments with
  | none =>
      rw [read, read, ArgumentForm.ofAll?_cons_option hform, hforms]
      rfl
  | some forms =>
      have hcons : ArgumentForm.ofAll? (Switch.parallel.name :: arguments) =
          some (.option .parallel none :: forms) := by
        rw [ArgumentForm.ofAll?_cons_option hform, hforms, Option.map_some]
      have hparallel : ReadingArguments.readAll {} (.option .parallel none :: forms) = _ :=
        ReadingArguments.readAll_inParallel forms {}
      rw [read_of_forms hcons, read_of_forms hforms, hparallel]
      cases ReadingArguments.readAll {} forms with
      | error e => rfl
      | ok r => exact r.finish_inParallel

end Arguments

end SampleSchema
