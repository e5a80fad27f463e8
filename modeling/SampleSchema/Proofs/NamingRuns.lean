import SampleSchema.Proofs.NamingSteps

/-!
# What naming does

`nameObjects` walks over the occurrences of the objects of a schema (`nameObjects_outcome`): it takes
the steps of `Names.Steps` and gives the schema named by its definitions, or it stops at an object
that is stuck.  Hence naming a schema either succeeds with definitions that a walk over all its
objects made, or fails at the first object for which that walk is stuck (`Schema.named_outcome`).

A schema without objects has nothing to name, and one whose only object is at its root is named by
the root (`Schema.named_of_objects_eq_nil`, `Schema.named_of_flat`).
-/

namespace SampleSchema
open Names

section
variable {α β : Type}

/-- An action that follows another one. -/
theorem Naming.run_bind (x : Naming α) (f : α → Naming β) (n : Names) :
    (x >>= f).run.run n = match x.run.run n with
      | (.ok a, n')    => (f a).run.run n'
      | (.error c, n') => (.error c, n') := by
  simp only [ExceptT.run_bind, StateT.run_bind]
  rcases x.run.run n with ⟨_ | a, n'⟩ <;> rfl

/-- What an action can come to that walks over objects: it gets to the end with a result that is
good for the names after it, or it is stuck at one of the objects. -/
inductive Outcome (ps : List Occurrence) (n : Names) (good : α → Names → Prop) :
    Except NameCollision α × Names → Prop where
  | done {a : α} {n' : Names} (hs : Steps ps n n') (ha : good a n') :
      Outcome ps n good (.ok a, n')
  | stuck (before : List Occurrence) {after : List Occurrence} {p : Occurrence} {n' : Names}
      (he : ps = before ++ p :: after) (hs : Steps before n n') (hp : Stuck p n') :
      Outcome ps n good (.error (p.collision n.root), n')

/-- An action that is done leaves it to the next one what the whole comes to. -/
theorem Outcome.bind {ps qs : List Occurrence} {n : Names} {good : α → Names → Prop}
    {good' : β → Names → Prop} {x : Naming α} {f : α → Naming β}
    (hx : Outcome ps n good (x.run.run n))
    (hf : ∀ a n', Steps ps n n' → good a n' → Outcome qs n' good' ((f a).run.run n')) :
    Outcome (ps ++ qs) n good' ((x >>= f).run.run n) := by
  rw [Naming.run_bind]
  generalize x.run.run n = r at hx
  cases hx with
  | @done a n' hs ha =>
      show Outcome (ps ++ qs) n good' ((f a).run.run n')
      have h := hf a n' hs ha
      generalize (f a).run.run n' = r at h
      cases h with
      | done hs' hb => exact .done (hs.append hs') hb
      | stuck before he hs' hp =>
          rw [hs.root_eq]
          exact .stuck (ps ++ before) (by rw [he, List.append_assoc]) (hs.append hs') hp
  | stuck before he hs hp =>
      exact .stuck before (by rw [he, List.append_assoc, List.cons_append]) hs hp

/-- An action that is done may change its result. -/
theorem Outcome.map {ps : List Occurrence} {n : Names} {good : α → Names → Prop}
    {good' : β → Names → Prop} {x : Naming α} {f : α → β} (hx : Outcome ps n good (x.run.run n))
    (hf : ∀ a n', Steps ps n n' → good a n' → good' (f a) n') :
    Outcome ps n good' ((do return f (← x) : Naming β).run.run n) := by
  rw [← List.append_nil ps]
  exact hx.bind fun a n' hs ha => .done .nil (hf a n' hs ha)

end

/-- A structure gets the first of its candidates that is free. -/
theorem assignName_run (key : Signature) (words : List String) (n : Names) :
    (assignName key words).run.run n =
      match (candidates n.root words).find? (n.isFree key) with
      | some name => (.ok name, n.own name key)
      | none => (.error ⟨words.getLast?.getD n.root, ".".intercalate words⟩, n) := by
  rw [assignName, Naming.run_bind]
  show ((match (candidates n.root words).find? (n.isFree key) with
    | some name => do
      set (n.own name key)
      return name
    | none => throw ⟨words.getLast?.getD n.root, ".".intercalate words⟩ : Naming String).run.run n) = _
  cases (candidates n.root words).find? (n.isFree key) <;> rfl

/-- What naming comes to at an object whose structure is unknown and whose fields are named. -/
theorem define_outcome {here : WordPath} {given : Option String} {samples : Int}
    {fields fields' : List (Field Schema)} {n : Names} {key : Signature}
    (hkey : (Schema.object given samples fields).signature = key) (hk : key ∉ n.keys)
    (hf : FieldsNamedBy n.definitions fields fields') :
    Outcome [⟨here, .object given samples fields⟩] n
      (fun u n' => (Schema.object given samples fields).NamedBy n'.definitions u)
      ((do
        let name ← assignName key here.words
        modify fun n => n.define key ⟨name, samples, fields'⟩
        return Definition.toSchema ⟨name, samples, fields'⟩ : Naming Schema).run.run n) := by
  subst hkey
  rw [Naming.run_bind, assignName_run]
  cases hname : (candidates n.root here.words).find?
      (n.isFree (Schema.object given samples fields).signature) with
  | none =>
      refine .stuck [] rfl .nil ⟨hk, fun name hc => ?_⟩
      exact Bool.eq_false_iff.mpr (List.find?_eq_none.mp hname name hc)
  | some name =>
      refine .done (.one (.named rfl hk hf hname)) (.object (d := ⟨name, samples, fields'⟩) ?_ ?_)
      · rw [definitions_define]
        exact List.mem_append_right _ (List.mem_singleton_self _)
      · exact signature_of_fieldsNamed hf

/-- A known object is walked over without a change, and gets the definition of its structure. -/
theorem known_outcome {here : WordPath} {given : Option String} {samples : Int}
    {fields : List (Field Schema)} {n : Names} {d : Definition} (hn : n.Closed)
    (hd : n.definition? (Schema.object given samples fields).signature = some d) :
    Outcome ((Schema.object given samples fields).occurrences n.root here) n
      (fun u n' => (Schema.object given samples fields).NamedBy n'.definitions u)
      (.ok d.toSchema, n) := by
  have hmem := definition?_eq_some hd
  have hkey : (Schema.object given samples fields).signature ∈ n.keys := List.mem_map_of_mem hmem
  refine .done (.known fun p hp => ?_) (.object (List.mem_map_of_mem hmem) ?_)
  · -- the structures of the objects inside it are known as well
    have hp : p.signature ∈ (Schema.object given samples fields).objects.map Schema.signature :=
      map_signature_occurrences n.root here _ ▸ List.mem_map_of_mem hp
    exact hn.inside_mem_keys hkey (mem_objects_signature.mpr hp)
  · exact hn.signature_eq_of_mem hmem

mutual

/-- Naming the objects of a schema is a walk over them. -/
theorem nameObjects_outcome : ∀ (t : Schema) (here : WordPath) {n : Names}, n.Closed →
    Outcome (t.occurrences n.root here) n (fun u n' => t.NamedBy n'.definitions u)
      ((nameObjects here.words t).run.run n)
  | .null, _, _, _ | .bool, _, _, _ | .int, _, _, _ | .float, _, _, _ | .string _, _, _, _
  | .timestamp, _, _, _ => .done .nil (.same rfl)
  | .optional t, here, n, hn => (nameObjects_outcome t here hn).map fun _ _ _ => .optional
  | .union ts, here, n, hn => (nameObjectsOfAll_outcome ts here hn).map fun _ _ _ => .union
  | .array e empty, here, n, hn =>
      (nameObjects_outcome e (here.element n.root) hn).map fun _ _ _ => .array
  | .object given samples fields, here, n, hn => by
      rw [nameObjects, Naming.run_bind]
      show Outcome _ n _ ((match n.definition? (Schema.object given samples fields).signature with
        | some d => return d.toSchema
        | none => _ : Naming Schema).run.run n)
      cases hd : n.definition? (Schema.object given samples fields).signature with
      | some d => exact known_outcome hn hd
      | none =>
          refine (nameObjectsOfFields_outcome fields here hn).bind fun fields' n' hs hf => ?_
          refine define_outcome rfl (fun hk => ?_) hf
          -- the structure was unknown, and no object inside it has it
          rcases hs.mem_keys_iff.mp hk with hk | hk
          · exact definition?_eq_none_iff.mp hd hk
          · rw [map_signature_occurrencesOfFields] at hk
            obtain ⟨u, hu, e⟩ := List.mem_map.mp hk
            exact signature_ne_of_inside hu e

/-- Naming several schemas walks through their occurrences. -/
theorem nameObjectsOfAll_outcome : ∀ (ts : List Schema) (here : WordPath) {n : Names}, n.Closed →
    Outcome (occurrencesOfAll n.root here ts) n (fun us n' => AllNamedBy n'.definitions ts us)
      ((nameObjectsOfAll here.words ts).run.run n)
  | [], _, _, _ => .done .nil .nil
  | t :: ts, here, n, hn => by
      refine (nameObjects_outcome t here hn).bind fun u n' hs hu => ?_
      rw [← hs.root_eq]
      exact (nameObjectsOfAll_outcome ts here (hs.closed hn)).map fun us n'' hs' hus =>
        .cons (hu.mono hs'.definitions_subset) hus

/-- Naming fields walks through their occurrences. -/
theorem nameObjectsOfFields_outcome : ∀ (fs : List (Field Schema)) (here : WordPath) {n : Names},
    n.Closed → Outcome (occurrencesOfFields n.root here fs) n
      (fun gs n' => FieldsNamedBy n'.definitions fs gs)
      ((nameObjectsOfFields here.words fs).run.run n)
  | [], _, _, _ => .done .nil .nil
  | ⟨name, type, optional, observed, total⟩ :: fs, here, n, hn => by
      refine (nameObjects_outcome type (here.field name) hn).bind fun u n' hs hu => ?_
      rw [← hs.root_eq]
      exact (nameObjectsOfFields_outcome fs here (hs.closed hn)).map fun us n'' hs' hus =>
        .cons (hu.mono hs'.definitions_subset) hus

end

/-! ### Naming a schema -/

/-- The names before the objects of a schema are named: its root name belongs to the object at the
root. -/
def Names.reserved (rootName : String) (t : Schema) : Names :=
  match t.rootObject? with
  | some object => (start rootName).own (typeName rootName) object.signature
  | none        => start rootName

theorem Names.root_reserved (rootName : String) (t : Schema) :
    (reserved rootName t).root = typeName rootName := by
  rw [reserved]
  split <;> rfl

theorem Names.defined_reserved (rootName : String) (t : Schema) :
    (reserved rootName t).defined = [] := by
  rw [reserved]
  split <;> rfl

theorem Names.sound_of_defined_eq_nil {n : Names} (h : n.defined = []) : n.Sound := by
  have hkeys : n.keys = [] := by rw [keys, h, List.map_nil]
  have hdefinitions : n.definitions = [] := by rw [definitions, h, List.map_nil]
  refine ⟨by rw [hdefinitions, hkeys, List.map_nil], by rw [hkeys]; exact .nil, ?_, ?_⟩
  · rw [hdefinitions]
    exact List.forall_mem_nil _
  · rw [hdefinitions]
    exact .nil

/-- What naming a schema starts from is sound. -/
theorem Names.sound_reserved (rootName : String) (t : Schema) : (reserved rootName t).Sound :=
  sound_of_defined_eq_nil (defined_reserved rootName t)

/-- The names before the objects of another schema are named: the root name belongs to the object at
its root from now on. -/
def Names.reserve (n : Names) (t : Schema) : Names :=
  match t.rootObject? with
  | some object => n.own n.root object.signature
  | none        => n

theorem Names.reserve_start (rootName : String) (t : Schema) :
    (start rootName).reserve t = reserved rootName t := rfl

@[simp] theorem Names.root_reserve (n : Names) (t : Schema) : (n.reserve t).root = n.root := by
  rw [reserve]
  split <;> rfl

@[simp] theorem Names.definitions_reserve (n : Names) (t : Schema) :
    (n.reserve t).definitions = n.definitions := by
  rw [reserve]
  split <;> rfl

/-- Reserving the name of the root keeps the table closed. -/
theorem Names.Closed.reserve {n : Names} (hn : n.Closed) (t : Schema) : (n.reserve t).Closed := by
  have hkeys : (n.reserve t).keys = n.keys := by
    rw [Names.reserve]
    split <;> rfl
  refine ⟨?_, ?_⟩
  · rw [definitions_reserve, hkeys, hn.signatures_eq]
  · rw [definitions_reserve]
    exact hn.definedBeforeUse

/-- Naming a schema with a table that is in use: its root is reserved, then its objects are named.
-/
theorem nameNext_run (t : Schema) (n : Names) : (nameNext t).run.run n =
    match (nameObjects [] t).run.run (n.reserve t) with
    | (.ok u, n')    => (.ok ⟨u, n'.definitions⟩, n')
    | (.error c, n') => (.error c, n') := by
  have hrun : ∀ n : Names, (do
      let root ← nameObjects [] t
      return ⟨root, (← get).defined.map Prod.snd⟩ : Naming NamedSchema).run.run n =
        match (nameObjects [] t).run.run n with
        | (.ok u, n')    => (.ok ⟨u, n'.definitions⟩, n')
        | (.error c, n') => (.error c, n') := fun n => by
    rw [Naming.run_bind]
    rcases (nameObjects [] t).run.run n with ⟨_ | u, n'⟩ <;> rfl
  rw [nameNext, Names.reserve]
  cases t.rootObject? with
  | none => exact hrun _
  | some object => exact hrun _

/-- Naming a schema with the names given before is a walk over its objects. -/
theorem nameNext_outcome (t : Schema) {n : Names} (hn : n.Closed) :
    Outcome (t.occurrences n.root .top) (n.reserve t)
      (fun s n' => s.definitions = n'.definitions ∧ t.NamedBy n'.definitions s.root)
      ((nameNext t).run.run n) := by
  have ho : Outcome (t.occurrences (n.reserve t).root .top) (n.reserve t)
      (fun u n' => t.NamedBy n'.definitions u) ((nameObjects [] t).run.run (n.reserve t)) :=
    nameObjects_outcome t .top (hn.reserve t)
  rw [root_reserve] at ho
  rw [nameNext_run]
  generalize (nameObjects [] t).run.run (n.reserve t) = r at ho
  cases ho with
  | done hs hu => exact .done hs ⟨rfl, hu⟩
  | stuck before he hs hp => exact .stuck before he hs hp

theorem Schema.named_eq (rootName : String) (t : Schema) : t.named rootName =
    match (nameObjects [] t).run.run (reserved rootName t) with
    | (.ok u, n)    => .ok ⟨u, n.definitions⟩
    | (.error c, _) => .error c := by
  rw [named, nameNext_run, reserve_start]
  rcases (nameObjects [] t).run.run (reserved rootName t) with ⟨_ | u, n⟩ <;> rfl

/-- Naming a schema is a walk over its objects, from the names that keep its root name. -/
theorem Schema.named_outcome (rootName : String) (t : Schema) :
    Outcome (t.occurrences (typeName rootName) .top) (reserved rootName t)
      (fun u n => t.NamedBy n.definitions u)
      ((nameObjects [] t).run.run (reserved rootName t)) := by
  have ho := nameObjects_outcome t .top (sound_reserved rootName t).closed
  rwa [root_reserved] at ho

/-- A schema that can be named is named by definitions that a walk over its objects made. -/
theorem Schema.steps_of_named {rootName : String} {t : Schema} {s : NamedSchema}
    (h : t.named rootName = .ok s) : ∃ n,
      Steps (t.occurrences (typeName rootName) .top) (reserved rootName t) n ∧
        s.definitions = n.definitions ∧ t.NamedBy s.definitions s.root := by
  have ho := named_outcome rootName t
  rw [named_eq] at h
  generalize (nameObjects [] t).run.run (reserved rootName t) = r at ho h
  cases ho with
  | done hs hu =>
      cases h
      exact ⟨_, hs, rfl, hu⟩
  | stuck _ _ _ _ => cases h

/-- A schema that cannot be named has an object for which the walk over its objects is stuck. -/
theorem Schema.stuck_of_named {rootName : String} {t : Schema} {c : NameCollision}
    (h : t.named rootName = .error c) : ∃ before p after n,
      t.occurrences (typeName rootName) .top = before ++ p :: after ∧
        Steps before (reserved rootName t) n ∧ Stuck p n ∧ c = p.collision (typeName rootName) := by
  have ho := named_outcome rootName t
  rw [named_eq] at h
  generalize (nameObjects [] t).run.run (reserved rootName t) = r at ho h
  cases ho with
  | done _ _ => cases h
  | stuck before he hs hp =>
      cases h
      rw [root_reserved]
      exact ⟨before, _, _, _, he, hs, hp, rfl⟩

/-! ### Schemas without objects -/

mutual

/-- Naming leaves a schema without objects as it is. -/
theorem nameObjects_of_objects_eq_nil : ∀ {t : Schema} {words : List String} {n : Names},
    t.objects = [] → (nameObjects words t).run.run n = (.ok t, n)
  | .null, _, _, _ | .bool, _, _, _ | .int, _, _, _ | .float, _, _, _ | .string _, _, _, _
  | .timestamp, _, _, _ => rfl
  | .optional t, words, n, h => by
      rw [nameObjects, Naming.run_bind, nameObjects_of_objects_eq_nil (t := t) h]
      rfl
  | .union ts, words, n, h => by
      rw [nameObjects, Naming.run_bind, nameObjectsOfAll_of_objects_eq_nil h]
      rfl
  | .array e empty, words, n, h => by
      have he : (nameObjects (elementWords n.root words) e).run.run n = (.ok e, n) :=
        nameObjects_of_objects_eq_nil h
      rw [nameObjects, Naming.run_bind]
      show ((nameObjects (elementWords n.root words) e >>= fun e => pure (.array e empty) :
        Naming Schema).run.run n) = _
      rw [Naming.run_bind, he]
      rfl
  | .object .., _, _, h => absurd h (by simp [Schema.objects])

theorem nameObjectsOfAll_of_objects_eq_nil : ∀ {ts : List Schema} {words : List String}
    {n : Names}, objectsOfAll ts = [] → (nameObjectsOfAll words ts).run.run n = (.ok ts, n)
  | [], _, _, _ => rfl
  | t :: ts, words, n, h => by
      obtain ⟨ht, hts⟩ := List.append_eq_nil_iff.mp h
      rw [nameObjectsOfAll, Naming.run_bind, nameObjects_of_objects_eq_nil ht]
      show ((nameObjectsOfAll words ts >>= fun ts => pure (t :: ts) :
        Naming (List Schema)).run.run n) = _
      rw [Naming.run_bind, nameObjectsOfAll_of_objects_eq_nil hts]
      rfl

end

theorem nameObjectsOfFields_of_objects_eq_nil : ∀ {fs : List (Field Schema)} {words : List String}
    {n : Names}, objectsOfFields fs = [] → (nameObjectsOfFields words fs).run.run n = (.ok fs, n)
  | [], _, _, _ => rfl
  | ⟨name, type, optional, observed, total⟩ :: fs, words, n, h => by
      obtain ⟨ht, hfs⟩ := List.append_eq_nil_iff.mp h
      rw [nameObjectsOfFields, Naming.run_bind, nameObjects_of_objects_eq_nil ht]
      show ((nameObjectsOfFields words fs >>= fun fs =>
        pure (⟨name, type, optional, observed, total⟩ :: fs) :
          Naming (List (Field Schema))).run.run n) = _
      rw [Naming.run_bind, nameObjectsOfFields_of_objects_eq_nil hfs]
      rfl

/-- A schema without objects has no definitions. -/
theorem Schema.named_of_objects_eq_nil {t : Schema} (h : t.objects = []) (rootName : String) :
    t.named rootName = .ok ⟨t, []⟩ := by
  rw [named_eq, nameObjects_of_objects_eq_nil h]
  simp only [Names.definitions, defined_reserved, List.map_nil]

/-- An object without objects inside it is the only one that is defined, under the root name. -/
theorem Schema.named_of_flat {samples : Int} {fields : List (Field Schema)}
    (h : objectsOfFields fields = []) (rootName : String) :
    (Schema.object none samples fields).named rootName =
      .ok ⟨.object (some (typeName rootName)) samples fields,
        [⟨typeName rootName, samples, fields⟩]⟩ := by
  generalize hkey : (Schema.object none samples fields).signature = key
  have hn : reserved rootName (.object none samples fields) =
      (start rootName).own (typeName rootName) key := hkey ▸ rfl
  -- the only candidate is the root name, which is kept for this very structure
  have hfree : (candidates (typeName rootName) []).find?
      (((start rootName).own (typeName rootName) key).isFree key) = some (typeName rootName) := by
    rw [candidates, if_pos (by rfl), List.find?_cons_of_pos]
    rw [isFree, owner?_own]
    exact decide_eq_true rfl
  have hrun : (nameObjects [] (.object none samples fields)).run.run
        ((start rootName).own (typeName rootName) key) =
      (nameObjectsOfFields [] fields >>= fun fields' => do
        let name ← assignName key []
        modify fun n => n.define key ⟨name, samples, fields'⟩
        return Definition.toSchema ⟨name, samples, fields'⟩ : Naming Schema).run.run
          ((start rootName).own (typeName rootName) key) := by
    rw [nameObjects, hkey]
    rfl
  rw [named_eq, hn, hrun, Naming.run_bind, nameObjectsOfFields_of_objects_eq_nil h]
  dsimp only
  rw [Naming.run_bind, assignName_run]
  rw [show ((start rootName).own (typeName rootName) key).root = typeName rootName from rfl, hfree]
  rfl

end SampleSchema
