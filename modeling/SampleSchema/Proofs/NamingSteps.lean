import SampleSchema.Proofs.Occurrences

/-!
# Naming step by step

Naming takes one step for every occurrence of an object, in post-order.  An object whose structure
has a definition gets that definition.  Any other object is defined, once its fields are named, under
the first of its candidates that is free (`Names.Step`).  Where none is free, naming is stuck.

What a step does to the names is said once (`Step.mem_definitions`, `Step.owner?_mono`,
`Step.owner?_cases`, `Step.sound`), and holds of a walk over many objects by induction
(`Names.Steps`).  A sound table of names has one definition for a structure, under a name that the
structure owns, and in every definition only earlier ones (`Names.Sound`).  That a name is owned by
its structure may change when a second schema is named with the same table, but the table stays closed
(`Names.Closed`), and a walk needs no more than that.
-/

namespace SampleSchema

/-- Whether every object inside a definition is one of the definitions before it. -/
inductive DefinedBeforeUse : List Definition → Prop where
  | nil : DefinedBeforeUse []
  | snoc {ds : List Definition} {d : Definition} (h : DefinedBeforeUse ds)
      (hd : ∀ u ∈ objectsOfFields d.fields, ∃ e ∈ ds, e.toSchema = u) : DefinedBeforeUse (ds ++ [d])

/-- Where definitions are in order, every object of a definition is a definition. -/
theorem DefinedBeforeUse.exists_of_mem_objects {ds : List Definition} (h : DefinedBeforeUse ds)
    {d : Definition} (hd : d ∈ ds) {u : Schema} (hu : u ∈ d.toSchema.objects) :
    ∃ e ∈ ds, e.toSchema = u := by
  induction h with
  | nil => cases hd
  | snoc _ hlast ih =>
      rcases List.mem_append.mp hd with hd | hd
      · obtain ⟨e, he, rfl⟩ := ih hd
        exact ⟨e, List.mem_append_left _ he, rfl⟩
      · obtain rfl := List.mem_singleton.mp hd
        rcases List.mem_append.mp hu with hu | hu
        · obtain ⟨e, he, rfl⟩ := hlast u hu
          exact ⟨e, List.mem_append_left _ he, rfl⟩
        · exact ⟨_, List.mem_append_right _ hd, (List.mem_singleton.mp hu).symm⟩

namespace Names

/-- The structures that have a definition. -/
def keys (n : Names) : List Signature := n.defined.map Prod.fst

/-- The definitions so far. -/
def definitions (n : Names) : List Definition := n.defined.map Prod.snd

@[simp] theorem keys_own (n : Names) (name : String) (key : Signature) :
    (n.own name key).keys = n.keys := rfl

@[simp] theorem definitions_own (n : Names) (name : String) (key : Signature) :
    (n.own name key).definitions = n.definitions := rfl

@[simp] theorem keys_define (n : Names) (key : Signature) (d : Definition) :
    (n.define key d).keys = n.keys ++ [key] := by
  simp [keys, define]

@[simp] theorem definitions_define (n : Names) (key : Signature) (d : Definition) :
    (n.define key d).definitions = n.definitions ++ [d] := by
  simp [definitions, define]

@[simp] theorem owner?_define (n : Names) (key : Signature) (d : Definition) (name : String) :
    (n.define key d).owner? name = n.owner? name := rfl

/-- A name is free for a structure when no other structure owns it. -/
theorem isFree_iff {n : Names} {key : Signature} {name : String} :
    n.isFree key name = true ↔ ∀ k, n.owner? name = some k → k = key := by
  rw [isFree]
  cases n.owner? name <;> simp

/-- A name that is not free for a structure has another owner. -/
theorem exists_owner_of_not_isFree {n : Names} {key : Signature} {name : String}
    (h : n.isFree key name = false) : ∃ k, n.owner? name = some k ∧ k ≠ key := by
  rw [isFree] at h
  cases ho : n.owner? name with
  | none => rw [ho] at h; cases h
  | some k =>
      rw [ho] at h
      exact ⟨k, rfl, of_decide_eq_false h⟩

/-- A structure with a definition is one of the keys. -/
theorem definition?_eq_some {n : Names} {key : Signature} {d : Definition}
    (h : n.definition? key = some d) : (key, d) ∈ n.defined := by
  obtain ⟨⟨k, e⟩, hk, he⟩ := Option.map_eq_some_iff.mp h
  have hkey : k = key := by simpa using List.find?_some hk
  cases hkey
  cases he
  exact List.mem_of_find?_eq_some hk

theorem definition?_eq_none_iff {n : Names} {key : Signature} :
    n.definition? key = none ↔ key ∉ n.keys := by
  rw [definition?, Option.map_eq_none_iff, List.find?_eq_none, keys, List.mem_map]
  constructor
  · rintro h ⟨x, hx, rfl⟩
    exact h x hx (decide_eq_true rfl)
  · exact fun h x hx e => h ⟨x, hx, of_decide_eq_true e⟩

/-! ### One step -/

/-- What naming does at an occurrence of an object. -/
inductive Step (p : Occurrence) : Names → Names → Prop where
  | known {n : Names} (h : p.signature ∈ n.keys) : Step p n n
  | named {n : Names} {name : String} {given : Option String} {samples : Int}
      {fields fields' : List (Field Schema)} (ho : p.object = .object given samples fields)
      (hk : p.signature ∉ n.keys) (hf : FieldsNamedBy n.definitions fields fields')
      (hname : (candidates n.root p.words).find? (n.isFree p.signature) = some name) :
      Step p n ((n.own name p.signature).define p.signature ⟨name, samples, fields'⟩)

/-- Whether naming gets no further than an object, because every candidate has another owner. -/
structure Stuck (p : Occurrence) (n : Names) : Prop where
  unknown : p.signature ∉ n.keys
  taken   : ∀ name ∈ candidates n.root p.words, n.isFree p.signature name = false

/-- A table of names in which every structure with a definition has one of that structure, and in
every definition only earlier ones. -/
structure Closed (n : Names) : Prop where
  signatures_eq    : n.definitions.map Definition.signature = n.keys
  definedBeforeUse : DefinedBeforeUse n.definitions

/-- A table of names in which every structure has one definition, under a name that it owns, and in
every definition only earlier ones. -/
structure Sound (n : Names) : Prop where
  signatures_eq    : n.definitions.map Definition.signature = n.keys
  nodup_keys       : n.keys.Nodup
  owner?_eq        : ∀ d ∈ n.definitions, n.owner? d.name = some d.signature
  definedBeforeUse : DefinedBeforeUse n.definitions

section
variable {p : Occurrence} {n n' : Names}

/-- A step does not change what the root is called. -/
theorem Step.root_eq (h : Step p n n') : n'.root = n.root := by
  cases h <;> rfl

/-- A step meets the structure of its occurrence, and no other. -/
theorem Step.keys_eq (h : Step p n n') :
    n'.keys = if p.signature ∈ n.keys then n.keys else n.keys ++ [p.signature] := by
  cases h with
  | known h => rw [if_pos h]
  | named _ hk _ _ => rw [if_neg hk, keys_define, keys_own]

/-- A step adds definitions at the end. -/
theorem Step.definitions_eq (h : Step p n n') :
    ∃ ds, n'.definitions = n.definitions ++ ds := by
  cases h with
  | known _ => exact ⟨[], (List.append_nil _).symm⟩
  | named _ _ _ _ => exact ⟨[_], definitions_define _ _ _⟩

/-- A step takes no name away from its owner. -/
theorem Step.owner?_mono (h : Step p n n') {name : String} {k : Signature}
    (hk : n.owner? name = some k) : n'.owner? name = some k := by
  cases h with
  | known _ => exact hk
  | @named name' _ _ _ _ _ _ _ hname =>
      rw [owner?_define]
      by_cases e : name = name'
      · rw [e, owner?_own, isFree_iff.mp (List.find?_some hname) k (e ▸ hk)]
      · rw [owner?_own_of_ne n _ e, hk]

/-- A step gives a name to its own object only, and one of the candidates. -/
theorem Step.owner?_cases (h : Step p n n') {name : String} {k : Signature}
    (hk : n'.owner? name = some k) :
    n.owner? name = some k ∨ p.signature = k ∧ name ∈ candidates n.root p.words := by
  cases h with
  | known _ => exact .inl hk
  | @named name' _ _ _ _ _ _ _ hname =>
      rw [owner?_define] at hk
      by_cases e : name = name'
      · rw [e, owner?_own] at hk
        exact .inr ⟨Option.some.inj hk, e ▸ List.mem_of_find?_eq_some hname⟩
      · rw [owner?_own_of_ne n _ e] at hk
        exact .inl hk

/-- An object under named fields is defined by the structure that it had before. -/
theorem signature_of_fieldsNamed {ds : List Definition} {given : Option String} {name : String}
    {samples : Int} {fields fields' : List (Field Schema)}
    (h : FieldsNamedBy ds fields fields') : (Definition.mk name samples fields').signature =
      (Schema.object given samples fields).signature := by
  rw [Definition.signature, Definition.toSchema, Schema.signature, Schema.signature,
    h.fieldSignatures_eq]

/-- A step defines at most its own object, under one of the candidates, which it then owns. -/
theorem Step.mem_definitions (h : Step p n n') {d : Definition} (hd : d ∈ n'.definitions) :
    d ∈ n.definitions ∨ d.signature = p.signature ∧ d.name ∈ candidates n.root p.words ∧
      n'.owner? d.name = some p.signature := by
  cases h with
  | known _ => exact .inl hd
  | named ho _ hf hname =>
      rw [definitions_define, definitions_own] at hd
      rcases List.mem_append.mp hd with hd | hd
      · exact .inl hd
      · obtain rfl := List.mem_singleton.mp hd
        refine .inr ⟨?_, List.mem_of_find?_eq_some hname, ?_⟩
        · rw [signature_of_fieldsNamed hf, Occurrence.signature, ho]
        · rw [owner?_define, owner?_own]

/-- A step keeps the table closed. -/
theorem Step.closed (h : Step p n n') (hn : n.Closed) : n'.Closed := by
  cases h with
  | known _ => exact hn
  | @named name given samples fields fields' ho _ hf _ =>
      have hsig : (Definition.mk name samples fields').signature = p.signature := by
        rw [signature_of_fieldsNamed hf, Occurrence.signature, ho]
      refine ⟨?_, ?_⟩
      · rw [definitions_define, definitions_own, keys_define, keys_own, List.map_append,
          hn.signatures_eq, List.map_singleton, hsig]
      · rw [definitions_define, definitions_own]
        refine .snoc hn.definedBeforeUse fun u hu => ?_
        obtain ⟨d, hd, hu⟩ := hf.mem_objects hu
        exact hn.definedBeforeUse.exists_of_mem_objects hd hu

/-- A sound table is closed. -/
theorem Sound.closed (hn : n.Sound) : n.Closed := ⟨hn.signatures_eq, hn.definedBeforeUse⟩

/-- A step keeps the table sound. -/
theorem Step.sound (h : Step p n n') (hn : n.Sound) : n'.Sound := by
  obtain ⟨hsignatures, hbefore⟩ := h.closed hn.closed
  refine ⟨hsignatures, ?_, ?_, hbefore⟩
  · rw [h.keys_eq]
    split
    · exact hn.nodup_keys
    · rename_i hk
      exact List.nodup_append.mpr ⟨hn.nodup_keys, List.pairwise_singleton _ _,
        fun x hx y hy e => hk (List.mem_singleton.mp hy ▸ e ▸ hx)⟩
  · intro d hd
    rcases h.mem_definitions hd with hd | ⟨hsig, -, howner⟩
    · -- an earlier definition keeps its name
      exact h.owner?_mono (hn.owner?_eq d hd)
    · rw [hsig, howner]

end

namespace Closed
variable {n : Names} (hn : n.Closed)
include hn

/-- The structure of a definition is among those met. -/
theorem signature_mem_keys {d : Definition} (hd : d ∈ n.definitions) : d.signature ∈ n.keys := by
  rw [← hn.signatures_eq]
  exact List.mem_map_of_mem hd

/-- A structure is defined by a definition of that structure. -/
theorem signature_eq_of_mem {k : Signature} {d : Definition} (h : (k, d) ∈ n.defined) :
    d.signature = k := by
  have hall : n.defined.map (Definition.signature ∘ Prod.snd) = n.defined.map Prod.fst := by
    rw [← List.map_map]
    exact hn.signatures_eq
  exact List.map_inj_left.mp hall _ h

/-- With a structure all those inside it have a definition. -/
theorem inside_mem_keys {k x : Signature} (hk : k ∈ n.keys) (hx : x ∈ k.objects) : x ∈ n.keys := by
  rw [← hn.signatures_eq] at hk
  obtain ⟨d, hd, rfl⟩ := List.mem_map.mp hk
  obtain ⟨u, hu, rfl⟩ := List.mem_map.mp (mem_objects_signature.mp hx)
  obtain ⟨e, he, rfl⟩ := hn.definedBeforeUse.exists_of_mem_objects hd hu
  exact hn.signature_mem_keys he

end Closed

namespace Sound
variable {n : Names} (hn : n.Sound)
include hn

/-- Definitions of one structure are the same. -/
theorem eq_of_signature_eq {d e : Definition} (hd : d ∈ n.definitions) (he : e ∈ n.definitions)
    (h : d.signature = e.signature) : d = e :=
  List.inj_on_of_nodup_map (hn.signatures_eq ▸ hn.nodup_keys) hd he h

/-- Definitions of one name are the same. -/
theorem eq_of_name_eq {d e : Definition} (hd : d ∈ n.definitions) (he : e ∈ n.definitions)
    (h : d.name = e.name) : d = e := by
  refine hn.eq_of_signature_eq hd he (Option.some.inj ?_)
  rw [← hn.owner?_eq d hd, ← hn.owner?_eq e he, h]

/-- In a sound table no name is given twice. -/
theorem nodup_names : (n.definitions.map Definition.name).Nodup := by
  have hkeys : (n.definitions.map Definition.signature).Nodup := hn.signatures_eq ▸ hn.nodup_keys
  refine List.pairwise_map.mpr ((List.pairwise_map.mp hkeys).imp_of_mem fun hd he hne e => ?_)
  exact hne (congrArg Definition.signature (hn.eq_of_name_eq hd he e))

end Sound

/-! ### Walks over many objects -/

/-- What naming does at occurrences of objects one after the other. -/
inductive Steps : List Occurrence → Names → Names → Prop where
  | nil {n : Names} : Steps [] n n
  | cons {p : Occurrence} {ps : List Occurrence} {n n₁ n' : Names} (h : Step p n n₁)
      (hs : Steps ps n₁ n') : Steps (p :: ps) n n'

namespace Steps
variable {ps qs : List Occurrence} {n n₁ n' : Names}

theorem append (hp : Steps ps n n₁) (hq : Steps qs n₁ n') : Steps (ps ++ qs) n n' := by
  induction hp with
  | nil => exact hq
  | cons h _ ih => exact .cons h (ih hq)

theorem one {p : Occurrence} (h : Step p n n') : Steps [p] n n' := .cons h .nil

/-- Objects of known structures leave the names alone. -/
theorem known (h : ∀ p ∈ ps, p.signature ∈ n.keys) : Steps ps n n := by
  induction ps with
  | nil => exact .nil
  | cons p ps ih =>
      obtain ⟨hp, hps⟩ := List.forall_mem_cons.mp h
      exact .cons (.known hp) (ih hps)

/-- A walk does not change what the root is called. -/
theorem root_eq (h : Steps ps n n') : n'.root = n.root := by
  induction h with
  | nil => rfl
  | cons h _ ih => rw [ih, h.root_eq]

/-- **A walk keeps the table sound.** -/
theorem sound (h : Steps ps n n') (hn : n.Sound) : n'.Sound := by
  induction h with
  | nil => exact hn
  | cons h _ ih => exact ih (h.sound hn)

theorem closed (h : Steps ps n n') (hn : n.Closed) : n'.Closed := by
  induction h with
  | nil => exact hn
  | cons h _ ih => exact ih (h.closed hn)

theorem definitions_subset (h : Steps ps n n') : n.definitions ⊆ n'.definitions := by
  induction h with
  | nil => exact List.Subset.refl _
  | cons h _ ih =>
      obtain ⟨ds, hds⟩ := h.definitions_eq
      exact List.Subset.trans (List.subset_append_left _ ds) (hds ▸ ih)

/-- The structures with a definition after a walk are those before it, and after them those of the
objects, each where it comes first. -/
theorem keys_eq (h : Steps ps n n') :
    n'.keys = n.keys ++ ((ps.map Occurrence.signature).removeAll n.keys).eraseDups := by
  induction h with
  | nil => simp [List.removeAll]
  | @cons p ps n n₁ n' h _ ih =>
      rw [ih, h.keys_eq, List.map_cons]
      by_cases hk : p.signature ∈ n.keys
      · simp [List.removeAll, hk]
      · simp [List.removeAll, hk, List.eraseDups_cons, List.filter_filter, Bool.and_comm]
        rfl

theorem mem_keys_iff (h : Steps ps n n') {k : Signature} :
    k ∈ n'.keys ↔ k ∈ n.keys ∨ k ∈ ps.map Occurrence.signature := by
  rw [h.keys_eq, List.mem_append, List.mem_eraseDups, List.removeAll, List.mem_filter]
  by_cases hk : k ∈ n.keys <;> simp [hk]

theorem owner?_mono (h : Steps ps n n') {name : String} {k : Signature}
    (hk : n.owner? name = some k) : n'.owner? name = some k := by
  induction h with
  | nil => exact hk
  | cons h _ ih => exact ih (h.owner?_mono hk)

/-- Whoever owns a name after a walk owned it before, or is an object with that candidate. -/
theorem owner?_cases (h : Steps ps n n') {name : String} {k : Signature}
    (hk : n'.owner? name = some k) : n.owner? name = some k ∨
      ∃ p ∈ ps, p.signature = k ∧ name ∈ candidates n.root p.words := by
  induction h with
  | nil => exact .inl hk
  | cons h _ ih =>
      rcases ih hk with hk | ⟨q, hq, hsig, hname⟩
      · rcases h.owner?_cases hk with hk | ⟨hsig, hname⟩
        · exact .inl hk
        · exact .inr ⟨_, List.mem_cons_self, hsig, hname⟩
      · exact .inr ⟨q, List.mem_cons_of_mem _ hq, hsig, h.root_eq ▸ hname⟩

/-- What is defined after a walk was defined before, or it is an object under one of its
candidates. -/
theorem mem_definitions (h : Steps ps n n') {d : Definition} (hd : d ∈ n'.definitions) :
    d ∈ n.definitions ∨
      ∃ p ∈ ps, d.signature = p.signature ∧ d.name ∈ candidates n.root p.words := by
  induction h with
  | nil => exact .inl hd
  | cons h _ ih =>
      rcases ih hd with hd | ⟨q, hq, hsig, hname⟩
      · rcases h.mem_definitions hd with hd | ⟨hsig, hname, -⟩
        · exact .inl hd
        · exact .inr ⟨_, List.mem_cons_self, hsig, hname⟩
      · exact .inr ⟨q, List.mem_cons_of_mem _ hq, hsig, h.root_eq ▸ hname⟩

end Steps

end Names

end SampleSchema
