import SampleSchema.Proofs.Outcomes
import SampleSchema.Yaml.Graph

/-!
# The faults among the events of YAML

A step of the reading of events leaves tokens that were there, adds no fault to the events, and fails
for a fault among the tokens or because the text is malformed (`Heeds`).  So every other fault among
the events is one among the tokens (`mem_tokens_of_mem_events`), and every other fault of the graphs
is one among the events (`mem_events_of_ofEvents`).
-/

namespace SampleSchema.Yaml

/-- What a step does with tokens and their faults. -/
structure Heeds (ts : List Token) (x : Except Fault Step) : Prop where
  tokens : ∀ s, x = .ok s → s.tokens ⊆ ts
  events : ∀ s, x = .ok s → ∀ f, Event.fault f ∉ s.events
  fault  : ∀ f, x = .error f → f = .malformed ∨ Token.fault f ∈ ts

namespace Heeds

variable {ts us : List Token}

theorem ok {s : Step} (ht : s.tokens ⊆ ts) (he : ∀ f, Event.fault f ∉ s.events) :
    Heeds ts (.ok s) where
  tokens := by rintro _ ⟨⟩; exact ht
  events := by rintro _ ⟨⟩; exact he
  fault  := nofun

theorem malformed : Heeds ts (.error .malformed) where
  tokens := nofun
  events := nofun
  fault  := by rintro _ ⟨⟩; exact .inl rfl

theorem error {f : Fault} (h : Token.fault f ∈ ts) : Heeds ts (.error f) where
  tokens := nofun
  events := nofun
  fault  := by rintro _ ⟨⟩; exact .inr h

theorem mono {x : Except Fault Step} (hs : us ⊆ ts) (h : Heeds us x) : Heeds ts x where
  tokens s hx := List.Subset.trans (h.tokens s hx) hs
  events := h.events
  fault f hx := (h.fault f hx).imp id fun hm => hs hm

theorem unexpected : ∀ {ts : List Token}, Heeds ts (unexpected ts)
  | [] => malformed
  | t :: ts => by
      unfold Yaml.unexpected
      split
      · rename_i h
        cases h
        exact .error List.mem_cons_self
      · exact .malformed

theorem nodeUnless (absent : List Token) (block indentless : Bool) (goals : List Goal)
    (h : us ⊆ ts) : Heeds ts (.ok (nodeUnless absent block indentless goals us)) := by
  unfold Yaml.nodeUnless
  split
  · exact .ok h (by simp [Event.empty])
  · exact .ok h (by simp)

/-- The content of a node heeds its tokens. -/
theorem content (block indentless : Bool) (anchor tag : Option String) (ts : List Token) :
    Heeds ts (content block indentless anchor tag ts) := by
  unfold Yaml.content
  split
  · exact .ok (List.subset_cons_self _ _) (by simp)
  · exact .ok (List.subset_cons_self _ _) (by simp)
  · exact .ok (List.subset_cons_self _ _) (by simp)
  · split
    · exact .ok (List.subset_cons_self _ _) (by simp)
    · exact .ok (List.subset_cons_self _ _) (by simp)
    · exact .ok (List.Subset.refl _) (by simp)
    · exact .error List.mem_cons_self
    · split
      · exact .ok (List.Subset.refl _) (by simp)
      · exact .malformed

/-- A key in braces heeds its tokens. -/
theorem flowKey (ts : List Token) : Heeds ts (flowKey ts) := by
  unfold Yaml.flowKey
  split
  · exact .nodeUnless _ _ _ _ (List.subset_cons_self _ _)
  · exact .ok (List.subset_cons_self _ _) (by simp)
  · exact .ok (List.Subset.refl _) (by simp)

theorem flowEntry (ts : List Token) : Heeds ts (flowEntry ts) := by
  unfold Yaml.flowEntry
  split
  · rename_i us
    have hnode := nodeUnless [.value, .flowEntry, .flowSequenceEnd] false false
      [.pairValue, .flowEntries false] (List.subset_cons_self Token.key us)
    have htokens := hnode.tokens _ rfl
    refine .ok htokens fun f hf => ?_
    rcases List.mem_cons.mp hf with hf | hf
    · cases hf
    · exact hnode.events _ rfl f hf
  · exact .ok (List.subset_cons_self _ _) (by simp)
  · exact .ok (List.Subset.refl _) (by simp)

/-- Directives leave tokens that were there, or the text is malformed. -/
theorem directives (versioned : Bool) (handles : Handles) (ts : List Token) :
    (∀ r, directives versioned handles ts = .ok r → r.2 ⊆ ts) ∧
      ∀ f, directives versioned handles ts = .error f → f = .malformed := by
  fun_induction Yaml.directives versioned handles ts with
  | case1 versioned handles major ts hbad =>
      constructor
      · rintro _ ⟨⟩
      · rintro _ ⟨⟩
        rfl
  | case2 versioned handles major ts hgood ih =>
      exact ⟨fun r hr => List.Subset.trans (ih.1 r hr) (List.subset_cons_self _ _), ih.2⟩
  | case3 versioned handles name uri ts hbad =>
      constructor
      · rintro _ ⟨⟩
      · rintro _ ⟨⟩
        rfl
  | case4 versioned handles name uri ts hgood ih =>
      exact ⟨fun r hr => List.Subset.trans (ih.1 r hr) (List.subset_cons_self _ _), ih.2⟩
  | case5 versioned handles ts ih =>
      exact ⟨fun r hr => List.Subset.trans (ih.1 r hr) (List.subset_cons_self _ _), ih.2⟩
  | case6 versioned handles ts =>
      constructor
      · rintro _ ⟨⟩
        exact List.Subset.refl ts
      · rintro _ ⟨⟩

/-- The start of a document heeds its tokens. -/
theorem documents (handles : Handles) (ts : List Token) :
    Heeds ts (step handles .documents ts) := by
  refine .mono (List.dropWhile_sublist (· = .documentEnd)).subset ?_
  simp only [Yaml.step]
  generalize ts.dropWhile (· = .documentEnd) = us
  split
  · exact .ok (List.subset_cons_self _ _) (by simp)
  · obtain ⟨hok, herror⟩ := directives false [] us
    cases hd : Yaml.directives false [] us with
    | error f =>
        rw [herror f hd]
        exact .malformed
    | ok r =>
        refine .mono (hok r hd) ?_
        obtain ⟨handles, rest⟩ := r
        simp only [Bind.bind, Except.bind]
        split
        · exact .ok (List.subset_cons_self _ _) (by simp)
        · exact .unexpected

/-- Properties leave tokens that were there. -/
theorem properties_subset (ts : List Token) : (properties ts).2.2 ⊆ ts := by
  unfold properties
  split
  · exact List.Subset.trans (List.subset_cons_self _ _) (List.subset_cons_self _ _)
  · exact List.subset_cons_self _ _
  · exact List.Subset.trans (List.subset_cons_self _ _) (List.subset_cons_self _ _)
  · exact List.subset_cons_self _ _
  · exact List.Subset.refl _

/-- A tag is resolved, or the text is malformed. -/
theorem resolveTag_malformed {handles : Handles} {tag : Option (Option String × String)} {f : Fault}
    (h : resolveTag handles tag = .error f) : f = .malformed := by
  unfold resolveTag at h
  split at h
  · cases h
  · cases h
  · split at h
    · cases h
    · cases h
      rfl

/-- A node heeds its tokens. -/
theorem node (handles : Handles) (block indentless : Bool) (ts : List Token) :
    Heeds ts (step handles (.node block indentless) ts) := by
  simp only [Yaml.step]
  split
  · exact .ok (List.subset_cons_self _ _) (by simp)
  · refine .mono (properties_subset _) ?_
    cases ht : resolveTag handles (properties _).2.1 with
    | error f =>
        rw [resolveTag_malformed ht]
        exact .malformed
    | ok name => exact content _ _ _ _ _

/-- **Every step heeds its tokens.** -/
theorem step (handles : Handles) (g : Goal) (ts : List Token) : Heeds ts (step handles g ts) := by
  cases g with
  | stream =>
      simp only [Yaml.step]
      split
      all_goals exact .ok (List.Subset.refl _) (by simp)
  | documents => exact documents handles ts
  | documentContent =>
      simp only [Yaml.step]
      split
      all_goals exact .ok (List.Subset.refl _) (by simp [Event.empty])
  | documentEnd =>
      simp only [Yaml.step]
      split
      · exact .error List.mem_cons_self
      · exact .ok (List.subset_cons_self _ _) (by simp)
      · exact .ok (List.Subset.refl _) (by simp)
  | node block indentless => exact node handles block indentless ts
  | blockEntries =>
      simp only [Yaml.step]
      split
      · exact .nodeUnless _ _ _ _ (List.subset_cons_self _ _)
      · exact .ok (List.subset_cons_self _ _) (by simp)
      · exact .unexpected
  | indentlessEntries =>
      simp only [Yaml.step]
      split
      · exact .nodeUnless _ _ _ _ (List.subset_cons_self _ _)
      · exact .error List.mem_cons_self
      · exact .ok (List.Subset.refl _) (by simp)
  | blockKeys =>
      simp only [Yaml.step]
      split
      · exact .nodeUnless _ _ _ _ (List.subset_cons_self _ _)
      · exact .ok (List.subset_cons_self _ _) (by simp)
      · exact .unexpected
  | flowEntries first =>
      cases first with
      | true => exact flowEntry ts
      | false =>
          simp only [Yaml.step]
          split
          · exact .ok (List.subset_cons_self _ _) (by simp)
          · exact (flowEntry _).mono (List.subset_cons_self _ _)
          · exact .unexpected
  | flowKeys first =>
      cases first with
      | true => exact flowKey ts
      | false =>
          simp only [Yaml.step]
          split
          · exact .ok (List.subset_cons_self _ _) (by simp)
          · exact (flowKey _).mono (List.subset_cons_self _ _)
          · exact .unexpected
  | blockValue | pairValue | flowValue =>
      simp only [Yaml.step]
      split
      · exact .nodeUnless _ _ _ _ (List.subset_cons_self _ _)
      · exact .error List.mem_cons_self
      · exact .ok (List.Subset.refl _) (by simp [Event.empty])
  | pairEnd => exact .ok (List.Subset.refl _) (by simp)
  | emptyValue => exact .ok (List.Subset.refl _) (by simp [Event.empty])

end Heeds

/-- A fault among the events is one among the tokens, or the text is malformed. -/
theorem mem_tokens_of_mem_eventsFrom {f : Fault} : ∀ (handles : Handles) (goals : List Goal)
    (ts : List Token), Event.fault f ∈ eventsFrom handles goals ts →
    f = .malformed ∨ Token.fault f ∈ ts
  | _, [], _, h => by
      rw [eventsFrom] at h
      cases h
  | handles, g :: goals, ts, h => by
      have hstep := Heeds.step handles g ts
      rw [eventsFrom] at h
      split at h
      · rename_i reason hx
        obtain rfl : f = reason := by simpa using h
        exact hstep.fault f hx
      · rename_i s hx
        rcases List.mem_append.mp h with h | h
        · exact absurd h (hstep.events s hx f)
        · exact (mem_tokens_of_mem_eventsFrom _ _ _ h).imp id fun hm => hstep.tokens s hx hm
termination_by _ goals ts => measureOf goals ts
decreasing_by exact measure_step ‹_›

/-- A fault among the events is one among the tokens, unless the text is malformed. -/
theorem mem_tokens_of_mem_events {f : Fault} {ts : List Token} (h : Event.fault f ∈ events ts) :
    f = .malformed ∨ Token.fault f ∈ ts := mem_tokens_of_mem_eventsFrom _ _ _ h

/-! ### Graphs -/

/-- A node is added, or the text is malformed. -/
theorem Draft.add_malformed {d : Draft} {anchor : Option String} {n : Node} {f : Fault}
    (h : d.add anchor n = .error f) : f = .malformed := by
  unfold add at h
  extract_lets index d' at h
  split at h
  · cases h
  · split at h
    · cases h
      rfl
    · cases h

/-- A step of the draft fails for the fault of its event, or the text is malformed. -/
theorem Draft.fault_of_step {d : Draft} {f : Fault} : ∀ {e : Event}, d.step e = .error f →
    f = .malformed ∨ e = .fault f
  | .alias name, h => by
      rw [step] at h
      split at h
      · cases h
      · cases h
        exact .inl rfl
  | .scalar _ _ _ _, h | .sequenceStart _ _, h | .mappingStart _ _, h =>
      .inl (add_malformed (error_of_return h))
  | .fault _, h => by
      cases h
      exact .inr rfl
  | .sequenceEnd, h | .mappingEnd, h | .documentEnd, h => by cases h

/-- A fault of the graphs is one among the events, or the text is malformed. -/
theorem Graph.mem_events_of_ofEventsFrom {f : Fault} : ∀ (d : Draft) (es : List Event),
    (ofEventsFrom d es).2 = some f → f = .malformed ∨ Event.fault f ∈ es
  | _, [], h => by cases h
  | d, e :: es, h => by
      by_cases he : e = .documentEnd
      · subst he
        exact (mem_events_of_ofEventsFrom {} es h).imp id (List.mem_cons_of_mem _)
      · rw [ofEventsFrom] at h
        · split at h
          · rename_i reason hstep
            cases h
            rcases Draft.fault_of_step hstep with hf | rfl
            · exact .inl hf
            · exact .inr List.mem_cons_self
          · exact (mem_events_of_ofEventsFrom _ es h).imp id (List.mem_cons_of_mem _)
        · exact he

/-- A fault of the graphs is one among the events, unless the text is malformed. -/
theorem Graph.mem_events_of_ofEvents {f : Fault} {es : List Event} (h : (ofEvents es).2 = some f) :
    f = .malformed ∨ Event.fault f ∈ es := mem_events_of_ofEventsFrom {} es h

end SampleSchema.Yaml
