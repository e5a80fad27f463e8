/-!
# Outcomes of computations that may fail

What is known of the steps of a computation from its outcome: each step succeeds when the whole does
(`ok_of_bind`, `ok_of_mapM`), and a failure of the whole is the failure of one of them
(`error_of_bind`, `error_of_mapM`).
-/

namespace SampleSchema

variable {ε ε' α β : Type}

/-- A computation in two steps succeeds when both steps do. -/
theorem ok_of_bind {x : Except ε α} {f : α → Except ε β} {b : β} (h : x >>= f = .ok b) :
    ∃ a, x = .ok a ∧ f a = .ok b := by
  cases x with
  | error e => cases h
  | ok a => exact ⟨a, rfl, h⟩

theorem error_of_bind {x : Except ε α} {f : α → Except ε β} {e : ε} (h : x >>= f = .error e) :
    x = .error e ∨ ∃ a, x = .ok a ∧ f a = .error e := by
  cases x with
  | error e =>
      cases h
      exact .inl rfl
  | ok a => exact .inr ⟨a, rfl, h⟩

theorem error_of_return {x : Except ε α} {f : α → β} {e : ε} (h : (do return f (← x)) = .error e) :
    x = .error e := by
  obtain h | ⟨a, -, h⟩ := error_of_bind h
  · exact h
  · cases h

theorem ok_of_mapError {f : ε → ε'} {x : Except ε α} {a : α} (h : x.mapError f = .ok a) :
    x = .ok a := by
  cases x with
  | error e => cases h
  | ok b => exact congrArg Except.ok (Except.ok.inj h)

theorem error_of_mapError {f : ε → ε'} {x : Except ε α} {e : ε'} (h : x.mapError f = .error e) :
    ∃ e', x = .error e' ∧ f e' = e := by
  cases x with
  | error e' => exact ⟨e', rfl, Except.error.inj h⟩
  | ok b => cases h

/-- Where every step succeeds with something good, so does the whole. -/
theorem exists_mapM_ok {f : α → Except ε β} {p : β → Prop} : ∀ {xs : List α},
    (∀ x ∈ xs, ∃ y, f x = .ok y ∧ p y) →
      ∃ ys, xs.mapM f = .ok ys ∧ ys.length = xs.length ∧ ∀ y ∈ ys, p y
  | [], _ => ⟨[], rfl, rfl, by simp⟩
  | x :: xs, h => by
      obtain ⟨y, hy, hp⟩ := h x List.mem_cons_self
      obtain ⟨ys, hys, hlen, hps⟩ := exists_mapM_ok fun x' hx' => h x' (List.mem_cons_of_mem x hx')
      refine ⟨y :: ys, ?_, congrArg (· + 1) hlen, List.forall_mem_cons.mpr ⟨hp, hps⟩⟩
      rw [List.mapM_cons, hy, hys]
      rfl

theorem exists_ok_of_mapM {f : α → Except ε β} : ∀ {xs : List α} {ys : List β},
    xs.mapM f = .ok ys → ∀ {x : α}, x ∈ xs → ∃ y, f x = .ok y
  | [], _, _, _, hx => nomatch hx
  | x :: xs, _, h, x', hx => by
      rw [List.mapM_cons] at h
      obtain ⟨y, hy, h⟩ := ok_of_bind h
      obtain ⟨ys, hys, -⟩ := ok_of_bind h
      rcases List.mem_cons.mp hx with rfl | hx
      · exact ⟨y, hy⟩
      · exact exists_ok_of_mapM hys hx

/-- What is computed from a list of things is computed from one of them. -/
theorem ok_of_mapM {f : α → Except ε β} : ∀ {xs : List α} {ys : List β}, xs.mapM f = .ok ys →
    ∀ y ∈ ys, ∃ x ∈ xs, f x = .ok y
  | [], ys, h, y, hy => by
      cases h
      cases hy
  | x :: xs, ys, h, y, hy => by
      rw [List.mapM_cons] at h
      obtain ⟨z, hz, h⟩ := ok_of_bind h
      obtain ⟨zs, hzs, h⟩ := ok_of_bind h
      cases h
      rcases List.mem_cons.mp hy with rfl | hy
      · exact ⟨x, List.mem_cons_self, hz⟩
      · obtain ⟨x', hx', hy'⟩ := ok_of_mapM hzs y hy
        exact ⟨x', List.mem_cons_of_mem x hx', hy'⟩

theorem error_of_mapM {f : α → Except ε β} {e : ε} : ∀ {xs : List α}, xs.mapM f = .error e →
    ∃ x ∈ xs, f x = .error e
  | [], h => by cases h
  | x :: xs, h => by
      rw [List.mapM_cons] at h
      rcases error_of_bind h with hx | ⟨y, -, h⟩
      · exact ⟨x, List.mem_cons_self, hx⟩
      · obtain ⟨z, hz, he⟩ := error_of_mapM (error_of_return h)
        exact ⟨z, List.mem_cons_of_mem x hz, he⟩

end SampleSchema
