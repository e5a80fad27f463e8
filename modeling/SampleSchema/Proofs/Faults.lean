import SampleSchema.Yaml.Cursor

/-!
# Outcomes and faults of readings with a state

`Ends p e m q` says that a computation started in a state with `p` ends with an outcome and a state
in `q`, or fails with a fault in `e`.  There is one rule for each way of putting computations
together, so that a statement about a reader follows its definition.
-/

namespace SampleSchema.Yaml

variable {σ α β : Type}

/-- What a computation that starts in a state with `p` comes to. -/
def Ends (p : σ → Prop) (e : Fault → Prop) (m : StateT σ (Except Fault) α) (q : α → σ → Prop) :
    Prop :=
  ∀ s, p s → (∀ a t, m s = .ok (a, t) → q a t) ∧ ∀ f, m s = .error f → e f

/-- A computation that keeps what holds of its state. -/
abbrev Keeps (p : σ → Prop) (e : Fault → Prop) (m : StateT σ (Except Fault) α) : Prop :=
  Ends p e m fun _ => p

namespace Ends

variable {p p' : σ → Prop} {e : Fault → Prop} {q q' : α → σ → Prop} {r : β → σ → Prop}
  {m : StateT σ (Except Fault) α}

/-- The rule of consequence. -/
theorem imp (hp : ∀ s, p' s → p s) (hq : ∀ a s, q a s → q' a s) (h : Ends p e m q) :
    Ends p' e m q' := fun s hs =>
  ⟨fun a t ht => hq a t ((h s (hp s hs)).1 a t ht), (h s (hp s hs)).2⟩

/-- What holds whatever the state is may be had from the start. -/
theorem given {c : Prop} (h : c → Ends p e m q) : Ends (fun s => c ∧ p s) e m q := fun s hs =>
  h hs.1 s hs.2

/-- What a state is known to fulfil may be used of a reading from it. -/
theorem known {c : Prop} (hc : ∀ s, p s → c) (h : c → Ends p e m q) : Ends p e m q := fun s hs =>
  h (hc s hs) s hs

/-- A reading may start from fewer states. -/
theorem pre (hp : ∀ s, p' s → p s) (h : Ends p e m q) : Ends p' e m q := h.imp hp fun _ _ => id

/-- A reading may promise less. -/
theorem post (hq : ∀ a s, q a s → q' a s) (h : Ends p e m q) : Ends p e m q' :=
  h.imp (fun _ => id) hq

theorem pure {a : α} (h : ∀ s, p s → q a s) : Ends p e (Pure.pure a) q := by
  refine fun s hs => ⟨?_, nofun⟩
  rintro _ _ ⟨⟩
  exact h s hs

theorem throw {f : Fault} (h : e f) : Ends p e (MonadExcept.throw f) q := by
  refine fun s _ => ⟨nofun, ?_⟩
  rintro _ ⟨⟩
  exact h

/-- A reading goes on from where the one before it ended. -/
theorem bind {f : α → StateT σ (Except Fault) β} (hm : Ends p e m q)
    (hf : ∀ a, Ends (q a) e (f a) r) : Ends p e (m >>= f) r := by
  intro s hs
  have hbind : (m >>= f) s = m s >>= fun x => f x.1 x.2 := rfl
  cases hx : m s with
  | error g =>
      rw [hbind, hx]
      refine ⟨nofun, ?_⟩
      rintro _ ⟨⟩
      exact (hm s hs).2 g hx
  | ok x =>
      rw [hbind, hx]
      exact hf x.1 x.2 ((hm s hs).1 x.1 x.2 hx)

/-- A computation that looks at its state. -/
theorem get_bind {f : σ → StateT σ (Except Fault) β} (h : ∀ s, p s → Ends (· = s) e (f s) r) :
    Ends p e (MonadState.get >>= f) r := fun s hs => h s hs s rfl

theorem modified {f : σ → σ} {q : PUnit → σ → Prop} (h : ∀ s, p s → q ⟨⟩ (f s)) :
    Ends p e (modify f) q := by
  refine fun s hs => ⟨?_, nofun⟩
  rintro _ _ ⟨⟩
  exact h s hs

theorem replaced {t : σ} {q : PUnit → σ → Prop} (h : ∀ s, p s → q ⟨⟩ t) :
    Ends p e (set t) q := by
  refine fun s hs => ⟨?_, nofun⟩
  rintro _ _ ⟨⟩
  exact h s hs

theorem lifted {x : Except Fault α} (hok : ∀ a s, x = .ok a → p s → q a s)
    (herror : ∀ f, x = .error f → e f) : Ends p e (liftM x) q := by
  intro s hs
  cases x with
  | error f =>
      refine ⟨nofun, ?_⟩
      rintro _ ⟨⟩
      exact herror f rfl
  | ok a =>
      refine ⟨?_, nofun⟩
      rintro _ _ ⟨⟩
      exact hok a s rfl hs

/-- What holds of the elements so far goes on to hold of all of them. -/
theorem forM {I : List β → σ → Prop} {f : β → StateT σ (Except Fault) PUnit} : ∀ {xs : List β}
    (done : List β), (∀ done, ∀ x ∈ xs, Ends (I done) e (f x) fun _ => I (done ++ [x])) →
    Ends (I done) e (xs.forM f) fun _ => I (done ++ xs)
  | [], done, _ => pure fun _ hs => by simpa using hs
  | x :: xs, done, h => by
      refine bind (h done x List.mem_cons_self) fun _ => ?_
      refine (forM _ fun done y hy => h done y (List.mem_cons_of_mem x hy)).post fun _ _ hs => ?_
      rwa [List.append_cons]

/-- A loop keeps what each of its passes keeps. -/
theorem keeps_forM {f : β → StateT σ (Except Fault) PUnit} {xs : List β}
    (h : ∀ x ∈ xs, Keeps p e (f x)) : Keeps p e (xs.forM f) :=
  forM (I := fun _ => p) [] fun _ => h

/-- A loop with a result keeps an invariant that each of its passes keeps. -/
theorem foldlM {I : β → σ → Prop} {f : β → α → StateT σ (Except Fault) β} : ∀ {xs : List α} {b : β},
    (∀ b, ∀ x ∈ xs, Ends (I b) e (f b x) I) → Ends (I b) e (xs.foldlM f b) I
  | [], _, _ => pure fun _ hs => hs
  | x :: _, b, h => bind (h b x List.mem_cons_self) fun _ =>
      foldlM fun c y hy => h c y (List.mem_cons_of_mem x hy)

/-- What holds of the outcomes so far goes on to hold of all of them. -/
theorem mapM {I : List β → σ → Prop} {f : α → StateT σ (Except Fault) β} : ∀ {xs : List α}
    (done : List β), (∀ done, ∀ x ∈ xs, Ends (I done) e (f x) fun b => I (done ++ [b])) →
    Ends (I done) e (xs.mapM f) fun bs => I (done ++ bs)
  | [], done, _ => pure fun _ hs => by simpa using hs
  | x :: xs, done, h => by
      rw [List.mapM_cons]
      refine bind (h done x List.mem_cons_self) fun b => ?_
      refine bind (mapM _ fun done y hy => h done y (List.mem_cons_of_mem x hy)) fun bs => ?_
      exact pure fun _ hs => by rwa [List.append_cons]

end Ends

end SampleSchema.Yaml
