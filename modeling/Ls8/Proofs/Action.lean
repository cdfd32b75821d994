import Ls8.Action

/-!
# Laws of actions

An action that fails may have changed the state before. Five properties tell what can be relied
on, and each passes from the parts of an action to the whole:

* `Keeps view act`: what `view` shows of the state stays the same, however `act` ends.
* `Spares view act`: it stays the same if `act` fails. This is the property of an action whose
  failures all come before its first change (`spares_bind`), or which has nothing that can
  fail after it (`spares_bind_certain`).
* `Certain act`: `act` never fails.
* `Raises P act`: every error of `act` satisfies `P`.
* `Respects R act`: what `act` comes to does not depend on anything that `R` lets differ between
  two states, and `R` holds again afterwards.
-/

namespace Ls8.Action

variable {ε σ τ α β : Type}

/-! ## How an action ends -/

theorem after_of_ok {act : Action ε σ α} {s s' : σ} {a : α} (h : act s = .ok a s') :
    act.after s = s' := by
  simp only [after, h]

theorem after_of_error {act : Action ε σ α} {s s' : σ} {e : ε} (h : act s = .error e s') :
    act.after s = s' := by
  simp only [after, h]

theorem result_of_error {act : Action ε σ α} {s s' : σ} {e : ε} (h : act s = .error e s') :
    act.result s = .error e := by
  simp only [result, h]

/-- The outcome of two actions in a row is that of the second, if the first succeeds. -/
theorem bind_of_ok {act : Action ε σ α} {f : α → Action ε σ β} {s s' : σ} {a : α}
    (h : act s = .ok a s') : (act >>= f) s = f a s' := by
  simp only [bind, EStateM.bind, h]

theorem bind_of_error {act : Action ε σ α} {f : α → Action ε σ β} {s s' : σ} {e : ε}
    (h : act s = .error e s') : (act >>= f) s = .error e s' := by
  simp only [bind, EStateM.bind, h]

theorem after_bind_of_ok {act : Action ε σ α} {f : α → Action ε σ β} {s s' : σ} {a : α}
    (h : act s = .ok a s') : (act >>= f).after s = (f a).after s' := by
  simp only [after, bind_of_ok h]

theorem after_bind_of_error {act : Action ε σ α} {f : α → Action ε σ β} {s s' : σ} {e : ε}
    (h : act s = .error e s') : (act >>= f).after s = s' := by
  simp only [after, bind_of_error h]

/-- Two actions in a row succeed if both do. -/
theorem bind_ok {act : Action ε σ α} {f : α → Action ε σ β} {s s'' : σ} {b : β}
    (h : (act >>= f) s = .ok b s'') : ∃ a s', act s = .ok a s' ∧ f a s' = .ok b s'' := by
  cases hx : act s with
  | ok a s' => exact ⟨a, s', rfl, by rwa [bind_of_ok hx] at h⟩
  | error e s' => rw [bind_of_error hx] at h; cases h

/-- Two actions in a row fail if the first one fails, or the second one after it. -/
theorem bind_error {act : Action ε σ α} {f : α → Action ε σ β} {s s'' : σ} {e : ε}
    (h : (act >>= f) s = .error e s'') :
    act s = .error e s'' ∨ ∃ a s', act s = .ok a s' ∧ f a s' = .error e s'' := by
  cases hx : act s with
  | ok a s' => exact Or.inr ⟨a, s', rfl, by rwa [bind_of_ok hx] at h⟩
  | error e' s' =>
    rw [bind_of_error hx] at h
    cases h
    exact Or.inl rfl

theorem look_of_ok {view : σ → Except ε α} {s : σ} {a : α} (h : view s = .ok a) :
    look view s = .ok a s := by
  simp only [look, h]

theorem look_of_error {view : σ → Except ε α} {s : σ} {e : ε} (h : view s = .error e) :
    look view s = .error e s := by
  simp only [look, h]

theorem look_ok {view : σ → Except ε α} {s s' : σ} {a : α} (h : look view s = .ok a s') :
    view s = .ok a ∧ s' = s := by
  unfold look at h
  split at h <;> cases h
  exact ⟨‹_›, rfl⟩

theorem look_error {view : σ → Except ε α} {s s' : σ} {e : ε} (h : look view s = .error e s') :
    view s = .error e ∧ s' = s := by
  unfold look at h
  split at h <;> cases h
  exact ⟨‹_›, rfl⟩

/-! ## What an action leaves alone -/

/-- What `view` shows of the state is the same afterwards, however `act` ends. -/
def Keeps (view : σ → τ) (act : Action ε σ α) : Prop := ∀ s, view (act.after s) = view s

variable {view : σ → τ}

theorem Keeps.of_ok {act : Action ε σ α} (hk : Keeps view act) {s s' : σ} {a : α}
    (h : act s = .ok a s') : view s' = view s :=
  after_of_ok h ▸ hk s

theorem Keeps.of_error {act : Action ε σ α} (hk : Keeps view act) {s s' : σ} {e : ε}
    (h : act s = .error e s') : view s' = view s :=
  after_of_error h ▸ hk s

/-- What can be told from the view is the same, too. -/
theorem Keeps.map {υ : Type} {act : Action ε σ α} (hk : Keeps view act) (f : τ → υ) :
    Keeps (fun s => f (view s)) act :=
  fun s => congrArg f (hk s)

theorem keeps_bind {act : Action ε σ α} {f : α → Action ε σ β} (hx : Keeps view act)
    (hf : ∀ a, Keeps view (f a)) : Keeps view (act >>= f) := by
  intro s
  cases h : act s with
  | ok a s' =>
    rw [after_bind_of_ok h, hf a s', hx.of_ok h]
  | error e s' => rw [after_bind_of_error h, hx.of_error h]

theorem keeps_get : Keeps view (get : Action ε σ σ) := fun _ => rfl

theorem keeps_modify {f : σ → σ} (h : ∀ s, view (f s) = view s) :
    Keeps view (modify f : Action ε σ Unit) := h

theorem keeps_look (read : σ → Except ε α) : Keeps view (look read) := by
  intro s
  cases h : read s with
  | ok a => rw [after_of_ok (look_of_ok h)]
  | error e => rw [after_of_error (look_of_error h)]

theorem keeps_ite {c : Prop} [Decidable c] {x y : Action ε σ α} (hx : Keeps view x)
    (hy : Keeps view y) : Keeps view (if c then x else y) := by
  split
  · exact hx
  · exact hy

/-! ## Actions that never fail -/

/-- `act` never fails. -/
def Certain (act : Action ε σ α) : Prop := ∀ s, ∃ a s', act s = .ok a s'

theorem certain_bind {act : Action ε σ α} {f : α → Action ε σ β} (hx : Certain act)
    (hf : ∀ a, Certain (f a)) : Certain (act >>= f) := by
  intro s
  obtain ⟨a, s', h⟩ := hx s
  rw [bind_of_ok h]
  exact hf a s'

theorem certain_get : Certain (get : Action ε σ σ) := fun s => ⟨s, s, rfl⟩

theorem certain_modify (f : σ → σ) : Certain (modify f : Action ε σ Unit) :=
  fun s => ⟨(), f s, rfl⟩

theorem Certain.ne_error {act : Action ε σ α} (h : Certain act) {s s' : σ} {e : ε} :
    act s ≠ .error e s' := by
  obtain ⟨a, s'', ho⟩ := h s
  rw [ho]
  nofun

/-! ## What a failure leaves alone -/

/-- What `view` shows of the state is the same as before if `act` fails. -/
def Spares (view : σ → τ) (act : Action ε σ α) : Prop :=
  ∀ ⦃s e s'⦄, act s = .error e s' → view s' = view s

theorem Keeps.spares {act : Action ε σ α} (h : Keeps view act) : Spares view act :=
  fun _ _ _ he => h.of_error he

theorem Certain.spares {act : Action ε σ α} (h : Certain act) : Spares view act :=
  fun _ _ _ he => (h.ne_error he).elim

/-- The first part may still look around: it changes nothing that the failure must spare. -/
theorem spares_bind {act : Action ε σ α} {f : α → Action ε σ β} (hx : Keeps view act)
    (hf : ∀ a, Spares view (f a)) : Spares view (act >>= f) := by
  intro s e s'' h
  rcases bind_error h with h | ⟨a, s', ho, he⟩
  · exact hx.of_error h
  · rw [hf a he, hx.of_ok ho]

/-- After the first part nothing can fail any more. -/
theorem spares_bind_certain {act : Action ε σ α} {f : α → Action ε σ β} (hx : Spares view act)
    (hf : ∀ a, Certain (f a)) : Spares view (act >>= f) := by
  intro s e s'' h
  rcases bind_error h with h | ⟨a, s', _, he⟩
  · exact hx h
  · exact ((hf a).ne_error he).elim

theorem spares_ite {c : Prop} [Decidable c] {x y : Action ε σ α} (hx : Spares view x)
    (hy : Spares view y) : Spares view (if c then x else y) := by
  split
  · exact hx
  · exact hy

/-! ## Which errors arise -/

/-- Every error of `act` satisfies `P`. -/
def Raises (P : ε → Prop) (act : Action ε σ α) : Prop :=
  ∀ ⦃s e s'⦄, act s = .error e s' → P e

variable {P : ε → Prop}

theorem Certain.raises {act : Action ε σ α} (h : Certain act) : Raises P act :=
  fun _ _ _ he => (h.ne_error he).elim

theorem raises_bind {act : Action ε σ α} {f : α → Action ε σ β} (hx : Raises P act)
    (hf : ∀ a, Raises P (f a)) : Raises P (act >>= f) := by
  intro s e s'' h
  rcases bind_error h with h | ⟨a, s', _, he⟩
  · exact hx h
  · exact hf a he

theorem raises_look {read : σ → Except ε α} (h : ∀ s e, read s = .error e → P e) :
    Raises P (look read) := by
  intro s e s' he
  exact h s e (look_error he).1

/-! ## Actions that respect a relation -/

/-- Two outcomes with the same value or the same error, and with related states. -/
inductive Matches (R : σ → σ → Prop) :
    EStateM.Result ε σ α → EStateM.Result ε σ α → Prop where
  | ok {a : α} {s s' : σ} (related : R s s') : Matches R (.ok a s) (.ok a s')
  | error {e : ε} {s s' : σ} (related : R s s') : Matches R (.error e s) (.error e s')

/-- From related states `act` comes to the same value or error, and to related states again. -/
def Respects (R : σ → σ → Prop) (act : Action ε σ α) : Prop :=
  ∀ ⦃s s'⦄, R s s' → Matches R (act s) (act s')

variable {R : σ → σ → Prop}

theorem Matches.imp {R' : σ → σ → Prop} (h : ∀ s s', R s s' → R' s s')
    {r r' : EStateM.Result ε σ α} (hm : Matches R r r') : Matches R' r r' := by
  cases hm with
  | ok related => exact .ok (h _ _ related)
  | error related => exact .error (h _ _ related)

theorem Matches.result_eq {act : Action ε σ α} {s s' : σ} (h : Matches R (act s) (act s')) :
    act.result s' = act.result s := by
  unfold result
  generalize act s = r, act s' = r' at h ⊢
  cases h <;> rfl

theorem Matches.after {act : Action ε σ α} {s s' : σ} (h : Matches R (act s) (act s')) :
    R (act.after s) (act.after s') := by
  unfold Action.after
  generalize act s = r, act s' = r' at h ⊢
  cases h <;> assumption

theorem Respects.result_eq {act : Action ε σ α} (h : Respects R act) {s s' : σ} (hR : R s s') :
    act.result s' = act.result s :=
  (h hR).result_eq

theorem Respects.after {act : Action ε σ α} (h : Respects R act) {s s' : σ} (hR : R s s') :
    R (act.after s) (act.after s') :=
  (h hR).after

/-- What an action keeps may be part of the relation. -/
theorem Respects.and {act : Action ε σ α} (h : Respects R act) (hk : Keeps view act) :
    Respects (fun s s' => R s s' ∧ view s' = view s) act := by
  rintro s s' ⟨hR, hv⟩
  have hm := h hR
  have hs := hk s
  have hs' := hk s'
  unfold Action.after at hs hs'
  generalize act s = r, act s' = r' at hm hs hs' ⊢
  cases hm with
  | ok related => exact .ok ⟨related, by rw [hs, hs', hv]⟩
  | error related => exact .error ⟨related, by rw [hs, hs', hv]⟩

theorem respects_bind {act : Action ε σ α} {f : α → Action ε σ β} (hx : Respects R act)
    (hf : ∀ a, Respects R (f a)) : Respects R (act >>= f) := by
  intro s s' hR
  have hm := hx hR
  simp only [bind, EStateM.bind]
  generalize act s = r, act s' = r' at hm ⊢
  cases hm with
  | ok related => exact hf _ related
  | error related => exact .error related

theorem respects_pure (a : α) : Respects R (pure a : Action ε σ α) := fun _ _ hR => .ok hR

theorem respects_throw (e : ε) : Respects R (throw e : Action ε σ α) := fun _ _ hR => .error hR

/-- What is done with the state taken must not show the difference, but the state itself may. -/
theorem respects_get_bind {f : σ → Action ε σ β} (hf : ∀ s, Respects R (f s))
    (hs : ∀ s s', R s s' → f s' = f s) : Respects R (get >>= f) := by
  intro s s' hR
  show Matches R (f s s) (f s' s')
  rw [hs s s' hR]
  exact hf s hR

theorem respects_modify {f : σ → σ} (h : ∀ s s', R s s' → R (f s) (f s')) :
    Respects R (modify f : Action ε σ Unit) := fun s s' hR => .ok (h s s' hR)

theorem respects_look {read : σ → Except ε α} (h : ∀ s s', R s s' → read s' = read s) :
    Respects R (look read) := by
  intro s s' hR
  simp only [look, h s s' hR]
  cases read s with
  | ok a => exact .ok hR
  | error e => exact .error hR

theorem respects_ite {c : Prop} [Decidable c] {x y : Action ε σ α} (hx : Respects R x)
    (hy : Respects R y) : Respects R (if c then x else y) := by
  split
  · exact hx
  · exact hy

/-! ## Actions within bounds -/

/-- Whatever `act` does, its errors satisfy `P`, what `view` shows stays the same, and related
states stay related. -/
structure Within (P : ε → Prop) (view : σ → τ) (R : σ → σ → Prop) (act : Action ε σ α) :
    Prop where
  raises : Raises P act
  keeps : Keeps view act
  respects : Respects R act

theorem within_bind {act : Action ε σ α} {f : α → Action ε σ β} (hx : Within P view R act)
    (hf : ∀ a, Within P view R (f a)) : Within P view R (act >>= f) where
  raises := raises_bind hx.raises fun a => (hf a).raises
  keeps := keeps_bind hx.keeps fun a => (hf a).keeps
  respects := respects_bind hx.respects fun a => (hf a).respects

theorem within_get_bind {f : σ → Action ε σ β} (hf : ∀ s, Within P view R (f s))
    (hs : ∀ s s', R s s' → f s' = f s) : Within P view R (get >>= f) where
  raises := raises_bind certain_get.raises fun s => (hf s).raises
  keeps := keeps_bind keeps_get fun s => (hf s).keeps
  respects := respects_get_bind (fun s => (hf s).respects) hs

theorem within_look {read : σ → Except ε α} (he : ∀ s e, read s = .error e → P e)
    (hc : ∀ s s', R s s' → read s' = read s) : Within P view R (look read) where
  raises := raises_look he
  keeps := keeps_look read
  respects := respects_look hc

theorem within_modify {f : σ → σ} (hv : ∀ s, view (f s) = view s)
    (hc : ∀ s s', R s s' → R (f s) (f s')) :
    Within P view R (modify f : Action ε σ Unit) where
  raises := (certain_modify f).raises
  keeps := keeps_modify hv
  respects := respects_modify hc

theorem within_ite {c : Prop} [Decidable c] {x y : Action ε σ α} (hx : Within P view R x)
    (hy : Within P view R y) : Within P view R (if c then x else y) := by
  split
  · exact hx
  · exact hy

end Ls8.Action
