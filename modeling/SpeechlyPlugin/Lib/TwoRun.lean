import SpeechlyPlugin.Lib.Machine

/-!
# Two runs side by side

Relations between states lifted to partial steps and to computations that can fail.  What one step keeps related, a run keeps
related: two machines that start in related states can take the same labels, and come to related states.
-/

namespace SpeechlyPlugin.Lib

universe u v w

/-! ## Computations that can fail -/

section

variable {ε : Type u} {α β : Type v} {γ δ : Type w} {R : α → β → Prop} {S : γ → δ → Prop}

/-- The two fail alike, or both succeed with related values. -/
inductive ExceptRel (R : α → β → Prop) : Except ε α → Except ε β → Prop where
  | ok {a : α} {b : β} (h : R a b) : ExceptRel R (.ok a) (.ok b)
  | error (e : ε) : ExceptRel R (.error e) (.error e)

theorem ExceptRel.eq_ok {a : α} {y : Except ε β} (h : ExceptRel R (.ok a) y) : ∃ b, y = .ok b ∧ R a b := by
  cases h with
  | ok h => exact ⟨_, rfl, h⟩

theorem ExceptRel.eq_error {e : ε} {y : Except ε β} (h : ExceptRel R (.error e) y) : y = .error e := by
  cases h
  rfl

theorem ExceptRel.mono {R' : α → β → Prop} {x : Except ε α} {y : Except ε β} (h : ExceptRel R x y)
    (hR : ∀ a b, R a b → R' a b) : ExceptRel R' x y := by
  cases h with
  | ok h => exact .ok (hR _ _ h)
  | error e => exact .error e

theorem ExceptRel.refl (x : Except ε α) : ExceptRel Eq x x := by
  cases x with
  | error e => exact .error e
  | ok a => exact .ok rfl

end

section

variable {ε : Type u} {α β γ δ : Type v} {R : α → β → Prop} {S : γ → δ → Prop}

theorem ExceptRel.bind {x : Except ε α} {y : Except ε β} {f : α → Except ε γ} {g : β → Except ε δ} (h : ExceptRel R x y)
    (hf : ∀ a b, R a b → ExceptRel S (f a) (g b)) : ExceptRel S (x >>= f) (y >>= g) := by
  cases h with
  | ok h => exact hf _ _ h
  | error e => exact .error e

/-- A loop whose rounds keep the relation. -/
theorem ExceptRel.foldlM {ι : Type w} {f : α → ι → Except ε α} {g : β → ι → Except ε β} {l : List ι}
    (hstep : ∀ i ∈ l, ∀ a b, R a b → ExceptRel R (f a i) (g b i)) :
    ∀ {a : α} {b : β}, R a b → ExceptRel R (l.foldlM f a) (l.foldlM g b) := by
  induction l with
  | nil => exact fun h => .ok h
  | cons i l ih =>
    intro a b h
    rw [List.foldlM_cons, List.foldlM_cons]
    exact (hstep i (by simp) a b h).bind fun a b h => ih (fun j hj => hstep j (by simp [hj])) h

end

/-! ## Runs -/

section

variable {σ : Type u} {τ : Type v} {ι : Type w} {M : Machine σ ι} {N : Machine τ ι} {R : σ → τ → Prop} {G : ι → Prop}

/-- **The rule for two runs.**  Related states take the same labels to related states. -/
theorem run_rel (hstep : ∀ s t a, G a → R s t → Option.Rel R (M.step s a) (N.step t a)) :
    ∀ {as : List ι} {s : σ} {t : τ}, (∀ a ∈ as, G a) → R s t → Option.Rel R (M.run s as) (N.run t as) := by
  intro as
  induction as with
  | nil => exact fun _ h => .some h
  | cons a as ih =>
    intro s t hG h
    have hrel := hstep s t a (hG a (by simp)) h
    unfold Machine.run
    generalize M.step s a = x at hrel
    generalize N.step t a = y at hrel
    cases hrel with
    | some h => exact ih (fun b hb => hG b (by simp [hb])) h
    | none => exact .none

end

end SpeechlyPlugin.Lib
