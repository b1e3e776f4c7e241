import Mathlib.Data.List.Basic

/-!
# Labelled machines

A machine is a partial step function: `step s a` is the state the label `a` leads to, `none` when `a` cannot happen in
`s`.  Labels stand for whose turn it is and for what the environment chooses, so that a list of labels is one
interleaving.  The rules lift what one step preserves to whole runs.
-/

namespace SpeechlyPlugin.Lib

universe u v

/-- A machine with states `σ` and labels `ι`. -/
structure Machine (σ : Type u) (ι : Type v) where
  step : σ → ι → Option σ

namespace Machine

variable {σ : Type u} {ι : Type v} {M : Machine σ ι} {s t u : σ} {a : ι} {as bs : List ι}

/-- The state a list of labels leads to. -/
def run (M : Machine σ ι) : σ → List ι → Option σ
  | s, [] => some s
  | s, a :: as => (M.step s a).bind fun t => M.run t as

/-- `t` can be reached from `s`. -/
def Reach (M : Machine σ ι) (s t : σ) : Prop := ∃ as, M.run s as = some t

theorem run_cons : M.run s (a :: as) = some u ↔ ∃ t, M.step s a = some t ∧ M.run t as = some u :=
  Option.bind_eq_some_iff

theorem run_append : M.run s (as ++ bs) = (M.run s as).bind fun t => M.run t bs := by
  induction as generalizing s with
  | nil => rfl
  | cons a as ih =>
    show (M.step s a).bind _ = ((M.step s a).bind _).bind _
    rw [Option.bind_assoc]
    congr 1
    funext t
    exact ih

theorem run_concat : M.run s (as ++ [a]) = some u ↔ ∃ t, M.run s as = some t ∧ M.step t a = some u := by
  rw [run_append, Option.bind_eq_some_iff]
  simp [run]

/-! ## Invariants -/

/-- **The invariant rule.**  What every step under `G` preserves holds at the end of every run whose steps are under
`G`. -/
theorem run_inv {I : σ → Prop} {G : ι → Prop} (hstep : ∀ s a t, G a → I s → M.step s a = some t → I t) :
    ∀ {as : List ι} {s t : σ}, (∀ a ∈ as, G a) → I s → M.run s as = some t → I t := by
  intro as
  induction as with
  | nil =>
    intro s t _ hs h
    cases h
    exact hs
  | cons a as ih =>
    intro s t hG hs h
    obtain ⟨m, hm, h⟩ := run_cons.mp h
    exact ih (fun b hb => hG b (by simp [hb])) (hstep s a m (hG a (by simp)) hs hm) h

/-! ## Runs whose steps meet a condition -/

/-- Every step of the run is taken in a state that meets `C`. -/
def Under (M : Machine σ ι) (C : σ → ι → Prop) : σ → List ι → Prop
  | _, [] => True
  | s, a :: as => C s a ∧ ∀ t, M.step s a = some t → M.Under C t as

section

variable {C : σ → ι → Prop}

/-- The invariant rule under a condition on the states the steps are taken in. -/
theorem Under.inv {I : σ → Prop} (hstep : ∀ s a t, C s a → I s → M.step s a = some t → I t) :
    ∀ {as : List ι} {s t : σ}, M.Under C s as → I s → M.run s as = some t → I t := by
  intro as
  induction as with
  | nil =>
    intro s t _ hs h
    cases h
    exact hs
  | cons a as ih =>
    intro s t hC hs h
    obtain ⟨m, hm, h⟩ := run_cons.mp h
    exact ih (hC.2 m hm) (hstep s a m hC.1 hs hm) h

theorem under_append : M.Under C s (as ++ bs) ↔ M.Under C s as ∧ ∀ t, M.run s as = some t → M.Under C t bs := by
  induction as generalizing s with
  | nil =>
    constructor
    · intro h
      refine ⟨trivial, fun t ht => ?_⟩
      cases ht
      exact h
    · exact fun h => h.2 s rfl
  | cons a as ih =>
    constructor
    · rintro ⟨ha, h⟩
      refine ⟨⟨ha, fun m hm => (ih.mp (h m hm)).1⟩, fun t ht => ?_⟩
      obtain ⟨m, hm, ht⟩ := run_cons.mp ht
      exact (ih.mp (h m hm)).2 t ht
    · rintro ⟨⟨ha, h⟩, hrest⟩
      exact ⟨ha, fun m hm => ih.mpr ⟨h m hm, fun t ht => hrest t (run_cons.mpr ⟨m, hm, ht⟩)⟩⟩

theorem Under.of_prefix (h : M.Under C s as) (hbs : bs <+: as) : M.Under C s bs := by
  obtain ⟨cs, rfl⟩ := hbs
  exact (under_append.mp h).1

theorem under_of_forall (h : ∀ a ∈ as, ∀ t, C t a) : M.Under C s as := by
  induction as generalizing s with
  | nil => trivial
  | cons a as ih => exact ⟨h a (by simp) s, fun t _ => ih fun b hb => h b (by simp [hb])⟩

/-- The labels of a run that meets a condition. -/
theorem Under.forall_mem {G : ι → Prop} (hunder : M.Under C s as) (hrun : M.run s as = some t) (h : ∀ s a, C s a → G a) :
    ∀ a ∈ as, G a := by
  induction as generalizing s with
  | nil => simp
  | cons a as ih =>
    obtain ⟨m, hm, hrun⟩ := run_cons.mp hrun
    exact List.forall_mem_cons.mpr ⟨h s a hunder.1, ih (hunder.2 m hm) hrun⟩

/-- A run meets a condition if each of its steps does. -/
theorem under_of_steps (hrun : M.run s as = some u)
    (h : ∀ bs a t t', bs ++ [a] <+: as → M.run s bs = some t → M.step t a = some t' → C t a) : M.Under C s as := by
  induction as generalizing s with
  | nil => trivial
  | cons a as ih =>
    obtain ⟨m, hm, hrun⟩ := run_cons.mp hrun
    refine ⟨h [] a s m ⟨as, rfl⟩ rfl hm, fun m' hm' => ?_⟩
    cases hm.symm.trans hm'
    refine ih hrun fun bs b t t' hbs ht ht' => ?_
    exact h (a :: bs) b t t' (List.cons_prefix_cons.mpr ⟨rfl, hbs⟩) (run_cons.mpr ⟨m, hm, ht⟩) ht'

end

/-! ## Reachable states -/

theorem Reach.refl (s : σ) : M.Reach s s := ⟨[], rfl⟩

theorem Reach.step (h : M.Reach s t) (ha : M.step t a = some u) : M.Reach s u := by
  obtain ⟨as, h⟩ := h
  exact ⟨as ++ [a], run_concat.mpr ⟨t, h, ha⟩⟩

theorem Reach.trans (h : M.Reach s t) (h' : M.Reach t u) : M.Reach s u := by
  obtain ⟨as, h⟩ := h
  obtain ⟨bs, h'⟩ := h'
  exact ⟨as ++ bs, by rw [run_append, h]; exact h'⟩

theorem Reach.inv {I : σ → Prop} (hstep : ∀ s a t, I s → M.step s a = some t → I t) (hs : I s) (h : M.Reach s t) :
    I t := by
  obtain ⟨as, h⟩ := h
  exact run_inv (G := fun _ => True) (fun s a t _ => hstep s a t) (fun _ _ => trivial) hs h

/-- The invariant rule for reachable states: a step need only preserve the invariant where it can be taken, so that
invariants proved before can be used. -/
theorem Reach.induct {I : σ → Prop} (hstep : ∀ t a u, M.Reach s t → I t → M.step t a = some u → I u) (hs : I s)
    (h : M.Reach s t) : I t := by
  have key : M.Reach s t ∧ I t :=
    h.inv (I := fun t => M.Reach s t ∧ I t) (fun t a u ht ha => ⟨ht.1.step ha, hstep t a u ht.1 ht.2 ha⟩)
      ⟨Reach.refl s, hs⟩
  exact key.2

/-! ## Simulation -/

/-- **The simulation rule.**  If every step of `M` under an invariant is, seen through `f`, a run of `N`, then so is every run
of `M`. -/
theorem Reach.sim {τ : Type u} {κ : Type v} {N : Machine τ κ} {I : σ → Prop} {f : σ → τ}
    (hstep : ∀ s a t, I s → M.step s a = some t → I t) (hsim : ∀ s a t, I s → M.step s a = some t → N.Reach (f s) (f t))
    (hs : I s) (h : M.Reach s t) : N.Reach (f s) (f t) := by
  have key : I t ∧ N.Reach (f s) (f t) :=
    h.inv (I := fun t => I t ∧ N.Reach (f s) (f t))
      (fun t a u ht ha => ⟨hstep t a u ht.1 ha, ht.2.trans (hsim t a u ht.1 ha)⟩) ⟨hs, Reach.refl _⟩
  exact key.2

/-! ## Ways on -/

/-- Steps that meet `C` can lead from `s` to a state with `Q`. -/
def Leads (M : Machine σ ι) (C : σ → ι → Prop) (s : σ) (Q : σ → Prop) : Prop :=
  ∃ as t, M.Under C s as ∧ M.run s as = some t ∧ Q t

section

variable {C : σ → ι → Prop} {P Q : σ → Prop}

theorem Leads.now (h : Q s) : M.Leads C s Q := ⟨[], s, trivial, rfl, h⟩

theorem Leads.step (ha : C s a) (hstep : M.step s a = some t) (h : M.Leads C t Q) : M.Leads C s Q := by
  obtain ⟨as, u, hunder, hrun, hu⟩ := h
  refine ⟨a :: as, u, ⟨ha, fun t' ht' => ?_⟩, run_cons.mpr ⟨t, hstep, hrun⟩, hu⟩
  cases hstep.symm.trans ht'
  exact hunder

theorem Leads.trans (h : M.Leads C s P) (hQ : ∀ t, P t → M.Leads C t Q) : M.Leads C s Q := by
  obtain ⟨as, t, hunder, hrun, ht⟩ := h
  obtain ⟨bs, u, hunder', hrun', hu⟩ := hQ t ht
  refine ⟨as ++ bs, u, under_append.mpr ⟨hunder, fun t' ht' => ?_⟩, ?_, hu⟩
  · cases hrun.symm.trans ht'
    exact hunder'
  · rw [run_append, hrun]
    exact hrun'

/-- **The rule of descent.**  If from every state with `P` but without `Q` there is a way on to one with `P` and of a smaller rank,
then there is a way to `Q`. -/
theorem Leads.descend (rank : σ → ℕ) (h : ∀ s, P s → ¬Q s → M.Leads C s fun t => P t ∧ rank t < rank s) (hs : P s) :
    M.Leads C s Q := by
  induction hn : rank s using Nat.strongRecOn generalizing s with
  | _ n ih =>
    by_cases hQ : Q s
    · exact .now hQ
    · exact (h s hs hQ).trans fun t ht => ih (rank t) (hn ▸ ht.2) ht.1 rfl

end

end Machine

end SpeechlyPlugin.Lib
