import SpeechlyPlugin.Lib.Trace
import Mathlib.Data.List.Induction

/-!
# Gates

A gate in front of a sink holds chunks back until it is opened; what it holds goes out with the first chunk that comes
after that.  Empty chunks pass unnoticed.
-/

namespace SpeechlyPlugin.Lib

universe u

/-- A gate, and what it holds back. -/
structure Gate (α : Type u) where
  shut : Bool
  held : List α

inductive GateOp (α : Type u) where
  | put (xs : List α)
  | unlock

namespace Gate

variable {α : Type u} {ops : List (GateOp α)}

/-- A chunk comes: the gate after it, and what goes out. -/
def put (g : Gate α) (xs : List α) : Gate α × List α :=
  if xs.isEmpty then (g, [])
  else if g.shut then (⟨true, g.held ++ xs⟩, [])
  else (⟨false, []⟩, g.held ++ xs)

/-- One operation, on the gate and all that has gone out. -/
def step (x : Gate α × List α) : GateOp α → Gate α × List α
  | .put xs => ((x.1.put xs).1, x.2 ++ (x.1.put xs).2)
  | .unlock => (⟨false, x.1.held⟩, x.2)

/-- A run from an empty gate that is shut. -/
def run (ops : List (GateOp α)) : Gate α × List α := ops.foldl step (⟨true, []⟩, [])

/-- All that has come in. -/
def given (ops : List (GateOp α)) : List α :=
  ops.flatMap fun
    | .put xs => xs
    | .unlock => []

@[simp] theorem run_nil : run ([] : List (GateOp α)) = (⟨true, []⟩, []) := rfl

@[simp] theorem run_concat (op : GateOp α) : run (ops ++ [op]) = step (run ops) op := by
  simp [run]

@[simp] theorem given_concat_put (xs : List α) : given (ops ++ [.put xs]) = given ops ++ xs := by simp [given]

@[simp] theorem given_concat_unlock : given (ops ++ [.unlock]) = given ops := by simp [given]

/-- Nothing is lost, doubled or moved: what went out, then what is held back, is what came in. -/
theorem run_conserves (ops : List (GateOp α)) : (run ops).2 ++ (run ops).1.held = given ops := by
  induction ops using List.reverseRecOn with
  | nil => rfl
  | append_singleton ops op ih =>
    cases op with
    | put xs =>
      rw [run_concat, given_concat_put, ← ih, step, put]
      split
      · rename_i hxs
        rw [List.isEmpty_iff.mp hxs]
        simp
      · split <;> simp
    | unlock =>
      rw [run_concat, given_concat_unlock, ← ih]
      rfl

/-- What has gone out is a prefix of what came in. -/
theorem run_prefix (ops : List (GateOp α)) : (run ops).2 <+: given ops := ⟨_, run_conserves ops⟩

theorem run_shut (ops : List (GateOp α)) : (run ops).1.shut = true ↔ .unlock ∉ ops := by
  induction ops using List.reverseRecOn with
  | nil => simp
  | append_singleton ops op ih =>
    cases op with
    | put xs =>
      have hput : ((run ops).1.put xs).1.shut = (run ops).1.shut := by
        unfold put
        split
        · rfl
        · split <;> simp_all
      rw [run_concat, step, hput, ih]
      simp
    | unlock => simp [step]

/-- Nothing goes out before the gate is opened. -/
theorem run_out (h : .unlock ∉ ops) : (run ops).2 = [] := by
  induction ops using List.reverseRecOn with
  | nil => rfl
  | append_singleton ops op ih =>
    have hops : GateOp.unlock ∉ ops := fun hmem => h (by simp [hmem])
    cases op with
    | put xs =>
      have hshut := (run_shut ops).mpr hops
      rw [run_concat, step, ih hops, put, hshut]
      split <;> rfl
    | unlock => exact absurd h (by simp)

/-- A chunk that is not empty comes when the gate has been opened. -/
def Passes (pre : List (GateOp α)) (op : GateOp α) : Prop := .unlock ∈ pre ∧ ∃ xs, op = .put xs ∧ xs ≠ []

/-- **When nothing is held back**: nothing has come, or something has come after the gate was opened. -/
theorem held_eq_nil_iff (ops : List (GateOp α)) :
    (run ops).1.held = [] ↔ given ops = [] ∨ Sometime Passes ops := by
  induction ops using List.reverseRecOn with
  | nil => simp [given]
  | append_singleton ops op ih =>
    rw [sometime_concat, run_concat]
    cases op with
    | put xs =>
      rw [given_concat_put, step, put]
      by_cases hxs : xs = []
      · subst hxs
        simp [ih, Passes]
      · have hempty : xs.isEmpty = false := by simpa using hxs
        rw [hempty]
        by_cases hopen : GateOp.unlock ∈ ops
        · have hshut : (run ops).1.shut = false := by simpa using mt (run_shut ops).mp (by simpa using hopen)
          simp [hshut, Passes, hopen, hxs]
        · have hshut : (run ops).1.shut = true := (run_shut ops).mpr hopen
          have hnone : ¬Sometime Passes ops := by
            rintro ⟨pre, b, post, rfl, hpre, -⟩
            exact hopen (by simp [hpre])
          simp [hshut, Passes, hopen, hxs, hnone]
    | unlock =>
      rw [given_concat_unlock]
      simp [step, ih, Passes]

end Gate

end SpeechlyPlugin.Lib
