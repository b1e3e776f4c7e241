import Mathlib.Data.List.GetD
import Mathlib.Tactic.Ring

/-!
# Engine arrays

`TArray` as a list whose indices are machine integers: reading or writing outside `[0, Num())` is the end of the
program, so a loop over an array is a computation in `Except Fault`.
-/

namespace SpeechlyPlugin.Engine

/-- What ends the program. -/
inductive Fault where
  /-- an index outside the bounds of an array -/
  | outOfBounds
  /-- a negative number of elements -/
  | badLength
  /-- a call through an empty pointer -/
  | nullPointer
  /-- a conversion to an integer type that cannot hold the value -/
  | badCast
  /-- a `check` or a `verifyf` whose condition is false -/
  | checkFailed
  deriving DecidableEq, Repr

/-- `check(b)` and `verifyf(b, …)`. -/
def check (b : Bool) : Except Fault Unit := if b then .ok () else .error .checkFailed

universe u

variable {α β : Type u}

@[simp] theorem ok_bind (x : α) (f : α → Except Fault β) : (Except.ok x >>= f) = f x := rfl

@[simp] theorem error_bind (e : Fault) (f : α → Except Fault β) : (Except.error e >>= f) = .error e := rfl

/-- A computation that ends well does so through each of its parts. -/
theorem bind_eq_ok {x : Except Fault α} {f : α → Except Fault β} {b : β} (h : (x >>= f) = .ok b) :
    ∃ a, x = .ok a ∧ f a = .ok b := by
  cases x with
  | error e => cases h
  | ok a => exact ⟨a, rfl, h⟩

theorem check_bind_eq_ok {γ : Type} {b : Bool} {f : Unit → Except Fault γ} {y : γ} (h : (check b >>= f) = .ok y) :
    b = true ∧ f () = .ok y := by
  cases b with
  | false => cases h
  | true => exact ⟨rfl, h⟩

/-- The last round of a counting loop. -/
theorem foldlM_range_succ (f : α → ℕ → Except Fault α) (a : α) (n : ℕ) :
    (List.range (n + 1)).foldlM f a = ((List.range n).foldlM f a >>= fun b => f b n) := by
  rw [List.range_succ, List.foldlM_append]
  congr 1
  funext b
  cases h : f b n <;> simp [h, pure, Except.pure]

/-- `a[i]`, read. -/
def load (a : List α) (i : ℤ) : Except Fault α :=
  if 0 ≤ i then
    match a[i.toNat]? with
    | some x => .ok x
    | none => .error .outOfBounds
  else .error .outOfBounds

/-- `a[i] = x`. -/
def store (a : List α) (i : ℤ) (x : α) : Except Fault (List α) :=
  if 0 ≤ i ∧ i < a.length then .ok (a.set i.toNat x) else .error .outOfBounds

/-- `a.SetNum(n)`. -/
def setNum [Inhabited α] (a : List α) (n : ℤ) : Except Fault (List α) :=
  if 0 ≤ n then .ok (a.take n.toNat ++ List.replicate (n.toNat - a.length) default) else .error .badLength

theorem load_nat {a : List α} {i : ℕ} (h : i < a.length) : load a i = .ok a[i] := by
  simp [load, List.getElem?_eq_getElem h]

theorem load_getD {a : List α} {i : ℕ} (h : i < a.length) (d : α) : load a i = .ok (a.getD i d) := by
  rw [load_nat h, List.getD_eq_getElem _ _ h]

theorem load_eq_ok {a : List α} {i : ℕ} {x : α} (h : load a i = .ok x) : a[i]? = some x := by
  rw [load, if_pos (by omega), Int.toNat_natCast] at h
  split at h
  · rename_i hx
    rw [hx, Except.ok.inj h]
  · cases h

theorem store_nat {a : List α} {i : ℕ} (h : i < a.length) (x : α) : store a i x = .ok (a.set i x) := by
  rw [store, if_pos (by omega), Int.toNat_natCast]

theorem store_eq_ok {a b : List α} {i : ℕ} {x : α} (h : store a i x = .ok b) : i < a.length ∧ b = a.set i x := by
  rw [store] at h
  split at h
  · rename_i hi
    rw [Int.toNat_natCast] at h
    exact ⟨by omega, (Except.ok.inj h).symm⟩
  · cases h

theorem setNum_le [Inhabited α] {a : List α} {n : ℕ} (h : n ≤ a.length) : setNum a n = .ok (a.take n) := by
  rw [setNum, if_pos (by omega), Int.toNat_natCast, Nat.sub_eq_zero_of_le h]
  simp

/-! ## Which faults a computation can end with -/

/-- The computation does not end with the fault `e`. -/
def Avoids (e : Fault) (x : Except Fault α) : Prop := x ≠ .error e

variable {e : Fault}

theorem avoids_ok (x : α) : Avoids e (.ok x) := fun h => by cases h

theorem avoids_error {e' : Fault} (h : e' ≠ e) : Avoids e (.error e' : Except Fault α) := fun he => h (Except.error.inj he)

theorem Avoids.bind {x : Except Fault α} {f : α → Except Fault β} (hx : Avoids e x) (hf : ∀ a, Avoids e (f a)) :
    Avoids e (x >>= f) := by
  cases x with
  | error e' => exact avoids_error fun h => hx (by rw [h])
  | ok a => exact hf a

/-- A loop avoids what its rounds avoid. -/
theorem avoids_foldlM {γ : Type} {f : α → γ → Except Fault α} (hf : ∀ a i, Avoids e (f a i)) (l : List γ) :
    ∀ a, Avoids e (l.foldlM f a) := by
  induction l with
  | nil => exact fun a => avoids_ok a
  | cons i l ih =>
    intro a
    rw [List.foldlM_cons]
    exact (hf a i).bind ih

theorem check_avoids (b : Bool) : Avoids .nullPointer (check b) := by
  unfold check
  split
  · exact avoids_ok _
  · exact avoids_error (by decide)

theorem load_avoids (a : List α) (i : ℤ) : Avoids .nullPointer (load a i) := by
  unfold load
  split
  · split
    · exact avoids_ok _
    · exact avoids_error (by decide)
  · exact avoids_error (by decide)

theorem store_avoids (a : List α) (i : ℤ) (x : α) : Avoids .nullPointer (store a i x) := by
  unfold store
  split
  · exact avoids_ok _
  · exact avoids_error (by decide)

theorem setNum_avoids [Inhabited α] (a : List α) (n : ℤ) : Avoids .nullPointer (setNum a n) := by
  unfold setNum
  split
  · exact avoids_ok _
  · exact avoids_error (by decide)

/-! ## Moving the end of an array to its front -/

/-- One round of `for (i = off, j = 0; …; ++i, ++j) a[j] = a[i]`. -/
def moveOne (off : ℤ) (a : List α) (j : ℕ) : Except Fault (List α) := do
  let x ← load a (off + j)
  store a j x

/-- `for (i = off, j = 0; i < a.Num(); ++i, ++j) a[j] = a[i]`, source and target in the same array. -/
def moveDown (a : List α) (off : ℤ) : Except Fault (List α) :=
  (List.range (a.length - off).toNat).foldlM (moveOne off) a

theorem moveDown_avoids (a : List α) (off : ℤ) : Avoids .nullPointer (moveDown a off) :=
  avoids_foldlM (fun a _ => (load_avoids a _).bind fun x => store_avoids a _ x) _ a

/-- The loop invariant: after `t` rounds the first `t` cells hold the block, and the cells from `t` on are as before, so
the cell read next has not been overwritten. -/
theorem moveDown_rounds (a : List α) (off : ℕ) :
    ∀ t : ℕ, off + t ≤ a.length →
      (List.range t).foldlM (moveOne off) a = .ok ((a.drop off).take t ++ a.drop t) := by
  intro t
  induction t with
  | zero => intro _; rfl
  | succ t ih =>
    intro ht
    rw [foldlM_range_succ, ih (by omega), ok_bind]
    have hlen : ((a.drop off).take t).length = t := by simp; omega
    have hread : ((a.drop off).take t ++ a.drop t)[off + t]? = a[off + t]? := by
      rw [List.getElem?_append_right (by omega), hlen, List.getElem?_drop]
      congr 1
      omega
    have hlt : off + t < ((a.drop off).take t ++ a.drop t).length := by simp; omega
    have hload : load ((a.drop off).take t ++ a.drop t) ((off + t : ℕ) : ℤ) = .ok a[off + t] := by
      rw [load_nat hlt]
      congr 1
      rw [← Option.some_inj, ← List.getElem?_eq_getElem, ← List.getElem?_eq_getElem]
      exact hread
    have hstore : ((a.drop off).take t ++ a.drop t).set t a[off + t] =
        (a.drop off).take (t + 1) ++ a.drop (t + 1) := by
      rw [List.set_append_right _ _ (by omega), hlen, Nat.sub_self,
        List.drop_eq_getElem_cons (show t < a.length by omega), List.set_cons_zero,
        List.take_succ_eq_append_getElem (show t < (a.drop off).length by simp; omega)]
      simp
    have e : (off : ℤ) + (t : ℤ) = ((off + t : ℕ) : ℤ) := by push_cast; ring
    rw [moveOne, e, hload, ok_bind, store_nat (by omega), hstore]

/-- **The move.**  From an offset inside the array, the loop stays inside it and leaves the block at its front. -/
theorem moveDown_ok {a : List α} {off : ℕ} (h : off ≤ a.length) :
    ∃ b, moveDown a off = .ok b ∧ b.take (a.length - off) = a.drop off ∧ b.length = a.length := by
  refine ⟨(a.drop off).take (a.length - off) ++ a.drop (a.length - off), ?_, ?_, ?_⟩
  · have e : ((a.length : ℤ) - (off : ℤ)).toNat = a.length - off := by omega
    unfold moveDown
    rw [e]
    exact moveDown_rounds a off _ (by omega)
  · have e : (a.drop off).take (a.length - off) = a.drop off := List.take_of_length_le (by simp)
    rw [e, List.take_left' (by simp)]
  · simp

end SpeechlyPlugin.Engine
