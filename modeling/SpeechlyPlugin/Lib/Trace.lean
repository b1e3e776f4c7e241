import Mathlib.Data.List.Basic

/-!
# Histories

A history grows at its end.  `Along P` says of every event what `P` says of it and of the events before it, `Sometime P`
says it of one of them; both are proved event by event.
-/

namespace SpeechlyPlugin.Lib

universe u

variable {α : Type u} {P Q : List α → α → Prop} {l : List α} {a : α}

/-- An event of a history is its last one or stands in what comes before. -/
theorem concat_split {b : α} {pre post : List α} :
    l ++ [a] = pre ++ b :: post ↔ l = pre ∧ a = b ∧ post = [] ∨ ∃ post', post = post' ++ [a] ∧ l = pre ++ b :: post' := by
  constructor
  · intro h
    rcases post.eq_nil_or_concat with rfl | ⟨post', c, rfl⟩
    · obtain ⟨rfl, hb⟩ := List.append_inj' h rfl
      exact Or.inl ⟨rfl, (List.cons.inj hb).1, rfl⟩
    · rw [List.concat_eq_append] at h ⊢
      rw [← List.cons_append, ← List.append_assoc] at h
      obtain ⟨rfl, hc⟩ := List.append_inj' h rfl
      exact Or.inr ⟨post', by rw [(List.cons.inj hc).1], rfl⟩
  · rintro (⟨rfl, rfl, rfl⟩ | ⟨post', rfl, rfl⟩)
    · rfl
    · simp

/-- Every event of the history is as `P` says, given the events before it. -/
def Along (P : List α → α → Prop) (l : List α) : Prop := ∀ pre a post, l = pre ++ a :: post → P pre a

/-- Some event of the history is as `P` says, given the events before it. -/
def Sometime (P : List α → α → Prop) (l : List α) : Prop := ∃ pre a post, l = pre ++ a :: post ∧ P pre a

theorem along_nil : Along P [] := by
  intro pre a post h
  simp at h

theorem along_concat : Along P (l ++ [a]) ↔ Along P l ∧ P l a := by
  constructor
  · intro h
    exact ⟨fun pre b post hl => h pre b (post ++ [a]) (concat_split.mpr (Or.inr ⟨post, rfl, hl⟩)), h l a [] rfl⟩
  · rintro ⟨h, ha⟩ pre b post hl
    obtain ⟨rfl, rfl, -⟩ | ⟨post', -, hl⟩ := concat_split.mp hl
    · exact ha
    · exact h pre b post' hl

theorem Along.of_append {new : List α} (h : Along P (l ++ new)) : Along P l := by
  rintro pre a post rfl
  exact h pre a (post ++ new) (by simp)

/-- What is the same at every event is the same along the history. -/
theorem Along.congr (h : Along (fun pre a => P pre a ↔ Q pre a) l) : Along P l ↔ Along Q l :=
  ⟨fun hP pre a post hl => (h pre a post hl).mp (hP pre a post hl),
    fun hQ pre a post hl => (h pre a post hl).mpr (hQ pre a post hl)⟩

theorem along_iff : Along P l ↔ ∀ i, ∀ h : i < l.length, P (l.take i) l[i] := by
  constructor
  · intro h i hi
    exact h _ _ (l.drop (i + 1)) (by simp)
  · rintro h pre a post rfl
    simpa using h pre.length (by simp)

instance [∀ pre a, Decidable (P pre a)] : Decidable (Along P l) :=
  decidable_of_iff (∀ i, ∀ h : i < l.length, P (l.take i) l[i]) along_iff.symm

theorem not_sometime_nil : ¬Sometime P [] := by
  rintro ⟨pre, a, post, h, -⟩
  simp at h

theorem sometime_concat : Sometime P (l ++ [a]) ↔ Sometime P l ∨ P l a := by
  constructor
  · rintro ⟨pre, b, post, hl, hb⟩
    obtain ⟨rfl, rfl, -⟩ | ⟨post', -, hl⟩ := concat_split.mp hl
    · exact Or.inr hb
    · exact Or.inl ⟨pre, b, post', hl, hb⟩
  · rintro (⟨pre, b, post, hl, hb⟩ | ha)
    · exact ⟨pre, b, post ++ [a], concat_split.mpr (Or.inr ⟨post, rfl, hl⟩), hb⟩
    · exact ⟨l, a, [], rfl, ha⟩

/-- Events of which `P` says nothing can be added. -/
theorem Along.append_skip (h : Along P l) {new : List α} (hnew : ∀ a ∈ new, ∀ pre, P pre a) : Along P (l ++ new) := by
  induction new generalizing l with
  | nil => simpa using h
  | cons a new ih =>
    rw [List.append_cons]
    exact ih (along_concat.mpr ⟨h, hnew a (by simp) l⟩) fun b hb => hnew b (by simp [hb])

end SpeechlyPlugin.Lib
