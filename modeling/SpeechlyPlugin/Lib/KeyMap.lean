import Mathlib.Data.List.Basic
import Mathlib.Data.List.Pairwise
import Mathlib.Data.Setoid.Basic

/-!
# Maps and sets with keys up to an equivalence

A map whose keys are compared by a decidable equivalence: its entries have pairwise inequivalent keys and stand in the
order of insertion.  `emplace` replaces the entry of an equivalent key, key and value; `findOrAdd` keeps the key that is
there.  A set is a map to the unit type.  The lemmas say what `find` sees after each operation.
-/

namespace SpeechlyPlugin.Lib

universe u v

/-- A map from keys up to `≈`. -/
structure KeyMap (κ : Type u) (υ : Type v) [Setoid κ] where
  entries : List (κ × υ)
  distinct : entries.Pairwise fun a b => ¬a.1 ≈ b.1

namespace KeyMap

variable {κ : Type u} {υ : Type v} [Setoid κ] {m : KeyMap κ υ} {k k' : κ} {v : υ} {f : υ → υ} {e : κ × υ}

def empty : KeyMap κ υ := ⟨[], List.Pairwise.nil⟩

instance : Inhabited (KeyMap κ υ) := ⟨empty⟩

/-- The keys, in the order of insertion. -/
def keys (m : KeyMap κ υ) : List κ := m.entries.map Prod.fst

theorem keys_distinct (m : KeyMap κ υ) : m.keys.Pairwise fun a b => ¬a ≈ b := List.pairwise_map.mpr m.distinct

theorem ext_entries {m' : KeyMap κ υ} (h : m.entries = m'.entries) : m = m' := by
  cases m
  cases h
  rfl

/-- Entries with equivalent keys are the same. -/
theorem eq_of_equiv {e' : κ × υ} (he : e ∈ m.entries) (he' : e' ∈ m.entries) (h : e.1 ≈ e'.1) : e = e' := by
  have hsymm : Std.Symm fun a b : κ × υ => ¬a.1 ≈ b.1 := ⟨fun _ _ hab hba => hab (Setoid.symm hba)⟩
  by_contra hne
  exact m.distinct.forall he he' hne h

variable [DecidableRel ((· ≈ ·) : κ → κ → Prop)]

/-- The value of the key `k`. -/
def find (m : KeyMap κ υ) (k : κ) : Option υ := (m.entries.find? fun e => e.1 ≈ k).map Prod.snd

def contains (m : KeyMap κ υ) (k : κ) : Bool := (m.find k).isSome

@[simp] theorem find_empty : (empty : KeyMap κ υ).find k = none := rfl

theorem find_congr (h : k ≈ k') : m.find k = m.find k' := by
  have heq : (fun e : κ × υ => decide (e.1 ≈ k)) = fun e => decide (e.1 ≈ k') := by
    funext e
    exact decide_eq_decide.mpr ⟨fun he => Setoid.trans he h, fun he => Setoid.trans he (Setoid.symm h)⟩
  simp only [find, heq]

/-! ## Operations -/

/-- Changes of entries that keep every key where it is, up to `≈`. -/
def mapEntries (m : KeyMap κ υ) (g : κ × υ → κ × υ) (hg : ∀ e, (g e).1 ≈ e.1) : KeyMap κ υ where
  entries := m.entries.map g
  distinct := by
    refine List.pairwise_map.mpr (m.distinct.imp fun {a b} hab h => hab ?_)
    exact Setoid.trans (Setoid.symm (hg a)) (Setoid.trans h (hg b))

/-- A new entry at the end. -/
def push (m : KeyMap κ υ) (k : κ) (v : υ) (h : m.contains k = false) : KeyMap κ υ where
  entries := m.entries ++ [(k, v)]
  distinct := by
    rw [List.pairwise_append]
    refine ⟨m.distinct, List.pairwise_singleton _ _, fun a ha b hb e => ?_⟩
    rw [List.mem_singleton] at hb
    subst hb
    have hnone : m.find k = none := by simpa [contains] using h
    simp only [find, Option.map_eq_none_iff, List.find?_eq_none, decide_eq_true_eq] at hnone
    exact hnone a ha e

/-- The entry with an equivalent key is replaced in place, or a new one added. -/
def emplace (m : KeyMap κ υ) (k : κ) (v : υ) : KeyMap κ υ :=
  if h : m.contains k then
    m.mapEntries (fun e => if e.1 ≈ k then (k, v) else e) fun e => by
      split
      · exact Setoid.symm ‹_›
      · exact Setoid.refl _
  else m.push k v (by simpa using h)

/-- The value at `k` is changed through a reference. -/
def modify (m : KeyMap κ υ) (k : κ) (f : υ → υ) : KeyMap κ υ :=
  m.mapEntries (fun e => if e.1 ≈ k then (e.1, f e.2) else e) fun e => by split <;> exact Setoid.refl _

/-- The value at `k`, a default one if there is none, is changed through a reference. -/
def findOrAdd [Inhabited υ] (m : KeyMap κ υ) (k : κ) (f : υ → υ) : KeyMap κ υ :=
  if h : m.contains k then m.modify k f else m.push k (f default) (by simpa using h)

def remove (m : KeyMap κ υ) (k : κ) : KeyMap κ υ where
  entries := m.entries.filter fun e => ¬e.1 ≈ k
  distinct := m.distinct.filter _

/-! ## What `find` sees -/

theorem find_mapEntries {g : κ × υ → κ × υ} (hg : ∀ e, (g e).1 ≈ e.1) :
    (m.mapEntries g hg).find k = (m.entries.find? fun e => e.1 ≈ k).map fun e => (g e).2 := by
  have hpred : ((fun e : κ × υ => decide (e.1 ≈ k)) ∘ g) = fun e => decide (e.1 ≈ k) := by
    funext e
    exact decide_eq_decide.mpr ⟨Setoid.trans (Setoid.symm (hg e)), Setoid.trans (hg e)⟩
  simp only [find, mapEntries, List.find?_map, hpred, Option.map_map]
  rfl

/-- A change of the value at `k`. -/
theorem find_mapEntries_ite {g : κ × υ → κ × υ} (hg : ∀ e, (g e).1 ≈ e.1)
    (hvalue : ∀ e, (g e).2 = if e.1 ≈ k then f e.2 else e.2) :
    (m.mapEntries g hg).find k' = if k ≈ k' then (m.find k').map f else m.find k' := by
  rw [find_mapEntries]
  cases hfind : m.entries.find? fun e => e.1 ≈ k' with
  | none => simp [find, hfind]
  | some e =>
    have he : e.1 ≈ k' := by simpa using List.find?_some hfind
    have hiff : e.1 ≈ k ↔ k ≈ k' :=
      ⟨fun h => Setoid.trans (Setoid.symm h) he, fun h => Setoid.trans he (Setoid.symm h)⟩
    simp only [find, hfind, Option.map_some, hvalue, hiff]
    split <;> rfl

theorem find_push (h : m.contains k = false) : (m.push k v h).find k' = if k ≈ k' then some v else m.find k' := by
  have hnone : m.find k = none := by simpa [contains] using h
  simp only [push, find, List.find?_append, List.find?_singleton]
  by_cases hk : k ≈ k'
  · have hn : m.find k' = none := by rw [← find_congr hk, hnone]
    rw [find, Option.map_eq_none_iff] at hn
    simp [hn, hk]
  · simp [hk]

theorem find_modify : (m.modify k f).find k' = if k ≈ k' then (m.find k').map f else m.find k' :=
  find_mapEntries_ite _ fun _ => apply_ite Prod.snd _ _ _

theorem find_emplace : (m.emplace k v).find k' = if k ≈ k' then some v else m.find k' := by
  rw [emplace]
  split
  · rename_i hc
    rw [find_mapEntries_ite (k := k) (f := fun _ => v) _ fun _ => apply_ite Prod.snd _ _ _]
    split
    · rename_i hk
      rw [contains, find_congr hk] at hc
      obtain ⟨w, hw⟩ := Option.isSome_iff_exists.mp hc
      rw [hw]
      rfl
    · rfl
  · exact find_push _

theorem find_findOrAdd [Inhabited υ] :
    (m.findOrAdd k f).find k' = if k ≈ k' then some (f ((m.find k').getD default)) else m.find k' := by
  rw [findOrAdd]
  split
  · rename_i hc
    rw [find_modify]
    split
    · rename_i hk
      rw [contains, find_congr hk] at hc
      obtain ⟨w, hw⟩ := Option.isSome_iff_exists.mp hc
      rw [hw]
      rfl
    · rfl
  · rename_i hc
    rw [find_push]
    split
    · rename_i hk
      have hnone : m.find k' = none := by
        rw [← find_congr hk]
        simpa [contains] using hc
      rw [hnone]
      rfl
    · rfl

theorem find_remove : (m.remove k).find k' = if k ≈ k' then none else m.find k' := by
  simp only [find, remove, List.find?_filter, decide_eq_true_eq]
  by_cases hk : k ≈ k'
  · rw [if_pos hk, Option.map_eq_none_iff, List.find?_eq_none]
    intro e _ h
    rw [decide_eq_true_eq] at h
    exact h.1 (Setoid.trans h.2 (Setoid.symm hk))
  · rw [if_neg hk]
    congr 2
    funext e
    refine decide_eq_decide.mpr ⟨And.right, fun he => ⟨fun h => hk ?_, he⟩⟩
    exact Setoid.trans (Setoid.symm h) he

/-! ## Keys -/

theorem contains_iff : m.contains k = true ↔ ∃ x ∈ m.keys, x ≈ k := by
  simp [contains, find, keys, List.find?_isSome]

theorem contains_congr (h : k ≈ k') : m.contains k = m.contains k' := by rw [contains, contains, find_congr h]

/-! ## Entries -/

/-- The entries of a map after `emplace` are some of those it had, and the new one. -/
theorem mem_entries_emplace (h : e ∈ (m.emplace k v).entries) : e = (k, v) ∨ e ∈ m.entries := by
  rw [emplace] at h
  split at h
  · obtain ⟨e₀, he₀, rfl⟩ := List.mem_map.mp h
    split
    · exact Or.inl rfl
    · exact Or.inr he₀
  · rcases List.mem_append.mp h with h | h
    · exact Or.inr h
    · exact Or.inl (List.mem_singleton.mp h)

theorem mem_keys_emplace (h : k' ∈ (m.emplace k v).keys) : k' = k ∨ k' ∈ m.keys := by
  obtain ⟨e, he, rfl⟩ := List.mem_map.mp h
  rcases mem_entries_emplace he with rfl | he
  · exact Or.inl rfl
  · exact Or.inr (List.mem_map_of_mem he)

/-- The new entry is there, key and value. -/
theorem mem_emplace_self : (k, v) ∈ (m.emplace k v).entries := by
  rw [emplace]
  split
  · rename_i hc
    obtain ⟨x, hx, hxk⟩ := contains_iff.mp hc
    obtain ⟨e, he, rfl⟩ := List.mem_map.mp hx
    exact List.mem_map.mpr ⟨e, he, if_pos hxk⟩
  · exact List.mem_append_right _ (List.mem_singleton_self _)

/-- `emplace` changes nothing exactly when the entry is there as it is. -/
theorem emplace_eq_self_iff : m.emplace k v = m ↔ (k, v) ∈ m.entries := by
  constructor
  · intro h
    have hmem : (k, v) ∈ (m.emplace k v).entries := mem_emplace_self
    rwa [h] at hmem
  · intro hmem
    have hfind : m.contains k = true := contains_iff.mpr ⟨k, List.mem_map_of_mem hmem, Setoid.refl k⟩
    rw [emplace, dif_pos hfind]
    refine ext_entries ?_
    show m.entries.map (fun e => if e.1 ≈ k then (k, v) else e) = m.entries
    refine (List.map_congr_left fun e he => ?_).trans (List.map_id _)
    split
    · exact (eq_of_equiv he hmem ‹_›).symm
    · rfl

/-- There is one entry with the key, or none. -/
theorem filterMap_entries : (m.entries.filterMap fun e => if e.1 ≈ k then some e.2 else none) = (m.find k).toList := by
  obtain ⟨l, hdistinct⟩ := m
  show _ = ((l.find? fun e => e.1 ≈ k).map Prod.snd).toList
  induction l with
  | nil => rfl
  | cons e l ih =>
    obtain ⟨hhead, htail⟩ := List.pairwise_cons.mp hdistinct
    by_cases he : e.1 ≈ k
    · have hrest : (l.filterMap fun e => if e.1 ≈ k then some e.2 else none) = [] := by
        refine List.filterMap_eq_nil_iff.mpr fun e' he' => if_neg fun hk => hhead e' he' ?_
        exact Setoid.trans he (Setoid.symm hk)
      simp [he, hrest]
    · simpa [he] using ih htail

end KeyMap

/-! ## Sets -/

/-- A set of keys up to `≈`, in the order of insertion. -/
abbrev KeySet (κ : Type u) [Setoid κ] := KeyMap κ Unit

namespace KeySet

variable {κ : Type u} [Setoid κ] [DecidableRel ((· ≈ ·) : κ → κ → Prop)] {s : KeySet κ} {k k' : κ}

/-- `k` is added, in the place of an equivalent key if there is one. -/
def add (s : KeySet κ) (k : κ) : KeySet κ := s.emplace k ()

theorem contains_add : (s.add k).contains k' = true ↔ k ≈ k' ∨ s.contains k' = true := by
  simp only [add, KeyMap.contains, KeyMap.find_emplace]
  split
  · rename_i hk
    simp [hk]
  · rename_i hk
    simp [hk]

theorem add_keys_ne_nil : (s.add k).keys ≠ [] := by
  intro hnil
  obtain ⟨x, hx, -⟩ := KeyMap.contains_iff.mp ((contains_add (s := s)).mpr (Or.inl (Setoid.refl k)))
  rw [hnil] at hx
  cases hx

@[simp] theorem contains_empty : (KeyMap.empty : KeySet κ).contains k = false := rfl

end KeySet

end SpeechlyPlugin.Lib
