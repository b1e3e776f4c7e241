import Mathlib.Algebra.Group.Nat.Defs
import Mathlib.Data.List.Nodup
import Mathlib.Data.List.Perm.Basic

/-!
# Slots and tags

Asynchronous operations of several kinds are posted one at a time each: every kind has a *slot*, which is busy from the
post of an operation until its completion is taken.  The operations are told apart by tags drawn from one counter, and
each slot remembers the tag it was last given.  `Slots.Ok` is the discipline; it is kept by posting into a free slot,
by completing an operation and by taking a completion, and it lets a slot be recognised by comparing tags alone.
-/

namespace SpeechlyPlugin.Lib

universe u

/-- A posted operation whose completion has not been taken; `done` is its outcome once it has completed. -/
structure Op (κ : Type u) where
  tag : ℕ
  kind : κ
  done : Option Bool
  deriving DecidableEq, Repr

/-- The slots of a poster, the operations in flight and the tags of all operations ever posted. -/
structure Slots (κ : Type u) where
  seq : ℕ
  last : κ → ℕ
  busy : κ → Bool
  ops : List (Op κ)
  posted : List ℕ

namespace Slots

variable {κ : Type u} {x : Slots κ}

/-- Every operation has a tag of its own: the tags are handed out one after the other. -/
structure Tagged (x : Slots κ) : Prop where
  posted_eq : x.posted = List.range' 1 x.seq
  ops_posted : ∀ p ∈ x.ops, p.tag ∈ x.posted
  tags_nodup : (x.ops.map Op.tag).Nodup

/-- The slot discipline. -/
structure Ok (x : Slots κ) : Prop extends Tagged x where
  slot : ∀ p ∈ x.ops, x.busy p.kind = true ∧ p.tag = x.last p.kind
  filled : ∀ k, x.busy k = true → ∃ p ∈ x.ops, p.kind = k
  last_le : ∀ k, x.last k ≤ x.seq
  last_ne : ∀ j k, x.last j = x.last k → j = k ∨ x.last k = 0

/-! ## What the discipline says -/

theorem Tagged.posted_le (h : x.Tagged) {t : ℕ} (ht : t ∈ x.posted) : 0 < t ∧ t ≤ x.seq := by
  rw [h.posted_eq, List.mem_range'_1] at ht
  omega

theorem Tagged.posted_nodup (h : x.Tagged) : x.posted.Nodup := by
  rw [h.posted_eq]
  exact List.nodup_range'

/-- The slots themselves do not matter for the tags. -/
theorem Tagged.congr (h : x.Tagged) {y : Slots κ} (hseq : y.seq = x.seq) (hops : y.ops = x.ops)
    (hposted : y.posted = x.posted) : y.Tagged where
  posted_eq := by rw [hposted, hseq, h.posted_eq]
  ops_posted := by rw [hops, hposted]; exact h.ops_posted
  tags_nodup := by rw [hops]; exact h.tags_nodup

/-- The tags stay distinct as machine words, as long as fewer of them are handed out than there are words. -/
theorem Tagged.words_nodup (h : x.Tagged) {w : ℕ} (hw : x.seq < 2 ^ w) :
    (x.posted.map (BitVec.ofNat w)).Nodup := by
  refine h.posted_nodup.map_on fun s hs t ht e => ?_
  have hs := h.posted_le hs
  have ht := h.posted_le ht
  have e := congrArg BitVec.toNat e
  rwa [BitVec.toNat_ofNat, BitVec.toNat_ofNat, Nat.mod_eq_of_lt (by omega), Nat.mod_eq_of_lt (by omega)] at e

/-- Two operations in flight with one tag, or of one kind, are the same. -/
theorem Tagged.eq_of_tag (h : x.Tagged) {p q : Op κ} (hp : p ∈ x.ops) (hq : q ∈ x.ops) (e : p.tag = q.tag) : p = q :=
  List.inj_on_of_nodup_map h.tags_nodup hp hq e

theorem Ok.eq_of_kind (h : x.Ok) {p q : Op κ} (hp : p ∈ x.ops) (hq : q ∈ x.ops) (e : p.kind = q.kind) : p = q :=
  h.eq_of_tag hp hq (by rw [(h.slot p hp).2, (h.slot q hq).2, e])

theorem Tagged.nodup (h : x.Tagged) : x.ops.Nodup := h.tags_nodup.of_map

/-- **Tags identify slots.**  The tag of an operation in flight is the last tag of its own kind only. -/
theorem Ok.tag_eq_last (h : x.Ok) {p : Op κ} (hp : p ∈ x.ops) (k : κ) : p.tag = x.last k ↔ p.kind = k := by
  have ht := (h.slot p hp).2
  constructor
  · intro e
    rw [ht] at e
    have hpos := (h.posted_le (h.ops_posted p hp)).1
    rcases h.last_ne _ _ e with hk | h0
    · exact hk
    · omega
  · rintro rfl
    exact ht

theorem Ok.busy_iff (h : x.Ok) (k : κ) : x.busy k = true ↔ ∃ p ∈ x.ops, p.kind = k ∧ p.tag = x.last k := by
  constructor
  · intro hk
    obtain ⟨p, hp, rfl⟩ := h.filled k hk
    exact ⟨p, hp, rfl, (h.slot p hp).2⟩
  · rintro ⟨p, hp, rfl, -⟩
    exact (h.slot p hp).1

/-! ## What keeps it -/

/-- A tag is handed out to an operation without a slot, which is not recorded. -/
def skip (x : Slots κ) : Slots κ := { x with seq := x.seq + 1, posted := x.posted ++ [x.seq + 1] }

theorem Ok.skip (h : x.Ok) : x.skip.Ok where
  posted_eq := by simp only [Slots.skip, h.posted_eq, List.range'_1_concat, Nat.add_comm 1]
  ops_posted p hp := List.mem_append_left _ (h.ops_posted p hp)
  tags_nodup := h.tags_nodup
  slot := h.slot
  filled := h.filled
  last_le k := Nat.le_succ_of_le (h.last_le k)
  last_ne := h.last_ne

variable [DecidableEq κ]

/-- An operation is posted into the slot of its kind, with the next tag. -/
def post (x : Slots κ) (k : κ) : Slots κ where
  seq := x.seq + 1
  last := Function.update x.last k (x.seq + 1)
  busy := Function.update x.busy k true
  ops := x.ops ++ [⟨x.seq + 1, k, none⟩]
  posted := x.posted ++ [x.seq + 1]

/-- The operation `p` completes with the outcome `ok`. -/
def complete (x : Slots κ) (p : Op κ) (ok : Bool) : Slots κ :=
  { x with ops := x.ops.map fun q => if q = p then { q with done := some ok } else q }

/-- The completion of `p` is taken, and its slot is free again. -/
def take (x : Slots κ) (p : Op κ) : Slots κ :=
  { x with ops := x.ops.erase p, busy := Function.update x.busy p.kind false }

theorem Tagged.post (h : x.Tagged) (k : κ) : (x.post k).Tagged where
  posted_eq := by
    simp only [Slots.post, h.posted_eq, List.range'_1_concat, Nat.add_comm 1]
  ops_posted p hp := by
    simp only [Slots.post, List.mem_append, List.mem_singleton] at hp ⊢
    rcases hp with hp | rfl
    · exact Or.inl (h.ops_posted p hp)
    · exact Or.inr rfl
  tags_nodup := by
    simp only [Slots.post, List.map_append, List.map_cons, List.map_nil]
    refine List.Nodup.append h.tags_nodup (List.nodup_singleton _) ?_
    intro t ht ht'
    obtain ⟨p, hp, rfl⟩ := List.mem_map.mp ht
    have := h.posted_le (h.ops_posted p hp)
    rw [List.mem_singleton] at ht'
    omega

theorem Ok.post (h : x.Ok) {k : κ} (hk : x.busy k = false) : (x.post k).Ok where
  toTagged := h.toTagged.post k
  slot p hp := by
    simp only [Slots.post, List.mem_append, List.mem_singleton] at hp ⊢
    rcases hp with hp | rfl
    · -- an operation already in flight is not of the kind `k`, whose slot was free
      obtain ⟨hb, ht⟩ := h.slot p hp
      have hne : p.kind ≠ k := fun e => by rw [e, hk] at hb; cases hb
      rw [Function.update_of_ne hne, Function.update_of_ne hne]
      exact ⟨hb, ht⟩
    · simp
  filled j hj := by
    simp only [Slots.post] at hj ⊢
    by_cases e : j = k
    · exact ⟨_, List.mem_append_right _ (List.mem_singleton_self _), e.symm⟩
    · rw [Function.update_of_ne e] at hj
      obtain ⟨p, hp, rfl⟩ := h.filled j hj
      exact ⟨p, List.mem_append_left _ hp, rfl⟩
  last_le j := by
    simp only [Slots.post, Function.update_apply]
    have := h.last_le j
    split <;> omega
  last_ne i j := by
    simp only [Slots.post, Function.update_apply]
    have hi := h.last_le i
    have hj := h.last_le j
    have hij := h.last_ne i j
    split <;> split
    · rename_i e1 e2; exact fun _ => Or.inl (e1.trans e2.symm)
    · intro; omega
    · intro; omega
    · exact hij

theorem mem_complete {p q : Op κ} {ok : Bool} (hq : q ∈ (x.complete p ok).ops) :
    ∃ q' ∈ x.ops, q.tag = q'.tag ∧ q.kind = q'.kind := by
  obtain ⟨q', hq', rfl⟩ := List.mem_map.mp hq
  refine ⟨q', hq', ?_⟩
  split <;> exact ⟨rfl, rfl⟩

theorem Tagged.complete (h : x.Tagged) (p : Op κ) (ok : Bool) : (x.complete p ok).Tagged where
  posted_eq := h.posted_eq
  ops_posted q hq := by
    obtain ⟨q', hq', e, -⟩ := mem_complete hq
    rw [e]
    exact h.ops_posted q' hq'
  tags_nodup := by
    have htag : (x.complete p ok).ops.map Op.tag = x.ops.map Op.tag := by
      simp only [Slots.complete, List.map_map]
      refine List.map_congr_left fun q _ => ?_
      simp only [Function.comp]
      split <;> rfl
    rw [htag]
    exact h.tags_nodup

theorem Ok.complete (h : x.Ok) (p : Op κ) (ok : Bool) : (x.complete p ok).Ok where
  toTagged := h.toTagged.complete p ok
  slot q hq := by
    obtain ⟨q', hq', e1, e2⟩ := mem_complete hq
    rw [e1, e2]
    exact h.slot q' hq'
  filled k hk := by
    obtain ⟨q, hq, rfl⟩ := h.filled k hk
    refine ⟨_, List.mem_map.mpr ⟨q, hq, rfl⟩, ?_⟩
    split <;> rfl
  last_le := h.last_le
  last_ne := h.last_ne

theorem Tagged.take (h : x.Tagged) (p : Op κ) : (x.take p).Tagged where
  posted_eq := h.posted_eq
  ops_posted q hq := h.ops_posted q (List.mem_of_mem_erase hq)
  tags_nodup := h.tags_nodup.sublist (List.Sublist.map _ List.erase_sublist)

theorem Ok.take (h : x.Ok) {p : Op κ} (hp : p ∈ x.ops) : (x.take p).Ok where
  toTagged := h.toTagged.take p
  slot q hq := by
    -- what is left is of another kind, since each kind has one operation
    obtain ⟨hne, hq'⟩ := h.nodup.mem_erase_iff.mp hq
    have hkind : q.kind ≠ p.kind := fun e => hne (h.eq_of_kind hq' hp e)
    simp only [Slots.take, Function.update_of_ne hkind]
    exact h.slot q hq'
  filled k hk := by
    simp only [Slots.take] at hk ⊢
    by_cases e : k = p.kind
    · rw [e, Function.update_self] at hk
      cases hk
    · rw [Function.update_of_ne e] at hk
      obtain ⟨q, hq, rfl⟩ := h.filled k hk
      exact ⟨q, h.nodup.mem_erase_iff.mpr ⟨fun hqp => e (by rw [hqp]), hq⟩, rfl⟩
  last_le := h.last_le
  last_ne := h.last_ne

/-- **One at a time.** -/
theorem Ok.filter_length_le (h : x.Ok) (k : κ) : (x.ops.filter fun p => p.kind = k).length ≤ 1 := by
  by_contra hlt
  obtain ⟨a, b, l, hl⟩ : ∃ a b l, x.ops.filter (fun p => p.kind = k) = a :: b :: l := by
    rcases hf : x.ops.filter (fun p => p.kind = k) with _ | ⟨a, _ | ⟨b, l⟩⟩
    · simp [hf] at hlt
    · simp [hf] at hlt
    · exact ⟨a, b, l, hf⟩
  have hnd : (a :: b :: l).Nodup := hl ▸ h.nodup.filter _
  have ha : a ∈ x.ops.filter (fun p => p.kind = k) := by rw [hl]; simp
  have hb : b ∈ x.ops.filter (fun p => p.kind = k) := by rw [hl]; simp
  rw [List.mem_filter, decide_eq_true_eq] at ha hb
  have hab := h.eq_of_kind ha.1 hb.1 (ha.2.trans hb.2.symm)
  simp [hab] at hnd

end Slots

end SpeechlyPlugin.Lib
