import SpeechlyPlugin.Plugin.Tracking
import SpeechlyPlugin.Plugin.Keys

/-!
# Between two responses

A run of ticks, cut where `Tick` cuts it itself: it handles one response, or it ends and the next one begins.  Here the
state in the middle of a `Tick` can be spoken of.  The relation `Sim` holds of every key at every moment of such a run.
-/

namespace SpeechlyPlugin.Plugin

open Engine Lib USpeechly

/-- What happens next in a run of ticks. -/
inductive TickStep where
  /-- a response is read and handled -/
  | read (r : SLUResponse)
  /-- the rest of `Tick`; the next one begins -/
  | tickEnd
  deriving DecidableEq

/-- The object at some moment of a `Tick`, and what has been broadcast. -/
structure Reading where
  plugin : USpeechly
  locals : TickLocals
  broadcasts : List Broadcast

namespace Reading

/-- The first `Tick` begins. -/
def init (u : USpeechly) : Reading := ⟨u, .new, []⟩

variable (s : Reading)

def step : TickStep → Reading
  | .read r =>
    let (u, locals) := s.plugin.handleResponse s.locals r
    { s with plugin := u, locals := locals }
  | .tickEnd =>
    let (u, broadcasts) := s.plugin.endTick s.locals
    ⟨u, .new, s.broadcasts ++ broadcasts⟩

def run (steps : List TickStep) : Reading := steps.foldl step s

/-- What is stored for a key. -/
def stored (key : FString) : Option FSpeechlyResponse := s.plugin.responses.find key

/-- What the listener was told last about a key. -/
def sent (key : FString) : Option FSpeechlyResponse := lastResponse key s.broadcasts

variable {s} {steps : List TickStep} {x : TickStep} {key : FString} {r : SLUResponse} {rs : List SLUResponse}
  {rss : List (List SLUResponse)}

theorem run_append (a b : List TickStep) : s.run (a ++ b) = (s.run a).run b := List.foldl_append

theorem run_concat : s.run (steps ++ [x]) = (s.run steps).step x := by
  rw [run_append]
  rfl

/-! ## Runs of ticks -/

/-- One tick for each list, in steps. -/
def stepsOf (rss : List (List SLUResponse)) : List TickStep := rss.flatMap fun rs => rs.map .read ++ [.tickEnd]

theorem run_reads : s.run (rs.map .read) =
    { s with plugin := (s.plugin.handleAll s.locals rs).1, locals := (s.plugin.handleAll s.locals rs).2 } := by
  induction rs generalizing s with
  | nil => rfl
  | cons r rs ih =>
    show (s.step (.read r)).run (rs.map .read) = _
    rw [ih]
    rfl

theorem run_tick (h : s.locals = .new) : s.run (rs.map .read ++ [.tickEnd]) =
    ⟨(s.plugin.batch rs).1, .new, s.broadcasts ++ (s.plugin.batch rs).2⟩ := by
  rw [run_concat, run_reads, h]
  rfl

theorem run_stepsOf (h : s.locals = .new) :
    s.run (stepsOf rss) = ⟨(s.plugin.batches rss).1, .new, s.broadcasts ++ (s.plugin.batches rss).2⟩ := by
  induction rss generalizing s with
  | nil =>
    rw [← h]
    simp [stepsOf, run, batches]
  | cons rs rss ih =>
    have hcons : stepsOf (rs :: rss) = (rs.map .read ++ [.tickEnd]) ++ stepsOf rss := by
      simp [stepsOf]
    rw [hcons, run_append, run_tick h, ih rfl]
    simp [batches]

/-- **Ticks are such runs.** -/
theorem ticks_eq_run {u : USpeechly} (hu : u.Listening) (hlen : ∀ rs ∈ rss, rs.length ≤ 10) :
    u.ticks rss = .ok (((init u).run (stepsOf rss)).plugin, ((init u).run (stepsOf rss)).broadcasts) := by
  rw [ticks_eq hu hlen, run_stepsOf rfl]
  rfl

theorem locals_stepsOf {u : USpeechly} : ((init u).run (stepsOf rss)).locals = .new := by rw [run_stepsOf rfl]

/-- … and so is the tick after them. -/
theorem tick_eq_run {u : USpeechly} (hu : u.Listening) (hrs : rs.length ≤ 10) :
    let t := ((init u).run (stepsOf rss)).run (rs.map .read)
    (((init u).run (stepsOf rss)).plugin.deliver rs).tick =
      .ok ((t.step .tickEnd).plugin, (t.plugin.endTick t.locals).2, true) := by
  have hlisten : ((init u).run (stepsOf rss)).plugin.Listening := by
    rw [run_stepsOf rfl]
    exact hu.batches
  dsimp only
  rw [tick_deliver hlisten hrs, run_reads, locals_stepsOf]
  rfl

/-- The object while the responses are handled. -/
theorem handleAll_eq_run (h : s.locals = .new) : (s.plugin.handleAll .new rs).1 = (s.run (rs.map .read)).plugin := by
  rw [run_reads, h]

/-- The end of a tick takes the response away or leaves it as it is. -/
theorem stored_tickEnd_cases : (s.step .tickEnd).stored key = none ∨ (s.step .tickEnd).stored key = s.stored key := by
  show (s.locals.finishedContexts.keys.foldl removeContext s.plugin).responses.find key = none ∨
    (s.locals.finishedContexts.keys.foldl removeContext s.plugin).responses.find key = s.plugin.responses.find key
  generalize s.locals.finishedContexts.keys = contexts
  generalize s.plugin = u
  induction contexts generalizing u with
  | nil => exact Or.inr rfl
  | cons c contexts ih =>
    have hone : (u.removeContext c).responses.find key = none ∨
        (u.removeContext c).responses.find key = u.responses.find key := by
      simp only [removeContext]
      cases u.contextToKeys.find c with
      | none => exact Or.inr rfl
      | some keys =>
        simp only [foldl_remove]
        split
        · exact Or.inl rfl
        · exact Or.inr rfl
    rcases ih (u.removeContext c) with h | h
    · exact Or.inl h
    · rcases hone with h' | h'
      · exact Or.inl (h.trans h')
      · exact Or.inr (h.trans h')

/-! ## Every key at every moment -/

/-- The responses read so far. -/
def responsesOf (steps : List TickStep) : List SLUResponse :=
  steps.filterMap fun x =>
    match x with
    | .read r => some r
    | .tickEnd => none

theorem responsesOf_append (a b : List TickStep) : responsesOf (a ++ b) = responsesOf a ++ responsesOf b :=
  List.filterMap_append

@[simp] theorem responsesOf_reads : responsesOf (rs.map .read) = rs := by
  rw [responsesOf, List.filterMap_map]
  exact List.filterMap_some

theorem responsesOf_stepsOf : responsesOf (stepsOf rss) = rss.flatten := by
  induction rss with
  | nil => rfl
  | cons rs rss ih =>
    have hcons : stepsOf (rs :: rss) = rs.map .read ++ ([.tickEnd] ++ stepsOf rss) := by
      simp [stepsOf]
    rw [hcons, responsesOf_append, responsesOf_append, responsesOf_reads, ih, List.flatten_cons]
    rfl

/-- The set of a context is not empty, its keys are printed from the context, and responses have such keys. -/
structure Formed (u : USpeechly) : Prop where
  nonempty : ∀ c keys, u.contextToKeys.find c = some keys → keys.keys ≠ []
  printed : ∀ c keys, u.contextToKeys.find c = some keys →
    ∀ key ∈ keys.keys, ∃ (d : FString) (i : ℤ), d ≈ c ∧ 0 ≤ i ∧ key = d.printKey i
  stored : ∀ key, u.responses.contains key = true → ∃ (c : FString) (i : ℤ), 0 ≤ i ∧ key ≈ c.printKey i

/-- Fewer sets and fewer responses. -/
theorem Formed.mono {u v : USpeechly} (h : Formed u)
    (hctx : ∀ c keys, v.contextToKeys.find c = some keys → u.contextToKeys.find c = some keys)
    (hresp : ∀ key, v.responses.contains key = true → u.responses.contains key = true) : Formed v :=
  ⟨fun c keys hc => h.nonempty c keys (hctx c keys hc), fun c keys hc => h.printed c keys (hctx c keys hc),
    fun key hk => h.stored key (hresp key hk)⟩

theorem Formed.update {u : USpeechly} (h : Formed u) (locals : TickLocals) (hr : 0 ≤ r.segmentId)
    (f : FSpeechlyResponse → FSpeechlyResponse) : Formed (u.updateResponse locals r f).1 where
  nonempty c keys hc := by
    simp only [updateResponse, keyOfMessage, KeyMap.find_findOrAdd] at hc
    split at hc
    · cases hc
      exact KeySet.add_keys_ne_nil
    · exact h.nonempty c keys hc
  printed c keys hc key hkey := by
    simp only [updateResponse, keyOfMessage, KeyMap.find_findOrAdd] at hc
    split at hc
    · rename_i hctx
      cases hc
      rcases KeyMap.mem_keys_emplace hkey with rfl | hkey
      · exact ⟨_, _, hctx, hr, rfl⟩
      · cases hold : u.contextToKeys.find c with
        | none =>
          rw [hold] at hkey
          cases hkey
        | some old =>
          rw [hold] at hkey
          exact h.printed c old hold key hkey
    · exact h.printed c keys hc key hkey
  stored key hkey := by
    simp only [updateResponse, keyOfMessage, KeyMap.contains, KeyMap.find_findOrAdd] at hkey
    split at hkey
    · rename_i hk
      exact ⟨_, _, hr, Setoid.symm hk⟩
    · exact h.stored key hkey

/-- A `finished` makes a response final or leaves it as it is. -/
theorem find_finalizeKeys (u : USpeechly) (locals : TickLocals) (c key : FString) :
    (finalizeKeys u locals c).1.find key = u.responses.find key ∨
      (finalizeKeys u locals c).1.find key = (u.responses.find key).map finalize := by
  unfold finalizeKeys
  cases u.contextToKeys.find c with
  | none => exact Or.inl rfl
  | some keys =>
    rw [(foldl_finalizeKey key keys.keys u.responses locals.changedKeys).1]
    split
    · exact Or.inr rfl
    · exact Or.inl rfl

theorem contains_finalizeKeys (u : USpeechly) (locals : TickLocals) (c key : FString) :
    (finalizeKeys u locals c).1.contains key = u.responses.contains key := by
  rcases find_finalizeKeys u locals c key with h | h <;> simp only [KeyMap.contains, h, Option.isSome_map]

theorem Formed.handle {u : USpeechly} (h : Formed u) (locals : TickLocals) (hr : 0 ≤ r.segmentId) :
    Formed (u.handleResponse locals r).1 := by
  cases hf : updateOf r.payload with
  | some f =>
    rw [handleResponse_update hf]
    exact h.update locals hr f
  | none =>
    unfold handleResponse
    cases hp : r.payload <;> simp only [hp, updateOf, reduceCtorEq] at hf
    case finished f =>
      obtain ⟨hresp, hctx, -, -⟩ := finishContext_fields u locals (FString.ofCStr r.audioContext) f
      refine h.mono (fun c keys hc => by rwa [hctx] at hc) fun key hk => ?_
      rwa [hresp, contains_finalizeKeys] at hk
    all_goals exact ⟨h.nonempty, h.printed, h.stored⟩

theorem Formed.removeContext {u : USpeechly} (h : Formed u) (c : FString) : Formed (u.removeContext c) := by
  refine h.mono (fun d keys hd => ?_) fun key hk => ?_
  · simp only [USpeechly.removeContext, KeyMap.find_remove] at hd
    split at hd
    · cases hd
    · exact hd
  · unfold USpeechly.removeContext at hk
    cases hc : u.contextToKeys.find c with
    | none =>
      rw [hc] at hk
      exact hk
    | some keys =>
      simp only [hc, KeyMap.contains, foldl_remove] at hk
      split at hk
      · cases hk
      · exact hk

theorem Formed.removeContexts {u : USpeechly} (h : Formed u) (contexts : List FString) :
    Formed (contexts.foldl USpeechly.removeContext u) := by
  induction contexts generalizing u with
  | nil => exact h
  | cons c contexts ih => exact ih (h.removeContext c)

theorem Formed.endTick {u : USpeechly} (h : Formed u) (locals : TickLocals) : Formed (u.endTick locals).1 :=
  h.removeContexts locals.finishedContexts.keys

/-- The maps, the sets of the tick and the broadcasts agree on every key. -/
structure Coherent (s : Reading) : Prop where
  formed : Formed s.plugin
  sim : ∀ (c : FString) (i : ℤ), 0 ≤ i →
    Sim c (c.printKey i) (s.stored (c.printKey i)) (s.sent (c.printKey i)) s.plugin s.locals

theorem coherent_init (u : USpeechly) (languageCode : StdString) : (init (u.connect languageCode)).Coherent where
  formed := ⟨by simp [init, connect], by simp [init, connect], by simp [init, connect, KeyMap.contains]⟩
  sim c i _ := ⟨⟨rfl, by simp [init, connect, stored]⟩, fun _ => rfl, by simp [init, connect, stored]⟩

/-- Messages with the key of a segment belong to its context. -/
theorem context_of_key {c : FString} {i : ℤ} (hr : 0 ≤ r.segmentId) (hi : 0 ≤ i) (hk : keyOf r ≈ c.printKey i) :
    FString.ofCStr r.audioContext ≈ c := ((printKey_equiv_iff hr hi).mp hk).1

/-- What is stored for a key after one more response. -/
theorem Coherent.stored_read (h : s.Coherent) (hr : 0 ≤ r.segmentId) {c : FString} {i : ℤ} (hi : 0 ≤ i) :
    (s.step (.read r)).stored (c.printKey i) = track c (c.printKey i) (s.stored (c.printKey i)) r :=
  ((h.sim c i hi).handle fun _ => context_of_key hr hi).value

/-- What is stored for a key after the end of the tick. -/
theorem Coherent.stored_tickEnd (h : s.Coherent) {c : FString} {i : ℤ} (hi : 0 ≤ i) :
    (s.step .tickEnd).stored (c.printKey i) =
      if s.locals.finishedContexts.contains c = true then none else s.stored (c.printKey i) :=
  (h.sim c i hi).endTick.value

/-- The end of the tick has broadcast what was stored. -/
theorem Coherent.sent_tickEnd (h : s.Coherent) {c : FString} {i : ℤ} (hi : 0 ≤ i) :
    (s.step .tickEnd).sent (c.printKey i) = (s.stored (c.printKey i)).or (s.sent (c.printKey i)) := by
  rw [← (h.sim c i hi).lastResponse_endTick]
  exact lastResponse_append _ _ _

/-- **Every step.** -/
theorem Coherent.step (h : s.Coherent) (hx : ∀ r, x = .read r → 0 ≤ r.segmentId) : (s.step x).Coherent := by
  cases x with
  | read r =>
    have hr := hx r rfl
    refine ⟨h.formed.handle _ hr, fun c i hi => ?_⟩
    rw [h.stored_read hr hi]
    exact (h.sim c i hi).handle fun _ => context_of_key hr hi
  | tickEnd =>
    refine ⟨h.formed.endTick _, fun c i hi => ?_⟩
    rw [h.stored_tickEnd hi, h.sent_tickEnd hi]
    exact (h.sim c i hi).endTick

theorem Coherent.run (h : s.Coherent) (hsteps : ∀ r ∈ responsesOf steps, 0 ≤ r.segmentId) : (s.run steps).Coherent := by
  induction steps generalizing s with
  | nil => exact h
  | cons x steps ih =>
    refine ih (h.step fun r hr => hsteps r ?_) fun r hr => hsteps r ?_
    · simp [responsesOf, hr]
    · rw [← List.singleton_append, responsesOf_append]
      exact List.mem_append_right _ hr

theorem Coherent.reads (h : s.Coherent) (hseg : ∀ r ∈ rs, 0 ≤ r.segmentId) : (s.run (rs.map .read)).Coherent :=
  h.run fun r hr => hseg r (by rwa [responsesOf_reads] at hr)

theorem coherent_ticks (u : USpeechly) (languageCode : StdString) (hseg : ∀ r ∈ rss.flatten, 0 ≤ r.segmentId) :
    ((init (u.connect languageCode)).run (stepsOf rss)).Coherent :=
  (coherent_init u languageCode).run fun r hr => hseg r (by rwa [responsesOf_stepsOf] at hr)

/-- What is stored for a key after some responses. -/
theorem Coherent.stored_reads (h : s.Coherent) (hseg : ∀ r ∈ rs, 0 ≤ r.segmentId) {c : FString} {i : ℤ} (hi : 0 ≤ i) :
    (s.run (rs.map .read)).stored (c.printKey i) = rs.foldl (track c (c.printKey i)) (s.stored (c.printKey i)) := by
  induction rs generalizing s with
  | nil => rfl
  | cons r rs ih =>
    have hr := hseg r (by simp)
    have hnext : (s.step (.read r)).Coherent := h.step fun x hx => by cases hx; exact hr
    rw [List.foldl_cons, ← h.stored_read hr hi]
    exact ih hnext fun x hx => hseg x (by simp [hx])

/-- The contexts the tick has read a `finished` of. -/
theorem finished_reads {c : FString} : (s.run (rs.map .read)).locals.finishedContexts.contains c = true ↔
    s.locals.finishedContexts.contains c = true ∨ ∃ r ∈ rs, Finishes c r := by
  induction rs generalizing s with
  | nil => simp [run]
  | cons r rs ih =>
    show ((s.step (.read r)).run (rs.map .read)).locals.finishedContexts.contains c = true ↔ _
    rw [ih]
    simp only [List.mem_cons, exists_eq_or_imp, ← or_assoc]
    exact or_congr_left contains_finishedContexts

/-- The contexts a tick reads a `finished` of, when it begins. -/
theorem finished_tick {c : FString} (h : s.locals = .new) :
    (s.run (rs.map .read)).locals.finishedContexts.contains c = true ↔ ∃ r ∈ rs, Finishes c r := by
  rw [finished_reads, h]
  exact or_iff_right Bool.false_ne_true

end Reading

end SpeechlyPlugin.Plugin
