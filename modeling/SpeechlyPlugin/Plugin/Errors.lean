import SpeechlyPlugin.Plugin.Listener

/-!
# The errors that are told

A `finished` may carry an error.  `Tick` keeps the last one of each context and broadcasts it after the results; the error of
the client is broadcast by the `Tick` that finds the connection lost, which is the last one.
-/

namespace SpeechlyPlugin.Plugin

open Engine Lib Client Recorder USpeechly Reading

section

variable {c : FString} {u : USpeechly} {locals : TickLocals} {r : SLUResponse} {rs : List SLUResponse}
  {rss : List (List SLUResponse)}

/-- The error of a response about a context. -/
def errorIn (c : FString) (r : SLUResponse) : Option FString :=
  match r.payload with
  | .finished f => if FString.ofCStr r.audioContext ≈ c then f.error.map fun e => FString.ofCStr e.message else none
  | _ => none

/-- The errors about a context. -/
def errorsIn (c : FString) (rs : List SLUResponse) : List FString := rs.filterMap (errorIn c)

/-- What the listener has been told of them. -/
def errorsTold (c : FString) (broadcasts : List Broadcast) : List FString :=
  broadcasts.filterMap fun b =>
    match b with
    | .error context error => if context ≈ c then some error else none
    | .response _ _ => none

theorem errorsTold_append (a b : List Broadcast) : errorsTold c (a ++ b) = errorsTold c a ++ errorsTold c b :=
  List.filterMap_append

theorem errorsIn_append (a b : List SLUResponse) : errorsIn c (a ++ b) = errorsIn c a ++ errorsIn c b :=
  List.filterMap_append

theorem errorsIn_concat : errorsIn c (rs ++ [r]) = errorsIn c rs ++ (errorIn c r).toList := by
  rw [errorsIn_append]
  cases h : errorIn c r <;> simp [errorsIn, h]

theorem finishes_of_errorIn {e : FString} (h : errorIn c r = some e) : Finishes c r := by
  unfold errorIn at h
  cases hp : r.payload <;> simp only [hp, reduceCtorEq] at h
  split at h
  · exact ⟨by rw [hp]; rfl, ‹_›⟩
  · cases h

/-! ## In one tick -/

/-- The last error of a context takes the place of the ones before. -/
theorem find_errors_handle :
    (u.handleResponse locals r).2.errors.find c = (errorIn c r).or (locals.errors.find c) := by
  unfold handleResponse errorIn
  cases r.payload with
  | finished f =>
    obtain ⟨error⟩ := f
    dsimp only
    cases error with
    | none =>
      have herrors : (u.finishContext locals (FString.ofCStr r.audioContext) ⟨none⟩).2.errors = locals.errors := rfl
      rw [herrors]
      simp
    | some e =>
      have herrors : (u.finishContext locals (FString.ofCStr r.audioContext) ⟨some e⟩).2.errors =
          locals.errors.emplace (FString.ofCStr r.audioContext) (FString.ofCStr e.message) := rfl
      rw [herrors, KeyMap.find_emplace]
      split <;> rfl
  | _ => rfl

theorem find_errors_reads {x : Reading} :
    (x.run (rs.map .read)).locals.errors.find c = (errorsIn c rs).getLast?.or (x.locals.errors.find c) := by
  induction rs using List.reverseRecOn with
  | nil => rfl
  | append_singleton rs r ih =>
    have hstep : ((x.run (rs.map .read)).step (.read r)).locals.errors.find c =
        (errorIn c r).or ((x.run (rs.map .read)).locals.errors.find c) := find_errors_handle
    rw [List.map_append, List.map_singleton, run_concat, hstep, ih, ← Option.or_assoc, errorsIn_concat,
      List.getLast?_append]
    cases errorIn c r <;> rfl

/-- The rest of `Tick` tells the errors it has kept. -/
theorem errorsTold_endTick : errorsTold c (u.endTick locals).2 = (locals.errors.find c).toList := by
  have hresponses : errorsTold c (u.changedResponses locals) = [] := by
    rw [errorsTold, changedResponses, List.filterMap_filterMap, List.filterMap_eq_nil_iff]
    intro key _
    cases u.responses.find key <;> rfl
  rw [endTick, errorsTold_append, hresponses, List.nil_append, errorsTold, List.filterMap_map]
  exact KeyMap.filterMap_entries

/-! ## In a run of ticks -/

theorem errors_stepsOf {x : Reading} (hx : x.locals = .new) :
    errorsTold c (x.run (stepsOf rss)).broadcasts =
      errorsTold c x.broadcasts ++ rss.flatMap fun rs => (errorsIn c rs).getLast?.toList := by
  induction rss generalizing x with
  | nil => simp [stepsOf, run]
  | cons rs rss ih =>
    have hcons : stepsOf (rs :: rss) = (rs.map .read ++ [.tickEnd]) ++ stepsOf rss := by simp [stepsOf]
    have htick : (x.run (rs.map .read ++ [.tickEnd])).locals = .new := by
      rw [run_concat]
      rfl
    have hbroadcasts : (x.run (rs.map .read)).broadcasts = x.broadcasts := by
      rw [run_reads]
    have htold : errorsTold c (x.run (rs.map .read ++ [.tickEnd])).broadcasts =
        errorsTold c x.broadcasts ++ (errorsIn c rs).getLast?.toList := by
      rw [run_concat]
      show errorsTold c ((x.run (rs.map .read)).broadcasts ++ ((x.run (rs.map .read)).plugin.endTick _).2) = _
      rw [errorsTold_append, errorsTold_endTick, find_errors_reads, hbroadcasts, hx]
      simp [TickLocals.new]
    rw [hcons, run_append, ih htick, htold, List.append_assoc, List.flatMap_cons]

/-- Of every tick the last error is told. -/
theorem sublist_last : (rss.flatMap fun rs => (errorsIn c rs).getLast?.toList).Sublist (errorsIn c rss.flatten) := by
  induction rss with
  | nil => exact List.nil_sublist _
  | cons rs rss ih =>
    rw [List.flatMap_cons, List.flatten_cons, errorsIn_append]
    refine List.Sublist.append ?_ ih
    cases h : (errorsIn c rs).getLast? with
    | none => exact List.nil_sublist _
    | some e => exact List.singleton_sublist.mpr (List.mem_of_getLast? h)

theorem last_last : (rss.flatMap fun rs => (errorsIn c rs).getLast?.toList).getLast? = (errorsIn c rss.flatten).getLast? := by
  induction rss with
  | nil => rfl
  | cons rs rss ih =>
    rw [List.flatMap_cons, List.flatten_cons, errorsIn_append, List.getLast?_append, List.getLast?_append, ih]
    cases (errorsIn c rs).getLast? <;> rfl

theorem eq_of_last {α : Type} {l l' : List α} (h : l.Sublist l') (hlast : l.getLast? = l'.getLast?) (hlength : l'.length ≤ 1) :
    l = l' := by
  match l', hlength with
  | [], _ => exact List.sublist_nil.mp h
  | [a], _ =>
    rcases List.sublist_singleton.mp h with rfl | rfl
    · cases hlast
    · rfl

/-- There is one error of a context at most. -/
theorem length_errorsIn (hlate : NoneLate rs) : (errorsIn c rs).length ≤ 1 := by
  induction rs with
  | nil => exact Nat.zero_le _
  | cons r rs ih =>
    obtain ⟨hfirst, hrest⟩ := List.pairwise_cons.mp hlate
    cases he : errorIn c r with
    | none => simpa [errorsIn, he] using ih hrest
    | some e =>
      have hfin := finishes_of_errorIn he
      have hnil : errorsIn c rs = [] := by
        refine List.filterMap_eq_nil_iff.mpr fun r' hr' => ?_
        by_contra hsome
        obtain ⟨e', he'⟩ := Option.ne_none_iff_exists'.mp hsome
        exact hfirst r' hr' hfin.1 (Setoid.trans (finishes_of_errorIn he').2 (Setoid.symm hfin.2))
      have hcons : errorsIn c (r :: rs) = e :: errorsIn c rs := by simp [errorsIn, he]
      rw [hcons, hnil]
      exact le_rfl

end

/-! ## The disconnection -/

/-- A step of `Tick` that finds an error of the client `c` and removes the ticker. -/
structure Disconnects (t u : SysState) (c : SpeechlyClient) : Prop where
  reach : SysReach t
  step : ∃ p, sys.step t (.game p) = some u
  pc : t.pc = .tickDisconnected
  client : t.plugin.client = some c
  hasError : c.bHasError = true
  ticker : t.ticker = true ∧ u.ticker = false

/-- A step of the threads removes the ticker and broadcasts that the connection is lost, or leaves the ticker alone, and the
broadcasts too unless it is one of `Tick`. -/
inductive Parts (s t : SysState) (a : SysLabel) : Prop where
  | stay (hticker : t.ticker = s.ticker) (hbroadcasts : s.pc.ticks = false → t.broadcasts = s.broadcasts)
  | part {p : Platform} {b : Broadcast} (ha : a = .game p) (hpc : s.pc = .tickDisconnected)
      (hdis : s.plugin.disconnected = .ok b) (hticker : t.ticker = false) (hbroadcasts : t.broadcasts = s.broadcasts ++ [b])

section

variable {s t u : SysState} {a : SysLabel}

theorem broadcasts_capture (s : SysState) (c : Capture) :
    (s.capture c).ticker = s.ticker ∧ (s.capture c).broadcasts = s.broadcasts := by
  unfold SysState.capture
  split
  · exact ⟨rfl, rfl⟩
  · exact ⟨rfl, rfl⟩
  · unfold SysState.speech
    split <;> exact ⟨rfl, rfl⟩

theorem parts_step (ht : sys.step s a = some t) : Parts s t a := by
  cases SysState.step_of_sysStep ht with
  | game hgame =>
    cases SysState.gameStep hgame with
    | disconnected hpc hdis => exact .part rfl hpc hdis rfl rfl
    | endTick hpc => exact .stay rfl fun hticks => by rw [hpc] at hticks; cases hticks
    | _ => exact .stay rfl fun _ => rfl
  | capture c => exact .stay (broadcasts_capture s c).1 fun _ => (broadcasts_capture s c).2
  | _ => exact .stay rfl fun _ => rfl

/-- **The last broadcast.**  Where there is no ticker any more, a `Tick` has removed it and broadcast the message that its client
had then, and nothing has been broadcast since. -/
theorem SysReach.disconnects (h : SysReach s) (hticker : s.ticker = false) :
    ∃ t u c, Disconnects t u c ∧ sys.Reach u s ∧
      s.broadcasts = t.broadcasts ++ [.error default ((FString.lit "Disconnected: ").append c.errorMessage)] := by
  obtain ⟨v, languageCode, h⟩ := h
  refine h.induct (I := fun s => s.ticker = false → ∃ t u c, Disconnects t u c ∧ sys.Reach u s ∧ s.broadcasts =
    t.broadcasts ++ [.error default ((FString.lit "Disconnected: ").append c.errorMessage)]) ?_ (fun hinit => by cases hinit)
    hticker
  intro s a s' hreach ih ht hticker
  have hs : SysReach s := ⟨v, languageCode, hreach⟩
  obtain ⟨_, _, _, -, hfollows, -⟩ := hs.follows
  cases parts_step ht with
  | stay hkeep hbroadcasts =>
    have hgone : s.ticker = false := hkeep.symm.trans hticker
    have hticks : s.pc.ticks = false := by
      by_contra hin
      exact Bool.false_ne_true (hgone.symm.trans (hfollows.ticker (by simpa using hin)))
    obtain ⟨t, u, c, hdis, hafter, htold⟩ := ih hgone
    exact ⟨t, u, c, hdis, hafter.step ht, (hbroadcasts hticks).trans htold⟩
  | @part p b ha hpc hdis hgone hbroadcasts =>
    subst ha
    obtain ⟨c, hclient, herror, rfl⟩ := SysState.disconnected_eq (hs.lost hpc) hdis
    have hhere : s.ticker = true := hfollows.ticker (by rw [hpc]; rfl)
    exact ⟨s, s', c, ⟨hs, ⟨p, ht⟩, hpc, hclient, herror, hhere, hgone⟩, .refl s', hbroadcasts⟩

end

/-! ## In every interleaving -/

/-- **The errors are told in every interleaving.**  Outside of the loop of `Tick` the listener has been told, of every context,
some of the errors read so far, the last one among them, and all if no message has come after the end of its context.  A
disconnection is broadcast once and last, by the `Tick` that removes the ticker, with the message its client has then. -/
theorem errors_are_told {s : SysState} (h : SysReach s) (hreads : s.pc.reads = false) :
    ∃ told last, s.broadcasts = told ++ last ∧
      (if s.ticker then last = []
        else ∃ t u c, Disconnects t u c ∧ sys.Reach u s ∧ told = t.broadcasts ∧
          last = [.error default ((FString.lit "Disconnected: ").append c.errorMessage)]) ∧
      ∀ c, (errorsTold c told).Sublist (errorsIn c (handledOf s.trace)) ∧
        (errorsTold c told).getLast? = (errorsIn c (handledOf s.trace)).getLast? ∧
        (NoneLate (handledOf s.trace) → errorsTold c told = errorsIn c (handledOf s.trace)) := by
  obtain ⟨v, languageCode, steps, hsteps, hfollows, hwhole⟩ := h.follows
  obtain ⟨rss, rfl⟩ := hwhole hreads
  rw [responsesOf_stepsOf] at hsteps
  obtain ⟨last, hlast, hparting⟩ := hfollows.broadcasts
  refine ⟨_, last, hlast, ?_, fun c => ?_⟩
  · cases hticker : s.ticker with
    | true =>
      rw [hticker] at hparting
      exact hparting
    | false =>
      rw [hticker] at hparting
      obtain ⟨message, rfl⟩ := hparting
      obtain ⟨t, u, c, hdis, hafter, htold⟩ := h.disconnects hticker
      obtain ⟨htold, hmessage⟩ := List.append_inj' (hlast.symm.trans htold) rfl
      exact ⟨t, u, c, hdis, hafter, htold, hmessage⟩
  have htold : errorsTold c ((init (v.connect languageCode)).run (stepsOf rss)).broadcasts =
      rss.flatMap fun rs => (errorsIn c rs).getLast?.toList := by
    rw [errors_stepsOf rfl]
    rfl
  rw [htold, ← hsteps]
  refine ⟨sublist_last, last_last, fun hlate => ?_⟩
  exact eq_of_last sublist_last last_last (length_errorsIn hlate)

/-- A context fails, then the connection. -/
def failing : List SysLabel :=
  [.respond ⟨[97], 0, .finished ⟨some ⟨[98]⟩⟩⟩] ++ tickCall 1 ++ [.hasError, .errorMessage (FString.lit "d")] ++
    .callTick :: List.replicate 2 (.game (device 16000))

/-- Both are told, in this order. -/
theorem errors_are_told_both :
    ∃ s, sys.run (.init (USpeechly.new.connect [])) failing = some s ∧
      ∃ t u c, Disconnects t u c ∧ sys.Reach u s ∧
        s.broadcasts = t.broadcasts ++ [.error default ((FString.lit "Disconnected: ").append c.errorMessage)] ∧
        errorsTold (FString.lit "a") t.broadcasts = [FString.lit "b"] := by
  have hrun : (sys.run (.init (USpeechly.new.connect [])) failing).map
      (fun s => (handledOf s.trace, s.pc.reads, s.ticker)) =
        some ([⟨[97], 0, .finished ⟨some ⟨[98]⟩⟩⟩], false, false) := by
    decide +kernel
  obtain ⟨s, hs, hrun⟩ := Option.map_eq_some_iff.mp hrun
  simp only [Prod.mk.injEq] at hrun
  obtain ⟨hhandled, hreads, hticker⟩ := hrun
  obtain ⟨told, last, hbroadcasts, hlast, htold⟩ := errors_are_told ⟨.new, [], failing, hs⟩ hreads
  rw [hticker] at hlast
  obtain ⟨t, u, c, hdis, hafter, rfl, rfl⟩ := hlast
  refine ⟨s, hs, t, u, c, hdis, hafter, hbroadcasts, ?_⟩
  rw [(htold (FString.lit "a")).2.2 (by rw [hhandled]; decide), hhandled]
  decide

end SpeechlyPlugin.Plugin
