import PearlAlgo.MarketAgent.ServiceLoop

/-!
# What the main loop may do when

The log of a run tells its state: whether the service is paused, and the counters that pause it. Each analysis and each
signal that is handed on was allowed by the log before it.
-/

namespace PearlAlgo.ServiceLoop
open Py

variable {Sig : Type}

/-! ### What the log says of the state -/

/-- `consecutive_errors`: a cycle that was left by `continue` does not count, and does not reset. -/
def errorsSince : List (Event Sig) → Int
  | [] => 0
  | .completed :: _ => 0
  | .failed :: l => errorsSince l + 1
  | _ :: l => errorsSince l

def failuresSince : List (Event Sig) → Int
  | [] => 0
  | .fetched :: _ | .resumed :: _ => 0
  | .connectionError _ :: l | .fetchError true :: l => failuresSince l + 1
  | _ :: l => failuresSince l

/-- Since the last resume an error was one too many. Connection errors that come as exceptions count, but do not pause
the service themselves. -/
def tripped (c : LoopConfig) : List (Event Sig) → Bool
  | [] => false
  | .resumed :: _ => false
  | .failed :: l => decide (c.maxConsecutiveErrors ≤ errorsSince l + 1) || tripped c l
  | .connectionError false :: l =>
    (c.pauseOnConnectionFailures && decide (c.maxConnectionFailures ≤ failuresSince l + 1)) || tripped c l
  | _ :: l => tripped c l

/-- The bar that was analysed last. -/
def lastBar : List (Event Sig) → Option ℚ
  | [] => none
  | .analyzed (some t) _ _ :: _ => some t
  | _ :: l => lastBar l

/-- The signals of this cycle's analysis that have not been handed on. -/
def pending : List (Event Sig) → List Sig
  | [] => []
  | .analyzed _ _ signals :: _ => signals
  | .processed _ :: l => (pending l).tail
  | .checked _ :: _ => []
  | _ :: l => pending l

/-- What may be recorded next. -/
def Allowed (c : LoopConfig) (l : List (Event Sig)) : Event Sig → Prop
  | .analyzed bar now _ => tripped c l = false ∧
      ∀ t ∈ bar, now - t ≤ c.staleDataThresholdMinutes * 60 ∧ (c.enableNewBarGating = true → lastBar l ≠ some t)
  | .processed signal => tripped c l = false ∧ (pending l).head? = some signal
  | _ => True

/-- The state is the one that the log tells of, and each entry of the log was allowed over the older ones. -/
structure Good (c : LoopConfig) (s : LoopState Sig) : Prop where
  paused : s.paused = tripped c s.log
  errors : s.consecutiveErrors = errorsSince s.log
  failures : s.connectionFailures = failuresSince s.log
  bar : c.enableNewBarGating = true → s.lastAnalyzedBarTs = lastBar s.log
  allowed : ∀ e l, e :: l <:+ s.log → Allowed c l e

variable {c : LoopConfig} {s : LoopState Sig} {i : CycleInput Sig}

theorem allowed_cons {log : List (Event Sig)} {e : Event Sig} (h : ∀ e l, e :: l <:+ log → Allowed c l e)
    (he : Allowed c log e) : ∀ e' l, e' :: l <:+ e :: log → Allowed c l e' := by
  intro e' l hsuffix
  rcases List.suffix_cons_iff.1 hsuffix with heq | hsuffix
  · cases heq
    exact he
  · exact h e' l hsuffix

namespace Good

theorem of_eq {α : Type} {p : α × LoopState Sig} {a : α} (h : Good c p.2) (heq : p = (a, s)) : Good c s := by
  rw [heq] at h
  exact h

theorem resume (h : Good c s) : Good c s.resume where
  paused := rfl
  errors := h.errors
  failures := rfl
  bar := h.bar
  allowed := allowed_cons h.allowed trivial

theorem checkFlags (h : Good c s) (resumeRequested : Bool) : Good c (s.checkFlags resumeRequested) := by
  have hchecked : Good c (s.record (.checked s.clock)) :=
    ⟨h.paused, h.errors, h.failures, h.bar, allowed_cons h.allowed trivial⟩
  unfold LoopState.checkFlags
  split
  · exact hchecked.resume
  · exact hchecked

theorem handleConnectionFailure (h : Good c s) (now : ℚ) : Good c (s.handleConnectionFailure c now) := by
  unfold LoopState.handleConnectionFailure
  split
  · exact ⟨h.paused, h.errors, h.failures, h.bar, h.allowed⟩
  · exact h

theorem chunk (wakes : Nat → Wake) {x : Sleep Sig} (h : Good c x.state) : Good c (x.chunk wakes).state := by
  have hlater : Good c { x.state with
      clock := x.state.clock + min x.remaining FLAG_CHECK_INTERVAL
      shutdownRequested := x.state.shutdownRequested || (wakes x.round).shutdown } :=
    ⟨h.paused, h.errors, h.failures, h.bar, h.allowed⟩
  dsimp only [Sleep.chunk]
  split
  · exact hlater.checkFlags _
  · exact hlater

theorem interruptibleSleep (h : Good c s) (wakes : Nat → Wake) (total : ℚ) :
    Good c (interruptibleSleep wakes total s) := by
  unfold ServiceLoop.interruptibleSleep
  cases hloop : whileLoop Sleep.goesOn (Sleep.chunk wakes) (sleepFuel total) ⟨total, 0, s⟩ with
  | none => exact h
  | some x => exact (whileLoop_invariant (I := fun x => Good c x.state) (fun x hx _ => hx.chunk wakes) hloop h).1

theorem onFetchError (h : Good c s) (isConnection : Bool) (now : ℚ) :
    Good c (onFetchError c isConnection now s).2 := by
  unfold ServiceLoop.onFetchError
  cases isConnection with
  | true =>
    refine handleConnectionFailure ?_ now
    exact ⟨h.paused, h.errors, by simp [LoopState.record, failuresSince, h.failures], h.bar,
      allowed_cons h.allowed trivial⟩
  | false => exact ⟨h.paused, h.errors, h.failures, h.bar, allowed_cons h.allowed trivial⟩

theorem onConnectionError (h : Good c s) (d : MarketData) (now : ℚ) (alertRaises : Option Bool) :
    Good c (onConnectionError c d now alertRaises s).2 := by
  have hfailures : s.connectionFailures + 1 = failuresSince s.log + 1 := by rw [h.failures]
  have hnoPause (hcond : ¬ (c.pauseOnConnectionFailures = true ∧ c.maxConnectionFailures ≤ s.connectionFailures + 1)) :
      s.paused = tripped c (.connectionError false :: s.log) := by
    rw [hfailures] at hcond
    rw [tripped, h.paused, show (c.pauseOnConnectionFailures &&
      decide (c.maxConnectionFailures ≤ failuresSince s.log + 1)) = false by simpa using hcond, Bool.false_or]
  have hkept (hcond : ¬ (c.pauseOnConnectionFailures = true ∧ c.maxConnectionFailures ≤ s.connectionFailures + 1)) :
      Good c (LoopState.record (.connectionError false) { s with
        connectionFailures := s.connectionFailures + 1, dataFetchErrors := s.dataFetchErrors + 1
        errorCount := s.errorCount + 1 }) :=
    ⟨hnoPause hcond, h.errors, hfailures, h.bar, allowed_cons h.allowed trivial⟩
  unfold ServiceLoop.onConnectionError
  dsimp only
  split
  next hmax =>
    split
    next hpause =>
      split
      · exact ⟨h.paused, h.errors, hfailures, h.bar, allowed_cons h.allowed trivial⟩
      · refine ⟨?_, h.errors, hfailures, h.bar, allowed_cons h.allowed trivial⟩
        have htrip :
            (c.pauseOnConnectionFailures && decide (c.maxConnectionFailures ≤ failuresSince s.log + 1)) = true := by
          rw [← hfailures]
          simp [hpause, hmax]
        change true = tripped c (.connectionError false :: s.log)
        rw [tripped, htrip, Bool.true_or]
    next hpause =>
      split
      · exact hkept fun hcond => hpause hcond.1
      · exact (hkept fun hcond => hpause hcond.1).handleConnectionFailure now
  next hmax => exact (hkept fun hcond => hmax hcond.2).handleConnectionFailure now

theorem onFetched (h : Good c s) (d : MarketData) : Good c (onFetched c i d s).2 := by
  have hreset : Good c (LoopState.record .fetched { s with
      dataFetchErrors := 0, connectionFailures := 0, cbConnectionNotified := false
      lastSuccessfulCycle := some i.fetchedAt }) :=
    ⟨h.paused, h.errors, rfl, h.bar, allowed_cons h.allowed trivial⟩
  unfold ServiceLoop.onFetched
  split
  · exact hreset.onFetchError _ _
  · exact hreset

theorem fetchStage (h : Good c s) : Good c (fetchStage c i s).2 := by
  unfold ServiceLoop.fetchStage
  split
  · exact h.onFetchError _ _
  next d _ =>
    split
    · have herror := h.onConnectionError d i.fetchedAt i.alertRaises
      split
      next heq => exact (herror.of_eq heq).onFetchError _ _
      next heq => exact herror.of_eq heq
      next heq => exact (herror.of_eq heq).onFetched d
    · exact h.onFetched d

theorem counted (h : Good c s) (n : Nat) : Good c { s with cycleCount := n } :=
  ⟨h.paused, h.errors, h.failures, h.bar, h.allowed⟩

theorem idleStage (h : Good c s) : Good c (idleStage c i s).2 := by
  have halert : Good c (if s.lastSuccessfulCycle.any fun t => decide (c.connectionTimeoutMinutes * 60 < i.idleAt - t) then
      s.handleConnectionFailure c i.idleAt else s) := by
    split
    · exact h.handleConnectionFailure _
    · exact h
  unfold ServiceLoop.idleStage
  dsimp only
  split
  · exact halert
  · exact (halert.counted _).interruptibleSleep _ _

end Good

theorem onFetched_paused {d d' : MarketData} {s' : LoopState Sig} (h : onFetched c i d s = (.data d', s')) :
    s'.paused = s.paused := by
  unfold onFetched onFetchError at h
  split at h
  · cases h
  · cases h
    rfl

/-- Data do not come with a pause. -/
theorem fetchStage_paused {d : MarketData} {s' : LoopState Sig} (h : fetchStage c i s = (.data d, s')) :
    s'.paused = s.paused := by
  have honFetchError (isConnection : Bool) (s₁ : LoopState Sig) :
      onFetchError c isConnection i.fetchedAt s₁ ≠ (.data d, s') := by
    intro heq
    cases congrArg Prod.fst heq
  unfold fetchStage at h
  split at h
  · exact absurd h (honFetchError _ _)
  next d₁ _ =>
    split at h
    · split at h
      · exact absurd h (honFetchError _ _)
      · cases h
      next s₁ herror =>
        refine (onFetched_paused h).trans ?_
        have hpaused : (onConnectionError c d₁ i.fetchedAt i.alertRaises s).2.paused = s.paused := by
          unfold onConnectionError at herror ⊢
          dsimp only at herror ⊢
          split at herror
          next hmax =>
            rw [if_pos hmax]
            split at herror
            · split at herror <;> cases herror
            next hpause =>
              rw [if_neg hpause]
              split at herror
              next hrows =>
                rw [if_pos hrows]
                rfl
              · cases herror
          · cases herror
        rw [herror] at hpaused
        exact hpaused
    · exact onFetched_paused h

/-! ### Analysis -/

theorem isStale_false {f : Frame} {now : ℚ} (h : isStale c f now = false) :
    ∀ t ∈ f.latest, now - t ≤ c.staleDataThresholdMinutes * 60 := by
  intro t ht
  rw [isStale, Option.mem_def.1 ht, Option.any_some, decide_eq_false_iff_not] at h
  exact not_lt.1 h

theorem skipsAnalysis_false {f : Frame} (h : skipsAnalysis c f s = false) (hgating : c.enableNewBarGating = true) :
    ∀ t ∈ f.latest, s.lastAnalyzedBarTs ≠ some t := by
  intro t ht hlast
  rw [skipsAnalysis, currentBarTs, if_pos hgating, Option.mem_def.1 ht, hlast] at h
  simp at h

theorem lastBar_analyzed {bar : Option ℚ} {now : ℚ} {signals : List Sig} {l : List (Event Sig)} :
    lastBar (.analyzed bar now signals :: l) = bar.or (lastBar l) := by
  cases bar <;> rfl

theorem analysisStage_good {f : Frame} {signals : Option (List Sig)} {s' : LoopState Sig} (h : Good c s)
    (hpaused : s.paused = false) (hstage : analysisStage c i f s = (signals, s')) :
    Good c s' ∧ s'.paused = false ∧ ∀ l ∈ signals, l = [] ∨ pending s'.log = l := by
  have hcounted : Good c (if skipsAnalysis c f s then { s with analysisSkipCount := s.analysisSkipCount + 1 } else s) ∧
      (if skipsAnalysis c f s then { s with analysisSkipCount := s.analysisSkipCount + 1 } else s).paused = false := by
    split
    · exact ⟨⟨h.paused, h.errors, h.failures, h.bar, h.allowed⟩, hpaused⟩
    · exact ⟨h, hpaused⟩
  unfold analysisStage at hstage
  dsimp only at hstage
  split at hstage
  next =>
    cases hstage
    exact ⟨hcounted.1, hcounted.2, by simp⟩
  next hguards =>
    obtain ⟨hstale, hskips⟩ : isStale c f i.guardedAt = false ∧ skipsAnalysis c f s = false := by simpa using hguards
    rw [if_neg (by simp [hskips])] at hstage
    split at hstage
    · cases hstage
      exact ⟨h, hpaused, by simp⟩
    next l _ =>
      cases hstage
      refine ⟨⟨h.paused, h.errors, h.failures, fun hgating => ?_, allowed_cons h.allowed ?_⟩, hpaused, ?_⟩
      · rw [LoopState.record, lastBar_analyzed, ← h.bar hgating, currentBarTs, if_pos hgating]
      · refine ⟨h.paused ▸ hpaused, fun t ht => ⟨isStale_false hstale t ht, fun hgating => ?_⟩⟩
        rw [← h.bar hgating]
        exact skipsAnalysis_false hskips hgating t ht
      · rintro _ ⟨⟩
        exact .inr rfl

theorem record_processed_good {signals rest : List Sig} (h : Good c s) (hpaused : s.paused = false)
    (hpending : pending s.log = signals ++ rest) :
    Good c (signals.foldl (fun s signal => s.record (.processed signal)) s) := by
  induction signals generalizing s with
  | nil => exact h
  | cons signal signals ih =>
    rw [List.foldl_cons]
    refine ih ⟨h.paused, h.errors, h.failures, h.bar, allowed_cons h.allowed ?_⟩ hpaused ?_
    · exact ⟨h.paused ▸ hpaused, by rw [hpending]; rfl⟩
    · rw [LoopState.record, pending, hpending]
      rfl

theorem processSignals_good {signals : List Sig} (h : Good c s) (hpaused : s.paused = false) (processRaises : Option Nat)
    (hpending : signals = [] ∨ pending s.log = signals) : Good c (processSignals processRaises signals s) := by
  unfold processSignals
  rcases hpending with rfl | hpending
  · cases processRaises <;> exact h
  · split
    next k =>
      have hsplit : pending s.log = signals.take (k + 1) ++ signals.drop (k + 1) := by
        rw [hpending, List.take_append_drop]
      exact record_processed_good h hpaused hsplit
    · exact record_processed_good h hpaused (hpending.trans (List.append_nil signals).symm)

/-! ### Runs -/

theorem analyzingCycle_good {f : Frame} (h : Good c s) (hpaused : s.paused = false) :
    Good c (analyzingCycle c i f s).2 := by
  unfold analyzingCycle
  split
  next s' hstage => exact (analysisStage_good h hpaused hstage).1
  next signals s' hstage =>
    obtain ⟨hgood, hpaused', hpending⟩ := analysisStage_good h hpaused hstage
    have hprocessed := processSignals_good hgood hpaused' i.processRaises (hpending signals rfl)
    split
    · exact hgood
    · dsimp only
      split
      · exact hprocessed
      · exact (hprocessed.counted _).interruptibleSleep _ _

theorem tryBody_good (h : Good c s) : Good c (tryBody c i s).2 := by
  unfold tryBody
  split
  · exact h.interruptibleSleep _ _
  next hpaused =>
    split
    · exact h
    · have hstage : Good c (fetchStage c i s).2 := h.fetchStage
      split
      next s' heq => exact (hstage.of_eq heq).interruptibleSleep _ _
      next s' heq => exact (hstage.of_eq heq).interruptibleSleep _ _
      next d s' heq =>
        have hgood := hstage.of_eq heq
        split
        · exact hgood
        · split
          · exact hgood.idleStage
          · exact analyzingCycle_good hgood ((fetchStage_paused heq).trans (by simpa using hpaused))

theorem onError_good (h : Good c s) : Good c (onError c i s) := by
  unfold onError
  have herrors : s.consecutiveErrors + 1 = errorsSince s.log + 1 := by rw [h.errors]
  have hallowed := allowed_cons (e := .failed) h.allowed trivial
  refine Good.interruptibleSleep ?_ _ _
  split
  next hmax =>
    refine ⟨?_, herrors, h.failures, h.bar, hallowed⟩
    have hmax' : c.maxConsecutiveErrors ≤ errorsSince s.log + 1 := herrors ▸ hmax
    change true = tripped c (.failed :: s.log)
    rw [tripped, decide_eq_true hmax', Bool.true_or]
  next hmax =>
    refine ⟨?_, herrors, h.failures, h.bar, hallowed⟩
    have hmax' : ¬ c.maxConsecutiveErrors ≤ errorsSince s.log + 1 := herrors ▸ hmax
    change s.paused = tripped c (.failed :: s.log)
    rw [tripped, decide_eq_false hmax', Bool.false_or, h.paused]

theorem cycle_good (h : Good c s) (i : CycleInput Sig) : Good c (cycle c s i) := by
  have hstart (b : Bool) : Good c { s with shutdownRequested := b } :=
    ⟨h.paused, h.errors, h.failures, h.bar, h.allowed⟩
  unfold cycle
  dsimp only
  split
  · exact ⟨h.paused, h.errors, h.failures, h.bar, h.allowed⟩
  · have hchecked := (hstart (s.shutdownRequested || i.shutdown)).checkFlags i.resume
    split
    · exact ⟨hchecked.paused, hchecked.errors, hchecked.failures, hchecked.bar, hchecked.allowed⟩
    · have hbody := tryBody_good (i := i) (s := { LoopState.checkFlags i.resume
        { s with shutdownRequested := s.shutdownRequested || i.shutdown } with
          clock := (LoopState.checkFlags i.resume
            { s with shutdownRequested := s.shutdownRequested || i.shutdown }).clock + i.work })
        ⟨hchecked.paused, hchecked.errors, hchecked.failures, hchecked.bar, hchecked.allowed⟩
      split
      next heq => exact hbody.of_eq heq
      next heq => exact onError_good (hbody.of_eq heq)
      next s' heq =>
        have hgood := hbody.of_eq heq
        exact ⟨hgood.paused, rfl, hgood.failures, hgood.bar, allowed_cons hgood.allowed trivial⟩

theorem runLoop_good (c : LoopConfig) (inputs : List (CycleInput Sig)) : Good c (runLoop c inputs) := by
  have hrun (s : LoopState Sig) (h : Good c s) : Good c (inputs.foldl (cycle c) s) := by
    induction inputs generalizing s with
    | nil => exact h
    | cons i inputs ih => exact ih _ (cycle_good h i)
  refine hrun {} ⟨rfl, rfl, rfl, fun _ => rfl, fun e l hsuffix => ?_⟩
  exact absurd (List.suffix_nil.1 hsuffix) (List.cons_ne_nil e l)

/-- The loop is paused exactly when an error since the last resume was one too many, and its counters are the errors
since a completed cycle and the failures since data came. -/
theorem runLoop_paused (c : LoopConfig) (inputs : List (CycleInput Sig)) :
    (runLoop c inputs).paused = tripped c (runLoop c inputs).log ∧
      (runLoop c inputs).consecutiveErrors = errorsSince (runLoop c inputs).log ∧
      (runLoop c inputs).connectionFailures = failuresSince (runLoop c inputs).log :=
  have h := runLoop_good c inputs
  ⟨h.paused, h.errors, h.failures⟩

/-- A cycle whose poll of the account raises. -/
def failingCycle : CycleInput String where
  syncRaises := true
  fetch := .raised false
  fetchedAt := 0
  idleAt := 0
  guardedAt := 0
  analyze := none
  sleepTime := 12

/-- Closed market: the cycle in between is left by `continue` and does not reset the errors. -/
example : (runLoop { scanInterval := 30, maxConsecutiveErrors := 2 } [failingCycle,
    { failingCycle with syncRaises := false, fetch := .data ⟨some ⟨0, none⟩, true⟩ }, failingCycle]).pauseReason =
      some .consecutiveErrors := by
  decide +kernel

/-- Whatever the loop meets, an analysis happens only while the service is not paused, on a bar that is not stale and,
with gating, not the one analysed last; and a signal is handed on only as the next of those its cycle's analysis
returned. -/
theorem runLoop_allowed (c : LoopConfig) (inputs : List (CycleInput Sig)) (e : Event Sig) (l : List (Event Sig))
    (h : e :: l <:+ (runLoop c inputs).log) : Allowed c l e :=
  (runLoop_good c inputs).allowed e l h

/-- A cycle whose analysis finds a signal on a bar that is twenty seconds old. -/
def signalCycle : CycleInput String :=
  { failingCycle with
    syncRaises := false, fetch := .data ⟨some ⟨3, some 100⟩, true⟩, guardedAt := 120, analyze := some ["long"] }

theorem runLoop_allowed_signalCycle : Allowed { scanInterval := 30 }
    [.analyzed (some 100) 120 ["long"], .fetched, .checked 12, .checked 10, .checked 5, .failed, .checked 0]
    (.processed "long") :=
  runLoop_allowed { scanInterval := 30 } [failingCycle, signalCycle] _ _ (by decide +kernel)

end PearlAlgo.ServiceLoop
