import Mathlib.Data.List.Chain
import PearlAlgo.MarketAgent.LoopGuards

/-!
# How long a control flag can go unread

The flags are read at the top of every cycle and after every chunk of a sleep but its last. So the reads are at most
five seconds and the work of a cycle apart, also while the service is paused, backs off or waits for the market to open.
-/

namespace PearlAlgo.ServiceLoop
open Py

variable {Sig : Type}

/-- The times of the checks, newest first. -/
def checkTimes : List (Event Sig) → List ℚ
  | [] => []
  | .checked t :: l => t :: checkTimes l
  | _ :: l => checkTimes l

/-- The checks are at most `gap` apart, and the last is at most `slack` ago. -/
structure Timely (gap slack : ℚ) (s : LoopState Sig) : Prop where
  gaps : (checkTimes s.log).IsChain fun later earlier => later - earlier ≤ gap
  last : ∀ t ∈ (checkTimes s.log).head?, s.clock - t ≤ slack

variable {c : LoopConfig} {s : LoopState Sig} {i : CycleInput Sig} {gap slack slack' : ℚ}

namespace Timely

theorem mono (h : Timely gap slack s) (hle : slack ≤ slack') : Timely gap slack' s :=
  ⟨h.gaps, fun t ht => (h.last t ht).trans hle⟩

theorem passes (h : Timely gap slack s) (time : ℚ) : Timely gap (slack + time) { s with clock := s.clock + time } :=
  ⟨h.gaps, fun t ht => by linarith [h.last t ht]⟩

theorem checkFlags (h : Timely gap slack s) (hle : slack ≤ gap) (resumeRequested : Bool) :
    Timely gap 0 (s.checkFlags resumeRequested) := by
  have hchecked : Timely gap 0 (s.record (.checked s.clock)) := by
    refine ⟨List.isChain_cons.2 ⟨fun t ht => (h.last t ht).trans hle, h.gaps⟩, fun t ht => ?_⟩
    cases ht
    exact (sub_self s.clock).le
  unfold LoopState.checkFlags
  split
  · exact ⟨hchecked.gaps, hchecked.last⟩
  · exact hchecked

theorem handleConnectionFailure (h : Timely gap slack s) (now : ℚ) :
    Timely gap slack (s.handleConnectionFailure c now) := by
  unfold LoopState.handleConnectionFailure
  split
  · exact ⟨h.gaps, h.last⟩
  · exact h

theorem chunk (wakes : Nat → Wake) {x : Sleep Sig} (hslack : 0 ≤ slack) (hgap : slack + FLAG_CHECK_INTERVAL ≤ gap)
    (h : Timely gap slack x.state) :
    Timely gap (if 0 < (x.chunk wakes).remaining then slack else slack + FLAG_CHECK_INTERVAL) (x.chunk wakes).state := by
  have hle : slack + min x.remaining FLAG_CHECK_INTERVAL ≤ slack + FLAG_CHECK_INTERVAL := by
    linarith [min_le_right x.remaining FLAG_CHECK_INTERVAL]
  have hpassed := (h.passes (min x.remaining FLAG_CHECK_INTERVAL)).mono hle
  have hlater : Timely gap (slack + FLAG_CHECK_INTERVAL) { x.state with
      clock := x.state.clock + min x.remaining FLAG_CHECK_INTERVAL
      shutdownRequested := x.state.shutdownRequested || (wakes x.round).shutdown } := ⟨hpassed.gaps, hpassed.last⟩
  change Timely gap (if 0 < x.remaining - min x.remaining FLAG_CHECK_INTERVAL then _ else _)
    (if 0 < x.remaining - min x.remaining FLAG_CHECK_INTERVAL then _ else _)
  by_cases hmore : 0 < x.remaining - min x.remaining FLAG_CHECK_INTERVAL
  · rw [if_pos hmore, if_pos hmore]
    exact (hlater.checkFlags hgap _).mono hslack
  · rw [if_neg hmore, if_neg hmore]
    exact hlater

theorem interruptibleSleep (h : Timely gap slack s) (hslack : 0 ≤ slack) (hgap : slack + FLAG_CHECK_INTERVAL ≤ gap)
    (wakes : Nat → Wake) (total : ℚ) :
    Timely gap (slack + FLAG_CHECK_INTERVAL) (interruptibleSleep wakes total s) := by
  have hlonger : slack ≤ slack + FLAG_CHECK_INTERVAL := le_add_of_nonneg_right (by norm_num [FLAG_CHECK_INTERVAL])
  have hany {p : Prop} [Decidable p] {s : LoopState Sig}
      (h : Timely gap (if p then slack else slack + FLAG_CHECK_INTERVAL) s) :
      Timely gap (slack + FLAG_CHECK_INTERVAL) s := by
    refine h.mono ?_
    split
    · exact hlonger
    · exact le_rfl
  unfold ServiceLoop.interruptibleSleep
  cases hloop : whileLoop Sleep.goesOn (Sleep.chunk wakes) (sleepFuel total) ⟨total, 0, s⟩ with
  | none => exact h.mono hlonger
  | some x =>
    refine hany (whileLoop_invariant (I := fun x => Timely gap
      (if 0 < x.remaining then slack else slack + FLAG_CHECK_INTERVAL) x.state) (fun x hx htest => ?_) hloop ?_).1
    · have hremaining : 0 < x.remaining := by
        rw [Sleep.goesOn, Bool.and_eq_true, decide_eq_true_eq] at htest
        exact htest.1
      rw [if_pos hremaining] at hx
      exact hx.chunk wakes hslack hgap
    · split
      · exact h
      · exact h.mono hlonger

theorem onFetchError (h : Timely gap slack s) (isConnection : Bool) (now : ℚ) :
    Timely gap slack (onFetchError c isConnection now s).2 := by
  unfold ServiceLoop.onFetchError
  cases isConnection with
  | true =>
    refine handleConnectionFailure ?_ now
    exact ⟨h.gaps, h.last⟩
  | false => exact ⟨h.gaps, h.last⟩

theorem onConnectionError (h : Timely gap slack s) (d : MarketData) (now : ℚ) (alertRaises : Option Bool) :
    Timely gap slack (onConnectionError c d now alertRaises s).2 := by
  have hcounted : Timely gap slack (LoopState.record (.connectionError false) { s with
      connectionFailures := s.connectionFailures + 1, dataFetchErrors := s.dataFetchErrors + 1
      errorCount := s.errorCount + 1 }) := ⟨h.gaps, h.last⟩
  unfold ServiceLoop.onConnectionError
  dsimp only
  split
  · split
    · split <;> exact ⟨h.gaps, h.last⟩
    · split
      · exact hcounted
      · exact hcounted.handleConnectionFailure now
  · exact hcounted.handleConnectionFailure now

theorem onFetched (h : Timely gap slack s) (d : MarketData) : Timely gap slack (onFetched c i d s).2 := by
  unfold ServiceLoop.onFetched
  split
  · refine onFetchError ?_ _ _
    exact ⟨h.gaps, h.last⟩
  · exact ⟨h.gaps, h.last⟩

theorem of_eq {α : Type} {p : α × LoopState Sig} {a : α} (h : Timely gap slack p.2) (heq : p = (a, s)) :
    Timely gap slack s := by
  rw [heq] at h
  exact h

theorem fetchStage (h : Timely gap slack s) : Timely gap slack (fetchStage c i s).2 := by
  unfold ServiceLoop.fetchStage
  split
  · exact h.onFetchError _ _
  next d _ =>
    split
    · have herror := h.onConnectionError (c := c) d i.fetchedAt i.alertRaises
      split
      next heq => exact (herror.of_eq heq).onFetchError _ _
      next heq => exact herror.of_eq heq
      next heq => exact (herror.of_eq heq).onFetched d
    · exact h.onFetched d

theorem analysisStage (h : Timely gap slack s) (f : Frame) : Timely gap slack (analysisStage c i f s).2 := by
  have hcounted : Timely gap slack
      (if skipsAnalysis c f s then { s with analysisSkipCount := s.analysisSkipCount + 1 } else s) := by
    split
    · exact ⟨h.gaps, h.last⟩
    · exact h
  unfold ServiceLoop.analysisStage
  dsimp only
  split
  · exact hcounted
  · split
    · exact hcounted
    · exact ⟨hcounted.gaps, hcounted.last⟩

theorem processSignals (h : Timely gap slack s) (processRaises : Option Nat) (signals : List Sig) :
    Timely gap slack (processSignals processRaises signals s) := by
  have hloop (signals : List Sig) (s : LoopState Sig) (h : Timely gap slack s) :
      Timely gap slack (signals.foldl (fun s signal => s.record (.processed signal)) s) := by
    induction signals generalizing s with
    | nil => exact h
    | cons signal signals ih =>
      rw [List.foldl_cons]
      exact ih _ ⟨h.gaps, h.last⟩
  exact hloop _ s h

end Timely

/-- How long the body may have slept without a check at its end. -/
def Flow.unchecked : Flow → ℚ
  | .raised => 0
  | .continued | .completed => FLAG_CHECK_INTERVAL

namespace Timely

theorem idleStage (h : Timely gap slack s) (hslack : 0 ≤ slack) (hgap : slack + FLAG_CHECK_INTERVAL ≤ gap) :
    Timely gap (slack + (idleStage c i s).1.unchecked) (idleStage c i s).2 := by
  have halert : Timely gap slack
      (if s.lastSuccessfulCycle.any fun t => decide (c.connectionTimeoutMinutes * 60 < i.idleAt - t) then
        s.handleConnectionFailure c i.idleAt else s) := by
    split
    · exact h.handleConnectionFailure _
    · exact h
  unfold ServiceLoop.idleStage
  dsimp only
  split
  · exact halert.mono (le_add_of_nonneg_right le_rfl)
  · refine interruptibleSleep ?_ hslack hgap _ _
    exact ⟨halert.gaps, halert.last⟩

theorem analyzingCycle (h : Timely gap slack s) (hslack : 0 ≤ slack) (hgap : slack + FLAG_CHECK_INTERVAL ≤ gap)
    (f : Frame) : Timely gap (slack + (analyzingCycle c i f s).1.unchecked) (analyzingCycle c i f s).2 := by
  have hstage := h.analysisStage (c := c) (i := i) f
  have hraised {s : LoopState Sig} (h : Timely gap slack s) : Timely gap (slack + Flow.raised.unchecked) s :=
    h.mono (le_add_of_nonneg_right le_rfl)
  unfold ServiceLoop.analyzingCycle
  split
  next heq => exact hraised (hstage.of_eq heq)
  next signals s' heq =>
    have hprocessed := (hstage.of_eq heq).processSignals i.processRaises signals
    split
    · exact hraised (hstage.of_eq heq)
    · split
      · exact hraised hprocessed
      · refine interruptibleSleep ?_ hslack hgap _ _
        exact ⟨hprocessed.gaps, hprocessed.last⟩

theorem tryBody (h : Timely gap slack s) (hslack : 0 ≤ slack) (hgap : slack + FLAG_CHECK_INTERVAL ≤ gap) :
    Timely gap (slack + (tryBody c i s).1.unchecked) (tryBody c i s).2 := by
  have hraised {s : LoopState Sig} (h : Timely gap slack s) : Timely gap (slack + Flow.raised.unchecked) s :=
    h.mono (le_add_of_nonneg_right le_rfl)
  unfold ServiceLoop.tryBody
  split
  · exact h.interruptibleSleep hslack hgap _ _
  · split
    · exact hraised h
    · have hstage := h.fetchStage (c := c) (i := i)
      split
      next heq => exact (hstage.of_eq heq).interruptibleSleep hslack hgap _ _
      next heq => exact (hstage.of_eq heq).interruptibleSleep hslack hgap _ _
      next d s' heq =>
        have hdata := hstage.of_eq heq
        split
        · exact hraised hdata
        · split
          · exact hdata.idleStage hslack hgap
          · exact hdata.analyzingCycle hslack hgap _

end Timely

theorem onError_timely (h : Timely gap slack s) (hslack : 0 ≤ slack) (hgap : slack + FLAG_CHECK_INTERVAL ≤ gap) :
    Timely gap (slack + FLAG_CHECK_INTERVAL) (onError c i s) := by
  unfold onError
  refine Timely.interruptibleSleep ?_ hslack hgap _ _
  split <;> exact ⟨h.gaps, h.last⟩

theorem cycle_timely {work : ℚ} (h : Timely (work + FLAG_CHECK_INTERVAL) (work + FLAG_CHECK_INTERVAL) s)
    (hwork : 0 ≤ i.work ∧ i.work ≤ work) :
    Timely (work + FLAG_CHECK_INTERVAL) (work + FLAG_CHECK_INTERVAL) (cycle c s i) := by
  have hwork₀ : 0 ≤ work := hwork.1.trans hwork.2
  unfold cycle
  dsimp only
  split
  · exact ⟨h.gaps, h.last⟩
  · have hchecked : Timely (work + FLAG_CHECK_INTERVAL) 0 (LoopState.checkFlags i.resume
        { s with shutdownRequested := s.shutdownRequested || i.shutdown }) :=
      Timely.checkFlags (s := { s with shutdownRequested := s.shutdownRequested || i.shutdown })
        ⟨h.gaps, h.last⟩ le_rfl _
    split
    · have hle : 0 ≤ work + FLAG_CHECK_INTERVAL := add_nonneg hwork₀ (by norm_num [FLAG_CHECK_INTERVAL])
      have hstopped := hchecked.mono hle
      exact ⟨hstopped.gaps, hstopped.last⟩
    · have hle : 0 + i.work ≤ work := by linarith [hwork.2]
      have hworked := (hchecked.passes i.work).mono hle
      have hbody := hworked.tryBody (c := c) (i := i) hwork₀ le_rfl
      split
      next heq =>
        rw [heq] at hbody
        exact hbody
      next heq =>
        rw [heq] at hbody
        exact onError_timely (hbody.mono (add_zero work).le) hwork₀ le_rfl
      next heq =>
        rw [heq] at hbody
        exact ⟨hbody.gaps, hbody.last⟩

/-- Paused, idle, backing off or waiting out a closed market: the control flags are looked at again after at most five
seconds and the work of a cycle. -/
theorem runLoop_checks (c : LoopConfig) (work : ℚ) (inputs : List (CycleInput Sig))
    (h : ∀ i ∈ inputs, 0 ≤ i.work ∧ i.work ≤ work) :
    (checkTimes (runLoop c inputs).log).IsChain (fun later earlier => later - earlier ≤ work + 5) ∧
      ∀ t ∈ (checkTimes (runLoop c inputs).log).head?, (runLoop c inputs).clock - t ≤ work + 5 := by
  have hrun (s : LoopState Sig) (hs : Timely (work + FLAG_CHECK_INTERVAL) (work + FLAG_CHECK_INTERVAL) s) :
      Timely (work + FLAG_CHECK_INTERVAL) (work + FLAG_CHECK_INTERVAL) (inputs.foldl (cycle c) s) := by
    induction inputs generalizing s with
    | nil => exact hs
    | cons i inputs ih =>
      exact ih (fun j hj => h j (List.mem_cons_of_mem i hj)) _ (cycle_timely hs (h i List.mem_cons_self))
  have htimely := hrun {} ⟨.nil, by simp [checkTimes]⟩
  exact ⟨htimely.gaps, htimely.last⟩

theorem runLoop_checks_failingCycle :
    (checkTimes (runLoop { scanInterval := 30 } [failingCycle, { failingCycle with work := 2 }]).log).IsChain
        (fun later earlier => later - earlier ≤ 2 + 5) ∧
      ∀ t ∈ (checkTimes (runLoop { scanInterval := 30 } [failingCycle, { failingCycle with work := 2 }]).log).head?,
        (runLoop { scanInterval := 30 } [failingCycle, { failingCycle with work := 2 }]).clock - t ≤ 2 + 5 :=
  runLoop_checks { scanInterval := 30 } 2 [failingCycle, { failingCycle with work := 2 }] (by simp [failingCycle])

end PearlAlgo.ServiceLoop
