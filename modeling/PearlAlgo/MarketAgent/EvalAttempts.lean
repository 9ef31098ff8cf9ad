import Mathlib.Data.List.Range
import Mathlib.Tactic.Linarith
import PearlAlgo.MarketAgent.TvPaperEvalTracker

/-!
# Attempts at the evaluation (`market_agent/tv_paper_eval_tracker.py`)

`apply_cases` is what a call can do to the current attempt: keep it, book on it, move its floor, or end it. From it
follow the books of every attempt, the rules by which one ends and the numbers of the history.
-/

namespace PearlAlgo
open Py

/-- The counters of an attempt agree with each other. -/
structure Bookkept (a : EvalAttempt) : Prop where
  counts : a.wins + a.losses = a.trades
  total : a.dailyPnlByDate.values.sum = a.pnl
  nodup : a.tradingDays.Nodup
  days : ∀ d, d ∈ a.tradingDays ↔ d ∈ a.dailyPnlByDate.keys
  low : a.maxDrawdownHit ≤ a.pnl
  high : a.pnl ≤ a.profitPeak

/-- The call ends the attempt by the rule for its outcome. -/
def EndedByRule (config : TvPaperEvalConfig) (call : EvalCall) (ended : EvalAttempt) : Prop :=
  match ended.outcome, call with
  | .pass, .recordTrade _ _ _ _ => config.profitTarget ≤ ended.pnl ∧ (checkConsistency config ended).met = true ∧
      (checkMinDays config ended).met = true
  | .fail, .recordTrade _ _ _ _ => ended.startingBalance + ended.pnl < ended.currentDrawdownFloor
  | .fail, .checkIntradayBreach equity _ => equity < ended.currentDrawdownFloor
  | _, _ => False

/-- The attempt that the call ends, before its outcome is noted. -/
def EvalCall.acted (call : EvalCall) (a : EvalAttempt) : EvalAttempt :=
  match call with
  | .recordTrade pnl isWin tradeDate clock =>
    TvPaperEvalTracker.book a pnl isWin ((tradeDate.filter (· ≠ "")).getD clock.today)
  | .updateEodHwm _ | .checkIntradayBreach _ _ => a

/-- The outcome with which the call ends an active attempt, if it does. -/
def EvalCall.ends (config : TvPaperEvalConfig) (a : EvalAttempt) (call : EvalCall) : Option AttemptOutcome :=
  match call with
  | .recordTrade _ _ _ _ => if config.enabled then TvPaperEvalTracker.verdict config (call.acted a) else none
  | .updateEodHwm _ => none
  | .checkIntradayBreach equity _ => if equity < a.currentDrawdownFloor then some .fail else none

namespace TvPaperEvalTracker

def fresh (config : TvPaperEvalConfig) (attemptId : Int) (startedAt : String) (file : Option EvalStateFile)
    (history : List AttemptRecord) : TvPaperEvalTracker where
  config
  currentAttempt := newAttempt config attemptId startedAt
  stateFile := file
  history

end TvPaperEvalTracker

/-! ### What a call can do -/

section cases
variable {t : TvPaperEvalTracker} {call : EvalCall} {a : EvalAttempt} {config : TvPaperEvalConfig}

/-- The call does nothing, books a trade, moves the floor, or ends the attempt. -/
inductive EvalStep (t : TvPaperEvalTracker) (call : EvalCall) (t' : TvPaperEvalTracker) : Prop
  | kept (hends : t.currentAttempt.outcome = .active → call.ends t.config t.currentAttempt = none) (ht' : t' = t)
  | booked (hactive : t.currentAttempt.outcome = .active) (hends : call.ends t.config t.currentAttempt = none)
      (ht' : t' = TvPaperEvalTracker.save { t with currentAttempt := call.acted t.currentAttempt })
  | moved (hactive : t.currentAttempt.outcome = .active) (balance : Option ℚ) (hcall : call = .updateEodHwm balance)
      (ht' : t' = TvPaperEvalTracker.save
        { t with currentAttempt := TvPaperEvalTracker.trailFloor t.config (TvPaperEvalTracker.raiseMark t.currentAttempt
            (balance.getD (t.currentAttempt.startingBalance + t.currentAttempt.pnl))) })
  | ended (hactive : t.currentAttempt.outcome = .active) (outcome : AttemptOutcome) (clock : EvalClock)
      (hends : call.ends t.config t.currentAttempt = some outcome)
      (ht' : t' = (TvPaperEvalTracker.endAttempt { t with currentAttempt := call.acted t.currentAttempt } outcome clock).2)

theorem endAttempt_of_reset {outcome : AttemptOutcome} {clock : EvalClock}
    (hreset : TvPaperEvalTracker.autoResets t.config outcome = true) :
    (t.endAttempt outcome clock).2 =
      let closed := TvPaperEvalTracker.close t.currentAttempt outcome clock
      let t := { t with currentAttempt := closed }.save
      TvPaperEvalTracker.startAttempt { t with history := t.history ++ [closed.toDict] } (closed.attemptId + 1)
        clock.startedAt := if_pos hreset

theorem endAttempt_of_not_reset {outcome : AttemptOutcome} {clock : EvalClock}
    (hreset : ¬ TvPaperEvalTracker.autoResets t.config outcome = true) :
    (t.endAttempt outcome clock).2 =
      let closed := TvPaperEvalTracker.close t.currentAttempt outcome clock
      let t := { t with currentAttempt := closed }.save
      { t with history := t.history ++ [closed.toDict] } := if_neg hreset

theorem endAttempt_currentAttempt (outcome : AttemptOutcome) (clock : EvalClock) :
    (t.endAttempt outcome clock).2.currentAttempt =
      if TvPaperEvalTracker.autoResets t.config outcome
        then newAttempt t.config (t.currentAttempt.attemptId + 1) clock.startedAt
        else TvPaperEvalTracker.close t.currentAttempt outcome clock := by
  by_cases hreset : TvPaperEvalTracker.autoResets t.config outcome = true
  · rw [endAttempt_of_reset hreset, if_pos hreset]
    rfl
  · rw [endAttempt_of_not_reset hreset, if_neg hreset]
    rfl

theorem endAttempt_frame (outcome : AttemptOutcome) (clock : EvalClock) :
    (t.endAttempt outcome clock).2.config = t.config ∧ (t.endAttempt outcome clock).2.history =
      t.history ++ [(TvPaperEvalTracker.close t.currentAttempt outcome clock).toDict] := by
  by_cases hreset : TvPaperEvalTracker.autoResets t.config outcome = true
  · rw [endAttempt_of_reset hreset]
    exact ⟨rfl, rfl⟩
  · rw [endAttempt_of_not_reset hreset]
    exact ⟨rfl, rfl⟩

theorem apply_cases (t : TvPaperEvalTracker) (call : EvalCall) : EvalStep t call (call.apply t) := by
  cases call with
  | recordTrade pnl isWin tradeDate clock =>
    show EvalStep t _ (t.recordTrade pnl isWin tradeDate clock).2
    unfold TvPaperEvalTracker.recordTrade
    split
    next hoff =>
      refine .kept (fun hactive => if_neg fun henabled => ?_) rfl
      rcases hoff with hdisabled | hended
      · exact hdisabled henabled
      · exact hended hactive
    next hgo =>
      rw [not_or, not_not, ne_eq, not_not] at hgo
      dsimp only
      split
      next outcome hverdict => exact .ended hgo.2 outcome clock ((if_pos hgo.1).trans hverdict) rfl
      next hverdict => exact .booked hgo.2 ((if_pos hgo.1).trans hverdict) rfl
  | updateEodHwm eodBalance =>
    show EvalStep t _ (t.updateEodHwm eodBalance)
    unfold TvPaperEvalTracker.updateEodHwm
    split
    · exact .kept (fun _ => rfl) rfl
    next hgo => exact .moved (not_not.1 hgo) eodBalance rfl rfl
  | checkIntradayBreach equity clock =>
    show EvalStep t _ (t.checkIntradayBreach equity clock).2
    unfold TvPaperEvalTracker.checkIntradayBreach
    split
    next hended => exact .kept (fun hactive => absurd hactive hended) rfl
    next hgo =>
      split
      next hbreach =>
        have hends : (EvalCall.checkIntradayBreach equity clock).ends t.config t.currentAttempt = some .fail :=
          if_pos hbreach
        exact .ended (not_not.1 hgo) .fail clock hends rfl
      next hsafe => exact .kept (fun _ => if_neg hsafe) rfl

theorem apply_config (t : TvPaperEvalTracker) (call : EvalCall) : (call.apply t).config = t.config := by
  cases apply_cases t call with
  | kept _ ht' => rw [ht']
  | booked _ _ ht' =>
    rw [ht']
    rfl
  | moved _ _ _ ht' =>
    rw [ht']
    rfl
  | ended _ outcome clock _ ht' =>
    rw [ht']
    exact (endAttempt_frame outcome clock).1

end cases

/-! ### The books -/

section books
variable {a : EvalAttempt} {config : TvPaperEvalConfig}

theorem sum_upsert {l : List (String × ℚ)} {date : String} {sum pnl : ℚ} (hmem : (date, sum) ∈ l)
    (hnodup : (l.map Prod.fst).Nodup) :
    ((Dict.upsert date (sum + pnl) l).map Prod.snd).sum = (l.map Prod.snd).sum + pnl := by
  induction l with
  | nil => cases hmem
  | cons e l ih =>
    obtain ⟨he, hl⟩ := List.nodup_cons.1 hnodup
    unfold Dict.upsert
    rcases List.mem_cons.1 hmem with rfl | hmem
    · rw [if_pos rfl]
      simp only [List.map_cons, List.sum_cons]
      linarith
    · have hne : e.1 ≠ date := fun hdate => he (List.mem_map.2 ⟨_, hmem, hdate.symm⟩)
      rw [if_neg hne]
      simp only [List.map_cons, List.sum_cons]
      rw [ih hmem hl, add_assoc]

theorem values_addDaily (daily : Dict String ℚ) (date : String) (pnl : ℚ) :
    (TvPaperEvalTracker.addDaily daily date pnl).values.sum = daily.values.sum + pnl := by
  unfold TvPaperEvalTracker.addDaily
  rcases hget : daily.get? date with _ | sum
  · have hnew : date ∉ daily.entries.map Prod.fst := by
      intro hmem
      obtain ⟨⟨d, sum⟩, he, rfl⟩ := List.mem_map.1 hmem
      rw [Dict.get?_eq_some.2 he] at hget
      cases hget
    show ((Dict.upsert date pnl daily.entries).map Prod.snd).sum = _
    rw [Dict.upsert_of_notMem hnew, List.map_append, List.sum_append, List.map_singleton, List.sum_singleton]
    rfl
  · exact sum_upsert (Dict.get?_eq_some.1 hget) daily.nodup

theorem mem_keys_addDaily {daily : Dict String ℚ} {date d : String} {pnl : ℚ} :
    d ∈ (TvPaperEvalTracker.addDaily daily date pnl).keys ↔ d = date ∨ d ∈ daily.keys := by
  unfold TvPaperEvalTracker.addDaily
  split <;> exact Dict.mem_keys_upsert

theorem Bookkept.new (attemptId : Int) (startedAt : String) : Bookkept (newAttempt config attemptId startedAt) where
  counts := rfl
  total := rfl
  nodup := List.nodup_nil
  days _ := Iff.rfl
  low := le_rfl
  high := le_rfl

theorem Bookkept.book (h : Bookkept a) (pnl : ℚ) (isWin : Bool) (date : String) :
    Bookkept (TvPaperEvalTracker.book a pnl isWin date) where
  counts := by
    show (if isWin then a.wins + 1 else a.wins) + (if isWin then a.losses else a.losses + 1) = a.trades + 1
    have hcounts := h.counts
    cases isWin <;> simp only [if_true, if_false, Bool.false_eq_true] <;> omega
  total := by
    show (TvPaperEvalTracker.addDaily a.dailyPnlByDate date pnl).values.sum = a.pnl + pnl
    rw [values_addDaily, h.total]
  nodup := by
    show (if date ∈ a.tradingDays then a.tradingDays else a.tradingDays ++ [date]).Nodup
    split
    · exact h.nodup
    next hnew => exact List.nodup_append.2 ⟨h.nodup, List.nodup_singleton _, by
        intro d hd d' hd' hdd'
        rw [List.mem_singleton.1 hd'] at hdd'
        exact hnew (hdd' ▸ hd)⟩
  days d := by
    show d ∈ (if date ∈ a.tradingDays then a.tradingDays else a.tradingDays ++ [date]) ↔ _
    refine Iff.trans ?_ mem_keys_addDaily.symm
    rw [← h.days]
    split
    next hold => exact ⟨.inr, fun hd => hd.elim (fun hdate => hdate ▸ hold) id⟩
    · rw [List.mem_append, List.mem_singleton, or_comm]
  low := by
    show (if a.pnl + pnl < a.maxDrawdownHit then a.pnl + pnl else a.maxDrawdownHit) ≤ a.pnl + pnl
    split
    · exact le_rfl
    next hlow => exact not_lt.1 hlow
  high := by
    show a.pnl + pnl ≤ if a.profitPeak < a.pnl + pnl then a.pnl + pnl else a.profitPeak
    split
    · exact le_rfl
    next hhigh => exact not_lt.1 hhigh

theorem Bookkept.close (h : Bookkept a) (outcome : AttemptOutcome) (clock : EvalClock) :
    Bookkept (TvPaperEvalTracker.close a outcome clock) :=
  ⟨h.counts, h.total, h.nodup, h.days, h.low, h.high⟩

/-- The floor moves; nothing else does but the high-water mark. -/
theorem trailFloor_eq (config : TvPaperEvalConfig) (a : EvalAttempt) : ∃ currentDrawdownFloor drawdownLocked,
    TvPaperEvalTracker.trailFloor config a = { a with currentDrawdownFloor, drawdownLocked } := by
  unfold TvPaperEvalTracker.trailFloor
  dsimp only
  split_ifs <;> exact ⟨_, _, rfl⟩

theorem raiseMark_eq (a : EvalAttempt) (balance : ℚ) : ∃ eodHighWaterMark,
    TvPaperEvalTracker.raiseMark a balance = { a with eodHighWaterMark } := by
  unfold TvPaperEvalTracker.raiseMark
  split <;> exact ⟨_, rfl⟩

theorem Bookkept.moved (h : Bookkept a) (balance : ℚ) :
    Bookkept (TvPaperEvalTracker.trailFloor config (TvPaperEvalTracker.raiseMark a balance)) := by
  obtain ⟨mark, hmark⟩ := raiseMark_eq a balance
  obtain ⟨floor, locked, hfloor⟩ := trailFloor_eq config (TvPaperEvalTracker.raiseMark a balance)
  rw [hfloor, hmark]
  exact ⟨h.counts, h.total, h.nodup, h.days, h.low, h.high⟩

theorem Bookkept.acted (h : Bookkept a) (call : EvalCall) : Bookkept (call.acted a) := by
  cases call with
  | recordTrade pnl isWin tradeDate clock => exact h.book _ _ _
  | updateEodHwm balance => exact h
  | checkIntradayBreach equity clock => exact h

theorem Bookkept.apply {t : TvPaperEvalTracker} (h : Bookkept t.currentAttempt) (call : EvalCall) :
    Bookkept (call.apply t).currentAttempt := by
  cases apply_cases t call with
  | kept _ ht' =>
    rw [ht']
    exact h
  | booked _ _ ht' =>
    rw [ht']
    exact h.acted call
  | moved _ balance _ ht' =>
    rw [ht']
    exact h.moved _
  | ended _ outcome clock _ ht' =>
    rw [ht', endAttempt_currentAttempt]
    split
    · exact .new _ _
    · exact (h.acted call).close _ _

theorem Bookkept.run {t : TvPaperEvalTracker} (h : Bookkept t.currentAttempt) (calls : List EvalCall) :
    Bookkept (t.run calls).currentAttempt := by
  induction calls generalizing t with
  | nil => exact h
  | cons call rest ih => exact ih (h.apply call)

end books

/-! ### The ends of attempts -/

section ends
variable {a : EvalAttempt} {config : TvPaperEvalConfig} {call : EvalCall} {outcome : AttemptOutcome}

theorem acted_attemptId (call : EvalCall) (a : EvalAttempt) : (call.acted a).attemptId = a.attemptId := by
  cases call <;> rfl

theorem acted_outcome (call : EvalCall) (a : EvalAttempt) : (call.acted a).outcome = a.outcome := by
  cases call <;> rfl

theorem verdict_eq_some (h : TvPaperEvalTracker.verdict config a = some outcome) :
    outcome = .fail ∧ a.startingBalance + a.pnl < a.currentDrawdownFloor ∨
      outcome = .pass ∧ config.profitTarget ≤ a.pnl ∧ (checkConsistency config a).met = true ∧
        (checkMinDays config a).met = true := by
  unfold TvPaperEvalTracker.verdict at h
  split at h
  next hfloor =>
    cases h
    exact .inl ⟨rfl, hfloor⟩
  · split at h
    next hrules =>
      cases h
      exact .inr ⟨rfl, hrules⟩
    · cases h

theorem endedByRule (hends : call.ends config a = some outcome) (clock : EvalClock) :
    EndedByRule config call (TvPaperEvalTracker.close (call.acted a) outcome clock) := by
  cases call with
  | recordTrade pnl isWin tradeDate _ =>
    change (if config.enabled = true then _ else none) = _ at hends
    split at hends
    · rcases verdict_eq_some hends with ⟨rfl, hfloor⟩ | ⟨rfl, hrules⟩
      · exact hfloor
      · exact hrules
    · cases hends
  | updateEodHwm balance => cases hends
  | checkIntradayBreach equity _ =>
    change (if equity < a.currentDrawdownFloor then _ else none) = _ at hends
    split at hends
    next hbreach =>
      cases hends
      exact hbreach
    · cases hends

theorem outcome_of_ends (hends : call.ends config a = some outcome) : outcome = .pass ∨ outcome = .fail := by
  have hrule := endedByRule hends ⟨"", "", ""⟩
  cases outcome with
  | pass => exact .inl rfl
  | fail => exact .inr rfl
  | _ => cases call <;> exact absurd hrule id

theorem moved_attemptId (config : TvPaperEvalConfig) (a : EvalAttempt) (balance : ℚ) :
    (TvPaperEvalTracker.trailFloor config (TvPaperEvalTracker.raiseMark a balance)).attemptId = a.attemptId ∧
      (TvPaperEvalTracker.trailFloor config (TvPaperEvalTracker.raiseMark a balance)).outcome = a.outcome := by
  obtain ⟨mark, hmark⟩ := raiseMark_eq a balance
  obtain ⟨floor, locked, hfloor⟩ := trailFloor_eq config (TvPaperEvalTracker.raiseMark a balance)
  rw [hfloor, hmark]
  exact ⟨rfl, rfl⟩

/-- A call goes on with the attempt, or ends it by its rule and enters it in the history. -/
theorem apply_ends (t : TvPaperEvalTracker) (call : EvalCall) :
    ((call.apply t).history = t.history ∧ (call.apply t).currentAttempt.attemptId = t.currentAttempt.attemptId ∧
      (call.apply t).currentAttempt.outcome = t.currentAttempt.outcome) ∨
    ∃ ended, t.currentAttempt.outcome = .active ∧ ended.attemptId = t.currentAttempt.attemptId ∧
      EndedByRule t.config call ended ∧ (call.apply t).history = t.history ++ [ended.toDict] := by
  cases apply_cases t call with
  | kept _ ht' =>
    rw [ht']
    exact .inl ⟨rfl, rfl, rfl⟩
  | booked _ _ ht' =>
    rw [ht']
    exact .inl ⟨rfl, acted_attemptId call t.currentAttempt, acted_outcome call t.currentAttempt⟩
  | moved _ balance _ ht' =>
    rw [ht']
    exact .inl ⟨rfl, moved_attemptId _ _ _⟩
  | ended hactive outcome clock hends ht' =>
    rw [ht', (endAttempt_frame outcome clock).2]
    exact .inr ⟨TvPaperEvalTracker.close (call.acted t.currentAttempt) outcome clock, hactive,
      acted_attemptId call t.currentAttempt, endedByRule hends clock, rfl⟩

/-- The history from an attempt on: one entry for each attempt ended since, under its number. -/
structure Numbered (first : Int) (history : List AttemptRecord) (t : TvPaperEvalTracker) : Prop where
  entries : ∃ ended : List EvalAttempt, t.history = history ++ ended.map EvalAttempt.toDict ∧
    ended.map EvalAttempt.attemptId = (List.range ended.length).map (fun k : Nat => first + k) ∧
    (∀ a ∈ ended, a.outcome ≠ .active) ∧ t.currentAttempt.attemptId = first + ended.length
  active : t.currentAttempt.outcome = .active

theorem Numbered.apply {t : TvPaperEvalTracker} {first : Int} {history : List AttemptRecord}
    (hpass : t.config.autoResetOnPass = true) (hfail : t.config.autoResetOnFail = true) (h : Numbered first history t)
    (call : EvalCall) : Numbered first history (call.apply t) := by
  obtain ⟨ended, hhistory, hids, hout, hid⟩ := h.entries
  cases apply_cases t call with
  | kept _ ht' =>
    rw [ht']
    exact h
  | booked _ _ ht' =>
    rw [ht']
    exact ⟨⟨ended, hhistory, hids, hout, (acted_attemptId call t.currentAttempt).trans hid⟩,
      (acted_outcome call t.currentAttempt).trans h.active⟩
  | moved _ balance _ ht' =>
    rw [ht']
    exact ⟨⟨ended, hhistory, hids, hout, (moved_attemptId _ _ _).1.trans hid⟩, (moved_attemptId _ _ _).2.trans h.active⟩
  | ended _ outcome clock hends ht' =>
    have hreset : TvPaperEvalTracker.autoResets t.config outcome = true := by
      rcases outcome_of_ends hends with rfl | rfl
      · exact hpass
      · exact hfail
    have hclosed : (TvPaperEvalTracker.close (call.acted t.currentAttempt) outcome clock).attemptId =
        first + ended.length := (acted_attemptId call t.currentAttempt).trans hid
    refine ⟨⟨ended ++ [TvPaperEvalTracker.close (call.acted t.currentAttempt) outcome clock], ?_, ?_, ?_, ?_⟩, ?_⟩
    · rw [ht', (endAttempt_frame outcome clock).2, hhistory, List.append_assoc, List.map_append, List.map_singleton]
    · rw [List.map_append, hids, List.map_singleton, List.length_append, List.length_singleton, List.range_succ,
        List.map_append, List.map_singleton, hclosed]
    · intro b hb
      rcases List.mem_append.1 hb with hb | hb
      · exact hout b hb
      · rw [List.mem_singleton.1 hb]
        show outcome ≠ .active
        rcases outcome_of_ends hends with rfl | rfl <;> simp
    · rw [ht', endAttempt_currentAttempt, if_pos hreset, List.length_append, List.length_singleton]
      show (call.acted t.currentAttempt).attemptId + 1 = _
      rw [acted_attemptId, hid]
      push_cast
      ring
    · rw [ht', endAttempt_currentAttempt, if_pos hreset]
      rfl

theorem run_config (t : TvPaperEvalTracker) (calls : List EvalCall) : (t.run calls).config = t.config := by
  induction calls generalizing t with
  | nil => rfl
  | cons call rest ih => exact (ih (call.apply t)).trans (apply_config t call)

theorem Numbered.run {t : TvPaperEvalTracker} {first : Int} {history : List AttemptRecord}
    (hpass : t.config.autoResetOnPass = true) (hfail : t.config.autoResetOnFail = true) (h : Numbered first history t)
    (calls : List EvalCall) : Numbered first history (t.run calls) := by
  induction calls generalizing t with
  | nil => exact h
  | cons call rest ih =>
    refine ih ?_ ?_ (h.apply hpass hfail call)
    · rw [apply_config]
      exact hpass
    · rw [apply_config]
      exact hfail

end ends

/-- From a new attempt on, after any calls: the books of the current attempt agree; whatever call comes next goes on
with the attempt or ends it by the rule for its outcome, with one entry in the history; and with both automatic resets
the entries number the attempts ended so far. -/
theorem evaluation_bookkeeping (config : TvPaperEvalConfig) (attemptId : Int) (startedAt : String)
    (file : Option EvalStateFile) (history : List AttemptRecord) (calls : List EvalCall) :
    let t := (TvPaperEvalTracker.fresh config attemptId startedAt file history).run calls
    Bookkept t.currentAttempt ∧
      (∀ call : EvalCall,
        ((call.apply t).history = t.history ∧ (call.apply t).currentAttempt.attemptId = t.currentAttempt.attemptId ∧
          (call.apply t).currentAttempt.outcome = t.currentAttempt.outcome) ∨
        ∃ ended, t.currentAttempt.outcome = .active ∧ ended.attemptId = t.currentAttempt.attemptId ∧
          EndedByRule config call ended ∧ (call.apply t).history = t.history ++ [ended.toDict]) ∧
      (config.autoResetOnPass = true → config.autoResetOnFail = true → Numbered attemptId history t) := by
  intro t
  have hconfig : t.config = config := run_config _ calls
  refine ⟨Bookkept.run (.new attemptId startedAt) calls, fun call => ?_, fun hpass hfail => ?_⟩
  · have hends := apply_ends t call
    rw [hconfig] at hends
    exact hends
  · have hstart : Numbered attemptId history (TvPaperEvalTracker.fresh config attemptId startedAt file history) :=
      ⟨⟨[], (List.append_nil history).symm, rfl, by simp, (add_zero attemptId).symm⟩, rfl⟩
    exact hstart.run hpass hfail calls

end PearlAlgo
