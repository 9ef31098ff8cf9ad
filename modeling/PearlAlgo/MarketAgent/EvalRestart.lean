import PearlAlgo.MarketAgent.EvalAttempts

/-!
# The evaluation across restarts (`market_agent/tv_paper_eval_tracker.py`)

`restart_keeps_iff`: along a run with refreshes and restarts the state file gives the current attempt back, and its
rules are those of its attempt, if and only if no trade ends an attempt and a breach ends one only before its first
trade and with the automatic reset on.
-/

namespace PearlAlgo
open Py

/-- What happens to a tracker. A restart is a new tracker on the files of the old one, and its configuration may differ. -/
inductive TrackerEvent
  | call (c : EvalCall)
  | refresh (now : String)
  | restart (config : TvPaperEvalConfig) (now : String)

def TrackerEvent.apply (t : TvPaperEvalTracker) : TrackerEvent → TvPaperEvalTracker
  | .call c => c.apply t
  | .refresh now => t.refresh now
  | .restart config now => .init config t.stateFile t.history now

namespace TvPaperEvalTracker

def runEvents (t : TvPaperEvalTracker) (events : List TrackerEvent) : TvPaperEvalTracker :=
  events.foldl TrackerEvent.apply t

def first (config : TvPaperEvalConfig) (history : List AttemptRecord) (now : String) : TvPaperEvalTracker :=
  .init config none history now

/-- A new tracker on the file last written, or a refresh from it, comes to the current attempt. -/
def SurvivesRestart (t : TvPaperEvalTracker) : Prop :=
  ∀ f, t.written.head? = some f → ∀ now,
    (init t.config (some f) t.history now).currentAttempt = t.currentAttempt ∧
      (refresh { t with stateFile := some f } now).currentAttempt = t.currentAttempt

end TvPaperEvalTracker

/-- The section `tv_paper` is that of the attempt in the file. -/
def FileFits (config : TvPaperEvalConfig) (f : EvalStateFile) : Prop :=
  ∀ now, f.tvPaper =
    tvPaperSection config (EvalAttempt.fromDict f.currentAttempt now) (EvalAttempt.fromDict f.currentAttempt now)

/-- The state survives a restart, and the files written fit. -/
def StateOk (t : TvPaperEvalTracker) : Prop :=
  t.SurvivesRestart ∧ ∀ f ∈ t.written, FileFits t.config f

/-- A trade does not end the attempt; a breach does only if it has no trading days and the next one starts by itself. -/
def EndsClean (t : TvPaperEvalTracker) : TrackerEvent → Prop
  | .call (.recordTrade pnl isWin tradeDate clock) => t.config.enabled = true → t.currentAttempt.outcome = .active →
    TvPaperEvalTracker.verdict t.config (TvPaperEvalTracker.book t.currentAttempt pnl isWin
      ((tradeDate.filter (· ≠ "")).getD clock.today)) = none
  | .call (.checkIntradayBreach equity _) => t.currentAttempt.outcome = .active →
    equity < t.currentAttempt.currentDrawdownFloor →
      t.config.autoResetOnFail = true ∧ t.currentAttempt.tradingDays = []
  | _ => True

section restart
variable {t : TvPaperEvalTracker} {a : EvalAttempt} {f : EvalStateFile} {config : TvPaperEvalConfig} {c : EvalCall}

theorem book_tradingDays_ne_nil (a : EvalAttempt) (pnl : ℚ) (isWin : Bool) (date : String) :
    (TvPaperEvalTracker.book a pnl isWin date).tradingDays ≠ [] := by
  show (if date ∈ a.tradingDays then a.tradingDays else a.tradingDays ++ [date]) ≠ []
  split
  next hold => exact List.ne_nil_of_mem hold
  · simp

theorem endsClean_call : EndsClean t (.call c) ↔ (t.currentAttempt.outcome = .active →
    ∀ outcome, c.ends t.config t.currentAttempt = some outcome →
      TvPaperEvalTracker.autoResets t.config outcome = true ∧ (c.acted t.currentAttempt).tradingDays = []) := by
  cases c with
  | recordTrade pnl isWin tradeDate clock =>
    constructor
    · intro h hactive outcome hends
      change (if t.config.enabled = true then _ else none) = _ at hends
      split at hends
      next henabled =>
        have hnone := h henabled hactive
        cases hnone.symm.trans hends
      · cases hends
    · intro h henabled hactive
      rcases hverdict : TvPaperEvalTracker.verdict t.config _ with _ | outcome
      · rfl
      · exact absurd (h hactive outcome ((if_pos henabled).trans hverdict)).2 (book_tradingDays_ne_nil _ _ _ _)
  | updateEodHwm balance => exact iff_of_true trivial fun _ _ hends => by cases hends
  | checkIntradayBreach equity clock =>
    constructor
    · intro h hactive outcome hends
      change (if equity < t.currentAttempt.currentDrawdownFloor then _ else none) = _ at hends
      split at hends
      next hbreach =>
        cases hends
        exact h hactive hbreach
      · cases hends
    · intro h hactive hbreach
      exact h hactive .fail (if_pos hbreach)

theorem loadOrCreateAttempt_active (hf : f.currentAttempt = a.toDict) (hactive : a.outcome = .active) (now : String) :
    loadOrCreateAttempt config (some f) now = (a, false) := by
  show (if (EvalAttempt.fromDict f.currentAttempt now).outcome ≠ .active then _ else _) = _
  rw [hf, EvalAttempt.fromDict_toDict, if_neg (not_not.2 hactive)]

theorem loadOrCreateAttempt_ended (hf : f.currentAttempt = a.toDict) (hended : a.outcome ≠ .active) (now : String) :
    loadOrCreateAttempt config (some f) now = (newAttempt config (a.attemptId + 1) now, true) := by
  show (if (EvalAttempt.fromDict f.currentAttempt now).outcome ≠ .active then _ else _) = _
  rw [hf, EvalAttempt.fromDict_toDict, if_pos hended]

/-- While no attempt ends otherwise: the attempt goes on, and it is the one in the file. -/
structure Resumable (t : TvPaperEvalTracker) : Prop where
  active : t.currentAttempt.outcome = .active
  books : Bookkept t.currentAttempt
  file : ∀ f, t.stateFile = some f → f.currentAttempt = t.currentAttempt.toDict
  last : ∀ f, t.written.head? = some f → t.stateFile = some f
  fits : ∀ f ∈ t.written, FileFits t.config f

theorem Resumable.refresh_eq (h : Resumable t) (now : String) : t.refresh now = t := by
  unfold TvPaperEvalTracker.refresh
  rcases hfile : t.stateFile with _ | f
  · rfl
  · dsimp only
    rw [loadOrCreateAttempt_active (h.file f hfile) h.active]
    rfl

theorem Resumable.stateOk (h : Resumable t) : StateOk t := by
  refine ⟨fun f hlast now => ?_, h.fits⟩
  have hstate := h.last f hlast
  have hload := @loadOrCreateAttempt_active _ f t.config (h.file f hstate) h.active now
  constructor
  · show (loadOrCreateAttempt t.config (some f) now).1 = _
    rw [hload]
  · rw [← hstate]
    exact congrArg TvPaperEvalTracker.currentAttempt (h.refresh_eq now)

theorem fileFits_self (config : TvPaperEvalConfig) (a : EvalAttempt) :
    FileFits config ⟨a.toDict, tvPaperSection config a a⟩ := fun _ => rfl

/-- The rules do not tell two attempts without trading days apart. -/
theorem tvPaperSection_of_tradingDays_nil {b : EvalAttempt} (hbooks : Bookkept b) (hdays : b.tradingDays = [])
    (hnew : a.dailyPnlByDate.entries = []) (hnewDays : a.tradingDays = []) :
    tvPaperSection config a b = tvPaperSection config a a := by
  have hdaily : b.dailyPnlByDate.entries = [] := by
    refine List.eq_nil_iff_forall_not_mem.2 fun e he => ?_
    have hkey : e.1 ∈ b.dailyPnlByDate.keys := List.mem_map.2 ⟨e, he, rfl⟩
    rw [← hbooks.days, hdays] at hkey
    cases hkey
  have hbest : ∀ x : EvalAttempt, x.dailyPnlByDate.entries = [] → checkConsistency config x = ⟨true, 0, 0, none⟩ := by
    intro x hx
    unfold checkConsistency bestDay
    rw [hx]
    rfl
  have hmin : checkMinDays config b = checkMinDays config a := by
    unfold checkMinDays
    rw [hdays, hnewDays]
  unfold tvPaperSection
  rw [hbest b hdaily, hbest a hnew, hmin]

theorem Resumable.saved (h : Resumable t) (ha : a.outcome = .active) (hbooks : Bookkept a) :
    Resumable (TvPaperEvalTracker.save { t with currentAttempt := a }) where
  active := ha
  books := hbooks
  file f hf := by
    cases hf
    rfl
  last f hf := hf
  fits f hf := by
    rcases List.mem_cons.1 hf with rfl | hf
    · exact fileFits_self t.config a
    · exact h.fits f hf

theorem Resumable.reset (h : Resumable t) (outcome : AttemptOutcome) (clock : EvalClock) (hbooks : Bookkept a)
    (hreset : TvPaperEvalTracker.autoResets t.config outcome = true) (hdays : a.tradingDays = []) :
    Resumable (TvPaperEvalTracker.endAttempt { t with currentAttempt := a } outcome clock).2 := by
  rw [@endAttempt_of_reset { t with currentAttempt := a } outcome clock hreset]
  refine ⟨rfl, .new _ _, fun f hf => ?_, fun f hf => hf, fun f hf => ?_⟩
  · cases hf
    rfl
  · rcases List.mem_cons.1 hf with rfl | hf
    · intro _
      exact tvPaperSection_of_tradingDays_nil (hbooks.close outcome clock) hdays rfl rfl
    · rcases List.mem_cons.1 hf with rfl | hf
      · exact fileFits_self t.config _
      · exact h.fits f hf

theorem Resumable.apply (h : Resumable t) (e : TrackerEvent) (hclean : EndsClean t e) : Resumable (e.apply t) := by
  cases e with
  | call c =>
    show Resumable (c.apply t)
    cases apply_cases t c with
    | kept _ ht' =>
      rw [ht']
      exact h
    | booked _ _ ht' =>
      rw [ht']
      exact h.saved ((acted_outcome c _).trans h.active) (h.books.acted c)
    | moved _ balance _ ht' =>
      rw [ht']
      exact h.saved ((moved_attemptId _ _ _).2.trans h.active) (h.books.moved _)
    | ended _ outcome clock hends ht' =>
      obtain ⟨hreset, hdays⟩ := endsClean_call.1 hclean h.active outcome hends
      rw [ht']
      exact h.reset outcome clock (h.books.acted c) hreset hdays
  | refresh now =>
    show Resumable (t.refresh now)
    rw [h.refresh_eq]
    exact h
  | restart config now =>
    show Resumable (.init config t.stateFile t.history now)
    unfold TvPaperEvalTracker.init
    rcases hfile : t.stateFile with _ | f
    · exact ⟨rfl, .new _ _, fun f hf => (by cases hf), fun f hf => (by cases hf), fun f hf => (by cases hf)⟩
    · rw [loadOrCreateAttempt_active (h.file f hfile) h.active]
      refine ⟨h.active, h.books, fun g hg => ?_, fun g hg => (by cases hg), fun g hg => (by cases hg)⟩
      cases hg
      exact h.file f hfile

theorem Resumable.first (config : TvPaperEvalConfig) (history : List AttemptRecord) (now : String) :
    Resumable (.first config history now) :=
  ⟨rfl, .new _ _, fun f hf => (by cases hf), fun f hf => (by cases hf), fun f hf => (by cases hf)⟩

theorem Resumable.runEvents {events : List TrackerEvent} (h : Resumable t)
    (hclean : ∀ pre e post, events = pre ++ e :: post → EndsClean (t.runEvents pre) e) :
    Resumable (t.runEvents events) := by
  induction events generalizing t with
  | nil => exact h
  | cons e rest ih =>
    refine ih (h.apply e (hclean [] e rest rfl)) fun pre e' post hrest => ?_
    exact hclean (e :: pre) e' post (by rw [hrest, List.cons_append])

theorem apply_of_ends {outcome : AttemptOutcome} (hactive : t.currentAttempt.outcome = .active)
    (hends : c.ends t.config t.currentAttempt = some outcome) : ∃ clock, c.apply t =
      (TvPaperEvalTracker.endAttempt { t with currentAttempt := c.acted t.currentAttempt } outcome clock).2 := by
  cases apply_cases t c with
  | kept hnone _ => cases (hnone hactive).symm.trans hends
  | booked _ hnone _ => cases hnone.symm.trans hends
  | moved _ balance hcall _ =>
    rw [hcall] at hends
    cases hends
  | ended _ outcome' clock hends' ht' =>
    obtain rfl := Option.some.inj (hends.symm.trans hends')
    exact ⟨clock, ht'⟩

/-- After an end that leaves the state right the attempt had no trading days, and the next one has started. -/
theorem reset_of_stateOk {outcome : AttemptOutcome} {clock : EvalClock} (houtcome : outcome ≠ .active)
    (hok : StateOk (t.endAttempt outcome clock).2) :
    TvPaperEvalTracker.autoResets t.config outcome = true ∧ t.currentAttempt.tradingDays = [] := by
  by_cases hreset : TvPaperEvalTracker.autoResets t.config outcome = true
  · rw [endAttempt_of_reset hreset] at hok
    -- the file of the new attempt holds the rules of the one that ended
    have hfits := hok.2 _ (List.mem_cons_self ..) ""
    have hdays : t.currentAttempt.tradingDays.length = 0 := congrArg (fun s => s.minDays.daysTraded) hfits
    exact ⟨hreset, List.length_eq_zero_iff.1 hdays⟩
  · rw [endAttempt_of_not_reset hreset] at hok
    -- a new tracker goes on to the next number
    have hload := (hok.1 _ rfl "").1
    change (loadOrCreateAttempt t.config _ "").1 = _ at hload
    rw [@loadOrCreateAttempt_ended (TvPaperEvalTracker.close t.currentAttempt outcome clock) _ _ rfl houtcome] at hload
    have hid : t.currentAttempt.attemptId + 1 = t.currentAttempt.attemptId := congrArg EvalAttempt.attemptId hload
    omega

theorem endsClean_of_stateOk {e : TrackerEvent} (hok : StateOk (e.apply t)) : EndsClean t e := by
  cases e with
  | refresh now => trivial
  | restart config now => trivial
  | call c =>
    refine endsClean_call.2 fun hactive outcome hends => ?_
    obtain ⟨clock, happly⟩ := apply_of_ends hactive hends
    change StateOk (c.apply t) at hok
    rw [happly] at hok
    refine reset_of_stateOk ?_ hok
    rcases outcome_of_ends hends with rfl | rfl <;> simp

end restart

/-- The state survives restarts all along a run if and only if every end is clean. -/
theorem restart_keeps_iff (config : TvPaperEvalConfig) (history : List AttemptRecord) (now : String)
    (events : List TrackerEvent) :
    (∀ pre post, events = pre ++ post → StateOk ((TvPaperEvalTracker.first config history now).runEvents pre)) ↔
      ∀ pre e post, events = pre ++ e :: post →
        EndsClean ((TvPaperEvalTracker.first config history now).runEvents pre) e := by
  constructor
  · intro hok pre e post hevents
    have hstep := hok (pre ++ [e]) post (by rw [hevents, List.append_assoc, List.singleton_append])
    unfold TvPaperEvalTracker.runEvents at hstep
    rw [List.foldl_append] at hstep
    exact endsClean_of_stateOk hstep
  · intro hclean pre post hevents
    refine ((Resumable.first config history now).runEvents fun pre' e post' hpre => ?_).stateOk
    refine hclean pre' e (post' ++ post) ?_
    rw [hevents, hpre, List.append_assoc, List.cons_append]

/-- A tracker whose first attempt ends with a loss of 3,000. -/
def ruinedTracker (config : TvPaperEvalConfig) : TvPaperEvalTracker :=
  (TvPaperEvalTracker.first config [] "").runEvents
    [.call (.recordTrade (-3000) false (some "2026-03-25") ⟨"2026-03-25", "", ""⟩)]

/-- With the automatic reset the file of attempt 2 counts the trading day of attempt 1; without it the failed attempt
does not survive a restart. -/
theorem restart_loses : ¬ StateOk (ruinedTracker {}) ∧ ¬ StateOk (ruinedTracker { autoResetOnFail := false }) := by
  constructor
  · intro h
    have hdays : ∀ f ∈ (ruinedTracker {}).written,
        f.tvPaper.minDays.daysTraded = (EvalAttempt.fromDict f.currentAttempt "").tradingDays.length :=
      fun f hf => congrArg (fun s => s.minDays.daysTraded) (h.2 f hf "")
    exact absurd hdays (by decide +kernel)
  · intro h
    have hid : ∀ f ∈ (ruinedTracker { autoResetOnFail := false }).written.head?.toList,
        (TvPaperEvalTracker.init (ruinedTracker { autoResetOnFail := false }).config (some f)
          (ruinedTracker { autoResetOnFail := false }).history "").currentAttempt.attemptId =
            (ruinedTracker { autoResetOnFail := false }).currentAttempt.attemptId :=
      fun f hf => congrArg EvalAttempt.attemptId (h.1 f (Option.mem_toList.1 hf) "").1
    exact absurd hid (by decide +kernel)

end PearlAlgo
