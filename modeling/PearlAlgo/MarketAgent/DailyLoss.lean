import PearlAlgo.MarketAgent.Service
import PearlAlgo.Tradovate.Segments

/-!
# The daily loss limit

The adapter adds up what is forwarded to it (`dailyPnl_eq`), whatever its coroutines do in between. But the
service builds its virtual trade manager before the adapter, so the manager holds no reference to it and
forwards nothing, and the close-all and close-trade paths have no call that would. So the adapter's daily
P&L stays zero (`dailyPnl_eq_zero`), and the limit sees the exits exactly as long as their P&Ls add up to
zero (`seesExits_iff`).
-/

namespace PearlAlgo
open Py Coop

/-! ### The adapter's count -/

/-- The P&L that was forwarded to the adapter since its last daily reset; the latest turn comes first. -/
def forwardedPnl : List AdapterTurn → ℚ
  | [] => 0
  | .env (.updateDailyPnl pnlChange) _ _ :: log => forwardedPnl log + pnlChange
  | .env .resetDailyCounters _ _ :: _ => 0
  | _ :: log => forwardedPnl log

section adapter
variable {cfg : ExecutionConfig} {t : ℚ} {acts : List AdapterAct} {s : AdapterSys}

theorem contract_pnl {c : Call} {w : From Answer} {s₀ s : World} {t' : To Request Returned}
    (h : contract cfg c w s₀ s t') : s.base.dailyPnl = s₀.base.dailyPnl := by
  cases c with
  | placeBracket sig uuid => exact BracketSeg.pnl h
  | cancelAll => exact OtherSeg.pnl h
  | flattenAllPositions => exact OtherSeg.pnl h
  | getPositions forceRest => exact OtherSeg.pnl h

theorem envStep_pnl {e : EnvEvent} {w : World} (log : List AdapterTurn) (h : w.base.dailyPnl = forwardedPnl log) :
    (envStep cfg e w).base.dailyPnl = forwardedPnl (.env e w (envStep cfg e w) :: log) := by
  cases e with
  | arm =>
    refine Eq.trans ?_ h
    show (w.base.arm cfg).2.dailyPnl = _
    unfold AdapterBase.arm
    split <;> rfl
  | disarm => exact h
  | resetDailyCounters => rfl
  | updateDailyPnl pnlChange => exact congrArg (· + pnlChange) h
  | wsEvent e => exact (congrArg AdapterBase.dailyPnl (handleWsEvent_frame e w).1).trans h
  | connection connected isAuthenticated => exact h
  | elapse d hd => exact h
  | setClock now => exact h
  | broker held settled => exact h

/-- In every run of the adapter, the daily P&L is what was forwarded since the last daily reset. -/
theorem dailyPnl_eq (h : Runs cfg t acts s) : s.shared.base.dailyPnl = forwardedPnl s.log := by
  refine (Machine.invariant (I := fun v => v.shared.base.dailyPnl = forwardedPnl v.log) (machine_obeys cfg)
    (fun v a v' hI _ hm => ?_) (Machine.ok_init _) rfl (Machine.admits_true _ acts) h).2
  cases hm with
  | spawn hk => exact (contract_pnl hk).trans hI
  | resume hi hk => exact (contract_pnl hk).trans hI
  | env => exact envStep_pnl v.log hI

theorem step_log {M : AdapterMachine} {s s' : AdapterSys} {a : AdapterAct} (h : M.step s a = some s') :
    (∃ c w s₀ s₁ t', s'.log = .seg c w s₀ s₁ t' :: s.log) ∨ ∃ e s₀ s₁, a = .env e ∧ s'.log = .env e s₀ s₁ :: s.log := by
  cases a with
  | spawn c =>
    cases h
    exact .inl ⟨_, _, _, _, _, rfl⟩
  | resume i ans =>
    simp only [Machine.step] at h
    split at h
    · cases h
      exact .inl ⟨_, _, _, _, _, rfl⟩
    · cases h
  | env e =>
    cases h
    exact .inr ⟨_, _, _, rfl, rfl⟩

theorem forwardedPnl_eq_zero {M : AdapterMachine} {s₀ : AdapterSys} (h₀ : forwardedPnl s₀.log = 0)
    (h : M.run s₀ acts = some s) (hacts : ∀ pnl, (Act.env (.updateDailyPnl pnl) : AdapterAct) ∉ acts) :
    forwardedPnl s.log = 0 := by
  induction acts generalizing s₀ with
  | nil =>
    cases h
    exact h₀
  | cons a acts ih =>
    obtain ⟨s₁, h₁, h⟩ := M.run_cons.1 h
    refine ih ?_ h fun pnl hmem => hacts pnl (List.mem_cons_of_mem _ hmem)
    rcases step_log h₁ with ⟨c, w, s₂, s₃, t', hlog⟩ | ⟨e, s₂, s₃, ha, hlog⟩
    · rw [hlog]
      exact h₀
    · rw [hlog]
      cases e with
      | updateDailyPnl pnl => exact absurd (ha ▸ List.mem_cons_self) (hacts pnl)
      | resetDailyCounters => rfl
      | _ => exact h₀

end adapter

/-! ### The service -/

namespace MarketAgentService

/-- The P&L of the exits that `track_exit` recorded since the last daily reset. -/
def exitPnl (s : MarketAgentService) : ℚ := (s.exits.map Performance.pnl).sum

/-- The daily loss limit of the adapter sees the exits. -/
structure SeesExits (s : MarketAgentService) (sys : AdapterSys) : Prop where
  dailyPnl : sys.shared.base.dailyPnl = s.exitPnl
  halts : s.exitPnl ≤ -s.config.maxDailyLoss → ∀ sig now, ∃ d base,
    sys.shared.base.checkPreconditions s.config sig now = .ok (d, base) ∧ d.execute = false ∧ base.armed = false

variable {c : ServiceSettings} {acts : List ServiceAct} {s : MarketAgentService} {sys : AdapterSys}

theorem dailyPnl_eq_zero (h : Runs c acts s) (hsys : s.executionAdapter = some sys) :
    sys.shared.base.dailyPnl = 0 := by
  obtain ⟨acts', hrun, hacts'⟩ := adapter_runs h hsys
  exact (dailyPnl_eq hrun).trans (forwardedPnl_eq_zero rfl hrun hacts')

theorem config_eq (h : Runs c acts s) : s.config = .fromDict c.execution := by
  refine (run_invariant (I := fun s => s.config = .fromDict c.execution ∧
    s.virtualTradeManager.executionAdapter = none) (fun s a s' hI hs => ?_) ⟨rfl, rfl⟩ h).1
  have hs := step_unwired hI.2 hs
  exact ⟨hs.config.trans hI.1, hs.manager⟩

/-- In every state that a run reaches, the limit sees the exits if and only if the P&Ls of the exits since
the last daily reset add up to zero. -/
theorem seesExits_iff (h : Runs c acts s) (hsys : s.executionAdapter = some sys) :
    s.SeesExits sys ↔ s.exitPnl = 0 := by
  have hzero := dailyPnl_eq_zero h hsys
  constructor
  · intro hsees
    exact hsees.dailyPnl.symm.trans hzero
  · intro hpnl
    refine ⟨hzero.trans hpnl.symm, fun hloss => ?_⟩
    -- the limit is positive, so a sum of zero is above it
    have hlimit := (ExecutionConfig.valid_fromDict c.execution).maxDailyLoss
    rw [← config_eq h] at hlimit
    rw [hpnl] at hloss
    exact absurd hlimit (not_lt.2 (neg_nonneg.1 hloss))

/-! ### A losing day -/

def sampleClock : Clock := ⟨0, 10, 28800⟩

/-- A service that is armed for paper trading, on a day on which Eastern time is five hours behind. -/
def sampleSettings : ServiceSettings where
  execution := { enabled := some true, armed := some true, mode := some "paper" }
  zone := ⟨fun t => some (t + 18000), fun t => t - 18000⟩
  clock := sampleClock

/-- A long trade entered at 20000, with its stop 300 points below. -/
def enteredLong : SignalRecord where
  signalId := "s1"
  status := .entered
  signal := some
    { type := some "breakout", direction := some "long", entryPrice := some (.fin 20000)
      stopLoss := some (.fin 19700), takeProfit := some (.fin 20400) }
  entryTime := some 0

/-- A cycle enters the trade, and the next one finds a bar that falls through its stop. -/
def stoppedOut : List ServiceAct :=
  [.checkDailyReset 1, .write { lines := [enteredLong] },
    .processExits (some [⟨18000, .fin 20010, .fin 19990, .fin 20000⟩]) (some [enteredLong]),
    .checkDailyReset 1, .processExits (some [⟨18060, .fin 19995, .fin 19690, .fin 19695⟩]) (some [enteredLong])]

/-- The witness of `seesExits_iff`: nothing has been entered yet. -/
theorem seesExits_iff_firstCycle : ∃ s sys, Runs sampleSettings [.checkDailyReset 1] s ∧
    s.executionAdapter = some sys ∧ (s.SeesExits sys ↔ s.exitPnl = 0) := by
  obtain ⟨s, hrun, hs⟩ := exists_runs sampleSettings [.checkDailyReset 1] (fun s => s.executionAdapter.isSome)
    (by decide +kernel)
  obtain ⟨sys, hsys⟩ := Option.isSome_iff_exists.1 hs
  exact ⟨s, sys, hrun, hsys, seesExits_iff hrun hsys⟩

/-- After a loss of 600 dollars against a limit of 500, the limit does not see the exit, and the adapter
still accepts a signal. -/
theorem exit_unseen : ∃ s sys, Runs sampleSettings stoppedOut s ∧ s.executionAdapter = some sys ∧
    s.exitPnl = -600 ∧ s.exitPnl ≤ -s.config.maxDailyLoss ∧ ¬ s.SeesExits sys ∧
    (sys.shared.base.checkPreconditions s.config (sampleSignal "s2") 0).toOption.map (fun p => p.1.execute) = some true := by
  obtain ⟨s, hrun, hs⟩ := exists_runs sampleSettings stoppedOut (fun s => s.exitPnl = -600 ∧
    s.exitPnl ≤ -s.config.maxDailyLoss ∧ s.executionAdapter.any (fun sys =>
      (sys.shared.base.checkPreconditions s.config (sampleSignal "s2") 0).toOption.map (fun p => p.1.execute) = some true))
    (by decide +kernel)
  obtain ⟨hpnl, hloss, hany⟩ := of_decide_eq_true hs
  obtain ⟨sys, hsys, haccept⟩ := (Option.any_eq_true _ _).1 hany
  have haccept := of_decide_eq_true haccept
  refine ⟨s, sys, hrun, hsys, hpnl, hloss, fun hsees => ?_, haccept⟩
  obtain ⟨d, base, hcheck, hreject, -⟩ := hsees.halts hloss (sampleSignal "s2") 0
  rw [hcheck] at haccept
  exact Bool.noConfusion (hreject.symm.trans (Option.some.inj haccept))

end MarketAgentService

end PearlAlgo
