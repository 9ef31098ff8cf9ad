import PearlAlgo.Backtesting.BacktestCircuitBreaker

/-!
# The two breakers side by side

The backtest's breaker and the live one take the trade results and the signals of one day. They keep the same numbers
(`Sim.step`), so they part only on the regimes that they block (`breakers_agree_iff`).
-/

namespace PearlAlgo
open Py

/-- The two are configured alike: equal thresholds and cooldowns, auto-resume on, and no feature that the backtest does
not model. -/
structure SameSettings (cfg : FilterConfig) (c : BacktestBreakerConfig) : Prop where
  featuresOff : TradingCircuitBreaker.FeaturesOff cfg.toTradingCircuitBreakerConfig
  autoResumeAfterCooldown : cfg.autoResumeAfterCooldown = true
  maxConsecutiveLosses : cfg.maxConsecutiveLosses = c.maxConsecutiveLosses
  consecutiveLossCooldownMinutes : cfg.consecutiveLossCooldownMinutes = c.cooldownMinutes
  winRateCooldownMinutes : cfg.winRateCooldownMinutes = c.cooldownMinutes
  drawdownCooldownMinutes : cfg.drawdownCooldownMinutes = 60
  maxSessionDrawdown : cfg.maxSessionDrawdown = c.maxSessionDrawdown
  maxDailyDrawdown : cfg.maxDailyDrawdown = c.maxDailyDrawdown
  maxDailyProfit : cfg.maxDailyProfit = c.maxDailyProfit
  rollingWindowTrades : cfg.rollingWindowTrades = c.rollingWindow
  rollingWindow : 2 ≤ c.rollingWindow
  minRollingWinRate : cfg.minRollingWinRate = c.minRollingWinRate
  enableDirectionGating : cfg.enableDirectionGating = c.enableDirectionGating
  directionGatingMinConfidence : cfg.directionGatingMinConfidence = c.directionGatingMinConfidence
  enableRegimeAvoidance : cfg.enableRegimeAvoidance = c.enableRegimeAvoidance
  regimeAvoidanceMinConfidence : cfg.regimeAvoidanceMinConfidence = c.regimeAvoidanceMinConfidence
  blockedRegimes : c.blockedRegimes = some cfg.blockedRegimes

structure Breakers where
  backtest : BacktestCircuitBreaker := {}
  live : TradingCircuitBreaker := {}

inductive BreakerEvent
  | result (t : TradeResult)
  | signal (t : SimTime) (sig : GatedSignal)

section events
variable (lower : String → String) (cfg : FilterConfig) (c : BacktestBreakerConfig)

/-- What the two decide on a signal. -/
def Breakers.decisions (s : Breakers) (t : SimTime) (sig : GatedSignal) : Bool × Bool :=
  ((s.backtest.shouldAllow lower c sig t sig.marketRegime).1.1,
    (TradingCircuitBreaker.shouldAllow lower cfg t.toGateTime sig none none s.live).1.allowed)

def Breakers.step (s : Breakers) : BreakerEvent → Breakers
  | .result t => ⟨s.backtest.recordTrade c t, s.live.recordTradeResult cfg.toTradingCircuitBreakerConfig t⟩
  | .signal t sig => ⟨(s.backtest.shouldAllow lower c sig t sig.marketRegime).2,
      (TradingCircuitBreaker.shouldAllow lower cfg t.toGateTime sig none none s.live).2⟩

/-- A signal of the day, with a direction and a regime, at a time when neither daily limit is reached. -/
def AdmittedEvent (day : Nat) (s : Breakers) : BreakerEvent → Prop
  | .result _ => True
  | .signal t sig => t.yday = day ∧ lower (sig.direction.getD "") ∈ ["long", "short"] ∧
      (sig.marketRegime.bind MarketRegime.confidence).isSome = true ∧
      TradingCircuitBreaker.WithinDay cfg.toTradingCircuitBreakerConfig s.live.dailyPnl

/-- The two decide alike, and their cooldowns end at the same time. -/
def Agree (s : Breakers) (e : BreakerEvent) : Prop :=
  (match e with
    | .result _ => True
    | .signal t sig => (s.decisions lower cfg c t sig).1 = (s.decisions lower cfg c t sig).2) ∧
  (s.step lower cfg c e).backtest.cooldownUntil = (s.step lower cfg c e).live.cooldownUntil

/-- No cooldown, limit or direction denies the signal. -/
def ReachesRegime (s : Breakers) (t : SimTime) (sig : GatedSignal) (r : MarketRegime) : Prop :=
  (∀ u, s.backtest.cooldownUntil = some u → u ≤ t.now) ∧
    (s.backtest.consecutiveLosses : Int) < c.maxConsecutiveLosses ∧
    -c.maxSessionDrawdown < s.backtest.sessionPnl ∧
    s.backtest.lowWinRate c = false ∧ BacktestCircuitBreaker.gatesDirection lower c sig r = false

/-- A signal that gets as far as the regimes, of a regime that is sure enough, is of one that both lists block or none
does. -/
def RegimesAgree (s : Breakers) : BreakerEvent → Prop
  | .result _ => True
  | .signal t sig => ∀ r, sig.marketRegime = some r → ReachesRegime lower c s t sig r →
      c.enableRegimeAvoidance = true → c.regimeAvoidanceMinConfidence ≤ BacktestCircuitBreaker.confidence r →
      (BacktestCircuitBreaker.regimeType lower r ∈ c.blocked ↔
        BacktestCircuitBreaker.regimeType lower r ∈ cfg.blockedRegimes.map lower)

/-- The two keep the same numbers, and what each keeps of the trades. -/
structure Sim (day : Nat) (s : Breakers) : Prop where
  consecutiveLosses : s.backtest.consecutiveLosses = s.live.consecutiveLosses
  dailyPnl : s.backtest.dailyPnl = s.live.dailyPnl
  sessionPnl : s.backtest.sessionPnl = s.live.sessionPnl
  cooldownUntil : s.backtest.cooldownUntil = s.live.cooldownUntil
  currentDay : ∀ d, s.backtest.currentDay = some d → d = day
  recentTrades : ∃ trades, s.backtest.recentTrades = trimTo (c.rollingWindow * 2) trades ∧
    s.live.recentTrades = trimTo (TradingCircuitBreaker.maxHistory cfg.toTradingCircuitBreakerConfig) trades

end events

variable {lower : String → String} {cfg : FilterConfig} {c : BacktestBreakerConfig} {day : Nat} {s : Breakers}
  {t : SimTime} {sig : GatedSignal} {r : MarketRegime}

theorem AdmittedEvent.exists_regime (ha : AdmittedEvent lower cfg day s (.signal t sig)) : ∃ r, sig.marketRegime = some r := by
  rcases hr : sig.marketRegime with _ | r
  · have hsome := ha.2.2.1
    rw [hr] at hsome
    cases hsome
  · exact ⟨r, rfl⟩

/-! ### The facts of a call -/

theorem lowWinRate_eq (hm : SameSettings cfg c) (hs : Sim cfg c day s) : s.backtest.lowWinRate c =
    (TradingCircuitBreaker.liveFacts cfg.toTradingCircuitBreakerConfig t.now (sig.call lower cfg t.toGateTime none none).filters
      s.live).rate := by
  obtain ⟨trades, hback, hlive⟩ := hs.recentTrades
  have hwindow := hm.rollingWindow
  have hmax : c.rollingWindow * 2 ≤ TradingCircuitBreaker.maxHistory cfg.toTradingCircuitBreakerConfig := by
    have := hm.rollingWindowTrades
    unfold TradingCircuitBreaker.maxHistory
    omega
  have hlast : lastN c.rollingWindow s.backtest.recentTrades = lastN c.rollingWindow s.live.recentTrades := by
    rw [hback, hlive, lastN_trimTo (by omega) (by omega), lastN_trimTo (by omega) (by omega)]
  have hlen : c.rollingWindow / 2 ≤ s.backtest.recentTrades.length ↔
      c.rollingWindow / 2 ≤ s.live.recentTrades.length := by
    rw [hback, hlive, le_length_trimTo (by omega) (by omega), le_length_trimTo (by omega) (by omega)]
  unfold BacktestCircuitBreaker.lowWinRate TradingCircuitBreaker.liveFacts
  dsimp only
  rw [hm.rollingWindowTrades, hm.minRollingWinRate, hlast]
  refine decide_eq_decide.2 ?_
  rw [hlen]
  refine and_congr_right fun hsome => ?_
  have hne : lastN c.rollingWindow s.live.recentTrades ≠ [] := by
    refine lastN_ne_nil (by omega) fun hnil => ?_
    rw [hnil, List.length_nil] at hsome
    omega
  rw [TradingCircuitBreaker.rollingWinRate, hm.rollingWindowTrades, if_neg hne]

theorem regimeType_eq (hr : sig.marketRegime = some r) :
    sig.regimeType lower = BacktestCircuitBreaker.regimeType lower r := by
  rw [GatedSignal.regimeType, hr]
  rfl

theorem regimeConfidence_eq (hr : sig.marketRegime = some r) :
    sig.regimeConfidence = BacktestCircuitBreaker.confidence r := by
  rw [GatedSignal.regimeConfidence, hr]
  rfl

theorem gatesDirection_eq (hm : SameSettings cfg c) (hr : sig.marketRegime = some r)
    (hdirection : lower (sig.direction.getD "") ∈ ["long", "short"]) :
    BacktestCircuitBreaker.gatesDirection lower c sig r =
      (cfg.enableDirectionGating && !(sig.checkDirectionGating lower cfg).allowed) := by
  have heffective : sig.effectiveRegime lower cfg = if c.directionGatingMinConfidence ≤ BacktestCircuitBreaker.confidence r
      then BacktestCircuitBreaker.regimeType lower r else "unknown" := by
    rw [GatedSignal.effectiveRegime, regimeType_eq hr, regimeConfidence_eq hr, hm.directionGatingMinConfidence]
    split
    next hlt => rw [if_neg (not_le.2 hlt)]
    next hle => rw [if_pos (not_lt.1 hle)]
  have hallowed : sig.allowedDirection lower cfg = BacktestCircuitBreaker.allowedDir lower c r := by
    unfold GatedSignal.allowedDirection BacktestCircuitBreaker.allowedDir
    rw [← heffective]
    dsimp only
    generalize sig.effectiveRegime lower cfg = e
    by_cases hup : e = "trending_up"
    · simp [hup]
    · rw [if_neg hup]
  have hknown : ¬ (lower (sig.direction.getD "") ≠ "long" ∧ lower (sig.direction.getD "") ≠ "short") := by
    simpa [or_iff_not_imp_left] using hdirection
  unfold BacktestCircuitBreaker.gatesDirection GatedSignal.checkDirectionGating
  dsimp only
  rw [if_neg hknown, hallowed, hm.enableDirectionGating]
  by_cases hsame : lower (sig.direction.getD "") = BacktestCircuitBreaker.allowedDir lower c r
  · simp [hsame]
  · cases c.enableDirectionGating <;> simp [hsame]

/-- The facts are the same but for the regimes. -/
theorem facts_eq (hm : SameSettings cfg c) (hs : Sim cfg c day s) (hr : sig.marketRegime = some r)
    (hdirection : lower (sig.direction.getD "") ∈ ["long", "short"]) :
    BacktestCircuitBreaker.facts lower c t.now sig r s.backtest =
      { TradingCircuitBreaker.liveFacts cfg.toTradingCircuitBreakerConfig t.now
          (sig.call lower cfg t.toGateTime none none).filters s.live with
        regime := BacktestCircuitBreaker.avoidsRegime lower c r } := by
  have hrate := @lowWinRate_eq lower cfg c day s t sig hm hs
  have hgates := gatesDirection_eq hm hr hdirection
  unfold BacktestCircuitBreaker.facts
  rw [hrate, hgates, hs.consecutiveLosses, hs.sessionPnl, ← hm.maxConsecutiveLosses, ← hm.maxSessionDrawdown]
  unfold TradingCircuitBreaker.liveFacts
  rw [hm.consecutiveLossCooldownMinutes, hm.winRateCooldownMinutes, hm.drawdownCooldownMinutes]
  rfl

theorem avoidsRegime_eq_iff (hm : SameSettings cfg c) (hr : sig.marketRegime = some r) :
    BacktestCircuitBreaker.avoidsRegime lower c r =
        (cfg.enableRegimeAvoidance && !(sig.checkRegimeAvoidance lower cfg).allowed) ↔
      (c.enableRegimeAvoidance = true → c.regimeAvoidanceMinConfidence ≤ BacktestCircuitBreaker.confidence r →
        (BacktestCircuitBreaker.regimeType lower r ∈ c.blocked ↔
          BacktestCircuitBreaker.regimeType lower r ∈ cfg.blockedRegimes.map lower)) := by
  unfold BacktestCircuitBreaker.avoidsRegime GatedSignal.checkRegimeAvoidance
  rw [hm.enableRegimeAvoidance, regimeConfidence_eq hr, regimeType_eq hr, hm.regimeAvoidanceMinConfidence]
  rcases c.enableRegimeAvoidance with _ | _
  · simp
  by_cases hlow : BacktestCircuitBreaker.confidence r < c.regimeAvoidanceMinConfidence
  · simp [hlow]
  rw [if_neg hlow]
  have hsure := not_lt.1 hlow
  by_cases hblocked : BacktestCircuitBreaker.regimeType lower r ∈ cfg.blockedRegimes.map lower
  · rw [if_pos hblocked]
    simp [hsure, hblocked]
  · rw [if_neg hblocked]
    simp [hsure, hblocked]

/-! ### One step -/

theorem gate_snd (f : GateFacts) (b : Bool) : (gate { f with regime := b }).2 = (gate f).2 := by
  unfold gate
  dsimp only
  split_ifs <;> rfl

theorem gate_fst_iff (f : GateFacts) (b : Bool) : (gate f).1 = (gate { f with regime := b }).1 ↔
    (f.losses = false ∧ f.session = false ∧ f.rate = false ∧ f.direction = false → f.regime = b) := by
  unfold gate
  rcases f.losses with _ | _
  · rcases f.session with _ | _
    · rcases f.rate with _ | _
      · rcases f.direction with _ | _ <;> simp
      · simp
    · simp
  · simp

theorem backtest_eq (hm : SameSettings cfg c) (hs : Sim cfg c day s) (ha : AdmittedEvent lower cfg day s (.signal t sig)) :
    ((s.backtest.shouldAllow lower c sig t (some r)).1.1, (s.backtest.shouldAllow lower c sig t (some r)).2.cooldownUntil) =
      (if s.backtest.cooldownUntil.any (t.now < ·) then (false, s.backtest.cooldownUntil)
        else gate (BacktestCircuitBreaker.facts lower c t.now sig r s.backtest)) ∧
    s.backtest.Keeps (s.backtest.shouldAllow lower c sig t (some r)).2 ∧
    (s.backtest.shouldAllow lower c sig t (some r)).2.currentDay = some t.yday := by
  obtain ⟨hday, -, -, hwithin⟩ := ha
  have hsame : ∀ d, s.backtest.currentDay = some d → d = t.yday := by
    intro d hd
    rw [hday, hs.currentDay d hd]
  have hlow : -c.maxDailyDrawdown < s.backtest.dailyPnl := by
    rw [← hm.maxDailyDrawdown, hs.dailyPnl]
    exact hwithin.1
  have hcap : c.maxDailyProfit ≤ 0 ∨ s.backtest.dailyPnl < c.maxDailyProfit := by
    rw [← hm.maxDailyProfit, hs.dailyPnl]
    exact hwithin.2
  exact BacktestCircuitBreaker.shouldAllow_gate hsame hlow hcap

/-- What the two do with a signal. -/
theorem signal_eq (hm : SameSettings cfg c) (hs : Sim cfg c day s) (ha : AdmittedEvent lower cfg day s (.signal t sig))
    (hr : sig.marketRegime = some r) :
    let f := BacktestCircuitBreaker.facts lower c t.now sig r s.backtest
    let s' := s.step lower cfg c (.signal t sig)
    ((s.decisions lower cfg c t sig).1, s'.backtest.cooldownUntil) =
        (if s.backtest.cooldownUntil.any (t.now < ·) then (false, s.backtest.cooldownUntil) else gate f) ∧
      ((s.decisions lower cfg c t sig).2, s'.live.cooldownUntil) =
        (if s.backtest.cooldownUntil.any (t.now < ·) then (false, s.backtest.cooldownUntil) else
          gate { f with regime := cfg.enableRegimeAvoidance && !(sig.checkRegimeAvoidance lower cfg).allowed }) := by
  have hback := (@backtest_eq lower cfg c day s t sig r hm hs ha).1
  obtain ⟨hday, hdirection, -, hwithin⟩ := ha
  have hlive := @TradingCircuitBreaker.shouldAllowSignal_gate cfg.toTradingCircuitBreakerConfig t.clock
    (sig.call lower cfg t.toGateTime none none).filters s.live hm.featuresOff hm.autoResumeAfterCooldown
    (sig.call lower cfg t.toGateTime none none).sig hwithin
  refine ⟨?_, ?_⟩
  · show ((s.backtest.shouldAllow lower c sig t sig.marketRegime).1.1,
      (s.backtest.shouldAllow lower c sig t sig.marketRegime).2.cooldownUntil) = _
    rw [hr]
    exact hback
  · rw [facts_eq hm hs hr hdirection, hs.cooldownUntil]
    exact hlive

theorem Sim.result (hm : SameSettings cfg c) (hs : Sim cfg c day s) (t : TradeResult) :
    Sim cfg c day (s.step lower cfg c (.result t)) := by
  obtain ⟨trades, hback, hlive⟩ := hs.recentTrades
  have hcool := (@TradingCircuitBreaker.recordTradeResult_cooldown cfg.toTradingCircuitBreakerConfig s.live t).1
  have hclears : TradingCircuitBreaker.winClears cfg.toTradingCircuitBreakerConfig s.live t = false := by
    simp [TradingCircuitBreaker.winClears, hm.featuresOff.requireWinningTradeToResume]
  have hlivenumbers : (s.live.recordTradeResult cfg.toTradingCircuitBreakerConfig t).consecutiveLosses =
        (if t.isWin then 0 else s.live.consecutiveLosses + 1) ∧
      (s.live.recordTradeResult cfg.toTradingCircuitBreakerConfig t).dailyPnl = s.live.dailyPnl + t.pnl ∧
      (s.live.recordTradeResult cfg.toTradingCircuitBreakerConfig t).sessionPnl = s.live.sessionPnl + t.pnl ∧
      (s.live.recordTradeResult cfg.toTradingCircuitBreakerConfig t).recentTrades =
        trimTo (TradingCircuitBreaker.maxHistory cfg.toTradingCircuitBreakerConfig) (s.live.recentTrades ++ [t]) := by
    unfold TradingCircuitBreaker.recordTradeResult
    simp only [hm.featuresOff.requireWinningTradeToResume, Bool.false_eq_true, false_and, ↓reduceIte]
    split <;> exact ⟨rfl, rfl, rfl, rfl⟩
  obtain ⟨hlosses, hdaily, hsession, htrades⟩ := hlivenumbers
  exact {
    consecutiveLosses := by
      show (if t.isWin then 0 else s.backtest.consecutiveLosses + 1) = _
      rw [hs.consecutiveLosses]
      exact hlosses.symm
    dailyPnl := by
      show s.backtest.dailyPnl + t.pnl = _
      rw [hs.dailyPnl]
      exact hdaily.symm
    sessionPnl := by
      show s.backtest.sessionPnl + t.pnl = _
      rw [hs.sessionPnl]
      exact hsession.symm
    cooldownUntil := by
      rw [hclears] at hcool
      exact hs.cooldownUntil.trans hcool.symm
    currentDay := hs.currentDay
    recentTrades := by
      refine ⟨trades ++ [t], ?_, htrades.trans ?_⟩
      · show trimTo (c.rollingWindow * 2) (s.backtest.recentTrades ++ [t]) = _
        rw [hback, trimTo_append]
      · rw [hlive, trimTo_append] }

theorem Sim.signal (hm : SameSettings cfg c) (hs : Sim cfg c day s) (ha : AdmittedEvent lower cfg day s (.signal t sig)) :
    Sim cfg c day (s.step lower cfg c (.signal t sig)) := by
  obtain ⟨r, hr⟩ := ha.exists_regime
  obtain ⟨hback, hlive⟩ := signal_eq hm hs ha hr
  obtain ⟨-, hkeeps, hdayset⟩ := @backtest_eq lower cfg c day s t sig r hm hs ha
  rw [← hr] at hkeeps hdayset
  have hevidence := @TradingCircuitBreaker.shouldAllowSignal_keepsEvidence cfg.toTradingCircuitBreakerConfig t.clock
    (sig.call lower cfg t.toGateTime none none).sig (sig.call lower cfg t.toGateTime none none).filters none none s.live
  exact {
    consecutiveLosses := hkeeps.consecutiveLosses.trans (hs.consecutiveLosses.trans hevidence.consecutiveLosses.symm)
    dailyPnl := hkeeps.dailyPnl.trans (hs.dailyPnl.trans hevidence.dailyPnl.symm)
    sessionPnl := hkeeps.sessionPnl.trans (hs.sessionPnl.trans hevidence.sessionPnl.symm)
    cooldownUntil := by
      have hbackcool := congrArg Prod.snd hback
      have hlivecool := congrArg Prod.snd hlive
      dsimp only at hbackcool hlivecool
      rw [hbackcool, hlivecool]
      split
      · rfl
      · exact (gate_snd _ _).symm
    currentDay := by
      intro d hd
      have hset : (s.step lower cfg c (.signal t sig)).backtest.currentDay = some t.yday := hdayset
      rw [hset] at hd
      cases hd
      exact ha.1
    recentTrades := by
      obtain ⟨trades, htb, htl⟩ := hs.recentTrades
      exact ⟨trades, hkeeps.recentTrades.trans htb, hevidence.recentTrades.trans htl⟩ }

theorem Sim.step (hm : SameSettings cfg c) (hs : Sim cfg c day s) {e : BreakerEvent} (ha : AdmittedEvent lower cfg day s e) :
    Sim cfg c day (s.step lower cfg c e) := by
  rcases e with t | ⟨t, sig⟩
  · exact hs.result hm t
  · exact hs.signal hm ha

/-- A step of both agrees if and only if the regimes of its signal do. -/
theorem agree_iff (hm : SameSettings cfg c) (hs : Sim cfg c day s) {e : BreakerEvent} (ha : AdmittedEvent lower cfg day s e) :
    Agree lower cfg c s e ↔ RegimesAgree lower cfg c s e := by
  have hcool := (hs.step hm ha).cooldownUntil
  rcases e with t | ⟨t, sig⟩
  · exact ⟨fun _ => trivial, fun _ => ⟨trivial, hcool⟩⟩
  obtain ⟨r, hr⟩ := ha.exists_regime
  obtain ⟨hback, hlive⟩ := signal_eq hm hs ha hr
  have hbackallowed := congrArg Prod.fst hback
  have hliveallowed := congrArg Prod.fst hlive
  dsimp only at hbackallowed hliveallowed
  have hiff := @avoidsRegime_eq_iff lower cfg c sig r hm hr
  have hregimes : RegimesAgree lower cfg c s (.signal t sig) ↔ (ReachesRegime lower c s t sig r →
      BacktestCircuitBreaker.avoidsRegime lower c r =
        (cfg.enableRegimeAvoidance && !(sig.checkRegimeAvoidance lower cfg).allowed)) := by
    constructor
    · intro h hreach
      exact hiff.2 (h r hr hreach)
    · intro h r' hr' hreach
      obtain rfl := Option.some.inj (hr.symm.trans hr')
      exact hiff.1 (h hreach)
  rw [hregimes]
  show (_ = _ ∧ _) ↔ _
  rw [and_iff_left hcool, hbackallowed, hliveallowed]
  by_cases hcooling : s.backtest.cooldownUntil.any (t.now < ·) = true
  · rw [if_pos hcooling, if_pos hcooling]
    refine ⟨fun _ hreach => ?_, fun _ => rfl⟩
    obtain ⟨u, hu, hlt⟩ := (Option.any_eq_true _ _).1 hcooling
    exact absurd (hreach.1 u hu) (not_le.2 (of_decide_eq_true hlt))
  · rw [if_neg hcooling, if_neg hcooling, gate_fst_iff]
    have hover : ∀ u, s.backtest.cooldownUntil = some u → u ≤ t.now := by
      intro u hu
      simpa [hu] using hcooling
    have hreach : ReachesRegime lower c s t sig r ↔
        (BacktestCircuitBreaker.facts lower c t.now sig r s.backtest).losses = false ∧
          (BacktestCircuitBreaker.facts lower c t.now sig r s.backtest).session = false ∧
          (BacktestCircuitBreaker.facts lower c t.now sig r s.backtest).rate = false ∧
          (BacktestCircuitBreaker.facts lower c t.now sig r s.backtest).direction = false := by
      unfold ReachesRegime BacktestCircuitBreaker.facts
      simp only [decide_eq_false_iff_not, not_le]
      exact and_iff_right hover
    rw [hreach]
    rfl

/-- On a day when neither daily limit is reached, the two breakers agree on every signal if and only if they agree on the
regimes of those that get as far. -/
theorem breakers_agree_iff (lower : String → String) (cfg : FilterConfig) (c : BacktestBreakerConfig)
    (hm : SameSettings cfg c) (day : Nat) (events : List BreakerEvent)
    (hadm : Lts.Along (Breakers.step lower cfg c) (AdmittedEvent lower cfg day) {} events) :
    Lts.Along (Breakers.step lower cfg c) (Agree lower cfg c) {} events ↔
      Lts.Along (Breakers.step lower cfg c) (RegimesAgree lower cfg c) {} events := by
  have hstart : Sim cfg c day {} := by
    refine ⟨rfl, rfl, rfl, rfl, ?_, [], rfl, rfl⟩
    intro d hd
    cases hd
  exact Lts.Along.congr (fun s e hs ha => hs.step hm ha) (fun s e hs ha => agree_iff hm hs ha) hadm hstart

/-- Names in lower case are blocked alike. -/
theorem regimesAgree_of_lower (hblocked : c.blockedRegimes = some cfg.blockedRegimes) (hne : cfg.blockedRegimes ≠ [])
    (hlower : ∀ name ∈ cfg.blockedRegimes, lower name = name) (s : Breakers) (e : BreakerEvent) :
    RegimesAgree lower cfg c s e := by
  rcases e with t | ⟨t, sig⟩
  · trivial
  · intro r _ _ _ _
    have hmap : cfg.blockedRegimes.map lower = cfg.blockedRegimes := by
      conv_rhs => rw [← List.map_id cfg.blockedRegimes]
      exact List.map_congr_left hlower
    rw [hmap, BacktestBreakerConfig.blocked, hblocked, Option.getD_some, if_neg hne]

instance AdmittedEvent.decidable (lower : String → String) (cfg : FilterConfig) (day : Nat) (s : Breakers) :
    (e : BreakerEvent) → Decidable (AdmittedEvent lower cfg day s e)
  | .result _ => .isTrue trivial
  | .signal t _ => inferInstanceAs (Decidable (t.yday = day ∧ _ ∧ _ ∧ _))

instance Agree.decidable (lower : String → String) (cfg : FilterConfig) (c : BacktestBreakerConfig) (s : Breakers) :
    (e : BreakerEvent) → Decidable (Agree lower cfg c s e)
  | .result _ => inferInstanceAs (Decidable (True ∧ _))
  | .signal _ _ => inferInstanceAs (Decidable (_ = _ ∧ _))

def liveSettings : FilterConfig where
  maxConsecutiveLosses := 3
  maxSessionDrawdown := 1800
  maxDailyDrawdown := 99999
  enableRegimeAvoidance := true
  directionGatingMinConfidence := 1/2
  blockedRegimes := ["Ranging"]

def backtestSettings : BacktestBreakerConfig where
  blockedRegimes := some ["Ranging"]

theorem sameSettings : SameSettings liveSettings backtestSettings :=
  ⟨⟨rfl, rfl, rfl, rfl, rfl, rfl, rfl⟩, rfl, rfl, rfl, rfl, rfl, rfl, rfl, rfl, rfl, by decide, rfl, rfl, rfl, rfl, rfl, rfl⟩

/-- A loss, and a long signal in a ranging market five minutes later. -/
def rangingDay : List BreakerEvent :=
  [.result ⟨false, -50⟩,
    .signal { clock := ⟨300, 12, 21600⟩, secondsEt := 43500, yday := 61 }
      { entryPrice := 20000, direction := some "long", marketRegime := some ⟨some "ranging", some (9/10)⟩ }]

theorem rangingDay_admitted : Lts.Along (Breakers.step String.toLower liveSettings backtestSettings)
    (AdmittedEvent String.toLower liveSettings 61) {} rangingDay := by
  decide +kernel

theorem breakers_agree_iff_ranging :
    Lts.Along (Breakers.step String.toLower liveSettings backtestSettings)
        (Agree String.toLower liveSettings backtestSettings) {} rangingDay ↔
      Lts.Along (Breakers.step String.toLower liveSettings backtestSettings)
        (RegimesAgree String.toLower liveSettings backtestSettings) {} rangingDay :=
  breakers_agree_iff String.toLower liveSettings backtestSettings sameSettings 61 rangingDay rangingDay_admitted

/-- The live breaker blocks a regime that is listed as `Ranging`, and the backtest's does not. -/
theorem not_breakers_agree :
    ¬ ∀ (lower : String → String) (cfg : FilterConfig) (c : BacktestBreakerConfig), SameSettings cfg c →
      ∀ (day : Nat) (events : List BreakerEvent),
        Lts.Along (Breakers.step lower cfg c) (AdmittedEvent lower cfg day) {} events →
          Lts.Along (Breakers.step lower cfg c) (Agree lower cfg c) {} events := by
  intro h
  have hagree := h String.toLower liveSettings backtestSettings sameSettings 61 rangingDay rangingDay_admitted
  revert hagree
  decide +kernel

end PearlAlgo
