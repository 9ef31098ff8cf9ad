import PearlAlgo.MarketAgent.CircuitBreaker

/-!
# The end of the daily cooldowns (`market_agent/trading_circuit_breaker.py`)

The daily drawdown, the daily profit cap and the hydration at startup each compute the minutes to the end of the
trading day. `endsWithDay_iff` says where the cooldown ends with the 18:00 Eastern reset.
-/

namespace PearlAlgo
open TradingCircuitBreaker

/-- The second of the Eastern clock that shows 18:00 on a day. -/
def resetWall (day : Int) : ℚ := day * 86400 + 64800

/-- The zone `America/New_York`: four or five hours behind UTC, and its clock shows each 18:00 once. -/
structure EasternZone where
  ofUtc : ℚ → ℚ
  toUtc : ℚ → ℚ
  behind : ∀ t, t - ofUtc t = 14400 ∨ t - ofUtc t = 18000
  before : ∀ day t, t < toUtc (resetWall day) ↔ ofUtc t < resetWall day
  after : ∀ day t, toUtc (resetWall day) < t ↔ resetWall day < ofUtc t

namespace EasternZone
variable (z : EasternZone) (now : ℚ)

def day : Int := (z.ofUtc now / 86400).floor

def hour : Int := ((z.ofUtc now - z.day now * 86400) / 3600).floor

/-- `next_reset_et`: 18:00 of this day, or of the next. -/
def nextReset : ℚ := z.toUtc (resetWall (if z.hour now < 18 then z.day now else z.day now + 1))

/-- The clock of the breaker. -/
def clock : Clock where
  now := now
  hourEt := z.hour now
  nextReset := z.nextReset now

/-- The first instant after `now` at which the Eastern clock shows 18:00. -/
def IsNextReset (reset : ℚ) : Prop :=
  now < reset ∧ (∃ day, z.ofUtc reset = resetWall day) ∧ ∀ t, now < t → (∃ day, z.ofUtc t = resetWall day) → reset ≤ t

variable {z now}

theorem ofUtc_eq_resetWall {day : Int} {t : ℚ} : z.ofUtc t = resetWall day ↔ t = z.toUtc (resetWall day) := by
  constructor
  · intro h
    rcases lt_trichotomy t (z.toUtc (resetWall day)) with hlt | heq | hgt
    · exact absurd ((z.before day t).1 hlt) (by rw [h]; exact lt_irrefl _)
    · exact heq
    · exact absurd ((z.after day t).1 hgt) (by rw [h]; exact lt_irrefl _)
  · rintro rfl
    rcases lt_trichotomy (z.ofUtc (z.toUtc (resetWall day))) (resetWall day) with hlt | heq | hgt
    · exact absurd ((z.before day _).2 hlt) (lt_irrefl _)
    · exact heq
    · exact absurd ((z.after day _).2 hgt) (lt_irrefl _)

theorem day_le (z : EasternZone) (now : ℚ) : z.day now * 86400 ≤ z.ofUtc now := by
  have h := Int.floor_le (z.ofUtc now / 86400)
  rw [le_div_iff₀ (by norm_num)] at h
  exact h

theorem lt_day (z : EasternZone) (now : ℚ) : z.ofUtc now < (z.day now + 1) * 86400 := by
  have h := Int.lt_floor_add_one (z.ofUtc now / 86400)
  rw [div_lt_iff₀ (by norm_num)] at h
  exact h

theorem hour_lt_iff : z.hour now < 18 ↔ z.ofUtc now < resetWall (z.day now) := by
  show ⌊(z.ofUtc now - z.day now * 86400) / 3600⌋ < 18 ↔ _
  rw [Int.floor_lt, div_lt_iff₀ (by norm_num)]
  unfold resetWall
  constructor
  · intro h
    push_cast at h
    linarith
  · intro h
    push_cast
    linarith

/-- A reset of an earlier day than `day` is over when the clock shows the start of `day`. -/
theorem reset_before {d : Int} (h : d < z.day now) : z.toUtc (resetWall d) < now := by
  rw [z.after]
  have hle : (d : ℚ) + 1 ≤ z.day now := by exact_mod_cast h
  have hday := z.day_le now
  unfold resetWall
  linarith

theorem toUtc_mono {d d' : Int} (h : d ≤ d') : z.toUtc (resetWall d) ≤ z.toUtc (resetWall d') := by
  rw [← not_lt, z.before, ofUtc_eq_resetWall.2 rfl]
  have hle : (d : ℚ) ≤ d' := by exact_mod_cast h
  unfold resetWall
  linarith

/-- What the code computes is the next reset. -/
theorem isNextReset_nextReset (z : EasternZone) (now : ℚ) : z.IsNextReset now (z.nextReset now) := by
  unfold nextReset
  refine ⟨?_, ⟨_, ofUtc_eq_resetWall.2 rfl⟩, ?_⟩
  · rw [z.before]
    split
    next hhour => exact hour_lt_iff.1 hhour
    · have hday := z.lt_day now
      unfold resetWall
      push_cast
      linarith
  · rintro t hnow ⟨d, hd⟩
    obtain rfl := ofUtc_eq_resetWall.1 hd
    refine toUtc_mono ?_
    have hle : z.day now ≤ d := by
      by_contra hlt
      exact absurd (reset_before (not_le.1 hlt)) (not_lt.2 hnow.le)
    split
    · exact hle
    next hhour =>
      -- past 18:00 the reset of the day itself is over
      have hne : d ≠ z.day now := by
        rintro rfl
        have hwall := (not_congr hour_lt_iff).1 hhour
        rw [← z.before] at hwall
        exact hwall hnow
      omega

theorem isNextReset_iff {reset : ℚ} : z.IsNextReset now reset ↔ reset = z.nextReset now := by
  constructor
  · rintro ⟨hnow, hwall, hfirst⟩
    obtain ⟨hnow', hwall', hfirst'⟩ := z.isNextReset_nextReset now
    exact le_antisymm (hfirst _ hnow' hwall') (hfirst' _ hnow hwall)
  · rintro rfl
    exact z.isNextReset_nextReset now

end EasternZone

/-! ### The cooldowns -/

inductive DailyLimit
  | dailyDrawdown
  | dailyProfitCap
  | hydration
deriving DecidableEq

namespace DailyLimit
variable (cfg : TradingCircuitBreakerConfig) (clock : Clock) (realizedPnl : Option ℚ)

/-- The breaker after the check of the limit, or after the hydration with the P&L of the fills. -/
def apply (cb : TradingCircuitBreaker) : DailyLimit → TradingCircuitBreaker
  | dailyDrawdown => (checkDailyDrawdown cfg clock cb).2
  | dailyProfitCap => (checkDailyProfitCap cfg clock cb).2
  | hydration => hydrateDailyPnl cfg clock realizedPnl cb

/-- The limit is reached, so that the cooldown is activated. -/
def Reached (cb : TradingCircuitBreaker) : DailyLimit → Prop
  | dailyDrawdown => cb.dailyPnl ≤ -cfg.maxDailyDrawdown
  | dailyProfitCap => 0 < cfg.maxDailyProfit ∧ cfg.maxDailyProfit ≤ cb.dailyPnl
  | hydration => ∃ pnl ∈ realizedPnl, pnl ≤ -cfg.maxDailyDrawdown

/-- The time to which the limit counts its minutes. -/
def target : DailyLimit → ℚ
  | dailyDrawdown => tomorrowFiveUtc clock.now
  | dailyProfitCap | hydration => clock.nextReset

variable {cfg clock realizedPnl} {cb : TradingCircuitBreaker} {limit : DailyLimit}

theorem cooldownUntil_apply (h : limit.Reached cfg realizedPnl cb) :
    (limit.apply cfg clock realizedPnl cb).cooldownUntil =
      some (clock.now + minutesUntil clock.now (limit.target clock) * 60) := by
  rcases limit with _ | _ | _
  · have hreached : cb.dailyPnl ≤ -cfg.maxDailyDrawdown := h
    unfold apply checkDailyDrawdown
    dsimp only
    rw [if_pos hreached]
    rfl
  · obtain ⟨hpos, hreached⟩ := h
    unfold apply checkDailyProfitCap
    dsimp only
    rw [if_neg (not_le.2 hpos), if_pos hreached]
    rfl
  · obtain ⟨pnl, rfl, hreached⟩ := h
    unfold apply hydrateDailyPnl
    dsimp only
    rw [if_pos hreached]
    rfl

end DailyLimit

/-- The cooldown ends with the trading day: at the next reset, or less than a minute before it. -/
def EndsWithDay (z : EasternZone) (now : ℚ) (cb : TradingCircuitBreaker) : Prop :=
  ∃ reset, z.IsNextReset now reset ∧ ∃ t ∈ cb.cooldownUntil, reset - 60 < t ∧ t ≤ reset

/-- The whole minutes to a time that is an hour away end less than a minute before it. -/
theorem minutesUntil_of_le {now t : ℚ} (h : now + 3600 ≤ t) :
    t - 60 < now + minutesUntil now t * 60 ∧ now + minutesUntil now t * 60 ≤ t := by
  have hmax : max 60 ((t - now) / 60) = (t - now) / 60 := by
    refine max_eq_right ?_
    rw [le_div_iff₀ (by norm_num)]
    linarith
  have hle := Int.floor_le ((t - now) / 60)
  have hlt := Int.lt_floor_add_one ((t - now) / 60)
  rw [le_div_iff₀ (by norm_num)] at hle
  rw [div_lt_iff₀ (by norm_num)] at hlt
  unfold minutesUntil
  rw [hmax]
  show t - 60 < now + (⌊(t - now) / 60⌋ : ℚ) * 60 ∧ now + (⌊(t - now) / 60⌋ : ℚ) * 60 ≤ t
  constructor
  · linarith
  · linarith

/-- Less than an hour away the cooldown is an hour, and ends too late. -/
theorem minutesUntil_of_lt {now t : ℚ} (h : t < now + 3600) : minutesUntil now t = 60 := by
  have hmax : max 60 ((t - now) / 60) = 60 := by
    refine max_eq_left ?_
    rw [div_le_iff₀ (by norm_num)]
    linarith
  unfold minutesUntil
  rw [hmax]
  rfl

theorem lt_tomorrowFiveUtc (now : ℚ) : now + 3600 ≤ tomorrowFiveUtc now := by
  have hlt := Int.lt_floor_add_one ((now + 86400) / 86400)
  rw [div_lt_iff₀ (by norm_num)] at hlt
  show now + 3600 ≤ (⌊(now + 86400) / 86400⌋ : ℚ) * 86400 + 5 * 3600
  linarith

/-- Five in the morning UTC is hours away from every reset. -/
theorem tomorrowFiveUtc_far (z : EasternZone) (now : ℚ) {reset : ℚ} (h : ∃ day, z.ofUtc reset = resetWall day) :
    ¬ (reset - 60 < tomorrowFiveUtc now ∧ tomorrowFiveUtc now - 60 < reset) := by
  obtain ⟨day, hday⟩ := h
  rintro ⟨hlt, hlt'⟩
  unfold resetWall at hday
  unfold tomorrowFiveUtc at hlt hlt'
  generalize ((now + 86400) / 86400).floor = tomorrow at hlt hlt'
  rcases z.behind reset with hbehind | hbehind
  · have hlow : ((day - tomorrow) * 86400 : ℚ) < 18000 - 79200 + 60 := by linarith
    have hhigh : (18000 - 79200 - 60 : ℚ) < (day - tomorrow) * 86400 := by linarith
    have hlow' : (day - tomorrow) * 86400 < 18000 - 79200 + 60 := by exact_mod_cast hlow
    have hhigh' : 18000 - 79200 - 60 < (day - tomorrow) * 86400 := by exact_mod_cast hhigh
    omega
  · have hlow : ((day - tomorrow) * 86400 : ℚ) < 18000 - 82800 + 60 := by linarith
    have hhigh : (18000 - 82800 - 60 : ℚ) < (day - tomorrow) * 86400 := by linarith
    have hlow' : (day - tomorrow) * 86400 < 18000 - 82800 + 60 := by exact_mod_cast hlow
    have hhigh' : 18000 - 82800 - 60 < (day - tomorrow) * 86400 := by exact_mod_cast hhigh
    omega

/-- The cooldown of a daily limit ends with the trading day if and only if it is not the one of the daily drawdown, and
at least an hour is left of the day. -/
theorem endsWithDay_iff (z : EasternZone) (now : ℚ) {cfg : TradingCircuitBreakerConfig} {realizedPnl : Option ℚ}
    {cb : TradingCircuitBreaker} {limit : DailyLimit} (h : limit.Reached cfg realizedPnl cb) :
    EndsWithDay z now (limit.apply cfg (z.clock now) realizedPnl cb) ↔
      limit ≠ .dailyDrawdown ∧ ∀ reset, z.IsNextReset now reset → now + 3600 ≤ reset := by
  have hends : EndsWithDay z now (limit.apply cfg (z.clock now) realizedPnl cb) ↔
      z.nextReset now - 60 < now + minutesUntil now (limit.target (z.clock now)) * 60 ∧
        now + minutesUntil now (limit.target (z.clock now)) * 60 ≤ z.nextReset now := by
    unfold EndsWithDay
    simp only [EasternZone.isNextReset_iff, exists_eq_left, DailyLimit.cooldownUntil_apply h, Option.mem_def,
      Option.some.injEq, exists_eq_left']
    rfl
  rw [hends]
  simp only [EasternZone.isNextReset_iff, forall_eq]
  by_cases hlimit : limit = .dailyDrawdown
  · subst hlimit
    have hwall := (z.isNextReset_nextReset now).2.1
    have htarget := minutesUntil_of_le (lt_tomorrowFiveUtc now)
    constructor
    · rintro ⟨hlow, hhigh⟩
      exact absurd ⟨hlow.trans_le htarget.2, htarget.1.trans_le hhigh⟩ (tomorrowFiveUtc_far z now hwall)
    · rintro ⟨hne, -⟩
      exact absurd rfl hne
  · have htarget : limit.target (z.clock now) = z.nextReset now := by
      rcases limit with _ | _ | _
      · exact absurd rfl hlimit
      · rfl
      · rfl
    rw [htarget]
    constructor
    · rintro ⟨-, hhigh⟩
      refine ⟨hlimit, ?_⟩
      by_contra hlt
      rw [minutesUntil_of_lt (not_le.1 hlt)] at hhigh
      push_cast at hhigh
      linarith
    · rintro ⟨-, hhour⟩
      exact minutesUntil_of_le hhour

/-- Winter: five hours behind UTC. -/
def winterZone : EasternZone where
  ofUtc t := t - 18000
  toUtc t := t + 18000
  behind t := .inr (by ring)
  before day t := by rw [sub_lt_iff_lt_add]
  after day t := by rw [lt_sub_iff_add_lt]

def lostDay : TradingCircuitBreaker := { dailyPnl := -1000 }

/-- The profit cap at one in the afternoon ends with the day. -/
theorem endsWithDay_iff_afternoon :
    EndsWithDay winterZone 64800
        (DailyLimit.dailyProfitCap.apply {} (winterZone.clock 64800) none { dailyPnl := 3000 }) ↔
      DailyLimit.dailyProfitCap ≠ .dailyDrawdown ∧
        ∀ reset, winterZone.IsNextReset 64800 reset → (64800 : ℚ) + 3600 ≤ reset :=
  endsWithDay_iff winterZone 64800 (show (0 : ℚ) < 3000 ∧ (3000 : ℚ) ≤ 3000 by norm_num)

/-- At one in the afternoon the daily drawdown pauses the breaker until midnight, six hours into the next day. -/
theorem not_endsWithDay : ¬ ∀ (z : EasternZone) (now : ℚ) (cfg : TradingCircuitBreakerConfig) (realizedPnl : Option ℚ)
    (cb : TradingCircuitBreaker) (limit : DailyLimit), limit.Reached cfg realizedPnl cb →
    EndsWithDay z now (limit.apply cfg (z.clock now) realizedPnl cb) := by
  intro h
  obtain ⟨reset, hreset, t, ht, -, hle⟩ := h winterZone 64800 {} none lostDay .dailyDrawdown
    (show (-1000 : ℚ) ≤ -1000 from le_refl _)
  rw [EasternZone.isNextReset_iff] at hreset
  subst hreset
  have huntil : (DailyLimit.dailyDrawdown.apply {} (winterZone.clock 64800) none lostDay).cooldownUntil = some 104400 := by
    decide +kernel
  obtain rfl := Option.some.inj (huntil.symm.trans ht)
  exact absurd hle (by decide +kernel)

end PearlAlgo
