import PearlAlgo.Config.Migration

/-!
# The strategy config (`config/config_loader.py`, `trading_bots/signal_generator.py`)

`build_strategy_config_from_yaml` puts the parameters of the active strategy at the root of the strategy config, and of
the sections copies those that it knows. `pyStr` is `str` on what is no text.
-/

namespace PearlAlgo
open Yaml

namespace StrategyConfig

/-- The indicators of `CONFIG`. -/
def indicatorConfig : Mapping :=
  [("symbol", .str "MNQ"), ("timeframe", .str "5m"), ("scan_interval", .int 30), ("ema_fast", .int 9),
    ("ema_slow", .int 21), ("vwap_std_dev", .float 1), ("vwap_bands", .int 2), ("volume_ma_length", .int 20),
    ("sr_length", .int 130), ("sr_extend", .int 30), ("sr_atr_mult", .float (5/10)), ("tbt_period", .int 10),
    ("tbt_trend_type", .str "wicks"), ("tbt_extend", .int 25), ("sd_threshold_pct", .float 10),
    ("sd_resolution", .int 50), ("key_level_proximity_pct", .float (15/100)),
    ("key_level_breakout_pct", .float (5/100)), ("key_level_bounce_confidence", .float (15/100)),
    ("key_level_breakout_confidence", .float (1/10)), ("key_level_rejection_penalty", .float (8/100))]

/-- Risk, entries, grading and hours of `CONFIG`. -/
def tradeConfig : Mapping :=
  [("stop_loss_atr_mult", .float 1), ("take_profit_atr_mult", .float 2), ("min_confidence", .float (55/100)),
    ("min_risk_reward", .float (13/10)), ("allow_vwap_cross_entries", .bool false),
    ("allow_vwap_retest_entries", .bool false), ("allow_trend_momentum_entries", .bool false),
    ("trend_momentum_atr_mult", .float (5/10)), ("allow_trend_breakout_entries", .bool false),
    ("trend_breakout_lookback_bars", .int 5), ("virtual_pnl_enabled", .bool true),
    ("virtual_pnl_notify_entry", .bool false), ("virtual_pnl_notify_exit", .bool false),
    ("virtual_pnl_tiebreak", .str "stop_loss"), ("start_hour", .int 9), ("start_minute", .int 30),
    ("end_hour", .int 16), ("end_minute", .int 0)]

def CONFIG : Mapping := indicatorConfig ++ tradeConfig

def scoringParams : Mapping :=
  [("atr_period", .int 14), ("stop_loss_atr_mult", .float 1), ("take_profit_atr_mult", .float 2),
    ("volatile_sl_mult", .float (13/10)), ("volatile_tp_mult", .float (13/10)), ("ranging_sl_mult", .float (8/10)),
    ("ranging_tp_mult", .float (7/10)), ("ema_fast", .int 9), ("ema_slow", .int 21), ("vwap_std_dev", .float 1),
    ("vwap_bands", .int 2), ("base_confidence", .float (5/10)), ("volume_boost", .float (12/100)),
    ("sr_boost", .float (8/100)), ("tbt_boost", .float (8/100)), ("sd_boost", .float (1/10)),
    ("vwap_extended_penalty", .float (-8/100)), ("vwap_bounce_boost", .float (5/100)),
    ("breakout_boost", .float (3/100)), ("pdl_pdh_boost", .float (1/10)), ("pwl_pwh_boost", .float (12/100)),
    ("pdh_pdl_caution_penalty", .float (-5/100)), ("pwh_pwl_caution_penalty", .float (-7/100)),
    ("max_confidence", .float (99/100)), ("regime_lookback", .int 50), ("regime_conf_threshold", .float (7/10)),
    ("regime_volatility_threshold", .float (25/10)), ("regime_reduced_multiplier", .float (7/10)),
    ("regime_avoid_multiplier", .float (5/10))]

def thresholdParams : Mapping :=
  [("min_confidence", .float (6/10)), ("min_confidence_long", .float (6/10)),
    ("min_confidence_short", .float (6/10)), ("min_risk_reward", .float (13/10)),
    ("mean_reversion_base_confidence", .float (55/100)), ("vwap_reclaim_base_confidence", .float (55/100)),
    ("key_level_proximity_pct", .float (15/100)), ("key_level_breakout_pct", .float (5/100)),
    ("pdl_pdh_distance_pct", .float (3/10)), ("pwl_pwh_distance_pct", .float (5/10)),
    ("allow_vwap_cross_entries", .bool false), ("allow_vwap_retest_entries", .bool false),
    ("allow_trend_momentum_entries", .bool false), ("trend_momentum_atr_mult", .float (5/10)),
    ("allow_trend_breakout_entries", .bool false), ("trend_breakout_lookback_bars", .int 5), ("adx_period", .int 14),
    ("adx_trending_threshold", .float 25), ("adx_ranging_threshold", .float 20)]

def rangeParams : Mapping :=
  [("allow_orb_entries", .bool false), ("orb_range_minutes", .int 15), ("orb_window_end", .str "11:00"),
    ("orb_max_trades_per_day", .int 1), ("orb_base_confidence", .float (6/10)), ("orb_vwap_boost", .float (1/10)),
    ("orb_volume_boost", .float (8/100)), ("orb_adx_boost", .float (5/100)), ("orb_sl_atr_mult", .float 1),
    ("orb_tp_atr_mult", .float 2), ("allow_vwap_2sd_entries", .bool false), ("vwap_2sd_multiplier", .float 2),
    ("vwap_2sd_rsi_long_threshold", .float 35), ("vwap_2sd_rsi_short_threshold", .float 65),
    ("vwap_2sd_window_start", .str "10:00"), ("vwap_2sd_window_end", .str "15:00"),
    ("vwap_2sd_base_confidence", .float (55/100)), ("vwap_2sd_rsi_extreme_boost", .float (12/100)),
    ("vwap_2sd_volume_boost", .float (8/100)), ("vwap_2sd_sl_atr_mult", .float (75/100)),
    ("vwap_2sd_volume_spike_mult", .float (15/10))]

def smcParams : Mapping :=
  [("allow_smc_entries", .bool false), ("smc_swing_length", .int 10), ("smc_fvg_lookback", .int 20),
    ("smc_ob_lookback", .int 20), ("smc_fvg_base_confidence", .float (55/100)), ("smc_ob_boost", .float (1/10)),
    ("smc_bos_boost", .float (8/100)), ("smc_volume_boost", .float (8/100)), ("smc_key_level_boost", .float (1/10)),
    ("smc_vwap_boost", .float (5/100)), ("smc_sl_atr_mult", .float (8/10)), ("smc_tp_atr_mult", .float (25/10)),
    ("smc_silver_bullet_windows", .list [.list [.int 10, .int 11], .list [.int 14, .int 15], .list [.int 15, .int 16]])]

def strategyParams : Mapping := scoringParams ++ thresholdParams ++ rangeParams ++ smcParams

def getStrategyParamFields : List Key := Mapping.keys strategyParams

def CANONICAL_SECTIONS : List String :=
  ["strategy", "signals", "risk", "data", "service", "execution", "session", "challenge", "performance", "virtual_pnl",
    "auto_flat", "swing_trading", "guardrails", "strategies", "trading_circuit_breaker", "circuit_breaker", "hud",
    "indicators", "telegram", "telegram_ui", "storage", "audit", "accounts", "composite_regime"]

/-- Where both sides are mappings the section is merged, one level deep. -/
def copySection (config result : Mapping) (name : String) : Mapping :=
  match config.get? name, result.get? name with
  | none, _ => result
  | some (.map m), some (.map old) => result.assign name (.map (Mapping.update old m))
  | some v, _ => result.assign name v

def copyScalar (config result : Mapping) (key : String) : Mapping :=
  match config.get? key with
  | some v => result.assign key v
  | none => result

variable (pyStr : Datum → String)

def textOf : Datum → String
  | .scalar (.str s) => s
  | v => pyStr v

/-- `str(active or "composite_intraday")` -/
def activeName : Option Datum → String
  | some v => if v.truthy then textOf pyStr v else ACTIVE_STRATEGY
  | none => ACTIVE_STRATEGY

def activeStrategy (config : Mapping) : String :=
  activeName pyStr ((RuntimeConfig.subsection "strategy" config).get? "active")

def nestedParams (name : String) (config : Mapping) : Mapping :=
  RuntimeConfig.subsection name (RuntimeConfig.subsection "strategies" config)

/-- The parameters of a strategy, or the legacy ones where it has none. -/
def paramsOf (name : String) (config : Mapping) : Mapping :=
  if nestedParams name config = [] then RuntimeConfig.subsection "pearl_bot_auto" config else nestedParams name config

def activeParams (config : Mapping) : Mapping := paramsOf (activeStrategy pyStr config) config

def buildStrategyConfigFromYaml (base configData : Mapping) : Mapping :=
  let config := RuntimeConfig.migrate configData
  let result := CANONICAL_SECTIONS.foldl (copySection config) base
  let result := ["symbol", "timeframe", "scan_interval"].foldl (copyScalar config) result
  result.update ((activeParams pyStr config).filter fun e => e.1 ∈ getStrategyParamFields)

/-- The value of a parameter, which is its default where the config does not have it. -/
def param (config : Mapping) (k : Key) : Datum := ((config.get? k).or (strategyParams.get? k)).getD .null

/-! ### What is read from the config -/

variable {pyStr} {config config' base base' result result' : Mapping} {k : Key} {names : List String} {name : String}

/-- What a section is after it was copied. -/
def copied : Option Datum → Option Datum → Option Datum
  | none, old => old
  | some (.map m), some (.map old) => some (.map (Mapping.update old m))
  | some v, _ => some v

theorem get?_copySection : (copySection config result name).get? k =
    if k = name then copied (config.get? k) (result.get? k) else result.get? k := by
  unfold copySection
  by_cases hk : k = name
  · subst hk
    rw [if_pos rfl]
    rcases config.get? name with _ | _ | _ | m
    · rfl
    · exact Mapping.get?_assign_self
    · exact Mapping.get?_assign_self
    · rcases result.get? name with _ | _ | _ | old
      · exact Mapping.get?_assign_self
      · exact Mapping.get?_assign_self
      · exact Mapping.get?_assign_self
      · exact Mapping.get?_assign_self
  · rw [if_neg hk]
    split
    · rfl
    · exact Mapping.get?_assign_ne hk
    · exact Mapping.get?_assign_ne hk

theorem get?_copySections (hconfig : config.get? k = config'.get? k) (hresult : result.get? k = result'.get? k) :
    (names.foldl (copySection config) result).get? k = (names.foldl (copySection config') result').get? k := by
  induction names generalizing result result' with
  | nil => exact hresult
  | cons name names ih =>
    refine ih ?_
    rw [get?_copySection, get?_copySection, hconfig, hresult]

theorem get?_copySections_of_notMem (hk : k ∉ names.map Key.str) :
    (names.foldl (copySection config) result).get? k = result.get? k := by
  induction names generalizing result with
  | nil => rfl
  | cons name names ih =>
    obtain ⟨hname, hnames⟩ := not_or.1 (List.mem_cons.not.1 hk)
    rw [List.foldl_cons, ih hnames, get?_copySection, if_neg hname]

theorem get?_copyScalars (hk : k ∉ names.map Key.str) :
    (names.foldl (copyScalar config) result).get? k = result.get? k := by
  induction names generalizing result with
  | nil => rfl
  | cons name names ih =>
    obtain ⟨hname, hnames⟩ := not_or.1 (List.mem_cons.not.1 hk)
    rw [List.foldl_cons, ih hnames]
    unfold copyScalar
    split
    · exact Mapping.get?_assign_ne hname
    · rfl

theorem nodup_filter {m : Mapping} {p : Key → Bool} (h : m.keys.Nodup) : (Mapping.keys (m.filter fun e => p e.1)).Nodup :=
  h.sublist (List.filter_sublist.map _)

theorem get?_build_param (hnodup : (activeParams pyStr (RuntimeConfig.migrate config)).keys.Nodup)
    (hk : k ∈ getStrategyParamFields) : (buildStrategyConfigFromYaml pyStr base config).get? k =
      ((activeParams pyStr (RuntimeConfig.migrate config)).get? k).or (base.get? k) := by
  have hfields : ∀ k ∈ getStrategyParamFields, k ∉ CANONICAL_SECTIONS.map Key.str ∧
      k ∉ ["symbol", "timeframe", "scan_interval"].map Key.str := by decide +kernel
  obtain ⟨hsections, hscalars⟩ := hfields k hk
  have hfilter : Mapping.get? k ((activeParams pyStr (RuntimeConfig.migrate config)).filter fun e =>
      e.1 ∈ getStrategyParamFields) = _ := Mapping.get?_filter (p := fun j => j ∈ getStrategyParamFields)
  unfold buildStrategyConfigFromYaml
  dsimp only
  rw [Mapping.get?_update (nodup_filter (p := fun j => j ∈ getStrategyParamFields) hnodup), hfilter,
    if_pos (decide_eq_true hk), get?_copyScalars hscalars, get?_copySections_of_notMem hsections]

/-- A section that is no parameter is the same where the configs have the same. -/
theorem get?_build_section (hk : k ∉ getStrategyParamFields) (hscalar : k ∉ ["symbol", "timeframe", "scan_interval"].map Key.str)
    (hconfig : (RuntimeConfig.migrate config).get? k = (RuntimeConfig.migrate config').get? k) :
    (buildStrategyConfigFromYaml pyStr base config).get? k = (buildStrategyConfigFromYaml pyStr base config').get? k := by
  have hparams : ∀ m n : Mapping, (m.update (n.filter fun e => e.1 ∈ getStrategyParamFields)).get? k = m.get? k := by
    intro m n
    refine Mapping.get?_update_of_notMem fun hmem => hk ?_
    obtain ⟨e, he, rfl⟩ := List.mem_map.1 hmem
    exact of_decide_eq_true (List.mem_filter.1 he).2
  unfold buildStrategyConfigFromYaml
  dsimp only
  rw [hparams, hparams, get?_copyScalars hscalar, get?_copyScalars hscalar]
  exact get?_copySections hconfig rfl

end StrategyConfig

end PearlAlgo
