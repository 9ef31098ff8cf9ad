import PearlAlgo.Config.RuntimeValidation
import PearlAlgo.Py.Seq

/-!
# The service config (`config/config_loader.py`)

What `load_service_config` makes of a config that was read. A section that has defaults must be a mapping, as the
defaults are unpacked with it.
-/

namespace PearlAlgo
open Yaml

namespace ServiceConfig

def SERVICE_DEFAULTS : List (String × Mapping) :=
  [("service",
    [("status_update_interval", .int 1800), ("heartbeat_interval", .int 3600), ("state_save_interval", .int 10),
      ("cadence_mode", .str "fixed"), ("enable_new_bar_gating", .bool true), ("pressure_lookback_bars", .int 24),
      ("pressure_baseline_bars", .int 120), ("dashboard_chart_enabled", .bool true),
      ("dashboard_chart_interval", .int 3600), ("dashboard_chart_lookback_hours", .int 8),
      ("dashboard_chart_timeframe", .str "auto"), ("dashboard_chart_max_bars", .int 420),
      ("dashboard_chart_show_pressure", .bool true), ("connection_failure_alert_interval", .int 600),
      ("data_quality_alert_interval", .int 300)]),
    ("telegram_ui",
    [("compact_metrics_enabled", .bool true), ("show_progress_bars", .bool false),
      ("show_volume_metrics", .bool true), ("compact_metric_width", .int 10)]),
    ("circuit_breaker",
    [("max_consecutive_errors", .int 10), ("max_connection_failures", .int 10), ("max_data_fetch_errors", .int 5)]),
    ("trading_circuit_breaker",
    [("mode", .str "enforce"), ("enabled", .bool true), ("max_consecutive_losses", .int 5),
      ("consecutive_loss_cooldown_minutes", .int 30), ("max_session_drawdown", .float 500),
      ("max_daily_drawdown", .float 1000), ("drawdown_cooldown_minutes", .int 60),
      ("rolling_window_trades", .int 20), ("min_rolling_win_rate", .float (3/10)),
      ("win_rate_cooldown_minutes", .int 30), ("max_concurrent_positions", .int 5),
      ("min_price_distance_pct", .float (5/10)), ("enable_volatility_filter", .bool false),
      ("min_atr_ratio", .float (8/10)), ("max_atr_ratio", .float (25/10)), ("chop_detection_window", .int 10),
      ("chop_win_rate_threshold", .float (35/100)), ("auto_resume_after_cooldown", .bool true),
      ("require_winning_trade_to_resume", .bool false), ("enable_session_filter", .bool false),
      ("allowed_sessions", .list []), ("enable_direction_gating", .bool false),
      ("direction_gating_min_confidence", .float (7/10)), ("enable_regime_avoidance", .bool false),
      ("blocked_regimes", .list [.str "ranging", .str "volatile"]),
      ("regime_avoidance_min_confidence", .float (7/10)), ("enable_trigger_filters", .bool false)]),
    ("data",
    [("buffer_size", .int 100), ("buffer_size_5m", .int 50), ("buffer_size_15m", .int 50),
      ("historical_hours", .int 2), ("multitimeframe_5m_hours", .int 25), ("multitimeframe_15m_hours", .int 25),
      ("performance_history_limit", .int 1000), ("stale_data_threshold_minutes", .float 10),
      ("connection_timeout_minutes", .float 30), ("enable_base_cache", .bool true),
      ("base_refresh_seconds", .int 60), ("enable_mtf_cache", .bool true), ("mtf_refresh_seconds_5m", .int 300),
      ("mtf_refresh_seconds_15m", .int 900), ("ibkr_verbose_logging", .bool false)]),
    ("storage",
    [("sqlite_enabled", .bool true), ("db_path", .str "data/agent_state/MNQ/trades.db"),
      ("dual_write_files", .bool false)]),
    ("risk",
    [("max_risk_per_trade", .float (1/100)), ("max_drawdown", .float (1/10)), ("min_position_size", .int 5),
      ("max_position_size", .int 25), ("signal_type_size_multipliers", .map []),
      ("signal_type_max_contracts", .map [])]),
    ("signals",
    [("duplicate_window_seconds", .int 300), ("min_confidence", .float (5/10)), ("min_risk_reward", .float (15/10))]),
    ("performance",
    [("max_records", .int 1000), ("default_lookback_days", .int 7)]),
    ("virtual_pnl",
    [("enabled", .bool true), ("intrabar_tiebreak", .str "stop_loss"), ("notify_entry", .bool false),
      ("notify_exit", .bool false)]),
    ("auto_flat",
    [("enabled", .bool true), ("friday_enabled", .bool true), ("friday_time", .str "16:55"),
      ("weekend_enabled", .bool true), ("timezone", .str "America/New_York"), ("notify", .bool true)]),
    ("market_hours",
    [("enable_config_overrides", .bool false), ("holiday_overrides", .list []), ("early_closes", .map [])]),
    ("session",
    [("start_time", .str "18:00"), ("end_time", .str "17:00"), ("timezone", .str "America/New_York")]),
    ("execution",
    [("enabled", .bool false), ("armed", .bool false), ("mode", .str "dry_run"), ("adapter", .str "tradovate"),
      ("max_positions", .int 1), ("max_orders_per_day", .int 20), ("max_daily_loss", .float 500),
      ("cooldown_seconds", .int 60), ("max_position_size_per_order", .int 1),
      ("symbol_whitelist", .list [.str "MNQ"]), ("allow_reversal_on_opposite_signal", .bool false),
      ("enforce_protection_guard", .bool true), ("ibkr_trading_client_id", .int 20), ("ibkr_host", .str "127.0.0.1"),
      ("ibkr_port", .int 4001)])]

/-- `IBKR_HOST`, `IBKR_PORT` and `IBKR_CLIENT_ID`. -/
structure ExecutionEnv where
  ibkrHost : Option String := none
  ibkrPort : Option String := none
  ibkrClientId : Option String := none
deriving DecidableEq

/-- An override that is set and can be converted. -/
def overrideKey (key : String) (value : Option Datum) (execution : Mapping) : Mapping :=
  match value with
  | some v => execution.assign key v
  | none => execution

/-- `_apply_execution_env_overrides`; assigning to what is no mapping is passed over. -/
def applyExecutionEnvOverrides (env : ExecutionEnv) (result : Mapping) : Mapping :=
  match result.get? "execution" with
  | some (.map execution) =>
    result.assign "execution" (.map (overrideKey "ibkr_trading_client_id"
      ((env.ibkrClientId.bind Py.intOfText).map Datum.int) (overrideKey "ibkr_port"
        ((env.ibkrPort.bind Py.intOfText).map Datum.int) (overrideKey "ibkr_host" (env.ibkrHost.map Datum.str) execution))))
  | some (.scalar _) | some (.list _) | none => result

/-- `virtual_pnl or {}`, `none` where that has no `get`. -/
def virtualPnl (result : Mapping) : Option Mapping :=
  match result.get? "virtual_pnl" with
  | none => some []
  | some (.map m) => some m
  | some v => if v.truthy then none else some []

/-- Flatten virtual_pnl fields for legacy attribute access. -/
def flattenVirtualPnl (result : Mapping) : Option Mapping :=
  (virtualPnl result).map fun vp =>
    let flag := fun (key : Key) (default : Bool) => Datum.bool ((vp.get? key).getD (.bool default)).truthy
    let result := result.assign "virtual_pnl_enabled" (flag "enabled" true)
    let result := result.assign "virtual_pnl_notify_entry" (flag "notify_entry" false)
    let result := result.assign "virtual_pnl_notify_exit" (flag "notify_exit" false)
    result.assign "virtual_pnl_tiebreak" ((vp.get? "intrabar_tiebreak").getD (.str "stop_loss"))

/-- `{**defaults, **config_data.get(section, {})}` -/
def mergeSection (data : Mapping) (e : String × Mapping) : Option (Key × Datum) :=
  match data.get? e.1 with
  | none => some (.str e.1, .map e.2)
  | some v => v.map?.map fun m => (.str e.1, .map (Mapping.update e.2 m))

/-- The config with its defaults, the override and the environment; `none` where this raises. -/
def serviceConfig (defaults : List (String × Mapping)) (env : ExecutionEnv) (override data : Mapping) : Option Mapping :=
  (defaults.mapM (mergeSection data)).bind fun sections =>
    flattenVirtualPnl (applyExecutionEnvOverrides env (deepMerge (Mapping.setdefaults sections data) override))

variable {defaults : List (String × Mapping)} {env : ExecutionEnv} {data result vp : Mapping} {sections : List (Key × Datum)}
  {k : Key} {v : Datum}

theorem get?_applyExecutionEnvOverrides (hk : k ≠ "execution") :
    (applyExecutionEnvOverrides env result).get? k = result.get? k := by
  unfold applyExecutionEnvOverrides
  split
  · exact Mapping.get?_assign_ne hk
  · rfl
  · rfl
  · rfl

/-- The keys under which the fields of `virtual_pnl` are put. -/
def FLATTENED_KEYS : List Key :=
  ["virtual_pnl_enabled", "virtual_pnl_notify_entry", "virtual_pnl_notify_exit", "virtual_pnl_tiebreak"]

theorem get?_flattenVirtualPnl {flat : Mapping} (h : flattenVirtualPnl result = some flat) (hk : k ∉ FLATTENED_KEYS) :
    flat.get? k = result.get? k := by
  obtain ⟨vp, -, rfl⟩ := Option.map_eq_some_iff.1 h
  simp only [FLATTENED_KEYS, List.mem_cons, List.not_mem_nil, or_false, not_or] at hk
  obtain ⟨henabled, hentry, hexit, htie⟩ := hk
  rw [Mapping.get?_assign_ne htie, Mapping.get?_assign_ne hexit, Mapping.get?_assign_ne hentry,
    Mapping.get?_assign_ne henabled]

theorem mergeSection_eq_some {e : String × Mapping} {entry : Key × Datum} (h : mergeSection data e = some entry) :
    entry.1 = .str e.1 ∧ entry.2.isMap := by
  unfold mergeSection at h
  split at h
  · cases h
    exact ⟨rfl, rfl⟩
  · obtain ⟨m, -, rfl⟩ := Option.map_eq_some_iff.1 h
    exact ⟨rfl, rfl⟩

theorem keys_mergeSections (h : defaults.mapM (mergeSection data) = some sections) :
    Mapping.keys sections = defaults.map (fun e => Key.str e.1) ∧ ∀ e ∈ sections, e.2.isMap := by
  induction defaults generalizing sections with
  | nil =>
    cases h
    exact ⟨rfl, by simp⟩
  | cons e defaults ih =>
    rw [List.mapM_cons] at h
    obtain ⟨entry, hentry, h⟩ := Option.bind_eq_some_iff.1 h
    obtain ⟨rest, hrest, h⟩ := Option.bind_eq_some_iff.1 h
    cases h
    obtain ⟨hkey, hmap⟩ := mergeSection_eq_some hentry
    obtain ⟨hkeys, hmaps⟩ := ih hrest
    refine ⟨?_, List.forall_mem_cons.2 ⟨hmap, hmaps⟩⟩
    show entry.1 :: Mapping.keys rest = _
    rw [hkey, hkeys]
    rfl

theorem get?_serviceConfig (h : serviceConfig defaults env [] data = some result)
    (hk : k ∉ defaults.map fun e => Key.str e.1) (hexecution : k ≠ "execution") (hflat : k ∉ FLATTENED_KEYS) :
    result.get? k = data.get? k := by
  obtain ⟨sections, hsections, h⟩ := Option.bind_eq_some_iff.1 h
  rw [get?_flattenVirtualPnl h hflat, get?_applyExecutionEnvOverrides hexecution, deepMerge_nil, Mapping.get?_setdefaults,
    Mapping.get?_eq_none.2 (by rw [(keys_mergeSections hsections).1]; exact hk), Option.none_or]

def SectionsAreMaps (defaults : List (String × Mapping)) (data : Mapping) : Prop :=
  ∀ e ∈ defaults, ∀ v ∈ data.get? e.1, v.isMap

instance : Decidable (SectionsAreMaps defaults data) := inferInstanceAs (Decidable (∀ e ∈ defaults, ∀ v ∈ _, _))

theorem isSome_mergeSection {e : String × Mapping} :
    (mergeSection data e).isSome ↔ ∀ v ∈ data.get? e.1, v.isMap := by
  unfold mergeSection
  rcases data.get? e.1 with _ | v
  · simp
  · rcases v with _ | _ | m
    · simp [Datum.map?, Datum.isMap]
    · simp [Datum.map?, Datum.isMap]
    · simp [Datum.map?, Datum.isMap]

theorem isSome_mergeSections : (defaults.mapM (mergeSection data)).isSome ↔ SectionsAreMaps defaults data := by
  induction defaults with
  | nil => simp [SectionsAreMaps]
  | cons e defaults ih =>
    rw [SectionsAreMaps, List.forall_mem_cons, ← SectionsAreMaps, ← ih, ← isSome_mergeSection, List.mapM_cons]
    rcases mergeSection data e with _ | entry
    · simp
    · rcases defaults.mapM (mergeSection data) with _ | rest
      · simp
      · simp

theorem isSome_flattenVirtualPnl (h : result.get? "virtual_pnl" = some v) (hv : v.isMap) :
    (flattenVirtualPnl result).isSome := by
  rcases v with _ | _ | m
  · cases hv
  · cases hv
  · unfold flattenVirtualPnl virtualPnl
    rw [h]
    rfl

/-- Without an override the config can be built exactly where these sections are mappings. -/
theorem isSome_serviceConfig (hvp : "virtual_pnl" ∈ defaults.map Prod.fst) :
    (serviceConfig defaults env [] data).isSome ↔ SectionsAreMaps defaults data := by
  rw [← isSome_mergeSections]
  unfold serviceConfig
  rcases hsections : defaults.mapM (mergeSection data) with _ | sections
  · simp
  · obtain ⟨hkeys, hmaps⟩ := keys_mergeSections hsections
    have hmem : Key.str "virtual_pnl" ∈ Mapping.keys sections := by
      obtain ⟨e, he, heq⟩ := List.mem_map.1 hvp
      rw [hkeys]
      exact List.mem_map.2 ⟨e, he, by rw [heq]⟩
    obtain ⟨v, hv⟩ : ∃ v, Mapping.get? "virtual_pnl" sections = some v :=
      Option.ne_none_iff_exists'.1 fun hnone => Mapping.get?_eq_none.1 hnone hmem
    rw [Option.bind_some, Option.isSome_some, eq_self, iff_true, deepMerge_nil]
    refine isSome_flattenVirtualPnl (v := v) ?_ (hmaps _ (Mapping.mem_of_get? hv))
    rw [get?_applyExecutionEnvOverrides (by decide), Mapping.get?_setdefaults, hv, Option.some_or]

end ServiceConfig

end PearlAlgo
