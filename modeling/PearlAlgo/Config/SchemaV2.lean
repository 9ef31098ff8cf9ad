import PearlAlgo.Config.Migration
import PearlAlgo.Py.Seq
import PearlAlgo.Pydantic.Schema

/-!
# The schema of the runtime config (`config/schema_v2.py`)

Of the sections only `signals`, `strategies` and `composite_intraday`, and the config itself, allow extra keys.
`coerce` is pydantic's coercion and `upper` is `str.upper`.
-/

namespace PearlAlgo
open Yaml Pydantic

def KNOWN_SIGNAL_TYPES : List String := ["pearlbot_pinescript", "smc_fvg", "smc_ob", "smc_silver_bullet"]

namespace SchemaV2

def text (name default : String) : String × Schema × Datum := (name, .scalar .str some, .str default)

def whole (name : String) (default : Int) : String × Schema × Datum := (name, .scalar .int some, .int default)

def number (name : String) (default : ℚ) : String × Schema × Datum := (name, .scalar .float some, .float default)

def flag (name : String) (default : Bool) : String × Schema × Datum := (name, .scalar .bool some, .bool default)

def texts (name : String) (default : List String) : String × Schema × Datum :=
  (name, .scalar .listStr some, .list (default.map Datum.str))

/-- A field with `default_factory`. -/
def sectionField (name : String) (extraAllow : Bool) (fields : Fields) : String × Schema × Datum :=
  (name, .model extraAllow fields, .map fields.defaults)

def accountConfig : Fields := .ofList
  [text "name" "default", text "display_name" "Agent", text "badge" "", text "badge_color" "blue",
    text "telegram_prefix" ""]

def sessionConfig : Fields := .ofList
  [text "start_time" "18:00", text "end_time" "15:45", text "timezone" "America/New_York"]

def riskConfig : Fields := .ofList
  [number "max_risk_per_trade" (15/1000), number "max_drawdown" (1/10), whole "min_position_size" 5,
    whole "max_position_size" 50]

def executionConfig : Fields := .ofList
  [flag "enabled" false, flag "armed" false, text "mode" "dry_run", text "adapter" "tradovate",
    whole "max_positions" 1, whole "max_orders_per_day" 20, number "max_daily_loss" 500, whole "cooldown_seconds" 60,
    texts "symbol_whitelist" ["MNQ"]]

def challengeConfig : Fields := .ofList
  [flag "enabled" false, text "stage" "", number "start_balance" 50000, number "profit_target" 3000,
    number "max_drawdown" 2000, flag "auto_reset_on_pass" true, flag "auto_reset_on_fail" true]

def validateEnabledSignalTypes (v : Datum) : Option Datum :=
  match v with
  | .list names => if ∀ name ∈ names, name ∈ KNOWN_SIGNAL_TYPES.map Datum.str then some v else none
  | .scalar _ | .map _ => none

def signalsConfig : Fields := .ofList
  [number "min_confidence" (55/100), number "min_risk_reward" (13/10), whole "duplicate_window_seconds" 120,
    whole "min_volume" 10, number "max_stop_points" 45,
    ("enabled_signal_types", .scalar .listStr validateEnabledSignalTypes, .list [])]

def strategyConfig : Fields := .ofList
  [text "active" ACTIVE_STRATEGY, flag "enforce_session_window" false, texts "enabled_signals" [ACTIVE_STRATEGY],
    flag "enable_dynamic_sizing" true, whole "base_contracts" 3, whole "high_conf_contracts" 5,
    whole "max_conf_contracts" 8]

def compositeIntradayConfig : Fields := .ofList
  [whole "ema_fast" 9, whole "ema_slow" 21, number "min_confidence" (4/10), number "min_confidence_long" (4/10),
    number "min_confidence_short" (4/10), number "stop_loss_atr_mult" (15/10), number "take_profit_atr_mult" (25/10),
    number "volatile_sl_mult" (13/10), number "volatile_tp_mult" (13/10), number "ranging_sl_mult" (8/10),
    number "ranging_tp_mult" (7/10), flag "allow_vwap_cross_entries" true, flag "allow_vwap_retest_entries" true,
    flag "allow_trend_momentum_entries" true, flag "allow_trend_breakout_entries" true, flag "allow_orb_entries" true,
    flag "allow_vwap_2sd_entries" true, flag "allow_smc_entries" true]

def strategiesConfig : Fields := .ofList [sectionField "composite_intraday" true compositeIntradayConfig]

def guardrailsConfig : Fields := .ofList
  [flag "signal_gate_enabled" false, whole "max_consecutive_losses" 3, number "max_session_drawdown" 1800,
    number "max_daily_drawdown" 99999]

def symbolNotEmpty (upper : String → String) : Datum → Option Datum
  | .scalar (.str s) => if Py.strip s = "" then none else some (.str (upper (Py.strip s)))
  | _ => none

def timeframeValid (v : Datum) : Option Datum :=
  if v ∈ ["1m", "5m", "15m", "1h", "4h", "1d"].map Datum.str then some v else none

def scanIntervalPositive : Datum → Option Datum
  | .scalar (.int n) => if n < 1 then none else some (.int n)
  | _ => none

/-- The fields of the config that are no sections. -/
def agentScalars (upper : String → String) : List (String × Schema × Datum) :=
  [("symbol", .scalar .str (symbolNotEmpty upper), .str "MNQ"), ("timeframe", .scalar .str timeframeValid, .str "1m"),
    ("scan_interval", .scalar .int scanIntervalPositive, .int 30)]

/-- The sections, with whether they allow extra keys. -/
def agentSections : List (String × Bool × Fields) :=
  [("account", false, accountConfig), ("session", false, sessionConfig), ("risk", false, riskConfig),
    ("execution", false, executionConfig), ("challenge", false, challengeConfig), ("signals", true, signalsConfig),
    ("strategy", false, strategyConfig), ("strategies", true, strategiesConfig), ("guardrails", false, guardrailsConfig)]

def agentConfigFields (upper : String → String) : Fields :=
  .ofList (agentScalars upper ++ agentSections.map fun (name, extraAllow, fields) => sectionField name extraAllow fields)

def agentConfigSchema (upper : String → String) : Schema := .model true (agentConfigFields upper)

/-- `validate_config`, `none` where it raises. -/
def validateConfig (coerce : Coercion) (upper : String → String) (raw : Mapping) : Option Mapping :=
  let normalized := RuntimeConfig.migrate raw
  ((agentConfigSchema upper).validate coerce (.map normalized)).map fun validated =>
    normalized.foldl (fun validated e => validated.setdefault e.1 e.2) validated.asMap

variable {coerce : Coercion} {upper : String → String} {raw validated : Mapping}

/-- The merge at the end adds nothing: the schema has kept the extra keys. -/
theorem merge_extra {normalized : Mapping}
    (h : (agentConfigSchema upper).validate coerce (.map normalized) = some (.map validated)) :
    normalized.foldl (fun validated e => validated.setdefault e.1 e.2) validated = validated := by
  obtain ⟨_, declared, ⟨⟩, hdeclared, heq⟩ := Schema.validate_model h
  cases heq
  have hall : ∀ e ∈ normalized,
      (Mapping.get? e.1 (declared ++ if true then normalized.filter fun e => e.1 ∉ (agentConfigFields upper).names
        else [])).isSome := by
    rintro ⟨k, v⟩ he
    rw [← Option.ne_none_iff_isSome, Ne, Mapping.get?_eq_none, not_not, if_pos rfl]
    have hkeys : declared.keys = (agentConfigFields upper).names := Fields.keys_validate _ hdeclared
    show k ∈ (declared ++ _).map Prod.fst
    rw [List.map_append, List.mem_append]
    by_cases hk : k ∈ (agentConfigFields upper).names
    · exact .inl (by rw [← hkeys] at hk; exact hk)
    · exact .inr (List.mem_map.2 ⟨(k, v), List.mem_filter.2 ⟨he, decide_eq_true hk⟩, rfl⟩)
  generalize (declared ++ if true then normalized.filter fun e => e.1 ∉ (agentConfigFields upper).names else [] : Mapping) =
    validated at hall ⊢
  clear h hdeclared
  induction normalized with
  | nil => rfl
  | cons e normalized ih =>
    rw [List.foldl_cons, Mapping.setdefault_of_isSome (hall e List.mem_cons_self)]
    exact ih fun e' he' => hall e' (List.mem_cons_of_mem _ he')

/-- What `validate_config` returns is the dump of the schema. -/
theorem validateConfig_eq_some : validateConfig coerce upper raw = some validated ↔
    (agentConfigSchema upper).validate coerce (.map (RuntimeConfig.migrate raw)) = some (.map validated) := by
  have hmap : ∀ {v}, (agentConfigSchema upper).validate coerce (.map (RuntimeConfig.migrate raw)) = some v → ∃ m, v = .map m := by
    intro v hv
    obtain ⟨m, declared, -, -, rfl⟩ := Schema.validate_model hv
    exact ⟨_, rfl⟩
  unfold validateConfig
  rw [Option.map_eq_some_iff]
  constructor
  · rintro ⟨v, hv, heq⟩
    obtain ⟨m, rfl⟩ := hmap hv
    rw [Datum.asMap, merge_extra hv] at heq
    subst heq
    exact hv
  · intro hv
    exact ⟨_, hv, merge_extra hv⟩

/-! ### The keys that are ignored -/

/-- The sections that ignore extra keys have declared ones only. -/
def SectionsDeclared (config : Mapping) : Prop :=
  ∀ e ∈ agentSections, e.2.1 = false → ∀ k ∈ Mapping.keys (RuntimeConfig.subsection e.1 config), k ∈ e.2.2.names

instance (config : Mapping) : Decidable (SectionsDeclared config) :=
  inferInstanceAs (Decidable (∀ e ∈ agentSections, _ → _))

theorem at?_ignoring {path : List Key} {fields : Fields}
    (h : (agentConfigSchema upper).at? path = some (.model false fields)) :
    ∃ e ∈ agentSections, path = [.str e.1] ∧ e.2.1 = false ∧ fields = e.2.2 := by
  rcases path with _ | ⟨k, path⟩
  · cases h
  · obtain ⟨s, hfind, h⟩ := Option.bind_eq_some_iff.1 h
    obtain ⟨e, he, hk, hs⟩ := Fields.mem_of_find?_ofList hfind
    rcases List.mem_append.1 he with he | he
    · have hall : ∀ e ∈ agentScalars upper, e.2.1.allowsAll = true := by
        simp only [agentScalars, List.forall_mem_cons, List.not_mem_nil]
        exact ⟨rfl, rfl, rfl, fun _ h => h.elim⟩
      cases Schema.at?_of_allowsAll (hs ▸ hall e he) h
    · obtain ⟨⟨name, extraAllow, fields'⟩, hmem, rfl⟩ := List.mem_map.1 he
      have hall : ∀ e ∈ agentSections, e.2.2.allowAll = true := by decide
      subst hs
      rcases path with _ | ⟨j, path⟩
      · cases h
        exact ⟨_, hmem, by rw [← hk]; rfl, rfl, rfl⟩
      · obtain ⟨s₂, hfind₂, h⟩ := Option.bind_eq_some_iff.1 h
        cases Schema.at?_of_allowsAll (Fields.allowsAll_of_find? _ (hall _ hmem) hfind₂) h

theorem at?_agentSections : ∀ e ∈ agentSections, (agentConfigSchema upper).at? [.str e.1] = some (.model e.2.1 e.2.2) := by
  simp only [agentSections, List.forall_mem_cons, List.not_mem_nil]
  exact ⟨rfl, rfl, rfl, rfl, rfl, rfl, rfl, rfl, rfl, fun _ h => h.elim⟩

theorem declares_iff {config : Mapping} : Declares (agentConfigSchema upper) (.map config) ↔ SectionsDeclared config := by
  constructor
  · intro h e he hignores k hk
    rcases hget : config.get? (.str e.1) with _ | v
    · rw [RuntimeConfig.subsection, hget] at hk
      cases hk
    · rw [RuntimeConfig.subsection, hget] at hk
      rcases v with _ | _ | m
      · cases hk
      · cases hk
      · refine h [.str e.1] e.2.2 m ?_ ?_ k hk
        · rw [← hignores]
          exact at?_agentSections e he
        · rw [Datum.at?, hget]
          rfl
  · intro h path fields m hs hm k hk
    obtain ⟨e, he, rfl, hignores, rfl⟩ := at?_ignoring hs
    refine h e he hignores k ?_
    obtain ⟨v, hget, hv⟩ := Option.bind_eq_some_iff.1 hm
    cases hv
    rw [RuntimeConfig.subsection, hget]
    exact hk

end SchemaV2

end PearlAlgo
