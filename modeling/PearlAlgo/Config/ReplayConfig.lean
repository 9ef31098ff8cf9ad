import PearlAlgo.Config.ServiceConfig
import PearlAlgo.Config.StrategyConfig

/-!
# The strategy config of the replay (`scripts/ops/backtest_config.py`, `market_agent/main.py`)

`main` builds the strategy config from the validated config, and the replay from the service config.
`replay_agrees_iff` says for which files the two agree.
-/

namespace PearlAlgo
open Yaml Pydantic

namespace ReplayConfig
open RuntimeConfig StrategyConfig ServiceConfig

section
variable (coerce : Coercion) (upper : String → String) (pyStr : Datum → String)

/-- The config of `_load_new_config` is validated, and the strategy config built from that. -/
def mainStrategyConfig (file : Mapping) : Option Mapping :=
  (validateRuntimeConfig coerce upper true (migrate file)).map (buildStrategyConfigFromYaml pyStr CONFIG)

/-- The config merge of `run_backtest`, where nothing is cached or overridden. -/
def replayStrategyConfig (env : ExecutionEnv) (symbol tf : String) (file : Mapping) : Option Mapping :=
  (serviceConfig SERVICE_DEFAULTS env [] (migrate (migrate file))).map fun raw =>
    ((buildStrategyConfigFromYaml pyStr CONFIG raw).setdefault "symbol" (.str symbol)).setdefault "timeframe" (.str tf)

/-- The configs have the same parameters and the same `composite_regime`. -/
structure Agrees (live replay : Mapping) : Prop where
  params : ∀ k ∈ getStrategyParamFields, (param live k).Same (param replay k)
  compositeRegime : live.get? "composite_regime" = replay.get? "composite_regime"

/-- The parameters whose defaults are the same in the schema and in the strategy config. -/
def OPTIONAL_PARAMS : List Key :=
  ["ema_fast", "ema_slow", "volatile_sl_mult", "volatile_tp_mult", "ranging_sl_mult", "ranging_tp_mult"]

def compositeSchema : Schema := .model true SchemaV2.compositeIntradayConfig

/-- The schema leaves the declared parameters as they are, and the others may be missing. -/
def ParamsGiven (params : Mapping) : Prop :=
  ∀ k ∈ SchemaV2.compositeIntradayConfig.names,
    (∀ v ∈ params.get? k, ∀ v' ∈ (SchemaV2.compositeIntradayConfig.find? k).bind fun s => s.validate coerce v, v'.Same v) ∧
      (params.get? k = none → k ∈ OPTIONAL_PARAMS)

instance (params : Mapping) : Decidable (ParamsGiven coerce params) := inferInstanceAs (Decidable (∀ k ∈ _, _))

/-- Parameters of the legacy section have the values that the config without parameters has. -/
def LegacyParams (params : Mapping) : Prop :=
  ∀ k ∈ getStrategyParamFields,
    (∀ v ∈ params.get? k, (param (SchemaV2.compositeIntradayConfig.defaults ++ CONFIG) k).Same v) ∧
      (params.get? k = none → k ∈ SchemaV2.compositeIntradayConfig.names → k ∈ OPTIONAL_PARAMS)

instance (params : Mapping) : Decidable (LegacyParams params) := inferInstanceAs (Decidable (∀ k ∈ _, _))

def liveActive (config : Mapping) : String :=
  activeName pyStr (((Datum.map config).at? ["strategy", "active"]).bind (coerce .str))

def liveParams (name : String) (config : Mapping) : Mapping :=
  if name = ACTIVE_STRATEGY then ((compositeSchema.validate coerce (.map (nestedParams name config))).map Datum.asMap).getD []
  else paramsOf name config

/-- The file has the parameters of the composite strategy. -/
def CompositeGiven (config : Mapping) : Prop :=
  if nestedParams ACTIVE_STRATEGY config = [] then LegacyParams (subsection "pearl_bot_auto" config)
  else ParamsGiven coerce (nestedParams ACTIVE_STRATEGY config)

instance (config : Mapping) : Decidable (CompositeGiven coerce config) :=
  inferInstanceAs (Decidable (if nestedParams ACTIVE_STRATEGY config = [] then
    LegacyParams (subsection "pearl_bot_auto" config) else ParamsGiven coerce (nestedParams ACTIVE_STRATEGY config)))

/-- The file gives both sides the same parameters. A name of the strategy that is no text can be another one after the
validation. -/
def SameParams (config : Mapping) : Prop :=
  (activeStrategy pyStr config = liveActive coerce pyStr config → activeStrategy pyStr config = ACTIVE_STRATEGY →
    CompositeGiven coerce config) ∧
  (activeStrategy pyStr config ≠ liveActive coerce pyStr config → ∀ k ∈ getStrategyParamFields,
    (param (liveParams coerce (liveActive coerce pyStr config) config ++ CONFIG) k).Same
      (param (activeParams pyStr config ++ CONFIG) k))

instance (config : Mapping) : Decidable (SameParams coerce pyStr config) :=
  inferInstanceAs (Decidable ((_ = _ → _ = _ → CompositeGiven coerce config) ∧
    (_ ≠ _ → ∀ k ∈ getStrategyParamFields, Datum.Same _ _)))

end

variable {coerce : Coercion} {upper : String → String} {pyStr : Datum → String} {env : ExecutionEnv} {symbol tf : String}
  {file : Document} {config config' validated raw live replay m : Mapping} {k j : Key} {v : Datum} {name key : String}

/-! ### Sections -/

theorem get?_subsection : (subsection key config).get? j = (Datum.map config).at? [.str key, j] := by
  rw [subsection, Datum.at?]
  rcases config.get? key with _ | _ | _ | m
  · rfl
  · rfl
  · rfl
  · show Mapping.get? j m = (Mapping.get? j m).bind fun v => some v
    rw [Option.bind_fun_some]

theorem at?_pair (h : (Datum.map config).at? [k, j] = some v) :
    ∃ m : Mapping, config.get? k = some (.map m) ∧ m.get? j = some v := by
  obtain ⟨x, hx, h⟩ := Option.bind_eq_some_iff.1 h
  rcases x with _ | _ | m
  · cases h
  · cases h
  · obtain ⟨y, hy, h⟩ := Option.bind_eq_some_iff.1 h
    cases h
    exact ⟨m, hx, hy⟩

theorem nestedParams_eq : nestedParams name config =
    (((Datum.map config).at? ["strategies", .str name]).map Datum.asMap).getD [] := by
  rw [nestedParams, subsection, get?_subsection]

theorem activeParams_congr (hstrategy : config.get? "strategy" = config'.get? "strategy")
    (hstrategies : config.get? "strategies" = config'.get? "strategies")
    (hlegacy : config.get? "pearl_bot_auto" = config'.get? "pearl_bot_auto") :
    activeParams pyStr config = activeParams pyStr config' := by
  unfold activeParams paramsOf activeStrategy nestedParams subsection
  rw [hstrategy, hstrategies, hlegacy]

/-! ### Keys that differ -/

theorem unique_asMap (h : v.unique = true) : (Datum.map v.asMap).unique = true := by
  rcases v with _ | _ | m
  · rfl
  · rfl
  · exact h

theorem unique_subsection (h : (Datum.map config).unique = true) : (Datum.map (subsection key config)).unique = true := by
  unfold subsection
  rcases hget : config.get? key with _ | v
  · rfl
  · exact unique_asMap (Mapping.unique_of_get? (Bool.and_eq_true_iff.1 h).2 hget)

theorem nodup_of_unique (h : (Datum.map m).unique = true) : m.keys.Nodup :=
  of_decide_eq_true (Bool.and_eq_true_iff.1 h).1

theorem nodup_nestedParams (file : Document) : (nestedParams name (migrate file.entries)).keys.Nodup := by
  refine nodup_of_unique ?_
  unfold nestedParams
  rw [subsection_of get?_migrate_strategies, subsection, Mapping.get?_setdefault]
  rcases hget : (subsection "strategies" file.entries).get? name with _ | v
  · split
    · exact unique_subsection file.unique
    · rfl
  · exact unique_asMap (Mapping.unique_of_get? (Bool.and_eq_true_iff.1 (unique_subsection file.unique)).2 hget)

theorem nodup_paramsOf (file : Document) (name : String) : (paramsOf name (migrate file.entries)).keys.Nodup := by
  have hlegacy : subsection "pearl_bot_auto" (migrate file.entries) = subsection "pearl_bot_auto" file.entries := by
    rw [subsection, get?_migrate_ne (by decide) (by decide) (by decide), subsection]
  unfold paramsOf
  split
  · rw [hlegacy]
    exact nodup_of_unique (unique_subsection file.unique)
  · exact nodup_nestedParams file

/-! ### The validated config -/

/-- The config that a schema has validated has the strategies, and names one. -/
theorem migrated_validated (hconfig : Migrated config)
    (h : (SchemaV2.agentConfigSchema upper).validate coerce (.map config) = some (.map validated)) : Migrated validated := by
  have hat : ∀ {k j : Key} {s : Schema} {m : Mapping}, (SchemaV2.agentConfigSchema upper).at? [k, j] = some s →
      config.get? k = some (.map m) → (m.get? j).isSome →
      ∃ m' : Mapping, validated.get? k = some (.map m') ∧ (m'.get? j).isSome := by
    intro k j s m hs hm hj
    obtain ⟨x, hx⟩ := Option.isSome_iff_exists.1 hj
    have hread : (Datum.map config).at? [k, j] = some x := by
      rw [Datum.at?, hm]
      show (Mapping.get? j m).bind _ = _
      rw [hx]
      rfl
    obtain ⟨x', hx', -⟩ := Schema.at?_validate h hs hread
    obtain ⟨m', hm', hj'⟩ := at?_pair hx'
    exact ⟨m', hm', by rw [hj']; rfl⟩
  obtain ⟨strategy, hstrategy, hactive, henforce⟩ := hconfig.strategy
  obtain ⟨strategies, hstrategies, hbundle⟩ := hconfig.strategies
  obtain ⟨m, hm, hactive'⟩ := hat (k := "strategy") (j := "active") (s := .scalar .str some) rfl hstrategy hactive
  obtain ⟨m', hm', henforce'⟩ := hat (k := "strategy") (j := "enforce_session_window") (s := .scalar .bool some) rfl
    hstrategy henforce
  rw [hm] at hm'
  cases hm'
  exact ⟨⟨m, hm, hactive', henforce'⟩, hat (k := "strategies") (j := ACTIVE_STRATEGY) (s := compositeSchema) rfl
    hstrategies hbundle⟩

theorem activeStrategy_validated
    (h : (SchemaV2.agentConfigSchema upper).validate coerce (.map config) = some (.map validated))
    (hconfig : Migrated config) : activeStrategy pyStr validated = liveActive coerce pyStr config := by
  obtain ⟨m, hm, hactive, -⟩ := hconfig.strategy
  obtain ⟨x, hx⟩ := Option.isSome_iff_exists.1 hactive
  have hat : (Datum.map config).at? ["strategy", "active"] = some x := by
    rw [← get?_subsection, subsection_of hm]
    exact hx
  have hs : (SchemaV2.agentConfigSchema upper).at? ["strategy", "active"] = some (.scalar .str some) := rfl
  obtain ⟨x', hx', hval⟩ := Schema.at?_validate h hs hat
  obtain ⟨y, hcoerce, hy⟩ := Option.bind_eq_some_iff.1 hval
  cases hy
  unfold activeStrategy liveActive
  rw [get?_subsection, hx', hat, Option.bind_some, hcoerce]

theorem nestedParams_validated (name : String) (hconfig : Migrated config)
    (h : (SchemaV2.agentConfigSchema upper).validate coerce (.map config) = some (.map validated)) :
    if name = ACTIVE_STRATEGY then compositeSchema.validate coerce (.map (nestedParams name config)) =
        some (.map (nestedParams name validated))
    else nestedParams name validated = nestedParams name config := by
  obtain ⟨S, hS, hbundle⟩ := hconfig.strategies
  obtain ⟨C, hC⟩ := Option.isSome_iff_exists.1 hbundle
  split
  next hname =>
    subst hname
    have hat : (Datum.map config).at? ["strategies", ACTIVE_STRATEGY] = some C := by
      rw [← get?_subsection, subsection_of hS]
      exact hC
    have hs : (SchemaV2.agentConfigSchema upper).at? ["strategies", ACTIVE_STRATEGY] = some compositeSchema := rfl
    obtain ⟨C', hC', hval⟩ := Schema.at?_validate h hs hat
    obtain ⟨c, declared, rfl, -, rfl⟩ := Schema.validate_model hval
    rw [nestedParams_eq, nestedParams_eq, hat, hC']
    exact hval
  next hname =>
    have hs : (SchemaV2.agentConfigSchema upper).at? ["strategies"] = some (.model true SchemaV2.strategiesConfig) := rfl
    have hat : (Datum.map config).at? ["strategies"] = some (.map S) := by
      rw [Datum.at?, hS]
      rfl
    obtain ⟨S', hS', hval⟩ := Schema.at?_validate h hs hat
    obtain ⟨_, declared, -, -, rfl⟩ := Schema.validate_model hval
    obtain ⟨_, hget, heq⟩ := Option.bind_eq_some_iff.1 hS'
    cases heq
    have hextra := Schema.get?_validate_extra hval (k := name) (by
      intro hmem
      rcases List.mem_singleton.1 hmem with heq
      exact hname (Key.str.inj heq))
    rw [nestedParams, subsection_of hget, subsection, hextra, nestedParams, subsection_of hS, subsection]

theorem get?_validated_extra
    (h : (SchemaV2.agentConfigSchema upper).validate coerce (.map config) = some (.map validated))
    (hk : k ∉ (SchemaV2.agentConfigFields upper).names) : validated.get? k = config.get? k :=
  Schema.get?_validate_extra h hk

theorem activeParams_validated (hconfig : Migrated config)
    (h : (SchemaV2.agentConfigSchema upper).validate coerce (.map config) = some (.map validated)) :
    activeParams pyStr (migrate validated) = liveParams coerce (liveActive coerce pyStr config) config := by
  have hmigrated := migrated_validated hconfig h
  have hlegacy : subsection "pearl_bot_auto" validated = subsection "pearl_bot_auto" config := by
    rw [subsection, get?_validated_extra h (by simp [SchemaV2.agentConfigFields, SchemaV2.agentScalars,
      SchemaV2.agentSections, Fields.ofList, Fields.names, SchemaV2.sectionField]), subsection]
  have hcongr : activeParams pyStr (migrateGuardrails validated) = activeParams pyStr validated :=
    activeParams_congr (get?_migrateGuardrails_ne (by decide)) (get?_migrateGuardrails_ne (by decide))
      (get?_migrateGuardrails_ne (by decide))
  rw [hmigrated.migrate_eq, hcongr, activeParams, activeStrategy_validated h hconfig]
  generalize liveActive coerce pyStr config = name
  have hnested := nestedParams_validated name hconfig h
  unfold liveParams
  split
  next hname =>
    rw [if_pos hname] at hnested
    obtain ⟨_, declared, -, hdeclared, heq⟩ := Schema.validate_model hnested
    have hne : nestedParams name validated ≠ [] := by
      intro hnil
      rw [hnil] at heq
      have hkeys : declared.keys = SchemaV2.compositeIntradayConfig.names := Fields.keys_validate _ hdeclared
      rw [(List.append_eq_nil_iff.1 (Datum.map.inj heq).symm).1] at hkeys
      cases hkeys
    rw [paramsOf, if_neg hne, hnested]
    rfl
  next hname =>
    rw [if_neg hname] at hnested
    rw [paramsOf, hnested, hlegacy, paramsOf]

/-! ### The two strategy configs -/

theorem nodup_liveParams
    (hfile : ∀ name, (paramsOf name config).keys.Nodup) (hunique : (nestedParams ACTIVE_STRATEGY config).keys.Nodup) :
    (liveParams coerce name config).keys.Nodup := by
  unfold liveParams
  split
  next hname =>
    subst hname
    rcases hval : compositeSchema.validate coerce (.map (nestedParams ACTIVE_STRATEGY config)) with _ | v
    · exact List.nodup_nil
    · obtain ⟨m, declared, heq, hdeclared, rfl⟩ := Schema.validate_model hval
      cases heq
      show (Mapping.keys (declared ++ _)).Nodup
      have hkeys : declared.keys = SchemaV2.compositeIntradayConfig.names := Fields.keys_validate _ hdeclared
      rw [if_pos rfl, Mapping.keys, List.map_append, List.nodup_append]
      refine ⟨?_, ?_, ?_⟩
      · show declared.keys.Nodup
        rw [hkeys]
        decide
      · exact hunique.sublist (List.filter_sublist.map _)
      · rintro k hk j hj rfl
        obtain ⟨e, he, rfl⟩ := List.mem_map.1 hj
        have hnot := of_decide_eq_true (List.mem_filter.1 he).2
        rw [← hkeys] at hnot
        exact hnot hk
  next => exact hfile name

theorem get?_main (h : mainStrategyConfig coerce upper pyStr file.entries = some live) (hk : k ∈ getStrategyParamFields) :
    live.get? k = Mapping.get? k
      (liveParams coerce (liveActive coerce pyStr (migrate file.entries)) (migrate file.entries) ++ CONFIG) := by
  obtain ⟨validated, hval, rfl⟩ := Option.map_eq_some_iff.1 h
  have hschema := validate_of_validateRuntimeConfig hval
  rw [migrate_migrate] at hschema
  have hactive : activeParams pyStr (migrate validated) = liveParams coerce
      (liveActive coerce pyStr (migrate file.entries)) (migrate file.entries) :=
    activeParams_validated (migrated_migrate _) hschema
  rw [get?_build_param ?_ hk, hactive, Mapping.get?_append]
  rw [hactive]
  exact nodup_liveParams (nodup_paramsOf file) (nodup_nestedParams file)

def STRATEGY_SECTIONS : List String := ["strategy", "strategies", "pearl_bot_auto", "composite_regime"]

/-- The sections of the strategies have no defaults in the service config. -/
theorem get?_raw (h : serviceConfig SERVICE_DEFAULTS env [] config = some raw) (hk : key ∈ STRATEGY_SECTIONS) :
    raw.get? key = config.get? key := by
  have hall : ∀ key ∈ STRATEGY_SECTIONS, Key.str key ∉ SERVICE_DEFAULTS.map (fun e => Key.str e.1) ∧
      Key.str key ≠ "execution" ∧ Key.str key ∉ FLATTENED_KEYS := by decide
  obtain ⟨hsection, hexecution, hflat⟩ := hall key hk
  exact get?_serviceConfig h hsection hexecution hflat

theorem migrated_raw (h : serviceConfig SERVICE_DEFAULTS env [] config = some raw) (hconfig : Migrated config) :
    Migrated raw where
  strategy := by
    rw [get?_raw h (by decide)]
    exact hconfig.strategy
  strategies := by
    rw [get?_raw h (by decide)]
    exact hconfig.strategies

theorem get?_migrate_raw (h : serviceConfig SERVICE_DEFAULTS env [] config = some raw) (hconfig : Migrated config)
    (hk : key ∈ STRATEGY_SECTIONS) : (migrate raw).get? key = config.get? key := by
  have hall : ∀ key ∈ STRATEGY_SECTIONS, key ≠ "guardrails" := by decide
  rw [(migrated_raw h hconfig).migrate_eq, get?_migrateGuardrails_ne (hall key hk), get?_raw h hk]

theorem get?_replay (h : replayStrategyConfig pyStr env symbol tf file.entries = some replay)
    (hk : k ∈ getStrategyParamFields) :
    replay.get? k = Mapping.get? k (activeParams pyStr (migrate file.entries) ++ CONFIG) := by
  obtain ⟨raw, hraw, rfl⟩ := Option.map_eq_some_iff.1 h
  have hscalar : ∀ k ∈ getStrategyParamFields, k ≠ "symbol" ∧ k ≠ "timeframe" := by decide +kernel
  obtain ⟨hsymbol, htimeframe⟩ := hscalar k hk
  rw [migrate_migrate] at hraw
  have hmigrated := migrated_migrate file.entries
  have hactive : activeParams pyStr (migrate raw) = activeParams pyStr (migrate file.entries) :=
    activeParams_congr (get?_migrate_raw hraw hmigrated (by decide)) (get?_migrate_raw hraw hmigrated (by decide))
      (get?_migrate_raw hraw hmigrated (by decide))
  rw [Mapping.get?_setdefault, if_neg htimeframe, Option.or_none, Mapping.get?_setdefault, if_neg hsymbol, Option.or_none,
    get?_build_param ?_ hk, hactive, Mapping.get?_append]
  rw [hactive]
  exact nodup_paramsOf file _

theorem compositeRegime_eq (hmain : mainStrategyConfig coerce upper pyStr file.entries = some live)
    (h : replayStrategyConfig pyStr env symbol tf file.entries = some replay) :
    live.get? "composite_regime" = replay.get? "composite_regime" := by
  obtain ⟨validated, hval, rfl⟩ := Option.map_eq_some_iff.1 hmain
  obtain ⟨raw, hraw, rfl⟩ := Option.map_eq_some_iff.1 h
  have hmigrated := migrated_migrate file.entries
  have hschema := validate_of_validateRuntimeConfig hval
  rw [migrate_migrate] at hraw hschema
  have hlive : (migrate validated).get? "composite_regime" = (migrate file.entries).get? "composite_regime" := by
    rw [(migrated_validated hmigrated hschema).migrate_eq, get?_migrateGuardrails_ne (by decide)]
    exact get?_validated_extra hschema (by simp [SchemaV2.agentConfigFields, SchemaV2.agentScalars,
      SchemaV2.agentSections, Fields.ofList, Fields.names, SchemaV2.sectionField])
  rw [Mapping.get?_setdefault, if_neg (by decide), Option.or_none, Mapping.get?_setdefault, if_neg (by decide),
    Option.or_none]
  exact get?_build_section (by decide +kernel) (by decide)
    (hlive.trans (get?_migrate_raw hraw hmigrated (by decide)).symm)

/-! ### When the two agree -/

theorem param_congr (h : config.get? k = config'.get? k) : param config k = param config' k := by
  rw [param, h, param]

/-- Without a value the default of the schema is the one of the strategy config exactly for the optional parameters. -/
theorem same_default_iff : ∀ k ∈ SchemaV2.compositeIntradayConfig.names,
    (param (SchemaV2.compositeIntradayConfig.defaults ++ CONFIG) k).Same (param CONFIG k) ↔ k ∈ OPTIONAL_PARAMS := by
  decide +kernel

theorem param_append_of_some {m : Mapping} (h : m.get? k = some v) : param (m ++ config) k = v := by
  rw [param, Mapping.get?_append, h]
  rfl

theorem param_append_of_none {m : Mapping} (h : m.get? k = none) : param (m ++ config) k = param config k := by
  rw [param, Mapping.get?_append, h, Option.none_or, param]

theorem names_subset : ∀ k ∈ SchemaV2.compositeIntradayConfig.names, k ∈ getStrategyParamFields := by decide +kernel

variable {given params flat : Mapping}

theorem isSome_default : ∀ k ∈ SchemaV2.compositeIntradayConfig.names,
    (SchemaV2.compositeIntradayConfig.defaults.get? k).isSome := by decide +kernel

theorem param_flat_of_some (hval : compositeSchema.validate coerce (.map given) = some (.map flat))
    (hk : k ∈ SchemaV2.compositeIntradayConfig.names) (hv : given.get? k = some v) :
    (SchemaV2.compositeIntradayConfig.find? k).bind (fun s => s.validate coerce v) = some (param (flat ++ CONFIG) k) := by
  obtain ⟨_, declared, ⟨⟩, hdeclared, heq⟩ := Schema.validate_model hval
  obtain ⟨s, hs⟩ := Option.ne_none_iff_exists'.1 fun hnone => (Fields.find?_eq_none _).1 hnone hk
  obtain ⟨v', hget, hv'⟩ := Fields.get?_validate _ hdeclared hs hv
  have hflat : flat.get? k = some v' := by rw [Datum.map.inj heq, Mapping.get?_append, hget, Option.some_or]
  rw [hs, Option.bind_some, hv', param_append_of_some hflat]

theorem param_flat_of_none (hval : compositeSchema.validate coerce (.map given) = some (.map flat))
    (hk : k ∈ SchemaV2.compositeIntradayConfig.names) (hnone : given.get? k = none) :
    param (flat ++ CONFIG) k = param (SchemaV2.compositeIntradayConfig.defaults ++ CONFIG) k := by
  obtain ⟨_, declared, ⟨⟩, hdeclared, heq⟩ := Schema.validate_model hval
  obtain ⟨d, hd⟩ := Option.isSome_iff_exists.1 (isSome_default k hk)
  have hget : declared.get? k = some d := (Fields.get?_validate_of_none _ hdeclared hnone).trans hd
  have hflat : flat.get? k = some d := by rw [Datum.map.inj heq, Mapping.get?_append, hget, Option.some_or]
  rw [param_append_of_some hflat, param_append_of_some hd]

theorem param_flat_of_notMem (hval : compositeSchema.validate coerce (.map given) = some (.map flat))
    (hk : k ∉ SchemaV2.compositeIntradayConfig.names) : param (flat ++ CONFIG) k = param (given ++ CONFIG) k :=
  param_congr (by rw [Mapping.get?_append, Schema.get?_validate_extra hval hk, Mapping.get?_append])

/-- The parameters that the schema has filled in agree with the given ones. -/
theorem given_iff (hval : compositeSchema.validate coerce (.map given) = some (.map flat)) :
    (∀ k ∈ getStrategyParamFields, (param (flat ++ CONFIG) k).Same (param (given ++ CONFIG) k)) ↔
      ParamsGiven coerce given := by
  constructor
  · intro h k hk
    have hsame := h k (names_subset k hk)
    constructor
    · intro v hv v' hv'
      rw [param_flat_of_some hval hk hv] at hv'
      cases hv'
      rwa [param_append_of_some hv] at hsame
    · intro hnone
      rw [param_flat_of_none hval hk hnone, param_append_of_none hnone] at hsame
      exact (same_default_iff k hk).1 hsame
  · intro h k hfield
    by_cases hk : k ∈ SchemaV2.compositeIntradayConfig.names
    · obtain ⟨hgiven, hmissing⟩ := h k hk
      rcases hget : given.get? k with _ | v
      · rw [param_flat_of_none hval hk hget, param_append_of_none hget]
        exact (same_default_iff k hk).2 (hmissing hget)
      · rw [param_append_of_some hget]
        exact hgiven v hget _ (param_flat_of_some hval hk hget)
    · rw [param_flat_of_notMem hval hk]
      exact .refl _

/-- Where the strategy has no parameters the schema fills in its defaults, and the replay reads the legacy section. -/
theorem legacy_iff (hval : compositeSchema.validate coerce (.map []) = some (.map flat)) :
    (∀ k ∈ getStrategyParamFields, (param (flat ++ CONFIG) k).Same (param (params ++ CONFIG) k)) ↔
      LegacyParams params := by
  have hflat : ∀ k, param (flat ++ CONFIG) k = param (SchemaV2.compositeIntradayConfig.defaults ++ CONFIG) k := by
    intro k
    obtain ⟨_, declared, ⟨⟩, hdeclared, heq⟩ := Schema.validate_model hval
    refine param_congr ?_
    rw [Datum.map.inj heq, if_pos rfl, List.filter_nil, List.append_nil, Mapping.get?_append, Mapping.get?_append,
      Fields.get?_validate_of_none _ hdeclared rfl]
  refine forall_congr' fun k => forall_congr' fun hfield => ?_
  rcases hget : params.get? k with _ | v
  · rw [param_append_of_none hget]
    by_cases hk : k ∈ SchemaV2.compositeIntradayConfig.names
    · rw [hflat, same_default_iff k hk]
      simp [hk]
    · rw [param_flat_of_notMem hval hk]
      simp [hk, Datum.Same.refl]
  · rw [param_append_of_some hget, hflat]
    simp

theorem sameParams_iff (hval : compositeSchema.validate coerce (.map (nestedParams ACTIVE_STRATEGY config)) = some (.map flat)) :
    (∀ k ∈ getStrategyParamFields, (param (liveParams coerce (liveActive coerce pyStr config) config ++ CONFIG) k).Same
      (param (activeParams pyStr config ++ CONFIG) k)) ↔ SameParams coerce pyStr config := by
  unfold SameParams
  by_cases heq : activeStrategy pyStr config = liveActive coerce pyStr config
  · rw [← heq, activeParams]
    simp only [ne_eq, not_true_eq_false, false_implies, and_true, forall_const]
    by_cases hname : activeStrategy pyStr config = ACTIVE_STRATEGY
    · have hlive : liveParams coerce ACTIVE_STRATEGY config = flat := by
        rw [liveParams, if_pos rfl, hval]
        rfl
      rw [hname, hlive, paramsOf, CompositeGiven]
      simp only [forall_const]
      split
      next hnil =>
        rw [hnil] at hval
        exact legacy_iff hval
      next => exact given_iff hval
    · have hlive : liveParams coerce (activeStrategy pyStr config) config = paramsOf (activeStrategy pyStr config) config :=
        if_neg hname
      rw [hlive]
      exact ⟨fun _ h => absurd h hname, fun _ _ _ => .refl _⟩
  · simp only [heq, false_implies, true_and, ne_eq, not_false_eq_true, forall_const]

/-- The replay builds a strategy config that agrees with the one of `main` exactly where the sections that have
defaults are mappings and the file gives both sides the same parameters. -/
theorem replay_agrees_iff (hmain : mainStrategyConfig coerce upper pyStr file.entries = some live) :
    (∃ replay, replayStrategyConfig pyStr env symbol tf file.entries = some replay ∧ Agrees live replay) ↔
      SectionsAreMaps SERVICE_DEFAULTS (migrate file.entries) ∧ SameParams coerce pyStr (migrate file.entries) := by
  obtain ⟨validated, hvalidated, -⟩ := Option.map_eq_some_iff.1 hmain
  have hschema := validate_of_validateRuntimeConfig hvalidated
  rw [migrate_migrate] at hschema
  have hval := nestedParams_validated ACTIVE_STRATEGY (migrated_migrate file.entries) hschema
  rw [if_pos rfl] at hval
  have hsections : (replayStrategyConfig pyStr env symbol tf file.entries).isSome ↔
      SectionsAreMaps SERVICE_DEFAULTS (migrate file.entries) := by
    rw [replayStrategyConfig, Option.isSome_map, migrate_migrate]
    exact isSome_serviceConfig (by decide)
  have hparams : ∀ {replay}, replayStrategyConfig pyStr env symbol tf file.entries = some replay →
      ((∀ k ∈ getStrategyParamFields, (param live k).Same (param replay k)) ↔
        SameParams coerce pyStr (migrate file.entries)) := by
    intro replay hreplay
    rw [← sameParams_iff hval]
    refine forall_congr' fun k => forall_congr' fun hk => ?_
    rw [param_congr (get?_main hmain hk), param_congr (get?_replay hreplay hk)]
  constructor
  · rintro ⟨replay, hreplay, hagrees⟩
    exact ⟨hsections.1 (by rw [hreplay]; rfl), (hparams hreplay).1 hagrees.params⟩
  · rintro ⟨hmaps, hsame⟩
    obtain ⟨replay, hreplay⟩ := Option.isSome_iff_exists.1 (hsections.2 hmaps)
    exact ⟨replay, hreplay, (hparams hreplay).2 hsame, compositeRegime_eq hmain hreplay⟩

def sampleParams : Document where
  entries := [("strategies", .map [("composite_intraday", .map
    [("min_confidence", .float (6/10)), ("min_confidence_long", .float (6/10)), ("min_confidence_short", .float (6/10)),
      ("stop_loss_atr_mult", .float (25/10)), ("take_profit_atr_mult", .float 4), ("allow_vwap_cross_entries", .bool true),
      ("allow_vwap_retest_entries", .bool true), ("allow_trend_momentum_entries", .bool true),
      ("allow_trend_breakout_entries", .bool true), ("allow_orb_entries", .bool false),
      ("allow_vwap_2sd_entries", .bool false), ("allow_smc_entries", .bool false)])])]
  unique := by decide +kernel

/-- A file with the parameters whose defaults differ. -/
theorem replay_agrees_sampleParams : ∃ live replay,
    mainStrategyConfig exactType id (fun _ => "") sampleParams.entries = some live ∧
      replayStrategyConfig (fun _ => "") {} "MNQ" "5m" sampleParams.entries = some replay ∧ Agrees live replay := by
  have hsome : (mainStrategyConfig exactType id (fun _ => "") sampleParams.entries).isSome := by decide +kernel
  obtain ⟨live, hlive⟩ := Option.isSome_iff_exists.1 hsome
  obtain ⟨replay, hreplay, hagrees⟩ := (replay_agrees_iff hlive).2 (by decide +kernel)
  exact ⟨live, replay, hlive, hreplay, hagrees⟩

def sampleConfidence : Document where
  entries := [("strategies", .map [("composite_intraday", .map [("min_confidence", .float (6/10))])])]
  unique := by decide +kernel

/-- The schema sets the confidence of longs to 0.4, in the replay it is 0.6. -/
theorem replay_disagrees : ¬ ∀ (file : Document) (live : Mapping),
    mainStrategyConfig exactType id (fun _ => "") file.entries = some live →
      ∃ replay, replayStrategyConfig (fun _ => "") {} "MNQ" "5m" file.entries = some replay ∧ Agrees live replay := by
  intro hall
  have hlive : (mainStrategyConfig exactType id (fun _ => "") sampleConfidence.entries).map
      (fun c => param c "min_confidence_long") = some (.float (4/10)) := by decide +kernel
  have hreplay : (replayStrategyConfig (fun _ => "") {} "MNQ" "5m" sampleConfidence.entries).map
      (fun c => param c "min_confidence_long") = some (.float (6/10)) := by decide +kernel
  obtain ⟨live, hmain, hlive⟩ := Option.map_eq_some_iff.1 hlive
  obtain ⟨replay, heq, hagrees⟩ := hall sampleConfidence live hmain
  rw [heq] at hreplay
  have hvalue : param replay "min_confidence_long" = .float (6/10) := Option.some.inj hreplay
  have hsame := hagrees.params "min_confidence_long" (by decide +kernel)
  rw [hlive, hvalue] at hsame
  exact absurd hsame (by decide +kernel)

end ReplayConfig

end PearlAlgo
