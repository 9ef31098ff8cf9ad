import PearlAlgo.Yaml.Datum

/-!
# The migration of legacy configs (`config/migration.py`)

A section that is missing, empty or no mapping counts as empty. Migrating again changes nothing (`migrate_migrate`).
-/

namespace PearlAlgo
open Yaml

def ACTIVE_STRATEGY : String := "composite_intraday"

namespace RuntimeConfig

/-- `section = config.get(key, {}) or {}`, and `{}` where that is no mapping. -/
def subsection (key : String) (config : Mapping) : Mapping := ((config.get? key).map Datum.asMap).getD []

/-- `trading_circuit_breaker`, `none` where it is not a mapping and truthy. -/
def legacyGate (config : Mapping) : Option Mapping :=
  match config.get? "trading_circuit_breaker" with
  | none => some []
  | some (.map m) => some m
  | some v => if v.truthy then none else some []

def migrateStrategy (config : Mapping) : Mapping :=
  let strategy := (subsection "strategy" config).setdefault "active" (.str ACTIVE_STRATEGY)
  config.assign "strategy" (.map (strategy.setdefault "enforce_session_window" (.bool true)))

def migrateStrategies (config : Mapping) : Mapping :=
  let strategies := subsection "strategies" config
  config.assign "strategies"
    (.map (strategies.setdefault ACTIVE_STRATEGY (.map (subsection "pearl_bot_auto" config))))

/-- `if key in legacy_gate_cfg: guardrails_cfg.setdefault(key, legacy_gate_cfg[key])` -/
def inherit (gate : Mapping) (key : String) (guardrails : Mapping) : Mapping :=
  match gate.get? key with
  | some v => guardrails.setdefault key v
  | none => guardrails

def migrateGuardrails (config : Mapping) : Mapping :=
  let guardrails := subsection "guardrails" config
  let guardrails :=
    match legacyGate config with
    | none => guardrails
    | some gate =>
      inherit gate "max_daily_drawdown" (inherit gate "max_session_drawdown" (inherit gate "max_consecutive_losses"
        (guardrails.setdefault "signal_gate_enabled" (.bool false))))
  config.assign "guardrails" (.map guardrails)

/-- `migrate_legacy_runtime_config` -/
def migrate (raw : Mapping) : Mapping := migrateGuardrails (migrateStrategies (migrateStrategy raw))

variable {config gate guardrails : Mapping} {key name : String} {v : Datum}

theorem subsection_of {m : Mapping} (h : config.get? key = some (.map m)) : subsection key config = m := by
  rw [subsection, h]
  rfl

theorem get?_migrateStrategy_ne (h : key ≠ "strategy") : (migrateStrategy config).get? key = config.get? key :=
  Mapping.get?_assign_ne fun heq => h (Key.str.inj heq)

theorem get?_migrateStrategies_ne (h : key ≠ "strategies") : (migrateStrategies config).get? key = config.get? key :=
  Mapping.get?_assign_ne fun heq => h (Key.str.inj heq)

theorem get?_migrateGuardrails_ne (h : key ≠ "guardrails") : (migrateGuardrails config).get? key = config.get? key :=
  Mapping.get?_assign_ne fun heq => h (Key.str.inj heq)

theorem migrateStrategy_of {m : Mapping} (h : config.get? "strategy" = some (.map m)) (hactive : (m.get? "active").isSome)
    (henforce : (m.get? "enforce_session_window").isSome) : migrateStrategy config = config := by
  unfold migrateStrategy
  dsimp only
  rw [subsection_of h, Mapping.setdefault_of_isSome hactive, Mapping.setdefault_of_isSome henforce, Mapping.assign_of_get? h]

theorem migrateStrategies_of {m : Mapping} (h : config.get? "strategies" = some (.map m))
    (hactive : (m.get? ACTIVE_STRATEGY).isSome) : migrateStrategies config = config := by
  unfold migrateStrategies
  dsimp only
  rw [subsection_of h, Mapping.setdefault_of_isSome hactive, Mapping.assign_of_get? h]

theorem inherit_of (h : (gate.get? key).isSome → (guardrails.get? key).isSome) : inherit gate key guardrails = guardrails := by
  unfold inherit
  split
  next v hv => exact Mapping.setdefault_of_isSome (h (by rw [hv]; rfl))
  · rfl

theorem isSome_inherit {k : Key} (h : (guardrails.get? k).isSome) : ((inherit gate name guardrails).get? k).isSome := by
  unfold inherit
  split
  · exact Mapping.isSome_setdefault h
  · exact h

theorem isSome_inherit_self (h : (gate.get? key).isSome) : ((inherit gate key guardrails).get? key).isSome := by
  obtain ⟨v, hv⟩ := Option.isSome_iff_exists.1 h
  unfold inherit
  rw [hv]
  exact Mapping.isSome_setdefault_self

theorem migrateGuardrails_migrateGuardrails : migrateGuardrails (migrateGuardrails config) = migrateGuardrails config := by
  have hgate : legacyGate (migrateGuardrails config) = legacyGate config := by
    unfold legacyGate
    rw [get?_migrateGuardrails_ne (by decide)]
  obtain ⟨m, hm⟩ : ∃ m : Mapping, (migrateGuardrails config).get? "guardrails" = some (.map m) :=
    ⟨_, Mapping.get?_assign_self⟩
  have hsub : subsection "guardrails" (migrateGuardrails config) = m := subsection_of hm
  have hassign : (migrateGuardrails config).assign "guardrails" (.map m) = migrateGuardrails config :=
    Mapping.assign_of_get? hm
  rw [migrateGuardrails, hgate, hsub]
  rcases hlegacy : legacyGate config with _ | gate
  · exact hassign
  · have hdef : m = inherit gate "max_daily_drawdown" (inherit gate "max_session_drawdown"
        (inherit gate "max_consecutive_losses"
          ((subsection "guardrails" config).setdefault "signal_gate_enabled" (.bool false)))) := by
      rw [migrateGuardrails, hlegacy, Mapping.get?_assign_self] at hm
      exact (Datum.map.inj (Option.some.inj hm)).symm
    have hsignal : (m.get? "signal_gate_enabled").isSome := by
      rw [hdef]
      exact isSome_inherit (isSome_inherit (isSome_inherit Mapping.isSome_setdefault_self))
    have hlosses : (gate.get? "max_consecutive_losses").isSome → (m.get? "max_consecutive_losses").isSome := by
      intro h
      rw [hdef]
      exact isSome_inherit (isSome_inherit (isSome_inherit_self h))
    have hsession : (gate.get? "max_session_drawdown").isSome → (m.get? "max_session_drawdown").isSome := by
      intro h
      rw [hdef]
      exact isSome_inherit (isSome_inherit_self h)
    have hdaily : (gate.get? "max_daily_drawdown").isSome → (m.get? "max_daily_drawdown").isSome := by
      intro h
      rw [hdef]
      exact isSome_inherit_self h
    dsimp only
    rw [Mapping.setdefault_of_isSome hsignal, inherit_of hlosses, inherit_of hsession, inherit_of hdaily]
    exact hassign

/-- The sections of the strategies are there, and the active one is named. -/
structure Migrated (config : Mapping) : Prop where
  strategy : ∃ m : Mapping, config.get? "strategy" = some (.map m) ∧ (m.get? "active").isSome ∧
    (m.get? "enforce_session_window").isSome
  strategies : ∃ m : Mapping, config.get? "strategies" = some (.map m) ∧ (m.get? ACTIVE_STRATEGY).isSome

theorem Migrated.migrate_eq (h : Migrated config) : migrate config = migrateGuardrails config := by
  obtain ⟨strategy, hstrategy, hactive, henforce⟩ := h.strategy
  obtain ⟨strategies, hstrategies, hbundle⟩ := h.strategies
  rw [migrate, migrateStrategy_of hstrategy hactive henforce, migrateStrategies_of hstrategies hbundle]

theorem get?_migrate_strategy : (migrate config).get? "strategy" =
    some (.map (((subsection "strategy" config).setdefault "active" (.str ACTIVE_STRATEGY)).setdefault
      "enforce_session_window" (.bool true))) := by
  rw [migrate, get?_migrateGuardrails_ne (by decide), get?_migrateStrategies_ne (by decide)]
  exact Mapping.get?_assign_self

theorem get?_migrate_strategies : (migrate config).get? "strategies" =
    some (.map ((subsection "strategies" config).setdefault ACTIVE_STRATEGY
      (.map (subsection "pearl_bot_auto" config)))) := by
  have hsub : ∀ {key : String}, key ≠ "strategy" → subsection key (migrateStrategy config) = subsection key config := by
    intro key hkey
    rw [subsection, get?_migrateStrategy_ne hkey, subsection]
  rw [migrate, get?_migrateGuardrails_ne (by decide)]
  unfold migrateStrategies
  dsimp only
  rw [hsub (by decide), hsub (by decide)]
  exact Mapping.get?_assign_self

theorem get?_migrate_ne (hstrategy : key ≠ "strategy") (hstrategies : key ≠ "strategies") (hguardrails : key ≠ "guardrails") :
    (migrate config).get? key = config.get? key := by
  rw [migrate, get?_migrateGuardrails_ne hguardrails, get?_migrateStrategies_ne hstrategies,
    get?_migrateStrategy_ne hstrategy]

theorem migrated_migrate (raw : Mapping) : Migrated (migrate raw) where
  strategy := ⟨_, get?_migrate_strategy, Mapping.isSome_setdefault Mapping.isSome_setdefault_self,
    Mapping.isSome_setdefault_self⟩
  strategies := ⟨_, get?_migrate_strategies, Mapping.isSome_setdefault_self⟩

theorem migrate_migrate (raw : Mapping) : migrate (migrate raw) = migrate raw := by
  rw [(migrated_migrate raw).migrate_eq]
  exact migrateGuardrails_migrateGuardrails

end RuntimeConfig

end PearlAlgo
