import PearlAlgo.Config.SchemaV2

/-!
# The validation of a runtime config (`config/runtime_validation.py`)

`main` builds the service from what `validate_runtime_config` returns. `validateRuntimeConfig_keeps_iff` says when that
has every key of the migrated config. The warnings go nowhere.
-/

namespace PearlAlgo
open Yaml Pydantic

def NON_ENFORCED_FLAG_PATHS : List (List Key) :=
  [["signals", "avoid_lunch_lull"], ["signals", "prioritize_ny_session"], ["signals", "skip_overnight"]]

namespace RuntimeConfig
variable (coerce : Coercion) (upper : String → String)

def findNonEnforcedFlags (config : Mapping) : List (List Key) :=
  NON_ENFORCED_FLAG_PATHS.filter fun path => (((Datum.map config).at? path).getD .null).truthy

/-- `validate_runtime_config`, `none` where it raises. -/
def validateRuntimeConfig (strictNonEnforced : Bool) (raw : Mapping) : Option Mapping :=
  let normalized := migrate raw
  let blockedPaths := findNonEnforcedFlags normalized
  (SchemaV2.validateConfig coerce upper normalized).bind fun validated =>
    if strictNonEnforced ∧ blockedPaths ≠ [] then none else some validated

variable {coerce upper} {strict : Bool} {raw returned : Mapping}

theorem validate_of_validateRuntimeConfig (h : validateRuntimeConfig coerce upper strict raw = some returned) :
    (SchemaV2.agentConfigSchema upper).validate coerce (.map (migrate raw)) = some (.map returned) := by
  obtain ⟨validated, hval, h⟩ := Option.bind_eq_some_iff.1 h
  obtain ⟨_, ⟨⟩⟩ := Option.ite_none_left_eq_some.1 h
  have hschema := SchemaV2.validateConfig_eq_some.1 hval
  rwa [migrate_migrate] at hschema

/-- Every key path of the migrated config is in what the validation returns, with the same value up to coercion, exactly
where the sections that ignore extra keys have none. -/
theorem validateRuntimeConfig_keeps_iff (hcoerce : ∀ type m, coerce type (.map m) = none)
    (h : validateRuntimeConfig coerce upper strict raw = some returned) :
    KeepsPaths coerce (SchemaV2.agentConfigSchema upper) (.map (migrate raw)) (.map returned) ↔
      SchemaV2.SectionsDeclared (migrate raw) :=
  (keepsPaths_iff hcoerce (validate_of_validateRuntimeConfig h)).trans SchemaV2.declares_iff

/-- The coercion of values that have their types already. -/
def exactType : Coercion
  | .str, .scalar (.str s) => some (.str s)
  | .int, .scalar (.int n) => some (.int n)
  | .float, .scalar (.float x) => some (.scalar (.float x))
  | .bool, .scalar (.bool b) => some (.bool b)
  | .listStr, .list l => some (.list l)
  | _, _ => none

/-- A daily loss limit in `execution`. -/
theorem keeps_execution : ∃ returned,
    validateRuntimeConfig exactType id true [("execution", .map [("max_daily_loss", .float 250)])] = some returned ∧
      KeepsPaths exactType (SchemaV2.agentConfigSchema id)
        (.map (migrate [("execution", .map [("max_daily_loss", .float 250)])])) (.map returned) := by
  have hsome : (validateRuntimeConfig exactType id true [("execution", .map [("max_daily_loss", .float 250)])]).isSome := by
    decide +kernel
  obtain ⟨returned, h⟩ := Option.isSome_iff_exists.1 hsome
  refine ⟨returned, h, (validateRuntimeConfig_keeps_iff ?_ h).2 (by decide +kernel)⟩
  intro type m
  cases type
  · rfl
  · rfl
  · rfl
  · rfl
  · rfl

/-- A daily profit limit in `guardrails` is dropped. -/
theorem guardrail_dropped : ¬ ∀ raw returned, validateRuntimeConfig exactType id true raw = some returned →
    KeepsPaths exactType (SchemaV2.agentConfigSchema id) (.map (migrate raw)) (.map returned) := by
  intro hall
  have hsome : (validateRuntimeConfig exactType id true [("guardrails", .map [("max_daily_profit", .float 3000)])]).isSome := by
    decide +kernel
  obtain ⟨returned, h⟩ := Option.isSome_iff_exists.1 hsome
  obtain ⟨x', hx', -⟩ := hall _ returned h ["guardrails", "max_daily_profit"] (.float 3000) (by decide +kernel)
  have hnone : ((validateRuntimeConfig exactType id true [("guardrails", .map [("max_daily_profit", .float 3000)])]).bind
      fun m => (Datum.map m).at? ["guardrails", "max_daily_profit"]) = none := by decide +kernel
  rw [h, Option.bind_some, hx'] at hnone
  cases hnone

end RuntimeConfig

end PearlAlgo
