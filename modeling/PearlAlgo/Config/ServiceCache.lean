import PearlAlgo.Config.ConfigFile
import PearlAlgo.Config.ServiceConfig
import PearlAlgo.Lts.Reach

/-!
# The cache of the service config (`config/config_loader.py`)

The cached view shares the dictionaries inside the defaults with every later load, and an override is merged into the
result in place. So the defaults are part of the state, and a cached view is what they make of the data it was built
from. `transparent_of_safe` says what a run must not do for the cache to go unnoticed.
-/

namespace PearlAlgo
open Yaml Py Lts Pydantic ConfigFile RuntimeConfig

namespace ServiceCache
open ServiceConfig

/-- The cached view, by what it was built from. -/
structure Entry where
  path : PyPath
  mtime : ℚ
  data : Mapping
  env : ExecutionEnv

structure State where
  disk : Disk
  env : Environ
  defaults : List (String × Mapping)
  cache : Option Entry
  /-- The overrides whose contexts are open, the innermost first. -/
  overrides : List Document

inductive Act
  | load (configPath : Option PyPath) (validate : Bool)
  /-- A file is written, created or removed. -/
  | edit (path : PyPath) (node : Option Node)
  /-- Files appear in `config/accounts` or are removed there. -/
  | listAccounts (names : List String)
  | setenv (name : String) (value : Option String)
  | enterOverride (override : Document)
  | leaveOverride
  | clearConfigCache

def executionEnv (env : Environ) : ExecutionEnv where
  ibkrHost := env "IBKR_HOST"
  ibkrPort := env "IBKR_PORT"
  ibkrClientId := env "IBKR_CLIENT_ID"

/-! ### Merging in place -/

/-- What the merge leaves of a value of the defaults: a dictionary that the file does not replace is written to. -/
def sharedValue (given override : Option Datum) (v : Datum) : Datum :=
  match given, override, v with
  | none, some (.map o), .map shared => .map (deepMerge shared o)
  | _, _, _ => v

/-- What `_deep_merge_dict` leaves of the defaults of a section. -/
def sharedSection (data override : Mapping) (e : String × Mapping) : String × Mapping :=
  (e.1, e.2.map fun (k, v) => (k, sharedValue ((subsection e.1 data).get? k) ((subsection e.1 override).get? k) v))

section
variable (coerce : Coercion) (upper : String → String) (w : Layout)

def resolveConfigPath (disk : Disk) : Option PyPath → PyPath
  | some p => w.resolve (w.cwd.div p)
  | none =>
    if (nodeAt w disk (canonicalLiveConfigPath w)).isSome then w.resolve (canonicalLiveConfigPath w)
    else w.resolve (legacyBaseConfigPath w)

def loadedData (s : State) (configPath : Option PyPath) : Mapping := migrate (loadConfigYaml w s.disk s.env configPath)

/-- The schema validation passes, or there is none. -/
def accepts (validate : Bool) (data : Mapping) : Bool :=
  !(validate && data ≠ []) || (validateRuntimeConfig coerce upper true data).isSome

/-- The innermost override, which is empty where there is none. -/
def State.override (s : State) : Mapping := (s.overrides.head?.map Document.entries).getD []

/-- The modification time, `0.0` where there is no file. -/
def mtimeOf (s : State) (path : PyPath) : ℚ := ((s.disk.node path).map Node.mtime).getD 0

/-- The part of `load_service_config` behind the cache; `none` where it raises. -/
def freshLoad (s : State) (configPath : Option PyPath) (validate : Bool) : Option Mapping × State :=
  let data := loadedData w s configPath
  if accepts coerce upper validate data then
    match s.defaults.mapM (mergeSection data) with
    | none => (none, s)
    | some _ =>
      let merged := { s with defaults := s.defaults.map (sharedSection data s.override) }
      match serviceConfig s.defaults (executionEnv s.env) s.override data with
      | none => (none, merged)
      | some result =>
        if s.overrides = [] then
          let path := resolveConfigPath w s.disk configPath
          (some result, { merged with
            cache := some { path, mtime := mtimeOf s path, data, env := executionEnv s.env } })
        else (some result, merged)
  else (none, s)

/-- The entry is found for this path and the modification time of its file. -/
def Hit (s : State) (configPath : Option PyPath) (e : Entry) : Prop :=
  e.path = resolveConfigPath w s.disk configPath ∧ ∃ n ∈ s.disk.node e.path, e.mtime = n.mtime

instance (s : State) (configPath : Option PyPath) (e : Entry) : Decidable (Hit w s configPath e) :=
  inferInstanceAs (Decidable (_ ∧ _))

/-- `load_service_config` -/
def load (s : State) (configPath : Option PyPath) (validate : Bool) : Option Mapping × State :=
  match s.overrides, s.cache with
  | [], some e =>
    if Hit w s configPath e then (serviceConfig s.defaults e.env [] e.data, s)
    else freshLoad coerce upper w s configPath validate
  | _, _ => freshLoad coerce upper w s configPath validate

def step (s : State) : Act → Option State
  | .load configPath validate => some (load coerce upper w s configPath validate).2
  | .edit path node =>
    if ∀ old ∈ s.disk.node path, ∀ new ∈ node, old.mtime ≠ new.mtime then
      some { s with disk := { s.disk with node := Function.update s.disk.node path node } }
    else none
  | .listAccounts names => some { s with disk := { s.disk with accounts := names } }
  | .setenv name value => some { s with env := Function.update s.env name value }
  | .enterOverride override => some { s with overrides := override :: s.overrides }
  | .leaveOverride =>
    match s.overrides with
    | [] => none
    | _ :: outer => some { s with overrides := outer }
  | .clearConfigCache => some { s with cache := none }

def start (disk : Disk) (env : Environ) : State where
  disk := disk
  env := env
  defaults := SERVICE_DEFAULTS
  cache := none
  overrides := []

/-! ### The claim and its condition -/

/-- What a load without the cache and with pristine defaults returns. -/
def pristineLoad (s : State) (configPath : Option PyPath) (validate : Bool) : Option Mapping :=
  if accepts coerce upper validate (loadedData w s configPath) then
    serviceConfig SERVICE_DEFAULTS (executionEnv s.env) s.override (loadedData w s configPath)
  else none

structure Transparent (s : State) (configPath : Option PyPath) (validate : Bool) : Prop where
  result : (load coerce upper w s configPath validate).1 = pristineLoad coerce upper w s configPath validate
  validated : validate = true → (load coerce upper w s configPath validate).1.isSome →
    (validateRuntimeConfig coerce upper true (loadedData w s configPath)).isSome
  /-- No override has left anything in the defaults. -/
  defaults : s.defaults = SERVICE_DEFAULTS

/-- No dictionary of the defaults that the file does not replace is merged with entries of the override. -/
def MergesOwn (defaults : List (String × Mapping)) (data override : Mapping) : Prop :=
  ∀ e ∈ defaults, ∀ entry ∈ e.2, entry.2.isMap = true → (subsection e.1 data).get? entry.1 = none →
    ((subsection e.1 override).get? entry.1).map Datum.asMap ∈ [none, some []]

instance (defaults : List (String × Mapping)) (data override : Mapping) : Decidable (MergesOwn defaults data override) :=
  inferInstanceAs (Decidable (∀ e ∈ _, ∀ entry ∈ Prod.snd e, _ → _ → _))

/-- An entry is found only where a load would read what it was built from, and, if it validates, accept that; and no
override is merged into the defaults. -/
def Safe (s : State) : Act → Prop
  | .load configPath validate =>
    (s.overrides = [] → ∀ e ∈ s.cache, Hit w s configPath e →
      loadedData w s configPath = e.data ∧ executionEnv s.env = e.env ∧ accepts coerce upper validate e.data = true) ∧
    (accepts coerce upper validate (loadedData w s configPath) = true → SectionsAreMaps s.defaults (loadedData w s configPath) →
      MergesOwn s.defaults (loadedData w s configPath) s.override)
  | _ => True

instance (s : State) : (a : Act) → Decidable (Safe coerce upper w s a)
  | .load _ _ => inferInstanceAs (Decidable ((_ → ∀ e ∈ s.cache, _ → _ ∧ _ ∧ _) ∧ (_ → _ → _)))
  | .edit _ _ | .listAccounts _ | .setenv _ _ | .enterOverride _ | .leaveOverride | .clearConfigCache => .isTrue trivial

end

variable {coerce : Coercion} {upper : String → String} {w : Layout} {disk : Disk} {env : Environ} {s s' : State} {a : Act}
  {configPath : Option PyPath} {validate : Bool} {defaults : List (String × Mapping)} {data override : Mapping}

/-! ### What a load does -/

theorem sharedValue_eq {given ov : Option Datum} {v : Datum}
    (h : v.isMap = true → given = none → ov.map Datum.asMap ∈ [none, some []]) : sharedValue given ov v = v := by
  unfold sharedValue
  split
  next o shared =>
    have ho : some o ∈ [none, some []] := h rfl rfl
    simp only [List.mem_cons, reduceCtorEq, List.not_mem_nil, or_false, false_or, Option.some.injEq] at ho
    rw [ho, deepMerge_nil]
  next => rfl

/-- The merge leaves the defaults as they are. -/
theorem sharedSections_eq (h : MergesOwn defaults data override) : defaults.map (sharedSection data override) = defaults := by
  refine (List.map_congr_left fun e he => ?_).trans (List.map_id _)
  refine Prod.ext rfl ((List.map_congr_left fun entry hentry => ?_).trans (List.map_id _))
  exact Prod.ext rfl (sharedValue_eq fun hmap hgiven => h e he entry hentry hmap hgiven)

theorem freshLoad_fst (hdefaults : s.defaults = SERVICE_DEFAULTS) :
    (freshLoad coerce upper w s configPath validate).1 = pristineLoad coerce upper w s configPath validate := by
  unfold freshLoad pristineLoad
  dsimp only
  split
  · rw [← hdefaults]
    rcases hsections : s.defaults.mapM (mergeSection (loadedData w s configPath)) with _ | sections
    · rw [serviceConfig, hsections]
      rfl
    · rcases serviceConfig s.defaults (executionEnv s.env) s.override (loadedData w s configPath) with _ | result
      · rfl
      · dsimp only
        split
        · rfl
        · rfl
  · rfl

theorem freshLoad_defaults (hsafe : accepts coerce upper validate (loadedData w s configPath) = true →
    SectionsAreMaps s.defaults (loadedData w s configPath) →
      MergesOwn s.defaults (loadedData w s configPath) s.override) :
    (freshLoad coerce upper w s configPath validate).2.defaults = s.defaults := by
  unfold freshLoad
  dsimp only
  split
  next haccepts =>
    rcases hsections : s.defaults.mapM (mergeSection (loadedData w s configPath)) with _ | sections
    · rfl
    · have hmaps : SectionsAreMaps s.defaults (loadedData w s configPath) :=
        isSome_mergeSections.1 (by rw [hsections]; rfl)
      have hshared := sharedSections_eq (hsafe haccepts hmaps)
      rcases serviceConfig s.defaults (executionEnv s.env) s.override (loadedData w s configPath) with _ | result
      · exact hshared
      · dsimp only
        split
        · exact hshared
        · exact hshared
  · rfl

/-- The result of a load is the one of the entry that it finds, or a fresh one. -/
theorem load_cases (coerce : Coercion) (upper : String → String) (w : Layout) (s : State) (configPath : Option PyPath)
    (validate : Bool) : (load coerce upper w s configPath validate = freshLoad coerce upper w s configPath validate) ∨
    ∃ e, s.overrides = [] ∧ s.cache = some e ∧ Hit w s configPath e ∧
      load coerce upper w s configPath validate = (serviceConfig s.defaults e.env [] e.data, s) := by
  unfold load
  split
  next e hoverrides hcache =>
    split
    next hhit => exact .inr ⟨e, hoverrides, hcache, hhit, rfl⟩
    next => exact .inl rfl
  next => exact .inl rfl

theorem load_defaults (hsafe : Safe coerce upper w s (.load configPath validate)) :
    (load coerce upper w s configPath validate).2.defaults = s.defaults := by
  obtain heq | ⟨e, -, -, -, heq⟩ := load_cases coerce upper w s configPath validate
  · rw [heq]
    exact freshLoad_defaults hsafe.2
  · rw [heq]

/-! ### Runs -/

theorem step_defaults (hsafe : Safe coerce upper w s a) (hstep : step coerce upper w s a = some s') :
    s'.defaults = s.defaults := by
  cases a with
  | load configPath validate =>
    cases hstep
    exact load_defaults hsafe
  | edit path node =>
    obtain ⟨-, ⟨⟩⟩ := Option.ite_none_right_eq_some.1 hstep
    rfl
  | leaveOverride =>
    rcases hoverrides : s.overrides with _ | ⟨override, outer⟩
    · simp [step, hoverrides] at hstep
    · simp only [step, hoverrides] at hstep
      cases hstep
      rfl
  | listAccounts | setenv | enterOverride | clearConfigCache =>
    cases hstep
    rfl

theorem defaults_of_safe (h : Reach (step coerce upper w) (Safe coerce upper w) (start disk env) s) :
    s.defaults = SERVICE_DEFAULTS :=
  h.invariant (I := fun s => s.defaults = SERVICE_DEFAULTS) rfl fun _ _ _ hs hsafe hstep => (step_defaults hsafe hstep).trans hs

theorem validated_of_accepts {data : Mapping} (hdata : data ≠ []) (h : accepts coerce upper true data = true) :
    (validateRuntimeConfig coerce upper true data).isSome := by
  simpa [accepts, hdata] using h

theorem loadedData_ne_nil : loadedData w s configPath ≠ [] := by
  intro hnil
  have hstrategy : (loadedData w s configPath).get? "strategy" = _ := get?_migrate_strategy
  rw [hnil] at hstrategy
  cases hstrategy

/-- In a run whose steps are safe a load returns what it would return without the cache and with pristine defaults, a
validating load returns nothing that fails the validation, and no override is left in the defaults. -/
theorem transparent_of_safe (h : Reach (step coerce upper w) (Safe coerce upper w) (start disk env) s)
    (hsafe : Safe coerce upper w s (.load configPath validate)) : Transparent coerce upper w s configPath validate := by
  have hdefaults := defaults_of_safe h
  have hresult : (load coerce upper w s configPath validate).1 = pristineLoad coerce upper w s configPath validate := by
    obtain heq | ⟨e, hoverrides, hcache, hhit, heq⟩ := load_cases coerce upper w s configPath validate
    · rw [heq]
      exact freshLoad_fst hdefaults
    · obtain ⟨hdata, henv, haccepts⟩ := hsafe.1 hoverrides e hcache hhit
      have hoverride : s.override = [] := by rw [State.override, hoverrides]; rfl
      rw [heq, pristineLoad, hdata, if_pos haccepts, henv, hoverride, hdefaults]
  refine ⟨hresult, ?_, hdefaults⟩
  rintro rfl hsome
  rw [hresult, pristineLoad] at hsome
  split at hsome
  next haccepts => exact validated_of_accepts loadedData_ne_nil haccepts
  next => cases hsome

/-! ### Examples -/

def sampleLayout : Layout := ⟨.ofText "/app", .ofText "/app", id⟩

/-- The schema refuses the text. -/
def badConfig : Document where
  entries := [("execution", .map [("max_positions", .str "many")])]
  unique := by decide +kernel

def goodConfig : Document where
  entries := [("execution", .map [("max_positions", .int 2)])]
  unique := by decide +kernel

def sizeOverride : Document where
  entries := [("risk", .map [("max_position_size", .int 3)])]
  unique := by decide +kernel

def sampleDisk (doc : Document) : Disk where
  node p := if p = .ofText "/app/config/live/tradovate_paper.yaml" then some ⟨1, some doc⟩ else none
  accounts := []

/-- A load, a load under an override of a number, and a validating load from the cache. -/
theorem transparent_sampleRun : ∃ s, Reach (step exactType id sampleLayout) (Safe exactType id sampleLayout)
    (start (sampleDisk goodConfig) fun _ => none) s ∧ Transparent exactType id sampleLayout s none true := by
  obtain ⟨s, hreach, hs⟩ := exists_reach (step exactType id sampleLayout) (Safe exactType id sampleLayout)
    (start (sampleDisk goodConfig) fun _ => none)
    [.load none false, .enterOverride sizeOverride, .load none true, .leaveOverride]
    (fun s => Safe exactType id sampleLayout s (.load none true)) (by decide +kernel)
  exact ⟨s, hreach, transparent_of_safe hreach (of_decide_eq_true hs)⟩

/-- After a load without validation a validating load returns the bad config. -/
theorem not_transparent : ¬ ∀ disk env s, Reach (step exactType id sampleLayout) AnyStep (start disk env) s →
    ∀ configPath validate, Transparent exactType id sampleLayout s configPath validate := by
  intro hall
  obtain ⟨s, hreach, hs⟩ := exists_reach (step exactType id sampleLayout) AnyStep
    (start (sampleDisk badConfig) fun _ => none) [.load none false]
    (fun s => (load exactType id sampleLayout s none true).1.isSome &&
      (validateRuntimeConfig exactType id true (loadedData sampleLayout s none)).isNone) (by decide +kernel)
  obtain ⟨hsome, hnone⟩ := Bool.and_eq_true_iff.1 hs
  have hvalid := (hall _ _ s hreach none true).validated rfl hsome
  rw [Option.isNone_iff_eq_none.1 hnone] at hvalid
  cases hvalid

end ServiceCache

end PearlAlgo
