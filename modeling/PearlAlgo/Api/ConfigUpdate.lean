import PearlAlgo.Lts.Reach
import PearlAlgo.Py.Dict
import PearlAlgo.Yaml.Objects
import Mathlib.Data.List.Infix
import Mathlib.Logic.Function.Basic

/-!
# The config endpoints (`api/config_endpoints.py`)

The handlers do not await, so a request runs as a whole. A request says which file operations fail in it.
`atomic_of_safe` is about every run of GET and POST requests.
-/

namespace PearlAlgo
open Yaml Py Lts

namespace ConfigUpdate

/-! ### The fields that can be edited -/

inductive FieldType
  | boolean
  | number (min max : ℚ)
  | select (options : List String)
  | text

def strategyFields : List (List Key × FieldType) :=
  [(["strategy", "active"], .select ["composite_intraday"]), (["strategy", "enforce_session_window"], .boolean),
    (["strategies", "composite_intraday", "stop_loss_atr_mult"], .number (1/10) 10),
    (["strategies", "composite_intraday", "take_profit_atr_mult"], .number (1/10) 10),
    (["strategies", "composite_intraday", "min_confidence"], .number 0 1),
    (["strategies", "composite_intraday", "min_confidence_long"], .number 0 1),
    (["strategies", "composite_intraday", "min_confidence_short"], .number 0 1),
    (["strategies", "composite_intraday", "ema_fast"], .number 1 50),
    (["strategies", "composite_intraday", "ema_slow"], .number 1 100),
    (["strategies", "composite_intraday", "volatile_sl_mult"], .number (1/10) 5),
    (["strategies", "composite_intraday", "volatile_tp_mult"], .number (1/10) 5),
    (["strategies", "composite_intraday", "ranging_sl_mult"], .number (1/10) 5),
    (["strategies", "composite_intraday", "ranging_tp_mult"], .number (1/10) 5),
    (["strategies", "composite_intraday", "allow_vwap_cross_entries"], .boolean),
    (["strategies", "composite_intraday", "allow_vwap_retest_entries"], .boolean),
    (["strategies", "composite_intraday", "allow_trend_momentum_entries"], .boolean),
    (["strategies", "composite_intraday", "allow_trend_breakout_entries"], .boolean),
    (["strategies", "composite_intraday", "allow_orb_entries"], .boolean),
    (["strategies", "composite_intraday", "allow_vwap_2sd_entries"], .boolean),
    (["strategies", "composite_intraday", "allow_smc_entries"], .boolean),
    (["strategies", "composite_intraday", "vwap_std_dev"], .number (5/10) 3),
    (["strategies", "composite_intraday", "volume_ma_length"], .number 5 100),
    (["strategies", "composite_intraday", "sr_length"], .number 10 500),
    (["strategies", "composite_intraday", "sr_atr_mult"], .number (1/10) 3),
    (["strategies", "composite_intraday", "trend_momentum_atr_mult"], .number (1/10) 3),
    (["strategies", "composite_intraday", "trend_breakout_lookback_bars"], .number 1 50),
    (["strategies", "composite_intraday", "tbt_period"], .number 1 50),
    (["strategies", "composite_intraday", "tbt_trend_type"], .select ["wicks", "bodies"]),
    (["strategies", "composite_intraday", "adx_period"], .number 5 50),
    (["strategies", "composite_intraday", "adx_trending_threshold"], .number 10 50),
    (["strategies", "composite_intraday", "adx_ranging_threshold"], .number 5 40)]

def tradingFields : List (List Key × FieldType) :=
  [(["signals", "max_stop_points"], .number 5 200), (["signals", "min_risk_reward"], .number (5/10) 10),
    (["execution", "armed"], .boolean), (["execution", "enabled"], .boolean),
    (["execution", "mode"], .select ["paper", "dry_run"]), (["execution", "max_positions"], .number 1 10),
    (["execution", "max_position_size_per_order"], .number 1 5), (["execution", "cooldown_seconds"], .number 0 600),
    (["execution", "max_orders_per_day"], .number 1 999), (["execution", "max_daily_loss"], .number 1 999999),
    (["session", "start_time"], .text), (["session", "end_time"], .text), (["session", "timezone"], .text),
    (["risk", "max_position_size"], .number 1 50), (["risk", "max_drawdown"], .number 0 1),
    (["risk", "max_risk_per_trade"], .number 0 1), (["guardrails", "signal_gate_enabled"], .boolean),
    (["guardrails", "max_consecutive_losses"], .number 1 20),
    (["guardrails", "max_session_drawdown"], .number 100 99999),
    (["guardrails", "max_daily_drawdown"], .number 100 99999)]

def serviceFields : List (List Key × FieldType) :=
  [(["trailing_stop", "enabled"], .boolean), (["trailing_stop", "min_move_points"], .number (1/10) 10),
    (["trailing_stop", "regime_adaptive"], .boolean), (["trailing_stop", "allow_external_override"], .boolean),
    (["trailing_stop", "max_override_ttl_minutes"], .number 1 600), (["auto_flat", "enabled"], .boolean),
    (["auto_flat", "daily_enabled"], .boolean), (["auto_flat", "daily_time"], .text),
    (["auto_flat", "friday_enabled"], .boolean), (["auto_flat", "friday_time"], .text),
    (["advanced_exits", "quick_exit", "enabled"], .boolean),
    (["advanced_exits", "quick_exit", "min_duration_minutes"], .number 1 120),
    (["advanced_exits", "quick_exit", "max_mfe_threshold"], .number 1 200),
    (["advanced_exits", "quick_exit", "min_mae_threshold"], .number 1 200),
    (["advanced_exits", "time_based_exit", "enabled"], .boolean),
    (["advanced_exits", "time_based_exit", "min_duration_minutes"], .number 1 120),
    (["advanced_exits", "time_based_exit", "min_profit_threshold"], .number 1 500),
    (["advanced_exits", "time_based_exit", "take_percentage"], .number (1/10) 1),
    (["advanced_exits", "stop_optimization", "enabled"], .boolean), (["scan_interval"], .number 5 300),
    (["service", "velocity_mode_enabled"], .boolean), (["service", "scan_interval_active_seconds"], .number 1 120),
    (["service", "scan_interval_idle_seconds"], .number 10 600),
    (["service", "scan_interval_market_closed_seconds"], .number 30 3600),
    (["service", "enable_new_bar_gating"], .boolean), (["service", "dashboard_chart_enabled"], .boolean)]

/-- `SCHEMA` by the parts of the dotted paths, with the types, the bounds and the options. -/
def SCHEMA : List (List Key × FieldType) := strategyFields ++ tradingFields ++ serviceFields

def FORBIDDEN_KEYS : List String := ["execution.adapter", "virtual_pnl.enabled", "account.name"]

/-- `dotted_path.split(".")` -/
def splitPath (path : String) : List Key := (path.toList.splitOn '.').map fun l => .str (String.ofList l)

/-- Below the minimum or above the maximum. -/
def outside (min max : ℚ) (x : Number) : Bool := x < .fin min ∨ .fin max < x

/-- `_validate_value`, `none` where it raises. -/
def validateValue : FieldType → Datum → Option Scalar
  | .boolean, .scalar (.bool b) => some (.bool b)
  | .number min max, .scalar (.int n) => if outside min max (.fin n) then none else some (.int n)
  | .number min max, .scalar (.float x) => if outside min max x then none else some (.float x)
  | .select options, .scalar (.str s) => if s ∈ options then some (.str s) else none
  | .text, .scalar (.str s) => some (.str s)
  | _, _ => none

/-- The field and its new value, or the status of the error. -/
def validateChange (change : String × Datum) : Except Nat (String × Scalar) :=
  if change.1 ∈ FORBIDDEN_KEYS then .error 403
  else
    match (SCHEMA.lookup (splitPath change.1)).bind fun field => validateValue field change.2 with
    | some s => .ok (change.1, s)
    | none => .error 422

/-! ### The handler -/

/-- YAML text, the hash of a config, its runtime validation, and what an answer can hold. -/
structure Backend (Text : Type) where
  parse : Text → Option Obj
  dump : Obj → Text
  configHash : Obj → String
  valid : Datum → Bool
  renders : Datum → Bool

structure State (Text : Type) where
  live : Option Text
  backups : String → Option Text
  bucket : List ℚ

/-- Which operations on files work; a backup that cannot be written is left as some text. -/
structure FileOps (Text : Type) where
  liveRead : Bool := true
  liveExists : Bool := true
  backupFault : Option Text := none
  tmpWrite : Bool := true
  rename : Bool := true
  reread : Bool := true
  backupExists : Bool := true
  restore : Bool := true

structure Request where
  now : ℚ
  timestamp : String
  changes : Dict String Datum
  configHash : String

/-- Path, old value and new value. -/
abbrev Applied := List (String × Datum × Datum)

section
variable {Text : Type} (b : Backend Text)

def checkRateLimit (now : ℚ) (bucket : List ℚ) : Bool × List ℚ :=
  let bucket := bucket.dropWhile fun t => t < now - 60
  if 5 ≤ bucket.length then (false, bucket) else (true, bucket ++ [now])

/-- `doc or {}` -/
def orEmpty (doc : Obj) : Obj := if doc.toValue.truthy then doc else .map 0 []

/-- `_load_live_yaml`, `none` where it raises. -/
def loadLiveYaml (s : State Text) (ops : FileOps Text) : Option Obj :=
  if ops.liveRead then (s.live.bind b.parse).map orEmpty else none

def checkRequest (s : State Text) (req : Request) (ops : FileOps Text) : Except Nat (Obj × List (String × Scalar)) :=
  if req.changes.isEmpty then .error 422
  else
    match loadLiveYaml b s ops with
    | none => .error 500
    | some doc =>
      if req.configHash = b.configHash doc then (req.changes.entries.mapM validateChange).map fun changes => (doc, changes)
      else .error 409

/-- The assignments and the log of what they change; `none` where the document is no mapping. -/
def applyChanges : List (String × Scalar) → Obj → Option (Obj × Applied)
  | [], doc => some (doc, [])
  | (path, v) :: changes, doc =>
    (Obj.setNested v (splitPath path) doc).bind fun doc' =>
      (applyChanges changes doc').map fun (updated, log) =>
        (updated, (path, (doc.toValue.at? (splitPath path)).getD .null, .scalar v) :: log)

/-- The parse of the written file is a mapping that is valid. -/
def roundTrips (text : Text) : Bool :=
  match b.parse text with
  | some doc => doc.toValue.isMap && b.valid doc.toValue
  | none => false

/-- The backup is put in the place of the live file, where that works. -/
def restoreBackup (req : Request) (ops : FileOps Text) (s : State Text) : State Text :=
  if ops.backupExists ∧ ops.restore then
    match s.backups req.timestamp with
    | some text => { s with live := some text, backups := Function.update s.backups req.timestamp none }
    | none => s
  else s

/-- The part behind the rename. The framework cannot answer with a value that is no JSON. -/
def finishUpdate (req : Request) (ops : FileOps Text) (updated : Obj) (log : Applied) (s : State Text) :
    Except Nat Applied × State Text :=
  let written := { s with live := some (b.dump updated) }
  if ops.reread ∧ roundTrips b (b.dump updated) then
    if ∀ e ∈ log, b.renders e.2.1 ∧ b.renders e.2.2 then (.ok log, written) else (.error 500, written)
  else (.error 500, restoreBackup req ops written)

/-- The part behind the backup. -/
def writeConfig (req : Request) (ops : FileOps Text) (changes : List (String × Scalar)) (doc : Obj) (s : State Text) :
    Except Nat Applied × State Text :=
  match applyChanges changes doc with
  | none => (.error 500, s)
  | some (updated, log) =>
    if ¬b.valid updated.toValue then (.error 422, s)
    else if ¬(ops.tmpWrite ∧ ops.rename) then (.error 500, s)
    else finishUpdate b req ops updated log s

/-- `update_config` without the restart: the applied changes, or the status of the error. -/
def updateConfig (s : State Text) (req : Request) (ops : FileOps Text) : Except Nat Applied × State Text :=
  let (allowed, bucket) := checkRateLimit req.now s.bucket
  let s := { s with bucket }
  if ¬allowed then (.error 429, s)
  else
    match checkRequest b s req ops with
    | .error status => (.error status, s)
    | .ok (doc, changes) =>
      if ops.liveExists then
        match ops.backupFault with
        | some text => (.error 500, { s with backups := Function.update s.backups req.timestamp (some text) })
        | none => writeConfig b req ops changes doc { s with backups := Function.update s.backups req.timestamp s.live }
      else writeConfig b req ops changes doc s

/-- A GET changes nothing. -/
inductive Act (Text : Type)
  | getConfig
  | postConfig (req : Request) (ops : FileOps Text)

def next (s : State Text) : Act Text → State Text
  | .getConfig => s
  | .postConfig req ops => (updateConfig b s req ops).2

/-! ### The claim and its condition -/

/-- The live config as the API loads it. -/
def parsedLive (s : State Text) : Option Datum := ((s.live.bind b.parse).map orEmpty).map Obj.toValue

/-- The value at a path is kept, or a requested path is inside it and it stays (or becomes) a mapping. -/
def Framed (req : Request) (p : List Key) (before after : Option Datum) : Prop :=
  after = before ∨
    (∃ c ∈ req.changes.entries, p <+: splitPath c.1) ∧ before.all Datum.isMap ∧ ∃ m, after = some (.map m)

/-- An answered POST is atomic and optimistic. -/
structure Atomic (s : State Text) (req : Request) (ops : FileOps Text) : Prop where
  /-- The live config is the one whose hash was sent. -/
  optimistic : ∀ log, (updateConfig b s req ops).1 = .ok log →
    ∃ doc, loadLiveYaml b s ops = some doc ∧ b.configHash doc = req.configHash
  requested : ∀ log, (updateConfig b s req ops).1 = .ok log → ∀ c ∈ req.changes.entries,
    (parsedLive b (updateConfig b s req ops).2).bind (fun v => v.at? (splitPath c.1)) = some c.2
  /-- Every other path that is not inside a requested one. -/
  framed : ∀ log, (updateConfig b s req ops).1 = .ok log → ∀ p,
    (∀ c ∈ req.changes.entries, ¬ splitPath c.1 <+: p) →
      Framed req p ((parsedLive b s).bind fun v => v.at? p)
        ((parsedLive b (updateConfig b s req ops).2).bind fun v => v.at? p)
  failed : ∀ status, (updateConfig b s req ops).1 = .error status →
    parsedLive b (updateConfig b s req ops).2 = parsedLive b s

def AtomicAct (s : State Text) : Act Text → Prop
  | .getConfig => True
  | .postConfig req ops => Atomic b s req ops

def onlyMaps (v : Datum) (keys : List Key) : Bool := keys.inits.all fun p => p == keys || (v.at? p).all Datum.isMap

/-- Where the request gets to the rename: no assigned mapping is in another place too and none takes the place of
another value, the backup is restored if the file cannot be read again, and the answer can be rendered. -/
def safe (s : State Text) : Act Text → Bool
  | .getConfig => true
  | .postConfig req ops =>
    match checkRequest b s req ops with
    | .error _ => true
    | .ok (doc, changes) =>
      match applyChanges changes doc with
      | none => true
      | some (updated, log) =>
        !(b.valid updated.toValue && ops.tmpWrite && ops.rename) ||
          (Obj.Unaliased doc (changes.map fun c => (splitPath c.1, c.2)) &&
            (changes.all fun c => onlyMaps doc.toValue (splitPath c.1)) &&
            if ops.reread then log.all fun e => b.renders e.2.1 && b.renders e.2.2
            else ops.liveExists && ops.backupExists && ops.restore)

end

/-! ### The paths of the fields -/

theorem splitPath_inj {p q : String} (h : splitPath p = splitPath q) : p = q := by
  have hinj : Function.Injective fun l : List Char => Key.str (String.ofList l) :=
    fun l l' heq => String.ofList_injective (Key.str.inj heq)
  have hsplit : p.toList.splitOn '.' = q.toList.splitOn '.' := List.map_injective_iff.2 hinj h
  calc p = String.ofList (['.'].intercalate (p.toList.splitOn '.')) := by rw [List.intercalate_splitOn, String.ofList_toList]
    _ = String.ofList (['.'].intercalate (q.toList.splitOn '.')) := by rw [hsplit]
    _ = q := by rw [List.intercalate_splitOn, String.ofList_toList]

/-- How many keys a path has that starts with a key. -/
def depthOf (k : Option Key) : Nat :=
  if k = some (.str "scan_interval") then 1
  else if k = some (.str "strategies") ∨ k = some (.str "advanced_exits") then 3
  else 2

theorem schema_depth : ∀ e ∈ SCHEMA, e.1 ≠ [] ∧ e.1.length = depthOf e.1.head? := by decide +kernel

/-- No field is inside another one. -/
theorem path_eq_of_isPrefix {p q : List Key} (hp : p ∈ SCHEMA.map Prod.fst) (hq : q ∈ SCHEMA.map Prod.fst) (h : p <+: q) :
    p = q := by
  obtain ⟨e, he, rfl⟩ := List.mem_map.1 hp
  obtain ⟨f, hf, rfl⟩ := List.mem_map.1 hq
  refine h.eq_of_length ?_
  rw [(schema_depth e he).2, (schema_depth f hf).2]
  rcases hkeys : e.1 with _ | ⟨k, ks⟩
  · exact absurd hkeys (schema_depth e he).1
  · obtain ⟨ks', hks⟩ := hkeys ▸ h
    rw [← hks]
    rfl

theorem incomparable_of_ne {p q : List Key} (hp : p ∈ SCHEMA.map Prod.fst) (hq : q ∈ SCHEMA.map Prod.fst) (hne : p ≠ q) :
    Datum.Incomparable p q :=
  ⟨fun h => hne (path_eq_of_isPrefix hp hq h), fun h => hne (path_eq_of_isPrefix hq hp h).symm⟩

/-! ### What a request does -/

variable {Text : Type} {b : Backend Text} {s s' s₁ : State Text} {req : Request} {ops : FileOps Text} {doc updated : Obj}
  {changes : List (String × Scalar)} {log : Applied} {disk : State Text}

theorem validateValue_eq {field : FieldType} {v : Datum} {x : Scalar} (h : validateValue field v = some x) :
    v = .scalar x := by
  unfold validateValue at h
  split at h
  · cases h
    rfl
  · obtain ⟨-, ⟨⟩⟩ := Option.ite_none_left_eq_some.1 h
    rfl
  · obtain ⟨-, ⟨⟩⟩ := Option.ite_none_left_eq_some.1 h
    rfl
  · obtain ⟨-, ⟨⟩⟩ := Option.ite_none_right_eq_some.1 h
    rfl
  · cases h
    rfl
  · cases h

theorem validateChange_ok {c : String × Datum} {d : String × Scalar} (h : validateChange c = .ok d) :
    c = (d.1, .scalar d.2) ∧ splitPath d.1 ∈ SCHEMA.map Prod.fst := by
  unfold validateChange at h
  split at h
  · cases h
  · split at h
    next x hx =>
      cases h
      obtain ⟨field, hlookup, hx⟩ := Option.bind_eq_some_iff.1 hx
      obtain ⟨l₁, l₂, hschema, -⟩ := List.lookup_eq_some_iff.1 hlookup
      refine ⟨Prod.ext rfl (validateValue_eq hx), ?_⟩
      rw [hschema, List.map_append, List.map_cons]
      exact List.mem_append_right _ List.mem_cons_self
    · cases h

theorem validateChanges_ok {entries : List (String × Datum)} (h : entries.mapM validateChange = .ok changes) :
    entries = changes.map (fun d => (d.1, .scalar d.2)) ∧ ∀ d ∈ changes, splitPath d.1 ∈ SCHEMA.map Prod.fst := by
  induction entries generalizing changes with
  | nil =>
    cases h
    exact ⟨rfl, by simp⟩
  | cons c entries ih =>
    rw [List.mapM_cons] at h
    rcases hc : validateChange c with status | d
    · rw [hc] at h
      cases h
    · rcases hrest : entries.mapM validateChange with status | rest
      · rw [hc, hrest] at h
        cases h
      · rw [hc, hrest] at h
        cases h
        obtain ⟨hd, hmem⟩ := validateChange_ok hc
        obtain ⟨hentries, hall⟩ := ih hrest
        exact ⟨by rw [List.map_cons, ← hd, ← hentries], List.forall_mem_cons.2 ⟨hmem, hall⟩⟩

theorem checkRequest_ok (h : checkRequest b s req ops = .ok (doc, changes)) :
    req.changes.entries ≠ [] ∧ loadLiveYaml b s ops = some doc ∧ req.configHash = b.configHash doc ∧
      req.changes.entries.mapM validateChange = .ok changes := by
  unfold checkRequest at h
  split at h
  · cases h
  next hne =>
    rcases hload : loadLiveYaml b s ops with _ | doc'
    · rw [hload] at h
      cases h
    · rw [hload] at h
      dsimp only at h
      split at h
      next hhash =>
        rcases hmap : req.changes.entries.mapM validateChange with status | changes'
        · rw [hmap] at h
          cases h
        · rw [hmap] at h
          cases h
          exact ⟨fun hnil => hne (by rw [Dict.isEmpty, hnil]; rfl), rfl, hhash, rfl⟩
      · cases h

theorem setAll_of_applyChanges (h : applyChanges changes doc = some (updated, log)) :
    Obj.setAll (changes.map fun c => (splitPath c.1, c.2)) doc = some updated := by
  induction changes generalizing doc log with
  | nil =>
    cases h
    rfl
  | cons c changes ih =>
    obtain ⟨path, v⟩ := c
    obtain ⟨doc', hset, h⟩ := Option.bind_eq_some_iff.1 h
    obtain ⟨⟨updated', log'⟩, hrest, heq⟩ := Option.map_eq_some_iff.1 h
    cases heq
    exact Option.bind_eq_some_iff.2 ⟨doc', hset, ih hrest⟩

theorem pairwise_incomparable (h : req.changes.entries.mapM validateChange = .ok changes) :
    (changes.map fun c => (splitPath c.1, c.2)).Pairwise fun c d => Datum.Incomparable c.1 d.1 := by
  obtain ⟨hentries, hschema⟩ := validateChanges_ok h
  have hnodup : (changes.map Prod.fst).Nodup := by
    have hkeys := req.changes.nodup
    rwa [hentries, List.map_map] at hkeys
  rw [List.pairwise_map]
  refine (List.pairwise_map.1 hnodup).imp_of_mem fun {c d} hc hd hne => ?_
  exact incomparable_of_ne (hschema c hc) (hschema d hd) fun heq => hne (splitPath_inj heq)

/-- The request is refused with the live file as it was, or it gets to the rename. -/
theorem updateConfig_cases (b : Backend Text) (s : State Text) (req : Request) (ops : FileOps Text) :
    (∃ status s', updateConfig b s req ops = (.error status, s') ∧ s'.live = s.live) ∨
      ∃ doc changes updated log s₁, checkRequest b s req ops = .ok (doc, changes) ∧
        applyChanges changes doc = some (updated, log) ∧ b.valid updated.toValue = true ∧ ops.tmpWrite = true ∧
        ops.rename = true ∧ (ops.liveExists = true → s₁.backups req.timestamp = s.live) ∧
        updateConfig b s req ops = finishUpdate b req ops updated log s₁ := by
  have hwrite : ∀ (doc : Obj) (changes : List (String × Scalar)) (s₁ : State Text), s₁.live = s.live →
      (∃ status s', writeConfig b req ops changes doc s₁ = (.error status, s') ∧ s'.live = s.live) ∨
        ∃ updated log, applyChanges changes doc = some (updated, log) ∧ b.valid updated.toValue = true ∧
          ops.tmpWrite = true ∧ ops.rename = true ∧
          writeConfig b req ops changes doc s₁ = finishUpdate b req ops updated log s₁ := by
    intro doc changes s₁ hlive
    unfold writeConfig
    rcases applyChanges changes doc with _ | ⟨updated, log⟩
    · exact .inl ⟨_, _, rfl, hlive⟩
    · dsimp only
      split
      · exact .inl ⟨_, _, rfl, hlive⟩
      next hvalid =>
        split
        · exact .inl ⟨_, _, rfl, hlive⟩
        next hops =>
          obtain ⟨htmp, hrename⟩ := not_not.1 hops
          exact .inr ⟨updated, log, rfl, not_not.1 hvalid, htmp, hrename, rfl⟩
  have hcheck : ∀ bucket, checkRequest b { s with bucket } req ops = checkRequest b s req ops := fun _ => rfl
  unfold updateConfig
  rcases checkRateLimit req.now s.bucket with ⟨allowed, bucket⟩
  dsimp only
  split
  · exact .inl ⟨_, _, rfl, rfl⟩
  · rw [hcheck]
    rcases checkRequest b s req ops with status | ⟨doc, changes⟩
    · exact .inl ⟨_, _, rfl, rfl⟩
    · dsimp only
      split
      · rcases ops.backupFault with _ | text
        · dsimp only
          obtain herror | ⟨updated, log, happly, hvalid, htmp, hrename, heq⟩ := hwrite doc changes
            { s with bucket, backups := Function.update s.backups req.timestamp s.live } rfl
          · exact .inl herror
          · exact .inr ⟨doc, changes, updated, log, _, rfl, happly, hvalid, htmp, hrename,
              fun _ => Function.update_self .., heq⟩
        · exact .inl ⟨_, _, rfl, rfl⟩
      next hexists =>
        obtain herror | ⟨updated, log, happly, hvalid, htmp, hrename, heq⟩ := hwrite doc changes
          { s with bucket } rfl
        · exact .inl herror
        · exact .inr ⟨doc, changes, updated, log, _, rfl, happly, hvalid, htmp, hrename, fun h => absurd h hexists, heq⟩

theorem parsedLive_congr (h : s'.live = s.live) : parsedLive b s' = parsedLive b s := by rw [parsedLive, h, parsedLive]

theorem parsedLive_of_load (h : loadLiveYaml b s ops = some doc) : parsedLive b s = some doc.toValue := by
  unfold loadLiveYaml at h
  split at h
  · rw [parsedLive, h]
    rfl
  · cases h

theorem parsedLive_written (hround : ∀ doc, (b.parse (b.dump doc)).map Obj.toValue = some doc.toValue)
    (hlive : s.live = some (b.dump updated)) (htruthy : updated.toValue.truthy = true) :
    parsedLive b s = some updated.toValue := by
  obtain ⟨doc', hparse, hvalue⟩ := Option.map_eq_some_iff.1 (hround updated)
  rw [parsedLive, hlive, Option.bind_some, hparse, Option.map_some, Option.map_some, orEmpty, hvalue, if_pos htruthy, hvalue]

theorem truthy_of_at? {v x : Datum} {k : Key} {p : List Key} (h : v.at? (k :: p) = some x) : v.truthy = true := by
  rcases v with _ | _ | m
  · cases h
  · cases h
  · cases m with
    | nil => cases h
    | cons => rfl

theorem splitPath_ne_nil (path : String) : splitPath path ≠ [] := by
  intro h
  exact List.splitOn_ne_nil '.' path.toList (List.map_eq_nil_iff.1 h)

theorem at?_updated (happly : applyChanges changes doc = some (updated, log))
    (hunaliased : Obj.Unaliased doc (changes.map fun c => (splitPath c.1, c.2)))
    (hmap : req.changes.entries.mapM validateChange = .ok changes) :
    (∀ c ∈ req.changes.entries, updated.toValue.at? (splitPath c.1) = some c.2) ∧
      ∀ p, (∀ c ∈ req.changes.entries, ¬ splitPath c.1 <+: p) →
        updated.toValue.at? p = doc.toValue.at? p ∨
          ∃ c ∈ req.changes.entries, p <+: splitPath c.1 ∧ ∃ m, updated.toValue.at? p = some (.map m) := by
  have hvalue := Obj.toValue_setAll (setAll_of_applyChanges happly) hunaliased
  obtain ⟨hentries, -⟩ := validateChanges_ok hmap
  rw [hvalue, hentries]
  constructor
  · intro c hc
    obtain ⟨d, hd, rfl⟩ := List.mem_map.1 hc
    have hmem : (splitPath d.1, d.2) ∈ changes.map fun c => (splitPath c.1, c.2) := List.mem_map.2 ⟨d, hd, rfl⟩
    exact Datum.at?_setAll_self (pairwise_incomparable hmap) hmem
  · intro p hp
    by_cases habove : ∃ d ∈ changes, p <+: splitPath d.1
    · obtain ⟨d, hd, hpd⟩ := habove
      have hmem : (splitPath d.1, d.2) ∈ changes.map fun c => (splitPath c.1, c.2) := List.mem_map.2 ⟨d, hd, rfl⟩
      have hentry : (d.1, .scalar d.2) ∈ changes.map fun d => (d.1, Datum.scalar d.2) := List.mem_map.2 ⟨d, hd, rfl⟩
      refine .inr ⟨_, hentry, hpd, Datum.isMap_at?_setAll (pairwise_incomparable hmap) hmem hpd fun heq => ?_⟩
      exact hp _ hentry (heq ▸ List.prefix_rfl)
    · refine .inl (Datum.at?_setAll_of_incomparable fun c hc => ?_)
      obtain ⟨d, hd, rfl⟩ := List.mem_map.1 hc
      exact ⟨fun hpd => habove ⟨d, hd, hpd⟩, hp (d.1, .scalar d.2) (List.mem_map.2 ⟨d, hd, rfl⟩)⟩

theorem truthy_updated (happly : applyChanges changes doc = some (updated, log))
    (hunaliased : Obj.Unaliased doc (changes.map fun c => (splitPath c.1, c.2)))
    (hmap : req.changes.entries.mapM validateChange = .ok changes) (hne : req.changes.entries ≠ []) :
    updated.toValue.truthy = true := by
  obtain ⟨c, hc⟩ := List.exists_mem_of_ne_nil _ hne
  have hat := (at?_updated happly hunaliased hmap).1 c hc
  obtain ⟨k, p, hsplit⟩ := List.exists_cons_of_ne_nil (splitPath_ne_nil c.1)
  rw [hsplit] at hat
  exact truthy_of_at? hat

theorem isMap_of_at? {v x : Datum} {k : Key} {p : List Key} (h : v.at? (k :: p) = some x) : v.isMap = true := by
  rcases v with _ | _ | m
  · cases h
  · cases h
  · rfl

theorem all_isMap_of_onlyMaps {v : Datum} {p q : List Key} (h : onlyMaps v q = true) (hpq : p <+: q) (hne : p ≠ q) :
    (v.at? p).all Datum.isMap = true := by
  have hp := List.all_eq_true.1 h p ((List.mem_inits p q).2 hpq)
  simpa [hne] using hp

theorem live_of_load (h : loadLiveYaml b s ops = some doc) : ∃ text, s.live = some text := by
  unfold loadLiveYaml at h
  split at h
  · obtain ⟨_, hparse, -⟩ := Option.map_eq_some_iff.1 h
    obtain ⟨text, htext, -⟩ := Option.bind_eq_some_iff.1 hparse
    exact ⟨text, htext⟩
  · cases h

theorem roundTrips_dump (hround : ∀ doc, (b.parse (b.dump doc)).map Obj.toValue = some doc.toValue)
    (hmap : updated.toValue.isMap = true) (hvalid : b.valid updated.toValue = true) :
    roundTrips b (b.dump updated) = true := by
  obtain ⟨doc', hparse, hvalue⟩ := Option.map_eq_some_iff.1 (hround updated)
  unfold roundTrips
  rw [hparse]
  dsimp only
  rw [hvalue, hmap, hvalid]
  rfl

theorem live_restoreBackup {text : Text} (hexists : ops.backupExists = true) (hrestore : ops.restore = true)
    (hbackup : s.backups req.timestamp = some text) : (restoreBackup req ops s).live = some text := by
  unfold restoreBackup
  rw [if_pos ⟨hexists, hrestore⟩, hbackup]

theorem safe_of (hsafe : safe b s (.postConfig req ops) = true) (hcheck : checkRequest b s req ops = .ok (doc, changes))
    (happly : applyChanges changes doc = some (updated, log)) (hvalid : b.valid updated.toValue = true)
    (htmp : ops.tmpWrite = true) (hrename : ops.rename = true) :
    Obj.Unaliased doc (changes.map fun c => (splitPath c.1, c.2)) ∧
      (∀ c ∈ changes, onlyMaps doc.toValue (splitPath c.1) = true) ∧
      if ops.reread then ∀ e ∈ log, b.renders e.2.1 = true ∧ b.renders e.2.2 = true
      else ops.liveExists = true ∧ ops.backupExists = true ∧ ops.restore = true := by
  simp only [safe, hcheck, happly, hvalid, htmp, hrename, Bool.and_true, Bool.not_true, Bool.false_or, Bool.and_eq_true,
    decide_eq_true_eq, List.all_eq_true] at hsafe
  refine ⟨hsafe.1.1, hsafe.1.2, ?_⟩
  split
  next hreread => simpa [hreread] using hsafe.2
  next hreread => simpa [hreread, and_assoc] using hsafe.2

theorem atomic_of_safe_post (hround : ∀ doc, (b.parse (b.dump doc)).map Obj.toValue = some doc.toValue)
    (hsafe : safe b s (.postConfig req ops) = true) : Atomic b s req ops := by
  obtain ⟨status, s', heq, hlive⟩ | ⟨doc, changes, updated, log, s₁, hcheck, happly, hvalid, htmp, hrename, hbackup, heq⟩ :=
    updateConfig_cases b s req ops
  · refine ⟨?_, ?_, ?_, fun _ _ => by rw [heq]; exact parsedLive_congr hlive⟩
    · simp [heq]
    · simp [heq]
    · simp [heq]
  · obtain ⟨hunaliased, hmaps, hfinish⟩ := safe_of hsafe hcheck happly hvalid htmp hrename
    obtain ⟨hne, hload, hhash, hmap⟩ := checkRequest_ok hcheck
    obtain ⟨hrequested, hframed⟩ := at?_updated happly hunaliased hmap
    have htruthy := truthy_updated happly hunaliased hmap hne
    have honlyMaps : ∀ c ∈ req.changes.entries, onlyMaps doc.toValue (splitPath c.1) = true := by
      intro c hc
      rw [(validateChanges_ok hmap).1] at hc
      obtain ⟨d, hd, rfl⟩ := List.mem_map.1 hc
      exact hmaps d hd
    have hbefore := parsedLive_of_load hload
    have hroundTrips : roundTrips b (b.dump updated) = true := by
      obtain ⟨c, hc⟩ := List.exists_mem_of_ne_nil _ hne
      obtain ⟨k, p, hsplit⟩ := List.exists_cons_of_ne_nil (splitPath_ne_nil c.1)
      exact roundTrips_dump hround (isMap_of_at? (hsplit ▸ hrequested c hc)) hvalid
    by_cases hreread : ops.reread = true
    · rw [if_pos hreread] at hfinish
      have hanswer : updateConfig b s req ops = (.ok log, { s₁ with live := some (b.dump updated) }) := by
        rw [heq, finishUpdate, if_pos ⟨hreread, hroundTrips⟩, if_pos hfinish]
      have hafter : parsedLive b (updateConfig b s req ops).2 = some updated.toValue := by
        rw [hanswer]
        exact parsedLive_written hround rfl htruthy
      refine ⟨fun _ _ => ⟨doc, hload, hhash.symm⟩, fun _ _ c hc => ?_, fun _ _ p hp => ?_, fun _ herror => ?_⟩
      · rw [hafter]
        exact hrequested c hc
      · rw [hafter, hbefore]
        obtain hkept | ⟨c, hc, hpc, hafter⟩ := hframed p hp
        · exact .inl hkept
        · have hbefore := all_isMap_of_onlyMaps (honlyMaps c hc) hpc fun h => hp c hc (h ▸ List.prefix_rfl)
          exact .inr ⟨⟨c, hc, hpc⟩, hbefore, hafter⟩
      · rw [hanswer] at herror
        cases herror
    · rw [if_neg hreread] at hfinish
      obtain ⟨hexists, hbackupExists, hrestore⟩ := hfinish
      have hanswer : updateConfig b s req ops =
          (.error 500, restoreBackup req ops { s₁ with live := some (b.dump updated) }) := by
        rw [heq, finishUpdate, if_neg fun h => hreread h.1]
      obtain ⟨text, htext⟩ := live_of_load hload
      refine ⟨?_, ?_, ?_, fun _ _ => ?_⟩
      · simp [hanswer]
      · simp [hanswer]
      · simp [hanswer]
      · rw [hanswer]
        refine parsedLive_congr ?_
        rw [htext]
        exact live_restoreBackup hbackupExists hrestore ((hbackup hexists).trans htext)

/-- In a run whose requests are safe every POST succeeds only against the config whose hash was sent, changes the
requested paths and nothing else, and leaves the config as it was if it fails. -/
theorem atomic_of_safe (hround : ∀ doc, (b.parse (b.dump doc)).map Obj.toValue = some doc.toValue) {acts : List (Act Text)}
    (h : Along (next b) (fun s a => safe b s a = true) s acts) : Along (next b) (AtomicAct b) s acts := by
  refine h.mono fun s a hsafe => ?_
  cases a with
  | getConfig => trivial
  | postConfig req ops => exact atomic_of_safe_post hround hsafe

/-! ### Examples -/

/-- Documents as their own texts. -/
def objects : Backend Obj where
  parse := some
  dump := id
  configHash _ := "h"
  valid _ := true
  renders _ := true

def sampleState : State Obj where
  live := some (.map 0 [(.str "trailing_stop", .map 1 [(.str "enabled", .scalar (.bool false))])])
  backups _ := none
  bucket := []

def sampleRequest : Request where
  now := 0
  timestamp := "20260102_100000"
  changes := Dict.empty.set "trailing_stop.enabled" (.bool true)
  configHash := "h"

/-- The update works, and the next one is sent with the old hash of another config. -/
theorem atomic_sampleRun : Along (next objects) (AtomicAct objects) sampleState
    [.getConfig, .postConfig sampleRequest {}, .postConfig { sampleRequest with configHash := "g" } {}] :=
  atomic_of_safe (fun _ => rfl) (by decide +kernel)

/-- The file cannot be read again and the backup not restored. -/
def faultyOps : FileOps Obj := { reread := false, restore := false }

/-- The request fails and its update stays in place. -/
theorem not_atomic : ¬ ∀ s acts, Along (next objects) (AtomicAct objects) s acts := by
  intro hall
  have hatomic : Atomic objects sampleState sampleRequest faultyOps :=
    (hall sampleState [.postConfig sampleRequest faultyOps]).1
  have hfails : (updateConfig objects sampleState sampleRequest faultyOps).1.isOk = false := by decide +kernel
  have hchanged : parsedLive objects (updateConfig objects sampleState sampleRequest faultyOps).2 ≠
      parsedLive objects sampleState := by decide +kernel
  rcases hanswer : (updateConfig objects sampleState sampleRequest faultyOps).1 with status | log
  · exact hchanged (hatomic.failed status hanswer)
  · rw [hanswer] at hfails
    cases hfails

end ConfigUpdate

end PearlAlgo
