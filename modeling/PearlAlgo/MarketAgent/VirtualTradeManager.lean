import Mathlib.Data.List.Induction
import PearlAlgo.MarketAgent.CircuitBreaker
import PearlAlgo.MarketAgent.PerformanceTracker
import PearlAlgo.Tradovate.EventLoop

/-!
# Virtual trade exits (`market_agent/virtual_trade_manager.py`)

`process_exits` looks for the first bar after its entry that touches the stop or the target of a trade, and
`_record_exit` tells the trackers about it. The manager holds references to the trackers, so they are
passed along as `Trackers`, and the adapter reference that it got when it was built is an `AdapterRef`.
Excursions, notifications, streaks and audit lines are left out.
-/

namespace PearlAlgo
open Py Coop

abbrev AdapterSys : Type := Sys World Answer Returned Call EnvEvent

/-- The objects that an exit is recorded in. No code reads `exits`, the exits that `track_exit` recorded
since the last daily reset of the adapter. -/
structure Trackers where
  store : SignalStore
  breaker : Option TradingCircuitBreaker
  executionAdapter : Option AdapterSys
  exits : List Performance := []

def Trackers.trackExit (signalId : String) (exitPrice : Number) (exitReason : String) (exitTime : ℚ) (x : Trackers) :
    Option Performance × Trackers :=
  let (perf, store) := x.store.trackExit signalId exitPrice exitReason exitTime
  (perf, { x with store, exits := x.exits ++ perf.toList })

/-- The object behind a reference to an adapter. -/
inductive AdapterRef
  | executionAdapter
deriving DecidableEq

inductive Tiebreak
  | stopLoss
  | takeProfit
deriving DecidableEq

/-- A row of the bar data, the timestamp in UTC; a missing `close` column reads as zero. -/
structure Bar where
  timestamp : ℚ
  high : Number
  low : Number
  close : Number := .fin 0

/-- `s.fillna(close)` -/
def fillNa (x close : Number) : Number := if x = .nan then close else x

/-- Eastern wall clock and UTC. A wall clock time that a clock change skips or repeats has no UTC. -/
structure Zone where
  toUtc : ℚ → Option ℚ
  ofUtc : ℚ → ℚ

structure VirtualExit where
  price : Number
  reason : String
  time : ℚ
deriving DecidableEq

/-- `setOrder` is the order in which `list` yields a set. -/
structure VirtualTradeManager where
  executionAdapter : Option AdapterRef
  virtualPnlEnabled : Bool := true
  tiebreak : Tiebreak := .stopLoss
  zone : Zone
  setOrder : List String → List String := id
  processedExits : List String := []

/-- The latest record of every signal, in the order in which the signals first come up. -/
def latestById (recent : List SignalRecord) : Dict String SignalRecord :=
  recent.foldl (fun d r => if r.signalId = "" then d else d.set r.signalId r) .empty

/-- The signal dictionaries of the `generated` records. -/
def signalDataMap (recent : List SignalRecord) : Dict String SignalData :=
  recent.foldl (fun d r =>
    match r.signal with
    | some sig => if r.status = .generated ∧ r.signalId ≠ "" then d.set r.signalId sig else d
    | none => d) .empty

theorem latestById_get? (recent : List SignalRecord) (k : String) :
    (latestById recent).get? k = if k = "" then none else recent.findRev? fun r => r.signalId = k := by
  induction recent using List.reverseRecOn with
  | nil =>
    split
    · rfl
    · rfl
  | append_singleton recent r ih =>
    unfold latestById at ih ⊢
    rw [List.foldl_append, List.foldl_cons, List.foldl_nil, findRev?_concat]
    by_cases hr : r.signalId = ""
    · rw [if_pos hr, ih]
      split
      · rfl
      next hk =>
        have hne : ¬ r.signalId = k := fun h => hk (h.symm.trans hr)
        simp [hne]
    · rw [if_neg hr, Dict.get?_set, ih]
      by_cases hk : k = r.signalId
      · subst hk
        simp [hr]
      · simp [hk, Ne.symm hk]

theorem latestById_signalId {recent : List SignalRecord} {k : String} {r : SignalRecord}
    (h : (latestById recent).get? k = some r) : r.signalId = k ∧ r ∈ recent := by
  rw [latestById_get?] at h
  split at h
  · cases h
  · rw [List.findRev?_eq_find?_reverse] at h
    exact ⟨by simpa using List.find?_some h, List.mem_reverse.1 (List.mem_of_find?_eq_some h)⟩

theorem latestById_ids (recent : List SignalRecord) :
    (latestById recent).values.map SignalRecord.signalId = (latestById recent).keys := by
  unfold Dict.values Dict.keys
  rw [List.map_map]
  refine List.map_congr_left fun e he => ?_
  exact (latestById_signalId (Dict.get?_eq_some.2 he)).1

theorem latestById_length (recent : List SignalRecord) : (latestById recent).values.length ≤ recent.length := by
  have hsub : (latestById recent).keys ⊆ recent.map SignalRecord.signalId := by
    intro k hk
    obtain ⟨⟨k', r⟩, he, rfl⟩ := List.mem_map.1 hk
    obtain ⟨hid, hmem⟩ := latestById_signalId (Dict.get?_eq_some.2 he)
    exact List.mem_map.2 ⟨r, hmem, hid⟩
  have hle := (List.subperm_of_subset (latestById recent).nodup hsub).length_le
  rw [List.length_map] at hle
  unfold Dict.values
  rw [List.length_map] at hle ⊢
  exact hle

theorem mem_latestById_values {recent : List SignalRecord} {r : SignalRecord} :
    r ∈ (latestById recent).values ↔ (latestById recent).get? r.signalId = some r := by
  constructor
  · intro hr
    obtain ⟨⟨k, r⟩, he, rfl⟩ := List.mem_map.1 hr
    have hget := Dict.get?_eq_some.2 he
    exact (latestById_signalId hget).1 ▸ hget
  · intro hget
    exact List.mem_map.2 ⟨_, Dict.get?_eq_some.1 hget, rfl⟩

/-! ### One trade -/

/-- The stop and the target of a trade, when both are positive or `nan`. -/
def SignalData.bracket (sig : SignalData) : Option (Number × Number) :=
  let stop := (orNum sig.stopLoss none).getD (.fin 0)
  let target := (orNum sig.takeProfit none).getD (.fin 0)
  if stop ≤ .fin 0 ∨ target ≤ .fin 0 then none else some (stop, target)

namespace Bar

def hitsTarget (direction : String) (target : Number) (b : Bar) : Bool :=
  if direction = "short" then fillNa b.low b.close ≤ target else target ≤ fillNa b.high b.close

def hitsStop (direction : String) (stop : Number) (b : Bar) : Bool :=
  if direction = "short" then stop ≤ fillNa b.high b.close else fillNa b.low b.close ≤ stop

def isValid (b : Bar) : Bool := .fin 0 < fillNa b.high b.close ∧ .fin 0 < fillNa b.low b.close

/-- The bar ends the trade: `exit_mask`. `entry` is the entry time in UTC, if there is one. -/
def exits (direction : String) (stop target : Number) (entry : Option ℚ) (b : Bar) : Bool :=
  (b.hitsTarget direction target || b.hitsStop direction stop) && entry.all (· < b.timestamp) && b.isValid

end Bar

namespace VirtualTradeManager

/-- `_check_single_trade_exit`; an entry time without UTC raises, which `process_exits` skips as well. -/
def checkSingleTradeExit (r : SignalRecord) (bars : List Bar) (vtm : VirtualTradeManager) : Option VirtualExit := do
  let sig := r.signal.getD {}
  let (stop, target) ← sig.bracket
  let entry ← match r.entryTime with
    | none => some none
    | some t => (vtm.zone.toUtc t).map some
  let bar ← bars.find? (Bar.exits sig.side stop target entry)
  let atTarget : VirtualExit := ⟨target, "take_profit", vtm.zone.ofUtc bar.timestamp⟩
  let atStop : VirtualExit := ⟨stop, "stop_loss", vtm.zone.ofUtc bar.timestamp⟩
  if bar.hitsTarget sig.side target ∧ bar.hitsStop sig.side stop then
    some (match vtm.tiebreak with
      | .takeProfit => atTarget
      | .stopLoss => atStop)
  else if bar.hitsStop sig.side stop then some atStop
  else some atTarget

/-- The part of `_record_exit` after `track_exit` has recorded `perf`. -/
def notifyExit (cfg : ExecutionConfig) (sig : SignalData) (perf : Performance) (x : Trackers)
    (vtm : VirtualTradeManager) : Trackers :=
  let breaker := x.breaker.map fun cb => cb.recordShadowOutcome ⟨perf.isWin, perf.pnl⟩ sig.cbWouldBlock
  let executionAdapter :=
    match vtm.executionAdapter with
    | some .executionAdapter => x.executionAdapter.map ((machine cfg).fire (.updateDailyPnl perf.pnl))
    | none => x.executionAdapter
  { x with breaker, executionAdapter }

def recordExit (cfg : ExecutionConfig) (signalId : String) (sig : SignalData) (e : VirtualExit) (x : Trackers)
    (vtm : VirtualTradeManager) : Trackers :=
  let (perf, x) := x.trackExit signalId e.price e.reason e.time
  match perf with
  | none => x
  | some perf => vtm.notifyExit cfg sig perf x

/-- `_processed_exits.add`, with the cap on its size. -/
def markProcessed (signalId : String) (vtm : VirtualTradeManager) : VirtualTradeManager :=
  let marks := if signalId ∈ vtm.processedExits then vtm.processedExits else vtm.processedExits ++ [signalId]
  { vtm with processedExits := if 1000 < marks.length then lastN 500 (vtm.setOrder marks) else marks }

/-- One turn of the loop of `process_exits`. The signals of a dictionary differ, so `exited_this_cycle`
never skips one. -/
def processRecord (cfg : ExecutionConfig) (signals : Dict String SignalData) (bars : List Bar)
    (s : VirtualTradeManager × Trackers) (r : SignalRecord) : VirtualTradeManager × Trackers :=
  let (vtm, x) := s
  if r.status ≠ .entered ∨ r.signalId ∈ vtm.processedExits then s
  else
    let r := { r with signal := r.signal <|> signals.get? r.signalId }
    match vtm.checkSingleTradeExit r bars with
    | none => s
    | some e => (vtm.markProcessed r.signalId, vtm.recordExit cfg r.signalId (r.signal.getD {}) e x)

/-- `process_exits`; `bars` is `none` where the market data has no usable bars, and `recent` where the
signals cannot be read. -/
def processExits (cfg : ExecutionConfig) (bars : Option (List Bar)) (recent : Option (List SignalRecord))
    (vtm : VirtualTradeManager) (x : Trackers) : VirtualTradeManager × Trackers :=
  match vtm.virtualPnlEnabled, bars, recent with
  | true, some bars, some recent =>
    (latestById recent).values.foldl (processRecord cfg (signalDataMap recent) bars) (vtm, x)
  | _, _, _ => (vtm, x)

/-- What the turns of `process_exits` preserve, from what the two halves of a recorded exit preserve. -/
theorem processExits_invariant (I : VirtualTradeManager → Trackers → Prop) (cfg : ExecutionConfig)
    (hmark : ∀ vtm x signalId, I vtm x → I (vtm.markProcessed signalId) x)
    (htrack : ∀ vtm x signalId price reason time, I vtm x → I vtm (x.trackExit signalId price reason time).2)
    (hnotify : ∀ vtm x sig perf, I vtm x → I vtm (vtm.notifyExit cfg sig perf x))
    (bars : Option (List Bar)) (recent : Option (List SignalRecord)) (vtm : VirtualTradeManager) (x : Trackers)
    (h : I vtm x) : I (vtm.processExits cfg bars recent x).1 (vtm.processExits cfg bars recent x).2 := by
  have hrecord (vtm : VirtualTradeManager) (x : Trackers) (signalId : String) (sig : SignalData) (e : VirtualExit)
      (h : I vtm x) : I vtm (vtm.recordExit cfg signalId sig e x) := by
    have ht := htrack vtm x signalId e.price e.reason e.time h
    unfold recordExit
    dsimp only
    split
    · exact ht
    · exact hnotify _ _ _ _ ht
  have hturn (signals : Dict String SignalData) (bars : List Bar) (s : VirtualTradeManager × Trackers)
      (r : SignalRecord) (h : I s.1 s.2) :
      I (processRecord cfg signals bars s r).1 (processRecord cfg signals bars s r).2 := by
    unfold processRecord
    dsimp only
    split
    · exact h
    · split
      · exact h
      · exact hmark _ _ _ (hrecord _ _ _ _ _ h)
  have hloop (signals : Dict String SignalData) (bars : List Bar) (records : List SignalRecord) :
      ∀ s : VirtualTradeManager × Trackers, I s.1 s.2 →
        I (records.foldl (processRecord cfg signals bars) s).1 (records.foldl (processRecord cfg signals bars) s).2 := by
    induction records with
    | nil => exact fun s h => h
    | cons r records ih => exact fun s h => ih _ (hturn signals bars s r h)
  unfold processExits
  split
  · exact hloop _ _ _ _ h
  · exact h

end VirtualTradeManager

end PearlAlgo
