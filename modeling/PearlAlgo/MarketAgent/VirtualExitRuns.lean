import PearlAlgo.Lts.Reach
import PearlAlgo.MarketAgent.PositionTracker

/-!
# Runs of virtual trade exits (`market_agent/virtual_trade_manager.py`)

`process_exits` marks a trade as processed whether or not `track_exit` recorded its exit, and the set of
marks is cut to 500 once it grows beyond 1000. An `ExitRun` keeps the exits that the manager has offered to
`track_exit`, each with its answer.
-/

namespace PearlAlgo
open Py Lts

structure ExitOffer where
  signalId : String
  recorded : Bool
deriving DecidableEq

structure ExitRun where
  vtm : VirtualTradeManager
  trackers : Trackers
  offers : List ExitOffer := []

/-- The exit that a turn of `process_exits` passes to `track_exit`. -/
def VirtualTradeManager.offer (signals : Dict String SignalData) (bars : List Bar) (r : SignalRecord) (store : SignalStore)
    (vtm : VirtualTradeManager) : Option ExitOffer :=
  if r.status ≠ .entered ∨ r.signalId ∈ vtm.processedExits then none
  else (vtm.checkSingleTradeExit (r.withSignal signals) bars).map fun e =>
    ⟨r.signalId, (store.trackExit r.signalId e.price e.reason e.time).1.isSome⟩

namespace ExitRun

/-- A turn of `process_exits`, with its offer. -/
def turn (cfg : ExecutionConfig) (signals : Dict String SignalData) (bars : List Bar) (s : ExitRun) (r : SignalRecord) :
    ExitRun :=
  let (vtm, trackers) := VirtualTradeManager.processRecord cfg signals bars (s.vtm, s.trackers) r
  ⟨vtm, trackers, s.offers ++ (s.vtm.offer signals bars r s.trackers.store).toList⟩

/-- `process_exits`, with its offers. -/
def cycle (cfg : ExecutionConfig) (bars : Option (List Bar)) (recent : Option (List SignalRecord)) (s : ExitRun) : ExitRun :=
  match s.vtm.virtualPnlEnabled, bars, recent with
  | true, some bars, some recent => (latestById recent).values.foldl (turn cfg (signalDataMap recent) bars) s
  | _, _, _ => s

def recordedIds (s : ExitRun) : List String := (s.offers.filter ExitOffer.recorded).map ExitOffer.signalId

def lastOffer (signalId : String) (s : ExitRun) : Option ExitOffer := s.offers.findRev? fun o => o.signalId = signalId

theorem foldl_turn (cfg : ExecutionConfig) (signals : Dict String SignalData) (bars : List Bar) (rs : List SignalRecord)
    (s : ExitRun) :
    ((rs.foldl (turn cfg signals bars) s).vtm, (rs.foldl (turn cfg signals bars) s).trackers) =
      rs.foldl (VirtualTradeManager.processRecord cfg signals bars) (s.vtm, s.trackers) := by
  induction rs generalizing s with
  | nil => rfl
  | cons r rs ih => exact ih (s.turn cfg signals bars r)

/-- The offers aside, a cycle is `process_exits`. -/
theorem cycle_processExits (cfg : ExecutionConfig) (bars : Option (List Bar)) (recent : Option (List SignalRecord))
    (s : ExitRun) :
    ((s.cycle cfg bars recent).vtm, (s.cycle cfg bars recent).trackers) =
      s.vtm.processExits cfg bars recent s.trackers := by
  unfold cycle VirtualTradeManager.processExits
  rcases s.vtm.virtualPnlEnabled with _ | _
  · rfl
  · rcases bars with _ | bars
    · rfl
    · rcases recent with _ | recent
      · rfl
      · exact foldl_turn cfg _ bars _ s

end ExitRun

/-- What happens to a run: a cycle, or a write of another party to the stores. -/
inductive ExitAct
  | cycle (bars : Option (List Bar)) (recent : Option (List SignalRecord))
  | write (store : SignalStore)

def ExitAct.apply (cfg : ExecutionConfig) (s : ExitRun) : ExitAct → ExitRun
  | .cycle bars recent => s.cycle cfg bars recent
  | .write store => { s with trackers := { s.trackers with store } }

/-- The latest record of the trade is `entered`, and a bar after its entry touches its stop or its target. -/
def VirtualTradeManager.Touches (bars : List Bar) (recent : List SignalRecord) (signalId : String) (vtm : VirtualTradeManager) :
    Prop :=
  ∃ r, (latestById recent).get? signalId = some r ∧ r.status = .entered ∧
    (vtm.checkSingleTradeExit (r.withSignal (signalDataMap recent)) bars).isSome = true

/-- No exit is dropped: a trade whose exit was rejected last time is offered again by the next cycle that finds
it touched, and no trade is recorded twice. -/
structure ExitRun.Kept (cfg : ExecutionConfig) (s : ExitRun) : Prop where
  offered : ∀ signalId, s.lastOffer signalId = some ⟨signalId, false⟩ → s.vtm.virtualPnlEnabled = true →
    ∀ bars recent, s.vtm.Touches bars recent signalId →
      ∃ o ∈ (s.cycle cfg (some bars) (some recent)).offers.drop s.offers.length, o.signalId = signalId
  once : s.recordedIds.Nodup

/-! ### The stores -/

namespace SignalStore

def ReadsExited (signalId : String) (st : SignalStore) : Prop :=
  ∃ r ∈ st.getSignalRecord signalId, r.status = .exited

/-- An exit written for the signal is read back: events are appended, and a rewrite reaches the only line. -/
def KeepsExit (signalId : String) (st : SignalStore) : Prop :=
  st.events.isSome = true ∨ (st.lines.countP fun r => r.signalId = signalId) = 1

variable {x y : String} {f : SignalRecord → SignalRecord} {lines : List SignalRecord} {st : SignalStore}

theorem scan_skip (h : (lines.countP fun r => r.signalId = x) = 0) (b : Option SignalRecord) :
    lines.foldl (scanLine x) b = b := by
  induction lines with
  | nil => rfl
  | cons r lines ih =>
    have hne := List.countP_eq_zero.1 h
    have hr : r.signalId ≠ x := by simpa using hne r (List.mem_cons_self ..)
    rw [List.foldl_cons, show scanLine x b r = b from if_pos hr]
    exact ih (List.countP_eq_zero.2 fun r' hr' => hne r' (List.mem_cons_of_mem _ hr'))

theorem scan_rewriteFirst_ne (hf : ∀ r, (f r).signalId = x) (hxy : y ≠ x) (b : Option SignalRecord) :
    (rewriteFirst x f lines).foldl (scanLine y) b = lines.foldl (scanLine y) b := by
  induction lines generalizing b with
  | nil => rfl
  | cons r lines ih =>
    unfold rewriteFirst
    split
    next hr =>
      have hy : r.signalId ≠ y := fun h => hxy (h.symm.trans hr)
      have hfy : (f r).signalId ≠ y := fun h => hxy (h.symm.trans (hf r))
      rw [List.foldl_cons, List.foldl_cons, show scanLine y b (f r) = b from if_pos hfy,
        show scanLine y b r = b from if_pos hy]
    · exact ih _

theorem scan_rewriteFirst (hf : ∀ r, (f r).signalId = x ∧ (f r).statusChange = r.statusChange)
    (h : (lines.countP fun r => r.signalId = x) = 1) :
    (rewriteFirst x f lines).foldl (scanLine x) none = (lines.foldl (scanLine x) none).map f := by
  induction lines with
  | nil => cases h
  | cons r lines ih =>
    unfold rewriteFirst
    by_cases hr : r.signalId = x
    · have hrest : (lines.countP fun r => r.signalId = x) = 0 := by
        rw [List.countP_cons_of_pos (by simpa using hr)] at h
        omega
      rw [if_pos hr, List.foldl_cons, List.foldl_cons, scan_skip hrest, scan_skip hrest]
      have hfr : (f r).signalId = x := (hf r).1
      unfold scanLine
      rw [if_neg (not_not.2 hr), if_neg (not_not.2 hfr), (hf r).2]
      split
      · rfl
      · rfl
    · have hrest : (lines.countP fun r => r.signalId = x) = 1 := by
        rwa [List.countP_cons_of_neg (by simpa using hr)] at h
      rw [if_neg hr, List.foldl_cons, List.foldl_cons, show scanLine x none r = none from if_pos hr]
      exact ih hrest

/-- The record of the signal in `signals.jsonl`. -/
def lineRecord (signalId : String) (st : SignalStore) : Option SignalRecord :=
  (st.lines.foldl (scanLine signalId) none).map fun r => { r with statusChange := false }

theorem getSignalRecord_off (h : st.events = none) : st.getSignalRecord x = st.lineRecord x := by
  unfold getSignalRecord
  rw [h]
  rfl

theorem getSignalRecord_on {evs : List SignalRecord} (h : st.events = some evs) :
    st.getSignalRecord x = ((evs.findRev? fun r => r.signalId = x) <|> st.lineRecord x) := by
  unfold getSignalRecord
  simp only [h, Option.bind_some]
  generalize evs.findRev? (fun r => decide (r.signalId = x)) = event
  rcases event with _ | r
  · rfl
  · rfl

theorem updateSignalStatus_off {change : SignalRecord} (h : st.events = none) :
    (st.updateSignalStatus change none).events = none ∧ (st.updateSignalStatus change none).lines =
      rewriteFirst change.signalId (fun r => r.update change) st.lines := by
  unfold updateSignalStatus
  rw [h]
  exact ⟨rfl, rfl⟩

theorem updateSignalStatus_on {change : SignalRecord} {evs : List SignalRecord} (h : st.events = some evs) :
    ∃ payload : SignalRecord, payload.signalId = change.signalId ∧ payload.status = change.status ∧
      (st.updateSignalStatus change none).events = some (evs ++ [payload]) ∧
      (st.updateSignalStatus change none).lines = st.lines ++ [{ change with statusChange := true }] := by
  unfold updateSignalStatus
  rw [h]
  have hpayload (o : Option SignalRecord) : (o.elim change fun r => r.update change).signalId = change.signalId ∧
      (o.elim change fun r => r.update change).status = change.status := by
    rcases o with _ | r
    · exact ⟨rfl, rfl⟩
    · exact ⟨rfl, rfl⟩
  exact ⟨_, (hpayload _).1, (hpayload _).2, rfl, rfl⟩

/-- The record that an update leaves for another signal. -/
theorem updateSignalStatus_ne {change : SignalRecord} (hx : change.signalId = x) (hxy : y ≠ x) :
    (st.updateSignalStatus change none).getSignalRecord y = st.getSignalRecord y := by
  subst hx
  rcases hevents : st.events with _ | evs
  · obtain ⟨hevents', hlines⟩ := @updateSignalStatus_off st change hevents
    rw [getSignalRecord_off hevents, getSignalRecord_off hevents']
    unfold lineRecord
    have hf : ∀ r : SignalRecord, (r.update change).signalId = change.signalId := fun r => rfl
    rw [hlines, scan_rewriteFirst_ne hf hxy]
  · obtain ⟨payload, hid, -, hevents', hlines⟩ := @updateSignalStatus_on st change evs hevents
    have hpayload : payload.signalId ≠ y := fun h => hxy (h.symm.trans hid)
    have hline : scanLine y (st.lines.foldl (scanLine y) none) { change with statusChange := true } =
        st.lines.foldl (scanLine y) none := if_pos (Ne.symm hxy)
    rw [getSignalRecord_on hevents, getSignalRecord_on hevents', findRev?_concat, if_neg (by simpa using hpayload)]
    unfold lineRecord
    rw [hlines, List.foldl_append, List.foldl_cons, List.foldl_nil, hline]

/-- An exit that the store keeps is read back. -/
theorem updateSignalStatus_exited {change : SignalRecord} (hx : change.signalId = x) (hstatus : change.status = .exited)
    (hline : change.statusChange = false) (hkeeps : st.KeepsExit x) (hrec : (st.getSignalRecord x).isSome = true) :
    (st.updateSignalStatus change none).ReadsExited x := by
  subst hx
  rcases hevents : st.events with _ | evs
  · have hone : (st.lines.countP fun r => r.signalId = change.signalId) = 1 := by
      rcases hkeeps with hsome | hone
      · rw [hevents] at hsome
        cases hsome
      · exact hone
    rw [getSignalRecord_off hevents, lineRecord, Option.isSome_map] at hrec
    obtain ⟨r, hr⟩ := Option.isSome_iff_exists.1 hrec
    obtain ⟨hevents', hlines⟩ := @updateSignalStatus_off st change hevents
    have hf : ∀ r : SignalRecord, (r.update change).signalId = change.signalId ∧
        (r.update change).statusChange = r.statusChange := by
      intro r
      simp [SignalRecord.update, hline]
    refine ⟨{ r.update change with statusChange := false }, ?_, hstatus⟩
    rw [getSignalRecord_off hevents', lineRecord, hlines, scan_rewriteFirst hf hone, hr]
    rfl
  · obtain ⟨payload, hid, hpayload, hevents', -⟩ := @updateSignalStatus_on st change evs hevents
    refine ⟨payload, ?_, hpayload.trans hstatus⟩
    rw [getSignalRecord_on hevents', findRev?_concat, if_pos (by simpa using hid)]
    rfl

/-- What `track_exit` writes when it records an exit. -/
theorem trackExit_writes {reason : String} {price : Number} {time : ℚ}
    (h : (st.trackExit x price reason time).1.isSome = true) :
    ∃ change performance, change.signalId = x ∧ change.status = .exited ∧ change.statusChange = false ∧
      (st.trackExit x price reason time).2 = { st.updateSignalStatus change none with performance } := by
  obtain ⟨⟨r, hr, hopen, hentry⟩, hprice⟩ := trackExit_isSome.1 h
  obtain ⟨entry, hentry⟩ := Option.isSome_iff_exists.1 hentry
  obtain ⟨exit, hexit⟩ := Option.isSome_iff_exists.1 hprice
  unfold SignalRecord.entryPrice at hentry
  unfold trackExit
  rw [hr]
  dsimp only
  rw [if_neg hopen, hentry, hexit]
  exact ⟨_, _, rfl, rfl, rfl, rfl⟩

theorem trackExit_ne {reason : String} {price : Number} {time : ℚ} (hxy : y ≠ x) :
    (st.trackExit x price reason time).2.getSignalRecord y = st.getSignalRecord y := by
  rcases h : (st.trackExit x price reason time).1 with _ | perf
  · rw [trackExit_none h]
  · obtain ⟨change, performance, hx, -, -, hstore⟩ := trackExit_writes (by rw [h]; rfl)
    rw [hstore]
    exact updateSignalStatus_ne hx hxy

theorem trackExit_exited {reason : String} {price : Number} {time : ℚ}
    (h : (st.trackExit x price reason time).1.isSome = true) (hkeeps : st.KeepsExit x) :
    (st.trackExit x price reason time).2.ReadsExited x := by
  obtain ⟨change, performance, hx, hstatus, hline, hstore⟩ := trackExit_writes h
  obtain ⟨r, hr, -⟩ := (trackExit_isSome.1 h).1
  rw [hstore]
  exact updateSignalStatus_exited hx hstatus hline hkeeps (Option.isSome_iff_exists.2 ⟨r, hr⟩)

theorem not_canExit_of_readsExited (h : st.ReadsExited x) : ¬ st.CanExit x := by
  rintro ⟨r, hr, hopen, -⟩
  obtain ⟨r', hr', hexited⟩ := h
  obtain rfl := Option.some.inj (hr'.symm.trans hr)
  exact hopen hexited

/-- A recorded exit stays readable through every later `track_exit`. -/
theorem ReadsExited.trackExit {reason : String} {price : Number} {time : ℚ} (h : st.ReadsExited y) :
    (st.trackExit x price reason time).2.ReadsExited y := by
  by_cases hxy : y = x
  · subst hxy
    have hnone : (st.trackExit y price reason time).1 = none := by
      rw [← Option.not_isSome_iff_eq_none, trackExit_isSome]
      exact fun hrecorded => not_canExit_of_readsExited h hrecorded.1
    rwa [trackExit_none hnone]
  · unfold ReadsExited
    rwa [trackExit_ne hxy]

end SignalStore

/-! ### The marks -/

namespace VirtualTradeManager
variable {vtm : VirtualTradeManager} {x : String}

theorem mem_markProcessed (hset : ∀ l, ∀ k ∈ vtm.setOrder l, k ∈ l) {k : String}
    (h : k ∈ (vtm.markProcessed x).processedExits) : k ∈ vtm.processedExits ∨ k = x := by
  have hmarks : ∀ k ∈ if x ∈ vtm.processedExits then vtm.processedExits else vtm.processedExits ++ [x],
      k ∈ vtm.processedExits ∨ k = x := by
    intro k hk
    split at hk
    · exact .inl hk
    · simpa using hk
  unfold markProcessed at h
  dsimp only at h
  generalize (if x ∈ vtm.processedExits then vtm.processedExits else vtm.processedExits ++ [x]) = marks at h hmarks
  split at h
  · exact hmarks k (hset _ _ (mem_of_mem_lastN h))
  · exact hmarks k h

end VirtualTradeManager

namespace ExitRun
variable {cfg : ExecutionConfig} {signals : Dict String SignalData} {bars : List Bar} {s : ExitRun} {r : SignalRecord}

/-- A turn that offers nothing, and one that offers an exit. -/
theorem turn_cases (cfg : ExecutionConfig) (signals : Dict String SignalData) (bars : List Bar) (s : ExitRun)
    (r : SignalRecord) :
    s.turn cfg signals bars r = s ∧ s.vtm.offer signals bars r s.trackers.store = none ∨
      ∃ e, r.status = .entered ∧ r.signalId ∉ s.vtm.processedExits ∧
        s.vtm.checkSingleTradeExit (r.withSignal signals) bars = some e ∧
        (s.turn cfg signals bars r).vtm = s.vtm.markProcessed r.signalId ∧
        (s.turn cfg signals bars r).trackers.store = (s.trackers.store.trackExit r.signalId e.price e.reason e.time).2 ∧
        (s.turn cfg signals bars r).offers = s.offers ++
          [⟨r.signalId, (s.trackers.store.trackExit r.signalId e.price e.reason e.time).1.isSome⟩] := by
  by_cases hturn : r.status ≠ .entered ∨ r.signalId ∈ s.vtm.processedExits
  · have hoffer : s.vtm.offer signals bars r s.trackers.store = none := if_pos hturn
    refine .inl ⟨?_, hoffer⟩
    unfold turn VirtualTradeManager.processRecord
    dsimp only
    rw [hoffer, if_pos hturn, Option.toList_none, List.append_nil]
  · have hoffer : s.vtm.offer signals bars r s.trackers.store = _ := if_neg hturn
    unfold turn VirtualTradeManager.processRecord
    dsimp only
    rw [hoffer, if_neg hturn]
    rw [not_or, not_not] at hturn
    have hsame : VirtualTradeManager.checkSingleTradeExit { r with signal := r.signal <|> signals.get? r.signalId } bars
        s.vtm = s.vtm.checkSingleTradeExit (r.withSignal signals) bars := rfl
    rw [hsame]
    rcases he : s.vtm.checkSingleTradeExit (r.withSignal signals) bars with _ | e
    · exact .inl ⟨by rw [Option.map_none, Option.toList_none, List.append_nil], rfl⟩
    · refine .inr ⟨e, hturn.1, hturn.2, rfl, rfl, ?_, rfl⟩
      unfold VirtualTradeManager.recordExit Trackers.trackExit
      dsimp only
      rcases (s.trackers.store.trackExit r.signalId e.price e.reason e.time).1 with _ | perf
      · rfl
      · rfl

/-- No exit is lost in the offer of the exit `e`: `track_exit` takes it, or the cap drops its mark at once, and a
trade that was recorded loses its mark only where it reads as exited. -/
structure KeepsOffer (r : SignalRecord) (e : VirtualExit) (s : ExitRun) : Prop where
  taken : (s.trackers.store.CanExit r.signalId ∧ (SignalStore.validPrice e.price).isSome = true) ∨
    r.signalId ∉ (s.vtm.markProcessed r.signalId).processedExits
  readable : s.trackers.store.CanExit r.signalId ∧ (SignalStore.validPrice e.price).isSome = true →
    r.signalId ∉ (s.vtm.markProcessed r.signalId).processedExits → s.trackers.store.KeepsExit r.signalId
  dropped : ∀ k ∈ s.recordedIds, k ∈ s.vtm.processedExits → k ∉ (s.vtm.markProcessed r.signalId).processedExits →
    s.trackers.store.ReadsExited k

def TurnKeeps (signals : Dict String SignalData) (bars : List Bar) (s : ExitRun) (r : SignalRecord) : Prop :=
  ∀ e, r.status = .entered → r.signalId ∉ s.vtm.processedExits →
    s.vtm.checkSingleTradeExit (r.withSignal signals) bars = some e → s.KeepsOffer r e

/-- Every turn of a cycle keeps its offer, and a write of another party leaves the unmarked recorded trades exited. -/
def ActKeeps (cfg : ExecutionConfig) (s : ExitRun) : ExitAct → Prop
  | .cycle bars recent => ∀ bs ∈ bars, ∀ rs ∈ recent, s.vtm.virtualPnlEnabled = true →
      Along (turn cfg (signalDataMap rs) bs) (TurnKeeps (signalDataMap rs) bs) s (latestById rs).values
  | .write store => ∀ k ∈ s.recordedIds, k ∉ s.vtm.processedExits → store.ReadsExited k

/-- The invariant of the runs that keep their offers. -/
structure Settled (s : ExitRun) : Prop where
  retry : ∀ k, s.lastOffer k = some ⟨k, false⟩ → k ∉ s.vtm.processedExits
  settled : ∀ k ∈ s.recordedIds, k ∈ s.vtm.processedExits ∨ s.trackers.store.ReadsExited k
  once : s.recordedIds.Nodup
  set : ∀ l, ∀ k ∈ s.vtm.setOrder l, k ∈ l

theorem recordedIds_append {s' : ExitRun} {x : String} {recorded : Bool} (h : s'.offers = s.offers ++ [⟨x, recorded⟩]) :
    s'.recordedIds = s.recordedIds ++ if recorded then [x] else [] := by
  unfold recordedIds
  rw [h, List.filter_append, List.map_append]
  rcases recorded with _ | _
  · rfl
  · rfl

theorem settled_turn (h : s.Settled) (hkeeps : TurnKeeps signals bars s r) : (s.turn cfg signals bars r).Settled := by
  obtain ⟨hsame, -⟩ | ⟨e, hentered, hfresh, he, hvtm, hstore, hoffers⟩ := turn_cases cfg signals bars s r
  · rw [hsame]
    exact h
  · have hoffer := hkeeps e hentered hfresh he
    have hids := recordedIds_append hoffers
    generalize hs' : s.turn cfg signals bars r = s' at *
    have hread : ∀ k, s.trackers.store.ReadsExited k → s'.trackers.store.ReadsExited k := by
      intro k hk
      rw [hstore]
      exact hk.trackExit
    -- an unmarked trade that reads as exited is not recorded again
    have hnew : (s.trackers.store.trackExit r.signalId e.price e.reason e.time).1.isSome = true →
        r.signalId ∉ s.recordedIds := by
      intro hrecorded hmem
      rcases h.settled _ hmem with hmark | hexited
      · exact hfresh hmark
      · exact SignalStore.not_canExit_of_readsExited hexited (SignalStore.trackExit_isSome.1 hrecorded).1
    refine ⟨?_, ?_, ?_, ?_⟩
    · intro k hk hmark
      rw [hvtm] at hmark
      unfold lastOffer at hk
      rw [hoffers, findRev?_concat] at hk
      by_cases hkr : r.signalId = k
      · subst hkr
        rw [if_pos (by simp)] at hk
        have hrejected : (s.trackers.store.trackExit r.signalId e.price e.reason e.time).1.isSome = false := by simpa using hk
        rcases hoffer.taken with htaken | hdropped
        · rw [SignalStore.trackExit_isSome.2 htaken] at hrejected
          cases hrejected
        · exact hdropped hmark
      · rw [if_neg (by simpa using hkr)] at hk
        rcases VirtualTradeManager.mem_markProcessed h.set hmark with hold | hown
        · exact h.retry k hk hold
        · exact hkr hown.symm
    · intro k hk
      rw [hids, List.mem_append] at hk
      rw [hvtm]
      by_cases hmark : k ∈ (s.vtm.markProcessed r.signalId).processedExits
      · exact .inl hmark
      · refine .inr ?_
        rcases hk with hold | hown
        · rcases h.settled k hold with hmarked | hexited
          · exact hread k (hoffer.dropped k hold hmarked hmark)
          · exact hread k hexited
        · split at hown
          next hrecorded =>
            obtain rfl := List.mem_singleton.1 hown
            have htaken := SignalStore.trackExit_isSome.1 hrecorded
            rw [hstore]
            exact SignalStore.trackExit_exited hrecorded (hoffer.readable htaken hmark)
          · cases hown
    · rw [hids]
      split
      next hrecorded => exact List.nodup_append.2 ⟨h.once, List.nodup_singleton _, by
          intro a ha b hb hab
          exact hnew hrecorded (List.mem_singleton.1 hb ▸ hab ▸ ha)⟩
      · rw [List.append_nil]
        exact h.once
    · intro l k hk
      rw [hvtm] at hk
      exact h.set l k hk

theorem settled_apply (h : s.Settled) {a : ExitAct} (ha : s.ActKeeps cfg a) : (a.apply cfg s).Settled := by
  rcases a with ⟨bars, recent⟩ | store
  · show (s.cycle cfg bars recent).Settled
    unfold cycle
    rcases henabled : s.vtm.virtualPnlEnabled with _ | _
    · exact h
    · rcases bars with _ | bs
      · exact h
      · rcases recent with _ | rs
        · exact h
        · exact (ha bs rfl rs rfl henabled).invariant (fun s r hs hr => settled_turn hs hr) h
  · refine ⟨h.retry, ?_, h.once, h.set⟩
    intro k hk
    by_cases hmark : k ∈ s.vtm.processedExits
    · exact .inl hmark
    · exact .inr (ha k hk hmark)

/-- The turns of a cycle only add offers. -/
theorem foldl_offers (rs : List SignalRecord) (s : ExitRun) :
    s.offers <+: (rs.foldl (turn cfg signals bars) s).offers := by
  induction rs generalizing s with
  | nil => exact List.prefix_rfl
  | cons r rs ih => exact (List.prefix_append _ _).trans (ih (s.turn cfg signals bars r))

/-- An unmarked trade that is touched is offered in its turn. -/
theorem foldl_offered (rs : List SignalRecord) (s : ExitRun) (hset : ∀ l, ∀ k ∈ s.vtm.setOrder l, k ∈ l)
    (hnodup : (rs.map SignalRecord.signalId).Nodup) (hr : r ∈ rs) (hentered : r.status = .entered)
    (hcheck : (s.vtm.checkSingleTradeExit (r.withSignal signals) bars).isSome = true)
    (hfresh : r.signalId ∉ s.vtm.processedExits) :
    ∃ o ∈ (rs.foldl (turn cfg signals bars) s).offers.drop s.offers.length, o.signalId = r.signalId := by
  induction rs generalizing s with
  | nil => cases hr
  | cons r' rs ih =>
    rw [List.map_cons, List.nodup_cons] at hnodup
    rw [List.foldl_cons]
    rcases List.mem_cons.1 hr with rfl | hr
    · obtain ⟨-, hnone⟩ | ⟨e, -, -, -, -, -, hoffers⟩ := turn_cases cfg signals bars s r
      · unfold VirtualTradeManager.offer at hnone
        rw [if_neg (by simp [hentered, hfresh]), Option.map_eq_none_iff] at hnone
        rw [hnone] at hcheck
        cases hcheck
      · obtain ⟨later, hlater⟩ := @foldl_offers cfg signals bars rs (s.turn cfg signals bars r)
        rw [← hlater, hoffers, List.append_assoc, List.drop_left]
        exact ⟨_, List.mem_append_left _ (List.mem_singleton_self _), rfl⟩
    · have hne : r.signalId ≠ r'.signalId := fun h => hnodup.1 (h ▸ List.mem_map_of_mem hr)
      obtain ⟨hsame, -⟩ | ⟨e, -, -, -, hvtm, -, hoffers⟩ := turn_cases cfg signals bars s r'
      · rw [hsame]
        exact ih s hset hnodup.2 hr hcheck hfresh
      · have hfresh' : r.signalId ∉ (s.turn cfg signals bars r').vtm.processedExits := by
          rw [hvtm]
          intro hmark
          rcases VirtualTradeManager.mem_markProcessed hset hmark with hold | hown
          · exact hfresh hold
          · exact hne hown
        obtain ⟨o, ho, hid⟩ := ih (s.turn cfg signals bars r') (by rw [hvtm]; exact hset) hnodup.2 hr
          (by rw [hvtm]; exact hcheck) hfresh'
        refine ⟨o, ?_, hid⟩
        have hlen : s.offers.length ≤ (s.turn cfg signals bars r').offers.length := by
          rw [hoffers, List.length_append]
          omega
        exact List.drop_subset_drop_left _ hlen ho

theorem Settled.kept (h : s.Settled) (cfg : ExecutionConfig) : s.Kept cfg := by
  refine ⟨?_, h.once⟩
  rintro k hrejected henabled bars recent ⟨r, hr, hentered, hcheck⟩
  obtain ⟨rfl, -⟩ := latestById_signalId hr
  have hnodup : ((latestById recent).values.map SignalRecord.signalId).Nodup := by
    rw [latestById_ids]
    exact (latestById recent).nodup
  have hcycle : s.cycle cfg (some bars) (some recent) =
      (latestById recent).values.foldl (turn cfg (signalDataMap recent) bars) s := by
    unfold cycle
    rw [henabled]
  rw [hcycle]
  exact foldl_offered _ s h.set hnodup (mem_latestById_values.2 hr) hentered hcheck (h.retry _ hrejected)

end ExitRun

/-- A run from a manager without offers that keeps every offer drops no exit and records none twice. -/
theorem exits_kept (cfg : ExecutionConfig) {s : ExitRun} (hstart : s.offers = []) (hset : ∀ l, (s.vtm.setOrder l).Perm l)
    {acts : List ExitAct} (h : Along (ExitAct.apply cfg) (ExitRun.ActKeeps cfg) s acts) :
    (acts.foldl (ExitAct.apply cfg) s).Kept cfg := by
  have hsettled : s.Settled := by
    refine ⟨?_, ?_, ?_, fun l k hk => (hset l).subset hk⟩
    · intro k hk
      unfold ExitRun.lastOffer at hk
      rw [hstart] at hk
      cases hk
    · intro k hk
      unfold ExitRun.recordedIds at hk
      rw [hstart] at hk
      cases hk
    · unfold ExitRun.recordedIds
      rw [hstart]
      exact List.nodup_nil
  exact (h.invariant (fun s a hs ha => ExitRun.settled_apply hs ha) hsettled).kept cfg

/-- The manager takes the profit of the trade in its first cycle. -/
theorem exits_kept_recorded :
    ([.cycle (some [minuteBar 111 99]) (some [enteredTrade])].foldl (ExitAct.apply sampleConfig)
      { vtm := winterManager, trackers := tradeStore }).Kept sampleConfig := by
  refine exits_kept sampleConfig rfl (fun l => .refl l) ⟨?_, trivial⟩
  rintro bs hbs rs hrs -
  obtain rfl := Option.some.inj hbs
  obtain rfl := Option.some.inj hrs
  have hvalues : (latestById [enteredTrade]).values = [enteredTrade] := by decide +kernel
  rw [hvalues]
  refine ⟨?_, trivial⟩
  intro e _ _ he
  have hexit : winterManager.checkSingleTradeExit (enteredTrade.withSignal (signalDataMap [enteredTrade]))
      [minuteBar 111 99] = some ⟨.fin 110, "take_profit", 60⟩ := by decide +kernel
  obtain rfl := Option.some.inj (hexit.symm.trans he)
  have hmarked : enteredTrade.signalId ∈ (winterManager.markProcessed enteredTrade.signalId).processedExits := by decide
  refine ⟨.inl ?_, fun _ hdropped => absurd hmarked hdropped, fun k hk => by cases hk⟩
  exact SignalStore.trackExit_isSome.1 (by decide +kernel :
    (tradeStore.store.trackExit enteredTrade.signalId (.fin 110) "take_profit" 60).1.isSome = true)

/-- The trade without its entry price, which `track_exit` needs. -/
def unpricedTrade : SignalRecord :=
  { signalId := "s1", status := .entered, entryTime := some 0
    signal := some { direction := some "long", stopLoss := some (.fin 95), takeProfit := some (.fin 110) } }

/-- The exit that `track_exit` rejects is marked as processed and not offered again. -/
theorem not_exits_kept : ¬ ∀ (cfg : ExecutionConfig) (s : ExitRun), s.offers = [] → (∀ l, (s.vtm.setOrder l).Perm l) →
    ∀ acts : List ExitAct, (acts.foldl (ExitAct.apply cfg) s).Kept cfg := by
  intro h
  let trackers : Trackers := { store := { lines := [unpricedTrade] }, breaker := none, executionAdapter := none }
  have hkept := (h sampleConfig { vtm := winterManager, trackers } rfl (fun l => .refl l)
    [.cycle (some [minuteBar 111 99]) (some [unpricedTrade])]).offered "s1" (by decide +kernel) (by decide +kernel)
    [minuteBar 111 99] [unpricedTrade] ⟨unpricedTrade, by decide +kernel, rfl, by decide +kernel⟩
  exact absurd hkept (by decide +kernel)

end PearlAlgo
