import PearlAlgo.MarketAgent.ActiveTrades
import PearlAlgo.MarketAgent.Service
import PearlAlgo.MarketAgent.SignalLifecycle

/-!
# Closing all virtual trades (`market_agent/service.py`, `performance_tracker.py`)

`_close_all_virtual_trades` with what it returns, on a signals file that the calls of the tracker have appended to. Its
`entered` lines carry no signal, so that every trade closes as a long, and the count goes up whatever `track_exit`
returns. `forceClosed_iff` says when the trades are closed at their own side of the market and counted right.
-/

namespace PearlAlgo
open Py MarketAgentService

/-! ### The file -/

inductive FileCall
  | generated (signalId : String) (signal : SignalData)
  | entered (signalId : String) (entryPrice : Number) (entryTime : ℚ) (signalData : Option SignalData)

/-- `track_signal_generated` and `track_entry` with SQLite on. -/
def FileCall.apply (st : SignalStore) : FileCall → SignalStore
  | generated signalId signal =>
    let record : SignalRecord := { signalId, status := .generated, signal := some signal }
    { st with lines := st.lines ++ [record], events := st.events.map (· ++ [record]) }
  | entered signalId entryPrice entryTime signalData =>
    st.updateSignalStatus
      { signalId, status := .entered, own := { entryPrice := some entryPrice }, entryTime := some entryTime }
      (signalData.map fun signal => { signalId, status := .entered, own := signal })

/-- The stores after the calls. -/
def built (calls : List FileCall) : SignalStore := calls.foldl FileCall.apply { events := some [] }

/-- The side of the latest generated record of the signal. -/
def generatedSide (lines : List SignalRecord) (signalId : String) : Option String :=
  (lines.findRev? fun r => r.signalId = signalId ∧ r.status = .generated).map fun r => r.data.side

/-! ### The closing -/

structure CloseAllResult where
  closedCount : Nat := 0
  totalPnl : ℚ := 0
  trackers : Trackers

/-- The body of the loop. -/
def closeStep (bar : LatestBar) (close : Number) (reason : String) (now : ℚ) (res : CloseAllResult) (r : SignalRecord) :
    CloseAllResult :=
  let signalId := strip r.signalId
  if signalId = "" then res
  else
    let (perf, trackers) := res.trackers.trackExit signalId (closePrice bar close (r.signal.getD {})) reason now
    { closedCount := res.closedCount + 1, totalPnl := res.totalPnl + (perf.map Performance.pnl).getD 0, trackers }

/-- The active records, where virtual P&L is enabled. -/
def closable (virtualPnlEnabled : Bool) (recent : List SignalRecord) : List SignalRecord :=
  if virtualPnlEnabled then recent.filter fun r => r.status = .entered else []

/-- `_close_all_virtual_trades` with the recent records. -/
def closeAll (virtualPnlEnabled : Bool) (bar : LatestBar) (recent : List SignalRecord) (reason : String) (now : ℚ)
    (trackers : Trackers) : CloseAllResult :=
  match bar.close.filter (.fin 0 < ·) with
  | none => { trackers }
  | some close => (closable virtualPnlEnabled recent).foldl (closeStep bar close reason now) { trackers }

theorem closeStep_trackers (bar : LatestBar) (close : Number) (reason : String) (now : ℚ) (records : List SignalRecord)
    (res : CloseAllResult) : (records.foldl (closeStep bar close reason now) res).trackers =
      closeEach bar close reason now records res.trackers := by
  induction records generalizing res with
  | nil => rfl
  | cons r records ih =>
    rw [List.foldl_cons, ih, closeEach, closeEach, List.foldl_cons]
    congr 1
    simp only [closeStep]
    split <;> rfl

/-- What the service is left with. -/
theorem closeAll_trackers (bar : LatestBar) (recent : List SignalRecord) (reason : String) (now : ℚ)
    (s : MarketAgentService) : (closeAll s.virtualPnlEnabled bar recent reason now s.toTrackers).trackers =
      (s.closeAllVirtualTrades (some bar) (some recent) reason now).toTrackers := by
  simp only [closeAll, closeAllVirtualTrades, closeTrades, closable, Option.getD_some]
  rcases hclose : bar.close.filter (.fin 0 < ·) with _ | close
  · simp [hclose]
  · cases s.virtualPnlEnabled <;> simp [hclose, closeStep_trackers]

/-! ### One exit -/

namespace SignalStore

variable {st : SignalStore} {x : String} {q : ℚ}

/-- An exit of the signal is recorded at a valid price: it is known, not exited, and its entry price is valid. -/
def Recordable (st : SignalStore) (x : String) : Prop :=
  ∃ r, st.getSignalRecord x = some r ∧ r.status ≠ .exited ∧ (validPrice r.entryPrice).isSome = true

theorem trackExit_eq (x : String) (price : Number) (reason : String) (now : ℚ) (st : SignalStore) :
    st.trackExit x price reason now =
      match st.getSignalRecord x with
      | none => (none, st)
      | some r =>
        if r.status = .exited then (none, st)
        else
          match r.exitPerformance x price reason now with
          | none => (none, st)
          | some perf =>
            (some perf, { st.updateSignalStatus (perf.change r.data) none with performance := st.performance ++ [perf] }) := by
  unfold trackExit
  rcases st.getSignalRecord x with _ | r
  · rfl
  · dsimp only
    split
    · rfl
    · unfold SignalRecord.exitPerformance SignalRecord.entryPrice
      generalize validPrice ((orNum r.own.entryPrice (orNum r.data.entryPrice none)).getD (.fin 0)) = entry
      generalize validPrice price = exit
      cases entry <;> cases exit <;> rfl

theorem trackExit_of_not_recordable (price : Number) (reason : String) (now : ℚ) (h : ¬ st.Recordable x) :
    st.trackExit x price reason now = (none, st) := by
  rw [trackExit_eq]
  rcases hrecord : st.getSignalRecord x with _ | r
  · rfl
  · dsimp only
    split
    · rfl
    next hexited =>
      have hinvalid : r.exitPerformance x price reason now = none := by
        rw [← Option.not_isSome_iff_eq_none, exitPerformance_isSome, Bool.and_eq_true]
        rintro ⟨hentry, -⟩
        exact h ⟨r, hrecord, hexited, hentry⟩
      rw [hinvalid]

theorem trackExit_of_recordable (reason : String) (now : ℚ) (h : st.Recordable x) (hq : 0 < q) : ∃ r perf,
    st.trackExit x (.fin q) reason now =
      (some perf, { st.updateSignalStatus (perf.change r) none with performance := st.performance ++ [perf] }) ∧
      perf.signalId = x ∧ perf.exitPrice = q := by
  obtain ⟨r, hrecord, hexited, hentry⟩ := h
  obtain ⟨entry, hentry⟩ := Option.isSome_iff_exists.1 hentry
  have hvalid : validPrice (.fin q) = some q := by simp [validPrice, hq]
  rw [trackExit_eq, hrecord]
  dsimp only
  rw [if_neg hexited]
  unfold SignalRecord.exitPerformance
  rw [hentry, hvalid]
  exact ⟨r.data, _, rfl, rfl, rfl⟩

/-- With SQLite on, a new status is an event of its signal, and the others are read as before. -/
theorem getSignalRecord_updateSignalStatus (change : SignalRecord) (hsqlite : st.events.isSome = true) :
    (st.updateSignalStatus change none).events.isSome = true ∧
      (∀ y ≠ change.signalId, (st.updateSignalStatus change none).getSignalRecord y = st.getSignalRecord y) ∧
      ∃ r, (st.updateSignalStatus change none).getSignalRecord change.signalId = some r ∧ r.status = change.status := by
  obtain ⟨evs, hevs⟩ := Option.isSome_iff_exists.1 hsqlite
  have hid : ∀ c : Option SignalRecord, (c.elim change fun r => r.update change).signalId = change.signalId := by
    intro c
    cases c <;> rfl
  have hstatus : ∀ c : Option SignalRecord, (c.elim change fun r => r.update change).status = change.status := by
    intro c
    cases c <;> rfl
  simp only [updateSignalStatus, hevs, Option.isSome_some, true_and]
  refine ⟨?_, ?_⟩
  · intro y hy
    simp [getSignalRecord, hevs, hid, hy.symm, List.foldl_append, scanLine]
  · simp [getSignalRecord, hid, hstatus]

/-- An exit that is recorded cannot be recorded again, and leaves the other signals alone. -/
theorem trackExit_recordable (reason : String) (now : ℚ) (hsqlite : st.events.isSome = true) (h : st.Recordable x) (hq : 0 < q) :
    ∃ perf st', st.trackExit x (.fin q) reason now = (some perf, st') ∧ perf.signalId = x ∧ perf.exitPrice = q ∧
      st'.events.isSome = true ∧ ¬ st'.Recordable x ∧ ∀ y ≠ x, st'.Recordable y ↔ st.Recordable y := by
  obtain ⟨r, perf, hexit, rfl, hprice⟩ := trackExit_of_recordable reason now h hq
  obtain ⟨hevents, hothers, rec, hrec, hstatus⟩ :=
    getSignalRecord_updateSignalStatus (perf.change r) hsqlite
  refine ⟨perf, _, hexit, rfl, hprice, hevents, ?_, ?_⟩
  · rintro ⟨rec', hrec', hopen, -⟩
    obtain rfl : rec = rec' := Option.some.inj (hrec.symm.trans hrec')
    exact hopen hstatus
  · intro y hy
    unfold Recordable
    rw [show getSignalRecord y { st.updateSignalStatus (perf.change r) none with performance := st.performance ++ [perf] } =
      st.getSignalRecord y from hothers y hy]

end SignalStore

/-! ### The loop -/

/-- The ids that the loop hands to `track_exit`. -/
def closedKeys (records : List SignalRecord) : List String := (records.map fun r => strip r.signalId).filter (· ≠ "")

/-- The exits that are recorded: one at this price for each signal that can still exit. -/
structure Recorded (exitPrice : ℚ) (st : SignalStore) (keys : List String) (recorded : List Performance) : Prop where
  ids : (recorded.map Performance.signalId).Sublist keys
  once : (recorded.map Performance.signalId).Nodup
  complete : ∀ k ∈ keys, st.Recordable k → k ∈ recorded.map Performance.signalId
  sound : ∀ perf ∈ recorded, st.Recordable perf.signalId ∧ perf.exitPrice = exitPrice

section Recorded
variable {exitPrice : ℚ} {st st' : SignalStore} {x : String} {keys : List String} {recorded : List Performance}
  {perf : Performance}

/-- An exit that is recorded, and then those of the other signals. -/
theorem Recorded.cons (h : Recorded exitPrice st' keys recorded) (hid : perf.signalId = x) (hat : perf.exitPrice = exitPrice)
    (hrecordable : st.Recordable x) (hdone : ¬ st'.Recordable x)
    (hothers : ∀ y ≠ x, st'.Recordable y ↔ st.Recordable y) : Recorded exitPrice st (x :: keys) (perf :: recorded) := by
  refine ⟨?_, ?_, ?_, ?_⟩
  · rw [List.map_cons, hid]
    exact h.ids.cons_cons _
  · rw [List.map_cons, List.nodup_cons]
    refine ⟨?_, h.once⟩
    intro hmem
    obtain ⟨perf', hperf', hid'⟩ := List.mem_map.1 hmem
    refine hdone ?_
    rw [← hid, ← hid']
    exact (h.sound perf' hperf').1
  · intro k hk hkrec
    rw [List.map_cons, List.mem_cons]
    by_cases hsame : k = x
    · exact .inl (hsame.trans hid.symm)
    · refine .inr (h.complete k ((List.mem_cons.1 hk).resolve_left hsame) ?_)
      exact (hothers k hsame).2 hkrec
  · refine List.forall_mem_cons.2 ⟨⟨hid ▸ hrecordable, hat⟩, ?_⟩
    intro perf' hperf'
    obtain ⟨hrec', hat'⟩ := h.sound perf' hperf'
    refine ⟨(hothers _ ?_).1 hrec', hat'⟩
    rintro hsame
    exact hdone (hsame ▸ hrec')

/-- A signal that cannot exit adds nothing. -/
theorem Recorded.skip (h : Recorded exitPrice st keys recorded) (hx : ¬ st.Recordable x) :
    Recorded exitPrice st (x :: keys) recorded := by
  refine ⟨h.ids.cons _, h.once, ?_, h.sound⟩
  intro k hk hkrec
  refine h.complete k ((List.mem_cons.1 hk).resolve_left ?_) hkrec
  rintro rfl
  exact hx hkrec

theorem Recorded.length_eq_iff (h : Recorded exitPrice st keys recorded) :
    keys.length = recorded.length ↔ keys.Nodup ∧ ∀ k ∈ keys, st.Recordable k := by
  constructor
  · intro hlength
    have heq : recorded.map Performance.signalId = keys := h.ids.eq_of_length (by simp [hlength])
    refine ⟨heq ▸ h.once, ?_⟩
    intro k hk
    rw [← heq] at hk
    obtain ⟨perf, hperf, rfl⟩ := List.mem_map.1 hk
    exact (h.sound perf hperf).1
  · rintro ⟨hnodup, hall⟩
    have hle : keys.length ≤ (recorded.map Performance.signalId).length :=
      (List.subperm_of_subset hnodup fun k hk => h.complete k hk (hall k hk)).length_le
    have hge := h.ids.length_le
    rw [List.length_map] at hle hge
    omega

end Recorded

theorem foldl_closeStep {bar : LatestBar} {close : Number} {exitPrice : ℚ} (hpos : 0 < exitPrice) (reason : String)
    (now : ℚ) (records : List SignalRecord) (res : CloseAllResult) (hsqlite : res.trackers.store.events.isSome = true)
    (hprice : ∀ r ∈ records, closePrice bar close (r.signal.getD {}) = .fin exitPrice) : ∃ recorded,
      (records.foldl (closeStep bar close reason now) res).trackers.exits = res.trackers.exits ++ recorded ∧
      (records.foldl (closeStep bar close reason now) res).closedCount = res.closedCount + (closedKeys records).length ∧
      Recorded exitPrice res.trackers.store (closedKeys records) recorded := by
  induction records generalizing res with
  | nil => exact ⟨[], by simp, by simp [closedKeys], ⟨by simp [closedKeys], by simp, by simp [closedKeys], by simp⟩⟩
  | cons r records ih =>
    have hrest := fun r' hr' => hprice r' (List.mem_cons_of_mem _ hr')
    rw [List.foldl_cons]
    by_cases hempty : strip r.signalId = ""
    · have hstep : closeStep bar close reason now res r = res := by simp [closeStep, hempty]
      have hkeys : closedKeys (r :: records) = closedKeys records := by simp [closedKeys, hempty]
      rw [hstep, hkeys]
      exact ih res hsqlite hrest
    · have hkeys : closedKeys (r :: records) = strip r.signalId :: closedKeys records := by simp [closedKeys, hempty]
      have hfin := hprice r List.mem_cons_self
      rw [hkeys]
      by_cases hrecordable : res.trackers.store.Recordable (strip r.signalId)
      · obtain ⟨perf, st', hexit, hid, hat, hsqlite', hdone, hothers⟩ :=
          SignalStore.trackExit_recordable reason now hsqlite hrecordable hpos
        have hstep : closeStep bar close reason now res r =
            { closedCount := res.closedCount + 1, totalPnl := res.totalPnl + perf.pnl
              trackers := { res.trackers with store := st', exits := res.trackers.exits ++ [perf] } } := by
          simp [closeStep, hempty, hfin, Trackers.trackExit, hexit]
        obtain ⟨recorded, hexits, hcount, hrec⟩ := ih (closeStep bar close reason now res r) (by rw [hstep]; exact hsqlite') hrest
        rw [hstep] at hexits hcount hrec
        rw [hstep]
        refine ⟨perf :: recorded, ?_, ?_, hrec.cons hid hat hrecordable hdone hothers⟩
        · rw [hexits, List.append_assoc, List.singleton_append]
        · rw [hcount, List.length_cons]
          dsimp only
          omega
      · have hexit := SignalStore.trackExit_of_not_recordable (.fin exitPrice) reason now hrecordable
        have hstep : closeStep bar close reason now res r = { res with closedCount := res.closedCount + 1 } := by
          simp [closeStep, hempty, hfin, Trackers.trackExit, hexit]
        obtain ⟨recorded, hexits, hcount, hrec⟩ := ih (closeStep bar close reason now res r) (by rw [hstep]; exact hsqlite) hrest
        rw [hstep] at hexits hcount hrec
        rw [hstep]
        refine ⟨recorded, hexits, ?_, hrec.skip hrecordable⟩
        rw [hcount, List.length_cons]
        dsimp only
        omega

/-! ### When the closing is right -/

/-- The lines of the last 500 that the service sees, where its reader has cached the first `seen` lines of the file. -/
def recentLines (calls : List FileCall) (seen : Nat) : List SignalRecord := lastN 500 ((built calls).lines.take seen)

/-- The ids of the trades that it closes. -/
def exitIds (calls : List FileCall) (seen : Nat) (virtualPnlEnabled : Bool) : List String :=
  closedKeys (closable virtualPnlEnabled (recentLines calls seen))

/-- The closing on a file, at a bar with these prices. -/
def closeBuilt (calls : List FileCall) (seen : Nat) (virtualPnlEnabled : Bool) (close bid ask : ℚ) (reason : String)
    (now : ℚ) (trackers : Trackers) : CloseAllResult :=
  closeAll virtualPnlEnabled { close := some (.fin close), bid := some (.fin bid), ask := some (.fin ask) }
    (recentLines calls seen) reason now { trackers with store := built calls }

/-- Every open long exits at the bid and every open short at the ask, and as many trades count as exits are recorded. -/
def ForceClosed (calls : List FileCall) (seen : Nat) (virtualPnlEnabled : Bool) (close bid ask : ℚ) (reason : String)
    (now : ℚ) (trackers : Trackers) : Prop :=
  let res := closeBuilt calls seen virtualPnlEnabled close bid ask reason now trackers
  ∃ recorded, res.trackers.exits = trackers.exits ++ recorded ∧
    (∀ x, IsOpen (built calls).lines x →
      (generatedSide (built calls).lines x = some "long" → ∃ perf ∈ recorded, perf.signalId = x ∧ perf.exitPrice = bid) ∧
      (generatedSide (built calls).lines x = some "short" → ∃ perf ∈ recorded, perf.signalId = x ∧ perf.exitPrice = ask)) ∧
    res.closedCount = recorded.length

/-- The lines that the file gets: a status line has no signal. -/
theorem built_lines (calls : List FileCall) : (built calls).events.isSome = true ∧
    ∀ r ∈ (built calls).lines, r.status = .entered → r.signal = none := by
  induction calls using List.reverseRecOn with
  | nil => simp [built]
  | append_singleton calls call ih =>
    obtain ⟨hsqlite, hlines⟩ := ih
    obtain ⟨evs, hevs⟩ := Option.isSome_iff_exists.1 hsqlite
    have hbuilt : built (calls ++ [call]) = call.apply (built calls) := by simp [built]
    rw [hbuilt]
    cases call with
    | generated signalId signal =>
      refine ⟨by simp [FileCall.apply, hevs], forall_mem_concat hlines ?_⟩
      intro h
      cases h
    | entered signalId entryPrice entryTime signalData =>
      simp only [FileCall.apply, SignalStore.updateSignalStatus, hevs]
      exact ⟨rfl, forall_mem_concat hlines fun _ => rfl⟩

theorem mem_recentLines {calls : List FileCall} {seen : Nat} {r : SignalRecord} (h : r ∈ recentLines calls seen) :
    r ∈ (built calls).lines := by
  unfold recentLines lastN at h
  exact List.mem_of_mem_take (List.mem_of_mem_drop (by simpa using h))

theorem closeBuilt_spec (calls : List FileCall) (seen : Nat) (virtualPnlEnabled : Bool) {close bid : ℚ} (ask : ℚ)
    (reason : String) (now : ℚ) (trackers : Trackers) (hclose : 0 < close) (hbid : 0 < bid) :
    let res := closeBuilt calls seen virtualPnlEnabled close bid ask reason now trackers
    ∃ recorded, res.trackers.exits = trackers.exits ++ recorded ∧
      res.closedCount = (exitIds calls seen virtualPnlEnabled).length ∧
      Recorded bid (built calls) (exitIds calls seen virtualPnlEnabled) recorded := by
  obtain ⟨hsqlite, hlines⟩ := built_lines calls
  obtain ⟨recorded, hexits, hcount, hrec⟩ := @foldl_closeStep
    { close := some (.fin close), bid := some (.fin bid), ask := some (.fin ask) } (.fin close) bid hbid reason now
    (closable virtualPnlEnabled (recentLines calls seen)) { trackers := { trackers with store := built calls } } hsqlite (by
      intro r hr
      have hr : r ∈ recentLines calls seen ∧ r.status = .entered := by
        unfold closable at hr
        split at hr
        · simpa using hr
        · cases hr
      rw [hlines r (mem_recentLines hr.1) hr.2]
      simp [closePrice, SignalData.side, Option.filter_some, hbid])
  have hres : closeBuilt calls seen virtualPnlEnabled close bid ask reason now trackers =
      (closable virtualPnlEnabled (recentLines calls seen)).foldl
        (closeStep { close := some (.fin close), bid := some (.fin bid), ask := some (.fin ask) } (.fin close) reason now)
        { trackers := { trackers with store := built calls } } := by
    simp [closeBuilt, closeAll, Option.filter_some, hclose]
  intro res
  refine ⟨recorded, ?_, ?_, hrec⟩
  · rw [show res = _ from hres, hexits]
  · rw [show res = _ from hres, hcount, Nat.zero_add]
    rfl

/-- Each open trade is among the recent lines, an open short finds the ask at the bid, and each id that comes up comes up
once and can exit. -/
theorem forceClosed_iff (calls : List FileCall) (seen : Nat) (virtualPnlEnabled : Bool) (close bid ask : ℚ)
    (reason : String) (now : ℚ) (trackers : Trackers) (hclose : 0 < close) (hbid : 0 < bid) :
    ForceClosed calls seen virtualPnlEnabled close bid ask reason now trackers ↔
      (∀ x, IsOpen (built calls).lines x →
        (generatedSide (built calls).lines x = some "long" → x ∈ exitIds calls seen virtualPnlEnabled) ∧
        (generatedSide (built calls).lines x = some "short" → x ∈ exitIds calls seen virtualPnlEnabled ∧ ask = bid)) ∧
        (exitIds calls seen virtualPnlEnabled).Nodup ∧
        ∀ x ∈ exitIds calls seen virtualPnlEnabled, (built calls).Recordable x := by
  obtain ⟨recorded, hexits, hcount, hrec⟩ := closeBuilt_spec calls seen virtualPnlEnabled ask reason now trackers hclose hbid
  have hids : ∀ perf ∈ recorded, perf.signalId ∈ exitIds calls seen virtualPnlEnabled := fun perf hperf =>
    hrec.ids.subset (List.mem_map_of_mem hperf)
  constructor
  · rintro ⟨recorded', hexits', hopen, hcount'⟩
    obtain rfl : recorded = recorded' := List.append_cancel_left (hexits.symm.trans hexits')
    refine ⟨?_, hrec.length_eq_iff.1 (hcount.symm.trans hcount')⟩
    intro x hx
    obtain ⟨hlong, hshort⟩ := hopen x hx
    refine ⟨?_, ?_⟩
    · intro hside
      obtain ⟨perf, hperf, rfl, -⟩ := hlong hside
      exact hids perf hperf
    · intro hside
      obtain ⟨perf, hperf, rfl, hat⟩ := hshort hside
      exact ⟨hids perf hperf, hat.symm.trans (hrec.sound perf hperf).2⟩
  · rintro ⟨hopen, hnodup, hall⟩
    have hexit : ∀ x ∈ exitIds calls seen virtualPnlEnabled, ∃ perf ∈ recorded, perf.signalId = x ∧ perf.exitPrice = bid := by
      intro x hx
      obtain ⟨perf, hperf, hid⟩ := List.mem_map.1 (hrec.complete x hx (hall x hx))
      exact ⟨perf, hperf, hid, (hrec.sound perf hperf).2⟩
    refine ⟨recorded, hexits, ?_, hcount.trans (hrec.length_eq_iff.2 ⟨hnodup, hall⟩)⟩
    intro x hx
    obtain ⟨hlong, hshort⟩ := hopen x hx
    refine ⟨fun hside => hexit x (hlong hside), ?_⟩
    intro hside
    obtain ⟨hmem, rfl⟩ := hshort hside
    exact hexit x hmem

/-- A signal of this side, entered at 20000. -/
def sidedTrade (direction : String) : List FileCall :=
  [.generated "s1" { direction := some direction }, .entered "s1" (.fin 20000) 0 none]

def noTrackers : Trackers := { store := {}, breaker := none, executionAdapter := none }

theorem forceClosed_iff_long : ForceClosed (sidedTrade "long") 500 true 20010 20009 20011 "manual" 0 noTrackers := by
  have hlines : (built (sidedTrade "long")).lines =
      [{ signalId := "s1", status := .generated, signal := some { direction := some "long" } },
       { signalId := "s1", status := .entered, statusChange := true, own := { entryPrice := some (.fin 20000) }
         entryTime := some 0 }] := by decide +kernel
  have hids : exitIds (sidedTrade "long") 500 true = ["s1"] := by decide +kernel
  refine (forceClosed_iff (sidedTrade "long") 500 true 20010 20009 20011 "manual" 0 noTrackers (by norm_num)
    (by norm_num)).2 ⟨?_, ?_, ?_⟩
  · intro x hopen
    have hx : x = "s1" := by
      obtain ⟨r, hr, -⟩ := hopen
      rw [List.findRev?_eq_find?_reverse] at hr
      have hmem := List.mem_reverse.1 (List.mem_of_find?_eq_some hr)
      have hid := List.find?_some hr
      rw [hlines] at hmem
      rcases List.mem_pair.1 hmem with rfl | rfl
      · exact (of_decide_eq_true hid).symm
      · exact (of_decide_eq_true hid).symm
    subst hx
    refine ⟨fun _ => by simp [hids], ?_⟩
    intro hshort
    revert hshort
    decide +kernel
  · rw [hids]
    simp
  · rw [hids]
    intro x hx
    obtain rfl := List.mem_singleton.1 hx
    exact ⟨{ signalId := "s1", status := .entered, signal := some { direction := some "long" }
             own := { entryPrice := some (.fin 20000) }, entryTime := some 0 }, by decide +kernel, by decide, by decide +kernel⟩

/-- A signal without a price, entered at zero. -/
def zeroPriceTrade : List FileCall := [.generated "s1" { direction := some "long" }, .entered "s1" (.fin 0) 0 none]

/-- An open short exits at the bid, and a trade whose exit is not recorded counts as closed. -/
theorem not_forceClosed :
    ((closeBuilt (sidedTrade "short") 500 true 20010 20009 20011 "manual" 0 noTrackers).trackers.exits.map
        fun perf => (perf.direction, perf.exitPrice)) = [("short", 20009)] ∧
      ¬ ForceClosed (sidedTrade "short") 500 true 20010 20009 20011 "manual" 0 noTrackers ∧
      (closeBuilt zeroPriceTrade 500 true 20010 20009 20011 "manual" 0 noTrackers).trackers.exits = [] ∧
      (closeBuilt zeroPriceTrade 500 true 20010 20009 20011 "manual" 0 noTrackers).closedCount = 1 ∧
      ¬ ForceClosed zeroPriceTrade 500 true 20010 20009 20011 "manual" 0 noTrackers := by
  have hshort : ((closeBuilt (sidedTrade "short") 500 true 20010 20009 20011 "manual" 0 noTrackers).trackers.exits.map
      fun perf => (perf.direction, perf.exitPrice)) = [("short", 20009)] := by decide +kernel
  have hnone : (closeBuilt zeroPriceTrade 500 true 20010 20009 20011 "manual" 0 noTrackers).trackers.exits = [] := by
    decide +kernel
  have hcount : (closeBuilt zeroPriceTrade 500 true 20010 20009 20011 "manual" 0 noTrackers).closedCount = 1 := by
    decide +kernel
  refine ⟨hshort, ?_, hnone, hcount, ?_⟩
  · rintro ⟨recorded, hexits, hopen, -⟩
    obtain ⟨perf, hperf, -, hask⟩ := (hopen "s1" (by decide +kernel)).2 (by decide +kernel)
    have hmem : (perf.direction, perf.exitPrice) ∈ [("short", (20009 : ℚ))] := by
      rw [← hshort, hexits]
      exact List.mem_map_of_mem (List.mem_append_right _ hperf)
    rw [List.mem_singleton, Prod.mk.injEq, hask] at hmem
    norm_num at hmem
  · rintro ⟨recorded, hexits, -, hclosed⟩
    rw [hnone] at hexits
    obtain ⟨-, rfl⟩ := List.append_eq_nil_iff.1 hexits.symm
    rw [hcount] at hclosed
    cases hclosed

end PearlAlgo
