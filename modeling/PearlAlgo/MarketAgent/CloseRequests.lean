import PearlAlgo.Lts.Reach
import PearlAlgo.MarketAgent.Service

/-!
# Operator close requests (`market_agent/operator_handler.py`, `service.py`)

The web API writes a flag file or a request file, the watcher moves it into `state.json` and deletes it, and the close
handler of a cycle acts on what it finds there. `_save_state` builds the whole state anew. A step is one of these; a
pass of the watcher is the two ingestions and what a control flag brings (`noteClosed` of the kill switch, `saveState`
of a disarm or an arm), a full cycle is the handler, `noteClosed` of the automatic closing and `saveState`, and paused
and skipped cycles leave the handler out. `recorded_of_safe` says when no request is lost. The times under which a
request is stored, the notifications, and failing deletions of files are left out.
-/

namespace PearlAlgo
open Py Lts

/-- The keys of `state.json` that hold requests. -/
structure StateJson where
  closeAllRequested : Bool := false
  closeSignalsRequested : List String := []
deriving DecidableEq

/-- How `load_state` and the `save_state` after it end. A load that fails reads as `{}`, and a save that fails is only
logged. -/
structure StateIo where
  loadOk : Bool := true
  saveOk : Bool := true
deriving DecidableEq

/-- A `close_trade_*.json` file. -/
inductive TradeFile
  /-- The text of its `signal_id`, empty where there is none or the file is no JSON. -/
  | dict (signalId : String)
  | notDict
deriving DecidableEq

def TradeFile.signalId : TradeFile → Option String
  | dict signalId => some (strip signalId) |>.filter (· ≠ "")
  | notDict => none

/-- No code reads `pendingAll` and `pendingTrades`, the requests that have been ingested and not yet been acted on. -/
structure CloseRequests where
  virtualPnlEnabled : Bool := true
  stateJson : StateJson := {}
  /-- `close_all_request.flag` -/
  closeAllFlag : Bool := false
  /-- The files of `operator_requests`, sorted by their names. -/
  tradeFiles : List TradeFile := []
  pendingAll : Bool := false
  pendingTrades : List String := []

/-- What the broker answers to `cancel_all` and `flatten_all_positions`. -/
structure BrokerClosing where
  cancel : Except Err (List ExecutionResult)
  flatten : Except Err (List ExecutionResult)

inductive VirtualClosing
  | disabled
  | nothingActive
  | noPrice
  | raised
  | closed
deriving DecidableEq

/-- What the handler finds and gets when it acts on a request. -/
structure CloseAttempt where
  bar : Option LatestBar := none
  /-- The recent signals; `none` where they cannot be read. -/
  recent : Option (List SignalRecord) := some []
  exitRaises : Bool := false
  /-- `none` without an adapter. -/
  broker : Option BrokerClosing := none
  /-- The load that looks for the request does not fail. -/
  readOk : Bool := true
  note : StateIo := {}
  clear : StateIo := {}

inductive CloseAct
  /-- The web API writes the flag file. -/
  | postCloseAll
  /-- The web API writes a request file, which comes to stand at this place. -/
  | postTrade (i : Nat) (f : TradeFile)
  | processCloseTradeRequests (io : StateIo)
  | processCloseAllFlag (io : StateIo)
  /-- The part of `_handle_close_all_requests` that looks for the flag. -/
  | handleCloseAll (h : CloseAttempt)
  /-- The part that looks for single trades. -/
  | handleCloseTrades (h : CloseAttempt)
  /-- Virtual trades are closed without a request, which writes their new count. -/
  | noteClosed (io : StateIo)
  /-- `_save_state(force=True)` -/
  | saveState (saveOk : Bool)

namespace BrokerClosing

def results (b : BrokerClosing) : Except Err (List ExecutionResult) := do
  return (← b.cancel) ++ (← b.flatten)

def succeeds (b : BrokerClosing) : Bool :=
  match b.results with
  | .ok rs => rs.all (·.success)
  | .error _ => false

end BrokerClosing

namespace CloseAttempt

/-- `_close_all_virtual_trades`, or `_close_specific_virtual_trades` with the trades that satisfy `p`. -/
def closeVirtual (virtualPnlEnabled : Bool) (p : SignalRecord → Bool) (h : CloseAttempt) : VirtualClosing :=
  if ¬ virtualPnlEnabled then .disabled
  else if ((h.recent.getD []).filter fun r => r.status = .entered ∧ p r) = [] then .nothingActive
  else
    match (h.bar.getD {}).close.filter (.fin 0 < ·) with
    | none => .noPrice
    | some _ => if h.exitRaises then .raised else .closed

/-- The virtual trades can be closed, and the broker does not fail. -/
def acts (virtualPnlEnabled : Bool) (p : SignalRecord → Bool) (h : CloseAttempt) : Bool :=
  h.closeVirtual virtualPnlEnabled p ∉ [.noPrice, .raised] ∧ h.broker.all BrokerClosing.succeeds

end CloseAttempt

/-- `load_state`, a change and `save_state`. -/
def StateIo.rewrite (io : StateIo) (f : StateJson → StateJson) (st : StateJson) : StateJson :=
  if io.saveOk then f (if io.loadOk then st else {}) else st

/-- What a handler makes of `state.json`: it writes the new count of the virtual trades, where some have been closed,
and then removes the request, unless the closing has raised. -/
def CloseAttempt.rewrite (virtualPnlEnabled : Bool) (p : SignalRecord → Bool) (remove : StateJson → StateJson)
    (h : CloseAttempt) (st : StateJson) : StateJson :=
  match h.closeVirtual virtualPnlEnabled p with
  | .raised => st
  | .closed => h.clear.rewrite remove (h.note.rewrite id st)
  | _ => h.clear.rewrite remove st

namespace CloseRequests

def newSignalIds (s : CloseRequests) : List String := (s.tradeFiles.take 50).filterMap TradeFile.signalId

def mergeTrades (ids : List String) (st : StateJson) : StateJson :=
  { st with closeSignalsRequested := (st.closeSignalsRequested ++ ids).eraseDups }

def processCloseTradeRequests (io : StateIo) (s : CloseRequests) : CloseRequests :=
  let ids := s.newSignalIds
  { s with
    tradeFiles := s.tradeFiles.drop 50
    stateJson := if ids = [] then s.stateJson else io.rewrite (mergeTrades ids) s.stateJson
    pendingTrades := s.pendingTrades ++ ids }

def processCloseAllFlag (io : StateIo) (s : CloseRequests) : CloseRequests :=
  if s.closeAllFlag then
    { s with
      closeAllFlag := false
      stateJson := io.rewrite (fun st => { st with closeAllRequested := true }) s.stateJson
      pendingAll := true }
  else s

def handleCloseAll (h : CloseAttempt) (s : CloseRequests) : CloseRequests :=
  if h.readOk ∧ s.stateJson.closeAllRequested then
    { s with
      stateJson := h.rewrite s.virtualPnlEnabled (fun _ => true) (fun st => { st with closeAllRequested := false })
        s.stateJson
      pendingAll := s.pendingAll && !h.acts s.virtualPnlEnabled fun _ => true }
  else s

def isRequested (ids : List String) (r : SignalRecord) : Bool := r.signalId ∈ ids

def handleCloseTrades (h : CloseAttempt) (s : CloseRequests) : CloseRequests :=
  let ids := if h.readOk then s.stateJson.closeSignalsRequested else []
  if ids = [] then s
  else
    { s with
      stateJson := h.rewrite s.virtualPnlEnabled (isRequested ids)
        (fun st => { st with closeSignalsRequested := st.closeSignalsRequested.filter (· ∉ ids) }) s.stateJson
      pendingTrades :=
        if h.acts s.virtualPnlEnabled (isRequested ids) then s.pendingTrades.filter (· ∉ ids) else s.pendingTrades }

def step (s : CloseRequests) : CloseAct → Option CloseRequests
  | .postCloseAll => some { s with closeAllFlag := true }
  | .postTrade i f => some { s with tradeFiles := s.tradeFiles.insertIdx i f }
  | .processCloseTradeRequests io => some (s.processCloseTradeRequests io)
  | .processCloseAllFlag io => some (s.processCloseAllFlag io)
  | .handleCloseAll h => some (s.handleCloseAll h)
  | .handleCloseTrades h => some (s.handleCloseTrades h)
  | .noteClosed io => some { s with stateJson := io.rewrite id s.stateJson }
  | .saveState saveOk => some (if saveOk then { s with stateJson := {} } else s)

/-- `state.json` holds the requests that are pending. -/
def Recorded (s : CloseRequests) : Prop :=
  (s.pendingAll = true → s.stateJson.closeAllRequested = true) ∧
    ∀ signalId ∈ s.pendingTrades, signalId ∈ s.stateJson.closeSignalsRequested

instance (s : CloseRequests) : Decidable s.Recorded := inferInstanceAs (Decidable ((_ → _) ∧ ∀ _ ∈ s.pendingTrades, _))

def enteredTrade : SignalRecord := { signalId := "s1", status := .entered }

/-- An arm flag saves the state anew in the pass of the watcher that has ingested the close-all flag; and the request
for a trade is removed although there is no price to close it at. -/
theorem request_lost :
    (∃ s, Reach step AnyStep {} s ∧ ¬ (s.pendingAll = true → s.stateJson.closeAllRequested = true)) ∧
      ∃ s, Reach step AnyStep {} s ∧ ¬ ∀ signalId ∈ s.pendingTrades, signalId ∈ s.stateJson.closeSignalsRequested := by
  constructor
  · obtain ⟨s, hreach, hs⟩ := exists_reach step AnyStep {}
      [.postCloseAll, .processCloseTradeRequests {}, .processCloseAllFlag {}, .saveState true]
      (fun s => ¬ (s.pendingAll = true → s.stateJson.closeAllRequested = true)) (by decide +kernel)
    exact ⟨s, hreach, of_decide_eq_true hs⟩
  · obtain ⟨s, hreach, hs⟩ := exists_reach step AnyStep {}
      [.postTrade 0 (.dict "s1"), .processCloseTradeRequests {}, .processCloseAllFlag {}, .handleCloseAll {},
        .handleCloseTrades { recent := some [enteredTrade] }]
      (fun s => ¬ ∀ signalId ∈ s.pendingTrades, signalId ∈ s.stateJson.closeSignalsRequested) (by decide +kernel)
    exact ⟨s, hreach, of_decide_eq_true hs⟩

/-! ### When no request is lost -/

end CloseRequests

/-- The save writes over what the load could not read. -/
def StateIo.wipes (io : StateIo) : Bool := !io.loadOk && io.saveOk

namespace CloseAttempt

variable (virtualPnlEnabled : Bool) (p : SignalRecord → Bool) (h : CloseAttempt)

/-- One of the two writes of the handler wipes `state.json`. -/
def wipes : Bool := h.clear.wipes || (h.closeVirtual virtualPnlEnabled p = .closed && h.note.wipes)

/-- The handler does not get to the removal of the request, or the removal fails, or it has acted. Neither of its
writes wipes the other requests. -/
def safe (others : Bool) : Bool :=
  h.closeVirtual virtualPnlEnabled p = .raised ||
    ((!h.wipes virtualPnlEnabled p || !others) &&
      (h.acts virtualPnlEnabled p || !h.clear.saveOk && !h.wipes virtualPnlEnabled p))

end CloseAttempt

theorem StateIo.rewrite_of_not_wipes {io : StateIo} {f : StateJson → StateJson} {st : StateJson}
    (h : io.wipes = false) : io.rewrite f st = if io.saveOk then f st else st := by
  unfold rewrite
  split
  next hsave =>
    have hload : io.loadOk = true := by
      simpa [wipes, hsave] using h
    rw [if_pos hload]
  · rfl

namespace CloseAttempt

variable {virtualPnlEnabled : Bool} {p : SignalRecord → Bool} {h : CloseAttempt} {remove : StateJson → StateJson}
  {st : StateJson}

/-- What the removal keeps is kept, unless a write wipes the state. -/
theorem rewrite_keeps {K : StateJson → Prop} (hw : h.wipes virtualPnlEnabled p = false)
    (hremove : ∀ st, K st → K (remove st)) (hst : K st) : K (h.rewrite virtualPnlEnabled p remove st) := by
  obtain ⟨hclear, hnote⟩ := Bool.or_eq_false_iff.1 hw
  have hclears : ∀ st, K st → K (h.clear.rewrite remove st) := by
    intro st hst
    rw [StateIo.rewrite_of_not_wipes hclear]
    split
    · exact hremove st hst
    · exact hst
  unfold CloseAttempt.rewrite
  split
  · exact hst
  next hclosed =>
    refine hclears _ ?_
    rw [hclosed] at hnote
    rw [StateIo.rewrite_of_not_wipes (by simpa using hnote)]
    split <;> exact hst
  · exact hclears st hst

theorem rewrite_of_not_removed (hw : h.wipes virtualPnlEnabled p = false) (hclear : h.clear.saveOk = false) :
    h.rewrite virtualPnlEnabled p remove st = st := by
  obtain ⟨-, hnote⟩ := Bool.or_eq_false_iff.1 hw
  have hclears : ∀ st, h.clear.rewrite remove st = st := fun st => if_neg (by rw [hclear]; exact Bool.false_ne_true)
  unfold CloseAttempt.rewrite
  split
  · rfl
  next hclosed =>
    rw [hclosed] at hnote
    rw [hclears, StateIo.rewrite_of_not_wipes (by simpa using hnote)]
    exact ite_self st
  · exact hclears st

theorem rewrite_of_raised (hraised : h.closeVirtual virtualPnlEnabled p = .raised) :
    h.rewrite virtualPnlEnabled p remove st = st := by
  unfold CloseAttempt.rewrite
  rw [hraised]

/-- A safe handler: it has raised or left the state alone, or it has acted and keeps the other requests. -/
theorem safe_cases {others : Bool} (hsafe : h.safe virtualPnlEnabled p others = true) :
    (∀ remove st, h.rewrite virtualPnlEnabled p remove st = st) ∨
      h.acts virtualPnlEnabled p = true ∧ (others = true → h.wipes virtualPnlEnabled p = false) := by
  simp only [safe, Bool.or_eq_true, Bool.and_eq_true, Bool.not_eq_true', decide_eq_true_eq] at hsafe
  rcases hsafe with hraised | ⟨hothers, hacts | ⟨hclear, hw⟩⟩
  · exact .inl fun remove st => rewrite_of_raised hraised
  · refine .inr ⟨hacts, fun ho => hothers.resolve_right ?_⟩
    rw [ho]
    exact Bool.noConfusion
  · exact .inl fun remove st => rewrite_of_not_removed hw hclear

end CloseAttempt

namespace CloseRequests

/-- The steps at which no request gets lost. -/
def safe (s : CloseRequests) : CloseAct → Bool
  | .postCloseAll | .postTrade _ _ => true
  | .processCloseTradeRequests io => s.newSignalIds = [] ∨ io.saveOk ∧ (io.loadOk ∨ s.stateJson = {})
  | .processCloseAllFlag io => !s.closeAllFlag ∨ io.saveOk ∧ (io.loadOk ∨ s.stateJson.closeSignalsRequested = [])
  | .handleCloseAll h =>
    !(h.readOk && s.stateJson.closeAllRequested) ||
      h.safe s.virtualPnlEnabled (fun _ => true) (s.stateJson.closeSignalsRequested ≠ [])
  | .handleCloseTrades h =>
    !h.readOk || s.stateJson.closeSignalsRequested = [] ||
      h.safe s.virtualPnlEnabled (isRequested s.stateJson.closeSignalsRequested) s.stateJson.closeAllRequested
  | .noteClosed io => !io.wipes || s.stateJson = {}
  | .saveState saveOk => !saveOk || s.stateJson = {}

variable {s s' s₀ : CloseRequests}

theorem recorded_of_pending (hpending : s.pendingAll = false) (htrades : s.pendingTrades = []) : s.Recorded := by
  refine ⟨fun h => absurd (hpending.symm.trans h) nofun, fun signalId h => ?_⟩
  rw [htrades] at h
  exact absurd h List.not_mem_nil

theorem Recorded.empty (hs : s.Recorded) (hstate : s.stateJson = {}) : s.pendingAll = false ∧ s.pendingTrades = [] := by
  obtain ⟨hall, htrades⟩ := hs
  rw [hstate] at hall htrades
  refine ⟨Bool.eq_false_iff.2 fun h => absurd (hall h) nofun, List.eq_nil_iff_forall_not_mem.2 fun signalId h => ?_⟩
  exact absurd (htrades signalId h) List.not_mem_nil

theorem processCloseTradeRequests_recorded {io : StateIo} (hs : s.Recorded)
    (hsafe : s.newSignalIds = [] ∨ io.saveOk = true ∧ (io.loadOk = true ∨ s.stateJson = {})) :
    (s.processCloseTradeRequests io).Recorded := by
  unfold processCloseTradeRequests
  dsimp only
  by_cases hids : s.newSignalIds = []
  · rw [if_pos hids, hids, List.append_nil]
    exact hs
  · rw [if_neg hids]
    obtain ⟨hsave, hload⟩ := hsafe.resolve_left hids
    have hwrite : io.rewrite (mergeTrades s.newSignalIds) s.stateJson = mergeTrades s.newSignalIds s.stateJson := by
      unfold StateIo.rewrite
      rw [if_pos hsave]
      split
      · rfl
      next hfail => rw [hload.resolve_left hfail]
    rw [hwrite]
    refine ⟨hs.1, fun signalId h => ?_⟩
    refine List.mem_eraseDups.2 (List.mem_append.2 ?_)
    exact (List.mem_append.1 h).imp_left (hs.2 signalId)

theorem processCloseAllFlag_recorded {io : StateIo} (hs : s.Recorded)
    (hsafe : s.closeAllFlag = false ∨ io.saveOk = true ∧ (io.loadOk = true ∨ s.stateJson.closeSignalsRequested = [])) :
    (s.processCloseAllFlag io).Recorded := by
  unfold processCloseAllFlag
  split
  next hflag =>
    obtain ⟨hsave, hload⟩ := hsafe.resolve_left (by rw [hflag]; exact Bool.noConfusion)
    have hwrite : ∃ st : StateJson, io.rewrite (fun st => { st with closeAllRequested := true }) s.stateJson =
        ⟨true, st.closeSignalsRequested⟩ ∧ st.closeSignalsRequested = s.stateJson.closeSignalsRequested := by
      unfold StateIo.rewrite
      rw [if_pos hsave]
      split
      · exact ⟨_, rfl, rfl⟩
      next hfail => exact ⟨{}, rfl, (hload.resolve_left hfail).symm⟩
    obtain ⟨st, hst, htrades⟩ := hwrite
    rw [hst]
    exact ⟨fun _ => rfl, fun signalId h => htrades ▸ hs.2 signalId h⟩
  · exact hs

theorem handleCloseAll_recorded {h : CloseAttempt} (hs : s.Recorded)
    (hsafe : (h.readOk && s.stateJson.closeAllRequested) = false ∨
      h.safe s.virtualPnlEnabled (fun _ => true) (s.stateJson.closeSignalsRequested ≠ []) = true) :
    (s.handleCloseAll h).Recorded := by
  unfold handleCloseAll
  split
  next hrequested =>
    have hsafe := hsafe.resolve_left (by rw [hrequested.1, hrequested.2]; exact Bool.noConfusion)
    rcases CloseAttempt.safe_cases hsafe with hsame | ⟨hacts, hothers⟩
    · rw [hsame]
      exact ⟨fun _ => hrequested.2, hs.2⟩
    · refine ⟨?_, ?_⟩
      · rw [hacts, Bool.not_true, Bool.and_false]
        exact Bool.noConfusion
      · dsimp only
        intro signalId hmem
        have hrecorded := hs.2 signalId hmem
        have hw := hothers (decide_eq_true fun hnil => absurd (hnil ▸ hrecorded) List.not_mem_nil)
        exact CloseAttempt.rewrite_keeps (K := fun st => signalId ∈ st.closeSignalsRequested) hw (fun _ h => h) hrecorded
  · exact hs

theorem handleCloseTrades_recorded {h : CloseAttempt} (hs : s.Recorded)
    (hsafe : (h.readOk = false ∨ s.stateJson.closeSignalsRequested = []) ∨
      h.safe s.virtualPnlEnabled (isRequested s.stateJson.closeSignalsRequested) s.stateJson.closeAllRequested = true) :
    (s.handleCloseTrades h).Recorded := by
  unfold handleCloseTrades
  dsimp only
  by_cases hread : h.readOk = true
  · rw [if_pos hread]
    split
    · exact hs
    next hids =>
      have hsafe := hsafe.resolve_left (by
        rintro (hfail | hnil)
        · rw [hread] at hfail
          cases hfail
        · exact hids hnil)
      rcases CloseAttempt.safe_cases hsafe with hsame | ⟨hacts, hothers⟩
      · rw [hsame]
        refine ⟨hs.1, fun signalId hmem => hs.2 signalId ?_⟩
        dsimp only at hmem
        split at hmem
        · exact (List.mem_filter.1 hmem).1
        · exact hmem
      · refine ⟨fun hpending => ?_, fun signalId hmem => ?_⟩
        · have hrecorded := hs.1 hpending
          exact CloseAttempt.rewrite_keeps (K := fun st => st.closeAllRequested = true) (hothers hrecorded) (fun _ h => h)
            hrecorded
        · -- every pending trade was recorded, so the handler has seen it
          dsimp only at hmem
          rw [if_pos hacts] at hmem
          obtain ⟨hmem, hnot⟩ := List.mem_filter.1 hmem
          exact absurd (hs.2 signalId hmem) (of_decide_eq_true hnot)
  · rw [if_neg hread, if_pos rfl]
    exact hs

theorem step_recorded {a : CloseAct} (hs : s.Recorded) (hsafe : s.safe a = true) (h : s.step a = some s') :
    s'.Recorded := by
  cases a with
  | postCloseAll =>
    cases h
    exact hs
  | postTrade i f =>
    cases h
    exact hs
  | processCloseTradeRequests io =>
    cases h
    exact processCloseTradeRequests_recorded hs (of_decide_eq_true hsafe)
  | processCloseAllFlag io =>
    cases h
    simp only [safe, Bool.decide_or, Bool.or_eq_true, Bool.not_eq_true', decide_eq_true_eq] at hsafe
    exact processCloseAllFlag_recorded hs (by simpa using hsafe)
  | handleCloseAll a =>
    cases h
    simp only [safe, Bool.or_eq_true, Bool.not_eq_true'] at hsafe
    exact handleCloseAll_recorded hs hsafe
  | handleCloseTrades a =>
    cases h
    simp only [safe, Bool.or_eq_true, Bool.not_eq_true', decide_eq_true_eq] at hsafe
    exact handleCloseTrades_recorded hs hsafe
  | noteClosed io =>
    cases h
    simp only [safe, Bool.or_eq_true, Bool.not_eq_true', decide_eq_true_eq] at hsafe
    rcases hsafe with hw | hempty
    · have hsame : io.rewrite id s.stateJson = s.stateJson := by
        rw [StateIo.rewrite_of_not_wipes hw]
        exact ite_self _
      rw [hsame]
      exact hs
    · obtain ⟨hall, htrades⟩ := hs.empty hempty
      exact recorded_of_pending hall htrades
  | saveState saveOk =>
    cases h
    simp only [safe, Bool.or_eq_true, Bool.not_eq_true', decide_eq_true_eq] at hsafe
    rcases hsafe with hfail | hempty
    · rw [hfail]
      exact hs
    · obtain ⟨hall, htrades⟩ := hs.empty hempty
      split
      · exact recorded_of_pending hall htrades
      · exact hs

/-- In a run whose steps are safe, every request that has been ingested is recorded until the handler has acted on
it. -/
theorem recorded_of_safe (hpending : s₀.pendingAll = false) (htrades : s₀.pendingTrades = [])
    (h : Reach step (fun s a => s.safe a = true) s₀ s) : s.Recorded :=
  h.invariant (recorded_of_pending hpending htrades) fun _ _ _ => step_recorded

/-- A request that the broker has not carried out stays while its removal fails, and goes when it has been. -/
theorem recorded_of_safe_handled : ∃ s, Reach step (fun s a => s.safe a = true) {} s ∧ s.pendingTrades = ["s1"] ∧
    s.pendingAll = false ∧ s.Recorded := by
  obtain ⟨s, hreach, hs⟩ := exists_reach step (fun s a => s.safe a = true) {}
    [.postCloseAll, .processCloseAllFlag {}, .postTrade 0 (.dict " s1"), .processCloseTradeRequests {},
      .handleCloseAll { broker := some ⟨.ok [], .ok []⟩ },
      .handleCloseTrades { broker := some ⟨.error .os, .ok []⟩, clear := { saveOk := false } }]
    (fun s => s.pendingTrades = ["s1"] ∧ s.pendingAll = false) (by decide +kernel)
  obtain ⟨htrades, hall⟩ := of_decide_eq_true hs
  exact ⟨s, hreach, htrades, hall, recorded_of_safe rfl rfl hreach⟩

end CloseRequests

end PearlAlgo
