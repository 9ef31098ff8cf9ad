import PearlAlgo.MarketAgent.ActiveTrades
import PearlAlgo.Py.Datetime
import PearlAlgo.Tradovate.Adapter

/-!
# Virtual trades of a flat account (`market_agent/service.py`)

`_sync_virtual_trades_with_broker` asks for the broker's positions and, when there are none, closes the virtual trades.
Other tasks may write to the files while it waits. `sync_correct_iff` says when it does what it is for.
-/

namespace PearlAlgo
open Py Coop

structure SyncState where
  world : World
  signals : SignalsReader
  lastVirtualTradeSync : Option ℚ := none

/-- `state_manager.append_signal`: the state manager has no such method. -/
def appendSignal (_ : SignalRecord) (_ : SignalsReader) : Except PyErr SignalsReader := .error .attributeError

/-- The loop that closes the entered trades; what raises is caught around it. -/
def closeEntered : List SignalRecord → SignalsReader → SignalsReader
  | [], signals => signals
  | r :: rest, signals =>
    if r.status = .entered then
      match appendSignal { signalId := r.signalId, status := .exited } signals with
      | .ok signals => closeEntered rest signals
      | .error _ => signals
    else closeEntered rest signals

namespace SyncState

/-- What follows the broker's answer. -/
def closeStale (positions : List Position) (s : SyncState) : SyncState :=
  let (recent, signals) := s.signals.getRecentSignals s.world.monotonic 300
  let latest := (latestById recent).values
  if ¬ (positions.any fun p => p.quantity ≠ 0) ∧ 0 < latest.countP fun r => r.status = .entered then
    { s with signals := closeEntered latest signals }
  else { s with signals }

def justSynced (now : ℚ) (s : SyncState) : Bool := s.lastVirtualTradeSync.any fun t => now - t < 60

end SyncState

def syncVirtualTradesWithBroker (cfg : ExecutionConfig) (hasAdapter : Bool) (now : ℚ) :
    Proc SyncState Answer (Except Err Unit) := do
  let s ← Proc.read
  if ¬ hasAdapter then return .ok ()
  else if s.justSynced now then return .ok ()
  else do
    Proc.modify fun s => { s with lastVirtualTradeSync := some now }
    match ← (getPositions cfg false).zoom SyncState.world fun w s => { s with world := w } with
    | .error .cancelled => return .error .cancelled
    | .error _ => return .ok ()
    | .ok positions => do
      Proc.modify (SyncState.closeStale positions)
      return .ok ()

/-! ### What it is for -/

def KnownFlat : Answer (.getPositions .sync) → Prop
  | .ok (some rows) => ∀ row ∈ rows, ∃ p, row = some p ∧ p.net = 0
  | _ => False

def SyncState.Asks (cfg : ExecutionConfig) (hasAdapter : Bool) (now : ℚ) (s : SyncState) : Prop :=
  hasAdapter = true ∧ s.justSynced now = false ∧ cfg.mode ≠ .dryRun ∧ s.world.isConnected = true ∧
    s.world.rateLimitUntil ≤ s.world.monotonic

instance (cfg : ExecutionConfig) (hasAdapter : Bool) (now : ℚ) (s : SyncState) : Decidable (s.Asks cfg hasAdapter now) :=
  inferInstanceAs (Decidable (_ ∧ _ ∧ _ ∧ _ ∧ _))

/-- The signals file when the sync comes to close trades: others may have written to it while it waited. -/
def SyncState.linesFound (cfg : ExecutionConfig) (hasAdapter : Bool) (now : ℚ) (env : Nat → Proc.Interval SyncState Answer)
    (s : SyncState) : List SignalRecord :=
  if s.Asks cfg hasAdapter now then ((env 0).others { s with lastVirtualTradeSync := some now }).signals.lines
  else s.signals.lines

/-- The sync asked, and was told that the account is flat. -/
def SyncState.ToldFlat (cfg : ExecutionConfig) (hasAdapter : Bool) (now : ℚ) (env : Nat → Proc.Interval SyncState Answer)
    (s : SyncState) : Prop :=
  s.Asks cfg hasAdapter now ∧ KnownFlat ((env 0).answer (.getPositions .sync))

/-- When the account is known to be flat no signal is left open, and otherwise the sync closes none. -/
def SyncCorrect (cfg : ExecutionConfig) (hasAdapter : Bool) (now : ℚ) (env : Nat → Proc.Interval SyncState Answer)
    (s : SyncState) : Prop :=
  let s' := ((syncVirtualTradesWithBroker cfg hasAdapter now).play env s).state
  (s.ToldFlat cfg hasAdapter now env → ∀ k, ¬ IsOpen s'.signals.lines k) ∧
    (¬ s.ToldFlat cfg hasAdapter now env → s'.signals.lines = s.linesFound cfg hasAdapter now env)

/-! ### What it does -/

section
variable {cfg : ExecutionConfig} {hasAdapter : Bool} {now : ℚ} {env : Nat → Proc.Interval SyncState Answer} {s : SyncState}

theorem lines_getRecentSignals (now : ℚ) (limit : Nat) (s : SignalsReader) :
    (s.getRecentSignals now limit).2.lines = s.lines := by
  unfold SignalsReader.getRecentSignals
  split <;> rfl

theorem lines_closeEntered (records : List SignalRecord) (signals : SignalsReader) :
    (closeEntered records signals).lines = signals.lines := by
  induction records with
  | nil => rfl
  | cons r rest ih =>
    unfold closeEntered
    split
    · rfl
    · exact ih

theorem lines_closeStale (positions : List Position) (s : SyncState) :
    (s.closeStale positions).signals.lines = s.signals.lines := by
  unfold SyncState.closeStale
  dsimp only
  split
  · exact (lines_closeEntered _ _).trans (lines_getRecentSignals _ _ _)
  · exact lines_getRecentSignals _ _ _

theorem lines_getPositions (cfg : ExecutionConfig) (env : Nat → Proc.Interval SyncState Answer) (s : SyncState) :
    (((getPositions cfg false).zoom SyncState.world fun w s => { s with world := w }).play env s).state.signals.lines =
      if cfg.mode ≠ .dryRun ∧ s.world.isConnected = true ∧ s.world.rateLimitUntil ≤ s.world.monotonic then
        ((env 0).others s).signals.lines
      else s.signals.lines := by
  by_cases hoff : cfg.mode = .dryRun ∨ ¬ s.world.isConnected = true
  · rw [if_neg (by tauto)]
    unfold getPositions
    show ((ite _ _ _ : Flow _).zoom _ _ |>.play env s).state.signals.lines = _
    rw [if_pos hoff]
    rfl
  · unfold getPositions
    show ((ite _ _ _ : Flow _).zoom _ _ |>.play env s).state.signals.lines = _
    rw [if_neg hoff]
    by_cases hcool : s.world.monotonic < s.world.rateLimitUntil
    · rw [if_pos ⟨Bool.false_ne_true, hcool⟩, if_neg fun h => absurd hcool (not_lt.2 h.2.2)]
      rfl
    · rw [if_neg fun h => hcool h.2, if_pos (by rw [not_or, not_not] at hoff; exact ⟨hoff.1, hoff.2, not_lt.1 hcool⟩)]
      rw [Proc.play_zoom_ask_bind]
      generalize (env 0).answer (.getPositions .sync) = r
      rcases r with e | rows
      · cases e <;> rfl
      · rfl

/-- Whatever the broker answers, the sync leaves the file as it finds it. -/
theorem sync_lines (cfg : ExecutionConfig) (hasAdapter : Bool) (now : ℚ) (env : Nat → Proc.Interval SyncState Answer)
    (s : SyncState) : ((syncVirtualTradesWithBroker cfg hasAdapter now).play env s).state.signals.lines =
      s.linesFound cfg hasAdapter now env := by
  unfold syncVirtualTradesWithBroker SyncState.linesFound
  rw [Proc.play_read_bind]
  by_cases hadapter : hasAdapter = true
  · rw [if_neg (not_not.2 hadapter)]
    rcases hsynced : s.justSynced now
    · rw [if_neg Bool.false_ne_true, Proc.play_modify_bind, Proc.play_bind]
      have hlines := lines_getPositions cfg env { s with lastVirtualTradeSync := some now }
      have hasks : s.Asks cfg hasAdapter now ↔
          cfg.mode ≠ .dryRun ∧ s.world.isConnected = true ∧ s.world.rateLimitUntil ≤ s.world.monotonic := by
        unfold SyncState.Asks
        simp [hadapter, hsynced]
      rw [if_congr hasks rfl rfl]
      refine Eq.trans ?_ hlines
      dsimp only
      generalize (((getPositions cfg false).zoom SyncState.world fun w s => { s with world := w }).play env
        { s with lastVirtualTradeSync := some now }) = o
      obtain ⟨trace, state, value⟩ := o
      rcases value with e | positions
      · cases e <;> rfl
      · exact lines_closeStale positions state
    · rw [if_pos rfl, if_neg fun h => by simp [SyncState.Asks, hsynced] at h]
      rfl
  · rw [if_pos hadapter, if_neg fun h => hadapter h.1]
    rfl

end

/-- The sync is correct if and only if, whenever it is told that the account is flat, no signal is open already. -/
theorem sync_correct_iff (cfg : ExecutionConfig) (hasAdapter : Bool) (now : ℚ)
    (env : Nat → Proc.Interval SyncState Answer) (s : SyncState) :
    SyncCorrect cfg hasAdapter now env s ↔
      (s.ToldFlat cfg hasAdapter now env → ∀ k, ¬ IsOpen (s.linesFound cfg hasAdapter now env) k) := by
  unfold SyncCorrect
  dsimp only
  rw [sync_lines]
  exact ⟨fun h => h.1, fun h => ⟨h, fun _ => rfl⟩⟩

/-- A connected adapter, and one entered signal in the file. -/
def openTrade : SyncState where
  world := { World.init sampleConfig 0 with connected := true, isAuthenticated := true }
  signals := { lines := [{ signalId := "s1", status := .entered, statusChange := true }] }

def flatAnswers : Nat → Proc.Interval SyncState Answer := fun _ =>
  ⟨fun q => match q with
    | .getPositions _ => .ok (some [])
    | _ => .error .timeout, id⟩

theorem not_sync_correct : ¬ ∀ cfg hasAdapter now env s, SyncCorrect cfg hasAdapter now env s := by
  intro h
  have hopen := (h sampleConfig true 100 flatAnswers openTrade).1 ⟨by decide +kernel, fun row hrow => by cases hrow⟩ "s1"
  exact hopen (by decide +kernel)

end PearlAlgo
