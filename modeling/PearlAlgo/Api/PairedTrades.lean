import PearlAlgo.Lts.Reach
import PearlAlgo.MarketAgent.FillsFile
import PearlAlgo.Py.TtlCache

/-!
# The cached paired trades (`api/tradovate_helpers.py`, `api/data_layer.py`)

`get_paired_tradovate_trades` serves its result for ten seconds under a key that names the directory only. A call
starts at `now` and reads the files at `readAt`; the files change as they like. `call_right_iff` says when a call
gets what it asked for.
-/

namespace PearlAlgo
open Py Lts

/-! ### The pairing -/

/-- What `_load_signal_trade_candidates` makes of `signals.jsonl`. -/
structure SignalCandidate where
  signalId : String
  direction : TradeDirection
  entryPrice : ℚ
  positionSize : Int
  timestamp : ℚ
  signalType : Option String := none
  stopLoss : Option ℚ := none
  takeProfit : Option ℚ := none

/-- A paired trade and what a candidate adds to it; `pearlId` replaces its `signal_id`. -/
structure AttributedTrade where
  trade : Trade
  pearlId : Option String := none
  signalType : Option String := none
  stopLoss : Option ℚ := none
  takeProfit : Option ℚ := none
deriving DecidableEq

structure DirFiles where
  fills : FillStore := {}
  candidates : List SignalCandidate := []

def PRICE_DELTA_TOL : ℚ := 10

def TIME_DELTA_TOL_S : ℚ := 180

/-- `eligible`: time difference, price difference and place of the candidates of the trade. -/
def eligible (trade : Trade) (tradeTime : ℚ) (remaining : List SignalCandidate) : List (ℚ × ℚ × Nat) :=
  remaining.zipIdx.filterMap fun (candidate, idx) =>
    let priceDelta := |candidate.entryPrice - trade.entryPrice|
    let timeDelta := |candidate.timestamp - tradeTime|
    if candidate.direction = trade.direction ∧ candidate.positionSize = trade.positionSize ∧
        priceDelta ≤ PRICE_DELTA_TOL ∧ timeDelta ≤ TIME_DELTA_TOL_S then some (timeDelta, priceDelta, idx)
    else none

def tupleLt (a b : ℚ × ℚ × Nat) : Bool :=
  a.1 < b.1 ∨ a.1 = b.1 ∧ (a.2.1 < b.2.1 ∨ a.2.1 = b.2.1 ∧ a.2.2 < b.2.2)

def minTuple : List (ℚ × ℚ × Nat) → Option (ℚ × ℚ × Nat)
  | [] => none
  | a :: l => some (l.foldl (fun best b => if tupleLt b best then b else best) a)

def enrich (trade : Trade) (cand : SignalCandidate) : AttributedTrade where
  trade := trade
  pearlId := if cand.signalId = "" then none else some cand.signalId
  signalType := cand.signalType.filter (· ≠ "")
  stopLoss := cand.stopLoss.filter (· ≠ 0)
  takeProfit := cand.takeProfit.filter (· ≠ 0)

/-- `_attribute_trades_to_pearl_signals`, where `parse` is `parse_trade_timestamp`. -/
def attributeTrades (parse : String → Option ℚ) : List Trade → List SignalCandidate → List AttributedTrade
  | [], _ => []
  | trade :: trades, remaining =>
    let best := do
      let (_, _, idx) ← minTuple (eligible trade (← parse (trade.entryTime.getD "")) remaining)
      return (← remaining[idx]?, idx)
    match best with
    | some (cand, idx) => enrich trade cand :: attributeTrades parse trades (remaining.eraseIdx idx)
    | none => { trade } :: attributeTrades parse trades remaining

/-- The filter of `active_fills`. -/
def Fill.isActive (f : Fill) : Except Err Bool := do
  if f.side.isNone ∨ f.timestamp.getD "" = "" then return false
  let price := f.price.getD (.ofFloat 0)
  let price ← (if price.truthy then price else .ofFloat 0).float
  if price ≤ 0 then return false
  let qty := f.qty.getD (.ofInt 0)
  return 0 < (← (if qty.truthy then qty else .ofInt 0).int)

/-- `_pair` -/
def pairFills (parse : String → Option ℚ) (fills : Option (List Fill)) (files : DirFiles) :
    Except Err (List AttributedTrade) := do
  let activeFills ← match fills with
    | none => files.fills.getTradovateState
    | some fills => .ok (fills.map normalizeFill)
  let paired ← tradovateFillsToTrades (← activeFills.filterM Fill.isActive)
  return attributeTrades parse paired files.candidates

/-! ### The calls -/

structure PairCall where
  dir : String
  fills : Option (List Fill)
  now : ℚ
  readAt : ℚ

/-- The process: its cache, where each value has the call that computed it, and the time. No code reads that call. -/
structure ApiProcess where
  cache : TtlCache String (List AttributedTrade × PairCall) := {}
  clock : ℚ

inductive ApiAct
  | paired (call : PairCall)
  /-- A call of `cached` under a key of another kind. -/
  | other (now : ℚ)

section
variable (parse : String → Option ℚ) (world : ℚ → String → DirFiles)

namespace PairCall

/-- What the call computes where nothing is cached. -/
def uncached (call : PairCall) : Except Err (List AttributedTrade) :=
  pairFills parse call.fills (world call.readAt call.dir)

/-- `get_paired_tradovate_trades` -/
def run (call : PairCall) (s : ApiProcess) :
    Except Err (List AttributedTrade) × TtlCache String (List AttributedTrade × PairCall) :=
  let r := s.cache.cached 60 ("tv_paired_trades:" ++ call.dir) 10 call.now ((call.uncached parse world).map (·, call))
  (r.1.map Prod.fst, r.2)

/-- The call gets the pairing of its list, or else of the fills of the directory at a time within ten seconds. -/
def Right (call : PairCall) (result : Except Err (List AttributedTrade)) : Prop :=
  match call.fills with
  | some fills => result = pairFills parse (some fills) (world call.readAt call.dir)
  | none => ∃ t, call.now < t + 10 ∧ t ≤ call.readAt ∧ result = pairFills parse none (world t call.dir)

end PairCall

def ApiProcess.step (s : ApiProcess) : ApiAct → Option ApiProcess
  | .paired call =>
    if s.clock ≤ call.now ∧ call.now ≤ call.readAt then some ⟨(call.run parse world s).2, call.readAt⟩ else none
  | .other now => if s.clock ≤ now then some ⟨s.cache.swept 60 now, now⟩ else none

/-- The fresh entry that the call finds, if there is one, was computed by a call whose pairing is right for this one
too. -/
def ApiProcess.Suits (s : ApiProcess) (call : PairCall) : Prop :=
  ∀ p, s.cache.fresh? ("tv_paired_trades:" ++ call.dir) call.now = some p → call.Right parse world (p.2.uncached parse world)

end

/-! ### What the cache holds -/

section
variable {parse : String → Option ℚ} {world : ℚ → String → DirFiles} {s s' : ApiProcess} {call : PairCall}

/-- Each value is what its call computed, and expires ten seconds after the call. -/
def ApiProcess.Sound (parse : String → Option ℚ) (world : ℚ → String → DirFiles) (s : ApiProcess) : Prop :=
  ∀ key e, s.cache.entries.get? key = some e →
    key = "tv_paired_trades:" ++ e.1.2.dir ∧ e.1.2.uncached parse world = .ok e.1.1 ∧ e.2 = e.1.2.now + 10 ∧
      e.1.2.now ≤ e.1.2.readAt ∧ e.1.2.readAt ≤ s.clock

theorem ApiProcess.step_paired (htime : s.clock ≤ call.now ∧ call.now ≤ call.readAt) :
    s.step parse world (.paired call) = some ⟨(call.run parse world s).2, call.readAt⟩ := by
  rw [ApiProcess.step, if_pos htime]

/-- For a call without a list, the entry of another one without a list suits. -/
theorem ApiProcess.suits_of_none (hs : s.Sound parse world) (hclock : s.clock ≤ call.now) (hread : call.now ≤ call.readAt)
    (hcall : call.fills = none)
    (hby : ∀ p, s.cache.fresh? ("tv_paired_trades:" ++ call.dir) call.now = some p → p.2.fills = none) :
    s.Suits parse world call := by
  intro p hp
  obtain ⟨expires, hget, hfresh⟩ := TtlCache.fresh?_eq_some.1 hp
  obtain ⟨hkey, -, hexpires, hstart, hend⟩ := hs _ _ hget
  have hdir : call.dir = p.2.dir := String.append_right_inj _ |>.1 hkey
  simp only at hexpires
  rw [PairCall.Right, hcall]
  refine ⟨p.2.readAt, by linarith, by linarith, ?_⟩
  rw [PairCall.uncached, hby p hp, hdir]

theorem ApiProcess.Sound.step {a : ApiAct} (hs : s.Sound parse world) (hstep : s.step parse world a = some s') :
    s'.Sound parse world := by
  rcases a with call | now
  · simp only [ApiProcess.step] at hstep
    split at hstep
    next htime =>
      obtain rfl := Option.some.inj hstep
      intro key e hget
      rcases TtlCache.get?_cached hget with hold | ⟨rfl, value, hvalue, rfl⟩
      · obtain ⟨hkey, hval, hexpires, hstart, hend⟩ := hs key e hold
        exact ⟨hkey, hval, hexpires, hstart, hend.trans (htime.1.trans htime.2)⟩
      · rcases hcompute : call.uncached parse world with err | trades
        · rw [hcompute] at hvalue
          cases hvalue
        · rw [hcompute] at hvalue
          obtain rfl := Except.ok.inj hvalue
          exact ⟨rfl, hcompute, rfl, htime.2, le_rfl⟩
    · cases hstep
  · simp only [ApiProcess.step] at hstep
    split at hstep
    next htime =>
      obtain rfl := Option.some.inj hstep
      intro key e hget
      obtain ⟨hkey, hval, hexpires, hstart, hend⟩ := hs key e (TtlCache.get?_swept hget)
      exact ⟨hkey, hval, hexpires, hstart, hend.trans htime⟩
    · cases hstep

theorem ApiProcess.sound_of_reach {t₀ : ℚ} (h : Reach (ApiProcess.step parse world) AnyStep ⟨{}, t₀⟩ s) :
    s.Sound parse world := by
  refine h.invariant ?_ fun s a s' hs _ hstep => hs.step hstep
  rintro key e hget
  cases hget

/-- A call gets what it asked for when it finds no fresh entry, or one that suits it. -/
theorem call_right_iff {t₀ : ℚ} (h : Reach (ApiProcess.step parse world) AnyStep ⟨{}, t₀⟩ s)
    (hstep : s.step parse world (.paired call) = some s') :
    call.Right parse world (call.run parse world s).1 ↔ s.Suits parse world call := by
  have hsound := ApiProcess.sound_of_reach h
  have htime : s.clock ≤ call.now ∧ call.now ≤ call.readAt := by
    by_contra htime
    rw [ApiProcess.step, if_neg htime] at hstep
    cases hstep
  rcases hfresh : s.cache.fresh? ("tv_paired_trades:" ++ call.dir) call.now with _ | p
  · -- the call computes its result
    have hrun : (call.run parse world s).1 = call.uncached parse world := by
      rw [PairCall.run, TtlCache.cached_of_stale hfresh]
      rcases call.uncached parse world with e | trades
      · rfl
      · rfl
    refine iff_of_true ?_ fun p hp => by rw [hfresh] at hp; cases hp
    rw [hrun, PairCall.Right]
    rcases hfills : call.fills with _ | fills
    · exact ⟨call.readAt, by linarith [htime.2], le_rfl, by rw [PairCall.uncached, hfills]⟩
    · show call.uncached parse world = _
      rw [PairCall.uncached, hfills]
  · -- the call is served what another one computed
    obtain ⟨expires, hget, -⟩ := TtlCache.fresh?_eq_some.1 hfresh
    have hrun : (call.run parse world s).1 = p.2.uncached parse world := by
      rw [PairCall.run, TtlCache.cached_of_fresh hfresh, (hsound _ _ hget).2.1]
      rfl
    rw [hrun]
    constructor
    · intro hright p' hp'
      rw [hfresh] at hp'
      obtain rfl := Option.some.inj hp'
      exact hright
    · intro hsuits
      exact hsuits p hfresh

end

/-! ### Two calls within ten seconds -/

def roundTrip : List Fill :=
  [{ id := some 1, action := some "Buy", price := some (.ofInt 100), qty := some (.ofInt 1), timestamp := some "09:30" },
    { id := some 2, action := some "Sell", price := some (.ofInt 102), qty := some (.ofInt 1), timestamp := some "09:40" }]

def callAt (now : ℚ) (fills : Option (List Fill)) : PairCall := ⟨"paper", fills, now, now⟩

/-- The process after a first call at the start. -/
def afterCall (fills : Option (List Fill)) : ApiProcess :=
  ⟨((callAt 0 fills).run (fun _ => none) (fun _ _ => {}) ⟨{}, 0⟩).2, 0⟩

theorem afterCall_reach (fills : Option (List Fill)) :
    Reach (ApiProcess.step (fun _ => none) fun _ _ => {}) AnyStep ⟨{}, 0⟩ (afterCall fills) :=
  .step .start (a := .paired (callAt 0 fills)) trivial (ApiProcess.step_paired ⟨le_rfl, le_rfl⟩)

theorem right_without_lists : (callAt 1 none).Right (fun _ => none) (fun _ _ => {})
    ((callAt 1 none).run (fun _ => none) (fun _ _ => {}) (afterCall none)).1 := by
  have htime : (afterCall none).clock ≤ (callAt 1 none).now ∧ (callAt 1 none).now ≤ (callAt 1 none).readAt := by
    decide +kernel
  refine (call_right_iff (afterCall_reach none) (ApiProcess.step_paired htime)).2 ?_
  refine ApiProcess.suits_of_none (ApiProcess.sound_of_reach (afterCall_reach none)) htime.1 htime.2 rfl ?_
  intro p hp
  have hfills : ((afterCall none).cache.fresh? ("tv_paired_trades:" ++ (callAt 1 none).dir) (callAt 1 none).now).all
      (fun p => p.2.fills.isNone) = true := by decide +kernel
  rw [hp] at hfills
  exact Option.isNone_iff_eq_none.1 hfills

/-- After a call with no fills, the pairing of two fills is served as empty. -/
theorem list_ignored : ¬ ∀ (parse : String → Option ℚ) (world : ℚ → String → DirFiles) (t₀ : ℚ) (s s' : ApiProcess)
    (call : PairCall), Reach (ApiProcess.step parse world) AnyStep ⟨{}, t₀⟩ s →
    s.step parse world (.paired call) = some s' → call.Right parse world (call.run parse world s).1 := by
  intro h
  have hright := h (fun _ => none) (fun _ _ => {}) 0 _ _ (callAt 1 (some roundTrip)) (afterCall_reach (some []))
    (ApiProcess.step_paired (by decide +kernel))
  have hlength := congrArg (fun r => r.toOption.map List.length) hright
  revert hlength
  decide +kernel

end PearlAlgo
