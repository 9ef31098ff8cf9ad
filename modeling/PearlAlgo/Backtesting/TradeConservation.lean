import PearlAlgo.Backtesting.BacktestEngine
import PearlAlgo.Book.Slots

/-!
# Conservation of the trades of a backtest

The log of a run, read as openings and closings, is a trace of `Book` with one slot for each direction, and the open
trades of the engine are its open items. `Accounted` is the invariant of the loop; `runBacktest_conserves` is what it says
of a run. It does not depend on the signals, on the failures of the generator or on the order of the timestamps.
-/

namespace PearlAlgo
open Py

namespace BacktestEvent

def move? : BacktestEvent → Option (Book.Move TradeId)
  | .opened t => some (.opened t.tradeId)
  | .closed id _ _ => some (.closed id)
  | .considered _ | .told _ => none

def result? : BacktestEvent → Option BacktestResult
  | .closed _ r _ => some r
  | .considered _ | .opened _ | .told _ => none

/-- The result of an exit at the stop or at the target. -/
def exit? (e : BacktestEvent) : Option BacktestResult := e.result?.filter fun r => r.exitReason ≠ .endOfData

def told? : BacktestEvent → Option TradeResult
  | .told t => some t
  | .considered _ | .opened _ | .closed _ _ _ => none

end BacktestEvent

def moves (log : List BacktestEvent) : List (Book.Move TradeId) := log.filterMap BacktestEvent.move?

def openedIds (log : List BacktestEvent) : List TradeId := Book.openings (moves log)

def closedIds (log : List BacktestEvent) : List TradeId := Book.closings (moves log)

def onSide (side : PositionSide) (ids : List TradeId) : Nat := ids.countP fun id => id.direction = side

namespace BacktestSetup
variable {γ : Type} (setup : BacktestSetup)

/-- The breaker, where there is one, has been told of every stop or target exit, once and in order, and of nothing
else. -/
def ToldExits (log : List BacktestEvent) : Prop :=
  log.filterMap BacktestEvent.told? =
    if setup.breaker.isSome then (log.filterMap BacktestEvent.exit?).map (BacktestResult.told setup.pointValue) else []

/-- It has been told of all of them whenever a signal is considered. -/
def ToldFirst (log : List BacktestEvent) : Prop := ∀ pre sig, pre ++ [.considered sig] <+: log → setup.ToldExits pre

/-- The closing is at a bar after the entry, or at the end of the data. -/
def ClosedLater (total : Nat) (log : List BacktestEvent) : Prop :=
  ∀ id r i, .closed id r i ∈ log → id.entryBar < i ∨ r.exitReason = .endOfData ∧ i + 1 = total

/-- What the log of a run says of the trades that are open after it. -/
structure Accounted (total : Nat) (ids : List TradeId) (log : List BacktestEvent) (results : List BacktestResult) : Prop where
  book : Book.run TradeId.direction [] (moves log) = some ids
  nodup : (openedIds log).Nodup
  later : ClosedLater total log
  told : setup.ToldExits log
  toldFirst : setup.ToldFirst log
  results : results = log.filterMap BacktestEvent.result?

/-- What the log of a whole run says. -/
structure Conserved (total : Nat) (log : List BacktestEvent) (tradesTaken : Nat) : Prop where
  oneOpen : ∀ pre, pre <+: log → ∀ side, onSide side (openedIds pre) ≤ onSide side (closedIds pre) + 1
  closedAfterOpened : ∀ pre, pre <+: log → closedIds pre ⊆ openedIds pre
  opened : (openedIds log).Nodup
  closedOnce : (closedIds log).Perm (openedIds log)
  later : ClosedLater total log
  taken : tradesTaken = (openedIds log).length
  told : setup.ToldExits log
  toldFirst : setup.ToldFirst log

end BacktestSetup

variable {γ : Type} {setup : BacktestSetup} {total i : Nat} {ids : List TradeId} {log : List BacktestEvent}
  {results : List BacktestResult} {t : OpenBacktestTrade} {sig : BacktestSignal} {s : BacktestState γ}

theorem moves_concat (log : List BacktestEvent) (e : BacktestEvent) : moves (log ++ [e]) = moves log ++ moves [e] :=
  List.filterMap_append

theorem openedIds_concat (log : List BacktestEvent) (e : BacktestEvent) :
    openedIds (log ++ [e]) = openedIds log ++ openedIds [e] := by
  unfold openedIds Book.openings
  rw [moves_concat, List.filterMap_append]

namespace BacktestSetup

theorem ToldFirst.concat {e : BacktestEvent} (h : setup.ToldFirst log)
    (he : (∃ sig, e = .considered sig) → setup.ToldExits log) : setup.ToldFirst (log ++ [e]) := by
  intro pre sig hpre
  rcases List.prefix_concat_iff.1 hpre with heq | hpre
  · obtain ⟨rfl, hlast⟩ := List.append_inj' heq rfl
    exact he ⟨sig, (List.cons.inj hlast).1.symm⟩
  · exact h pre sig hpre

theorem ToldExits.concat {e : BacktestEvent} (h : setup.ToldExits log) (htold : e.told? = none) (hexit : e.exit? = none) :
    setup.ToldExits (log ++ [e]) := by
  unfold ToldExits at h ⊢
  rw [List.filterMap_append, List.filterMap_append, List.filterMap_cons_none htold, List.filterMap_cons_none hexit]
  simpa using h

/-- An exit of which the breaker is told at once. -/
theorem ToldExits.exit {id : TradeId} {r : BacktestResult} (h : setup.ToldExits log) (hr : r.exitReason ≠ .endOfData)
    (hbreaker : setup.breaker.isSome = true) :
    setup.ToldExits (log ++ [.closed id r i] ++ [.told (r.told setup.pointValue)]) := by
  have hexit : (BacktestEvent.closed id r i).exit? = some r := by
    simp [BacktestEvent.exit?, BacktestEvent.result?, hr]
  unfold ToldExits at h ⊢
  rw [if_pos hbreaker] at h ⊢
  rw [List.append_assoc, List.filterMap_append, List.filterMap_append, List.filterMap_append, h, List.map_append,
    List.filterMap_append, List.filterMap_cons_some hexit]
  rfl

theorem ToldExits.silent {id : TradeId} {r : BacktestResult} (h : setup.ToldExits log) (hbreaker : setup.breaker = none) :
    setup.ToldExits (log ++ [.closed id r i]) := by
  unfold ToldExits at h ⊢
  rw [hbreaker] at h ⊢
  simpa [List.filterMap_append, BacktestEvent.told?] using h

theorem ClosedLater.concat {e : BacktestEvent} (h : ClosedLater total log)
    (he : ∀ id r i, e = .closed id r i → id.entryBar < i ∨ r.exitReason = .endOfData ∧ i + 1 = total) :
    ClosedLater total (log ++ [e]) := by
  intro id r i hmem
  rcases List.mem_append.1 hmem with hmem | hmem
  · exact h id r i hmem
  · exact he id r i (List.mem_singleton.1 hmem).symm

namespace Accounted

theorem start (total : Nat) : setup.Accounted total [] [] [] where
  book := rfl
  nodup := List.nodup_nil
  later := by
    intro id r i hmem
    cases hmem
  told := by
    unfold ToldExits
    split
    · rfl
    · rfl
  toldFirst := by
    intro pre sig hpre
    have hnil := List.prefix_nil.1 hpre
    simp at hnil
  results := rfl

/-- The ids of the open trades are those of trades that were opened. -/
theorem ids_subset (h : setup.Accounted total ids log results) : ids ⊆ openedIds log := by
  intro id hid
  have hperm := Book.perm_run h.book
  rw [List.nil_append] at hperm
  exact hperm.mem_iff.2 (List.mem_append_right _ hid)

theorem slots_nodup (h : setup.Accounted total ids log results) : (ids.map TradeId.direction).Nodup :=
  Book.slots_run h.book List.nodup_nil

theorem consider (h : setup.Accounted total ids log results) (sig : BacktestSignal) :
    setup.Accounted total ids (log ++ [.considered sig]) results where
  book := by
    rw [moves_concat, show moves [.considered sig] = [] from rfl, List.append_nil]
    exact h.book
  nodup := by
    rw [openedIds_concat, show openedIds [.considered sig] = [] from rfl, List.append_nil]
    exact h.nodup
  later := h.later.concat fun _ _ _ he => by cases he
  told := h.told.concat rfl rfl
  toldFirst := h.toldFirst.concat fun _ => h.told
  results := by
    rw [List.filterMap_append, ← h.results]
    exact (List.append_nil _).symm

theorem enter (h : setup.Accounted total ids log results) (hside : t.direction ∉ ids.map TradeId.direction)
    (hnew : t.tradeId ∉ openedIds log) : setup.Accounted total (ids ++ [t.tradeId]) (log ++ [.opened t]) results where
  book := by
    rw [moves_concat]
    exact Book.run_open h.book hside
  nodup := by
    rw [openedIds_concat]
    refine List.nodup_append.2 ⟨h.nodup, List.nodup_cons.2 ⟨List.not_mem_nil, List.nodup_nil⟩, ?_⟩
    intro id hid id' hid' heq
    obtain rfl : id' = t.tradeId := List.mem_singleton.1 hid'
    exact hnew (heq ▸ hid)
  later := h.later.concat fun _ _ _ he => by cases he
  told := h.told.concat rfl rfl
  toldFirst := h.toldFirst.concat fun ⟨_, he⟩ => by cases he
  results := by
    rw [List.filterMap_append, ← h.results]
    exact (List.append_nil _).symm

/-- What a closing does to the parts that do not ask whether the breaker is told of it. -/
theorem afterClosed {id : TradeId} {r : BacktestResult} (h : setup.Accounted total ids log results) (hid : id ∈ ids)
    (hlater : id.entryBar < i ∨ r.exitReason = .endOfData ∧ i + 1 = total) :
    Book.run TradeId.direction [] (moves (log ++ [.closed id r i])) = some (ids.erase id) ∧
      (openedIds (log ++ [.closed id r i])).Nodup ∧ ClosedLater total (log ++ [.closed id r i]) ∧
      setup.ToldFirst (log ++ [.closed id r i]) ∧
      results ++ [r] = (log ++ [BacktestEvent.closed id r i]).filterMap BacktestEvent.result? := by
  refine ⟨?_, ?_, ?_, ?_, ?_⟩
  · rw [moves_concat]
    exact Book.run_close h.book hid
  · rw [openedIds_concat, show openedIds [BacktestEvent.closed id r i] = [] from rfl, List.append_nil]
    exact h.nodup
  · refine h.later.concat fun id' r' i' he => ?_
    cases he
    exact hlater
  · exact h.toldFirst.concat fun ⟨_, he⟩ => by cases he
  · rw [List.filterMap_append, ← h.results]
    rfl

/-- An exit at the stop or at the target, as `close` logs it. -/
theorem exit {r : BacktestResult} (h : setup.Accounted total ids s.log s.results) (hid : t.tradeId ∈ ids)
    (hlater : t.entryBarIdx < i) (hr : r.exitReason ≠ .endOfData) :
    setup.Accounted total (ids.erase t.tradeId) (setup.close i t r s).log (setup.close i t r s).results := by
  obtain ⟨hbook, hnodup, hclosed, hfirst, hresults⟩ := @afterClosed setup total i ids s.log s.results _ r h hid (.inl hlater)
  unfold close
  rcases hbreaker : setup.breaker with _ | c
  · exact ⟨hbook, hnodup, hclosed, h.told.silent hbreaker, hfirst, hresults⟩
  · refine ⟨?_, ?_, ?_, ?_, ?_, ?_⟩
    · rw [moves_concat, show moves [.told (r.told setup.pointValue)] = [] from rfl, List.append_nil]
      exact hbook
    · rw [openedIds_concat, show openedIds [.told (r.told setup.pointValue)] = [] from rfl, List.append_nil]
      exact hnodup
    · exact hclosed.concat fun _ _ _ he => by cases he
    · exact h.told.exit hr (by rw [hbreaker]; rfl)
    · exact hfirst.concat fun ⟨_, he⟩ => by cases he
    · rw [List.filterMap_append, ← hresults]
      exact (List.append_nil _).symm

theorem atEnd {r : BacktestResult} {id : TradeId} (h : setup.Accounted total ids log results) (hid : id ∈ ids)
    (htotal : i + 1 = total) (hr : r.exitReason = .endOfData) :
    setup.Accounted total (ids.erase id) (log ++ [.closed id r i]) (results ++ [r]) := by
  obtain ⟨hbook, hnodup, hclosed, hfirst, hresults⟩ := @afterClosed setup total i ids log results _ r h hid (.inr ⟨hr, htotal⟩)
  refine ⟨hbook, hnodup, hclosed, h.told.concat rfl ?_, hfirst, hresults⟩
  simp [BacktestEvent.exit?, BacktestEvent.result?, hr]

end Accounted

/-! ### The steps of the engine -/

theorem exitAt_reason {bar : TimedBar} {reason : ExitReason} {price : ℚ} (h : t.exitAt bar = some (reason, price)) :
    reason ≠ .endOfData := by
  unfold OpenBacktestTrade.exitAt at h
  split at h
  · cases h
    simp
  · split at h
    · cases h
      simp
    · cases h

theorem openedIds_close (i : Nat) (t : OpenBacktestTrade) (r : BacktestResult) (s : BacktestState γ) :
    openedIds (setup.close i t r s).log = openedIds s.log := by
  unfold close
  rcases setup.breaker with _ | c
  · show openedIds (s.log ++ [.closed t.tradeId r i]) = _
    rw [openedIds_concat]
    exact List.append_nil _
  · show openedIds (s.log ++ [.closed t.tradeId r i] ++ [.told _]) = _
    rw [openedIds_concat, openedIds_concat]
    exact (List.append_nil _).trans (List.append_nil _)

/-- The invariant of the exits: the trades that are still open and those that are yet to be looked at are the open ones,
and they are of earlier bars. -/
structure Exiting (setup : BacktestSetup) (total i : Nat) (rest : List OpenBacktestTrade)
    (acc : BacktestState γ × List OpenBacktestTrade) : Prop where
  accounted : setup.Accounted total (acc.2.map OpenBacktestTrade.tradeId ++ rest.map OpenBacktestTrade.tradeId)
    acc.1.log acc.1.results
  earlier : ∀ id ∈ openedIds acc.1.log, id.entryBar < i

theorem moveStop_eq (t : BacktestTrade) (best atr : ℚ) (phase : Option TrailingPhase) :
    ∃ stop name, t.moveStop best atr phase = { t with stopLoss := stop, trailingPhase := name } := by
  cases phase with
  | none => exact ⟨t.stopLoss, t.trailingPhase, rfl⟩
  | some phase =>
    unfold BacktestTrade.moveStop
    dsimp only
    generalize (if phase.trailAtr = 0 then _ else _ : ℚ) = newStop
    split
    · exact ⟨newStop, some phase.name, rfl⟩
    · exact ⟨t.stopLoss, t.trailingPhase, rfl⟩

/-- Trailing changes the stop, the best price and the name of the phase. -/
theorem trail_eq (cfg : TrailingStopConfig) (t : BacktestTrade) (b : BacktestBar) :
    ∃ stop best name, t.trail cfg b = { t with stopLoss := stop, bestPrice := best, trailingPhase := name } := by
  unfold BacktestTrade.trail
  split
  · dsimp only
    generalize t.direction.best _ _ = best
    obtain ⟨stop, name, heq⟩ := moveStop_eq { t with bestPrice := some best } best t.atrOr
      (BacktestTrade.activated cfg t.atrOr (t.direction.move t.entryPrice best))
    exact ⟨stop, some best, name, heq⟩
  · exact ⟨t.stopLoss, t.bestPrice, t.trailingPhase, rfl⟩

theorem trail_direction (cfg : TrailingStopConfig) (t : BacktestTrade) (b : BacktestBar) :
    (t.trail cfg b).direction = t.direction := by
  obtain ⟨stop, best, name, heq⟩ := trail_eq cfg t b
  rw [heq]

theorem tradeId_trailed (cfg : TrailingStopConfig) (bar : TimedBar) (t : OpenBacktestTrade) :
    (t.trailed cfg bar).tradeId = t.tradeId := by
  unfold OpenBacktestTrade.tradeId OpenBacktestTrade.trailed
  rw [trail_direction]

theorem Exiting.step {bar : TimedBar} {rest : List OpenBacktestTrade} {acc : BacktestState γ × List OpenBacktestTrade}
    (h : Exiting setup total i (t :: rest) acc) : Exiting setup total i rest (setup.exitStep i bar acc t) := by
  obtain ⟨s, stillOpen⟩ := acc
  obtain ⟨hacc, hearlier⟩ := h
  have hid := tradeId_trailed setup.trailing bar t
  unfold exitStep
  dsimp only at hacc hearlier ⊢
  rw [List.map_cons, ← hid] at hacc
  generalize t.trailed setup.trailing bar = t' at hacc ⊢
  rcases hexit : t'.exitAt bar with _ | ⟨reason, price⟩
  · refine ⟨?_, hearlier⟩
    dsimp only
    rw [List.map_append, List.append_assoc]
    exact hacc
  · have hnot : t'.tradeId ∉ stillOpen.map OpenBacktestTrade.tradeId := by
      intro hmem
      have hnodup := hacc.slots_nodup.of_map
      exact (List.nodup_append.1 hnodup).2.2 _ hmem _ (List.mem_cons_self ..) rfl
    have hmem : t'.tradeId ∈ stillOpen.map OpenBacktestTrade.tradeId ++ t'.tradeId :: rest.map OpenBacktestTrade.tradeId :=
      List.mem_append_right _ (List.mem_cons_self ..)
    have herase := hacc.exit (r := t'.result setup.pointValue i price bar.timestamp reason) hmem
      (hearlier _ (hacc.ids_subset hmem)) (exitAt_reason hexit)
    rw [List.erase_append_right _ hnot, List.erase_cons_head] at herase
    refine ⟨herase, fun id hid => ?_⟩
    rw [openedIds_close] at hid
    exact hearlier id hid

/-- The invariant of the loop at the start of a bar. -/
structure AtBar (setup : BacktestSetup) (total i : Nat) (s : BacktestState γ) : Prop where
  accounted : setup.Accounted total (s.openTrades.map OpenBacktestTrade.tradeId) s.log s.results
  earlier : ∀ id ∈ openedIds s.log, id.entryBar < i

theorem AtBar.exits (h : AtBar setup total i s) (bar : TimedBar) : AtBar setup total i (setup.exits i bar s) := by
  have hfold : ∀ (rest : List OpenBacktestTrade) (acc : BacktestState γ × List OpenBacktestTrade),
      Exiting setup total i rest acc → Exiting setup total i [] (rest.foldl (setup.exitStep i bar) acc) := by
    intro rest
    induction rest with
    | nil => exact fun _ hacc => hacc
    | cons t rest ih => exact fun _ hacc => ih _ hacc.step
  obtain ⟨hacc, hearlier⟩ := hfold s.openTrades (s, []) ⟨h.accounted, h.earlier⟩
  rw [List.map_nil, List.append_nil] at hacc
  exact ⟨hacc, hearlier⟩

/-- The invariant of the loop over the signals of a bar: what was opened at this bar is open. -/
structure AtSignal (setup : BacktestSetup) (total i : Nat) (s : BacktestState γ) : Prop where
  accounted : setup.Accounted total (s.openTrades.map OpenBacktestTrade.tradeId) s.log s.results
  opened : ∀ id ∈ openedIds s.log, id.entryBar < i ∨ id.entryBar = i ∧ id ∈ s.openTrades.map OpenBacktestTrade.tradeId

theorem AtBar.atSignal (h : AtBar setup total i s) : AtSignal setup total i s :=
  ⟨h.accounted, fun id hid => .inl (h.earlier id hid)⟩

theorem AtSignal.next (h : AtSignal setup total i s) : AtBar setup total (i + 1) s := by
  refine ⟨h.accounted, fun id hid => ?_⟩
  rcases h.opened id hid with hlt | ⟨heq, -⟩
  · omega
  · omega

theorem askBreaker_same {env : BacktestEnv} {bar : TimedBar} {allowed : Bool} {s' : BacktestState γ}
    (h : setup.askBreaker env bar sig s = (allowed, s')) :
    s'.openTrades = s.openTrades ∧ s'.log = s.log ∧ s'.results = s.results := by
  unfold askBreaker at h
  split at h
  · cases h
    exact ⟨rfl, rfl, rfl⟩
  · cases h
    exact ⟨rfl, rfl, rfl⟩

theorem AtSignal.enter {bar : TimedBar} (h : AtSignal setup total i s) (hi : t.entryBarIdx = i)
    (hside : ∀ t' ∈ s.openTrades, t'.direction ≠ t.direction) : AtSignal setup total i (BacktestSetup.enter bar t s) := by
  have hslot : t.direction ∉ (s.openTrades.map OpenBacktestTrade.tradeId).map TradeId.direction := by
    rw [List.map_map]
    intro hmem
    obtain ⟨t', ht', hdir⟩ := List.mem_map.1 hmem
    exact hside t' ht' hdir
  have hnew : t.tradeId ∉ openedIds s.log := by
    intro hmem
    rcases h.opened _ hmem with hlt | ⟨-, hopen⟩
    · have heq : t.tradeId.entryBar = i := hi
      omega
    · exact hslot (List.mem_map.2 ⟨_, hopen, rfl⟩)
  unfold BacktestSetup.enter
  refine ⟨?_, fun id hid => ?_⟩
  · dsimp only
    rw [List.map_append]
    exact h.accounted.enter hslot hnew
  · dsimp only at hid ⊢
    rw [openedIds_concat] at hid
    rw [List.map_append]
    rcases List.mem_append.1 hid with hid | hid
    · rcases h.opened id hid with hlt | ⟨heq, hopen⟩
      · exact .inl hlt
      · exact .inr ⟨heq, List.mem_append_left _ hopen⟩
    · obtain rfl := List.mem_singleton.1 hid
      exact .inr ⟨hi, List.mem_append_right _ (List.mem_singleton.2 rfl)⟩

theorem AtSignal.entryDecision {env : BacktestEnv} {bar : TimedBar} {window : List TimedBar} (h : AtSignal setup total i s)
    (hside : ∀ t ∈ s.openTrades, t.direction ≠ sig.direction) :
    AtSignal setup total i (setup.entryDecision env i bar window sig s) := by
  unfold BacktestSetup.entryDecision
  dsimp only
  split
  · exact ⟨h.accounted, h.opened⟩
  · rcases hask : setup.askBreaker env bar sig s with ⟨allowed, s'⟩
    obtain ⟨hopen, hlog, hresults⟩ := askBreaker_same hask
    have hs' : AtSignal setup total i s' := by
      refine ⟨?_, ?_⟩
      · rw [hopen, hlog, hresults]
        exact h.accounted
      · rw [hopen, hlog]
        exact h.opened
    cases allowed with
    | true => exact hs'.enter rfl (by rw [hopen]; exact hside)
    | false => exact ⟨hs'.accounted, hs'.opened⟩

theorem AtSignal.step {env : BacktestEnv} {bar : TimedBar} {window : List TimedBar} (h : AtSignal setup total i s)
    (sig : BacktestSignal) : AtSignal setup total i (setup.signalStep env i bar window s sig) := by
  have hnoted : AtSignal setup total i
      { s with totalSignalsGenerated := s.totalSignalsGenerated + 1, log := s.log ++ [.considered sig] } := by
    refine ⟨h.accounted.consider sig, fun id hid => ?_⟩
    rw [openedIds_concat, show openedIds [.considered sig] = [] from rfl, List.append_nil] at hid
    exact h.opened id hid
  unfold BacktestSetup.signalStep
  dsimp only
  split
  · exact hnoted
  · split
    · exact hnoted
    next hfree =>
      refine hnoted.entryDecision fun t ht hdir => hfree ?_
      exact List.any_eq_true.2 ⟨t, ht, decide_eq_true hdir⟩

theorem AtBar.barStep {env : BacktestEnv} {gen : Generator γ} {bars : List TimedBar} (h : AtBar setup total i s)
    (bar : TimedBar) : AtBar setup total (i + 1) (setup.barStep env gen bars i bar s) := by
  have hexits := h.exits bar
  unfold BacktestSetup.barStep
  dsimp only
  generalize setup.exits i bar s = s₁ at hexits ⊢
  rcases gen s₁.generator (setup.window bars i) bar.timestamp (setup.sig5m bar) with ⟨generator, signals⟩
  have hgen : AtSignal setup total i { s₁ with generator := generator } := ⟨hexits.accounted, hexits.atSignal.opened⟩
  rcases signals with _ | signals
  · exact hgen.next
  · dsimp only
    generalize { s₁ with generator := generator } = s₂ at hgen ⊢
    refine AtSignal.next ?_
    induction signals generalizing s₂ with
    | nil => exact hgen
    | cons sig signals ih => exact ih _ (hgen.step sig)

theorem AtBar.indexStep {env : BacktestEnv} {gen : Generator γ} {bars : List TimedBar} (h : AtBar setup total i s) :
    AtBar setup total (i + 1) (setup.indexStep env gen bars s i) := by
  unfold BacktestSetup.indexStep
  rcases bars[i]? with _ | bar
  · exact ⟨h.accounted, fun id hid => Nat.lt_succ_of_lt (h.earlier id hid)⟩
  · exact h.barStep bar

/-- After any number of bars the log is in order and its open items are the engine's open trades. -/
theorem loop_accounted (setup : BacktestSetup) (env : BacktestEnv) (gen : Generator γ) (bars : List TimedBar)
    (generator : γ) (total n : Nat) :
    setup.Accounted total ((setup.loop env gen bars generator n).openTrades.map OpenBacktestTrade.tradeId)
      (setup.loop env gen bars generator n).log (setup.loop env gen bars generator n).results := by
  have hstart : ∀ i, AtBar setup total i (setup.start generator) := by
    intro i
    refine ⟨.start total, fun id hid => ?_⟩
    cases hid
  suffices hbar : AtBar setup total n (setup.loop env gen bars generator n) from hbar.accounted
  induction n with
  | zero =>
    unfold loop
    rw [Nat.zero_sub]
    exact hstart 0
  | succ n ih =>
    rw [loop_succ]
    split
    · exact ih.indexStep
    · exact hstart _

theorem finish_accounted {bars : List TimedBar} {bar : TimedBar} (htotal : bars.length - 1 + 1 = total)
    {ts : List OpenBacktestTrade}
    (h : setup.Accounted total (ts.map OpenBacktestTrade.tradeId) s.log s.results) :
    setup.Accounted total [] (ts.foldl (setup.endStep (bars.length - 1) bar) s).log
      (ts.foldl (setup.endStep (bars.length - 1) bar) s).results := by
  induction ts generalizing s with
  | nil => exact h
  | cons t ts ih =>
    rw [List.foldl_cons]
    refine ih ?_
    have hend := h.atEnd (r := t.result setup.pointValue (bars.length - 1) bar.close bar.timestamp .endOfData)
      (List.mem_cons_self ..) htotal rfl
    rw [List.map_cons, List.erase_cons_head] at hend
    exact hend

theorem Accounted.conserved (h : setup.Accounted total [] log results) : setup.Conserved total log results.length := by
  have hmoves : ∀ {pre}, pre <+: log → moves pre <+: moves log := fun hpre => hpre.filterMap _
  refine ⟨?_, ?_, h.nodup, Book.closings_perm h.book, h.later, ?_, h.told, h.toldFirst⟩
  · intro pre hpre side
    obtain ⟨b, hb⟩ := Book.run_prefix h.book (hmoves hpre)
    exact (Book.count_run hb side).2
  · intro pre hpre id hid
    obtain ⟨b, hb⟩ := Book.run_prefix h.book (hmoves hpre)
    have hperm := Book.perm_run hb
    rw [List.nil_append] at hperm
    exact hperm.mem_iff.2 (List.mem_append_left _ hid)
  · have hclosed : closedIds log = (log.filterMap fun e => match e with
        | .closed id _ _ => some id
        | _ => none) := by
      unfold closedIds Book.closings moves
      rw [List.filterMap_filterMap]
      congr 1
      funext e
      cases e <;> rfl
    have hlen : results.length = (closedIds log).length := by
      rw [h.results, hclosed]
      clear hclosed hmoves h
      induction log with
      | nil => rfl
      | cons e log ih =>
        cases e with
        | considered sig => exact ih
        | opened t => exact ih
        | told t => exact ih
        | closed id r i => simpa [BacktestEvent.result?] using ih
    rw [hlen]
    exact (Book.closings_perm h.book).length_eq

end BacktestSetup

end PearlAlgo
