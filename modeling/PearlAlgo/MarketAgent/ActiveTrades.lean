import PearlAlgo.MarketAgent.VirtualTradeManager

/-!
# Active virtual trades (`position_tracker.py`, `service.py`, `execution_orchestrator.py`, `state_manager.py`)

`get_active_virtual_trades` takes the `entered` records among the last lines of `signals.jsonl`, as
`get_recent_signals` returns them, possibly from its cache. The file is append-only: a signal that exits keeps its
`entered` line. `exactly_open_iff` says when the result is right all the same.
-/

namespace PearlAlgo
open Py

structure SignalsCache where
  signals : List SignalRecord
  time : ℚ
  limit : Nat

/-- `signals.jsonl` and the cache of its reader. No code reads `seen`, the file as it was when the cache was filled. -/
structure SignalsReader where
  lines : List SignalRecord := []
  cache : Option SignalsCache := none
  seen : List SignalRecord := []
  valid : ∀ c ∈ cache, c.signals = lastN c.limit seen ∧ seen <+: lines := by intro c hc; cases hc

def SIGNALS_CACHE_TTL : ℚ := 15

namespace SignalsReader

/-- The append of `save_signal`, which clears the cache. -/
def saveSignal (r : SignalRecord) (s : SignalsReader) : SignalsReader := { lines := s.lines ++ [r] }

def appendStatus (r : SignalRecord) (s : SignalsReader) : SignalsReader where
  lines := s.lines ++ [r]
  cache := s.cache
  seen := s.seen
  valid := fun c hc => ⟨(s.valid c hc).1, (s.valid c hc).2.trans (List.prefix_append _ _)⟩

def freshCache (now : ℚ) (limit : Nat) (s : SignalsReader) : Option SignalsCache :=
  s.cache.filter fun c => now - c.time < SIGNALS_CACHE_TTL ∧ limit ≤ c.limit

def getRecentSignals (now : ℚ) (limit : Nat) (s : SignalsReader) : List SignalRecord × SignalsReader :=
  match s.freshCache now limit with
  | some c => (lastN limit c.signals, s)
  | none =>
    let signals := lastN limit s.lines
    (signals,
      { lines := s.lines, cache := some ⟨signals, now, limit⟩, seen := s.lines
        valid := by rintro c ⟨⟩; exact ⟨rfl, List.prefix_rfl⟩ })

def getActiveVirtualTrades (now : ℚ) (limit : Nat) (s : SignalsReader) : List SignalRecord :=
  (s.getRecentSignals now limit).1.filter fun r => r.status = .entered

/-- The lines that the reader looks at: the last ones of the file, as it is or as it was when it was cached. -/
def window (now : ℚ) (limit : Nat) (s : SignalsReader) : List SignalRecord :=
  lastN limit (if (s.freshCache now limit).isSome then s.seen else s.lines)

end SignalsReader

/-- The latest record of the signal says `entered`. -/
def IsOpen (lines : List SignalRecord) (signalId : String) : Prop :=
  ∃ r ∈ lines.findRev? fun r => r.signalId = signalId, r.status = .entered

instance (lines : List SignalRecord) (signalId : String) : Decidable (IsOpen lines signalId) :=
  inferInstanceAs (Decidable (∃ r ∈ lines.findRev? fun r => r.signalId = signalId, r.status = .entered))

/-- There is one record for each open signal, and none for another one. -/
def ExactlyOpen (lines active : List SignalRecord) : Prop :=
  ∀ signalId, active.countP (fun r => r.signalId = signalId) = if IsOpen lines signalId then 1 else 0

/-- A signal that has exited is still active. -/
theorem not_exactly_open : ¬ ∀ (s : SignalsReader) (now : ℚ) (limit : Nat), 0 < limit →
    ExactlyOpen s.lines (s.getActiveVirtualTrades now limit) := by
  intro hall
  let s : SignalsReader := {}
  let s := s.saveSignal { signalId := "s1", status := .generated }
  let s := s.appendStatus { signalId := "s1", status := .entered, statusChange := true }
  let s := s.appendStatus { signalId := "s1", status := .exited, statusChange := true }
  exact absurd (hall s 0 300 (by decide) "s1") (by decide +kernel)

/-- The `entered` lines of the window, seen from the whole file. -/
structure Separated (lines window : List SignalRecord) : Prop where
  /-- No signal has two of them. -/
  once : window.Pairwise fun x y => x.status = .entered → y.status = .entered → x.signalId ≠ y.signalId
  /-- The last line of the signal says `entered`, too. -/
  last : ∀ x ∈ window, x.status = .entered → ∃ before y after, lines = before ++ y :: after ∧
    y.status = .entered ∧ y.signalId = x.signalId ∧ ∀ z ∈ after, z.signalId ≠ x.signalId
  /-- The window reaches to a line of each signal whose last line says `entered`. -/
  reaches : ∀ before y after, lines = before ++ y :: after → y.status = .entered →
    (∀ z ∈ after, z.signalId ≠ y.signalId) → ∃ x ∈ window, x.status = .entered ∧ x.signalId = y.signalId

theorem isOpen_iff {lines : List SignalRecord} {signalId : String} :
    IsOpen lines signalId ↔ ∃ before y after, lines = before ++ y :: after ∧ y.status = .entered ∧
      y.signalId = signalId ∧ ∀ z ∈ after, z.signalId ≠ signalId := by
  unfold IsOpen
  rw [List.findRev?_eq_find?_reverse]
  constructor
  · rintro ⟨y, hy, hstatus⟩
    obtain ⟨hid, after, before, hsplit, hafter⟩ := List.find?_eq_some_iff_append.1 hy
    refine ⟨before.reverse, y, after.reverse, ?_, hstatus, of_decide_eq_true hid, fun z hz => ?_⟩
    · rw [← List.reverse_reverse lines, hsplit]
      simp
    · simpa using hafter z (List.mem_reverse.1 hz)
  · rintro ⟨before, y, after, rfl, hstatus, hid, hafter⟩
    refine ⟨y, List.find?_eq_some_iff_append.2 ⟨decide_eq_true hid, after.reverse, before.reverse, by simp, ?_⟩, hstatus⟩
    intro z hz
    simpa using hafter z (List.mem_reverse.1 hz)

theorem countP_le_one {α : Type} {p : α → Bool} {l : List α}
    (h : l.Pairwise fun x y => ¬ (p x = true ∧ p y = true)) : l.countP p ≤ 1 := by
  induction l with
  | nil => exact Nat.zero_le 1
  | cons a l ih =>
    obtain ⟨ha, hl⟩ := List.pairwise_cons.1 h
    rw [List.countP_cons]
    split
    next hpa =>
      have hzero : l.countP p = 0 := List.countP_eq_zero.2 fun b hb hpb => ha b hb ⟨hpa, hpb⟩
      omega
    · exact ih hl

namespace SignalsReader

variable {s : SignalsReader} {now : ℚ} {limit : Nat}

theorem getRecentSignals_fst (hlimit : 0 < limit) : (s.getRecentSignals now limit).1 = s.window now limit := by
  unfold getRecentSignals window
  cases hcache : s.freshCache now limit with
  | none => rfl
  | some c =>
    obtain ⟨hc, huse⟩ := Option.filter_eq_some_iff.1 hcache
    obtain ⟨-, hle⟩ := of_decide_eq_true huse
    show lastN limit c.signals = lastN limit s.seen
    rw [(s.valid c hc).1, lastN_lastN hlimit hle]

/-- The active trades are the open ones exactly when the `entered` lines of the window separate them. -/
theorem exactly_open_iff (hlimit : 0 < limit) :
    ExactlyOpen s.lines (s.getActiveVirtualTrades now limit) ↔ Separated s.lines (s.window now limit) := by
  unfold ExactlyOpen getActiveVirtualTrades
  rw [getRecentSignals_fst hlimit]
  generalize s.window now limit = window
  simp only [List.countP_filter]
  constructor
  · intro hexact
    refine ⟨List.pairwise_iff_forall_sublist.2 fun {x y} hxy hx hy hid => ?_, fun x hx hstatus => ?_,
      fun before y after hlines hstatus hafter => ?_⟩
    · have htwo := hxy.countP_le (p := fun r => decide (r.signalId = y.signalId) && decide (r.status = .entered))
      rw [hexact y.signalId] at htwo
      simp only [List.countP_cons, List.countP_nil, hx, hy, hid, decide_true, Bool.and_self, ↓reduceIte] at htwo
      split at htwo <;> omega
    · have hpos : 0 < window.countP fun r => decide (r.signalId = x.signalId) && decide (r.status = .entered) :=
        List.countP_pos_iff.2 ⟨x, hx, by simp [hstatus]⟩
      rw [hexact x.signalId] at hpos
      split at hpos
      next hopen => exact isOpen_iff.1 hopen
      · exact absurd hpos (Nat.lt_irrefl 0)
    · have hone := hexact y.signalId
      rw [if_pos (isOpen_iff.2 ⟨before, y, after, hlines, hstatus, rfl, hafter⟩)] at hone
      obtain ⟨x, hx, hp⟩ := List.countP_pos_iff.1 (hone ▸ Nat.one_pos)
      simp only [Bool.and_eq_true, decide_eq_true_eq] at hp
      exact ⟨x, hx, hp.2, hp.1⟩
  · intro ⟨honce, hlast, hreaches⟩ signalId
    split
    next hopen =>
      obtain ⟨before, y, after, hlines, hstatus, rfl, hafter⟩ := isOpen_iff.1 hopen
      obtain ⟨x, hx, hentered, hid⟩ := hreaches before y after hlines hstatus hafter
      have hpos : 0 < window.countP fun r => decide (r.signalId = y.signalId) && decide (r.status = .entered) :=
        List.countP_pos_iff.2 ⟨x, hx, by simp [hentered, hid]⟩
      have hle : (window.countP fun r => decide (r.signalId = y.signalId) && decide (r.status = .entered)) ≤ 1 := by
        refine countP_le_one (honce.imp fun {a b} hab => ?_)
        simp only [Bool.and_eq_true, decide_eq_true_eq]
        rintro ⟨⟨hida, ha⟩, hidb, hb⟩
        exact hab ha hb (hida.trans hidb.symm)
      omega
    next hopen =>
      refine List.countP_eq_zero.2 fun x hx hp => hopen ?_
      simp only [Bool.and_eq_true, decide_eq_true_eq] at hp
      obtain ⟨before, y, after, hlines, hstatus, hid, hafter⟩ := hlast x hx hp.2
      rw [hp.1] at hid hafter
      exact isOpen_iff.2 ⟨before, y, after, hlines, hstatus, hid, hafter⟩

def enteredSignal : List SignalRecord :=
  [{ signalId := "s1", status := .generated }, { signalId := "s1", status := .entered }]

theorem exactly_open_iff_entered :
    ExactlyOpen enteredSignal (getActiveVirtualTrades 0 300 { lines := enteredSignal }) := by
  refine (exactly_open_iff (by decide)).2 ?_
  have hwindow : window 0 300 { lines := enteredSignal } = enteredSignal := by decide +kernel
  have hmem (x : SignalRecord) (hx : x ∈ enteredSignal) (hstatus : x.status = .entered) :
      x = { signalId := "s1", status := .entered } := by
    rcases List.mem_pair.1 hx with rfl | rfl
    · cases hstatus
    · rfl
  rw [hwindow]
  refine ⟨by decide +kernel, fun x hx hstatus => ?_, fun before y after hlines hstatus _ => ?_⟩
  · obtain rfl := hmem x hx hstatus
    exact ⟨[{ signalId := "s1", status := .generated }], _, [], rfl, rfl, rfl, fun z hz => absurd hz List.not_mem_nil⟩
  · have hlines : enteredSignal = before ++ y :: after := hlines
    have hy : y ∈ enteredSignal := hlines ▸ List.mem_append_right before List.mem_cons_self
    exact ⟨y, hy, hstatus, rfl⟩

end SignalsReader

end PearlAlgo
