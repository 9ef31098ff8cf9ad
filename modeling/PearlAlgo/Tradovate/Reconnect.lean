import Mathlib.Tactic.Positivity
import PearlAlgo.Tradovate.Connection

/-!
# How the connection to Tradovate recovers (`execution/tradovate/client.py`, `execution/tradovate/adapter.py`)

The listener opens the socket again after 1, 2, 4, ... seconds, ten times, and then never more. The reconnect loop
polls the orders after 30, 60, 120, 240, 240, ... seconds, twenty times, and asks for the kill switch if each of these
polls raises. It never calls `TradovateClient.connect`: the adapter's `connect` returns at once while the adapter counts
as connected.
-/

namespace PearlAlgo.Tradovate

/-! ### The listener -/

/-- The `k`-th wait of the listener is `2 ^ k` seconds, and a minute at most. -/
def waits (k : Nat) : List ℚ := (List.range k).map fun j => min (2 ^ j) 60

theorem waits_succ (k : Nat) : waits (k + 1) = waits k ++ [min (2 ^ k) 60] := by
  rw [waits, List.range_succ, List.map_append]
  rfl

theorem min_doubled (k : Nat) : min (min ((2 : ℚ) ^ k) 60 * 2) 60 = min (2 ^ (k + 1)) 60 := by
  have hpos : (0 : ℚ) < 2 ^ k := by positivity
  rw [pow_succ]
  rcases le_total ((2 : ℚ) ^ k) 60 with h | h
  · rw [min_eq_left h]
  · rw [min_eq_right h, min_eq_right (by linarith), min_eq_right (by linarith)]

/-- What the listener has waited for since the socket dropped. -/
def Backoff (s : Connection) : Prop :=
  match s.listener with
  | .absent | .listening | .closing => s.delays = []
  | .sleeping attempt delay _ | .opening attempt delay _ =>
    ∃ k, attempt = k + 1 ∧ k < MAX_WS_RECONNECT_ATTEMPTS ∧ s.delays = waits (k + 1) ∧ delay = min (2 ^ k) 60
  | .ended => s.delays = waits MAX_WS_RECONNECT_ATTEMPTS

namespace Backoff
variable {s s' : Connection}

theorem start : Backoff {} := rfl

theorem congr (h : Backoff s) (hlistener : s'.listener = s.listener) (hdelays : s'.delays = s.delays) : Backoff s' := by
  rw [Backoff, hlistener, hdelays]
  exact h

theorem mainOpens (h : Backoff s) (halone : Alone s) {a : Answer} {caught : Bool} (hs : s.mainOpens a caught = some s') :
    Backoff s' := by
  unfold Connection.mainOpens at hs
  split at hs
  next stage hmain =>
    have habsent := halone.listener (halone.main (by simp [hmain]))
    have hdelays : s.delays = [] := by simpa [Backoff, habsent] using h
    rcases hr : s.openStep stage a with ⟨s₁, o⟩
    obtain ⟨ws, flag, rfl⟩ := openStep_frame hr
    rw [hr] at hs
    cases o with
    | next stage' =>
      cases hs
      exact h.congr rfl rfl
    | done =>
      cases hs
      exact hdelays
    | raised auth =>
      dsimp only at hs
      split at hs
      all_goals
        cases hs
        exact h.congr rfl rfl
  · cases hs

theorem listenerOpens (h : Backoff s) {a : Answer} (hs : s.listenerOpens a = some s') : Backoff s' := by
  unfold Connection.listenerOpens at hs
  split at hs
  next attempt delay stage hlistener =>
    obtain ⟨k, rfl, hk, hdelays, rfl⟩ : ∃ k, attempt = k + 1 ∧ k < MAX_WS_RECONNECT_ATTEMPTS ∧
        s.delays = waits (k + 1) ∧ delay = min (2 ^ k) 60 := by simpa [Backoff, hlistener] using h
    rcases hr : s.openStep stage a with ⟨s₁, o⟩
    obtain ⟨ws, flag, rfl⟩ := openStep_frame hr
    rw [hr] at hs
    cases o with
    | next stage' =>
      cases hs
      exact ⟨k, rfl, hk, hdelays, rfl⟩
    | done =>
      cases hs
      exact rfl
    | raised auth =>
      dsimp only at hs
      split at hs
      next hmore =>
        cases hs
        refine ⟨k + 1, rfl, hmore, ?_, min_doubled k⟩
        rw [waits_succ (k + 1), ← hdelays, ← min_doubled k]
        rfl
      next hlast =>
        cases hs
        have hten : k + 1 = MAX_WS_RECONNECT_ATTEMPTS := by omega
        rw [hten] at hdelays
        exact hdelays
  · cases hs

theorem step (h : Backoff s) (halone : Alone s) {a : Act} (hs : s.step a = some s') : Backoff s' := by
  cases a with
  | connect =>
    simp only [Connection.step] at hs
    split at hs
    · split at hs
      · cases hs
        exact h
      · cases hs
        exact h.congr rfl rfl
    · cases hs
  | clientAnswers success =>
    simp only [Connection.step] at hs
    split at hs
    · split at hs
      all_goals
        cases hs
        exact h.congr rfl rfl
    · cases hs
  | mainOpens a caught => exact h.mainOpens halone hs
  | listenerOpens a => exact h.listenerOpens hs
  | drops =>
    simp only [Connection.step] at hs
    split at hs
    next hlistener =>
      cases hs
      simpa [Backoff, hlistener] using h
    · cases hs
  | listenerCloses =>
    simp only [Connection.step] at hs
    split at hs
    next hlistener =>
      cases hs
      have hdelays : s.delays = [] := by simpa [Backoff, hlistener] using h
      refine ⟨0, rfl, by decide, ?_, by norm_num⟩
      simp [Connection.sleep, hdelays, waits]
    · cases hs
  | listenerWakes =>
    simp only [Connection.step] at hs
    split at hs
    next attempt delay wakes hlistener =>
      rw [Backoff, hlistener] at h
      split at hs
      · cases hs
      · cases hs
        exact h
    · cases hs
  | reconciles orders raises =>
    obtain ⟨_, _, _, _, _, rfl⟩ := reconciles_frame hs
    exact h.congr rfl rfl
  | reconnects success raises =>
    obtain ⟨_, _, _, _, _, rfl⟩ := reconnects_frame halone hs
    exact h.congr rfl rfl
  | authentication good =>
    cases hs
    exact h.congr rfl rfl
  | tick d =>
    simp only [Connection.step] at hs
    split at hs
    · cases hs
      exact h.congr rfl rfl
    · cases hs

end Backoff

/-- No socket, and nobody who opens one: `connect` went without it, or the listener has given up. -/
def RestOnly (s : Connection) : Prop := s.connected = true ∧ (s.listener = .absent ∨ s.listener = .ended)

theorem RestOnly.step {s s' : Connection} (h : RestOnly s) (halone : Alone s) {a : Act} (hs : s.step a = some s') :
    RestOnly s' := by
  obtain ⟨hconnected, hlistener⟩ := h
  have hmain := halone.idle hconnected
  cases a with
  | connect =>
    simp only [Connection.step, hmain, hconnected, if_true] at hs
    cases hs
    exact ⟨hconnected, hlistener⟩
  | clientAnswers success => simp [Connection.step, hmain] at hs
  | mainOpens a caught => simp [Connection.step, Connection.mainOpens, hmain] at hs
  | listenerOpens a => rcases hlistener with hl | hl <;> simp [Connection.step, Connection.listenerOpens, hl] at hs
  | drops => rcases hlistener with hl | hl <;> simp [Connection.step, hl] at hs
  | listenerCloses => rcases hlistener with hl | hl <;> simp [Connection.step, hl] at hs
  | listenerWakes => rcases hlistener with hl | hl <;> simp [Connection.step, hl] at hs
  | reconciles orders raises =>
    obtain ⟨_, _, _, _, _, rfl⟩ := reconciles_frame hs
    exact ⟨hconnected, hlistener⟩
  | reconnects success raises =>
    obtain ⟨_, _, _, _, _, rfl⟩ := reconnects_frame halone hs
    exact ⟨hconnected, hlistener⟩
  | authentication good =>
    cases hs
    exact ⟨hconnected, hlistener⟩
  | tick d =>
    simp only [Connection.step] at hs
    split at hs
    · cases hs
      exact ⟨hconnected, hlistener⟩
    · cases hs

theorem Alone.of_reach {s : Connection} (h : Lts.Reach Connection.step Lts.AnyStep {} s) : Alone s :=
  h.invariant Alone.start fun _ _ _ hinv _ hs => hinv.step hs

/-- Since the socket dropped the listener has waited 1, 2, 4, ... seconds, ten times at most; once that is over, or where
the adapter connected without the socket, no run opens it again. -/
theorem websocket_recovery {s : Connection} (h : Lts.Reach Connection.step Lts.AnyStep {} s) :
    (∃ k ≤ MAX_WS_RECONNECT_ATTEMPTS, s.delays = waits k ∧ (s.listener = .ended → k = MAX_WS_RECONNECT_ATTEMPTS)) ∧
      (RestOnly s → ∀ {s'}, Lts.Reach Connection.step Lts.AnyStep s s' → RestOnly s') := by
  constructor
  · obtain ⟨halone, hbackoff⟩ := h.invariant (I := fun s => Alone s ∧ Backoff s) ⟨Alone.start, Backoff.start⟩
      fun _ _ _ hinv _ hs => ⟨hinv.1.step hs, hinv.2.step hinv.1 hs⟩
    unfold Backoff at hbackoff
    split at hbackoff
    next hl => exact ⟨0, Nat.zero_le _, hbackoff, by simp [hl]⟩
    next hl => exact ⟨0, Nat.zero_le _, hbackoff, by simp [hl]⟩
    next hl => exact ⟨0, Nat.zero_le _, hbackoff, by simp [hl]⟩
    next hl =>
      obtain ⟨k, -, hk, hdelays, -⟩ := hbackoff
      exact ⟨k + 1, hk, hdelays, by simp [hl]⟩
    next hl =>
      obtain ⟨k, -, hk, hdelays, -⟩ := hbackoff
      exact ⟨k + 1, hk, hdelays, by simp [hl]⟩
    next hl => exact ⟨_, le_refl _, hbackoff, fun _ => rfl⟩
  · intro hrest s' h'
    have halone := Alone.of_reach h
    exact (h'.invariant (I := fun s => Alone s ∧ RestOnly s) ⟨halone, hrest⟩
      fun _ _ _ hinv _ hs => ⟨hinv.1.step hs, hinv.2.step hinv.1 hs⟩).2

/-! ### The reconnect loop -/

/-- How long the reconnect loop waits before its `k + 1`-th poll. -/
def pollWait (k : Nat) : ℚ := min (30 * 2 ^ k) 240

/-- How long it has waited before its `k`-th poll. -/
def pollWaits (k : Nat) : ℚ := ((List.range k).map pollWait).sum

theorem pollWaits_succ (k : Nat) : pollWaits (k + 1) = pollWaits k + pollWait k := by
  simp [pollWaits, List.range_succ]

theorem pollWaits_max : pollWaits MAX_RECONNECT_ATTEMPTS = 4290 := by decide +kernel

/-- Where the reconnect loop is: each poll but the last has raised, and was waited for. -/
structure Recovery (s : Connection) : Prop where
  loop : match s.reconnect with
    | .done => True
    | .top attempt =>
      attempt ≤ MAX_RECONNECT_ATTEMPTS ∧ s.failedPolls = attempt ∧ s.reconnectStart + pollWaits attempt ≤ s.now
    | .sleeping attempt wakes =>
      attempt ≤ MAX_RECONNECT_ATTEMPTS ∧ s.failedPolls + 1 = attempt ∧ s.reconnectStart + pollWaits attempt ≤ wakes
    | .polling attempt =>
      attempt ≤ MAX_RECONNECT_ATTEMPTS ∧ s.failedPolls + 1 = attempt ∧ s.reconnectStart + pollWaits attempt ≤ s.now
  clientConnects : s.clientConnects = 0
  giveUps : ∀ p ∈ s.giveUps, 4290 ≤ p.1 ∧ p.2 = MAX_RECONNECT_ATTEMPTS
  killRequested : s.killRequested = true ↔ s.giveUps ≠ []

namespace Recovery
variable {s s' : Connection}

theorem start : Recovery {} := ⟨trivial, rfl, by simp, by simp⟩

theorem later (h : Recovery s) (hnow : s.now ≤ s'.now) (hreconnect : s'.reconnect = s.reconnect)
    (hstart : s'.reconnectStart = s.reconnectStart) (hfailed : s'.failedPolls = s.failedPolls)
    (hclient : s'.clientConnects = s.clientConnects) (hgiveUps : s'.giveUps = s.giveUps)
    (hkill : s'.killRequested = s.killRequested) : Recovery s' where
  loop := by
    have hloop := h.loop
    rw [hreconnect, hstart, hfailed]
    split at hloop
    · exact trivial
    · exact ⟨hloop.1, hloop.2.1, hloop.2.2.trans hnow⟩
    · exact hloop
    · exact ⟨hloop.1, hloop.2.1, hloop.2.2.trans hnow⟩
  clientConnects := hclient.trans h.clientConnects
  giveUps := by rw [hgiveUps]; exact h.giveUps
  killRequested := by rw [hkill, hgiveUps]; exact h.killRequested

theorem checkToken (h : Recovery s) : Recovery s.checkToken := by
  unfold Connection.checkToken
  split
  · split
    · exact ⟨⟨Nat.zero_le _, rfl, by simp [pollWaits]⟩, h.clientConnects, h.giveUps, h.killRequested⟩
    · exact h.later le_rfl rfl rfl rfl rfl rfl rfl
  · exact h.later le_rfl rfl rfl rfl rfl rfl rfl

theorem reconciles (h : Recovery s) {orders raises : Bool} (hs : s.reconciles orders raises = some s') : Recovery s' := by
  unfold Connection.reconciles at hs
  split at hs
  · cases hs
  · split at hs
    · split at hs
      · cases hs
        exact h.later le_rfl rfl rfl rfl rfl rfl rfl
      · cases hs
        exact h.checkToken
    · cases hs
      exact h.later le_rfl rfl rfl rfl rfl rfl rfl
  · split at hs
    · cases hs
      exact h.later le_rfl rfl rfl rfl rfl rfl rfl
    · cases hs
      exact h.checkToken
  · cases hs
    exact h.later le_rfl rfl rfl rfl rfl rfl rfl

theorem done (h : Recovery s) : Recovery { s with reconnect := .done } :=
  ⟨trivial, h.clientConnects, h.giveUps, h.killRequested⟩

/-- The twentieth poll has raised, more than 71 minutes after the loop began. -/
theorem giveUp (h : Recovery s) (hfailed : s.failedPolls = MAX_RECONNECT_ATTEMPTS)
    (hwaited : s.reconnectStart + pollWaits MAX_RECONNECT_ATTEMPTS ≤ s.now) : Recovery s.giveUp where
  loop := trivial
  clientConnects := h.clientConnects
  giveUps p hp := by
    rcases List.mem_append.1 hp with hp | hp
    · exact h.giveUps p hp
    · rw [List.mem_singleton.1 hp]
      rw [pollWaits_max] at hwaited
      exact ⟨by linarith, hfailed⟩
  killRequested := by simp [Connection.giveUp]

theorem reconnects (h : Recovery s) (halone : Alone s) {success raises : Bool}
    (hs : s.reconnects success raises = some s') : Recovery s' := by
  have hloop := h.loop
  unfold Connection.reconnects at hs
  split at hs
  · cases hs
  next attempt htop =>
    rw [htop] at hloop
    obtain ⟨hle, hfailed, hwaited⟩ := hloop
    split at hs
    next hmore =>
      split at hs
      · cases hs
        exact h.done
      · cases hs
        refine ⟨⟨hmore, congrArg (· + 1) hfailed, ?_⟩, h.clientConnects, h.giveUps, h.killRequested⟩
        rw [pollWaits_succ, pollWait]
        linarith
    next hlast =>
      cases hs
      have hmax : attempt = MAX_RECONNECT_ATTEMPTS := le_antisymm hle (not_lt.1 hlast)
      exact h.giveUp (hfailed.trans hmax) (hmax ▸ hwaited)
  next attempt wakes hsleeping =>
    rw [hsleeping] at hloop
    obtain ⟨hle, hfailed, hwaited⟩ := hloop
    rw [if_pos (halone.connected_of_reconnect (by simp [hsleeping]))] at hs
    split at hs
    · cases hs
    next hawake =>
      cases hs
      exact ⟨⟨hle, hfailed, hwaited.trans (not_lt.1 hawake)⟩, h.clientConnects, h.giveUps, h.killRequested⟩
  next attempt hpolling =>
    rw [hpolling] at hloop
    obtain ⟨hle, hfailed, hwaited⟩ := hloop
    split at hs
    · cases hs
      exact ⟨⟨hle, hfailed, hwaited⟩, h.clientConnects, h.giveUps, h.killRequested⟩
    · cases hs
      exact h.done

theorem mainOpens (h : Recovery s) {a : Answer} {caught : Bool} (hs : s.mainOpens a caught = some s') : Recovery s' := by
  unfold Connection.mainOpens at hs
  split at hs
  next stage hmain =>
    rcases hr : s.openStep stage a with ⟨s₁, o⟩
    obtain ⟨ws, flag, rfl⟩ := openStep_frame hr
    rw [hr] at hs
    cases o with
    | next stage' =>
      cases hs
      exact h.later le_rfl rfl rfl rfl rfl rfl rfl
    | done =>
      cases hs
      exact h.later le_rfl rfl rfl rfl rfl rfl rfl
    | raised auth =>
      dsimp only at hs
      split at hs
      all_goals
        cases hs
        exact h.later le_rfl rfl rfl rfl rfl rfl rfl
  · cases hs

theorem listenerOpens (h : Recovery s) {a : Answer} (hs : s.listenerOpens a = some s') : Recovery s' := by
  unfold Connection.listenerOpens at hs
  split at hs
  next attempt delay stage hlistener =>
    rcases hr : s.openStep stage a with ⟨s₁, o⟩
    obtain ⟨ws, flag, rfl⟩ := openStep_frame hr
    rw [hr] at hs
    cases o with
    | next stage' =>
      cases hs
      exact h.later le_rfl rfl rfl rfl rfl rfl rfl
    | done =>
      cases hs
      exact h.later le_rfl rfl rfl rfl rfl rfl rfl
    | raised auth =>
      dsimp only at hs
      split at hs
      all_goals
        cases hs
        exact h.later le_rfl rfl rfl rfl rfl rfl rfl
  · cases hs

theorem step (h : Recovery s) (halone : Alone s) {a : Act} (hs : s.step a = some s') : Recovery s' := by
  cases a with
  | connect =>
    simp only [Connection.step] at hs
    split at hs
    · split at hs
      · cases hs
        exact h
      · cases hs
        exact h.later le_rfl rfl rfl rfl rfl rfl rfl
    · cases hs
  | clientAnswers success =>
    simp only [Connection.step] at hs
    split at hs
    · split at hs
      all_goals
        cases hs
        exact h.later le_rfl rfl rfl rfl rfl rfl rfl
    · cases hs
  | mainOpens a caught => exact h.mainOpens hs
  | listenerOpens a => exact h.listenerOpens hs
  | drops =>
    simp only [Connection.step] at hs
    split at hs
    · cases hs
      exact h.later le_rfl rfl rfl rfl rfl rfl rfl
    · cases hs
  | listenerCloses =>
    simp only [Connection.step] at hs
    split at hs
    · cases hs
      exact h.later le_rfl rfl rfl rfl rfl rfl rfl
    · cases hs
  | listenerWakes =>
    simp only [Connection.step] at hs
    split at hs
    · split at hs
      · cases hs
      · cases hs
        exact h.later le_rfl rfl rfl rfl rfl rfl rfl
    · cases hs
  | reconciles orders raises => exact h.reconciles hs
  | reconnects success raises => exact h.reconnects halone hs
  | authentication good =>
    cases hs
    exact h.later le_rfl rfl rfl rfl rfl rfl rfl
  | tick d =>
    simp only [Connection.step] at hs
    split at hs
    next hd =>
      cases hs
      exact h.later (le_add_of_nonneg_right hd) rfl rfl rfl rfl rfl rfl
    · cases hs

end Recovery

/-- In every run the reconnect loop never calls `TradovateClient.connect`. It gives up, and asks for the kill switch, only
after all its twenty polls have raised, 4290 seconds or more after it began, and not otherwise. -/
theorem reconnect_loop {s : Connection} (h : Lts.Reach Connection.step Lts.AnyStep {} s) :
    s.clientConnects = 0 ∧ (s.killRequested = true ↔ s.giveUps ≠ []) ∧
      ∀ p ∈ s.giveUps, 4290 ≤ p.1 ∧ p.2 = MAX_RECONNECT_ATTEMPTS := by
  obtain ⟨-, hinv⟩ := h.invariant (I := fun s => Alone s ∧ Recovery s) ⟨Alone.start, Recovery.start⟩
    fun _ _ _ hinv _ hs => ⟨hinv.1.step hs, hinv.2.step hinv.1 hs⟩
  exact ⟨hinv.clientConnects, hinv.killRequested, hinv.giveUps⟩

/-- The token runs out, a poll raises in the reconciliation loop, and then each poll of the reconnect loop. -/
def sampleGiveUp : List Act :=
  [.connect, .clientAnswers true, .mainOpens .raises true, .authentication false, .reconciles true false,
    .reconciles true true, .reconciles true false, .reconciles false false] ++
    (List.replicate 20 [Act.reconnects true false, .tick 240, .reconnects true false, .reconnects true true]).flatten ++
    [.reconnects true false]

theorem reconnect_loop_sampleGiveUp : ∃ s, Lts.Reach Connection.step Lts.AnyStep {} s ∧
    s.giveUps = [(4800, 20)] ∧ (s.killRequested = true ↔ s.giveUps ≠ []) := by
  obtain ⟨s, hreach, hp⟩ := Lts.exists_reach Connection.step Lts.AnyStep {} sampleGiveUp
    (fun s => decide (s.giveUps = [(4800, 20)])) (by decide +kernel)
  exact ⟨s, hreach, of_decide_eq_true hp, (reconnect_loop hreach).2.1⟩

/-- The listener gives up after the tenth attempt. -/
def sampleEnded : List Act :=
  [.connect, .clientAnswers true, .mainOpens .other true, .mainOpens .other true, .mainOpens .accepted true,
    .mainOpens .other true, .drops, .listenerCloses] ++
    (List.replicate 10 [Act.tick 60, .listenerWakes, .listenerOpens .raises]).flatten

theorem websocket_recovery_sampleEnded : ∃ s, Lts.Reach Connection.step Lts.AnyStep {} s ∧
    s.listener = .ended ∧ ∃ k ≤ MAX_WS_RECONNECT_ATTEMPTS, s.delays = waits k ∧ k = MAX_WS_RECONNECT_ATTEMPTS := by
  obtain ⟨s, hreach, hp⟩ := Lts.exists_reach Connection.step Lts.AnyStep {} sampleEnded
    (fun s => decide (s.listener = .ended)) (by decide +kernel)
  have hended := of_decide_eq_true hp
  obtain ⟨k, hle, hdelays, hk⟩ := (websocket_recovery hreach).1
  exact ⟨s, hreach, hended, k, hle, hdelays, hk hended⟩

end PearlAlgo.Tradovate
