import Mathlib.Data.List.Chain
import Mathlib.Tactic.Linarith
import PearlAlgo.DataProviders.Executor

/-!
# The line of the IBKR executor

How often it tries to connect, how far apart the requests lie, and when `is_connected` says so. The flag `_connected` is
lowered by any exception whose text speaks of a connection, and raised by `ib.connect` alone, which is called only when the
socket is down: while it stays up, the flag stays lowered.
-/

namespace PearlAlgo.Ibkr
open Py

variable {Id ρ : Type} [DecidableEq Id]

/-- The attempts that failed since the last one that did not. -/
def failuresSince (line : List Sign) : Nat :=
  line.foldl (fun n sign =>
    match sign with
    | .connected => 0
    | .failed => n + 1
    | .taken | .error => n) 0

/-- The attempts for the task taken last. -/
def attemptsNow (line : List Sign) : Nat :=
  line.foldl (fun n sign =>
    match sign with
    | .taken => 0
    | .connected | .failed => n + 1
    | .error => n) 0

/-- The last attempt succeeded, and no exception spoke of a connection since. -/
def seesConnected (line : List Sign) : Bool :=
  line.foldl (fun b sign =>
    match sign with
    | .connected => true
    | .failed | .error => false
    | .taken => b) false

section
variable (line : List Sign)

@[simp] theorem failuresSince_taken : failuresSince (line ++ [.taken]) = failuresSince line := by simp [failuresSince]

@[simp] theorem failuresSince_connected : failuresSince (line ++ [.connected]) = 0 := by simp [failuresSince]

@[simp] theorem failuresSince_failed : failuresSince (line ++ [.failed]) = failuresSince line + 1 := by simp [failuresSince]

@[simp] theorem failuresSince_error : failuresSince (line ++ [.error]) = failuresSince line := by simp [failuresSince]

@[simp] theorem attemptsNow_taken : attemptsNow (line ++ [.taken]) = 0 := by simp [attemptsNow]

@[simp] theorem attemptsNow_connected : attemptsNow (line ++ [.connected]) = attemptsNow line + 1 := by simp [attemptsNow]

@[simp] theorem attemptsNow_failed : attemptsNow (line ++ [.failed]) = attemptsNow line + 1 := by simp [attemptsNow]

@[simp] theorem attemptsNow_error : attemptsNow (line ++ [.error]) = attemptsNow line := by simp [attemptsNow]

@[simp] theorem seesConnected_taken : seesConnected (line ++ [.taken]) = seesConnected line := by simp [seesConnected]

@[simp] theorem seesConnected_connected : seesConnected (line ++ [.connected]) = true := by simp [seesConnected]

@[simp] theorem seesConnected_failed : seesConnected (line ++ [.failed]) = false := by simp [seesConnected]

@[simp] theorem seesConnected_error : seesConnected (line ++ [.error]) = false := by simp [seesConnected]

end

/-- What the thread relies on where it is: it goes on trying only below the limit, and it sleeps for the rest of the tenth
of a second. -/
def PcOk (c : Config) (s : Executor Id ρ) : Prop :=
  match s.pc with
  | .checking _ => attemptsNow s.line = 0
  | .attempting _ => attemptsNow s.line = 0 ∨
      attemptsNow s.line ≤ failuresSince s.line ∧ failuresSince s.line < c.maxReconnectAttempts
  | .backoff _ _ => attemptsNow s.line ≤ failuresSince s.line ∧ failuresSince s.line < c.maxReconnectAttempts
  | .sleeping _ wakes => wakes = s.lastRequestTime + MIN_REQUEST_INTERVAL
  | _ => True

structure LineInv (c : Config) (s : Executor Id ρ) : Prop where
  failures : s.reconnectAttempts = failuresSince s.line
  connected : s.connected = seesConnected s.line
  spaced : s.requests.IsChain fun t t' => MIN_REQUEST_INTERVAL ≤ t' - t
  last : ∀ t ∈ s.requests.getLast?, t = s.lastRequestTime
  tries : attemptsNow s.line ≤ max 1 c.maxReconnectAttempts
  single : c.maxReconnectAttempts < failuresSince s.line → attemptsNow s.line ≤ 1
  pcOk : PcOk c s

namespace LineInv
variable {c : Config} {s s' : Executor Id ρ}

theorem start (c : Config) (now : ℚ) : LineInv c ({ now } : Executor Id ρ) where
  failures := rfl
  connected := rfl
  spaced := .nil
  last t ht := by cases ht
  tries := Nat.zero_le _
  single _ := Nat.zero_le _
  pcOk := trivial

/-- The thread goes to another place, or something that the line does not depend on changes. -/
theorem goes (h : LineInv c s) (hattempts : s'.reconnectAttempts = s.reconnectAttempts)
    (hconnected : s'.connected = s.connected) (hlast : s'.lastRequestTime = s.lastRequestTime)
    (hline : s'.line = s.line) (hrequests : s'.requests = s.requests) (hpc : PcOk c s') : LineInv c s' where
  failures := by rw [hattempts, hline]; exact h.failures
  connected := by rw [hconnected, hline]; exact h.connected
  spaced := by rw [hrequests]; exact h.spaced
  last := by rw [hrequests, hlast]; exact h.last
  tries := by rw [hline]; exact h.tries
  single := by rw [hline]; exact h.single
  pcOk := hpc

theorem request (h : LineInv c s) (t : Task Id) (hnow : MIN_REQUEST_INTERVAL ≤ s.now - s.lastRequestTime) :
    LineInv c (s.request t) where
  failures := h.failures
  connected := h.connected
  spaced := by
    rw [Executor.request]
    refine List.isChain_append.2 ⟨h.spaced, .singleton _, fun t ht t' ht' => ?_⟩
    rw [List.head?_cons, Option.mem_some_iff] at ht'
    rw [h.last t ht, ← ht']
    exact hnow
  last t ht := by
    rw [Executor.request, List.getLast?_concat, Option.mem_some_iff] at ht
    exact ht.symm
  tries := h.tries
  single := h.single
  pcOk := trivial

theorem noteFailure (h : LineInv c s) (hpc : s.pc = .idle) (o : Outcome ρ) : LineInv c (s.noteFailure o) := by
  cases o with
  | result r => exact h
  | exception text =>
    simp only [Executor.noteFailure]
    split
    next =>
      refine ⟨?_, ?_, h.spaced, h.last, ?_, ?_, ?_⟩
      · simpa using h.failures
      · simp
      · simpa using h.tries
      · simpa using h.single
      · simp [PcOk, hpc]
    next => exact h

theorem settle (h : LineInv c s) (t : Task Id) (o : Outcome ρ) : LineInv c (s.settle t o) := by
  unfold Executor.settle
  dsimp only
  split
  · apply noteFailure
    · exact h.goes rfl rfl rfl rfl rfl trivial
    · rfl
  · split
    · apply noteFailure
      · exact h.goes rfl rfl rfl rfl rfl trivial
      · rfl
    · split
      · exact h.goes rfl rfl rfl rfl rfl trivial
      · exact h.goes rfl rfl rfl rfl rfl trivial

theorem turn (h : LineInv c s) (hs : s.turn = some s') : LineInv c s' := by
  have hok := h.pcOk
  unfold Executor.turn at hs
  split at hs
  next hpc =>
    split at hs
    · cases hs
      exact h.goes rfl rfl rfl rfl rfl trivial
    · split at hs
      · cases hs
        exact h
      · cases hs
        refine ⟨?_, ?_, h.spaced, h.last, ?_, ?_, ?_⟩
        · simpa using h.failures
        · simpa using h.connected
        · simp
        · simp
        · simp [PcOk]
      · cases hs
        exact h.goes rfl rfl rfl rfl rfl trivial
  next t hpc =>
    simp only [PcOk, hpc] at hok
    repeat' split at hs
    all_goals cases hs
    · exact h.goes rfl rfl rfl rfl rfl trivial
    · exact h.goes rfl rfl rfl rfl rfl trivial
    · exact h.goes rfl rfl rfl rfl rfl trivial
    · exact h.goes rfl rfl rfl rfl rfl (.inl hok)
  next t wakes hpc =>
    simp only [PcOk, hpc] at hok
    repeat' split at hs
    · cases hs
    · cases hs
      exact h.goes rfl rfl rfl rfl rfl trivial
    · cases hs
      exact h.goes rfl rfl rfl rfl rfl (.inr hok)
  next t hpc =>
    dsimp only at hs
    split at hs
    · cases hs
      refine h.goes rfl rfl rfl rfl rfl ?_
      simp only [PcOk]
      linarith
    next hlong =>
      cases hs
      exact h.request t (not_lt.1 hlong)
  next t wakes hpc =>
    simp only [PcOk, hpc] at hok
    split at hs
    · cases hs
    next hlong =>
      cases hs
      refine h.request t ?_
      rw [hok] at hlong
      linarith
  next t o hpc =>
    cases hs
    exact h.settle t o
  next wakes hpc =>
    split at hs
    · cases hs
    · cases hs
      exact h.goes rfl rfl rfl rfl rfl trivial
  all_goals cases hs

theorem connectEnds (h : LineInv c s) {ok up : Bool} {text : String} (hs : s.connectEnds c ok up text = some s') :
    LineInv c s' := by
  have hok := h.pcOk
  unfold Executor.connectEnds at hs
  split at hs
  next t hpc =>
    simp only [PcOk, hpc] at hok
    have htries := h.tries
    have hfailures := h.failures
    have hlimit : attemptsNow s.line + 1 ≤ max 1 c.maxReconnectAttempts := by omega
    split at hs
    · cases hs
      refine ⟨?_, ?_, h.spaced, h.last, ?_, ?_, trivial⟩
      · simp
      · simp
      · simpa using hlimit
      · simp
    · have hsingle : c.maxReconnectAttempts < failuresSince s.line + 1 → attemptsNow s.line + 1 ≤ 1 := by omega
      dsimp only at hs
      split at hs
      · cases hs
        refine ⟨?_, ?_, h.spaced, h.last, ?_, ?_, trivial⟩
        · simpa using hfailures
        · simp
        · simpa using hlimit
        · simpa using hsingle
      next hmore =>
        cases hs
        refine ⟨?_, ?_, h.spaced, h.last, ?_, ?_, ?_⟩
        · simpa using hfailures
        · simp
        · simpa using hlimit
        · simpa using hsingle
        · simp only [PcOk, attemptsNow_failed, failuresSince_failed]
          omega
  · cases hs

theorem step {a : Act Id ρ} (h : LineInv c s) (hs : s.step c a = some s') : LineInv c s' := by
  cases a with
  | submit t =>
    simp only [Executor.step] at hs
    split at hs
    · cases hs
      exact h.goes rfl rfl rfl rfl rfl h.pcOk
    · cases hs
  | put k =>
    simp only [Executor.step] at hs
    split at hs
    · cases hs
      exact h.goes rfl rfl rfl rfl rfl h.pcOk
    · cases hs
  | cancel f =>
    simp only [Executor.step] at hs
    split at hs
    · cases hs
      exact h.goes rfl rfl rfl rfl rfl h.pcOk
    · cases hs
  | tick d =>
    simp only [Executor.step] at hs
    split at hs
    · cases hs
      exact h.goes rfl rfl rfl rfl rfl h.pcOk
    · cases hs
  | drop =>
    cases hs
    exact h.goes rfl rfl rfl rfl rfl h.pcOk
  | stop =>
    simp only [Executor.step, Executor.stop] at hs
    repeat' split at hs
    all_goals
      cases hs
      try exact h.goes rfl rfl rfl rfl rfl h.pcOk
  | connects ok up text => exact h.connectEnds hs
  | returns o up =>
    simp only [Executor.step] at hs
    split at hs
    · cases hs
      exact h.goes rfl rfl rfl rfl rfl trivial
    · cases hs
  | turn => exact h.turn hs

end LineInv

open Lts in
/-- Whatever happens on the line: a task gets at most the configured number of attempts to connect, and one only when the
limit was passed before, until an attempt succeeds; the requests lie a tenth of a second apart; and `is_connected` says
that the socket is up, the last attempt succeeded, and no exception spoke of a connection since. -/
theorem executor_line (c : Config) (now : ℚ) (s : Executor Id ρ) (h : Reach (Executor.step c) AnyStep { now } s) :
    attemptsNow s.line ≤ max 1 c.maxReconnectAttempts ∧
      (c.maxReconnectAttempts < failuresSince s.line → attemptsNow s.line ≤ 1) ∧
      s.requests.IsChain (fun t t' => MIN_REQUEST_INTERVAL ≤ t' - t) ∧
      s.isConnected = (seesConnected s.line && s.up) := by
  have hinv : LineInv c s :=
    h.invariant (I := LineInv c) (LineInv.start c now) fun s a s' hs _ hstep => hs.step hstep
  refine ⟨hinv.tries, hinv.single, hinv.spaced, ?_⟩
  rw [Executor.isConnected, hinv.connected]

/-- Two attempts fail and the task is given up; the next task gets a single one. -/
def refusedRun : List (Act Nat Nat) :=
  [.submit ⟨1, false⟩, .put 0, .turn, .turn, .connects false false "refused", .tick 2, .turn,
    .connects false false "refused", .turn, .submit ⟨2, false⟩, .put 0, .turn, .turn, .connects false false "refused", .turn]

theorem executor_line_refusedRun : ∃ s : Executor Nat Nat,
    Lts.Reach (Executor.step ⟨2, 2⟩) Lts.AnyStep { now := 5 } s ∧ failuresSince s.line = 3 ∧
      attemptsNow s.line ≤ max 1 2 ∧ (2 < failuresSince s.line → attemptsNow s.line ≤ 1) ∧
      s.requests.IsChain (fun t t' => MIN_REQUEST_INTERVAL ≤ t' - t) ∧
      s.isConnected = (seesConnected s.line && s.up) := by
  obtain ⟨s, hreach, hs⟩ := Lts.exists_reach (Executor.step ⟨2, 2⟩) Lts.AnyStep ({ now := 5 } : Executor Nat Nat) refusedRun
    (fun s => decide (failuresSince s.line = 3)) (by decide +kernel)
  exact ⟨s, hreach, of_decide_eq_true hs, executor_line ⟨2, 2⟩ 5 s hreach⟩

/-! ### The flag that stays lowered -/

def Act.isStop : Act Id ρ → Bool
  | .stop => true
  | _ => false

def Act.isDrop : Act Id ρ → Bool
  | .drop => true
  | _ => false

/-- Nobody has stopped the executor. -/
structure Unstopped (s : Executor Id ρ) : Prop where
  shutdown : s.shutdown = false
  stopPc : s.stopPc = .waiting
  queue : ∀ i ∈ s.queue, ∃ t, i = .task t

/-- The socket is up, the flag is lowered, and the thread does not try to connect. -/
structure Denied (s : Executor Id ρ) : Prop where
  unstopped : Unstopped s
  up : s.up = true
  connected : s.connected = false
  pc : ∀ t, s.pc ≠ .attempting t

section
variable {c : Config} {s s' : Executor Id ρ}

theorem Unstopped.congr (h : Unstopped s) (hshutdown : s'.shutdown = s.shutdown) (hstopPc : s'.stopPc = s.stopPc)
    (hqueue : s'.queue.Sublist s.queue) : Unstopped s' where
  shutdown := hshutdown.trans h.shutdown
  stopPc := hstopPc.trans h.stopPc
  queue i hi := h.queue i (hqueue.subset hi)

theorem settle_frame (s : Executor Id ρ) (t : Task Id) (o : Outcome ρ) :
    (s.settle t o).shutdown = s.shutdown ∧ (s.settle t o).stopPc = s.stopPc ∧ (s.settle t o).queue = s.queue ∧
      (s.settle t o).up = s.up ∧ ((s.settle t o).connected = true → s.connected = true) ∧
      ∀ t', (s.settle t o).pc ≠ .attempting t' := by
  have hnote : ∀ s' : Executor Id ρ, s'.pc = .idle → (s'.noteFailure o).shutdown = s'.shutdown ∧
      (s'.noteFailure o).stopPc = s'.stopPc ∧ (s'.noteFailure o).queue = s'.queue ∧ (s'.noteFailure o).up = s'.up ∧
      ((s'.noteFailure o).connected = true → s'.connected = true) ∧ ∀ t', (s'.noteFailure o).pc ≠ .attempting t' := by
    intro s' hpc
    cases o with
    | result r => simp [Executor.noteFailure, hpc]
    | exception text =>
      simp only [Executor.noteFailure]
      split <;> simp [hpc]
  unfold Executor.settle
  dsimp only
  split
  · exact hnote _ rfl
  · split
    · exact hnote _ rfl
    · split <;> simp

theorem turn_frame (h : Unstopped s) (hs : s.turn = some s') :
    Unstopped s' ∧ s'.up = s.up ∧ (s'.connected = true → s.connected = true) ∧
      (s.up = true → ∀ t, s'.pc ≠ .attempting t) := by
  unfold Executor.turn at hs
  split at hs
  next hpc =>
    rw [if_neg (by simp [h.shutdown])] at hs
    split at hs
    · cases hs
      exact ⟨h, rfl, id, by simp [hpc]⟩
    next t queue hqueue =>
      cases hs
      refine ⟨h.congr rfl rfl ?_, rfl, id, by simp⟩
      rw [hqueue]
      exact List.sublist_cons_self _ _
    next queue hqueue =>
      obtain ⟨t, ht⟩ := h.queue .shutdown (by simp [hqueue])
      cases ht
  next t hpc =>
    repeat' split at hs
    all_goals cases hs
    · exact ⟨h.congr rfl rfl (.refl _), rfl, id, by simp⟩
    · exact ⟨h.congr rfl rfl (.refl _), rfl, id, by simp⟩
    · exact ⟨h.congr rfl rfl (.refl _), rfl, id, by simp⟩
    next hup => exact ⟨h.congr rfl rfl (.refl _), rfl, id, fun hup' => absurd hup' hup⟩
  next t wakes hpc =>
    repeat' split at hs
    · cases hs
    · cases hs
      exact ⟨h.congr rfl rfl (.refl _), rfl, id, by simp⟩
    next hup =>
      cases hs
      exact ⟨h.congr rfl rfl (.refl _), rfl, id, fun hup' => absurd hup' hup⟩
  next t hpc =>
    dsimp only at hs
    split at hs
    all_goals
      cases hs
      exact ⟨h.congr rfl rfl (.refl _), rfl, id, by simp [Executor.request]⟩
  next t wakes hpc =>
    split at hs
    · cases hs
    · cases hs
      exact ⟨h.congr rfl rfl (.refl _), rfl, id, by simp [Executor.request]⟩
  next t o hpc =>
    cases hs
    obtain ⟨hshutdown, hstopPc, hqueue, hup, hconnected, hpc⟩ := settle_frame s t o
    exact ⟨h.congr hshutdown hstopPc (hqueue ▸ .refl _), hup, hconnected, fun _ => hpc⟩
  next wakes hpc =>
    split at hs
    · cases hs
    · cases hs
      exact ⟨h.congr rfl rfl (.refl _), rfl, id, by simp⟩
  all_goals cases hs

theorem step_unstopped {a : Act Id ρ} (h : Unstopped s) (ha : a.isStop = false) (hs : s.step c a = some s') :
    Unstopped s' := by
  cases a with
  | submit t =>
    simp only [Executor.step] at hs
    split at hs
    · cases hs
      exact h.congr rfl rfl (.refl _)
    · cases hs
  | put k =>
    simp only [Executor.step] at hs
    split at hs
    next t ht =>
      cases hs
      refine ⟨h.shutdown, h.stopPc, fun i hi => ?_⟩
      rcases List.mem_append.1 hi with hi | hi
      · exact h.queue i hi
      · exact ⟨t, List.mem_singleton.1 hi⟩
    · cases hs
  | cancel f =>
    simp only [Executor.step] at hs
    split at hs
    · cases hs
      exact h.congr rfl rfl (.refl _)
    · cases hs
  | tick d =>
    simp only [Executor.step] at hs
    split at hs
    · cases hs
      exact h.congr rfl rfl (.refl _)
    · cases hs
  | drop =>
    cases hs
    exact h.congr rfl rfl (.refl _)
  | stop => cases ha
  | connects ok up text =>
    simp only [Executor.step, Executor.connectEnds] at hs
    repeat' split at hs
    all_goals
      cases hs
      try exact h.congr rfl rfl (.refl _)
  | returns o up =>
    simp only [Executor.step] at hs
    split at hs
    · cases hs
      exact h.congr rfl rfl (.refl _)
    · cases hs
  | turn => exact (turn_frame h hs).1

theorem step_denied {a : Act Id ρ} (h : Denied s) (hstop : a.isStop = false) (hdrop : a.isDrop = false)
    (hs : s.step c a = some s') : Denied s' := by
  have hunstopped := step_unstopped h.unstopped hstop hs
  cases a with
  | submit t =>
    simp only [Executor.step] at hs
    split at hs
    · cases hs
      exact ⟨hunstopped, h.up, h.connected, h.pc⟩
    · cases hs
  | put k =>
    simp only [Executor.step] at hs
    split at hs
    · cases hs
      exact ⟨hunstopped, h.up, h.connected, h.pc⟩
    · cases hs
  | cancel f =>
    simp only [Executor.step] at hs
    split at hs
    · cases hs
      exact ⟨hunstopped, h.up, h.connected, h.pc⟩
    · cases hs
  | tick d =>
    simp only [Executor.step] at hs
    split at hs
    · cases hs
      exact ⟨hunstopped, h.up, h.connected, h.pc⟩
    · cases hs
  | drop => cases hdrop
  | stop => cases hstop
  | connects ok up text =>
    simp only [Executor.step, Executor.connectEnds] at hs
    split at hs
    next t hpc => exact absurd hpc (h.pc t)
    · cases hs
  | returns o up =>
    simp only [Executor.step] at hs
    split at hs
    next t hpc =>
      cases hs
      exact ⟨hunstopped, by simp [h.up], h.connected, by simp⟩
    · cases hs
  | turn =>
    obtain ⟨-, hup, hconnected, hpc⟩ := turn_frame h.unstopped hs
    refine ⟨hunstopped, hup.trans h.up, ?_, hpc h.up⟩
    rw [← Bool.not_eq_true]
    intro htrue
    exact absurd (hconnected htrue) (by simp [h.connected])

end

open Lts in
/-- Where nobody stops the executor: if the flag is lowered between two tasks while the socket is up, `is_connected` is
false for as long as the socket does not drop, however many tasks succeed meanwhile. -/
theorem executor_denied (c : Config) (now : ℚ) (s : Executor Id ρ)
    (h : Reach (Executor.step c) (fun _ a => a.isStop = false) { now } s) (htask : s.pc.task? = none) (hup : s.up = true)
    (hconnected : s.connected = false) (s' : Executor Id ρ)
    (h' : Reach (Executor.step c) (fun _ a => a.isStop = false ∧ a.isDrop = false) s s') :
    s'.up = true ∧ s'.isConnected = false := by
  have hunstopped : Unstopped s := h.invariant (I := Unstopped) ⟨rfl, rfl, by simp⟩
    fun s a s' hs ha hstep => step_unstopped hs ha hstep
  have hdenied : Denied s := by
    refine ⟨hunstopped, hup, hconnected, fun t hpc => ?_⟩
    rw [hpc] at htask
    cases htask
  have hlast : Denied s' := h'.invariant (I := Denied) hdenied
    fun s a s' hs ha hstep => step_denied hs ha.1 ha.2 hstep
  refine ⟨hlast.up, ?_⟩
  rw [Executor.isConnected, hlast.connected, Bool.false_and]

/-- The gateway answers a request with an error that speaks of a connection; the next task succeeds. -/
def deniedRun : List (Act Nat Nat) :=
  [.submit ⟨1, false⟩, .put 0, .turn, .turn, .connects true true "", .turn,
    .returns (.exception "HMDS connection is inactive") true, .turn]

def laterRun : List (Act Nat Nat) :=
  [.submit ⟨2, false⟩, .put 0, .tick 1, .turn, .turn, .turn, .returns (.result 3) true, .turn]

theorem executor_denied_deniedRun : ∃ s s' : Executor Nat Nat,
    Lts.Reach (Executor.step ⟨2, 3⟩) (fun _ a => a.isStop = false) { now := 5 } s ∧
      Lts.Reach (Executor.step ⟨2, 3⟩) (fun _ a => a.isStop = false ∧ a.isDrop = false) s s' ∧
      s'.futures[1]? = some (2, .done (.result 3)) ∧ s'.up = true ∧ s'.isConnected = false := by
  obtain ⟨s, hreach, hs⟩ := Lts.exists_reach (Executor.step ⟨2, 3⟩) (fun _ a => a.isStop = false)
    ({ now := 5 } : Executor Nat Nat) deniedRun
    (fun s => (decide (s.pc.task? = none) && s.up && !s.connected) &&
      decide ((Lts.runIf (Executor.step ⟨2, 3⟩) (fun _ a => a.isStop = false ∧ a.isDrop = false) s laterRun).map
        (fun s' : Executor Nat Nat => decide (s'.futures[1]? = some (2, FutureState.done (.result 3)))) = some true))
    (by decide +kernel)
  obtain ⟨hbetween, hlater⟩ := (Bool.and_eq_true _ _).mp hs
  simp only [Bool.and_eq_true, decide_eq_true_eq, Bool.not_eq_true'] at hbetween
  obtain ⟨s', hreach', hs'⟩ := Lts.exists_reach (Executor.step ⟨2, 3⟩) (fun _ a => a.isStop = false ∧ a.isDrop = false) s
    laterRun _ (of_decide_eq_true hlater)
  exact ⟨s, s', hreach, hreach', of_decide_eq_true hs',
    executor_denied ⟨2, 3⟩ 5 s hreach hbetween.1.1 hbetween.1.2 hbetween.2 s' hreach'⟩

end PearlAlgo.Ibkr
