import Mathlib.Algebra.Order.Ring.Rat
import Mathlib.Tactic.Linarith
import PearlAlgo.Lts.Reach

/-!
# The connection to Tradovate (`execution/tradovate/client.py`, `execution/tradovate/adapter.py`)

From the first `connect` to the call of `disconnect`: the WebSocket that `connect` opens, the listener that opens it
again when it drops, the adapter's reconciliation loop, and the reconnect loop that this starts when the token has run
out. They are tasks of one event loop and take turns where they await. Whether the token is good, what the server
answers, and when it closes the socket is up to the environment.

Written down for the theorems are the waits of the listener since the socket dropped (`delays`), and of the reconnect
loops their calls of `TradovateClient.connect`, when the last one started, how many of its polls have raised, and how
long each one that gave up had run and how many polls it had seen raise (`giveUps`).
-/

namespace PearlAlgo.Tradovate

/-- `authorised` tells a socket that answered the authorisation with status 200. -/
structure Socket where
  authorised : Bool := false
deriving DecidableEq

/-- Where `_open_ws_connection` waits. -/
inductive OpenStage
  | connecting
  | opening
  | authorising
  | syncing
deriving DecidableEq

/-- What an await of `_open_ws_connection` ends with; `other` is a message that is no answer to the authorisation. -/
inductive Answer
  | accepted
  | refused
  | other
  | raises
deriving DecidableEq

inductive Opened
  | next (stage : OpenStage)
  | done
  | raised (auth : Bool)

/-- Where the agent's `connect` is. -/
inductive MainPc
  | idle
  | client
  | socket (stage : OpenStage)
deriving DecidableEq

inductive ListenerPc
  | absent
  | listening
  | closing
  | sleeping (attempt : Nat) (delay wakes : ℚ)
  | opening (attempt : Nat) (delay : ℚ) (stage : OpenStage)
  | ended
deriving DecidableEq

inductive ReconcilePc
  | absent
  | top
  | polling
  | sleeping
deriving DecidableEq

inductive ReconnectPc
  | done
  | top (attempt : Nat)
  | sleeping (attempt : Nat) (wakes : ℚ)
  | polling (attempt : Nat)
deriving DecidableEq

structure Connection where
  connected : Bool := false
  authenticated : Bool := false
  main : MainPc := .idle
  ws : Option Socket := none
  wsConnected : Bool := false
  listener : ListenerPc := .absent
  reconcile : ReconcilePc := .absent
  reconnect : ReconnectPc := .done
  reconnectGaveUp : Bool := false
  killRequested : Bool := false
  now : ℚ := 0
  delays : List ℚ := []
  clientConnects : Nat := 0
  reconnectStart : ℚ := 0
  failedPolls : Nat := 0
  giveUps : List (ℚ × Nat) := []

def MAX_WS_RECONNECT_ATTEMPTS : Nat := 10

def MAX_RECONNECT_ATTEMPTS : Nat := 20

inductive Act
  /-- The agent calls `connect`. -/
  | connect
  /-- `TradovateClient.connect` ends, and the contract is looked up. -/
  | clientAnswers (success : Bool)
  /-- An await of `connect` in `_open_ws_connection` ends; `caught` tells the exceptions after which REST is used alone. -/
  | mainOpens (a : Answer) (caught : Bool)
  | listenerOpens (a : Answer)
  /-- The listener's inner loop ends. -/
  | drops
  | listenerCloses
  | listenerWakes
  /-- `_reconciliation_loop` goes on; `orders` tells whether there are open orders, `raises` how a poll ends. -/
  | reconciles (orders raises : Bool)
  /-- `_reconnect_loop` goes on; `success` counts if it calls the client, `raises` if it polls. -/
  | reconnects (success raises : Bool)
  | authentication (good : Bool)
  | tick (d : ℚ)
deriving DecidableEq

namespace Connection

/-- `_open_ws_connection` after an await. -/
def openStep (s : Connection) : OpenStage → Answer → Connection × Opened
  | .connecting, .raises => (s, .raised false)
  | .connecting, _ => ({ s with ws := some {} }, .next .opening)
  | .opening, .raises => (s, .raised false)
  | .opening, _ => (s, .next .authorising)
  | .authorising, .accepted => ({ s with ws := s.ws.map fun _ => ⟨true⟩, wsConnected := true }, .next .syncing)
  | .authorising, .refused => (s, .raised true)
  | .authorising, .other => (s, .next .syncing)
  | .authorising, .raises => (s, .raised false)
  | .syncing, .raises => (s, .raised false)
  | .syncing, _ => (s, .done)

/-- `connect` has succeeded. -/
def connectedNow (s : Connection) : Connection := { s with connected := true, main := .idle, reconcile := .top }

def mainOpens (s : Connection) (a : Answer) (caught : Bool) : Option Connection :=
  match s.main with
  | .socket stage =>
    match s.openStep stage a with
    | (s, .next stage) => some { s with main := .socket stage }
    | (s, .done) => some { s.connectedNow with listener := .listening }
    | (s, .raised auth) => if !auth && caught then some s.connectedNow else some { s with main := .idle }
  | _ => none

/-- The listener waits before its next attempt. -/
def sleep (s : Connection) (attempt : Nat) (delay : ℚ) : Connection :=
  { s with listener := .sleeping attempt delay (s.now + delay), delays := s.delays ++ [delay] }

def listenerOpens (s : Connection) (a : Answer) : Option Connection :=
  match s.listener with
  | .opening attempt delay stage =>
    match s.openStep stage a with
    | (s, .next stage) => some { s with listener := .opening attempt delay stage }
    | (s, .done) => some { s with listener := .listening, delays := [] }
    | (s, .raised _) =>
      if attempt < MAX_WS_RECONNECT_ATTEMPTS then some (s.sleep (attempt + 1) (min (delay * 2) 60))
      else some { s with listener := .ended, wsConnected := false }
  | _ => none

/-- What the reconciliation loop does about the token, after it has polled. -/
def checkToken (s : Connection) : Connection :=
  if !s.connected || !s.authenticated then
    if s.reconnect = .done && !s.reconnectGaveUp then
      { s with reconcile := .sleeping, reconnect := .top 0, reconnectStart := s.now, failedPolls := 0 }
    else { s with reconcile := .sleeping }
  else { s with reconcile := .sleeping, reconnectGaveUp := false }

def reconciles (s : Connection) (orders raises : Bool) : Option Connection :=
  match s.reconcile with
  | .absent => none
  | .top =>
    if s.connected then
      if !s.wsConnected && orders then some { s with reconcile := .polling } else some s.checkToken
    else some { s with reconcile := .absent }
  | .polling => if raises then some { s with reconcile := .sleeping } else some s.checkToken
  | .sleeping => some { s with reconcile := .top }

def giveUp (s : Connection) : Connection :=
  { s with
    reconnect := .done, reconnectGaveUp := true, killRequested := true
    giveUps := s.giveUps ++ [(s.now - s.reconnectStart, s.failedPolls)] }

/-- The reconnect loop: `connect` returns at once where the adapter counts as connected. -/
def reconnects (s : Connection) (success raises : Bool) : Option Connection :=
  match s.reconnect with
  | .done => none
  | .top attempt =>
    if attempt < MAX_RECONNECT_ATTEMPTS then
      if s.connected && s.authenticated then some { s with reconnect := .done }
      else some { s with reconnect := .sleeping (attempt + 1) (s.now + min (30 * 2 ^ attempt) 240) }
    else some s.giveUp
  | .sleeping attempt wakes =>
    if s.now < wakes then none
    else if s.connected then some { s with reconnect := .polling attempt }
    else if success then
      some { s with
        clientConnects := s.clientConnects + 1, connected := true, authenticated := true
        reconnect := .polling attempt }
    else some { s with clientConnects := s.clientConnects + 1, reconnect := .top attempt }
  | .polling attempt =>
    if raises then some { s with reconnect := .top attempt, failedPolls := s.failedPolls + 1 }
    else some { s with reconnect := .done }

def step (s : Connection) : Act → Option Connection
  | .connect =>
    match s.main with
    | .idle => if s.connected then some s else some { s with main := .client }
    | _ => none
  | .clientAnswers success =>
    match s.main with
    | .client =>
      if success then some { s with main := .socket .connecting, authenticated := true } else some { s with main := .idle }
    | _ => none
  | .mainOpens a caught => s.mainOpens a caught
  | .listenerOpens a => s.listenerOpens a
  | .drops =>
    match s.listener with
    | .listening => some { s with listener := .closing, wsConnected := false }
    | _ => none
  | .listenerCloses =>
    match s.listener with
    | .closing => some ({ s with ws := none }.sleep 1 1)
    | _ => none
  | .listenerWakes =>
    match s.listener with
    | .sleeping attempt delay wakes =>
      if s.now < wakes then none else some { s with listener := .opening attempt delay .connecting }
    | _ => none
  | .reconciles orders raises => s.reconciles orders raises
  | .reconnects success raises => s.reconnects success raises
  | .authentication good => some { s with authenticated := good }
  | .tick d => if 0 ≤ d then some { s with now := s.now + d } else none

end Connection

/-! ### One task at a time -/

/-- `connect` is under way only before the adapter counts as connected, and the other tasks only after. -/
structure Alone (s : Connection) : Prop where
  main : s.main ≠ .idle → s.connected = false
  listener : s.connected = false → s.listener = .absent
  reconcile : s.connected = false → s.reconcile = .absent
  reconnect : s.connected = false → s.reconnect = .done

/-- Opening the socket changes the socket and its flag only. -/
theorem openStep_frame {s s' : Connection} {stage : OpenStage} {a : Answer} {o : Opened}
    (hr : s.openStep stage a = (s', o)) : ∃ ws flag, s' = { s with ws := ws, wsConnected := flag } := by
  cases stage with
  | connecting => cases a <;> cases hr <;> exact ⟨_, _, rfl⟩
  | opening => cases a <;> cases hr <;> exact ⟨_, _, rfl⟩
  | authorising => cases a <;> cases hr <;> exact ⟨_, _, rfl⟩
  | syncing => cases a <;> cases hr <;> exact ⟨_, _, rfl⟩

theorem checkToken_frame (s : Connection) : ∃ reconcile reconnect gaveUp start failed, s.checkToken =
    { s with
      reconcile := reconcile, reconnect := reconnect, reconnectGaveUp := gaveUp, reconnectStart := start
      failedPolls := failed } ∧ reconcile = .sleeping := by
  unfold Connection.checkToken
  split
  · split <;> exact ⟨_, _, _, _, _, rfl, rfl⟩
  · exact ⟨_, _, _, _, _, rfl, rfl⟩

namespace Alone
variable {s s' : Connection}

theorem start : Alone {} := ⟨fun h => absurd rfl h, fun _ => rfl, fun _ => rfl, fun _ => rfl⟩

theorem of_connected (hconnected : s.connected = true) (hmain : s.main = .idle) : Alone s where
  main h := absurd hmain h
  listener h := by simp [hconnected] at h
  reconcile h := by simp [hconnected] at h
  reconnect h := by simp [hconnected] at h

theorem idle (h : Alone s) (hconnected : s.connected = true) : s.main = .idle := by
  by_contra hne
  simp [h.main hne] at hconnected

theorem connected_of_listener (h : Alone s) (hne : s.listener ≠ .absent) : s.connected = true := by
  rw [← Bool.not_eq_false]
  exact fun hfalse => hne (h.listener hfalse)

theorem connected_of_reconcile (h : Alone s) (hne : s.reconcile ≠ .absent) : s.connected = true := by
  rw [← Bool.not_eq_false]
  exact fun hfalse => hne (h.reconcile hfalse)

theorem connected_of_reconnect (h : Alone s) (hne : s.reconnect ≠ .done) : s.connected = true := by
  rw [← Bool.not_eq_false]
  exact fun hfalse => hne (h.reconnect hfalse)

end Alone

/-- The reconciliation loop leaves `connect` and the socket alone. -/
theorem reconciles_frame {s s' : Connection} {orders raises : Bool} (hs : s.reconciles orders raises = some s') :
    ∃ reconcile reconnect gaveUp start failed, s' =
      { s with
        reconcile := reconcile, reconnect := reconnect, reconnectGaveUp := gaveUp, reconnectStart := start
        failedPolls := failed } := by
  obtain ⟨rc, rn, g, st, f, hcheck, -⟩ := checkToken_frame s
  unfold Connection.reconciles at hs
  split at hs
  · cases hs
  · split at hs
    · split at hs
      · cases hs
        exact ⟨_, _, _, _, _, rfl⟩
      · cases hs
        exact ⟨_, _, _, _, _, hcheck⟩
    · cases hs
      exact ⟨_, _, _, _, _, rfl⟩
  · split at hs
    · cases hs
      exact ⟨_, _, _, _, _, rfl⟩
    · cases hs
      exact ⟨_, _, _, _, _, hcheck⟩
  · cases hs
    exact ⟨_, _, _, _, _, rfl⟩

/-- So does the reconnect loop: it never gets to call `connect` for real. -/
theorem reconnects_frame {s s' : Connection} {success raises : Bool} (h : Alone s)
    (hs : s.reconnects success raises = some s') :
    ∃ reconnect gaveUp kill failed giveUps, s' =
      { s with
        reconnect := reconnect, reconnectGaveUp := gaveUp, killRequested := kill, failedPolls := failed
        giveUps := giveUps } := by
  unfold Connection.reconnects at hs
  split at hs
  · cases hs
  · split at hs
    · split at hs
      all_goals
        cases hs
        exact ⟨_, _, _, _, _, rfl⟩
    · cases hs
      exact ⟨_, _, _, _, _, rfl⟩
  next attempt wakes hsleeping =>
    rw [if_pos (h.connected_of_reconnect (by simp [hsleeping]))] at hs
    split at hs
    · cases hs
    · cases hs
      exact ⟨_, _, _, _, _, rfl⟩
  · split at hs
    all_goals
      cases hs
      exact ⟨_, _, _, _, _, rfl⟩

namespace Alone
variable {s s' : Connection}

theorem mainOpens (h : Alone s) {a : Answer} {caught : Bool} (hs : s.mainOpens a caught = some s') : Alone s' := by
  unfold Connection.mainOpens at hs
  split at hs
  next stage hmain =>
    have hconnected := h.main (by simp [hmain])
    rcases hr : s.openStep stage a with ⟨s₁, o⟩
    obtain ⟨ws, flag, rfl⟩ := openStep_frame hr
    rw [hr] at hs
    cases o with
    | next stage' =>
      cases hs
      exact ⟨fun _ => hconnected, h.listener, h.reconcile, h.reconnect⟩
    | done =>
      cases hs
      exact of_connected rfl rfl
    | raised auth =>
      dsimp only at hs
      split at hs
      · cases hs
        exact of_connected rfl rfl
      · cases hs
        exact ⟨fun hne => absurd rfl hne, h.listener, h.reconcile, h.reconnect⟩
  · cases hs

theorem listenerOpens (h : Alone s) {a : Answer} (hs : s.listenerOpens a = some s') : Alone s' := by
  unfold Connection.listenerOpens at hs
  split at hs
  next attempt delay stage hlistener =>
    have hconnected := h.connected_of_listener (by simp [hlistener])
    have hmain := h.idle hconnected
    rcases hr : s.openStep stage a with ⟨s₁, o⟩
    obtain ⟨ws, flag, rfl⟩ := openStep_frame hr
    rw [hr] at hs
    cases o with
    | next stage' =>
      cases hs
      exact of_connected hconnected hmain
    | done =>
      cases hs
      exact of_connected hconnected hmain
    | raised auth =>
      dsimp only at hs
      split at hs
      all_goals
        cases hs
        exact of_connected hconnected hmain
  · cases hs

theorem step (h : Alone s) {a : Act} (hs : s.step a = some s') : Alone s' := by
  cases a with
  | connect =>
    simp only [Connection.step] at hs
    split at hs
    · split at hs
      · cases hs
        exact h
      next hfalse =>
        cases hs
        exact ⟨fun _ => Bool.eq_false_of_not_eq_true hfalse, h.listener, h.reconcile, h.reconnect⟩
    · cases hs
  | clientAnswers success =>
    simp only [Connection.step] at hs
    split at hs
    next hmain =>
      have hconnected := h.main (by simp [hmain])
      split at hs
      all_goals
        cases hs
        exact ⟨fun _ => hconnected, h.listener, h.reconcile, h.reconnect⟩
    · cases hs
  | mainOpens a caught => exact h.mainOpens hs
  | listenerOpens a => exact h.listenerOpens hs
  | drops =>
    simp only [Connection.step] at hs
    split at hs
    next hlistener =>
      cases hs
      have hconnected := h.connected_of_listener (by simp [hlistener])
      exact of_connected hconnected (h.idle hconnected)
    · cases hs
  | listenerCloses =>
    simp only [Connection.step] at hs
    split at hs
    next hlistener =>
      cases hs
      have hconnected := h.connected_of_listener (by simp [hlistener])
      exact of_connected hconnected (h.idle hconnected)
    · cases hs
  | listenerWakes =>
    simp only [Connection.step] at hs
    split at hs
    next attempt delay wakes hlistener =>
      have hconnected := h.connected_of_listener (by simp [hlistener])
      split at hs
      · cases hs
      · cases hs
        exact of_connected hconnected (h.idle hconnected)
    · cases hs
  | reconciles orders raises =>
    have hpresent : s.reconcile ≠ .absent := by
      intro habsent
      simp [Connection.step, Connection.reconciles, habsent] at hs
    have hconnected := h.connected_of_reconcile hpresent
    obtain ⟨_, _, _, _, _, rfl⟩ := reconciles_frame hs
    exact of_connected hconnected (h.idle hconnected)
  | reconnects success raises =>
    have hpresent : s.reconnect ≠ .done := by
      intro hdone
      simp [Connection.step, Connection.reconnects, hdone] at hs
    have hconnected := h.connected_of_reconnect hpresent
    obtain ⟨_, _, _, _, _, rfl⟩ := reconnects_frame h hs
    exact of_connected hconnected (h.idle hconnected)
  | authentication good =>
    cases hs
    exact ⟨h.main, h.listener, h.reconcile, h.reconnect⟩
  | tick d =>
    simp only [Connection.step] at hs
    split at hs
    · cases hs
      exact ⟨h.main, h.listener, h.reconcile, h.reconnect⟩
    · cases hs

end Alone


/-! ### The flag of the WebSocket -/

/-- How an await of `_open_ws_connection` ends. -/
inductive OpenSpec (s : Connection) (stage : OpenStage) (a : Answer) : Connection → Opened → Prop
  | socket (hstage : stage = .connecting) : OpenSpec s stage a { s with ws := some {} } (.next .opening)
  | frame (hstage : stage = .opening) : OpenSpec s stage a s (.next .authorising)
  | accepted (hstage : stage = .authorising) :
      OpenSpec s stage a { s with ws := s.ws.map fun _ => ⟨true⟩, wsConnected := true } (.next .syncing)
  | other (hstage : stage = .authorising) : OpenSpec s stage a s (.next .syncing)
  | done (hstage : stage = .syncing) : OpenSpec s stage a s .done
  | raised (auth : Bool) (hstage : stage = .syncing → a = .raises) : OpenSpec s stage a s (.raised auth)

theorem openStep_spec (s : Connection) (stage : OpenStage) (a : Answer) :
    OpenSpec s stage a (s.openStep stage a).1 (s.openStep stage a).2 := by
  cases stage with
  | connecting => cases a <;> first | exact .socket rfl | exact .raised _ (by simp)
  | opening => cases a <;> first | exact .frame rfl | exact .raised _ (by simp)
  | authorising =>
    cases a with
    | accepted => exact .accepted rfl
    | other => exact .other rfl
    | refused => exact .raised _ (by simp)
    | raises => exact .raised _ (by simp)
  | syncing => cases a <;> first | exact .done rfl | exact .raised _ (by simp)

def ListenerPc.stage? : ListenerPc → Option OpenStage
  | .opening _ _ stage => some stage
  | _ => none

/-- Where the socket is being opened, by `connect` or by the listener. -/
def Connection.stage? (s : Connection) : Option OpenStage :=
  match s.main with
  | .socket stage => some stage
  | _ => s.listener.stage?

/-- No exception while the request for the user's events is sent, which is after the socket was authorised. -/
def SyncSent (s : Connection) : Act → Prop
  | .mainOpens a _ | .listenerOpens a => s.stage? = some .syncing → a ≠ .raises
  | _ => True

instance (s : Connection) : (a : Act) → Decidable (SyncSent s a)
  | .mainOpens _ _ | .listenerOpens _ => inferInstanceAs (Decidable (_ → _))
  | .connect | .clientAnswers _ | .drops | .listenerCloses | .listenerWakes | .reconciles _ _ | .reconnects _ _
  | .authentication _ | .tick _ => .isTrue trivial

/-- The socket at hand was authorised, and is listened to or about to be. -/
def Live (s : Connection) : Prop := s.ws = some ⟨true⟩ ∧ (s.listener = .listening ∨ s.stage? = some .syncing)

/-- While the socket is being opened it is the one at hand. -/
structure FlagInv (s : Connection) : Prop where
  alone : Alone s
  flag : s.wsConnected = true ↔ Live s
  socket : s.stage? = some .opening ∨ s.stage? = some .authorising → s.ws = some ⟨false⟩

namespace FlagInv
variable {s s' : Connection} {a : Answer}

theorem start : FlagInv {} where
  alone := .start
  flag := by simp [Live]
  socket h := by simp [Connection.stage?, ListenerPc.stage?] at h

theorem congr (h : FlagInv s) (halone : Alone s') (hws : s'.ws = s.ws) (hflag : s'.wsConnected = s.wsConnected)
    (hmain : s'.main = s.main) (hlistener : s'.listener = s.listener) : FlagInv s' where
  alone := halone
  flag := by
    rw [Live, Connection.stage?, hflag, hws, hmain, hlistener]
    exact h.flag
  socket := by
    rw [Connection.stage?, hws, hmain, hlistener]
    exact h.socket

theorem flag_false (h : FlagInv s) (hlistener : s.listener ≠ .listening) (hstage : s.stage? ≠ some .syncing) :
    s.wsConnected = false := by
  rw [← Bool.not_eq_true, h.flag]
  rintro ⟨-, hl | hst⟩
  · exact hlistener hl
  · exact hstage hst

/-- The flag is down, nobody listens, and nobody has begun to open a socket. -/
theorem lowered (halone : Alone s) (hflag : s.wsConnected = false) (hlistener : s.listener ≠ .listening)
    (hstage : ∀ stage, s.stage? = some stage → stage = .connecting) : FlagInv s where
  alone := halone
  flag := by
    rw [hflag]
    refine ⟨fun h => (Bool.false_ne_true h).elim, ?_⟩
    rintro ⟨-, hl | hst⟩
    · exact absurd hl hlistener
    · cases hstage _ hst
  socket hst := by
    rcases hst with hst | hst
    · cases hstage _ hst
    · cases hstage _ hst

theorem mainOpens (h : FlagInv s) {caught : Bool} (hsent : s.stage? = some .syncing → a ≠ .raises)
    (hs : s.mainOpens a caught = some s') : FlagInv s' := by
  have halone := h.alone.mainOpens hs
  unfold Connection.mainOpens at hs
  split at hs
  next stage hmain =>
    have hst : s.stage? = some stage := by simp [Connection.stage?, hmain]
    have habsent := h.alone.listener (h.alone.main (by simp [hmain]))
    have hlistener : s.listener ≠ .listening := by simp [habsent]
    have hspec := openStep_spec s stage a
    rcases hr : s.openStep stage a with ⟨s₁, o⟩
    rw [hr] at hs hspec
    dsimp only at hspec
    cases hspec with
    | socket hstage =>
      cases hs
      have hflag := h.flag_false hlistener (by simp [hst, hstage])
      refine ⟨halone, ?_, fun _ => rfl⟩
      simp [Live, Connection.stage?, hflag]
    | frame hstage =>
      cases hs
      have hflag := h.flag_false hlistener (by simp [hst, hstage])
      have hsocket := h.socket (.inl (hstage ▸ hst))
      refine ⟨halone, ?_, fun _ => hsocket⟩
      simp [Live, Connection.stage?, hflag, hsocket]
    | accepted hstage =>
      cases hs
      have hsocket := h.socket (.inr (hstage ▸ hst))
      refine ⟨halone, ?_, fun hst' => ?_⟩
      · simp [Live, Connection.stage?, hsocket]
      · simp [Connection.stage?] at hst'
    | other hstage =>
      cases hs
      have hflag := h.flag_false hlistener (by simp [hst, hstage])
      have hsocket := h.socket (.inr (hstage ▸ hst))
      refine ⟨halone, ?_, fun hst' => ?_⟩
      · simp [Live, Connection.stage?, hflag, hsocket]
      · simp [Connection.stage?] at hst'
    | done hstage =>
      cases hs
      have hflag := h.flag
      refine ⟨halone, ?_, fun hst' => ?_⟩
      · simpa [Live, Connection.stage?, Connection.connectedNow, ListenerPc.stage?, hmain, hstage, hlistener] using hflag
      · simp [Connection.stage?, Connection.connectedNow, ListenerPc.stage?] at hst'
    | raised auth hstage =>
      have hstage' : stage ≠ .syncing := fun heq => hsent (heq ▸ hst) (hstage heq)
      have hflag := h.flag_false hlistener (by simp [hst, hstage'])
      dsimp only at hs
      split at hs
      · cases hs
        refine lowered halone hflag hlistener fun st hst' => ?_
        simp [Connection.stage?, Connection.connectedNow, ListenerPc.stage?, habsent] at hst'
      · cases hs
        refine lowered halone hflag hlistener fun st hst' => ?_
        simp [Connection.stage?, ListenerPc.stage?, habsent] at hst'
  · cases hs

theorem listenerOpens (h : FlagInv s) (hsent : s.stage? = some .syncing → a ≠ .raises)
    (hs : s.listenerOpens a = some s') : FlagInv s' := by
  have halone := h.alone.listenerOpens hs
  unfold Connection.listenerOpens at hs
  split at hs
  next attempt delay stage hlistener =>
    have hmain := h.alone.idle (h.alone.connected_of_listener (by simp [hlistener]))
    have hst : s.stage? = some stage := by simp [Connection.stage?, hmain, hlistener, ListenerPc.stage?]
    have hne : s.listener ≠ .listening := by simp [hlistener]
    have hspec := openStep_spec s stage a
    rcases hr : s.openStep stage a with ⟨s₁, o⟩
    rw [hr] at hs hspec
    dsimp only at hspec
    cases hspec with
    | socket hstage =>
      cases hs
      have hflag := h.flag_false hne (by simp [hst, hstage])
      refine ⟨halone, ?_, fun _ => rfl⟩
      simp [Live, Connection.stage?, hflag]
    | frame hstage =>
      cases hs
      have hflag := h.flag_false hne (by simp [hst, hstage])
      have hsocket := h.socket (.inl (hstage ▸ hst))
      refine ⟨halone, ?_, fun _ => hsocket⟩
      simp [Live, Connection.stage?, hflag, hsocket]
    | accepted hstage =>
      cases hs
      have hsocket := h.socket (.inr (hstage ▸ hst))
      refine ⟨halone, ?_, fun hst' => ?_⟩
      · simp [Live, Connection.stage?, hsocket, hmain, ListenerPc.stage?]
      · simp [Connection.stage?, hmain, ListenerPc.stage?] at hst'
    | other hstage =>
      cases hs
      have hflag := h.flag_false hne (by simp [hst, hstage])
      have hsocket := h.socket (.inr (hstage ▸ hst))
      refine ⟨halone, ?_, fun hst' => ?_⟩
      · simp [Live, Connection.stage?, hflag, hsocket]
      · simp [Connection.stage?, hmain, ListenerPc.stage?] at hst'
    | done hstage =>
      cases hs
      have hflag := h.flag
      refine ⟨halone, ?_, fun hst' => ?_⟩
      · simpa [Live, Connection.stage?, hmain, hlistener, ListenerPc.stage?, hstage] using hflag
      · simp [Connection.stage?, hmain, ListenerPc.stage?] at hst'
    | raised auth hstage =>
      have hstage' : stage ≠ .syncing := fun heq => hsent (heq ▸ hst) (hstage heq)
      have hflag := h.flag_false hne (by simp [hst, hstage'])
      dsimp only at hs
      split at hs
      · cases hs
        refine lowered halone hflag (by simp [Connection.sleep]) fun st hst' => ?_
        simp [Connection.stage?, Connection.sleep, ListenerPc.stage?, hmain] at hst'
      · cases hs
        refine lowered halone rfl (by simp) fun st hst' => ?_
        simp [Connection.stage?, ListenerPc.stage?, hmain] at hst'
  · cases hs

theorem step (h : FlagInv s) {a : Act} (hsent : SyncSent s a) (hs : s.step a = some s') : FlagInv s' := by
  have halone := h.alone.step hs
  cases a with
  | connect =>
    simp only [Connection.step] at hs
    split at hs
    next hmain =>
      split at hs
      · cases hs
        exact h
      next hfalse =>
        cases hs
        have habsent := h.alone.listener (Bool.eq_false_of_not_eq_true hfalse)
        have hflag := h.flag_false (by simp [habsent]) (by simp [Connection.stage?, hmain, habsent, ListenerPc.stage?])
        refine lowered halone hflag (by simp [habsent]) fun st hst => ?_
        simp [Connection.stage?, habsent, ListenerPc.stage?] at hst
    · cases hs
  | clientAnswers success =>
    simp only [Connection.step] at hs
    split at hs
    next hmain =>
      have habsent := h.alone.listener (h.alone.main (by simp [hmain]))
      have hflag := h.flag_false (by simp [habsent]) (by simp [Connection.stage?, hmain, habsent, ListenerPc.stage?])
      split at hs
      · cases hs
        refine lowered halone hflag (by simp [habsent]) fun st hst => ?_
        simpa [Connection.stage?, eq_comm] using hst
      · cases hs
        refine lowered halone hflag (by simp [habsent]) fun st hst => ?_
        simp [Connection.stage?, habsent, ListenerPc.stage?] at hst
    · cases hs
  | mainOpens a caught => exact h.mainOpens hsent hs
  | listenerOpens a => exact h.listenerOpens hsent hs
  | drops =>
    simp only [Connection.step] at hs
    split at hs
    next hlistener =>
      cases hs
      have hmain := h.alone.idle (h.alone.connected_of_listener (by simp [hlistener]))
      refine lowered halone rfl (by simp) fun st hst => ?_
      simp [Connection.stage?, hmain, ListenerPc.stage?] at hst
    · cases hs
  | listenerCloses =>
    simp only [Connection.step] at hs
    split at hs
    next hlistener =>
      cases hs
      have hmain := h.alone.idle (h.alone.connected_of_listener (by simp [hlistener]))
      have hflag := h.flag_false (by simp [hlistener]) (by simp [Connection.stage?, hmain, hlistener, ListenerPc.stage?])
      refine lowered halone hflag (by simp [Connection.sleep]) fun st hst => ?_
      simp [Connection.stage?, Connection.sleep, hmain, ListenerPc.stage?] at hst
    · cases hs
  | listenerWakes =>
    simp only [Connection.step] at hs
    split at hs
    next attempt delay wakes hlistener =>
      have hmain := h.alone.idle (h.alone.connected_of_listener (by simp [hlistener]))
      have hflag := h.flag_false (by simp [hlistener]) (by simp [Connection.stage?, hmain, hlistener, ListenerPc.stage?])
      split at hs
      · cases hs
      · cases hs
        refine lowered halone hflag (by simp) fun st hst => ?_
        simpa [Connection.stage?, hmain, ListenerPc.stage?, eq_comm] using hst
    · cases hs
  | reconciles orders raises =>
    obtain ⟨_, _, _, _, _, rfl⟩ := reconciles_frame hs
    exact h.congr halone rfl rfl rfl rfl
  | reconnects success raises =>
    obtain ⟨_, _, _, _, _, rfl⟩ := reconnects_frame h.alone hs
    exact h.congr halone rfl rfl rfl rfl
  | authentication good =>
    cases hs
    exact h.congr halone rfl rfl rfl rfl
  | tick d =>
    simp only [Connection.step] at hs
    split at hs
    · cases hs
      exact h.congr halone rfl rfl rfl rfl
    · cases hs

end FlagInv

/-- `ws_connected` says whether a socket that was authorised is listened to, or about to be: in every run in which
sending the request for the user's events never raises. -/
theorem websocket_flag {s : Connection} (h : Lts.Reach Connection.step SyncSent {} s) :
    s.wsConnected = true ↔ Live s :=
  (h.invariant FlagInv.start fun _ _ _ hinv hsent hs => hinv.step hsent hs).flag

/-- `connect` fails, and is called again; the socket drops, and is opened again at the second attempt. -/
def sampleConnection : List Act :=
  [.connect, .clientAnswers true, .mainOpens .other true, .mainOpens .raises false,
    .connect, .clientAnswers true, .mainOpens .other true, .mainOpens .other true, .mainOpens .accepted true,
    .mainOpens .other true, .drops, .listenerCloses, .tick 1, .listenerWakes, .listenerOpens .raises, .tick 2,
    .listenerWakes, .listenerOpens .other, .listenerOpens .other, .listenerOpens .accepted, .listenerOpens .other]

theorem websocket_flag_sampleConnection : ∃ s, Lts.Reach Connection.step SyncSent {} s ∧
    (s.wsConnected = true ∧ s.listener = .listening) ∧ (s.wsConnected = true ↔ Live s) := by
  obtain ⟨s, hreach, hp⟩ := Lts.exists_reach Connection.step SyncSent {} sampleConnection
    (fun s => s.wsConnected && decide (s.listener = .listening)) (by decide +kernel)
  exact ⟨s, hreach, by simpa using hp, websocket_flag hreach⟩

/-- Where sending it raises after the socket was authorised, the flag stays up while the listener waits. -/
example : ((Lts.runIf Connection.step Lts.AnyStep {} [.connect, .clientAnswers true, .mainOpens .other true,
    .mainOpens .other true, .mainOpens .accepted true, .mainOpens .other true, .drops, .listenerCloses, .tick 1,
    .listenerWakes, .listenerOpens .other, .listenerOpens .other, .listenerOpens .accepted, .listenerOpens .raises]).map
      fun s => (s.wsConnected, s.listener)) = some (true, .sleeping 2 2 3) := by decide +kernel

end PearlAlgo.Tradovate
