import Mathlib.Tactic.SplitIfs
import PearlAlgo.Coop.Pool
import PearlAlgo.Yaml.Datum

/-!
# Requests and tokens of the client (`execution/tradovate/client.py`)

`_get`, `_post`, `_authenticate` and `_renew_token` as coroutines of one session. A request that is answered with 401
authenticates and goes out a second time; an access token request that is answered with a penalty ticket waits and goes
out a second time with the ticket; a renewal that fails in any way authenticates.
-/

namespace PearlAlgo.ClientSession
open Coop Yaml

inductive Verb
  | get
  | post
deriving DecidableEq

/-- `authorization` is the token of the header, where there is a header. -/
structure HttpRequest where
  verb : Verb
  path : String
  body : Mapping := []
  authorization : Option Datum := none
deriving DecidableEq

structure HttpResponse where
  status : Nat
  text : String
deriving DecidableEq

inductive Query
  | send (r : HttpRequest)
  | sleep (seconds : ℚ)

/-- A request that raises has no response. -/
@[reducible] def Answer : Query → Type
  | .send _ => Option HttpResponse
  | .sleep _ => Unit

inductive Err
  | notConnected
  | transport
  | api (status : Nat) (body : Datum)
  | auth
  | value
  | attribute
deriving DecidableEq

/-- The configuration, and what `json.loads`, `float` and `str` make of their arguments. -/
structure Client where
  credentials : Mapping
  loads : String → Option Datum
  float : Datum → Option ℚ
  str : Datum → String

structure Session where
  isOpen : Bool := true
  accessToken : Datum := .null
  mdAccessToken : Datum := .null
  userId : Datum := .null
  /-- The `expirationTime` that was read last. -/
  tokenExpiry : Datum := .null
deriving DecidableEq

abbrev Coro (α : Type) : Type := Proc Session Answer α

def send (r : HttpRequest) : Coro (Option HttpResponse) := Proc.ask (Query.send r)

def sleep (seconds : ℚ) : Coro Unit := Proc.ask (Query.sleep seconds)

def ACCESS_TOKEN_REQUEST : String := "/auth/accesstokenrequest"

def RENEW_ACCESS_TOKEN : String := "/auth/renewaccesstoken"

theorem renew_ne_access : RENEW_ACCESS_TOKEN ≠ ACCESS_TOKEN_REQUEST := by
  simp [RENEW_ACCESS_TOKEN, ACCESS_TOKEN_REQUEST]

/-- `d.get(k)` -/
def item (k : Key) (m : Mapping) : Datum := (m.get? k).getD .null

namespace Client
variable (c : Client)

def handleResponse (resp : HttpResponse) : Except Err Datum :=
  let data := if resp.text = "" then .map [] else (c.loads resp.text).getD (.map [("raw", .str resp.text)])
  if resp.status = 429 then .error (.api 429 (.str resp.text))
  else if 400 ≤ resp.status then .error (.api resp.status data)
  else if (item "errorText" data.asMap).truthy then .error (.api resp.status data)
  else .ok data

/-- What a request returns or raises. -/
def received : Option HttpResponse → Except Err Datum
  | none => .error .transport
  | some resp => c.handleResponse resp

/-- `_get`, and `_post` with its argument `auth`; `reauth` is `self._authenticate()`. -/
def request (reauth : Coro (Except Err Unit)) (r : HttpRequest) (auth : Bool) : Coro (Except Err Datum) := do
  let s ← Proc.read
  if s.isOpen then
    let authorization := if auth && s.accessToken.truthy then some s.accessToken else none
    let answer ← send { r with authorization := authorization }
    if auth && answer.any fun resp => resp.status = 401 then
      match ← reauth with
      | .error e => pure (.error e)
      | .ok () =>
        let s ← Proc.read
        if s.isOpen then
          let answer ← send { r with authorization := some s.accessToken }
          pure (c.received answer)
        else pure (.error .attribute)
    else pure (c.received answer)
  else pure (.error .notConnected)

/-- The tokens of a reply, and its expiry, which raises where it is no text. -/
def takeTokens (m : Mapping) : Coro (Except Err Unit) := do
  Proc.modify fun s =>
    { s with
      accessToken := item "accessToken" m
      mdAccessToken := item "mdAccessToken" m
      userId := item "userId" m }
  takeExpiry m
where
  takeExpiry (m : Mapping) : Coro (Except Err Unit) := do
    match item "expirationTime" m with
    | .scalar (.str text) =>
      Proc.modify fun s => if text = "" then s else { s with tokenExpiry := .str text }
      pure (.ok ())
    | expiry => pure (if expiry.truthy then .error .attribute else .ok ())

/-- `p-ticket` and `p-time` of a penalty. -/
def penalty? (m : Mapping) : Option (Datum × Datum) :=
  if (item "p-ticket" m).truthy ∧ item "p-time" m ≠ .null then some (item "p-ticket" m, item "p-time" m) else none

/-- `_authenticate` with the ticket; `retry` is its call of itself, where `allow_p_ticket_retry` holds. -/
def authenticateWith (pTicket : Option String) (retry : Option (String → Coro (Except Err Unit))) :
    Coro (Except Err Unit) := do
  let ticket := (pTicket.filter (· ≠ "")).map fun ticket => (("p-ticket" : Key), Datum.str ticket)
  let body := c.credentials ++ ticket.toList
  match ← c.request (pure (.ok ())) { verb := .post, path := ACCESS_TOKEN_REQUEST, body := body } false with
  | .error _ => pure (.error .auth)
  | .ok (.map m) =>
    match penalty? m with
    | some (ticket, time) =>
      match retry with
      | some retry =>
        if (item "p-captcha" m).truthy then pure (.error .auth)
        else
          match c.float time with
          | none => pure (.error .value)
          | some seconds => do
            sleep seconds
            retry (c.str ticket)
      | none => pure (.error .auth)
    | none =>
      if (item "errorText" m).truthy then pure (.error .auth)
      else takeTokens m
  | .ok _ => pure (.error .attribute)

def authenticate : Coro (Except Err Unit) :=
  c.authenticateWith none (some fun ticket => c.authenticateWith (some ticket) none)

def get (path : String) : Coro (Except Err Datum) := c.request c.authenticate { verb := .get, path := path } true

def post (path : String) (body : Mapping) : Coro (Except Err Datum) :=
  c.request c.authenticate { verb := .post, path := path, body := body } true

/-- The body of the `try`. -/
def tryRenew : Coro (Except Err Unit) := do
  match ← c.get RENEW_ACCESS_TOKEN with
  | .error e => pure (.error e)
  | .ok (.map m) =>
    if (item "accessToken" m).truthy then
      Proc.modify fun s => { s with accessToken := item "accessToken" m }
      takeTokens.takeExpiry m
    else c.authenticate
  | .ok _ => pure (.error .attribute)

def renewToken : Coro (Except Err Unit) := do
  let s ← Proc.read
  if s.accessToken.truthy then
    match ← c.tryRenew with
    | .error _ => c.authenticate
    | .ok () => pure (.ok ())
  else pure (.ok ())

end Client

/-! ### One call, whatever the server answers and the other tasks do meanwhile -/

/-- A path of the API that grants no token. -/
structure Endpoint where
  path : String
  not_access : path ≠ ACCESS_TOKEN_REQUEST
  not_renew : path ≠ RENEW_ACCESS_TOKEN

abbrev Exchange := HttpRequest × Option HttpResponse

def exchange? : (q : Query) × Answer q → Option Exchange
  | ⟨.send r, answer⟩ => some (r, answer)
  | ⟨.sleep _, _⟩ => none

/-- The requests of a path with their responses. -/
def exchanges (path : String) (trace : List ((q : Query) × Answer q)) : List Exchange :=
  (trace.filterMap exchange?).filter fun e => e.1.path = path

section
variable {path : String} {trace trace' : List ((q : Query) × Answer q)} {r : HttpRequest} {answer : Option HttpResponse}

@[simp] theorem exchanges_nil : exchanges path [] = [] := rfl

@[simp] theorem exchanges_append :
    exchanges path (trace ++ trace') = exchanges path trace ++ exchanges path trace' := by
  simp [exchanges]

@[simp] theorem exchanges_send :
    exchanges path (⟨.send r, answer⟩ :: trace) =
      if r.path = path then (r, answer) :: exchanges path trace else exchanges path trace := by
  simp [exchanges, exchange?, List.filter_cons]

end

namespace Client
variable {c : Client}

def accepted (c : Client) (e : Exchange) : Bool := (c.received e.2).isOk

theorem handleResponse_unauthorized {resp : HttpResponse} (h : resp.status = 401) :
    (c.handleResponse resp).isOk = false := by
  simp [handleResponse, h, Except.isOk, Except.toBool]

/-- How a request with authorization goes: what is sent, and what the call makes of the last response. -/
inductive Requested (c : Client) (reauth : Coro (Except Err Unit)) (r : HttpRequest) :
    Proc.Outcome Session Answer (Except Err Datum) → Prop
  | closed (s : Session) : Requested c reauth r ⟨[], s, .error .notConnected⟩
  | once (token : Option Datum) (answer : Option HttpResponse) (s : Session) :
    Requested c reauth r ⟨[⟨.send { r with authorization := token }, answer⟩], s, c.received answer⟩
  | refused (token : Option Datum) {resp : HttpResponse} (h : resp.status = 401)
    (env : Nat → Proc.Interval Session Answer) (s : Session) (e : Err) :
    Requested c reauth r
      ⟨⟨.send { r with authorization := token }, some resp⟩ :: (reauth.play env s).trace, (reauth.play env s).state,
        .error e⟩
  | again (token token' : Option Datum) {resp : HttpResponse} (h : resp.status = 401)
    (env : Nat → Proc.Interval Session Answer) (s s' : Session) (answer : Option HttpResponse) :
    Requested c reauth r
      ⟨⟨.send { r with authorization := token }, some resp⟩ ::
        ((reauth.play env s).trace ++ [⟨.send { r with authorization := token' }, answer⟩]), s', c.received answer⟩

theorem requested (reauth : Coro (Except Err Unit)) (r : HttpRequest) (env : Nat → Proc.Interval Session Answer)
    (s : Session) : Requested c reauth r ((c.request reauth r true).play env s) := by
  unfold request
  rw [Proc.play_read_bind]
  split
  · dsimp only
    generalize (if true && s.accessToken.truthy then some s.accessToken else none) = token
    rw [send, Proc.play_ask_bind]
    dsimp only
    generalize (env 0).answer (.send { r with authorization := token }) = answer
    cases answer with
    | none => exact .once token none _
    | some resp =>
      by_cases hstatus : resp.status = 401
      · have hagain : (true && (some resp).any fun resp => resp.status = 401) = true := by simp [hstatus]
        rw [if_pos hagain, Proc.play_bind]
        dsimp only
        generalize (fun n => env (n + 1)) = env'
        generalize (env 0).others s = s'
        cases hvalue : (reauth.play env' s').value with
        | error e =>
          have h : Requested c reauth r _ := .refused token hstatus env' s' e
          simpa using h
        | ok u =>
          dsimp only
          rw [Proc.play_read_bind]
          split
          · exact .again token _ hstatus env' s' _ _
          · have h : Requested c reauth r _ := .refused token hstatus env' s' .attribute
            simpa using h
      · have honce : ¬(true && (some resp).any fun resp => resp.status = 401) = true := by simp [hstatus]
        rw [if_neg honce]
        exact .once token (some resp) _
  · exact .closed s

end Client

/-! ### How often a path is requested -/

/-- Whatever happens meanwhile, each path is requested at most so many times. -/
def Sends (bound : String → Nat) {α : Type} (p : Coro α) : Prop :=
  ∀ env s path, (exchanges path (p.play env s).trace).length ≤ bound path

namespace Sends
variable {α β : Type} {b d : String → Nat} {p : Coro α}

theorem pure (a : α) : Sends (fun _ => 0) (Pure.pure a : Coro α) := fun _ _ _ => le_rfl

theorem read : Sends (fun _ => 0) (Proc.read : Coro Session) := fun _ _ _ => le_rfl

theorem modify (f : Session → Session) : Sends (fun _ => 0) (Proc.modify f : Coro Unit) := fun _ _ _ => le_rfl

theorem sleep (seconds : ℚ) : Sends (fun _ => 0) (ClientSession.sleep seconds) := fun _ _ _ => le_rfl

theorem send (r : HttpRequest) : Sends (fun path => if path = r.path then 1 else 0) (ClientSession.send r) := by
  intro env s path
  show (exchanges path [⟨.send r, _⟩]).length ≤ _
  simp only [exchanges_send, exchanges_nil, eq_comm]
  split <;> simp

theorem bind {f : α → Coro β} (hp : Sends b p) (hf : ∀ a, Sends d (f a)) :
    Sends (fun path => b path + d path) (p >>= f) := by
  intro env s path
  rw [Proc.play_bind]
  dsimp only
  rw [exchanges_append, List.length_append]
  exact Nat.add_le_add (hp env s path) (hf _ _ _ path)

theorem mono (hp : Sends b p) (h : ∀ path, b path ≤ d path) : Sends d p :=
  fun env s path => (hp env s path).trans (h path)

end Sends

/-- So many requests of one path. -/
def only (path : String) (n : Nat) : String → Nat := fun path' => if path' = path then n else 0

namespace Client
variable {c : Client}

theorem sends_request {b : String → Nat} {reauth : Coro (Except Err Unit)} (h : Sends b reauth) (r : HttpRequest)
    (auth : Bool) : Sends (fun path => only r.path 2 path + b path) (c.request reauth r auth) := by
  have hagain (u : Except Err Unit) : Sends (only r.path 1)
      (match u with
      | .error e => pure (.error e)
      | .ok () => do
        let s ← Proc.read
        if s.isOpen then
          let answer ← send { r with authorization := some s.accessToken }
          pure (c.received answer)
        else pure (.error .attribute) : Coro (Except Err Datum)) := by
    cases u with
    | error e => exact (Sends.pure _).mono fun _ => Nat.zero_le _
    | ok u =>
      refine (Sends.read.bind (d := only r.path 1) fun s => ?_).mono fun _ => by simp
      split
      · exact ((Sends.send _).bind fun answer => Sends.pure _).mono fun _ => le_rfl
      · exact (Sends.pure _).mono fun _ => Nat.zero_le _
  unfold request
  refine (Sends.read.bind (d := fun path => only r.path 2 path + b path) fun s => ?_).mono fun _ => by simp
  split
  · refine ((Sends.send _).bind (d := fun path => b path + only r.path 1 path) fun answer => ?_).mono fun path => ?_
    · split
      · exact h.bind hagain
      · exact (Sends.pure _).mono fun _ => Nat.zero_le _
    · simp only [only]
      split <;> omega
  · exact (Sends.pure _).mono fun _ => Nat.zero_le _

/-- Without `auth` there is no second request. -/
theorem sends_plain (reauth : Coro (Except Err Unit)) (r : HttpRequest) :
    Sends (only r.path 1) (c.request reauth r false) := by
  unfold request
  refine (Sends.read.bind (d := only r.path 1) fun s => ?_).mono fun _ => by simp
  split
  · refine ((Sends.send _).bind (d := fun _ => 0) fun answer => ?_).mono fun _ => le_rfl
    rw [Bool.false_and, if_neg Bool.false_ne_true]
    exact Sends.pure _
  · exact (Sends.pure _).mono fun _ => Nat.zero_le _

theorem sends_takeExpiry (m : Mapping) : Sends (fun _ => 0) (takeTokens.takeExpiry m) := by
  unfold takeTokens.takeExpiry
  split
  · exact (Sends.modify _).bind fun _ => Sends.pure _
  · exact Sends.pure _

theorem sends_takeTokens (m : Mapping) : Sends (fun _ => 0) (takeTokens m) :=
  (Sends.modify _).bind fun _ => sends_takeExpiry m

theorem sends_authenticateWith (pTicket : Option String) {retry : Option (String → Coro (Except Err Unit))} {n : Nat}
    (h : ∀ f ∈ retry, ∀ ticket, Sends (only ACCESS_TOKEN_REQUEST n) (f ticket)) :
    Sends (only ACCESS_TOKEN_REQUEST (n + 1)) (c.authenticateWith pTicket retry) := by
  have hnone (u : Except Err Unit) : Sends (only ACCESS_TOKEN_REQUEST n) (pure u) :=
    (Sends.pure u).mono fun _ => Nat.zero_le _
  unfold authenticateWith
  refine ((sends_plain _ _).bind (d := only ACCESS_TOKEN_REQUEST n) fun data => ?_).mono fun path => ?_
  · split
    · exact hnone _
    · split
      · split
        next f =>
          split
          · exact hnone _
          · split
            · exact hnone _
            · exact ((Sends.sleep _).bind fun _ => h f rfl _).mono fun _ => by simp
        · exact hnone _
      · split
        · exact hnone _
        · exact (sends_takeTokens _).mono fun _ => Nat.zero_le _
    · exact hnone _
  · simp only [only]
    split <;> omega

theorem sends_authenticate : Sends (only ACCESS_TOKEN_REQUEST 2) c.authenticate := by
  refine sends_authenticateWith none fun f hf ticket => ?_
  cases hf
  exact sends_authenticateWith (some ticket) fun f hf => by cases hf

/-- A call requests its own path and an access token at most twice. -/
theorem sends_call (r : HttpRequest) : Sends (fun path => only r.path 2 path + only ACCESS_TOKEN_REQUEST 2 path)
    (c.request c.authenticate r true) := sends_request sends_authenticate r true

theorem sends_tryRenew :
    Sends (fun path => only RENEW_ACCESS_TOKEN 2 path + only ACCESS_TOKEN_REQUEST 4 path) c.tryRenew := by
  unfold tryRenew
  refine ((sends_call _).bind (d := only ACCESS_TOKEN_REQUEST 2) fun data => ?_).mono fun path => ?_
  · split
    · exact (Sends.pure _).mono fun _ => Nat.zero_le _
    · split
      · exact ((Sends.modify _).bind fun _ => sends_takeExpiry _).mono fun _ => Nat.zero_le _
      · exact sends_authenticate
    · exact (Sends.pure _).mono fun _ => Nat.zero_le _
  · simp only [only]
    split <;> split <;> omega

end Client

/-- One renewal of the token sends at most two renewals and at most six access token requests: two for a renewal that is
answered with 401, two for one that grants no token, and two because these failed. -/
theorem renewal_traffic (c : Client) (env : Nat → Proc.Interval Session Answer) (s : Session) :
    (exchanges RENEW_ACCESS_TOKEN (c.renewToken.play env s).trace).length ≤ 2 ∧
      (exchanges ACCESS_TOKEN_REQUEST (c.renewToken.play env s).trace).length ≤ 6 ∧
      ∀ e : Endpoint, exchanges e.path (c.renewToken.play env s).trace = [] := by
  have hrenew : Sends (fun path => only RENEW_ACCESS_TOKEN 2 path + only ACCESS_TOKEN_REQUEST 6 path) c.renewToken := by
    unfold Client.renewToken
    refine (Sends.read.bind (d := fun path => only RENEW_ACCESS_TOKEN 2 path + only ACCESS_TOKEN_REQUEST 6 path)
      fun s => ?_).mono fun _ => by simp
    split
    · refine (Client.sends_tryRenew.bind (d := only ACCESS_TOKEN_REQUEST 2) fun u => ?_).mono fun path => ?_
      · split
        · exact Client.sends_authenticate
        · exact (Sends.pure _).mono fun _ => Nat.zero_le _
      · simp only [only]
        split <;> split <;> omega
    · exact (Sends.pure _).mono fun _ => Nat.zero_le _
  refine ⟨hrenew env s RENEW_ACCESS_TOKEN, hrenew env s ACCESS_TOKEN_REQUEST, fun e => ?_⟩
  have hlength := hrenew env s e.path
  simpa [only, e.not_access, e.not_renew] using hlength

/-- A call that returns was answered exactly once with what it returns, and one that raises never: of its requests, all
the same and at most two, every one but the last was refused with 401. It requests an access token only after that, and
at most twice. -/
theorem post_once (c : Client) (endpoint : Endpoint) (body : Mapping) (env : Nat → Proc.Interval Session Answer)
    (s : Session) :
    let o := (c.post endpoint.path body).play env s
    let own := exchanges endpoint.path o.trace
    own.length ≤ 2 ∧ (∀ e ∈ own, e.1.verb = .post ∧ e.1.body = body) ∧
      (∀ data, o.value = .ok data → ∃ e, own.filter c.accepted = [e] ∧ c.received e.2 = .ok data) ∧
      (∀ err, o.value = .error err → own.filter c.accepted = []) ∧
      (exchanges ACCESS_TOKEN_REQUEST o.trace).length ≤ 2 ∧
      (exchanges ACCESS_TOKEN_REQUEST o.trace ≠ [] →
        ∃ e resp, own.head? = some e ∧ e.2 = some resp ∧ resp.status = 401) := by
  have hlength := Client.sends_call (c := c) { verb := .post, path := endpoint.path, body := body } env s
  have hauth (env : Nat → Proc.Interval Session Answer) (s : Session) :
      exchanges endpoint.path (c.authenticate.play env s).trace = [] := by
    have h := Client.sends_authenticate (c := c) env s endpoint.path
    simpa [only, endpoint.not_access] using h
  have hrequested := Client.requested (c := c) c.authenticate
    { verb := .post, path := endpoint.path, body := body } env s
  unfold Client.post
  generalize (c.request c.authenticate { verb := .post, path := endpoint.path, body := body } true).play env s = o
    at hrequested hlength ⊢
  have hown := hlength endpoint.path
  have htokens := hlength ACCESS_TOKEN_REQUEST
  simp only [only, endpoint.not_access, endpoint.not_access.symm, if_true, if_false, Nat.add_zero, Nat.zero_add]
    at hown htokens
  have hrefused {r : HttpRequest} {resp : HttpResponse} (h : resp.status = 401) : c.accepted (r, some resp) = false :=
    Client.handleResponse_unauthorized h
  have haccepted {r : HttpRequest} {answer : Option HttpResponse} :
      c.accepted (r, answer) = (c.received answer).isOk := rfl
  let sent (token : Option Datum) : HttpRequest :=
    { verb := .post, path := endpoint.path, body := body, authorization := token }
  refine ⟨hown, ?_, ?_, ?_, htokens, ?_⟩
  · cases hrequested <;> simp [hauth]
  · intro data hvalue
    have hok {answer : Option HttpResponse} (h : c.received answer = .ok data) : (c.received answer).isOk = true := by
      rw [h]; rfl
    cases hrequested with
    | closed s => cases hvalue
    | once token answer s =>
      exact ⟨(sent token, answer), by simp [sent, haccepted, hok hvalue], hvalue⟩
    | refused token h env s e => cases hvalue
    | again token token' h env s s' answer =>
      exact ⟨(sent token', answer), by simp [sent, hauth, hrefused h, haccepted, hok hvalue], hvalue⟩
  · intro err hvalue
    have hraised {answer : Option HttpResponse} (h : c.received answer = .error err) :
        (c.received answer).isOk = false := by
      rw [h]; rfl
    cases hrequested with
    | closed s => rfl
    | once token answer s =>
      simp [haccepted, hraised hvalue]
    | refused token h env s e => simp [hauth, hrefused h]
    | again token token' h env s s' answer =>
      simp [hauth, hrefused h, haccepted, hraised hvalue]
  · intro htoken
    cases hrequested with
    | closed s => exact absurd rfl htoken
    | once token answer s => simp [endpoint.not_access] at htoken
    | refused token h env s e => exact ⟨(sent token, _), _, by simp [sent], rfl, h⟩
    | again token token' h env s s' answer => exact ⟨(sent token, _), _, by simp [sent], rfl, h⟩

/-! ### The token, in every interleaving of the calls -/

inductive Call
  | authenticate
  | renew
  | get (e : Endpoint)
  | post (e : Endpoint) (body : Mapping)

inductive Event
  | connect
  | disconnect

namespace Client
variable (c : Client)

def machine : Machine Session Answer (Except Err Datum) Call Event where
  proc
    | .authenticate => do
      let u ← c.authenticate
      pure (u.map fun _ => .null)
    | .renew => do
      let u ← c.renewToken
      pure (u.map fun _ => .null)
    | .get e => c.get e.path
    | .post e body => c.post e.path body
  env
    | .connect, s => { s with isOpen := true }
    | .disconnect, s => { s with isOpen := false, accessToken := .null }

/-- The token that a response to a request of this path grants. -/
def grantedBy (path : String) : Except Err Datum → Option Datum
  | .ok (.map m) =>
    if path = ACCESS_TOKEN_REQUEST then
      if penalty? m = none then some (item "accessToken" m) else none
    else if path = RENEW_ACCESS_TOKEN ∧ (item "accessToken" m).truthy then some (item "accessToken" m)
    else none
  | _ => none

def granted : From Answer → Option Datum
  | .answer (.send r) answer => grantedBy r.path (c.received answer)
  | .answer (.sleep _) _ => none
  | .start => none

/-- The token that was granted last, since the last disconnect. -/
def latestToken : List (Turn Session Answer (Except Err Datum) Call Event) → Datum
  | [] => .null
  | .seg _ w _ _ _ :: log => (c.granted w).getD (latestToken log)
  | .env .connect _ _ :: log => latestToken log
  | .env .disconnect _ _ :: _ => .null

end Client

/-- The header of a request that is sent when this is the token. -/
def Carries (r : HttpRequest) (token : Datum) : Prop :=
  if r.path = ACCESS_TOKEN_REQUEST then r.authorization = none
  else r.authorization = some token ∨ r.authorization = none ∧ token.truthy = false

namespace Client
variable {c : Client}

/-- A segment takes over the token that it was woken with, and no other. -/
def Current (c : Client) (w : From Answer) (s₀ s : Session) : Prop := s.accessToken = (c.granted w).getD s₀.accessToken

def Tokens (c : Client) : Contract Session Answer (Except Err Datum) := fun w s₀ s t =>
  c.Current w s₀ s ∧ ∀ r, t = .waiting (.send r) → Carries r s.accessToken

def Pauses (c : Client) (w : From Answer) (s₀ s : Session) (q : Query) : Prop :=
  c.Tokens w s₀ s (.waiting q)

/-- A coroutine that is begun with the current token, and keeps it so. -/
def Keeps (c : Client) {α : Type} (p : Coro α) : Prop :=
  ∀ w s₀ s, c.Current w s₀ s → p.wp c.Pauses (fun _ => c.Current) w s₀ s

theorem grantedBy_other {path : String} {v : Except Err Datum} (hna : path ≠ ACCESS_TOKEN_REQUEST)
    (hnr : path ≠ RENEW_ACCESS_TOKEN) : grantedBy path v = none := by
  unfold grantedBy
  split
  · rw [if_neg hna, if_neg fun h => hnr h.1]
  · rfl

namespace Keeps
variable {α β : Type} {p : Coro α}

theorem pure (a : α) : c.Keeps (Pure.pure a : Coro α) := fun _ _ _ h => h

theorem bind {f : α → Coro β} (hp : c.Keeps p) (hf : ∀ a, c.Keeps (f a)) : c.Keeps (p >>= f) := by
  intro w s₀ s h
  rw [Proc.wp_bind]
  exact Proc.wp_mono p (hp w s₀ s h) fun a w s₀ s h => hf a w s₀ s h

theorem modify {f : Session → Session} (hf : ∀ s, (f s).accessToken = s.accessToken) :
    c.Keeps (Proc.modify f : Coro Unit) := by
  intro w s₀ s h
  rw [Proc.wp_modify]
  exact (hf s).trans h

theorem sleep (seconds : ℚ) : c.Keeps (ClientSession.sleep seconds) := fun _ _ _ h =>
  ⟨⟨h, fun _ hr => by cases hr⟩, fun _ _ => rfl⟩

end Keeps

/-- What a request leaves: the response that woke it, or an error and the current token. -/
def Received (c : Client) (path : String) (v : Except Err Datum) (w : From Answer) (s₀ s : Session) : Prop :=
  (∃ r answer, r.path = path ∧ w = .answer (.send r) answer ∧ v = c.received answer ∧ s = s₀) ∨
    (∃ e, v = .error e) ∧ c.Current w s₀ s

theorem Received.error {path : String} {e : Err} {w : From Answer} {s₀ s : Session}
    (h : c.Received path (.error e) w s₀ s) : c.Current w s₀ s := by
  obtain ⟨r, answer, -, rfl, hv, rfl⟩ | ⟨-, h⟩ := h
  · show _ = (grantedBy _ (c.received answer)).getD _
    rw [← hv]
    rfl
  · exact h

theorem Received.ok {path : String} {data : Datum} {w : From Answer} {s₀ s : Session}
    (h : c.Received path (.ok data) w s₀ s) :
    s = s₀ ∧ c.granted w = grantedBy path (.ok data) ∧ ∃ answer, .ok data = c.received answer := by
  obtain ⟨r, answer, hpath, rfl, hv, rfl⟩ | ⟨⟨e, he⟩, -⟩ := h
  · refine ⟨rfl, ?_, answer, hv⟩
    rw [hv]
    exact congrArg (grantedBy · _) hpath
  · cases he

/-- Where nothing is granted nothing need be taken over. -/
theorem Current.of_none {w : From Answer} {s : Session} (h : c.granted w = none) : c.Current w s s := by
  rw [Current, h]
  rfl

theorem wp_request {reauth : Coro (Except Err Unit)} (hreauth : c.Keeps reauth) {r : HttpRequest} {auth : Bool}
    (hauth : auth = false ↔ r.path = ACCESS_TOKEN_REQUEST) {w : From Answer} {s₀ s : Session} (h : c.Current w s₀ s) :
    (c.request reauth r auth).wp c.Pauses (c.Received r.path) w s₀ s := by
  unfold request
  rw [Proc.wp_bind, Proc.wp_read]
  split
  · rw [Proc.wp_bind]
    refine ⟨⟨h, fun r' hr' => ?_⟩, fun answer s' => ?_⟩
    · cases hr'
      unfold Carries
      dsimp only
      cases auth with
      | false => rw [if_pos (hauth.1 rfl)]; rfl
      | true =>
        rw [if_neg fun hpath => by cases hauth.2 hpath]
        cases s.accessToken.truthy <;> simp
    · change Proc.wp _ _ (if _ then _ else _) _ _ _
      split
      next hagain =>
        rw [Bool.and_eq_true] at hagain
        obtain ⟨rfl, hany⟩ := hagain
        obtain ⟨resp, rfl, hstatus⟩ : ∃ resp, answer = some resp ∧ resp.status = 401 := by
          cases answer with
          | none => cases hany
          | some resp => exact ⟨resp, rfl, by simpa using hany⟩
        -- a refusal grants nothing
        have hcurrent (r : HttpRequest) : c.Current (.answer (.send r) (some resp)) s' s' := by
          show s'.accessToken = (grantedBy _ (c.handleResponse resp)).getD s'.accessToken
          have hrefused := handleResponse_unauthorized (c := c) hstatus
          cases hv : c.handleResponse resp with
          | error e => rfl
          | ok data => rw [hv] at hrefused; cases hrefused
        rw [Proc.wp_bind]
        refine Proc.wp_mono reauth (hreauth _ _ _ (hcurrent _)) fun u w s₀ s hcurrent => ?_
        cases u with
        | error e => exact .inr ⟨⟨e, rfl⟩, hcurrent⟩
        | ok u =>
          dsimp only
          rw [Proc.wp_bind, Proc.wp_read]
          split
          · rw [Proc.wp_bind]
            refine ⟨⟨hcurrent, fun r' hr' => ?_⟩, fun answer s' => .inl ⟨_, answer, rfl, rfl, rfl, rfl⟩⟩
            cases hr'
            rw [Carries, if_neg fun hpath => by cases hauth.2 hpath]
            exact .inl rfl
          · exact .inr ⟨⟨.attribute, rfl⟩, hcurrent⟩
      · exact .inl ⟨_, answer, rfl, rfl, rfl, rfl⟩
  · exact .inr ⟨⟨.notConnected, rfl⟩, h⟩

/-- A request of a path that grants no token. -/
theorem keeps_request {reauth : Coro (Except Err Unit)} (hreauth : c.Keeps reauth) {r : HttpRequest} (e : Endpoint)
    (hpath : r.path = e.path) : c.Keeps (c.request reauth r true) := by
  intro w s₀ s h
  have hauth : true = false ↔ r.path = ACCESS_TOKEN_REQUEST :=
    ⟨fun h => (Bool.false_ne_true h.symm).elim, fun h => (e.not_access (hpath ▸ h)).elim⟩
  refine Proc.wp_mono _ (wp_request hreauth hauth h) fun v w s₀ s hv => ?_
  obtain ⟨r', answer, hr', rfl, rfl, rfl⟩ | ⟨-, h⟩ := hv
  · show _ = (grantedBy _ _).getD _
    rw [grantedBy_other (by rw [hr', hpath]; exact e.not_access) (by rw [hr', hpath]; exact e.not_renew)]
    rfl
  · exact h

theorem keeps_takeExpiry (m : Mapping) : c.Keeps (takeTokens.takeExpiry m) := by
  unfold takeTokens.takeExpiry
  split
  next text => exact (Keeps.modify fun s => by split <;> rfl).bind fun _ => Keeps.pure _
  · exact Keeps.pure _

theorem errorText_of_received {answer : Option HttpResponse} {m : Mapping} (h : .ok (.map m) = c.received answer) :
    (item "errorText" m).truthy = false := by
  cases answer with
  | none => cases h
  | some resp =>
    unfold received handleResponse at h
    dsimp only at h
    generalize (if resp.text = "" then _ else _ : Datum) = data at h
    split_ifs at h with _ _ herror
    cases h
    exact Bool.eq_false_of_not_eq_true herror

theorem keeps_authenticateWith (pTicket : Option String) {retry : Option (String → Coro (Except Err Unit))}
    (h : ∀ f ∈ retry, ∀ ticket, c.Keeps (f ticket)) : c.Keeps (c.authenticateWith pTicket retry) := by
  intro w s₀ s hs
  unfold authenticateWith
  rw [Proc.wp_bind]
  have hauth : false = false ↔ ACCESS_TOKEN_REQUEST = ACCESS_TOKEN_REQUEST := ⟨fun _ => rfl, fun _ => rfl⟩
  refine Proc.wp_mono _ (wp_request (Keeps.pure _) hauth hs) fun v w s₀ s hv => ?_
  cases v with
  | error e => exact hv.error
  | ok data =>
    obtain ⟨rfl, hgranted, answer, hreceived⟩ := hv.ok
    cases data with
    | scalar x => exact .of_none hgranted
    | list l => exact .of_none hgranted
    | map m =>
      rw [grantedBy, if_pos rfl] at hgranted
      dsimp only
      cases hpenalty : penalty? m with
      | some ticketTime =>
        rw [if_neg (by simp [hpenalty])] at hgranted
        cases retry with
        | none => exact .of_none hgranted
        | some f =>
          dsimp only
          split
          · exact .of_none hgranted
          · cases c.float ticketTime.2 with
            | none => exact .of_none hgranted
            | some seconds => exact ((Keeps.sleep seconds).bind fun _ => h f rfl _) _ _ _ (.of_none hgranted)
      | none =>
        rw [if_pos hpenalty] at hgranted
        dsimp only
        rw [errorText_of_received hreceived, if_neg Bool.false_ne_true, takeTokens, Proc.wp_bind, Proc.wp_modify]
        refine keeps_takeExpiry m _ _ _ ?_
        rw [Current, hgranted]
        rfl

theorem keeps_authenticate : c.Keeps c.authenticate := by
  refine keeps_authenticateWith none fun f hf ticket => ?_
  cases hf
  exact keeps_authenticateWith (some ticket) fun f hf => by cases hf

theorem keeps_tryRenew : c.Keeps c.tryRenew := by
  intro w s₀ s hs
  unfold tryRenew get
  rw [Proc.wp_bind]
  have hauth : true = false ↔ RENEW_ACCESS_TOKEN = ACCESS_TOKEN_REQUEST :=
    ⟨fun h => (Bool.false_ne_true h.symm).elim, fun h => (renew_ne_access h).elim⟩
  refine Proc.wp_mono _ (wp_request keeps_authenticate hauth hs) fun v w s₀ s hv => ?_
  cases v with
  | error e => exact hv.error
  | ok data =>
    obtain ⟨rfl, hgranted, -⟩ := hv.ok
    cases data with
    | scalar x => exact .of_none hgranted
    | list l => exact .of_none hgranted
    | map m =>
      rw [grantedBy, if_neg renew_ne_access] at hgranted
      dsimp only
      split
      next htoken =>
        rw [if_pos ⟨rfl, htoken⟩] at hgranted
        rw [Proc.wp_bind, Proc.wp_modify]
        refine keeps_takeExpiry m _ _ _ ?_
        rw [Current, hgranted]
        rfl
      next htoken =>
        rw [if_neg fun h => htoken h.2] at hgranted
        exact keeps_authenticate _ _ _ (.of_none hgranted)

theorem keeps_renewToken : c.Keeps c.renewToken := by
  intro w s₀ s hs
  unfold renewToken
  rw [Proc.wp_bind, Proc.wp_read]
  split
  · refine (keeps_tryRenew.bind fun u => ?_) _ _ _ hs
    cases u with
    | error e => exact keeps_authenticate
    | ok u => exact Keeps.pure _
  · exact hs

/-- Every call keeps to its tokens. -/
theorem obeys : c.machine.Obeys fun _ => c.Tokens := by
  intro call s
  have hs : c.Current .start s s := rfl
  have hkeeps : c.Keeps (c.machine.proc call) := by
    cases call with
    | authenticate => exact keeps_authenticate.bind fun u => Keeps.pure _
    | renew => exact keeps_renewToken.bind fun u => Keeps.pure _
    | get e => exact keeps_request keeps_authenticate e rfl
    | post e body => exact keeps_request keeps_authenticate e rfl
  exact Proc.wp_mono _ (hkeeps .start s s hs) fun _ _ _ _ h => ⟨h, fun r hr => by cases hr⟩

end Client

abbrev Log := List (Turn Session Answer (Except Err Datum) Call Event)

/-- The token is the one granted last, and every request that was sent carried the one that was so then. -/
structure TokensInv (c : Client) (v : View Session Answer (Except Err Datum) Call Event) : Prop where
  token : v.shared.accessToken = c.latestToken v.log
  sent : ∀ (after before : Log) call w s₀ s r, v.log = after ++ .seg call w s₀ s (.waiting (.send r)) :: before →
    Carries r (c.latestToken (.seg call w s₀ s (.waiting (.send r)) :: before))

namespace TokensInv
variable {c : Client} {v : View Session Answer (Except Err Datum) Call Event}

/-- One turn of the event loop. -/
theorem turn (h : TokensInv c v) {turn : Turn Session Answer (Except Err Datum) Call Event} {s' : Session}
    {calls : List (Call × To Query (Except Err Datum))} (htoken : s'.accessToken = c.latestToken (turn :: v.log))
    (hsent : ∀ call w s₀ s r, turn = .seg call w s₀ s (.waiting (.send r)) → Carries r s'.accessToken) :
    TokensInv c ⟨s', calls, turn :: v.log⟩ where
  token := htoken
  sent after before call w s₀ s r hlog := by
    rcases List.append_eq_cons_iff.1 hlog.symm with ⟨-, heq⟩ | ⟨rest, -, heq⟩
    · obtain ⟨rfl, rfl⟩ := List.cons.inj heq
      rw [← htoken]
      exact hsent call w s₀ s r rfl
    · exact h.sent rest before call w s₀ s r heq

theorem move (h : TokensInv c v) {a : Act Call Event Answer} {v' : View Session Answer (Except Err Datum) Call Event}
    (hmove : c.machine.Move (fun _ => c.Tokens) v a v') : TokensInv c v' := by
  cases hmove with
  | spawn hk =>
    refine h.turn (hk.1.trans (by rw [h.token]; rfl)) fun call w s₀ s r heq => ?_
    cases heq
    exact hk.2 r rfl
  | resume hi hk =>
    refine h.turn (hk.1.trans (by rw [h.token]; rfl)) fun call w s₀ s r heq => ?_
    cases heq
    exact hk.2 r rfl
  | @env e =>
    refine h.turn ?_ fun call w s₀ s r heq => by cases heq
    cases e with
    | connect => exact h.token
    | disconnect => rfl

end TokensInv

/-- In every interleaving of the calls, of connecting and of disconnecting: the access token is the one that was granted
last, and every request that is sent carries it, except that an access token request carries none and the first attempt
of another goes without while there is none. -/
theorem session_tokens (c : Client) {acts : List (Act Call Event Answer)}
    {s' : Sys Session Answer (Except Err Datum) Call Event}
    (h : c.machine.run (Machine.init { isOpen := false }) acts = some s') :
    s'.shared.accessToken = c.latestToken s'.log ∧
      ∀ (after before : Log) call w s₀ s r, s'.log = after ++ .seg call w s₀ s (.waiting (.send r)) :: before →
        Carries r (c.latestToken (.seg call w s₀ s (.waiting (.send r)) :: before)) := by
  have hinit : TokensInv c (Machine.init { isOpen := false } : Sys Session Answer (Except Err Datum) Call Event).view :=
    ⟨rfl, fun after before call w s₀ s r hlog => by simp [Machine.init, Sys.view] at hlog⟩
  obtain ⟨-, hinv⟩ := Machine.invariant Client.obeys (P := fun _ _ => True) (fun v a v' hv _ hm => hv.move hm)
    (Machine.ok_init _) hinit (Machine.admits_true _ acts) h
  exact ⟨hinv.token, hinv.sent⟩

def answering (resp : Option HttpResponse) : (q : Query) → Answer q
  | .send _ => resp
  | .sleep _ => ()

def grantA : String := "\x7b\"accessToken\": \"A\"\x7d"

def grantB : String := "\x7b\"accessToken\": \"B\"\x7d"

def placed : String := "\x7b\"orderId\": 7\x7d"

def sampleClient : Client where
  credentials := [("name", .str "trader")]
  loads text :=
    if text = grantA then some (.map [("accessToken", .str "A")])
    else if text = grantB then some (.map [("accessToken", .str "B")])
    else if text = placed then some (.map [("orderId", .int 7)])
    else none
  float := Datum.num?
  str _ := "ticket"

/-- An order is refused while the renewal is under way; it authenticates for itself and goes out again. -/
def sampleActs : List (Act Call Event Answer) :=
  [.env .connect, .spawn .authenticate, .resume 0 (answering (some ⟨200, grantA⟩)), .spawn .renew,
    .spawn (.post ⟨"/order/placeorder", by decide, by decide⟩ [("symbol", .str "MNQH6")]),
    .resume 2 (answering (some ⟨401, ""⟩)), .resume 1 (answering none),
    .resume 2 (answering (some ⟨200, grantB⟩)), .resume 2 (answering (some ⟨200, placed⟩))]

theorem session_tokens_sampleActs :
    ∃ s', sampleClient.machine.run (Machine.init { isOpen := false }) sampleActs = some s' ∧
      s'.shared.accessToken = .str "B" ∧ sampleClient.latestToken s'.log = .str "B" := by
  have hrun : (sampleClient.machine.run (Machine.init { isOpen := false }) sampleActs).map (·.shared.accessToken) =
      some (.str "B") := by decide +kernel
  obtain ⟨s', hs', htoken⟩ := Option.map_eq_some_iff.1 hrun
  exact ⟨s', hs', htoken, (session_tokens sampleClient hs').1 ▸ htoken⟩

end PearlAlgo.ClientSession
