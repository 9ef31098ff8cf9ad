import Mathlib.Algebra.Order.Ring.Rat
import Mathlib.Data.List.Induction
import Mathlib.Tactic.Linarith
import PearlAlgo.Py.Dict
import PearlAlgo.Py.Seq
import PearlAlgo.Py.SlidingWindow

/-!
# Who may operate the agent from the web (`api/server.py`)

Every operator endpoint depends on `require_operator_access`, which takes the passphrase and slows down guessing; those
that write begin with `_check_rate_limit`. Requests are served one after the other on one event loop.
-/

namespace PearlAlgo.OperatorAccess

open Py

structure HTTPException where
  statusCode : Nat
  detail : String
deriving DecidableEq

inductive Reply
  | raised (e : HTTPException)
  | typeError  -- `compare_digest` takes ASCII only
  | ok
deriving DecidableEq

def notConfigured : HTTPException := ⟨403, "Operator access is not configured on this server."⟩

def tooManyAttempts : HTTPException := ⟨429, "Too many attempts."⟩

def operatorRequired : HTTPException := ⟨403, "Operator access required."⟩

def RATE_LIMIT_WINDOW : ℚ := 60

def RATE_LIMIT_MAX : Nat := 5

def RATE_LIMIT_MAX_ENDPOINTS : Nat := 1000

def OPERATOR_FAILURES_MAX_CLIENTS : Nat := 1000

def rateLimitExceeded (endpoint : String) : HTTPException :=
  ⟨429, "Rate limit exceeded for " ++ endpoint ++ ". Max 5 requests per 60s."⟩

/-- `passphrase` is stripped. -/
structure OperatorConfig where
  passphrase : String
  maxAttemptsPerMinute : Int := 20

def OperatorConfig.enabled (c : OperatorConfig) : Bool := c.passphrase ≠ ""

/-- `client` is what `_get_client_id` makes of the request; `endpoint` is `none` where no rate is limited. -/
structure Request where
  client : String
  operator : Option String
  endpoint : Option String
  now : ℚ
  monotonic : ℚ

/-- No code reads `served`. -/
structure Server where
  failures : Dict String (List ℚ) := Dict.empty
  buckets : Dict String (List ℚ) := Dict.empty
  served : List (Request × Reply) := []

/-- The failures that `verify_operator` keeps. -/
def failureWindow : SlidingWindow ℚ where
  counts now t := decide (now - t < 60)
  counts_mono hle h := by
    rw [decide_eq_true_eq] at h ⊢
    linarith
  counts_later hle h := by
    rw [decide_eq_true_eq] at h ⊢
    linarith

/-- The requests that `_check_rate_limit` keeps. -/
def rateWindow : SlidingWindow ℚ where
  counts now t := !decide (t < now - RATE_LIMIT_WINDOW)
  counts_mono hle h := by
    rw [Bool.not_eq_true', decide_eq_false_iff_not, not_lt] at h ⊢
    linarith
  counts_later hle h := by
    rw [Bool.not_eq_true', decide_eq_false_iff_not, not_lt] at h ⊢
    linarith

/-- The buckets whose last entry is younger than the cutoff. -/
def dropStale (cutoff : ℚ) (d : Dict String (List ℚ)) : Dict String (List ℚ) :=
  d.filter fun _ v => !(v.getLast?.all fun t => decide (t < cutoff))

def isAscii (s : String) : Bool := s.toList.all fun c => decide (c.toNat < 128)

/-- `verify_operator`, where operator access is configured. -/
def verifyOperator (c : OperatorConfig) (r : Request) (failures : Dict String (List ℚ)) : Reply × Dict String (List ℚ) :=
  let bucket := ((failures.get? r.client).getD []).filter (failureWindow.counts r.now)
  let failures := failures.set r.client bucket
  if 0 < c.maxAttemptsPerMinute ∧ c.maxAttemptsPerMinute ≤ bucket.length then (.raised tooManyAttempts, failures)
  else
    match r.operator with
    | none | some "" => (.raised operatorRequired, failures.set r.client (bucket ++ [r.now]))
    | some operator =>
      if !isAscii (strip operator) || !isAscii c.passphrase then (.typeError, failures)
      else if strip operator = c.passphrase then (.ok, failures)
      else
        let failures := failures.set r.client (bucket ++ [r.now])
        (.raised operatorRequired,
          if OPERATOR_FAILURES_MAX_CLIENTS < failures.entries.length then dropStale (r.now - 120) failures else failures)

def requireOperatorAccess (c : OperatorConfig) (r : Request) (failures : Dict String (List ℚ)) :
    Reply × Dict String (List ℚ) :=
  if c.enabled then verifyOperator c r failures else (.raised notConfigured, failures)

def checkRateLimit (endpoint : String) (now : ℚ) (buckets : Dict String (List ℚ)) : Reply × Dict String (List ℚ) :=
  let bucket := ((buckets.get? endpoint).getD []).dropWhile fun t => decide (t < now - RATE_LIMIT_WINDOW)
  if RATE_LIMIT_MAX ≤ bucket.length then (.raised (rateLimitExceeded endpoint), buckets.set endpoint bucket)
  else
    let buckets := buckets.set endpoint (bucket ++ [now])
    (.ok, if RATE_LIMIT_MAX_ENDPOINTS < buckets.entries.length then dropStale (now - RATE_LIMIT_WINDOW) buckets
      else buckets)

/-- What stands before the action of an endpoint. -/
def guard (c : OperatorConfig) (r : Request) (s : Server) : Reply × Server :=
  match requireOperatorAccess c r s.failures with
  | (.ok, failures) =>
    match r.endpoint with
    | none => (.ok, { s with failures })
    | some endpoint =>
      let (reply, buckets) := checkRateLimit endpoint r.monotonic s.buckets
      (reply, { s with failures, buckets })
  | (reply, failures) => (reply, { s with failures })

def serve (c : OperatorConfig) (s : Server) (r : Request) : Server :=
  let (reply, s) := guard c r s
  { s with served := s.served ++ [(r, reply)] }

def serveAll (c : OperatorConfig) (requests : List Request) : Server := requests.foldl (serve c) {}

/-! ### What the buckets hold -/

/-- When this client was refused for its passphrase. -/
def failures (client : String) (served : List (Request × Reply)) : List ℚ :=
  (served.filter fun o => o.1.client = client ∧ o.2 = .raised operatorRequired).map fun o => o.1.now

/-- When this endpoint did what it was asked. -/
def performed (endpoint : String) (served : List (Request × Reply)) : List ℚ :=
  (served.filter fun o => o.1.endpoint = some endpoint ∧ o.2 = .ok).map fun o => o.1.monotonic

section
variable {W : SlidingWindow ℚ} {d : Dict String (List ℚ)} {events : String → List ℚ} {key : String} {now : ℚ}
  {bucket l : List ℚ}

/-- Every key's bucket is kept. -/
def KeepsAll (W : SlidingWindow ℚ) (now : ℚ) (d : Dict String (List ℚ)) (events : String → List ℚ) : Prop :=
  ∀ key, W.Keeps now ((d.get? key).getD []) (events key)

theorem KeepsAll.set (h : KeepsAll W now d events) (hkey : W.Keeps now bucket l) :
    KeepsAll W now (d.set key bucket) fun k => if k = key then l else events k := by
  intro k
  dsimp only
  by_cases hk : k = key
  · rw [if_pos hk, hk, Dict.get?_set_self]
    exact hkey
  · rw [if_neg hk, Dict.get?_set_ne _ _ hk]
    exact h k

theorem KeepsAll.dropStale {cutoff : ℚ} (h : KeepsAll W now d events) (hcutoff : ∀ t, t < cutoff → W.counts now t = false) :
    KeepsAll W now (dropStale cutoff d) events := by
  intro k
  unfold OperatorAccess.dropStale
  rw [Dict.get?_filter]
  rcases hd : d.get? k with _ | v
  · have hk := h k
    rw [hd] at hk
    exact hk
  · have hk := h k
    rw [hd] at hk
    rw [Option.filter_some]
    split
    · exact hk
    next hstale =>
      refine hk.clear fun t ht => hcutoff t ?_
      rw [Bool.not_eq_true, Bool.not_eq_false'] at hstale
      rw [Option.getD_some, Option.mem_def] at ht
      rw [ht, Option.all_some, decide_eq_true_eq] at hstale
      exact hstale

theorem KeepsAll.mono {now' : ℚ} (h : KeepsAll W now d events) (hle : now ≤ now') : KeepsAll W now' d events :=
  fun k => (h k).mono hle

theorem KeepsAll.congr {events' : String → List ℚ} (h : KeepsAll W now d events) (heq : ∀ k, events' k = events k) :
    KeepsAll W now d events' := by
  intro k
  rw [heq k]
  exact h k

end

theorem tooMany_ne_required : Reply.raised tooManyAttempts ≠ .raised operatorRequired := by decide

theorem notConfigured_ne_required : Reply.raised notConfigured ≠ .raised operatorRequired := by decide

theorem notConfigured_ne_tooMany : Reply.raised notConfigured ≠ .raised tooManyAttempts := by decide

theorem raised_ne_ok (e : HTTPException) : Reply.raised e ≠ .ok := Reply.noConfusion

theorem typeError_ne_raised (e : HTTPException) : Reply.typeError ≠ .raised e := Reply.noConfusion

theorem typeError_ne_ok : Reply.typeError ≠ .ok := by decide

theorem ok_ne_raised (e : HTTPException) : Reply.ok ≠ .raised e := Reply.noConfusion

/-- How `require_operator_access` answers, and what it adds to the failures. -/
structure Verified (c : OperatorConfig) (r : Request) (events : String → List ℚ) (reply : Reply)
    (d : Dict String (List ℚ)) : Prop where
  keeps : KeepsAll failureWindow r.now d fun k =>
    events k ++ if r.client = k ∧ reply = .raised operatorRequired then [r.now] else []
  refused : reply = .raised operatorRequired → 0 < c.maxAttemptsPerMinute →
    ((events r.client).filter (failureWindow.counts r.now)).length < c.maxAttemptsPerMinute.toNat
  tooMany : reply = .raised tooManyAttempts ↔ c.enabled = true ∧ 0 < c.maxAttemptsPerMinute ∧
    c.maxAttemptsPerMinute.toNat ≤ ((events r.client).filter (failureWindow.counts r.now)).length
  ok : reply = .ok → c.enabled = true ∧ ∃ operator, r.operator = some operator ∧ strip operator = c.passphrase

section
variable {c : OperatorConfig} {r : Request} {d : Dict String (List ℚ)} {events : String → List ℚ} {now : ℚ}

theorem verified_of_notConfigured (h : KeepsAll failureWindow now d events) (hle : now ≤ r.now) (hc : c.enabled = false) :
    Verified c r events (.raised notConfigured) d := by
  refine ⟨(h.mono hle).congr fun k => ?_, fun heq => absurd heq notConfigured_ne_required, ?_,
    fun heq => absurd heq (raised_ne_ok _)⟩
  · rw [if_neg (fun hand => notConfigured_ne_required hand.2), List.append_nil]
  · refine ⟨fun heq => absurd heq notConfigured_ne_tooMany, fun hall => ?_⟩
    rw [hc] at hall
    cases hall.1

theorem verifyOperator_verified (h : KeepsAll failureWindow now d events) (hle : now ≤ r.now) (hc : c.enabled = true) :
    Verified c r events (verifyOperator c r d).1 (verifyOperator c r d).2 := by
  have hclient := h r.client
  have hbucket := hclient.evict hle
  have hlength := hclient.length_filter hle
  have hkept : KeepsAll failureWindow r.now
      (d.set r.client (((d.get? r.client).getD []).filter (failureWindow.counts r.now)))
      events := by
    refine ((h.mono hle).set hbucket).congr fun k => ?_
    split
    next hk => rw [hk]
    next => rfl
  -- A refusal is written down, whether or not the passphrase was there.
  have hfailed : KeepsAll failureWindow r.now ((d.set r.client
        (((d.get? r.client).getD []).filter (failureWindow.counts r.now))).set r.client
          (((d.get? r.client).getD []).filter (failureWindow.counts r.now) ++ [r.now]))
      fun k => events k ++
        if r.client = k ∧ Reply.raised operatorRequired = .raised operatorRequired then [r.now] else [] := by
    refine (hkept.set hbucket.concat).congr fun k => ?_
    by_cases hk : k = r.client
    · rw [if_pos hk, if_pos ⟨hk.symm, rfl⟩, hk]
    · rw [if_neg hk, if_neg (fun hand => hk hand.1.symm), List.append_nil]
  have hquiet {reply : Reply} (hne : reply ≠ .raised operatorRequired) : KeepsAll failureWindow r.now
      (d.set r.client (((d.get? r.client).getD []).filter (failureWindow.counts r.now)))
      fun k => events k ++ if r.client = k ∧ reply = .raised operatorRequired then [r.now] else [] := by
    refine hkept.congr fun k => ?_
    rw [if_neg (fun hand => hne hand.2), List.append_nil]
  unfold verifyOperator
  dsimp only
  rw [hlength]
  by_cases hmany : 0 < c.maxAttemptsPerMinute ∧
      c.maxAttemptsPerMinute ≤ ((events r.client).filter (failureWindow.counts r.now)).length
  · rw [if_pos hmany]
    exact ⟨hquiet tooMany_ne_required, fun heq => absurd heq tooMany_ne_required,
      ⟨fun _ => ⟨hc, hmany.1, by omega⟩, fun _ => rfl⟩,
      fun heq => absurd heq (raised_ne_ok _)⟩
  · rw [if_neg hmany]
    have hroom : 0 < c.maxAttemptsPerMinute →
        ((events r.client).filter (failureWindow.counts r.now)).length < c.maxAttemptsPerMinute.toNat := by
      intro hpos
      by_contra hnot
      exact hmany ⟨hpos, by omega⟩
    have hnotMany {reply : Reply} (hne : reply ≠ .raised tooManyAttempts) : reply = .raised tooManyAttempts ↔
        c.enabled = true ∧ 0 < c.maxAttemptsPerMinute ∧
          c.maxAttemptsPerMinute.toNat ≤ ((events r.client).filter (failureWindow.counts r.now)).length := by
      refine ⟨fun heq => absurd heq hne, fun hall => ?_⟩
      have hlt := hroom hall.2.1
      omega
    split
    · exact ⟨hfailed, fun _ => hroom, hnotMany tooMany_ne_required.symm, fun heq => absurd heq (raised_ne_ok _)⟩
    · exact ⟨hfailed, fun _ => hroom, hnotMany tooMany_ne_required.symm, fun heq => absurd heq (raised_ne_ok _)⟩
    next operator _ hoperator =>
      split
      · exact ⟨hquiet (typeError_ne_raised _), fun heq => absurd heq (typeError_ne_raised _),
          hnotMany (typeError_ne_raised _), fun heq => absurd heq typeError_ne_ok⟩
      · split
        next hpassphrase =>
          exact ⟨hquiet (ok_ne_raised _), fun heq => absurd heq (ok_ne_raised _), hnotMany (ok_ne_raised _),
            fun _ => ⟨hc, operator, hoperator, hpassphrase⟩⟩
        · refine ⟨?_, fun _ => hroom, hnotMany tooMany_ne_required.symm, fun heq => absurd heq (raised_ne_ok _)⟩
          split
          · refine hfailed.dropStale fun t ht => ?_
            simp only [failureWindow, decide_eq_false_iff_not, not_lt]
            linarith
          · exact hfailed

theorem requireOperatorAccess_verified (h : KeepsAll failureWindow now d events) (hle : now ≤ r.now) :
    Verified c r events (requireOperatorAccess c r d).1 (requireOperatorAccess c r d).2 := by
  unfold requireOperatorAccess
  split
  next hc => exact verifyOperator_verified h hle hc
  next hc => exact verified_of_notConfigured h hle (Bool.not_eq_true _ ▸ hc)

theorem evicted_eq {bucket : List ℚ} {t : ℚ} (h : bucket.Pairwise (· ≤ ·)) :
    (bucket.dropWhile fun a => decide (a < t - RATE_LIMIT_WINDOW)) = bucket.filter (rateWindow.counts t) := by
  rw [← SlidingWindow.dropWhile_eq_filter h]
  simp [rateWindow]

theorem rateLimitExceeded_ne_tooMany (endpoint : String) : rateLimitExceeded endpoint ≠ tooManyAttempts := by
  intro heq
  have hdetail := congrArg (fun e => e.detail.toList.head?) heq
  have hhead : (rateLimitExceeded endpoint).detail.toList.head? = some 'R' := by
    simp [rateLimitExceeded, String.toList_append]
  rw [hhead] at hdetail
  exact absurd hdetail (by decide)

/-- How `_check_rate_limit` answers, and what it adds to the requests. -/
structure Limited (endpoint : String) (t : ℚ) (events : String → List ℚ) (reply : Reply) (d : Dict String (List ℚ)) :
    Prop where
  keeps : KeepsAll rateWindow t d fun k => events k ++ if endpoint = k ∧ reply = .ok then [t] else []
  ok : reply = .ok ↔ ((events endpoint).filter (rateWindow.counts t)).length < RATE_LIMIT_MAX
  raised : reply = .ok ∨ reply = .raised (rateLimitExceeded endpoint)

theorem checkRateLimit_limited (endpoint : String) {t : ℚ} (h : KeepsAll rateWindow now d events) (hle : now ≤ t) :
    Limited endpoint t events (checkRateLimit endpoint t d).1 (checkRateLimit endpoint t d).2 := by
  have hendpoint := h endpoint
  have hbucket := hendpoint.evict hle
  have hlength := hendpoint.length_filter hle
  unfold checkRateLimit
  dsimp only
  rw [evicted_eq hendpoint.sorted, hlength]
  by_cases hfull : RATE_LIMIT_MAX ≤ ((events endpoint).filter (rateWindow.counts t)).length
  · rw [if_pos hfull]
    refine ⟨?_, ⟨fun heq => absurd heq (raised_ne_ok _), fun hlt => absurd hfull (not_le.2 hlt)⟩, .inr rfl⟩
    refine ((h.mono hle).set hbucket).congr fun k => ?_
    rw [if_neg (fun hand => raised_ne_ok _ hand.2), List.append_nil]
    split
    next hk => rw [hk]
    next => rfl
  · rw [if_neg hfull]
    have hkept : KeepsAll rateWindow t (d.set endpoint (((d.get? endpoint).getD []).filter (rateWindow.counts t) ++ [t]))
        fun k => events k ++ if endpoint = k ∧ Reply.ok = .ok then [t] else [] := by
      refine ((h.mono hle).set hbucket.concat).congr fun k => ?_
      by_cases hk : k = endpoint
      · rw [if_pos hk, if_pos ⟨hk.symm, rfl⟩, hk]
      · rw [if_neg hk, if_neg (fun hand => hk hand.1.symm), List.append_nil]
    refine ⟨?_, ⟨fun _ => not_le.1 hfull, fun _ => rfl⟩, .inl rfl⟩
    split
    · refine hkept.dropStale fun a ha => ?_
      simp only [rateWindow, Bool.not_eq_false', decide_eq_true_eq]
      exact ha
    · exact hkept

end

/-! ### Runs -/

section
variable {c : OperatorConfig} {r : Request} {s : Server} {now monotonic : ℚ} {requests : List Request}

/-- The last request was not after these readings of the clocks. -/
structure Inv (c : OperatorConfig) (now monotonic : ℚ) (s : Server) : Prop where
  failures : KeepsAll failureWindow now s.failures fun client => failures client s.served
  buckets : KeepsAll rateWindow monotonic s.buckets fun endpoint => performed endpoint s.served
  guesses : 0 < c.maxAttemptsPerMinute → ∀ client,
    failureWindow.Bounded c.maxAttemptsPerMinute.toNat (OperatorAccess.failures client s.served)
  rate : ∀ endpoint, rateWindow.Bounded RATE_LIMIT_MAX (performed endpoint s.served)
  operator : ∀ o ∈ s.served, o.2 = .ok →
    c.enabled = true ∧ ∃ operator, o.1.operator = some operator ∧ strip operator = c.passphrase

theorem failures_concat (client : String) (served : List (Request × Reply)) (r : Request) (reply : Reply) :
    OperatorAccess.failures client (served ++ [(r, reply)]) = OperatorAccess.failures client served ++
      if r.client = client ∧ reply = .raised operatorRequired then [r.now] else [] := by
  unfold OperatorAccess.failures
  rw [List.filter_append, List.map_append]
  congr 1
  by_cases h : r.client = client ∧ reply = .raised operatorRequired
  · rw [if_pos h, List.filter_cons_of_pos (by simpa using h)]
    rfl
  · rw [if_neg h, List.filter_cons_of_neg (by simpa using h)]
    rfl

theorem performed_concat (endpoint : String) (served : List (Request × Reply)) (r : Request) (reply : Reply) :
    performed endpoint (served ++ [(r, reply)]) = performed endpoint served ++
      if r.endpoint = some endpoint ∧ reply = .ok then [r.monotonic] else [] := by
  unfold performed
  rw [List.filter_append, List.map_append]
  congr 1
  by_cases h : r.endpoint = some endpoint ∧ reply = .ok
  · rw [if_pos h, List.filter_cons_of_pos (by simpa using h)]
    rfl
  · rw [if_neg h, List.filter_cons_of_neg (by simpa using h)]
    rfl

/-- The passphrase is refused, or there is no rate to limit, or there is. -/
inductive Guarded (c : OperatorConfig) (r : Request) (s : Server) : Reply → Server → Prop
  | refused (h : (requireOperatorAccess c r s.failures).1 ≠ .ok) :
    Guarded c r s (requireOperatorAccess c r s.failures).1 { s with failures := (requireOperatorAccess c r s.failures).2 }
  | unlimited (h : (requireOperatorAccess c r s.failures).1 = .ok) (hnone : r.endpoint = none) :
    Guarded c r s .ok { s with failures := (requireOperatorAccess c r s.failures).2 }
  | limited (h : (requireOperatorAccess c r s.failures).1 = .ok) (endpoint : String) (hsome : r.endpoint = some endpoint) :
    Guarded c r s (checkRateLimit endpoint r.monotonic s.buckets).1 { s with
      failures := (requireOperatorAccess c r s.failures).2
      buckets := (checkRateLimit endpoint r.monotonic s.buckets).2 }

theorem guard_guarded (c : OperatorConfig) (r : Request) (s : Server) : Guarded c r s (guard c r s).1 (guard c r s).2 := by
  unfold guard
  rcases hv : requireOperatorAccess c r s.failures with ⟨reply, d⟩
  cases reply with
  | ok =>
    dsimp only
    rcases hendpoint : r.endpoint with _ | endpoint
    · have hres := Guarded.unlimited (c := c) (s := s) (by rw [hv]) hendpoint
      rw [hv] at hres
      exact hres
    · have hres := Guarded.limited (c := c) (s := s) (by rw [hv]) endpoint hendpoint
      rw [hv] at hres
      exact hres
  | raised e =>
    have hres := Guarded.refused (c := c) (r := r) (s := s) (by rw [hv]; exact raised_ne_ok e)
    rw [hv] at hres
    exact hres
  | typeError =>
    have hres := Guarded.refused (c := c) (r := r) (s := s) (by rw [hv]; exact typeError_ne_ok)
    rw [hv] at hres
    exact hres

theorem failures_of_reply {d : Dict String (List ℚ)} {reply reply' : Reply} (h : KeepsAll failureWindow now d fun k =>
      OperatorAccess.failures k s.served ++ if r.client = k ∧ reply = .raised operatorRequired then [r.now] else [])
    (hreply : reply' = .raised operatorRequired ↔ reply = .raised operatorRequired) :
    KeepsAll failureWindow now d fun k => OperatorAccess.failures k (s.served ++ [(r, reply')]) := by
  refine h.congr fun k => ?_
  rw [failures_concat]
  simp only [hreply]

theorem serve_eq (c : OperatorConfig) (s : Server) (r : Request) :
    serve c s r = { (guard c r s).2 with served := (guard c r s).2.served ++ [(r, (guard c r s).1)] } := rfl

theorem Inv.serve (h : Inv c now monotonic s) (hnow : now ≤ r.now) (hmonotonic : monotonic ≤ r.monotonic) :
    Inv c r.now r.monotonic (serve c s r) := by
  have hv := requireOperatorAccess_verified (c := c) h.failures hnow
  have hguarded := guard_guarded c r s
  rw [serve_eq]
  generalize (guard c r s).1 = reply at hguarded ⊢
  generalize (guard c r s).2 = s' at hguarded ⊢
  have hguesses (reply' : Reply) (heq : reply' = .raised operatorRequired →
      (requireOperatorAccess c r s.failures).1 = .raised operatorRequired) (hpos : 0 < c.maxAttemptsPerMinute)
      (client : String) : failureWindow.Bounded c.maxAttemptsPerMinute.toNat
        (OperatorAccess.failures client (s.served ++ [(r, reply')])) := by
    rw [failures_concat]
    split
    next hand =>
      rw [← hand.1]
      exact (h.guesses hpos r.client).concat (hv.refused (heq hand.2) hpos)
    next =>
      rw [List.append_nil]
      exact h.guesses hpos client
  have hoperator (reply' : Reply) (heq : reply' = .ok → (requireOperatorAccess c r s.failures).1 = .ok) :
      ∀ o ∈ s.served ++ [(r, reply')], o.2 = .ok →
        c.enabled = true ∧ ∃ operator, o.1.operator = some operator ∧ strip operator = c.passphrase := by
    intro o ho hok
    rcases List.mem_append.1 ho with ho | ho
    · exact h.operator o ho hok
    · rw [List.mem_singleton.1 ho] at hok ⊢
      exact hv.ok (heq hok)
  have hquiet (reply' : Reply) (hne : ∀ endpoint, ¬ (r.endpoint = some endpoint ∧ reply' = .ok)) (endpoint : String) :
      performed endpoint (s.served ++ [(r, reply')]) = performed endpoint s.served := by
    rw [performed_concat, if_neg (hne endpoint), List.append_nil]
  cases hguarded with
  | refused hne =>
    refine ⟨failures_of_reply hv.keeps Iff.rfl, ?_, fun hpos client => hguesses _ id hpos client, fun endpoint => ?_,
      hoperator _ id⟩
    · exact (h.buckets.mono hmonotonic).congr fun k => hquiet _ (fun _ hand => hne hand.2) k
    · dsimp only
      rw [hquiet _ (fun _ hand => hne hand.2)]
      exact h.rate endpoint
  | unlimited hok hnone =>
    have hsame : Reply.ok = .raised operatorRequired ↔
        (requireOperatorAccess c r s.failures).1 = .raised operatorRequired := by
      rw [hok]
    have hno : ∀ endpoint, ¬ (r.endpoint = some endpoint ∧ Reply.ok = .ok) := by simp [hnone]
    refine ⟨failures_of_reply hv.keeps hsame, ?_, fun hpos client => hguesses _ hsame.1 hpos client, fun endpoint => ?_,
      hoperator _ fun _ => hok⟩
    · exact (h.buckets.mono hmonotonic).congr fun k => hquiet _ hno k
    · dsimp only
      rw [hquiet _ hno]
      exact h.rate endpoint
  | limited hok endpoint hsome =>
    have hl := checkRateLimit_limited endpoint h.buckets hmonotonic
    have hsame : (checkRateLimit endpoint r.monotonic s.buckets).1 = .raised operatorRequired ↔
        (requireOperatorAccess c r s.failures).1 = .raised operatorRequired := by
      rw [hok]
      refine ⟨fun heq => ?_, fun heq => absurd heq (ok_ne_raised _)⟩
      rcases hl.raised with hr | hr <;> rw [hr] at heq
      · exact absurd heq (ok_ne_raised _)
      · have hcode := congrArg HTTPException.statusCode (Reply.raised.inj heq)
        exact absurd hcode (show (429 : Nat) ≠ 403 by decide)
    refine ⟨failures_of_reply hv.keeps hsame, ?_, fun hpos client => hguesses _ hsame.1 hpos client, fun k => ?_,
      hoperator _ fun _ => hok⟩
    · refine hl.keeps.congr fun k => ?_
      rw [performed_concat, hsome]
      simp only [Option.some.injEq]
    · dsimp only
      rw [performed_concat, hsome]
      split
      next hand =>
        rw [← Option.some.inj hand.1]
        exact (h.rate endpoint).concat (hl.ok.1 hand.2)
      next =>
        rw [List.append_nil]
        exact h.rate k

theorem Inv.mono {now' monotonic' : ℚ} (h : Inv c now monotonic s) (hnow : now ≤ now')
    (hmonotonic : monotonic ≤ monotonic') :
    Inv c now' monotonic' s :=
  ⟨h.failures.mono hnow, h.buckets.mono hmonotonic, h.guesses, h.rate, h.operator⟩

theorem inv_start (c : OperatorConfig) (now monotonic : ℚ) : Inv c now monotonic {} where
  failures _ := .nil now
  buckets _ := .nil monotonic
  guesses _ _ := SlidingWindow.bounded_nil _
  rate _ := SlidingWindow.bounded_nil _
  operator _ ho := absurd ho List.not_mem_nil

/-- The clocks do not go back from a request to the next. -/
def InTime (requests : List Request) : Prop := requests.Pairwise fun r r' => r.now ≤ r'.now ∧ r.monotonic ≤ r'.monotonic

theorem serveAll_inv (h : InTime requests) (hall : ∀ r ∈ requests, r.now ≤ now ∧ r.monotonic ≤ monotonic) :
    Inv c now monotonic (serveAll c requests) := by
  induction requests using List.reverseRecOn generalizing now monotonic with
  | nil => exact inv_start c now monotonic
  | append_singleton requests r ih =>
    obtain ⟨hbefore, -, hlast⟩ := List.pairwise_append.1 h
    have hr := hall r (List.mem_append_right _ (List.mem_singleton_self r))
    have hinv := ih hbefore fun r' hr' => hlast r' hr' r (List.mem_singleton_self r)
    rw [serveAll, List.foldl_concat]
    exact (hinv.serve le_rfl le_rfl).mono hr.1 hr.2

end

/-- Nothing is done without the passphrase; no client gets more than so many wrong guesses in within any 60 seconds; and
no endpoint is used more than five times within any 60 seconds. -/
structure Restrained (c : OperatorConfig) (served : List (Request × Reply)) : Prop where
  operator : ∀ o ∈ served, o.2 = .ok →
    c.enabled = true ∧ ∃ operator, o.1.operator = some operator ∧ strip operator = c.passphrase
  guesses : 0 < c.maxAttemptsPerMinute → ∀ client t,
    ((failures client served).countP fun a => decide (a ≤ t) && decide (t - a < 60)) ≤ c.maxAttemptsPerMinute.toNat
  rate : ∀ endpoint t, ((performed endpoint served).countP fun a => decide (a ≤ t) && !decide (a < t - 60)) ≤ 5

theorem operator_access (c : OperatorConfig) (requests : List Request) (h : InTime requests) :
    Restrained c (serveAll c requests).served := by
  obtain ⟨now, monotonic, hall⟩ : ∃ now monotonic, ∀ r ∈ requests, r.now ≤ now ∧ r.monotonic ≤ monotonic := by
    rcases List.eq_nil_or_concat requests with rfl | ⟨requests, r, rfl⟩
    · exact ⟨0, 0, by simp⟩
    · rw [List.concat_eq_append] at h ⊢
      refine ⟨r.now, r.monotonic, fun r' hr' => ?_⟩
      rcases List.mem_append.1 hr' with hr' | hr'
      · exact (List.pairwise_append.1 h).2.2 r' hr' r (List.mem_singleton_self r)
      · rw [List.mem_singleton.1 hr']
        exact ⟨le_rfl, le_rfl⟩
  have hinv := serveAll_inv (c := c) h hall
  exact ⟨hinv.operator, fun hpos client t => hinv.guesses hpos client t, fun endpoint t => hinv.rate endpoint t⟩

/-- A client is locked out exactly while that many guesses of its were refused within the last 60 seconds, whatever it
sends; and who has the passphrase is turned away exactly when the endpoint was used five times. -/
theorem operator_lockout (c : OperatorConfig) (requests : List Request) (r : Request) (h : InTime (requests ++ [r])) :
    ((guard c r (serveAll c requests)).1 = .raised tooManyAttempts ↔ c.enabled = true ∧ 0 < c.maxAttemptsPerMinute ∧
      c.maxAttemptsPerMinute.toNat ≤
        ((failures r.client (serveAll c requests).served).filter (failureWindow.counts r.now)).length) ∧
      ((requireOperatorAccess c r (serveAll c requests).failures).1 = .ok → ∀ endpoint, r.endpoint = some endpoint →
        ((guard c r (serveAll c requests)).1 = .ok ↔
          ((performed endpoint (serveAll c requests).served).filter (rateWindow.counts r.monotonic)).length <
            RATE_LIMIT_MAX)) := by
  obtain ⟨hbefore, -, hlast⟩ := List.pairwise_append.1 h
  have hinv := serveAll_inv (c := c) hbefore fun r' hr' => hlast r' hr' r (List.mem_singleton_self r)
  have hv := requireOperatorAccess_verified (c := c) hinv.failures le_rfl
  have hguarded := guard_guarded c r (serveAll c requests)
  generalize (guard c r (serveAll c requests)).1 = reply at hguarded ⊢
  generalize (guard c r (serveAll c requests)).2 = s' at hguarded
  cases hguarded with
  | refused hne => exact ⟨hv.tooMany, fun hok => absurd hok hne⟩
  | unlimited hok hnone =>
    rw [hok] at hv
    refine ⟨hv.tooMany, fun _ endpoint hsome => ?_⟩
    rw [hnone] at hsome
    cases hsome
  | limited hok endpoint hsome =>
    have hl := checkRateLimit_limited endpoint hinv.buckets le_rfl
    rw [hok] at hv
    refine ⟨?_, fun _ endpoint' hsome' => ?_⟩
    · rw [← hv.tooMany]
      refine ⟨fun heq => ?_, fun heq => absurd heq (ok_ne_raised _)⟩
      rcases hl.raised with hr | hr <;> rw [hr] at heq
      · exact absurd heq (ok_ne_raised _)
      · exact absurd (Reply.raised.inj heq) (rateLimitExceeded_ne_tooMany endpoint)
    · rw [hsome] at hsome'
      cases hsome'
      exact hl.ok

def sampleConfig : OperatorConfig := { passphrase := "open sesame", maxAttemptsPerMinute := 1 }

/-- A wrong guess, the passphrase from elsewhere, and the passphrase from the client that guessed. -/
def sampleRequests : List Request :=
  [⟨"a", some "sesame", some "kill-switch", 0, 0⟩, ⟨"b", some " open sesame", some "kill-switch", 1, 1⟩,
    ⟨"a", some "open sesame", some "kill-switch", 2, 2⟩]

theorem sampleRequests_inTime : InTime sampleRequests := by
  unfold InTime sampleRequests
  norm_num

theorem operator_access_sampleRequests : Restrained sampleConfig (serveAll sampleConfig sampleRequests).served :=
  operator_access sampleConfig sampleRequests sampleRequests_inTime

example : (serveAll sampleConfig sampleRequests).served.map Prod.snd =
    [.raised operatorRequired, .ok, .raised tooManyAttempts] := by
  decide +kernel

theorem operator_lockout_sampleRequests :
    ((guard sampleConfig ⟨"a", some "open sesame", none, 3, 3⟩ (serveAll sampleConfig sampleRequests)).1 =
        .raised tooManyAttempts ↔ sampleConfig.enabled = true ∧ 0 < sampleConfig.maxAttemptsPerMinute ∧
          sampleConfig.maxAttemptsPerMinute.toNat ≤
            ((failures "a" (serveAll sampleConfig sampleRequests).served).filter (failureWindow.counts 3)).length) :=
  (operator_lockout sampleConfig sampleRequests ⟨"a", some "open sesame", none, 3, 3⟩ (by
    unfold InTime sampleRequests
    norm_num)).1

end PearlAlgo.OperatorAccess
