import Mathlib.Data.NNRat.Defs
import PearlAlgo.Py.Datetime
import PearlAlgo.Py.RecentKeys

/-!
# The alert bridge (`alerts/tv_to_discord.py`)

`tradingview` takes an alert, drops it when its key was seen lately, and else posts it with retries. An alert whose
delivery fails has its key on record already: `no_alert_lost_iff` says when its retry goes through all the same.
The content of the embeds is left out.
-/

namespace PearlAlgo
open Py

structure BridgeSettings where
  webhookUrl : String := ""
  sharedSecret : String := ""
  dedupTtlSec : ℚ := 120
  maxRetries : Int := 3

/-- A payload, by the texts of its values; the secret where it is a string. `embed` is what rendering it raises. -/
structure AlertPayload where
  strat : Option String := none
  action : Option String := none
  symbol : Option String := none
  barTime : Option String := none
  entry : Option String := none
  secret : Option String := none
  embed : Except PyErr Unit := .ok ()

def dedupKey (payload : AlertPayload) : String :=
  "|".intercalate
    [payload.strat.getD "", payload.action.getD "", payload.symbol.getD "", payload.barTime.getD "", payload.entry.getD ""]

/-- A reply to `_http_post`; `retryAfter` is what `float(json.loads(text).get("retry_after", 1.0))` does. -/
inductive HttpReply
  | raised  -- `URLError` and the like
  | status (code : Nat) (retryAfter : Except PyErr ℚ)

inductive BridgeResponse
  | delivered (status attempt : Nat)
  | deduped
  | httpException (status : Nat)
  | crashed  -- any other exception
deriving DecidableEq

def BridgeResponse.isFailure : BridgeResponse → Bool
  | .delivered _ _ | .deduped => false
  | .httpException _ | .crashed => true

/-- The pause that Discord asks for, unless reading it raises what is not caught. -/
def retryWait : Except PyErr ℚ → Option ℚ
  | .ok wait => some wait
  | .error .typeError => none
  | .error _ => some 1

/-- The attempts of `post_to_discord` that are left, from the number of the next one. -/
def tryPost (replies : Nat → HttpReply) : Nat → Nat → BridgeResponse
  | 0, _ => .httpException 502
  | n + 1, attempt =>
    match replies attempt with
    | .raised => .crashed
    | .status code retryAfter =>
      if code < 300 then .delivered code attempt
      else if code = 429 then
        match retryWait retryAfter with
        | none => .crashed
        -- `sleep` refuses a negative pause
        | some wait => if min wait 5 < 0 then .crashed else tryPost replies n (attempt + 1)
      else if 500 ≤ code ∧ code < 600 then tryPost replies n (attempt + 1)
      else .httpException 502

def postToDiscord (cfg : BridgeSettings) (replies : Nat → HttpReply) : BridgeResponse :=
  if cfg.webhookUrl = "" then .httpException 500 else tryPost replies cfg.maxRetries.toNat 1

def isDuplicate (cfg : BridgeSettings) (key : String) (now : ℚ) (seen : Dict String ℚ) : Bool × Dict String ℚ :=
  RecentKeys.check cfg.dedupTtlSec 2048 key now seen

/-- A request, with the time since the last one and what its environment does. A body that is no JSON object is
`none`. -/
structure Arrival where
  delay : ℚ≥0
  body : Option AlertPayload
  logWritable : Bool := true
  replies : Nat → HttpReply

structure Bridge where
  seen : Dict String ℚ := .empty
  signalLog : List AlertPayload := []
  monotonic : ℚ := 0

namespace Arrival

/-- Plain text is wrapped. -/
def payload (a : Arrival) : AlertPayload := a.body.getD { action := some "ALERT", strat := some "raw" }

def IsRaw (a : Arrival) : Prop := a.payload.strat = some "raw"

instance (a : Arrival) : Decidable a.IsRaw := inferInstanceAs (Decidable (_ = _))

/-- The secret is right, where one is set. -/
def LetIn (cfg : BridgeSettings) (a : Arrival) : Prop :=
  ¬ (cfg.sharedSecret ≠ "" ∧ a.payload.secret ≠ some cfg.sharedSecret)

instance (cfg : BridgeSettings) (a : Arrival) : Decidable (a.LetIn cfg) := inferInstanceAs (Decidable (¬ (_ ∧ _)))

/-- The key that the duplicate filter goes by. -/
def key (a : Arrival) : String := dedupKey { a.payload with secret := none }

def deliver (cfg : BridgeSettings) (a : Arrival) : BridgeResponse :=
  match a.payload.embed with
  | .error _ => .crashed
  | .ok () => postToDiscord cfg a.replies

end Arrival

def tradingview (cfg : BridgeSettings) (a : Arrival) (s : Bridge) : BridgeResponse × Bridge :=
  let now := s.monotonic + a.delay
  if ¬ a.LetIn cfg then (.httpException 401, { s with monotonic := now })
  else
    let payload := { a.payload with secret := none }
    let signalLog := if a.logWritable then s.signalLog ++ [payload] else s.signalLog
    if a.IsRaw then (a.deliver cfg, { s with signalLog, monotonic := now })
    else
      let (duplicate, seen) := isDuplicate cfg a.key now s.seen
      (if duplicate then .deduped else a.deliver cfg, { seen, signalLog, monotonic := now })

def Bridge.after (cfg : BridgeSettings) (arrivals : List Arrival) (s : Bridge) : Bridge :=
  arrivals.foldl (fun s a => (tradingview cfg a s).2) s

/-! ### Retries -/

/-- `a` and `b` are the same alert: raw alerts have no key. -/
def SameAlert (a b : Arrival) : Prop := a.IsRaw ∧ b.IsRaw ∨ ¬ a.IsRaw ∧ ¬ b.IsRaw ∧ a.key = b.key

instance (a b : Arrival) : Decidable (SameAlert a b) := inferInstanceAs (Decidable (_ ∧ _ ∨ _ ∧ _ ∧ _))

/-- After `pre`, the delivery of `a` fails, and `b` is the next request with that alert. -/
structure Retried (cfg : BridgeSettings) (pre : List Arrival) (a : Arrival) (mid : List Arrival) (b : Arrival) : Prop where
  letIn : a.LetIn cfg
  failed : (tradingview cfg a (Bridge.after cfg pre {})).1.isFailure = true
  again : b.LetIn cfg ∧ SameAlert a b
  between : ∀ m ∈ mid, m.LetIn cfg → ¬ SameAlert a m

/-- The retry of an alert whose delivery failed is not dropped as a duplicate. -/
def NoAlertLost (cfg : BridgeSettings) (arrivals : List Arrival) : Prop :=
  ∀ pre a mid b post, arrivals = pre ++ a :: (mid ++ b :: post) → Retried cfg pre a mid b →
    (tradingview cfg b (Bridge.after cfg (pre ++ a :: mid) {})).1 ≠ .deduped

def Records (cfg : BridgeSettings) (m : Arrival) (s : Bridge) : Prop :=
  m.LetIn cfg ∧ ¬ m.IsRaw ∧ (tradingview cfg m s).1 ≠ .deduped

instance (cfg : BridgeSettings) (m : Arrival) (s : Bridge) : Decidable (Records cfg m s) :=
  inferInstanceAs (Decidable (_ ∧ _ ∧ _ ≠ _))

/-- How many of these requests put a key on record. -/
def recorded (cfg : BridgeSettings) : List Arrival → Bridge → Nat
  | [], _ => 0
  | m :: rest, s => (if Records cfg m s then 1 else 0) + recorded cfg rest (tradingview cfg m s).2

/-- The time from before these requests to the last of them. -/
def elapsed (arrivals : List Arrival) : ℚ := (arrivals.map fun m => (m.delay : ℚ)).sum

section runs
variable {cfg : BridgeSettings} {a b m : Arrival} {mid pre : List Arrival} {s : Bridge} {k : String} {t : ℚ} {c : Nat}

theorem tradingview_monotonic (cfg : BridgeSettings) (a : Arrival) (s : Bridge) :
    (tradingview cfg a s).2.monotonic = s.monotonic + a.delay := by
  unfold tradingview
  dsimp only
  split
  · rfl
  · split <;> rfl

theorem tradingview_seen_of_kept (h : ¬ (a.LetIn cfg ∧ ¬ a.IsRaw)) : (tradingview cfg a s).2.seen = s.seen := by
  unfold tradingview
  dsimp only
  split
  · rfl
  next hin =>
    rw [not_not] at hin
    rw [if_pos (not_not.1 fun hraw => h ⟨hin, hraw⟩)]

theorem tradingview_of_checked (hin : a.LetIn cfg) (hraw : ¬ a.IsRaw) :
    (tradingview cfg a s).2.seen = (isDuplicate cfg a.key (s.monotonic + a.delay) s.seen).2 ∧
      (tradingview cfg a s).1 =
        if (isDuplicate cfg a.key (s.monotonic + a.delay) s.seen).1 then .deduped else a.deliver cfg := by
  unfold tradingview
  dsimp only
  rw [if_neg (not_not.2 hin), if_neg hraw]
  exact ⟨rfl, rfl⟩

theorem tryPost_ne_deduped (replies : Nat → HttpReply) (n attempt : Nat) : tryPost replies n attempt ≠ .deduped := by
  induction n generalizing attempt with
  | zero => simp [tryPost]
  | succ n ih =>
    unfold tryPost
    split
    · simp
    · split_ifs
      · simp
      · split
        · simp
        · split_ifs
          · simp
          · exact ih _
      · exact ih _
      · simp

theorem deliver_ne_deduped (cfg : BridgeSettings) (a : Arrival) : a.deliver cfg ≠ .deduped := by
  unfold Arrival.deliver postToDiscord
  split
  · simp
  · split
    · simp
    · exact tryPost_ne_deduped _ _ _

theorem deduped_iff (hin : a.LetIn cfg) : (tradingview cfg a s).1 = .deduped ↔
    ¬ a.IsRaw ∧ (isDuplicate cfg a.key (s.monotonic + a.delay) s.seen).1 = true := by
  by_cases hraw : a.IsRaw
  · unfold tradingview
    dsimp only
    rw [if_neg (not_not.2 hin), if_pos hraw]
    exact iff_of_false (deliver_ne_deduped cfg a) fun h => h.1 hraw
  · rw [(tradingview_of_checked hin hraw).2]
    split
    next hdup => exact iff_of_true rfl ⟨hraw, hdup⟩
    next hdup => exact iff_of_false (deliver_ne_deduped cfg a) fun h => hdup h.2

theorem inOrder_tradingview (h : RecentKeys.InOrder s.monotonic s.seen) :
    RecentKeys.InOrder (tradingview cfg a s).2.monotonic (tradingview cfg a s).2.seen := by
  have hlater : RecentKeys.InOrder (s.monotonic + a.delay) s.seen := h.mono (le_add_of_nonneg_right a.delay.2)
  rw [tradingview_monotonic]
  by_cases hchecked : a.LetIn cfg ∧ ¬ a.IsRaw
  · rw [(tradingview_of_checked hchecked.1 hchecked.2).1]
    exact hlater.check
  · rw [tradingview_seen_of_kept hchecked]
    exact hlater

theorem inOrder_after (h : RecentKeys.InOrder s.monotonic s.seen) (arrivals : List Arrival) :
    RecentKeys.InOrder (s.after cfg arrivals).monotonic (s.after cfg arrivals).seen := by
  induction arrivals generalizing s with
  | nil => exact h
  | cons a rest ih => exact ih (inOrder_tradingview h)

theorem monotonic_after (arrivals : List Arrival) : (s.after cfg arrivals).monotonic = s.monotonic + elapsed arrivals := by
  induction arrivals generalizing s with
  | nil => exact (add_zero _).symm
  | cons a rest ih =>
    have hrest := ih (s := (tradingview cfg a s).2)
    rw [tradingview_monotonic, add_assoc] at hrest
    exact hrest

theorem remembers_tradingview (h : RecentKeys.InOrder s.monotonic s.seen)
    (hr : RecentKeys.Remembers cfg.dedupTtlSec 2048 k t c s.monotonic s.seen)
    (hne : m.LetIn cfg → ¬ m.IsRaw → k ≠ m.key) :
    RecentKeys.Remembers cfg.dedupTtlSec 2048 k t (c + if Records cfg m s then 1 else 0)
      (tradingview cfg m s).2.monotonic (tradingview cfg m s).2.seen := by
  have hlater : s.monotonic ≤ s.monotonic + m.delay := le_add_of_nonneg_right m.delay.2
  rw [tradingview_monotonic]
  by_cases hchecked : m.LetIn cfg ∧ ¬ m.IsRaw
  · rw [(tradingview_of_checked hchecked.1 hchecked.2).1]
    have hstep : RecentKeys.Remembers cfg.dedupTtlSec 2048 k t
        (if (isDuplicate cfg m.key (s.monotonic + m.delay) s.seen).1 = true then c else c + 1) (s.monotonic + m.delay)
        (isDuplicate cfg m.key (s.monotonic + m.delay) s.seen).2 :=
      hr.check (h.mono hlater) hlater (hne hchecked.1 hchecked.2)
    have hrecords : Records cfg m s ↔ ¬ (isDuplicate cfg m.key (s.monotonic + m.delay) s.seen).1 = true := by
      unfold Records
      rw [Ne, deduped_iff hchecked.1]
      tauto
    by_cases hdup : (isDuplicate cfg m.key (s.monotonic + m.delay) s.seen).1 = true
    · rw [if_neg fun hrec => hrecords.1 hrec hdup]
      rw [if_pos hdup] at hstep
      exact hstep
    · rw [if_pos (hrecords.2 hdup)]
      rw [if_neg hdup] at hstep
      exact hstep
  · rw [tradingview_seen_of_kept hchecked, if_neg fun hrec => hchecked ⟨hrec.1, hrec.2.1⟩]
    exact hr.mono hlater

theorem remembers_after (h : RecentKeys.InOrder s.monotonic s.seen)
    (hr : RecentKeys.Remembers cfg.dedupTtlSec 2048 k t c s.monotonic s.seen)
    (hne : ∀ m ∈ mid, m.LetIn cfg → ¬ m.IsRaw → k ≠ m.key) :
    RecentKeys.Remembers cfg.dedupTtlSec 2048 k t (c + recorded cfg mid s) (s.after cfg mid).monotonic
      (s.after cfg mid).seen := by
  induction mid generalizing s c with
  | nil => exact hr
  | cons m rest ih =>
    have hstep := ih (inOrder_tradingview h) (remembers_tradingview h hr (hne m (List.mem_cons_self ..)))
      fun m' hm' => hne m' (List.mem_cons_of_mem _ hm')
    rw [add_assoc] at hstep
    exact hstep

/-- A request whose delivery fails has put its key on record. -/
theorem remembers_failed (h : RecentKeys.InOrder s.monotonic s.seen) (hin : a.LetIn cfg) (hraw : ¬ a.IsRaw)
    (hfailed : (tradingview cfg a s).1.isFailure = true) :
    RecentKeys.Remembers cfg.dedupTtlSec 2048 a.key (s.monotonic + a.delay) 0 (tradingview cfg a s).2.monotonic
      (tradingview cfg a s).2.seen := by
  have hnew : (isDuplicate cfg a.key (s.monotonic + a.delay) s.seen).1 = false := by
    rcases hdup : (isDuplicate cfg a.key (s.monotonic + a.delay) s.seen).1
    · rfl
    · rw [(deduped_iff hin).2 ⟨hraw, hdup⟩] at hfailed
      cases hfailed
  rw [tradingview_monotonic, (tradingview_of_checked hin hraw).1]
  exact (h.mono (le_add_of_nonneg_right a.delay.2)).remembers_new (by omega) hnew

/-- The retry of a failed alert goes through if and only if the window has passed or enough others were recorded. -/
theorem retry_attempted_iff (h : Retried cfg pre a mid b) :
    (tradingview cfg b (Bridge.after cfg (pre ++ a :: mid) {})).1 ≠ .deduped ↔
      b.IsRaw ∨ cfg.dedupTtlSec < elapsed (mid ++ [b]) ∨
        2048 ≤ recorded cfg mid (Bridge.after cfg (pre ++ [a]) {}) := by
  obtain ⟨hbin, hsame⟩ := h.again
  rw [Ne, deduped_iff hbin]
  rcases hsame with ⟨-, hbraw⟩ | ⟨haraw, hbraw, hkey⟩
  · exact iff_of_true (fun hdup => hdup.1 hbraw) (.inl hbraw)
  have hfailed := h.failed
  have hstart : RecentKeys.InOrder (Bridge.after cfg pre {}).monotonic (Bridge.after cfg pre {}).seen :=
    inOrder_after .empty pre
  have hsplit : Bridge.after cfg (pre ++ a :: mid) {} = (tradingview cfg a (Bridge.after cfg pre {})).2.after cfg mid := by
    unfold Bridge.after
    rw [List.foldl_append, List.foldl_cons]
  have hsplit' : Bridge.after cfg (pre ++ [a]) {} = (tradingview cfg a (Bridge.after cfg pre {})).2 := by
    unfold Bridge.after
    rw [List.foldl_append, List.foldl_cons, List.foldl_nil]
  rw [hsplit, hsplit']
  generalize Bridge.after cfg pre {} = s at *
  have hrecorded := remembers_failed hstart h.letIn haraw hfailed
  have hmid := remembers_after (inOrder_tradingview hstart) hrecorded fun m hm hin hraw hk =>
    h.between m hm hin (.inr ⟨haraw, hraw, hk⟩)
  rw [zero_add] at hmid
  generalize hs' : (tradingview cfg a s).2 = s' at *
  have hclock : (s'.after cfg mid).monotonic + b.delay = s.monotonic + a.delay + elapsed (mid ++ [b]) := by
    rw [monotonic_after, ← hs', tradingview_monotonic]
    unfold elapsed
    rw [List.map_append, List.sum_append, List.map_singleton, List.sum_singleton, add_assoc]
  have hb : (s'.after cfg mid).monotonic ≤ (s'.after cfg mid).monotonic + b.delay := le_add_of_nonneg_right b.delay.2
  have horder : RecentKeys.InOrder (s'.after cfg mid).monotonic (s'.after cfg mid).seen := by
    refine inOrder_after ?_ mid
    rw [← hs']
    exact inOrder_tradingview hstart
  have hdup : (isDuplicate cfg b.key ((s'.after cfg mid).monotonic + b.delay) (s'.after cfg mid).seen).1 = true ↔ _ :=
    hkey ▸ hmid.check_iff (horder.mono hb) hb
  rw [hdup, hclock, or_iff_right hbraw, and_iff_right hbraw, not_and_or, not_lt, not_le]
  refine or_congr_left ?_
  constructor <;> intro hlt <;> linarith

end runs

/-- No alert is lost to a failed delivery if and only if every retry of one is raw, comes after the window, or comes
after 2048 others were recorded. -/
theorem no_alert_lost_iff (cfg : BridgeSettings) (arrivals : List Arrival) :
    NoAlertLost cfg arrivals ↔
      ∀ pre a mid b post, arrivals = pre ++ a :: (mid ++ b :: post) → Retried cfg pre a mid b →
        b.IsRaw ∨ cfg.dedupTtlSec < elapsed (mid ++ [b]) ∨
          2048 ≤ recorded cfg mid (Bridge.after cfg (pre ++ [a]) {}) :=
  forall₅_congr fun _ _ _ _ _ => forall_congr' fun _ => forall_congr' retry_attempted_iff

/-- A buy signal, a second after the last request, while Discord answers 503. -/
def buyAlert : Arrival where
  delay := 1
  body := some
    { strat := some "mnq-rth-long-bias", action := some "BUY", symbol := some "MNQ1!"
      barTime := some "2026-06-03 10:15 ET", entry := some "21850.25" }
  replies _ := .status 503 (.error .valueError)

theorem alert_lost : ¬ ∀ cfg arrivals, NoAlertLost cfg arrivals := by
  intro h
  have hretried : Retried { webhookUrl := "webhook" } [] buyAlert [] buyAlert :=
    ⟨by decide +kernel, by decide +kernel, by decide +kernel, fun m hm => by cases hm⟩
  exact h _ [buyAlert, buyAlert] [] buyAlert [] buyAlert [] rfl hretried (by decide +kernel)

end PearlAlgo
