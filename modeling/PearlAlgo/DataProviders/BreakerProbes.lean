import PearlAlgo.DataProviders.IbkrProvider
import Mathlib.Algebra.Order.Ring.Rat
import Mathlib.Tactic.Linarith

/-!
# Requests through the connection's circuit breaker (`data_providers/ibkr/ibkr_provider.py`)

`fetch_historical` and `get_latest_bar` read the breaker once, validate the connection, submit their task and record
what comes back. Any number of requests is under way, each cut wherever another one can come between. Nothing marks a
probe as taken, the breaker is not read again before the task is submitted, and some answers are not recorded.
-/

namespace PearlAlgo.BreakerProbes
open IBKRProvider Lts

variable {Values : Type}

/-! ### Requests -/

inductive Kind
  | fetchHistorical
  | getLatestBar
deriving DecidableEq

/-- How far a request has come. The connection is validated by a task of its own. -/
inductive Stage
  | new
  | refused
  | checked
  | connecting
  | connected
  | submitted
  | ended
deriving DecidableEq

structure Progress where
  kind : Kind := .fetchHistorical
  stage : Stage := .new
  /-- The breaker was half-open when the request was let through. -/
  probe : Bool := false
  /-- The outcomes recorded for it. -/
  records : Nat := 0

/-- What comes back for the task of a request. -/
inductive Outcome (Values : Type)
  | historical (answer : Answer Values)
  | latest (result : LatestBar)

namespace Outcome

def kind : Outcome Values → Kind
  | historical _ => .fetchHistorical
  | latest _ => .getLatestBar

/-- Whether a success or a failure is recorded, if anything is. -/
def recorded : Outcome Values → Option Bool
  | historical (.bars rows) => if rows.isEmpty then none else some true
  | historical (.malformed rows) => if rows.isEmpty then none else some false
  | historical (.raised error) => if sessionConflict error then none else some false
  | latest .data => some true
  | latest .nothing => none
  | latest .failed => some false

end Outcome

def record (now : Rat) (b : Breaker Values) : Option Bool → Breaker Values
  | some true => b.recordSuccess
  | some false => b.recordFailure now
  | none => b

/-- But for the cached frame, this is what the end of `_fetch_historical_async` does to the breaker. -/
theorem finish_eq_record (req : Request) (start stop : Int) (answer : Answer Values) (now : Rat)
    (s : IBKRProvider.State Values) :
    { (finish req start stop answer now s).1.breaker with lastCachedDf := s.breaker.lastCachedDf } =
      record now s.breaker (Outcome.historical answer).recorded := by
  unfold finish
  rcases answer with (_ | ⟨row, rows⟩) | (_ | ⟨row, rows⟩) | error
  · rfl
  · simp only [Outcome.recorded, List.isEmpty_cons, Breaker.cacheDf]
    split <;> rfl
  · rfl
  · simp only [Outcome.recorded, List.isEmpty_cons, Bool.false_eq_true, if_false, record]
    rw [← Breaker.lastCachedDf_recordFailure now s.breaker]
  · simp only [Outcome.recorded]
    split
    · rfl
    · rw [← Breaker.lastCachedDf_recordFailure now s.breaker]
      rfl

/-! ### Steps -/

/-- `submittedOpen` is not in the source: a task has been submitted while the breaker was open and not due. -/
structure Traffic (Values : Type) where
  breaker : Breaker Values := {}
  clock : Rat := 0
  requests : Nat → Progress := fun _ => {}
  submittedOpen : Bool := false

/-- Open, and the recovery seconds have not passed. -/
def Holding (now : Rat) (b : Breaker Values) : Prop := b.state = .opened ∧ now - b.openedAt < Breaker.recoverySeconds

instance (now : Rat) (b : Breaker Values) : Decidable (Holding now b) :=
  inferInstanceAs (Decidable (b.state = .opened ∧ now - b.openedAt < Breaker.recoverySeconds))

inductive Act (Values : Type)
  | call (n : Nat) (kind : Kind)
  | connect (n : Nat)
  | validated (n : Nat) (isConnected : Bool)
  | submit (n : Nat)
  | answered (n : Nat) (outcome : Outcome Values)
  /-- `asyncio.wait_for` around `get_latest_bar`. -/
  | cancelled (n : Nat)
  | wait (seconds : Rat)

namespace Traffic
variable (s : Traffic Values)

def set (n : Nat) (p : Progress) : Traffic Values := { s with requests := Function.update s.requests n p }

/-- `if self._circuit_breaker.is_open` -/
def check (n : Nat) (kind : Kind) : Traffic Values :=
  let breaker := s.breaker.promote s.clock
  if breaker.state = .opened then { s with breaker }.set n { kind, stage := .refused }
  else { s with breaker }.set n { kind, stage := .checked, probe := breaker.state = BreakerState.halfOpen }

/-- `self._executor.submit_task(...)` -/
def submitTask (n : Nat) (stage : Stage) : Traffic Values :=
  { s with submittedOpen := s.submittedOpen || Holding s.clock s.breaker }.set n { s.requests n with stage }

def finish (n : Nat) (recorded : Option Bool) : Traffic Values :=
  let p := s.requests n
  { s with breaker := record s.clock s.breaker recorded }.set n
    { p with stage := .ended, records := p.records + if recorded.isSome then 1 else 0 }

end Traffic

/-- `none` where the request is not at that stage. -/
def step (s : Traffic Values) : Act Values → Option (Traffic Values)
  | .call n kind => if (s.requests n).stage = .new then some (s.check n kind) else none
  | .connect n => if (s.requests n).stage = .checked then some (s.submitTask n .connecting) else none
  | .validated n isConnected =>
    if (s.requests n).stage = .connecting then
      if isConnected then some (s.set n { s.requests n with stage := .connected })
      else some (s.finish n (some false))
    else none
  | .submit n => if (s.requests n).stage = .connected then some (s.submitTask n .submitted) else none
  | .answered n outcome =>
    if (s.requests n).stage = .submitted ∧ outcome.kind = (s.requests n).kind then some (s.finish n outcome.recorded)
    else none
  | .cancelled n =>
    if (s.requests n).kind = .getLatestBar ∧ ((s.requests n).stage = .connecting ∨ (s.requests n).stage = .submitted) then
      some (s.finish n none)
    else none
  | .wait seconds => if 0 ≤ seconds then some { s with clock := s.clock + seconds } else none

/-! ### The law -/

/-- Let through, with a task still to be submitted. -/
def Progress.Waiting (p : Progress) : Prop := p.stage = .checked ∨ p.stage = .connecting ∨ p.stage = .connected

def Progress.LetThrough (p : Progress) : Prop := p.stage ≠ .new ∧ p.stage ≠ .refused

/-- Let through while the breaker was half-open, and without a recorded outcome. -/
def Traffic.Outstanding (s : Traffic Values) (n : Nat) : Prop := (s.requests n).probe = true ∧ (s.requests n).records = 0

/-- No task is submitted while the breaker is open and not due, at most one probe is outstanding while it is half-open,
and a request that was let through has no outcome until it ends, and one from then on. -/
structure Guarded (s : Traffic Values) : Prop where
  submits : s.submittedOpen = false
  probes : s.breaker.state = .halfOpen → ∀ n j, s.Outstanding n → s.Outstanding j → n = j
  records : ∀ n, (s.requests n).LetThrough → (s.requests n).records = if (s.requests n).stage = .ended then 1 else 0

/-- A failure opens the breaker. -/
def Opens (b : Breaker Values) : Prop :=
  b.state = .halfOpen ∨ b.state = .closed ∧ Breaker.failureThreshold ≤ b.consecutiveFailures + 1

/-- A failure recorded for `n` opens the breaker only while no other request has a task to submit. -/
def OpensAlone (s : Traffic Values) (n : Nat) : Prop := Opens s.breaker → ∀ j, j ≠ n → ¬ (s.requests j).Waiting

/-- No request comes to a half-open breaker while a probe is outstanding, the breaker opens only while no other request
has a task to submit, and all that comes back is recorded. -/
def Covered (s : Traffic Values) : Act Values → Prop
  | .call _ _ => (s.breaker.promote s.clock).state = .halfOpen → ∀ j, ¬ s.Outstanding j
  | .validated n isConnected => isConnected = false → OpensAlone s n
  | .answered n outcome => outcome.recorded.isSome ∧ (outcome.recorded = some false → OpensAlone s n)
  | .cancelled _ => False
  | .connect _ | .submit _ | .wait _ => True

/-! ### What a step can do -/

variable {s s' : Traffic Values} {a : Act Values} {n j : Nat} {b : Breaker Values} {now later : Rat}

inductive Move (s : Traffic Values) (a : Act Values) : Traffic Values → Prop
  | call (n : Nat) (kind : Kind)
    (halone : Covered s a → (s.breaker.promote s.clock).state = .halfOpen → ∀ j, ¬ s.Outstanding j) : Move s a (s.check n kind)
  | task (n : Nat) (stage : Stage) (hwaiting : (s.requests n).Waiting) (hstage : stage = .connecting ∨ stage = .submitted) :
    Move s a (s.submitTask n stage)
  | connected (n : Nat) (hstage : (s.requests n).stage = .connecting) :
    Move s a (s.set n { s.requests n with stage := .connected })
  | ends (n : Nat) (recorded : Option Bool) (hstage : (s.requests n).stage = .connecting ∨ (s.requests n).stage = .submitted)
    (hrecorded : Covered s a → recorded.isSome ∧ (recorded = some false → OpensAlone s n)) : Move s a (s.finish n recorded)
  | wait (seconds : Rat) (hle : 0 ≤ seconds) : Move s a { s with clock := s.clock + seconds }

theorem step_move (hs : step s a = some s') : Move s a s' := by
  cases a with
  | call n kind =>
    obtain ⟨-, hs⟩ := Option.ite_none_right_eq_some.1 hs
    cases hs
    exact .call n kind id
  | connect n =>
    obtain ⟨hstage, hs⟩ := Option.ite_none_right_eq_some.1 hs
    cases hs
    exact .task n _ (.inl hstage) (.inl rfl)
  | validated n isConnected =>
    obtain ⟨hstage, hs⟩ := Option.ite_none_right_eq_some.1 hs
    cases isConnected with
    | true =>
      cases hs
      exact .connected n hstage
    | false =>
      cases hs
      exact .ends n (some false) (.inl hstage) fun hcovered => ⟨rfl, fun _ => hcovered rfl⟩
  | submit n =>
    obtain ⟨hstage, hs⟩ := Option.ite_none_right_eq_some.1 hs
    cases hs
    exact .task n _ (.inr (.inr hstage)) (.inr rfl)
  | answered n outcome =>
    obtain ⟨hstage, hs⟩ := Option.ite_none_right_eq_some.1 hs
    cases hs
    exact .ends n outcome.recorded (.inr hstage.1) id
  | cancelled n =>
    obtain ⟨hstage, hs⟩ := Option.ite_none_right_eq_some.1 hs
    cases hs
    exact .ends n none hstage.2 False.elim
  | wait seconds =>
    obtain ⟨hle, hs⟩ := Option.ite_none_right_eq_some.1 hs
    cases hs
    exact .wait seconds hle

/-! ### The breaker -/

theorem not_holding_later (h : ¬ Holding now b) (hle : now ≤ later) : ¬ Holding later b := by
  rintro ⟨hopen, hlt⟩
  exact h ⟨hopen, by linarith⟩

theorem not_holding_promote (h : ¬ Holding now b) : ¬ Holding now (b.promote now) := by
  unfold Breaker.promote
  split
  · rintro ⟨hopen, -⟩
    cases hopen
  · exact h

theorem not_holding_record (h : ¬ Holding now b) {recorded : Option Bool} (hopens : recorded = some false → ¬ Opens b) :
    ¬ Holding now (record now b recorded) := by
  rcases recorded with _ | _ | _
  · exact h
  · have hnot := hopens rfl
    rw [Opens, not_or] at hnot
    simp only [record, Breaker.recordFailure]
    rw [if_neg fun hopen => hnot.2 ⟨hopen.2, hopen.1⟩, if_neg hnot.1]
    exact h
  · rintro ⟨hopen, -⟩
    cases hopen

/-! ### Requests apart from the one that moves -/

@[simp] theorem requests_set (s : Traffic Values) (n : Nat) (p : Progress) (j : Nat) :
    (s.set n p).requests j = if j = n then p else s.requests j := Function.update_apply ..

@[simp] theorem breaker_set (s : Traffic Values) (n : Nat) (p : Progress) : (s.set n p).breaker = s.breaker := rfl

@[simp] theorem clock_set (s : Traffic Values) (n : Nat) (p : Progress) : (s.set n p).clock = s.clock := rfl

@[simp] theorem submittedOpen_set (s : Traffic Values) (n : Nat) (p : Progress) :
    (s.set n p).submittedOpen = s.submittedOpen := rfl

/-- While a task is to be submitted the breaker is not open, or due. -/
structure SubmitSafe (s : Traffic Values) : Prop where
  submits : s.submittedOpen = false
  waiting : ∀ n, (s.requests n).Waiting → ¬ Holding s.clock s.breaker

theorem SubmitSafe.move (h : SubmitSafe s) (hmove : Move s a s') (hcovered : Covered s a) : SubmitSafe s' := by
  cases hmove with
  | call n kind halone =>
    unfold Traffic.check
    dsimp only
    split
    next hopen =>
      refine ⟨h.submits, fun j hj => ?_⟩
      rw [requests_set] at hj
      split at hj
      · simp [Progress.Waiting] at hj
      · exact not_holding_promote (h.waiting j hj)
    next hnot => exact ⟨h.submits, fun _ _ hholding => hnot hholding.1⟩
  | task n stage hwaiting hstage =>
    refine ⟨?_, fun _ _ => h.waiting n hwaiting⟩
    simp [Traffic.submitTask, h.submits, h.waiting n hwaiting]
  | connected n hstage =>
    refine ⟨h.submits, fun _ _ => h.waiting n (.inr (.inl hstage))⟩
  | ends n recorded hstage hrecorded =>
    refine ⟨h.submits, fun j hj => ?_⟩
    simp only [Traffic.finish, requests_set] at hj
    split at hj
    · simp [Progress.Waiting] at hj
    next hne =>
      refine not_holding_record (h.waiting j hj) fun hfailure hopens => ?_
      exact (hrecorded hcovered).2 hfailure hopens j hne hj
  | wait seconds hle => exact ⟨h.submits, fun j hj => not_holding_later (h.waiting j hj) (by linarith)⟩

/-- A request has one outcome once it ends. -/
def Recorded (s : Traffic Values) : Prop := ∀ n, (s.requests n).records = if (s.requests n).stage = .ended then 1 else 0

theorem Recorded.move (h : Recorded s) (hmove : Move s a s') (hcovered : Covered s a) : Recorded s' := by
  intro j
  cases hmove with
  | call n kind halone =>
    unfold Traffic.check
    dsimp only
    split <;> by_cases hj : j = n <;> simp [hj, h j]
  | task n stage hwaiting hstage =>
    simp only [Traffic.submitTask, requests_set]
    split
    next hj =>
      have hn := h n
      rcases hwaiting with hn' | hn' | hn' <;> rcases hstage with rfl | rfl <;> simp_all
    next => exact h j
  | connected n hstage =>
    rw [requests_set]
    split
    next =>
      have hn := h n
      simp_all
    next => exact h j
  | ends n recorded hstage hrecorded =>
    simp only [Traffic.finish, requests_set]
    split
    next =>
      have hn := h n
      have hsome := (hrecorded hcovered).1
      rcases hstage with hstage | hstage <;> simp_all
    next => exact h j
  | wait seconds hle => exact h j

/-- At most one probe is outstanding. -/
def OneProbe (s : Traffic Values) : Prop := ∀ n j, s.Outstanding n → s.Outstanding j → n = j

theorem outstanding_set {p : Progress} :
    (s.set n p).Outstanding j ↔ if j = n then p.probe = true ∧ p.records = 0 else s.Outstanding j := by
  unfold Traffic.Outstanding
  rw [requests_set]
  split <;> rfl

theorem OneProbe.set (h : OneProbe s) {p : Progress}
    (hp : p.probe = true → p.records = 0 → s.Outstanding n ∨ ∀ j, ¬ s.Outstanding j) : OneProbe (s.set n p) := by
  intro i j hi hj
  rw [outstanding_set] at hi hj
  split at hi
  next hin =>
    split at hj
    next hjn => rw [hin, hjn]
    next =>
      rcases hp hi.1 hi.2 with hn | hnone
      · rw [hin]
        exact h n j hn hj
      · exact absurd hj (hnone j)
  next =>
    split at hj
    next hjn =>
      rcases hp hj.1 hj.2 with hn | hnone
      · rw [hjn]
        exact h i n hi hn
      · exact absurd hi (hnone i)
    next => exact h i j hi hj

theorem OneProbe.move (h : OneProbe s) (hmove : Move s a s') (hcovered : Covered s a) : OneProbe s' := by
  cases hmove with
  | call n kind halone =>
    unfold Traffic.check
    dsimp only
    split
    · refine OneProbe.set (s := { s with breaker := s.breaker.promote s.clock }) h fun hprobe => ?_
      cases hprobe
    · refine OneProbe.set (s := { s with breaker := s.breaker.promote s.clock }) h fun hprobe _ => ?_
      exact .inr (halone hcovered (of_decide_eq_true hprobe))
  | task n stage hwaiting hstage =>
    refine OneProbe.set (s := { s with submittedOpen := s.submittedOpen || Holding s.clock s.breaker }) h fun hprobe hzero => ?_
    exact .inl ⟨hprobe, hzero⟩
  | connected n hstage => exact h.set fun hprobe hzero => .inl ⟨hprobe, hzero⟩
  | ends n recorded hstage hrecorded =>
    refine OneProbe.set (s := { s with breaker := record s.clock s.breaker recorded }) h fun hprobe hzero => ?_
    exact .inl ⟨hprobe, (Nat.add_eq_zero_iff.1 hzero).1⟩
  | wait seconds hle => exact h

/-- In every run whose steps are all covered, the law holds in every state. -/
theorem guarded_of_reach (h : Reach step Covered ({} : Traffic Values) s) : Guarded s := by
  have hkept : SubmitSafe s ∧ Recorded s ∧ OneProbe s := by
    refine h.invariant (I := fun s => SubmitSafe s ∧ Recorded s ∧ OneProbe s) ⟨⟨rfl, fun n hn => ?_⟩, fun n => rfl, ?_⟩ ?_
    · simp [Progress.Waiting] at hn
    · rintro n j ⟨hprobe, -⟩
      cases hprobe
    · intro s a s' ⟨hsubmit, hrecorded, hprobe⟩ ha hstep
      have hmove := step_move hstep
      exact ⟨hsubmit.move hmove ha, hrecorded.move hmove ha, hprobe.move hmove ha⟩
  obtain ⟨hsubmit, hrecorded, hprobe⟩ := hkept
  exact ⟨hsubmit.submits, fun _ => hprobe, fun n _ => hrecorded n⟩

/-- A quote that is fetched without a failure. -/
theorem guarded_of_quote : ∃ s, Reach step Covered ({} : Traffic Nat) s ∧ (s.requests 0).stage = .ended ∧ Guarded s := by
  have hcall : Reach step Covered ({} : Traffic Nat) _ :=
    Reach.start.step (a := (.call 0 .getLatestBar : Act Nat)) (fun hhalf => by cases hhalf) rfl
  have hconnect := hcall.step (a := (.connect 0 : Act Nat)) trivial rfl
  have hvalidated := hconnect.step (a := (.validated 0 true : Act Nat)) (fun hfailed => by cases hfailed) rfl
  have hsubmit := hvalidated.step (a := (.submit 0 : Act Nat)) trivial rfl
  have hanswered := hsubmit.step (a := (.answered 0 (.latest .data) : Act Nat)) ⟨rfl, fun hfailure => by cases hfailure⟩ rfl
  exact ⟨_, hanswered, rfl, guarded_of_reach hanswered⟩

/-- A request that finds no connection. -/
def failing (n : Nat) : List (Act Nat) := [.call n .getLatestBar, .connect n, .validated n false]

/-- Five requests fail, a minute passes, and two more come. -/
def twoProbes : List (Act Nat) :=
  (List.range 5).flatMap failing ++ [.wait 60, .call 5 .fetchHistorical, .call 6 .getLatestBar]

/-- Both are let through while the breaker is half-open. -/
theorem not_guarded : ¬ ∀ s, Reach step AnyStep ({} : Traffic Nat) s → Guarded s := by
  intro hall
  obtain ⟨s, hreach, hs⟩ := exists_reach step AnyStep ({} : Traffic Nat) twoProbes
    (fun s => s.breaker.state = .halfOpen ∧ ((s.requests 5).probe ∧ (s.requests 5).records = 0) ∧
      (s.requests 6).probe ∧ (s.requests 6).records = 0) (by decide +kernel)
  obtain ⟨hhalf, hfive, hsix⟩ := of_decide_eq_true hs
  cases (hall s hreach).probes hhalf 5 6 hfive hsix

end PearlAlgo.BreakerProbes
