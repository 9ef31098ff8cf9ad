import Mathlib.Data.List.Induction
import PearlAlgo.Tradovate.OrphanedStops

/-!
# The emergency stops of the protection guard (`market_agent/signal_handler.py`)

When the strict guard blocks a signal, `_place_emergency_stop_on_naked_positions` asks the broker for a stop for each
open position. The handler keeps the contracts for which one was accepted, and never removes any.
-/

namespace PearlAlgo.EmergencyStops

/-- How a placement ends. Only the cancelling of the task is not caught. -/
inductive Placement
  | placed
  | raised
  | cancelled
deriving DecidableEq

/-- A placement, with the contract of the position that it was for, which the request does not name. -/
structure StopRequest where
  contractId : Ident
  stop : EmergencyStop
  ending : Placement

structure Handler where
  /-- `_emergency_stop_placed_for` -/
  placedFor : List Ident := []
  requests : List StopRequest := []

/-- One check of the guard: the strict mode, the summary if there is one, the orders that the live check finds, and what
the adapter has. -/
structure Check where
  enforceGuard : Bool
  summary : Option AccountSummary
  orders : List RawOrder
  hasClient : Bool
  contractSymbol : Option String

namespace Check
variable (c : Check)

def openPositions : List AccountPosition :=
  match c.summary with
  | none => []
  | some summary => summary.positions.filter fun p => p.netPos ≠ 0

/-- The guard blocks the signal. -/
def blocked : Bool :=
  match c.summary with
  | none => false
  | some summary => !enforceTradovateProtectionGuard c.enforceGuard summary c.orders

end Check

namespace Handler

/-- The request for a position, which ends as `ending` says. -/
def request (symbol : String) (p : AccountPosition) (ending : Placement) (h : Handler) : Handler where
  placedFor := if ending = .placed then h.placedFor ++ [p.contractId] else h.placedFor
  requests := h.requests ++ [⟨p.contractId, emergencyStop (some symbol) p, ending⟩]

/-- The loop over the positions; `ending n` is how the `n`-th placement of the run ends. -/
def placeStops (ending : Nat → Placement) (symbol : String) : List AccountPosition → Handler → Handler
  | [], h => h
  | p :: rest, h =>
    if h.placedFor.contains p.contractId then placeStops ending symbol rest h
    else if p.netPrice ≤ 0 ∨ p.netPos = 0 then placeStops ending symbol rest h
    else
      match ending h.requests.length with
      | .cancelled => h.request symbol p .cancelled
      | e => placeStops ending symbol rest (h.request symbol p e)

/-- `_place_emergency_stop_on_naked_positions` -/
def placeEmergencyStop (ending : Nat → Placement) (hasClient : Bool) (contractSymbol : Option String)
    (openPositions : List AccountPosition) (h : Handler) : Handler :=
  match contractSymbol with
  | none => h
  | some symbol => if hasClient ∧ symbol ≠ "" then placeStops ending symbol openPositions h else h

def check (ending : Nat → Placement) (h : Handler) (c : Check) : Handler :=
  if c.blocked then h.placeEmergencyStop ending c.hasClient c.contractSymbol c.openPositions else h

/-- Checks one after the other. -/
def run (ending : Nat → Placement) (checks : List Check) : Handler := checks.foldl (check ending) {}

end Handler

/-! ### What one check adds -/

/-- The position is open, with a price of its entry. -/
def Exposed (p : AccountPosition) : Prop := 0 < p.netPrice ∧ p.netPos ≠ 0

/-- No request follows an accepted one for its contract, and the set is that of the contracts with an accepted one. -/
structure Once (h : Handler) : Prop where
  pairwise : h.requests.Pairwise fun r r' => r.ending = .placed → r.contractId ≠ r'.contractId
  placed : ∀ k, k ∈ h.placedFor ↔ ∃ r ∈ h.requests, r.ending = .placed ∧ r.contractId = k

/-- What the loop adds: each request is for one of the positions, and each of them that is exposed gets one, unless one
was accepted before for its contract or the task is cancelled. -/
structure Added (symbol : String) (positions : List AccountPosition) (h h' : Handler) (added : List StopRequest) :
    Prop where
  requests : h'.requests = h.requests ++ added
  sound : ∀ r ∈ added, ∃ p ∈ positions, Exposed p ∧ r.contractId = p.contractId ∧ r.stop = emergencyStop (some symbol) p
  complete : (∀ r ∈ added, r.ending ≠ .cancelled) → ∀ p ∈ positions, Exposed p →
    p.contractId ∈ h.placedFor ∨ ∃ r ∈ added, r.contractId = p.contractId

namespace Once
variable {h : Handler}

theorem start : Once {} := ⟨List.Pairwise.nil, by simp⟩

theorem request (hinv : Once h) (symbol : String) {p : AccountPosition} (hp : p.contractId ∉ h.placedFor)
    (e : Placement) : Once (h.request symbol p e) where
  pairwise := by
    rw [Handler.request, List.pairwise_append]
    refine ⟨hinv.pairwise, List.pairwise_singleton _ _, fun r hr r' hr' hplaced heq => ?_⟩
    rw [List.mem_singleton.1 hr'] at heq
    exact hp ((hinv.placed _).2 ⟨r, hr, hplaced, heq⟩)
  placed k := by
    simp only [Handler.request, List.mem_append, List.mem_singleton]
    constructor
    · intro hk
      by_cases he : e = .placed
      · rw [if_pos he, List.mem_append, List.mem_singleton] at hk
        rcases hk with hk | rfl
        · obtain ⟨r, hr, hrk⟩ := (hinv.placed k).1 hk
          exact ⟨r, .inl hr, hrk⟩
        · exact ⟨_, .inr rfl, he, rfl⟩
      · rw [if_neg he] at hk
        obtain ⟨r, hr, hrk⟩ := (hinv.placed k).1 hk
        exact ⟨r, .inl hr, hrk⟩
    · rintro ⟨r, hr | rfl, hplaced, hk⟩
      · have hin := (hinv.placed k).2 ⟨r, hr, hplaced, hk⟩
        split
        · exact List.mem_append_left _ hin
        · exact hin
      · rw [if_pos hplaced]
        exact List.mem_append_right _ (List.mem_singleton.2 hk.symm)

end Once

namespace Added
variable {symbol : String} {p : AccountPosition} {rest : List AccountPosition} {h h' : Handler}
  {added : List StopRequest}

theorem skip (hadded : Added symbol rest h h' added) (hp : Exposed p → p.contractId ∈ h.placedFor) :
    Added symbol (p :: rest) h h' added where
  requests := hadded.requests
  sound r hr := by
    obtain ⟨q, hq, hr⟩ := hadded.sound r hr
    exact ⟨q, List.mem_cons_of_mem _ hq, hr⟩
  complete hended q hq hexposed := by
    rcases List.mem_cons.1 hq with rfl | hq
    · exact .inl (hp hexposed)
    · exact hadded.complete hended q hq hexposed

theorem cons {e : Placement} (hadded : Added symbol rest (h.request symbol p e) h' added) (hp : Exposed p) :
    Added symbol (p :: rest) h h' (⟨p.contractId, emergencyStop (some symbol) p, e⟩ :: added) where
  requests := by
    rw [hadded.requests, Handler.request, List.append_assoc, List.singleton_append]
  sound r hr := by
    rcases List.mem_cons.1 hr with rfl | hr
    · exact ⟨p, List.mem_cons_self, hp, rfl, rfl⟩
    · obtain ⟨q, hq, hr⟩ := hadded.sound r hr
      exact ⟨q, List.mem_cons_of_mem _ hq, hr⟩
  complete hended q hq hexposed := by
    rcases List.mem_cons.1 hq with rfl | hq
    · exact .inr ⟨_, List.mem_cons_self, rfl⟩
    rcases hadded.complete (fun r hr => hended r (List.mem_cons_of_mem _ hr)) q hq hexposed with hin | ⟨r, hr, hrq⟩
    · simp only [Handler.request] at hin
      split at hin
      · rcases List.mem_append.1 hin with hin | hin
        · exact .inl hin
        · exact .inr ⟨_, List.mem_cons_self, (List.mem_singleton.1 hin).symm⟩
      · exact .inl hin
    · exact .inr ⟨r, List.mem_cons_of_mem _ hr, hrq⟩

theorem cancelled (hp : Exposed p) :
    Added symbol (p :: rest) h (h.request symbol p .cancelled)
      [⟨p.contractId, emergencyStop (some symbol) p, .cancelled⟩] where
  requests := rfl
  sound r hr := ⟨p, List.mem_cons_self, hp, by simp [List.mem_singleton.1 hr]⟩
  complete hended := absurd rfl (hended _ (List.mem_singleton.2 rfl))

end Added

theorem placeStops_spec (ending : Nat → Placement) (symbol : String) (positions : List AccountPosition) {h : Handler}
    (hinv : Once h) :
    Once (h.placeStops ending symbol positions) ∧
      ∃ added, Added symbol positions h (h.placeStops ending symbol positions) added := by
  induction positions generalizing h with
  | nil => exact ⟨hinv, [], by simp [Handler.placeStops], by simp, by simp⟩
  | cons p rest ih =>
    rw [Handler.placeStops]
    simp only [List.contains_iff_mem]
    split
    next hplaced =>
      obtain ⟨honce, added, hadded⟩ := ih hinv
      exact ⟨honce, added, hadded.skip fun _ => hplaced⟩
    next hplaced =>
      split
      next hflat =>
        obtain ⟨honce, added, hadded⟩ := ih hinv
        refine ⟨honce, added, hadded.skip fun hexposed => absurd hflat ?_⟩
        simp [hexposed.1, hexposed.2]
      next hflat =>
        have hexposed : Exposed p := by simpa [Exposed] using hflat
        split
        · exact ⟨hinv.request symbol hplaced _, _, .cancelled hexposed⟩
        next e _ =>
          obtain ⟨honce, added, hadded⟩ := ih (hinv.request symbol hplaced (ending h.requests.length))
          exact ⟨honce, _, hadded.cons hexposed⟩

/-- The check asks for stops: the guard blocks, and the adapter has a client and a contract. -/
def Check.Acts (c : Check) (symbol : String) : Prop :=
  c.blocked = true ∧ c.hasClient = true ∧ c.contractSymbol = some symbol ∧ symbol ≠ ""

/-- A check changes nothing, or it acts and adds what its loop adds. -/
theorem check_spec (ending : Nat → Placement) (c : Check) {h : Handler} (hinv : Once h) :
    Once (h.check ending c) ∧ ((¬ (∃ symbol, c.Acts symbol) ∧ h.check ending c = h) ∨
      ∃ symbol added, c.Acts symbol ∧ Added symbol c.openPositions h (h.check ending c) added) := by
  unfold Handler.check
  split
  next hblocked =>
    unfold Handler.placeEmergencyStop
    split
    next hnone => exact ⟨hinv, .inl ⟨by simp [Check.Acts, hnone], rfl⟩⟩
    next symbol hsome =>
      split
      next hready =>
        obtain ⟨honce, added, hadded⟩ := placeStops_spec ending symbol c.openPositions hinv
        exact ⟨honce, .inr ⟨symbol, added, ⟨hblocked, hready.1, hsome, hready.2⟩, hadded⟩⟩
      next hready =>
        refine ⟨hinv, .inl ⟨?_, rfl⟩⟩
        rintro ⟨symbol', -, hclient, heq, hne⟩
        cases hsome.symm.trans heq
        exact hready ⟨hclient, hne⟩
  next hpasses => exact ⟨hinv, .inl ⟨fun ⟨_, hacts⟩ => hpasses hacts.1, rfl⟩⟩

theorem once_run (ending : Nat → Placement) (checks : List Check) : Once (Handler.run ending checks) := by
  induction checks using List.reverseRecOn with
  | nil => exact .start
  | append_singleton checks c ih =>
    rw [Handler.run, List.foldl_concat, ← Handler.run]
    exact (check_spec ending c ih).1

/-- After any checks, however the placements end: no request was made for a contract after one was accepted for it. The
next check asks for stops of open positions only, and when it acts and the task is not cancelled, it asks for the stop of
an exposed position exactly if its contract never had one accepted: closed and opened again, it stays without. -/
theorem emergency_stops (ending : Nat → Placement) (checks : List Check) (c : Check) :
    let h := Handler.run ending checks
    let h' := h.check ending c
    (h'.requests.Pairwise fun r r' => r.ending = .placed → r.contractId ≠ r'.contractId) ∧
      ((∀ symbol, ¬ c.Acts symbol) → h' = h) ∧
      ∀ symbol, c.Acts symbol → ∃ added, h'.requests = h.requests ++ added ∧
        (∀ r ∈ added, ∃ p ∈ c.openPositions, Exposed p ∧ r.contractId = p.contractId ∧
          r.stop = emergencyStop (some symbol) p) ∧
        ((∀ r ∈ added, r.ending ≠ .cancelled) → ∀ p ∈ c.openPositions, Exposed p →
          ((∃ r ∈ added, r.contractId = p.contractId) ↔
            ¬ ∃ r ∈ h.requests, r.ending = .placed ∧ r.contractId = p.contractId)) := by
  have hinv := once_run ending checks
  obtain ⟨honce, hstep⟩ := check_spec ending c hinv
  refine ⟨honce.pairwise, fun hidle => ?_, fun symbol hacts => ?_⟩
  · rcases hstep with ⟨-, hsame⟩ | ⟨symbol, -, hacts, -⟩
    · exact hsame
    · exact absurd hacts (hidle symbol)
  · rcases hstep with ⟨hidle, -⟩ | ⟨symbol', added, hacts', hadded⟩
    · exact absurd ⟨symbol, hacts⟩ hidle
    cases hacts.2.2.1.symm.trans hacts'.2.2.1
    refine ⟨added, hadded.requests, hadded.sound, fun hended p hp hexposed => ⟨?_, fun hnever => ?_⟩⟩
    · rintro ⟨r', hr', hcontract'⟩ ⟨r, hr, hplaced, hcontract⟩
      have hpairwise := honce.pairwise
      rw [hadded.requests, List.pairwise_append] at hpairwise
      exact hpairwise.2.2 r hr r' hr' hplaced (hcontract.trans hcontract'.symm)
    · rcases hadded.complete hended p hp hexposed with hin | hasked
      · exact absurd ((hinv.placed _).1 hin) hnever
      · exact hasked

/-- A position of one contract, entered at a price, without any order. -/
def nakedCheck (netPos : Int) (netPrice : ℚ) : Check where
  enforceGuard := true
  summary := some { positions := [{ contractId := some 1, netPos, netPrice }], workingOrders := [] }
  orders := []
  hasClient := true
  contractSymbol := some "MNQH6"

-- a long position, no position, a short one: there is no second stop
example : let checks := [nakedCheck 1 20000, nakedCheck 0 0, nakedCheck (-1) 20100]
    (Handler.run (fun _ => .placed) checks).requests.length = 1 := by
  decide +kernel

end PearlAlgo.EmergencyStops
