import PearlAlgo.Tradovate.Segments

/-!
# Direction of an entry

The preconditions read the direction in lower case, `place_bracket` reads it as it stands, and whatever is
not `long` there becomes a `Sell`. So a signal with direction `LONG` passes as a long one and is sent as a
short one with the prices of a long one. `consistent_iff` says for which signals the entry and its legs
agree with the check.
-/

namespace PearlAlgo
open Py Coop

/-- The entry goes the way the preconditions took the signal to go, its legs go the other way, and the
target and the stop are on the profit and the loss side of the entry. -/
structure Consistent (sig : Signal) (b : OsoBody) : Prop where
  buy : b.action = .buy ↔ sig.checkedDirection = "long"
  sell : b.action = .sell ↔ sig.checkedDirection = "short"
  prices : ∃ entry sl tp target stop, sig.prices = .ok (entry, sl, tp) ∧
    b.bracket1 = some target ∧ b.bracket2 = some stop ∧
    target.action = b.action.opposite ∧ stop.action = b.action.opposite ∧
    target.price = some tp ∧ stop.stopPrice = some sl ∧
    (b.action = .buy → sl < entry ∧ entry < tp) ∧ (b.action = .sell → tp < entry ∧ entry < sl)

theorem entryOrder_ok {cfg : ExecutionConfig} {sig : Signal} {sid : String} {o : EntryOrder}
    (h : sig.entryOrder cfg sid = .ok o) :
    o.direction = sig.rawDirection ∧ sig.prices = .ok (o.entryPrice, o.stopLoss, o.takeProfit) := by
  simp only [Signal.entryOrder] at h
  split at h
  · cases h
  · cases h
  next hprices _ =>
    split at h
    · cases h
    · cases h; exact ⟨rfl, hprices⟩

/-- A direction that is `long` as it stands is `long` in lower case, so no direction is both `long` and, in
lower case, `short`. -/
theorem checkedDirection_of_rawDirection {sig : Signal} (h : sig.rawDirection = "long")
    (hc : sig.checkedDirection = "long" ∨ sig.checkedDirection = "short") :
    sig.checkedDirection = "long" := by
  cases hd : sig.direction with
  | none =>
    have : sig.checkedDirection = "" := by
      rw [Signal.checkedDirection, hd]
      decide +kernel
    rw [this] at hc
    exact absurd hc (by decide)
  | some d =>
    rw [Signal.rawDirection, hd] at h
    have hd' : d = "long" := h
    rw [Signal.checkedDirection, hd, hd']
    decide +kernel

theorem consistent_body_iff {cfg : ExecutionConfig} {sig : Signal} {sid symbol : String} {o : EntryOrder}
    (hb : AdapterBase.checkBracket sig = .ok .preconditionsPassed) (ho : sig.entryOrder cfg sid = .ok o) :
    Consistent sig (o.body symbol) ↔ sig.rawDirection = "long" ∨ sig.checkedDirection = "short" := by
  obtain ⟨entry, sl, tp, hprices, -, hsl, htp, hge, -⟩ := AdapterBase.checkBracket_passed hb
  obtain ⟨hdir, hprices'⟩ := entryOrder_ok ho
  obtain ⟨rfl, rfl, rfl⟩ : entry = o.entryPrice ∧ sl = o.stopLoss ∧ tp = o.takeProfit := by
    simpa using hprices.symm.trans hprices'
  have haction : (o.body symbol).action = entryAction sig.rawDirection := by rw [← hdir]; rfl
  have hchecked : sig.checkedDirection = "long" ∨ sig.checkedDirection = "short" := hge.imp And.left And.left
  constructor
  · intro h
    refine hchecked.imp_left fun hlong => ?_
    have hbuy := h.buy.2 hlong
    rw [haction, entryAction] at hbuy
    split at hbuy
    · assumption
    · cases hbuy
  · intro h
    -- the entry is a buy exactly when the check took the signal to be long
    have hcase : sig.rawDirection = "long" ∧ sig.checkedDirection = "long" ∨
        sig.rawDirection ≠ "long" ∧ sig.checkedDirection = "short" := by
      by_cases hraw : sig.rawDirection = "long"
      · exact .inl ⟨hraw, checkedDirection_of_rawDirection hraw hchecked⟩
      · exact .inr ⟨hraw, h.resolve_left hraw⟩
    have hlegs : ∃ target stop, (o.body symbol).bracket1 = some target ∧
        (o.body symbol).bracket2 = some stop ∧ target.action = (o.body symbol).action.opposite ∧
        stop.action = (o.body symbol).action.opposite ∧ target.price = some o.takeProfit ∧
        stop.stopPrice = some o.stopLoss := by
      simp only [EntryOrder.body, placeOsoBody, htp, hsl, ↓reduceIte, Option.map_some]
      exact ⟨_, _, rfl, rfl, rfl, rfl, rfl, rfl⟩
    obtain ⟨target, stop, h₁, h₂, ha₁, ha₂, hp₁, hp₂⟩ := hlegs
    rcases hcase with ⟨hraw, hc⟩ | ⟨hraw, hc⟩
    · have hbuy : (o.body symbol).action = .buy := by rw [haction, entryAction, if_pos hraw]
      have hgeo : o.stopLoss < o.entryPrice ∧ o.entryPrice < o.takeProfit := by
        rcases hge with h | h
        · exact h.2
        · rw [hc] at h; exact absurd h.1 (by decide)
      refine ⟨by simp [hbuy, hc], by simp [hbuy, hc], ?_⟩
      exact ⟨_, _, _, target, stop, hprices, h₁, h₂, ha₁, ha₂, hp₁, hp₂, fun _ => hgeo,
        fun hs => by rw [hbuy] at hs; cases hs⟩
    · have hsell : (o.body symbol).action = .sell := by rw [haction, entryAction, if_neg hraw]
      have hgeo : o.takeProfit < o.entryPrice ∧ o.entryPrice < o.stopLoss := by
        rcases hge with h | h
        · rw [hc] at h; exact absurd h.1 (by decide)
        · exact h.2
      refine ⟨by simp [hsell, hc], by simp [hsell, hc], ?_⟩
      exact ⟨_, _, _, target, stop, hprices, h₁, h₂, ha₁, ha₂, hp₁, hp₂,
        fun hs => (by rw [hsell] at hs; cases hs), fun _ => hgeo⟩

/-- The signal and the body of the bracket that this turn sent, if it sent one. -/
def sentBody : AdapterTurn → Option (Signal × OsoBody)
  | .seg (.placeBracket sig _) _ _ _ (.waiting (.placeOso b)) => some (sig, b)
  | _ => none

/-- In every run, a bracket that is sent agrees with the preconditions exactly when the signal's direction
is `long` as it stands, or `short` in any case. -/
theorem consistent_iff {cfg : ExecutionConfig} {t : ℚ} {acts : List AdapterAct}
    {s : Sys World Answer Returned Call EnvEvent} (hr : Runs cfg t acts s) {turn : AdapterTurn}
    (ht : turn ∈ s.log) {sig : Signal} {b : OsoBody} (hsent : sentBody turn = some (sig, b)) :
    Consistent sig b ↔ sig.rawDirection = "long" ∨ sig.checkedDirection = "short" := by
  unfold sentBody at hsent
  split at hsent
  next sig uuid w s₀ s₁ b =>
    cases hsent
    have hk : BracketSeg cfg sig (sig.idOr uuid) w s₀ s₁ (.waiting (.placeOso b)) :=
      Machine.turns (machine_obeys cfg) hr _ _ _ _ _ ht
    obtain ⟨o, symbol, ho, rfl⟩ := hk.sent b rfl
    exact consistent_body_iff (hk.bracket rfl) ho
  next => cases hsent

theorem exists_sentBody (cfg : ExecutionConfig) (t : ℚ) (acts : List AdapterAct)
    (p : Signal × OsoBody → Bool)
    (h : ((machine cfg).run (start cfg t) acts).map (fun s => s.log.any fun turn => (sentBody turn).any p) =
      some true) :
    ∃ s, Runs cfg t acts s ∧ ∃ turn ∈ s.log, ∃ sig b, sentBody turn = some (sig, b) ∧ p (sig, b) = true := by
  obtain ⟨s, hs, h⟩ := exists_runs cfg t acts _ h
  obtain ⟨turn, ht, h⟩ := List.any_eq_true.1 h
  obtain ⟨⟨sig, b⟩, hb, hp⟩ := (Option.any_eq_true _ _).1 h
  exact ⟨s, hs, turn, ht, sig, b, hb, hp⟩

theorem consistent_iff_placeOne :
    ∃ s, Runs sampleConfig 0 placeOne s ∧ ∃ turn ∈ s.log, ∃ sig b, sentBody turn = some (sig, b) ∧
      (Consistent sig b ↔ sig.rawDirection = "long" ∨ sig.checkedDirection = "short") := by
  obtain ⟨s, hs, turn, ht, sig, b, hb, -⟩ := exists_sentBody sampleConfig 0 placeOne (fun _ => true)
    (by decide +kernel)
  exact ⟨s, hs, turn, ht, sig, b, hb, consistent_iff hs ht hb⟩

/-- A signal with direction `LONG` is checked as a long one and sent as a `Sell`. -/
theorem inconsistent_direction :
    ∃ s, Runs sampleConfig 0 (connect ++
        [.spawn (.placeBracket { sampleSignal "s1" with direction := some "LONG" } ""), .resume 0 acceptAll,
          .resume 0 acceptAll]) s ∧
      ∃ turn ∈ s.log, ∃ sig b, sentBody turn = some (sig, b) ∧ ¬ Consistent sig b := by
  obtain ⟨s, hs, turn, ht, sig, b, hb, hp⟩ := exists_sentBody sampleConfig 0 (connect ++
      [.spawn (.placeBracket { sampleSignal "s1" with direction := some "LONG" } ""), .resume 0 acceptAll,
        .resume 0 acceptAll])
    (fun e => e.2.action = .sell ∧ e.1.checkedDirection = "long") (by decide +kernel)
  simp only [decide_eq_true_eq] at hp
  refine ⟨s, hs, turn, ht, sig, b, hb, fun h => ?_⟩
  have hbuy := h.buy.2 hp.2
  rw [hp.1] at hbuy
  cases hbuy

end PearlAlgo
