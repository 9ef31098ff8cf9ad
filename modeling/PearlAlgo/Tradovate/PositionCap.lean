import PearlAlgo.Tradovate.Segments

/-!
# The position cap

The cap check compares two numbers with `max_positions`, one after the other: the pending counter, and
the total of the position snapshot. It adds up neither, and it leaves out the new order's own size and
the entries that other calls carry between their cap check and the pending counter, or that the broker
has accepted and not filled. `acceptances_le_cap` says when the cap holds all the same: the snapshot
covers everything held and in flight, and the order is one contract.
-/

namespace PearlAlgo
open Py Coop

/-- With this entry the account stays within the cap. -/
def Acceptance.WithinCap (cfg : ExecutionConfig) (a : Acceptance) : Prop :=
  a.held + a.inFlight + a.qty ≤ cfg.maxPositions

instance (cfg : ExecutionConfig) (a : Acceptance) : Decidable (a.WithinCap cfg) :=
  inferInstanceAs (Decidable (_ ≤ _))

/-- When the snapshot is below the cap, it counts all that is held and in flight, and the order is one
contract. -/
def Covers (cfg : ExecutionConfig) (sig : Signal) (w : From Answer) (s₀ : World) : Prop :=
  (totalAbsPos (snapshot w s₀) : Int) < cfg.maxPositions →
    s₀.book.exposure + s₀.book.inFlight ≤ totalAbsPos (snapshot w s₀) ∧ (sig.orderQty cfg).toOption.getD 0 ≤ 1

instance (cfg : ExecutionConfig) (sig : Signal) (w : From Answer) (s₀ : World) :
    Decidable (Covers cfg sig w s₀) :=
  inferInstanceAs (Decidable (_ → _ ∧ _))

/-- The cap checks of this step read a snapshot that covers the account, and no call reverses. -/
def Accounted (cfg : ExecutionConfig) (v : AdapterView) : AdapterAct → Prop
  | .spawn (.placeBracket sig uuid) => Admitted cfg sig (sig.idOr uuid) v.shared →
    ¬ Reverses cfg sig (sig.idOr uuid) .start v.shared ∧ Covers cfg sig .start v.shared
  | .resume i ans =>
    match v.calls[i]? with
    | some (.placeBracket sig uuid, .waiting q) =>
      ¬ Reverses cfg sig (sig.idOr uuid) (.answer q (ans q)) v.shared ∧
        (q = .getPositions .guard → Covers cfg sig (.answer q (ans q)) v.shared)
    | _ => True
  | _ => True

instance (cfg : ExecutionConfig) (v : AdapterView) (a : AdapterAct) : Decidable (Accounted cfg v a) :=
  match a with
  | .spawn (.placeBracket sig uuid) => inferInstanceAs (Decidable (Admitted cfg sig (sig.idOr uuid) v.shared →
    ¬ Reverses cfg sig (sig.idOr uuid) .start v.shared ∧ Covers cfg sig .start v.shared))
  | .resume i ans =>
    match h : v.calls[i]? with
    | some (.placeBracket sig uuid, .waiting q) =>
      decidable_of_iff (¬ Reverses cfg sig (sig.idOr uuid) (.answer q (ans q)) v.shared ∧
        (q = .getPositions .guard → Covers cfg sig (.answer q (ans q)) v.shared)) (by simp only [Accounted, h])
    | some (.placeBracket _ _, .done _) | some (.cancelAll, _) | some (.flattenAllPositions, _)
      | some (.getPositions _, _) | none => .isTrue (by simp only [Accounted, h])
  | .spawn .cancelAll | .spawn .flattenAllPositions | .spawn (.getPositions _) | .env _ => .isTrue trivial

theorem Accepts.withinCap {cfg : ExecutionConfig} {sig : Signal} {w : From Answer} {s₀ s : World}
    (h : Accepts cfg sig w s₀ s) (hc : Covers cfg sig w s₀)
    (hold : ∀ a ∈ s₀.book.acceptances, a.WithinCap cfg) : ∀ a ∈ s.book.acceptances, a.WithinCap cfg := by
  intro a ha
  rw [h.entry] at ha
  rcases List.mem_cons.1 ha with rfl | ha
  · obtain ⟨hcover, hone⟩ := hc h.below
    have := h.below
    simp only [Acceptance.WithinCap]
    omega
  · exact hold a ha

theorem settle_acceptances (l : List Nat) (b : Book) :
    (l.foldl (fun b n => b.settle n) b).acceptances = b.acceptances := by
  induction l generalizing b with
  | nil => rfl
  | cons n l ih => exact (ih (b.settle n)).trans rfl

theorem envStep_acceptances (cfg : ExecutionConfig) (e : EnvEvent) (w : World) :
    (envStep cfg e w).book.acceptances = w.book.acceptances := by
  cases e with
  | wsEvent e => rw [envStep, (handleWsEvent_frame e w).2.2.2.2]
  | broker held settled => exact settle_acceptances settled w.book
  | _ => rfl

theorem withinCap_step {cfg : ExecutionConfig} (v : AdapterView) (a : AdapterAct) (v' : AdapterView)
    (h : ∀ a ∈ v.shared.book.acceptances, a.WithinCap cfg) (hP : Accounted cfg v a)
    (hm : (machine cfg).Move (contract cfg) v a v') :
    ∀ a ∈ v'.shared.book.acceptances, a.WithinCap cfg := by
  cases hm with
  | @spawn s' c t hk =>
    have other {d : Bool} (hk : OtherSeg d .start v.shared s' t) :
        ∀ a ∈ s'.book.acceptances, a.WithinCap cfg := by rw [hk.book]; exact h
    cases c with
    | placeBracket sig uuid =>
      rcases hk.acceptances with heq | ⟨hacc, hadm⟩
      · show ∀ a ∈ s'.book.acceptances, a.WithinCap cfg
        rw [heq]; exact h
      · exact hacc.withinCap (hP (hadm rfl)).2 h
    | cancelAll => exact other hk
    | flattenAllPositions => exact other hk
    | getPositions forceRest => exact other hk
  | @resume s' i ans c q t hi hk =>
    have other {d : Bool} (hk : OtherSeg d (.answer q (ans q)) v.shared s' t) :
        ∀ a ∈ s'.book.acceptances, a.WithinCap cfg := by rw [hk.book]; exact h
    cases c with
    | placeBracket sig uuid =>
      simp only [Accounted, hi] at hP
      rcases hk.acceptances with heq | ⟨hacc, -⟩
      · show ∀ a ∈ s'.book.acceptances, a.WithinCap cfg
        rw [heq]; exact h
      · refine hacc.withinCap ?_ h
        have hreader := hacc.reader
        generalize ans q = r at *
        cases hreader with
        | listing reply => exact hP.2 rfl
        | flatten hq => exact absurd (.inl hq) hP.1
    | cancelAll => exact other hk
    | flattenAllPositions => exact other hk
    | getPositions forceRest => exact other hk
  | @env e =>
    show ∀ a ∈ (envStep cfg e v.shared).book.acceptances, a.WithinCap cfg
    rw [envStep_acceptances]
    exact h

/-- In every run whose cap checks read a snapshot that covers the account, with orders of one contract and
without reversal, every accepted entry keeps the account within the cap. -/
theorem acceptances_le_cap {cfg : ExecutionConfig} {t : ℚ} {acts : List AdapterAct}
    {s : Sys World Answer Returned Call EnvEvent} (hr : Runs cfg t acts s)
    (hP : Machine.Admits (machine cfg) (Accounted cfg) (start cfg t) acts) :
    ∀ a ∈ s.shared.book.acceptances, a.WithinCap cfg :=
  (Machine.invariant (I := fun v => ∀ a ∈ v.shared.book.acceptances, a.WithinCap cfg) (machine_obeys cfg)
    withinCap_step (Machine.ok_init _) (fun _ h => absurd h List.not_mem_nil) hP hr).2

theorem acceptances_le_cap_placeOne :
    ∃ s, Runs sampleConfig 0 placeOne s ∧ ∀ a ∈ s.shared.book.acceptances, a.WithinCap sampleConfig := by
  obtain ⟨s, hs, -⟩ := exists_runs sampleConfig 0 placeOne (fun _ => true) (by decide +kernel)
  exact ⟨s, hs, acceptances_le_cap hs (by decide +kernel)⟩

/-- With a cap of one contract: two calls that both wait for the positions are both accepted, and so is an
order of three contracts where one order may have three. -/
theorem acceptance_exceeds_cap :
    (∃ s, Runs sampleConfig 0 (connect ++ [.spawn (.placeBracket (sampleSignal "s1") ""),
        .spawn (.placeBracket (sampleSignal "s2") ""), .resume 0 acceptAll, .resume 1 acceptAll]) s ∧
      ∃ a ∈ s.shared.book.acceptances, ¬ a.WithinCap sampleConfig) ∧
    ∃ s, Runs { sampleConfig with maxPositionSizePerOrder := 3 } 0 (connect ++
        [.spawn (.placeBracket { sampleSignal "s1" with positionSize := some (.ok 3) } ""),
          .resume 0 acceptAll]) s ∧
      ∃ a ∈ s.shared.book.acceptances, ¬ a.WithinCap { sampleConfig with maxPositionSizePerOrder := 3 } := by
  have exceeds {cfg acts} (h : ((machine cfg).run (start cfg 0) acts).map
      (fun s => decide (∃ a ∈ s.shared.book.acceptances, ¬ a.WithinCap cfg)) = some true) :
      ∃ s, Runs cfg 0 acts s ∧ ∃ a ∈ s.shared.book.acceptances, ¬ a.WithinCap cfg := by
    obtain ⟨s, hs, h⟩ := exists_runs cfg 0 acts _ h
    exact ⟨s, hs, of_decide_eq_true h⟩
  exact ⟨exceeds (by decide +kernel), exceeds (by decide +kernel)⟩

end PearlAlgo
