import PearlAlgo.Tradovate.Segments

/-!
# Disarmed means no new entry

`disarm` promises that no new orders will be placed, but the armed flag is read once, in the
preconditions of a call, and an entry is sent awaits later. `sent_armed` says when the promise holds:
nothing disarms the adapter while a call is on its way to its order, and no call takes the reversal
branch, which disarms by itself.
-/

namespace PearlAlgo
open Py Coop

/-- Whether the adapter was armed when this turn sent an entry, if it sent one. -/
def sentArmed : AdapterTurn → Option Bool
  | .seg _ _ _ s t => if sends t then some s.base.armed else none
  | .env _ _ _ => none

/-- A call of `place_bracket` that has passed its checks and not sent its order. -/
def Unsent (e : Call × To Request Returned) : Prop :=
  (∃ sig uuid, e.1 = .placeBracket sig uuid) ∧ e.2.isWaiting = true ∧ sends e.2 = false

/-- The action disarms nothing under way: no disarming operation while an order is on its way, and no
reversal. -/
def KeepsArmed (cfg : ExecutionConfig) (v : AdapterView) : AdapterAct → Prop
  | .env .disarm | .spawn .cancelAll | .spawn .flattenAllPositions => ∀ e ∈ v.calls, ¬ Unsent e
  | .spawn (.placeBracket sig uuid) =>
    ¬ Reverses cfg sig (sig.idOr uuid) .start v.shared ∧
      (AutoDisarms cfg sig (sig.idOr uuid) .start v.shared → ∀ e ∈ v.calls, ¬ Unsent e)
  | .resume i ans =>
    match v.calls[i]? with
    | some (.placeBracket sig uuid, .waiting q) =>
      ¬ Reverses cfg sig (sig.idOr uuid) (.answer q (ans q)) v.shared
    | _ => True
  | _ => True

instance (e : Call × To Request Returned) : Decidable (Unsent e) :=
  match e with
  | ⟨.placeBracket sig uuid, t⟩ =>
    decidable_of_iff (t.isWaiting = true ∧ sends t = false) ⟨fun h => ⟨⟨sig, uuid, rfl⟩, h⟩, fun h => h.2⟩
  | ⟨.cancelAll, _⟩ | ⟨.flattenAllPositions, _⟩ | ⟨.getPositions _, _⟩ =>
    isFalse fun ⟨⟨_, _, h⟩, _⟩ => (by cases h)

instance (cfg : ExecutionConfig) (v : AdapterView) (a : AdapterAct) : Decidable (KeepsArmed cfg v a) :=
  match a with
  | .env .disarm | .spawn .cancelAll | .spawn .flattenAllPositions =>
    inferInstanceAs (Decidable (∀ e ∈ v.calls, ¬ Unsent e))
  | .spawn (.placeBracket sig uuid) => inferInstanceAs (Decidable
    (¬ Reverses cfg sig (sig.idOr uuid) .start v.shared ∧
      (AutoDisarms cfg sig (sig.idOr uuid) .start v.shared → ∀ e ∈ v.calls, ¬ Unsent e)))
  | .resume i ans =>
    match h : v.calls[i]? with
    | some (.placeBracket sig uuid, .waiting q) =>
      decidable_of_iff (¬ Reverses cfg sig (sig.idOr uuid) (.answer q (ans q)) v.shared) (by simp only [KeepsArmed, h])
    | some (.placeBracket _ _, .done _) | some (.cancelAll, _) | some (.flattenAllPositions, _)
      | some (.getPositions _, _) | none => .isTrue (by simp only [KeepsArmed, h])
  | .spawn (.getPositions _) | .env .arm | .env .resetDailyCounters | .env (.updateDailyPnl _) | .env (.wsEvent _)
    | .env (.connection _ _) | .env (.elapse _ _) | .env (.setClock _) | .env (.broker _ _) => .isTrue trivial

/-- Every entry was sent armed, and the adapter is armed while one is on its way. -/
structure ArmedInv (v : AdapterView) : Prop where
  sent : ∀ turn ∈ v.log, sentArmed turn ≠ some false
  unsent : ∀ e ∈ v.calls, Unsent e → v.shared.base.armed = true

theorem envStep_armed {cfg : ExecutionConfig} {e : EnvEvent} {w : World} (he : e ≠ .disarm)
    (h : w.base.armed = true) : (envStep cfg e w).base.armed = true := by
  cases e with
  | disarm => exact absurd rfl he
  | arm => unfold envStep AdapterBase.arm; dsimp only; split <;> [rfl; exact h]
  | wsEvent e => rw [envStep, (handleWsEvent_frame e w).1, h]
  | _ => exact h

section
variable {cfg : ExecutionConfig} {sig : Signal} {uuid : String} {v : AdapterView} {s' : World}
  {t : To Request Returned}

theorem ArmedInv.cons (h : ArmedInv v) {c : Call} {w : From Answer} {s₀ : World}
    (hsent : sends t = true → s'.base.armed = true) :
    ∀ turn ∈ Turn.seg c w s₀ s' t :: v.log, sentArmed turn ≠ some false := by
  intro turn ht
  rcases List.mem_cons.1 ht with rfl | ht
  · simp only [sentArmed]
    split
    next hs => simp [hsent hs]
    next => simp
  · exact h.sent turn ht

/-- A call that is let through starts armed and, without reversal, stays so. -/
theorem BracketSeg.spawn_armed (h : BracketSeg cfg sig (sig.idOr uuid) .start v.shared s' t)
    (hrev : ¬ Reverses cfg sig (sig.idOr uuid) .start v.shared) (ht : t.isWaiting = true) :
    s'.base.armed = true := by
  have hadm := h.started rfl ht
  have hauto : ¬ AutoDisarms cfg sig (sig.idOr uuid) .start v.shared := by
    rintro ⟨-, hpnl⟩
    rw [hadm.limits] at hpnl
    cases hpnl
  rw [h.armed hrev hauto]
  exact (AdapterBase.checkLimits_eq_none hadm.limits).2.1

theorem ArmedInv.spawn (h : ArmedInv v) (hk : BracketSeg cfg sig (sig.idOr uuid) .start v.shared s' t)
    (hP : KeepsArmed cfg v (.spawn (.placeBracket sig uuid))) :
    ArmedInv ⟨s', v.calls ++ [(.placeBracket sig uuid, t)],
      .seg (.placeBracket sig uuid) .start v.shared s' t :: v.log⟩ := by
  refine ⟨h.cons fun hs => hk.spawn_armed hP.1 ?_, fun e he hu => ?_⟩
  · cases t <;> [cases hs; rfl]
  · rcases List.mem_append.1 he with he | he
    · rw [hk.armed hP.1 fun hauto => hP.2 hauto e he hu]
      exact h.unsent e he hu
    · rw [List.mem_singleton.1 he] at hu
      exact hk.spawn_armed hP.1 hu.2.1

theorem ArmedInv.resume (h : ArmedInv v) {i : Nat} {ans : (q : Request) → Answer q} {q : Request}
    (hi : v.calls[i]? = some (.placeBracket sig uuid, .waiting q))
    (hk : BracketSeg cfg sig (sig.idOr uuid) (.answer q (ans q)) v.shared s' t)
    (hrev : ¬ Reverses cfg sig (sig.idOr uuid) (.answer q (ans q)) v.shared) :
    ArmedInv ⟨s', v.calls.set i (.placeBracket sig uuid, t),
      .seg (.placeBracket sig uuid) (.answer q (ans q)) v.shared s' t :: v.log⟩ := by
  have harmed : s'.base.armed = v.shared.base.armed :=
    hk.armed hrev fun hauto => hauto.elim
  -- a call that goes on had not sent its order before
  have hold (ht : t.isWaiting = true) : v.shared.base.armed = true := by
    refine h.unsent _ (List.mem_of_getElem? hi) ⟨⟨sig, uuid, rfl⟩, rfl, ?_⟩
    cases q with
    | placeOso b => rw [hk.answered rfl] at ht; cases ht
    | _ => rfl
  refine ⟨h.cons fun hs => harmed.trans (hold ?_), fun e he hu => ?_⟩
  · cases t <;> [cases hs; rfl]
  · rw [harmed]
    rcases List.mem_or_eq_of_mem_set he with he | rfl
    · exact h.unsent e he hu
    · exact hold hu.2.1

end

theorem ArmedInv.other {v : AdapterView} {s' : World} {t : To Request Returned} {c : Call} {w : From Answer}
    {calls : List (Call × To Request Returned)} (h : ArmedInv v) {disarms : Bool}
    (hk : OtherSeg disarms w v.shared s' t) (hc : ∀ sig uuid, c ≠ .placeBracket sig uuid)
    (hcalls : ∀ e ∈ calls, e ∈ v.calls ∨ e.1 = c)
    (hP : disarms = true ∧ w = .start → ∀ e ∈ v.calls, ¬ Unsent e) :
    ArmedInv ⟨s', calls, .seg c w v.shared s' t :: v.log⟩ := by
  refine ⟨h.cons fun hs => absurd (hk.unsent.symm.trans hs) Bool.false_ne_true, fun e he hu => ?_⟩
  rcases hcalls e he with he | rfl
  · by_cases hd : disarms = true ∧ w = .start
    · exact absurd hu (hP hd e he)
    · have : disarms = false ∨ w ≠ .start := by
        cases disarms
        · exact .inl rfl
        · exact .inr fun hw => hd ⟨rfl, hw⟩
      rw [hk.armed.2 this]
      exact h.unsent e he hu
  · obtain ⟨sig, uuid, hsig⟩ := hu.1
    exact absurd hsig (hc sig uuid)

theorem armedInv_step {cfg : ExecutionConfig} (v : AdapterView) (a : AdapterAct) (v' : AdapterView)
    (h : ArmedInv v) (hP : KeepsArmed cfg v a) (hm : (machine cfg).Move (contract cfg) v a v') :
    ArmedInv v' := by
  cases hm with
  | @spawn s' c t hk =>
    have hcalls : ∀ e ∈ v.calls ++ [(c, t)], e ∈ v.calls ∨ e.1 = c := fun e he =>
      (List.mem_append.1 he).imp_right fun he => congrArg Prod.fst (List.mem_singleton.1 he)
    cases c with
    | placeBracket sig uuid => exact h.spawn hk hP
    | cancelAll => exact h.other hk (fun _ _ hc => by cases hc) hcalls fun _ => hP
    | flattenAllPositions => exact h.other hk (fun _ _ hc => by cases hc) hcalls fun _ => hP
    | getPositions forceRest => exact h.other hk (fun _ _ hc => by cases hc) hcalls fun hd => (by cases hd.1)
  | @resume s' i ans c q t hi hk =>
    have hcalls : ∀ e ∈ v.calls.set i (c, t), e ∈ v.calls ∨ e.1 = c := fun e he =>
      (List.mem_or_eq_of_mem_set he).imp_right fun he => congrArg Prod.fst he
    cases c with
    | placeBracket sig uuid =>
      simp only [KeepsArmed, hi] at hP
      exact h.resume hi hk hP
    | cancelAll => exact h.other hk (fun _ _ hc => by cases hc) hcalls fun hd => (by cases hd.2)
    | flattenAllPositions => exact h.other hk (fun _ _ hc => by cases hc) hcalls fun hd => (by cases hd.2)
    | getPositions forceRest => exact h.other hk (fun _ _ hc => by cases hc) hcalls fun hd => (by cases hd.2)
  | @env e =>
    refine ⟨fun turn ht => ?_, fun e' he' hu => ?_⟩
    · rcases List.mem_cons.1 ht with rfl | ht
      · simp [sentArmed]
      · exact h.sent turn ht
    · refine envStep_armed ?_ (h.unsent e' he' hu)
      rintro rfl
      exact hP e' he' hu

theorem armedInv_start (cfg : ExecutionConfig) (t : ℚ) : ArmedInv (start cfg t).view :=
  ⟨fun _ h => absurd h List.not_mem_nil, fun _ h => absurd h List.not_mem_nil⟩

/-- In every run in which nothing disarms under way, every entry is sent while the adapter is armed. -/
theorem sent_armed {cfg : ExecutionConfig} {t : ℚ} {acts : List AdapterAct}
    {s : Sys World Answer Returned Call EnvEvent} (hr : Runs cfg t acts s)
    (hP : Machine.Admits (machine cfg) (KeepsArmed cfg) (start cfg t) acts) :
    ∀ turn ∈ s.log, sentArmed turn ≠ some false :=
  (Machine.invariant (machine_obeys cfg) armedInv_step (Machine.ok_init _)
    (armedInv_start cfg t) hP hr).2.sent

theorem sent_armed_placeOne :
    ∃ s, Runs sampleConfig 0 placeOne s ∧ ∀ turn ∈ s.log, sentArmed turn ≠ some false := by
  obtain ⟨s, hs, -⟩ := exists_runs sampleConfig 0 placeOne (fun _ => true) (by decide +kernel)
  exact ⟨s, hs, sent_armed hs (by decide +kernel)⟩

theorem exists_sentDisarmed (cfg : ExecutionConfig) (t : ℚ) (acts : List AdapterAct)
    (h : ((machine cfg).run (start cfg t) acts).map
      (fun s => s.log.any fun turn => sentArmed turn = some false) = some true) :
    ∃ s, Runs cfg t acts s ∧ ∃ turn ∈ s.log, sentArmed turn = some false := by
  obtain ⟨s, hs, h⟩ := exists_runs cfg t acts _ h
  exact ⟨s, hs, by simpa using h⟩

/-- Disarmed while its call looks up the contract, or by its own reversal, an entry is still sent. -/
theorem sent_disarmed :
    (∃ s, Runs sampleConfig 0 (connect ++ [.spawn (.placeBracket (sampleSignal "s1") ""), .resume 0 acceptAll,
        .env .disarm, .resume 0 acceptAll]) s ∧ ∃ turn ∈ s.log, sentArmed turn = some false) ∧
    ∃ s, Runs { sampleConfig with maxPositions := 2, allowReversalOnOppositeSignal := true } 0
        (connect ++ [.spawn (.placeBracket (sampleSignal "s1") ""), .resume 0 (holding (-1)),
          .resume 0 (holding (-1)), .resume 0 acceptAll, .resume 0 acceptAll]) s ∧
      ∃ turn ∈ s.log, sentArmed turn = some false :=
  ⟨exists_sentDisarmed _ _ _ (by decide +kernel), exists_sentDisarmed _ _ _ (by decide +kernel)⟩

end PearlAlgo
