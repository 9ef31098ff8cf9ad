import PearlAlgo.MarketAgent.ExecutionFlags
import PearlAlgo.Tradovate.Segments

/-!
# Kill and disarm against arm

The watcher returns after a kill or a disarm and leaves an arm flag where it is, so the next cycle finds it and
arms the adapter. `neverArmed_iff` says, for every set of pending flags, when no later cycle ends with the
adapter armed.
-/

namespace PearlAlgo
open Py Coop

/-- No arm request is written, and the adapter is not armed: only the watcher calls `arm`. -/
def WatchEvent.armsNothing : WatchEvent → Bool
  | .writeArm _ => false
  | .adapter world => !world.base.armed
  | .writeKill _ | .writeDisarm _ => true

def WatchAct.ArmsNothing : WatchAct → Prop
  | .event e => e.armsNothing = true
  | .cycle _ others => ∀ n, ∀ e ∈ others n, e.armsNothing = true

def WatchTurn.EndsDisarmed : WatchTurn → Prop
  | .event _ _ => True
  | .cycle _ o => o.state.world.base.armed = false

/-- In every run that begins with a cycle and has no new arm request, every cycle ends with the adapter not
armed. -/
def NeverArmed (cfg : ExecutionConfig) (w : Watch) : Prop :=
  ∀ answers others acts, (∀ a ∈ WatchAct.cycle answers others :: acts, a.ArmsNothing) →
    ∀ turn ∈ watch (some cfg) w (.cycle answers others :: acts), turn.EndsDisarmed

/-- A kill or disarm flag that is not stale is there, or the adapter is not armed anyway; and no arm flag that is
not stale is there, or `arm` refuses. -/
def Dominated (cfg : ExecutionConfig) (w : Watch) : Prop :=
  ((w.fresh w.kill).isSome ∨ (w.fresh w.disarm).isSome ∨ w.world.base.armed = false) ∧
    (w.fresh w.arm = none ∨ cfg.enabled = false)

structure Disarmed (cfg : ExecutionConfig) (w : Watch) : Prop where
  armed : w.world.base.armed = false
  flag : w.arm = none ∨ cfg.enabled = false

section
variable {cfg : ExecutionConfig} {w : Watch}

theorem Disarmed.dominated (h : Disarmed cfg w) : Dominated cfg w := by
  refine ⟨.inr (.inr h.armed), ?_⟩
  rcases h.flag with hflag | hflag
  · rw [hflag]
    exact .inl rfl
  · exact .inr hflag

theorem Disarmed.apply (h : Disarmed cfg w) {e : WatchEvent} (he : e.armsNothing = true) :
    Disarmed cfg (e.apply w) := by
  cases e with
  | writeKill f => exact ⟨h.armed, h.flag⟩
  | writeDisarm f => exact ⟨h.armed, h.flag⟩
  | writeArm f => cases he
  | adapter world =>
    have harmed : world.base.armed = false := by simpa [WatchEvent.armsNothing] using he
    exact ⟨harmed, h.flag⟩

theorem Disarmed.foldl (h : Disarmed cfg w) {es : List WatchEvent} (hes : ∀ e ∈ es, e.armsNothing = true) :
    Disarmed cfg (es.foldl WatchEvent.apply w) := by
  induction es generalizing w with
  | nil => exact h
  | cons e es ih =>
    have he := hes e List.mem_cons_self
    exact ih (h.apply he) fun e' he' => hes e' (List.mem_cons_of_mem _ he')

/-! ### The kill branch -/

/-- A segment of the kill switch that begins it, or begins with the adapter not armed, ends so; none changes the
time. -/
def KillSeg (w : From Answer) (s₀ s : World) : Prop :=
  (w = .start ∨ s₀.base.armed = false → s.base.armed = false) ∧ s.now = s₀.now

theorem stable_killSeg (S : Request → Prop) : Proc.Stable S (fun w s₀ s _ => KillSeg w s₀ s) KillSeg where
  pause _ h := h
  resume r s _ := ⟨fun h => h.resolve_left fun h => (by cases h), rfl⟩

theorem KillSeg.disarm {w : From Answer} {s₀ s : World} (h : s.now = s₀.now) : KillSeg w s₀ s.disarm :=
  ⟨fun _ => rfl, h⟩

theorem killSwitch_wp (s : World) :
    (killSwitch cfg).wp (fun w s₀ s _ => KillSeg w s₀ s) (fun _ => KillSeg) .start s s := by
  simp only [killSwitch, Proc.wp_bind, Proc.wp_modify]
  refine Proc.wp_mono _ (cancelAll_wp (stable_killSeg _) (fun _ _ _ _ h => h) (.disarm rfl)) fun r w s₀ s h => ?_
  split
  · exact h
  · exact .disarm h.2
  · rw [Proc.wp_bind]
    refine Proc.wp_mono _ (flattenAllPositions_wp (stable_killSeg _) (.disarm h.2)) fun r w s₀ s h => ?_
    split
    · exact h
    · exact .disarm h.2
    · exact h

theorem killBranch_play (env : Nat → Proc.Interval Watch Answer) {J : World → Prop} {K : Watch → Prop}
    (hK : ∀ world w, K w → K { w with world })
    (hothers : ∀ n w, J w.world → K w → J ((env n).others w).world ∧ K ((env n).others w))
    (hnext : ∀ q r s₀ s, KillSeg (.answer q r) s₀ s → J s₀ → J s) (hfirst : ∀ s, KillSeg .start w.world s → J s)
    (hw : K w) :
    let o := ((killSwitch cfg).zoom Watch.world fun world w => { w with world }).play env w
    J o.state.world ∧ K o.state :=
  Proc.play_zoom_of_wp (fun _ _ => rfl) hK (killSwitch cfg) env hothers hnext hfirst (killSwitch_wp w.world) hw

/-! ### One cycle -/

/-- A cycle with a kill flag does the kill and removes the kill and the disarm flag, not the arm flag. -/
theorem cycle_kill (hkill : (w.fresh w.kill).isSome) (env : Nat → Proc.Interval Watch Answer) :
    let o := ((killSwitch cfg).zoom Watch.world fun world w => { w with world }).play env w.clearStale
    let o' := (checkExecutionControlFlags (some cfg)).play env w
    o'.state.world = o.state.world ∧ o'.state.arm = o.state.arm ∧ o'.state.kill = none ∧ o'.state.disarm = none := by
  have hkill : w.clearStale.kill.isSome = true := hkill
  simp only [checkExecutionControlFlags, Proc.play_modify_bind, Proc.play_read_bind]
  rw [if_pos hkill, Proc.play_bind]
  dsimp only
  rw [Proc.play_modify_bind]
  cases ((killSwitch cfg).zoom Watch.world fun world w => { w with world }).play env w.clearStale with
  | mk trace state value =>
    cases value with
    | error e => exact ⟨rfl, rfl, rfl, rfl⟩
    | ok u => exact ⟨rfl, rfl, rfl, rfl⟩

theorem cycle_noKill (hkill : w.fresh w.kill = none) (env : Nat → Proc.Interval Watch Answer) :
    ((checkExecutionControlFlags (some cfg)).play env w).state = w.clearStale.disarmOrArm cfg := by
  have hkill : w.clearStale.kill = none := hkill
  simp only [checkExecutionControlFlags, Proc.play_modify_bind, Proc.play_read_bind]
  rw [hkill]
  rfl

theorem Disarmed.disarmOrArm (hdisarm : w.disarm.isSome ∨ w.world.base.armed = false)
    (harm : w.arm = none ∨ cfg.enabled = false) : Disarmed cfg (w.disarmOrArm cfg) := by
  unfold Watch.disarmOrArm
  split
  · exact ⟨rfl, harm⟩
  next hd =>
    have harmed : w.world.base.armed = false := hdisarm.resolve_left hd
    split
    next ha =>
      have hdisabled : cfg.enabled = false := by
        rcases harm with harm | harm
        · rw [harm] at ha
          cases ha
        · exact harm
      refine ⟨?_, .inl rfl⟩
      simp [AdapterBase.arm, hdisabled, harmed]
    · exact ⟨harmed, harm⟩

/-- A cycle that finds nothing to arm ends with the adapter not armed, and leaves nothing to arm. -/
theorem cycle_disarmed (h : Dominated cfg w) (env : Nat → Proc.Interval Watch Answer)
    (hothers : ∀ n w, Disarmed cfg w → Disarmed cfg ((env n).others w)) :
    Disarmed cfg ((checkExecutionControlFlags (some cfg)).play env w).state := by
  obtain ⟨hdominates, harm⟩ := h
  by_cases hkill : (w.fresh w.kill).isSome
  · obtain ⟨hworld, hflag, -, -⟩ := @cycle_kill cfg w hkill env
    have hplay := @killBranch_play cfg w.clearStale env (fun s => s.base.armed = false)
      (fun w => w.arm = none ∨ cfg.enabled = false) (fun _ _ h => h)
      (fun n w hJ hK => ⟨(hothers n w ⟨hJ, hK⟩).armed, (hothers n w ⟨hJ, hK⟩).flag⟩)
      (fun q r s₀ s hseg hJ => hseg.1 (.inr hJ)) (fun s hseg => hseg.1 (.inl rfl)) harm
    refine ⟨?_, ?_⟩
    · rw [hworld]
      exact hplay.1
    · rw [hflag]
      exact hplay.2
  · have hnone : w.fresh w.kill = none := by simpa using hkill
    rw [cycle_noKill hnone]
    refine Disarmed.disarmOrArm ?_ harm
    rcases hdominates with h | h | h
    · exact absurd h hkill
    · exact .inl h
    · exact .inr h

/-! ### Runs -/

theorem watch_disarmed (h : Dominated cfg w) {acts : List WatchAct} (hacts : ∀ a ∈ acts, a.ArmsNothing)
    (hfirst : Disarmed cfg w ∨ ∃ answers others acts', acts = .cycle answers others :: acts') :
    ∀ turn ∈ watch (some cfg) w acts, turn.EndsDisarmed := by
  induction acts generalizing w with
  | nil => exact fun turn hturn => absurd hturn List.not_mem_nil
  | cons a acts ih =>
    have ha := hacts a List.mem_cons_self
    have hafter : Disarmed cfg (a.take (some cfg) w).after ∧ (a.take (some cfg) w).EndsDisarmed := by
      cases a with
      | event e =>
        have hw : Disarmed cfg w := by
          rcases hfirst with hw | ⟨_, _, _, hcycle⟩
          · exact hw
          · cases hcycle
        exact ⟨hw.apply ha, trivial⟩
      | cycle answers others =>
        have hcycle := cycle_disarmed h (fun n => ⟨answers n, fun w => (others n).foldl WatchEvent.apply w⟩)
          fun n w hw => hw.foldl (ha n)
        exact ⟨hcycle, hcycle.armed⟩
    intro turn hturn
    rcases List.mem_cons.1 hturn with rfl | hturn
    · exact hafter.2
    · exact ih hafter.1.dominated (fun a' ha' => hacts a' (List.mem_cons_of_mem _ ha')) (.inl hafter.1) turn hturn

theorem NeverArmed.twice (h : NeverArmed cfg w) (answers : Nat → (q : Request) → Answer q) :
    let o := (checkExecutionControlFlags (some cfg)).play (fun n => ⟨answers n, fun w => w⟩) w
    let o' := (checkExecutionControlFlags (some cfg)).play (fun n => ⟨answers n, fun w => w⟩) o.state
    o.state.world.base.armed = false ∧ o'.state.world.base.armed = false := by
  have hrun := h answers (fun _ => []) [.cycle answers fun _ => []] (by
    intro a ha
    have hcycle : a = .cycle answers fun _ => [] := by simpa using ha
    rw [hcycle]
    exact fun n e he => absurd he List.not_mem_nil)
  exact ⟨hrun _ List.mem_cons_self, hrun _ (List.mem_cons_of_mem _ List.mem_cons_self)⟩

/-- A pending arm flag arms the adapter in a cycle that finds no other flag. -/
theorem cycle_arms (hkill : w.fresh w.kill = none) (hdisarm : w.fresh w.disarm = none) (harm : (w.fresh w.arm).isSome)
    (henabled : cfg.enabled = true) (env : Nat → Proc.Interval Watch Answer) :
    ((checkExecutionControlFlags (some cfg)).play env w).state.world.base.armed = true := by
  have hdisarm : w.clearStale.disarm = none := hdisarm
  have harm : w.clearStale.arm.isSome = true := harm
  rw [cycle_noKill hkill, Watch.disarmOrArm, hdisarm, if_neg (by simp), if_pos harm]
  simp [AdapterBase.arm, henabled]

theorem fresh_fresh {w w' : Watch} (hnow : w'.world.now = w.world.now) (f : Option FlagFile) :
    w'.fresh (w.fresh f) = w.fresh f := by
  unfold Watch.fresh
  rw [hnow, Option.filter_filter]
  simp

/-- Whatever flag the first cycle finds, it leaves a fresh arm flag, and no other, at the same time. -/
theorem cycle_leaves_arm (hflag : (w.fresh w.kill).isSome ∨ (w.fresh w.disarm).isSome)
    (answers : Nat → (q : Request) → Answer q) :
    let o := (checkExecutionControlFlags (some cfg)).play (fun n => ⟨answers n, fun w => w⟩) w
    o.state.kill = none ∧ o.state.disarm = none ∧ o.state.arm = w.fresh w.arm ∧ o.state.world.now = w.world.now := by
  by_cases hkill : (w.fresh w.kill).isSome
  · obtain ⟨hworld, harm, hnokill, hnodisarm⟩ :=
      @cycle_kill cfg w hkill fun n => ⟨answers n, fun w => w⟩
    have hplay := @killBranch_play cfg w.clearStale (fun n => ⟨answers n, fun w => w⟩) (fun s => s.now = w.world.now)
      (fun w' => w'.arm = w.fresh w.arm) (fun _ _ h => h)
      (fun n w hJ hK => ⟨hJ, hK⟩) (fun q r s₀ s hseg hJ => hseg.2.trans hJ) (fun s hseg => hseg.2) rfl
    refine ⟨hnokill, hnodisarm, ?_, ?_⟩
    · rw [harm]
      exact hplay.2
    · rw [hworld]
      exact hplay.1
  · have hnone : w.fresh w.kill = none := by simpa using hkill
    have hdisarm : w.clearStale.disarm.isSome = true := hflag.resolve_left hkill
    dsimp only
    rw [cycle_noKill hnone, Watch.disarmOrArm, if_pos hdisarm]
    exact ⟨hnone, rfl, rfl, rfl⟩

/-- Kill and disarm dominate arm if and only if no fresh arm flag is pending with them, and they are not stale. -/
theorem neverArmed_iff (cfg : ExecutionConfig) (w : Watch) : NeverArmed cfg w ↔ Dominated cfg w := by
  constructor
  · intro h
    have htwice := h.twice fun _ => acceptAll
    by_contra hnot
    by_cases harm : w.fresh w.arm = none ∨ cfg.enabled = false
    · -- stale flags, and an adapter that is armed and stays so
      have hflags : ¬ ((w.fresh w.kill).isSome ∨ (w.fresh w.disarm).isSome ∨ w.world.base.armed = false) :=
        fun hd => hnot ⟨hd, harm⟩
      push Not at hflags
      obtain ⟨hkill, hdisarm, harmed⟩ := hflags
      have hkill : w.fresh w.kill = none := by simpa using hkill
      have hdisarm : w.fresh w.disarm = none := by simpa using hdisarm
      have hdisarm : w.clearStale.disarm = none := hdisarm
      have harmed : w.world.base.armed = true := by simpa using harmed
      have hend := htwice.1
      rw [cycle_noKill hkill, Watch.disarmOrArm, hdisarm, if_neg (by simp)] at hend
      split at hend
      · simp only [AdapterBase.arm] at hend
        split at hend
        · cases hend
        · exact absurd (harmed.symm.trans hend) Bool.noConfusion
      · exact absurd (harmed.symm.trans hend) Bool.noConfusion
    · push Not at harm
      obtain ⟨harm, henabled⟩ := harm
      have harm : (w.fresh w.arm).isSome := Option.isSome_iff_ne_none.2 harm
      have henabled : cfg.enabled = true := by simpa using henabled
      by_cases hflag : (w.fresh w.kill).isSome ∨ (w.fresh w.disarm).isSome
      · obtain ⟨hkill, hdisarm, harm', hnow⟩ := @cycle_leaves_arm cfg w hflag fun _ => acceptAll
        have hend := htwice.2
        rw [cycle_arms (by rw [hkill]; rfl) (by rw [hdisarm]; rfl) (by rw [harm', fresh_fresh hnow]; exact harm)
          henabled] at hend
        cases hend
      · push Not at hflag
        have hend := htwice.1
        rw [cycle_arms (by simpa using hflag.1) (by simpa using hflag.2) harm henabled] at hend
        cases hend
  · intro h answers others acts hacts
    exact watch_disarmed h hacts (.inr ⟨answers, others, acts, rfl⟩)

end

/-- A kill request and an arm request, both ten seconds old: the second cycle arms the adapter. -/
theorem not_neverArmed : ¬ ∀ cfg w, (w.kill.isSome ∨ w.disarm.isSome) → NeverArmed cfg w := by
  intro h
  have hnever := h sampleConfig
    { sampleWatch 10 with kill := some ⟨.requestedAt 0, 0⟩, arm := some ⟨.requestedAt 0, 0⟩ } (.inl rfl)
  have htwice := hnever.twice fun _ => holding 1
  exact absurd htwice.2 (by decide +kernel)

end PearlAlgo
