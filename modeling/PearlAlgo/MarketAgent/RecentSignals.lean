import PearlAlgo.MarketAgent.ActiveTrades
import PearlAlgo.MarketAgent.SignalsFile

/-!
# The cache of recent signals (`_SignalStore.get_recent_signals`)

A reader checks the cache under its lock, reads the tail of `signals.jsonl` outside of it, and stores what it has read
with the time at which it began. `save_signal` clears the cache after its append, and a rotation after the file is
replaced; the writers of the tracker do not touch it. A step is one access to the file or to the cache.
`getRecentSignals_of_safe` says when no reader is served anything but the tail of the file. `SignalsReader` has the same
cache for calls that are not interrupted, over lines that are all records. Failing file operations are left out.
-/

namespace PearlAlgo
open Py Lts

/-- `load_jsonl_file`: of the last lines those that parse, as the values on them. -/
def loadJsonlFile (maxLines : Nat) (lines : List SignalLine) : List SignalLine := (lastN maxLines lines).filter Rewrite.parses

structure CachedSignals where
  signals : List SignalLine
  time : ℚ
  limit : Nat

/-- A call of `get_recent_signals` that missed the cache, and what it has read of the file. -/
structure PendingRead where
  limit : Nat
  started : ℚ
  signals : Option (List SignalLine) := none

/-- How far a call of `save_signal` has got. -/
inductive SaveStage
  | idle
  | appended
  | cleared
  | rotated
deriving DecidableEq

structure RecentSignals where
  file : Option (List SignalLine) := none
  cache : Option CachedSignals := none
  now : ℚ := 0
  reads : List PendingRead := []
  stage : SaveStage := .idle

inductive CacheAction
  | tick (d : ℚ)
  | beginRead (limit : Nat)
  | readTail (reader : Nat)
  | storeRead (reader : Nat)
  | append (r : LineRecord)
  | clear
  /-- `os.replace` in `_rotate_signals_file` -/
  | rotate (skipCount : Nat)
  | saved
  /-- `_update_signal_status` with SQLite -/
  | statusAppend (change : SignalRecord)
  | rewrite (rw : Rewrite)

namespace RecentSignals

def lines (s : RecentSignals) : List SignalLine := s.file.getD []

def Fresh (s : RecentSignals) (c : CachedSignals) : Prop := s.now - c.time < SIGNALS_CACHE_TTL

instance (s : RecentSignals) (c : CachedSignals) : Decidable (s.Fresh c) := inferInstanceAs (Decidable (_ < _))

/-- What the cache answers. -/
def hit (limit : Nat) (s : RecentSignals) : Option (List SignalLine) :=
  (s.cache.filter fun c => s.Fresh c ∧ limit ≤ c.limit).map fun c => lastN limit c.signals

/-- What a call returns that is not interrupted. -/
def getRecentSignals (limit : Nat) (s : RecentSignals) : List SignalLine :=
  (s.hit limit).getD (loadJsonlFile limit s.lines)

def statusAppended (change : SignalRecord) (s : RecentSignals) : RecentSignals :=
  { s with
    file := s.file.map fun lines => lines ++ [.record { toSignalRecord := { change with statusChange := true } }] }

def rewritten (rw : Rewrite) (s : RecentSignals) : RecentSignals :=
  if rw.hasWork then { s with file := s.file.map fun lines => (rw.apply lines).getD lines } else s

def step (s : RecentSignals) : CacheAction → Option RecentSignals
  | .tick d => if 0 ≤ d then some { s with now := s.now + d } else none
  | .beginRead limit =>
    match s.hit limit with
    | some _ => some s
    | none => some { s with reads := s.reads ++ [{ limit, started := s.now }] }
  | .readTail reader =>
    (s.reads[reader]?.filter fun r => r.signals.isNone).map fun r =>
      { s with reads := s.reads.set reader { r with signals := some (loadJsonlFile r.limit s.lines) } }
  | .storeRead reader =>
    s.reads[reader]?.bind fun r => r.signals.map fun signals =>
      { s with cache := some ⟨signals, r.started, r.limit⟩, reads := s.reads.eraseIdx reader }
  | .append r => if s.stage = .idle then some { s with file := some (s.lines ++ [.record r]), stage := .appended } else none
  | .clear =>
    if s.stage = .appended ∨ s.stage = .rotated then some { s with cache := none, stage := .cleared } else none
  | .rotate skipCount =>
    if s.stage = .cleared then some { s with file := s.file.map (List.drop skipCount), stage := .rotated } else none
  | .saved => if s.stage = .cleared then some { s with stage := .idle } else none
  | .statusAppend change => if s.stage = .idle then some (s.statusAppended change) else none
  | .rewrite rw => if s.stage = .idle then some (s.rewritten rw) else none

/-! ### When the cache is coherent -/

/-- Every call returns what a read of the file returns. -/
def Coherent (s : RecentSignals) : Prop := ∀ limit, 0 < limit → s.getRecentSignals limit = loadJsonlFile limit s.lines

/-- A fresh cache answers for no more lines than the write leaves as they are. -/
def Unseen (s s' : RecentSignals) : Prop :=
  ∀ c ∈ s.cache, s.Fresh c → ∀ n ≤ c.limit, 0 < n → loadJsonlFile n s'.lines = loadJsonlFile n s.lines

instance (s s' : RecentSignals) : Decidable (s.Unseen s') :=
  inferInstanceAs (Decidable (∀ c ∈ s.cache, _ → ∀ n ≤ c.limit, _ → _))

/-- Among the last lines those that do not parse come first. -/
def Aligned (limit : Nat) (lines : List SignalLine) : Prop :=
  (lastN limit lines).Pairwise fun a b => Rewrite.parses a = true → Rewrite.parses b = true

instance (limit : Nat) (lines : List SignalLine) : Decidable (Aligned limit lines) :=
  inferInstanceAs (Decidable (List.Pairwise _ _))

/-- The list that a reader stores is still the tail of the file, and any shorter tail is an end of it. -/
def StillTail (s : RecentSignals) (r : PendingRead) (signals : List SignalLine) : Prop :=
  signals = loadJsonlFile r.limit s.lines ∧ Aligned r.limit s.lines

instance (s : RecentSignals) (r : PendingRead) (signals : List SignalLine) : Decidable (s.StillTail r signals) :=
  inferInstanceAs (Decidable (_ ∧ _))

/-- The step keeps the cache coherent: a store of an old list is harmless where it has expired already or is about to be
cleared. -/
def Safe (s : RecentSignals) : CacheAction → Prop
  | .storeRead reader =>
    s.stage = .idle ∨ s.stage = .cleared → ∀ r ∈ s.reads[reader]?, ∀ signals ∈ r.signals,
      s.now - r.started < SIGNALS_CACHE_TTL → s.StillTail r signals
  | .statusAppend change => s.Unseen (s.statusAppended change)
  | .rewrite rw => s.Unseen (s.rewritten rw)
  | .tick _ | .beginRead _ | .readTail _ | .append _ | .clear | .rotate _ | .saved => True

instance (s : RecentSignals) (a : CacheAction) : Decidable (s.Safe a) :=
  match a with
  | .storeRead reader =>
    inferInstanceAs (Decidable (_ → ∀ r ∈ s.reads[reader]?, ∀ signals ∈ r.signals, _ → s.StillTail r signals))
  | .statusAppend change => inferInstanceAs (Decidable (s.Unseen (s.statusAppended change)))
  | .rewrite rw => inferInstanceAs (Decidable (s.Unseen (s.rewritten rw)))
  | .tick _ | .beginRead _ | .readTail _ | .append _ | .clear | .rotate _ | .saved => inferInstanceAs (Decidable True)

section coherence
variable {s s' : RecentSignals} {c : CachedSignals} {limit n : Nat} {a : CacheAction} {answer : List SignalLine}

theorem hit_eq_some : s.hit limit = some answer ↔
    ∃ c, s.cache = some c ∧ s.Fresh c ∧ limit ≤ c.limit ∧ lastN limit c.signals = answer := by
  unfold hit
  simp only [Option.map_eq_some_iff, Option.filter_eq_some_iff, decide_eq_true_eq]
  constructor
  · rintro ⟨c, ⟨hc, hfresh, hle⟩, heq⟩
    exact ⟨c, hc, hfresh, hle, heq⟩
  · rintro ⟨c, hc, hfresh, hle, heq⟩
    exact ⟨c, ⟨hc, hfresh, hle⟩, heq⟩

theorem coherent_iff : s.Coherent ↔ ∀ c, s.cache = some c → s.Fresh c → ∀ n, 0 < n → n ≤ c.limit →
    lastN n c.signals = loadJsonlFile n s.lines := by
  constructor
  · intro h c hc hfresh n hn hle
    have hhit : s.hit n = some (lastN n c.signals) := hit_eq_some.2 ⟨c, hc, hfresh, hle, rfl⟩
    have hcall := h n hn
    rw [getRecentSignals, hhit] at hcall
    exact hcall
  · intro h limit hlimit
    unfold getRecentSignals
    rcases hhit : s.hit limit with _ | answer
    · rfl
    · obtain ⟨c, hc, hfresh, hle, rfl⟩ := hit_eq_some.1 hhit
      exact h c hc hfresh limit hlimit hle

theorem coherent_of_none (h : s.cache = none) : s.Coherent := by
  refine coherent_iff.2 fun c hc => ?_
  rw [h] at hc
  cases hc

/-- Where the lines that do not parse come first, parsing and cutting from the end commute. -/
theorem lastN_filter {α : Type} {p : α → Bool} {l : List α} (h : l.Pairwise fun a b => p a = true → p b = true) (hn : 0 < n) :
    lastN n (l.filter p) = (lastN n l).filter p := by
  induction l with
  | nil => simp
  | cons a l ih =>
    obtain ⟨ha, hl⟩ := List.pairwise_cons.1 h
    by_cases hp : p a = true
    · have hall : (a :: l).filter p = a :: l := by
        refine List.filter_eq_self.2 fun b hb => ?_
        rcases List.mem_cons.1 hb with rfl | hb
        · exact hp
        · exact ha b hb hp
      rw [hall]
      exact (List.filter_eq_self.2 fun b hb => List.filter_eq_self.1 hall b (mem_of_mem_lastN hb)).symm
    · rw [List.filter_cons_of_neg hp, ih hl]
      by_cases hlen : n ≤ l.length
      · unfold lastN
        rw [if_neg (by omega), if_neg (by omega), List.length_cons, Nat.succ_sub hlen, List.drop_succ_cons]
      · unfold lastN
        rw [if_neg (by omega), if_neg (by omega), List.length_cons, show l.length - n = 0 by omega,
          show l.length + 1 - n = 0 by omega, List.drop_zero, List.drop_zero, List.filter_cons_of_neg hp]

theorem lastN_load {lines : List SignalLine} (h : Aligned limit lines) (hn : 0 < n) (hle : n ≤ limit) :
    lastN n (loadJsonlFile limit lines) = loadJsonlFile n lines := by
  unfold loadJsonlFile
  rw [lastN_filter h hn, lastN_lastN hn hle]

/-! ### One step -/

/-- Time alone makes no cache fresh. -/
theorem Coherent.tick {d : ℚ} (hd : 0 ≤ d) (h : s.Coherent) : Coherent { s with now := s.now + d } := by
  refine coherent_iff.2 fun c hc hfresh n hn hle => ?_
  have hfresh' : s.Fresh c := by
    have hlt : s.now + d - c.time < SIGNALS_CACHE_TTL := hfresh
    unfold Fresh
    linarith
  exact coherent_iff.1 h c hc hfresh' n hn hle

/-- A write that a fresh cache does not show. -/
theorem Coherent.unseen (h : s.Coherent) (hunseen : s.Unseen s') (hcache : s'.cache = s.cache) (hnow : s'.now = s.now) :
    s'.Coherent := by
  refine coherent_iff.2 fun c hc hfresh n hn hle => ?_
  rw [hcache] at hc
  have hfresh' : s.Fresh c := by
    unfold Fresh at hfresh ⊢
    rwa [hnow] at hfresh
  rw [hunseen c hc hfresh' n hle hn]
  exact coherent_iff.1 h c hc hfresh' n hn hle

theorem coherent_of_stillTail {r : PendingRead} {signals : List SignalLine} {reads : List PendingRead}
    (h : s.now - r.started < SIGNALS_CACHE_TTL → s.StillTail r signals) :
    Coherent { s with cache := some ⟨signals, r.started, r.limit⟩, reads } := by
  refine coherent_iff.2 fun c hc hfresh n hn hle => ?_
  cases hc
  obtain ⟨rfl, haligned⟩ := h hfresh
  exact lastN_load haligned hn hle

/-- The cache is coherent unless a save is between a change of the file and the clearing of the cache. -/
def Settled (s : RecentSignals) : Prop := s.stage = .idle ∨ s.stage = .cleared → s.Coherent

theorem Settled.step (h : s.Settled) (hsafe : s.Safe a) (hstep : s.step a = some s') : s'.Settled := by
  cases a with
  | tick d =>
    obtain ⟨hd, ⟨⟩⟩ := Option.ite_none_right_eq_some.1 hstep
    exact fun hstage => (h hstage).tick hd
  | beginRead limit =>
    rw [RecentSignals.step] at hstep
    split at hstep
    · cases hstep
      exact h
    · cases hstep
      exact fun hstage => coherent_iff.2 (coherent_iff.1 (h hstage))
  | readTail reader =>
    obtain ⟨r, -, rfl⟩ := Option.map_eq_some_iff.1 hstep
    exact fun hstage => coherent_iff.2 (coherent_iff.1 (h hstage))
  | storeRead reader =>
    obtain ⟨r, hr, hstore⟩ := Option.bind_eq_some_iff.1 hstep
    obtain ⟨signals, hsignals, rfl⟩ := Option.map_eq_some_iff.1 hstore
    exact fun hstage => coherent_of_stillTail (hsafe hstage r hr signals hsignals)
  | append r =>
    obtain ⟨-, ⟨⟩⟩ := Option.ite_none_right_eq_some.1 hstep
    rintro (hstage | hstage)
    · cases hstage
    · cases hstage
  | clear =>
    obtain ⟨-, ⟨⟩⟩ := Option.ite_none_right_eq_some.1 hstep
    exact fun _ => coherent_of_none rfl
  | rotate skipCount =>
    obtain ⟨-, ⟨⟩⟩ := Option.ite_none_right_eq_some.1 hstep
    rintro (hstage | hstage)
    · cases hstage
    · cases hstage
  | saved =>
    obtain ⟨hcleared, ⟨⟩⟩ := Option.ite_none_right_eq_some.1 hstep
    exact fun _ => coherent_iff.2 (coherent_iff.1 (h (.inr hcleared)))
  | statusAppend change =>
    obtain ⟨hidle, ⟨⟩⟩ := Option.ite_none_right_eq_some.1 hstep
    exact fun _ => (h (.inl hidle)).unseen hsafe rfl rfl
  | rewrite rw' =>
    obtain ⟨hidle, ⟨⟩⟩ := Option.ite_none_right_eq_some.1 hstep
    have hsame : (s.rewritten rw').cache = s.cache ∧ (s.rewritten rw').now = s.now := by
      unfold rewritten
      split
      · exact ⟨rfl, rfl⟩
      · exact ⟨rfl, rfl⟩
    exact fun _ => (h (.inl hidle)).unseen hsafe hsame.1 hsame.2

end coherence

/-- Where every step is safe, a call between two writing calls returns what a read of the file returns. -/
theorem getRecentSignals_of_safe {file : Option (List SignalLine)} {now : ℚ} {s : RecentSignals}
    (h : Reach step Safe { file, now } s) (hidle : s.stage = .idle) {limit : Nat} (hlimit : 0 < limit) :
    s.getRecentSignals limit = loadJsonlFile limit s.lines := by
  have hsettled : s.Settled := h.invariant (fun _ => coherent_of_none rfl) fun _ _ _ hs ha hstep => hs.step ha hstep
  exact hsettled (.inl hidle) limit hlimit

/-- A save and a read that fills the cache. -/
def saveAndRead : List CacheAction :=
  [.append { signalId := "s0", status := .generated }, .clear, .saved, .beginRead 100, .readTail 0, .storeRead 0]

/-- The entry comes 15 seconds after the read. -/
theorem recent_after_expiry : ∃ s, Reach step Safe {} s ∧ s.lines.length = 2 ∧
    s.getRecentSignals 100 = loadJsonlFile 100 s.lines := by
  obtain ⟨s, hreach, hs⟩ := exists_reach step Safe {}
    (saveAndRead ++ [.tick 15, .statusAppend { signalId := "s0", status := .entered }])
    (fun s => s.stage = .idle ∧ s.lines.length = 2) (by decide +kernel)
  obtain ⟨hidle, hlines⟩ := of_decide_eq_true hs
  exact ⟨s, hreach, hlines, getRecentSignals_of_safe hreach hidle (by decide)⟩

/-- The entry comes while the cache is fresh: the next call does not return it. -/
theorem entry_not_returned : ¬ ∀ s, Reach step AnyStep {} s → s.stage = .idle → ∀ limit, 0 < limit →
    s.getRecentSignals limit = loadJsonlFile limit s.lines := by
  intro h
  obtain ⟨s, hreach, hs⟩ := exists_reach step AnyStep {}
    (saveAndRead ++ [.statusAppend { signalId := "s0", status := .entered }])
    (fun s => s.stage = .idle ∧ s.getRecentSignals 100 ≠ loadJsonlFile 100 s.lines) (by decide +kernel)
  obtain ⟨hidle, hstale⟩ := of_decide_eq_true hs
  exact hstale (h s hreach hidle 100 (by decide))

end RecentSignals

end PearlAlgo
