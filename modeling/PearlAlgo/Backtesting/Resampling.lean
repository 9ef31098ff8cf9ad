import Mathlib.Data.List.Dedup
import PearlAlgo.Backtesting.BacktestEngine

/-!
# Five minute bars (`resample_1m_to_5m` of `scripts/backtesting/data_collector.py`)

A 5 minute row has the label of the start of its five minutes and sums up all of them. `find5mRegime_visible`: in time
order the regime that the engine finds for a bar is that of the last rows which the bar shows `generate_signals`.
-/

namespace PearlAlgo
open Py

/-- The label of the five minutes that an instant falls into. -/
def binLabel (t : ℚ) : ℚ := 300 * (t / 300).floor

/-- The row of a bin: first open, highest high, lowest low, last close and summed volume of its bars. -/
def aggregate (label : ℚ) (bars : List TimedBar) : TimedBar where
  timestamp := label
  opening := (bars.head?.map fun b => b.opening).getD 0
  high := bars.tail.foldl (fun x b => max x b.high) ((bars.head?.map fun b => b.high).getD 0)
  low := bars.tail.foldl (fun x b => min x b.low) ((bars.head?.map fun b => b.low).getD 0)
  close := (bars.getLast?.map fun b => b.close).getD 0
  volume := (bars.map fun b => b.volume).sum

/-- `set_index("timestamp").sort_index()` -/
def sortIndex (bars : List TimedBar) : List TimedBar := bars.insertionSort fun a b => a.timestamp ≤ b.timestamp

/-- Bins without bars are dropped. -/
def resample1mTo5m (bars : List TimedBar) : List TimedBar :=
  ((sortIndex bars).map fun b => binLabel b.timestamp).dedup.map fun label =>
    aggregate label ((sortIndex bars).filter fun b => binLabel b.timestamp = label)

def InTimeOrder (rows : List TimedBar) : Prop := rows.Pairwise fun a b => a.timestamp < b.timestamp

theorem binLabel_mono {t u : ℚ} (h : t ≤ u) : binLabel t ≤ binLabel u := by
  have hfloor : (t / 300).floor ≤ (u / 300).floor := Rat.floor_monotone (by linarith)
  have hcast : ((t / 300).floor : ℚ) ≤ (u / 300).floor := by exact_mod_cast hfloor
  unfold binLabel
  linarith

theorem sortIndex_sorted (bars : List TimedBar) : (sortIndex bars).Pairwise fun a b => a.timestamp ≤ b.timestamp := by
  have : Std.Total fun a b : TimedBar => a.timestamp ≤ b.timestamp := ⟨fun a b => le_total _ _⟩
  have : IsTrans TimedBar fun a b => a.timestamp ≤ b.timestamp := ⟨fun _ _ _ => le_trans⟩
  exact List.pairwise_insertionSort _ bars

/-- The rows come in time order, and no label twice. -/
theorem resample_inTimeOrder (bars : List TimedBar) : InTimeOrder (resample1mTo5m bars) := by
  have hlabels : ((sortIndex bars).map fun b => binLabel b.timestamp).Pairwise (· ≤ ·) :=
    List.pairwise_map.2 ((sortIndex_sorted bars).imp fun h => binLabel_mono h)
  have hle := hlabels.sublist (List.dedup_sublist _)
  have hne := List.nodup_dedup ((sortIndex bars).map fun b => binLabel b.timestamp)
  unfold InTimeOrder resample1mTo5m
  rw [List.pairwise_map]
  exact (hle.and hne).imp fun ⟨hab, hab'⟩ => lt_of_le_of_ne hab hab'

theorem mem_resample {bars : List TimedBar} {row : TimedBar} : row ∈ resample1mTo5m bars ↔ ∃ b ∈ bars,
    row = aggregate (binLabel b.timestamp) ((sortIndex bars).filter fun b' => binLabel b'.timestamp = binLabel b.timestamp) := by
  unfold resample1mTo5m
  rw [List.mem_map]
  constructor
  · rintro ⟨label, hlabel, rfl⟩
    obtain ⟨b, hb, rfl⟩ := List.mem_map.1 (List.mem_dedup.1 hlabel)
    exact ⟨b, (List.mem_insertionSort _).1 hb, rfl⟩
  · rintro ⟨b, hb, rfl⟩
    exact ⟨_, List.mem_dedup.2 (List.mem_map.2 ⟨b, (List.mem_insertionSort _).2 hb, rfl⟩), rfl⟩

/-- What a bar sees when all bars after the index `n` fall into later five minutes. -/
theorem seenRows_take {bars : List TimedBar} {n : Nat} {t : ℚ}
    (hsorted : bars.Pairwise fun a b => a.timestamp ≤ b.timestamp)
    (hlater : ∀ b ∈ bars.drop n, t < binLabel b.timestamp) :
    (resample1mTo5m bars).filter (fun row => row.timestamp ≤ t) =
      (resample1mTo5m (bars.take n)).filter fun row => row.timestamp ≤ t := by
  have hsame : ∀ {label : ℚ}, label ≤ t → (sortIndex bars).filter (fun b => binLabel b.timestamp = label) =
      (sortIndex (bars.take n)).filter fun b => binLabel b.timestamp = label := by
    intro label hlabel
    have hnone : (bars.drop n).filter (fun b => binLabel b.timestamp = label) = [] := by
      refine List.filter_eq_nil_iff.2 fun b hb heq => ?_
      have hlt := hlater b hb
      rw [of_decide_eq_true heq] at hlt
      exact absurd hlabel (not_le.2 hlt)
    rw [sortIndex, hsorted.insertionSort_eq, sortIndex, (hsorted.sublist (List.take_sublist n bars)).insertionSort_eq]
    conv_lhs => rw [← List.take_append_drop n bars, List.filter_append, hnone, List.append_nil]
  have hanti : Std.Antisymm fun a b : TimedBar => a.timestamp < b.timestamp := ⟨fun _ _ h h' => absurd h (lt_asymm h')⟩
  have hirrefl : Std.Irrefl fun a b : TimedBar => a.timestamp < b.timestamp := ⟨fun _ => lt_irrefl _⟩
  refine List.Pairwise.eq_of_mem_iff ((resample_inTimeOrder bars).sublist List.filter_sublist)
    ((resample_inTimeOrder (bars.take n)).sublist List.filter_sublist) fun row => ?_
  rw [List.mem_filter, List.mem_filter, mem_resample, mem_resample]
  constructor
  · rintro ⟨⟨b, hb, rfl⟩, hle⟩
    have hlabel : binLabel b.timestamp ≤ t := of_decide_eq_true hle
    refine ⟨⟨b, ?_, by rw [hsame hlabel]⟩, hle⟩
    rw [← List.take_append_drop n bars, List.mem_append] at hb
    rcases hb with hb | hb
    · exact hb
    · exact absurd hlabel (not_le.2 (hlater b hb))
  · rintro ⟨⟨b, hb, rfl⟩, hle⟩
    have hlabel : binLabel b.timestamp ≤ t := of_decide_eq_true hle
    exact ⟨⟨b, List.mem_of_mem_take hb, by rw [hsame hlabel]⟩, hle⟩

/-! ### The regime that a bar finds -/

section regimes
variable {rows : List TimedBar} {row : TimedBar} {t : ℚ}

theorem regimeCache_concat (rows : List TimedBar) (row : TimedBar) :
    regimeCache (rows ++ [row]) =
      if 50 ≤ rows.length then (regimeCache rows).set row.timestamp (windowRegime (lastN 51 (rows ++ [row])))
      else regimeCache rows := by
  have hsame : ∀ d, ∀ i ∈ List.range' 50 (rows.length - 50), cacheRow (rows ++ [row]) d i = cacheRow rows d i := by
    intro d i hi
    have hlt : i < rows.length := by
      have hrange := List.mem_range'_1.1 hi
      omega
    unfold cacheRow
    rw [List.getElem?_append_left hlt, List.take_append_of_le_length hlt]
  unfold regimeCache
  rw [List.length_append, List.length_singleton]
  split
  next h =>
    rw [Nat.succ_sub h, List.range'_1_concat, List.foldl_append, List.foldl_ext _ _ _ hsame,
      show 50 + (rows.length - 50) = rows.length by omega, List.foldl_cons, List.foldl_nil, cacheRow,
      List.getElem?_concat_length]
    dsimp only
    congr 2
    unfold lastN
    rw [if_neg (by omega), List.take_of_length_le (by simp), List.length_append, List.length_singleton]
    congr 1
  next h =>
    rw [show rows.length + 1 - 50 = 0 by omega, show rows.length - 50 = 0 by omega]
    rfl

theorem mem_regimeCache {e : ℚ × MarketRegime} (h : e ∈ (regimeCache rows).entries) : ∃ row ∈ rows, row.timestamp = e.1 := by
  induction rows using List.reverseRecOn with
  | nil => cases h
  | append_singleton rows row ih =>
    have hold : e ∈ (regimeCache rows).entries → ∃ row' ∈ rows ++ [row], row'.timestamp = e.1 := by
      intro hmem
      obtain ⟨r, hr, heq⟩ := ih hmem
      exact ⟨r, List.mem_append_left _ hr, heq⟩
    rw [regimeCache_concat] at h
    split at h
    · rcases (Dict.mem_upsert (regimeCache rows).nodup).1 h with h | ⟨-, h⟩
      · subst h
        exact ⟨row, List.mem_append_right _ (List.mem_singleton.2 rfl), rfl⟩
      · exact hold h
    · exact hold h

theorem mem_laterEntry {l : List (ℚ × MarketRegime)} {e : ℚ × MarketRegime} (h : l.foldl (laterEntry t) none = some e) :
    e ∈ l := by
  induction l using List.reverseRecOn with
  | nil => cases h
  | append_singleton l a ih =>
    rw [List.foldl_append, List.foldl_cons, List.foldl_nil, laterEntry] at h
    split at h
    · cases h
      exact List.mem_append_right _ (List.mem_singleton.2 rfl)
    · exact List.mem_append_left _ (ih h)

/-- An entry that is later than all others is found as soon as the bar reaches it. -/
theorem find5mRegime_set {d : Dict ℚ MarketRegime} {r : MarketRegime} {k : ℚ} (h : ∀ e ∈ d.entries, e.1 < k) :
    find5mRegime (d.set k r) t = if k ≤ t then some r else find5mRegime d t := by
  have hnew : k ∉ d.keys := by
    intro hk
    obtain ⟨e, he, heq⟩ := List.mem_map.1 hk
    exact absurd heq (h e he).ne
  unfold find5mRegime
  rw [show (d.set k r).entries = d.entries ++ [(k, r)] from Dict.upsert_of_notMem hnew, List.foldl_append, List.foldl_cons,
    List.foldl_nil, laterEntry]
  split
  next hlater => rw [if_pos hlater.1]; rfl
  next hnot =>
    rw [if_neg]
    intro hk
    refine hnot ⟨hk, ?_⟩
    rcases hbest : d.entries.foldl (laterEntry t) none with _ | b
    · rfl
    · exact decide_eq_true (h b (mem_laterEntry hbest))

/-- In time order the regime is that of the last 51 rows which are labelled no later than the bar. -/
theorem find5mRegime_rows (h : InTimeOrder rows) (t : ℚ) :
    find5mRegime (regimeCache rows) t =
      if 50 < (rows.filter fun row => row.timestamp ≤ t).length then
        some (windowRegime (lastN 51 (rows.filter fun row => row.timestamp ≤ t)))
      else none := by
  induction rows using List.reverseRecOn with
  | nil => rfl
  | append_singleton rows row ih =>
    obtain ⟨hrows, -, hrow⟩ := List.pairwise_append.1 h
    have hbefore : ∀ r ∈ rows, r.timestamp < row.timestamp := fun r hr => hrow r hr row (List.mem_singleton.2 rfl)
    have hkeys : ∀ e ∈ (regimeCache rows).entries, e.1 < row.timestamp := by
      intro e he
      obtain ⟨r, hr, heq⟩ := mem_regimeCache he
      rw [← heq]
      exact hbefore r hr
    rw [regimeCache_concat]
    by_cases ht : row.timestamp ≤ t
    · have hall : (rows ++ [row]).filter (fun r => r.timestamp ≤ t) = rows ++ [row] := by
        refine List.filter_eq_self.2 fun r hr => decide_eq_true ?_
        rcases List.mem_append.1 hr with hr | hr
        · exact ((hbefore r hr).trans_le ht).le
        · rwa [List.mem_singleton.1 hr]
      rw [hall, List.length_append, List.length_singleton]
      by_cases hlen : 50 ≤ rows.length
      · rw [if_pos hlen, if_pos (by omega), find5mRegime_set hkeys, if_pos ht]
      · rw [if_neg hlen, if_neg (by omega)]
        have hnone : regimeCache rows = .empty := by
          unfold regimeCache
          rw [show rows.length - 50 = 0 by omega]
          rfl
        rw [hnone]
        rfl
    · have hsame : (rows ++ [row]).filter (fun r => r.timestamp ≤ t) = rows.filter fun r => r.timestamp ≤ t := by
        rw [List.filter_append, List.filter_cons_of_neg (by simpa using ht)]
        exact List.append_nil _
      rw [hsame, ← ih hrows]
      split
      · rw [find5mRegime_set hkeys, if_neg ht]
      · rfl

/-- Bars that see the same rows find the same regime. -/
theorem find5mRegime_visible {rows' : List TimedBar} (h : InTimeOrder rows) (h' : InTimeOrder rows')
    (hvisible : visible5m rows t = visible5m rows' t) :
    find5mRegime (regimeCache rows) t = find5mRegime (regimeCache rows') t := by
  rw [find5mRegime_rows h, find5mRegime_rows h']
  unfold visible5m at hvisible
  dsimp only at hvisible
  generalize rows.filter (fun row => row.timestamp ≤ t) = seen at hvisible ⊢
  generalize rows'.filter (fun row => row.timestamp ≤ t) = seen' at hvisible ⊢
  have hlast : lastN 100 seen = lastN 100 seen' := by
    rcases seen with _ | ⟨r, seen⟩
    · rcases seen' with _ | ⟨r', seen'⟩
      · rfl
      · simp at hvisible
    · rcases seen' with _ | ⟨r', seen'⟩
      · simp at hvisible
      · simpa using hvisible
  have hregime : lastN 51 seen = lastN 51 seen' := by
    rw [← lastN_lastN (n := 51) (m := 100) (by omega) (by omega), hlast, lastN_lastN (by omega) (by omega)]
  have hlength : 50 < seen.length ↔ 50 < seen'.length := by
    have hlen := congrArg List.length hlast
    unfold lastN at hlen
    rw [if_neg (by omega), if_neg (by omega), List.length_drop, List.length_drop] at hlen
    omega
  rw [hregime]
  simp only [hlength]

end regimes

end PearlAlgo
