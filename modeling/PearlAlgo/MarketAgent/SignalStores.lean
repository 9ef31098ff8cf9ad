import PearlAlgo.Lts.Reach
import PearlAlgo.MarketAgent.SignalLifecycle
import PearlAlgo.MarketAgent.SignalsFile

/-!
# The two stores of a signal (`market_agent/performance_tracker.py`, `storage/trade_database.py`)

SQLite is on for the tracker and the state manager, and every write is synchronous and succeeds. `_get_signal_record`
reads the latest event of a signal and, where there is none, `signals.jsonl`. The calls of the tracker write different
parts of the two; `stores_agree` says when both tell the same of every signal.
-/

namespace PearlAlgo
open Py Lts

/-- The file, where there is one, and the payloads of the event table. -/
structure SignalStores where
  signalsFile : Option (List LineRecord) := none
  events : List SignalRecord := []
  maxSignalLines : Int := 5000
  sidecar : Option Int := none
  signalCount : Option Int := none
  signalWriteCount : Nat := 0

def Rewrite.records (rw : Rewrite) : List LineRecord → List LineRecord
  | [] => []
  | r :: rest => if r.signalId = rw.signalId then rw.update r :: rest else r :: rw.records rest

namespace SignalStores

def lines (s : SignalStores) : List LineRecord := s.signalsFile.getD []

def getSignalEventById (signalId : String) (s : SignalStores) : Option SignalRecord :=
  s.events.findRev? fun r => r.signalId = signalId

def store (s : SignalStores) : SignalStore :=
  { lines := s.lines.map LineRecord.toSignalRecord, events := some s.events }

def fallback (signalId : String) (s : SignalStores) : Option SignalRecord :=
  { s.store with events := none }.getSignalRecord signalId

/-! ### The calls -/

/-- How many lines the next rotation archives. -/
def skipCount (s : SignalStores) : Nat := (s.sidecar.getD s.lines.length - s.maxSignalLines).toNat

def rotate (s : SignalStores) : SignalStores :=
  if s.sidecar.getD s.lines.length ≤ s.maxSignalLines then s
  else
    { s with
      signalsFile := s.signalsFile.map fun lines => lines.drop s.skipCount
      signalCount := some s.maxSignalLines
      sidecar := some s.maxSignalLines }

/-- `save_signal` up to the rotation. -/
def appendSignal (record : LineRecord) (s : SignalStores) : SignalStores :=
  { s with
    signalsFile := some (s.lines ++ [record])
    signalCount := s.signalCount.map (· + 1)
    sidecar := (s.signalCount.map (· + 1)) <|> s.sidecar
    signalWriteCount := s.signalWriteCount + 1 }

def saveSignal (record : LineRecord) (s : SignalStores) : SignalStores :=
  let s := s.appendSignal record
  let s := if s.signalWriteCount % 100 = 0 then s.rotate else s
  { s with events := s.events ++ [record.toSignalRecord] }

def trackSignalGenerated (signalId : String) (signal : SignalData) (isTest : Bool) (s : SignalStores) : SignalStores :=
  if isTest then s else s.saveSignal { signalId, status := .generated, signal := some signal }

/-- `update_signal_execution_metadata`, `update_signal_prices` -/
def rewrite (rw : Rewrite) (s : SignalStores) : SignalStores :=
  if rw.hasWork then { s with signalsFile := s.signalsFile.map rw.records } else s

/-- `_update_signal_status`. An event whose payload `json.dumps` does not take has an empty one, to which
`get_signal_event_by_id` adds the keys of the row. -/
def updateSignalStatus (change : SignalRecord) (preserve : Option SignalRecord) (serializable : Bool) (s : SignalStores) :
    SignalStores :=
  let current := preserve <|> s.getSignalEventById change.signalId
  let payload :=
    if serializable then current.elim change fun r => r.update change
    else { signalId := change.signalId, status := change.status }
  { s with
    events := s.events ++ [payload]
    signalsFile := s.signalsFile.map fun lines => lines ++ [{ toSignalRecord := { change with statusChange := true } }] }

/-- `signalData` is the caller's dictionary, and whether `json.dumps` takes it. -/
def trackEntry (signalId : String) (entryPrice : Number) (entryTime : ℚ) (signalData : Option (SignalData × Bool))
    (s : SignalStores) : SignalStores :=
  s.updateSignalStatus
    { signalId, status := .entered, own := { entryPrice := some entryPrice }, entryTime := some entryTime }
    (signalData.map fun d => { signalId, status := .entered, own := d.1 }) (signalData.all Prod.snd)

def trackExit (signalId : String) (exitPrice : Number) (exitReason : String) (exitTime : ℚ) (s : SignalStores) :
    SignalStores :=
  match s.store.getSignalRecord signalId with
  | none => s
  | some r =>
    if r.status = .exited then s
    else
      match r.exitPerformance signalId exitPrice exitReason exitTime with
      | none => s
      | some perf => s.updateSignalStatus (perf.change r.data) none true

end SignalStores

inductive StoreCall
  | trackSignalGenerated (signalId : String) (signal : SignalData) (isTest : Bool)
  | updateSignalExecutionMetadata (signalId : String) (fields : ExecutionFields)
  | trackEntry (signalId : String) (entryPrice : Number) (entryTime : ℚ) (signalData : Option (SignalData × Bool))
  | updateSignalPrices (signalId : String) (stopLoss takeProfit : Option Number)
  | trackExit (signalId : String) (exitPrice : Number) (exitReason : String) (exitTime : ℚ)

namespace SignalStores

def apply (s : SignalStores) : StoreCall → SignalStores
  | .trackSignalGenerated x signal isTest => s.trackSignalGenerated x signal isTest
  | .updateSignalExecutionMetadata x fields => s.rewrite (.executionMetadata x fields)
  | .trackEntry x entryPrice entryTime signalData => s.trackEntry x entryPrice entryTime signalData
  | .updateSignalPrices x stopLoss takeProfit => s.rewrite (.prices x stopLoss takeProfit)
  | .trackExit x exitPrice exitReason exitTime => s.trackExit x exitPrice exitReason exitTime

def step (s : SignalStores) (c : StoreCall) : Option SignalStores := some (s.apply c)

end SignalStores

/-! ### What a record tells -/

structure SignalView where
  status : SignalStatus
  direction : Option String
  entryPrice : Number
  stopLoss : Option Number
  takeProfit : Option Number
  pnl : Option ℚ
deriving DecidableEq

def SignalRecord.view (r : SignalRecord) : SignalView where
  status := r.status
  direction := r.data.direction
  entryPrice := r.entryPrice
  stopLoss := r.data.stopLoss
  takeProfit := r.data.takeProfit
  pnl := r.exit.map ExitData.pnl

/-- `_get_signal_record` tells the same of every signal from either store. -/
def SignalStores.Agree (s : SignalStores) : Prop :=
  ∀ x, (s.getSignalEventById x).map SignalRecord.view = (s.fallback x).map SignalRecord.view

/-! ### When the stores agree -/

/-- The line starts the signal: it is no status change. -/
def LineRecord.Starts (x : String) (r : LineRecord) : Prop := r.signalId = x ∧ r.statusChange = false

instance (x : String) (r : LineRecord) : Decidable (r.Starts x) := inferInstanceAs (Decidable (_ ∧ _))

/-- The first line of a signal, and the lines after it. -/
def firstLine (x : String) : List LineRecord → Option (LineRecord × List LineRecord)
  | [] => none
  | r :: rest => if r.signalId = x then some (r, rest) else firstLine x rest

/-- Of each signal that starts on one of the first `k` lines there is a later start. -/
def KeepsStarts (k : Nat) (lines : List LineRecord) : Prop :=
  ∀ r ∈ lines.take k, r.statusChange = false → ∃ r' ∈ lines.drop k, r'.Starts r.signalId

instance (k : Nat) (lines : List LineRecord) : Decidable (KeepsStarts k lines) :=
  inferInstanceAs (Decidable (∀ r ∈ lines.take k, _))

/-- The prices are on the line of the signal already, or what is there is not read: it is a status change, or the
signal starts again after it. -/
def PricesStand (x : String) (stopLoss takeProfit : Option Number) (lines : List LineRecord) : Prop :=
  ∀ l ∈ firstLine x lines, l.1.statusChange = true ∨ (∃ r ∈ l.2, r.Starts x) ∨
    ((∀ p ∈ stopLoss, l.1.data.stopLoss = some p) ∧ ∀ p ∈ takeProfit, l.1.data.takeProfit = some p)

instance (x : String) (stopLoss takeProfit : Option Number) (lines : List LineRecord) :
    Decidable (PricesStand x stopLoss takeProfit lines) :=
  inferInstanceAs (Decidable (∀ l ∈ firstLine x lines, _ ∨ _ ∨ ((∀ p ∈ stopLoss, _) ∧ ∀ p ∈ takeProfit, _)))

def Falsy (x : Option Number) : Prop := orNum x none = none

instance (x : Option Number) : Decidable (Falsy x) := inferInstanceAs (Decidable (_ = _))

/-- The caller's dictionary tells of the signal what the file does. -/
def SignalData.Retells (d : SignalData) (f : SignalRecord) : Prop :=
  d.direction = f.data.direction ∧ d.stopLoss = f.data.stopLoss ∧ d.takeProfit = f.data.takeProfit ∧ f.exit = none

instance (d : SignalData) (f : SignalRecord) : Decidable (d.Retells f) :=
  inferInstanceAs (Decidable (_ ∧ _ ∧ _ ∧ _))

namespace SignalStores

/-- The signal is in the file, a dictionary that comes with the entry retells it, and an entry price of zero hides no
other entry price. -/
def EntryStands (x : String) (entryPrice : Number) (signalData : Option (SignalData × Bool)) (s : SignalStores) : Prop :=
  ∃ f ∈ s.fallback x, (∀ d ∈ signalData, d.2 = true ∧ d.1.Retells f) ∧
    (entryPrice = .fin 0 → Falsy f.data.entryPrice ∨
      signalData = none ∧ ∀ e ∈ s.getSignalEventById x, e.signal.isSome = true)

instance (x : String) (entryPrice : Number) (signalData : Option (SignalData × Bool)) (s : SignalStores) :
    Decidable (s.EntryStands x entryPrice signalData) :=
  inferInstanceAs (Decidable (∃ f ∈ s.fallback x, (∀ d ∈ signalData, _ ∧ _) ∧ (_ → _ ∨ _ ∧ ∀ e ∈ s.getSignalEventById x, _)))

/-- The call leaves the stores in agreement. -/
def Safe (s : SignalStores) : StoreCall → Prop
  | .trackSignalGenerated x signal isTest =>
    let s' := s.appendSignal { signalId := x, status := .generated, signal := some signal }
    isTest = false → s'.signalWriteCount % 100 = 0 → KeepsStarts s'.skipCount s'.lines
  | .trackEntry x entryPrice _ signalData => s.EntryStands x entryPrice signalData
  | .updateSignalPrices x stopLoss takeProfit => PricesStand x stopLoss takeProfit s.lines
  | .updateSignalExecutionMetadata _ _ | .trackExit _ _ _ _ => True

instance (s : SignalStores) (c : StoreCall) : Decidable (s.Safe c) :=
  match c with
  | .trackSignalGenerated _ _ _ => inferInstanceAs (Decidable (_ → _ → KeepsStarts _ _))
  | .trackEntry x entryPrice _ signalData => inferInstanceAs (Decidable (s.EntryStands x entryPrice signalData))
  | .updateSignalPrices x stopLoss takeProfit => inferInstanceAs (Decidable (PricesStand x stopLoss takeProfit s.lines))
  | .updateSignalExecutionMetadata _ _ | .trackExit _ _ _ _ => inferInstanceAs (Decidable True)

end SignalStores

/-! ### The scan of the file -/

section scan
variable {x : String} {lines : List LineRecord} {s : SignalStores} {rw' : Rewrite} {r : LineRecord}
  {b b' : Option SignalRecord}

def scanRecord (x : String) (b : Option SignalRecord) (r : LineRecord) : Option SignalRecord :=
  SignalStore.scanLine x b r.toSignalRecord

theorem fallback_eq (x : String) (s : SignalStores) :
    s.fallback x = (s.lines.foldl (scanRecord x) none).map fun r => { r with statusChange := false } := by
  show ((s.lines.map LineRecord.toSignalRecord).foldl (SignalStore.scanLine x) none).map _ = _
  rw [List.foldl_map]
  rfl

theorem mem_of_firstLine {l : LineRecord × List LineRecord} (h : l ∈ firstLine x lines) : l.1 ∈ lines := by
  induction lines with
  | nil => cases h
  | cons r rest ih =>
    unfold firstLine at h
    split at h
    · cases h
      exact List.mem_cons_self ..
    · exact List.mem_cons_of_mem _ (ih h)

theorem mem_records (h : r ∈ rw'.records lines) : r ∈ lines ∨ ∃ r' ∈ lines, rw'.update r' = r := by
  induction lines with
  | nil => cases h
  | cons r₀ rest ih =>
    unfold Rewrite.records at h
    split at h
    · rcases List.mem_cons.1 h with rfl | h
      · exact .inr ⟨r₀, List.mem_cons_self .., rfl⟩
      · exact .inl (List.mem_cons_of_mem _ h)
    · rcases List.mem_cons.1 h with rfl | h
      · exact .inl (List.mem_cons_self ..)
      · rcases ih h with h | ⟨r', hr', heq⟩
        · exact .inl (List.mem_cons_of_mem _ h)
        · exact .inr ⟨r', List.mem_cons_of_mem _ hr', heq⟩

theorem scanRecord_ne (h : r.signalId ≠ x) : scanRecord x b r = b := if_pos h

theorem scanRecord_starts (h : r.Starts x) : scanRecord x b r = some r.toSignalRecord := by
  unfold scanRecord SignalStore.scanLine
  rw [if_neg (not_not.2 h.1), if_neg (by rw [h.2]; exact Bool.false_ne_true)]

theorem scanRecord_status (h : r.signalId = x) (hstatus : r.statusChange = true) :
    scanRecord x b r = b.map fun r' => r'.update r.toSignalRecord := by
  unfold scanRecord SignalStore.scanLine
  rw [if_neg (not_not.2 h), if_pos hstatus]

/-- What the scan had found does not matter when the signal starts again. -/
theorem scan_of_starts (h : ∃ r ∈ lines, r.Starts x) : lines.foldl (scanRecord x) b = lines.foldl (scanRecord x) b' := by
  induction lines generalizing b b' with
  | nil =>
    obtain ⟨r, hr, -⟩ := h
    cases hr
  | cons r rest ih =>
    rw [List.foldl_cons, List.foldl_cons]
    by_cases hr : r.Starts x
    · rw [scanRecord_starts hr, scanRecord_starts hr]
    · refine ih ?_
      obtain ⟨r', hr', hstarts⟩ := h
      rcases List.mem_cons.1 hr' with rfl | hr'
      · exact absurd hstarts hr
      · exact ⟨r', hr', hstarts⟩

theorem scan_none (h : ∀ r ∈ lines, ¬ r.Starts x) : lines.foldl (scanRecord x) none = none := by
  induction lines with
  | nil => rfl
  | cons r rest ih =>
    have hr : scanRecord x none r = none := by
      by_cases hx : r.signalId = x
      · have hstatus : r.statusChange = true := by
          rcases Bool.eq_false_or_eq_true r.statusChange with hstatus | hstatus
          · exact hstatus
          · exact absurd ⟨hx, hstatus⟩ (h r (List.mem_cons_self ..))
        rw [scanRecord_status hx hstatus, Option.map_none]
      · exact scanRecord_ne hx
    rw [List.foldl_cons, hr]
    exact ih fun r' hr' => h r' (List.mem_cons_of_mem _ hr')

theorem scan_drop {k : Nat} (h : KeepsStarts k lines) :
    (lines.drop k).foldl (scanRecord x) none = lines.foldl (scanRecord x) none := by
  conv_rhs => rw [← List.take_append_drop k lines, List.foldl_append]
  by_cases hstart : ∃ r ∈ lines.take k, r.Starts x
  · obtain ⟨r, hr, rfl, hbase⟩ := hstart
    exact scan_of_starts (h r hr hbase)
  · rw [scan_none fun r hr hstarts => hstart ⟨r, hr, hstarts⟩]

/-- A rewrite that the scan does not see: of the first line of its signal nothing is read that it changes. -/
theorem scan_records (hid : ∀ r, (rw'.update r).signalId = r.signalId) (hstatus : ∀ r, (rw'.update r).statusChange = r.statusChange)
    (h : ∀ l ∈ firstLine rw'.signalId lines, l.1.statusChange = true ∨ (∃ r ∈ l.2, r.Starts rw'.signalId) ∨
      (rw'.update l.1).toSignalRecord = l.1.toSignalRecord) (hb : x = rw'.signalId → b = none) :
    (rw'.records lines).foldl (scanRecord x) b = lines.foldl (scanRecord x) b := by
  induction lines generalizing b with
  | nil => rfl
  | cons r rest ih =>
    unfold Rewrite.records
    by_cases hr : r.signalId = rw'.signalId
    · rw [if_pos hr, List.foldl_cons, List.foldl_cons]
      by_cases hx : r.signalId = x
      · obtain rfl := hb (hx.symm.trans hr)
        rcases h (r, rest) (by rw [firstLine, if_pos hr]; rfl) with hchange | hstarts | hsame
        · rw [scanRecord_status hx hchange, scanRecord_status ((hid r).trans hx) ((hstatus r).trans hchange)]
          rfl
        · rw [← hr, hx] at hstarts
          exact scan_of_starts hstarts
        · unfold scanRecord
          rw [hsame]
      · rw [scanRecord_ne hx, scanRecord_ne (by rw [hid]; exact hx)]
    · rw [if_neg hr, List.foldl_cons, List.foldl_cons]
      refine ih (fun l hl => h l (by rw [firstLine, if_neg hr]; exact hl)) ?_
      intro hx
      rw [scanRecord_ne fun h => hr (h.trans hx)]
      exact hb hx

end scan

/-! ### Agreement -/

/-- The event of a signal and its record in the file, as the calls keep them. An event that an entry made from the
caller's dictionary has no `signal` of its own. -/
structure Matches (e f : SignalRecord) : Prop where
  status : e.status = f.status
  direction : e.data.direction = f.data.direction
  stopLoss : e.data.stopLoss = f.data.stopLoss
  takeProfit : e.data.takeProfit = f.data.takeProfit
  exit : e.exit = f.exit
  own : e.own.entryPrice = f.own.entryPrice
  nested : f.signal.isSome = true
  entryPrice : (e.signal.isSome = true ∧ e.data.entryPrice = f.data.entryPrice) ∨
    (e.signal = none ∧ ∃ p, f.own.entryPrice = some p ∧ (p = .fin 0 → Falsy f.data.entryPrice))

namespace Matches
variable {e f : SignalRecord}

theorem refl (h : f.signal.isSome = true) : Matches f f := ⟨rfl, rfl, rfl, rfl, rfl, rfl, h, .inl ⟨h, rfl⟩⟩

theorem entryPrice_eq (h : Matches e f) : e.entryPrice = f.entryPrice := by
  unfold SignalRecord.entryPrice
  rcases h.entryPrice with ⟨-, heq⟩ | ⟨hnone, p, hp, hzero⟩
  · rw [h.own, heq]
  · have hdata : e.data = e.own := by rw [SignalRecord.data, hnone, Option.getD_none]
    rw [hdata, h.own, hp]
    by_cases h0 : p = .fin 0
    · subst h0
      have hfalsy : orNum f.data.entryPrice none = none := hzero rfl
      rw [hfalsy]
      rfl
    · have hor (y : Option Number) : orNum (some p) y = some p := if_neg h0
      rw [hor, hor]

theorem view_eq (h : Matches e f) : e.view = f.view := by
  unfold SignalRecord.view
  rw [h.status, h.direction, h.entryPrice_eq, h.stopLoss, h.takeProfit, h.exit]

theorem data_update {r c : SignalRecord} (hc : c.signal = none) (hr : r.signal.isSome = true) : (r.update c).data = r.data := by
  obtain ⟨d, hd⟩ := Option.isSome_iff_exists.1 hr
  unfold SignalRecord.data SignalRecord.update
  rw [hc, hd]
  rfl

theorem data_update_own {r c : SignalRecord} (hc : c.signal = none) (hr : r.signal = none) :
    (r.update c).data = r.own.update c.own := by
  unfold SignalRecord.data SignalRecord.update
  rw [hc, hr]
  rfl

end Matches

/-- The keys of a status change: neither the signal dictionary nor the keys that the view reads of it. -/
structure StatusKeys (c : SignalRecord) : Prop where
  signal : c.signal = none
  direction : c.own.direction = none
  stopLoss : c.own.stopLoss = none
  takeProfit : c.own.takeProfit = none

theorem StatusKeys.data_update {c : SignalRecord} (hc : StatusKeys c) (r : SignalRecord) :
    (r.update c).data.direction = r.data.direction ∧ (r.update c).data.stopLoss = r.data.stopLoss ∧
      (r.update c).data.takeProfit = r.data.takeProfit := by
  rcases hr : r.signal with _ | d
  · rw [Matches.data_update_own hc.signal hr, SignalRecord.data, hr]
    simp [SignalData.update, hc.direction, hc.stopLoss, hc.takeProfit]
  · rw [Matches.data_update hc.signal (by rw [hr]; rfl)]
    exact ⟨rfl, rfl, rfl⟩

namespace Matches
variable {e f c : SignalRecord}

theorem update (h : Matches e f) (hc : StatusKeys c)
    (hentry : ∀ p, c.own.entryPrice = some p → p = .fin 0 → Falsy f.data.entryPrice ∨ e.signal.isSome = true) :
    Matches (e.update c) { f.update c with statusChange := false } := by
  have hf : ({ f.update c with statusChange := false } : SignalRecord).data = f.data := data_update hc.signal h.nested
  have hown : (e.update c).own.entryPrice = (f.update c).own.entryPrice := by
    show (c.own.entryPrice <|> e.own.entryPrice) = (c.own.entryPrice <|> f.own.entryPrice)
    rw [h.own]
  obtain ⟨hdirection, hstop, htake⟩ := hc.data_update e
  refine ⟨rfl, ?_, ?_, ?_, ?_, hown, ?_, ?_⟩
  · rw [hf, hdirection, h.direction]
  · rw [hf, hstop, h.stopLoss]
  · rw [hf, htake, h.takeProfit]
  · show (c.exit <|> e.exit) = (c.exit <|> f.exit)
    rw [h.exit]
  · show (c.signal <|> f.signal).isSome = true
    rw [hc.signal]
    exact h.nested
  · rcases h.entryPrice with ⟨hnested, heq⟩ | ⟨hnone, p, hp, hzero⟩
    · refine .inl ⟨?_, ?_⟩
      · show (c.signal <|> e.signal).isSome = true
        rw [hc.signal]
        exact hnested
      · rw [hf, data_update hc.signal hnested, heq]
    · refine .inr ⟨?_, ?_⟩
      · show (c.signal <|> e.signal) = none
        rw [hc.signal, hnone]
        rfl
      · rcases hprice : c.own.entryPrice with _ | q
        · refine ⟨p, ?_, by rw [hf]; exact hzero⟩
          show (c.own.entryPrice <|> f.own.entryPrice) = some p
          rw [hprice, hp]
          rfl
        · refine ⟨q, ?_, fun h0 => ?_⟩
          · show (c.own.entryPrice <|> f.own.entryPrice) = some q
            rw [hprice]
            rfl
          · rw [hf]
            refine (hentry q hprice h0).resolve_right ?_
            rw [hnone]
            exact Bool.false_ne_true

theorem entered {x : String} {d : SignalData} {price : Number} {time : ℚ} (hf : f.signal.isSome = true) (hd : d.Retells f)
    (hzero : price = .fin 0 → Falsy f.data.entryPrice) :
    let c : SignalRecord :=
      { signalId := x, status := .entered, own := { entryPrice := some price }, entryTime := some time }
    Matches (({ signalId := x, status := .entered, own := d } : SignalRecord).update c)
      { f.update c with statusChange := false } := by
  intro c
  obtain ⟨hdirection, hstop, htake, hexit⟩ := hd
  have hdata : ({ f.update c with statusChange := false } : SignalRecord).data = f.data := data_update rfl hf
  refine ⟨rfl, ?_, ?_, ?_, ?_, rfl, hf, .inr ⟨rfl, price, rfl, ?_⟩⟩
  · rw [hdata, ← hdirection]
    rfl
  · rw [hdata, ← hstop]
    rfl
  · rw [hdata, ← htake]
    rfl
  · show none = (none <|> f.exit)
    rw [hexit]
    rfl
  · rw [hdata]
    exact hzero

end Matches

namespace SignalStores

/-- A line that starts a signal has its dictionary, and the two stores match. -/
structure Inv (s : SignalStores) : Prop where
  starts : ∀ r ∈ s.lines, r.statusChange = false → r.signal.isSome = true
  records : ∀ x, Option.Rel Matches (s.getSignalEventById x) (s.fallback x)

variable {s : SignalStores} {x : String}

theorem Inv.agree (h : s.Inv) : s.Agree := by
  intro x
  have hrecords := h.records x
  generalize s.getSignalEventById x = e at hrecords ⊢
  generalize s.fallback x = f at hrecords ⊢
  cases hrecords with
  | some hmatches => exact congrArg some hmatches.view_eq
  | none => rfl

theorem Inv.event (h : s.Inv) {f : SignalRecord} (hf : s.fallback x = some f) :
    ∃ e, s.getSignalEventById x = some e ∧ Matches e f := by
  have hrecords := h.records x
  rw [hf] at hrecords
  generalize s.getSignalEventById x = e at hrecords ⊢
  cases hrecords with
  | some hmatches => exact ⟨_, rfl, hmatches⟩

theorem file_of_fallback {f : SignalRecord} (h : s.fallback x = some f) : ∃ lines, s.signalsFile = some lines := by
  rw [← Option.isSome_iff_exists]
  by_contra hnone
  rw [Option.not_isSome_iff_eq_none] at hnone
  rw [fallback_eq, lines, hnone] at h
  cases h

theorem getSignalEventById_concat {r : SignalRecord} {events : List SignalRecord} (h : s.events = events ++ [r]) :
    s.getSignalEventById x = if r.signalId = x then some r else events.findRev? fun r => r.signalId = x := by
  unfold getSignalEventById
  rw [h, findRev?_concat]
  simp

/-! ### The calls -/

theorem fallback_status {c : SignalRecord} {pre : Option SignalRecord} {ser : Bool} {l : List LineRecord}
    (hfile : s.signalsFile = some l) : (s.updateSignalStatus c pre ser).fallback x =
      if c.signalId = x then (s.fallback x).map fun f => { f.update c with statusChange := false } else s.fallback x := by
  have hlines : (s.updateSignalStatus c pre ser).lines =
      s.lines ++ [{ toSignalRecord := { c with statusChange := true } }] := by
    unfold updateSignalStatus lines
    rw [hfile]
    rfl
  rw [fallback_eq, hlines, List.foldl_append, fallback_eq]
  show (scanRecord x _ _).map _ = _
  split
  next hx =>
    rw [scanRecord_status hx rfl, Option.map_map, Option.map_map]
    rfl
  next hx => rw [scanRecord_ne hx]

/-- The payload of the event matches what the status change makes of the record in the file. -/
theorem Inv.status (h : s.Inv) {c f : SignalRecord} {pre : Option SignalRecord} (hf : s.fallback c.signalId = some f)
    (hpayload : ∀ e ∈ pre <|> s.getSignalEventById c.signalId, Matches (e.update c) { f.update c with statusChange := false })
    (hpre : (pre <|> s.getSignalEventById c.signalId).isSome = true) : (s.updateSignalStatus c pre true).Inv := by
  obtain ⟨l, hfile⟩ := file_of_fallback hf
  obtain ⟨e, he⟩ := Option.isSome_iff_exists.1 hpre
  have hevents : (s.updateSignalStatus c pre true).events = s.events ++ [e.update c] := by
    unfold updateSignalStatus
    dsimp only
    rw [he]
    rfl
  refine ⟨?_, fun x => ?_⟩
  · have hlines : (s.updateSignalStatus c pre true).lines =
        s.lines ++ [{ toSignalRecord := { c with statusChange := true } }] := by
      unfold updateSignalStatus lines
      rw [hfile]
      rfl
    rw [hlines]
    refine forall_mem_concat h.starts fun hstatus => ?_
    cases hstatus
  · rw [getSignalEventById_concat hevents, fallback_status hfile]
    show Option.Rel Matches (if c.signalId = x then _ else _) _
    split
    next hx =>
      rw [← hx, hf]
      exact .some (hpayload e he)
    · exact h.records x

theorem Inv.entry (h : s.Inv) {price : Number} {time : ℚ} {signalData : Option (SignalData × Bool)}
    (hsafe : s.EntryStands x price signalData) : (s.trackEntry x price time signalData).Inv := by
  obtain ⟨f, hf, hdata, hzero⟩ := hsafe
  obtain ⟨e, he, hmatches⟩ := h.event hf
  unfold trackEntry
  rcases signalData with _ | ⟨d, ser⟩
  · refine h.status hf ?_ ?_
    · intro e' he'
      have he' : e' ∈ s.getSignalEventById x := he'
      obtain rfl := Option.some.inj (he.symm.trans he')
      refine hmatches.update ⟨rfl, rfl, rfl, rfl⟩ ?_
      rintro _ ⟨⟩ h0
      exact (hzero h0).imp_right fun hnested => hnested.2 e he
    · show (s.getSignalEventById x).isSome = true
      rw [he]
      rfl
  · obtain ⟨hser, hretells⟩ := hdata (d, ser) rfl
    obtain rfl : ser = true := hser
    refine h.status hf ?_ rfl
    rintro _ ⟨⟩
    refine Matches.entered ?_ hretells ?_
    · exact hmatches.nested
    · intro h0
      refine (hzero h0).resolve_right ?_
      rintro ⟨hnone, -⟩
      cases hnone

theorem Inv.fallback_of_record (h : s.Inv) {r : SignalRecord} (hr : s.store.getSignalRecord x = some r) :
    ∃ f, s.fallback x = some f := by
  rcases hf : s.fallback x with _ | f
  · have hrecords := h.records x
    rw [hf] at hrecords
    have hevent : (s.store.events.bind fun evs => evs.findRev? fun r => r.signalId = x) = none := by
      show s.getSignalEventById x = none
      generalize s.getSignalEventById x = e at hrecords ⊢
      cases hrecords
      rfl
    unfold SignalStore.getSignalRecord at hr
    rw [hevent] at hr
    cases hf.symm.trans hr
  · exact ⟨f, rfl⟩

theorem Inv.exited (h : s.Inv) {price : Number} {reason : String} {time : ℚ} : (s.trackExit x price reason time).Inv := by
  unfold trackExit
  split
  · exact h
  next r hr =>
    split
    · exact h
    · split
      · exact h
      next perf hperf =>
        obtain rfl : perf.signalId = x := exitPerformance_signalId hperf
        obtain ⟨f, hf⟩ := h.fallback_of_record hr
        obtain ⟨e, he, hmatches⟩ := h.event hf
        refine h.status hf ?_ ?_
        · intro e' he'
          have he' : e' ∈ s.getSignalEventById perf.signalId := he'
          obtain rfl := Option.some.inj (he.symm.trans he')
          refine hmatches.update ⟨rfl, rfl, rfl, rfl⟩ ?_
          rintro p ⟨⟩
        · show (s.getSignalEventById perf.signalId).isSome = true
          rw [he]
          rfl

theorem Inv.rewrite (h : s.Inv) {rw' : Rewrite} (hid : ∀ r, (rw'.update r).signalId = r.signalId)
    (hstatus : ∀ r, (rw'.update r).statusChange = r.statusChange) (hnested : ∀ r, (rw'.update r).signal.isSome = true)
    (hseen : ∀ l ∈ firstLine rw'.signalId s.lines, l.1.statusChange = true ∨ (∃ r ∈ l.2, r.Starts rw'.signalId) ∨
      (rw'.update l.1).toSignalRecord = l.1.toSignalRecord) : (s.rewrite rw').Inv := by
  unfold SignalStores.rewrite
  split
  · have hlines : lines { s with signalsFile := s.signalsFile.map rw'.records } = rw'.records s.lines := by
      unfold lines
      cases s.signalsFile <;> rfl
    refine ⟨?_, fun x => ?_⟩
    · rw [hlines]
      intro r hr hbase
      rcases mem_records hr with hr | ⟨r', -, rfl⟩
      · exact h.starts r hr hbase
      · exact hnested r'
    · rw [fallback_eq, hlines, scan_records hid hstatus hseen fun _ => rfl, ← fallback_eq]
      exact h.records x
  · exact h

theorem Inv.metadata (h : s.Inv) {fields : ExecutionFields} : (s.rewrite (.executionMetadata x fields)).Inv := by
  refine h.rewrite (fun _ => rfl) (fun _ => rfl) (fun _ => rfl) ?_
  intro l hl
  rcases Bool.eq_false_or_eq_true l.1.statusChange with hstatus | hstatus
  · exact .inl hstatus
  · obtain ⟨d, hd⟩ := Option.isSome_iff_exists.1 (h.starts l.1 (mem_of_firstLine hl) hstatus)
    refine .inr (.inr ?_)
    show { l.1.toSignalRecord with signal := some (l.1.signal.getD {}) } = l.1.toSignalRecord
    rw [hd, Option.getD_some, ← hd]

theorem Inv.prices (h : s.Inv) {stopLoss takeProfit : Option Number} (hsafe : PricesStand x stopLoss takeProfit s.lines) :
    (s.rewrite (.prices x stopLoss takeProfit)).Inv := by
  refine h.rewrite (fun _ => rfl) (fun _ => rfl) (fun _ => rfl) ?_
  intro l hl
  rcases hsafe l hl with hstatus | hstarts | ⟨hstop, htake⟩
  · exact .inl hstatus
  · exact .inr (.inl hstarts)
  rcases Bool.eq_false_or_eq_true l.1.statusChange with hstatus | hstatus
  · exact .inl hstatus
  obtain ⟨d, hd⟩ := Option.isSome_iff_exists.1 (h.starts l.1 (mem_of_firstLine hl) hstatus)
  have hdata : l.1.data = d := by rw [SignalRecord.data, hd, Option.getD_some]
  have hsame : d.update { stopLoss, takeProfit } = d := by
    have hstop' : (stopLoss <|> d.stopLoss) = d.stopLoss := by
      cases stopLoss with
      | none => rfl
      | some p => rw [← hdata, hstop p rfl]; rfl
    have htake' : (takeProfit <|> d.takeProfit) = d.takeProfit := by
      cases takeProfit with
      | none => rfl
      | some p => rw [← hdata, htake p rfl]; rfl
    show SignalData.mk _ _ _ _ (stopLoss <|> d.stopLoss) (takeProfit <|> d.takeProfit) _ _ _ = d
    rw [hstop', htake']
    rfl
  refine .inr (.inr ?_)
  show { l.1.toSignalRecord with signal := some ((l.1.signal.getD {}).update { stopLoss, takeProfit }) } = l.1.toSignalRecord
  rw [hd, Option.getD_some, hsame, ← hd]

theorem lines_rotate (s : SignalStores) : s.rotate.lines = s.lines.drop s.skipCount := by
  unfold rotate
  split
  next hfew =>
    have hskip : s.skipCount = 0 := by
      unfold skipCount
      omega
    rw [hskip, List.drop_zero]
  · show (s.signalsFile.map fun lines => lines.drop s.skipCount).getD [] = (s.signalsFile.getD []).drop s.skipCount
    cases s.signalsFile with
    | none => exact List.drop_nil.symm
    | some l => rfl

theorem events_saveSignal (record : LineRecord) (s : SignalStores) :
    (s.saveSignal record).events = s.events ++ [record.toSignalRecord] := by
  let s' := s.appendSignal record
  unfold saveSignal
  show (if s'.signalWriteCount % 100 = 0 then s'.rotate else s').events ++ _ = _
  congr 1
  split
  · unfold rotate
    split <;> rfl
  · rfl

theorem Inv.generated (h : s.Inv) {signal : SignalData} {isTest : Bool}
    (hsafe : s.Safe (.trackSignalGenerated x signal isTest)) : (s.trackSignalGenerated x signal isTest).Inv := by
  unfold trackSignalGenerated
  split
  · exact h
  next htest =>
    let record : LineRecord := { signalId := x, status := .generated, signal := some signal }
    let s' := s.appendSignal record
    have hlines : s'.lines = s.lines ++ [record] := rfl
    have hstarts : ∀ r ∈ s'.lines, r.statusChange = false → r.signal.isSome = true := by
      rw [hlines]
      exact forall_mem_concat h.starts fun _ => rfl
    -- the lines that are kept start the same signals, and the scan finds what it found before
    obtain ⟨k, hk, hkeep⟩ : ∃ k, (if s'.signalWriteCount % 100 = 0 then s'.rotate else s').lines = s'.lines.drop k ∧
        KeepsStarts k s'.lines := by
      split
      next hrotate => exact ⟨s'.skipCount, lines_rotate s', hsafe (Bool.eq_false_iff.2 htest) hrotate⟩
      · refine ⟨0, List.drop_zero.symm, fun r hr => ?_⟩
        rw [List.take_zero] at hr
        cases hr
    have hevents := events_saveSignal record s
    have hsaved : (s.saveSignal record).lines = s'.lines.drop k := hk
    refine ⟨?_, fun y => ?_⟩
    · rw [hsaved]
      exact fun r hr => hstarts r (List.mem_of_mem_drop hr)
    · rw [getSignalEventById_concat hevents, fallback_eq, hsaved, scan_drop hkeep, hlines, List.foldl_append]
      show Option.Rel Matches (if x = y then _ else _) ((scanRecord y _ record).map _)
      split
      next hy =>
        rw [scanRecord_starts ⟨hy, rfl⟩]
        exact .some (Matches.refl rfl)
      next hy =>
        rw [scanRecord_ne hy, ← fallback_eq]
        exact h.records y

theorem Inv.step (h : s.Inv) {c : StoreCall} (hsafe : s.Safe c) : (s.apply c).Inv := by
  cases c with
  | trackSignalGenerated x signal isTest => exact h.generated hsafe
  | updateSignalExecutionMetadata x fields => exact h.metadata
  | trackEntry x price time signalData => exact h.entry hsafe
  | updateSignalPrices x stopLoss takeProfit => exact h.prices hsafe
  | trackExit x price reason time => exact h.exited

end SignalStores

/-- From empty stores, in every run whose calls are safe the stores tell the same of every signal. -/
theorem stores_agree (s₀ s : SignalStores) (hlines : s₀.lines = []) (hevents : s₀.events = [])
    (h : Reach SignalStores.step SignalStores.Safe s₀ s) : s.Agree := by
  refine SignalStores.Inv.agree (h.invariant ⟨?_, fun x => ?_⟩ ?_)
  · rw [hlines]
    simp
  · rw [fallback_eq, hlines, SignalStores.getSignalEventById, hevents]
    exact .none
  · rintro s c _ hinv hsafe ⟨⟩
    exact hinv.step hsafe

/-- A signal with its prices. -/
def pricedSignal : SignalData :=
  { direction := some "long", entryPrice := some (.fin 100), stopLoss := some (.fin 95), takeProfit := some (.fin 110) }

/-- A signal that is generated, executed, entered with its own dictionary, and exited. -/
def sampleCalls : List StoreCall :=
  [.trackSignalGenerated "s1" pricedSignal false, .updateSignalExecutionMetadata "s1" { orderId := some "7" },
    .trackEntry "s1" (.fin 101) 0 (some (pricedSignal, true)), .trackExit "s1" (.fin 110) "take_profit" 60]

theorem stores_agree_sample : ∃ s : SignalStores, s.Agree ∧
    (s.fallback "s1").map SignalRecord.view = some ⟨.exited, some "long", .fin 101, some (.fin 95), some (.fin 110), some 18⟩ := by
  obtain ⟨s, hreach, hs⟩ := exists_reach SignalStores.step SignalStores.Safe {} sampleCalls
    (fun s => (s.fallback "s1").map SignalRecord.view =
      some ⟨.exited, some "long", .fin 101, some (.fin 95), some (.fin 110), some 18⟩) (by decide +kernel)
  exact ⟨s, stores_agree {} s rfl rfl hreach, of_decide_eq_true hs⟩

/-- A trailing stop is written to the file only. -/
theorem stores_disagree : ¬ ∀ s, Reach SignalStores.step AnyStep {} s → s.Agree := by
  intro hall
  obtain ⟨s, hreach, hs⟩ := exists_reach SignalStores.step AnyStep {}
    [.trackSignalGenerated "s1" pricedSignal false, .trackEntry "s1" (.fin 101) 0 none,
      .updateSignalPrices "s1" (some (.fin 99)) none]
    (fun s => (s.getSignalEventById "s1").map SignalRecord.view ≠ (s.fallback "s1").map SignalRecord.view) (by decide +kernel)
  exact of_decide_eq_true hs (hall s hreach "s1")

end PearlAlgo
