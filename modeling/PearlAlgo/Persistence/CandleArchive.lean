import PearlAlgo.Py.Number
import PearlAlgo.Sql.Select

/-!
# The candle archive (`persistence/candle_archive.py`)

One SQLite connection in autocommit mode; `append_bars` opens and ends its transaction itself. A field of a bar is what
`int(x)` and `float(x)` make of it. `refines_iff` says when the archive is a map from symbol, timeframe and time to the
last accepted bar.
-/

namespace PearlAlgo
open Py Sql

/-- What `int` and `float` can raise; a missing key raises too. -/
inductive BarErr
  | keyError
  | typeError
  | valueError
  | overflowError
deriving DecidableEq

structure BarValue where
  int : Except BarErr Int
  float : Except BarErr Number

/-- An `int`; the float is exact as far as 53 bits go. -/
def BarValue.ofInt (n : Int) : BarValue where
  int := .ok n
  float := if |n| < 2 ^ 1024 then .ok (.fin n) else .error .overflowError

def BarValue.ofFloat (x : ℚ) : BarValue := ⟨.ok (truncInt x), .ok (.fin x)⟩

/-- A bar as `append_bars` is given it. -/
structure BarDict where
  time : Option BarValue
  «open» : Option BarValue
  high : Option BarValue
  low : Option BarValue
  close : Option BarValue
  volume : Option BarValue := none

structure Candle where
  «open» : Number
  high : Number
  low : Number
  close : Number
  volume : Number
deriving DecidableEq

/-- The primary key without symbol and timeframe, and the rest of a row. -/
abbrev BarRow := Int × Candle

structure CandleKey where
  symbol : String
  tf : String
  ts : Int
deriving DecidableEq

def ACCEPTED_TFS : List String := ["1m", "5m", "15m", "30m", "1h", "4h", "1d"]

/-! ### The rows of a batch -/

def BarDict.row (b : BarDict) : Except BarErr BarRow := do
  let field (v : Option BarValue) : Except BarErr BarValue := v.elim (.error .keyError) .ok
  let ts ← (← field b.time).int
  let o ← (← field b.open).float
  let h ← (← field b.high).float
  let lo ← (← field b.low).float
  let c ← (← field b.close).float
  let v ← (b.volume.getD (.ofFloat 0)).float
  return (ts, ⟨o, h, lo, c, v⟩)

/-- The row is inserted. -/
def accepted (r : BarRow) : Bool :=
  ¬ r.1 ≤ 0 ∧ .fin 0 < r.2.open ∧ .fin 0 < r.2.high ∧ .fin 0 < r.2.low ∧ .fin 0 < r.2.close

/-- `rows`: bars that do not read as one are left out, but an overflow raises. -/
def batchRows : List BarDict → Except BarErr (List BarRow)
  | [] => .ok []
  | b :: bars =>
    match b.row with
    | .ok r => (batchRows bars).map fun rows => if accepted r then r :: rows else rows
    | .error .overflowError => .error .overflowError
    | .error _ => batchRows bars

/-! ### The connection -/

inductive ArchiveErr
  | valueError
  | overflowError
  /-- `sqlite3.Error` -/
  | sqliteError
deriving DecidableEq

abbrev CandleTable := Dict CandleKey Candle

structure CandleArchive where
  committed : CandleTable := .empty
  /-- The table as the open transaction has it. -/
  transaction : Option CandleTable := none
  writeCount : Nat := 0
  rowsWritten : Nat := 0
deriving DecidableEq

/-- A number that SQLite can store as `INTEGER`. -/
def FitsInt64 (n : Int) : Prop := -2 ^ 63 ≤ n ∧ n < 2 ^ 63

instance (n : Int) : Decidable (FitsInt64 n) := inferInstanceAs (Decidable (_ ∧ _))

structure BarsBatch where
  symbol : String
  tf : String
  bars : List BarDict

structure BarsQuery where
  symbol : String
  tf : String
  tsFrom : Option Int := none
  tsTo : Option Int := none
  limit : Int := 1000

def BarsQuery.pick (q : BarsQuery) (k : CandleKey) : Option Int :=
  if k.symbol = q.symbol ∧ k.tf = q.tf ∧ (∀ t ∈ q.tsFrom, t ≤ k.ts) ∧ (∀ t ∈ q.tsTo, k.ts ≤ t) then some k.ts else none

namespace CandleArchive

/-- What the connection sees. -/
def table (a : CandleArchive) : CandleTable := a.transaction.getD a.committed

/-- `BEGIN` -/
def begin (a : CandleArchive) : Except ArchiveErr CandleArchive :=
  if a.transaction.isSome then .error .sqliteError else .ok { a with transaction := some a.committed }

def commit (a : CandleArchive) : CandleArchive := { a with committed := a.table, transaction := none }

def rollback (a : CandleArchive) : CandleArchive := { a with transaction := none }

/-- Why a row cannot be inserted: its time does not fit, or its volume is `nan`, which is stored as `NULL`. -/
def rowErr (r : BarRow) : Option ArchiveErr :=
  if ¬ FitsInt64 r.1 then some .overflowError else if r.2.volume = .nan then some .sqliteError else none

/-- `executemany`; the rows before one that raises stay. -/
def executemany (symbol tf : String) : List BarRow → CandleArchive → Option ArchiveErr × CandleArchive
  | [], a => (none, a)
  | r :: rows, a =>
    match rowErr r with
    | some e => (some e, a)
    | none => executemany symbol tf rows { a with transaction := some (a.table.set ⟨symbol, tf, r.1⟩ r.2) }

/-- `with self._lock`: the transaction of a batch. Only `sqlite3.Error` rolls it back. -/
def appendRows (symbol tf : String) (rows : List BarRow) (a : CandleArchive) : Except ArchiveErr Nat × CandleArchive :=
  match a.begin with
  | .error e => (.error e, a.rollback)
  | .ok a' =>
    match a'.executemany symbol tf rows with
    | (none, a') =>
      (.ok rows.length,
        { a'.commit with writeCount := a'.writeCount + 1, rowsWritten := a'.rowsWritten + rows.length })
    | (some .sqliteError, a') => (.error .sqliteError, a'.rollback)
    | (some e, a') => (.error e, a')

def appendBars (b : BarsBatch) (a : CandleArchive) : Except ArchiveErr Nat × CandleArchive :=
  if b.tf ∉ ACCEPTED_TFS then (.error .valueError, a)
  else
    match batchRows b.bars with
    | .error _ => (.error .overflowError, a)
    | .ok [] => (.ok 0, a)
    | .ok (r :: rows) => a.appendRows b.symbol b.tf (r :: rows)

def queryRange (q : BarsQuery) (a : CandleArchive) : Except ArchiveErr (List BarRow) :=
  if (∀ t ∈ q.tsFrom, FitsInt64 t) ∧ (∀ t ∈ q.tsTo, FitsInt64 t) ∧ FitsInt64 q.limit then
    .ok (select q.pick q.limit a.table)
  else .error .overflowError

/-! ### Calls -/

inductive Call
  | appendBars (b : BarsBatch)
  | queryRange (q : BarsQuery)

inductive Output
  | appended (result : Except ArchiveErr Nat)
  | rows (result : Except ArchiveErr (List BarRow))
deriving DecidableEq

def call (a : CandleArchive) : Call → Output × CandleArchive
  | .appendBars b => (.appended (a.appendBars b).1, (a.appendBars b).2)
  | .queryRange q => (.rows (a.queryRange q), a)

def outputs (a : CandleArchive) : List Call → List Output
  | [] => []
  | c :: calls => (a.call c).1 :: (a.call c).2.outputs calls

/-! ### The map -/

abbrev CandleMap := CandleKey → Option Candle

/-- The map after a batch: of the rows with the same time the last one wins. -/
def write (symbol tf : String) (rows : List BarRow) (m : CandleMap) : CandleMap :=
  rows.foldl (fun m r k => if k = ⟨symbol, tf, r.1⟩ then some r.2 else m k) m

/-- The calls see the map `m`: a query answers with the first `limit` bars within its bounds in ascending order, a batch
writes its rows, and one that raises leaves all later calls as they were. -/
def Refines (a : CandleArchive) (m : CandleMap) : List Call → Prop
  | [] => True
  | .queryRange q :: calls => (∃ rows, a.queryRange q = .ok rows ∧ Answers m q.pick q.limit rows) ∧ a.Refines m calls
  | .appendBars b :: calls =>
    match a.appendBars b with
    | (.ok n, a') => ∃ rows, batchRows b.bars = .ok rows ∧ n = rows.length ∧ a'.Refines (write b.symbol b.tf rows m) calls
    | (.error _, a') => (∀ later, a'.outputs later = a.outputs later) ∧ a'.Refines m calls

/-- The first row of the batch that cannot be inserted, if there is one, has a time that fits in 64 bits; the bounds and
the limit of a query do. -/
def Call.Fits : Call → Prop
  | .appendBars b => b.tf ∈ ACCEPTED_TFS → ∀ rows, batchRows b.bars = .ok rows →
      ∀ r ∈ rows.find? (fun r => (rowErr r).isSome), FitsInt64 r.1
  | .queryRange q => (∀ t ∈ q.tsFrom, FitsInt64 t) ∧ (∀ t ∈ q.tsTo, FitsInt64 t) ∧ FitsInt64 q.limit

variable {a a' : CandleArchive} {m : CandleMap} {symbol tf : String} {rows : List BarRow} {b : BarsBatch} {q : BarsQuery}

/-! ### A batch in its transaction -/

theorem executemany_fst (symbol tf : String) (rows : List BarRow) (a : CandleArchive) :
    (a.executemany symbol tf rows).1 = (rows.find? fun r => (rowErr r).isSome).bind rowErr := by
  induction rows generalizing a with
  | nil => rfl
  | cons r rows ih =>
    rw [executemany, List.find?_cons]
    rcases hr : rowErr r with _ | e
    · exact ih _
    · exact hr.symm

/-- The rows go into the transaction. -/
theorem executemany_snd (symbol tf : String) (rows : List BarRow) (h : a.transaction.isSome) :
    ∃ t, (a.executemany symbol tf rows).2 = { a with transaction := some t } := by
  induction rows generalizing a with
  | nil =>
    obtain ⟨t, ht⟩ := Option.isSome_iff_exists.1 h
    exact ⟨t, by rw [executemany, ← ht]⟩
  | cons r rows ih =>
    rw [executemany]
    rcases rowErr r with _ | e
    · obtain ⟨t, ht⟩ := ih (a := { a with transaction := some (a.table.set ⟨symbol, tf, r.1⟩ r.2) }) rfl
      exact ⟨t, ht⟩
    · obtain ⟨t, ht⟩ := Option.isSome_iff_exists.1 h
      exact ⟨t, by rw [← ht]⟩

theorem write_cons (symbol tf : String) (r : BarRow) (rows : List BarRow) (m : CandleMap) :
    write symbol tf (r :: rows) m = write symbol tf rows (fun k => if k = ⟨symbol, tf, r.1⟩ then some r.2 else m k) := rfl

theorem get?_executemany (symbol tf : String) (rows : List BarRow) (h : (a.executemany symbol tf rows).1 = none) :
    (a.executemany symbol tf rows).2.table.get? = write symbol tf rows a.table.get? := by
  induction rows generalizing a with
  | nil => rfl
  | cons r rows ih =>
    rw [executemany] at h ⊢
    rcases hr : rowErr r with _ | e
    · rw [hr] at h
      dsimp only at h ⊢
      rw [ih h, write_cons]
      congr 1
      funext k
      exact Dict.get?_set _ _ _ _
    · rw [hr] at h
      cases h

/-- A batch says what a key has, or nothing about it. -/
theorem write_at (symbol tf : String) (rows : List BarRow) (k : CandleKey) :
    (∃ c, ∀ m : CandleMap, write symbol tf rows m k = some c) ∨ ∀ m : CandleMap, write symbol tf rows m k = m k := by
  induction rows with
  | nil => exact .inr fun m => rfl
  | cons r rows ih =>
    simp only [write_cons]
    rcases ih with ⟨c, hc⟩ | hsame
    · exact .inl ⟨c, fun m => hc _⟩
    · by_cases hk : k = ⟨symbol, tf, r.1⟩
      · exact .inl ⟨r.2, fun m => (hsame _).trans (if_pos hk)⟩
      · exact .inr fun m => (hsame _).trans (if_neg hk)

/-- Writing a batch again changes no candle. -/
theorem write_write (symbol tf : String) (rows : List BarRow) (m : CandleMap) :
    write symbol tf rows (write symbol tf rows m) = write symbol tf rows m := by
  funext k
  rcases write_at symbol tf rows k with ⟨c, hc⟩ | hsame
  · rw [hc, hc]
  · exact hsame _

/-! ### One call -/

/-- The transaction of a batch on an archive without an open one, by the first row that cannot be inserted. -/
theorem appendRows_cases (hclean : a.transaction = none) (symbol tf : String) (rows : List BarRow) :
    (∃ a', a.appendRows symbol tf rows = (.ok rows.length, a') ∧ rows.find? (fun r => (rowErr r).isSome) = none ∧
      a'.transaction = none ∧ a'.table.get? = write symbol tf rows a.table.get?) ∨
    ∃ r ∈ rows.find? (fun r => (rowErr r).isSome),
      FitsInt64 r.1 ∧ a.appendRows symbol tf rows = (.error .sqliteError, a) ∨
      ¬ FitsInt64 r.1 ∧ ∃ a', a.appendRows symbol tf rows = (.error .overflowError, a') ∧ a'.transaction.isSome := by
  let opened : CandleArchive := { a with transaction := some a.committed }
  have hbegin : a.begin = .ok opened := by rw [begin, hclean]; rfl
  have htable : opened.table = a.table := by rw [table, table, hclean]; rfl
  have hfst := executemany_fst symbol tf rows opened
  obtain ⟨t, hsnd⟩ := executemany_snd (a := opened) symbol tf rows rfl
  unfold appendRows
  rw [hbegin]
  dsimp only
  rcases hexec : opened.executemany symbol tf rows with ⟨e, a'⟩
  rw [hexec] at hfst hsnd
  dsimp only at hfst hsnd
  rcases hbad : rows.find? (fun r => (rowErr r).isSome) with _ | r
  · rw [hbad] at hfst
    obtain rfl : e = none := hfst
    have hget : a'.table.get? = write symbol tf rows opened.table.get? := by
      have h := get?_executemany (a := opened) symbol tf rows (by rw [hexec])
      rwa [hexec] at h
    rw [htable] at hget
    exact .inl ⟨_, rfl, rfl, rfl, hget⟩
  · rw [hbad] at hfst
    obtain rfl : e = rowErr r := hfst
    have hr := List.find?_some hbad
    refine .inr ⟨r, rfl, ?_⟩
    by_cases hfit : FitsInt64 r.1
    · have herr : rowErr r = some .sqliteError := by
        rw [rowErr, if_neg (not_not.2 hfit)] at hr ⊢
        split at hr
        next hnan => rw [if_pos hnan]
        · cases hr
      have hback : a'.rollback = a := by
        rw [hsnd, rollback, ← hclean]
      refine .inl ⟨hfit, ?_⟩
      rw [herr]
      dsimp only
      rw [hback]
    · have herr : rowErr r = some .overflowError := by rw [rowErr, if_pos hfit]
      refine .inr ⟨hfit, a', ?_, ?_⟩
      · rw [herr]
      · rw [hsnd]
        rfl

/-- What a call of `append_bars` can do to an archive without an open transaction: raise and leave it, write its rows, or
leave a transaction open where a time does not fit. -/
theorem appendBars_cases (hclean : a.transaction = none) (b : BarsBatch) :
    Call.Fits (.appendBars b) ∧ (∃ e, a.appendBars b = (.error e, a)) ∨
    Call.Fits (.appendBars b) ∧ (∃ rows a', a.appendBars b = (.ok rows.length, a') ∧ batchRows b.bars = .ok rows ∧
      a'.transaction = none ∧ a'.table.get? = write b.symbol b.tf rows a.table.get?) ∨
    ¬ Call.Fits (.appendBars b) ∧ ∃ e a', a.appendBars b = (.error e, a') ∧ a'.transaction.isSome := by
  by_cases htf : b.tf ∉ ACCEPTED_TFS
  · refine .inl ⟨fun htf' => absurd htf' htf, .valueError, ?_⟩
    rw [appendBars, if_pos htf]
  · rcases hrows : batchRows b.bars with e | rows
    · refine .inl ⟨fun _ rows hrows' => ?_, .overflowError, ?_⟩
      · rw [hrows] at hrows'
        cases hrows'
      · rw [appendBars, if_neg htf, hrows]
    · have hfits : Call.Fits (.appendBars b) ↔ ∀ r ∈ rows.find? (fun r => (rowErr r).isSome), FitsInt64 r.1 := by
        constructor
        · exact fun h => h (not_not.1 htf) rows hrows
        · rintro h - rows' hrows'
          rw [hrows] at hrows'
          cases hrows'
          exact h
      rw [hfits]
      rcases rows with _ | ⟨r, rows⟩
      · refine .inr (.inl ⟨by rintro r ⟨⟩, [], a, ?_, rfl, hclean, rfl⟩)
        rw [appendBars, if_neg htf, hrows]
        rfl
      · have happend : a.appendBars b = a.appendRows b.symbol b.tf (r :: rows) := by rw [appendBars, if_neg htf, hrows]
        rw [happend]
        rcases appendRows_cases hclean b.symbol b.tf (r :: rows) with ⟨a', hok, hbad, htr, hget⟩ | ⟨r', hbad, h⟩
        · exact .inr (.inl ⟨by rw [hbad]; rintro r ⟨⟩, _, a', hok, rfl, htr, hget⟩)
        · rcases h with ⟨hfit, herr⟩ | ⟨hfit, a', herr, htr⟩
          · refine .inl ⟨fun r hr => ?_, _, herr⟩
            rw [Option.mem_unique hr hbad]
            exact hfit
          · exact .inr (.inr ⟨fun h => hfit (h r' hbad), _, a', herr, htr⟩)

/-- A batch of one good bar. -/
def goodBatch : BarsBatch where
  symbol := "MNQ"
  tf := "1m"
  bars := [⟨some (.ofInt 1), some (.ofFloat 1), some (.ofFloat 1), some (.ofFloat 1), some (.ofFloat 1), none⟩]

theorem batchRows_goodBatch :
    batchRows goodBatch.bars = .ok [(1, ⟨.fin 1, .fin 1, .fin 1, .fin 1, .fin 0⟩)] := by decide +kernel

/-- After a transaction was left open the next batch raises. -/
theorem outputs_ne (hclean : a.transaction = none) (hopen : a'.transaction.isSome) :
    a'.outputs [.appendBars goodBatch] ≠ a.outputs [.appendBars goodBatch] := by
  have htf : ¬ goodBatch.tf ∉ ACCEPTED_TFS := by decide
  have hraises : (a'.appendBars goodBatch).1 = .error .sqliteError := by
    rw [appendBars, if_neg htf, batchRows_goodBatch]
    dsimp only
    rw [appendRows, begin, if_pos hopen]
  have hworks : (a.appendBars goodBatch).1 = .ok 1 := by
    rw [appendBars, if_neg htf, batchRows_goodBatch]
    dsimp only
    rcases appendRows_cases hclean goodBatch.symbol goodBatch.tf [(1, ⟨.fin 1, .fin 1, .fin 1, .fin 1, .fin 0⟩)] with
      ⟨a₁, hok, -⟩ | ⟨r, hbad, -⟩
    · rw [hok]
      rfl
    · rw [show List.find? _ _ = none by decide +kernel] at hbad
      cases hbad
  intro h
  have hfirst : (a'.appendBars goodBatch).1 = (a.appendBars goodBatch).1 := by
    have hcons := (List.cons.inj h).1
    exact Output.appended.inj hcons
  rw [hraises, hworks] at hfirst
  cases hfirst

theorem refines_iff_fits (hclean : a.transaction = none) (calls : List Call) :
    a.Refines a.table.get? calls ↔ ∀ c ∈ calls, c.Fits := by
  induction calls generalizing a with
  | nil => exact ⟨fun _ c hc => absurd hc List.not_mem_nil, fun _ => trivial⟩
  | cons c calls ih =>
    rw [List.forall_mem_cons]
    cases c with
    | queryRange q =>
      rw [Refines, ih hclean]
      refine and_congr_left fun _ => ?_
      constructor
      · rintro ⟨rows, hrows, -⟩
        unfold queryRange at hrows
        split at hrows
        next hfits => exact hfits
        · cases hrows
      · intro hfits
        refine ⟨_, if_pos hfits, select_answers ?_ q.limit⟩
        intro k k' t hk hk'
        obtain ⟨⟨hs, htf, -⟩, hts⟩ := Option.ite_none_right_eq_some.1 hk
        obtain ⟨⟨hs', htf', -⟩, hts'⟩ := Option.ite_none_right_eq_some.1 hk'
        obtain ⟨symbol, tf, ts⟩ := k
        obtain ⟨symbol', tf', ts'⟩ := k'
        cases hts
        cases hts'
        rw [CandleKey.mk.injEq]
        exact ⟨hs.trans hs'.symm, htf.trans htf'.symm, rfl⟩
    | appendBars b =>
      rcases appendBars_cases hclean b with ⟨hfits, e, h⟩ | ⟨hfits, rows, a', h, hrows, hclean', hget⟩ | ⟨hfits, e, a', h, hopen⟩
      · simp only [Refines, h, implies_true, true_and, ih hclean, hfits]
      · simp only [Refines, h, hfits, true_and]
        rw [← ih hclean', hget, hrows]
        constructor
        · rintro ⟨rows', heq, -, hrest⟩
          cases heq
          exact hrest
        · exact fun hrest => ⟨rows, rfl, rfl, hrest⟩
      · simp only [Refines, h, hfits, false_and, iff_false]
        rintro ⟨hlater, -⟩
        exact outputs_ne hclean hopen (hlater _)

/-- The archive is a map from symbol, timeframe and time to the last accepted bar exactly as long as all numbers fit. -/
theorem refines_iff (hclean : a.transaction = none) (calls : List Call) :
    (a.Refines a.table.get? calls ↔ ∀ c ∈ calls, c.Fits) ∧
      ∀ symbol tf rows (m : CandleMap), write symbol tf rows (write symbol tf rows m) = write symbol tf rows m :=
  ⟨refines_iff_fits hclean calls, write_write⟩

theorem refines_goodBatch : ({} : CandleArchive).Refines (Dict.empty : CandleTable).get?
    [.appendBars goodBatch, .queryRange { symbol := "MNQ", tf := "1m" }] := by
  refine (refines_iff (a := {}) rfl _).1.2 ?_
  rw [List.forall_mem_cons, List.forall_mem_singleton]
  refine ⟨fun _ rows hrows => ?_, by rintro t ⟨⟩, by rintro t ⟨⟩, by decide⟩
  rw [batchRows_goodBatch] at hrows
  cases hrows
  decide +kernel

/-- The second bar has a time that is not known to SQLite. -/
def overflowBatch : BarsBatch :=
  { goodBatch with
    bars := goodBatch.bars ++
      [⟨some (.ofInt (2 ^ 63)), some (.ofFloat 1), some (.ofFloat 1), some (.ofFloat 1), some (.ofFloat 1), none⟩] }

/-- The call raises, and a query finds its first bar. -/
theorem overflow_leaves_bar : ¬ ∀ (a : CandleArchive) calls, a.transaction = none → a.Refines a.table.get? calls := by
  intro hall
  have h := hall {} [.appendBars overflowBatch] rfl
  have hraises : ({} : CandleArchive).appendBars overflowBatch = (.error .overflowError,
      { transaction := some (Dict.empty.set ⟨"MNQ", "1m", 1⟩ ⟨.fin 1, .fin 1, .fin 1, .fin 1, .fin 0⟩) }) := by
    decide +kernel
  simp only [Refines, hraises] at h
  exact absurd (h.1 [.queryRange { symbol := "MNQ", tf := "1m" }]) (by decide +kernel)

end CandleArchive

end PearlAlgo
