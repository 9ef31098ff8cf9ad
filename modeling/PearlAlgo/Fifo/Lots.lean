import Mathlib.Algebra.BigOperators.Group.List.Basic
import Mathlib.Algebra.Order.Group.Nat
import Mathlib.Data.List.Infix
import Mathlib.Tactic.Abel

/-!
# First-in-first-out matching

A lot queue holds lots on one side, the oldest first. A lot of the other side is matched against them from the
front, and what is left of it opens a lot itself; a lot of the same side goes to the back. What a lot is
about is an item of an arbitrary type `α`, and `side` gives its side.

`LotQueue.run_conserves` is the conservation law: any quantity that a lot carries in proportion to its size is
found again in the open lots and in the two halves of the matches. `TakesOldest` says that the matches take
the lots of the queue in their order.
-/

namespace Fifo

variable {α S : Type}

/-- A positive quantity of an item. -/
structure Lot (α : Type) where
  item : α
  qty : Nat
  pos : 0 < qty
deriving DecidableEq

/-- A quantity of an open item that an item of the other side closed. -/
structure Match (α : Type) where
  opened : α
  closed : α
  qty : Nat
deriving DecidableEq

/-- What is left of a lot after a smaller quantity of it was taken. -/
def Lot.reduce (l : Lot α) (q : Nat) (h : q < l.qty) : Lot α := ⟨l.item, l.qty - q, Nat.sub_pos_of_lt h⟩

/-- Match the quantity `q` of `a` against lots, from the front. -/
def consume (a : α) : Nat → List (Lot α) → List (Match α) × Nat × List (Lot α)
  | q, [] => ([], q, [])
  | q, l :: ls =>
    if h : q < l.qty then
      if q = 0 then ([], 0, l :: ls) else ([⟨l.item, a, q⟩], 0, l.reduce q h :: ls)
    else
      let r := consume a (q - l.qty) ls
      (⟨l.item, a, l.qty⟩ :: r.1, r.2)

/-- `ms` matches the lots `ls` from the front and leaves `ls'`: every match but the last takes all that is left
of the oldest lot. -/
inductive TakesOldest (a : α) : List (Lot α) → List (Match α) → List (Lot α) → Prop
  | none (ls : List (Lot α)) : TakesOldest a ls [] ls
  | part (l : Lot α) (ls : List (Lot α)) {q : Nat} (hq : 0 < q) (h : q < l.qty) :
    TakesOldest a (l :: ls) [⟨l.item, a, q⟩] (l.reduce q h :: ls)
  | all (l : Lot α) {ls ls' : List (Lot α)} {ms : List (Match α)} (h : TakesOldest a ls ms ls') :
    TakesOldest a (l :: ls) (⟨l.item, a, l.qty⟩ :: ms) ls'

theorem consume_takesOldest (a : α) (q : Nat) (ls : List (Lot α)) :
    TakesOldest a ls (consume a q ls).1 (consume a q ls).2.2 := by
  induction ls generalizing q with
  | nil => exact .none []
  | cons l ls ih =>
    rw [consume]
    split
    next h =>
      split
      · exact .none _
      next hq => exact .part l ls (Nat.pos_of_ne_zero hq) h
    · exact .all l (ih _)

theorem consume_rest (a : α) (q : Nat) (ls : List (Lot α)) :
    (consume a q ls).2.1 = 0 ∨ (consume a q ls).2.2 = [] := by
  induction ls generalizing q with
  | nil => exact .inr rfl
  | cons l ls ih =>
    rw [consume]
    split
    · split <;> exact .inl rfl
    · exact ih _

theorem TakesOldest.items {a : α} {ls ls' : List (Lot α)} {ms : List (Match α)} (h : TakesOldest a ls ms ls') :
    ls'.map Lot.item <:+ ls.map Lot.item := by
  induction h with
  | none ls => exact List.suffix_rfl
  | part l ls hq h => exact List.suffix_rfl
  | all l h ih => exact ih.trans (List.suffix_cons _ _)

theorem TakesOldest.mem {a : α} {ls ls' : List (Lot α)} {ms : List (Match α)} (h : TakesOldest a ls ms ls') :
    ∀ m ∈ ms, m.closed = a ∧ 0 < m.qty ∧ ∃ l ∈ ls, l.item = m.opened := by
  induction h with
  | none ls => exact fun m hm => absurd hm List.not_mem_nil
  | part l ls hq h =>
    intro m hm
    rw [List.mem_singleton.1 hm]
    exact ⟨rfl, hq, l, List.mem_cons_self, rfl⟩
  | all l h ih =>
    intro m hm
    rcases List.mem_cons.1 hm with rfl | hm
    · exact ⟨rfl, l.pos, l, List.mem_cons_self, rfl⟩
    · obtain ⟨hc, hq, l', hl', he⟩ := ih m hm
      exact ⟨hc, hq, l', List.mem_cons_of_mem _ hl', he⟩

/-! ### The conservation law -/

section conservation
variable {M : Type} [AddCommMonoid M] (F : α → M)

/-- What lots carry together. -/
def carried (ls : List (Lot α)) : M := (ls.map fun l => l.qty • F l.item).sum

/-- What the two halves of the matches carry together. -/
def settled (ms : List (Match α)) : M := (ms.map fun m => m.qty • (F m.opened + F m.closed)).sum

@[simp] theorem carried_nil : carried F ([] : List (Lot α)) = 0 := rfl

@[simp] theorem carried_cons (l : Lot α) (ls : List (Lot α)) :
    carried F (l :: ls) = l.qty • F l.item + carried F ls := by simp [carried]

@[simp] theorem carried_append (ls ls' : List (Lot α)) : carried F (ls ++ ls') = carried F ls + carried F ls' := by
  simp [carried]

@[simp] theorem settled_nil : settled F ([] : List (Match α)) = 0 := rfl

@[simp] theorem settled_cons (m : Match α) (ms : List (Match α)) :
    settled F (m :: ms) = m.qty • (F m.opened + F m.closed) + settled F ms := by simp [settled]

@[simp] theorem settled_append (ms ms' : List (Match α)) :
    settled F (ms ++ ms') = settled F ms + settled F ms' := by simp [settled]

theorem carried_reduce (l : Lot α) (q : Nat) (h : q < l.qty) :
    q • F l.item + (l.reduce q h).qty • F (l.reduce q h).item = l.qty • F l.item := by
  show q • F l.item + (l.qty - q) • F l.item = _
  rw [← add_nsmul, Nat.add_sub_cancel' h.le]

theorem consume_conserves (a : α) (q : Nat) (ls : List (Lot α)) :
    q • F a + carried F ls =
      settled F (consume a q ls).1 + (consume a q ls).2.1 • F a + carried F (consume a q ls).2.2 := by
  induction ls generalizing q with
  | nil => simp [consume]
  | cons l ls ih =>
    rw [consume]
    split
    next h =>
      split
      next hq => simp [hq]
      · simp only [carried_cons, settled_cons, settled_nil, nsmul_add, zero_nsmul, add_zero]
        rw [← carried_reduce F l q h]
        abel
    next h =>
      have hq : q • F a = l.qty • F a + (q - l.qty) • F a := by
        rw [← add_nsmul, Nat.add_sub_cancel' (Nat.not_lt.1 h)]
      simp only [carried_cons, settled_cons, nsmul_add]
      calc q • F a + (l.qty • F l.item + carried F ls)
          = l.qty • F l.item + l.qty • F a + ((q - l.qty) • F a + carried F ls) := by rw [hq]; abel
        _ = _ := by rw [ih (q - l.qty)]; abel

end conservation

/-! ### Queues -/

/-- Open lots, the oldest first, all on one side. -/
structure LotQueue (side : α → S) where
  lots : List (Lot α)
  oneSided : ∀ l ∈ lots, ∀ l' ∈ lots, side l.item = side l'.item

namespace LotQueue
variable {side : α → S}

def empty : LotQueue side := ⟨[], fun _ h => absurd h List.not_mem_nil⟩

def add (b : LotQueue side) (l : Lot α) (h : ∀ l' ∈ b.lots, side l'.item = side l.item) : LotQueue side where
  lots := b.lots ++ [l]
  oneSided := by
    intro l₁ h₁ l₂ h₂
    have hside : ∀ l' ∈ b.lots ++ [l], side l'.item = side l.item := by
      intro l' h'
      rcases List.mem_append.1 h' with h' | h'
      · exact h l' h'
      · rw [List.mem_singleton.1 h']
    rw [hside l₁ h₁, hside l₂ h₂]

theorem takesOldest_oneSided {a : α} {b : LotQueue side} {ms : List (Match α)} {ls : List (Lot α)}
    (h : TakesOldest a b.lots ms ls) : ∀ l ∈ ls, ∀ l' ∈ ls, side l.item = side l'.item := by
  have hold (l : Lot α) (hl : l ∈ ls) : ∃ l₀ ∈ b.lots, l₀.item = l.item :=
    List.mem_map.1 (h.items.subset (List.mem_map_of_mem hl))
  intro l hl l' hl'
  obtain ⟨l₀, h₀, he⟩ := hold l hl
  obtain ⟨l₀', h₀', he'⟩ := hold l' hl'
  rw [← he, ← he']
  exact b.oneSided l₀ h₀ l₀' h₀'

/-- The queue after a quantity was matched against it. -/
def matched (b : LotQueue side) (a : α) (q : Nat) : LotQueue side :=
  ⟨(consume a q b.lots).2.2, takesOldest_oneSided (consume_takesOldest a q b.lots)⟩

/-- The part of a lot that its match left over opens a lot. -/
def reopen (b : LotQueue side) (a : α) (q : Nat) (h : q = 0 ∨ b.lots = []) : LotQueue side :=
  if hq : q = 0 then b
  else b.add ⟨a, q, Nat.pos_of_ne_zero hq⟩ fun l hl => by
    rw [h.resolve_left hq] at hl
    exact absurd hl List.not_mem_nil

variable [DecidableEq S]

def fill (b : LotQueue side) (l : Lot α) : List (Match α) × LotQueue side :=
  if h : ∀ l' ∈ b.lots, side l'.item = side l.item then ([], b.add l h)
  else
    let r := consume l.item l.qty b.lots
    (r.1, (b.matched l.item l.qty).reopen l.item r.2.1 (consume_rest l.item l.qty b.lots))

def run (b : LotQueue side) : List (Lot α) → List (Match α) × LotQueue side
  | [] => ([], b)
  | l :: ls =>
    let r := (b.fill l).2.run ls
    ((b.fill l).1 ++ r.1, r.2)

/-- The matches of a lot take the oldest lots of the queue, and what is left of it goes to the back. -/
theorem fill_takesOldest (b : LotQueue side) (l : Lot α) : ∃ ls new, TakesOldest l.item b.lots (b.fill l).1 ls ∧
    (b.fill l).2.lots = ls ++ new ∧ ∀ l' ∈ new, l'.item = l.item := by
  have hnone : ∀ l' ∈ ([] : List (Lot α)), l'.item = l.item := fun l' h => absurd h List.not_mem_nil
  have hone (q : Nat) (hq : 0 < q) : ∀ l' ∈ [(⟨l.item, q, hq⟩ : Lot α)], l'.item = l.item := by simp
  unfold fill
  split
  · exact ⟨_, [l], .none _, rfl, by simp⟩
  · have ht := consume_takesOldest l.item l.qty b.lots
    simp only [reopen, matched]
    split
    · exact ⟨_, [], ht, (List.append_nil _).symm, hnone⟩
    next hq => exact ⟨_, _, ht, rfl, hone _ (Nat.pos_of_ne_zero hq)⟩

theorem fill_sides (b : LotQueue side) (l : Lot α) : ∀ m ∈ (b.fill l).1, side m.opened ≠ side m.closed := by
  unfold fill
  split
  · exact fun m hm => absurd hm List.not_mem_nil
  next h =>
    intro m hm heq
    obtain ⟨hc, -, l₀, hl₀, he⟩ := (consume_takesOldest l.item l.qty b.lots).mem m hm
    refine h fun l' hl' => ?_
    rw [b.oneSided l' hl' l₀ hl₀, he, heq, hc]

theorem run_sides (b : LotQueue side) (ls : List (Lot α)) : ∀ m ∈ (b.run ls).1, side m.opened ≠ side m.closed := by
  induction ls generalizing b with
  | nil => exact fun m hm => absurd hm List.not_mem_nil
  | cons l ls ih =>
    intro m hm
    rcases List.mem_append.1 hm with hm | hm
    · exact b.fill_sides l m hm
    · exact ih _ m hm

theorem fill_items (b : LotQueue side) (l : Lot α) :
    (∀ l' ∈ (b.fill l).2.lots, l'.item = l.item ∨ ∃ l₀ ∈ b.lots, l₀.item = l'.item) ∧
      ∀ m ∈ (b.fill l).1, m.closed = l.item ∧ ∃ l₀ ∈ b.lots, l₀.item = m.opened := by
  obtain ⟨ls, new, ht, hlots, hnew⟩ := b.fill_takesOldest l
  constructor
  · intro l' hl'
    rw [hlots] at hl'
    rcases List.mem_append.1 hl' with hl' | hl'
    · exact .inr (List.mem_map.1 (ht.items.subset (List.mem_map_of_mem hl')))
    · exact .inl (hnew l' hl')
  · intro m hm
    obtain ⟨hc, -, hl₀⟩ := ht.mem m hm
    exact ⟨hc, hl₀⟩

theorem run_items (b : LotQueue side) {ls : List (Lot α)} {P : α → Prop} (hb : ∀ l ∈ b.lots, P l.item)
    (hls : ∀ l ∈ ls, P l.item) :
    (∀ l ∈ (b.run ls).2.lots, P l.item) ∧ ∀ m ∈ (b.run ls).1, P m.opened ∧ P m.closed := by
  induction ls generalizing b with
  | nil => exact ⟨hb, fun m hm => absurd hm List.not_mem_nil⟩
  | cons l ls ih =>
    obtain ⟨hlots, hms⟩ := b.fill_items l
    have hl : P l.item := hls l List.mem_cons_self
    have hb' : ∀ l' ∈ (b.fill l).2.lots, P l'.item := by
      intro l' hl'
      rcases hlots l' hl' with he | ⟨l₀, h₀, he⟩
      · exact he ▸ hl
      · exact he ▸ hb l₀ h₀
    obtain ⟨hopen, hrest⟩ := ih (b.fill l).2 hb' fun l' h' => hls l' (List.mem_cons_of_mem _ h')
    refine ⟨hopen, fun m hm => ?_⟩
    rcases List.mem_append.1 hm with hm | hm
    · obtain ⟨hc, l₀, h₀, he⟩ := hms m hm
      exact ⟨he ▸ hb l₀ h₀, hc ▸ hl⟩
    · exact hrest m hm

variable {M : Type} [AddCommMonoid M] (F : α → M)

theorem fill_conserves (b : LotQueue side) (l : Lot α) :
    l.qty • F l.item + carried F b.lots = settled F (b.fill l).1 + carried F (b.fill l).2.lots := by
  unfold fill
  split
  · simp [add, add_comm]
  · have h := consume_conserves F l.item l.qty b.lots
    rw [h]
    simp only [reopen, matched]
    split
    next hq => simp [hq]
    · simp only [add, carried_append, carried_cons, carried_nil, add_zero]
      abel

/-- What the lots of a run carry is carried by the matches and by what is left open. -/
theorem run_conserves (b : LotQueue side) (ls : List (Lot α)) :
    carried F ls + carried F b.lots = settled F (b.run ls).1 + carried F (b.run ls).2.lots := by
  induction ls generalizing b with
  | nil => simp [run]
  | cons l ls ih =>
    simp only [run, carried_cons, settled_append]
    calc l.qty • F l.item + carried F ls + carried F b.lots
        = carried F ls + (l.qty • F l.item + carried F b.lots) := by abel
      _ = carried F ls + (settled F (b.fill l).1 + carried F (b.fill l).2.lots) := by rw [fill_conserves]
      _ = settled F (b.fill l).1 + (carried F ls + carried F (b.fill l).2.lots) := by abel
      _ = _ := by rw [ih, add_assoc]

theorem run_conserves_of_empty (b : LotQueue side) (hb : b.lots = []) (ls : List (Lot α)) :
    carried F ls = settled F (b.run ls).1 + carried F (b.run ls).2.lots := by
  have h := run_conserves F b ls
  rwa [hb, carried_nil, add_zero] at h

end LotQueue

/-! ### What else the items carry

Matching looks at the sides only, so it commutes with maps of the items that keep the sides. -/

section map
variable {β : Type} (g : α → β)

def Lot.map (l : Lot α) : Lot β := ⟨g l.item, l.qty, l.pos⟩

def Match.map (m : Match α) : Match β := ⟨g m.opened, g m.closed, m.qty⟩

theorem consume_map (a : α) (q : Nat) (ls : List (Lot α)) :
    consume (g a) q (ls.map (Lot.map g)) =
      let r := consume a q ls
      (r.1.map (Match.map g), r.2.1, r.2.2.map (Lot.map g)) := by
  induction ls generalizing q with
  | nil => rfl
  | cons l ls ih =>
    rw [List.map_cons, consume, consume]
    have hqty : (l.map g).qty = l.qty := rfl
    by_cases h : q < l.qty
    · rw [dif_pos h, dif_pos (hqty ▸ h)]
      by_cases hq : q = 0
      · simp only [hq, ↓reduceIte]
        rfl
      · simp only [hq, ↓reduceIte]
        rfl
    · rw [dif_neg h, dif_neg (hqty ▸ h)]
      simp only [hqty, ih]
      rfl

variable [DecidableEq S] {S' : Type} [DecidableEq S'] {side : α → S} {side' : β → S'}

theorem LotQueue.fill_map (hside : ∀ a a', side' (g a) = side' (g a') ↔ side a = side a') (b : LotQueue side) (b' : LotQueue side')
    (hb : b'.lots = b.lots.map (Lot.map g)) (l : Lot α) :
    (b'.fill (l.map g)).1 = (b.fill l).1.map (Match.map g) ∧
      (b'.fill (l.map g)).2.lots = (b.fill l).2.lots.map (Lot.map g) := by
  have hsame : (∀ l' ∈ b'.lots, side' l'.item = side' (l.map g).item) ↔ ∀ l' ∈ b.lots, side l'.item = side l.item := by
    rw [hb, List.forall_mem_map]
    simp only [Lot.map, hside]
  unfold fill
  by_cases h : ∀ l' ∈ b.lots, side l'.item = side l.item
  · rw [dif_pos h, dif_pos (hsame.2 h)]
    refine ⟨rfl, ?_⟩
    simp only [add, hb, List.map_append, List.map_cons, List.map_nil]
  · rw [dif_neg h, dif_neg (mt hsame.1 h)]
    have hc := consume_map g l.item l.qty b.lots
    rw [← hb] at hc
    refine ⟨congrArg Prod.fst hc, ?_⟩
    have hrest : (consume (l.map g).item (l.map g).qty b'.lots).2 =
        ((consume l.item l.qty b.lots).2.1, (consume l.item l.qty b.lots).2.2.map (Lot.map g)) := congrArg Prod.snd hc
    simp only [reopen, matched, hrest]
    split
    · rfl
    · simp only [add, List.map_append, List.map_cons, List.map_nil]
      rfl

theorem LotQueue.run_map (hside : ∀ a a', side' (g a) = side' (g a') ↔ side a = side a') (b : LotQueue side) (b' : LotQueue side')
    (hb : b'.lots = b.lots.map (Lot.map g)) (ls : List (Lot α)) :
    (b'.run (ls.map (Lot.map g))).1 = (b.run ls).1.map (Match.map g) := by
  induction ls generalizing b b' with
  | nil => rfl
  | cons l ls ih =>
    obtain ⟨hms, hlots⟩ := LotQueue.fill_map g hside b b' hb l
    simp only [List.map_cons, run, List.map_append]
    rw [hms, ih _ _ hlots]

end map

end Fifo
