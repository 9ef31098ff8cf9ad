import Mathlib.Data.List.Basic
import Mathlib.Order.Lattice
import Mathlib.Order.Nat

/-!
# Python's `heapq` and `queue.PriorityQueue`

A heap is an array in which no element has a smaller key than its parent. Comparisons look at the keys only, so the
order among elements of one key is whatever the sifts make of it. `PriorityQueue` carries the heap property; its laws
say that `put` and `get` add and take one element, and that `get` takes one with a least key.
-/

namespace Py

namespace Heapq

variable {α κ : Type} [LinearOrder κ] (key : α → κ)

/-- `_siftdown(heap, 0, pos)`: move the element at `pos` up to where it belongs. -/
def siftdown (h : Array α) (pos : Nat) (hpos : pos < h.size) : Array α :=
  if h0 : 0 < pos then
    if key h[pos] < key h[(pos - 1) / 2] then
      siftdown (h.swap pos ((pos - 1) / 2)) ((pos - 1) / 2) (by rw [Array.size_swap]; omega)
    else h
  else h
termination_by pos
decreasing_by omega

/-- The child of `pos` with the smaller key, the right one of two that are level. -/
def smallerChild (h : Array α) (pos : Nat) (hleft : 2 * pos + 1 < h.size) : Nat :=
  if hright : 2 * pos + 2 < h.size then
    if key h[2 * pos + 1] < key h[2 * pos + 2] then 2 * pos + 1 else 2 * pos + 2
  else 2 * pos + 1

theorem smallerChild_eq (h : Array α) (pos : Nat) (hleft : 2 * pos + 1 < h.size) :
    smallerChild key h pos hleft = 2 * pos + 1 ∨
      smallerChild key h pos hleft = 2 * pos + 2 ∧ 2 * pos + 2 < h.size := by
  unfold smallerChild
  split
  next hright =>
    split
    · exact .inl rfl
    · exact .inr ⟨rfl, hright⟩
  · exact .inl rfl

theorem smallerChild_lt (h : Array α) (pos : Nat) (hleft : 2 * pos + 1 < h.size) :
    pos < smallerChild key h pos hleft ∧ smallerChild key h pos hleft < h.size := by
  rcases smallerChild_eq key h pos hleft with heq | ⟨heq, hlt⟩ <;> omega

/-- `_siftup(heap, pos)`: move the element at `pos` down to a leaf, the smaller child moving up, and from there up to
where it belongs. -/
def siftup (h : Array α) (pos : Nat) (hpos : pos < h.size) : Array α :=
  if hleft : 2 * pos + 1 < h.size then
    have hchild := smallerChild_lt key h pos hleft
    siftup (h.swap pos (smallerChild key h pos hleft) hpos hchild.2) (smallerChild key h pos hleft)
      (by rw [Array.size_swap]; exact hchild.2)
  else siftdown key h pos hpos
termination_by h.size - pos
decreasing_by rw [Array.size_swap]; omega

def heappush (h : Array α) (a : α) : Array α :=
  siftdown key (h.push a) h.size (by rw [Array.size_push]; omega)

/-- `heappop`; `none` where it raises `IndexError`. -/
def heappop (h : Array α) : Option (α × Array α) :=
  match h.back? with
  | none => none
  | some last =>
    if h1 : 0 < h.pop.size then some (h.pop[0], siftup key (h.pop.set 0 last) 0 (by rw [Array.size_set]; exact h1))
    else some (last, h.pop)

/-! ### The elements -/

theorem siftdown_perm (h : Array α) (pos : Nat) (hpos : pos < h.size) :
    (siftdown key h pos hpos).toList.Perm h.toList := by
  fun_induction siftdown key h pos hpos with
  | case1 h pos hpos h0 hlt ih => exact ih.trans (Array.swap_perm _ _).toList
  | case2 => exact .refl _
  | case3 => exact .refl _

theorem siftup_perm (h : Array α) (pos : Nat) (hpos : pos < h.size) :
    (siftup key h pos hpos).toList.Perm h.toList := by
  fun_induction siftup key h pos hpos with
  | case1 h pos hpos hleft hchild ih => exact ih.trans (Array.swap_perm _ _).toList
  | case2 h pos hpos => exact siftdown_perm key h pos hpos

theorem heappush_perm (h : Array α) (a : α) : (heappush key h a).toList.Perm (a :: h.toList) := by
  refine (siftdown_perm key _ _ _).trans ?_
  rw [Array.toList_push]
  exact List.perm_append_singleton a h.toList

theorem heappop_eq_none {h : Array α} : heappop key h = none ↔ h.toList = [] := by
  unfold heappop
  split
  next hlast => simp [Array.back?_eq_none_iff.1 hlast]
  next last hlast =>
    have hne : h.toList ≠ [] := fun hnil => by
      rw [Array.toList_eq_nil_iff.1 hnil] at hlast
      cases hlast
    split <;> simp [hne]

theorem heappop_perm {h h' : Array α} {a : α} (hpop : heappop key h = some (a, h')) :
    h.toList.Perm (a :: h'.toList) := by
  unfold heappop at hpop
  split at hpop
  · cases hpop
  next last hlast =>
    have hback : h.toList = h.pop.toList ++ [last] := by
      rw [Array.toList_pop]
      exact (List.dropLast_append_getLast? last (by simpa using hlast)).symm
    rw [hback]
    split at hpop
    next h1 =>
      obtain ⟨rfl, rfl⟩ := Prod.mk.inj (Option.some.inj hpop)
      have hsift := siftup_perm key (h.pop.set 0 last) 0 (by rw [Array.size_set]; exact h1)
      rw [Array.toList_set] at hsift
      rcases hpops : h.pop.toList with _ | ⟨b, rest⟩
      · rw [← Array.length_toList, hpops] at h1
        exact absurd h1 (Nat.lt_irrefl 0)
      · have hb : h.pop[0] = b := (Array.getElem_toList h1).symm.trans (List.getElem_of_eq hpops _)
        rw [hpops, List.set_cons_zero] at hsift
        rw [hb]
        exact ((List.perm_append_singleton last rest).cons b).trans (hsift.symm.cons b)
    next h1 =>
      obtain ⟨rfl, rfl⟩ := Prod.mk.inj (Option.some.inj hpop)
      have hnil : h.pop.toList = [] := List.length_eq_zero_iff.1 (by rw [Array.length_toList]; omega)
      rw [hnil]
      exact .refl _

/-! ### The order -/

def Child (p c : Nat) : Prop := 0 < c ∧ (c - 1) / 2 = p

theorem Child.lt {p c : Nat} (h : Child p c) : p < c := by
  obtain ⟨h0, h⟩ := h
  omega

theorem Child.unique {p p' c : Nat} (h : Child p c) (h' : Child p' c) : p = p' := h.2.symm.trans h'.2

/-- The element at `p` has no greater key than the one at `c`. -/
def InOrder (h : Array α) (p c : Nat) : Prop :=
  ∀ (hp : p < h.size) (hc : c < h.size), key h[p] ≤ key h[c]

/-- No element has a smaller key than its parent. -/
def IsHeap (h : Array α) : Prop := ∀ p c, Child p c → InOrder key h p c

/-- Only the element at `pos` may have a smaller key than its parent. -/
structure UpReady (h : Array α) (pos : Nat) : Prop where
  others : ∀ p c, Child p c → c ≠ pos → InOrder key h p c
  across : ∀ p c, Child p pos → Child pos c → InOrder key h p c

/-- Only the element at `pos` may have a smaller key than its parent, or a greater one than a child. -/
structure DownReady (h : Array α) (pos : Nat) : Prop where
  others : ∀ p c, Child p c → p ≠ pos → c ≠ pos → InOrder key h p c
  across : ∀ p c, Child p pos → Child pos c → InOrder key h p c

variable {key} {h : Array α}

theorem InOrder.trans {i j k : Nat} (hij : InOrder key h i j) (hjk : InOrder key h j k) (hj : j < h.size) :
    InOrder key h i k := fun hi hk => (hij hi hj).trans (hjk hj hk)

theorem UpReady.isHeap {pos : Nat} (hup : UpReady key h pos) (hpos : ∀ p, Child p pos → InOrder key h p pos) :
    IsHeap key h := by
  intro p c hc
  by_cases hcp : c = pos
  · subst hcp
    exact hpos p hc
  · exact hup.others p c hc hcp

theorem inOrder_swap {i j p c : Nat} (hi : i < h.size) (hj : j < h.size) :
    InOrder key (h.swap i j hi hj) p c ↔
      InOrder key h (if p = i then j else if p = j then i else p) (if c = i then j else if c = j then i else c) := by
  unfold InOrder
  simp only [Array.size_swap, Array.getElem_swap]
  constructor
  · intro hle hp hc
    have hp' : p < h.size := by split at hp <;> [omega; (split at hp <;> omega)]
    have hc' : c < h.size := by split at hc <;> [omega; (split at hc <;> omega)]
    have := hle hp' hc'
    grind
  · intro hle hp hc
    have hp' : (if p = i then j else if p = j then i else p) < h.size := by split <;> [omega; (split <;> omega)]
    have hc' : (if c = i then j else if c = j then i else c) < h.size := by split <;> [omega; (split <;> omega)]
    have := hle hp' hc'
    grind

theorem UpReady.swap {pos parent : Nat} (hup : UpReady key h pos) (hparent : Child parent pos) (hpos : pos < h.size)
    (hp : parent < h.size) (hlt : key h[pos] < key h[parent]) : UpReady key (h.swap pos parent) parent := by
  have hne : pos ≠ parent := Nat.ne_of_gt hparent.lt
  have hle : InOrder key h pos parent := fun _ _ => hlt.le
  constructor
  · intro p c hc hcp
    rw [inOrder_swap]
    by_cases hcpos : c = pos
    · subst hcpos
      have hpp : p = parent := hc.unique hparent
      subst hpp
      simpa [hne, Ne.symm hne] using hle
    · by_cases hppos : p = pos
      · subst hppos
        simpa [hne, Ne.symm hne, hcpos, hcp] using hup.across parent c hparent hc
      · by_cases hpp : p = parent
        · subst hpp
          simpa [hne, Ne.symm hne, hcpos, hcp] using hle.trans (hup.others p c hc hcpos) hp
        · simpa [hppos, hpp, hcpos, hcp] using hup.others p c hc hcpos
  · intro p c hgrand hc
    have hup' : InOrder key h p parent := hup.others p parent hgrand (Ne.symm hne)
    have hpne : p ≠ pos := fun heq => by have := hgrand.lt; have := hparent.lt; omega
    have hpne' : p ≠ parent := Nat.ne_of_lt hgrand.lt
    have hcne : c ≠ parent := Nat.ne_of_gt hc.lt
    rw [inOrder_swap]
    by_cases hcpos : c = pos
    · simpa [hcpos, hpne, hpne', hne] using hup'
    · simpa [hcpos, hpne, hpne', hcne] using hup'.trans (hup.others parent c hc hcpos) hp

theorem siftdown_isHeap (pos : Nat) (hpos : pos < h.size) (hup : UpReady key h pos) :
    IsHeap key (siftdown key h pos hpos) := by
  fun_induction siftdown key h pos hpos with
  | case1 h pos hpos h0 hlt ih => exact ih (hup.swap ⟨h0, rfl⟩ hpos (by omega) hlt)
  | case2 h pos hpos h0 hlt =>
    refine hup.isHeap fun p hp _ _ => ?_
    obtain rfl := hp.2
    exact not_lt.1 hlt
  | case3 h pos hpos h0 => exact hup.isHeap fun p hp => absurd hp.1 h0

theorem smallerChild_le {pos c : Nat} (hleft : 2 * pos + 1 < h.size) (hc : Child pos c) :
    InOrder key h (smallerChild key h pos hleft) c := by
  have hcases : c = 2 * pos + 1 ∨ c = 2 * pos + 2 := by
    obtain ⟨h0, hc⟩ := hc
    omega
  unfold smallerChild
  intro hp hcs
  split
  next hright =>
    split
    next hlt => rcases hcases with rfl | rfl <;> [exact le_refl _; exact hlt.le]
    next hlt => rcases hcases with rfl | rfl <;> [exact not_lt.1 hlt; exact le_refl _]
  next hright =>
    obtain rfl : c = 2 * pos + 1 := by omega
    exact le_refl _

theorem DownReady.swap {pos : Nat} (hdown : DownReady key h pos) (hpos : pos < h.size) (hleft : 2 * pos + 1 < h.size)
    (hchild : smallerChild key h pos hleft < h.size) :
    DownReady key (h.swap pos (smallerChild key h pos hleft)) (smallerChild key h pos hleft) := by
  have hsmaller : ∀ c, Child pos c → InOrder key h (smallerChild key h pos hleft) c :=
    fun _ hc => smallerChild_le hleft hc
  have hcc : Child pos (smallerChild key h pos hleft) := by
    rcases smallerChild_eq key h pos hleft with heq | ⟨heq, -⟩ <;> rw [heq] <;> constructor <;> omega
  generalize smallerChild key h pos hleft = child at *
  have hne : pos ≠ child := Nat.ne_of_lt hcc.lt
  constructor
  · intro p c hc hpc hcc'
    rw [inOrder_swap]
    by_cases hcpos : c = pos
    · subst hcpos
      have hpne : p ≠ c := Nat.ne_of_lt hc.lt
      simpa [hpne, hpc] using hdown.across p child hc hcc
    · by_cases hppos : p = pos
      · subst hppos
        simpa [hcpos, hcc'] using hsmaller c hc
      · simpa [hcpos, hcc', hppos, hpc] using hdown.others p c hc hppos hcpos
  · intro p c hp hc
    obtain rfl := hp.unique hcc
    have hcne : c ≠ p := fun heq => by have := hc.lt; have := hcc.lt; omega
    have hcne' : c ≠ child := Nat.ne_of_gt hc.lt
    rw [inOrder_swap]
    simpa [hcne, hcne'] using hdown.others child c hc (Ne.symm hne) hcne

theorem siftup_isHeap (pos : Nat) (hpos : pos < h.size) (hdown : DownReady key h pos) :
    IsHeap key (siftup key h pos hpos) := by
  fun_induction siftup key h pos hpos with
  | case1 h pos hpos hleft hchild ih => exact ih (hdown.swap hpos hleft hchild.2)
  | case2 h pos hpos hleft =>
    -- a leaf: its children are out of range
    refine siftdown_isHeap pos hpos ⟨fun p c hc hcp => ?_, hdown.across⟩
    by_cases hp : p = pos
    · intro _ hcs
      have := hc.1
      have := hc.2
      omega
    · exact hdown.others p c hc hp hcp

theorem heappush_isHeap (hh : IsHeap key h) (a : α) : IsHeap key (heappush key h a) := by
  refine siftdown_isHeap _ _ ⟨fun p c hc hne hp hcs => ?_, fun p c _ hc _ hcs => ?_⟩
  · rw [Array.size_push] at hcs
    have hlt : c < h.size := by omega
    have := hh p c hc (hc.lt.trans hlt) hlt
    rwa [Array.getElem_push_lt hlt, Array.getElem_push_lt (hc.lt.trans hlt)]
  · rw [Array.size_push] at hcs
    have := hc.lt
    omega

theorem heappop_isHeap {h' : Array α} {a : α} (hh : IsHeap key h) (hpop : heappop key h = some (a, h')) :
    IsHeap key h' := by
  have hpopped : IsHeap key h.pop := fun p c hc hp hcs => by
    rw [Array.size_pop] at hp hcs
    rw [Array.getElem_pop, Array.getElem_pop]
    exact hh p c hc (by omega) (by omega)
  unfold heappop at hpop
  split at hpop
  · cases hpop
  · split at hpop
    next last _ h1 =>
      obtain ⟨-, rfl⟩ := Prod.mk.inj (Option.some.inj hpop)
      refine siftup_isHeap _ _ ⟨fun p c hc hp0 hc0 hp hcs => ?_, fun p c hp => absurd hp.1 (Nat.lt_irrefl 0)⟩
      rw [Array.size_set] at hp hcs
      rw [Array.getElem_set_ne _ _ (Ne.symm hp0), Array.getElem_set_ne _ _ (Ne.symm hc0)]
      exact hpopped p c hc hp hcs
    next h1 =>
      obtain ⟨-, rfl⟩ := Prod.mk.inj (Option.some.inj hpop)
      exact hpopped

/-- The root has a least key. -/
theorem IsHeap.root_le (hh : IsHeap key h) (i : Nat) : InOrder key h 0 i := by
  induction i using Nat.strongRecOn with
  | ind i ih =>
    rcases Nat.eq_zero_or_pos i with rfl | hi
    · exact fun _ _ => le_refl _
    · have hc : Child ((i - 1) / 2) i := ⟨hi, rfl⟩
      intro h0 hi'
      exact ((ih _ hc.lt).trans (hh _ _ hc) (hc.lt.trans hi')) h0 hi'

theorem heappop_le {h' : Array α} {a : α} (hh : IsHeap key h) (hpop : heappop key h = some (a, h')) :
    ∀ b ∈ h.toList, key a ≤ key b := by
  intro b hb
  obtain ⟨i, hi, rfl⟩ := List.mem_iff_getElem.1 hb
  rw [Array.getElem_toList]
  rw [Array.length_toList] at hi
  have h0 : 0 < h.size := by omega
  have ha : a = h[0] := by
    unfold heappop at hpop
    split at hpop
    · cases hpop
    next last hlast =>
      split at hpop
      · obtain ⟨rfl, -⟩ := Prod.mk.inj (Option.some.inj hpop)
        exact Array.getElem_pop _
      next h1 =>
        obtain ⟨rfl, -⟩ := Prod.mk.inj (Option.some.inj hpop)
        rw [Array.size_pop] at h1
        have hsize : h.size - 1 = 0 := by omega
        rw [Array.back?_eq_getElem?, hsize, Array.getElem?_eq_getElem h0] at hlast
        exact (Option.some.inj hlast).symm
  rw [ha]
  exact hh.root_le i h0 hi

end Heapq

/-! ### `queue.PriorityQueue` -/

/-- A queue with priorities, as a heap. -/
structure PriorityQueue {α κ : Type} [LinearOrder κ] (key : α → κ) where
  heap : Array α
  isHeap : Heapq.IsHeap key heap

namespace PriorityQueue

variable {α κ : Type} [LinearOrder κ] {key : α → κ}

def empty : PriorityQueue key := ⟨#[], fun _ _ _ hp => absurd hp (Nat.not_lt_zero _)⟩

def items (q : PriorityQueue key) : List α := q.heap.toList

def qsize (q : PriorityQueue key) : Nat := q.heap.size

def put (q : PriorityQueue key) (a : α) : PriorityQueue key :=
  ⟨Heapq.heappush key q.heap a, Heapq.heappush_isHeap q.isHeap a⟩

/-- `get`; `none` where the queue is empty. -/
def get? (q : PriorityQueue key) : Option (α × PriorityQueue key) :=
  match hpop : Heapq.heappop key q.heap with
  | none => none
  | some (a, heap) => some (a, ⟨heap, Heapq.heappop_isHeap q.isHeap hpop⟩)

theorem items_put (q : PriorityQueue key) (a : α) : (q.put a).items.Perm (a :: q.items) :=
  Heapq.heappush_perm key q.heap a

@[simp] theorem length_items (q : PriorityQueue key) : q.items.length = q.qsize := Array.length_toList

theorem get?_eq_none {q : PriorityQueue key} : q.get? = none ↔ q.items = [] := by
  rw [items, ← Heapq.heappop_eq_none key]
  unfold get?
  split <;> simp [*]

/-- What `get` takes is an element with a least key, and it takes nothing else. -/
theorem get?_eq_some {q q' : PriorityQueue key} {a : α} (h : q.get? = some (a, q')) :
    q.items.Perm (a :: q'.items) ∧ ∀ b ∈ q.items, key a ≤ key b := by
  unfold get? at h
  split at h
  · cases h
  next hpop =>
    obtain ⟨rfl, rfl⟩ := Prod.mk.inj (Option.some.inj h)
    exact ⟨Heapq.heappop_perm key hpop, Heapq.heappop_le q.isHeap hpop⟩

end PriorityQueue

end Py
