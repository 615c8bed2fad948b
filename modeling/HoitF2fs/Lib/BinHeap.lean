import Mathlib.Tactic

/-!
# Binary heaps with a hole

A heap of `n` elements in an array, the largest key at position 0.  The loops do not swap: they
keep the element `e` that is to be placed in hand, and move others into the **hole** it leaves
until the hole is where `e` belongs.

* `siftUp nodes i e` — the hole `i` moves towards the root.
* `siftDown nodes n i e` — it moves towards the leaves, always to the larger child.
* `Ordered` — no key is larger than its parent's.  `UpOrder` and `DownOrder` say the same of a heap
  with a hole.
* `elems nodes n` — what is in the heap, as a multiset.

Each loop has one lemma for a move of the hole and one for its end.  `TopK` is what the two
operations are for: **the elements that were kept are the smallest ones of all that were offered**.
-/

namespace BinHeap

variable {α κ : Type*} [LinearOrder κ] (key : α → κ)

/-! ## The loops -/

def parent (i : ℕ) : ℕ := (i - 1) / 2

/-- The hole `i` moves up while the key of `e` is larger than the parent's. -/
def siftUp (nodes : ℕ → α) (i : ℕ) (e : α) : ℕ → α :=
  if i = 0 then Function.update nodes i e
  else if key e ≤ key (nodes (parent i)) then Function.update nodes i e
  else siftUp (Function.update nodes i (nodes (parent i))) (parent i) e
termination_by i
decreasing_by
  unfold parent
  omega

/-- The child with the larger key, the left one if there is only one. -/
def largerChild (nodes : ℕ → α) (n i : ℕ) : ℕ :=
  if 2 * i + 1 + 1 < n ∧ key (nodes (2 * i + 1)) < key (nodes (2 * i + 1 + 1)) then 2 * i + 1 + 1
  else 2 * i + 1

lemma largerChild_gt (nodes : ℕ → α) (n i : ℕ) : i < largerChild key nodes n i := by
  unfold largerChild
  split <;> omega

/-- The hole `i` moves down while some child has a larger key than `e`. -/
def siftDown (nodes : ℕ → α) (n i : ℕ) (e : α) : ℕ → α :=
  if i < n then
    let j := largerChild key nodes n i
    if n ≤ j ∨ key (nodes j) ≤ key e then Function.update nodes i e
    else siftDown (Function.update nodes i (nodes j)) n j e
  else Function.update nodes i e
termination_by n - i
decreasing_by
  have hgt := largerChild_gt key nodes n i
  omega

/-! ## What is in the heap -/

/-- The elements, as a multiset. -/
def elems (nodes : ℕ → α) (n : ℕ) : Multiset α := (Multiset.range n).map nodes

section Elems

variable {nodes : ℕ → α} {n i j : ℕ} {e : α}

lemma mem_elems {x : α} : x ∈ elems nodes n ↔ ∃ i < n, nodes i = x := by
  simp [elems]

/-- Moving the hole changes the places only. -/
lemma elems_move (hi : i < n) (hj : j < n) (hij : i ≠ j) :
    elems (Function.update (Function.update nodes i (nodes j)) j e) n
      = elems (Function.update nodes i e) n := by
  have hswap : Function.update (Function.update nodes i (nodes j)) j e
      = Function.update nodes i e ∘ Equiv.swap i j := by
    funext x
    rcases eq_or_ne x j with rfl | hxj
    · simp
    · rcases eq_or_ne x i with rfl | hxi
      · simp [hxj, hij.symm]
      · simp [hxj, hxi, Equiv.swap_apply_of_ne_of_ne hxi hxj]
  have hperm : (Multiset.range n).map (Equiv.swap i j) = Multiset.range n := by
    have hmap : (Finset.range n).map (Equiv.swap i j).toEmbedding = Finset.range n := by
      refine Finset.map_perm fun x hx => ?_
      rcases Equiv.eq_or_eq_of_swap_apply_ne_self hx with rfl | rfl
      · simpa using hi
      · simpa using hj
    exact congrArg Finset.val hmap
  unfold elems
  rw [hswap, ← Multiset.map_map, hperm]

lemma elems_push : elems (Function.update nodes n e) (n + 1) = e ::ₘ elems nodes n := by
  unfold elems
  rw [Multiset.range_succ, Multiset.map_cons, Function.update_self]
  congr 1
  refine Multiset.map_congr rfl fun i hi => ?_
  rw [Function.update_of_ne (Nat.ne_of_lt (Multiset.mem_range.mp hi))]

/-- The element at `i` is exchanged. -/
lemma elems_update (hi : i < n) :
    nodes i ::ₘ elems (Function.update nodes i e) n = e ::ₘ elems nodes n := by
  have hsplit : Multiset.range n = i ::ₘ (Multiset.range n).erase i :=
    (Multiset.cons_erase (Multiset.mem_range.mpr hi)).symm
  have hrest : ((Multiset.range n).erase i).map (Function.update nodes i e)
      = ((Multiset.range n).erase i).map nodes := by
    refine Multiset.map_congr rfl fun j hj => ?_
    have hne := ((Multiset.nodup_range n).mem_erase_iff.mp hj).1
    rw [Function.update_of_ne hne]
  unfold elems
  rw [hsplit, Multiset.map_cons, Multiset.map_cons, hrest, Function.update_self, Multiset.cons_swap]

lemma elems_siftUp (hi : i < n) :
    elems (siftUp key nodes i e) n = elems (Function.update nodes i e) n := by
  fun_induction siftUp key nodes i e with
  | case1 nodes => rfl
  | case2 nodes i h hle => rfl
  | case3 nodes i h hgt ih =>
      have hp : parent i < i := by
        unfold parent
        omega
      rw [ih (hp.trans hi)]
      exact elems_move hi (hp.trans hi) hp.ne'

lemma elems_siftDown (hi : i < n) :
    elems (siftDown key nodes n i e) n = elems (Function.update nodes i e) n := by
  fun_induction siftDown key nodes n i e with
  | case1 nodes i h j hstop => rfl
  | case2 nodes i h j hgo ih =>
      have hgt : i < j := largerChild_gt key nodes n i
      have hj : j < n := by
        by_contra hge
        exact hgo (Or.inl (Nat.not_lt.mp hge))
      rw [ih hj]
      exact elems_move hi hj hgt.ne
  | case3 nodes i h => rfl

end Elems

/-! ## Order -/

/-- No key is larger than its parent's. -/
def Ordered (nodes : ℕ → α) (n : ℕ) : Prop :=
  ∀ i, 0 < i → i < n → key (nodes i) ≤ key (nodes (parent i))

/-- `c` is a child of `i` in a heap of `n` elements. -/
def IsChild (n i c : ℕ) : Prop := 0 < c ∧ c < n ∧ parent c = i

/-- The pairs that the hole `i` is not part of are in order. -/
def OrderedExcept (nodes : ℕ → α) (n i : ℕ) : Prop :=
  ∀ c, 0 < c → c < n → c ≠ i → parent c ≠ i → key (nodes c) ≤ key (nodes (parent c))

/-- The children of the hole are in order with its parent, too, and with `e`. -/
structure UpOrder (nodes : ℕ → α) (n i : ℕ) (e : α) : Prop where
  except : OrderedExcept key nodes n i
  grand : 0 < i → ∀ c, IsChild n i c → key (nodes c) ≤ key (nodes (parent i))
  below : ∀ c, IsChild n i c → key (nodes c) ≤ key e

/-- The children of the hole, and `e`, are in order with its parent. -/
structure DownOrder (nodes : ℕ → α) (n i : ℕ) (e : α) : Prop where
  except : OrderedExcept key nodes n i
  grand : 0 < i → ∀ c, IsChild n i c → key (nodes c) ≤ key (nodes (parent i))
  above : 0 < i → key e ≤ key (nodes (parent i))

section Order

variable {key} {nodes : ℕ → α} {n i : ℕ} {e : α}

lemma parent_lt (h : 0 < i) : parent i < i := by
  unfold parent
  omega

/-- **The root has the largest key.** -/
lemma Ordered.le_root (h : Ordered key nodes n) : ∀ i < n, key (nodes i) ≤ key (nodes 0) := by
  intro i
  induction i using Nat.strong_induction_on with
  | _ i ih =>
      intro hi
      rcases Nat.eq_zero_or_pos i with rfl | hpos
      · exact le_rfl
      · exact (h i hpos hi).trans (ih (parent i) (parent_lt hpos) ((parent_lt hpos).trans hi))

/-- The element in hand goes into the hole. -/
lemma OrderedExcept.fill (h : OrderedExcept key nodes n i)
    (habove : 0 < i → key e ≤ key (nodes (parent i)))
    (hbelow : ∀ c, IsChild n i c → key (nodes c) ≤ key e) :
    Ordered key (Function.update nodes i e) n := by
  intro c hc hcn
  rcases eq_or_ne c i with rfl | hci
  · rw [Function.update_self, Function.update_of_ne (parent_lt hc).ne]
    exact habove hc
  · rw [Function.update_of_ne hci]
    rcases eq_or_ne (parent c) i with hpi | hpi
    · rw [hpi, Function.update_self]
      exact hbelow c ⟨hc, hcn, hpi⟩
    · rw [Function.update_of_ne hpi]
      exact h c hc hcn hci hpi

/-! ### Up -/

lemma UpOrder.move (h : UpOrder key nodes n i e) (hi : 0 < i) (hin : i < n)
    (hgt : key (nodes (parent i)) < key e) :
    UpOrder key (Function.update nodes i (nodes (parent i))) n (parent i) e := by
  have hp : parent i < i := parent_lt hi
  -- the siblings of the hole are in order with the parent
  have hsibling : ∀ c, IsChild n (parent i) c → c ≠ i →
      key (nodes c) ≤ key (nodes (parent i)) := by
    rintro c ⟨hc, hcn, hcp⟩ hci
    have hle := h.except c hc hcn hci (by omega)
    rwa [hcp] at hle
  refine ⟨?_, ?_, ?_⟩
  · intro c hc hcn hcp hpp
    have hci : c ≠ i := fun heq => hpp (congrArg parent heq)
    rw [Function.update_of_ne hci]
    rcases eq_or_ne (parent c) i with hpi | hpi
    · rw [hpi, Function.update_self]
      exact h.grand hi c ⟨hc, hcn, hpi⟩
    · rw [Function.update_of_ne hpi]
      exact h.except c hc hcn hci hpi
  · intro hp0 c hc
    have hpp : parent (parent i) < parent i := parent_lt hp0
    have hparent : key (nodes (parent i)) ≤ key (nodes (parent (parent i))) :=
      h.except (parent i) hp0 (hp.trans hin) hp.ne (by omega)
    rw [Function.update_of_ne (by omega : parent (parent i) ≠ i)]
    rcases eq_or_ne c i with rfl | hci
    · rw [Function.update_self]
      exact hparent
    · rw [Function.update_of_ne hci]
      exact (hsibling c hc hci).trans hparent
  · intro c hc
    rcases eq_or_ne c i with rfl | hci
    · rw [Function.update_self]
      exact hgt.le
    · rw [Function.update_of_ne hci]
      exact (hsibling c hc hci).trans hgt.le

lemma UpOrder.siftUp (h : UpOrder key nodes n i e) (hin : i < n) :
    Ordered key (siftUp key nodes i e) n := by
  fun_induction BinHeap.siftUp key nodes i e with
  | case1 nodes => exact h.except.fill (fun h0 => absurd h0 (lt_irrefl 0)) h.below
  | case2 nodes i hi hle => exact h.except.fill (fun _ => hle) h.below
  | case3 nodes i hi hgt ih =>
      have hpos : 0 < i := Nat.pos_of_ne_zero hi
      exact ih (h.move hpos hin (not_le.mp hgt)) ((parent_lt hpos).trans hin)

/-! ### Down -/

lemma isChild_largerChild (h : largerChild key nodes n i < n) :
    IsChild n i (largerChild key nodes n i) := by
  refine ⟨Nat.lt_of_le_of_lt (Nat.zero_le i) (largerChild_gt key nodes n i), h, ?_⟩
  unfold largerChild parent
  split <;> omega

/-- If there is a child at all, it is one with the largest key. -/
lemma largerChild_max {c : ℕ} (hc : IsChild n i c) : largerChild key nodes n i < n ∧
    key (nodes c) ≤ key (nodes (largerChild key nodes n i)) := by
  obtain ⟨hpos, hcn, hci⟩ := hc
  have hcases : c = 2 * i + 1 ∨ c = 2 * i + 1 + 1 := by
    unfold parent at hci
    omega
  unfold largerChild
  split
  · next hright =>
      refine ⟨hright.1, ?_⟩
      rcases hcases with rfl | rfl
      · exact hright.2.le
      · exact le_rfl
  · next hleft =>
      rcases hcases with rfl | rfl
      · exact ⟨hcn, le_rfl⟩
      · refine ⟨by omega, ?_⟩
        by_contra hgt
        exact hleft ⟨hcn, not_le.mp hgt⟩

lemma DownOrder.move (h : DownOrder key nodes n i e) (hj : largerChild key nodes n i < n)
    (hgt : key e < key (nodes (largerChild key nodes n i))) :
    DownOrder key (Function.update nodes i (nodes (largerChild key nodes n i))) n
      (largerChild key nodes n i) e := by
  have hmax : ∀ c, IsChild n i c → key (nodes c) ≤ key (nodes (largerChild key nodes n i)) :=
    fun c hc => (largerChild_max hc).2
  obtain ⟨hj0, -, hji⟩ := isChild_largerChild hj
  have hij : i < largerChild key nodes n i := largerChild_gt key nodes n i
  generalize largerChild key nodes n i = j at *
  refine ⟨?_, ?_, ?_⟩
  · intro c hc hcn hcj hpj
    rcases eq_or_ne c i with rfl | hci
    · rw [Function.update_self, Function.update_of_ne (parent_lt hc).ne]
      exact h.grand hc j ⟨hj0, hj, hji⟩
    · rw [Function.update_of_ne hci]
      rcases eq_or_ne (parent c) i with hpi | hpi
      · rw [hpi, Function.update_self]
        exact hmax c ⟨hc, hcn, hpi⟩
      · rw [Function.update_of_ne hpi]
        exact h.except c hc hcn hci hpi
  · rintro - c ⟨hc, hcn, hcj⟩
    have hjc : j < c := hcj ▸ parent_lt hc
    rw [hji, Function.update_self, Function.update_of_ne (by omega)]
    have hle := h.except c hc hcn (by omega) (by omega)
    rwa [hcj] at hle
  · intro _
    rw [hji, Function.update_self]
    exact hgt.le

lemma DownOrder.siftDown (h : DownOrder key nodes n i e) :
    Ordered key (siftDown key nodes n i e) n := by
  fun_induction BinHeap.siftDown key nodes n i e with
  | case1 nodes i hi j hstop =>
      refine h.except.fill h.above fun c hc => ?_
      obtain ⟨hjn, hle⟩ : j < n ∧ key (nodes c) ≤ key (nodes j) := largerChild_max hc
      rcases hstop with hend | hstop
      · exact absurd hjn (Nat.not_lt.mpr hend)
      · exact hle.trans hstop
  | case2 nodes i hi j hgo ih =>
      have hjn : j < n := by
        by_contra hend
        exact hgo (Or.inl (Nat.not_lt.mp hend))
      refine ih (h.move hjn ?_)
      by_contra hle
      exact hgo (Or.inr (not_lt.mp hle))
  | case3 nodes i hi =>
      refine h.except.fill h.above ?_
      rintro c ⟨hc, hcn, hci⟩
      have hlt := parent_lt hc
      omega

end Order

/-! ## The smallest of all that were offered -/

/-- **The heap of `n` elements holds the smallest `k` of `offered`**, or all of them while there
are fewer. -/
structure TopK (nodes : ℕ → α) (n k : ℕ) (offered : Multiset α) : Prop where
  ordered : Ordered key nodes n
  le_cap : n ≤ k
  kept : ∃ rest, elems nodes n + rest = offered ∧ (n < k → rest = 0) ∧
    ∀ r ∈ rest, ∀ i < n, key (nodes i) ≤ key r

namespace TopK

variable {key} {nodes : ℕ → α} {n k : ℕ} {e : α} {offered : Multiset α}

lemma empty (nodes : ℕ → α) (k : ℕ) : TopK key nodes 0 k 0 := by
  refine ⟨fun i _ h => absurd h (Nat.not_lt_zero i), Nat.zero_le k, 0, ?_, fun _ => rfl, ?_⟩
  · simp [elems]
  · intro r hr
    exact absurd hr (Multiset.notMem_zero r)

/-- Below its capacity the heap takes what it is offered. -/
lemma push (h : TopK key nodes n k offered) (hn : n < k) (e : α) :
    TopK key (siftUp key nodes n e) (n + 1) k (e ::ₘ offered) := by
  obtain ⟨rest, hsum, hall, -⟩ := h.kept
  obtain rfl := hall hn
  have hup : UpOrder key nodes (n + 1) n e := by
    refine ⟨?_, ?_, ?_⟩
    · intro c hc hcn hne _
      exact h.ordered c hc (by omega)
    · rintro - c ⟨hc, hcn, hci⟩
      have hlt := parent_lt hc
      omega
    · rintro c ⟨hc, hcn, hci⟩
      have hlt := parent_lt hc
      omega
  refine ⟨hup.siftUp (Nat.lt_succ_self n), hn, 0, ?_, fun _ => rfl, ?_⟩
  · rw [elems_siftUp key (Nat.lt_succ_self n), elems_push, add_zero, ← hsum, add_zero]
  · intro r hr
    exact absurd hr (Multiset.notMem_zero r)

/-- A full heap does not need an element that is as large as its root. -/
lemma drop (h : TopK key nodes n k offered) (hn : n = k)
    (hle : 0 < n → key (nodes 0) ≤ key e) : TopK key nodes n k (e ::ₘ offered) := by
  obtain ⟨rest, hsum, -, hrest⟩ := h.kept
  refine ⟨h.ordered, h.le_cap, e ::ₘ rest, ?_, fun hlt => absurd hlt (by omega), ?_⟩
  · rw [Multiset.add_cons, hsum]
  · intro r hr i hi
    rcases Multiset.mem_cons.mp hr with rfl | hr
    · exact (h.ordered.le_root i hi).trans (hle (Nat.zero_lt_of_lt hi))
    · exact hrest r hr i hi

/-- A smaller element takes the place of the root. -/
lemma replace (h : TopK key nodes n k offered) (hn : n = k) (hpos : 0 < n)
    (hlt : key e < key (nodes 0)) :
    TopK key (siftDown key (Function.update nodes 0 e) n 0 e) n k (e ::ₘ offered) := by
  obtain ⟨rest, hsum, -, hrest⟩ := h.kept
  have hdown : DownOrder key (Function.update nodes 0 e) n 0 e := by
    refine ⟨?_, fun h0 => absurd h0 (lt_irrefl 0), fun h0 => absurd h0 (lt_irrefl 0)⟩
    intro c hc hcn _ hp
    rw [Function.update_of_ne hc.ne', Function.update_of_ne hp]
    exact h.ordered c hc hcn
  have helems : nodes 0 ::ₘ elems (siftDown key (Function.update nodes 0 e) n 0 e) n
      = e ::ₘ elems nodes n := by
    rw [elems_siftDown key hpos, Function.update_idem]
    exact elems_update hpos
  refine ⟨hdown.siftDown, h.le_cap, nodes 0 ::ₘ rest, ?_, fun hlt' => absurd hlt' (by omega), ?_⟩
  · rw [Multiset.add_cons, ← Multiset.cons_add, helems, Multiset.cons_add, hsum]
  · intro r hr i hi
    -- whatever is in the heap now is `e` or was there before
    have hmem : siftDown key (Function.update nodes 0 e) n 0 e i ∈ e ::ₘ elems nodes n := by
      rw [← helems]
      exact Multiset.mem_cons_of_mem (mem_elems.mpr ⟨i, hi, rfl⟩)
    have hroot : key (siftDown key (Function.update nodes 0 e) n 0 e i) ≤ key (nodes 0) := by
      rcases Multiset.mem_cons.mp hmem with heq | hmem
      · rw [heq]
        exact hlt.le
      · obtain ⟨j, hj, heq⟩ := mem_elems.mp hmem
        rw [← heq]
        exact h.ordered.le_root j hj
    rcases Multiset.mem_cons.mp hr with rfl | hr
    · exact hroot
    · exact hroot.trans (hrest r hr 0 hpos)

/-- An array that is used for no element may be any array. -/
lemma of_empty {nodes' : ℕ → α} (h : TopK key nodes 0 k offered) : TopK key nodes' 0 k offered := by
  obtain ⟨rest, hsum, hall, -⟩ := h.kept
  refine ⟨fun i _ hi => absurd hi (Nat.not_lt_zero i), h.le_cap, rest, hsum, hall, ?_⟩
  intro r _ i hi
  exact absurd hi (Nat.not_lt_zero i)

/-- Whatever is in the heap was offered. -/
lemma mem_offered (h : TopK key nodes n k offered) {i : ℕ} (hi : i < n) : nodes i ∈ offered := by
  obtain ⟨rest, hsum, -⟩ := h.kept
  rw [← hsum]
  exact Multiset.mem_add.mpr (Or.inl (mem_elems.mpr ⟨i, hi, rfl⟩))

/-- What was offered once is in the heap once. -/
lemma injOn (h : TopK key nodes n k offered) (hnodup : offered.Nodup) {i j : ℕ} (hi : i < n)
    (hj : j < n) (heq : nodes i = nodes j) : i = j := by
  obtain ⟨rest, hsum, -⟩ := h.kept
  rw [← hsum] at hnodup
  have hinj := (Multiset.nodup_map_iff_inj_on (Multiset.nodup_range n)).mp
    (Multiset.nodup_add.mp hnodup).1
  exact hinj i (Multiset.mem_range.mpr hi) j (Multiset.mem_range.mpr hj) heq

/-- **What was offered and is not in the heap is as large as its root**, and the heap is full. -/
lemma le_of_not_kept (h : TopK key nodes n k offered) {x : α} (hx : x ∈ offered)
    (hnot : ∀ i < n, nodes i ≠ x) : n = k ∧ ∀ i < n, key (nodes i) ≤ key x := by
  obtain ⟨rest, hsum, hall, hrest⟩ := h.kept
  rw [← hsum] at hx
  rcases Multiset.mem_add.mp hx with hmem | hmem
  · obtain ⟨i, hi, heq⟩ := mem_elems.mp hmem
    exact absurd heq (hnot i hi)
  · refine ⟨?_, hrest x hmem⟩
    by_contra hne
    rw [hall (lt_of_le_of_ne h.le_cap hne)] at hmem
    exact absurd hmem (Multiset.notMem_zero x)

end TopK

end BinHeap
