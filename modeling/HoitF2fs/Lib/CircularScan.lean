import HoitF2fs.Lib.Bitmap

/-!
# Walking around a bitmap

A walk looks for the set bits of a map from some position to the end, and then from the beginning to
a saved position.  The bits are in groups of equal size, and behind a bit that was found the walk
goes on with the next group.

Neither position need be the first of a group, so the second half may come to a group that the first
half has seen.  `Walk.Inv` says what is nevertheless true at any time: either each set bit of the map
is in a group that was seen, or no group was seen twice.

* `Inv.pass`, `Inv.wrap` — the steps keep it.
* `Inv.allSeen_of_end` — a walk that has come to its end has seen every set bit.
* `Inv.allSeen_of_count` — so has a walk that has counted, group by group, as many set bits as there
  are.
* `left_pass`, `left_wrap` — a walk ends.
-/

namespace CircularScan

open Bitmap

structure Walk where
  offset : ℕ
  /-- Where this half of the walk ends. -/
  last : ℕ
  /-- Where the second half will end; 0 if there is none, or no other. -/
  saved : ℕ
  /-- The set bits that were found, latest first. -/
  visited : List ℕ

namespace Walk

variable (map : ℕ → Bool) (size n : ℕ)

/-- The bit that is found next. -/
def next (w : Walk) : ℕ := findNextBit map w.last w.offset

/-- The walk goes on behind the group of `s`. -/
def pass (w : Walk) (s : ℕ) : Walk :=
  { w with offset := (s / n + 1) * n, visited := s :: w.visited }

/-- The second half begins. -/
def wrap (w : Walk) : Walk := { w with offset := 0, last := w.saved, saved := 0 }

/-- The groups that were seen. -/
def groups (w : Walk) : List ℕ := w.visited.map (· / n)

/-- Every set bit is in a group that was seen. -/
def AllSeen (w : Walk) : Prop := ∀ i < size, map i = true → i / n ∈ w.groups n

/-- The first half, which began at `start`. -/
structure First (start saved : ℕ) (w : Walk) : Prop where
  last : w.last = size
  saved : w.saved = saved
  begun : start ≤ w.offset
  seen : ∀ i, start ≤ i → i < w.offset → i < size → map i = true → i / n ∈ w.groups n
  nodup : (w.groups n).Nodup
  visited : ∀ s ∈ w.visited, start ≤ s ∧ (s / n + 1) * n ≤ w.offset

/-- The second half, which ends at `saved`. -/
structure Second (saved : ℕ) (w : Walk) : Prop where
  last : w.last = saved
  done : w.saved = 0
  before : ∀ i, i < w.offset → i < saved → map i = true → i / n ∈ w.groups n
  behind : ∀ i, saved ≤ i → i < size → map i = true → i / n ∈ w.groups n
  once : w.AllSeen map size n ∨
    ((w.groups n).Nodup ∧ ∀ s ∈ w.visited, saved ≤ s ∨ (s / n + 1) * n ≤ w.offset)

/-- **How far a walk has come.** -/
def Inv (start saved : ℕ) (w : Walk) : Prop :=
  w.First map size n start saved ∨ w.Second map size n saved

variable {map size n} {w : Walk} {start saved s : ℕ}

@[simp] lemma groups_pass : (w.pass n s).groups n = s / n :: w.groups n := rfl

/-! ## The steps -/

lemma inv_start (start saved : ℕ) : Inv map size n start saved ⟨start, size, saved, []⟩ :=
  Or.inl
    { last := rfl
      saved := rfl
      begun := le_refl start
      seen := fun i hle hlt => absurd hlt (by simpa using hle)
      nodup := List.nodup_nil
      visited := by simp }

lemma lt_group_end (hn : 0 < n) (s : ℕ) : s < (s / n + 1) * n :=
  Nat.lt_mul_of_div_lt (Nat.lt_succ_self _) hn

/-- From a bit to the end of its group there is only one group. -/
lemma same_group (hn : 0 < n) {i : ℕ} (hle : s ≤ i) (hlt : i < (s / n + 1) * n) :
    i / n = s / n := by
  have hge : s / n ≤ i / n := Nat.div_le_div_right hle
  have hlt' : i / n < s / n + 1 := (Nat.div_lt_iff_lt_mul hn).mpr hlt
  omega

/-- A group that ends before a bit is not the group of the bit. -/
lemma group_ne (hn : 0 < n) {t : ℕ} (h : (t / n + 1) * n ≤ s) : t / n < s / n :=
  Nat.lt_of_succ_le ((Nat.le_div_iff_mul_le hn).mpr h)

/-- What lies between the offset and the end of the group that is found. -/
lemma seen_pass (hn : 0 < n) (hs : w.next map = s) {i : ℕ} (hle : w.offset ≤ i)
    (hlt : i < (s / n + 1) * n) (hb : map i = true) : i / n ∈ (w.pass n s).groups n := by
  rw [groups_pass]
  by_cases his : i < s
  · have hclear : map i = false := findNextBit_min hle (by rw [← hs] at his; exact his)
    rw [hclear] at hb
    exact absurd hb Bool.false_ne_true
  · rw [same_group hn (by omega) hlt]
    exact List.mem_cons_self

lemma First.pass (h : w.First map size n start saved) (hn : 0 < n) (hs : w.next map = s)
    (hlt : s < w.last) : (w.pass n s).First map size n start saved := by
  have hle : w.offset ≤ s := hs ▸ le_findNextBit (by rw [← hs] at hlt; exact hlt)
  have hend := lt_group_end hn s
  have hbegun := h.begun
  refine ⟨h.last, h.saved, ?_, ?_, ?_, ?_⟩
  · show start ≤ (s / n + 1) * n
    omega
  · intro i hi hi' hsize hb
    by_cases hold : i < w.offset
    · exact List.mem_cons_of_mem _ (h.seen i hi hold hsize hb)
    · exact seen_pass hn hs (not_lt.mp hold) hi' hb
  · refine List.nodup_cons.mpr ⟨?_, h.nodup⟩
    intro hmem
    obtain ⟨t, ht, heq⟩ := List.mem_map.mp hmem
    have hlt := group_ne hn ((h.visited t ht).2.trans hle)
    exact absurd heq hlt.ne
  · intro t ht
    show start ≤ t ∧ (t / n + 1) * n ≤ (s / n + 1) * n
    rcases List.mem_cons.mp ht with rfl | ht
    · exact ⟨by omega, le_refl _⟩
    · have hold := h.visited t ht
      exact ⟨hold.1, by omega⟩

lemma Second.pass (h : w.Second map size n saved) (hn : 0 < n) (hs : w.next map = s)
    (hlt : s < w.last) : (w.pass n s).Second map size n saved := by
  have hle : w.offset ≤ s := hs ▸ le_findNextBit (by rw [← hs] at hlt; exact hlt)
  have hend := lt_group_end hn s
  have hbefore : ∀ i, i < (s / n + 1) * n → i < saved → map i = true →
      i / n ∈ (w.pass n s).groups n := by
    intro i hi hi' hb
    by_cases hold : i < w.offset
    · exact List.mem_cons_of_mem _ (h.before i hold hi' hb)
    · exact seen_pass hn hs (not_lt.mp hold) hi hb
  have hbehind : ∀ i, saved ≤ i → i < size → map i = true → i / n ∈ (w.pass n s).groups n :=
    fun i hi hi' hb => List.mem_cons_of_mem _ (h.behind i hi hi' hb)
  refine ⟨h.last, h.done, hbefore, hbehind, ?_⟩
  rcases h.once with hall | ⟨hnodup, hvisited⟩
  · exact Or.inl fun i hi hb => List.mem_cons_of_mem _ (hall i hi hb)
  · by_cases hmem : s / n ∈ w.groups n
    · -- the group of the saved position, seen from both sides: the walk is through
      obtain ⟨t, ht, heq⟩ := List.mem_map.mp hmem
      change t / n = s / n at heq
      have hsaved : saved ≤ t := by
        refine (hvisited t ht).resolve_right fun hbefore => ?_
        exact absurd heq (group_ne hn (hbefore.trans hle)).ne
      have hgroup : saved ≤ (s / n + 1) * n := by
        have htend := lt_group_end hn t
        rw [heq] at htend
        omega
      refine Or.inl fun i hi hb => ?_
      by_cases hside : i < saved
      · exact hbefore i (by omega) hside hb
      · exact hbehind i (not_lt.mp hside) hi hb
    · refine Or.inr ⟨List.nodup_cons.mpr ⟨hmem, hnodup⟩, ?_⟩
      intro t ht
      show saved ≤ t ∨ (t / n + 1) * n ≤ (s / n + 1) * n
      rcases List.mem_cons.mp ht with rfl | ht
      · exact Or.inr (le_refl _)
      · exact (hvisited t ht).imp_right fun hold => by omega

/-- **A found bit keeps the invariant.** -/
lemma Inv.pass (h : w.Inv map size n start saved) (hn : 0 < n) (hs : w.next map = s)
    (hlt : s < w.last) : (w.pass n s).Inv map size n start saved :=
  h.imp (fun h => h.pass hn hs hlt) fun h => h.pass hn hs hlt

/-- At the end of a half, nothing is left of it. -/
lemma clear_of_end (hend : w.last ≤ w.next map) {i : ℕ} (hle : w.offset ≤ i) (hlt : i < w.last) :
    map i = false :=
  le_findNextBit_iff.mp hend i hle hlt

lemma First.seen_end (h : w.First map size n start saved) (hend : w.last ≤ w.next map) {i : ℕ}
    (hle : start ≤ i) (hlt : i < size) (hb : map i = true) : i / n ∈ w.groups n := by
  by_cases hi : i < w.offset
  · exact h.seen i hle hi hlt hb
  · rw [clear_of_end hend (not_lt.mp hi) (by rw [h.last]; exact hlt)] at hb
    exact absurd hb Bool.false_ne_true

/-- **The wrap-around keeps the invariant**, for a walk that began at the saved position or at 0. -/
lemma Inv.wrap (h : w.Inv map size n start saved) (hstart : start = saved ∨ start = 0)
    (hend : w.last ≤ w.next map) (hsaved : w.saved ≠ 0) : w.wrap.Inv map size n start saved := by
  rcases h with h | h
  · have hbehind : ∀ i, saved ≤ i → i < size → map i = true → i / n ∈ w.groups n :=
      fun i hi hi' hb => h.seen_end hend (by omega) hi' hb
    refine Or.inr ⟨h.saved, rfl, fun i hi => absurd hi (Nat.not_lt_zero i), hbehind, ?_⟩
    rcases hstart with rfl | rfl
    · exact Or.inr ⟨h.nodup, fun s hs => Or.inl (h.visited s hs).1⟩
    · exact Or.inl fun i hi hb => h.seen_end hend (Nat.zero_le i) hi hb
  · exact absurd h.done hsaved

/-! ## The end -/

/-- **At its end, the walk has seen every set bit.** -/
lemma Inv.allSeen_of_end (h : w.Inv map size n start saved) (hstart : start = saved ∨ start = 0)
    (hend : w.last ≤ w.next map) (hsaved : w.saved = 0) : w.AllSeen map size n := by
  intro i hi hb
  rcases h with h | h
  · have hzero : saved = 0 := h.saved.symm.trans hsaved
    exact h.seen_end hend (by omega) hi hb
  · by_cases hside : i < saved
    · by_cases hoff : i < w.offset
      · exact h.before i hoff hside hb
      · rw [clear_of_end hend (not_lt.mp hoff) (by rw [h.last]; exact hside)] at hb
        exact absurd hb Bool.false_ne_true
    · exact h.behind i (not_lt.mp hside) hi hb

/-- The set bits of the groups that were seen, as often as they were seen. -/
def counted (map : ℕ → Bool) (size n : ℕ) (w : Walk) : ℕ :=
  ((w.groups n).map (groupBits map size n)).sum

lemma counted_pass (s : ℕ) :
    (w.pass n s).counted map size n = groupBits map size n (s / n) + w.counted map size n := by
  simp [counted]

/-- **A walk that has counted all the set bits has seen them all.** -/
lemma Inv.allSeen_of_count (h : w.Inv map size n start saved)
    (hcount : setBits map size ≤ w.counted map size n) : w.AllSeen map size n := by
  have hnodup : (w.groups n).Nodup → w.AllSeen map size n :=
    fun hnodup i hi hb => mem_of_setBits_le hnodup hcount hi hb
  rcases h with h | h
  · exact hnodup h.nodup
  · exact h.once.elim id fun hn => hnodup hn.1

/-- What is left of a walk. -/
def left (w : Walk) : ℕ := (w.last - w.offset) + if w.saved = 0 then 0 else w.saved + 1

lemma left_pass (hn : 0 < n) (hs : w.next map = s) (hlt : s < w.last) :
    (w.pass n s).left < w.left := by
  have hle : w.offset ≤ s := hs ▸ le_findNextBit (by rw [← hs] at hlt; exact hlt)
  have hend := lt_group_end hn s
  exact Nat.add_lt_add_right (show w.last - (s / n + 1) * n < w.last - w.offset by omega) _

lemma left_wrap (hsaved : w.saved ≠ 0) : w.wrap.left < w.left := by
  simp only [left, Walk.wrap, if_neg hsaved, if_true]
  omega

end Walk

end CircularScan
