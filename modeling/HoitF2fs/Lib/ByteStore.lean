import HoitF2fs.Lib.Transition

/-!
# Byte stores

Memory is a family of areas of bytes, one for each `region`; two regions never overlap.  A
`Patch` is a run of bytes at an offset, and `overlay` puts a list of them into an area, the later
ones over the earlier ones.

* A patch is `Quiet` in an area that already holds its bytes: storing it changes nothing.
* `getLe` and `putLe` are little-endian words.  `quiet_putLe_iff` says when a word store is quiet.
* `writePages` lays pages out one after the other, each a list of patches over the page as it is
  or over a page that is cleared first.  `overlay_writePages_eq_iff` compares the two: the same
  bytes come out **iff** the bytes that no patch covers were zero before.
* `Store` is a store statement: which bytes it stores depends on the memory it runs in.  `Instr`
  adds a check that must succeed for the program to have a meaning at all.
-/

namespace ByteStore

open Transition

abbrev Byte := BitVec 8

abbrev Area := ℕ → Byte

/-! ## Patches -/

/-- `len` bytes from `off` on. -/
structure Patch where
  off : ℕ
  len : ℕ
  byte : ℕ → Byte

namespace Patch

def Covers (p : Patch) (x : ℕ) : Prop := p.off ≤ x ∧ x < p.off + p.len

instance (p : Patch) (x : ℕ) : Decidable (p.Covers x) := inferInstanceAs (Decidable (_ ∧ _))

/-- Store the patch. -/
def apply (a : Area) (p : Patch) : Area :=
  fun x => if p.Covers x then p.byte (x - p.off) else a x

/-- The area already holds the bytes of the patch. -/
def Quiet (a : Area) (p : Patch) : Prop := ∀ k < p.len, a (p.off + k) = p.byte k

def Disjoint (p q : Patch) : Prop := p.off + p.len ≤ q.off ∨ q.off + q.len ≤ p.off

/-- The same bytes, `d` further on. -/
def shift (d : ℕ) (p : Patch) : Patch := { p with off := d + p.off }

/-- The patch as a list of stores of one byte each. -/
def split (p : Patch) : List Patch :=
  (List.range p.len).map fun k => { off := p.off + k, len := 1, byte := fun _ => p.byte k }

variable {a : Area} {p q : Patch} {x : ℕ}

lemma apply_of_covers (h : p.Covers x) : p.apply a x = p.byte (x - p.off) := if_pos h

lemma apply_of_not_covers (h : ¬ p.Covers x) : p.apply a x = a x := if_neg h

lemma quiet_iff_covers : p.Quiet a ↔ ∀ x, p.Covers x → a x = p.byte (x - p.off) := by
  constructor
  · intro h x hx
    have hk := h (x - p.off) (by unfold Covers at hx; omega)
    rwa [Nat.add_sub_cancel' hx.1] at hk
  · intro h k hk
    have hx := h (p.off + k) (by unfold Covers; omega)
    rwa [Nat.add_sub_cancel_left] at hx

lemma apply_eq_self_iff : p.apply a = a ↔ p.Quiet a := by
  rw [quiet_iff_covers]
  constructor
  · intro h x hx
    rw [← apply_of_covers (a := a) hx, h]
  · intro h
    funext x
    by_cases hx : p.Covers x
    · rw [apply_of_covers hx, h x hx]
    · exact apply_of_not_covers hx

lemma Quiet.congr {b : Area} (h : p.Quiet a) (hab : ∀ x, p.Covers x → a x = b x) : p.Quiet b := by
  intro k hk
  rw [← hab (p.off + k) (by unfold Covers; omega)]
  exact h k hk

lemma Disjoint.not_covers (h : p.Disjoint q) (hx : p.Covers x) : ¬ q.Covers x := by
  unfold Disjoint at h
  unfold Covers at *
  omega

lemma apply_shift {d : ℕ} : (p.shift d).apply a (d + x) = p.apply (fun y => a (d + y)) x := by
  have hcov : (p.shift d).Covers (d + x) ↔ p.Covers x := by
    simp only [Covers, shift]
    omega
  by_cases hx : p.Covers x
  · rw [apply_of_covers (hcov.mpr hx), apply_of_covers hx]
    show p.byte (d + x - (d + p.off)) = p.byte (x - p.off)
    rw [Nat.add_sub_add_left]
  · rw [apply_of_not_covers (mt hcov.mp hx), apply_of_not_covers hx]

end Patch

/-! ## Lists of patches -/

/-- Store the patches one after the other. -/
def overlay (a : Area) (ps : List Patch) : Area := ps.foldl (fun a p => p.apply a) a

/-- Some patch of the list covers `x`. -/
def Covered (ps : List Patch) (x : ℕ) : Prop := ∃ p ∈ ps, p.Covers x

instance (ps : List Patch) (x : ℕ) : Decidable (Covered ps x) := List.decidableBEx ..

section Overlay

variable {a b : Area} {p : Patch} {ps qs : List Patch} {x : ℕ}

@[simp] lemma overlay_nil : overlay a [] = a := rfl

@[simp] lemma overlay_cons : overlay a (p :: ps) = overlay (p.apply a) ps := rfl

@[simp] lemma overlay_append : overlay a (ps ++ qs) = overlay (overlay a ps) qs :=
  List.foldl_append

lemma overlay_of_not_covered (h : ¬ Covered ps x) : overlay a ps x = a x := by
  induction ps generalizing a with
  | nil => rfl
  | cons p ps ih =>
      rw [overlay_cons, ih (fun ⟨q, hq, hx⟩ => h ⟨q, List.mem_cons_of_mem p hq, hx⟩)]
      exact Patch.apply_of_not_covers fun hx => h ⟨p, List.mem_cons_self, hx⟩

/-- What is covered does not depend on what was there before, and what is not covered depends on
the one byte only. -/
lemma overlay_congr (h : Covered ps x ∨ a x = b x) : overlay a ps x = overlay b ps x := by
  induction ps generalizing a b with
  | nil => simpa [Covered] using h
  | cons p ps ih =>
      rw [overlay_cons, overlay_cons]
      refine ih ?_
      by_cases hp : p.Covers x
      · exact Or.inr (by rw [Patch.apply_of_covers hp, Patch.apply_of_covers hp])
      · rcases h with ⟨q, hq, hx⟩ | hab
        · rcases List.mem_cons.mp hq with rfl | hq
          · exact absurd hx hp
          · exact Or.inl ⟨q, hq, hx⟩
        · exact Or.inr (by rw [Patch.apply_of_not_covers hp, Patch.apply_of_not_covers hp, hab])

/-- In a list of disjoint patches no store is overwritten by a later one. -/
lemma overlay_of_mem (hd : ps.Pairwise Patch.Disjoint) (hp : p ∈ ps) (hx : p.Covers x) :
    overlay a ps x = p.byte (x - p.off) := by
  induction ps generalizing a with
  | nil => exact absurd hp List.not_mem_nil
  | cons q ps ih =>
      obtain ⟨hq, hrest⟩ := List.pairwise_cons.mp hd
      rw [overlay_cons]
      rcases List.mem_cons.mp hp with rfl | hp
      · rw [overlay_of_not_covered, Patch.apply_of_covers hx]
        rintro ⟨r, hr, hrx⟩
        exact (hq r hr).not_covers hx hrx
      · exact ih hrest hp

lemma overlay_eq_self (h : ∀ p ∈ ps, p.Quiet a) : overlay a ps = a := by
  induction ps with
  | nil => rfl
  | cons p ps ih =>
      rw [overlay_cons, Patch.apply_eq_self_iff.mpr (h p List.mem_cons_self)]
      exact ih fun q hq => h q (List.mem_cons_of_mem p hq)

lemma quiet_overlay (hd : ps.Pairwise Patch.Disjoint) (hp : p ∈ ps) : p.Quiet (overlay a ps) :=
  Patch.quiet_iff_covers.mpr fun _ hx => overlay_of_mem hd hp hx

/-- Byte by byte or all at once. -/
lemma overlay_split : overlay a p.split = p.apply a := by
  have hcut : ∀ n, n ≤ p.len →
      overlay a ((List.range n).map fun k =>
        { off := p.off + k, len := 1, byte := fun _ => p.byte k })
        = Patch.apply a { p with len := n } := by
    intro n
    induction n with
    | zero =>
        intro _
        funext x
        rw [List.range_zero, List.map_nil, overlay_nil, Patch.apply_of_not_covers]
        simp [Patch.Covers]
    | succ n ih =>
        intro hn
        rw [List.range_succ, List.map_append, overlay_append, ih (by omega)]
        funext x
        simp only [List.map_cons, List.map_nil, overlay_cons, overlay_nil]
        by_cases hlast : x = p.off + n
        · subst hlast
          rw [Patch.apply_of_covers ⟨le_rfl, Nat.lt_succ_self _⟩,
            Patch.apply_of_covers ⟨Nat.le_add_right _ _, Nat.lt_succ_self _⟩,
            Nat.add_sub_cancel_left]
        · rw [Patch.apply_of_not_covers fun hx => hlast (by simp only [Patch.Covers] at hx; omega)]
          by_cases hx : Patch.Covers { p with len := n } x
          · rw [Patch.apply_of_covers hx, Patch.apply_of_covers]
            exact ⟨hx.1, Nat.lt_succ_of_lt hx.2⟩
          · rw [Patch.apply_of_not_covers hx, Patch.apply_of_not_covers]
            exact fun hx' => hx (by simp only [Patch.Covers] at hx' ⊢; omega)
  exact hcut p.len le_rfl

lemma overlay_flatMap_split (ps : List Patch) : overlay a (ps.flatMap Patch.split) = overlay a ps := by
  induction ps generalizing a with
  | nil => rfl
  | cons p ps ih => rw [List.flatMap_cons, overlay_append, overlay_split, overlay_cons, ih]

end Overlay

/-! ## Little-endian words -/

/-- The word of `w` bytes at `off`. -/
def getLe (a : Area) : ℕ → ℕ → ℕ
  | _, 0 => 0
  | off, w + 1 => (a off).toNat + 256 * getLe a (off + 1) w

/-- Byte `k` of the number `v`. -/
def leByte (v k : ℕ) : Byte := BitVec.ofNat 8 (v / 256 ^ k)

/-- The store of the number `v` as a word of `w` bytes. -/
def putLe (off w v : ℕ) : Patch := { off := off, len := w, byte := leByte v }

section Words

variable {a b : Area} {off w v : ℕ}

@[simp] lemma putLe_off : (putLe off w v).off = off := rfl

@[simp] lemma putLe_len : (putLe off w v).len = w := rfl

lemma leByte_zero : leByte v 0 = BitVec.ofNat 8 v := by
  rw [leByte, pow_zero, Nat.div_one]

lemma leByte_succ (k : ℕ) : leByte v (k + 1) = leByte (v / 256) k := by
  unfold leByte
  rw [pow_succ', Nat.div_div_eq_div_mul]

lemma getLe_lt : getLe a off w < 256 ^ w := by
  induction w generalizing off with
  | zero => simp [getLe]
  | succ w ih =>
      have hlow := (a off).isLt
      have hrest : getLe a (off + 1) w < 256 ^ w := ih
      rw [getLe, pow_succ]
      omega

lemma getLe_congr (h : ∀ k < w, a (off + k) = b (off + k)) : getLe a off w = getLe b off w := by
  induction w generalizing off with
  | zero => rfl
  | succ w ih =>
      have h0 : a off = b off := h 0 (by omega)
      rw [getLe, getLe, h0, ih]
      intro k hk
      have hk' := h (k + 1) (by omega)
      rwa [show off + (k + 1) = off + 1 + k by omega] at hk'

/-- The word at `off` is the number whose bytes stand there. -/
lemma getLe_of_bytes (h : ∀ k < w, a (off + k) = leByte v k) : getLe a off w = v % 256 ^ w := by
  induction w generalizing off v with
  | zero => simp [getLe, Nat.mod_one]
  | succ w ih =>
      have h0 : a off = leByte v 0 := h 0 (by omega)
      have hrest : getLe a (off + 1) w = v / 256 % 256 ^ w := by
        apply ih
        intro k hk
        rw [← leByte_succ, show off + 1 + k = off + (k + 1) by omega]
        exact h (k + 1) (by omega)
      calc getLe a off (w + 1)
          = v % 256 + 256 * (v / 256 % 256 ^ w) := by
            rw [getLe, h0, hrest, leByte_zero, BitVec.toNat_ofNat]
        _ = v % 256 ^ (w + 1) := by rw [pow_succ', Nat.mod_mul]

lemma leByte_mod {k : ℕ} (hk : k < w) : leByte (v % 256 ^ w) k = leByte v k := by
  apply BitVec.eq_of_toNat_eq
  simp only [leByte, BitVec.toNat_ofNat]
  obtain ⟨d, rfl⟩ : ∃ d, w = k + (d + 1) := ⟨w - k - 1, by omega⟩
  rw [pow_add, Nat.mod_mul_right_div_self, pow_succ', show (2 : ℕ) ^ 8 = 256 by norm_num,
    Nat.mod_mul_right_mod]

/-- The bytes of the word at `off` are the bytes there. -/
lemma leByte_getLe {k : ℕ} (hk : k < w) : leByte (getLe a off w) k = a (off + k) := by
  induction w generalizing off k with
  | zero => omega
  | succ w ih =>
      have hlow := (a off).isLt
      cases k with
      | zero =>
          show leByte (getLe a off (w + 1)) 0 = a off
          apply BitVec.eq_of_toNat_eq
          rw [leByte_zero, getLe, BitVec.toNat_ofNat]
          omega
      | succ k =>
          rw [leByte_succ, getLe,
            show ((a off).toNat + 256 * getLe a (off + 1) w) / 256 = getLe a (off + 1) w by omega,
            ih (by omega), show off + 1 + k = off + (k + 1) by omega]

lemma quiet_putLe_iff : (putLe off w v).Quiet a ↔ getLe a off w = v % 256 ^ w := by
  constructor
  · exact getLe_of_bytes
  · intro h k hk
    have hk : k < w := hk
    show a (off + k) = leByte v k
    rw [← leByte_getLe (a := a) hk, h, leByte_mod hk]

lemma getLe_putLe : getLe ((putLe off w v).apply a) off w = v % 256 ^ w := by
  apply getLe_of_bytes
  intro k hk
  rw [Patch.apply_of_covers (by unfold Patch.Covers; simp only [putLe_off, putLe_len]; omega),
    putLe_off, Nat.add_sub_cancel_left]
  rfl

/-- A word no patch touches. -/
lemma getLe_overlay {ps : List Patch}
    (h : ∀ p ∈ ps, p.off + p.len ≤ off ∨ off + w ≤ p.off) :
    getLe (overlay a ps) off w = getLe a off w := by
  apply getLe_congr
  intro k hk
  apply overlay_of_not_covered
  rintro ⟨p, hp, hx⟩
  have hout := h p hp
  unfold Patch.Covers at hx
  omega

end Words

/-! ## Pages -/

/-- Pages of `size` bytes from `dst` on, each given by the patches it receives.  With `clear` a
page is zeroed before the first of them. -/
def writePages (size : ℕ) (clear : Bool) : ℕ → List (List Patch) → List Patch
  | _, [] => []
  | dst, pg :: pgs =>
      (if clear then [{ off := dst, len := size, byte := fun _ => 0 }] else [])
        ++ pg.map (Patch.shift dst) ++ writePages size clear (dst + size) pgs

/-- No patch of the pages leaves its page. -/
def InPage (size : ℕ) (pgs : List (List Patch)) : Prop :=
  ∀ pg ∈ pgs, ∀ p ∈ pg, p.off + p.len ≤ size

/-- The bytes of the pages that no patch covers are zero in the area. -/
def GapsZero (size : ℕ) (a : Area) : ℕ → List (List Patch) → Prop
  | _, [] => True
  | dst, pg :: pgs =>
      (∀ j < size, ¬ Covered pg j → a (dst + j) = 0) ∧ GapsZero size a (dst + size) pgs

section Pages

variable {size dst x : ℕ} {clear : Bool} {a b : Area} {pg : List Patch} {pgs : List (List Patch)}

lemma InPage.head (h : InPage size (pg :: pgs)) : ∀ p ∈ pg, p.off + p.len ≤ size :=
  h pg List.mem_cons_self

lemma InPage.tail (h : InPage size (pg :: pgs)) : InPage size pgs :=
  fun q hq => h q (List.mem_cons_of_mem pg hq)

/-- `writePages` stores into its pages only. -/
lemma writePages_bounds (hin : InPage size pgs) :
    ∀ p ∈ writePages size clear dst pgs, dst ≤ p.off ∧ p.off + p.len ≤ dst + size * pgs.length := by
  induction pgs generalizing dst with
  | nil => intro p hp; exact absurd hp List.not_mem_nil
  | cons pg pgs ih =>
      have hlen : size * (pg :: pgs).length = size + size * pgs.length := by
        rw [List.length_cons, Nat.mul_succ, Nat.add_comm]
      intro p hp
      rw [writePages, List.mem_append, List.mem_append] at hp
      rcases hp with (hclear | hmap) | hrest
      · cases clear with
        | false => exact absurd hclear List.not_mem_nil
        | true =>
            obtain rfl := List.mem_singleton.mp hclear
            simp only
            omega
      · obtain ⟨q, hq, rfl⟩ := List.mem_map.mp hmap
        have := hin.head q hq
        simp only [Patch.shift]
        omega
      · have := ih hin.tail p hrest
        omega

lemma writePages_not_covered (hin : InPage size pgs)
    (hx : x < dst ∨ dst + size * pgs.length ≤ x) : ¬ Covered (writePages size clear dst pgs) x := by
  rintro ⟨p, hp, hcov⟩
  have := writePages_bounds hin p hp
  unfold Patch.Covers at hcov
  omega

lemma overlay_map_shift (d : ℕ) : overlay a (pg.map (Patch.shift d)) (d + x)
    = overlay (fun y => a (d + y)) pg x := by
  induction pg generalizing a with
  | nil => rfl
  | cons p pg ih =>
      rw [List.map_cons, overlay_cons, overlay_cons, ih]
      congr 1
      funext y
      exact Patch.apply_shift

/-- The first page after `writePages`. -/
lemma overlay_writePages_head (hin : InPage size (pg :: pgs)) {j : ℕ} (hj : j < size) :
    overlay a (writePages size clear dst (pg :: pgs)) (dst + j)
      = overlay (fun y => if clear ∧ y < size then 0 else a (dst + y)) pg j := by
  rw [writePages, overlay_append,
    overlay_of_not_covered (writePages_not_covered hin.tail (Or.inl (by omega))), overlay_append,
    overlay_map_shift]
  congr 1
  funext y
  cases clear with
  | false => simp
  | true =>
      simp only [if_true, overlay_cons, overlay_nil, true_and]
      by_cases hy : y < size
      · rw [if_pos hy, Patch.apply_of_covers ⟨Nat.le_add_right _ _, by simp only; omega⟩]
      · rw [if_neg hy, Patch.apply_of_not_covers]
        simp only [Patch.Covers]
        omega

/-- The later pages after `writePages`: the first page is no matter. -/
lemma overlay_writePages_tail (hin : InPage size (pg :: pgs)) (hx : dst + size ≤ x) :
    overlay a (writePages size clear dst (pg :: pgs)) x
      = overlay a (writePages size clear (dst + size) pgs) x := by
  rw [writePages, overlay_append]
  apply overlay_congr
  refine Or.inr (overlay_of_not_covered ?_)
  rintro ⟨p, hp, hcov⟩
  have hone : writePages size clear dst [pg]
      = (if clear then [{ off := dst, len := size, byte := fun _ => 0 }] else [])
        ++ pg.map (Patch.shift dst) := by
    rw [writePages, writePages, List.append_nil]
  have hin1 : InPage size [pg] := fun q hq => by
    rw [List.mem_singleton.mp hq]
    exact hin.head
  rw [← hone] at hp
  have := writePages_bounds hin1 p hp
  unfold Patch.Covers at hcov
  simp only [List.length_cons, List.length_nil] at this
  omega

/-- **Cleared or not.**  Pages written over cleared ones and pages written over what was there
agree iff the gaps held zeros. -/
theorem overlay_writePages_eq_iff (hin : InPage size pgs) :
    (∀ x, dst ≤ x → x < dst + size * pgs.length →
        overlay a (writePages size true dst pgs) x = overlay b (writePages size false dst pgs) x)
      ↔ GapsZero size b dst pgs := by
  induction pgs generalizing dst with
  | nil => simp [GapsZero]; omega
  | cons pg pgs ih =>
      have hlen : size * (pg :: pgs).length = size + size * pgs.length := by
        rw [List.length_cons, Nat.mul_succ, Nat.add_comm]
      rw [GapsZero, ← ih hin.tail]
      constructor
      · intro h
        refine ⟨fun j hj hgap => ?_, fun x hlo hhi => ?_⟩
        · have hx := h (dst + j) (by omega) (by omega)
          rw [overlay_writePages_head hin hj, overlay_writePages_head hin hj,
            overlay_of_not_covered hgap, overlay_of_not_covered hgap] at hx
          simpa [hj] using hx.symm
        · have hx := h x (by omega) (by omega)
          rwa [overlay_writePages_tail hin hlo, overlay_writePages_tail hin hlo] at hx
      · rintro ⟨hhead, htail⟩ x hlo hhi
        by_cases hx : x < dst + size
        · obtain ⟨j, rfl⟩ : ∃ j, x = dst + j := ⟨x - dst, by omega⟩
          have hj : j < size := by omega
          rw [overlay_writePages_head hin hj, overlay_writePages_head hin hj]
          apply overlay_congr
          by_cases hgap : Covered pg j
          · exact Or.inl hgap
          · exact Or.inr (by simp [hj, hhead j hj hgap])
        · rw [overlay_writePages_tail hin (by omega), overlay_writePages_tail hin (by omega)]
          exact htail x (by omega) (by omega)

/-- Block `i` after `writePages`: only its own page and what it held before matter. -/
lemma overlay_writePages_block (hin : InPage size pgs) {i j : ℕ} (hi : i < pgs.length)
    (hj : j < size) :
    overlay a (writePages size clear dst pgs) (dst + size * i + j)
      = overlay (fun y => if clear ∧ y < size then 0 else a (dst + size * i + y)) pgs[i] j := by
  induction pgs generalizing dst i with
  | nil => exact absurd hi (Nat.not_lt_zero i)
  | cons pg pgs ih =>
      cases i with
      | zero =>
          rw [Nat.mul_zero, Nat.add_zero]
          exact overlay_writePages_head hin hj
      | succ i =>
          have hmove : ∀ y, dst + size * (i + 1) + y = dst + size + size * i + y := by
            intro y
            rw [Nat.mul_succ]
            omega
          simp only [hmove, List.getElem_cons_succ]
          rw [overlay_writePages_tail hin (by omega)]
          exact ih hin.tail (Nat.succ_lt_succ_iff.mp hi)

end Pages

/-! ## A page cache -/

/-- Pages from `b` on that are grabbed one after the other, cleared and filled. -/
def fillPages (pages : ℕ → Area) : ℕ → List (List Patch) → ℕ → Area
  | _, [] => pages
  | b, pg :: pgs => fillPages (Function.update pages b (overlay (fun _ => 0) pg)) (b + 1) pgs

section PageCache

variable {pages : ℕ → Area} {b c i : ℕ} {a : Area} {pgs : List (List Patch)}

lemma fillPages_of_not_mem (h : c < b ∨ b + pgs.length ≤ c) :
    fillPages pages b pgs c = pages c := by
  induction pgs generalizing pages b with
  | nil => rfl
  | cons pg pgs ih =>
      rw [List.length_cons] at h
      rw [fillPages, ih (by omega), Function.update_of_ne (by omega)]

lemma fillPages_get (hi : i < pgs.length) :
    fillPages pages b pgs (b + i) = overlay (fun _ => 0) pgs[i] := by
  induction pgs generalizing pages b i with
  | nil => exact absurd hi (Nat.not_lt_zero i)
  | cons pg pgs ih =>
      rw [fillPages]
      cases i with
      | zero =>
          rw [fillPages_of_not_mem (by omega), Nat.add_zero, Function.update_self]
          rfl
      | succ i =>
          rw [show b + (i + 1) = b + 1 + i by omega]
          exact ih (Nat.succ_lt_succ_iff.mp hi)

/-- What a page held before it was grabbed is no matter. -/
lemma fillPages_update (h : pgs ≠ []) :
    fillPages (Function.update pages b a) b pgs = fillPages pages b pgs := by
  obtain ⟨pg, pgs, rfl⟩ := List.exists_cons_of_ne_nil h
  rw [fillPages, fillPages, Function.update_idem]

end PageCache

/-! ## Stores and programs -/

abbrev Mem (κ : Type*) := κ → Area

/-- A store statement: where it stores, and which bytes, given the memory. -/
structure Store (κ : Type*) where
  region : κ
  patches : Mem κ → List Patch

/-- A program is a list of stores and of checks.  A failing check leaves the program without a
meaning. -/
inductive Instr (κ : Type*) where
  | store (s : Store κ)
  | check (ok : Mem κ → Bool)

section Programs

variable {κ : Type*} [DecidableEq κ]

def Store.run (m : Mem κ) (s : Store κ) : Mem κ :=
  Function.update m s.region (overlay (m s.region) (s.patches m))

def runStores (m : Mem κ) (ss : List (Store κ)) : Mem κ := ss.foldl Store.run m

def Instr.step (m : Mem κ) : Instr κ → Option (Mem κ)
  | .store s => some (s.run m)
  | .check ok => if ok m then some m else none

variable {m : Mem κ} {s : Store κ} {ss ts : List (Store κ)} {r : κ}

@[simp] lemma runStores_nil : runStores m [] = m := rfl

@[simp] lemma runStores_cons : runStores m (s :: ss) = runStores (s.run m) ss := rfl

@[simp] lemma runStores_append : runStores m (ss ++ ts) = runStores (runStores m ss) ts :=
  List.foldl_append

lemma Store.run_same : s.run m s.region = overlay (m s.region) (s.patches m) :=
  Function.update_self ..

lemma Store.run_other (h : r ≠ s.region) : s.run m r = m r := Function.update_of_ne h ..

/-- Stores into other regions leave a region alone. -/
lemma runStores_other (h : ∀ s ∈ ss, r ≠ s.region) : runStores m ss r = m r := by
  induction ss generalizing m with
  | nil => rfl
  | cons s ss ih =>
      rw [runStores_cons, ih fun t ht => h t (List.mem_cons_of_mem s ht)]
      exact Store.run_other (h s List.mem_cons_self)

/-- Stores into one region that only read another one are one overlay. -/
lemma runStores_reading {t : κ} (hne : t ≠ r) (hr : ∀ s ∈ ss, s.region = r)
    (hread : ∀ s ∈ ss, ∀ m', m' t = m t → s.patches m' = s.patches m) :
    runStores m ss = Function.update m r (overlay (m r) (ss.flatMap fun s => s.patches m)) := by
  induction ss generalizing m with
  | nil => simp
  | cons s ss ih =>
      have hkeep : s.run m t = m t := by
        apply Store.run_other
        rw [hr s List.mem_cons_self]
        exact hne
      have hpatches : ss.flatMap (fun u => u.patches (s.run m)) = ss.flatMap fun u => u.patches m :=
        List.flatMap_congr fun u hu => hread u (List.mem_cons_of_mem s hu) _ hkeep
      have hrun : s.run m = Function.update m r (overlay (m r) (s.patches m)) := by
        unfold Store.run
        rw [hr s List.mem_cons_self]
      rw [runStores_cons, ih (fun u hu => hr u (List.mem_cons_of_mem s hu)), hpatches, hrun,
        Function.update_self, Function.update_idem, List.flatMap_cons, overlay_append]
      intro u hu m' hm'
      rw [hread u (List.mem_cons_of_mem s hu) m' (hm'.trans hkeep),
        hread u (List.mem_cons_of_mem s hu) _ hkeep]

lemma exec_stores : exec Instr.step m (ss.map Instr.store) = some (runStores m ss) := by
  induction ss generalizing m with
  | nil => rfl
  | cons s ss ih => exact ih

lemma exec_check {ok : Mem κ → Bool} {is : List (Instr κ)} :
    exec Instr.step m (Instr.check ok :: is) = if ok m then exec Instr.step m is else none := by
  rw [exec, Instr.step]
  split
  · exact Option.bind_some ..
  · exact Option.bind_none ..

end Programs

end ByteStore
