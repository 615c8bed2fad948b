import HoitF2fs.Dir.Readdir

/-!
# Entries come and go

An entry takes as many slots next to each other as its name needs.  A new one goes where
`f2fs_room_for_filename` finds room, and one that is deleted only has its bits cleared; what its
slots had stays until they are used again.

* `f2fsRoomForFilename` — the first gap that is long enough.
* `f2fsUpdateDentry`, `clearDentry`, `setDentryIno` — what a new entry, a deletion and a new link
  change.
* `BlockInv` — the slots of the entries do not overlap, and there are no other bits.
* `DentryPtr.Stores` — an entry of the block.  The three changes add one, take one away and replace
  one, **and leave all others as they are**.
* `find_target_spec` — a lookup finds an entry with the hash and the name iff there is one.
-/

namespace Hoit.Dir

open Bitmap ByteStore

/-! ## Room for a name -/

/-- The loop; `none` if it takes more rounds than `fuel`. -/
def roomLoop (bitmap : ℕ → Bool) (slots maxSlots : ℕ) : ℕ → ℕ → Option ℕ
  | 0, _ => none
  | fuel + 1, bitStart =>
      let zeroStart := findNextZeroBit bitmap maxSlots bitStart
      if maxSlots ≤ zeroStart then some maxSlots
      else
        let zeroEnd := findNextBit bitmap maxSlots zeroStart
        if slots ≤ zeroEnd - zeroStart then some zeroStart
        else if maxSlots ≤ zeroEnd + 1 then some maxSlots
        else roomLoop bitmap slots maxSlots fuel (zeroEnd + 1)

/-- `f2fs_room_for_filename`. -/
def f2fsRoomForFilename (bitmap : ℕ → Bool) (slots maxSlots : ℕ) : Option ℕ :=
  roomLoop bitmap slots maxSlots (maxSlots + 1) 0

/-! ## Changes of a block -/

/-- `f2fs_type_by_mode`, at `(mode & S_IFMT) >> S_SHIFT`. -/
def f2fsTypeByMode (mode : ℕ) : ℕ :=
  [0, 5, 3, 0, 2, 0, 4, 0, 1, 0, 7, 0, 6, 0, 0].getD (mode / 2 ^ 12 % 16) 0

/-- The bits of `n` slots are set or cleared. -/
def changeBits (bitmap : ℕ → Bool) (start n : ℕ) (v : Bool) : ℕ → Bool :=
  fun i => if start ≤ i ∧ i < start + n then v else bitmap i

/-- `f2fs_update_dentry`. -/
def f2fsUpdateDentry (ino mode : ℕ) (d : DentryPtr) (name : List Byte) (nameHash bitPos : ℕ) :
    DentryPtr :=
  let slots := getDentrySlots name.length
  { d with
    bitmap := changeBits d.bitmap bitPos slots true
    dentry := fun i =>
      if i = bitPos then ⟨nameHash, ino, name.length, f2fsTypeByMode mode⟩
      -- avoid wrong garbage data for readdir
      else if bitPos < i ∧ i < bitPos + slots then { d.dentry i with nameLen := 0 }
      else d.dentry i
    filename := storeList d.filename (slotLen * bitPos) name }

/-- What `f2fs_delete_entry` and `f2fs_delete_inline_entry` do to the block. -/
def clearDentry (d : DentryPtr) (bitPos : ℕ) : DentryPtr :=
  { d with
    bitmap := changeBits d.bitmap bitPos (getDentrySlots (d.dentry bitPos).nameLen) false }

/-- What `f2fs_set_link` does to the block. -/
def setDentryIno (d : DentryPtr) (bitPos ino mode : ℕ) : DentryPtr :=
  { d with
    dentry := Function.update d.dentry bitPos
      { d.dentry bitPos with ino := ino, fileType := f2fsTypeByMode mode } }

/-! ## Blocks in order -/

/-- The slots of entry `i`. -/
def DentryPtr.slots (d : DentryPtr) (i : ℕ) : ℕ := getDentrySlots (d.dentry i).nameLen

structure BlockInv (d : DentryPtr) : Prop where
  ok : BlockOk d
  short : ∀ i, d.HasEntry i → (d.dentry i).nameLen ≤ f2fsNameLen
  /-- A bit is that of an entry. -/
  cover : ∀ j < d.max, d.bitmap j = true → ∃ i, d.HasEntry i ∧ i ≤ j ∧ j < i + d.slots i
  beyond : ∀ j, d.max ≤ j → d.bitmap j = false

/-- What an entry says. -/
structure Entry where
  hash : ℕ
  name : List Byte
  ino : ℕ
  fileType : ℕ
deriving DecidableEq

def DentryPtr.entry (d : DentryPtr) (i : ℕ) : Entry :=
  ⟨(d.dentry i).hashCode, d.name (d.nameSlice i), (d.dentry i).ino, (d.dentry i).fileType⟩

/-- The entry stands in slot `i`. -/
def DentryPtr.Stores (d : DentryPtr) (i : ℕ) (e : Entry) : Prop := d.HasEntry i ∧ d.entry i = e

variable {d : DentryPtr} {bitmap : ℕ → Bool} {slots maxSlots fuel start p i j ino mode nameHash : ℕ}
  {name : List Byte} {e : Entry}

/-! ## The gap that is found -/

/-- A gap of so many slots. -/
def Gap (bitmap : ℕ → Bool) (slots maxSlots p : ℕ) : Prop :=
  p + slots ≤ maxSlots ∧ ∀ j, p ≤ j → j < p + slots → bitmap j = false

/-- What the search returns: the first gap from `start` on, or `maxSlots`. -/
structure RoomFrom (bitmap : ℕ → Bool) (slots maxSlots start r : ℕ) : Prop where
  gap : r < maxSlots → Gap bitmap slots maxSlots r
  first : ∀ p, start ≤ p → p < r → ¬ Gap bitmap slots maxSlots p

lemma roomLoop_spec (hslots : 0 < slots) (hfuel : maxSlots - start < fuel) :
    ∃ r, roomLoop bitmap slots maxSlots fuel start = some r ∧
      RoomFrom bitmap slots maxSlots start r := by
  induction fuel generalizing start with
  | zero => omega
  | succ fuel ih =>
      have hzs := findNextZeroBit_le bitmap maxSlots start
      -- before the first zero bit there is no gap
      have hbefore : ∀ p, start ≤ p → p < findNextZeroBit bitmap maxSlots start →
          ¬ Gap bitmap slots maxSlots p := by
        intro p hp hlt hgap
        have hset := findNextZeroBit_min hp hlt
        rw [hgap.2 p le_rfl (by omega)] at hset
        exact absurd hset (by decide)
      unfold roomLoop
      dsimp only
      by_cases hfull : maxSlots ≤ findNextZeroBit bitmap maxSlots start
      · rw [if_pos hfull]
        exact ⟨_, rfl, fun h => absurd h (lt_irrefl _), fun p hp hlt => hbefore p hp (by omega)⟩
      rw [if_neg hfull]
      have hstart : start ≤ findNextZeroBit bitmap maxSlots start := by
        by_cases hle : start ≤ maxSlots
        · exact le_findNextZeroBit hle
        · have hend : findNextZeroBit bitmap maxSlots start = maxSlots := by
            rw [findNextZeroBit, Nat.sub_eq_zero_of_le (by omega)]
            rfl
          omega
      have hclear := findNextZeroBit_clear (not_le.mp hfull)
      generalize findNextZeroBit bitmap maxSlots start = zs at *
      have hzero : ∀ j, zs ≤ j → j < findNextBit bitmap maxSlots zs → bitmap j = false :=
        fun j h1 h2 => findNextBit_min h1 h2
      have hend : findNextBit bitmap maxSlots zs ≤ maxSlots := findNextZeroBit_le _ _ _
      have hlt : zs < findNextBit bitmap maxSlots zs := by
        rcases Nat.lt_or_ge zs (findNextBit bitmap maxSlots zs) with h | h
        · exact h
        · have hset := findNextBit_set (show findNextBit bitmap maxSlots zs < maxSlots by omega)
          have hge : zs ≤ findNextBit bitmap maxSlots zs := le_findNextBit (by omega)
          rw [show findNextBit bitmap maxSlots zs = zs by omega, hclear] at hset
          exact absurd hset (by decide)
      have hset : findNextBit bitmap maxSlots zs < maxSlots →
          bitmap (findNextBit bitmap maxSlots zs) = true := findNextBit_set
      generalize findNextBit bitmap maxSlots zs = ze at *
      by_cases hroom : slots ≤ ze - zs
      · rw [if_pos hroom]
        exact ⟨zs, rfl, fun _ => ⟨by omega, fun j h1 h2 => hzero j h1 (by omega)⟩, hbefore⟩
      rw [if_neg hroom]
      -- a gap does not go on over a set bit
      have hshort : ∀ p, zs ≤ p → p < ze + 1 → ¬ Gap bitmap slots maxSlots p := by
        intro p hp hlt' hgap
        by_cases hze : ze < maxSlots
        · have hbit := hgap.2 ze (by omega) (by omega)
          rw [hset hze] at hbit
          exact absurd hbit (by decide)
        · have hfit := hgap.1
          omega
      have hnone : ∀ p, start ≤ p → p < ze + 1 → ¬ Gap bitmap slots maxSlots p := by
        intro p hp hlt'
        by_cases hpz : p < zs
        · exact hbefore p hp hpz
        · exact hshort p (by omega) hlt'
      by_cases hlast : maxSlots ≤ ze + 1
      · rw [if_pos hlast]
        exact ⟨_, rfl, fun h => absurd h (lt_irrefl _), fun p hp hlt' => hnone p hp (by omega)⟩
      · rw [if_neg hlast]
        obtain ⟨r, hr, hgap, hfirst⟩ := ih (show maxSlots - (ze + 1) < fuel by omega)
        refine ⟨r, hr, hgap, fun p hp hlt' => ?_⟩
        by_cases hpz : p < ze + 1
        · exact hnone p hp hpz
        · exact hfirst p (by omega) hlt'

/-- **The first gap is found**, if there is one. -/
lemma f2fsRoomForFilename_spec (bitmap : ℕ → Bool) (maxSlots : ℕ) (hslots : 0 < slots) :
    ∃ r, f2fsRoomForFilename bitmap slots maxSlots = some r ∧
      RoomFrom bitmap slots maxSlots 0 r :=
  roomLoop_spec hslots (by omega)

/-! ## Names -/

lemma slice_congr {a b : Area} {off n : ℕ} (h : ∀ x, off ≤ x → x < off + n → a x = b x) :
    slice a off n = slice b off n :=
  List.map_congr_left fun k hk => h _ (by omega) (by have := List.mem_range.mp hk; omega)

lemma slice_storeList (a : Area) (off : ℕ) (l : List Byte) :
    slice (storeList a off l) off l.length = l :=
  Has.read fun k hk => by
    rw [storeList_in (by omega) (by omega), Nat.add_sub_cancel_left]

/-- A name fits in its slots. -/
lemma le_slots (n : ℕ) : n ≤ slotLen * getDentrySlots n := by
  unfold getDentrySlots slotLen
  omega

/-! ## A new entry -/

lemma BlockInv.slots_le (h : BlockInv d) (hi : d.HasEntry i) : i + d.slots i ≤ d.max :=
  h.ok.fits i hi

lemma slots_pos (hi : d.HasEntry i) : 0 < d.slots i := getDentrySlots_pos hi.2.2

/-- The bits of an entry are set. -/
lemma BlockInv.bitmap_of_mem (h : BlockInv d) (hi : d.HasEntry i) (hle : i ≤ j)
    (hlt : j < i + d.slots i) : d.bitmap j = true := by
  rcases hle.eq_or_lt with rfl | hlt'
  · exact hi.2.1
  · exact (h.ok.tail i hi j hlt' hlt).1

/-- Two entries do not share a slot. -/
lemma BlockInv.apart (h : BlockInv d) (hi : d.HasEntry i) (hj : d.HasEntry j) (hlt : i < j) :
    i + d.slots i ≤ j := by
  by_contra hnot
  exact hj.2.2 (h.ok.tail i hi j hlt (not_le.mp hnot)).2

/-- There is no entry in a gap, nor any that reaches into it. -/
lemma BlockInv.gap_apart (h : BlockInv d) (hgap : Gap d.bitmap slots d.max p) (hslots : 0 < slots)
    (hi : d.HasEntry i) : i + d.slots i ≤ p ∨ p + slots ≤ i := by
  by_contra hnot
  rcases Nat.lt_or_ge i p with hip | hip
  · have hbit := h.bitmap_of_mem hi (j := p) (by omega) (by omega)
    rw [hgap.2 p le_rfl (by omega)] at hbit
    exact absurd hbit (by decide)
  · have hbit := hi.2.1
    rw [hgap.2 i hip (by omega)] at hbit
    exact absurd hbit (by decide)

section Update

variable (hinv : BlockInv d) (hgap : Gap d.bitmap (getDentrySlots name.length) d.max p)
  (hname : name ≠ [])

include hinv hgap hname

omit hinv in
lemma update_hasEntry : (f2fsUpdateDentry ino mode d name nameHash p).HasEntry i
    ↔ d.HasEntry i ∨ i = p := by
  have hpos : 0 < getDentrySlots name.length :=
    getDentrySlots_pos fun h => hname (List.eq_nil_of_length_eq_zero h)
  unfold DentryPtr.HasEntry f2fsUpdateDentry changeBits
  dsimp only
  by_cases hip : i = p
  · subst hip
    have hfit := hgap.1
    have hlen : name.length ≠ 0 := fun h => hname (List.eq_nil_of_length_eq_zero h)
    rw [if_pos rfl, if_pos ⟨le_rfl, by omega⟩]
    exact ⟨fun _ => Or.inr rfl, fun _ => ⟨by omega, rfl, hlen⟩⟩
  · rw [if_neg hip]
    by_cases hin : p < i ∧ i < p + getDentrySlots name.length
    · rw [if_pos hin]
      refine ⟨fun h => absurd rfl h.2.2, ?_⟩
      rintro (⟨-, hbit, -⟩ | h)
      · rw [hgap.2 i hin.1.le hin.2] at hbit
        exact absurd hbit (by decide)
      · exact absurd h hip
    · rw [if_neg hin, if_neg (by omega)]
      exact ⟨Or.inl, fun h => h.resolve_right hip⟩

/-- The other entries are as they were. -/
lemma update_entry_other (hi : d.HasEntry i) :
    (f2fsUpdateDentry ino mode d name nameHash p).dentry i = d.dentry i ∧
      (f2fsUpdateDentry ino mode d name nameHash p).entry i = d.entry i := by
  have hpos : 0 < getDentrySlots name.length :=
    getDentrySlots_pos fun h => hname (List.eq_nil_of_length_eq_zero h)
  have hapart := hinv.gap_apart hgap hpos hi
  have hslots := slots_pos hi
  have hdentry : (f2fsUpdateDentry ino mode d name nameHash p).dentry i = d.dentry i := by
    unfold f2fsUpdateDentry
    dsimp only
    rw [if_neg (by omega), if_neg (by omega)]
  refine ⟨hdentry, ?_⟩
  unfold DentryPtr.entry DentryPtr.name DentryPtr.nameSlice
  rw [hdentry]
  have hfit := le_slots name.length
  have hfit' := le_slots (d.dentry i).nameLen
  have hslice : slice (f2fsUpdateDentry ino mode d name nameHash p).filename (slotLen * i)
      (d.dentry i).nameLen = slice d.filename (slotLen * i) (d.dentry i).nameLen := by
    refine slice_congr fun x h1 h2 => storeList_out ?_
    unfold DentryPtr.slots at hapart
    rw [show slotLen = 8 from rfl] at *
    omega
  dsimp only
  rw [hslice]

omit hinv hgap hname in
lemma update_entry_self : (f2fsUpdateDentry ino mode d name nameHash p).entry p
    = ⟨nameHash, name, ino, f2fsTypeByMode mode⟩ := by
  have hdentry : (f2fsUpdateDentry ino mode d name nameHash p).dentry p
      = ⟨nameHash, ino, name.length, f2fsTypeByMode mode⟩ := if_pos rfl
  unfold DentryPtr.entry DentryPtr.name DentryPtr.nameSlice
  rw [hdentry]
  have hslice : slice (f2fsUpdateDentry ino mode d name nameHash p).filename (slotLen * p)
      name.length = name := slice_storeList d.filename (slotLen * p) name
  dsimp only
  rw [hslice]

/-- **A new entry comes to the others.** -/
lemma update_stores : (f2fsUpdateDentry ino mode d name nameHash p).Stores i e
    ↔ d.Stores i e ∨ i = p ∧ e = ⟨nameHash, name, ino, f2fsTypeByMode mode⟩ := by
  unfold DentryPtr.Stores
  rw [update_hasEntry hgap hname]
  constructor
  · rintro ⟨hi | rfl, rfl⟩
    · rw [(update_entry_other hinv hgap hname hi).2]
      exact Or.inl ⟨hi, rfl⟩
    · rw [update_entry_self]
      exact Or.inr ⟨rfl, rfl⟩
  · rintro (⟨hi, rfl⟩ | ⟨rfl, rfl⟩)
    · exact ⟨Or.inl hi, (update_entry_other hinv hgap hname hi).2⟩
    · exact ⟨Or.inr rfl, update_entry_self⟩

lemma update_inv (hshort : name.length ≤ f2fsNameLen) :
    BlockInv (f2fsUpdateDentry ino mode d name nameHash p) := by
  have hpos : 0 < getDentrySlots name.length :=
    getDentrySlots_pos fun h => hname (List.eq_nil_of_length_eq_zero h)
  have hself : (f2fsUpdateDentry ino mode d name nameHash p).dentry p
      = ⟨nameHash, ino, name.length, f2fsTypeByMode mode⟩ := if_pos rfl
  have hbit : ∀ j, (f2fsUpdateDentry ino mode d name nameHash p).bitmap j
      = if p ≤ j ∧ j < p + getDentrySlots name.length then true else d.bitmap j := fun _ => rfl
  refine ⟨⟨fun i hi => ?_, fun i hi j h1 h2 => ?_⟩, fun i hi => ?_, fun j hj hset => ?_,
    fun j hj => ?_⟩
  · rcases (update_hasEntry hgap hname).mp hi with hi | rfl
    · rw [(update_entry_other hinv hgap hname hi).1]
      exact hinv.slots_le hi
    · rw [hself]
      exact hgap.1
  · rcases (update_hasEntry hgap hname).mp hi with hi | rfl
    · rw [(update_entry_other hinv hgap hname hi).1] at h2
      obtain ⟨hset, hzero⟩ := hinv.ok.tail i hi j h1 h2
      have hapart := hinv.gap_apart hgap hpos hi
      have hout : ¬ (p ≤ j ∧ j < p + getDentrySlots name.length) := by
        rintro ⟨h3, h4⟩
        rw [hgap.2 j h3 h4] at hset
        exact absurd hset (by decide)
      refine ⟨(hbit j).trans ((if_neg hout).trans hset), ?_⟩
      show (if j = p then _ else if p < j ∧ j < p + getDentrySlots name.length then _
        else d.dentry j : DirEntry).nameLen = 0
      rw [if_neg (by omega), if_neg (by omega)]
      exact hzero
    · rw [hself] at h2
      refine ⟨(hbit j).trans (if_pos ⟨h1.le, h2⟩), ?_⟩
      show (if j = i then _ else if i < j ∧ j < i + getDentrySlots name.length then
        { d.dentry j with nameLen := 0 } else _ : DirEntry).nameLen = 0
      rw [if_neg (by omega), if_pos ⟨h1, h2⟩]
  · rcases (update_hasEntry hgap hname).mp hi with hi | rfl
    · rw [(update_entry_other hinv hgap hname hi).1]
      exact hinv.short i hi
    · rw [hself]
      exact hshort
  · rw [hbit] at hset
    by_cases hin : p ≤ j ∧ j < p + getDentrySlots name.length
    · refine ⟨p, (update_hasEntry hgap hname).mpr (Or.inr rfl), hin.1, ?_⟩
      unfold DentryPtr.slots
      rw [hself]
      exact hin.2
    · rw [if_neg hin] at hset
      obtain ⟨i, hi, h1, h2⟩ := hinv.cover j hj hset
      refine ⟨i, (update_hasEntry hgap hname).mpr (Or.inl hi), h1, ?_⟩
      unfold DentryPtr.slots
      rw [(update_entry_other hinv hgap hname hi).1]
      exact h2
  · have hfit := hgap.1
    have hmax : d.max ≤ j := hj
    rw [hbit, if_neg (by omega)]
    exact hinv.beyond j hj

end Update

/-! ## A deletion -/

lemma clear_hasEntry (hinv : BlockInv d) (hp : d.HasEntry p) :
    (clearDentry d p).HasEntry i ↔ d.HasEntry i ∧ i ≠ p := by
  have hpos := slots_pos hp
  unfold DentryPtr.HasEntry clearDentry changeBits
  dsimp only
  by_cases hin : p ≤ i ∧ i < p + getDentrySlots (d.dentry p).nameLen
  · rw [if_pos hin]
    refine ⟨fun h => absurd h.2.1 (by decide), ?_⟩
    rintro ⟨⟨-, -, hlen⟩, hne⟩
    exact absurd (hinv.ok.tail p hp i (lt_of_le_of_ne hin.1 (Ne.symm hne)) hin.2).2 hlen
  · rw [if_neg hin]
    have hne : i ≠ p := by
      rintro rfl
      exact hin ⟨le_rfl, Nat.lt_add_of_pos_right hpos⟩
    exact ⟨fun h => ⟨h, hne⟩, fun h => h.1⟩

/-- **An entry is taken away from the others.** -/
lemma clear_stores (hinv : BlockInv d) (hp : d.HasEntry p) :
    (clearDentry d p).Stores i e ↔ d.Stores i e ∧ i ≠ p := by
  have hsame : (clearDentry d p).entry i = d.entry i := rfl
  unfold DentryPtr.Stores
  rw [clear_hasEntry hinv hp, hsame]
  exact ⟨fun h => ⟨⟨h.1.1, h.2⟩, h.1.2⟩, fun h => ⟨⟨h.1.1, h.2⟩, h.1.2⟩⟩

lemma clear_inv (hinv : BlockInv d) (hp : d.HasEntry p) : BlockInv (clearDentry d p) := by
  have hbit : ∀ j, (clearDentry d p).bitmap j
      = if p ≤ j ∧ j < p + d.slots p then false else d.bitmap j := fun _ => rfl
  have hslots : ∀ i, (clearDentry d p).slots i = d.slots i := fun _ => rfl
  refine ⟨⟨fun i hi => hinv.slots_le ((clear_hasEntry hinv hp).mp hi).1, fun i hi j h1 h2 => ?_⟩,
    fun i hi => hinv.short i ((clear_hasEntry hinv hp).mp hi).1, fun j hj hset => ?_, fun j hj => ?_⟩
  · obtain ⟨hi, hne⟩ := (clear_hasEntry hinv hp).mp hi
    obtain ⟨hset, hzero⟩ := hinv.ok.tail i hi j h1 h2
    refine ⟨(hbit j).trans ((if_neg ?_).trans hset), hzero⟩
    rintro ⟨h3, h4⟩
    have h2' : j < i + d.slots i := h2
    rcases Nat.lt_or_gt_of_ne hne with hlt | hgt
    · have hapart := hinv.apart hi hp hlt
      omega
    · have hapart := hinv.apart hp hi hgt
      omega
  · rw [hbit] at hset
    split_ifs at hset with hin
    obtain ⟨i, hi, h1, h2⟩ := hinv.cover j hj hset
    refine ⟨i, (clear_hasEntry hinv hp).mpr ⟨hi, ?_⟩, h1, h2⟩
    rintro rfl
    exact hin ⟨h1, h2⟩
  · rw [hbit]
    split_ifs
    · rfl
    · exact hinv.beyond j hj

/-! ## A new link -/

lemma setIno_dentry : ((setDentryIno d p ino mode).dentry i).nameLen = (d.dentry i).nameLen ∧
    ((setDentryIno d p ino mode).dentry i).hashCode = (d.dentry i).hashCode := by
  unfold setDentryIno
  dsimp only
  by_cases hip : i = p
  · rw [hip, Function.update_self]
    exact ⟨rfl, rfl⟩
  · rw [Function.update_of_ne hip]
    exact ⟨rfl, rfl⟩

lemma setIno_hasEntry : (setDentryIno d p ino mode).HasEntry i ↔ d.HasEntry i := by
  unfold DentryPtr.HasEntry
  rw [setIno_dentry.1]
  rfl

/-- **An entry leads to another inode.** -/
lemma setIno_stores : (setDentryIno d p ino mode).Stores i e
    ↔ i ≠ p ∧ d.Stores i e ∨
      i = p ∧ ∃ e', d.Stores p e' ∧ e = { e' with ino := ino, fileType := f2fsTypeByMode mode } := by
  unfold DentryPtr.Stores
  rw [setIno_hasEntry]
  by_cases hip : i = p
  · have hself : (setDentryIno d p ino mode).entry p
        = { d.entry p with ino := ino, fileType := f2fsTypeByMode mode } := by
      unfold DentryPtr.entry setDentryIno DentryPtr.name DentryPtr.nameSlice
      dsimp only
      rw [Function.update_self]
    rw [hip, hself]
    constructor
    · rintro ⟨hp, rfl⟩
      exact Or.inr ⟨rfl, _, ⟨hp, rfl⟩, rfl⟩
    · rintro (⟨hne, -⟩ | ⟨-, e', ⟨hp, rfl⟩, rfl⟩)
      · exact absurd rfl hne
      · exact ⟨hp, rfl⟩
  · have hother : (setDentryIno d p ino mode).entry i = d.entry i := by
      unfold DentryPtr.entry setDentryIno DentryPtr.name DentryPtr.nameSlice
      dsimp only
      rw [Function.update_of_ne hip]
    rw [hother]
    exact ⟨fun h => Or.inl ⟨hip, h⟩, fun h => h.elim (fun h => h.2) fun h => absurd h.1 hip⟩

lemma setIno_inv (hinv : BlockInv d) : BlockInv (setDentryIno d p ino mode) := by
  refine ⟨⟨fun i hi => ?_, fun i hi j h1 h2 => ?_⟩, fun i hi => ?_, fun j hj hset => ?_,
    hinv.beyond⟩
  · rw [setIno_dentry.1]
    exact hinv.slots_le (setIno_hasEntry.mp hi)
  · rw [setIno_dentry.1] at h2 ⊢
    exact hinv.ok.tail i (setIno_hasEntry.mp hi) j h1 h2
  · rw [setIno_dentry.1]
    exact hinv.short i (setIno_hasEntry.mp hi)
  · obtain ⟨i, hi, h1, h2⟩ := hinv.cover j hj hset
    refine ⟨i, setIno_hasEntry.mpr hi, h1, ?_⟩
    unfold DentryPtr.slots
    rw [setIno_dentry.1]
    exact h2

/-! ## A lookup -/

/-- The lookup from slot `b` on. -/
lemma findLoop_spec (hinv : BlockInv d) (namehash : ℕ) (name : List Byte) {fuel b : ℕ} (maxLen : ℕ)
    (maxSlots : Option ℕ) (hfuel : d.max - b < fuel)
    (hb : ∀ i, d.HasEntry i → i < b → i + d.slots i ≤ b) :
    ∃ x, findLoop d namehash (· == name) fuel b maxLen maxSlots = some x ∧
      (∀ i, x.de = some i → d.HasEntry i ∧ (d.entry i).hash = namehash ∧ (d.entry i).name = name) ∧
      (x.de = none → ∀ i, b ≤ i → d.HasEntry i →
        ¬ ((d.entry i).hash = namehash ∧ (d.entry i).name = name)) := by
  induction fuel generalizing b maxLen maxSlots with
  | zero => omega
  | succ fuel ih =>
      unfold findLoop
      by_cases hlt : b < d.max
      swap
      · rw [if_neg hlt]
        refine ⟨_, rfl, by simp, fun _ i hi hentry => absurd hentry.1 (by omega)⟩
      rw [if_pos hlt]
      -- a slot without an entry is passed over
      have hskip : ¬ d.HasEntry b → ∀ maxLen', ∃ x, findLoop d namehash (· == name) fuel (b + 1)
          maxLen' maxSlots = some x ∧
          (∀ i, x.de = some i → d.HasEntry i ∧ (d.entry i).hash = namehash ∧
            (d.entry i).name = name) ∧
          (x.de = none → ∀ i, b ≤ i → d.HasEntry i →
            ¬ ((d.entry i).hash = namehash ∧ (d.entry i).name = name)) := by
        intro hno maxLen'
        have hb' : ∀ i, d.HasEntry i → i < b + 1 → i + d.slots i ≤ b + 1 := by
          intro i hi hib
          have hne : i ≠ b := fun h => hno (h ▸ hi)
          have := hb i hi (by omega)
          omega
        obtain ⟨x, hx, hfound, hnone⟩ := ih (b := b + 1) maxLen' maxSlots (by omega) hb'
        refine ⟨x, hx, hfound, fun hde i hi hentry => ?_⟩
        have hne : i ≠ b := fun h => hno (h ▸ hentry)
        exact hnone hde i (by omega) hentry
      cases hbit : d.bitmap b with
      | false =>
          rw [Bool.not_false, if_pos rfl]
          exact hskip (fun h => absurd h.2.1 (by rw [hbit]; decide)) _
      | true =>
          rw [Bool.not_true, if_neg Bool.false_ne_true]
          dsimp only
          by_cases hlen : (d.dentry b).nameLen = 0
          · rw [if_pos hlen]
            exact hskip (fun h => h.2.2 hlen) _
          · rw [if_neg hlen]
            have hentry : d.HasEntry b := ⟨hlt, hbit, hlen⟩
            by_cases hmatch : (d.dentry b).hashCode = namehash ∧
                (d.name (d.nameSlice b) == name) = true
            · rw [if_pos hmatch]
              refine ⟨_, rfl, fun i hi => ?_, fun h => absurd h (by simp)⟩
              obtain rfl := Option.some.inj hi
              exact ⟨hentry, hmatch.1, beq_iff_eq.mp hmatch.2⟩
            · rw [if_neg hmatch]
              have hpos := slots_pos hentry
              have hb' : ∀ i, d.HasEntry i → i < b + d.slots b → i + d.slots i ≤ b + d.slots b := by
                intro i hi hib
                rcases Nat.lt_trichotomy i b with hlt' | rfl | hgt
                · have := hb i hi hlt'
                  omega
                · exact le_rfl
                · have := hinv.apart hentry hi hgt
                  omega
              obtain ⟨x, hx, hfound, hnone⟩ := ih (b := b + d.slots b) 0
                (bumpMaxSlots maxSlots maxLen) (by omega) hb'
              have hstep : getDentrySlots (d.dentry b).nameLen = d.slots b := rfl
              rw [hstep, hx]
              refine ⟨_, rfl, hfound, fun hde i hi hentry' hboth => ?_⟩
              rcases hi.eq_or_lt with rfl | hgt
              · exact hmatch ⟨hboth.1, beq_iff_eq.mpr hboth.2⟩
              · exact hnone hde i (hinv.apart hentry hentry' hgt) hentry' hboth

/-- **A lookup finds an entry with the hash and the name iff there is one.** -/
lemma find_target_spec (hinv : BlockInv d) (namehash : ℕ) (name : List Byte) (wants : Bool) :
    ∃ x, f2fsFindTargetDentry d namehash (· == name) wants = some x ∧
      (∀ i, x.de = some i → ∃ e, d.Stores i e ∧ e.hash = namehash ∧ e.name = name) ∧
      (x.de = none → ∀ i e, d.Stores i e → ¬ (e.hash = namehash ∧ e.name = name)) := by
  obtain ⟨x, hx, hfound, hnone⟩ := findLoop_spec hinv namehash name 0
    (if wants then some 0 else none) (show d.max - 0 < d.max + 1 by omega) (by omega)
  refine ⟨x, hx, fun i hi => ?_, fun hde i e he => ?_⟩
  · obtain ⟨hentry, hhash, hname⟩ := hfound i hi
    exact ⟨_, ⟨hentry, rfl⟩, hhash, hname⟩
  · obtain ⟨hentry, rfl⟩ := he
    exact hnone hde i (Nat.zero_le i) hentry

end Hoit.Dir
