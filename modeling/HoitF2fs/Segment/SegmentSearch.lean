import HoitF2fs.Lib.Traced
import HoitF2fs.Segment.FreeSegmap

/-!
# The search of `get_new_segment`

`FreeSegmap` says what `get_new_segment` returns *if* no check fires.  Here the search is followed
bit by bit, with `left_start` on `unsigned int` as in the source, and it is shown that with a free
section at hand no check can fire and **no bit outside of the section map is tested**.

* `Traced` — a result, with the positions of the section map that were tested on the way
  (`HoitF2fs.Lib.Traced`).
* `leftLoop`, `findSection`, `newSection`, `newSegno`, `getNewSegment` — the source, with the
  tests.
* `get_new_segment_ends` — the result.

The left scan starts at `hint - 1`, which wraps for `hint` 0.  It never comes to that: the search
to the right of section 0 covers the whole map, so it has found the free section before.
-/

namespace Hoit.SegmentSearch

open Bitmap Traced

variable (g : SecGeometry)

/-! ## The source -/

/-- The bits that `find_next_zero_bit` tests. -/
def zeroBitTests (map : ℕ → Bool) (size start : ℕ) : List ℕ :=
  List.range' start (min size (findNextZeroBit map size start + 1) - start)

/-- `find_next_zero_bit` on the section map. -/
def nextZeroBit (map : ℕ → Bool) (start : ℕ) : Traced ℕ :=
  ⟨some (findNextZeroBit map g.mainSecs start), zeroBitTests map g.mainSecs start⟩

/-- A search from section 0, which must succeed. -/
def anySection (map : ℕ → Bool) : Traced ℕ :=
  (nextZeroBit g map 0).bind fun secno =>
    if secno ≥ g.mainSecs then ⟨none, []⟩ else .pure secno

/-- `left_start = hint - 1`. -/
def leftOf (hint : ℕ) : ℕ := (hint + (2 ^ 32 - 1)) % 2 ^ 32

/-- The loop to the left, from section `left_start` on. -/
def leftLoop (map : ℕ → Bool) : ℕ → Traced ℕ
  | 0 => Traced.bind ⟨some (map 0), [0]⟩ fun b => if b then anySection g map else .pure 0
  | n + 1 =>
      Traced.bind ⟨some (map (n + 1)), [n + 1]⟩ fun b =>
        if b then leftLoop map n else .pure (n + 1)

/-- From `find_other_zone` to `skip_left`. -/
def findSection (map : ℕ → Bool) (dir : AllocDir) (hint : ℕ) (x : SecSearch) :
    Traced SecSearch :=
  (nextZeroBit g map hint).bind fun secno =>
    let turned : Traced SecSearch :=
      if secno ≥ g.mainSecs then
        match dir with
        | .right => (anySection g map).bind fun secno => .pure { x with secno }
        | .left => .pure ⟨secno, true, leftOf hint⟩
      else .pure { x with secno }
    turned.bind fun x =>
      if x.goLeft then (leftLoop g map x.leftStart).bind fun s => .pure ⟨s, true, s⟩
      else .pure x

/-- The section that `get_new_segment` settles for.  The second search is the last. -/
def newSection (map : ℕ → Bool) (dir : AllocDir) (newseg : ℕ) (zones : List ℕ) : Traced ℕ :=
  let hint := newseg / g.segsPerSec
  (findSection g map dir hint ⟨0, false, hint⟩).bind fun x =>
    if zoneDone g dir (hint / g.secsPerZone) zones x then .pure x.secno
    else (findSection g map dir (otherHint g x) x).bind fun y => .pure y.secno

def newSegno (freeI : FreeSegmapInfo) (newseg : ℕ) (newSec : Bool) (dir : AllocDir)
    (zones : List ℕ) : Traced ℕ :=
  let secEnd := (newseg / g.segsPerSec + 1) * g.segsPerSec
  let segno := findNextZeroBit freeI.freeSegmap secEnd (newseg + 1)
  if !newSec && (newseg + 1) % g.segsPerSec != 0 && decide (segno < secEnd) then .pure segno
  else (newSection g freeI.freeSecmap dir newseg zones).bind fun secno =>
    .pure (secno * g.segsPerSec)

/-- `get_new_segment`; `__set_inuse` tests the section of the segment. -/
def getNewSegment (nsbi : NvmSbInfo) (freeI : FreeSegmapInfo) (newseg : ℕ) (newSec : Bool)
    (dir : AllocDir) (zones : List ℕ) : Traced (ℕ × NvmSbInfo × FreeSegmapInfo) :=
  (newSegno g freeI newseg newSec dir zones).bind fun segno =>
    if freeI.freeSegmap segno then ⟨none, []⟩
    else ⟨some (segno, setInuse g.toGeometry nsbi freeI segno), [segno / g.segsPerSec]⟩

/-! ## With a free section at hand -/

section

variable {g} {map : ℕ → Bool} {dir : AllocDir} {hint newseg : ℕ}

/-- Some section is free. -/
def HasFreeSection (g : SecGeometry) (map : ℕ → Bool) : Prop :=
  ∃ sec < g.mainSecs, map sec = false

lemma nextZeroBit_ends (map : ℕ → Bool) (start : ℕ) : (nextZeroBit g map start).Ends g.mainSecs
    fun secno => findNextZeroBit map g.mainSecs start = secno where
  result := ⟨_, rfl, rfl⟩
  inside := by
    intro i hi
    obtain ⟨hle, hlt⟩ := List.mem_range'_1.mp hi
    omega

/-- A search of the whole map finds the free section. -/
lemma HasFreeSection.found (h : HasFreeSection g map) :
    findNextZeroBit map g.mainSecs 0 < g.mainSecs := by
  obtain ⟨sec, hlt, hclear⟩ := h
  exact findNextZeroBit_lt (Nat.zero_le _) hlt hclear

lemma anySection_ends (h : HasFreeSection g map) :
    (anySection g map).Ends g.mainSecs fun s => Hoit.anySection g map = some s := by
  refine (nextZeroBit_ends map 0).bind ?_
  rintro s rfl
  have hfound := h.found
  rw [if_neg (by omega)]
  exact Ends.pure (if_pos hfound)

/-- The loop to the left passes section 0 at most once. -/
lemma leftLoop_ends (h : HasFreeSection g map) {n : ℕ} (hn : n < g.mainSecs) :
    (leftLoop g map n).Ends g.mainSecs
      fun s => (searchLeft map n).or (Hoit.anySection g map) = some s := by
  induction n with
  | zero =>
      have htest : Ends g.mainSecs (fun b => map 0 = b) ⟨some (map 0), [0]⟩ :=
        ⟨⟨_, rfl, rfl⟩, by simpa using hn⟩
      refine htest.bind ?_
      intro b hb
      cases b with
      | true => simpa [searchLeft, hb] using anySection_ends h
      | false => exact Ends.pure (by simp [searchLeft, hb])
  | succ n ih =>
      have htest : Ends g.mainSecs (fun b => map (n + 1) = b) ⟨some (map (n + 1)), [n + 1]⟩ :=
        ⟨⟨_, rfl, rfl⟩, by simpa using hn⟩
      refine htest.bind ?_
      intro b hb
      cases b with
      | true => simpa [searchLeft, hb] using ih (by omega)
      | false => exact Ends.pure (by simp [searchLeft, hb])

/-- **The left scan does not start to the left of section 0.** -/
lemma leftOf_eq (h : HasFreeSection g map) (hhint : hint ≤ g.mainSecs)
    (hend : findNextZeroBit map g.mainSecs hint ≥ g.mainSecs) :
    leftOf hint = hint - 1 ∧ hint - 1 < g.mainSecs := by
  have hpos : hint ≠ 0 := by
    rintro rfl
    exact absurd h.found (by omega)
  have hsecs : g.mainSecs ≤ g.segmentCountMain := mainSecs_le
  have hlt := g.ssd_lt
  constructor
  · unfold leftOf
    omega
  · omega

lemma findSection_ends (h : HasFreeSection g map) {x : SecSearch} (hhint : hint ≤ g.mainSecs)
    (hx : x.Inside g) :
    (findSection g map dir hint x).Ends g.mainSecs
      fun y => Hoit.findSection g map dir hint x = some y := by
  refine (nextZeroBit_ends map hint).bind ?_
  rintro secno rfl
  -- What follows when the direction is settled.
  have hrest : ∀ z : SecSearch, z.Inside g →
      (if z.goLeft then (leftLoop g map z.leftStart).bind fun s => .pure ⟨s, true, s⟩
        else .pure z).Ends g.mainSecs
      fun y => (if z.goLeft then
          ((searchLeft map z.leftStart).or (Hoit.anySection g map)).map fun s => ⟨s, true, s⟩
        else some z) = some y := by
    intro z hz
    cases hl : z.goLeft with
    | false => exact Ends.pure rfl
    | true =>
        refine (leftLoop_ends h (hz hl)).bind fun s hs => Ends.pure ?_
        simp [hs]
  simp only [Hoit.findSection]
  by_cases hend : findNextZeroBit map g.mainSecs hint ≥ g.mainSecs
  · cases dir with
    | right =>
        have hturned : ((anySection g map).bind fun secno =>
            Traced.pure { x with secno := secno }).Ends g.mainSecs fun z => z.Inside g ∧
              ((Hoit.anySection g map).map fun secno => { x with secno }) = some z := by
          refine (anySection_ends h).bind fun s hs => Ends.pure ⟨hx, ?_⟩
          simp [hs]
        simp only [hend, if_true]
        refine hturned.bind ?_
        rintro z ⟨hz, heq⟩
        simpa [heq] using hrest z hz
    | left =>
        obtain ⟨hleft, hlt⟩ := leftOf_eq h hhint hend
        simp only [hend, if_true, hleft]
        exact Ends.pure_bind (hrest ⟨_, true, hint - 1⟩ fun _ => hlt)
  · simp only [hend, if_false]
    exact Ends.pure_bind (hrest _ hx)

lemma newSection_ends (h : HasFreeSection g map) (hhint : newseg / g.segsPerSec ≤ g.mainSecs)
    (zones : List ℕ) :
    (newSection g map dir newseg zones).Ends g.mainSecs
      fun s => Hoit.newSection g map dir newseg zones = some s := by
  have hpos : 0 < g.mainSecs := Nat.zero_lt_of_lt h.found
  have hstart : SecSearch.Inside g ⟨0, false, newseg / g.segsPerSec⟩ := fun hl => by simp at hl
  refine (findSection_ends h hhint hstart).bind fun x hx => ?_
  obtain ⟨hlt, -, hin⟩ := findSection_spec hpos hhint hstart hx
  by_cases hdone : zoneDone g dir (newseg / g.segsPerSec / g.secsPerZone) zones x
  · rw [if_pos hdone]
    exact Ends.pure (by simp [Hoit.newSection, hx, hdone])
  · rw [if_neg hdone]
    refine (findSection_ends h (otherHint_le hlt) hin).bind fun y hy => Ends.pure ?_
    simp [Hoit.newSection, hx, hdone, hy]

variable {freeI : FreeSegmapInfo} {newSec : Bool} {zones : List ℕ} {segno : ℕ}

/-- The segment goes on with the section of the hint, or starts a free one. -/
def ContinuesOrFree (g : SecGeometry) (freeI : FreeSegmapInfo) (newseg : ℕ) (newSec : Bool)
    (segno : ℕ) : Prop :=
  (newSec = false ∧ newseg < segno ∧ segno / g.segsPerSec = newseg / g.segsPerSec) ∨
    freeI.freeSecmap (segno / g.segsPerSec) = false

/-- `find_next_zero_bit` inside of the hinted section. -/
lemma continues_section (hlt : findNextZeroBit freeI.freeSegmap
      ((newseg / g.segsPerSec + 1) * g.segsPerSec) (newseg + 1)
        < (newseg / g.segsPerSec + 1) * g.segsPerSec) :
    newseg < findNextZeroBit freeI.freeSegmap ((newseg / g.segsPerSec + 1) * g.segsPerSec)
        (newseg + 1) ∧
      findNextZeroBit freeI.freeSegmap ((newseg / g.segsPerSec + 1) * g.segsPerSec) (newseg + 1)
        / g.segsPerSec = newseg / g.segsPerSec := by
  have hnext : newseg < (newseg / g.segsPerSec + 1) * g.segsPerSec :=
    Nat.lt_mul_of_div_lt (Nat.lt_succ_self _) g.segsPerSec_pos
  have hge : newseg + 1 ≤ findNextZeroBit freeI.freeSegmap
      ((newseg / g.segsPerSec + 1) * g.segsPerSec) (newseg + 1) := le_findNextZeroBit hnext
  have hbegin := Nat.div_mul_le_self newseg g.segsPerSec
  rw [Nat.add_mul, Nat.one_mul] at hlt hge ⊢
  exact ⟨by omega, (section_iff _).mpr ⟨by omega, hlt⟩⟩

lemma newSegno_ends (h : HasFreeSection g freeI.freeSecmap) (hnew : newseg < g.segmentCountMain) :
    (newSegno g freeI newseg newSec dir zones).Ends g.mainSecs fun segno =>
      Hoit.newSegno g freeI newseg newSec dir zones = some segno ∧
        ContinuesOrFree g freeI newseg newSec segno := by
  have hhint : newseg / g.segsPerSec ≤ g.mainSecs := (section_lt hnew).le
  simp only [newSegno, Hoit.newSegno]
  split_ifs with hin
  · simp only [Bool.and_eq_true, Bool.not_eq_true', decide_eq_true_eq] at hin
    obtain ⟨hgt, hsec⟩ := continues_section hin.2
    exact Ends.pure ⟨rfl, Or.inl ⟨hin.1.1, hgt, hsec⟩⟩
  · refine (newSection_ends h hhint zones).bind fun s hs => Ends.pure ⟨by simp [hs], Or.inr ?_⟩
    rw [Nat.mul_div_cancel _ g.segsPerSec_pos]
    exact (newSection_spec (Nat.zero_lt_of_lt h.found) hhint hs).2

/-- The results are those of `FreeSegmap`. -/
lemma getNewSegment_ends {nsbi : NvmSbInfo} (hok : FreeSegmapOk g freeI)
    (h : HasFreeSection g freeI.freeSecmap) (hnew : newseg < g.segmentCountMain) :
    (getNewSegment g nsbi freeI newseg newSec dir zones).Ends g.mainSecs fun r =>
      Hoit.getNewSegment g nsbi freeI newseg newSec dir zones = some r ∧
        ContinuesOrFree g freeI newseg newSec r.1 := by
  refine (newSegno_ends h hnew).bind ?_
  rintro segno ⟨hs, hsec⟩
  have hclear := newSegno_free hok hnew hs
  have hlt := newSegno_lt (Or.inl hnew) hs
  rw [hclear, if_neg Bool.false_ne_true]
  refine ⟨⟨_, rfl, ?_, hsec⟩, by simpa using section_lt hlt⟩
  simp [Hoit.getNewSegment, hs, hclear]

/-- **With a free section, `get_new_segment` takes a free segment and nothing else**: no check
fires, and only bits of the section map are tested. -/
theorem get_new_segment_ends {nsbi : NvmSbInfo} (hok : FreeSegmapOk g freeI)
    (h : HasFreeSection g freeI.freeSecmap) (hnew : newseg < g.segmentCountMain) :
    ∃ segno nsbi' freeI',
      (getNewSegment g nsbi freeI newseg newSec dir zones).result = some (segno, nsbi', freeI') ∧
      (∀ i ∈ (getNewSegment g nsbi freeI newseg newSec dir zones).tested, i < g.mainSecs) ∧
      segno < g.segmentCountMain ∧ freeI.freeSegmap segno = false ∧
      ContinuesOrFree g freeI newseg newSec segno ∧
      freeI'.freeSegmap = Function.update freeI.freeSegmap segno true ∧
      freeI'.freeSecmap = Function.update freeI.freeSecmap (segno / g.segsPerSec) true ∧
      FreeSegmapOk g freeI' := by
  obtain ⟨⟨⟨segno, nsbi', freeI'⟩, hres, hget, hsec⟩, hin⟩ :=
    @getNewSegment_ends g dir newseg freeI newSec zones nsbi hok h hnew
  obtain ⟨hlt, hclear, heq⟩ := getNewSegment_spec (Or.inl hnew) hget
  obtain ⟨rfl, rfl⟩ := Prod.mk.inj heq
  exact ⟨segno, _, _, hres, hin, hlt, hclear, hsec, rfl, rfl, hok.taken hlt hclear⟩

/-- A mount of two sections, the first of which has segments 0 and 2 in use. -/
def halfFull : FreeSegmapInfo :=
  initFreeSegmap twoSections (fun s => if s = 0 then 7 else 0) [2] buildFreeSegmap

/-- A search to the left for a new section, with the hint in the last section. -/
theorem get_new_segment_ends_halfFull :
    ∃ segno nsbi freeI,
      (getNewSegment twoSections noMappings halfFull 5 true .left [1]).result
        = some (segno, nsbi, freeI) ∧
      segno < 6 ∧ halfFull.freeSegmap segno = false ∧ freeI.freeSegmap segno = true := by
  have hok : FreeSegmapOk twoSections halfFull := FreeSegmapOk.initFreeSegmap (by decide)
  have hfree : HasFreeSection twoSections halfFull.freeSecmap := ⟨1, by decide, by decide +kernel⟩
  obtain ⟨segno, nsbi, freeI, hres, -, hlt, hclear, -, hmap, -⟩ :=
    @get_new_segment_ends twoSections .left 5 halfFull true [1] noMappings hok hfree (by decide)
  exact ⟨segno, nsbi, freeI, hres, hlt, hclear, by rw [hmap, Function.update_self]⟩

end

end Hoit.SegmentSearch
