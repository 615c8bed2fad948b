import HoitF2fs.Lib.Transition
import HoitF2fs.Nvm.SegmentMap

/-!
# The free segment map

`free_segmap` has a bit for each segment of the main area and `free_secmap` one for each section;
a set bit means *in use*.  Two counters say how many bits are clear.  The four functions that
change a bit differ in what they look at first: `__set_inuse` and `__set_free` look at nothing,
the other two test the bit of the segment.

* `FreeSegmapOk` — the counters are right, and **a section is in use iff one of its segments is**.
* `FreeSegmapOk.setInuse`, `FreeSegmapOk.setFree`, `FreeSegmapOk.clearFreeSegmap`,
  `FreeSegmapOk.setTestAndInuse` — one function each.  The first asks for a free segment and the
  second for one in use.
* `getNewSegment_spec` — whatever path `get_new_segment` takes, it ends at a free segment.
* `FreeSegmapOk.initFreeSegmap` — a mount ends in such a state.

**What `__set_free` is for.**  It counts without looking, so on a segment that is free already it
is wrong by one (`setFree_miscounts`).  Its only caller is `init_free_segmap`, which starts with all
bits set and visits each segment once.
-/

namespace Hoit

open Bitmap Transition

/-- A main area that is a whole number of sections. -/
structure SecGeometry extends Geometry where
  mainSecs : ℕ
  secsPerZone : ℕ
  whole : segmentCountMain = mainSecs * segsPerSec

variable (g : SecGeometry)

/-! ## The functions -/

/-- `__set_free`. -/
def setFree (freeI : FreeSegmapInfo) (segno : ℕ) : FreeSegmapInfo :=
  let secno := segno / g.segsPerSec
  let startSegno := secno * g.segsPerSec
  let freeSegmap := Function.update freeI.freeSegmap segno false
  let freeI := { freeI with freeSegmap, freeSegments := freeI.freeSegments + 1 }
  if startSegno + g.segsPerSec
      ≤ findNextBit freeSegmap (startSegno + g.segsPerSec) startSegno then
    { freeI with
      freeSecmap := Function.update freeI.freeSecmap secno false
      freeSections := freeI.freeSections + 1 }
  else freeI

/-- `__set_test_and_inuse`. -/
def setTestAndInuse (freeI : FreeSegmapInfo) (segno : ℕ) : FreeSegmapInfo :=
  if freeI.freeSegmap segno then freeI
  else
    let secno := segno / g.segsPerSec
    { freeSegmap := Function.update freeI.freeSegmap segno true
      freeSecmap := Function.update freeI.freeSecmap secno true
      freeSegments := freeI.freeSegments - 1
      freeSections := if freeI.freeSecmap secno then freeI.freeSections
        else freeI.freeSections - 1 }

/-- `build_free_segmap`: all segments are in use for the time being. -/
def buildFreeSegmap : FreeSegmapInfo := ⟨fun _ => true, fun _ => true, 0, 0⟩

/-- `init_free_segmap`, less the sum of the valid blocks; `cursegs` are the current segments. -/
def initFreeSegmap (validBlocks : ℕ → ℕ) (cursegs : List ℕ) (freeI : FreeSegmapInfo) :
    FreeSegmapInfo :=
  cursegs.foldl (setTestAndInuse g)
    (((List.range g.segmentCountMain).filter fun s => validBlocks s == 0).foldl (setFree g) freeI)

inductive AllocDir where
  | right
  | left
deriving DecidableEq

/-- The loop to the left, from section `n` down; it fails when it has passed section 0. -/
def searchLeft (map : ℕ → Bool) : ℕ → Option ℕ
  | 0 => if map 0 then none else some 0
  | n + 1 => if map (n + 1) then searchLeft map n else some (n + 1)

/-- A search from section 0, which must succeed. -/
def anySection (freeSecmap : ℕ → Bool) : Option ℕ :=
  let secno := findNextZeroBit freeSecmap g.mainSecs 0
  if secno < g.mainSecs then some secno else none

/-- Where the search for a section stands. -/
structure SecSearch where
  secno : ℕ
  goLeft : Bool
  leftStart : ℕ

/-- From `find_other_zone` to `skip_left`; `none` if a check fires.  With `hint` 0 and no free
section at all the source steps to the left of section 0. -/
def findSection (freeSecmap : ℕ → Bool) (dir : AllocDir) (hint : ℕ) (x : SecSearch) :
    Option SecSearch :=
  let secno := findNextZeroBit freeSecmap g.mainSecs hint
  let turned : Option SecSearch :=
    if g.mainSecs ≤ secno then
      match dir with
      | .right => (anySection g freeSecmap).map fun secno => { x with secno }
      | .left => some ⟨secno, true, hint - 1⟩
    else some { x with secno }
  turned.bind fun x =>
    if x.goLeft then
      ((searchLeft freeSecmap x.leftStart).or (anySection g freeSecmap)).map fun s => ⟨s, true, s⟩
    else some x

/-- Whether the zone of the section will do. -/
def zoneDone (dir : AllocDir) (oldZoneno : ℕ) (zones : List ℕ) (x : SecSearch) : Bool :=
  let zoneno := x.secno / g.secsPerZone
  let totalZones := g.mainSecs / g.secsPerZone
  g.secsPerZone == 1 || zoneno == oldZoneno ||
    (dir == .left && ((!x.goLeft && decide (totalZones ≤ zoneno + 1)) || (x.goLeft && zoneno == 0))) ||
    !zones.contains zoneno

/-- Where to look for another zone. -/
def otherHint (x : SecSearch) : ℕ :=
  let zoneno := x.secno / g.secsPerZone
  if x.goLeft then zoneno * g.secsPerZone - 1
  else if g.mainSecs / g.secsPerZone ≤ zoneno + 1 then 0
  else (zoneno + 1) * g.secsPerZone

/-- The section that `get_new_segment` settles for.  The second search is the last. -/
def newSection (freeSecmap : ℕ → Bool) (dir : AllocDir) (newseg : ℕ) (zones : List ℕ) : Option ℕ :=
  let hint := newseg / g.segsPerSec
  (findSection g freeSecmap dir hint ⟨0, false, hint⟩).bind fun x =>
    if zoneDone g dir (hint / g.secsPerZone) zones x then some x.secno
    else (findSection g freeSecmap dir (otherHint g x) x).map SecSearch.secno

/-- The segment that `get_new_segment` finds; `zones` are those of the current segments. -/
def newSegno (freeI : FreeSegmapInfo) (newseg : ℕ) (newSec : Bool) (dir : AllocDir)
    (zones : List ℕ) : Option ℕ :=
  let secEnd := (newseg / g.segsPerSec + 1) * g.segsPerSec
  let segno := findNextZeroBit freeI.freeSegmap secEnd (newseg + 1)
  if !newSec && (newseg + 1) % g.segsPerSec != 0 && decide (segno < secEnd) then some segno
  else (newSection g freeI.freeSecmap dir newseg zones).map (· * g.segsPerSec)

/-- `get_new_segment`; `none` if a check fires. -/
def getNewSegment (nsbi : NvmSbInfo) (freeI : FreeSegmapInfo) (newseg : ℕ) (newSec : Bool)
    (dir : AllocDir) (zones : List ℕ) : Option (ℕ × NvmSbInfo × FreeSegmapInfo) :=
  (newSegno g freeI newseg newSec dir zones).bind fun segno =>
    if freeI.freeSegmap segno then none
    else some (segno, setInuse g.toGeometry nsbi freeI segno)

/-! ## The invariant -/

structure FreeSegmapOk (freeI : FreeSegmapInfo) : Prop where
  segments : freeI.freeSegments.toNat = zeroBits freeI.freeSegmap g.segmentCountMain
  /-- **A section is in use iff one of its segments is.** -/
  secmap : ∀ sec, sec < g.mainSecs →
    (freeI.freeSecmap sec = true ↔ ∃ s, s / g.segsPerSec = sec ∧ freeI.freeSegmap s = true)
  sections : freeI.freeSections.toNat = zeroBits freeI.freeSecmap g.mainSecs

section

variable {g} {nsbi : NvmSbInfo} {freeI : FreeSegmapInfo} {segno sec : ℕ}

lemma mainSecs_le : g.mainSecs ≤ g.segmentCountMain := by
  rw [g.whole]
  exact Nat.le_mul_of_pos_right _ g.segsPerSec_pos

lemma section_lt (h : segno < g.segmentCountMain) : segno / g.segsPerSec < g.mainSecs := by
  rwa [Nat.div_lt_iff_lt_mul g.segsPerSec_pos, ← g.whole]

lemma section_iff (s : ℕ) : s / g.segsPerSec = sec
    ↔ sec * g.segsPerSec ≤ s ∧ s < sec * g.segsPerSec + g.segsPerSec := by
  have hle : sec ≤ s / g.segsPerSec ↔ sec * g.segsPerSec ≤ s :=
    Nat.le_div_iff_mul_le g.segsPerSec_pos
  have hlt : s / g.segsPerSec < sec + 1 ↔ s < (sec + 1) * g.segsPerSec :=
    Nat.div_lt_iff_lt_mul g.segsPerSec_pos
  rw [Nat.add_mul, Nat.one_mul] at hlt
  omega

/-- The search of a section runs to the end of it iff no segment of it is in use. -/
lemma sectionFree_iff (map : ℕ → Bool) (sec : ℕ) :
    sec * g.segsPerSec + g.segsPerSec
        ≤ findNextBit map (sec * g.segsPerSec + g.segsPerSec) (sec * g.segsPerSec)
      ↔ ∀ s, s / g.segsPerSec = sec → map s = false := by
  rw [le_findNextBit_iff]
  constructor
  · intro h s hs
    obtain ⟨h1, h2⟩ := (section_iff s).mp hs
    exact h s h1 h2
  · intro h s h1 h2
    exact h s ((section_iff s).mpr ⟨h1, h2⟩)

lemma toNat_add_one {x : BitVec 32} {n : ℕ} (h : x.toNat = n) (hn : n + 1 ≤ g.segmentCountMain) :
    (x + 1).toNat = n + 1 := by
  have hlt := g.ssd_lt
  rw [BitVec.toNat_add, h]
  exact Nat.mod_eq_of_lt (by simp; omega)

lemma toNat_sub_one {x : BitVec 32} {n : ℕ} (h : x.toNat = n + 1) : (x - 1).toNat = n := by
  have hlt := x.isLt
  rw [BitVec.toNat_sub, h]
  simp
  omega

/-! ## One segment is taken -/

/-- What `__set_inuse` and `__set_test_and_inuse` do to a free segment. -/
lemma FreeSegmapOk.taken (h : FreeSegmapOk g freeI) (hlt : segno < g.segmentCountMain)
    (hfree : freeI.freeSegmap segno = false) :
    FreeSegmapOk g
      { freeSegmap := Function.update freeI.freeSegmap segno true
        freeSecmap := Function.update freeI.freeSecmap (segno / g.segsPerSec) true
        freeSegments := freeI.freeSegments - 1
        freeSections := if freeI.freeSecmap (segno / g.segsPerSec) then freeI.freeSections
          else freeI.freeSections - 1 } where
  segments := by
    have hzero := zeroBits_set hlt hfree
    exact toNat_sub_one (h.segments.trans hzero.symm)
  secmap := by
    intro sec hsec
    by_cases hs : sec = segno / g.segsPerSec
    · subst hs
      simp only [Function.update_self, true_iff]
      exact ⟨segno, rfl, Function.update_self ..⟩
    · simp only [ne_eq, hs, not_false_eq_true, Function.update_of_ne]
      rw [h.secmap sec hsec]
      refine exists_congr fun s => and_congr_right fun hdiv => ?_
      have hne : s ≠ segno := by
        rintro rfl
        exact hs hdiv.symm
      rw [Function.update_of_ne hne]
  sections := by
    cases hb : freeI.freeSecmap (segno / g.segsPerSec) with
    | true =>
        rw [if_pos rfl, ← hb, Function.update_eq_self]
        exact h.sections
    | false =>
        have hzero := zeroBits_set (section_lt hlt) hb
        exact toNat_sub_one (h.sections.trans hzero.symm)

lemma FreeSegmapOk.setInuse (h : FreeSegmapOk g freeI) (hlt : segno < g.segmentCountMain)
    (hfree : freeI.freeSegmap segno = false) :
    FreeSegmapOk g (setInuse g.toGeometry nsbi freeI segno).2 := h.taken hlt hfree

lemma FreeSegmapOk.setTestAndInuse (h : FreeSegmapOk g freeI) (hlt : segno < g.segmentCountMain) :
    FreeSegmapOk g (setTestAndInuse g freeI segno) := by
  unfold Hoit.setTestAndInuse
  cases hb : freeI.freeSegmap segno with
  | true => exact h
  | false => exact h.taken hlt hb

/-! ## One segment is freed -/

/-- The section of a segment in use is in use. -/
lemma FreeSegmapOk.sec_used (h : FreeSegmapOk g freeI) (hlt : segno < g.segmentCountMain)
    (hused : freeI.freeSegmap segno = true) : freeI.freeSecmap (segno / g.segsPerSec) = true :=
  (h.secmap _ (section_lt hlt)).mpr ⟨segno, rfl, hused⟩

/-- What `__set_free` does to a segment in use. -/
lemma FreeSegmapOk.setFree (h : FreeSegmapOk g freeI) (hlt : segno < g.segmentCountMain)
    (hused : freeI.freeSegmap segno = true) : FreeSegmapOk g (setFree g freeI segno) := by
  have hzero := zeroBits_clear hlt hused
  have hsegs : (freeI.freeSegments + 1).toNat
      = zeroBits (Function.update freeI.freeSegmap segno false) g.segmentCountMain := by
    rw [hzero]
    refine toNat_add_one (g := g) h.segments ?_
    rw [← hzero]
    exact zeroBits_le _ _
  have hother : ∀ sec, sec ≠ segno / g.segsPerSec → sec < g.mainSecs →
      (freeI.freeSecmap sec = true ↔ ∃ s, s / g.segsPerSec = sec ∧
        Function.update freeI.freeSegmap segno false s = true) := by
    intro sec hne hsec
    rw [h.secmap sec hsec]
    refine exists_congr fun s => and_congr_right fun hdiv => ?_
    have hsne : s ≠ segno := by
      rintro rfl
      exact hne hdiv.symm
    rw [Function.update_of_ne hsne]
  simp only [Hoit.setFree]
  split_ifs with hall
  · rw [sectionFree_iff] at hall
    refine ⟨hsegs, fun sec hsec => ?_, ?_⟩
    · by_cases hs : sec = segno / g.segsPerSec
      · subst hs
        simp only [Function.update_self, Bool.false_eq_true, false_iff, not_exists, not_and]
        intro s hdiv
        simp [hall s hdiv]
      · simp only [ne_eq, hs, not_false_eq_true, Function.update_of_ne]
        exact hother sec hs hsec
    · have hzero' := zeroBits_clear (section_lt hlt) (h.sec_used hlt hused)
      rw [hzero']
      refine toNat_add_one (g := g) h.sections ?_
      rw [← hzero']
      exact (zeroBits_le _ _).trans mainSecs_le
  · rw [sectionFree_iff] at hall
    refine ⟨hsegs, fun sec hsec => ?_, h.sections⟩
    by_cases hs : sec = segno / g.segsPerSec
    · subst hs
      simp only [h.sec_used hlt hused, true_iff]
      by_contra hnone
      refine hall fun s hdiv => ?_
      by_contra hb
      exact hnone ⟨s, hdiv, by simpa using hb⟩
    · exact hother sec hs hsec

/-- On a segment in use `__set_test_and_free` does the same. -/
lemma clearFreeSegmap_eq (h : FreeSegmapOk g freeI) (hlt : segno < g.segmentCountMain) :
    clearFreeSegmap g.toGeometry freeI segno
      = if freeI.freeSegmap segno then Hoit.setFree g freeI segno else freeI := by
  unfold clearFreeSegmap Hoit.setFree
  cases hb : freeI.freeSegmap segno with
  | false => simp
  | true =>
      have hsec := h.sec_used hlt hb
      simp [hsec]

lemma FreeSegmapOk.clearFreeSegmap (h : FreeSegmapOk g freeI) (hlt : segno < g.segmentCountMain) :
    FreeSegmapOk g (clearFreeSegmap g.toGeometry freeI segno) := by
  rw [clearFreeSegmap_eq h hlt]
  split_ifs with hb
  · exact h.setFree hlt hb
  · exact h

/-! ## The search for a segment -/

lemma searchLeft_spec {map : ℕ → Bool} {n s : ℕ} (h : searchLeft map n = some s) :
    s ≤ n ∧ map s = false := by
  induction n with
  | zero =>
      obtain ⟨hb, hs⟩ := Option.ite_none_left_eq_some.mp h
      obtain rfl := Option.some.inj hs
      exact ⟨le_rfl, by simpa using hb⟩
  | succ n ih =>
      rw [searchLeft] at h
      split_ifs at h with hb
      · obtain ⟨hle, hclear⟩ := ih h
        exact ⟨by omega, hclear⟩
      · obtain rfl := Option.some.inj h
        exact ⟨le_rfl, by simpa using hb⟩

lemma anySection_spec {map : ℕ → Bool} {s : ℕ} (h : anySection g map = some s) :
    s < g.mainSecs ∧ map s = false := by
  obtain ⟨hlt, hs⟩ := Option.ite_none_right_eq_some.mp h
  obtain rfl := Option.some.inj hs
  exact ⟨hlt, findNextZeroBit_clear hlt⟩

/-- A search that is under way to the left is inside of the area. -/
def SecSearch.Inside (g : SecGeometry) (x : SecSearch) : Prop :=
  x.goLeft = true → x.leftStart < g.mainSecs

lemma findSection_spec {map : ℕ → Bool} {dir : AllocDir} {hint : ℕ} {x y : SecSearch}
    (hpos : 0 < g.mainSecs) (hhint : hint ≤ g.mainSecs) (hx : x.Inside g)
    (h : findSection g map dir hint x = some y) :
    y.secno < g.mainSecs ∧ map y.secno = false ∧ y.Inside g := by
  -- Where the search stands when it turns to the left, if it does.
  have hturned : ∀ z : SecSearch,
      (if g.mainSecs ≤ findNextZeroBit map g.mainSecs hint then
        match dir with
        | .right => (anySection g map).map fun secno => { x with secno }
        | .left => some ⟨findNextZeroBit map g.mainSecs hint, true, hint - 1⟩
      else some { x with secno := findNextZeroBit map g.mainSecs hint }) = some z →
      z.Inside g ∧ (z.goLeft = false → z.secno < g.mainSecs ∧ map z.secno = false) := by
    intro z hz
    split_ifs at hz with hend
    · cases dir with
      | right =>
          obtain ⟨s, hs, rfl⟩ := Option.map_eq_some_iff.mp hz
          exact ⟨hx, fun _ => anySection_spec hs⟩
      | left =>
          obtain rfl := Option.some.inj hz
          exact ⟨fun _ => by change hint - 1 < _; omega, fun hf => absurd hf (by simp)⟩
    · obtain rfl := Option.some.inj hz
      have hlt : findNextZeroBit map g.mainSecs hint < g.mainSecs := by omega
      exact ⟨hx, fun _ => ⟨hlt, findNextZeroBit_clear hlt⟩⟩
  obtain ⟨z, hz, hy⟩ := Option.bind_eq_some_iff.mp h
  obtain ⟨hin, hsec⟩ := hturned z hz
  cases hl : z.goLeft with
  | false =>
      obtain rfl : z = y := by simpa [hl] using hy
      obtain ⟨hlt, hclear⟩ := hsec hl
      exact ⟨hlt, hclear, hin⟩
  | true =>
      simp only [hl, if_true] at hy
      obtain ⟨s, hs, rfl⟩ := Option.map_eq_some_iff.mp hy
      have hspec : s < g.mainSecs ∧ map s = false := by
        rcases Option.or_eq_some_iff.mp hs with hs | ⟨-, hs⟩
        · obtain ⟨hle, hclear⟩ := searchLeft_spec hs
          exact ⟨by have := hin hl; omega, hclear⟩
        · exact anySection_spec hs
      exact ⟨hspec.1, hspec.2, fun _ => hspec.1⟩

lemma otherHint_le {x : SecSearch} (hx : x.secno < g.mainSecs) : otherHint g x ≤ g.mainSecs := by
  simp only [otherHint]
  have hzone := Nat.div_mul_le_self x.secno g.secsPerZone
  split_ifs with hl hz
  · omega
  · exact Nat.zero_le _
  · calc (x.secno / g.secsPerZone + 1) * g.secsPerZone
        ≤ g.mainSecs / g.secsPerZone * g.secsPerZone := Nat.mul_le_mul_right _ (by omega)
      _ ≤ g.mainSecs := Nat.div_mul_le_self _ _

/-- Where `__get_next_segno` lets the search start: at a segment, or right after the last one where
a section is a segment. -/
def NewsegOk (g : SecGeometry) (newseg : ℕ) : Prop :=
  newseg < g.segmentCountMain ∨ (newseg = g.segmentCountMain ∧ g.segsPerSec = 1 ∧ 0 < newseg)

instance (g : SecGeometry) (newseg : ℕ) : Decidable (NewsegOk g newseg) :=
  inferInstanceAs (Decidable (_ ∨ _))

lemma newSection_spec {map : ℕ → Bool} {dir : AllocDir} {newseg s : ℕ} {zones : List ℕ}
    (hpos : 0 < g.mainSecs) (hhint : newseg / g.segsPerSec ≤ g.mainSecs)
    (h : newSection g map dir newseg zones = some s) : s < g.mainSecs ∧ map s = false := by
  obtain ⟨x, hx, hs⟩ := Option.bind_eq_some_iff.mp h
  have hstart : SecSearch.Inside g ⟨0, false, newseg / g.segsPerSec⟩ := fun hl => by simp at hl
  obtain ⟨hlt, hclear, hin⟩ := findSection_spec hpos hhint hstart hx
  split_ifs at hs with hdone
  · obtain rfl := Option.some.inj hs
    exact ⟨hlt, hclear⟩
  · obtain ⟨y, hy, rfl⟩ := Option.map_eq_some_iff.mp hs
    obtain ⟨hlt', hclear', -⟩ := findSection_spec hpos (otherHint_le hlt) hin hy
    exact ⟨hlt', hclear'⟩

/-- **The segment that `get_new_segment` finds is a segment**, on every path. -/
lemma newSegno_lt {newseg : ℕ} {newSec : Bool} {dir : AllocDir} {zones : List ℕ}
    (hnew : NewsegOk g newseg) (h : newSegno g freeI newseg newSec dir zones = some segno) :
    segno < g.segmentCountMain := by
  have hpos : 0 < g.mainSecs := by
    refine Nat.pos_of_ne_zero fun h0 => ?_
    have hwhole := g.whole
    rw [h0, Nat.zero_mul] at hwhole
    rcases hnew with hlt | ⟨heq, -, hlt⟩ <;> omega
  have hhint : newseg / g.segsPerSec ≤ g.mainSecs := by
    rcases hnew with hlt | ⟨heq, hone, -⟩
    · exact (section_lt hlt).le
    · rw [heq, g.whole, hone]
      simp
  simp only [newSegno] at h
  split_ifs at h with hin
  · simp only [Bool.and_eq_true, decide_eq_true_eq, bne_iff_ne] at hin
    obtain ⟨⟨-, hmod⟩, hlt⟩ := hin
    obtain rfl := Option.some.inj h
    have hsec : newseg / g.segsPerSec < g.mainSecs := by
      rcases hnew with hlt' | ⟨-, hone, -⟩
      · exact section_lt hlt'
      · exact absurd (by rw [hone, Nat.mod_one]) hmod
    refine lt_of_lt_of_le hlt ?_
    rw [g.whole]
    exact Nat.mul_le_mul_right _ hsec
  · obtain ⟨s, hs, rfl⟩ := Option.map_eq_some_iff.mp h
    obtain ⟨hlt, -⟩ := newSection_spec hpos hhint hs
    rw [g.whole]
    exact Nat.mul_lt_mul_of_pos_right hlt g.segsPerSec_pos

lemma getNewSegment_spec {nsbi' : NvmSbInfo} {freeI' : FreeSegmapInfo} {newseg : ℕ} {newSec : Bool}
    {dir : AllocDir} {zones : List ℕ} (hnew : NewsegOk g newseg)
    (h : getNewSegment g nsbi freeI newseg newSec dir zones = some (segno, nsbi', freeI')) :
    segno < g.segmentCountMain ∧ freeI.freeSegmap segno = false ∧
      (nsbi', freeI') = Hoit.setInuse g.toGeometry nsbi freeI segno := by
  obtain ⟨s, hs, hset⟩ := Option.bind_eq_some_iff.mp h
  obtain ⟨hb, hset⟩ := Option.ite_none_left_eq_some.mp hset
  obtain ⟨rfl, heq⟩ : s = segno ∧ Hoit.setInuse g.toGeometry nsbi freeI s = (nsbi', freeI') := by
    simpa using hset
  exact ⟨newSegno_lt hnew hs, by simpa using hb, heq.symm⟩

/-- **The check at the end never fires**: the section it found is free, and so is its first
segment. -/
lemma newSegno_free {newseg : ℕ} {newSec : Bool} {dir : AllocDir} {zones : List ℕ}
    (hok : FreeSegmapOk g freeI) (hnew : newseg < g.segmentCountMain)
    (h : newSegno g freeI newseg newSec dir zones = some segno) :
    freeI.freeSegmap segno = false := by
  have hsec := section_lt hnew
  simp only [newSegno] at h
  split_ifs at h with hin
  · simp only [Bool.and_eq_true, decide_eq_true_eq] at hin
    obtain rfl := Option.some.inj h
    exact findNextZeroBit_clear hin.2
  · obtain ⟨s, hs, rfl⟩ := Option.map_eq_some_iff.mp h
    obtain ⟨hlt, hclear⟩ := newSection_spec (Nat.zero_lt_of_lt hsec) hsec.le hs
    by_contra hb
    have hused : freeI.freeSecmap s = true := by
      refine (hok.secmap s hlt).mpr ⟨s * g.segsPerSec, ?_, by simpa using hb⟩
      exact Nat.mul_div_cancel s g.segsPerSec_pos
    rw [hused] at hclear
    simp at hclear

/-! ## The mount -/

lemma buildFreeSegmap_ok (g : SecGeometry) : FreeSegmapOk g buildFreeSegmap where
  segments := by simp [buildFreeSegmap, zeroBits]
  secmap := by
    intro sec _
    simp only [buildFreeSegmap, true_iff, and_true]
    exact ⟨sec * g.segsPerSec, Nat.mul_div_cancel sec g.segsPerSec_pos⟩
  sections := by simp [buildFreeSegmap, zeroBits]

lemma setFree_freeSegmap (freeI : FreeSegmapInfo) (segno s : ℕ) :
    (Hoit.setFree g freeI segno).freeSegmap s
      = Function.update freeI.freeSegmap segno false s := by
  simp only [Hoit.setFree]
  split_ifs <;> rfl

/-- The first loop: each segment is visited once, and was in use until then. -/
lemma FreeSegmapOk.setFree_foldl {xs : List ℕ} (h : FreeSegmapOk g freeI) (hnd : xs.Nodup)
    (hlt : ∀ s ∈ xs, s < g.segmentCountMain) (hused : ∀ s ∈ xs, freeI.freeSegmap s = true) :
    FreeSegmapOk g (xs.foldl (Hoit.setFree g) freeI) := by
  induction xs generalizing freeI with
  | nil => exact h
  | cons x xs ih =>
      obtain ⟨hx, hnd⟩ := List.nodup_cons.mp hnd
      refine ih (h.setFree (hlt x (by simp)) (hused x (by simp))) hnd
        (fun s hs => hlt s (by simp [hs])) fun s hs => ?_
      have hne : s ≠ x := fun heq => hx (heq ▸ hs)
      rw [setFree_freeSegmap, Function.update_of_ne hne]
      exact hused s (by simp [hs])

lemma FreeSegmapOk.setTestAndInuse_foldl {xs : List ℕ} (h : FreeSegmapOk g freeI)
    (hlt : ∀ s ∈ xs, s < g.segmentCountMain) :
    FreeSegmapOk g (xs.foldl (Hoit.setTestAndInuse g) freeI) := by
  induction xs generalizing freeI with
  | nil => exact h
  | cons x xs ih =>
      exact ih (h.setTestAndInuse (hlt x (by simp))) fun s hs => hlt s (by simp [hs])

lemma FreeSegmapOk.initFreeSegmap {validBlocks : ℕ → ℕ} {cursegs : List ℕ}
    (hcur : ∀ s ∈ cursegs, s < g.segmentCountMain) :
    FreeSegmapOk g (initFreeSegmap g validBlocks cursegs buildFreeSegmap) := by
  refine FreeSegmapOk.setTestAndInuse_foldl ?_ hcur
  refine (buildFreeSegmap_ok g).setFree_foldl (List.nodup_range.filter _) ?_ fun s _ => rfl
  intro s hs
  exact List.mem_range.mp (List.mem_filter.mp hs).1

end

/-! ## Runs -/

inductive SegmapStep where
  | setInuse (segno : ℕ)
  | setFree (segno : ℕ)
  | setTestAndFree (segno : ℕ)
  | setTestAndInuse (segno : ℕ)
  | getNewSegment (newseg : ℕ) (newSec : Bool) (dir : AllocDir) (zones : List ℕ)
  /-- A mount: `build_free_segmap` and `init_free_segmap`. -/
  | initFreeSegmap (validBlocks : ℕ → ℕ) (cursegs : List ℕ)

/-- `__set_inuse` is called on a free segment; nothing of that kind is asked of `__set_free`. -/
def segmapStep (st : NvmSbInfo × FreeSegmapInfo) : SegmapStep → Option (NvmSbInfo × FreeSegmapInfo)
  | .setInuse segno =>
      if segno < g.segmentCountMain ∧ st.2.freeSegmap segno = false then
        some (setInuse g.toGeometry st.1 st.2 segno)
      else none
  | .setFree segno =>
      if segno < g.segmentCountMain then some (st.1, setFree g st.2 segno) else none
  | .setTestAndFree segno =>
      if segno < g.segmentCountMain then some (setTestAndFree g.toGeometry st.1 st.2 segno) else none
  | .setTestAndInuse segno =>
      if segno < g.segmentCountMain then some (st.1, setTestAndInuse g st.2 segno) else none
  | .getNewSegment newseg newSec dir zones =>
      if NewsegOk g newseg then
        (getNewSegment g st.1 st.2 newseg newSec dir zones).map Prod.snd
      else none
  | .initFreeSegmap validBlocks cursegs =>
      if ∀ s ∈ cursegs, s < g.segmentCountMain then
        some (st.1, initFreeSegmap g validBlocks cursegs buildFreeSegmap)
      else none

/-- `__set_free` is called on a segment in use. -/
def SetFreeOnUsed (st : NvmSbInfo × FreeSegmapInfo) : SegmapStep → Prop
  | .setFree segno => st.2.freeSegmap segno = true
  | _ => True

instance (st : NvmSbInfo × FreeSegmapInfo) : DecidablePred (SetFreeOnUsed st)
  | .setFree segno => inferInstanceAs (Decidable (st.2.freeSegmap segno = true))
  | .setInuse _ | .setTestAndFree _ | .setTestAndInuse _ | .getNewSegment _ _ _ _
  | .initFreeSegmap _ _ => isTrue trivial

variable {g}

lemma FreeSegmapOk.step {st st' : NvmSbInfo × FreeSegmapInfo} {a : SegmapStep}
    (h : FreeSegmapOk g st.2) (hgood : SetFreeOnUsed st a) (hstep : segmapStep g st a = some st') :
    FreeSegmapOk g st'.2 := by
  cases a with
  | setInuse segno =>
      obtain ⟨⟨hlt, hfree⟩, hsome⟩ := Option.ite_none_right_eq_some.mp hstep
      obtain rfl := Option.some.inj hsome
      exact h.setInuse hlt hfree
  | setFree segno =>
      obtain ⟨hlt, hsome⟩ := Option.ite_none_right_eq_some.mp hstep
      obtain rfl := Option.some.inj hsome
      exact h.setFree hlt hgood
  | setTestAndFree segno =>
      obtain ⟨hlt, hsome⟩ := Option.ite_none_right_eq_some.mp hstep
      obtain rfl := Option.some.inj hsome
      exact h.clearFreeSegmap hlt
  | setTestAndInuse segno =>
      obtain ⟨hlt, hsome⟩ := Option.ite_none_right_eq_some.mp hstep
      obtain rfl := Option.some.inj hsome
      exact h.setTestAndInuse hlt
  | getNewSegment newseg newSec dir zones =>
      obtain ⟨hnew, hmap⟩ := Option.ite_none_right_eq_some.mp hstep
      obtain ⟨⟨segno, nsbi', freeI'⟩, hget, rfl⟩ := Option.map_eq_some_iff.mp hmap
      obtain ⟨hlt, hfree, heq⟩ := getNewSegment_spec hnew hget
      change FreeSegmapOk g (nsbi', freeI').2
      rw [heq]
      exact h.setInuse hlt hfree
  | initFreeSegmap validBlocks cursegs =>
      obtain ⟨hcur, hsome⟩ := Option.ite_none_right_eq_some.mp hstep
      obtain rfl := Option.some.inj hsome
      exact FreeSegmapOk.initFreeSegmap hcur

/-- **The maps and the counters stay in step**, in every run in which `__set_free` is called on
segments in use. -/
theorem free_segmap_throughout {st : NvmSbInfo × FreeSegmapInfo} {steps : List SegmapStep}
    (h : FreeSegmapOk g st.2) (hgood : StepsMeet (segmapStep g) SetFreeOnUsed st steps) :
    Throughout (segmapStep g) (fun st => FreeSegmapOk g st.2) st steps :=
  throughout_of_stepsMeet (fun _ _ _ hs hg hstep => FreeSegmapOk.step hs hg hstep) h hgood

/-- Two sections of three segments each, and no NVM. -/
def twoSections : SecGeometry where
  mainSegmentNums := 0
  segmentCountMain := 6
  segsPerSec := 3
  nvm_lt := Geometry.none_fit
  ssd_lt := by decide
  segsPerSec_pos := by decide
  mainSecs := 2
  secsPerZone := 1
  whole := rfl

def noMappings : NvmSbInfo where
  mpt := fun _ => 0#32
  mptDirtyMap := fun _ => false
  nvmFlag := 0#16
  segmentMap := fun _ => false
  ckptSegmentMap := fun _ => false
  mainSegmentFreeNums := 0
  curAllocNvmSegoff := 0
  nowLfuCounter := 0
  lfuCount := fun _ _ => 0

/-- A mount with segments 0 and 2 in use and 2 current, and some calls. -/
def segmapCalls : List SegmapStep :=
  [.initFreeSegmap (fun s => if s = 0 then 7 else 0) [2], .getNewSegment 2 false .right [],
    .setTestAndFree 0, .getNewSegment 3 false .left [], .setFree 3, .setTestAndInuse 5]

theorem free_segmap_throughout_segmapCalls :
    ∃ st, exec (segmapStep twoSections) (noMappings, buildFreeSegmap) segmapCalls = some st ∧
      FreeSegmapOk twoSections st.2 := by
  have hsome : (exec (segmapStep twoSections) (noMappings, buildFreeSegmap) segmapCalls).isSome
      = true := by decide +kernel
  obtain ⟨st, hst⟩ := Option.isSome_iff_exists.mp hsome
  have hgood : StepsMeet (segmapStep twoSections) SetFreeOnUsed (noMappings, buildFreeSegmap)
      segmapCalls := by decide +kernel
  exact ⟨st, hst, (free_segmap_throughout (buildFreeSegmap_ok twoSections) hgood).last hst⟩

/-- **`__set_free` on a free segment miscounts**: right after a mount without any data, one call
leaves seven free segments out of six. -/
theorem setFree_miscounts :
    ∃ st, exec (segmapStep twoSections) (noMappings, buildFreeSegmap)
        [.initFreeSegmap (fun _ => 0) [], .setFree 0] = some st ∧
      st.2.freeSegments.toNat ≠ zeroBits st.2.freeSegmap twoSections.segmentCountMain := by
  have hsome : (exec (segmapStep twoSections) (noMappings, buildFreeSegmap)
      [.initFreeSegmap (fun _ => 0) [], .setFree 0]).map (fun st => st.2.freeSegments.toNat)
        = some 7 := by decide +kernel
  obtain ⟨st, hst, hcnt⟩ := Option.map_eq_some_iff.mp hsome
  refine ⟨st, hst, ?_⟩
  have hle := zeroBits_le st.2.freeSegmap twoSections.segmentCountMain
  have hsize : twoSections.segmentCountMain = 6 := rfl
  omega

end Hoit
