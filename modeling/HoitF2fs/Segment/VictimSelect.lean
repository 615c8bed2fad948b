import HoitF2fs.Lib.CircularScan
import HoitF2fs.Segment.SegmentSearch
import HoitF2fs.Segment.SitRuns

/-!
# Choosing a victim

`get_victim_by_default` looks for the segment that is cheapest to clean, or to fill by SSR.  It
walks through the bitmap of dirty segments, from where the last search ended to the end and then
from the beginning to where it had started, in steps of one segment (SSR) or one section (LFS), and
stops early when it has come across enough dirty segments.

* `Policy`, `selectPolicy`, `getGcCost`, `checkBgVictims` — what the walk goes by.
* `Scan`, `round`, `scan` — the walk.  A `Scan` also records which bits were tested, which segments
  were looked at, and what the candidates cost.
* `Scan.walk` — the walk is one of `HoitF2fs.Lib.CircularScan`, which says **how far it has come**:
  either every dirty segment has been examined, or no section was counted twice, and then a count
  that reaches `nr_dirty` means that every dirty segment has been examined.
* `get_victim_by_default_spec` — the result.

**Where the walk counts twice.**  `last_victim` may lie in the middle of a section.  The second half
of the walk then comes to that section again and counts all of its segments again, but it is the
last section of the walk.  With `no_heap` the walk begins at 0, and its second half is a repetition.
-/

namespace Hoit.Segment.Victim

open Bitmap CircularScan SegmentSearch

/-! ## The policy -/

inductive GcType where
  | bg
  | fg
  | forceFg
deriving DecidableEq

/-- `sbi->gc_mode`. -/
inductive GcMode where
  | normal
  | idleCb
  | idleGreedy
  | urgent
deriving DecidableEq

/-- The index of `last_victim`. -/
inductive GcPolicy where
  | cb
  | greedy
deriving DecidableEq

/-- What the selection uses of `struct sit_info` and changes. -/
structure VictimSit where
  lastVictim : GcPolicy → ℕ
  minMtime : BitVec 64
  maxMtime : BitVec 64

structure VictimSbi where
  m : SegMan
  sm : VictimSit
  curVictimSec : ℕ
  gcMode : GcMode
  maxVictimSearch : ℕ
  /-- `test_opt(sbi, NOHEAP)`. -/
  noheap : Bool

/-- `struct victim_sel_policy`, less what the walk changes of it. -/
structure Policy where
  allocMode : AllocType
  gcMode : GcPolicy
  dirtySegmap : ℕ → Bool
  maxSearch : ℕ
  ofsUnit : ℕ

variable (g : SegGeometry) (sbi : VictimSbi)

/-- `select_gc_type`. -/
def selectGcType (gcType : GcType) : GcPolicy :=
  match sbi.gcMode with
  | .idleCb => .cb
  | .idleGreedy | .urgent => .greedy
  | .normal => if gcType = .bg then .cb else .greedy

/-- `IS_NODESEG` of the number of a list.  `NO_CHECK_TYPE`, which cleaning passes, is the number of
the `DIRTY` list. -/
def isNodeseg : DirtyType → Bool
  | .ofType t => t.isNode
  | .dirty | .pre => true

/-- The list that is searched. -/
def searchedList (type : DirtyType) : AllocType → DirtyType
  | .ssr => type
  | .lfs => .dirty

/-- `select_policy`, less the offset. -/
def selectPolicy (gcType : GcType) (type : DirtyType) (allocMode : AllocType) : Policy :=
  let list := searchedList type allocMode
  let maxSearch := sbi.m.dirtyI.nrDirty list
  { allocMode
    gcMode := match allocMode with
      | .ssr => .greedy
      | .lfs => selectGcType sbi gcType
    dirtySegmap := sbi.m.dirtyI.dirtySegmap list
    maxSearch :=
      -- every dirty segment is checked in the FG_GC case
      if gcType ≠ .fg ∧ sbi.gcMode ≠ .urgent ∧ sbi.maxVictimSearch < maxSearch then
        sbi.maxVictimSearch
      else maxSearch
    ofsUnit := match allocMode with
      | .ssr => 1
      | .lfs => g.segsPerSec }

/-- Where `select_policy` lets the walk begin. -/
def startOffset (type : DirtyType) (p : Policy) : ℕ :=
  if sbi.noheap && (type == .ofType .hotData || isNodeseg type) then 0
  else sbi.sm.lastVictim p.gcMode

/-- `get_max_cost`, an `unsigned int`. -/
def getMaxCost (p : Policy) : ℕ :=
  match p.allocMode, p.gcMode with
  | .ssr, _ => blocksPerSeg
  | .lfs, .greedy => 2 * blocksPerSeg * p.ofsUnit % 2 ^ 32
  | .lfs, .cb => 2 ^ 32 - 1

/-- `sec_usage_check`. -/
def secUsageCheck (secno : ℕ) : Bool :=
  isCursec g sbi.m secno || decide (sbi.curVictimSec = secno)

/-- `check_bg_victims`: the section, and the map without it. -/
def checkBgVictims : Option (ℕ × (ℕ → Bool)) :=
  ((List.range g.mainSecs).find? fun secno =>
    sbi.m.dirtyI.victimSecmap secno && !secUsageCheck g sbi secno).map fun secno =>
      (secno * g.segsPerSec, Function.update sbi.m.dirtyI.victimSecmap secno false)

/-! ## Costs -/

/-- The average modification time of a section. -/
def sectionMtime (m : SegMan) (secno : ℕ) : BitVec 64 :=
  let mtime := (List.range g.segsPerSec).foldl
    (fun mtime i => mtime + (m.sit.sentries (secno * g.segsPerSec + i)).mtime) 0#64
  mtime / BitVec.ofNat 64 g.segsPerSec

/-- `u`, an `unsigned char`. -/
def sectionUse (m : SegMan) (segno : ℕ) : ℕ :=
  getValidBlocks g m segno true / g.segsPerSec * 100 % 2 ^ 32 / blocksPerSeg % 2 ^ 8

/-- `age`, an `unsigned char`. -/
def sectionAge (sm : VictimSit) (mtime : BitVec 64) : ℕ :=
  if sm.maxMtime ≠ sm.minMtime then
    (100#64 - 100#64 * (mtime - sm.minMtime) / (sm.maxMtime - sm.minMtime)).toNat % 2 ^ 8
  else 0

/-- `get_cb_cost`; the product and the quotient are of type `int`. -/
def getCbCost (m : SegMan) (sm : VictimSit) (segno : ℕ) : ℕ × VictimSit :=
  let mtime := sectionMtime g m (segno / g.segsPerSec)
  let u : ℤ := sectionUse g m segno
  -- the system time may have been changed by the user
  let sm := { sm with
    minMtime := if mtime < sm.minMtime then mtime else sm.minMtime
    maxMtime := if sm.maxMtime < mtime then mtime else sm.maxMtime }
  let age : ℤ := sectionAge sm mtime
  (((2 ^ 32 - 1 - (100 * (100 - u) * age).tdiv (100 + u)) % 2 ^ 32).toNat, sm)

/-- `get_gc_cost`. -/
def getGcCost (m : SegMan) (p : Policy) (sm : VictimSit) (segno : ℕ) : ℕ × VictimSit :=
  match p.allocMode, p.gcMode with
  | .ssr, _ => ((m.sit.sentries segno).ckptValidBlocks, sm)
  | .lfs, .greedy => (getValidBlocks g m segno true, sm)
  | .lfs, .cb => getCbCost g m sm segno

/-! ## The walk -/

/-- `count_bits`. -/
def countBits (map : ℕ → Bool) (offset len : ℕ) : ℕ := (List.range' offset len).countP map

/-- The bits that `find_next_bit` tests. -/
def bitTests (map : ℕ → Bool) (size start : ℕ) : List ℕ :=
  zeroBitTests (fun i => !map i) size start

/-- The variables of the walk, and what it has done. -/
structure Scan where
  sm : VictimSit
  offset : ℕ
  minSegno : Option ℕ
  minCost : ℕ
  lastSegment : ℕ
  nsearched : ℕ
  /-- The bits of the map that were tested. -/
  tests : List ℕ
  /-- The segments that were found, latest first. -/
  visited : List ℕ
  /-- Those that were not passed over, with their costs. -/
  candidates : List (ℕ × ℕ)
  /-- The walk has ended at the end of the map. -/
  atEnd : Bool

def VictimSit.setLastVictim (sm : VictimSit) (mode : GcPolicy) (segno : ℕ) : VictimSit :=
  { sm with lastVictim := Function.update sm.lastVictim mode segno }

variable (gcType : GcType) (p : Policy)

/-- The walk goes on behind the segment, or behind its section. -/
def advance (segno : ℕ) (x : Scan) : Scan :=
  let offset := segno + p.ofsUnit
  if 1 < p.ofsUnit then
    let offset := offset - segno % p.ofsUnit
    { x with
      offset
      nsearched := x.nsearched + countBits p.dirtySegmap (offset - p.ofsUnit) p.ofsUnit
      tests := x.tests ++ List.range' (offset - p.ofsUnit) p.ofsUnit
      visited := segno :: x.visited }
  else { x with offset, nsearched := x.nsearched + 1, visited := segno :: x.visited }

/-- The segment is passed over. -/
def skipped (segno : ℕ) : Bool :=
  secUsageCheck g sbi (segno / g.segsPerSec) ||
    (decide (gcType = .bg) && sbi.m.dirtyI.victimSecmap (segno / g.segsPerSec))

/-- From `sec_usage_check` to `next`. -/
def examine (segno : ℕ) (x : Scan) : Scan :=
  if skipped g sbi gcType segno then x
  else
    let (cost, sm) := getGcCost g sbi.m p x.sm segno
    let x := { x with sm, candidates := (segno, cost) :: x.candidates }
    if cost < x.minCost then { x with minSegno := some segno, minCost := cost } else x

/-- What `last_victim` becomes when the walk stops early. -/
def nextVictim (lastVictim segno current : ℕ) : ℕ :=
  (if current = 0 ∧ segno ≤ lastVictim then lastVictim + 1 else segno + 1) % g.segmentCountMain

/-- The bits that the search of a round tests. -/
def Scan.look (x : Scan) : Scan :=
  { x with tests := x.tests ++ bitTests p.dirtySegmap x.lastSegment x.offset }

/-- The walk goes on at the beginning of the map. -/
def Scan.wrap (x : Scan) : Scan :=
  { x with
    lastSegment := x.sm.lastVictim p.gcMode
    sm := x.sm.setLastVictim p.gcMode 0
    offset := 0 }

/-- The walk stops behind a segment. -/
def Scan.stop (lastVictim segno : ℕ) (x : Scan) : Scan :=
  { x with
    sm := x.sm.setLastVictim p.gcMode
      (nextVictim g lastVictim segno (x.sm.lastVictim p.gcMode)) }

/-- What one round comes to. -/
inductive Round where
  | again (x : Scan)
  | done (x : Scan)

/-- One round of the loop. -/
def round (lastVictim : ℕ) (x : Scan) : Round :=
  let segno := findNextBit p.dirtySegmap x.lastSegment x.offset
  let x := x.look p
  if x.lastSegment ≤ segno then
    if x.sm.lastVictim p.gcMode ≠ 0 then .again (x.wrap p) else .done { x with atEnd := true }
  else
    let x := examine g sbi gcType p segno (advance p segno x)
    if p.maxSearch ≤ x.nsearched then .done (x.stop g p lastVictim segno) else .again x

/-- The loop; `none` means that it has not ended after `fuel` rounds. -/
def scan (lastVictim : ℕ) : (fuel : ℕ) → Scan → Option Scan
  | 0, _ => none
  | fuel + 1, x =>
      match round g sbi gcType p lastVictim x with
      | .again y => scan lastVictim fuel y
      | .done y => some y

/-- The walk before its first round. -/
def Scan.start (offset : ℕ) : Scan where
  sm := sbi.sm
  offset := offset
  minSegno := none
  minCost := getMaxCost p
  lastSegment := g.segmentCountMain
  nsearched := 0
  tests := []
  visited := []
  candidates := []
  atEnd := false

/-- What a call comes to. -/
structure Outcome where
  /-- `*result`, if 1 is returned. -/
  result : Option ℕ
  sbi : VictimSbi
  /-- The walk, if there was one. -/
  scan : Option Scan

/-- From `got_it` to `out`. -/
def gotIt (sbi : VictimSbi) (minSegno : ℕ) (walk : Option Scan) : Outcome where
  result := some (minSegno / p.ofsUnit * p.ofsUnit)
  sbi :=
    let secno := minSegno / g.segsPerSec
    match p.allocMode with
    | .ssr => sbi
    | .lfs =>
        if gcType = .fg then { sbi with curVictimSec := secno }
        else
          { sbi with
            m := { sbi.m with
              dirtyI := { sbi.m.dirtyI with
                victimSecmap := Function.update sbi.m.dirtyI.victimSecmap secno true } } }
  scan := walk

/-- A segment that the caller has asked for. -/
def presetVictim (segno : ℕ) : Option ℕ :=
  if !(sbi.m.sit.sentries segno).type.isNode
      ∧ getValidBlocks g sbi.m segno false ≠ 0
      ∧ secUsageCheck g sbi (segno / g.segsPerSec) = false then some segno
  else none

/-- `get_victim_by_default`; `preset` is `*result` at the call, if it is not `NULL_SEGNO`. -/
def getVictimByDefault (preset : Option ℕ) (gcType : GcType) (type : DirtyType)
    (allocMode : AllocType) (fuel : ℕ) : Option Outcome :=
  let p := selectPolicy g sbi gcType type allocMode
  match preset with
  | some segno => some ⟨presetVictim g sbi segno, sbi, none⟩
  | none =>
      if p.maxSearch = 0 then some ⟨none, sbi, none⟩
      else
        match (if p.allocMode = .lfs ∧ gcType = .fg then checkBgVictims g sbi else none) with
        | some (segno, victimSecmap) =>
            some (gotIt g gcType p
              { sbi with
                m := { sbi.m with dirtyI := { sbi.m.dirtyI with victimSecmap } } } segno none)
        | none =>
            (scan g sbi gcType p (sbi.sm.lastVictim p.gcMode) fuel
              (Scan.start g sbi p (startOffset sbi type p))).map fun x =>
              match x.minSegno with
              | some segno => gotIt g gcType p { sbi with sm := x.sm } segno (some x)
              | none => ⟨none, { sbi with sm := x.sm }, some x⟩

/-! ## One round -/

section

variable {g sbi gcType p} {x y : Scan} {segno start lastVictim : ℕ}

/-- The steps of the walk fit the map. -/
structure Policy.Fits (g : SegGeometry) (p : Policy) : Prop where
  pos : 0 < p.ofsUnit
  whole : p.ofsUnit ∣ g.segmentCountMain

lemma selectPolicy_fits (type : DirtyType) (allocMode : AllocType) :
    (selectPolicy g sbi gcType type allocMode).Fits g := by
  cases allocMode with
  | ssr => exact ⟨Nat.one_pos, one_dvd _⟩
  | lfs => exact ⟨g.segsPerSec_pos, Dvd.intro_left _ g.whole.symm⟩

/-- The walk around the map. -/
def Scan.walk (p : Policy) (x : Scan) : Walk :=
  ⟨x.offset, x.lastSegment, x.sm.lastVictim p.gcMode, x.visited⟩

lemma bitTests_lt {map : ℕ → Bool} {size i : ℕ} (h : i ∈ bitTests map size start) : i < size := by
  obtain ⟨hle, hlt⟩ := List.mem_range'_1.mp h
  omega

/-- A section of which a segment is in the map is in the map. -/
lemma Policy.Fits.group_end (hf : p.Fits g) (hlt : segno < g.segmentCountMain) :
    (segno / p.ofsUnit + 1) * p.ofsUnit ≤ g.segmentCountMain := by
  obtain ⟨c, hc⟩ := hf.whole
  rw [hc] at hlt ⊢
  have hdiv : segno / p.ofsUnit < c := Nat.div_lt_of_lt_mul hlt
  rw [Nat.mul_comm p.ofsUnit c]
  exact Nat.mul_le_mul_right _ hdiv

/-- The steps of the offset come to the end of the section. -/
lemma offset_eq (n : ℕ) : segno + n - segno % n = (segno / n + 1) * n := by
  have hdiv := Nat.div_add_mod' segno n
  rw [Nat.add_mul, Nat.one_mul]
  omega

lemma advance_offset (hf : p.Fits g) :
    (advance p segno x).offset = (segno / p.ofsUnit + 1) * p.ofsUnit := by
  unfold advance
  split_ifs with hn
  · exact offset_eq p.ofsUnit
  · have hone : p.ofsUnit = 1 := by have := hf.pos; omega
    simp [hone]

/-- **A round counts the dirty segments of one section.** -/
lemma advance_nsearched (hf : p.Fits g) (hlt : segno < g.segmentCountMain)
    (hb : p.dirtySegmap segno = true) :
    (advance p segno x).nsearched = x.nsearched
      + groupBits p.dirtySegmap g.segmentCountMain p.ofsUnit (segno / p.ofsUnit) := by
  have hend := hf.group_end hlt
  rw [← countP_group hf.pos hend]
  unfold advance
  split_ifs with hn
  · simp only [offset_eq, Nat.add_mul, Nat.one_mul, Nat.add_sub_cancel, countBits]
  · have hone : p.ofsUnit = 1 := by have := hf.pos; omega
    simp [hone, hb]

lemma advance_tests (hf : p.Fits g) (hlt : segno < g.segmentCountMain)
    (h : ∀ i ∈ x.tests, i < g.segmentCountMain) :
    ∀ i ∈ (advance p segno x).tests, i < g.segmentCountMain := by
  have hend := hf.group_end hlt
  unfold advance
  split_ifs with hn
  · intro i hi
    simp only [offset_eq] at hi
    rcases List.mem_append.mp hi with hi | hi
    · exact h i hi
    · have hlt := (List.mem_range'_1.mp hi).2
      rw [Nat.add_mul, Nat.one_mul] at hlt hend
      omega
  · exact h

lemma advance_rest (segno : ℕ) (x : Scan) :
    (advance p segno x).visited = segno :: x.visited
      ∧ (advance p segno x).sm = x.sm
      ∧ (advance p segno x).lastSegment = x.lastSegment
      ∧ (advance p segno x).candidates = x.candidates
      ∧ (advance p segno x).minSegno = x.minSegno
      ∧ (advance p segno x).minCost = x.minCost
      ∧ (advance p segno x).atEnd = x.atEnd := by
  unfold advance
  split_ifs <;> exact ⟨rfl, rfl, rfl, rfl, rfl, rfl, rfl⟩

/-- The costs change the range of modification times at most. -/
lemma getGcCost_lastVictim (m : SegMan) (sm : VictimSit) (segno : ℕ) :
    (getGcCost g m p sm segno).2.lastVictim = sm.lastVictim := by
  unfold getGcCost
  split <;> rfl

/-- What the evaluation of a segment leaves as it is. -/
lemma examine_walk (segno : ℕ) (x : Scan) :
    (examine g sbi gcType p segno x).walk p = x.walk p
      ∧ (examine g sbi gcType p segno x).nsearched = x.nsearched
      ∧ (examine g sbi gcType p segno x).tests = x.tests
      ∧ (examine g sbi gcType p segno x).atEnd = x.atEnd := by
  unfold examine
  split_ifs with hskip
  · exact ⟨rfl, rfl, rfl, rfl⟩
  · have hlast := getGcCost_lastVictim (g := g) (p := p) sbi.m x.sm segno
    dsimp only
    split_ifs <;> exact ⟨by simp [Scan.walk, hlast], rfl, rfl, rfl⟩

/-- What is true of the segments that were looked at. -/
structure Sound (g : SegGeometry) (sbi : VictimSbi) (gcType : GcType) (p : Policy) (x : Scan) :
    Prop where
  tests : ∀ i ∈ x.tests, i < g.segmentCountMain
  visited : ∀ s ∈ x.visited, s < g.segmentCountMain ∧ p.dirtySegmap s = true
  candidates : ∀ c ∈ x.candidates, c.1 ∈ x.visited ∧ skipped g sbi gcType c.1 = false
  least : ∀ c ∈ x.candidates, x.minCost ≤ c.2
  atMost : x.minCost ≤ getMaxCost p
  chosen : ∀ s, x.minSegno = some s → (s, x.minCost) ∈ x.candidates ∧ x.minCost < getMaxCost p
  position : x.sm.lastVictim p.gcMode < g.segmentCountMain

lemma Sound.advance (h : Sound g sbi gcType p x) (hf : p.Fits g)
    (hlt : segno < g.segmentCountMain) (hb : p.dirtySegmap segno = true) :
    Sound g sbi gcType p (advance p segno x) := by
  obtain ⟨hvisited, hsm, -, hcand, hmin, hcost, -⟩ := advance_rest (p := p) segno x
  refine ⟨advance_tests hf hlt h.tests, ?_, ?_, ?_, ?_, ?_, ?_⟩
  · rw [hvisited]
    intro s hs
    rcases List.mem_cons.mp hs with rfl | hs
    · exact ⟨hlt, hb⟩
    · exact h.visited s hs
  · rw [hcand, hvisited]
    exact fun c hc => ⟨List.mem_cons_of_mem _ (h.candidates c hc).1, (h.candidates c hc).2⟩
  · rw [hcand, hcost]
    exact h.least
  · rw [hcost]
    exact h.atMost
  · rw [hcand, hcost, hmin]
    exact h.chosen
  · rw [hsm]
    exact h.position

/-- **The least cost so far stays the least.** -/
lemma Sound.examine (h : Sound g sbi gcType p x) (hs : segno ∈ x.visited) :
    Sound g sbi gcType p (examine g sbi gcType p segno x) := by
  have hlast := getGcCost_lastVictim (g := g) (p := p) sbi.m x.sm segno
  unfold Victim.examine
  by_cases hskip : skipped g sbi gcType segno = true
  · rw [if_pos hskip]
    exact h
  · rw [if_neg hskip]
    have hcand : ∀ c ∈ (segno, (getGcCost g sbi.m p x.sm segno).1) :: x.candidates,
        c.1 ∈ x.visited ∧ skipped g sbi gcType c.1 = false := by
      intro c hc
      rcases List.mem_cons.mp hc with rfl | hc
      · exact ⟨hs, by simpa using hskip⟩
      · exact h.candidates c hc
    have hposition : (getGcCost g sbi.m p x.sm segno).2.lastVictim p.gcMode
        < g.segmentCountMain := by
      rw [hlast]
      exact h.position
    dsimp only
    split_ifs with hless
    · refine ⟨h.tests, h.visited, hcand, ?_, hless.le.trans h.atMost, ?_, hposition⟩
      · intro c hc
        rcases List.mem_cons.mp hc with rfl | hc
        · exact le_refl _
        · exact hless.le.trans (h.least c hc)
      · intro s hmin
        obtain rfl : segno = s := Option.some.inj hmin
        exact ⟨List.mem_cons_self, hless.trans_le h.atMost⟩
    · refine ⟨h.tests, h.visited, hcand, ?_, h.atMost, ?_, hposition⟩
      · intro c hc
        rcases List.mem_cons.mp hc with rfl | hc
        · exact not_lt.mp hless
        · exact h.least c hc
      · intro s hmin
        exact ⟨List.mem_cons_of_mem _ (h.chosen s hmin).1, (h.chosen s hmin).2⟩

/-- Each segment that was not passed over has a cost. -/
def Listed (g : SegGeometry) (sbi : VictimSbi) (gcType : GcType) (x : Scan) : Prop :=
  ∀ s ∈ x.visited, skipped g sbi gcType s = false → ∃ cost, (s, cost) ∈ x.candidates

lemma Listed.examine (h : ∀ s ∈ x.visited, s ≠ segno → skipped g sbi gcType s = false →
    ∃ cost, (s, cost) ∈ x.candidates) : Listed g sbi gcType (examine g sbi gcType p segno x) := by
  have hcand : ∀ s ∈ x.visited, skipped g sbi gcType s = false → ∃ cost,
      (s, cost) ∈ (segno, (getGcCost g sbi.m p x.sm segno).1) :: x.candidates := by
    intro s hs hskip
    by_cases heq : s = segno
    · subst heq
      exact ⟨_, List.mem_cons_self⟩
    · obtain ⟨cost, hc⟩ := h s hs heq hskip
      exact ⟨cost, List.mem_cons_of_mem _ hc⟩
  unfold Victim.examine
  split_ifs with hskip
  · intro s hs hs'
    refine h s hs ?_ hs'
    rintro rfl
    rw [hskip] at hs'
    exact absurd hs' (by simp)
  · dsimp only
    split_ifs <;> exact hcand

/-! ## The walk -/

/-- What is true of a walk that goes on. -/
structure Walks (g : SegGeometry) (sbi : VictimSbi) (gcType : GcType) (p : Policy)
    (start lastVictim : ℕ) (x : Scan) : Prop where
  sound : Sound g sbi gcType p x
  walk : (x.walk p).Inv p.dirtySegmap g.segmentCountMain p.ofsUnit start lastVictim
  count : x.nsearched = (x.walk p).counted p.dirtySegmap g.segmentCountMain p.ofsUnit
  listed : Listed g sbi gcType x
  running : x.atEnd = false

/-- The walk was stopped by a limit below the number of dirty segments. -/
def CutShort (nrDirty : ℕ) (p : Policy) (x : Scan) : Prop :=
  x.atEnd = false ∧ p.maxSearch < nrDirty

/-- What is true of a walk that has ended. -/
structure Walked (g : SegGeometry) (sbi : VictimSbi) (gcType : GcType) (p : Policy) (x : Scan) :
    Prop where
  sound : Sound g sbi gcType p x
  listed : Listed g sbi gcType x
  all : ¬ CutShort (setBits p.dirtySegmap g.segmentCountMain) p x →
    (x.walk p).AllSeen p.dirtySegmap g.segmentCountMain p.ofsUnit

lemma Sound.look (h : Sound g sbi gcType p x) (hlast : x.lastSegment ≤ g.segmentCountMain) :
    Sound g sbi gcType p (x.look p) :=
  { h with
    tests := by
      intro i hi
      rcases List.mem_append.mp hi with hi | hi
      · exact h.tests i hi
      · exact (bitTests_lt hi).trans_le hlast }

/-- The position that is saved moves, and nothing else that matters. -/
lemma Sound.setLastVictim (h : Sound g sbi gcType p x) (hx : y.tests = x.tests)
    (hv : y.visited = x.visited) (hc : y.candidates = x.candidates) (hm : y.minCost = x.minCost)
    (hs : y.minSegno = x.minSegno) (hp : y.sm.lastVictim p.gcMode < g.segmentCountMain) :
    Sound g sbi gcType p y where
  tests := hx ▸ h.tests
  visited := hv ▸ h.visited
  candidates := by
    rw [hc, hv]
    exact h.candidates
  least := by
    rw [hc, hm]
    exact h.least
  atMost := hm ▸ h.atMost
  chosen := by
    rw [hs, hc, hm]
    exact h.chosen
  position := hp

/-- Both halves of a walk end in the map. -/
lemma Walks.last_le (h : Walks g sbi gcType p start lastVictim x)
    (hvictim : lastVictim < g.segmentCountMain) : x.lastSegment ≤ g.segmentCountMain := by
  rcases h.walk with hw | hw
  · exact hw.last.le
  · exact (show x.lastSegment = lastVictim from hw.last).le.trans hvictim.le

/-- **A segment is found, and the walk goes on behind it.** -/
lemma Walks.found (h : Walks g sbi gcType p start lastVictim x) (hf : p.Fits g)
    (hvictim : lastVictim < g.segmentCountMain)
    (hs : findNextBit p.dirtySegmap x.lastSegment x.offset = segno) (hlt : segno < x.lastSegment) :
    Walks g sbi gcType p start lastVictim
        (examine g sbi gcType p segno (advance p segno (x.look p)))
      ∧ (examine g sbi gcType p segno (advance p segno (x.look p))).walk p
        = (x.walk p).pass p.ofsUnit segno := by
  have hlast := h.last_le hvictim
  have hin : segno < g.segmentCountMain := hlt.trans_le hlast
  have hb : p.dirtySegmap segno = true := by
    rw [← hs] at hlt ⊢
    exact findNextBit_set hlt
  obtain ⟨hvisited, hsm, hlastSegment, hcand, -, -, hend⟩ :=
    advance_rest (p := p) segno (x.look p)
  obtain ⟨hwalk, hcount, -, hend'⟩ :=
    examine_walk (g := g) (p := p) segno
      (advance p segno (x.look p))
  have heq : (examine g sbi gcType p segno (advance p segno (x.look p))).walk p
      = (x.walk p).pass p.ofsUnit segno := by
    rw [hwalk, Scan.walk, advance_offset hf, hlastSegment, hsm, hvisited]
    rfl
  refine ⟨⟨?_, ?_, ?_, ?_, ?_⟩, heq⟩
  · refine ((h.sound.look hlast).advance hf hin hb).examine ?_
    rw [hvisited]
    exact List.mem_cons_self
  · rw [heq]
    exact h.walk.pass hf.pos hs hlt
  · rw [heq, Walk.counted_pass, hcount, advance_nsearched hf hin hb, Nat.add_comm, ← h.count]
    rfl
  · refine Listed.examine ?_
    rw [hvisited, hcand]
    intro s hs hne hskip
    exact h.listed s ((List.mem_cons.mp hs).resolve_left hne) hskip
  · rw [hend', hend]
    exact h.running

/-- **A round after which the walk goes on.** -/
lemma round_again (h : Walks g sbi gcType p start lastVictim x) (hf : p.Fits g)
    (hvictim : lastVictim < g.segmentCountMain) (hstart : start = lastVictim ∨ start = 0)
    (hround : round g sbi gcType p lastVictim x = .again y) :
    Walks g sbi gcType p start lastVictim y ∧ (y.walk p).left < (x.walk p).left := by
  simp only [round] at hround
  split_ifs at hround with hend hsaved hlimit
  · cases hround
    have hwalk : ((x.look p).wrap p).walk p = (x.walk p).wrap := by
      simp [Scan.walk, Scan.wrap, Scan.look, Walk.wrap, VictimSit.setLastVictim]
    refine ⟨⟨?_, ?_, ?_, h.listed, h.running⟩, ?_⟩
    · refine (h.sound.look (h.last_le hvictim)).setLastVictim rfl rfl rfl rfl rfl ?_
      simpa [Scan.wrap, VictimSit.setLastVictim] using Nat.zero_lt_of_lt hvictim
    · rw [hwalk]
      exact h.walk.wrap hstart hend hsaved
    · rw [hwalk]
      exact h.count
    · rw [hwalk]
      exact Walk.left_wrap hsaved
  · cases hround
    have hlt := not_le.mp hend
    obtain ⟨hwalks, heq⟩ := h.found hf hvictim rfl hlt
    refine ⟨hwalks, ?_⟩
    rw [heq]
    exact Walk.left_pass hf.pos rfl hlt

/-- **A round after which the walk has ended.** -/
lemma round_done (h : Walks g sbi gcType p start lastVictim x) (hf : p.Fits g)
    (hvictim : lastVictim < g.segmentCountMain) (hstart : start = lastVictim ∨ start = 0)
    (hround : round g sbi gcType p lastVictim x = .done y) : Walked g sbi gcType p y := by
  simp only [round] at hround
  split_ifs at hround with hend hsaved hlimit
  · cases hround
    have hlook := h.sound.look (h.last_le hvictim)
    refine ⟨hlook.setLastVictim rfl rfl rfl rfl rfl hlook.position, h.listed, fun _ => ?_⟩
    exact h.walk.allSeen_of_end hstart hend (not_not.mp hsaved)
  · cases hround
    obtain ⟨hwalks, -⟩ := h.found hf hvictim rfl (not_le.mp hend)
    refine ⟨hwalks.sound.setLastVictim rfl rfl rfl rfl rfl ?_, hwalks.listed, fun hcut => ?_⟩
    · simp only [Scan.stop, VictimSit.setLastVictim, Function.update_self]
      exact Nat.mod_lt _ (Nat.zero_lt_of_lt hvictim)
    · refine hwalks.walk.allSeen_of_count ?_
      rw [← hwalks.count]
      refine le_trans ?_ hlimit
      by_contra hlow
      exact hcut ⟨hwalks.running, not_le.mp hlow⟩

/-- **The walk ends.** -/
lemma scan_ends (hf : p.Fits g) (hvictim : lastVictim < g.segmentCountMain)
    (hstart : start = lastVictim ∨ start = 0) {fuel : ℕ}
    (h : Walks g sbi gcType p start lastVictim x) (hfuel : (x.walk p).left < fuel) :
    ∃ y, scan g sbi gcType p lastVictim fuel x = some y ∧ Walked g sbi gcType p y := by
  induction fuel generalizing x with
  | zero => exact absurd hfuel (Nat.not_lt_zero _)
  | succ fuel ih =>
      cases hround : round g sbi gcType p lastVictim x with
      | again y =>
          obtain ⟨hwalks, hleft⟩ := round_again h hf hvictim hstart hround
          simp only [scan, hround]
          exact ih hwalks (by omega)
      | done y =>
          simp only [scan, hround]
          exact ⟨y, rfl, round_done h hf hvictim hstart hround⟩

lemma walks_start (hposition : sbi.sm.lastVictim p.gcMode < g.segmentCountMain) (start : ℕ) :
    Walks g sbi gcType p start (sbi.sm.lastVictim p.gcMode) (Scan.start g sbi p start) where
  sound :=
    { tests := by simp [Scan.start]
      visited := by simp [Scan.start]
      candidates := by simp [Scan.start]
      least := by simp [Scan.start]
      atMost := le_refl _
      chosen := by simp [Scan.start]
      position := hposition }
  walk := Walk.inv_start start _
  count := by simp [Scan.start, Scan.walk, Walk.counted, Walk.groups]
  listed := by simp [Listed, Scan.start]
  running := rfl

/-! ## The victim -/

lemma checkBgVictims_spec {victimSecmap : ℕ → Bool}
    (h : checkBgVictims g sbi = some (segno, victimSecmap)) :
    ∃ secno < g.mainSecs, segno = secno * g.segsPerSec ∧ secUsageCheck g sbi secno = false := by
  obtain ⟨secno, hfind, heq⟩ := Option.map_eq_some_iff.mp h
  have hmem := List.mem_of_find?_eq_some hfind
  have hprop := List.find?_some hfind
  simp only [Bool.and_eq_true, Bool.not_eq_true'] at hprop
  exact ⟨secno, List.mem_range.mp hmem, (congrArg Prod.fst heq).symm, hprop.2⟩

/-- **What is promised of a call that leaves the choice to the search.** -/
structure Selected (g : SegGeometry) (sbi : VictimSbi) (gcType : GcType) (p : Policy)
    (nrDirty : ℕ) (r : Outcome) : Prop where
  /-- No bit outside of the map is tested. -/
  tests : ∀ x, r.scan = some x → ∀ i ∈ x.tests, i < g.segmentCountMain
  /-- A victim is a segment, or the first one of a section, and it is not in use. -/
  idle : ∀ s, r.result = some s →
    s < g.segmentCountMain ∧ p.ofsUnit ∣ s ∧ secUsageCheck g sbi (s / g.segsPerSec) = false
  /-- **What the walk has chosen is dirty and costs least.** -/
  least : ∀ x s, r.scan = some x → r.result = some s →
    ∃ v cost, s = v / p.ofsUnit * p.ofsUnit ∧ p.dirtySegmap v = true ∧ (v, cost) ∈ x.candidates ∧
      cost < getMaxCost p ∧ ∀ c ∈ x.candidates, cost ≤ c.2
  /-- What was looked at has a cost unless it was passed over. -/
  listed : ∀ x, r.scan = some x → Listed g sbi gcType x
  /-- Unless the limit stops the walk, every dirty segment or its section is looked at. -/
  all : ∀ x, r.scan = some x → ¬ CutShort nrDirty p x → ∀ s < g.segmentCountMain,
    p.dirtySegmap s = true → ∃ v ∈ x.visited, v / p.ofsUnit = s / p.ofsUnit
  /-- A search that did not come to a walk has a victim, or nothing to search for. -/
  walked : r.scan = none → r.result = none → p.maxSearch = 0
  position : r.sbi.sm.lastVictim p.gcMode < g.segmentCountMain

lemma gotIt_lastVictim (sbi : VictimSbi) (segno : ℕ) (walk : Option Scan) :
    (gotIt g gcType p sbi segno walk).sbi.sm = sbi.sm := by
  unfold gotIt
  dsimp only
  split
  · rfl
  · split_ifs <;> rfl

/-- A position and the first segment of its section are in one section. -/
lemma section_start (hunit : p.ofsUnit = 1 ∨ p.ofsUnit = g.segsPerSec) (segno : ℕ) :
    segno / p.ofsUnit * p.ofsUnit / g.segsPerSec = segno / g.segsPerSec := by
  rcases hunit with hunit | hunit
  · rw [hunit, Nat.div_one, Nat.mul_one]
  · rw [hunit, Nat.mul_div_cancel _ g.segsPerSec_pos]

/-- **The result of the walk.** -/
lemma Walked.selected (h : Walked g sbi gcType p x)
    (hunit : p.ofsUnit = 1 ∨ p.ofsUnit = g.segsPerSec) :
    Selected g sbi gcType p (setBits p.dirtySegmap g.segmentCountMain)
      (match x.minSegno with
        | some segno => gotIt g gcType p { sbi with sm := x.sm } segno (some x)
        | none => ⟨none, { sbi with sm := x.sm }, some x⟩) := by
  have hall : ¬ CutShort (setBits p.dirtySegmap g.segmentCountMain) p x →
      ∀ s < g.segmentCountMain, p.dirtySegmap s = true →
      ∃ v ∈ x.visited, v / p.ofsUnit = s / p.ofsUnit :=
    fun hcut s hs hb => List.mem_map.mp (h.all hcut s hs hb)
  cases hmin : x.minSegno with
  | none =>
      exact
        { tests := by rintro _ ⟨⟩; exact h.sound.tests
          idle := by rintro s ⟨⟩
          least := by rintro _ s - ⟨⟩
          listed := by rintro _ ⟨⟩; exact h.listed
          all := by rintro _ ⟨⟩; exact hall
          walked := by rintro ⟨⟩
          position := h.sound.position }
  | some segno =>
      obtain ⟨hcand, hcost⟩ := h.sound.chosen segno hmin
      obtain ⟨hvisited, hskip⟩ := h.sound.candidates _ hcand
      obtain ⟨hlt, hb⟩ := h.sound.visited _ hvisited
      simp only [skipped, Bool.or_eq_false_iff] at hskip
      refine
        { tests := ?_
          idle := ?_
          least := ?_
          listed := ?_
          all := ?_
          walked := by rintro ⟨⟩
          position := ?_ }
      · rintro _ ⟨⟩
        exact h.sound.tests
      · rintro _ ⟨⟩
        refine ⟨(Nat.div_mul_le_self _ _).trans_lt hlt, Nat.dvd_mul_left _ _, ?_⟩
        rw [section_start hunit]
        exact hskip.1
      · rintro _ _ ⟨⟩ ⟨⟩
        exact ⟨segno, _, rfl, hb, hcand, hcost, h.sound.least⟩
      · rintro _ ⟨⟩
        exact h.listed
      · rintro _ ⟨⟩
        exact hall
      · rw [gotIt_lastVictim]
        exact h.sound.position

/-- A call that does not search. -/
lemma Selected.of_none {nrDirty : ℕ} (hmax : p.maxSearch = 0)
    (hposition : sbi.sm.lastVictim p.gcMode < g.segmentCountMain) :
    Selected g sbi gcType p nrDirty ⟨none, sbi, none⟩ where
  tests := by rintro x ⟨⟩
  idle := by rintro s ⟨⟩
  least := by rintro x s ⟨⟩
  listed := by rintro x ⟨⟩
  all := by rintro x ⟨⟩
  walked := fun _ _ => hmax
  position := hposition

/-- **A victim that was chosen in the background before.** -/
lemma selected_bg {nrDirty : ℕ} {victimSecmap : ℕ → Bool}
    (hunit : p.ofsUnit = 1 ∨ p.ofsUnit = g.segsPerSec)
    (hposition : sbi.sm.lastVictim p.gcMode < g.segmentCountMain)
    (h : checkBgVictims g sbi = some (segno, victimSecmap)) :
    Selected g sbi gcType p nrDirty (gotIt g gcType p
      { sbi with m := { sbi.m with dirtyI := { sbi.m.dirtyI with victimSecmap } } } segno none) := by
  obtain ⟨secno, hsec, rfl, hidle⟩ := checkBgVictims_spec h
  refine
    { tests := by rintro x ⟨⟩
      idle := ?_
      least := by rintro x s ⟨⟩
      listed := by rintro x ⟨⟩
      all := by rintro x ⟨⟩
      walked := by rintro - ⟨⟩
      position := ?_ }
  · rintro _ ⟨⟩
    refine ⟨(Nat.div_mul_le_self _ _).trans_lt ?_, Nat.dvd_mul_left _ _, ?_⟩
    · rw [g.whole]
      exact Nat.mul_lt_mul_of_pos_right hsec g.segsPerSec_pos
    · rw [section_start hunit, Nat.mul_div_cancel _ g.segsPerSec_pos]
      exact hidle
  · rw [gotIt_lastVictim]
    exact hposition

/-- A walk begins where the last one ended, or at 0. -/
lemma startOffset_eq (type : DirtyType) :
    startOffset sbi type p = sbi.sm.lastVictim p.gcMode ∨ startOffset sbi type p = 0 := by
  unfold startOffset
  split_ifs
  · exact Or.inr rfl
  · exact Or.inl rfl

lemma left_start_le (hposition : sbi.sm.lastVictim p.gcMode < g.segmentCountMain) (start : ℕ) :
    ((Scan.start g sbi p start).walk p).left ≤ 2 * g.segmentCountMain := by
  have hsaved : (if sbi.sm.lastVictim p.gcMode = 0 then 0 else sbi.sm.lastVictim p.gcMode + 1)
      ≤ g.segmentCountMain := by
    split_ifs <;> omega
  rw [Nat.two_mul]
  exact Nat.add_le_add (Nat.sub_le _ start) hsaved

/-- **The choice of a victim.**  It ends, stays inside of the map, and finds the cheapest segment
that is not in use; and it looks at every dirty one unless it is told not to. -/
theorem get_victim_by_default_spec {type : DirtyType} {allocMode : AllocType} {fuel : ℕ}
    (hfuel : 2 * g.segmentCountMain < fuel)
    (hcount : sbi.m.dirtyI.nrDirty (searchedList type allocMode)
      = setBits (sbi.m.dirtyI.dirtySegmap (searchedList type allocMode)) g.segmentCountMain)
    (hposition : sbi.sm.lastVictim (selectPolicy g sbi gcType type allocMode).gcMode
      < g.segmentCountMain) :
    ∃ r, getVictimByDefault g sbi none gcType type allocMode fuel = some r ∧
      Selected g sbi gcType (selectPolicy g sbi gcType type allocMode)
        (sbi.m.dirtyI.nrDirty (searchedList type allocMode)) r := by
  have hf : (selectPolicy g sbi gcType type allocMode).Fits g := selectPolicy_fits type allocMode
  have hunit : (selectPolicy g sbi gcType type allocMode).ofsUnit = 1
      ∨ (selectPolicy g sbi gcType type allocMode).ofsUnit = g.segsPerSec := by
    cases allocMode with
    | ssr => exact Or.inl rfl
    | lfs => exact Or.inr rfl
  have hmap : sbi.m.dirtyI.dirtySegmap (searchedList type allocMode)
      = (selectPolicy g sbi gcType type allocMode).dirtySegmap := rfl
  rw [hcount, hmap]
  simp only [getVictimByDefault]
  generalize selectPolicy g sbi gcType type allocMode = p at hf hunit hposition ⊢
  by_cases hmax : p.maxSearch = 0
  · rw [if_pos hmax]
    exact ⟨_, rfl, Selected.of_none hmax hposition⟩
  · rw [if_neg hmax]
    cases hbg : (if p.allocMode = .lfs ∧ gcType = .fg then checkBgVictims g sbi else none) with
    | some v =>
        exact ⟨_, rfl, selected_bg hunit hposition (Option.ite_none_right_eq_some.mp hbg).2⟩
    | none =>
        obtain ⟨x, hscan, hwalked⟩ := scan_ends hf hposition (startOffset_eq type)
          (walks_start hposition (startOffset sbi type p))
          (lt_of_le_of_lt (left_start_le hposition _) hfuel)
        rw [hscan]
        exact ⟨_, rfl, hwalked.selected hunit⟩

end

/-! ## A search that begins in the middle of a section -/

def wornCnt : ℕ → ℕ
  | 0 => 1
  | 3 => 5
  | 9 => 300
  | 10 => 20
  | _ => 0

/-- The last section is in use, and so is the one in the middle. -/
def wornCurseg : CursegType → CursegInfo
  | .hotData => openedCurseg threeSections 4 0 .lfs
  | .warmData => openedCurseg threeSections 5 0 .lfs
  | .coldData => openedCurseg threeSections 6 0 .lfs
  | .hotNode => openedCurseg threeSections 7 0 .lfs
  | .warmNode => openedCurseg threeSections 8 0 .lfs
  | .coldNode => openedCurseg threeSections 11 0 .lfs

def worn : VictimSbi where
  m := mountedMan threeSections (fun _ => .warmData) wornCnt wornCurseg
  sm := ⟨fun _ => 2, 0, 0⟩
  curVictimSec := nullSegno
  gcMode := .normal
  maxVictimSearch := 4096
  noheap := false

theorem get_victim_by_default_spec_worn :
    ∃ r, getVictimByDefault threeSections worn none .fg .dirty .lfs 25 = some r ∧
      Selected threeSections worn .fg (selectPolicy threeSections worn .fg .dirty .lfs)
        (worn.m.dirtyI.nrDirty .dirty) r :=
  get_victim_by_default_spec (by decide) (by decide +kernel) (by decide)

/-- The walk comes upon segments 3 and 9, and chooses the section of the first. -/
example : (getVictimByDefault threeSections worn none .fg .dirty .lfs 25).bind (fun r =>
    r.scan.map fun x => (r.result, x.visited, r.sbi.sm.lastVictim .greedy))
      = some (some 0, [9, 3], 10) := by
  decide +kernel

end Hoit.Segment.Victim
