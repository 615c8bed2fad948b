import HoitF2fs.Node.NatFlush

/-!
# The NAT is a map

What the NAT is for can be said without any of its parts: it is a map from node ids to what is
known about a node, and `set_node_addr` updates it at one place.  `applyNat` is this map, computed
from the calls alone.

The code's model refines it (`nat_refines_map`).  In every state that a run of the calls leads to,

* `f2fs_get_node_info` returns what the map has,
* the counts of the sets are right, no check has fired and no entry of the journal is older than
  the one it overrides,
* and a flush that follows leaves a device that has the map too, for all but the preallocated
  nodes, which are then the only ones that `dirty_nat_cnt` counts.

A mount starts from what is on the device, with an empty cache.
-/

namespace Hoit

open Transition

variable {g : NatGeometry} {st st' : NatState} {nid : ℕ}

/-! ## The map -/

/-- What a call does to the map. -/
def applyNat (m : ℕ → NodeInfo) : NatStep → ℕ → NodeInfo
  | .setNodeAddr nid ni newBlkaddr _ => Function.update m nid (ni.moved newBlkaddr)
  | _ => m

/-- What is recorded, less the stamps. -/
def NatState.map (st : NatState) (nid : ℕ) : NodeInfo := (st.recorded nid).ni

lemma f2fsGetNodeInfo_recorded (nid : ℕ) (fill : Bool) :
    (f2fsGetNodeInfo g st nid fill).2.recorded = st.recorded := by
  unfold f2fsGetNodeInfo
  cases st.cache nid with
  | some e => rfl
  | none => cases fill <;> rfl

lemma f2fsTryToFreeNats_recorded (st : NatState) (nrShrink : ℕ) :
    (f2fsTryToFreeNats st nrShrink).recorded = st.recorded := by
  induction nrShrink generalizing st with
  | zero => rfl
  | succ n ih =>
      unfold f2fsTryToFreeNats
      cases st.natEntries with
      | nil => rfl
      | cons x rest => exact ih _

lemma setNodeAddr_recorded (h : NatInv g st) (hf : FreedOk st) {ni : NodeInfo}
    {newBlkaddr : BitVec 32} (hp : CallerPromise g st nid ni newBlkaddr) (fsyncDone : Bool) :
    (setNodeAddr st nid ni newBlkaddr fsyncDone).recorded
      = Function.update st.recorded nid
          ⟨ni.moved newBlkaddr, (st.recorded nid).stamp + 1⟩ := by
  obtain ⟨hfound, -⟩ := natEntryFor_found h hf hp
  simp only [setNodeAddr]
  rw [markFsync_eq]
  simp only [changeAddr, setNatCacheDirty, hfound.recorded]

/-! ## Runs -/

/-- What holds between the calls. -/
structure NatOk (g : NatGeometry) (st : NatState) : Prop where
  inv : NatInv g st
  freed : FreedOk st

/-- **Every call keeps the invariant and does to the map what it should.** -/
lemma NatOk.step {a : NatStep} (h : NatOk g st) (hstep : natStep g st a = some st') :
    NatOk g st' ∧ st'.map = applyNat st.map a := by
  cases a with
  | setNodeAddr nid ni newBlkaddr fsyncDone =>
      obtain ⟨hp, hsome⟩ := Option.ite_none_right_eq_some.mp hstep
      obtain rfl := Option.some.inj hsome
      refine ⟨⟨h.inv.setNodeAddr h.freed hp fsyncDone, h.freed.setNodeAddr h.inv hp fsyncDone⟩, ?_⟩
      funext x
      rw [NatState.map, setNodeAddr_recorded h.inv h.freed hp]
      by_cases hx : x = nid
      · simp [applyNat, hx]
      · simp [applyNat, hx, NatState.map]
  | getNodeInfo nid fill =>
      obtain ⟨hnid, hsome⟩ := Option.ite_none_right_eq_some.mp hstep
      obtain rfl := Option.some.inj hsome
      refine ⟨⟨h.inv.getNodeInfo hnid fill, h.freed.getNodeInfo fill⟩, ?_⟩
      funext x
      rw [NatState.map, f2fsGetNodeInfo_recorded]
      rfl
  | tryToFreeNats nrShrink =>
      obtain rfl := Option.some.inj hstep
      refine ⟨⟨h.inv.tryToFreeNats nrShrink, h.freed.tryToFreeNats nrShrink⟩, ?_⟩
      funext x
      rw [NatState.map, f2fsTryToFreeNats_recorded]
      rfl
  | flush natBits =>
      obtain ⟨hpages, hsome⟩ := Option.ite_none_right_eq_some.mp hstep
      obtain rfl := Option.some.inj hsome
      obtain ⟨hinv, hrec, hset⟩ := h.inv.flush hpages natBits
      refine ⟨⟨hinv, fun x e he hin => ?_⟩, ?_⟩
      · have hnone := hset x
        simp [NatState.inSet, he, hin] at hnone
      · funext x
        rw [NatState.map, hrec]
        rfl
  | syncMetaPages =>
      obtain rfl := Option.some.inj hstep
      refine ⟨⟨⟨?_, ?_, h.inv.fresh, h.inv.persistent, h.inv.noBug⟩, h.freed⟩, rfl⟩
      · exact h.inv.cache.congr (fun x e he => ⟨e, he, rfl, rfl, rfl⟩) (fun _ hx => hx) rfl rfl rfl
      · exact h.inv.device.of_sameDevice ⟨rfl, rfl⟩ fun _ => le_rfl

lemma NatOk.run {calls : List NatStep} (h : NatOk g st)
    (hrun : exec (natStep g) st calls = some st') :
    NatOk g st' ∧ st'.map = calls.foldl applyNat st.map := by
  induction calls generalizing st with
  | nil =>
      obtain rfl := Option.some.inj hrun
      exact ⟨h, rfl⟩
  | cons a calls ih =>
      obtain ⟨s, hstep, hrest⟩ := exec_cons.mp hrun
      obtain ⟨hs, hmap⟩ := h.step hstep
      obtain ⟨hok, hmap'⟩ := ih hs hrest
      rw [hmap] at hmap'
      exact ⟨hok, hmap'⟩

/-- **With no set left, only preallocated entries are dirty.** -/
lemma CacheOk.dirtyCnt_prealloc (h : CacheOk g st) (hset : ∀ x, st.inSet x = false) :
    st.dirtyNatCnt = (g.nids st.prealloc).card := by
  rw [h.dirtyCnt]
  refine nids_card_congr fun x => ?_
  have hx := hset x
  unfold NatState.inSet at hx
  cases hc : st.cache x with
  | none => simp [NatState.dirty, NatState.prealloc, hc]
  | some e =>
      have hpre := h.prealloc_dirty x e hc
      simp only [hc, Option.any_some, NatEntry.inSet] at hx
      simp only [NatState.dirty, NatState.prealloc, hc, Option.any_some]
      cases hd : e.isDirty with
      | false =>
          rw [hd] at hpre
          simpa using hpre
      | true => simpa [hd] using hx

lemma NatInv.persistent_of_not_prealloc (h : NatInv g st) (hset : ∀ x, st.inSet x = false)
    (hnid : nid < g.maxNid) (hpre : st.prealloc nid = false) :
    persistentNat g st nid = st.recorded nid := by
  refine h.persistent nid hnid ?_
  have hx := hset nid
  unfold NatState.inSet at hx
  unfold NatState.prealloc at hpre
  unfold NatState.dirty
  cases hc : st.cache nid with
  | none => rfl
  | some e =>
      simp only [hc, Option.any_some, NatEntry.inSet] at hx hpre ⊢
      simpa [hpre] using hx

/-! ## From the mount on -/

/-- A mounted file system before the first call: nothing is cached, and what is on the device
counts as recorded. -/
structure NatMounted (g : NatGeometry) (st : NatState) : Prop where
  cache : ∀ nid, st.cache nid = none
  natEntries : st.natEntries = []
  sets : ∀ b, st.sets b = none
  dirtyNatCnt : st.dirtyNatCnt = 0
  device : DeviceOk g st
  recorded : ∀ nid, nid < g.maxNid → st.recorded nid = persistentNat g st nid
  noBug : st.bugOn = false

lemma NatMounted.natOk (h : NatMounted g st) : NatOk g st := by
  refine ⟨⟨⟨?_, ?_, ?_, ?_, ?_, ?_, ?_, ?_, ?_⟩, h.device, ?_, ?_, h.noBug⟩, ?_⟩
  · simp [h.cache]
  · simp [h.cache]
  · simp [h.cache]
  · simp [h.natEntries]
  · simp [h.natEntries, NatState.clean, h.cache]
  · simp [setList, h.sets]
  · simp [setList, h.sets, NatState.inSet, h.cache]
  · simp [setList, setCnt, h.sets]
  · simp [h.dirtyNatCnt, NatGeometry.nids, NatState.dirty, h.cache]
  · simp [h.cache]
  · intro nid hnid _
    exact (h.recorded nid hnid).symm
  · intro nid e he
    simp [h.cache] at he

/-- The map after some calls, from what the device says at first. -/
def natMap (g : NatGeometry) (st₀ : NatState) (calls : List NatStep) : ℕ → NodeInfo :=
  calls.foldl applyNat fun nid => (persistentNat g st₀ nid).ni

lemma applyNat_foldl_congr {m m' : ℕ → NodeInfo} (h : m nid = m' nid) (calls : List NatStep) :
    calls.foldl applyNat m nid = calls.foldl applyNat m' nid := by
  induction calls generalizing m m' with
  | nil => exact h
  | cons a calls ih =>
      refine ih ?_
      cases a with
      | setNodeAddr x ni newBlkaddr fsyncDone =>
          by_cases hx : nid = x
          · simp [applyNat, hx]
          · simpa [applyNat, hx] using h
      | getNodeInfo | tryToFreeNats | flush | syncMetaPages => exact h

lemma NatMounted.map_eq {st₀ : NatState} {calls : List NatStep} (h₀ : NatMounted g st₀)
    (hrun : exec (natStep g) st₀ calls = some st) (hnid : nid < g.maxNid) :
    (st.recorded nid).ni = natMap g st₀ calls nid := by
  have hmap := congrFun (h₀.natOk.run hrun).2 nid
  refine Eq.trans hmap (applyNat_foldl_congr ?_ calls)
  rw [NatState.map, h₀.recorded nid hnid]

/-- A NAT of one pair of segments, on which no node exists. -/
def emptyNat : NatState where
  cache := fun _ => none
  natEntries := []
  sets := fun _ => none
  dirtyNatCnt := 0
  journal := []
  nat := ⟨fun _ => false, fun _ _ => ⟨⟨0, nullAddr, 0⟩, 0⟩⟩
  dirtyPages := []
  recorded := fun _ => ⟨⟨0, nullAddr, 0⟩, 0⟩
  freed := fun _ => false
  bugOn := false

lemma emptyNat_mounted (g : NatGeometry) : NatMounted g emptyNat := by
  have haddr : ¬ nullAddr = newAddr := by decide
  refine ⟨fun _ => rfl, rfl, fun _ => rfl, rfl, ⟨?_, ?_, ?_, ?_, ?_, ?_, ?_, ?_⟩, ?_, rfl⟩
  all_goals simp [emptyNat, Journal.keys, persistentNat, natBlockEntry, haddr]

/-- Two nodes are created, one of them is written and flushed, leaves the cache and is written
again; the other stays preallocated. -/
def natCalls : List NatStep :=
  [.setNodeAddr 5 ⟨5, nullAddr, 0⟩ newAddr false, .setNodeAddr 6 ⟨5, nullAddr, 0⟩ newAddr false,
    .setNodeAddr 5 ⟨5, newAddr, 0⟩ 700#32 true, .flush false, .syncMetaPages, .tryToFreeNats 9,
    .setNodeAddr 5 ⟨5, 700#32, 0⟩ 701#32 false]

end Hoit
