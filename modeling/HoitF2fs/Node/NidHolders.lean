import HoitF2fs.Node.FreeNidRuns

/-!
# Who has a nid

A nid that `f2fs_alloc_nid` returns is its caller's, until the caller says with
`f2fs_alloc_nid_done` or `f2fs_alloc_nid_failed` what became of it.

* `NidHolders` — the node manager, and the nids that its callers have.  These are told from the
  calls alone; nothing in the node manager is asked.
* `SamePrealloc` — **a scan, a flush and the rest have no say in what is preallocated**, whatever
  they do to the list.  A nid that is preallocated is never put on it, since it is in the tree.
* `alloc_nid_once` — **no nid is handed out twice**, and the counts are right.
-/

namespace Hoit.FreeNid

open Bitmap Transition

variable (g : NatGeometry)

/-! ## The callers -/

/-- The node manager, and the nids that its callers have. -/
structure NidHolders where
  mgr : NodeManager
  held : Finset ℕ

/-- The nids that callers have after a call.  `f2fs_recover_xattr_data` has none when it returns. -/
def heldAfter (s : NodeManager) (held : Finset ℕ) : NidCall → Finset ℕ
  | .allocNid rounds =>
      match f2fsAllocNid g s.nat rounds s.free with
      | some (some nid, _) => insert nid held
      | _ => held
  | .allocNidDone nid => held.erase nid
  | .allocNidFailed nid _ => held.erase nid
  | _ => held

def holdStep (t : NidHolders) (a : NidCall) : Option NidHolders :=
  (nidStep g t.mgr a).map fun s => ⟨s, heldAfter g t.mgr t.held a⟩

/-- After the mount nobody has a nid. -/
def mountedHolders (img : MountImage) : NidHolders := ⟨f2fsBuildNodeManager g img, ∅⟩

variable {g} {K : ℕ → Prop} {img : MountImage} {st : NatState} {f f' : FreeNids}
  {s s' : NodeManager} {t t' : NidHolders} {held : Finset ℕ} {nid x : ℕ}

/-! ## What is preallocated -/

/-- The same nids are preallocated, and as many are counted. -/
structure SamePrealloc (f f' : FreeNids) : Prop where
  root : ∀ x, f'.freeNidRoot x = some .preallocNid ↔ f.freeNidRoot x = some .preallocNid
  cnt : f'.nidCnt .preallocNid = f.nidCnt .preallocNid

lemma SamePrealloc.refl (f : FreeNids) : SamePrealloc f f := ⟨fun _ => Iff.rfl, rfl⟩

lemma SamePrealloc.trans {f'' : FreeNids} (h : SamePrealloc f f') (h' : SamePrealloc f' f'') :
    SamePrealloc f f'' :=
  ⟨fun x => (h'.root x).trans (h.root x), h'.cnt.trans h.cnt⟩

lemma SamePrealloc.of_list (h : SameList f f') : SamePrealloc f f' :=
  ⟨fun x => by rw [h.root], by rw [h.cnt]⟩

lemma SamePrealloc.foldl {α : Type*} {op : FreeNids → α → FreeNids}
    (h : ∀ f a, SamePrealloc f (op f a)) (as : List α) (f : FreeNids) :
    SamePrealloc f (as.foldl op f) := by
  induction as generalizing f with
  | nil => exact SamePrealloc.refl f
  | cons a as ih => exact (h f a).trans (ih (op f a))

/-- A nid that is in the tree already is not put on the list. -/
lemma insertFreeNid_prealloc (f : FreeNids) (nid : ℕ) :
    SamePrealloc f ((insertFreeNid f nid .freeNid).getD f) := by
  refine ⟨fun x => ?_, ?_⟩
  · rw [insertFreeNid_root]
    split_ifs with hc
    · obtain ⟨rfl, hnone⟩ := hc
      simp [hnone]
    · rfl
  · unfold insertFreeNid
    cases f.freeNidRoot nid <;> simp

lemma innerRemoveFreeNid_prealloc (hr : f.freeNidRoot nid = some .freeNid) :
    SamePrealloc f (innerRemoveFreeNid f nid .freeNid) := by
  refine ⟨fun x => ?_, by simp [innerRemoveFreeNid]⟩
  rw [innerRemoveFreeNid_root]
  split_ifs with hx
  · rw [hx, hr]
    simp
  · rfl

lemma removeFreeNid_prealloc (f : FreeNids) (nid : ℕ) : SamePrealloc f (removeFreeNid f nid) := by
  unfold removeFreeNid
  split_ifs with hr
  · exact innerRemoveFreeNid_prealloc hr
  · exact SamePrealloc.refl f

lemma updateFreeNidBitmap_prealloc (f : FreeNids) (nid : ℕ) (set build : Bool) :
    SamePrealloc f (updateFreeNidBitmap f nid set build) :=
  SamePrealloc.of_list (updateFreeNidBitmap_list nid set build)

lemma addFreeNid_prealloc (st : NatState) (f : FreeNids) (nid : ℕ) (build update : Bool) :
    SamePrealloc f (addFreeNid st f nid build update).2 := by
  unfold addFreeNid
  by_cases hn : nid = 0
  · rw [if_pos hn]
    exact SamePrealloc.refl f
  rw [if_neg hn]
  -- the list first, and then the bitmap and the count
  have hlist : SamePrealloc f
      (if build && cachedInUse st nid then (false, f)
        else if build && (f.freeNidRoot nid).isSome then (f.freeNidRoot nid == some .freeNid, f)
        else (true, (insertFreeNid f nid .freeNid).getD f)).2 := by
    split_ifs
    · exact SamePrealloc.refl f
    · exact SamePrealloc.refl f
    · exact insertFreeNid_prealloc f nid
  dsimp only
  cases update with
  | false => exact hlist
  | true =>
      have hbits : ∀ set, SamePrealloc f (updateFreeNidBitmap _ nid set build) := fun set =>
        hlist.trans (updateFreeNidBitmap_prealloc _ nid set build)
      cases build with
      | true => exact hbits _
      | false => exact ⟨(hbits _).root, (hbits _).cnt⟩

/-! ## The scan -/

lemma scanNatEntry_prealloc (g : NatGeometry) (st : NatState) (f : FreeNids) (startNid : ℕ) :
    SamePrealloc f (scanNatEntry g st f startNid) := by
  unfold scanNatEntry
  split_ifs
  · exact addFreeNid_prealloc st f startNid true true
  · exact updateFreeNidBitmap_prealloc f startNid false true

lemma scanNatPage_prealloc (g : NatGeometry) (st : NatState) (f : FreeNids) (startNid : ℕ) :
    SamePrealloc f (scanNatPage g st f startNid) := by
  have hmark : SamePrealloc f (markScanned f (natBlockOffset startNid)) :=
    SamePrealloc.of_list ⟨rfl, rfl, rfl⟩
  exact hmark.trans (SamePrealloc.foldl (scanNatEntry_prealloc g st) _ _)

lemma scanCursegCache_prealloc (st : NatState) (f : FreeNids) :
    SamePrealloc f (scanCursegCache st f) := by
  refine SamePrealloc.foldl (fun f y => ?_) st.journal f
  unfold scanJournalEntry
  split_ifs
  · exact addFreeNid_prealloc st f y.1 true false
  · exact removeFreeNid_prealloc f y.1

lemma addFreeNids_prealloc (st : NatState) (f : FreeNids) (nids : List ℕ) :
    SamePrealloc f (addFreeNids st f nids) := by
  induction nids generalizing f with
  | nil => exact SamePrealloc.refl f
  | cons nid nids ih =>
      have hadd := addFreeNid_prealloc st f nid true false
      rw [addFreeNids]
      split_ifs
      · exact hadd
      · exact hadd.trans (ih _)

lemma scanFreeNidBits_prealloc (g : NatGeometry) (st : NatState) (f : FreeNids) :
    SamePrealloc f (scanFreeNidBits g st f) :=
  (addFreeNids_prealloc st f (freeNidBits g f)).trans (scanCursegCache_prealloc st _)

lemma scanNatPages_prealloc (g : NatGeometry) (st : NatState) (i : ℕ) (f : FreeNids) (nid : ℕ) :
    SamePrealloc f (scanNatPages g st i f nid).1 := by
  induction i generalizing f nid with
  | zero => exact SamePrealloc.refl f
  | succ i ih =>
      have hpage : SamePrealloc f
          (if f.natBlockBitmap (natBlockOffset nid) then f else scanNatPage g st f nid) := by
        split_ifs
        · exact SamePrealloc.refl f
        · exact scanNatPage_prealloc g st f nid
      exact hpage.trans (ih _ _)

lemma scanBlocks_prealloc (g : NatGeometry) (st : NatState) (f : FreeNids) (nid : ℕ) :
    SamePrealloc f (scanBlocks g st f nid) := by
  have hpages := scanNatPages_prealloc g st freeNidPages f nid
  have hset : SamePrealloc f { (scanNatPages g st freeNidPages f nid).1 with
      nextScanNid := (scanNatPages g st freeNidPages f nid).2 } := ⟨hpages.root, hpages.cnt⟩
  exact hset.trans (scanCursegCache_prealloc st _)

/-- **A scan has no say in what is preallocated.** -/
lemma buildFreeNids_prealloc (g : NatGeometry) (st : NatState) (f : FreeNids)
    (sync mount hasMemory : Bool) :
    SamePrealloc f (buildFreeNids g st f sync mount hasMemory) := by
  have hbits := scanFreeNidBits_prealloc g st f
  rw [buildFreeNids_eq]
  generalize (if g.maxNid ≤ f.nextScanNid then 0 else f.nextScanNid) = nid
  split_ifs
  · exact SamePrealloc.refl f
  · exact scanBlocks_prealloc g st f nid
  · exact hbits
  · exact hbits.trans (scanBlocks_prealloc g st _ nid)

/-! ## The flush, and the shrinker -/

lemma removeNatsInJournal_prealloc (s : NodeManager) :
    SamePrealloc s.free (removeNatsInJournal s).free := by
  change SamePrealloc s.free (s.nat.journal.foldl removeNatInJournal s).free
  induction s.nat.journal generalizing s with
  | nil => exact SamePrealloc.refl s.free
  | cons y ys ih =>
      have hone : SamePrealloc s.free (removeNatInJournal s y).free := by
        unfold removeNatInJournal
        dsimp only
        split_ifs
        · exact ⟨fun _ => Iff.rfl, rfl⟩
        · exact SamePrealloc.refl s.free
      exact hone.trans (ih _)

lemma flushNatEntry_prealloc (g : NatGeometry) (toJournal : Bool) (s : NodeManager) (nid : ℕ) :
    SamePrealloc s.free (flushNatEntry g toJournal s nid).free := by
  unfold flushNatEntry
  cases s.nat.cache nid with
  | none => exact SamePrealloc.refl s.free
  | some e =>
      dsimp only
      split_ifs
      · exact addFreeNid_prealloc _ s.free nid false true
      · exact updateFreeNidBitmap_prealloc s.free nid false false

lemma flushNatEntrySet_prealloc (g : NatGeometry) (natBits : Bool) (s : NodeManager) (b : ℕ) :
    SamePrealloc s.free (flushNatEntrySet g natBits s b).free := by
  have hentries : ∀ (toJournal : Bool) (xs : List ℕ) (t : NodeManager),
      SamePrealloc t.free (xs.foldl (flushNatEntry g toJournal) t).free := by
    intro toJournal xs
    induction xs with
    | nil => exact fun t => SamePrealloc.refl t.free
    | cons x xs ih => exact fun t => (flushNatEntry_prealloc g toJournal t x).trans (ih _)
  unfold flushNatEntrySet
  extract_lets set toJournal s₁ s₂
  have hs₂ : SamePrealloc s.free s₂.free := hentries toJournal set.entryList s₁
  split_ifs
  · exact hs₂
  · exact hs₂

/-- **Nor has a flush.** -/
lemma f2fsFlushNatEntries_prealloc (g : NatGeometry) (s : NodeManager) (natBits : Bool) :
    SamePrealloc s.free (f2fsFlushNatEntries g s natBits).free := by
  have hsets : ∀ (bs : List ℕ) (t : NodeManager),
      SamePrealloc t.free (bs.foldl (flushNatEntrySet g natBits) t).free := by
    intro bs
    induction bs with
    | nil => exact fun t => SamePrealloc.refl t.free
    | cons b bs ih => exact fun t => (flushNatEntrySet_prealloc g natBits t b).trans (ih _)
  unfold f2fsFlushNatEntries
  split_ifs
  · exact SamePrealloc.refl s.free
  · exact (removeNatsInJournal_prealloc s).trans (hsets _ _)
  · exact hsets _ _

lemma f2fsTryToFreeNids_prealloc (hl : ListOk f) (nrShrink : ℕ) :
    SamePrealloc f (f2fsTryToFreeNids f nrShrink) := by
  induction nrShrink generalizing f with
  | zero => exact SamePrealloc.refl f
  | succ n ih =>
      rw [f2fsTryToFreeNids]
      split_ifs
      · exact SamePrealloc.refl f
      · cases hlist : f.freeNidList with
        | nil => exact SamePrealloc.refl f
        | cons nid rest =>
            have hr : f.freeNidRoot nid = some .freeNid := by
              rw [← hl.mem, hlist]
              simp
            exact (innerRemoveFreeNid_prealloc hr).trans (ih (hl.innerRemove hr))

/-! ## The invariant -/

/-- What is preallocated is what the callers have, and it is counted. -/
structure PreallocOk (f : FreeNids) (held : Finset ℕ) : Prop where
  mem : ∀ x, f.freeNidRoot x = some .preallocNid ↔ x ∈ held
  cnt : f.nidCnt .preallocNid = held.card

lemma PreallocOk.same (h : PreallocOk f held) (hs : SamePrealloc f f') : PreallocOk f' held :=
  ⟨fun x => (hs.root x).trans (h.mem x), hs.cnt.trans h.cnt⟩

/-- A nid of the list is handed out. -/
lemma PreallocOk.take (h : PreallocOk f held) (hr : f.freeNidRoot nid = some .freeNid) :
    PreallocOk (takeNid f nid) (insert nid held) := by
  have hnot : nid ∉ held := by
    rw [← h.mem, hr]
    simp
  refine ⟨fun x => ?_, ?_⟩
  · rw [takeNid_root, Finset.mem_insert]
    split_ifs with hx
    · simp [hx]
    · simp [hx, h.mem]
  · rw [Finset.card_insert_of_notMem hnot, ← h.cnt, takeNid,
      (updateFreeNidBitmap_list nid false false).cnt]
    simp [moveFreeNid]

/-- A caller gives its nid up. -/
lemma PreallocOk.giveUp (h : PreallocOk f held) (hr : f.freeNidRoot nid = some .preallocNid)
    (hself : f'.freeNidRoot nid ≠ some .preallocNid)
    (hother : ∀ x, x ≠ nid → f'.freeNidRoot x = f.freeNidRoot x)
    (hcnt : f'.nidCnt .preallocNid = f.nidCnt .preallocNid - 1) :
    PreallocOk f' (held.erase nid) := by
  refine ⟨fun x => ?_, ?_⟩
  · rw [Finset.mem_erase]
    by_cases hx : x = nid
    · simp [hx, hself]
    · simp [hx, hother x hx, h.mem]
  · rw [Finset.card_erase_of_mem ((h.mem nid).mp hr), ← h.cnt, hcnt]

lemma PreallocOk.done (h : PreallocOk f held) (hr : f.freeNidRoot nid = some .preallocNid) :
    PreallocOk (f2fsAllocNidDone f nid) (held.erase nid) := by
  refine h.giveUp hr ?_ (fun x hx => ?_) ?_
  · simp [f2fsAllocNidDone, innerRemoveFreeNid]
  · simp [f2fsAllocNidDone, innerRemoveFreeNid, hx]
  · simp [f2fsAllocNidDone, innerRemoveFreeNid]

lemma PreallocOk.failed (h : PreallocOk f held) (hn : nid ≠ 0)
    (hr : f.freeNidRoot nid = some .preallocNid) (hasMemory : Bool) :
    PreallocOk (f2fsAllocNidFailed f nid hasMemory) (held.erase nid) := by
  have hlist : SameList
      { (if hasMemory then moveFreeNid f nid .preallocNid .freeNid
          else innerRemoveFreeNid f nid .preallocNid) with availableNids := f.availableNids + 1 }
      (f2fsAllocNidFailed f nid hasMemory) := by
    rw [f2fsAllocNidFailed, if_neg hn]
    cases hasMemory <;> exact updateFreeNidBitmap_list nid true false
  refine h.giveUp hr ?_ (fun x hx => ?_) ?_
  · rw [hlist.root]
    cases hasMemory <;> simp [moveFreeNid, innerRemoveFreeNid]
  · rw [hlist.root]
    cases hasMemory <;> simp [moveFreeNid, innerRemoveFreeNid, hx]
  · rw [hlist.cnt]
    cases hasMemory <;> simp [moveFreeNid, innerRemoveFreeNid]

lemma PreallocOk.alloc {rounds : ℕ} {r : Option ℕ} (h : PreallocOk s.free held)
    (hok : NidsOk g K s) (hr : f2fsAllocNid g s.nat rounds s.free = some (r, f')) :
    (r = none → PreallocOk f' held) ∧ ∀ nid, r = some nid → PreallocOk f' (insert nid held) := by
  induction rounds generalizing s with
  | zero => exact absurd hr (by simp [f2fsAllocNid])
  | succ rounds ih =>
      by_cases ha : s.free.availableNids = 0
      · rw [f2fsAllocNid, if_pos ha, Option.some.injEq, Prod.mk.injEq] at hr
        obtain ⟨rfl, rfl⟩ := hr
        exact ⟨fun _ => h, fun nid hnid => absurd hnid (by simp)⟩
      by_cases hne : s.free.nidCnt .freeNid ≠ 0
      · rw [f2fsAllocNid, if_neg ha, if_pos hne, Option.some.injEq, Prod.mk.injEq] at hr
        obtain ⟨rfl, rfl⟩ := hr
        refine ⟨fun hnone => absurd hnone (by simp), fun nid hnid => ?_⟩
        obtain rfl : s.free.freeNidList.headD 0 = nid := by simpa using hnid
        exact h.take (hok.pool.list.head_free hne)
      · rw [alloc_succ rounds ha (not_not.mp hne)] at hr
        have hb := buildFreeNids_rebuilt hok.nat hok.pool hok.sound true true
        exact ih (h.same (buildFreeNids_prealloc g s.nat s.free true false true)) (hok.rebuilt hb)
          hr

/-- What `f2fs_alloc_nid` returns nobody has. -/
lemma PreallocOk.not_held (h : PreallocOk s.free held) (hd : discoverable g s nid = true)
    (hinv : NatInv g s.nat) : nid ∉ held := by
  rw [← h.mem]
  exact ((discoverable_iff hinv).mp hd).unclaimed

lemma PreallocOk.recoverXattrData {ino prevXnid rounds : ℕ} {newErr : Option Errno}
    {fill hasMemory : Bool} {r : Except Errno Unit × NodeManager} (h : PreallocOk s.free held)
    (hok : NidsOk g K s) (hlive : prevXnid ≠ 0 → LiveNode g s prevXnid)
    (hr : f2fsRecoverXattrData g s ino prevXnid rounds newErr fill hasMemory = some r) :
    PreallocOk r.2.free held := by
  unfold f2fsRecoverXattrData at hr
  obtain ⟨s₁, hs₁, hok₁, h₁⟩ : ∃ s₁,
      (if prevXnid = 0 then s else truncateNode g s prevXnid fill) = s₁ ∧
      NidsOk g K s₁ ∧ PreallocOk s₁.free held := by
    refine ⟨_, rfl, ?_⟩
    by_cases hx : prevXnid = 0
    · rw [if_pos hx]
      exact ⟨hok, h⟩
    · rw [if_neg hx]
      exact ⟨(hok.truncateNode (hlive hx) fill).1, h⟩
  rw [hs₁] at hr
  dsimp only at hr
  cases ha : f2fsAllocNid g s₁.nat rounds s₁.free with
  | none =>
      rw [ha] at hr
      exact absurd hr (by simp)
  | some x =>
      obtain ⟨newXnid, f⟩ := x
      obtain ⟨hnone, hsome⟩ := h₁.alloc hok₁ ha
      rw [ha] at hr
      cases newXnid with
      | none =>
          obtain rfl := Option.some.inj hr
          exact hnone rfl
      | some newXnid =>
          obtain ⟨hfind, hroot⟩ := (hok₁.alloc ha).2.2 newXnid rfl
          have hnot : newXnid ∉ held := h₁.not_held hfind hok₁.nat.nat.inv
          have hback : (insert newXnid held).erase newXnid = held := Finset.erase_insert hnot
          cases newErr with
          | some e =>
              obtain rfl := Option.some.inj hr
              have hne : newXnid ≠ 0 := ((discoverable_iff hok₁.nat.nat.inv).mp hfind).free.ne_zero
              rw [← hback]
              exact (hsome newXnid rfl).failed hne hroot hasMemory
          | none =>
              obtain rfl := Option.some.inj hr
              rw [← hback]
              exact (hsome newXnid rfl).done hroot

/-- **A call keeps the account of who has what.** -/
lemma PreallocOk.step {a : NidCall} (h : PreallocOk t.mgr.free t.held) (hok : NidsOk g K t.mgr)
    (hstep : holdStep g t a = some t') : PreallocOk t'.mgr.free t'.held := by
  obtain ⟨s', hs', rfl⟩ := Option.map_eq_some_iff.mp hstep
  obtain ⟨hp, hcall⟩ := Option.ite_none_right_eq_some.mp hs'
  cases a with
  | flushNatEntries natBits =>
      obtain rfl := Option.some.inj hcall
      exact h.same (f2fsFlushNatEntries_prealloc g t.mgr natBits)
  | buildFreeNids sync hasMemory =>
      obtain rfl := Option.some.inj hcall
      exact h.same (buildFreeNids_prealloc g t.mgr.nat t.mgr.free sync false hasMemory)
  | allocNid rounds =>
      obtain ⟨⟨r, f'⟩, hr, rfl⟩ := Option.map_eq_some_iff.mp hcall
      obtain ⟨hnone, hsome⟩ := h.alloc hok hr
      simp only [heldAfter, hr]
      cases r with
      | none => exact hnone rfl
      | some nid => exact hsome nid rfl
  | allocNidDone nid =>
      obtain rfl := Option.some.inj hcall
      exact h.done hp.1
  | allocNidFailed nid hasMemory =>
      obtain rfl := Option.some.inj hcall
      by_cases hn : nid = 0
      · have hnot : nid ∉ t.held := by
          rw [← h.mem]
          intro hr
          have hle := (hok.pool.range nid _ hr).1
          unfold reservedNodeNum at hle
          omega
        simp only [heldAfter, f2fsAllocNidFailed, if_pos hn, Finset.erase_eq_of_notMem hnot]
        exact h
      · exact h.failed hn (hp hn).1 hasMemory
  | tryToFreeNids nrShrink =>
      obtain rfl := Option.some.inj hcall
      exact h.same (f2fsTryToFreeNids_prealloc hok.pool.list nrShrink)
  | recoverInodePage ino fill =>
      obtain rfl := Option.some.inj hcall
      unfold f2fsRecoverInodePage
      dsimp only
      split_ifs
      · exact h
      · exact h.same (removeFreeNid_prealloc t.mgr.free ino)
  | recoverXattrData ino prevXnid rounds newErr fill hasMemory =>
      obtain ⟨r, hr, rfl⟩ := Option.map_eq_some_iff.mp hcall
      exact h.recoverXattrData hok hp hr
  -- the others only work on the NAT
  | getNodeInfo nid fill =>
      obtain rfl := Option.some.inj hcall
      exact h
  | tryToFreeNats nrShrink =>
      obtain rfl := Option.some.inj hcall
      exact h
  | syncMetaPages =>
      obtain rfl := Option.some.inj hcall
      exact h
  | newNodePage nid ino =>
      obtain rfl := Option.some.inj hcall
      exact h
  | truncateNode nid fill =>
      obtain rfl := Option.some.inj hcall
      exact h
  | writeNode nid newBlkaddr fsyncDone fill =>
      obtain rfl := Option.some.inj hcall
      exact h

/-! ## Runs -/

/-- What is right about the nids that are handed out, and about the counts. -/
structure HandedOutOnce (g : NatGeometry) (t : NidHolders) : Prop where
  /-- Whatever `f2fs_alloc_nid` returns. -/
  alloc : ∀ rounds nid f', f2fsAllocNid g t.mgr.nat rounds t.mgr.free = some (some nid, f') →
    nid ≠ 0 ∧ nid < g.maxNid ∧ nid ∉ t.held ∧ nodeBlkaddr g t.mgr nid = nullAddr ∧
      t.mgr.nat.freed nid = false
  preallocated : ∀ x, t.mgr.free.freeNidRoot x = some .preallocNid ↔ x ∈ t.held
  freeCnt : t.mgr.free.nidCnt .freeNid = t.mgr.free.freeNidList.length
  preallocCnt : t.mgr.free.nidCnt .preallocNid = t.held.card
  bits : ∀ b, t.mgr.free.natBlockBitmap b = true →
    t.mgr.free.freeNidCount b = setBits (t.mgr.free.freeNidBitmap b) natEntryPerBlock

lemma NidsOk.handedOutOnce (h : NidsOk g K t.mgr) (hp : PreallocOk t.mgr.free t.held) :
    HandedOutOnce g t where
  alloc := by
    intro rounds nid f' hr
    have hd := ((h.alloc hr).2.2 nid rfl).1
    have hfree := ((discoverable_iff h.nat.nat.inv).mp hd).free
    refine ⟨hfree.ne_zero, hfree.lt, hp.not_held hd h.nat.nat.inv, ?_, hfree.freed⟩
    exact (nodeBlkaddr_eq h.nat.nat.inv hfree.lt).trans hfree.null
  preallocated := hp.mem
  freeCnt := h.pool.list.cnt
  preallocCnt := hp.cnt
  bits := fun b _ => h.pool.bits.count b

/-- The mount hands nothing out. -/
lemma mountedHolders_prealloc (g : NatGeometry) (img : MountImage) :
    PreallocOk (mountedHolders g img).mgr.free (mountedHolders g img).held := by
  have hbuild : SamePrealloc (loadedNids g img) (f2fsBuildNodeManager g img).free :=
    buildFreeNids_prealloc g img.nat (loadedNids g img) true true true
  have hload := (loadFreeNidBitmap_loaded g img).list
  refine PreallocOk.same ⟨fun x => ?_, ?_⟩ hbuild
  · simp [loadedNids_root, mountedHolders]
  · rw [loadedNids, hload.cnt]
    rfl

/-- **No nid is handed out twice**: after any calls since the mount, what `f2fs_alloc_nid` returns
is free in the NAT, was not freed since the last checkpoint and is nobody's, and the counts are
right.  The call of it in `f2fs_recover_xattr_data` comes after the old node was truncated, which is
a call of its own here. -/
theorem alloc_nid_once {calls : List NidCall} (himg : ImageOk g img)
    (hrun : exec (holdStep g) (mountedHolders g img) calls = some t) : HandedOutOnce g t := by
  have hstep : ∀ t a t', NidsOk g (SeenAtMount g img) t.mgr ∧ PreallocOk t.mgr.free t.held →
      holdStep g t a = some t' →
      NidsOk g (SeenAtMount g img) t'.mgr ∧ PreallocOk t'.mgr.free t'.held := by
    rintro t a t' ⟨hok, hp⟩ hstep
    refine ⟨?_, hp.step hok hstep⟩
    obtain ⟨s', hs', rfl⟩ := Option.map_eq_some_iff.mp hstep
    exact (hok.step hs').1
  obtain ⟨hok, hp⟩ := exec_preserves hstep ⟨himg.mounted.1, mountedHolders_prealloc g img⟩ hrun
  exact hok.handedOutOnce hp

/-- A nid is handed out on a new file system, and used for a node. -/
theorem alloc_nid_once_freshImage : ∃ rounds nid t,
    exec (holdStep oneNatSegment) (mountedHolders oneNatSegment freshImage)
        [.allocNid rounds, .newNodePage nid nid] = some t ∧
      t.held = {nid} ∧ HandedOutOnce oneNatSegment t := by
  obtain ⟨hok, hpre, hgap⟩ := freshImage_ok.mounted
  have hright := (hok.mono fun x _ => noneSkipped_freshImage x).right freshImage_ok.maxNid hgap
  obtain ⟨rounds, r, f', hends, hsome, -⟩ := hright.alloc
  have hr := hends rounds le_rfl
  -- nid 4 is free, so that some nid is returned
  have hfour : discoverable oneNatSegment (f2fsBuildNodeManager oneNatSegment freshImage) 4
      = true := by
    have hmax : 4 < oneNatSegment.maxNid := by decide
    refine (freshImage_ok.discoverable_mount hpre hmax).trans ?_
    rw [freshImage, nidTable_used _ _ _ hmax]
    decide
  obtain ⟨nid, rfl⟩ := Option.isSome_iff_exists.mp (hsome.mpr ⟨4, hfour⟩)
  obtain ⟨⟨hok', -⟩, -, hgot⟩ := hok.alloc hr
  obtain ⟨hd, hroot⟩ := hgot nid rfl
  have hfree := ((discoverable_iff hok.nat.nat.inv).mp hd).free
  have hnull : nodeBlkaddr oneNatSegment
      { f2fsBuildNodeManager oneNatSegment freshImage with free := f' } nid = nullAddr :=
    (nodeBlkaddr_eq hok'.nat.nat.inv hfree.lt).trans hfree.null
  have halloc : holdStep oneNatSegment (mountedHolders oneNatSegment freshImage) (.allocNid rounds)
      = some ⟨{ f2fsBuildNodeManager oneNatSegment freshImage with free := f' }, {nid}⟩ := by
    simp [holdStep, nidStep, NidPromise, nidCall, heldAfter, mountedHolders, hr]
  obtain ⟨t, ht, hheld⟩ : ∃ t, holdStep oneNatSegment
      ⟨{ f2fsBuildNodeManager oneNatSegment freshImage with free := f' }, {nid}⟩
      (.newNodePage nid nid) = some t ∧ t.held = {nid} := by
    rw [holdStep, nidStep, if_pos ⟨hroot, hnull⟩]
    exact ⟨_, rfl, rfl⟩
  have hrun : exec (holdStep oneNatSegment) (mountedHolders oneNatSegment freshImage)
      [.allocNid rounds, .newNodePage nid nid] = some t :=
    exec_cons.mpr ⟨_, halloc, exec_cons.mpr ⟨t, ht, rfl⟩⟩
  exact ⟨rounds, nid, t, hrun, hheld, alloc_nid_once freshImage_ok hrun⟩

end Hoit.FreeNid
