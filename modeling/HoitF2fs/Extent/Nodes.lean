import HoitF2fs.Extent.Cache
import Mathlib.Data.List.TakeWhile

/-!
# The nodes of an extent tree

What one update does to the nodes of its tree.

* `Sound` — an extent gives the addresses that have been recorded.  It survives being cut
  (`Sound.cutLeft`, `Sound.cutRight`), and two that go on from each other can be joined
  (`Sound.join`).
* `NodesOk` — the nodes are apart, in order, and sound.
* `invalidateNodes_walked` — the walk leaves **nothing in the range**, and what was outside.
* `updateRange_nodesOk` — the whole update.
-/

namespace Hoit.Extent

variable {recd recd' : ℕ → Recorded} {ei back front : ExtentInfo} {ino pos stop fofs len ofs : ℕ}
  {alloc : Bool} {nodes before rest : List ExtentNode} {w : Work} {n : ExtentNode}

/-! ## Extents -/

/-- **An extent gives what has been recorded.** -/
def Sound (recd : ℕ → Recorded) (ei : ExtentInfo) : Prop :=
  ∀ ofs, ei.has ofs = true → recd ofs = .at (ei.addr ofs)

@[simp] lemma ExtentInfo.has_iff : ei.has ofs = true ↔ ei.fofs ≤ ofs ∧ ofs < ei.stop := by
  simp [ExtentInfo.has]

lemma sound_of_empty (h : ei.len = 0) : Sound recd ei := by
  intro ofs hofs
  rw [ExtentInfo.has_iff, ExtentInfo.stop] at hofs
  omega

lemma Sound.congr (h : Sound recd ei) (heq : ∀ ofs, ei.has ofs = true → recd' ofs = recd ofs) :
    Sound recd' ei :=
  fun ofs hofs => (heq ofs hofs).trans (h ofs hofs)

lemma Sound.cutLeft (h : Sound recd ei) (hpos : pos ≤ ei.stop) : Sound recd (ei.cutLeft pos) := by
  intro ofs hofs
  refine h ofs ?_
  simp only [ExtentInfo.has_iff, ExtentInfo.stop, ExtentInfo.cutLeft] at hofs hpos ⊢
  omega

lemma Sound.cutRight (h : Sound recd ei) (hpos : ei.fofs ≤ pos) (hstop : pos ≤ ei.stop) :
    Sound recd (ei.cutRight pos) := by
  intro ofs hofs
  simp only [ExtentInfo.has_iff, ExtentInfo.stop, ExtentInfo.cutRight] at hofs hstop
  have hmem : ei.has ofs = true := by
    rw [ExtentInfo.has_iff, ExtentInfo.stop]
    omega
  rw [h ofs hmem]
  simp only [ExtentInfo.addr, ExtentInfo.cutRight]
  rw [BitVec.add_assoc, ← BitVec.ofNat_add, show pos - ei.fofs + (ofs - pos) = ofs - ei.fofs by omega]

lemma isExtentMergeable_iff :
    isExtentMergeable back front = true
      ↔ back.stop = front.fofs ∧ back.blk + BitVec.ofNat 32 back.len = front.blk := by
  simp [isExtentMergeable]

lemma Sound.join (hb : Sound recd back) (hf : Sound recd front)
    (h : isExtentMergeable back front = true) : Sound recd (back.join front) := by
  obtain ⟨hofs, hblk⟩ := isExtentMergeable_iff.mp h
  intro ofs hmem
  simp only [ExtentInfo.has_iff, ExtentInfo.stop, ExtentInfo.join] at hmem hofs
  by_cases hlt : ofs < back.fofs + back.len
  · rw [hb ofs (by simp only [ExtentInfo.has_iff, ExtentInfo.stop]; omega)]
    rfl
  · rw [hf ofs (by simp only [ExtentInfo.has_iff, ExtentInfo.stop]; omega)]
    simp only [ExtentInfo.addr, ExtentInfo.join]
    rw [← hblk, BitVec.add_assoc, ← BitVec.ofNat_add,
      show back.len + (ofs - front.fofs) = ofs - back.fofs by omega]

/-! ## Nodes -/

structure NodesOk (recd : ℕ → Recorded) (nodes : List ExtentNode) : Prop where
  /-- **Apart, and in order.** -/
  sorted : nodes.Pairwise fun a b => a.ei.stop ≤ b.ei.fofs
  bounds : ∀ n ∈ nodes, 0 < n.ei.len ∧ n.ei.stop < 2 ^ 32
  sound : ∀ n ∈ nodes, Sound recd n.ei

lemma nodesOk_nil : NodesOk recd [] := ⟨List.Pairwise.nil, by simp, by simp⟩

lemma NodesOk.sublist {nodes' : List ExtentNode} (h : NodesOk recd nodes)
    (hs : nodes'.Sublist nodes) : NodesOk recd nodes' :=
  ⟨h.sorted.sublist hs, fun n hn => h.bounds n (hs.subset hn), fun n hn => h.sound n (hs.subset hn)⟩

lemma NodesOk.congr (h : NodesOk recd nodes) (heq : ∀ n ∈ nodes, Sound recd' n.ei) :
    NodesOk recd' nodes := ⟨h.sorted, h.bounds, heq⟩

/-- A node is put in its place. -/
lemma NodesOk.place (h : NodesOk recd (before ++ rest)) (hpos : 0 < n.ei.len)
    (hlt : n.ei.stop < 2 ^ 32) (hn : Sound recd n.ei) (hb : ∀ b ∈ before, b.ei.stop ≤ n.ei.fofs)
    (hr : ∀ r ∈ rest, n.ei.stop ≤ r.ei.fofs) : NodesOk recd (before ++ n :: rest) := by
  obtain ⟨h1, h2, h3⟩ := List.pairwise_append.mp h.sorted
  refine ⟨List.pairwise_append.mpr ⟨h1, List.pairwise_cons.mpr ⟨hr, h2⟩, fun a ha b hmem => ?_⟩, ?_,
    ?_⟩
  · rcases List.mem_cons.mp hmem with rfl | hmem
    · exact hb a ha
    · exact h3 a ha b hmem
  · intro m hm
    rcases List.mem_append.mp hm with hm | hm
    · exact h.bounds m (List.mem_append_left _ hm)
    · rcases List.mem_cons.mp hm with rfl | hm
      · exact ⟨hpos, hlt⟩
      · exact h.bounds m (List.mem_append_right _ hm)
  · intro m hm
    rcases List.mem_append.mp hm with hm | hm
    · exact h.sound m (List.mem_append_left _ hm)
    · rcases List.mem_cons.mp hm with rfl | hm
      · exact hn
      · exact h.sound m (List.mem_append_right _ hm)

/-- The largest extent may be out of the tree already. -/
structure LargestOk (recd : ℕ → Recorded) (ei : ExtentInfo) : Prop where
  sound : Sound recd ei
  fits : ei.stop < 2 ^ 32

lemma Work.tryUpdateLargest_ok (h : LargestOk recd w.largest) (hei : LargestOk recd ei) :
    LargestOk recd (w.tryUpdateLargest ei).largest := by
  unfold Work.tryUpdateLargest
  split_ifs
  · exact hei
  · exact h

/-! ## The walk -/

/-- What the walk leaves. -/
structure Walked (recd : ℕ → Recorded) (pos stop : ℕ) (x : Walk) : Prop where
  nodes : NodesOk recd (x.before ++ x.rest)
  before : ∀ n ∈ x.before, n.ei.stop ≤ pos
  rest : ∀ n ∈ x.rest, stop ≤ n.ei.fofs
  largest : LargestOk recd x.w.largest

/-- The two records differ in the range only. -/
def SameOff (recd recd' : ℕ → Recorded) (pos stop : ℕ) : Prop :=
  ∀ ofs, ofs < pos ∨ stop ≤ ofs → recd' ofs = recd ofs

lemma Sound.off (h : Sound recd ei) (hoff : SameOff recd recd' pos stop)
    (hdisj : ei.stop ≤ pos ∨ stop ≤ ei.fofs) : Sound recd' ei := by
  refine h.congr fun ofs hofs => hoff ofs ?_
  rw [ExtentInfo.has_iff] at hofs
  omega

/-- **The walk leaves nothing in the range.**  The nodes from `en` on have not been looked at yet, so
they are sound for the old record. -/
lemma invalidateNodes_walked (hoff : SameOff recd recd' pos stop) (hlt : pos < stop) {prev : Bool}
    {deiLen : ℕ} (hb : NodesOk recd' before) (hbpos : ∀ n ∈ before, n.ei.stop ≤ pos)
    (hr : NodesOk recd rest) (hrpos : ∀ n ∈ rest, pos < n.ei.stop)
    (hbr : ∀ a ∈ before, ∀ b ∈ rest, a.ei.stop ≤ b.ei.fofs) (hl : LargestOk recd' w.largest) :
    Walked recd' pos stop (invalidateNodes ino pos stop alloc before rest prev deiLen w) := by
  -- Nodes that start behind the range are as they were.
  have hbehind : ∀ {rest : List ExtentNode}, NodesOk recd rest →
      (∀ n ∈ rest, stop ≤ n.ei.fofs) → NodesOk recd' rest := by
    intro rest hr hstop
    exact hr.congr fun n hn => (hr.sound n hn).off hoff (Or.inr (hstop n hn))
  have happend : ∀ {before rest : List ExtentNode}, NodesOk recd' before → NodesOk recd' rest →
      (∀ a ∈ before, ∀ b ∈ rest, a.ei.stop ≤ b.ei.fofs) → NodesOk recd' (before ++ rest) := by
    intro before rest hb hr hbr
    refine ⟨List.pairwise_append.mpr ⟨hb.sorted, hr.sorted, hbr⟩, fun n hn => ?_, fun n hn => ?_⟩
    · exact (List.mem_append.mp hn).elim (hb.bounds n) (hr.bounds n)
    · exact (List.mem_append.mp hn).elim (hb.sound n) (hr.sound n)
  induction rest generalizing before prev deiLen w with
  | nil =>
      rw [invalidateNodes]
      exact ⟨by simpa using hb, hbpos, by simp, hl⟩
  | cons en rest ih =>
      have hrest : NodesOk recd rest := hr.sublist (List.sublist_cons_self en rest)
      have henrest : ∀ b ∈ rest, en.ei.stop ≤ b.ei.fofs := (List.pairwise_cons.mp hr.sorted).1
      obtain ⟨henlen, henlt⟩ := hr.bounds en List.mem_cons_self
      have hensound := hr.sound en List.mem_cons_self
      have henpos := hrpos en List.mem_cons_self
      have hrestpos : ∀ n ∈ rest, pos < n.ei.stop :=
        fun n hn => hrpos n (List.mem_cons_of_mem en hn)
      have hbrest : ∀ a ∈ before, ∀ b ∈ rest, a.ei.stop ≤ b.ei.fofs :=
        fun a ha b hb => hbr a ha b (List.mem_cons_of_mem en hb)
      simp only [invalidateNodes]
      by_cases hin : en.ei.fofs < stop
      · rw [if_pos hin]
        -- The left part.
        have hcutL : en.ei.fofs < pos → NodesOk recd' (before ++ [⟨en.id, en.ei.cutLeft pos⟩]) ∧
            (∀ n ∈ before ++ [⟨en.id, en.ei.cutLeft pos⟩], n.ei.stop ≤ pos) ∧
            LargestOk recd' (en.ei.cutLeft pos) := by
          intro hleft
          have hstop : (en.ei.cutLeft pos).stop = pos := by
            simp only [ExtentInfo.stop, ExtentInfo.cutLeft]
            omega
          have hsound : Sound recd' (en.ei.cutLeft pos) :=
            (hensound.cutLeft henpos.le).off hoff (Or.inl hstop.le)
          have hfits : (en.ei.cutLeft pos).stop < 2 ^ 32 := by
            rw [hstop]
            omega
          refine ⟨NodesOk.place (by simpa using hb) ?_ hfits hsound ?_ (by simp), ?_, hsound, hfits⟩
          · simp only [ExtentInfo.cutLeft]
            omega
          · exact fun b hmem => hbr b hmem en List.mem_cons_self
          · intro n hn
            rcases List.mem_append.mp hn with hn | hn
            · exact hbpos n hn
            · rw [List.mem_singleton.mp hn]
              exact hstop.le
        -- The right part.
        have hcutR : stop < en.ei.stop → (en.ei.cutRight stop).stop = en.ei.stop ∧
            LargestOk recd' (en.ei.cutRight stop) := by
          intro hright
          have hstop : (en.ei.cutRight stop).stop = en.ei.stop := by
            simp only [ExtentInfo.stop, ExtentInfo.cutRight] at hright ⊢
            omega
          exact ⟨hstop, (hensound.cutRight hin.le hright.le).off hoff (Or.inr le_rfl),
            hstop.trans_lt henlt⟩
        have hbehindRest : stop < en.ei.stop → ∀ n ∈ rest, stop ≤ n.ei.fofs :=
          fun hright n hn => hright.le.trans (henrest n hn)
        have hplace : ∀ (B : List ExtentNode) (id : ℕ), NodesOk recd' B →
            (∀ b ∈ B, b.ei.stop ≤ stop) → stop < en.ei.stop →
            NodesOk recd' (B ++ ⟨id, en.ei.cutRight stop⟩ :: rest) := by
          intro B id hB hBstop hright
          obtain ⟨hstop, hsound⟩ := hcutR hright
          refine NodesOk.place (happend hB (hbehind hrest (hbehindRest hright)) ?_) ?_ ?_ hsound.sound
            hBstop ?_
          · exact fun a ha b hmem => (hBstop a ha).trans (hbehindRest hright b hmem)
          · simp only [ExtentInfo.cutRight]
            omega
          · rwa [hstop]
          · intro r hmem
            rw [hstop]
            exact henrest r hmem
        have hrestR : stop < en.ei.stop → ∀ (id : ℕ),
            ∀ n ∈ (⟨id, en.ei.cutRight stop⟩ : ExtentNode) :: rest, stop ≤ n.ei.fofs := by
          intro hright id n hn
          rcases List.mem_cons.mp hn with rfl | hn
          · exact le_rfl
          · exact hbehindRest hright n hn
        split_ifs with hleft hright hright
        · simp only [Bool.and_eq_true, decide_eq_true_eq] at hleft hright
          obtain ⟨hBok, hBpos, hsoundL⟩ := hcutL hleft.1
          obtain ⟨-, hsoundR⟩ := hcutR hright.1.1
          refine ⟨?_, hBpos, hrestR hright.1.1 _, ?_⟩
          · exact hplace _ _ hBok (fun b hmem => (hBpos b hmem).trans hlt.le) hright.1.1
          · exact Work.tryUpdateLargest_ok (Work.tryUpdateLargest_ok hl hsoundR) hsoundL
        · simp only [Bool.and_eq_true, decide_eq_true_eq] at hleft
          obtain ⟨hBok, hBpos, hsoundL⟩ := hcutL hleft.1
          refine ih hBok hBpos hrest hrestpos (fun a ha b hmem => ?_)
            (Work.tryUpdateLargest_ok hl hsoundL)
          exact (hBpos a ha).trans (henpos.le.trans (henrest b hmem))
        · simp only [Bool.and_eq_true, decide_eq_true_eq] at hright
          obtain ⟨-, hsoundR⟩ := hcutR hright.1
          refine ⟨?_, hbpos, hrestR hright.1 _, Work.tryUpdateLargest_ok hl hsoundR⟩
          exact hplace _ _ hb (fun b hmem => (hbpos b hmem).trans hlt.le) hright.1
        · exact ih hb hbpos hrest hrestpos hbrest hl
      · rw [if_neg hin]
        have hstop : ∀ n ∈ en :: rest, stop ≤ n.ei.fofs := by
          intro n hn
          rcases List.mem_cons.mp hn with rfl | hn
          · omega
          · have hle := henrest n hn
            rw [ExtentInfo.stop] at hle
            omega
        exact ⟨happend hb (hbehind hr hstop) hbr, hbpos, hstop, hl⟩

/-! ## Lookups -/

lemma lookupFast_spec {cachedEn : Option ℕ} {en : ExtentNode}
    (h : lookupFast nodes cachedEn ofs = some en) : en ∈ nodes ∧ en.ei.has ofs = true := by
  obtain ⟨id, -, hfind⟩ := Option.bind_eq_some_iff.mp h
  have hp := List.find?_some hfind
  simp only [Bool.and_eq_true] at hp
  exact ⟨List.mem_of_find?_eq_some hfind, hp.2⟩

/-- **The nodes before end before the offset, and the others do not.** -/
lemma lookupRet_spec (h : NodesOk recd nodes) (hids : (nodes.map ExtentNode.id).Nodup)
    (cachedEn : Option ℕ) (ofs : ℕ) :
    (lookupRet nodes cachedEn ofs).1 ++ (lookupRet nodes cachedEn ofs).2 = nodes ∧
      (∀ n ∈ (lookupRet nodes cachedEn ofs).1, n.ei.stop ≤ ofs) ∧
      ∀ n ∈ (lookupRet nodes cachedEn ofs).2, ofs < n.ei.stop := by
  -- From a node that ends after the offset on, all do.
  have hafter : ∀ {en : ExtentNode} {rest : List ExtentNode}, NodesOk recd (en :: rest) →
      ofs < en.ei.stop → ∀ n ∈ en :: rest, ofs < n.ei.stop := by
    intro en rest hr hen n hn
    rcases List.mem_cons.mp hn with rfl | hn
    · exact hen
    · have hle := (List.pairwise_cons.mp hr.sorted).1 n hn
      exact (hen.trans_le hle).trans_le (Nat.le_add_right _ _)
  unfold lookupRet
  cases hfast : lookupFast nodes cachedEn ofs with
  | some en =>
      obtain ⟨hmem, hhas⟩ := lookupFast_spec hfast
      rw [ExtentInfo.has_iff] at hhas
      refine ⟨List.takeWhile_append_dropWhile, ?_⟩
      obtain ⟨A, B, rfl⟩ := List.append_of_mem hmem
      have hA : ∀ a ∈ A, (a.id != en.id) = true := by
        intro a ha
        rw [List.map_append, List.nodup_append] at hids
        exact bne_iff_ne.mpr
          (hids.2.2 a.id (List.mem_map_of_mem ha) en.id (by simp))
      obtain ⟨-, -, hAen⟩ := List.pairwise_append.mp h.sorted
      simp only [List.takeWhile_append_of_pos hA, List.dropWhile_append_of_pos hA]
      simp only [List.takeWhile_cons, List.dropWhile_cons, bne_self_eq_false, Bool.false_eq_true,
        if_false, List.append_nil]
      refine ⟨fun n hn => (hAen n hn en List.mem_cons_self).trans hhas.1, ?_⟩
      exact hafter (h.sublist (List.sublist_append_right A _)) hhas.2
  | none =>
      refine ⟨List.takeWhile_append_dropWhile, fun n hn => ?_, ?_⟩
      · simpa using List.mem_takeWhile_imp hn
      · set p := fun n : ExtentNode => decide (n.ei.stop ≤ ofs) with hp
        change ∀ n ∈ nodes.dropWhile p, _
        have hok : NodesOk recd (nodes.dropWhile p) := h.sublist (List.dropWhile_sublist p)
        have hhead := List.head?_dropWhile_not p nodes
        cases hd : nodes.dropWhile p with
        | nil => simp
        | cons en rest =>
            rw [hd] at hok hhead
            exact hafter hok (by simpa [hp] using hhead)

/-! ## The merge -/

lemma mergeBack_spec {x : Walk} (h : mergeBack x ei = some n) :
    (∃ B, x.before = B ++ [n]) ∧ isExtentMergeable n.ei ei = true := by
  obtain ⟨hmem, hp⟩ := Option.filter_eq_some_iff.mp h
  split_ifs at hmem
  obtain ⟨B, hB⟩ := List.getLast?_eq_some_iff.mp hmem
  exact ⟨⟨B, hB⟩, hp⟩

lemma mergeFront_spec (h : mergeFront rest ei = some n) :
    (∃ R, rest = n :: R) ∧ isExtentMergeable ei n.ei = true := by
  obtain ⟨hmem, hp⟩ := Option.filter_eq_some_iff.mp h
  exact ⟨List.head?_eq_some_iff.mp hmem, hp⟩

lemma ExtentInfo.join_stop (h : isExtentMergeable back front = true) :
    (back.join front).stop = front.stop := by
  have hofs := (isExtentMergeable_iff.mp h).1
  simp only [ExtentInfo.stop, ExtentInfo.join] at hofs ⊢
  omega

/-- **The range is in the tree now**, by itself or with its neighbours; only a node that could not be
allocated is missing. -/
lemma mergeOrInsert_nodesOk {x : Walk} (ino : ℕ) (alloc : Bool) (hei : Sound recd ei)
    (hx : Walked recd ei.fofs ei.stop x) (hpos : 0 < ei.len) (hlt : ei.stop < 2 ^ 32) :
    NodesOk recd (mergeOrInsert ino ei alloc x).1 ∧
      LargestOk recd (mergeOrInsert ino ei alloc x).2.largest := by
  have hnode : ∀ n ∈ x.before ++ x.rest, Sound recd n.ei ∧ n.ei.stop < 2 ^ 32 :=
    fun n hn => ⟨hx.nodes.sound n hn, (hx.nodes.bounds n hn).2⟩
  obtain ⟨hsb, hsr, hbr⟩ := List.pairwise_append.mp hx.nodes.sorted
  unfold mergeOrInsert
  cases hback : mergeBack x ei with
  | some prev =>
      obtain ⟨⟨B, hB⟩, hmb⟩ := mergeBack_spec hback
      obtain ⟨hprev, -⟩ := hnode prev (by simp [hB])
      have hmerged := hprev.join hei hmb
      have hmstop := ExtentInfo.join_stop hmb
      have hBprev : ∀ b ∈ B, b.ei.stop ≤ prev.ei.fofs := by
        rw [hB] at hsb
        exact fun b hb => (List.pairwise_append.mp hsb).2.2 b hb prev (by simp)
      simp only [hB, List.dropLast_concat]
      cases hfront : mergeFront x.rest (prev.ei.join ei) with
      | some next =>
          obtain ⟨⟨R, hR⟩, hmf⟩ := mergeFront_spec hfront
          obtain ⟨hnext, hnextlt⟩ := hnode next (by simp [hR])
          have hjoin := hmerged.join hnext hmf
          have hjstop := ExtentInfo.join_stop hmf
          simp only [hR, List.tail_cons]
          refine ⟨NodesOk.place (hx.nodes.sublist ?_) ?_ ?_ hjoin hBprev fun r hr => ?_,
            Work.tryUpdateLargest_ok hx.largest ⟨hjoin, hjstop.trans_lt hnextlt⟩⟩
          · rw [hB, hR]
            exact (List.sublist_append_left B _).append (List.sublist_cons_self next R)
          · simp only [ExtentInfo.join]
            omega
          · rwa [hjstop]
          · rw [hjstop]
            rw [hR] at hsr
            exact (List.pairwise_cons.mp hsr).1 r hr
      | none =>
          refine ⟨NodesOk.place (hx.nodes.sublist ?_) ?_ ?_ hmerged hBprev fun r hr => ?_,
            Work.tryUpdateLargest_ok hx.largest ⟨hmerged, hmstop.trans_lt hlt⟩⟩
          · rw [hB]
            exact (List.sublist_append_left B _).append (List.Sublist.refl _)
          · simp only [ExtentInfo.join]
            omega
          · rwa [hmstop]
          · rw [hmstop]
            exact hx.rest r hr
  | none =>
      cases hfront : mergeFront x.rest ei with
      | some next =>
          obtain ⟨⟨R, hR⟩, hmf⟩ := mergeFront_spec hfront
          obtain ⟨hnext, hnextlt⟩ := hnode next (by simp [hR])
          have hjoin := hei.join hnext hmf
          have hjstop := ExtentInfo.join_stop hmf
          simp only [hR, List.tail_cons]
          refine ⟨NodesOk.place (hx.nodes.sublist ?_) ?_ ?_ hjoin hx.before fun r hr => ?_,
            Work.tryUpdateLargest_ok hx.largest ⟨hjoin, hjstop.trans_lt hnextlt⟩⟩
          · rw [hR]
            exact (List.Sublist.refl _).append (List.sublist_cons_self next R)
          · simp only [ExtentInfo.join]
            omega
          · rwa [hjstop]
          · rw [hjstop]
            rw [hR] at hsr
            exact (List.pairwise_cons.mp hsr).1 r hr
      | none =>
          simp only []
          split_ifs
          · exact ⟨hx.nodes.place hpos hlt hei hx.before hx.rest,
              Work.tryUpdateLargest_ok hx.largest ⟨hei, hlt⟩⟩
          · exact ⟨hx.nodes, hx.largest⟩

/-! ## The update -/

/-- After a drop the largest extent gives nothing of the range away. -/
lemma Work.dropLargest_ok (h : LargestOk recd w.largest)
    (hoff : SameOff recd recd' fofs (fofs + len)) :
    LargestOk recd' (w.dropLargest fofs len).largest := by
  unfold Work.dropLargest
  split_ifs with hmeet
  · refine ⟨sound_of_empty rfl, ?_⟩
    exact (Nat.le_add_right _ _).trans_lt h.fits
  · refine ⟨h.sound.congr fun ofs hofs => hoff ofs ?_, h.fits⟩
    rw [ExtentInfo.has_iff] at hofs
    omega

/-- `__drop_largest_extent(inode, 0, UINT_MAX)`. -/
lemma Work.dropLargest_all (recd' : ℕ → Recorded) (h : LargestOk recd w.largest) :
    (w.dropLargest 0 (2 ^ 32 - 1)).largest.len = 0 ∧
      LargestOk recd' (w.dropLargest 0 (2 ^ 32 - 1)).largest := by
  have hfits := h.fits
  unfold Work.dropLargest
  split_ifs with hmeet
  · exact ⟨rfl, sound_of_empty rfl, (Nat.le_add_right _ _).trans_lt hfits⟩
  · have hlen : w.largest.len = 0 := by
      simp only [ExtentInfo.stop] at hmeet hfits
      omega
    exact ⟨hlen, sound_of_empty hlen, hfits⟩

@[simp] lemma Work.freeNodes_largest (w : Work) (ino : ℕ) (nodes : List ExtentNode) :
    (w.freeNodes ino nodes).largest = w.largest := by
  unfold Work.freeNodes
  induction nodes generalizing w with
  | nil => rfl
  | cons n nodes ih => exact ih _

/-- **What `f2fs_update_extent_tree_range` leaves is sound for the new record.** -/
lemma updateRange_nodesOk {blkaddr : BitVec 32} (ino : ℕ) (alloc₁ alloc₂ : Bool)
    (h : NodesOk recd nodes) (hids : (nodes.map ExtentNode.id).Nodup) (hl : LargestOk recd w.largest)
    (hoff : SameOff recd recd' fofs (fofs + len))
    (hin : blkaddr ≠ 0 → Sound recd' ⟨fofs, len, blkaddr⟩) (hpos : 0 < len)
    (hlt : fofs + len < 2 ^ 32) :
    NodesOk recd' (updateRange ino nodes w fofs blkaddr len alloc₁ alloc₂).1 ∧
      LargestOk recd' (updateRange ino nodes w fofs blkaddr len alloc₁ alloc₂).2.1.largest ∧
      ((updateRange ino nodes w fofs blkaddr len alloc₁ alloc₂).2.2 = true →
        (updateRange ino nodes w fofs blkaddr len alloc₁ alloc₂).1 = [] ∧
          (updateRange ino nodes w fofs blkaddr len alloc₁ alloc₂).2.1.largest.len = 0) := by
  obtain ⟨heq, hbefore, hrest⟩ := lookupRet_spec h hids w.cachedEn fofs
  set found := lookupRet nodes w.cachedEn fofs with hfound
  have hall : NodesOk recd (found.1 ++ found.2) := heq ▸ h
  set x := invalidateNodes ino fofs (fofs + len) alloc₁ found.1 found.2 (knowsPrev found.2 fofs) 0
    (w.dropLargest fofs len) with hx
  have hwalked : Walked recd' fofs (fofs + len) x := by
    have hfirst := hall.sublist (List.sublist_append_left _ _)
    refine invalidateNodes_walked hoff (by omega) ?_ hbefore
      (hall.sublist (List.sublist_append_right _ _)) hrest
      (List.pairwise_append.mp hall.sorted).2.2 (Work.dropLargest_ok hl hoff)
    exact hfirst.congr fun n hn => (hfirst.sound n hn).off hoff (Or.inl (hbefore n hn))
  unfold updateRange
  simp only [← hfound, ← hx]
  split_ifs with hblk hgive
  · exact ⟨hwalked.nodes, hwalked.largest, by simp⟩
  · obtain ⟨-, hlargest⟩ := mergeOrInsert_nodesOk ino alloc₂ (hin hblk) hwalked hpos hlt
    obtain ⟨hzero, hok⟩ := Work.dropLargest_all recd' hlargest
    exact ⟨nodesOk_nil, by simpa using hok, fun _ => ⟨rfl, by simpa using hzero⟩⟩
  · obtain ⟨hok, hlargest⟩ := mergeOrInsert_nodesOk ino alloc₂ (hin hblk) hwalked hpos hlt
    exact ⟨hok, hlargest, by simp⟩

end Hoit.Extent
