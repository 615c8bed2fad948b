import HoitF2fs.Segment.Manager

/-!
# The tree of discard commands

The commands that wait for their discard, and those that are under way, are kept in a tree by the
block they start at.  A new discard fills the gaps between them, and is merged with a command next
to it if that has not been submitted; a block that is about to be written is cut out of the command
that covers it.

* `updateDiscardTreeRange`, `waitDiscardBio` — `__update_discard_tree_range` and
  `f2fs_wait_discard_bio`.  The tree is the list of its commands in order, and a place in it is a
  cut of that list.
* `DiscardTree` — the invariant: **the commands are apart, each stays on one device, and those that
  are not done avoid certain blocks**.
* `DiscardTree.update`, `DiscardTree.wait` — the two operations.
-/

namespace Hoit.Segment

/-! ## Commands and devices -/

inductive DiscardState where
  | prep
  | submit
  | done
deriving DecidableEq

/-- `struct discard_cmd`. -/
structure DiscardCmd where
  lstart : ℕ
  len : ℕ
  /-- The address of the first block on its device. -/
  start : ℕ
  bdev : ℕ
  state : DiscardState
  ref : ℕ
deriving DecidableEq

def DiscardCmd.stop (dc : DiscardCmd) : ℕ := dc.lstart + dc.len

def DiscardCmd.Covers (dc : DiscardCmd) (blk : ℕ) : Prop := dc.lstart ≤ blk ∧ blk < dc.stop

instance (dc : DiscardCmd) (blk : ℕ) : Decidable (dc.Covers blk) :=
  inferInstanceAs (Decidable (_ ∧ _))

/-- The devices of the file system, `s_bdev` the first one.  Blocks are counted from the start of the
MAIN area. -/
structure BlockDevs where
  mainBlkaddr : ℕ
  ndevs : ℕ
  startBlk : ℕ → ℕ
  endBlk : ℕ → ℕ
  first : startBlk 0 = 0

variable (devs : BlockDevs)

/-- `f2fs_target_device_index`. -/
def BlockDevs.bdev (blk : ℕ) : ℕ :=
  ((List.range devs.ndevs).find? fun i =>
    decide (devs.startBlk i ≤ devs.mainBlkaddr + blk)
      && decide (devs.mainBlkaddr + blk ≤ devs.endBlk i)).getD 0

/-- The address of a block on its device, as `__queue_discard_cmd` computes it. -/
def BlockDevs.addr (blk : ℕ) : ℕ :=
  if devs.ndevs = 0 then devs.mainBlkaddr + blk
  else devs.mainBlkaddr + blk - devs.startBlk (devs.bdev blk)

/-! ## `__update_discard_tree_range` -/

/-- `struct discard_info`. -/
structure DiscardInfo where
  lstart : ℕ
  len : ℕ
  start : ℕ

def DiscardCmd.di (dc : DiscardCmd) : DiscardInfo := ⟨dc.lstart, dc.len, dc.start⟩

/-- `__is_discard_mergeable`, with `DEF_MAX_DISCARD_LEN`. -/
def mergeable (back front : DiscardInfo) : Prop :=
  back.lstart + back.len = front.lstart ∧ back.len + front.len < 512

instance (back front : DiscardInfo) : Decidable (mergeable back front) :=
  inferInstanceAs (Decidable (_ ∧ _))

/-- The part of the range between two commands; `none` when the loop is over. -/
def nextGap (lstart start len : ℕ) (prev next : Option DiscardCmd) : Option DiscardInfo :=
  match prev with
  | none => some ⟨lstart, min (next.elim len fun q => q.lstart - lstart) len, start⟩
  | some p =>
      let l := max p.stop lstart
      if lstart + len ≤ l then none
      else
        some
          { lstart := l
            len := next.elim (lstart + len - l) fun q =>
              if lstart + len < q.lstart then lstart + len - l else q.lstart - l
            start := start + l - lstart }

/-- The command before the gap grows, if it can: that command and those before it. -/
def backMerge (bdev : ℕ) (di : DiscardInfo) : List DiscardCmd → Option (DiscardCmd × List DiscardCmd)
  | [] => none
  | p :: left =>
      if p.state = .prep ∧ p.bdev = bdev ∧ mergeable p.di di then
        some ({ p with len := p.len + di.len }, left)
      else none

/-- One round of the loop: the commands up to the next one, that included, the last one first. -/
def fillGap (bdev : ℕ) (left : List DiscardCmd) (next : Option DiscardCmd) (di : DiscardInfo) :
    List DiscardCmd :=
  if di.len = 0 then next.toList ++ left
  else
    let back := backMerge bdev di left
    let cur := back.elim di fun x => x.1.di
    let alone := next.toList ++ back.elim
      (⟨di.lstart, di.len, di.start, bdev, .prep, 0⟩ :: left) fun x => x.1 :: x.2
    match next with
    | some q =>
        if q.state = .prep ∧ q.bdev = bdev ∧ mergeable cur q.di then
          { q with lstart := cur.lstart, len := q.len + cur.len, start := cur.start }
            :: back.elim left fun x => x.2
        else alone
    | none => alone

/-- The loop; `left` has the commands up to `prev_dc`, the last one first. -/
def updateLoop (bdev lstart start len : ℕ) (left : List DiscardCmd) :
    List DiscardCmd → List DiscardCmd
  | [] =>
      match nextGap lstart start len left.head? none with
      | none => left.reverse
      | some di => (fillGap bdev left none di).reverse
  | q :: rest =>
      match nextGap lstart start len left.head? (some q) with
      | none => left.reverse ++ q :: rest
      | some di => updateLoop bdev lstart start len (fillGap bdev left (some q) di) rest

/-- `__update_discard_tree_range`. -/
def updateDiscardTreeRange (bdev lstart start len : ℕ) (cmds : List DiscardCmd) :
    List DiscardCmd :=
  updateLoop bdev lstart start len (cmds.takeWhile fun dc => dc.lstart ≤ lstart).reverse
    (cmds.dropWhile fun dc => dc.lstart ≤ lstart)

/-! ## One command of the tree -/

/-- What becomes of the first command that is meant; `none` if it has to be waited for. -/
def replaceFirst (p : DiscardCmd → Bool) (f : DiscardCmd → Option (List DiscardCmd)) :
    List DiscardCmd → Option (List DiscardCmd)
  | [] => some []
  | dc :: cmds =>
      if p dc then (f dc).map (· ++ cmds) else (replaceFirst p f cmds).map (dc :: ·)

/-- `__punch_discard_cmd`. -/
def punchDiscardCmd (blk : ℕ) (dc : DiscardCmd) : List DiscardCmd :=
  if dc.state = .done ∨ dc.len = 1 then []
  else
    let after : DiscardCmd :=
      ⟨blk + 1, dc.lstart + dc.len - 1 - blk, dc.start + blk + 1 - dc.lstart, dc.bdev, .prep, 0⟩
    if dc.lstart < blk then
      { dc with len := blk - dc.lstart }
        :: if blk < dc.lstart + dc.len - 1 then [after] else []
    else if blk < dc.lstart + dc.len - 1 then
      [{ dc with lstart := dc.lstart + 1, len := dc.len - 1, start := dc.start + 1 }]
    else [dc]

/-- The end of `__wait_one_discard_bio`, and with it of one reference to the command. -/
def putDiscardCmd (dc : DiscardCmd) : List DiscardCmd :=
  if dc.ref - 1 = 0 then [] else [{ dc with ref := dc.ref - 1 }]

/-- `__submit_discard_cmd`; `ok` is whether the device takes the discard. -/
def submitDiscardCmd (ok : Bool) (dc : DiscardCmd) : List DiscardCmd :=
  if dc.state ≠ .prep then [dc]
  else if ok then [{ dc with state := .submit }]
  else []

/-- What `__wait_discard_cmd_range` does to a command on its list: it is removed, or held until it is
done. -/
def holdDiscardCmd (dc : DiscardCmd) : List DiscardCmd :=
  if dc.state = .done ∧ dc.ref = 0 then [] else [{ dc with ref := dc.ref + 1 }]

/-- What becomes of a command of its own accord. -/
inductive CmdEvent where
  | submit (ok : Bool)
  /-- `f2fs_submit_discard_endio`. -/
  | endio
  /-- `__wait_discard_cmd_range`. -/
  | hold
  /-- `__wait_one_discard_bio`. -/
  | put

/-- `none` if the event is not due. -/
def cmdEvent (dc : DiscardCmd) : CmdEvent → Option (List DiscardCmd)
  | .submit ok => some (submitDiscardCmd ok dc)
  | .endio => if dc.state = .submit then some [{ dc with state := .done }] else none
  | .hold => if dc.state ≠ .prep then some (holdDiscardCmd dc) else none
  | .put => if dc.state = .done ∧ 0 < dc.ref then some (putDiscardCmd dc) else none

/-- An event of the command that starts at `lstart`. -/
def oneDiscardCmd (lstart : ℕ) (e : CmdEvent) (cmds : List DiscardCmd) : Option (List DiscardCmd) :=
  replaceFirst (fun dc => dc.lstart == lstart) (fun dc => cmdEvent dc e) cmds

/-- `__drop_discard_cmd`. -/
def dropDiscardCmd (cmds : List DiscardCmd) : List DiscardCmd :=
  cmds.filter fun dc => decide (dc.state ≠ .prep)

/-- `f2fs_wait_discard_bio`: nothing else happens to the table while it waits. -/
def waitDiscardBio (blk : ℕ) (cmds : List DiscardCmd) : Option (List DiscardCmd) :=
  replaceFirst (fun dc => decide (dc.Covers blk))
    (fun dc =>
      match dc.state with
      | .prep => some (punchDiscardCmd blk dc)
      | .submit => none
      | .done => some (putDiscardCmd { dc with ref := dc.ref + 1 })) cmds

/-! ## The invariant -/

variable {devs} {bad bad' : ℕ → Prop} {dc : DiscardCmd} {cmds cmds' left rest : List DiscardCmd}

lemma bdev_le {blk : ℕ} : devs.startBlk (devs.bdev blk) ≤ devs.mainBlkaddr + blk := by
  unfold BlockDevs.bdev
  cases hfind : (List.range devs.ndevs).find? fun i =>
    decide (devs.startBlk i ≤ devs.mainBlkaddr + blk)
      && decide (devs.mainBlkaddr + blk ≤ devs.endBlk i) with
  | none =>
      rw [Option.getD_none, devs.first]
      exact Nat.zero_le _
  | some i =>
      have hi := List.find?_some hfind
      simp only [Bool.and_eq_true, decide_eq_true_eq] at hi
      exact hi.1

/-- Blocks that follow one another on a device. -/
lemma addr_add {b k : ℕ} (h : devs.bdev (b + k) = devs.bdev b) :
    devs.addr (b + k) = devs.addr b + k := by
  have hle := @bdev_le devs b
  unfold BlockDevs.addr
  split_ifs
  · omega
  · rw [h]
    omega

/-- A command on one device; if it is not done it avoids the blocks that are `bad`. -/
structure DiscardCmd.Right (devs : BlockDevs) (bad : ℕ → Prop) (dc : DiscardCmd) : Prop where
  pos : 0 < dc.len
  start : dc.start = devs.addr dc.lstart
  onDev : ∀ b, dc.Covers b → devs.bdev b = dc.bdev
  safe : dc.state ≠ .done → ∀ b, dc.Covers b → ¬ bad b

structure DiscardTree (devs : BlockDevs) (bad : ℕ → Prop) (cmds : List DiscardCmd) : Prop where
  apart : cmds.Pairwise fun a b => a.stop ≤ b.lstart
  right : ∀ dc ∈ cmds, dc.Right devs bad

lemma DiscardCmd.Right.mono (h : dc.Right devs bad)
    (hbad : ∀ b, dc.Covers b → bad' b → bad b) : dc.Right devs bad' :=
  ⟨h.pos, h.start, h.onDev, fun hs b hb hb' => h.safe hs b hb (hbad b hb hb')⟩

/-- A part of a command that is not done. -/
lemma DiscardCmd.Right.part {c : DiscardCmd} (h : dc.Right devs bad) (hdone : dc.state ≠ .done)
    (hpos : 0 < c.len) (hlow : dc.lstart ≤ c.lstart) (hstop : c.stop ≤ dc.stop)
    (hdev : c.bdev = dc.bdev) (hstart : c.start = dc.start + (c.lstart - dc.lstart)) :
    c.Right devs bad := by
  have hin : ∀ b, c.Covers b → dc.Covers b := fun b hb =>
    ⟨hlow.trans hb.1, lt_of_lt_of_le hb.2 hstop⟩
  have hfirst : c.Covers c.lstart := ⟨le_rfl, Nat.lt_add_of_pos_right hpos⟩
  have hown : dc.Covers dc.lstart := ⟨le_rfl, Nat.lt_add_of_pos_right h.pos⟩
  refine ⟨hpos, ?_, fun b hb => (h.onDev b (hin b hb)).trans hdev.symm,
    fun _ b hb => h.safe hdone b (hin b hb)⟩
  have hsum : dc.lstart + (c.lstart - dc.lstart) = c.lstart := by omega
  have hadd := @addr_add devs dc.lstart (c.lstart - dc.lstart)
    (by rw [hsum, h.onDev _ (hin _ hfirst), h.onDev _ hown])
  rw [hstart, h.start, ← hadd, hsum]

/-- Two commands next to each other make one. -/
lemma DiscardCmd.Right.join {a b c : DiscardCmd} (ha : a.Right devs bad) (hb : b.Right devs bad)
    (hstop : a.stop = b.lstart) (hdev : a.bdev = b.bdev) (hsa : a.state ≠ .done)
    (hsb : b.state ≠ .done) (hlstart : c.lstart = a.lstart) (hlen : c.len = a.len + b.len)
    (hstart : c.start = a.start) (hcdev : c.bdev = a.bdev) : c.Right devs bad := by
  have hcov : ∀ x, c.Covers x → a.Covers x ∨ b.Covers x := by
    intro x hx
    simp only [DiscardCmd.Covers, DiscardCmd.stop] at hx hstop ⊢
    omega
  have hpos := ha.pos
  refine ⟨by omega, by rw [hstart, hlstart, ha.start], fun x hx => ?_, fun _ x hx => ?_⟩
  · rcases hcov x hx with hx | hx
    · rw [ha.onDev x hx, hcdev]
    · rw [hb.onDev x hx, hcdev, hdev]
  · rcases hcov x hx with hx | hx
    · exact ha.safe hsa x hx
    · exact hb.safe hsb x hx

/-! ## The table -/

lemma DiscardTree.mono (h : DiscardTree devs bad cmds)
    (hbad : ∀ dc ∈ cmds, ∀ b, dc.Covers b → bad' b → bad b) : DiscardTree devs bad' cmds :=
  ⟨h.apart, fun dc hdc => (h.right dc hdc).mono (hbad dc hdc)⟩

/-- A new command between two others. -/
lemma DiscardTree.insert {c : DiscardCmd} (h : DiscardTree devs bad (left ++ rest))
    (hc : c.Right devs bad) (hleft : ∀ a ∈ left, a.stop ≤ c.lstart)
    (hrest : ∀ b ∈ rest, c.stop ≤ b.lstart) : DiscardTree devs bad (left ++ c :: rest) := by
  obtain ⟨hl, hr, hlr⟩ := List.pairwise_append.mp h.apart
  refine ⟨List.pairwise_append.mpr ⟨hl, List.pairwise_cons.mpr ⟨hrest, hr⟩, ?_⟩, ?_⟩
  · intro a ha b hb
    rcases List.mem_cons.mp hb with rfl | hb
    · exact hleft a ha
    · exact hlr a ha b hb
  · intro dc hdc
    rcases List.mem_append.mp hdc with hdc | hdc
    · exact h.right dc (List.mem_append_left _ hdc)
    · rcases List.mem_cons.mp hdc with rfl | hdc
      · exact hc
      · exact h.right dc (List.mem_append_right _ hdc)

/-- **Some commands are replaced by others** that do not reach further on either side. -/
lemma DiscardTree.splice (mid mid' : List DiscardCmd)
    (h : DiscardTree devs bad (left ++ (mid ++ rest)))
    (hright : ∀ c ∈ mid', c.Right devs bad)
    (hapart : mid'.Pairwise fun a b => a.stop ≤ b.lstart)
    (hlow : ∀ c ∈ mid', ∃ m ∈ mid, m.lstart ≤ c.lstart)
    (hhigh : ∀ c ∈ mid', ∃ m ∈ mid, c.stop ≤ m.stop) :
    DiscardTree devs bad (left ++ (mid' ++ rest)) := by
  obtain ⟨hl, hmr, hlmr⟩ := List.pairwise_append.mp h.apart
  obtain ⟨-, hr, hmr⟩ := List.pairwise_append.mp hmr
  refine ⟨List.pairwise_append.mpr ⟨hl, List.pairwise_append.mpr ⟨hapart, hr, ?_⟩, ?_⟩, ?_⟩
  · intro c hc b hb
    obtain ⟨m, hm, hle⟩ := hhigh c hc
    exact hle.trans (hmr m hm b hb)
  · intro a ha c hc
    rcases List.mem_append.mp hc with hc | hc
    · obtain ⟨m, hm, hle⟩ := hlow c hc
      exact (hlmr a ha m (List.mem_append_left _ hm)).trans hle
    · exact hlmr a ha c (List.mem_append_right _ hc)
  · intro dc hdc
    rcases List.mem_append.mp hdc with hdc | hdc
    · exact h.right dc (List.mem_append_left _ hdc)
    · rcases List.mem_append.mp hdc with hdc | hdc
      · exact hright dc hdc
      · exact h.right dc (List.mem_append_right _ (List.mem_append_right _ hdc))

/-- Two commands next to each other are replaced by one. -/
lemma DiscardTree.join {a b c : DiscardCmd} (h : DiscardTree devs bad (left ++ a :: b :: rest))
    (hstop : a.stop = b.lstart) (hdev : a.bdev = b.bdev) (hsa : a.state ≠ .done)
    (hsb : b.state ≠ .done) (hlstart : c.lstart = a.lstart) (hlen : c.len = a.len + b.len)
    (hstart : c.start = a.start) (hcdev : c.bdev = a.bdev) :
    DiscardTree devs bad (left ++ c :: rest) := by
  have ha := h.right a (by simp)
  have hb := h.right b (by simp)
  have hend : c.stop = b.stop := by
    simp only [DiscardCmd.stop] at hstop ⊢
    omega
  refine DiscardTree.splice [a, b] [c] h ?_ (List.pairwise_singleton _ _) ?_ ?_
  · simpa using ha.join hb hstop hdev hsa hsb hlstart hlen hstart hcdev
  · simp [hlstart]
  · simp [hend]

/-! ## A new discard -/

/-- What fills a gap, before it is merged with the command after it. -/
lemma fillBack {bdev : ℕ} {di : DiscardInfo}
    (h : DiscardTree devs bad
      (left.reverse ++ ⟨di.lstart, di.len, di.start, bdev, .prep, 0⟩ :: rest)) :
    ∃ c tail, DiscardTree devs bad (tail.reverse ++ c :: rest) ∧ c.state = .prep ∧ c.bdev = bdev ∧
      (backMerge bdev di left).elim di (fun x => x.1.di) = c.di ∧
      ((backMerge bdev di left).elim left fun x => x.2) = tail ∧
      ((backMerge bdev di left).elim (⟨di.lstart, di.len, di.start, bdev, .prep, 0⟩ :: left)
        fun x => x.1 :: x.2) = c :: tail := by
  cases left with
  | nil => exact ⟨_, [], h, rfl, rfl, rfl, rfl, rfl⟩
  | cons p tail =>
      by_cases hmerge : p.state = .prep ∧ p.bdev = bdev ∧ mergeable p.di di
      · rw [backMerge, if_pos hmerge]
        obtain ⟨hstate, hdev, hnext, -⟩ := hmerge
        refine ⟨{ p with len := p.len + di.len }, tail, ?_, hstate, hdev, rfl, rfl, rfl⟩
        rw [List.reverse_cons, List.append_assoc] at h
        exact h.join hnext hdev (by simp [hstate]) (by simp) rfl rfl rfl rfl
      · rw [backMerge, if_neg hmerge]
        exact ⟨_, p :: tail, h, rfl, rfl, rfl, rfl, rfl⟩

/-- **One round of the loop.** -/
lemma fillGap_tree {bdev : ℕ} {next : Option DiscardCmd} {di : DiscardInfo}
    (h : DiscardTree devs bad (left.reverse ++ (next.toList ++ rest)))
    (hnew : 0 < di.len →
      (⟨di.lstart, di.len, di.start, bdev, .prep, 0⟩ : DiscardCmd).Right devs bad)
    (hprev : ∀ a ∈ left, a.stop ≤ di.lstart)
    (hnext : ∀ b ∈ next.toList ++ rest, di.lstart + di.len ≤ b.lstart) :
    DiscardTree devs bad ((fillGap bdev left next di).reverse ++ rest) := by
  unfold fillGap
  split_ifs with hlen
  · cases next <;> simpa using h
  · obtain ⟨c, tail, htree, hstate, hdev, hcur, htail, halone⟩ := fillBack
      (h.insert (hnew (Nat.pos_of_ne_zero hlen)) (by simpa using hprev) hnext)
    simp only [hcur, htail, halone]
    cases next with
    | none => simpa using htree
    | some q =>
        have hkept : DiscardTree devs bad (((some q).toList ++ c :: tail).reverse ++ rest) := by
          simpa using htree
        simp only []
        split_ifs with hmerge
        · obtain ⟨hqstate, hqdev, hend, -⟩ := hmerge
          rw [List.reverse_cons, List.append_assoc]
          exact htree.join hend (hdev.trans hqdev.symm) (by simp [hstate]) (by simp [hqstate]) rfl
            (Nat.add_comm _ _) rfl (hqdev.trans hdev.symm)
        · exact hkept

/-- **The part between two commands** belongs to the range and to neither of them. -/
lemma nextGap_spec {lstart start len : ℕ} {prev next : Option DiscardCmd} {di : DiscardInfo}
    (hgap : nextGap lstart start len prev next = some di)
    (hprev : ∀ p ∈ prev, ∀ q ∈ next, p.stop ≤ q.lstart) (hnext : ∀ q ∈ next, lstart ≤ q.lstart) :
    lstart ≤ di.lstart ∧ di.lstart + di.len ≤ lstart + len ∧
      di.start = start + (di.lstart - lstart) ∧ (∀ p ∈ prev, p.stop ≤ di.lstart) ∧
      ∀ q ∈ next, di.lstart + di.len ≤ q.lstart := by
  cases prev with
  | none =>
      obtain rfl := Option.some.inj hgap
      cases next with
      | none => simp
      | some q =>
          have hq := hnext q rfl
          simp only [Option.elim_some, Nat.sub_self, Nat.add_zero, le_refl, true_and, reduceCtorEq,
            Option.mem_def, Option.some.injEq, forall_eq', false_imp_iff, implies_true]
          omega
  | some p =>
      obtain ⟨hlt, hdi⟩ := Option.ite_none_left_eq_some.mp hgap
      obtain rfl := Option.some.inj hdi
      simp only [Option.mem_def, Option.some.injEq, forall_eq'] at hprev ⊢
      cases next with
      | none =>
          simp only [Option.elim_none, reduceCtorEq, false_imp_iff, implies_true, and_true]
          omega
      | some q =>
          have hq := hnext q rfl
          have hpq := hprev q rfl
          simp only [Option.elim_some, Option.some.injEq, forall_eq']
          split_ifs <;> omega

/-- The commands before the gap end before it. -/
lemma stop_le_of_head {l : ℕ} (h : left.reverse.Pairwise fun a b => a.stop ≤ b.lstart)
    (hhead : ∀ p ∈ left.head?, p.stop ≤ l) : ∀ a ∈ left, a.stop ≤ l := by
  cases left with
  | nil => simp
  | cons p left =>
      have hp := hhead p rfl
      rw [List.reverse_cons, List.pairwise_append] at h
      intro a ha
      rcases List.mem_cons.mp ha with rfl | ha
      · exact hp
      · have hap := h.2.2 a (by simpa using ha) p (by simp)
        simp only [DiscardCmd.stop] at hap hp ⊢
        omega

/-- The loop keeps the invariant. -/
lemma updateLoop_tree {bdev lstart start len : ℕ}
    (hnew : (⟨lstart, len, start, bdev, .prep, 0⟩ : DiscardCmd).Right devs bad)
    (h : DiscardTree devs bad (left.reverse ++ rest)) (hrest : ∀ b ∈ rest, lstart ≤ b.lstart) :
    DiscardTree devs bad (updateLoop bdev lstart start len left rest) := by
  -- What one gap gets, with the commands around it.
  have hround : ∀ (left rest : List DiscardCmd) (next : Option DiscardCmd) (di : DiscardInfo),
      DiscardTree devs bad (left.reverse ++ (next.toList ++ rest)) →
      (∀ b ∈ next.toList ++ rest, lstart ≤ b.lstart) → (next = none → rest = []) →
      nextGap lstart start len left.head? next = some di →
      DiscardTree devs bad ((fillGap bdev left next di).reverse ++ rest) := by
    intro left rest next di htree hlow hlast hgap
    obtain ⟨hl, hr, hlr⟩ := List.pairwise_append.mp htree.apart
    obtain ⟨h1, h2, h3, h4, h5⟩ := nextGap_spec hgap
      (fun p hp q hq => hlr p (by simpa using List.mem_of_mem_head? hp) q (by simp [Option.mem_def.mp hq]))
      (fun q hq => hlow q (by simp [Option.mem_def.mp hq]))
    refine fillGap_tree htree (fun hpos => hnew.part (by simp) hpos h1 h2 rfl h3)
      (stop_le_of_head hl h4) fun b hb => ?_
    cases next with
    | none => simp [hlast rfl] at hb
    | some q =>
        have hq := h5 q rfl
        rcases List.mem_cons.mp hb with rfl | hb
        · exact hq
        · have hqb := (List.pairwise_cons.mp hr).1 b hb
          simp only [DiscardCmd.stop] at hqb
          omega
  induction rest generalizing left with
  | nil =>
      unfold updateLoop
      cases hgap : nextGap lstart start len left.head? none with
      | none => simpa using h
      | some di => simpa using hround left [] none di (by simpa using h) (by simp) (fun _ => rfl) hgap
  | cons q rest ih =>
      unfold updateLoop
      cases hgap : nextGap lstart start len left.head? (some q) with
      | none => exact h
      | some di =>
          exact ih (hround left rest (some q) di h hrest (by simp) hgap)
            fun b hb => hrest b (List.mem_cons_of_mem q hb)

/-- The commands behind the place where a range is put in start behind its first block. -/
lemma lstart_le_of_dropWhile {lstart : ℕ} (h : cmds.Pairwise fun a b => a.stop ≤ b.lstart) :
    ∀ b ∈ cmds.dropWhile (fun dc => dc.lstart ≤ lstart), lstart ≤ b.lstart := by
  have hsplit : cmds.takeWhile (fun dc => dc.lstart ≤ lstart) ++
      cmds.dropWhile (fun dc => dc.lstart ≤ lstart) = cmds := List.takeWhile_append_dropWhile
  rw [← hsplit, List.pairwise_append] at h
  cases hdrop : cmds.dropWhile (fun dc => dc.lstart ≤ lstart) with
  | nil => simp
  | cons q rest =>
      have hq : ¬ q.lstart ≤ lstart := by
        have := List.head?_dropWhile_not (fun dc : DiscardCmd => decide (dc.lstart ≤ lstart)) cmds
        simpa [hdrop] using this
      rw [hdrop] at h
      intro b hb
      rcases List.mem_cons.mp hb with rfl | hb
      · omega
      · have hqb := (List.pairwise_cons.mp h.2.1).1 b hb
        simp only [DiscardCmd.stop] at hqb
        omega

/-- **A discard of blocks that are not bad** keeps the invariant. -/
theorem DiscardTree.update {bdev lstart start len : ℕ} (h : DiscardTree devs bad cmds)
    (hnew : (⟨lstart, len, start, bdev, .prep, 0⟩ : DiscardCmd).Right devs bad) :
    DiscardTree devs bad (updateDiscardTreeRange bdev lstart start len cmds) := by
  have hsplit : cmds.takeWhile (fun dc => dc.lstart ≤ lstart) ++
      cmds.dropWhile (fun dc => dc.lstart ≤ lstart) = cmds := List.takeWhile_append_dropWhile
  exact updateLoop_tree hnew (by rwa [List.reverse_reverse, hsplit])
    (lstart_le_of_dropWhile h.apart)

/-! ## The events of one command -/

/-- Either no command is meant, or one is replaced. -/
lemma replaceFirst_spec {p : DiscardCmd → Bool} {f : DiscardCmd → Option (List DiscardCmd)}
    (h : replaceFirst p f cmds = some cmds') :
    (cmds' = cmds ∧ ∀ dc ∈ cmds, p dc = false) ∨
      ∃ left dc rest mid, cmds = left ++ dc :: rest ∧ p dc = true ∧ f dc = some mid ∧
        cmds' = left ++ (mid ++ rest) := by
  induction cmds generalizing cmds' with
  | nil =>
      obtain rfl := Option.some.inj h
      exact Or.inl ⟨rfl, by simp⟩
  | cons dc cmds ih =>
      unfold replaceFirst at h
      split_ifs at h with hp
      · obtain ⟨mid, hmid, rfl⟩ := Option.map_eq_some_iff.mp h
        exact Or.inr ⟨[], dc, cmds, mid, rfl, hp, hmid, rfl⟩
      · obtain ⟨cmds'', hrest, rfl⟩ := Option.map_eq_some_iff.mp h
        rcases ih hrest with ⟨rfl, hnone⟩ | ⟨left, dc', rest, mid, rfl, hp', hmid, rfl⟩
        · refine Or.inl ⟨rfl, fun x hx => ?_⟩
          rcases List.mem_cons.mp hx with rfl | hx
          · simpa using hp
          · exact hnone x hx
        · exact Or.inr ⟨dc :: left, dc', rest, mid, rfl, hp', hmid, rfl⟩

/-- The command is gone, or it is where it was and has not become active again. -/
def Progress (dc : DiscardCmd) (mid : List DiscardCmd) : Prop :=
  mid = [] ∨ ∃ state ref, mid = [{ dc with state, ref }] ∧ (state ≠ .done → dc.state ≠ .done)

lemma Progress.right {mid : List DiscardCmd} (h : Progress dc mid) (hdc : dc.Right devs bad) :
    (∀ c ∈ mid, c.Right devs bad ∧ c.lstart = dc.lstart ∧ c.stop = dc.stop ∧
        (c.state ≠ .done → dc.state ≠ .done)) ∧ mid.Pairwise fun a b => a.stop ≤ b.lstart := by
  rcases h with rfl | ⟨state, ref, rfl, hstate⟩
  · simp
  · refine ⟨fun c hc => ?_, List.pairwise_singleton _ _⟩
    obtain rfl := List.mem_singleton.mp hc
    exact ⟨⟨hdc.pos, hdc.start, hdc.onDev, fun hne => hdc.safe (hstate hne)⟩, rfl, rfl, hstate⟩

lemma putDiscardCmd_progress (hstate : dc.state = .done) (ref : ℕ) :
    Progress dc (putDiscardCmd { dc with ref }) := by
  unfold putDiscardCmd
  split_ifs
  · exact Or.inl rfl
  · exact Or.inr ⟨dc.state, _, rfl, fun hne => absurd hstate hne⟩

lemma cmdEvent_progress {e : CmdEvent} {mid : List DiscardCmd} (h : cmdEvent dc e = some mid) :
    Progress dc mid := by
  cases e with
  | submit ok =>
      obtain rfl := Option.some.inj h
      unfold submitDiscardCmd
      split_ifs with hprep hok
      · exact Or.inr ⟨dc.state, dc.ref, rfl, fun hne => hne⟩
      · exact Or.inr ⟨.submit, dc.ref, rfl, fun _ => by simp [not_not.mp hprep]⟩
      · exact Or.inl rfl
  | endio =>
      obtain ⟨-, hmid⟩ := Option.ite_none_right_eq_some.mp h
      obtain rfl := Option.some.inj hmid
      exact Or.inr ⟨.done, dc.ref, rfl, fun hne => absurd rfl hne⟩
  | hold =>
      obtain ⟨-, hmid⟩ := Option.ite_none_right_eq_some.mp h
      obtain rfl := Option.some.inj hmid
      unfold holdDiscardCmd
      split_ifs
      · exact Or.inl rfl
      · exact Or.inr ⟨dc.state, _, rfl, fun hne => hne⟩
  | put =>
      obtain ⟨hdone, hmid⟩ := Option.ite_none_right_eq_some.mp h
      obtain rfl := Option.some.inj hmid
      exact putDiscardCmd_progress hdone.1 dc.ref

/-- What happens to one command keeps the invariant. -/
lemma DiscardTree.progress {p : DiscardCmd → Bool} {f : DiscardCmd → Option (List DiscardCmd)}
    (h : DiscardTree devs bad cmds) (hf : ∀ dc mid, f dc = some mid → Progress dc mid)
    (hstep : replaceFirst p f cmds = some cmds') : DiscardTree devs bad cmds' := by
  rcases replaceFirst_spec hstep with ⟨rfl, -⟩ | ⟨left, dc, rest, mid, rfl, -, hmid, rfl⟩
  · exact h
  · obtain ⟨hall, hapart⟩ := (hf dc mid hmid).right (h.right dc (by simp))
    exact DiscardTree.splice [dc] mid h (fun c hc => (hall c hc).1) hapart
      (fun c hc => ⟨dc, by simp, (hall c hc).2.1.ge⟩) fun c hc => ⟨dc, by simp, (hall c hc).2.2.1.le⟩

lemma DiscardTree.one {lstart : ℕ} {e : CmdEvent} (h : DiscardTree devs bad cmds)
    (hstep : oneDiscardCmd lstart e cmds = some cmds') : DiscardTree devs bad cmds' :=
  h.progress (fun _ _ => cmdEvent_progress) hstep

lemma DiscardTree.drop (h : DiscardTree devs bad cmds) :
    DiscardTree devs bad (dropDiscardCmd cmds) :=
  ⟨h.apart.sublist List.filter_sublist, fun dc hdc => h.right dc (List.mem_filter.mp hdc).1⟩

/-! ## A block that is written -/

/-- What is left of a command whose block `blk` is cut out. -/
lemma punchDiscardCmd_spec {blk : ℕ} (h : dc.Right devs bad) (hprep : dc.state = .prep)
    (hcov : dc.Covers blk) :
    (∀ c ∈ punchDiscardCmd blk dc, c.Right devs bad ∧ dc.lstart ≤ c.lstart ∧ c.stop ≤ dc.stop ∧
        ¬ c.Covers blk) ∧
      (punchDiscardCmd blk dc).Pairwise fun a b => a.stop ≤ b.lstart := by
  obtain ⟨hlow, hhigh⟩ := hcov
  have hstop : dc.stop = dc.lstart + dc.len := rfl
  have hpos := h.pos
  have hdone : dc.state ≠ .done := by simp [hprep]
  -- A part on one side of the block.
  have hpart : ∀ c : DiscardCmd, 0 < c.len → dc.lstart ≤ c.lstart → c.stop ≤ dc.stop →
      c.bdev = dc.bdev → c.start = dc.start + (c.lstart - dc.lstart) →
      (c.stop ≤ blk ∨ blk < c.lstart) → c.Right devs bad ∧ dc.lstart ≤ c.lstart ∧
        c.stop ≤ dc.stop ∧ ¬ c.Covers blk := by
    intro c h1 h2 h3 h4 h5 h6
    exact ⟨h.part hdone h1 h2 h3 h4 h5, h2, h3, fun hc => by
      obtain ⟨h7, h8⟩ := hc
      omega⟩
  unfold punchDiscardCmd
  split_ifs with h1 h2 h3 h4
  · simp
  · simp only [List.mem_cons, List.not_mem_nil, or_false, forall_eq_or_imp, forall_eq,
      List.pairwise_cons, List.Pairwise.nil, false_imp_iff, implies_true, and_true]
    refine ⟨⟨hpart _ ?_ ?_ ?_ rfl ?_ ?_, hpart _ ?_ ?_ ?_ rfl ?_ ?_⟩, ?_⟩ <;>
      simp only [DiscardCmd.stop] at * <;> omega
  · simp only [List.mem_singleton, forall_eq, List.pairwise_singleton, and_true]
    refine hpart _ ?_ ?_ ?_ rfl ?_ ?_ <;> simp only [DiscardCmd.stop] at * <;> omega
  · simp only [List.mem_singleton, forall_eq, List.pairwise_singleton, and_true]
    refine hpart _ ?_ ?_ ?_ rfl ?_ ?_ <;> simp only [DiscardCmd.stop] at * <;> omega
  · exfalso
    simp only [not_or] at h1
    omega

/-- **Once a block has been waited for, no command that is not done covers it.** -/
theorem DiscardTree.wait {blk : ℕ} (h : DiscardTree devs bad cmds)
    (hwait : waitDiscardBio blk cmds = some cmds') :
    DiscardTree devs (fun b => bad b ∨ b = blk) cmds' := by
  rcases replaceFirst_spec hwait with ⟨rfl, hnone⟩ | ⟨left, dc, rest, mid, rfl, hcov, hmid, rfl⟩
  · refine h.mono fun dc hdc b hb hbad => hbad.resolve_right ?_
    rintro rfl
    simpa [hb] using hnone dc hdc
  · simp only [decide_eq_true_eq] at hcov
    have hdc := h.right dc (by simp)
    obtain ⟨-, hmr, hlm⟩ := List.pairwise_append.mp h.apart
    -- The parts, and why they do not cover the block.
    have hparts : (∀ c ∈ mid, c.Right devs bad ∧ dc.lstart ≤ c.lstart ∧ c.stop ≤ dc.stop ∧
        (c.state ≠ .done → ¬ c.Covers blk)) ∧ mid.Pairwise fun a b => a.stop ≤ b.lstart := by
      cases hstate : dc.state with
      | prep =>
          simp only [hstate, Option.some.injEq] at hmid
          subst hmid
          obtain ⟨hall, hapart⟩ := punchDiscardCmd_spec hdc hstate hcov
          exact ⟨fun c hc => ⟨(hall c hc).1, (hall c hc).2.1, (hall c hc).2.2.1,
            fun _ => (hall c hc).2.2.2⟩, hapart⟩
      | submit => simp [hstate] at hmid
      | done =>
          have hput : putDiscardCmd { dc with ref := dc.ref + 1 } = mid := by
            simpa [hstate] using hmid
          subst hput
          obtain ⟨hall, hapart⟩ := (putDiscardCmd_progress hstate (dc.ref + 1)).right hdc
          exact ⟨fun c hc => ⟨(hall c hc).1, (hall c hc).2.1.ge, (hall c hc).2.2.1.le,
            fun hne => absurd hstate ((hall c hc).2.2.2 hne)⟩, hapart⟩
    obtain ⟨hall, hapart⟩ := hparts
    have htree : DiscardTree devs bad (left ++ (mid ++ rest)) :=
      DiscardTree.splice [dc] mid h (fun c hc => (hall c hc).1) hapart
        (fun c hc => ⟨dc, by simp, (hall c hc).2.1⟩) fun c hc => ⟨dc, by simp, (hall c hc).2.2.1⟩
    refine ⟨htree.apart, fun c hc => ⟨(htree.right c hc).pos, (htree.right c hc).start,
      (htree.right c hc).onDev, fun hne b hb hbad => ?_⟩⟩
    rcases hbad with hbad | rfl
    · exact (htree.right c hc).safe hne b hb hbad
    · -- The other commands are apart from the one that covers the block.
      obtain ⟨hb1, hb2⟩ := hb
      obtain ⟨hc1, hc2⟩ := hcov
      rcases List.mem_append.mp hc with hc | hc
      · have := hlm c hc dc (by simp)
        omega
      · rcases List.mem_append.mp hc with hc | hc
        · exact (hall c hc).2.2.2 hne ⟨hb1, hb2⟩
        · have := (List.pairwise_cons.mp hmr).1 c hc
          omega

end Hoit.Segment
