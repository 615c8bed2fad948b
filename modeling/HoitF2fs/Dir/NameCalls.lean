import HoitF2fs.Dir.NameiInv

/-!
# What the calls do to the names

* `Names.mkdir`, `Names.rmdir`, `Names.move`, `Names.cross` — the names after a directory has come or
  gone, after a rename and after an exchange.
* `Shape.create`, `Shape.mkdir`, `Shape.rmdir`, `Shape.move`, `Shape.cross` — **the directories are
  still a tree**.
* `Counts.create`, `Counts.mkdir`, and so on — **the link counts are right again** after what the
  calls write.
-/

namespace Hoit.Namei

open Dir ByteStore GoUp RefCount

namespace Names

variable (names : Names)

/-- There is a new directory. -/
def mkdir (d : ℕ) (name : List Byte) (i : ℕ) : Names :=
  Function.update (Function.update (Function.update names (i, dot) (some i)) (d, name) (some i))
    (i, dotdot) (some d)

/-- A directory goes. -/
def rmdir (d : ℕ) (name : List Byte) (i : ℕ) : Names :=
  Function.update (Function.update (Function.update names (d, name) none) (i, dot) none)
    (i, dotdot) none

/-- A directory learns of its parent. -/
def setParent (isDir : Bool) (i d : ℕ) : Names :=
  if isDir then Function.update names (i, dotdot) (some d) else names

/-- An entry moves; `x` and `y` are the old place and the new one. -/
def move (isDir : Bool) (x y : ℕ × List Byte) (i : ℕ) : Names :=
  setParent (Function.update (Function.update names x none) y (some i)) isDir i y.1

/-- Two entries change places; `i` was at `x`, and `j` at `y`. -/
def cross (iDir jDir : Bool) (x y : ℕ × List Byte) (i j : ℕ) : Names :=
  setParent (setParent (Function.update (Function.update names x (some j)) y (some i)) iDir i y.1)
    jDir j x.1

/-- Going up from `c` by `..` one gets to `i`. -/
def Below (root c i : ℕ) : Prop := Up names.parent {root} c i

end Names

variable {root d i j ino mode : ℕ} {iMode : ℕ → ℕ} {inodes : Finset ℕ} {live : Set ℕ}
  {names : Names} {name : List Byte} {x y : ℕ × List Byte} {t : Inodes}

/-! ## The tree -/

namespace Shape

/-- The directory with the name of another is its parent. -/
lemma parent_eq (h : Shape root iMode inodes live ∅ names) (hx : names x = some i)
    (hname : IsName x.2) (hi : sIsDir (iMode i) = true) : names (i, dotdot) = some x.1 := by
  have hroot : i ≠ root := fun heq => h.rootless x hname (heq ▸ hx)
  obtain ⟨p, n, hp, hn, hpn⟩ := h.named i ((h.target x i hx).2 hi) hroot (Set.notMem_empty i)
  obtain rfl := h.single x (p, n) i hi hname hn hx hpn
  exact hp

/-- Going up, one need not meet those that are not there on the way. -/
lemma up_avoiding (h : Shape root iMode inodes live ∅ names) (hd : d ∈ live) {s : Set ℕ}
    (hs : ∀ c ∈ s, ¬ names.Below root d c) : Up names.parent (insert root s) d root := by
  obtain ⟨r, hr, hup⟩ := h.up d hd
  obtain ⟨r', hr', hup'⟩ := hup.more_stops hr
    (Set.insert_subset_insert (a := root) (Set.empty_subset s))
  rcases hr' with rfl | hr'
  · exact hup'
  · refine absurd (hup'.fewer_stops ?_) (hs r' hr')
    rw [Set.singleton_subset_iff]
    exact Set.mem_insert root s

/-- A directory is not below one that has its name there. -/
lemma not_below (h : Shape root iMode inodes live ∅ names) (hx : names x = some i)
    (hname : IsName x.2) (hi : sIsDir (iMode i) = true) : ¬ names.Below root x.1 i := by
  have hroot : i ≠ root := fun heq => h.rootless x hname (heq ▸ hx)
  obtain ⟨r, hr, hup⟩ := h.up x.1 (h.live_of_some hx)
  rw [LawfulSingleton.insert_empty_eq] at hr hup
  exact hup.no_cycle hr hroot (h.parent_eq hx hname hi)

/-- A new inode, without a name. -/
lemma newInode (h : Shape root iMode inodes live ∅ names) (hino : ino ∉ inodes) (mode : ℕ) :
    Shape root (Function.update iMode ino mode) (insert ino inodes) live ∅ names := by
  refine h.congr_inodes fun x j hx => ?_
  have hj := (h.target x j hx).1
  refine ⟨Finset.mem_insert_of_mem hj, Function.update_of_ne ?_ ..⟩
  rintro rfl
  exact hino hj

lemma create (h : Shape root iMode inodes live ∅ names) (hd : d ∈ live) (hname : IsName name)
    (hnew : names (d, name) = none) (hino : ino ∉ inodes) (hmode : sIsDir mode = false) :
    Shape root (Function.update iMode ino mode) (insert ino inodes) live ∅
      (Function.update names (d, name) (some ino)) := by
  have h' := h.newInode hino mode
  refine h'.setEntry hd hname (fun j hj => ?_) fun j hj => ?_
  · rw [hnew] at hj
    exact absurd hj.symm (Option.some_ne_none j)
  · obtain rfl := Option.some.inj hj
    exact ⟨Finset.mem_insert_self .., by rwa [Function.update_self]⟩

lemma mkdir (h : Shape root iMode inodes live ∅ names) (hd : d ∈ live) (hname : IsName name)
    (hnew : names (d, name) = none) (hino : ino ∉ inodes) (hmode : sIsDir mode = true) :
    Shape root (Function.update iMode ino mode) (insert ino inodes) (insert ino live) ∅
      (names.mkdir d name ino) := by
  have hfresh : ∀ x, names x ≠ some ino := fun x hx => hino (h.target x ino hx).1
  have h' := h.newInode hino mode
  have hborn := h'.born (Finset.mem_insert_self ..) (by rwa [Function.update_self]) hfresh
  have hdead : ino ∉ live := fun hlive => hino (h.live_mem ino hlive).1
  have hne : d ≠ ino := fun heq => hdead (heq ▸ hd)
  have hparent : Names.parent (Function.update names (ino, dot) (some ino)) = names.parent :=
    funext fun c => Function.update_of_ne
      (fun heq => dot_ne_dotdot (congrArg Prod.snd heq).symm) ..
  have hup : Up names.parent {root, ino} d root := by
    refine h.up_avoiding hd ?_
    rintro c rfl
    exact fun hbelow => (Up.ne_of_no_child hbelow hne fun a _ ha => hfresh _ ha) rfl
  have hattach := hborn.attach d name (i := ino) (Or.inr hd) hname
    (by rw [Function.update_of_ne (hname.ne_dot ino).symm]; exact hnew) (Or.inl rfl)
    (by rw [hparent, LawfulSingleton.insert_empty_eq]; exact hup)
  rwa [Set.insert_sdiff_self_of_notMem (Set.notMem_empty ino)] at hattach

lemma rmdir (h : Shape root iMode inodes live ∅ names) (hname : IsName name)
    (hdi : names (d, name) = some i) (hi : sIsDir (iMode i) = true)
    (hempty : ∀ name, IsName name → names (i, name) = none) :
    Shape root iMode inodes (live \ {i}) ∅ (names.rmdir d name i) := by
  have hdetach := h.detach d name hname hdi hi
  rw [LawfulSingleton.insert_empty_eq] at hdetach
  refine hdetach.die fun n hn => ?_
  by_cases heq : (i, n) = (d, name)
  · rw [heq, Function.update_self]
  · rw [Function.update_of_ne heq]
    exact hempty n hn

/-- A file moves to another name, and may take the place of a file. -/
lemma moveFile (h : Shape root iMode inodes live ∅ names) (hx : names x = some i)
    (hxn : IsName x.2) (hi : sIsDir (iMode i) = false) (hy : y.1 ∈ live) (hyn : IsName y.2)
    (hold : ∀ j, names y = some j → sIsDir (iMode j) = false) (hne : y ≠ x) :
    Shape root iMode inodes live ∅ (names.move false x y i) := by
  have hclear := h.setEntry (o := none) (h.live_of_some hx) hxn
    (fun j hj => by obtain rfl := Option.some.inj (hx.symm.trans hj); exact hi)
    fun j hj => absurd hj.symm (Option.some_ne_none j)
  refine hclear.setEntry hy hyn (fun j hj => ?_) fun j hj => ?_
  · rw [Function.update_of_ne hne] at hj
    exact hold j hj
  · obtain rfl := Option.some.inj hj
    exact ⟨(h.target x i hx).1, hi⟩

/-- A directory moves, and the new place is not below it. -/
lemma moveDir (h : Shape root iMode inodes live ∅ names) (hx : names x = some i)
    (hxn : IsName x.2) (hi : sIsDir (iMode i) = true) (hy : y.1 ∈ live) (hyn : IsName y.2)
    (hfree : names y = none) (hbelow : ¬ names.Below root y.1 i) :
    Shape root iMode inodes live ∅ (names.move true x y i) := by
  have hdetach := h.detach x.1 x.2 hxn hx hi
  have hne : y ≠ x := by
    rintro rfl
    rw [hfree] at hx
    exact Option.some_ne_none i hx.symm
  have hup : Up names.parent {root, i} y.1 root := by
    refine h.up_avoiding hy ?_
    rintro c rfl
    exact hbelow
  have hattach := hdetach.attach y.1 y.2 (i := i) hy hyn
    (by rw [Function.update_of_ne hne]; exact hfree) (Or.inl rfl)
    (by rw [parent_update_name hxn, LawfulSingleton.insert_empty_eq]; exact hup)
  rwa [Set.insert_sdiff_self_of_notMem (Set.notMem_empty i)] at hattach

/-- Two files change places. -/
lemma crossFiles (h : Shape root iMode inodes live ∅ names) (hx : names x = some i)
    (hxn : IsName x.2) (hi : sIsDir (iMode i) = false) (hy : names y = some j) (hyn : IsName y.2)
    (hj : sIsDir (iMode j) = false) (hne : y ≠ x) :
    Shape root iMode inodes live ∅ (names.cross false false x y i j) := by
  have hset := h.setEntry (o := some j) (h.live_of_some hx) hxn
    (fun c hc => by obtain rfl := Option.some.inj (hx.symm.trans hc); exact hi)
    fun c hc => by obtain rfl := Option.some.inj hc; exact ⟨(h.target y j hy).1, hj⟩
  refine hset.setEntry (h.live_of_some hy) hyn (fun c hc => ?_) fun c hc => ?_
  · rw [Function.update_of_ne hne, hy] at hc
    exact Option.some.inj hc ▸ hj
  · obtain rfl := Option.some.inj hc
    exact ⟨(h.target x i hx).1, hi⟩

/-- A directory and a file change places. -/
lemma crossDirFile (h : Shape root iMode inodes live ∅ names) (hx : names x = some i)
    (hxn : IsName x.2) (hi : sIsDir (iMode i) = true) (hy : names y = some j) (hyn : IsName y.2)
    (hj : sIsDir (iMode j) = false) (hne : y ≠ x) (hbelow : ¬ names.Below root y.1 i) :
    Shape root iMode inodes live ∅ (names.cross true false x y i j) := by
  have hyl := h.live_of_some hy
  have hdetach := h.detach x.1 x.2 hxn hx hi
  have hclear := hdetach.setEntry (o := none) hyl hyn
    (fun c hc => by
      rw [Function.update_of_ne hne, hy] at hc
      exact Option.some.inj hc ▸ hj)
    fun c hc => absurd hc.symm (Option.some_ne_none c)
  have hset := hclear.setEntry (o := some j) (h.live_of_some hx) hxn
    (fun c hc => by
      rw [Function.update_of_ne hne.symm, Function.update_self] at hc
      exact absurd hc.symm (Option.some_ne_none c))
    fun c hc => by obtain rfl := Option.some.inj hc; exact ⟨(h.target y j hy).1, hj⟩
  have hup : Up names.parent {root, i} y.1 root := by
    refine h.up_avoiding hyl ?_
    rintro c rfl
    exact hbelow
  have hattach := hset.attach y.1 y.2 (i := i) hyl hyn
    (by rw [Function.update_of_ne hne, Function.update_self]) (Or.inl rfl)
    (by rw [parent_update_name hxn, parent_update_name hyn, parent_update_name hxn,
      LawfulSingleton.insert_empty_eq]; exact hup)
  rw [Set.insert_sdiff_self_of_notMem (Set.notMem_empty i)] at hattach
  have hsame : Function.update (Function.update (Function.update (Function.update names x none)
      y none) x (some j)) y (some i)
      = Function.update (Function.update names x (some j)) y (some i) := by
    rw [Function.update_comm hne.symm, Function.update_idem, Function.update_comm hne,
      Function.update_idem]
  have hcross : names.cross true false x y i j = Function.update (Function.update
      (Function.update names x (some j)) y (some i)) (i, dotdot) (some y.1) := rfl
  rw [hcross, ← hsame]
  exact hattach

/-- Two directories change places. -/
lemma crossDirs (h : Shape root iMode inodes live ∅ names) (hx : names x = some i)
    (hxn : IsName x.2) (hi : sIsDir (iMode i) = true) (hy : names y = some j) (hyn : IsName y.2)
    (hj : sIsDir (iMode j) = true) (hne : y ≠ x) (hbelow : ¬ names.Below root y.1 i)
    (hbelow' : ¬ names.Below root x.1 j) :
    Shape root iMode inodes live ∅ (names.cross true true x y i j) := by
  have hij : j ≠ i := by
    rintro rfl
    exact hne (h.single y x j hj hyn hxn hy hx)
  have hxl := h.live_of_some hx
  have hyl := h.live_of_some hy
  have hdetach := h.detach x.1 x.2 hxn hx hi
  have hdetach' := hdetach.detach y.1 y.2 (i := j) hyn
    (by rw [Function.update_of_ne hne]; exact hy) hj
  rw [LawfulSingleton.insert_empty_eq] at hdetach'
  -- from neither place one gets to one of the two directories
  have hup : ∀ z : ℕ × List Byte, z = x ∨ z = y → Up names.parent {root, j, i} z.1 root := by
    intro z hz
    refine h.up_avoiding (by rcases hz with rfl | rfl <;> assumption) ?_
    rintro c (rfl | rfl)
    · rcases hz with rfl | rfl
      · exact hbelow'
      · exact h.not_below hy hyn hj
    · rcases hz with rfl | rfl
      · exact h.not_below hx hxn hi
      · exact hbelow
  have hattach := hdetach'.attach y.1 y.2 (i := i) hyl hyn
    (Function.update_self ..) (Or.inr rfl)
    (by rw [parent_update_name hyn, parent_update_name hxn]; exact hup y (Or.inr rfl))
  have hloose : ({j, i} : Set ℕ) \ {i} = {j} := by
    rw [Set.pair_comm]
    exact Set.insert_sdiff_self_of_notMem fun heq => hij heq.symm
  rw [hloose, Function.update_idem] at hattach
  -- the second place is where it was, and from it one still gets to the root
  have hup' := (hup x (Or.inl rfl)).attach_other (i := i) (Or.inr (Or.inr rfl)) y.1
  have hset : ({root, j, i} : Set ℕ) \ {i} = {root, j} := by
    rw [Set.insert_sdiff_of_notMem _ fun heq => (hdetach.loose_sub i (Or.inl rfl)).2.1 heq.symm,
      hloose]
  have hfree : x ≠ (i, dotdot) := (hxn.ne_dotdot i).symm
  have hattach' := hattach.attach x.1 x.2 (i := j) hxl hxn
    (by rw [Function.update_of_ne hfree, Function.update_of_ne hne.symm, Function.update_self])
    rfl (by
      rw [parent_update_dotdot, parent_update_name hyn, parent_update_name hxn, ← hset]
      exact hup')
  rw [Set.sdiff_self] at hattach'
  have hsame : Function.update (Function.update (Function.update (Function.update names x none)
      y (some i)) (i, dotdot) (some y.1)) x (some j)
      = Function.update (Function.update (Function.update names x (some j)) y (some i))
        (i, dotdot) (some y.1) := by
    rw [Function.update_comm hfree.symm, Function.update_comm hne, Function.update_idem]
  have hcross : names.cross true true x y i j = Function.update (Function.update (Function.update
      (Function.update names x (some j)) y (some i)) (i, dotdot) (some y.1)) (j, dotdot)
      (some x.1) := rfl
  rw [hcross, ← hsame]
  exact hattach'

end Shape

/-! ## The link counts -/

lemma Shape.count_live {loose : Set ℕ} (h : Shape root iMode inodes live loose names)
    (hd : d ∈ live) : count names d ≠ 0 :=
  count_ne_zero h.finite (h.self d hd)

lemma Shape.count_fresh {loose : Set ℕ} (h : Shape root iMode inodes live loose names)
    (hino : ino ∉ inodes) : count names ino = 0 :=
  count_eq_zero fun x hx => hino (h.target x ino hx).1

namespace Counts

lemma newInode_iNlink (t : Inodes) (mode : ℕ) (hj : j ≠ ino) :
    (t.f2fsNewInode ino mode).iNlink j = t.iNlink j :=
  Function.update_of_ne hj ..

lemma create (h : Counts t names) (hs : Shape root t.iMode t.inodes live ∅ names)
    (hnew : names (d, name) = none) (hino : ino ∉ t.inodes) :
    Counts (t.f2fsNewInode ino mode) (Function.update names (d, name) (some ino)) := by
  have hcount := count_set hs.finite hnew (some ino)
  have hfresh := hs.count_fresh hino
  have hself := hcount ino
  rw [ind_none, ind_self, hfresh] at hself
  have hother : ∀ j ∈ t.inodes,
      count (Function.update names (d, name) (some ino)) j = count names j := by
    intro j hj
    have hj' := hcount j
    rwa [ind_none, ind_of_ne (ne_of_mem_of_not_mem hj hino).symm] at hj'
  refine h.newInode hino rfl rfl rfl (fun j hj => ?_) ?_ (by omega) fun j hj => ?_
  · rw [newInode_iNlink t mode (ne_of_mem_of_not_mem hj hino), h.links j hj, hother j hj]
  · rw [show (t.f2fsNewInode ino mode).iNlink ino = 1 from Function.update_self ..]
    omega
  · rw [hother j hj]

/-- What comes of an inode that is given up again. -/
lemma createFailed (h : Counts t names) (hino : ino ∉ t.inodes) :
    Counts ((t.f2fsNewInode ino mode).f2fsHandleFailedInode ino) names := by
  have hin : ((t.f2fsNewInode ino mode).f2fsHandleFailedInode ino).inodes = t.inodes :=
    Finset.erase_insert hino
  refine ⟨fun j hj => ?_, fun j => ?_, h.inoNum⟩
  · rw [hin] at hj
    have hne := ne_of_mem_of_not_mem hj hino
    rw [← h.links j hj, ← newInode_iNlink t mode hne]
    exact Function.update_of_ne hne ..
  · rw [hin]
    exact h.orphan j

lemma mkdir (h : Counts t names) (hs : Shape root t.iMode t.inodes live ∅ names) (hd : d ∈ live)
    (hname : IsName name) (hnew : names (d, name) = none) (hino : ino ∉ t.inodes) :
    Counts (((t.f2fsNewInode ino mode).initLink ino true).f2fsILinksWrite d true)
      (names.mkdir d name ino) := by
  have hdead : ino ∉ live := fun hlive => hino (hs.live_mem ino hlive).1
  have hdot := count_set hs.finite (hs.dead ino dot hdead) (some ino)
  have hset := count_set (hs.finite.update (ino, dot) (some ino)) (x := (d, name)) (o := none)
    (by rw [Function.update_of_ne (hname.ne_dot ino).symm]; exact hnew) (some ino)
  have hdd := count_set ((hs.finite.update (ino, dot) (some ino)).update (d, name) (some ino))
    (x := (ino, dotdot)) (o := none)
    (by
      rw [Function.update_of_ne (hname.ne_dotdot ino),
        Function.update_of_ne fun heq => dot_ne_dotdot (congrArg Prod.snd heq).symm]
      exact hs.dead ino dotdot hdead) (some d)
  have hcount : ∀ j, count (names.mkdir d name ino) j
      = count names j + 2 * ind (some ino) j + ind (some d) j := by
    intro j
    have h1 := hdot j
    have h2 := hset j
    have h3 := hdd j
    rw [ind_none] at h1 h2 h3
    rw [Names.mkdir]
    omega
  have hfresh := hs.count_fresh hino
  have hdlive := hs.count_live hd
  have hdin := (hs.live_mem d hd).1
  have hne := (ne_of_mem_of_not_mem hdin hino).symm
  have hlink : (t.f2fsNewInode ino mode).initLink ino true
      = (t.f2fsNewInode ino mode).f2fsILinksWrite ino true := by
    unfold Inodes.initLink
    rw [if_pos rfl, if_neg]
    rw [show (t.f2fsNewInode ino mode).iNlink ino = 1 from Function.update_self ..]
    omega
  have hself := hcount ino
  rw [hfresh, ind_self, ind_of_ne hne.symm] at hself
  rw [hlink]
  refine h.newInode hino rfl rfl rfl (fun j hj => ?_) ?_ (by omega) fun j hj => ?_
  · have hjne := ne_of_mem_of_not_mem hj hino
    rw [Inodes.iNlink_inc, Inodes.iNlink_inc, newInode_iNlink t mode hjne, h.links j hj, hcount,
      ind_of_ne hjne.symm]
  · rw [Inodes.iNlink_inc, Inodes.iNlink_inc, ind_self, ind_of_ne hne.symm,
      show (t.f2fsNewInode ino mode).iNlink ino = 1 from Function.update_self ..]
    omega
  · rw [hcount, ind_of_ne (ne_of_mem_of_not_mem hj hino).symm]
    by_cases hjd : j = d
    · rw [hjd]
      omega
    · rw [ind_of_ne fun heq => hjd heq.symm, Nat.mul_zero, Nat.add_zero]

/-- A name is added, to an inode that is there. -/
lemma add (h : Counts t names) (hs : Shape root t.iMode t.inodes live ∅ names)
    (hnew : names x = none) (hi : i ∈ t.inodes) :
    Counts (t.initLink i true) (Function.update names x (some i)) := by
  refine h.link hi fun j => ?_
  have hj := count_set hs.finite hnew (some i) j
  rwa [ind_none] at hj

/-- `f2fs_drop_nlink` for a file. -/
lemma unlink (h : Counts t names) (hs : Shape root t.iMode t.inodes live ∅ names)
    (hx : names (d, name) = some i) (hi : sIsDir (t.iMode i) = false) :
    Counts (t.acquired.dropNlink d i)
      (Function.update names (d, name) none) := by
  have hcount := count_set hs.finite hx none
  have hin := (hs.target _ i hx).1
  unfold Inodes.dropNlink
  rw [Inodes.acquired_iMode, if_neg (by rw [hi]; exact Bool.false_ne_true)]
  refine h.drop hin (count_ne_zero hs.finite hx) rfl rfl rfl (fun j hj => ?_) fun j hj => ?_
  · have hjc := hcount j
    rw [ind_none] at hjc
    rw [Inodes.iNlink_dec, Inodes.acquired_iNlink]
    omega
  · have hjc := hcount j
    rw [ind_none, ind_of_ne hj.symm] at hjc
    rw [Nat.add_zero, Nat.add_zero] at hjc
    rw [hjc]

/-- The entries that go with a directory. -/
lemma count_rmdir (hs : Shape root iMode inodes live ∅ names) (hname : IsName name)
    (hdi : names (d, name) = some i) (hi : sIsDir (iMode i) = true) (j : ℕ) :
    count (names.rmdir d name i) j + 2 * ind (some i) j + ind (some d) j = count names j := by
  have hclear := count_set hs.finite hdi none j
  have hdot := count_set (hs.finite.update (d, name) none) (x := (i, dot)) (o := some i)
    (by
      rw [Function.update_of_ne (hname.ne_dot i)]
      exact hs.self i ((hs.target _ i hdi).2 hi)) none j
  have hdd := count_set ((hs.finite.update (d, name) none).update (i, dot) none)
    (x := (i, dotdot)) (o := some d)
    (by
      rw [Function.update_of_ne fun heq => dot_ne_dotdot (congrArg Prod.snd heq).symm,
        Function.update_of_ne (hname.ne_dotdot i)]
      exact hs.parent_eq hdi hname hi) none j
  rw [ind_none] at hclear hdot hdd
  rw [Names.rmdir]
  omega

/-- `f2fs_drop_nlink` for a directory. -/
lemma rmdir (h : Counts t names) (hs : Shape root t.iMode t.inodes live ∅ names)
    (hname : IsName name) (hdi : names (d, name) = some i) (hi : sIsDir (t.iMode i) = true) :
    Counts (t.acquired.dropNlink d i) (names.rmdir d name i) := by
  have hcount := count_rmdir hs hname hdi hi
  have hne : d ≠ i := fun heq => hs.not_below hdi hname hi (heq ▸ .refl)
  have hd := hs.live_of_some hdi
  -- the parent still has its `.`
  have hself : names.rmdir d name i (d, dot) = some d := by
    rw [Names.rmdir, Function.update_of_ne fun heq => hne (congrArg Prod.fst heq),
      Function.update_of_ne fun heq => hne (congrArg Prod.fst heq),
      Function.update_of_ne (hname.ne_dot d)]
    exact hs.self d hd
  have hpos : count (names.rmdir d name i) d ≠ 0 :=
    count_ne_zero (((hs.finite.update _ _).update _ _).update _ _) hself
  unfold Inodes.dropNlink
  rw [Inodes.acquired_iMode, if_pos hi]
  refine h.drop (hs.target _ i hdi).1 (count_ne_zero hs.finite hdi) rfl rfl rfl (fun j hj => ?_)
    fun j hj => ?_
  · have hjc := hcount j
    rw [Inodes.iNlink_dec, Inodes.iNlink_dec, Inodes.iNlink_dec, Inodes.acquired_iNlink]
    omega
  · have hjc := hcount j
    rw [ind_of_ne hj.symm] at hjc
    by_cases hjd : j = d
    · subst hjd
      simp [hpos, hs.count_live hd]
    · rw [ind_of_ne fun heq => hjd heq.symm, Nat.mul_zero, Nat.add_zero] at hjc
      rw [hjc]

lemma finite_setParent (h : Finite names) (isDir : Bool) (i d : ℕ) :
    Finite (names.setParent isDir i d) := by
  unfold Names.setParent
  split
  · exact h.update _ _
  · exact h

/-- What a new parent does to the counts. -/
lemma count_setParent (h : Finite names) (isDir : Bool)
    (hold : isDir = true → names (i, dotdot) = some d) (e c : ℕ) :
    count (names.setParent isDir i e) c + (if isDir then ind (some d) c else 0)
      = count names c + (if isDir then ind (some e) c else 0) := by
  unfold Names.setParent
  cases isDir with
  | false => rfl
  | true => exact count_set h (hold rfl) (some e) c

/-- What a rename does to the counts. -/
lemma count_move (hs : Shape root iMode inodes live ∅ names) {isDir : Bool}
    (hi : sIsDir (iMode i) = isDir) (hx : names x = some i) (hxn : IsName x.2) {o : Option ℕ}
    (hy : names y = o) (hyn : IsName y.2) (hne : y ≠ x) (j : ℕ) :
    count (names.move isDir x y i) j + ind o j + (if isDir then ind (some x.1) j else 0)
      = count names j + (if isDir then ind (some y.1) j else 0) := by
  have hclear := count_set hs.finite hx none j
  have hset := count_set (hs.finite.update x none) (x := y) (o := o)
    (by rw [Function.update_of_ne hne]; exact hy) (some i) j
  have hdd := count_setParent ((hs.finite.update x none).update y (some i)) isDir (d := x.1)
    (fun hdir => by
      rw [Function.update_of_ne (hyn.ne_dotdot i), Function.update_of_ne (hxn.ne_dotdot i)]
      exact hs.parent_eq hx hxn (hi.trans hdir)) y.1 j
  rw [ind_none] at hclear
  unfold Names.move
  omega

lemma moveFile (h : Counts t names) (hs : Shape root t.iMode t.inodes live ∅ names)
    (hi : sIsDir (t.iMode i) = false) (hx : names x = some i) (hxn : IsName x.2)
    (hy : names y = none) (hyn : IsName y.2) (hne : y ≠ x) : Counts t (names.move false x y i) := by
  have hcount := count_move hs hi hx hxn hy hyn hne
  refine h.congr rfl rfl rfl (fun j hj => ?_) fun j => ?_
  · have hjc := hcount j
    simp only [ind_none, Bool.false_eq_true, if_false] at hjc
    omega
  · have hjc := hcount j
    simp only [ind_none, Bool.false_eq_true, if_false] at hjc
    omega

lemma moveDir (h : Counts t names) (hs : Shape root t.iMode t.inodes live ∅ names)
    (hs' : Shape root t.iMode t.inodes live ∅ (names.move true x y i))
    (hi : sIsDir (t.iMode i) = true) (hx : names x = some i) (hxn : IsName x.2)
    (hy : names y = none) (hyl : y.1 ∈ live) (hyn : IsName y.2) (hne : y ≠ x) :
    Counts ((t.f2fsILinksWrite y.1 true).f2fsILinksWrite x.1 false) (names.move true x y i) := by
  have hcount := count_move hs hi hx hxn hy hyn hne
  have hxl := hs.live_of_some hx
  refine h.congr rfl rfl rfl (fun j hj => ?_) fun j => ?_
  · have hjc := hcount j
    simp only [ind_none, if_true] at hjc
    rw [Inodes.iNlink_dec, Inodes.iNlink_inc]
    omega
  · have hjc := hcount j
    simp only [ind_none, if_true] at hjc
    by_cases hjl : j = x.1 ∨ j = y.1
    · have hj : j ∈ live := by rcases hjl with rfl | rfl <;> assumption
      simp [hs.count_live hj, hs'.count_live hj]
    · rw [ind_of_ne fun heq => hjl (Or.inl heq.symm), ind_of_ne fun heq => hjl (Or.inr heq.symm)]
        at hjc
      rw [Nat.add_zero, Nat.add_zero] at hjc
      rw [hjc]

/-- A file moves over another. -/
lemma moveOverFile (h : Counts t names) (hs : Shape root t.iMode t.inodes live ∅ names)
    (hi : sIsDir (t.iMode i) = false) (hx : names x = some i) (hxn : IsName x.2)
    (hy : names y = some j) (hyn : IsName y.2) (hne : y ≠ x) :
    Counts ((t.acquired.f2fsILinksWrite j false).orphanOrRelease j)
      (names.move false x y i) := by
  have hcount := count_move hs hi hx hxn hy hyn hne
  refine h.drop (hs.target y j hy).1 (count_ne_zero hs.finite hy) rfl rfl rfl (fun c hc => ?_)
    fun c hc => ?_
  · have hcc := hcount c
    simp only [Bool.false_eq_true, if_false] at hcc
    rw [Inodes.iNlink_dec, Inodes.acquired_iNlink]
    omega
  · have hcc := hcount c
    simp only [Bool.false_eq_true, if_false, ind_of_ne hc.symm] at hcc
    rw [Nat.add_zero, Nat.add_zero] at hcc
    rw [hcc]

lemma orphanOrRelease_links (t : Inodes) (hd : d ≠ j) (inc : Bool) :
    (t.orphanOrRelease j).f2fsILinksWrite d inc = (t.f2fsILinksWrite d inc).orphanOrRelease j := by
  have hj : (t.f2fsILinksWrite d inc).iNlink j = t.iNlink j := Function.update_of_ne hd.symm ..
  unfold Inodes.orphanOrRelease
  rw [hj]
  split_ifs <;> rfl

/-- A directory moves over another. -/
lemma moveOverDir (h : Counts t names) (hs : Shape root t.iMode t.inodes live ∅ names)
    (hs' : Shape root t.iMode t.inodes (live \ {j}) ∅ (names.rmdir y.1 y.2 j))
    (hs'' : Shape root t.iMode t.inodes (live \ {j}) ∅ ((names.rmdir y.1 y.2 j).move true x y i))
    (hi : sIsDir (t.iMode i) = true) (hj : sIsDir (t.iMode j) = true)
    (hx : names.rmdir y.1 y.2 j x = some i) (hxn : IsName x.2) (hy : names y = some j)
    (hy' : names.rmdir y.1 y.2 j y = none) (hyn : IsName y.2) (hne : y ≠ x) :
    Counts ((((t.acquired.f2fsILinksWrite j false).f2fsILinksWrite
        j false).orphanOrRelease j).f2fsILinksWrite x.1 false)
      ((names.rmdir y.1 y.2 j).move true x y i) := by
  have hxl := hs'.live_of_some hx
  rw [orphanOrRelease_links _ hxl.2]
  have hcount := count_rmdir hs hyn hy hj
  have hcount' := count_move hs' hi hx hxn hy' hyn hne
  refine h.drop (hs.target y j hy).1 (count_ne_zero hs.finite hy) rfl rfl rfl (fun c hc => ?_)
    fun c hc => ?_
  · have hcc := hcount c
    have hcc' := hcount' c
    simp only [ind_none, if_true] at hcc'
    rw [Inodes.iNlink_dec, Inodes.iNlink_dec, Inodes.iNlink_dec, Inodes.acquired_iNlink]
    omega
  · have hcc := hcount c
    have hcc' := hcount' c
    simp only [ind_none, if_true] at hcc'
    rw [ind_of_ne hc.symm] at hcc
    by_cases hcx : c = x.1
    · rw [hcx]
      simp [hs.count_live hxl.1, hs''.count_live hxl]
    · rw [ind_of_ne fun heq => hcx heq.symm] at hcc'
      omega

/-- What an exchange does to the counts. -/
lemma count_cross (hs : Shape root iMode inodes live ∅ names) {iDir jDir : Bool}
    (hi : sIsDir (iMode i) = iDir) (hj : sIsDir (iMode j) = jDir) (hx : names x = some i)
    (hxn : IsName x.2) (hy : names y = some j) (hyn : IsName y.2) (hne : y ≠ x) (c : ℕ) :
    count (names.cross iDir jDir x y i j) c + (if iDir then ind (some x.1) c else 0)
        + (if jDir then ind (some y.1) c else 0)
      = count names c + (if iDir then ind (some y.1) c else 0)
        + (if jDir then ind (some x.1) c else 0) := by
  have hset := count_set hs.finite hx (some j) c
  have hfin := hs.finite.update x (some j)
  have hset' := count_set hfin (x := y) (o := some j)
    (by rw [Function.update_of_ne hne]; exact hy) (some i) c
  have hfin' := hfin.update y (some i)
  have hdd := count_setParent hfin' iDir (d := x.1)
    (fun hdir => by
      rw [Function.update_of_ne (hyn.ne_dotdot i), Function.update_of_ne (hxn.ne_dotdot i)]
      exact hs.parent_eq hx hxn (hi.trans hdir)) y.1 c
  have hdd' := count_setParent (finite_setParent hfin' iDir i y.1) jDir (i := j) (d := y.1)
    (fun hdir => by
      have hij : j ≠ i := by
        rintro rfl
        exact hne (hs.single y x j (hj.trans hdir) hyn hxn hy hx)
      have hkeep : Names.setParent (Function.update (Function.update names x (some j)) y (some i))
          iDir i y.1 (j, dotdot) = names (j, dotdot) := by
        unfold Names.setParent
        split
        · rw [Function.update_of_ne fun heq => hij (congrArg Prod.fst heq),
            Function.update_of_ne (hyn.ne_dotdot j), Function.update_of_ne (hxn.ne_dotdot j)]
        · rw [Function.update_of_ne (hyn.ne_dotdot j), Function.update_of_ne (hxn.ne_dotdot j)]
      rw [hkeep]
      exact hs.parent_eq hy hyn (hj.trans hdir)) x.1 c
  unfold Names.cross
  omega

/-- `old_nlink` and `new_nlink` of `f2fs_cross_rename`. -/
lemma cross (h : Counts t names) (hs : Shape root t.iMode t.inodes live ∅ names)
    {iDir jDir oldInc newInc : Bool} (hs' : Shape root t.iMode t.inodes live ∅
      (names.cross iDir jDir x y i j))
    (hi : sIsDir (t.iMode i) = iDir) (hj : sIsDir (t.iMode j) = jDir) (hx : names x = some i)
    (hxn : IsName x.2) (hy : names y = some j) (hyn : IsName y.2) (hne : y ≠ x)
    (hold : oldInc = (!(x.1 != y.1 && iDir) && (x.1 != y.1 && jDir)))
    (hnew : newInc = (!(x.1 != y.1 && jDir) && (x.1 != y.1 && iDir))) :
    Counts (if oldInc ∨ newInc then (t.f2fsILinksWrite x.1 oldInc).f2fsILinksWrite y.1 newInc else t)
      (names.cross iDir jDir x y i j) := by
  have hcount := count_cross hs hi hj hx hxn hy hyn hne
  have hxl := hs.live_of_some hx
  have hyl := hs.live_of_some hy
  have hzero : ∀ c, (count (names.cross iDir jDir x y i j) c = 0 ↔ count names c = 0) := by
    intro c
    by_cases hc : c = x.1 ∨ c = y.1
    · have hcl : c ∈ live := by rcases hc with rfl | rfl <;> assumption
      simp [hs.count_live hcl, hs'.count_live hcl]
    · have hcc := hcount c
      rw [ind_of_ne fun heq => hc (Or.inl heq.symm), ind_of_ne fun heq => hc (Or.inr heq.symm)]
        at hcc
      simp only [ite_self, Nat.add_zero] at hcc
      rw [hcc]
  by_cases hsame : x.1 = y.1
  · rw [hold, hnew, hsame]
    simp only [bne_self_eq_false, Bool.false_and, Bool.and_false, Bool.false_eq_true, or_self,
      if_false]
    refine h.congr rfl rfl rfl (fun c hc => ?_) hzero
    have hcc := hcount c
    rw [hsame] at hcc
    omega
  -- only one directory loses an entry
  have hle : ∀ c, ind (some x.1) c ≤ count names c ∧ ind (some y.1) c ≤ count names c := by
    intro c
    have hone : ∀ d ∈ live, ind (some d) c ≤ count names c := by
      intro d hd
      by_cases hcd : d = c
      · subst hcd
        rw [ind_self]
        exact Nat.one_le_iff_ne_zero.mpr (hs.count_live hd)
      · rw [ind_of_ne hcd]
        exact Nat.zero_le _
    exact ⟨hone _ hxl, hone _ hyl⟩
  rw [bne_iff_ne.mpr hsame, Bool.true_and, Bool.true_and] at hold hnew
  cases iDir with
  | false =>
      cases jDir with
      | false =>
          obtain rfl : oldInc = false := hold
          obtain rfl : newInc = false := hnew
          exact h.congr rfl rfl rfl (fun c hc => hc.trans (hcount c).symm) hzero
      | true =>
          obtain rfl : oldInc = true := hold
          obtain rfl : newInc = false := hnew
          rw [if_pos (Or.inl rfl)]
          refine h.congr rfl rfl rfl (fun c hc => ?_) hzero
          have hcc := hcount c
          simp only [Bool.false_eq_true, if_false, if_true] at hcc
          rw [Inodes.iNlink_dec, Inodes.iNlink_inc]
          omega
  | true =>
      cases jDir with
      | false =>
          obtain rfl : oldInc = false := hold
          obtain rfl : newInc = true := hnew
          rw [if_pos (Or.inr rfl)]
          refine h.congr rfl rfl rfl (fun c hc => ?_) hzero
          have hcc := hcount c
          have hlec := (hle c).1
          simp only [Bool.false_eq_true, if_false, if_true] at hcc
          rw [Inodes.iNlink_inc, Inodes.iNlink_dec]
          omega
      | true =>
          obtain rfl : oldInc = false := hold
          obtain rfl : newInc = false := hnew
          refine h.congr rfl rfl rfl (fun c hc => ?_) hzero
          have hcc := hcount c
          simp only [if_true] at hcc
          show t.iNlink c = _
          omega

end Counts

end Hoit.Namei
