import HoitF2fs.Dir.NameiRuns

/-!
# A directory that leaves a whiteout behind

`f2fs_rename` writes the new parent into a directory that has moved, unless there is a whiteout in
its old place.  The link counts it changes as if it always did.

* `Tree.movedOut` — the names after that.
* `rename_dir_beside` — how far the call does what one without a whiteout does.
* `rename_dir_whiteout` — **the `..` of the directory still leads to the old parent**, so that the
  directories are no tree and two counts are wrong.
-/

namespace Hoit.Namei

open Dir NodePath ByteStore RefCount

variable {lay : AddrLayout} {root max : ℕ} {t : Tree} {fs fs' : Fs} {i : ℕ} {x y : ℕ × List Byte}
  {env : RenameEnv} {target : Option ℕ} {w : Whiteout}

/-- What the call is for, but `..` of the directory leads to the old parent. -/
def Tree.movedOut (t : Tree) (x y : ℕ × List Byte) (i : ℕ) (target : Option ℕ) (w : Whiteout) :
    Tree :=
  (((t.withWhiteout (some w)).rename x y i target).set x (some w.ino)).set (i, dotdot) (some x.1)

/-- The names without an empty directory that is replaced. -/
def Names.without (names : Names) (y : ℕ × List Byte) : Option ℕ → Names
  | none => names
  | some j => names.rmdir y.1 y.2 j

lemma rename_dir_names (hdir : t.isDir i = true) (x y : ℕ × List Byte) (target : Option ℕ) :
    (t.rename x y i target).names = (t.names.without y target).move true x y i := by
  unfold Tree.rename
  rw [hdir]
  cases target <;> rfl

lemma move_old (names : Names) (hxn : IsName x.2) (hne : y ≠ x) :
    names.move true x y i x = none :=
  (Function.update_of_ne (hxn.ne_dotdot i).symm ..).trans
    ((Function.update_of_ne hne.symm ..).trans (Function.update_self ..))

lemma move_dot (names : Names) (hxn : IsName x.2) (hyn : IsName y.2) (c : ℕ) :
    names.move true x y i (c, dot) = names (c, dot) :=
  (Function.update_of_ne (fun heq => dot_ne_dotdot (congrArg Prod.snd heq)) ..).trans
    ((Function.update_of_ne (hyn.ne_dot c) ..).trans (Function.update_of_ne (hxn.ne_dot c) ..))

/-- The old parent is still there. -/
lemma rename_dir_live (hdir : t.isDir i = true) (hxn : IsName x.2) (hyn : IsName y.2)
    (hxl : x.1 ∈ t.names.live) (hj : ∀ j, target = some j → j ≠ x.1) :
    x.1 ∈ (t.rename x y i target).names.live := by
  show (t.rename x y i target).names (x.1, dot) ≠ none
  rw [rename_dir_names hdir, move_dot _ hxn hyn]
  cases target with
  | none => exact hxl
  | some j =>
      have hne := (hj j rfl).symm
      show t.names.rmdir y.1 y.2 j (x.1, dot) ≠ none
      unfold Names.rmdir
      rw [Function.update_of_ne fun heq => hne (congrArg Prod.fst heq),
        Function.update_of_ne fun heq => hne (congrArg Prod.fst heq),
        Function.update_of_ne (hyn.ne_dot x.1)]
      exact hxl

/-- **Of a directory that is left, all names are known.** -/
lemma movedOut_names (hdir : (t.withWhiteout (some w)).isDir i = true) (hxn : IsName x.2)
    (hyn : IsName y.2) (hdd : t.names (i, dotdot) = some x.1) {c : ℕ}
    (hc : c ∈ (t.movedOut x y i target w).names.live) :
    c ∈ t.names.live ∧ ∀ n, (t.movedOut x y i target w).names (c, n)
      = Function.update (Function.update t.names y (some i)) x (some w.ino) (c, n) := by
  have hnames : (t.movedOut x y i target w).names = Function.update (Function.update
      ((t.names.without y target).move true x y i) x (some w.ino)) (i, dotdot) (some x.1) :=
    congrArg (fun m : ℕ × List Byte → Option ℕ => Function.update (Function.update m x (some w.ino))
      (i, dotdot) (some x.1)) (rename_dir_names hdir x y target)
  have hdot : t.names.without y target (c, dot) ≠ none := by
    have hc' : (t.movedOut x y i target w).names (c, dot) ≠ none := hc
    rwa [hnames, Function.update_of_ne fun heq => dot_ne_dotdot (congrArg Prod.snd heq),
      Function.update_of_ne (hxn.ne_dot c), move_dot _ hxn hyn] at hc'
  have hsame : c ∈ t.names.live ∧ ∀ n, (t.names.without y target).move true x y i (c, n)
      = t.names.move true x y i (c, n) := by
    cases target with
    | none => exact ⟨hdot, fun _ => rfl⟩
    | some j =>
        have hcj : c ≠ j := by
          rintro rfl
          exact hdot ((Function.update_of_ne (fun heq => dot_ne_dotdot (congrArg Prod.snd heq))
            ..).trans (Function.update_self ..))
        refine ⟨fun hno => hdot ?_, fun n => rmdir_move_eq t.names hcj n⟩
        by_contra hsome
        obtain ⟨k, hk⟩ := Option.ne_none_iff_exists'.mp hsome
        exact Option.some_ne_none k ((rmdir_less hk).symm.trans hno)
  refine ⟨hsame.1, fun n => ?_⟩
  rw [hnames]
  by_cases h1 : (c, n) = (i, dotdot)
  · rw [h1, Function.update_self, Function.update_of_ne (hxn.ne_dotdot i),
      Function.update_of_ne (hyn.ne_dotdot i), hdd]
  rw [Function.update_of_ne h1]
  by_cases h2 : (c, n) = x
  · rw [h2, Function.update_self, Function.update_self]
  rw [Function.update_of_ne h2, Function.update_of_ne h2, hsame.2]
  refine (Function.update_of_ne h1 ..).trans ?_
  by_cases h3 : (c, n) = y
  · rw [h3, Function.update_self, Function.update_self]
  · rw [Function.update_of_ne h3, Function.update_of_ne h3, Function.update_of_ne h2]

lemma initLink_iNlink (u : Inodes) (ino c : ℕ) :
    (u.initLink ino true).iNlink c = u.iNlink c + ind (some ino) c := by
  unfold Inodes.initLink Inodes.f2fsRemoveOrphanInode
  rw [if_pos rfl, Inodes.iNlink_inc]
  split_ifs <;> rfl

/-- In a directory `..` leads to one parent, whatever names it stands for. -/
lemma DirsInv.dotdot_eq {live live' : Set ℕ} {names names' : Names} {d d' : ℕ}
    (h : DirsInv lay live names fs) (h' : DirsInv lay live' names' fs) (hi : i ∈ live)
    (hi' : i ∈ live') (hd : names (i, dotdot) = some d) (hd' : names' (i, dotdot) = some d') :
    d = d' := by
  have hmap : dirMap fs.iMode names i dotdot = some (d, f2fsTypeByMode (fs.iMode d)) := by
    unfold dirMap
    rw [hd, Option.map_some]
  have hmap' : dirMap fs.iMode names' i dotdot = some (d', f2fsTypeByMode (fs.iMode d')) := by
    unfold dirMap
    rw [hd', Option.map_some]
  obtain ⟨p, e, he, hname⟩ := (h.isMap i hi).complete _ _ hmap
  have hone := (h.isMap i hi).sound p e he
  have hother := (h'.isMap i hi').sound p e he
  rw [hname, hmap] at hone
  rw [hname, hmap'] at hother
  exact congrArg Prod.fst (Option.some.inj (hone.trans hother.symm))

/-- Beside the rename there is one that leaves no whiteout.  They differ in `..`, and in what the
whiteout does to the counts. -/
lemma rename_dir_beside (h : FsInv lay root max t fs)
    (hp : ProperRename root t env x y i target none) (hdir : t.isDir i = true)
    (hino : w.ino ∉ t.inodes) (hname : x.2 ≠ [] ∧ x.2.length ≤ f2fsNameLen)
    (hdone : f2fsRename lay fs env x.1 x.2 i y.1 y.2 target (some w) = some (0, fs')) :
    ∃ (v : Inodes) (fs₅ : Fs),
      FsInv lay root max ((t.withWhiteout (some w)).rename x y i target) fs₅ ∧
      x.1 ∈ ((t.withWhiteout (some w)).rename x y i target).names.live ∧
      fs₅.toInodes = v.f2fsILinksWrite x.1 false ∧
      fs'.toInodes = (v.initLink w.ino true).f2fsILinksWrite x.1 false ∧
      DirsInv lay t.names.live
        (Function.update (Function.update t.names y (some i)) x (some w.ino)) fs' := by
  rcases whiteout_half h hp hino with ⟨e, fs₁, he, -, -, hrename⟩ |
    ⟨-, hempty, fs₂, parent, q, fs₃, h₂, hsome, hhalf, hrename⟩
  · exact absurd (congrArg Prod.fst (Option.some.inj (hrename.symm.trans hdone))) he
  have hkind := fun {z k} (hz : t.names z = some k) => h.newInode_isDir hino whiteoutMode hz
  have hdir₂ := (hkind hp.old).trans hdir
  rw [hdir] at hsome hhalf
  rw [hrename] at hdone
  unfold Fs.renameTail Outcome.andThen at hdone
  dsimp only at hdone
  -- the old entry goes, and the whiteout comes
  have hxl := h.shape.live_of_some hp.old
  obtain ⟨hin, hdirs, -⟩ := hhalf.delete hxl hp.oldName hp.ne env.del
  have hfree : Function.update (Function.update t.names x none) y (some i) x = none := by
    rw [Function.update_of_ne hp.ne.symm, Function.update_self]
  obtain ⟨e, fs₄, hlinked, hadd⟩ := addLink_spec hdirs hxl
    ⟨hp.oldName, hname.1, hname.2, fun _ => hfree⟩ w.ino false true
  rw [link_file fs₄ env.addWhiteout x.1 fun hno => absurd hno Bool.false_ne_true] at hadd
  rw [hadd, Option.bind_some] at hdone
  by_cases he : e = 0
  swap
  · dsimp only at hdone
    rw [if_neg he, Option.map_some, if_neg he] at hdone
    exact absurd (congrArg Prod.fst (Option.some.inj hdone)) he
  obtain ⟨p, rfl⟩ := Option.isSome_iff_exists.mp hsome
  rw [if_pos he, if_pos he] at hdone
  dsimp only at hdone
  rw [if_neg fun hno => Option.some_ne_none w (Option.isNone_iff_eq_none.mp hno.2),
    Option.map_some, if_pos rfl] at hdone
  obtain rfl := congrArg Prod.snd (Option.some.inj hdone)
  have hmode : sIsDir (fs.iMode i) = true := (h.isDir_of_name hp.old).symm.trans hdir
  -- without the whiteout
  obtain ⟨fs₅, -, hin₅, hdirs₅⟩ := hhalf.tail hxl hp.oldName hp.newName hp.ne hsome
    (fun _ => ⟨(h.shape.target x i hp.old).2 hmode, h.shape.parent_eq hp.old hp.oldName hmode⟩) env
  rw [if_pos rfl] at hin₅
  have h₅ : FsInv lay root max ((t.newInode w.ino whiteoutMode).rename x y i target) fs₅ :=
    h₂.rename hp.old hp.oldName hp.new hp.live hp.newName hp.ne
      (fun j hj => by rw [hkind (hp.new.trans hj), hkind hp.old, (hp.same j hj).2])
      (fun _ => hp.below hdir) (fun j hj _ => hempty j hj hdir) (by rw [hdir₂]; exact hin₅)
      (by rw [hdir₂]; exact hdirs₅)
  have hwhite : Function.update (Function.update (Function.update t.names x none) y (some i)) x
      (some w.ino) = Function.update (Function.update t.names y (some i)) x (some w.ino) := by
    rw [Function.update_comm hp.ne.symm, Function.update_idem]
  have hdirs' : DirsInv lay t.names.live (Function.update (Function.update
      (Function.update t.names x none) y (some i)) x (some w.ino)) fs₄ := (hlinked.added he).2
  rw [hwhite] at hdirs'
  have hlive := rename_dir_live hdir₂ hp.oldName hp.newName hxl fun j hj heq => by
    have hgone := hempty j hj hdir x.2 hp.oldName
    rw [heq] at hgone
    exact Option.some_ne_none i (hp.old.symm.trans hgone)
  refine ⟨_, fs₅, h₅, hlive, hin₅, ?_, hdirs'.congr_inodes (fun _ _ => rfl) fun _ k _ => ?_⟩
  · rw [← hin, ← hlinked.inodes]
  · show (fs₄.initLink w.ino true).iMode k = fs₄.iMode k
    rw [Inodes.initLink_iMode]

/-- **The directory has its new name, but `..` leads to where it was.**  So the count of the old
parent is one too small, and that of the new one too large, and the directories are no tree. -/
theorem rename_dir_whiteout (h : FsInv lay root max t fs)
    (hp : ProperRename root t env x y i target none) (hdir : t.isDir i = true) (hxy : x.1 ≠ y.1)
    (hino : w.ino ∉ t.inodes) (hname : x.2 ≠ [] ∧ x.2.length ≤ f2fsNameLen)
    (hdone : f2fsRename lay fs env x.1 x.2 i y.1 y.2 target (some w) = some (0, fs')) :
    DirsInv lay (t.movedOut x y i target w).names.live (t.movedOut x y i target w).names fs' ∧
      (∀ c ∈ fs'.inodes, fs'.iNlink c + ind (some x.1) c
        = count (t.movedOut x y i target w).names c + ind (some y.1) c) ∧
      ∀ t', FsInv lay root max t' fs' → t'.names y ≠ some i := by
  have hmode : sIsDir (fs.iMode i) = true := (h.isDir_of_name hp.old).symm.trans hdir
  have hdd := h.shape.parent_eq hp.old hp.oldName hmode
  obtain ⟨v, fs₅, h₅, hlive, hin₅, hin, hdirs⟩ := rename_dir_beside h hp hdir hino hname hdone
  have hdir₂ : (t.withWhiteout (some w)).isDir i = true :=
    (h.newInode_isDir hino whiteoutMode hp.old).trans hdir
  have hleft := fun {c : ℕ} (hc : c ∈ (t.movedOut x y i target w).names.live) =>
    movedOut_names hdir₂ hp.oldName hp.newName hdd hc
  refine ⟨hdirs.congr_names (fun c hc => (hleft hc).1) fun c hc => (hleft hc).2, fun c hc => ?_,
    fun t' h' hy' => hxy ?_⟩
  · -- the counts are those of the rename beside, with the whiteout
    have hnames := rename_dir_names hdir₂ x y target
    have hfin := h₅.shape.finite
    have hfree : ((t.withWhiteout (some w)).rename x y i target).names x = none := by
      rw [hnames, move_old _ hp.oldName hp.ne]
    have hinodes : fs'.inodes = fs₅.inodes := by
      rw [hin, hin₅, Inodes.links_inodes, Inodes.initLink_inodes, Inodes.links_inodes]
    have hcount := h₅.counts.links c (hinodes ▸ hc)
    have hold : 0 < count ((t.withWhiteout (some w)).rename x y i target).names x.1 :=
      Nat.pos_of_ne_zero (count_ne_zero hfin (h₅.shape.self x.1 hlive))
    have hwhite := count_set hfin hfree (some w.ino) c
    have hparent := count_set (x := (i, dotdot)) (o := some y.1) (hfin.update x (some w.ino)) (by
      rw [Function.update_of_ne (hp.oldName.ne_dotdot i), hnames]
      exact Function.update_self ..) (some x.1) c
    rw [hin₅, Inodes.iNlink_dec] at hcount
    rw [ind_none] at hwhite
    rw [hin, Inodes.iNlink_dec, initLink_iNlink]
    show _ = count (Function.update (Function.update _ x (some w.ino)) (i, dotdot) (some x.1)) c + _
    have hind : ind (some x.1) c ≤ v.iNlink c := by
      by_cases hxc : x.1 = c
      · subst hxc
        rw [ind_self] at hcount ⊢
        omega
      · rw [ind_of_ne hxc]
        exact Nat.zero_le _
    omega
  · have hmode' : sIsDir (fs'.iMode i) = true := by
      have hsame : fs'.iMode = fs₅.iMode := by
        rw [hin, hin₅, Inodes.links_iMode, Inodes.initLink_iMode, Inodes.links_iMode]
      have hmem : i ∈ ((t.withWhiteout (some w)).rename x y i target).inodes :=
        Finset.mem_insert_of_mem (h.mem_of_name hp.old)
      rw [hsame, h₅.iMode i hmem]
      exact hdir₂
    exact hdirs.dotdot_eq h'.dirs ((h.shape.target x i hp.old).2 hmode)
      ((h'.shape.target y i hy').2 hmode') (by
        rw [Function.update_of_ne (hp.oldName.ne_dotdot i), Function.update_of_ne
          (hp.newName.ne_dotdot i), hdd]) (h'.shape.parent_eq hy' hp.newName hmode')

/-- What a `mkdir` that returns 0 has done. -/
lemma mkdir_done {a : AddEnv} {d ino mode : ℕ} {name : List Byte} (h : FsInv lay root max t fs)
    (hnew : NewEntry t a d name ino mode true)
    (hdone : f2fsMkdir lay fs a d name ino mode = some (0, fs')) :
    FsInv lay root max (t.after (.mkdir a d name ino mode)) fs' := by
  obtain ⟨e, fs₁, t', hrun, hstep, h'⟩ := mkdir_spec h hnew
  obtain ⟨rfl, rfl⟩ := Prod.mk.inj (Option.some.inj (hrun.symm.trans hdone))
  cases hstep with
  | done _ => exact h'
  | failed herr => exact absurd rfl (AddErr.ne_zero herr)

/-- Nothing fails. -/
def calmRename : RenameEnv where
  add := calmAdd
  addWhiteout := calmAdd
  del := calmEnv

/-- The root with two directories. -/
def twoDirs : Tree :=
  ((rootTree 3).after (.mkdir calmAdd 3 [0x61] 4 0x41ED)).after (.mkdir calmAdd 3 [0x62] 5 0x41ED)

lemma twoDirs_proper : ProperRename 3 twoDirs calmRename (3, [0x61]) (5, [0x61]) 4 none none where
  old := by decide
  oldName := ⟨by decide, by decide⟩
  new := by decide
  newName := ⟨by decide, by decide⟩
  live := show twoDirs.names (5, dot) ≠ none by decide
  ne := by decide
  add _ := ⟨⟨by decide, by decide⟩, by decide, by decide, fun h => absurd h Bool.false_ne_true⟩
  same j hj := absurd hj.symm (Option.some_ne_none j)
  below _ hup := by
    -- above the second directory there is only the root
    rcases Relation.ReflTransGen.cases_head hup with heq | ⟨p, ⟨-, hp⟩, hup'⟩
    · exact absurd heq (by decide)
    · obtain rfl : 3 = p := Option.some.inj ((by decide : twoDirs.names.parent 5 = some 3) ▸ hp)
      exact absurd (GoUp.Up.of_stop hup' rfl) (by decide)
  noWhiteout _ := rfl
  fresh w hw := absurd hw.symm (Option.some_ne_none w)
  whiteoutName w hw := absurd hw.symm (Option.some_ne_none w)

theorem rename_dir_whiteout_two :
    ∃ fs fs', FsInv plainLayout 3 16 twoDirs fs ∧
      f2fsRename plainLayout fs calmRename 3 [0x61] 4 5 [0x61] none (some ⟨6, none⟩)
        = some (0, fs') ∧
      (twoDirs.movedOut (3, [0x61]) (5, [0x61]) 4 none ⟨6, none⟩).names (4, dotdot) = some 3 ∧
      DirsInv plainLayout (twoDirs.movedOut (3, [0x61]) (5, [0x61]) 4 none ⟨6, none⟩).names.live
        (twoDirs.movedOut (3, [0x61]) (5, [0x61]) 4 none ⟨6, none⟩).names fs' ∧
      (∀ c ∈ fs'.inodes, fs'.iNlink c + ind (some 3) c
        = count (twoDirs.movedOut (3, [0x61]) (5, [0x61]) 4 none ⟨6, none⟩).names c
          + ind (some 5) c) ∧
      ∀ t', FsInv plainLayout 3 16 t' fs' → t'.names (5, [0x61]) ≠ some 4 := by
  have hcalls : ((f2fsMkdir plainLayout (rootFs 3 16) calmAdd 3 [0x61] 4 0x41ED).bind fun a =>
      (f2fsMkdir plainLayout a.2 calmAdd 3 [0x62] 5 0x41ED).bind fun b =>
        (f2fsRename plainLayout b.2 calmRename 3 [0x61] 4 5 [0x61] none (some ⟨6, none⟩)).map
          fun c => (a.1, b.1, c.1)) = some (0, 0, 0) := by decide +kernel
  have hname : ∀ {t : Tree} {name : List Byte}, IsName name → name ≠ [] →
      name.length ≤ f2fsNameLen → NewName t.names calmAdd 3 name := fun hn hne hlen =>
    ⟨hn, hne, hlen, fun h => absurd h Bool.false_ne_true⟩
  have hfirst : NewEntry (rootTree 3) calmAdd 3 [0x61] 4 0x41ED true :=
    ⟨show (rootTree 3).names (3, dot) ≠ none by decide,
      hname ⟨by decide, by decide⟩ (by decide) (by decide), by decide, by decide⟩
  have hsecond : NewEntry ((rootTree 3).after (.mkdir calmAdd 3 [0x61] 4 0x41ED)) calmAdd 3 [0x62] 5
      0x41ED true :=
    ⟨show Tree.names _ (3, dot) ≠ none by decide,
      hname ⟨by decide, by decide⟩ (by decide) (by decide), by decide, by decide⟩
  obtain ⟨⟨e₁, fs₁⟩, hrun₁, hcalls⟩ := Option.bind_eq_some_iff.mp hcalls
  obtain ⟨⟨e₂, fs₂⟩, hrun₂, hcalls⟩ := Option.bind_eq_some_iff.mp hcalls
  obtain ⟨⟨e₃, fs₃⟩, hdone, hcalls⟩ := Option.map_eq_some_iff.mp hcalls
  obtain ⟨rfl, rfl, rfl⟩ : e₁ = 0 ∧ e₂ = 0 ∧ e₃ = 0 := by simpa using hcalls
  have h₁ := mkdir_done (rootFs_inv plainLayout 3 16) hfirst hrun₁
  have h₂ := mkdir_done h₁ hsecond hrun₂
  exact ⟨fs₂, fs₃, h₂, hdone, rfl, rename_dir_whiteout h₂ twoDirs_proper (by decide) (by decide)
    (by decide) ⟨by decide, by decide⟩ hdone⟩

end Hoit.Namei
