import HoitF2fs.Dir.Namei
import HoitF2fs.Lib.GoUp
import HoitF2fs.Lib.RefCount

/-!
# The names of a file system

What the names of a file system look like, apart from the blocks that they are in: a table that leads
from a directory and a name to an inode.

* `Shape` — **the directories form a tree**: each has `.`, and `..` leads to the directory that has
  its one name; going up by `..` one gets to the root.  Directories that are `loose` have no name at
  the moment, and one stops there.
* `Shape.setEntry`, `Shape.detach`, `Shape.attach`, `Shape.born`, `Shape.die` — what may happen to a
  name: all calls are put together from these.
-/

namespace Hoit.Namei

open Dir ByteStore GoUp

/-- Where the names lead to. -/
abbrev Names := ℕ × List Byte → Option ℕ

/-- A name other than `.` and `..`. -/
def IsName (name : List Byte) : Prop := name ≠ dot ∧ name ≠ dotdot

def Names.parent (names : Names) (c : ℕ) : Option ℕ := names (c, dotdot)

/-- `live` are the directories that are not about to go. -/
structure Shape (root : ℕ) (iMode : ℕ → ℕ) (inodes : Finset ℕ) (live loose : Set ℕ)
    (names : Names) : Prop where
  finite : RefCount.Finite names
  live_mem : ∀ d ∈ live, d ∈ inodes ∧ sIsDir (iMode d) = true
  dead : ∀ d name, d ∉ live → names (d, name) = none
  target : ∀ x i, names x = some i → i ∈ inodes ∧ (sIsDir (iMode i) = true → i ∈ live)
  self : ∀ d ∈ live, names (d, dot) = some d
  top : root ∈ live ∧ names (root, dotdot) = some root
  named : ∀ c ∈ live, c ≠ root → c ∉ loose →
    ∃ p name, names (c, dotdot) = some p ∧ IsName name ∧ names (p, name) = some c
  loose_sub : ∀ c ∈ loose, c ∈ live ∧ c ≠ root ∧ ∀ x, IsName x.2 → names x ≠ some c
  single : ∀ x y i, sIsDir (iMode i) = true → IsName x.2 → IsName y.2 → names x = some i →
    names y = some i → x = y
  rootless : ∀ x, IsName x.2 → names x ≠ some root
  up : ∀ c ∈ live, ∃ r ∈ insert root loose, Up names.parent (insert root loose) c r

variable {root d i : ℕ} {iMode : ℕ → ℕ} {inodes : Finset ℕ} {live loose : Set ℕ} {names : Names}
  {name : List Byte}

lemma dot_ne_dotdot : dot ≠ dotdot := by decide

lemma IsName.ne_dot (h : IsName name) (c : ℕ) : (c, dot) ≠ (d, name) := fun heq =>
  h.1 (congrArg Prod.snd heq).symm

lemma IsName.ne_dotdot (h : IsName name) (c : ℕ) : (c, dotdot) ≠ (d, name) := fun heq =>
  h.2 (congrArg Prod.snd heq).symm

/-- A name does not change the way up. -/
lemma parent_update_name (h : IsName name) (o : Option ℕ) :
    Names.parent (Function.update names (d, name) o) = names.parent :=
  funext fun c => Function.update_of_ne (h.ne_dotdot c) ..

lemma parent_update_dotdot (c : ℕ) (o : Option ℕ) :
    Names.parent (Function.update names (c, dotdot) o) = Function.update names.parent c o := by
  funext c'
  unfold Names.parent
  by_cases h : c' = c
  · rw [h, Function.update_self, Function.update_self]
  · rw [Function.update_of_ne h, Function.update_of_ne fun heq => h (congrArg Prod.fst heq)]

namespace Shape

/-- Only a directory that is there has names. -/
lemma live_of_some {x : ℕ × List Byte} (h : Shape root iMode inodes live loose names)
    (hx : names x = some i) : x.1 ∈ live := by
  by_contra hd
  have hnone : names x = none := h.dead x.1 x.2 hd
  rw [hnone] at hx
  exact Option.some_ne_none i hx.symm

/-- Inodes that no name leads to may come, go and change. -/
lemma congr_inodes {iMode' : ℕ → ℕ} {inodes' : Finset ℕ}
    (h : Shape root iMode inodes live loose names)
    (hsame : ∀ x i, names x = some i → i ∈ inodes' ∧ iMode' i = iMode i) :
    Shape root iMode' inodes' live loose names where
  finite := h.finite
  live_mem d hd := by
    obtain ⟨hin, hmode⟩ := hsame _ d (h.self d hd)
    exact ⟨hin, hmode ▸ (h.live_mem d hd).2⟩
  dead := h.dead
  target x i hx := by
    obtain ⟨hin, hmode⟩ := hsame x i hx
    exact ⟨hin, hmode ▸ (h.target x i hx).2⟩
  self := h.self
  top := h.top
  named := h.named
  loose_sub := h.loose_sub
  single x y i hi hx hy hxi := h.single x y i ((hsame x i hxi).2 ▸ hi) hx hy hxi
  rootless := h.rootless
  up := h.up

/-! ## Names of files -/

/-- A name leads to another file, or to none, or to one for the first time. -/
lemma setEntry {o : Option ℕ} (h : Shape root iMode inodes live loose names) (hd : d ∈ live)
    (hname : IsName name) (hold : ∀ i, names (d, name) = some i → sIsDir (iMode i) = false)
    (hnew : ∀ i, o = some i → i ∈ inodes ∧ sIsDir (iMode i) = false) :
    Shape root iMode inodes live loose (Function.update names (d, name) o) := by
  -- what leads to a directory is as it was
  have hdir : ∀ x i, sIsDir (iMode i) = true →
      (Function.update names (d, name) o x = some i ↔ names x = some i) := by
    intro x i hi
    by_cases hx : x = (d, name)
    · rw [hx, Function.update_self]
      constructor
      · intro ho
        rw [(hnew i ho).2] at hi
        exact absurd hi Bool.false_ne_true
      · intro hx'
        rw [hold i hx'] at hi
        exact absurd hi Bool.false_ne_true
    · rw [Function.update_of_ne hx]
  refine ⟨h.finite.update _ _, h.live_mem, fun c n hc => ?_, fun x i hx => ?_, fun c hc => ?_,
    ⟨h.top.1, ?_⟩, fun c hc hne hl => ?_, fun c hc => ?_, fun x y i hi hx hy hxi hyi => ?_,
    fun x hx => ?_, fun c hc => ?_⟩
  · rw [Function.update_of_ne]
    · exact h.dead c n hc
    · rintro heq
      obtain ⟨rfl, -⟩ := Prod.mk.inj heq
      exact hc hd
  · by_cases hx' : x = (d, name)
    · rw [hx', Function.update_self] at hx
      obtain ⟨hin, hfile⟩ := hnew i hx
      exact ⟨hin, fun hi => absurd (hfile.symm.trans hi) Bool.false_ne_true⟩
    · rw [Function.update_of_ne hx'] at hx
      exact h.target x i hx
  · rw [Function.update_of_ne (hname.ne_dot c)]
    exact h.self c hc
  · rw [Function.update_of_ne (hname.ne_dotdot root)]
    exact h.top.2
  · obtain ⟨p, n, hp, hn, hpn⟩ := h.named c hc hne hl
    refine ⟨p, n, ?_, hn, (hdir _ c (h.live_mem c hc).2).mpr hpn⟩
    rw [Function.update_of_ne (hname.ne_dotdot c)]
    exact hp
  · obtain ⟨hlive, hne, hno⟩ := h.loose_sub c hc
    exact ⟨hlive, hne, fun x hx hxc => hno x hx ((hdir x c (h.live_mem c hlive).2).mp hxc)⟩
  · exact h.single x y i hi hx hy ((hdir x i hi).mp hxi) ((hdir y i hi).mp hyi)
  · exact fun hxr => h.rootless x hx ((hdir x root (h.live_mem root h.top.1).2).mp hxr)
  · rw [parent_update_name hname]
    exact h.up c hc

/-! ## Names of directories -/

/-- A directory loses its name. -/
lemma detach (h : Shape root iMode inodes live loose names) (d : ℕ) (name : List Byte)
    (hname : IsName name) (hdi : names (d, name) = some i) (hi : sIsDir (iMode i) = true) :
    Shape root iMode inodes live (insert i loose) (Function.update names (d, name) none) := by
  have hlive := (h.target _ i hdi).2 hi
  have hroot : i ≠ root := fun heq => h.rootless _ hname (heq ▸ hdi)
  have hless : ∀ x j, Function.update names (d, name) none x = some j →
      x ≠ (d, name) ∧ names x = some j := by
    intro x j hx
    by_cases hx' : x = (d, name)
    · rw [hx', Function.update_self] at hx
      exact absurd hx.symm (Option.some_ne_none j)
    · rw [Function.update_of_ne hx'] at hx
      exact ⟨hx', hx⟩
  refine ⟨h.finite.update _ _, h.live_mem, fun c n hc => ?_,
    fun x j hx => h.target x j (hless x j hx).2, fun c hc => ?_, ⟨h.top.1, ?_⟩,
    fun c hc hne hl => ?_, fun c hc => ?_, fun x y j hj hx hy hxj hyj => h.single x y j hj hx hy
      (hless x j hxj).2 (hless y j hyj).2, fun x hx hxr => h.rootless x hx (hless x root hxr).2,
    fun c hc => ?_⟩
  · by_cases hx : (c, n) = (d, name)
    · rw [hx, Function.update_self]
    · rw [Function.update_of_ne hx]
      exact h.dead c n hc
  · rw [Function.update_of_ne (hname.ne_dot c)]
    exact h.self c hc
  · rw [Function.update_of_ne (hname.ne_dotdot root)]
    exact h.top.2
  · obtain ⟨p, n, hp, hn, hpn⟩ := h.named c hc hne fun hcl => hl (Or.inr hcl)
    refine ⟨p, n, ?_, hn, ?_⟩
    · rw [Function.update_of_ne (hname.ne_dotdot c)]
      exact hp
    · rw [Function.update_of_ne]
      · exact hpn
      · intro heq
        rw [heq, hdi] at hpn
        exact hl (Or.inl (Option.some.inj hpn).symm)
  · rcases hc with rfl | hc
    · refine ⟨hlive, hroot, fun x hx hxc => ?_⟩
      obtain ⟨hne, hxc⟩ := hless x _ hxc
      exact hne (h.single x _ _ hi hx hname hxc hdi)
    · obtain ⟨hl, hne, hno⟩ := h.loose_sub c hc
      exact ⟨hl, hne, fun x hx hxc => hno x hx (hless x c hxc).2⟩
  · rw [parent_update_name hname]
    obtain ⟨r, hr, hup⟩ := h.up c hc
    exact hup.more_stops hr (Set.insert_subset_insert (Set.subset_insert i loose))

/-- A directory without a name gets one, in a directory from where one does not get to it. -/
lemma attach (h : Shape root iMode inodes live loose names) (d : ℕ) (name : List Byte)
    (hd : d ∈ live) (hname : IsName name) (hfree : names (d, name) = none) (hi : i ∈ loose)
    (hup : Up names.parent (insert root loose) d root) :
    Shape root iMode inodes live (loose \ {i})
      (Function.update (Function.update names (d, name) (some i)) (i, dotdot) (some d)) := by
  obtain ⟨hlive, hroot, hno⟩ := h.loose_sub i hi
  have hne : (d, name) ≠ (i, dotdot) := (hname.ne_dotdot i).symm
  set names' := Function.update (Function.update names (d, name) (some i)) (i, dotdot) (some d)
    with hnames'
  have hself : names' (d, name) = some i := by
    rw [hnames', Function.update_of_ne hne, Function.update_self]
  have hdd : names' (i, dotdot) = some d := Function.update_self ..
  have hother : ∀ x, x ≠ (d, name) → x ≠ (i, dotdot) → names' x = names x := fun x h1 h2 => by
    rw [hnames', Function.update_of_ne h2, Function.update_of_ne h1]
  -- the names other than `.` and `..`
  have hproper : ∀ x j, IsName x.2 → names' x = some j →
      x = (d, name) ∧ j = i ∨ names x = some j := by
    intro x j hx hxj
    by_cases hx' : x = (d, name)
    · rw [hx', hself] at hxj
      exact Or.inl ⟨hx', (Option.some.inj hxj).symm⟩
    · rw [hother x hx' fun heq => hx.2 (heq ▸ rfl)] at hxj
      exact Or.inr hxj
  have hset : insert root loose \ {i} = insert root (loose \ {i}) :=
    Set.insert_sdiff_of_notMem loose fun heq => hroot heq.symm
  have hparent : Names.parent names' = Function.update names.parent i (some d) := by
    rw [hnames', parent_update_dotdot, parent_update_name hname]
  refine ⟨(h.finite.update _ _).update _ _, h.live_mem, fun c n hc => ?_, fun x j hx => ?_,
    fun c hc => ?_, ⟨h.top.1, ?_⟩, fun c hc hcr hl => ?_, fun c hc => ?_,
    fun x y j hj hx hy hxj hyj => ?_, fun x hx hxr => ?_, fun c hc => ?_⟩
  · rw [hother]
    · exact h.dead c n hc
    · intro heq
      obtain ⟨rfl, -⟩ := Prod.mk.inj heq
      exact hc hd
    · intro heq
      obtain ⟨rfl, -⟩ := Prod.mk.inj heq
      exact hc hlive
  · by_cases h1 : x = (d, name)
    · rw [h1, hself] at hx
      obtain rfl := Option.some.inj hx
      exact ⟨(h.live_mem i hlive).1, fun _ => hlive⟩
    · by_cases h2 : x = (i, dotdot)
      · rw [h2, hdd] at hx
        obtain rfl := Option.some.inj hx
        exact ⟨(h.live_mem d hd).1, fun _ => hd⟩
      · rw [hother x h1 h2] at hx
        exact h.target x j hx
  · rw [hother _ (hname.ne_dot c) fun heq => dot_ne_dotdot (congrArg Prod.snd heq)]
    exact h.self c hc
  · rw [hother _ (hname.ne_dotdot root) fun heq => hroot (congrArg Prod.fst heq).symm]
    exact h.top.2
  · by_cases hci : c = i
    · subst hci
      exact ⟨d, name, hdd, hname, hself⟩
    · obtain ⟨p, n, hp, hn, hpn⟩ := h.named c hc hcr fun hcl => hl ⟨hcl, hci⟩
      refine ⟨p, n, ?_, hn, ?_⟩
      · rw [hother _ (hname.ne_dotdot c) fun heq => hci (congrArg Prod.fst heq)]
        exact hp
      · rw [hother _ _ (hn.ne_dotdot i).symm]
        · exact hpn
        · intro heq
          rw [heq, hfree] at hpn
          exact Option.some_ne_none c hpn.symm
  · obtain ⟨hl, hcr, hcno⟩ := h.loose_sub c hc.1
    refine ⟨hl, hcr, fun x hx hxc => ?_⟩
    rcases hproper x c hx hxc with ⟨-, hci⟩ | hxc
    · exact hc.2 hci
    · exact hcno x hx hxc
  · rcases hproper x j hx hxj with ⟨h1, h2⟩ | hxj'
    · rcases hproper y j hy hyj with ⟨h3, -⟩ | hyj'
      · exact h1.trans h3.symm
      · exact absurd (h2 ▸ hyj') (hno y hy)
    · rcases hproper y j hy hyj with ⟨-, h2⟩ | hyj'
      · exact absurd (h2 ▸ hxj') (hno x hx)
      · exact h.single x y j hj hx hy hxj' hyj'
  · rcases hproper x root hx hxr with ⟨-, heq⟩ | hxr
    · exact hroot heq.symm
    · exact h.rootless x hx hxr
  · obtain ⟨r, hr, hcup⟩ := h.up c hc
    rw [hparent, ← hset]
    exact hcup.attach hr (Or.inr hi) hup (Or.inl rfl) hroot.symm

/-- A new directory, without a name yet. -/
lemma born (h : Shape root iMode inodes live loose names) (hi : i ∈ inodes)
    (hdir : sIsDir (iMode i) = true) (hfresh : ∀ x, names x ≠ some i) :
    Shape root iMode inodes (insert i live) (insert i loose)
      (Function.update names (i, dot) (some i)) := by
  have hdead : i ∉ live := fun hlive => hfresh _ (h.self i hlive)
  have hroot : i ≠ root := fun heq => hdead (heq ▸ h.top.1)
  set names' := Function.update names (i, dot) (some i) with hnames'
  have hother : ∀ c n, (c ≠ i ∨ n ≠ dot) → names' (c, n) = names (c, n) := by
    intro c n hne
    refine Function.update_of_ne (fun heq => ?_) ..
    obtain ⟨rfl, rfl⟩ := Prod.mk.inj heq
    exact hne.elim (fun h => h rfl) fun h => h rfl
  have hproper : ∀ x : ℕ × List Byte, IsName x.2 → names' x = names x := fun x hx =>
    hother x.1 x.2 (Or.inr hx.1)
  have hparent : Names.parent names' = names.parent :=
    funext fun c => hother c dotdot (Or.inr dot_ne_dotdot.symm)
  refine ⟨h.finite.update _ _, fun c hc => ?_, fun c n hc => ?_, fun x j hx => ?_, fun c hc => ?_,
    ⟨Or.inr h.top.1, ?_⟩, fun c hc hcr hl => ?_, fun c hc => ?_,
    fun x y j hj hx hy hxj hyj => ?_, fun x hx hxr => ?_, fun c hc => ?_⟩
  · rcases hc with rfl | hc
    · exact ⟨hi, hdir⟩
    · exact h.live_mem c hc
  · rw [hother c n (Or.inl fun heq => hc (Or.inl heq))]
    exact h.dead c n fun hlive => hc (Or.inr hlive)
  · by_cases hx' : x = (i, dot)
    · rw [hx', hnames', Function.update_self] at hx
      obtain rfl := Option.some.inj hx
      exact ⟨hi, fun _ => Or.inl rfl⟩
    · rw [hnames', Function.update_of_ne hx'] at hx
      obtain ⟨hin, hlive⟩ := h.target x j hx
      exact ⟨hin, fun hj => Or.inr (hlive hj)⟩
  · by_cases hci : c = i
    · rw [hci]
      exact Function.update_self ..
    · rw [hother c dot (Or.inl hci)]
      exact h.self c (hc.resolve_left hci)
  · rw [hother root dotdot (Or.inl hroot.symm)]
    exact h.top.2
  · have hci : c ≠ i := fun heq => hl (Or.inl heq)
    obtain ⟨p, n, hp, hn, hpn⟩ := h.named c (hc.resolve_left hci) hcr fun hcl => hl (Or.inr hcl)
    refine ⟨p, n, ?_, hn, ?_⟩
    · rw [hother c dotdot (Or.inl hci)]
      exact hp
    · rw [hproper _ hn]
      exact hpn
  · rcases hc with rfl | hc
    · exact ⟨Or.inl rfl, hroot, fun x hx hxc => hfresh x (hproper x hx ▸ hxc)⟩
    · obtain ⟨hl, hcr, hno⟩ := h.loose_sub c hc
      exact ⟨Or.inr hl, hcr, fun x hx hxc => hno x hx (hproper x hx ▸ hxc)⟩
  · rw [hproper x hx] at hxj
    rw [hproper y hy] at hyj
    exact h.single x y j hj hx hy hxj hyj
  · rw [hproper x hx] at hxr
    exact h.rootless x hx hxr
  · rw [hparent]
    rcases hc with rfl | hc
    · exact ⟨_, Or.inr (Or.inl rfl), .refl⟩
    · obtain ⟨r, hr, hup⟩ := h.up c hc
      exact hup.more_stops hr (Set.insert_subset_insert (Set.subset_insert i loose))

/-- An empty directory without a name goes. -/
lemma die (h : Shape root iMode inodes live {i} names)
    (hempty : ∀ name, IsName name → names (i, name) = none) :
    Shape root iMode inodes (live \ {i}) ∅
      (Function.update (Function.update names (i, dot) none) (i, dotdot) none) := by
  obtain ⟨hlive, hroot, hno⟩ := h.loose_sub i rfl
  set names' := Function.update (Function.update names (i, dot) none) (i, dotdot) none
    with hnames'
  have hgone : ∀ name, names' (i, name) = none := by
    intro name
    by_cases h1 : name = dotdot
    · rw [h1]
      exact Function.update_self ..
    by_cases h2 : name = dot
    · rw [hnames', h2, Function.update_of_ne, Function.update_self]
      exact fun heq => dot_ne_dotdot (congrArg Prod.snd heq)
    · rw [hnames', Function.update_of_ne, Function.update_of_ne]
      · exact hempty name ⟨h2, h1⟩
      · exact fun heq => h2 (congrArg Prod.snd heq)
      · exact fun heq => h1 (congrArg Prod.snd heq)
  have hother : ∀ c name, c ≠ i → names' (c, name) = names (c, name) := by
    intro c name hc
    rw [hnames', Function.update_of_ne fun heq => hc (congrArg Prod.fst heq),
      Function.update_of_ne fun heq => hc (congrArg Prod.fst heq)]
  have hless : ∀ x j, names' x = some j → names x = some j := by
    rintro ⟨c, name⟩ j hx
    by_cases hc : c = i
    · rw [hc, hgone] at hx
      exact absurd hx.symm (Option.some_ne_none j)
    · rwa [hother c name hc] at hx
  -- no other directory is in the one that goes
  have hchild : ∀ c ≠ i, names (c, dotdot) ≠ some i := by
    intro c hc hci
    have hcl := h.live_of_some hci
    have hcr : c ≠ root := by
      rintro rfl
      rw [h.top.2] at hci
      exact hc (Option.some.inj hci)
    obtain ⟨p, n, hp, hn, hpn⟩ := h.named c hcl hcr hc
    obtain rfl := Option.some.inj (hp.symm.trans hci)
    rw [hempty n hn] at hpn
    exact Option.some_ne_none c hpn.symm
  refine ⟨(h.finite.update _ _).update _ _, fun c hc => h.live_mem c hc.1, fun c n hc => ?_,
    fun x j hx => ?_, fun c hc => ?_, ⟨⟨h.top.1, hroot.symm⟩, ?_⟩, fun c hc hcr _ => ?_,
    fun c hc => hc.elim, fun x y j hj hx hy hxj hyj => h.single x y j hj hx hy (hless x j hxj)
      (hless y j hyj), fun x hx hxr => h.rootless x hx (hless x root hxr), fun c hc => ?_⟩
  · by_cases hci : c = i
    · rw [hci]
      exact hgone n
    · rw [hother c n hci]
      exact h.dead c n fun hcl => hc ⟨hcl, hci⟩
  · obtain ⟨hin, hl⟩ := h.target x j (hless x j hx)
    refine ⟨hin, fun hj => ⟨hl hj, ?_⟩⟩
    rintro rfl
    obtain ⟨c, n⟩ := x
    have hc : c ≠ j := by
      rintro rfl
      rw [hgone n] at hx
      exact Option.some_ne_none c hx.symm
    rw [hother c n hc] at hx
    by_cases h1 : n = dot
    · rw [h1, h.self c (h.live_of_some hx)] at hx
      exact hc (Option.some.inj hx)
    · by_cases h2 : n = dotdot
      · exact hchild c hc (h2 ▸ hx)
      · exact hno (c, n) ⟨h1, h2⟩ hx
  · rw [hother c dot hc.2]
    exact h.self c hc.1
  · rw [hother root dotdot hroot.symm]
    exact h.top.2
  · obtain ⟨p, n, hp, hn, hpn⟩ := h.named c hc.1 hcr hc.2
    refine ⟨p, n, ?_, hn, ?_⟩
    · rw [hother c dotdot hc.2]
      exact hp
    · rw [hother p n]
      · exact hpn
      · rintro rfl
        exact hchild c hc.2 hp
  · obtain ⟨r, hr, hup⟩ := h.up c hc.1
    have hri : r ≠ i := hup.ne_of_no_child hc.2 fun a ha hai =>
      hchild a (fun heq => ha (Or.inr heq)) hai
    have hup' : Up (Names.parent names') (insert root {i}) c r :=
      hup.congr fun a ha => hother a dotdot fun heq => ha (Or.inr heq)
    exact ⟨r, Or.inl (hr.resolve_right hri),
      hup'.fewer_stops (Set.insert_subset_insert (Set.empty_subset _))⟩

end Shape

end Hoit.Namei
