import HoitF2fs.Lib.Transition

/-!
# Merged flushes

`fsync` ends with a flush of the device's cache.  With `flush_merge` a caller that is not alone puts
a command on a list without a lock; the flush thread takes the whole list, flushes once and completes
all commands on it.  While there is no thread a caller does this itself.

**The model.**
* `FlushState` — the list, the counter `issing_flush`, each call and its command, and the thread.
  A call is named by a number, and each is made once.
* `flushStep` — one access to what is shared.  What a party does alone goes with the access after it.
* `Life` — the thread between `kthread_run` and its exit, and the pointer to it that callers look at.

**What is recorded besides.**  `now` counts steps.  A command knows when it was queued, a flush when
it started, and a command the flushes with whose result it was completed.
-/

namespace Hoit.FlushMerge

open Transition

/-! ## Flushes -/

/-- What a flush meets: which devices an inode has dirtied, and what the devices answer. -/
structure FlushEnv where
  /-- `f2fs_is_dirty_device`. -/
  dirty : ℕ → ℕ → Bool
  /-- `__submit_flush_wait`. -/
  result : ℕ → ℤ

/-- `submit_flush_wait`: whether some device was flushed, and the error. -/
def submitFlushWait (ndevs : ℕ) (e : FlushEnv) (ino : ℕ) : Bool × ℤ :=
  if ndevs = 0 then (true, e.result 0)
  else
    (List.range ndevs).foldl
      (fun x i => if x.2 ≠ 0 ∨ e.dirty ino i = false then x else (true, e.result i)) (false, 0)

/-- A call of `submit_flush_wait` that has returned. -/
structure Flush where
  startedAt : ℕ
  finishedAt : ℕ
  device : Bool
  ret : ℤ
deriving DecidableEq

/-- A list of commands in the hands of one party, until all are completed. -/
inductive Batch where
  | flushing (cmds : List ℕ) (startedAt : ℕ) (out : Bool × ℤ)
  | completing (cmds : List ℕ) (fl : Flush)
deriving DecidableEq

def Batch.cmds : Batch → List ℕ
  | flushing cmds _ _ => cmds
  | completing cmds _ => cmds

def Batch.startedAt : Batch → ℕ
  | flushing _ startedAt _ => startedAt
  | completing _ fl => fl.startedAt

def Batch.device : Batch → Bool
  | flushing _ _ out => out.1
  | completing _ fl => fl.device

/-! ## Parties -/

/-- Where a call of `f2fs_issue_flush` stands. -/
inductive Caller where
  | idle
  /-- It flushes by itself, alone or for several devices. -/
  | alone (startedAt : ℕ) (out : Bool × ℤ)
  /-- It is in `issing_flush`, and its command is to be queued. -/
  | counted
  /-- Its command is queued; it is to look for the thread. -/
  | queued
  /-- It has seen no thread and is to take the list. -/
  | acting
  | dispatching (b : Batch)
  | waiting
  /-- `none` if `cmd.ret` was never set. -/
  | returned (ret : Option Flush)
deriving DecidableEq

/-- Where `issue_flush_thread` stands. -/
inductive Thread where
  /-- At `repeat`. -/
  | checking
  /-- It is to look at the list. -/
  | looking
  /-- It has seen a list that is not empty, and is to take it. -/
  | taking
  | dispatching (b : Batch)
  | sleeping
  /-- It has read a command where there is none. -/
  | oops
deriving DecidableEq

inductive Life where
  | absent
  /-- `kthread_run` has started it, and the pointer is to be set. -/
  | starting
  /-- `f2fs_issue_flush` points to it. -/
  | present
  /-- The pointer is clear, and it is to be stopped. -/
  | cleared
  /-- `kthread_should_stop`. -/
  | stopping
deriving DecidableEq

/-- `struct flush_cmd`. -/
structure FlushCmd where
  ino : ℕ
  enteredAt : ℕ
  enqueuedAt : Option ℕ
  /-- The flushes with whose result it was completed, the last one last. -/
  served : List Flush

structure FlushState where
  now : ℕ
  /-- `issing_flush`. -/
  issing : ℤ
  /-- `issue_list`, the newest command first. -/
  issueList : List ℕ
  entered : Finset ℕ
  pc : ℕ → Caller
  cmd : ℕ → FlushCmd
  life : Life
  thread : Thread

inductive Party where
  | thread
  | caller (c : ℕ)
deriving DecidableEq

def Caller.batch : Caller → Option Batch
  | dispatching b => some b
  | _ => none

def Thread.batch : Thread → Option Batch
  | dispatching b => some b
  | _ => none

/-- What a party has in its hands. -/
def FlushState.batch (s : FlushState) : Party → Option Batch
  | .thread => s.thread.batch
  | .caller c => (s.pc c).batch

def FlushState.setPc (s : FlushState) (c : ℕ) (v : Caller) : FlushState :=
  { s with pc := Function.update s.pc c v }

def FlushState.setBatch (s : FlushState) (p : Party) (b : Batch) : FlushState :=
  match p with
  | .thread => { s with thread := .dispatching b }
  | .caller c => s.setPc c (.dispatching b)

/-- A command gets its result; a caller that comes upon its own is no longer counted. -/
def FlushState.serve (s : FlushState) (p : Party) (c : ℕ) (fl : Flush) : FlushState :=
  { s with
    cmd := Function.update s.cmd c { s.cmd c with served := (s.cmd c).served ++ [fl] }
    issing := if p = .caller c then s.issing - 1 else s.issing }

/-- The list goes into the hands of a party. -/
def FlushState.take (s : FlushState) (p : Party) (cmds : List ℕ) (out : Bool × ℤ) : FlushState :=
  { s.setBatch p (.flushing cmds s.now out) with issueList := [] }

/-! ## Steps -/

inductive FlushLabel where
  | enter (c ino : ℕ) (e : FlushEnv)
  | aloneEnd (c : ℕ)
  | enqueue (c : ℕ)
  | look (c : ℕ)
  | take (c : ℕ) (e : FlushEnv)
  | flushEnd (p : Party)
  | complete (p : Party)
  | leave (c : ℕ)
  | wakeUp (c : ℕ)
  | threadCheck
  | threadLook
  | threadTake (e : FlushEnv)
  | threadSleep
  | threadWake
  | run
  | publish
  | clear
  | stop

variable (ndevs : ℕ)

/-- The steps, less the count of them. -/
def flushMove (s : FlushState) : FlushLabel → Option FlushState
  -- `f2fs_issue_flush`
  | .enter c ino e =>
      match s.pc c with
      | .idle =>
          some { s with
            issing := s.issing + 1
            entered := insert c s.entered
            cmd := Function.update s.cmd c ⟨ino, s.now, none, []⟩
            pc := Function.update s.pc c
              (if s.issing + 1 = 1 ∨ 1 < ndevs then .alone s.now (submitFlushWait ndevs e ino)
                else .counted) }
      | _ => none
  | .aloneEnd c =>
      match s.pc c with
      | .alone startedAt out =>
          some { s.setPc c (.returned (some ⟨startedAt, s.now, out.1, out.2⟩)) with
            issing := s.issing - 1 }
      | _ => none
  | .enqueue c =>
      match s.pc c with
      | .counted =>
          some { s.setPc c .queued with
            issueList := c :: s.issueList
            cmd := Function.update s.cmd c { s.cmd c with enqueuedAt := some s.now } }
      | _ => none
  | .look c =>
      match s.pc c with
      | .queued => some (s.setPc c (if s.life = .present then .waiting else .acting))
      | _ => none
  | .take c e =>
      match s.pc c with
      | .acting =>
          if s.issueList = [] then some (s.setPc c .waiting)
          else
            some (s.take (.caller c) s.issueList (submitFlushWait ndevs e (s.cmd c).ino))
      | _ => none
  | .leave c =>
      match s.pc c with
      | .dispatching (.completing [] _) => some (s.setPc c (.returned (s.cmd c).served.getLast?))
      | _ => none
  | .wakeUp c =>
      match s.pc c with
      | .waiting =>
          if (s.cmd c).served = [] then none
          else
            some { s.setPc c (.returned (s.cmd c).served.getLast?) with issing := s.issing - 1 }
      | _ => none
  -- whoever has a list
  | .flushEnd p =>
      match s.batch p with
      | some (.flushing cmds startedAt out) =>
          some (s.setBatch p (.completing cmds ⟨startedAt, s.now, out.1, out.2⟩))
      | _ => none
  | .complete p =>
      match s.batch p with
      | some (.completing (c :: cmds) fl) =>
          some ((s.serve p c fl).setBatch p (.completing cmds fl))
      | _ => none
  -- `issue_flush_thread`
  | .threadCheck =>
      match s.life, s.thread with
      | .absent, _ => none
      | .stopping, .checking => some { s with life := .absent }
      | _, .checking => some { s with thread := .looking }
      | _, _ => none
  | .threadLook =>
      match s.thread with
      | .looking => some { s with thread := if s.issueList = [] then .sleeping else .taking }
      | _ => none
  | .threadTake e =>
      match s.thread with
      | .taking =>
          -- The oldest command comes first.
          match s.issueList.reverse with
          | [] => some { s with thread := .oops }
          | c :: cmds => some (s.take .thread (c :: cmds) (submitFlushWait ndevs e (s.cmd c).ino))
      | _ => none
  | .threadSleep =>
      match s.thread with
      | .dispatching (.completing [] _) => some { s with thread := .sleeping }
      | _ => none
  | .threadWake =>
      match s.thread with
      | .sleeping =>
          if s.life = .stopping ∨ s.issueList ≠ [] then some { s with thread := .checking } else none
      | _ => none
  -- `f2fs_create_flush_cmd_control` and `f2fs_destroy_flush_cmd_control`
  | .run =>
      if s.life = .absent then some { s with life := .starting, thread := .checking } else none
  | .publish => if s.life = .starting then some { s with life := .present } else none
  | .clear => if s.life = .present then some { s with life := .cleared } else none
  | .stop => if s.life = .cleared then some { s with life := .stopping } else none

def flushStep (s : FlushState) (a : FlushLabel) : Option FlushState :=
  (flushMove ndevs s a).map fun s' => { s' with now := s.now + 1 }

/-- Neither a new call nor a change of the thread from outside. -/
def FlushLabel.Inside : FlushLabel → Prop
  | enter _ _ _ | run | publish | clear | stop => False
  | _ => True

instance : DecidablePred FlushLabel.Inside
  | .enter .. | .run | .publish | .clear | .stop => isFalse id
  | .aloneEnd _ | .enqueue _ | .look _ | .take .. | .leave _ | .wakeUp _ | .flushEnd _ | .complete _
  | .threadCheck | .threadLook | .threadTake _ | .threadSleep | .threadWake => isTrue trivial

/-- A mounted file system: the thread is there and no call has been made. -/
def mountedFlush : FlushState where
  now := 0
  issing := 0
  issueList := []
  entered := ∅
  pc := fun _ => .idle
  cmd := fun _ => ⟨0, 0, none, []⟩
  life := .present
  thread := .checking

/-! ## What a step does -/

/-- **Everything a step does**, and when. -/
inductive FlushMoved (ndevs : ℕ) (s : FlushState) : FlushLabel → FlushState → Prop
  | enter {c : ℕ} (ino : ℕ) (e : FlushEnv) (hpc : s.pc c = .idle) :
      FlushMoved ndevs s (.enter c ino e) { s with
        issing := s.issing + 1
        entered := insert c s.entered
        cmd := Function.update s.cmd c ⟨ino, s.now, none, []⟩
        pc := Function.update s.pc c
          (if s.issing + 1 = 1 ∨ 1 < ndevs then .alone s.now (submitFlushWait ndevs e ino)
            else .counted) }
  | aloneEnd {c startedAt : ℕ} {out : Bool × ℤ} (hpc : s.pc c = .alone startedAt out) :
      FlushMoved ndevs s (.aloneEnd c)
        { s.setPc c (.returned (some ⟨startedAt, s.now, out.1, out.2⟩)) with
          issing := s.issing - 1 }
  | enqueue {c : ℕ} (hpc : s.pc c = .counted) :
      FlushMoved ndevs s (.enqueue c) { s.setPc c .queued with
        issueList := c :: s.issueList
        cmd := Function.update s.cmd c { s.cmd c with enqueuedAt := some s.now } }
  | look {c : ℕ} (hpc : s.pc c = .queued) :
      FlushMoved ndevs s (.look c) (s.setPc c (if s.life = .present then .waiting else .acting))
  | takeNothing {c : ℕ} (e : FlushEnv) (hpc : s.pc c = .acting) (hlist : s.issueList = []) :
      FlushMoved ndevs s (.take c e) (s.setPc c .waiting)
  | take {c : ℕ} (e : FlushEnv) (hpc : s.pc c = .acting) (hlist : s.issueList ≠ []) :
      FlushMoved ndevs s (.take c e)
        (s.take (.caller c) s.issueList (submitFlushWait ndevs e (s.cmd c).ino))
  | leave {c : ℕ} {fl : Flush} (hpc : s.pc c = .dispatching (.completing [] fl)) :
      FlushMoved ndevs s (.leave c) (s.setPc c (.returned (s.cmd c).served.getLast?))
  | wakeUp {c : ℕ} (hpc : s.pc c = .waiting) (hdone : (s.cmd c).served ≠ []) :
      FlushMoved ndevs s (.wakeUp c)
        { s.setPc c (.returned (s.cmd c).served.getLast?) with issing := s.issing - 1 }
  | flushEnd {p : Party} {cmds : List ℕ} {startedAt : ℕ} {out : Bool × ℤ}
      (hb : s.batch p = some (.flushing cmds startedAt out)) :
      FlushMoved ndevs s (.flushEnd p)
        (s.setBatch p (.completing cmds ⟨startedAt, s.now, out.1, out.2⟩))
  | complete {p : Party} {c : ℕ} {cmds : List ℕ} {fl : Flush}
      (hb : s.batch p = some (.completing (c :: cmds) fl)) :
      FlushMoved ndevs s (.complete p) ((s.serve p c fl).setBatch p (.completing cmds fl))
  | threadExit (hlife : s.life = .stopping) (hth : s.thread = .checking) :
      FlushMoved ndevs s .threadCheck { s with life := .absent }
  | threadGo (hth : s.thread = .checking) (habsent : s.life ≠ .absent)
      (hstop : s.life ≠ .stopping) : FlushMoved ndevs s .threadCheck { s with thread := .looking }
  | threadLook (hth : s.thread = .looking) :
      FlushMoved ndevs s .threadLook
        { s with thread := if s.issueList = [] then .sleeping else .taking }
  | threadOops (e : FlushEnv) (hth : s.thread = .taking) (hlist : s.issueList = []) :
      FlushMoved ndevs s (.threadTake e) { s with thread := .oops }
  | threadTake {c : ℕ} {cmds : List ℕ} (e : FlushEnv) (hth : s.thread = .taking)
      (hrev : s.issueList.reverse = c :: cmds) :
      FlushMoved ndevs s (.threadTake e)
        (s.take .thread (c :: cmds) (submitFlushWait ndevs e (s.cmd c).ino))
  | threadSleep {fl : Flush} (hth : s.thread = .dispatching (.completing [] fl)) :
      FlushMoved ndevs s .threadSleep { s with thread := .sleeping }
  | threadWake (hth : s.thread = .sleeping) (hwake : s.life = .stopping ∨ s.issueList ≠ []) :
      FlushMoved ndevs s .threadWake { s with thread := .checking }
  | run (hlife : s.life = .absent) :
      FlushMoved ndevs s .run { s with life := .starting, thread := .checking }
  | publish (hlife : s.life = .starting) : FlushMoved ndevs s .publish { s with life := .present }
  | clear (hlife : s.life = .present) : FlushMoved ndevs s .clear { s with life := .cleared }
  | stop (hlife : s.life = .cleared) : FlushMoved ndevs s .stop { s with life := .stopping }

lemma flushMove_moved {ndevs : ℕ} {s s' : FlushState} {a : FlushLabel}
    (h : flushMove ndevs s a = some s') : FlushMoved ndevs s a s' := by
  cases a with
  | enter c ino e =>
      simp only [flushMove] at h
      split at h
      · next hpc => exact Option.some.inj h ▸ .enter ino e hpc
      · simp at h
  | aloneEnd c =>
      simp only [flushMove] at h
      split at h
      · next hpc => exact Option.some.inj h ▸ .aloneEnd hpc
      · simp at h
  | enqueue c =>
      simp only [flushMove] at h
      split at h
      · next hpc => exact Option.some.inj h ▸ .enqueue hpc
      · simp at h
  | look c =>
      simp only [flushMove] at h
      split at h
      · next hpc => exact Option.some.inj h ▸ .look hpc
      · simp at h
  | take c e =>
      simp only [flushMove] at h
      split at h
      · next hpc =>
          split_ifs at h with hlist
          · exact Option.some.inj h ▸ .takeNothing e hpc hlist
          · exact Option.some.inj h ▸ .take e hpc hlist
      · simp at h
  | leave c =>
      simp only [flushMove] at h
      split at h
      · next hpc => exact Option.some.inj h ▸ .leave hpc
      · simp at h
  | wakeUp c =>
      simp only [flushMove] at h
      split at h
      · next hpc =>
          obtain ⟨hdone, h⟩ := Option.ite_none_left_eq_some.mp h
          exact Option.some.inj h ▸ .wakeUp hpc hdone
      · simp at h
  | flushEnd p =>
      simp only [flushMove] at h
      split at h
      · next hb => exact Option.some.inj h ▸ .flushEnd hb
      · simp at h
  | complete p =>
      simp only [flushMove] at h
      split at h
      · next hb => exact Option.some.inj h ▸ .complete hb
      · simp at h
  | threadCheck =>
      simp only [flushMove] at h
      split at h
      · simp at h
      · next hlife hth => exact Option.some.inj h ▸ .threadExit hlife hth
      · next hth habsent hstop => exact Option.some.inj h ▸ .threadGo hth habsent hstop
      · simp at h
  | threadLook =>
      simp only [flushMove] at h
      split at h
      · next hth => exact Option.some.inj h ▸ .threadLook hth
      · simp at h
  | threadTake e =>
      simp only [flushMove] at h
      split at h
      · next hth =>
          split at h
          · next hrev => exact Option.some.inj h ▸ .threadOops e hth (List.reverse_eq_nil_iff.mp hrev)
          · next hrev => exact Option.some.inj h ▸ .threadTake e hth hrev
      · simp at h
  | threadSleep =>
      simp only [flushMove] at h
      split at h
      · next hth => exact Option.some.inj h ▸ .threadSleep hth
      · simp at h
  | threadWake =>
      simp only [flushMove] at h
      split at h
      · next hth =>
          obtain ⟨hwake, h⟩ := Option.ite_none_right_eq_some.mp h
          exact Option.some.inj h ▸ .threadWake hth hwake
      · simp at h
  | run =>
      obtain ⟨hlife, h⟩ := Option.ite_none_right_eq_some.mp h
      exact Option.some.inj h ▸ .run hlife
  | publish =>
      obtain ⟨hlife, h⟩ := Option.ite_none_right_eq_some.mp h
      exact Option.some.inj h ▸ .publish hlife
  | clear =>
      obtain ⟨hlife, h⟩ := Option.ite_none_right_eq_some.mp h
      exact Option.some.inj h ▸ .clear hlife
  | stop =>
      obtain ⟨hlife, h⟩ := Option.ite_none_right_eq_some.mp h
      exact Option.some.inj h ▸ .stop hlife

end Hoit.FlushMerge
