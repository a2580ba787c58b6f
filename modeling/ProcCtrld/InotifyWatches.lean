import ProcCtrld.Lts
import ProcCtrld.Daemon

/-!
# ProcCtrld.InotifyWatches

The watches that `process_surveillance_requests` and `add_event_inotifyFd` (`events.c`) install, and the
kernel that holds them. An entry with a size gets an inotify instance of its own; the others share the
instance of `main`, where a file has one watch.

* `watch_acks_truthful_iff` — an acknowledged watch is there exactly when the calls for the entry succeed or
  such a watch was there before: the acknowledgement is sent whatever the calls return.
* `watches_accumulate_iff` — over all sequences of requests whose calls succeed, everything acknowledged
  stays watched exactly while no request takes a kind from the mask of the shared watch of its file that
  nothing else reports.
-/

namespace ProcCtrld

def IN_MASK_CREATE : BitVec 32 := 0x10000000

def IN_MASK_ADD : BitVec 32 := 0x20000000

/-- The number of bits of `IN_ALL_EVENTS`; each is a kind of event. -/
def nKinds : Nat := 12

/-- Every kind of event in `mask` is in `w`. -/
def Covers (w mask : BitVec 32) : Prop := ∀ i < nKinds, mask.getLsbD i → w.getLsbD i

/-- An inotify instance. `size` is what is stored with it in the epoll interest list, `none` while it is
not there. -/
structure Instance (File : Type) where
  watches : File → Option (BitVec 32)
  size : Option Int

/-- `shared` is the instance of `main`, if it could be opened, and `own` are those of the entries with
a size. -/
structure InotifyKernel (File : Type) where
  shared : Option (Instance File)
  own : List (Instance File)

/-- What the system does for an entry: the file its path leads to, and which calls it lets succeed. -/
structure WatchOs (File : Type) where
  file : Option File
  inotifyInit : Bool
  addWatch : Bool
  malloc : Bool
  epollCtl : Bool

section Model

variable {File : Type} [DecidableEq File]

namespace Instance

def new : Instance File := ⟨fun _ => none, none⟩

/-- The mask of a watch after `inotify_add_watch`, given the mask it had. -/
def mergeMask (mask : BitVec 32) : Option (BitVec 32) → BitVec 32
  | some old => if mask &&& IN_MASK_ADD ≠ 0 then old ||| mask else mask
  | none => mask

/-- `inotify_add_watch`; `none` when it returns -1. With `IN_MASK_CREATE` there must be no watch yet. -/
def addWatch (i : Instance File) (mask : BitVec 32) (os : WatchOs File) : Option (Instance File) :=
  match os.file with
  | some f =>
    if os.addWatch ∧ (mask &&& IN_MASK_CREATE = 0 ∨ i.watches f = none) then
      some { i with watches := Function.update i.watches f (some (mergeMask mask (i.watches f))) }
    else none
  | none => none

end Instance

/-- `add_event_inotifyFd`. It closes the descriptor when there is no memory, and keeps it, unregistered,
when `epoll_ctl` fails. -/
def addEventInotifyFd (i : Instance File) (size : Int) (os : WatchOs File) : Option (Instance File) :=
  if os.malloc then some (if os.epollCtl then { i with size := some size } else i) else none

namespace InotifyKernel

/-- The instance that `main` creates. -/
def main (os : WatchOs File) : InotifyKernel File where
  shared := if os.inotifyInit then addEventInotifyFd .new 0 os else none
  own := []

/-- The INOTIFY case. No result of a call is looked at; on the descriptor -1 they all fail. -/
def watch (k : InotifyKernel File) (mask : BitVec 32) (size : Nat) (os : WatchOs File) : InotifyKernel File :=
  if 0 < size then
    if os.inotifyInit then
      let i := (Instance.new.addWatch mask os).getD .new
      { k with own := k.own ++ (addEventInotifyFd i (asI32 size) os).toList }
    else k
  else { k with shared := k.shared.map fun i => (i.addWatch mask os).getD i }

def instances (k : InotifyKernel File) : List (Instance File) := k.shared.toList ++ k.own

end InotifyKernel

/-- An entry of `to_watch` with the kernel before it and when its message is sent. -/
structure Answer (File : Type) where
  before : InotifyKernel File
  entry : Option Surveillance
  os : WatchOs File
  after : InotifyKernel File
  msgs : List Msg

/-- The body of the loop of `process_surveillance_requests`. -/
def processEntry (k : InotifyKernel File) (entry : Option Surveillance) (os : WatchOs File) : Answer File where
  before := k
  entry := entry
  os := os
  after :=
    match entry with
    | some (.inotify _ mask size) => k.watch (BitVec.ofInt 32 mask) size os
    | _ => k
  msgs := surveillanceAck entry

def processSurveillanceRequests (k : InotifyKernel File) :
    List (Option Surveillance × WatchOs File) → List (Answer File)
  | [] => []
  | (entry, os) :: rest =>
    let a := processEntry k entry os
    a :: processSurveillanceRequests a.after rest

theorem processSurveillanceRequests_msgs (k : InotifyKernel File) (sock : Fd)
    (entries : List (Option Surveillance × WatchOs File)) :
    ((processSurveillanceRequests k entries).flatMap Answer.msgs).map (fun m => ⟨sock, m, none⟩) =
      surveillanceAcks sock (entries.map (·.1)) := by
  unfold surveillanceAcks
  congr 1
  induction entries generalizing k with
  | nil => rfl
  | cons e rest ih =>
    rw [List.map_cons, List.flatMap_cons, ← ih (processEntry k e.1 e.2).after]
    rfl

/-! ## Truthful acknowledgements -/

/-- A registered instance has a watch for the file with all kinds of the mask. -/
def Instance.Watches (i : Instance File) (f : File) (mask : BitVec 32) : Prop :=
  i.size.isSome ∧ ∃ w, i.watches f = some w ∧ Covers w mask

def InotifyKernel.Installed (k : InotifyKernel File) (file : Option File) (mask : BitVec 32) : Prop :=
  ∃ f, file = some f ∧ ∃ i ∈ k.instances, i.Watches f mask

/-- `InotifyWatchListUpdated` is sent for an INOTIFY entry only if the watch is installed then. -/
def Answer.Truthful (a : Answer File) : Prop :=
  ∀ path mask size, a.entry = some (.inotify path mask size) → .inotifyWatchListUpdated path ∈ a.msgs →
    a.after.Installed a.os.file (BitVec.ofInt 32 mask)

/-- All the calls for the entry succeed, and the descriptor of `main` is registered if it is used. -/
def InotifyKernel.Succeeds (k : InotifyKernel File) (mask : BitVec 32) (size : Nat) (os : WatchOs File) : Prop :=
  if 0 < size then
    os.inotifyInit ∧ (Instance.new.addWatch mask os).isSome ∧ os.malloc ∧ os.epollCtl
  else ∃ i, k.shared = some i ∧ i.size.isSome ∧ (i.addWatch mask os).isSome

/-- The calls for an INOTIFY entry succeed, or such a watch was there already. -/
def Answer.Backed (a : Answer File) : Prop :=
  ∀ path mask size, a.entry = some (.inotify path mask size) →
    a.before.Succeeds (BitVec.ofInt 32 mask) size a.os ∨ a.before.Installed a.os.file (BitVec.ofInt 32 mask)

theorem covers_mergeMask (mask : BitVec 32) (old : Option (BitVec 32)) :
    Covers (Instance.mergeMask mask old) mask := by
  intro n _ hn
  unfold Instance.mergeMask
  split
  · split
    · rw [BitVec.getLsbD_or, hn, Bool.or_true]
    · exact hn
  · exact hn

theorem getLsbD_mergeMask (mask old : BitVec 32) (n : Nat) :
    (Instance.mergeMask mask (some old)).getLsbD n = true ↔
      mask.getLsbD n = true ∨ (mask &&& IN_MASK_ADD ≠ 0 ∧ old.getLsbD n = true) := by
  by_cases hadd : mask &&& IN_MASK_ADD ≠ 0
  · simp only [Instance.mergeMask, if_pos hadd, BitVec.getLsbD_or, Bool.or_eq_true]
    rw [or_comm, and_iff_right hadd]
  · simp only [Instance.mergeMask, if_neg hadd]
    exact ⟨.inl, fun h => h.resolve_right fun h' => hadd h'.1⟩

section Calls

variable {i i' : Instance File} {mask : BitVec 32} {os : WatchOs File} {f : File}

theorem addWatch_eq (h : i.addWatch mask os = some i') :
    ∃ f, os.file = some f ∧
      i' = { i with watches := Function.update i.watches f (some (Instance.mergeMask mask (i.watches f))) } := by
  unfold Instance.addWatch at h
  split at h
  · rename_i f hf
    split at h
    · cases h
      exact ⟨f, hf, rfl⟩
    · cases h
  · cases h

theorem addWatch_size (h : i.addWatch mask os = some i') : i'.size = i.size := by
  obtain ⟨f, -, rfl⟩ := addWatch_eq h
  rfl

theorem addWatch_watches (h : i.addWatch mask os = some i') (hsize : i'.size.isSome) (hfile : os.file = some f) :
    i'.Watches f mask := by
  obtain ⟨f', hf', rfl⟩ := addWatch_eq h
  rw [hfile, Option.some.injEq] at hf'
  subst hf'
  exact ⟨hsize, _, Function.update_self .., covers_mergeMask mask _⟩

theorem isSome_file (h : (i.addWatch mask os).isSome) : ∃ f, os.file = some f := by
  obtain ⟨i', hi'⟩ := Option.isSome_iff_exists.1 h
  obtain ⟨f, hf, -⟩ := addWatch_eq hi'
  exact ⟨f, hf⟩

/-- The instance of an entry with a size is registered and watches the file exactly when all calls
succeed. -/
theorem new_watches_iff (hfile : os.file = some f) (size : Int) :
    (∃ j ∈ (addEventInotifyFd ((Instance.new.addWatch mask os).getD .new) size os).toList, j.Watches f mask) ↔
      (Instance.new.addWatch mask os).isSome ∧ os.malloc ∧ os.epollCtl := by
  unfold addEventInotifyFd
  constructor
  · rintro ⟨j, hj, hsize, w, hw, -⟩
    split at hj
    · rename_i hmalloc
      rw [Option.toList_some, List.mem_singleton] at hj
      subst hj
      cases hadd : Instance.new.addWatch mask os with
      | none =>
        rw [hadd] at hw
        split at hw <;> cases hw
      | some i =>
        refine ⟨rfl, hmalloc, ?_⟩
        by_contra hepoll
        rw [hadd, if_neg hepoll, Option.getD_some, addWatch_size hadd] at hsize
        cases hsize
    · cases hj
  · rintro ⟨hadd, hmalloc, hepoll⟩
    obtain ⟨i, hi⟩ := Option.isSome_iff_exists.1 hadd
    rw [if_pos hmalloc, if_pos hepoll, hi, Option.getD_some]
    obtain ⟨f', hf', rfl⟩ := addWatch_eq hi
    rw [hfile, Option.some.injEq] at hf'
    subst hf'
    exact ⟨_, List.mem_singleton_self _, rfl, _, Function.update_self .., covers_mergeMask mask _⟩

end Calls

section Kernel

variable {k : InotifyKernel File} {mask : BitVec 32} {os : WatchOs File}

theorem installed_own_iff (size : Nat) (hsize : 0 < size) :
    (k.watch mask size os).Installed os.file mask ↔
      k.Succeeds mask size os ∨ k.Installed os.file mask := by
  unfold InotifyKernel.watch InotifyKernel.Succeeds
  rw [if_pos hsize, if_pos hsize]
  split
  · rename_i hinit
    simp only [InotifyKernel.Installed, InotifyKernel.instances, List.mem_append, hinit, true_and]
    constructor
    · rintro ⟨f, hf, i, hi | hi | hi, hw⟩
      · exact .inr ⟨f, hf, i, .inl hi, hw⟩
      · exact .inr ⟨f, hf, i, .inr hi, hw⟩
      · exact .inl ((new_watches_iff hf _).1 ⟨i, hi, hw⟩)
    · rintro (h | ⟨f, hf, i, hi | hi, hw⟩)
      · obtain ⟨f, hf⟩ := isSome_file h.1
        obtain ⟨i, hi, hw⟩ := (new_watches_iff hf (asI32 size)).2 h
        exact ⟨f, hf, i, .inr (.inr hi), hw⟩
      · exact ⟨f, hf, i, .inl hi, hw⟩
      · exact ⟨f, hf, i, .inr (.inl hi), hw⟩
  · rename_i hinit
    simp [hinit]

theorem installed_shared_iff :
    (k.watch mask 0 os).Installed os.file mask ↔ k.Succeeds mask 0 os ∨ k.Installed os.file mask := by
  unfold InotifyKernel.watch InotifyKernel.Succeeds
  rw [if_neg (lt_irrefl 0), if_neg (lt_irrefl 0)]
  obtain ⟨shared, own⟩ := k
  cases shared with
  | none => simp
  | some i =>
    simp only [InotifyKernel.Installed, InotifyKernel.instances, Option.map_some, Option.toList_some,
      List.singleton_append, List.mem_cons, Option.some.injEq, exists_eq_left', exists_eq_or_imp]
    cases hadd : i.addWatch mask os with
    | none => simp
    | some i' =>
      simp only [Option.getD_some, Option.isSome_some, and_true]
      constructor
      · rintro ⟨f, hf, hw | hw⟩
        · exact .inl (addWatch_size hadd ▸ hw.1)
        · exact .inr ⟨f, hf, .inr hw⟩
      · rintro (hsize | ⟨f, hf, hw | hw⟩)
        · obtain ⟨f, hf, -⟩ := addWatch_eq hadd
          exact ⟨f, hf, .inl (addWatch_watches hadd (addWatch_size hadd ▸ hsize) hf)⟩
        · exact ⟨f, hf, .inl (addWatch_watches hadd (addWatch_size hadd ▸ hw.1) hf)⟩
        · exact ⟨f, hf, .inr hw⟩

theorem installed_watch_iff (size : Nat) :
    (k.watch mask size os).Installed os.file mask ↔
      k.Succeeds mask size os ∨ k.Installed os.file mask := by
  rcases Nat.eq_zero_or_pos size with rfl | hsize
  · exact installed_shared_iff
  · exact installed_own_iff size hsize

end Kernel

theorem truthful_processEntry_iff (k : InotifyKernel File) (entry : Option Surveillance) (os : WatchOs File) :
    (processEntry k entry os).Truthful ↔ (processEntry k entry os).Backed := by
  unfold Answer.Truthful Answer.Backed
  refine forall_congr' fun path => forall_congr' fun mask => forall_congr' ?_
  intro size
  simp only [processEntry]
  constructor
  · rintro h rfl
    exact (installed_watch_iff size).1 (h rfl (List.mem_singleton_self _))
  · rintro h rfl _
    exact (installed_watch_iff size).2 (h rfl)

/-- For every kernel, every list of entries and every pattern of successes and failures. -/
theorem watch_acks_truthful_iff (k : InotifyKernel File) (entries : List (Option Surveillance × WatchOs File)) :
    (∀ a ∈ processSurveillanceRequests k entries, a.Truthful) ↔
      ∀ a ∈ processSurveillanceRequests k entries, a.Backed := by
  induction entries generalizing k with
  | nil => simp [processSurveillanceRequests]
  | cons e rest ih =>
    simp only [processSurveillanceRequests, List.forall_mem_cons]
    exact and_congr (truthful_processEntry_iff k e.1 e.2) (ih _)

end Model

/-- All calls succeed on this file. -/
def allSucceed {File : Type} (file : Option File) : WatchOs File := ⟨file, true, true, true, true⟩

/-- The path of the only entry leads nowhere; the watch is acknowledged all the same. -/
theorem missing_path_acknowledged :
    (processSurveillanceRequests (InotifyKernel.main (allSucceed (none : Option String)))
      [(some (.inotify "/none" 0x100 0), allSucceed none)]).map Answer.msgs =
        [[.inotifyWatchListUpdated "/none"]] ∧
    ¬ ∀ a ∈ processSurveillanceRequests (InotifyKernel.main (allSucceed (none : Option String)))
      [(some (.inotify "/none" 0x100 0), allSucceed none)], a.Truthful := by
  refine ⟨by decide, ?_⟩
  intro h
  obtain ⟨f, hf, -⟩ := h _ (List.mem_singleton_self _) "/none" 0x100 0 rfl (List.mem_singleton_self _)
  cases hf

/-! ## Watches accumulate -/

/-- The watches after some requests, and the paths and masks that were acknowledged. -/
structure Watching (File : Type) where
  kernel : InotifyKernel File
  acked : List (String × BitVec 32)

def Watching.start (File : Type) : Watching File := ⟨.main (allSucceed none), []⟩

section Accumulate

variable {File : Type}

/-- An event of kind `n` on the file is read from this instance. -/
def Instance.Reads (i : Instance File) (f : File) (n : Nat) : Prop :=
  i.size.isSome ∧ ∃ w, i.watches f = some w ∧ w.getLsbD n

namespace InotifyKernel

def SharedReads (k : InotifyKernel File) (f : File) (n : Nat) : Prop := ∃ i, k.shared = some i ∧ i.Reads f n

def OwnReads (k : InotifyKernel File) (f : File) (n : Nat) : Prop := ∃ i ∈ k.own, i.Reads f n

end InotifyKernel

theorem ownReads_congr {k k' : InotifyKernel File} (h : k'.own = k.own) (f : File) (n : Nat) :
    k'.OwnReads f n ↔ k.OwnReads f n := by
  unfold InotifyKernel.OwnReads
  rw [h]

theorem sharedReads_congr {k k' : InotifyKernel File} (h : k'.shared = k.shared) (f : File) (n : Nat) :
    k'.SharedReads f n ↔ k.SharedReads f n := by
  unfold InotifyKernel.SharedReads
  rw [h]

variable [DecidableEq File] (resolve : String → BitVec 32 → Option File)

/-- One entry, when all its calls succeed. `resolve` is what a path leads to; it depends on the mask, which
may hold `IN_DONT_FOLLOW`. -/
def requestWatch (s : Watching File) : Option Surveillance → Option (Watching File)
  | some (.inotify path mask size) =>
    let mask := BitVec.ofInt 32 mask
    let os := allSucceed (resolve path mask)
    let i := if 0 < size then some .new else s.kernel.shared
    if (i.bind fun i => i.addWatch mask os).isSome then
      some ⟨s.kernel.watch mask size os, s.acked ++ [(path, mask)]⟩
    else none
  | _ => some s

/-- Every kind of every acknowledged mask is still reported for its path. -/
def Accumulated (s : Watching File) : Prop :=
  ∀ p ∈ s.acked, ∀ n < nKinds, p.2.getLsbD n →
    ∃ f, resolve p.1 p.2 = some f ∧ (s.kernel.SharedReads f n ∨ s.kernel.OwnReads f n)

/-- A request without a size keeps every kind that the shared watch of its file has, or the file has it
from another instance. -/
def KeepsKinds (s : Watching File) : Option Surveillance → Prop
  | some (.inotify path mask 0) =>
    ∀ f, resolve path (BitVec.ofInt 32 mask) = some f → ∀ n < nKinds, s.kernel.SharedReads f n →
      (BitVec.ofInt 32 mask).getLsbD n ∨ BitVec.ofInt 32 mask &&& IN_MASK_ADD ≠ 0 ∨ s.kernel.OwnReads f n
  | _ => True

/-- What the requests keep. The kinds of a shared watch have all been asked for. -/
structure WatchingInv (s : Watching File) : Prop where
  accumulated : Accumulated resolve s
  registered : ∃ i, s.kernel.shared = some i ∧ i.size.isSome
  asked : ∀ f n, n < nKinds → s.kernel.SharedReads f n →
    ∃ p ∈ s.acked, resolve p.1 p.2 = some f ∧ p.2.getLsbD n

variable {resolve} {s s' : Watching File} {path : String} {mask : Int} {size : Nat}

/-- What a request without a size does: the kinds of the shared watch of its file are those of the mask,
with the old ones if `IN_MASK_ADD` is set. -/
theorem requestWatch_shared (hreg : ∃ i, s.kernel.shared = some i ∧ i.size.isSome)
    (h : requestWatch resolve s (some (.inotify path mask 0)) = some s') :
    ∃ f, resolve path (BitVec.ofInt 32 mask) = some f ∧ s'.acked = s.acked ++ [(path, BitVec.ofInt 32 mask)] ∧
      s'.kernel.own = s.kernel.own ∧ (∃ i, s'.kernel.shared = some i ∧ i.size.isSome) ∧
      (∀ g n, g ≠ f → (s'.kernel.SharedReads g n ↔ s.kernel.SharedReads g n)) ∧
      ∀ n, s'.kernel.SharedReads f n ↔ (BitVec.ofInt 32 mask).getLsbD n ∨
        (BitVec.ofInt 32 mask &&& IN_MASK_ADD ≠ 0 ∧ s.kernel.SharedReads f n) := by
  obtain ⟨i, hi, hsize⟩ := hreg
  simp only [requestWatch, lt_irrefl, if_false, hi, Option.bind_some] at h
  split at h
  · rename_i hadd
    cases h
    obtain ⟨i', hi'⟩ := Option.isSome_iff_exists.1 hadd
    obtain ⟨f, hf, heq⟩ := addWatch_eq hi'
    have hsize' : i'.size.isSome := addWatch_size hi' ▸ hsize
    have hshared : (s.kernel.watch (BitVec.ofInt 32 mask) 0
        (allSucceed (resolve path (BitVec.ofInt 32 mask)))).shared = some i' := by
      simp [InotifyKernel.watch, hi, hi']
    refine ⟨f, hf, rfl, by simp [InotifyKernel.watch], ⟨i', hshared, hsize'⟩, ?_, ?_⟩
    · intro g n hg
      simp only [InotifyKernel.SharedReads, hshared, hi, Option.some.injEq, exists_eq_left', Instance.Reads,
        hsize, true_and, heq, Function.update_of_ne hg]
    · intro n
      simp only [InotifyKernel.SharedReads, hshared, hi, Option.some.injEq, exists_eq_left', Instance.Reads,
        hsize, true_and, heq, Function.update_self]
      cases i.watches f with
      | none => simp [Instance.mergeMask]
      | some old => simp only [exists_eq_left', Option.some.injEq, getLsbD_mergeMask]
  · cases h

/-- What a request with a size does: one more instance reports the kinds of the mask. -/
theorem requestWatch_own (hsize : 0 < size)
    (h : requestWatch resolve s (some (.inotify path mask size)) = some s') :
    ∃ f, resolve path (BitVec.ofInt 32 mask) = some f ∧ s'.acked = s.acked ++ [(path, BitVec.ofInt 32 mask)] ∧
      s'.kernel.shared = s.kernel.shared ∧
      ∀ g n, s'.kernel.OwnReads g n ↔
        s.kernel.OwnReads g n ∨ (g = f ∧ (BitVec.ofInt 32 mask).getLsbD n) := by
  simp only [requestWatch, if_pos hsize, Option.bind_some] at h
  split at h
  · rename_i hadd
    cases h
    obtain ⟨i, hi⟩ := Option.isSome_iff_exists.1 hadd
    obtain ⟨f, hf, heq⟩ := addWatch_eq hi
    refine ⟨f, hf, rfl, by simp [InotifyKernel.watch, if_pos hsize, allSucceed], ?_⟩
    intro g n
    have hnew : (Instance.Reads { i with size := some (asI32 size) } g n) ↔
        g = f ∧ (BitVec.ofInt 32 mask).getLsbD n := by
      simp only [Instance.Reads, Option.isSome_some, true_and, heq, Function.update_apply, Instance.new,
        Instance.mergeMask]
      split
      · rename_i hg
        simp [hg]
      · rename_i hg
        simp [hg]
    have hown : (s.kernel.watch (BitVec.ofInt 32 mask) size
        (allSucceed (resolve path (BitVec.ofInt 32 mask)))).own =
          s.kernel.own ++ [{ i with size := some (asI32 size) }] := by
      have hinit : (allSucceed (resolve path (BitVec.ofInt 32 mask))).inotifyInit = true := rfl
      simp only [InotifyKernel.watch, if_pos hsize, hinit, if_true, hi, Option.getD_some]
      rfl
    simp only [InotifyKernel.OwnReads, hown, List.mem_append, List.mem_singleton, or_and_right, exists_or,
      exists_eq_left, hnew]
  · cases h

theorem watchingInv_shared (hinv : WatchingInv resolve s)
    (hkeeps : KeepsKinds resolve s (some (.inotify path mask 0)))
    (h : requestWatch resolve s (some (.inotify path mask 0)) = some s') : WatchingInv resolve s' := by
  obtain ⟨f, hf, hacked, hown, hreg, hother, hsame⟩ := requestWatch_shared hinv.registered h
  refine ⟨?_, hreg, ?_⟩
  · intro p hp n hn hkind
    rw [hacked, List.mem_append, List.mem_singleton] at hp
    rcases hp with hp | rfl
    · obtain ⟨g, hg, hreads⟩ := hinv.accumulated p hp n hn hkind
      refine ⟨g, hg, ?_⟩
      rw [ownReads_congr hown]
      rcases hreads with hreads | hreads
      · by_cases hgf : g = f
        · -- the shared watch of this file is the one the request changes
          subst hgf
          rw [hsame]
          rcases hkeeps g hf n hn hreads with hmask | hadd | hownreads
          · exact .inl (.inl hmask)
          · exact .inl (.inr ⟨hadd, hreads⟩)
          · exact .inr hownreads
        · exact .inl ((hother g n hgf).2 hreads)
      · exact .inr hreads
    · exact ⟨f, hf, .inl ((hsame n).2 (.inl hkind))⟩
  · intro g n hn hg
    rw [hacked]
    by_cases hgf : g = f
    · subst hgf
      rcases (hsame n).1 hg with hmask | ⟨-, hold⟩
      · exact ⟨_, List.mem_append_right _ (List.mem_singleton_self _), hf, hmask⟩
      · obtain ⟨p, hp, hres⟩ := hinv.asked g n hn hold
        exact ⟨p, List.mem_append_left _ hp, hres⟩
    · obtain ⟨p, hp, hres⟩ := hinv.asked g n hn ((hother g n hgf).1 hg)
      exact ⟨p, List.mem_append_left _ hp, hres⟩

theorem watchingInv_own (hinv : WatchingInv resolve s) (hsize : 0 < size)
    (h : requestWatch resolve s (some (.inotify path mask size)) = some s') : WatchingInv resolve s' := by
  obtain ⟨f, hf, hacked, hshared, hown⟩ := requestWatch_own hsize h
  refine ⟨?_, hshared ▸ hinv.registered, ?_⟩
  · intro p hp n hn hkind
    rw [hacked, List.mem_append, List.mem_singleton] at hp
    rcases hp with hp | rfl
    · obtain ⟨g, hg, hreads⟩ := hinv.accumulated p hp n hn hkind
      rw [← sharedReads_congr hshared] at hreads
      exact ⟨g, hg, hreads.imp_right fun h' => (hown g n).2 (.inl h')⟩
    · exact ⟨f, hf, .inr ((hown f n).2 (.inr ⟨rfl, hkind⟩))⟩
  · intro g n hn hg
    obtain ⟨p, hp, hres⟩ := hinv.asked g n hn ((sharedReads_congr hshared g n).1 hg)
    exact ⟨p, hacked ▸ List.mem_append_left _ hp, hres⟩

theorem watchingInv_step {entry : Option Surveillance} (hinv : WatchingInv resolve s)
    (hkeeps : KeepsKinds resolve s entry) (h : requestWatch resolve s entry = some s') :
    WatchingInv resolve s' := by
  match entry, hkeeps, h with
  | none, _, h => cases h; exact hinv
  | some (.watchSocket _), _, h => cases h; exact hinv
  | some (.inotify _ _ 0), hkeeps, h => exact watchingInv_shared hinv hkeeps h
  | some (.inotify _ _ (_ + 1)), _, h => exact watchingInv_own hinv (Nat.succ_pos _) h

/-- A request that takes a kind from the shared watch leaves something acknowledged unwatched. -/
theorem not_accumulated_of_taken {entry : Option Surveillance} (hinv : WatchingInv resolve s)
    (htaken : ¬ KeepsKinds resolve s entry) (h : requestWatch resolve s entry = some s') :
    ¬ Accumulated resolve s' := by
  match entry, htaken, h with
  | none, htaken, _ => exact absurd trivial htaken
  | some (.watchSocket _), htaken, _ => exact absurd trivial htaken
  | some (.inotify _ _ (_ + 1)), htaken, _ => exact absurd trivial htaken
  | some (.inotify path mask 0), htaken, h =>
    intro hacc
    obtain ⟨f, hf, hacked, hown, -, -, hsame⟩ := requestWatch_shared hinv.registered h
    apply htaken
    intro g hg n hn hreads
    rw [hf, Option.some.injEq] at hg
    subst hg
    obtain ⟨p, hp, hpf, hpn⟩ := hinv.asked f n hn hreads
    obtain ⟨g, hg, hstill⟩ := hacc p (hacked ▸ List.mem_append_left _ hp) n hn hpn
    rw [hpf, Option.some.injEq] at hg
    subst hg
    rcases hstill with hstill | hstill
    · exact ((hsame n).1 hstill).imp_right fun h' => .inl h'.1
    · exact .inr (.inr ((ownReads_congr hown f n).1 hstill))

omit [DecidableEq File] in
theorem watchingInv_start : WatchingInv resolve (Watching.start File) where
  accumulated := fun p hp => by cases hp
  registered := ⟨⟨fun _ => none, some 0⟩, rfl, rfl⟩
  asked := by
    rintro f n - ⟨i, hi, -, w, hw, -⟩
    cases hi
    cases hw

end Accumulate

/-- For every sequence of commands whose calls all succeed. -/
theorem watches_accumulate_iff {File : Type} [DecidableEq File] (resolve : String → BitVec 32 → Option File)
    (coms : List Command)
    (hrun : (Lts.run (requestWatch resolve) (.start File) (coms.flatMap Command.toWatch)).isSome) :
    Lts.StatesAll (requestWatch resolve) (Accumulated resolve) (.start File) (coms.flatMap Command.toWatch) ↔
      Lts.StepsAll (requestWatch resolve) (KeepsKinds resolve) (.start File) (coms.flatMap Command.toWatch) :=
  Lts.forall_states_iff_forall_steps (fun _ => WatchingInv.accumulated) (fun _ _ _ => watchingInv_step)
    (fun _ _ _ => not_accumulated_of_taken) watchingInv_start hrun

/-- A command that watches `/a` for these kinds, without a size. -/
def watchA (mask : Int) : Command := ⟨"", [], [], 0, 0, [some (.inotify "/a" mask 0)]⟩

/-- Creations in a file, then creations and deletions. -/
theorem watches_accumulate_wider :
    (Lts.run (requestWatch fun _ _ => some 0) (.start Nat)
      ([watchA 0x100, watchA 0x300].flatMap Command.toWatch)).isSome ∧
    Lts.StatesAll (requestWatch fun _ _ => some 0) (Accumulated fun _ _ => some 0) (.start Nat)
      ([watchA 0x100, watchA 0x300].flatMap Command.toWatch) := by
  have hrun : (Lts.run (requestWatch fun _ _ => some 0) (.start Nat)
      ([watchA 0x100, watchA 0x300].flatMap Command.toWatch)).isSome := by decide
  refine ⟨hrun, (watches_accumulate_iff (fun _ _ => some 0) [watchA 0x100, watchA 0x300] hrun).2 ?_⟩
  refine ⟨?_, fun s₁ h₁ => ⟨?_, fun s₂ _ => trivial⟩⟩
  · rintro f - n - ⟨i, hi, -, w, hw, -⟩
    cases hi
    cases hw
  · cases h₁
    rintro f hf n hn ⟨i, hi, -, w, hw, hbit⟩
    cases hf
    cases hi
    cases hw
    have hwider : ∀ n < nKinds, (0x100#32).getLsbD n → (0x300#32).getLsbD n := by decide
    exact .inl (hwider n hn hbit)

/-- Creations in a file, then deletions: the creations are no longer reported. -/
theorem second_watch_replaces_first :
    (Lts.run (requestWatch fun _ _ => some 0) (.start Nat)
      ([watchA 0x100, watchA 0x200].flatMap Command.toWatch)).isSome ∧
    ¬ Lts.StatesAll (requestWatch fun _ _ => some 0) (Accumulated fun _ _ => some 0) (.start Nat)
      ([watchA 0x100, watchA 0x200].flatMap Command.toWatch) := by
  have hrun : (Lts.run (requestWatch fun _ _ => some 0) (.start Nat)
      ([watchA 0x100, watchA 0x200].flatMap Command.toWatch)).isSome := by decide
  refine ⟨hrun, ?_⟩
  intro hall
  obtain ⟨s, hs⟩ := Option.isSome_iff_exists.1 hrun
  have hlast := hall.last hs
  cases hs
  obtain ⟨f, hf, ⟨i, hi, -, w, hw, hbit⟩ | ⟨i, hi, -⟩⟩ :=
    hlast ("/a", 0x100) (List.mem_cons_self ..) 8 (by decide) (by decide)
  · cases hf
    cases hi
    cases hw
    cases hbit
  · cases hi

end ProcCtrld
