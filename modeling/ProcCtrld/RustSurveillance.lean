import ProcCtrld.RustRequests

/-!
# ProcCtrld.RustSurveillance

The file surveillance of the Rust daemon (`read_events_inotify` in `inotify_tool.rs` and the Inotify
branch of `handle_surveillance_event` in `main.rs`) against what a client waits for.

* `ends_on_request_iff` — the `loop` is left after its first pass, whatever was read, so the
  surveillance ends on a requested event exactly when the first batch holds one.
* `tolerates_iff` — the size of the file is unwrapped before the kind of the event is looked at, so
  the surveillance survives exactly while every file it looks up is there.
* `protocol_kept_iff` — the branch announces a watch with `InotifyPathUpdated` and reports its end with
  `ProcessTerminated`, so no Inotify entry that is reached is answered as documented.
-/

namespace ProcCtrld.Rust

/-! ## The loop -/

section Loop

variable (path : String) (vec : List (BitVec 32)) (reachSize : Nat)

/-- One pass through the body of `loop`. A pass that falls off the end of the body would give `none`;
the last statement of the body is `return Ok(..)`. -/
def loopBody (stdio : Bool) : EpollWait → Option WatchOutcome
  | .waits => some .waits
  | .fails => some (if stdio then .err unknownErrno else .panics)
  | .readFails rawOsError => some (.err (rawOsError.getD 0))
  | .reads records =>
    match readRecords path vec reachSize stdio records with
    | .returns => some (.ok .other)
    | .panics => some .panics
    | .waits => some .waits

/-- The `loop` on a sequence of answers, with the number of answers it used. Without a further answer
it waits in `epoll_wait`. -/
def watchLoop (stdio : Bool) : List EpollWait → WatchOutcome × Nat
  | [] => (.waits, 0)
  | answer :: answers =>
    match loopBody path vec reachSize stdio answer with
    | some outcome => (outcome, 1)
    | none => ((watchLoop stdio answers).1, (watchLoop stdio answers).2 + 1)

/-- `read_events_inotify` on a sequence of answers of `epoll_wait` and `read`. -/
def readEvents (os : InotifyOs) (answers : List EpollWait) : WatchOutcome × Nat :=
  if os.setUp then watchLoop path vec reachSize os.stdio answers else (.panics, 0)

/-- The watch of the requests is this one on its first answer. -/
theorem readEvents_singleton (os : InotifyOs) :
    (readEvents path vec reachSize os [os.wait]).1 = readEventsInotify path vec reachSize os := by
  unfold readEvents readEventsInotify
  split
  · cases hwait : os.wait with
    | reads records =>
      simp only [watchLoop, loopBody]
      cases readRecords path vec reachSize os.stdio records <;> rfl
    | _ => rfl
  · rfl

/-- The loop never goes round: whatever is read first is the end of it. -/
theorem watchLoop_reads (stdio : Bool) (records : List InotifyRecord) (answers : List EpollWait) :
    watchLoop path vec reachSize stdio (.reads records :: answers) =
      (match readRecords path vec reachSize stdio records with
        | .returns => .ok .other
        | .panics => .panics
        | .waits => .waits, 1) := by
  simp only [watchLoop, loopBody]
  cases readRecords path vec reachSize stdio records <;> rfl

end Loop

/-! ## Requested events -/

/-- The kinds that `create_inotify_watch_file` watches. -/
def watchedKinds : List (BitVec 32) :=
  [IN_CREATE, IN_CLOSE_NOWRITE, IN_CLOSE_WRITE, IN_DELETE, IN_ACCESS, IN_MODIFY]

def isClose (kind : BitVec 32) : Bool := kind == IN_CLOSE_NOWRITE || kind == IN_CLOSE_WRITE

/-- The record is of a kind in the mask of the client; a close counts only when the file is larger
than `reach_size`. -/
def requested (mask : Int) (reachSize : Nat) (r : InotifyRecord) : Bool :=
  watchedKinds.any fun kind =>
    contains (BitVec.ofInt 32 mask) kind && contains r.mask kind &&
      (!isClose kind || r.size.any (reachSize < ·))

/-- Where the surveillance of the batches is to end: after the first with a requested event. -/
def rightEnd (mask : Int) (reachSize : Nat) (batches : List (List InotifyRecord)) : WatchOutcome × Nat :=
  match batches.findIdx? (·.any (requested mask reachSize)) with
  | some i => (.ok .other, i + 1)
  | none => (.waits, batches.length)

theorem readRecords_returns_iff (path : String) (vec : List (BitVec 32)) (reachSize : Nat) (stdio : Bool)
    (rs : List InotifyRecord) :
    readRecords path vec reachSize stdio rs = .returns ↔
      SafeUntil (Triggers path vec reachSize) (RecordSafe path vec reachSize stdio) rs := by
  rw [returns_iff, readRecords_ne_panics_iff, and_iff_left (readRecords_ne_waits path vec reachSize stdio rs)]

/-- The surveillance ends after the first batch with a requested event and not before, exactly when
it can be set up and the first batch it reads, if any, has such an event and can be gone through. -/
theorem ends_on_request_iff (path : String) (mask : Int) (reachSize : Nat) (os : InotifyOs)
    (batches : List (List InotifyRecord)) :
    readEvents path (trigEvents mask) reachSize os (batches.map .reads) = rightEnd mask reachSize batches ↔
      os.setUp = true ∧ ∀ b ∈ batches.head?, b.any (requested mask reachSize) = true ∧
        SafeUntil (Triggers path (trigEvents mask) reachSize)
          (RecordSafe path (trigEvents mask) reachSize os.stdio) b := by
  unfold readEvents
  by_cases hset : os.setUp = true
  · rw [if_pos hset, and_iff_right hset]
    cases batches with
    | nil => exact iff_of_true rfl (by simp)
    | cons b bs =>
      have hne := readRecords_ne_waits path (trigEvents mask) reachSize os.stdio b
      simp only [List.map_cons, watchLoop_reads, List.head?_cons, Option.mem_some, forall_eq',
        ← readRecords_returns_iff, rightEnd, List.findIdx?_cons]
      by_cases hreq : b.any (requested mask reachSize) = true
      · cases hr : readRecords path (trigEvents mask) reachSize os.stdio b <;> simp [hreq]
      · -- an end after one batch is too early
        refine iff_of_false ?_ fun h => hreq h.1
        simp only [hreq]
        cases hidx : bs.findIdx? (·.any (requested mask reachSize)) with
        | some i => simp
        | none =>
          cases hr : readRecords path (trigEvents mask) reachSize os.stdio b with
          | waits => exact absurd hr hne
          | _ => simp
  · rw [if_neg hset]
    refine iff_of_false ?_ fun h => hset h.1
    unfold rightEnd
    cases batches.findIdx? (·.any (requested mask reachSize)) <;> simp

/-- A file is read, then another is created. -/
def accessThenCreate : List (List InotifyRecord) :=
  [[⟨IN_ACCESS, .utf8 "f", some 3⟩], [⟨IN_CREATE, .utf8 "g", some 0⟩]]

/-- A watch for creations ends on the access. -/
theorem access_ends_watch_for_creations :
    readEvents "/d" (trigEvents 0x100) 0 (RequestOs.quiet.inotify 0) (accessThenCreate.map .reads) =
        (.ok .other, 1) ∧
      rightEnd 0x100 0 accessThenCreate = (.ok .other, 2) ∧
      readEvents "/d" (trigEvents 0x100) 0 (RequestOs.quiet.inotify 0) (accessThenCreate.map .reads) ≠
        rightEnd 0x100 0 accessThenCreate := by decide

/-! ## Files that are gone -/

/-- What `std::fs::metadata` tells of a file. -/
structure Metadata where
  isDir : Bool
  len : Nat
deriving DecidableEq, Repr

/-- The files that `metadata` finds. -/
abbrev FileSystem := String → Option Metadata

def getSizeFile (fs : FileSystem) (path : String) : Option Nat := (fs path).map (·.len)

/-- `file_path`: a name is looked up below the watched path only while that is a directory. -/
def filePath (fs : FileSystem) (path nameFile : String) : String :=
  if ((fs path).map (·.isDir)).getD false then path ++ "/" ++ nameFile else nameFile

/-- An event, with the files that are there when the loop comes to it. -/
structure SeenEvent where
  mask : BitVec 32
  name : RecordName
  fs : FileSystem

def SeenEvent.filePath (path : String) (e : SeenEvent) : String :=
  Rust.filePath e.fs path (e.name.file path)

/-- The record of the event, with the answer to its size lookup. -/
def SeenEvent.record (path : String) (e : SeenEvent) : InotifyRecord :=
  ⟨e.mask, e.name, getSizeFile e.fs (e.filePath path)⟩

/-- `read_events_inotify` when `epoll_wait` returns and these events are read. -/
def readSeenEvents (path : String) (mask : Int) (reachSize : Nat) (os : InotifyOs)
    (events : List SeenEvent) : WatchOutcome :=
  readEventsInotify path (trigEvents mask) reachSize
    { os with wait := .reads (events.map (SeenEvent.record path)) }

/-- The client asked for deletions and the event is one. -/
def SeenEvent.requestedDelete (mask : Int) (e : SeenEvent) : Prop :=
  contains (BitVec.ofInt 32 mask) IN_DELETE = true ∧ contains e.mask IN_DELETE = true

/-- `Ok` or `Err`, and `Ok` when a requested deletion was among the events. -/
structure Tolerates (mask : Int) (events : List SeenEvent) (outcome : WatchOutcome) : Prop where
  returns : (∃ state, outcome = .ok state) ∨ ∃ errno, outcome = .err errno
  deletion : (∃ e ∈ events, e.requestedDelete mask) → ∃ state, outcome = .ok state

/-- The event ends the loop: it is of a kind in `vec`, and its file is there. -/
def SeenEvent.Stops (path : String) (mask : Int) (reachSize : Nat) (e : SeenEvent) : Prop :=
  ∃ file, e.fs (e.filePath path) = some file ∧
    triggers path (trigEvents mask) reachSize (e.record path) file.len = true

/-- The event has no name or one in UTF-8, its file is there, and what is printed about it can be
written. -/
structure SeenEvent.Safe (path : String) (mask : Int) (reachSize : Nat) (stdio : Bool) (e : SeenEvent) :
    Prop where
  name : e.name ≠ .notUtf8
  file : (e.fs (e.filePath path)).isSome
  stdio : e.name ≠ .absent ∨ e.Stops path mask reachSize → stdio = true

section Files

variable {path : String} {mask : Int} {reachSize : Nat} {stdio : Bool}

theorem triggers_record_iff (e : SeenEvent) :
    Triggers path (trigEvents mask) reachSize (e.record path) ↔ e.Stops path mask reachSize := by
  simp only [Triggers, SeenEvent.Stops, SeenEvent.record, getSizeFile, Option.map_eq_some_iff]
  constructor
  · rintro ⟨size, ⟨file, hfile, rfl⟩, htrig⟩
    exact ⟨file, hfile, htrig⟩
  · rintro ⟨file, hfile, htrig⟩
    exact ⟨file.len, ⟨file, hfile, rfl⟩, htrig⟩

theorem recordSafe_record_iff (e : SeenEvent) :
    RecordSafe path (trigEvents mask) reachSize stdio (e.record path) ↔
      e.Safe path mask reachSize stdio := by
  have hsize : (e.record path).size.isSome = (e.fs (e.filePath path)).isSome := by
    simp only [SeenEvent.record, getSizeFile, Option.isSome_map]
  unfold RecordSafe
  rw [triggers_record_iff, hsize]
  constructor
  · rintro ⟨hname, hfile, hio⟩
    exact ⟨hname, hfile, hio⟩
  · rintro ⟨hname, hfile, hio⟩
    exact ⟨hname, hfile, hio⟩

theorem safeUntil_records_iff (events : List SeenEvent) :
    SafeUntil (Triggers path (trigEvents mask) reachSize)
        (RecordSafe path (trigEvents mask) reachSize stdio) (events.map (SeenEvent.record path)) ↔
      SafeUntil (SeenEvent.Stops path mask reachSize) (SeenEvent.Safe path mask reachSize stdio) events := by
  induction events with
  | nil => exact Iff.rfl
  | cons e events ih =>
    simp only [List.map_cons, SafeUntil]
    rw [recordSafe_record_iff, triggers_record_iff, ih]

theorem readSeenEvents_eq {os : InotifyOs} (h : os.setUp = true) (events : List SeenEvent) :
    readSeenEvents path mask reachSize os events =
      match readRecords path (trigEvents mask) reachSize os.stdio (events.map (SeenEvent.record path)) with
      | .returns => .ok .other
      | .panics => .panics
      | .waits => .waits :=
  if_pos h

end Files

/-- The surveillance returns, and reports a requested deletion, exactly when it can be set up and
every event up to the one that ends it has a file that is still there and a name that can be read. -/
theorem tolerates_iff (path : String) (mask : Int) (reachSize : Nat) (os : InotifyOs)
    (events : List SeenEvent) :
    Tolerates mask events (readSeenEvents path mask reachSize os events) ↔
      os.setUp = true ∧ SafeUntil (SeenEvent.Stops path mask reachSize)
        (SeenEvent.Safe path mask reachSize os.stdio) events := by
  rw [← safeUntil_records_iff, ← readRecords_returns_iff]
  by_cases h : os.setUp = true
  · rw [readSeenEvents_eq h, and_iff_right h]
    cases hr : readRecords path (trigEvents mask) reachSize os.stdio
      (events.map (SeenEvent.record path)) with
    | returns => exact iff_of_true ⟨.inl ⟨_, rfl⟩, fun _ => ⟨_, rfl⟩⟩ rfl
    | panics => exact iff_of_false (fun ht => by simpa using ht.returns) (by simp)
    | waits => exact absurd hr (readRecords_ne_waits _ _ _ _ _)
  · have hpanics : readSeenEvents path mask reachSize os events = .panics := if_neg h
    rw [hpanics]
    exact iff_of_false (fun ht => by simpa using ht.returns) fun hs => h hs.1

/-- The directory `/d`, with nothing in it. -/
def emptyDirectory : FileSystem := fun path => if path = "/d" then some ⟨true, 4096⟩ else none

/-- A file is deleted, and the client asked for it: its size cannot be read any more. -/
theorem deletion_panics :
    readSeenEvents "/d" 0x200 0 (RequestOs.quiet.inotify 0) [⟨IN_DELETE, .utf8 "f", emptyDirectory⟩] =
        .panics ∧
      ¬ Tolerates 0x200 [⟨IN_DELETE, .utf8 "f", emptyDirectory⟩]
        (readSeenEvents "/d" 0x200 0 (RequestOs.quiet.inotify 0)
          [⟨IN_DELETE, .utf8 "f", emptyDirectory⟩]) := by
  have hpanics : readSeenEvents "/d" 0x200 0 (RequestOs.quiet.inotify 0)
      [⟨IN_DELETE, .utf8 "f", emptyDirectory⟩] = .panics := by decide +kernel
  refine ⟨hpanics, ?_⟩
  intro h
  rw [hpanics] at h
  simpa using h.returns

/-! ## The protocol -/

def isWatchListUpdated : Msg → Bool
  | .inotifyWatchListUpdated _ => true
  | _ => false

def isPathUpdated : Msg → Bool
  | .inotifyPathUpdated _ => true
  | _ => false

/-- The messages about the life of a process. -/
def isLifecycle : Msg → Bool
  | .processLaunched _ | .processTerminated _ _ | .childCreationError _ => true
  | _ => false

/-- The kind of an event, in the enum of the schema. -/
def kindOf (mask : BitVec 32) : InotifyEvent :=
  if contains mask IN_CLOSE_WRITE || contains mask IN_CLOSE_NOWRITE then .sizeReached
  else if contains mask IN_CREATE then .created
  else if contains mask IN_ACCESS then .accessed
  else if contains mask IN_DELETE then .deleted
  else .modified

/-- The record that a surveillance ends on, with the size of its file. -/
def triggering (path : String) (vec : List (BitVec 32)) (reachSize : Nat) (os : InotifyOs) :
    Option (InotifyRecord × Nat) :=
  if os.setUp then
    match os.wait with
    | .reads records => records.findSome? fun r =>
        r.size.bind fun size => if triggers path vec reachSize r size then some (r, size) else none
    | _ => none
  else none

/-- What a client is to be sent for an Inotify entry: the watch when it starts, the event that
triggers it, and nothing about processes. -/
structure Documented (event : Inotify) (os : InotifyOs) (msgs : List Msg) : Prop where
  started : msgs.filter isWatchListUpdated =
    if os.setUp then [.inotifyWatchListUpdated (event.rootPaths.getD "")] else []
  triggered : match triggering (event.rootPaths.getD "") (trigEvents event.mask) event.size os with
    | some (r, size) => ∃ info, msgs.filter isPathUpdated = [.inotifyPathUpdated info] ∧
        info.triggerEvents = kindOf r.mask ∧ info.size = size
    | none => msgs.filter isPathUpdated = []
  quiet : ∀ m ∈ msgs, isLifecycle m = false

/-- `handle_surveillance_event` is called for entry `i` of the request, an Inotify table: the
child has ended, and so have the watches of the entries before. -/
def Reached (os : RequestOs) (runCmd : RunCommand) (i : Nat) (event : Inotify) : Prop :=
  ∃ command toWatch, execCommand runCmd = some command ∧ runCmd.toWatch = some toWatch ∧
    (∃ spawn, os.spawn command = .ends spawn) ∧ toWatch[i]? = some (.inotify (some event)) ∧
    ∀ x ∈ toWatch.zipIdx.take i, EntrySafe os x ∧ ¬ EntryWaits os x

/-- What is sent for entry `i`. -/
def entryMsgs (os : RequestOs) (i : Nat) (event : Inotify) : List Msg :=
  (handleSurveillanceEvent os.daemonPid (.inotify (some event))
    (watchOutcome os i (.inotify (some event)))).msgs

theorem entryMsgs_eq (os : RequestOs) (i : Nat) (event : Inotify) :
    ∃ rest, entryMsgs os i event = .inotifyPathUpdated
        ⟨event.rootPaths.getD "", trigger event.mask, 0, event.size⟩ :: rest ∧
      rest.filter isWatchListUpdated = [] ∧ rest.filter isPathUpdated = [] := by
  simp only [entryMsgs, handleSurveillanceEvent, watch]
  cases watchOutcome os i (.inotify (some event)) with
  | ok state => exact ⟨[.processTerminated os.daemonPid 0], rfl, rfl, rfl⟩
  | err errno => exact ⟨[.processTerminated os.daemonPid errno], rfl, rfl, rfl⟩
  | panics => exact ⟨[], rfl, rfl, rfl⟩
  | waits => exact ⟨[], rfl, rfl, rfl⟩

/-- A watch that is set up is not announced by its own message; one that is not is announced by the
message of an event. -/
theorem not_documented (os : RequestOs) (i : Nat) (event : Inotify) :
    ¬ Documented event (os.inotify i) (entryMsgs os i event) := by
  obtain ⟨rest, hmsgs, hlist, hpath⟩ := entryMsgs_eq os i event
  intro h
  by_cases hset : (os.inotify i).setUp = true
  · have hstarted := h.started
    rw [hmsgs, if_pos hset, List.filter_cons_of_neg (by simp [isWatchListUpdated]), hlist] at hstarted
    cases hstarted
  · have htriggered := h.triggered
    have hnone : triggering (event.rootPaths.getD "") (trigEvents event.mask) event.size
        (os.inotify i) = none := if_neg hset
    rw [hnone, hmsgs, List.filter_cons_of_pos rfl] at htriggered
    cases htriggered

/-- The Inotify entries of a request are answered as documented exactly when none is reached. -/
theorem protocol_kept_iff (os : RequestOs) (runCmd : RunCommand) :
    (∀ i event, Reached os runCmd i event → Documented event (os.inotify i) (entryMsgs os i event)) ↔
      ∀ i event, ¬ Reached os runCmd i event := by
  constructor
  · intro h i event hreached
    exact not_documented os i event (h i event hreached)
  · intro h i event hreached
    exact absurd hreached (h i event)

/-- The answers of `quiet`, with a modification of the watched file. -/
def RequestOs.modifies : RequestOs :=
  { RequestOs.quiet with
    inotify := fun _ => ⟨true, true, true, true, true, true, .reads [⟨IN_MODIFY, .absent, some 5⟩]⟩ }

/-- `/bin/true` with a watch of `/f` for modifications. -/
def watchFile : RunCommand :=
  ⟨some "/bin/true", some [], some [], 0, 0, some [.inotify (some ⟨some "/f", 2, 0⟩)]⟩

/-- The entry is reached; the client gets a modification before any happened, and a termination of the
daemon where the modification is due. -/
theorem watch_answered_by_termination :
    Reached .modifies watchFile 0 ⟨some "/f", 2, 0⟩ ∧
      entryMsgs .modifies 0 ⟨some "/f", 2, 0⟩ =
        [.inotifyPathUpdated ⟨"/f", .modified, 0, 0⟩, .processTerminated 500 0] ∧
      triggering "/f" (trigEvents 2) 0 (RequestOs.modifies.inotify 0) =
        some (⟨IN_MODIFY, .absent, some 5⟩, 5) ∧
      ¬ Documented ⟨some "/f", 2, 0⟩ (RequestOs.modifies.inotify 0)
        (entryMsgs .modifies 0 ⟨some "/f", 2, 0⟩) ∧
      ¬ ∀ i event, Reached .modifies watchFile i event →
        Documented event (RequestOs.modifies.inotify i) (entryMsgs .modifies i event) := by
  have hreached : Reached .modifies watchFile 0 ⟨some "/f", 2, 0⟩ :=
    ⟨_, _, rfl, rfl, ⟨_, rfl⟩, rfl, by simp⟩
  refine ⟨hreached, by decide +kernel, by decide +kernel, not_documented _ _ _, ?_⟩
  intro h
  exact not_documented _ _ _ (h 0 _ hreached)

end ProcCtrld.Rust
