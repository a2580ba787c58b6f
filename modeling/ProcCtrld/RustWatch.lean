import ProcCtrld.RustDaemon

/-!
# ProcCtrld.RustWatch

The two watches of the Rust daemon: `read_events_inotify` (`inotify_tool.rs`) and
`read_events_port_tokio` (`network.rs`), with the answers of the system as arguments.

A watch runs in a task of its own. The inotify watch unwraps every set-up call, and the task unwraps
the name and the size of the file of every record it goes through; a panic of the task becomes one
of the caller (`handle.await.expect`). The port watch turns a panic of its task into an error.
`readEventsInotify_ne_panics_iff` says exactly when the inotify watch does not panic.
-/

namespace ProcCtrld.Rust

def IN_ISDIR : BitVec 32 := 0x40000000

/-- `trig_events`: the kinds of events that a mask asks for. -/
def trigEvents (mask : Int) : List (BitVec 32) :=
  let mask := BitVec.ofInt 32 mask
  (if mask &&& IN_ACCESS ≠ 0 then [IN_ACCESS] else []) ++
  (if mask &&& IN_CREATE ≠ 0 then [IN_CREATE, IN_ISDIR] else []) ++
  (if mask &&& IN_DELETE ≠ 0 then [IN_DELETE] else []) ++
  (if mask &&& IN_MODIFY ≠ 0 then [IN_MODIFY] else []) ++
  (if mask &&& (IN_CLOSE_NOWRITE ||| IN_CLOSE_WRITE) ≠ 0 then [IN_CLOSE_NOWRITE, IN_CLOSE_WRITE]
    else [])

/-- `event_mask.contains(mask)`. -/
def contains (eventMask mask : BitVec 32) : Bool := eventMask &&& mask == mask

/-- The name of a record: absent, or an `OsStr` that is UTF-8 or not. -/
inductive RecordName where
  | absent
  | utf8 (name : String)
  | notUtf8
deriving DecidableEq, Repr

/-- A record with what `metadata` answers for its file; `none` is an error. -/
structure InotifyRecord where
  mask : BitVec 32
  name : RecordName
  size : Option Nat
deriving DecidableEq, Repr

/-- `name_file`. -/
def RecordName.file (path : String) : RecordName → String
  | .utf8 name => name
  | _ => path

/-- The tests that leave the loop over the records. `file_size` is cut to a `u32`. -/
def triggers (path : String) (vec : List (BitVec 32)) (reachSize : Nat) (r : InotifyRecord)
    (size : Nat) : Bool :=
  vec.any (contains r.mask) &&
    (((contains r.mask IN_CLOSE_WRITE || contains r.mask IN_CLOSE_NOWRITE) &&
        decide (reachSize < size % 2 ^ 32)) ||
      ((contains r.mask IN_CREATE || contains r.mask IN_ACCESS || contains r.mask IN_DELETE ||
        contains r.mask IN_MODIFY) && r.name.file path != ""))

/-- The loop over the records of one read. `stdio` says whether writes to the standard streams
succeed: `println!` panics when they do not. -/
def readRecords (path : String) (vec : List (BitVec 32)) (reachSize : Nat) (stdio : Bool) :
    List InotifyRecord → Ending
  | [] => .returns
  | r :: rs =>
    let rest : Ending :=
      match r.size with
      | none => .panics
      | some size =>
        if triggers path vec reachSize r size then if stdio then .returns else .panics
        else readRecords path vec reachSize stdio rs
    match r.name with
    | .absent => rest
    | .utf8 _ => if stdio then rest else .panics
    | .notUtf8 => .panics

/-- `epoll_wait`, then the read of the inotify descriptor. -/
inductive EpollWait where
  | waits
  | fails
  | readFails (rawOsError : Option Nat)
  | reads (records : List InotifyRecord)
deriving DecidableEq, Repr

/-- What the system answers during `read_events_inotify`; the first five fields are the calls whose
result is unwrapped. -/
structure InotifyOs where
  createEpoll : Bool
  init : Bool
  addWatch : Bool
  setNonBlocking : Bool
  addFdToEpoll : Bool
  stdio : Bool
  wait : EpollWait
deriving DecidableEq, Repr

def InotifyOs.setUp (os : InotifyOs) : Bool :=
  os.createEpoll && os.init && os.addWatch && os.setNonBlocking && os.addFdToEpoll

/-- `Errno::UnknownErrno`. -/
def unknownErrno : Nat := 0

/-- `read_events_inotify`. Every path through the body of its `loop` returns. The state in an `ok`
is not used. -/
def readEventsInotify (path : String) (vec : List (BitVec 32)) (reachSize : Nat) (os : InotifyOs) :
    WatchOutcome :=
  if os.setUp then
    match os.wait with
    | .waits => .waits
    | .fails => if os.stdio then .err unknownErrno else .panics
    | .readFails rawOsError => .err (rawOsError.getD 0)
    | .reads records =>
      match readRecords path vec reachSize os.stdio records with
      | .returns => .ok .other
      | .panics => .panics
      | .waits => .waits
  else .panics

/-- How the polling task of `read_events_port_tokio` ends. -/
inductive PortOs where
  | finds (state : TcpState)
  | taskPanics
  | waits
deriving DecidableEq, Repr

def readEventsPortTokio : PortOs → WatchOutcome
  | .finds state => .ok state
  | .taskPanics => .err unknownErrno
  | .waits => .waits

/-! ## When a watch panics -/

/-- Every element up to the first that stops the loop is safe. -/
def SafeUntil {α : Type} (stops safe : α → Prop) : List α → Prop
  | [] => True
  | a :: as => safe a ∧ (¬ stops a → SafeUntil stops safe as)

/-- The record is one the loop ends on. -/
def Triggers (path : String) (vec : List (BitVec 32)) (reachSize : Nat) (r : InotifyRecord) : Prop :=
  ∃ size, r.size = some size ∧ triggers path vec reachSize r size = true

/-- The name and the size of the record's file can be unwrapped, and what is printed about it can be
written. -/
def RecordSafe (path : String) (vec : List (BitVec 32)) (reachSize : Nat) (stdio : Bool)
    (r : InotifyRecord) : Prop :=
  r.name ≠ .notUtf8 ∧ r.size.isSome ∧
    (r.name ≠ .absent ∨ Triggers path vec reachSize r → stdio = true)

theorem readRecords_ne_waits (path : String) (vec : List (BitVec 32)) (reachSize : Nat) (stdio : Bool)
    (rs : List InotifyRecord) : readRecords path vec reachSize stdio rs ≠ .waits := by
  induction rs with
  | nil => simp [readRecords]
  | cons r rs ih =>
    simp only [readRecords]
    split <;> repeat' split
    all_goals first | exact ih | simp

theorem readRecords_ne_panics_iff (path : String) (vec : List (BitVec 32)) (reachSize : Nat)
    (stdio : Bool) (rs : List InotifyRecord) :
    readRecords path vec reachSize stdio rs ≠ .panics ↔
      SafeUntil (Triggers path vec reachSize) (RecordSafe path vec reachSize stdio) rs := by
  induction rs with
  | nil => simp [readRecords, SafeUntil]
  | cons r rs ih =>
    simp only [readRecords, SafeUntil, ← ih, RecordSafe, Triggers]
    cases hsize : r.size with
    | none => cases hname : r.name <;> simp
    | some size =>
      by_cases htrig : triggers path vec reachSize r size = true
      · cases hname : r.name <;> cases stdio <;> simp [htrig]
      · cases hname : r.name <;> cases stdio <;> simp [htrig]

/-- The watch does not panic: the set-up calls succeed, and what the system answers after that can
be unwrapped and printed. -/
def InotifySafe (path : String) (vec : List (BitVec 32)) (reachSize : Nat) (os : InotifyOs) : Prop :=
  os.setUp = true ∧
    match os.wait with
    | .fails => os.stdio = true
    | .reads records =>
      SafeUntil (Triggers path vec reachSize) (RecordSafe path vec reachSize os.stdio) records
    | .waits | .readFails _ => True

theorem readEventsInotify_ne_panics_iff (path : String) (vec : List (BitVec 32)) (reachSize : Nat)
    (os : InotifyOs) :
    readEventsInotify path vec reachSize os ≠ .panics ↔ InotifySafe path vec reachSize os := by
  unfold readEventsInotify InotifySafe
  by_cases hset : os.setUp = true
  · rw [if_pos hset]
    cases hwait : os.wait with
    | waits => simp [hset]
    | fails => cases hio : os.stdio <;> simp [hset]
    | readFails rawOsError => simp [hset]
    | reads records =>
      simp only [hset, true_and]
      rw [← readRecords_ne_panics_iff]
      cases hr : readRecords path vec reachSize os.stdio records <;> simp
  · simp [hset]

theorem readEventsInotify_waits_iff (path : String) (vec : List (BitVec 32)) (reachSize : Nat)
    (os : InotifyOs) :
    readEventsInotify path vec reachSize os = .waits ↔ os.setUp = true ∧ os.wait = .waits := by
  unfold readEventsInotify
  by_cases hset : os.setUp = true
  · rw [if_pos hset]
    cases hwait : os.wait with
    | waits => simp [hset]
    | fails => cases hio : os.stdio <;> simp
    | readFails rawOsError => simp
    | reads records =>
      have hne := readRecords_ne_waits path vec reachSize os.stdio records
      cases hr : readRecords path vec reachSize os.stdio records with
      | returns => simp [hr]
      | panics => simp [hr]
      | waits => exact absurd hr hne
  · simp [hset]

end ProcCtrld.Rust
