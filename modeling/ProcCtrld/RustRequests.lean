import ProcCtrld.RustWatch

/-!
# ProcCtrld.RustRequests

`handle_message` of the Rust daemon (`main.rs`), with `exec_command` (`command.rs`) and
`send_sigkill` (`signal_tool.rs`), on any payload and for any answers of the system.

The FlatBuffers verifier is the parameter `rootAsMessage`. A payload that it refuses, a field that
is absent and a surveillance of an unknown type are unwrapped, so `handle_message` panics on them;
`handled_well_iff` says exactly when it does not, and that a child it spawned then gets its
`ProcessTerminated`.
-/

namespace ProcCtrld.Rust

/-! ## Commands -/

/-- `tokio::process::Command` as `exec_command` builds it. -/
structure CommandLine where
  program : String
  args : List String
  env : List (String × String)
deriving DecidableEq, Repr

/-- `std::path::Path::file_name`: the last component, unless there is none or it is `..`. -/
def fileName (path : String) : Option String :=
  match ((path.toList.splitOn '/').filter fun c => c ≠ [] ∧ c ≠ ['.']).getLast? with
  | none => none
  | some c => if c = ['.', '.'] then none else some (String.ofList c)

/-- `args` without a first element that is the path or its last component. -/
def dropProgram (path : String) : List String → List String
  | [] => []
  | first :: args =>
    if first = path ∨ first = (fileName path).getD "" then args else first :: args

/-- `pair.find('=')`: an entry without `=` is left out. -/
def binding (pair : String) : Option (String × String) :=
  if '=' ∈ pair.toList then
    some (String.ofList (pair.toList.takeWhile (· ≠ '=')),
      String.ofList ((pair.toList.dropWhile (· ≠ '=')).drop 1))
  else none

/-- `exec_command`; `none` is a panic. -/
def execCommand (runCmd : RunCommand) : Option CommandLine :=
  match runCmd.path with
  | none => none
  | some path =>
    some ⟨path, dropProgram path (runCmd.args.getD []), (runCmd.envp.getD []).filterMap binding⟩

example : execCommand ⟨some "/bin/ls", some ["ls", "-l"], some ["A=b=c", "X"], 0, 0, none⟩ =
    some ⟨"/bin/ls", ["-l"], [("A", "b=c")]⟩ := by decide +kernel

/-! ## Messages -/

/-- What becomes of `command.spawn()` and of the `wait` after it; the child of `runs` never ends. -/
inductive SpawnOs where
  | ends (spawn : Spawn)
  | runs (pid : Pid)

/-- The answers of the system to one `handle_message`. `kill` is the errno of a failed `kill`;
`inotify` and `port` are about the watches, by the index of the entry. -/
structure RequestOs where
  daemonPid : Pid
  kill : Option Nat
  spawn : CommandLine → SpawnOs
  inotify : Nat → InotifyOs
  port : Nat → PortOs

def panics : Sending := ⟨[], .panics⟩

/-- `Errno::ENODATA`. -/
def enodata : Nat := 61

/-- How the watch of entry `i` ends. -/
def watchOutcome (os : RequestOs) (i : Nat) : SurveillanceEvent → WatchOutcome
  | .inotify (some event) =>
    readEventsInotify (event.rootPaths.getD "") (trigEvents event.mask) event.size (os.inotify i)
  | .tcpSocket (some _) => readEventsPortTokio (os.port i)
  -- `handle_surveillance_event` panics before it watches anything
  | _ => .panics

def watches (os : RequestOs) (toWatch : List SurveillanceEvent) : List (SurveillanceEvent × WatchOutcome) :=
  toWatch.zipIdx.map fun x => (x.1, watchOutcome os x.2 x.1)

/-- The KillProcess branch; `send_sigkill` gives the pid of the daemon in both cases. -/
def handleKillProcess (os : RequestOs) : Sending :=
  match os.kill with
  | none => sends [.processLaunched os.daemonPid]
  | some errno => sends [.processTerminated os.daemonPid errno]

/-- The RunCommand branch, from the table on. -/
def handleRunCommandTable (os : RequestOs) (runCmd : RunCommand) : Sending :=
  match execCommand runCmd, runCmd.toWatch with
  | some command, some toWatch =>
    match os.spawn command with
    | .ends spawn => handleRunCommand os.daemonPid command.program spawn (watches os toWatch)
    | .runs pid => ⟨[.processLaunched pid, .execveTerminated pid command.program true], .waits⟩
  | _, _ => panics

def handleMessage (rootAsMessage : Bytes → Option Message) (os : RequestOs) (buf : Bytes) : Sending :=
  match rootAsMessage buf with
  | none => panics
  | some (.killProcess none) => panics
  | some (.killProcess (some _)) => handleKillProcess os
  | some (.runCommand none) => panics
  | some (.runCommand (some runCmd)) => handleRunCommandTable os runCmd
  | some (.other _ _) => sends [.childCreationError enodata]

/-- The request makes the daemon spawn a child with that pid. -/
def Spawns (rootAsMessage : Bytes → Option Message) (os : RequestOs) (buf : Bytes) (pid : Pid) : Prop :=
  ∃ runCmd command, rootAsMessage buf = some (.runCommand (some runCmd)) ∧
    execCommand runCmd = some command ∧ runCmd.toWatch.isSome ∧
    (os.spawn command = .runs pid ∨ ∃ wait, os.spawn command = .ends (.spawned pid wait))

/-- `handle_message` does not panic, and unless it still waits for the child or a watch, the child
has got its `ProcessTerminated`. -/
structure HandledWell (rootAsMessage : Bytes → Option Message) (os : RequestOs) (buf : Bytes) : Prop where
  noPanic : (handleMessage rootAsMessage os buf).ending ≠ .panics
  terminated : ∀ pid, Spawns rootAsMessage os buf pid →
    (handleMessage rootAsMessage os buf).ending ≠ .waits →
    ∃ errorCode, .processTerminated pid errorCode ∈ (handleMessage rootAsMessage os buf).msgs

/-! ## The condition -/

/-- The watch of an entry never ends. -/
def EntryWaits (os : RequestOs) (x : SurveillanceEvent × Nat) : Prop :=
  match x.1 with
  | .inotify (some _) => (os.inotify x.2).setUp = true ∧ (os.inotify x.2).wait = .waits
  | .tcpSocket (some _) => os.port x.2 = .waits
  | _ => False

/-- The entry is an Inotify or a TCPSocket table, and if it is Inotify its watch can be set up and
its records unwrapped. -/
def EntrySafe (os : RequestOs) (x : SurveillanceEvent × Nat) : Prop :=
  match x.1 with
  | .inotify (some event) =>
    InotifySafe (event.rootPaths.getD "") (trigEvents event.mask) event.size (os.inotify x.2)
  | .tcpSocket (some _) => True
  | _ => False

/-- The verifier accepts the payload; the table of a KillProcess is there; the table, the path and
the `to_watch` of a RunCommand are there, and its entries are safe as far as they are reached. -/
def Answerable (rootAsMessage : Bytes → Option Message) (os : RequestOs) (buf : Bytes) : Prop :=
  match rootAsMessage buf with
  | none => False
  | some (.killProcess events) => events.isSome
  | some (.runCommand none) => False
  | some (.runCommand (some runCmd)) =>
    ∃ command toWatch, execCommand runCmd = some command ∧ runCmd.toWatch = some toWatch ∧
      ((∃ pid, os.spawn command = .runs pid) ∨
        SafeUntil (EntryWaits os) (EntrySafe os) toWatch.zipIdx)
  | some (.other _ _) => True

/-- As `Answerable`, and neither the child nor a watch is waited for without end. -/
def Answered (rootAsMessage : Bytes → Option Message) (os : RequestOs) (buf : Bytes) : Prop :=
  match rootAsMessage buf with
  | none => False
  | some (.killProcess events) => events.isSome
  | some (.runCommand none) => False
  | some (.runCommand (some runCmd)) =>
    ∃ command toWatch, execCommand runCmd = some command ∧ runCmd.toWatch = some toWatch ∧
      (∃ spawn, os.spawn command = .ends spawn) ∧
      ∀ x ∈ toWatch.zipIdx, EntrySafe os x ∧ ¬ EntryWaits os x
  | some (.other _ _) => True

/-! ## Entries -/

theorem watch_ending (daemonPid : Pid) (announce : Msg) (onOk : TcpState → Msg) (outcome : WatchOutcome) :
    (watch daemonPid announce onOk outcome).ending =
      match outcome with
      | .ok _ | .err _ => .returns
      | .panics => .panics
      | .waits => .waits := by
  cases outcome <;> rfl

theorem handleSurveillanceEvent_ending (os : RequestOs) (x : SurveillanceEvent × Nat) :
    ((handleSurveillanceEvent os.daemonPid x.1 (watchOutcome os x.2 x.1)).ending ≠ .panics ↔
      EntrySafe os x) ∧
    ((handleSurveillanceEvent os.daemonPid x.1 (watchOutcome os x.2 x.1)).ending = .waits ↔
      EntryWaits os x) := by
  obtain ⟨event, i⟩ := x
  cases event with
  | other tag htag => simp [handleSurveillanceEvent, EntrySafe, EntryWaits]
  | tcpSocket event =>
    cases event with
    | none => simp [handleSurveillanceEvent, EntrySafe, EntryWaits]
    | some event =>
      simp only [handleSurveillanceEvent, watch_ending, watchOutcome, EntrySafe, EntryWaits]
      cases os.port i <;> simp [readEventsPortTokio]
  | inotify event =>
    cases event with
    | none => simp [handleSurveillanceEvent, EntrySafe, EntryWaits]
    | some event =>
      have hsafe := readEventsInotify_ne_panics_iff (event.rootPaths.getD "") (trigEvents event.mask)
        event.size (os.inotify i)
      have hwaits := readEventsInotify_waits_iff (event.rootPaths.getD "") (trigEvents event.mask)
        event.size (os.inotify i)
      simp only [handleSurveillanceEvent, watch_ending, watchOutcome, EntrySafe, EntryWaits, ← hsafe,
        ← hwaits]
      cases readEventsInotify (event.rootPaths.getD "") (trigEvents event.mask) event.size
        (os.inotify i) <;> simp

theorem andThen_ne_panics {a b : Sending} :
    (a.andThen b).ending ≠ .panics ↔ a.ending ≠ .panics ∧ (a.ending ≠ .waits → b.ending ≠ .panics) := by
  unfold Sending.andThen
  cases ha : a.ending <;> simp [ha]

theorem handleSurveillanceEvents_ne_panics (os : RequestOs) (xs : List (SurveillanceEvent × Nat)) :
    (handleSurveillanceEvents os.daemonPid (xs.map fun x => (x.1, watchOutcome os x.2 x.1))).ending ≠
        .panics ↔ SafeUntil (EntryWaits os) (EntrySafe os) xs := by
  induction xs with
  | nil => simp [handleSurveillanceEvents, sends, SafeUntil]
  | cons x xs ih =>
    obtain ⟨hsafe, hwaits⟩ := handleSurveillanceEvent_ending os x
    simp only [List.map_cons, handleSurveillanceEvents]
    rw [andThen_ne_panics, hsafe, ih, ne_eq, hwaits, SafeUntil]

/-! ## Requests -/

/-- The RunCommand branch panics in the entries or not at all. -/
theorem handleRunCommand_ne_panics {daemonPid : Pid} {path : String} {spawn : Spawn}
    {ws : List (SurveillanceEvent × WatchOutcome)} :
    (handleRunCommand daemonPid path spawn ws).ending ≠ .panics ↔
      (handleSurveillanceEvents daemonPid ws).ending ≠ .panics := by
  simp only [handleRunCommand, andThen_ne_panics]
  simp [sends]

/-- A RunCommand whose table could be read, from `spawn` on. -/
def spawned (os : RequestOs) (command : CommandLine) (toWatch : List SurveillanceEvent) : Sending :=
  match os.spawn command with
  | .ends spawn => handleRunCommand os.daemonPid command.program spawn (watches os toWatch)
  | .runs pid => ⟨[.processLaunched pid, .execveTerminated pid command.program true], .waits⟩

theorem handleMessage_cases (rootAsMessage : Bytes → Option Message) (os : RequestOs) (buf : Bytes) :
    (handleMessage rootAsMessage os buf = panics ∧ ¬ Answerable rootAsMessage os buf ∧
      ¬ Answered rootAsMessage os buf) ∨
    (∃ msgs, handleMessage rootAsMessage os buf = sends msgs ∧ Answerable rootAsMessage os buf ∧
      Answered rootAsMessage os buf) ∨
    ∃ command toWatch, handleMessage rootAsMessage os buf = spawned os command toWatch ∧
      (Answerable rootAsMessage os buf ↔ (∃ pid, os.spawn command = .runs pid) ∨
        SafeUntil (EntryWaits os) (EntrySafe os) toWatch.zipIdx) ∧
      (Answered rootAsMessage os buf ↔ (∃ spawn, os.spawn command = .ends spawn) ∧
        ∀ x ∈ toWatch.zipIdx, EntrySafe os x ∧ ¬ EntryWaits os x) := by
  unfold handleMessage Answerable Answered
  cases rootAsMessage buf with
  | none => exact .inl ⟨rfl, id, id⟩
  | some m =>
    cases m with
    | other tag htag => exact .inr (.inl ⟨_, rfl, trivial, trivial⟩)
    | killProcess events =>
      cases events with
      | none => exact .inl ⟨rfl, by simp, by simp⟩
      | some kill =>
        refine .inr (.inl ?_)
        simp only [handleKillProcess]
        cases os.kill with
        | none => exact ⟨_, rfl, rfl, rfl⟩
        | some errno => exact ⟨_, rfl, rfl, rfl⟩
    | runCommand events =>
      cases events with
      | none => exact .inl ⟨rfl, id, id⟩
      | some runCmd =>
        simp only [handleRunCommandTable]
        cases hcmd : execCommand runCmd with
        | none => exact .inl ⟨rfl, by simp, by simp⟩
        | some command =>
          cases hw : runCmd.toWatch with
          | none => exact .inl ⟨rfl, by simp, by simp⟩
          | some toWatch => exact .inr (.inr ⟨command, toWatch, rfl, by simp, by simp⟩)

theorem handleMessage_ne_panics_iff (rootAsMessage : Bytes → Option Message) (os : RequestOs)
    (buf : Bytes) :
    (handleMessage rootAsMessage os buf).ending ≠ .panics ↔ Answerable rootAsMessage os buf := by
  obtain ⟨hmsg, hno, -⟩ | ⟨msgs, hmsg, hyes, -⟩ | ⟨command, toWatch, hmsg, hiff, -⟩ :=
    handleMessage_cases rootAsMessage os buf
  · rw [hmsg]
    exact iff_of_false (by simp [panics]) hno
  · rw [hmsg]
    exact iff_of_true (by simp [sends]) hyes
  · rw [hmsg, hiff, spawned]
    cases os.spawn command with
    | runs pid => simp
    | ends spawn =>
      simp only [handleRunCommand_ne_panics, watches, handleSurveillanceEvents_ne_panics]
      simp

/-- When the entries are through, the last message is the termination. -/
theorem terminated_of_returns {daemonPid : Pid} {path : String} {pid : Pid}
    {wait : Except SpawnError WaitStatus} {ws : List (SurveillanceEvent × WatchOutcome)}
    (hp : (handleRunCommand daemonPid path (.spawned pid wait) ws).ending ≠ .panics)
    (hw : (handleRunCommand daemonPid path (.spawned pid wait) ws).ending ≠ .waits) :
    ∃ errorCode, .processTerminated pid errorCode ∈
      (handleRunCommand daemonPid path (.spawned pid wait) ws).msgs := by
  have hret : (handleSurveillanceEvents daemonPid ws).ending = .returns := by
    cases hend : (handleSurveillanceEvents daemonPid ws).ending with
    | returns => rfl
    | panics => exact absurd hend (handleRunCommand_ne_panics.mp hp)
    | waits =>
      refine absurd ?_ hw
      simp [handleRunCommand, sends, Sending.andThen, hend]
  obtain ⟨errorCode, hterm⟩ := terminated_eq pid wait
  refine ⟨errorCode, ?_⟩
  rw [handleRunCommand_msgs_of_returns hret, ← hterm]
  exact List.mem_append_right _ (List.mem_singleton.mpr rfl)

theorem handleMessage_terminated {rootAsMessage : Bytes → Option Message} {os : RequestOs} {buf : Bytes}
    {pid : Pid} (hsp : Spawns rootAsMessage os buf pid)
    (hp : (handleMessage rootAsMessage os buf).ending ≠ .panics)
    (hw : (handleMessage rootAsMessage os buf).ending ≠ .waits) :
    ∃ errorCode, .processTerminated pid errorCode ∈ (handleMessage rootAsMessage os buf).msgs := by
  obtain ⟨runCmd, command, hroot, hcmd, hsome, hspawn⟩ := hsp
  obtain ⟨toWatch, htw⟩ := Option.isSome_iff_exists.mp hsome
  have hmsg : handleMessage rootAsMessage os buf = handleRunCommandTable os runCmd := by
    simp only [handleMessage, hroot]
  rw [hmsg] at hp hw ⊢
  simp only [handleRunCommandTable, hcmd, htw] at hp hw ⊢
  rcases hspawn with hos | ⟨wait, hos⟩
  · simp only [hos] at hw
    exact absurd rfl hw
  · simp only [hos] at hp hw ⊢
    exact terminated_of_returns hp hw

/-- On every payload and for all answers of the system, `handle_message` does its work without a
panic exactly when the request is answerable. -/
theorem handled_well_iff (rootAsMessage : Bytes → Option Message) (os : RequestOs) (buf : Bytes) :
    HandledWell rootAsMessage os buf ↔ Answerable rootAsMessage os buf := by
  rw [← handleMessage_ne_panics_iff]
  constructor
  · intro h
    exact h.noPanic
  · intro h
    exact ⟨h, fun pid hsp hw => handleMessage_terminated hsp h hw⟩

theorem returns_iff {e : Ending} : e = .returns ↔ e ≠ .panics ∧ e ≠ .waits := by
  cases e <;> simp

theorem andThen_eq_returns {a b : Sending} :
    (a.andThen b).ending = .returns ↔ a.ending = .returns ∧ b.ending = .returns := by
  unfold Sending.andThen
  cases ha : a.ending <;> simp [ha]

theorem handleSurveillanceEvents_returns (os : RequestOs) (xs : List (SurveillanceEvent × Nat)) :
    (handleSurveillanceEvents os.daemonPid (xs.map fun x => (x.1, watchOutcome os x.2 x.1))).ending =
        .returns ↔ ∀ x ∈ xs, EntrySafe os x ∧ ¬ EntryWaits os x := by
  induction xs with
  | nil => simp [handleSurveillanceEvents, sends]
  | cons x xs ih =>
    obtain ⟨hsafe, hwaits⟩ := handleSurveillanceEvent_ending os x
    simp only [List.map_cons, handleSurveillanceEvents, List.forall_mem_cons]
    rw [andThen_eq_returns, returns_iff, hsafe, ne_eq, hwaits, ih]

theorem handleRunCommand_returns {daemonPid : Pid} {path : String} {spawn : Spawn}
    {ws : List (SurveillanceEvent × WatchOutcome)} :
    (handleRunCommand daemonPid path spawn ws).ending = .returns ↔
      (handleSurveillanceEvents daemonPid ws).ending = .returns := by
  simp only [handleRunCommand, andThen_eq_returns]
  simp [sends]

theorem handleMessage_returns_iff (rootAsMessage : Bytes → Option Message) (os : RequestOs)
    (buf : Bytes) :
    (handleMessage rootAsMessage os buf).ending = .returns ↔ Answered rootAsMessage os buf := by
  obtain ⟨hmsg, -, hno⟩ | ⟨msgs, hmsg, -, hyes⟩ | ⟨command, toWatch, hmsg, -, hiff⟩ :=
    handleMessage_cases rootAsMessage os buf
  · rw [hmsg]
    exact iff_of_false (by simp [panics]) hno
  · rw [hmsg]
    exact iff_of_true (by simp [sends]) hyes
  · rw [hmsg, hiff, spawned]
    cases os.spawn command with
    | runs pid => simp
    | ends spawn =>
      simp only [handleRunCommand_returns, watches, handleSurveillanceEvents_returns]
      simp

/-- Answers of the system in which every call succeeds and a spawned child exits at once. -/
def RequestOs.quiet : RequestOs where
  daemonPid := 500
  kill := none
  spawn := fun _ => .ends (.spawned 501 (.ok (.exited 0)))
  inotify := fun _ => ⟨true, true, true, true, true, true, .reads []⟩
  port := fun _ => .finds .listen

/-- The answers of `quiet`, except that no path can be watched. -/
def RequestOs.noSuchPath : RequestOs :=
  { RequestOs.quiet with inotify := fun _ => ⟨true, true, false, true, true, true, .waits⟩ }

/-- `/bin/true` with a watch of `/nowhere` for modifications. -/
def watchNowhere : RunCommand :=
  ⟨some "/bin/true", some [], some [], 0, 0, some [.inotify (some ⟨some "/nowhere", 2, 0⟩)]⟩

/-- A payload of no bytes is refused by the verifier; a watch of a path that does not exist panics
after the child was spawned and waited for, and nothing more is sent. -/
theorem empty_payload_and_missing_path_panic :
    (∀ rootAsMessage : Bytes → Option Message, rootAsMessage [] = none →
      ¬ HandledWell rootAsMessage .quiet []) ∧
    ∀ (rootAsMessage : Bytes → Option Message) (buf : Bytes),
      rootAsMessage buf = some (.runCommand (some watchNowhere)) →
      Spawns rootAsMessage .noSuchPath buf 501 ∧
      handleMessage rootAsMessage .noSuchPath buf =
        ⟨[.processLaunched 501, .execveTerminated 501 "/bin/true" true,
          .inotifyPathUpdated ⟨"/nowhere", .modified, 0, 0⟩], .panics⟩ ∧
      ¬ HandledWell rootAsMessage .noSuchPath buf := by
  constructor
  · intro rootAsMessage hroot h
    refine h.noPanic ?_
    simp only [handleMessage, hroot, panics]
  · intro rootAsMessage buf hroot
    have hmsg : handleMessage rootAsMessage .noSuchPath buf =
        ⟨[.processLaunched 501, .execveTerminated 501 "/bin/true" true,
          .inotifyPathUpdated ⟨"/nowhere", .modified, 0, 0⟩], .panics⟩ := by
      simp only [handleMessage, hroot]
      decide +kernel
    refine ⟨⟨watchNowhere, _, hroot, rfl, rfl, .inr ⟨_, rfl⟩⟩, hmsg, fun h => ?_⟩
    have hno := h.noPanic
    rw [hmsg] at hno
    exact hno rfl

end ProcCtrld.Rust
