import ProcCtrld.Child
import ProcCtrld.Serialize

/-!
# ProcCtrld.RustDaemon

The Rust daemon's handling of a `RunCommand` (`handle_message` and `handle_surveillance_event` in
`main.rs`). A call sends a list of messages and then returns, panics or waits for ever (`Sending`).
What the system does is given with the command: the result of `spawn` and of `child.wait()`, and for
each entry of `to_watch` how its watch ends.

The pid that ends up in the last `ProcessTerminated` is the outer variable `pid`, which the error
branch of `spawn` shadows and therefore leaves at 0, and each Inotify watch sends a
`ProcessTerminated` of its own. `reported_once_iff` says exactly when the report is consistent: the
child was spawned, and every entry is a TCPSocket whose watch ends well.
-/

namespace ProcCtrld.Rust

inductive Ending where
  | returns
  | panics
  | waits
deriving DecidableEq, Repr

structure Sending where
  msgs : List Msg
  ending : Ending
deriving DecidableEq, Repr

/-- Sequencing: what comes after a call that does not return is not sent. -/
def Sending.andThen (a b : Sending) : Sending :=
  match a.ending with
  | .returns => ⟨a.msgs ++ b.msgs, b.ending⟩
  | _ => a

def sends (msgs : List Msg) : Sending := ⟨msgs, .returns⟩

/-- `netstat2::TcpState`, as far as the code tells its values apart. -/
inductive TcpState where
  | listen
  | established
  | other
deriving DecidableEq, Repr

def TcpState.toSend : TcpState → SocketState
  | .listen => .listeing
  | .established => .created
  | .other => .unknown

/-- How `read_events_inotify` or `read_events_port_tokio` ends. -/
inductive WatchOutcome where
  | ok (state : TcpState)
  | err (errno : Nat)
  | panics
  | waits
deriving DecidableEq, Repr

def enoent : Nat := 2

section Inotify

def IN_ACCESS : BitVec 32 := 0x1
def IN_MODIFY : BitVec 32 := 0x2
def IN_CLOSE_WRITE : BitVec 32 := 0x8
def IN_CLOSE_NOWRITE : BitVec 32 := 0x10
def IN_CREATE : BitVec 32 := 0x100
def IN_DELETE : BitVec 32 := 0x200

/-- The `trigger` of the acknowledgement: the last of the tests that holds decides. -/
def trigger (mask : Int) : InotifyEvent :=
  let mask := BitVec.ofInt 32 mask
  if mask &&& (IN_CLOSE_NOWRITE ||| IN_CLOSE_WRITE) ≠ 0 then .sizeReached
  else if mask &&& IN_MODIFY ≠ 0 then .modified
  else if mask &&& IN_DELETE ≠ 0 then .deleted
  else if mask &&& IN_CREATE ≠ 0 then .created
  else .accessed

end Inotify

/-- One watch: the message that announces it, and the one its end calls for. `daemonPid` is
`std::process::id()`. -/
def watch (daemonPid : Pid) (announce : Msg) (onOk : TcpState → Msg) (outcome : WatchOutcome) : Sending :=
  (sends [announce]).andThen <|
    match outcome with
    | .ok state => sends [onOk state]
    | .err errno => sends [.processTerminated daemonPid errno]
    | .panics => ⟨[], .panics⟩
    | .waits => ⟨[], .waits⟩

/-- `handle_surveillance_event`. -/
def handleSurveillanceEvent (daemonPid : Pid) : SurveillanceEvent → WatchOutcome → Sending
  | .inotify (some event), outcome =>
    watch daemonPid
      (.inotifyPathUpdated ⟨event.rootPaths.getD "", trigger event.mask, 0, event.size⟩)
      (fun _ => .processTerminated daemonPid 0) outcome
  | .tcpSocket (some event), outcome =>
    watch daemonPid (.socketWatched (asI32 event.destport))
      (fun state => .socketWatchTerminated (asI32 event.destport) state.toSend) outcome
  | _, _ => ⟨[], .panics⟩

/-- `for event in to_watch`. -/
def handleSurveillanceEvents (daemonPid : Pid) : List (SurveillanceEvent × WatchOutcome) → Sending
  | [] => sends []
  | (event, outcome) :: ws =>
    (handleSurveillanceEvent daemonPid event outcome).andThen (handleSurveillanceEvents daemonPid ws)

/-- `std::io::Error`: with an errno, or made up without one. -/
inductive SpawnError where
  | os (errno : Nat)
  | custom
deriving DecidableEq, Repr

def SpawnError.rawOsError : SpawnError → Option Nat
  | .os errno => some errno
  | .custom => none

inductive Spawn where
  | spawned (pid : Pid) (wait : Except SpawnError WaitStatus)
  | failed (error : SpawnError)

/-- `ret_code.code().unwrap_or(1)`: a child killed by a signal has no code. -/
def exitCode : WaitStatus → Nat
  | .exited status => status
  | .signaled _ => 1

/-- What is sent before `to_watch` is handled, the outer `pid`, and `res`. -/
structure Launched where
  msgs : List Msg
  pid : Pid
  res : Except SpawnError WaitStatus

def launch (daemonPid : Pid) (path : String) : Spawn → Launched
  | .spawned pid wait => ⟨[.processLaunched pid, .execveTerminated pid path true], pid, wait⟩
  | .failed error =>
    if error = .os enoent then
      ⟨[.processLaunched daemonPid, .execveTerminated daemonPid path false], 0, .error .custom⟩
    else
      ⟨[.processLaunched daemonPid, .childCreationError (error.rawOsError.getD 1)], 0, .error error⟩

/-- The last message of the RunCommand branch. -/
def terminated (pid : Pid) : Except SpawnError WaitStatus → Msg
  | .ok retCode => .processTerminated pid (exitCode retCode)
  | .error error => .processTerminated pid (error.rawOsError.getD 1)

/-- The RunCommand branch of `handle_message`. -/
def handleRunCommand (daemonPid : Pid) (path : String) (spawn : Spawn)
    (toWatch : List (SurveillanceEvent × WatchOutcome)) : Sending :=
  let l := launch daemonPid path spawn
  ((sends l.msgs).andThen (handleSurveillanceEvents daemonPid toWatch)).andThen
    (sends [terminated l.pid l.res])

/-- One `ProcessTerminated`, at the end, with the pid of all that was said before; a
`ProcessLaunched` names a child that was spawned. -/
structure ReportedOnce (spawn : Spawn) (msgs : List Msg) : Prop where
  last : ∃ before pid errorCode, msgs = before ++ [.processTerminated pid errorCode] ∧
    (∀ m ∈ before, m.isProcessTerminated = false) ∧
    (∀ p, .processLaunched p ∈ before → p = pid) ∧
    ∀ p path success, .execveTerminated p path success ∈ before → p = pid
  launched : ∀ p, .processLaunched p ∈ msgs → ∃ wait, spawn = .spawned p wait

/-- The entry is an Inotify or a TCPSocket table. -/
def Present : SurveillanceEvent → Prop
  | .inotify event => event.isSome
  | .tcpSocket event => event.isSome
  | .other _ _ => False

/-- A TCPSocket entry whose watch ends well. -/
def EndsWell : SurveillanceEvent × WatchOutcome → Prop
  | (.tcpSocket _, .ok _) => True
  | _ => False

/-! ## Surveillance -/

theorem andThen_returns {a : Sending} (h : a.ending = .returns) (b : Sending) :
    a.andThen b = ⟨a.msgs ++ b.msgs, b.ending⟩ := by
  unfold Sending.andThen
  rw [h]

theorem andThen_stops {a : Sending} (h : a.ending ≠ .returns) (b : Sending) : a.andThen b = a := by
  unfold Sending.andThen
  split
  · contradiction
  · rfl

theorem mem_andThen {a b : Sending} {m : Msg} (h : m ∈ a.msgs) : m ∈ (a.andThen b).msgs := by
  unfold Sending.andThen
  split
  · exact List.mem_append_left _ h
  · exact h

/-- No message about a process. -/
def Neutral (m : Msg) : Prop :=
  m.isProcessTerminated = false ∧ (∀ p, m ≠ .processLaunched p) ∧
    ∀ p path success, m ≠ .execveTerminated p path success

theorem watch_ok (daemonPid : Pid) (announce : Msg) (onOk : TcpState → Msg) (state : TcpState) :
    watch daemonPid announce onOk (.ok state) = sends [announce, onOk state] := rfl

/-- A watch that ends in `onOk` or in an error sends a termination if `onOk` does; one that does not
end stops after its announcement. -/
theorem watch_cases (daemonPid : Pid) {announce : Msg} (ha : announce.isProcessTerminated = false)
    {onOk : TcpState → Msg} {outcome : WatchOutcome}
    (hok : ∀ state, outcome = .ok state → (onOk state).isProcessTerminated = true) :
    ((watch daemonPid announce onOk outcome).ending = .returns ∧
      ∃ m ∈ (watch daemonPid announce onOk outcome).msgs, m.isProcessTerminated = true) ∨
    ((watch daemonPid announce onOk outcome).ending ≠ .returns ∧
      ∃ ms m, (watch daemonPid announce onOk outcome).msgs = ms ++ [m] ∧ m.isProcessTerminated = false) := by
  cases outcome with
  | ok state => exact .inl ⟨rfl, onOk state, by simp [watch_ok, sends], hok state rfl⟩
  | err errno =>
    refine .inl ⟨rfl, .processTerminated daemonPid errno, ?_, rfl⟩
    simp [watch, sends, Sending.andThen]
  | panics => exact .inr ⟨by simp [watch, sends, Sending.andThen], [], announce, rfl, ha⟩
  | waits => exact .inr ⟨by simp [watch, sends, Sending.andThen], [], announce, rfl, ha⟩

theorem handleSurveillanceEvent_endsWell (daemonPid : Pid) {w : SurveillanceEvent × WatchOutcome}
    (hp : Present w.1) (hw : EndsWell w) :
    (handleSurveillanceEvent daemonPid w.1 w.2).ending = .returns ∧
      ∀ m ∈ (handleSurveillanceEvent daemonPid w.1 w.2).msgs, Neutral m := by
  obtain ⟨event, outcome⟩ := w
  cases event with
  | inotify event => cases hw
  | other tag htag => cases hp
  | tcpSocket event =>
    obtain ⟨event, rfl⟩ := Option.isSome_iff_exists.mp hp
    cases outcome with
    | ok state =>
      simp only [handleSurveillanceEvent, watch_ok, sends, List.mem_cons, List.not_mem_nil, or_false]
      refine ⟨trivial, ?_⟩
      rintro m (rfl | rfl)
      · exact ⟨rfl, by simp, by simp⟩
      · exact ⟨rfl, by simp, by simp⟩
    | _ => cases hw

theorem handleSurveillanceEvent_not_endsWell (daemonPid : Pid) {w : SurveillanceEvent × WatchOutcome}
    (hp : Present w.1) (hw : ¬ EndsWell w) :
    ((handleSurveillanceEvent daemonPid w.1 w.2).ending = .returns ∧
      ∃ m ∈ (handleSurveillanceEvent daemonPid w.1 w.2).msgs, m.isProcessTerminated = true) ∨
    ((handleSurveillanceEvent daemonPid w.1 w.2).ending ≠ .returns ∧
      ∃ ms m, (handleSurveillanceEvent daemonPid w.1 w.2).msgs = ms ++ [m] ∧
        m.isProcessTerminated = false) := by
  obtain ⟨event, outcome⟩ := w
  cases event with
  | other tag htag => cases hp
  | inotify event =>
    obtain ⟨event, rfl⟩ := Option.isSome_iff_exists.mp hp
    exact watch_cases daemonPid rfl fun _ _ => rfl
  | tcpSocket event =>
    obtain ⟨event, rfl⟩ := Option.isSome_iff_exists.mp hp
    refine watch_cases daemonPid rfl ?_
    intro state hstate
    subst hstate
    exact absurd trivial hw

theorem handleSurveillanceEvents_endWell (daemonPid : Pid)
    {ws : List (SurveillanceEvent × WatchOutcome)} (hp : ∀ w ∈ ws, Present w.1)
    (hw : ∀ w ∈ ws, EndsWell w) :
    (handleSurveillanceEvents daemonPid ws).ending = .returns ∧
      ∀ m ∈ (handleSurveillanceEvents daemonPid ws).msgs, Neutral m := by
  induction ws with
  | nil => exact ⟨rfl, by simp [handleSurveillanceEvents, sends]⟩
  | cons w ws ih =>
    obtain ⟨hend, hms⟩ := handleSurveillanceEvent_endsWell daemonPid (hp w (by simp)) (hw w (by simp))
    obtain ⟨hend', hms'⟩ := ih (fun v hv => hp v (List.mem_cons_of_mem _ hv))
      fun v hv => hw v (List.mem_cons_of_mem _ hv)
    rw [handleSurveillanceEvents, andThen_returns hend]
    refine ⟨hend', ?_⟩
    intro m hm
    rcases List.mem_append.mp hm with hm | hm
    · exact hms m hm
    · exact hms' m hm

theorem handleSurveillanceEvents_not_endWell (daemonPid : Pid)
    {ws : List (SurveillanceEvent × WatchOutcome)} (hp : ∀ w ∈ ws, Present w.1)
    (hw : ¬ ∀ w ∈ ws, EndsWell w) :
    ((handleSurveillanceEvents daemonPid ws).ending = .returns ∧
      ∃ m ∈ (handleSurveillanceEvents daemonPid ws).msgs, m.isProcessTerminated = true) ∨
    ((handleSurveillanceEvents daemonPid ws).ending ≠ .returns ∧
      ∃ ms m, (handleSurveillanceEvents daemonPid ws).msgs = ms ++ [m] ∧
        m.isProcessTerminated = false) := by
  induction ws with
  | nil => exact absurd (by simp) hw
  | cons w ws ih =>
    have hp' : ∀ v ∈ ws, Present v.1 := fun v hv => hp v (List.mem_cons_of_mem _ hv)
    rw [handleSurveillanceEvents]
    by_cases hw₁ : EndsWell w
    · have hw₂ : ¬ ∀ v ∈ ws, EndsWell v := fun h => hw (List.forall_mem_cons.mpr ⟨hw₁, h⟩)
      obtain ⟨hend, -⟩ := handleSurveillanceEvent_endsWell daemonPid (hp w (by simp)) hw₁
      rw [andThen_returns hend]
      rcases ih hp' hw₂ with ⟨hret, m, hm, hpt⟩ | ⟨hret, ms, m, hms, hpt⟩
      · exact .inl ⟨hret, m, List.mem_append_right _ hm, hpt⟩
      · exact .inr ⟨hret, _ ++ ms, m, by rw [hms, List.append_assoc], hpt⟩
    · rcases handleSurveillanceEvent_not_endsWell daemonPid (hp w (by simp)) hw₁ with
        ⟨hend, m, hm, hpt⟩ | ⟨hend, hlast⟩
      · rw [andThen_returns hend]
        by_cases hret : (handleSurveillanceEvents daemonPid ws).ending = .returns
        · exact .inl ⟨hret, m, List.mem_append_left _ hm, hpt⟩
        · -- a later entry stops, on a message that is not a termination
          have hw₂ : ¬ ∀ v ∈ ws, EndsWell v := fun h =>
            hret (handleSurveillanceEvents_endWell daemonPid hp' h).1
          rcases ih hp' hw₂ with ⟨hret', -⟩ | ⟨-, ms, m', hms, hpt'⟩
          · exact absurd hret' hret
          · exact .inr ⟨hret, _ ++ ms, m', by rw [hms, List.append_assoc], hpt'⟩
      · rw [andThen_stops hend]
        exact .inr ⟨hend, hlast⟩

/-! ## The report -/

section RunCommand

variable {daemonPid : Pid} {path : String} {spawn : Spawn}
  {toWatch : List (SurveillanceEvent × WatchOutcome)}

theorem handleRunCommand_msgs_of_returns
    (h : (handleSurveillanceEvents daemonPid toWatch).ending = .returns) :
    (handleRunCommand daemonPid path spawn toWatch).msgs =
      (launch daemonPid path spawn).msgs ++ (handleSurveillanceEvents daemonPid toWatch).msgs ++
        [terminated (launch daemonPid path spawn).pid (launch daemonPid path spawn).res] := by
  simp [handleRunCommand, sends, Sending.andThen, h]

theorem handleRunCommand_msgs_of_stops
    (h : (handleSurveillanceEvents daemonPid toWatch).ending ≠ .returns) :
    (handleRunCommand daemonPid path spawn toWatch).msgs =
      (launch daemonPid path spawn).msgs ++ (handleSurveillanceEvents daemonPid toWatch).msgs := by
  unfold handleRunCommand
  rw [andThen_stops]
  · rfl
  · exact h

theorem terminated_eq (pid : Pid) (wait : Except SpawnError WaitStatus) :
    ∃ errorCode, terminated pid wait = .processTerminated pid errorCode := by
  cases wait with
  | ok retCode => exact ⟨_, rfl⟩
  | error error => exact ⟨_, rfl⟩

/-- The error branch launches nothing and says it did. -/
theorem spawned_of_reportedOnce
    (h : ReportedOnce spawn (handleRunCommand daemonPid path spawn toWatch).msgs) :
    ∃ pid wait, spawn = .spawned pid wait := by
  cases spawn with
  | spawned pid wait => exact ⟨pid, wait, rfl⟩
  | failed error =>
    have hmem : .processLaunched daemonPid ∈
        (handleRunCommand daemonPid path (.failed error) toWatch).msgs := by
      refine mem_andThen (mem_andThen ?_)
      simp only [sends, launch]
      split <;> exact List.mem_cons_self
    obtain ⟨wait, hwait⟩ := h.launched daemonPid hmem
    cases hwait

theorem endWell_of_reportedOnce (hp : ∀ w ∈ toWatch, Present w.1)
    (h : ReportedOnce spawn (handleRunCommand daemonPid path spawn toWatch).msgs) :
    ∀ w ∈ toWatch, EndsWell w := by
  by_contra hw
  obtain ⟨before, pid, errorCode, hmsgs, hbefore, -⟩ := h.last
  rcases handleSurveillanceEvents_not_endWell daemonPid hp hw with
    ⟨hret, m, hm, hpt⟩ | ⟨hret, ms, m, hms, hpt⟩
  · rw [handleRunCommand_msgs_of_returns hret] at hmsgs
    obtain ⟨hpre, -⟩ := List.append_inj' hmsgs rfl
    have := hbefore m (by rw [← hpre]; exact List.mem_append_right _ hm)
    rw [hpt] at this; cases this
  · rw [handleRunCommand_msgs_of_stops hret, hms, ← List.append_assoc] at hmsgs
    obtain ⟨-, hlast⟩ := List.append_inj' hmsgs rfl
    obtain rfl := List.singleton_inj.mp hlast
    cases hpt

theorem reportedOnce_of_neutral {pid : Pid} {wait : Except SpawnError WaitStatus} {ms : List Msg}
    (errorCode : Nat) (hms : ∀ m ∈ ms, Neutral m) :
    ReportedOnce (.spawned pid wait)
      ((.processLaunched pid :: .execveTerminated pid path true :: ms) ++
        [.processTerminated pid errorCode]) := by
  refine ⟨⟨_, pid, errorCode, rfl, ?_, ?_, ?_⟩, ?_⟩
  · intro m hm
    simp only [List.mem_cons] at hm
    rcases hm with rfl | rfl | hm
    · rfl
    · rfl
    · exact (hms m hm).1
  · intro p hm
    simp only [List.mem_cons, Msg.processLaunched.injEq, reduceCtorEq, false_or] at hm
    rcases hm with rfl | hm
    · rfl
    · exact absurd rfl ((hms _ hm).2.1 p)
  · intro p path' success hm
    simp only [List.mem_cons, Msg.execveTerminated.injEq, reduceCtorEq, false_or] at hm
    rcases hm with ⟨rfl, -⟩ | hm
    · rfl
    · exact absurd rfl ((hms _ hm).2.2 p path' success)
  · intro p hm
    simp only [List.mem_append, List.mem_cons, Msg.processLaunched.injEq, reduceCtorEq, false_or,
      List.not_mem_nil, or_false] at hm
    rcases hm with rfl | hm
    · exact ⟨wait, rfl⟩
    · exact absurd rfl ((hms _ hm).2.1 p)

end RunCommand

/-- The report of a `RunCommand` is consistent exactly when the child was spawned and every watch is
of a socket and ends well. -/
theorem reported_once_iff (daemonPid : Pid) (path : String) (spawn : Spawn)
    (toWatch : List (SurveillanceEvent × WatchOutcome)) (hp : ∀ w ∈ toWatch, Present w.1) :
    ReportedOnce spawn (handleRunCommand daemonPid path spawn toWatch).msgs ↔
      (∃ pid wait, spawn = .spawned pid wait) ∧ ∀ w ∈ toWatch, EndsWell w := by
  constructor
  · intro h
    exact ⟨spawned_of_reportedOnce h, endWell_of_reportedOnce hp h⟩
  · rintro ⟨⟨pid, wait, rfl⟩, hw⟩
    obtain ⟨hend, hneutral⟩ := handleSurveillanceEvents_endWell daemonPid hp hw
    obtain ⟨errorCode, hterm⟩ := terminated_eq pid wait
    have hmsgs : (handleRunCommand daemonPid path (.spawned pid wait) toWatch).msgs =
        (.processLaunched pid :: .execveTerminated pid path true ::
          (handleSurveillanceEvents daemonPid toWatch).msgs) ++ [.processTerminated pid errorCode] := by
      rw [handleRunCommand_msgs_of_returns hend, ← hterm]
      rfl
    rw [hmsgs]
    exact reportedOnce_of_neutral errorCode hneutral

/-- A program that does not exist: the daemon reports its own pid as launched and pid 0 as
terminated. -/
theorem not_found_reports_two_pids :
    (handleRunCommand 500 "/bin/nothing" (.failed (.os enoent)) []).msgs =
        [.processLaunched 500, .execveTerminated 500 "/bin/nothing" false, .processTerminated 0 1] ∧
      ¬ ReportedOnce (.failed (.os enoent))
        (handleRunCommand 500 "/bin/nothing" (.failed (.os enoent)) []).msgs := by
  refine ⟨rfl, ?_⟩
  intro h
  obtain ⟨wait, hwait⟩ := h.launched 500 (by decide)
  cases hwait

/-- A command with one socket watch. -/
theorem spawned_with_socket_watch_reported_once :
    (∀ w ∈ [(SurveillanceEvent.tcpSocket (some ⟨8080⟩), WatchOutcome.ok .listen)], Present w.1) ∧
      ReportedOnce (.spawned 501 (.ok (.exited 3)))
        (handleRunCommand 500 "/bin/server" (.spawned 501 (.ok (.exited 3)))
          [(.tcpSocket (some ⟨8080⟩), .ok .listen)]).msgs := by
  have hp : ∀ w ∈ [(SurveillanceEvent.tcpSocket (some ⟨8080⟩), WatchOutcome.ok .listen)],
      Present w.1 := by
    intro w hw
    rw [List.mem_singleton] at hw
    subst hw
    rfl
  refine ⟨hp, (reported_once_iff 500 "/bin/server" _ _ hp).mpr ⟨⟨501, _, rfl⟩, ?_⟩⟩
  intro w hw
  rw [List.mem_singleton] at hw
  subst hw
  trivial

end ProcCtrld.Rust
