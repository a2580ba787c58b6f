import ProcCtrld.Child
import ProcCtrld.Serialize

/-!
# ProcCtrld.Daemon

The event loop of the C daemon (`main` in `daemon-core.c`, `events.c`, `clone.c`) together with its
children and the parts of the kernel it talks to.

* SIGCHLD is a standard signal: at most one instance is pending, with the pid of the child that
  raised it first. The exit, the stop and the continuation of a child raise it.
* `epoll_wait` returns any list of ready descriptors, in any order. A batch is handled event by
  event while the children go on.
* `waitpid` in `handle_SIGCHLD` blocks while the child it names is alive (`Mode.waitpid`). The
  launch of a child takes two steps, so that the child may act before `clone` returns in the parent
  (`Mode.launching`).
* Descriptors are numbers, and a new one is the lowest that is free. `closeFd` closes a number,
  whatever it refers to.

Every message is recorded with the socket it was sent on and, as a ghost, the launch it is about.
A step is `none` when the label is not possible in that state or its behaviour is undefined (a read
past the process table, a use of a freed `event_data`).
-/

namespace ProcCtrld

/-- What a descriptor of the daemon refers to. `pipeRead k` is the read end of the notification
pipe of launch `k`; the pipe of a failed `clone` is never closed and never used again. -/
inductive Obj where
  | errFile
  | pipeRead (launch : Nat)
  | leakedPipe
  | other
deriving DecidableEq, Repr

/-- `event_data_pipe_execve`. -/
structure PipeExecve where
  fd : Fd
  pid : Pid
  path : String
  launch : Nat
deriving DecidableEq, Repr

/-- An element of `events`, by the type of its `event_data`. `hupErr` is any event without EPOLLIN
on a descriptor that is not a notification pipe. -/
inductive Ready where
  | signalfd
  | execve (edata : PipeExecve)
  | sockMessage (fd : Fd)
  | sockConnexion
  | inotify
  | hupErr
deriving DecidableEq, Repr

def Ready.isExecve : Ready → Bool
  | .execve _ => true
  | _ => false

/-- A launch between `clone` and the rest of `process_command_request`. -/
structure Launching where
  launch : Nat
  pid : Pid
  path : String
  sock : Fd
  errFile : Fd
  stack : Addr
  pipe : Fd
  toWatch : List (Option Surveillance)
deriving DecidableEq, Repr

inductive Mode where
  | loop
  | waitpid (pid : Pid)
  | launching (l : Launching)
  | halted
deriving DecidableEq, Repr

structure Sent where
  sock : Fd
  msg : Msg
  launch : Option Nat
deriving DecidableEq, Repr

/-- `conns` and `pipes` are the connections and notification pipes in the epoll interest list,
`freed` the launches whose `event_data_pipe_execve` has been freed. -/
structure State where
  children : List Child
  table : ProcessTable
  fds : Fd → Option Obj
  conns : List Fd
  pipes : List PipeExecve
  freed : List Nat
  pending : Option Pid
  mode : Mode
  batch : List Ready
  communicationSocket : Fd
  destPort : Nat
  sent : List Sent
  killed : List Pid

/-- What the system does to `process_command_request`: which call fails, the descriptors it opens
(`errFile` is `none` when `open` fails) and the child it creates. -/
inductive LaunchOs where
  | paramFails (errno : Nat)
  | mallocFails (errFile : Option Fd) (errno : Nat)
  | pipeFails
  | cloneFails (errFile : Option Fd) (pipefd : Fd × Fd) (errno : Nat)
  | clones (errFile : Option Fd) (pipefd : Fd × Fd) (pid : Pid) (stack : Addr)
deriving DecidableEq, Repr

/-- `garbage` is the `exit_status` computed from an uninitialised `wstatus` when `waitpid` fails,
`held` says whether another process still holds the file that a closed number referred to,
`foreign` is the outcome of a read from a number that is no longer a notification pipe, and
`number` is the low half of a pointer. -/
inductive Label where
  | child (k : Nat) (act : ChildAct)
  | openOther (fd : Fd)
  | closeOther (fd : Fd)
  | epollWait (events : List Ready)
  | epollFails
  | signalfd (garbage : Nat) (held : Bool)
  | waitpidReturns (garbage : Nat) (held : Bool)
  | execve (foreign : Bool)
  | runCommand (com : Command) (os : LaunchOs)
  | launchReturns (epollAdd : Bool)
  | killProcess (pid : Pid)
  | unexpected
  | sockClosed
  | sockConnexion (fd : Fd)
  | inotify (updates : List InotifyPathUpdated)
  | hupErr (number : Fd) (held : Bool)
deriving DecidableEq, Repr

def maxEvents : Nat := 128

/-! ## The flags of a launch -/

def sigchld : Nat := 17
/-- The byte of the flags that holds the signal of the exit. -/
def csignal : Nat := 0xff
def cloneVm : Nat := 0x100
def cloneFiles : Nat := 0x400
def clonePidfd : Nat := 0x1000
def cloneParent : Nat := 0x8000
def cloneThread : Nat := 0x10000
def cloneParentSettid : Nat := 0x100000

/-- `clone(.., SIGCHLD | flags, ..)` makes a child of the daemon with memory and descriptors of its own,
whose exit raises SIGCHLD, and writes nothing through the arguments that `launch_process` does not pass. -/
def OrdinaryFlags (flags : Nat) : Prop :=
  (sigchld ||| flags) &&& csignal = sigchld ∧
    flags &&& (cloneVm ||| cloneFiles ||| cloneParent ||| cloneThread) = 0 ∧
    flags &&& (clonePidfd ||| cloneParentSettid) = 0

instance (flags : Nat) : Decidable (OrdinaryFlags flags) := inferInstanceAs (Decidable (_ = _ ∧ _ = _ ∧ _ = _))

/-- The steps below are those of such children. -/
abbrev Command.OrdinaryChild (com : Command) : Prop := OrdinaryFlags com.flags

def lowestFree (fds : Fd → Option Obj) (fd : Fd) : Prop :=
  fds fd = none ∧ ∀ n, n < fd → (fds n).isSome

instance (fds : Fd → Option Obj) (fd : Fd) : Decidable (lowestFree fds fd) :=
  inferInstanceAs (Decidable (_ ∧ ∀ n, n < fd → (fds n).isSome))

def openFd (fds : Fd → Option Obj) (fd : Fd) (obj : Obj) : Option (Fd → Option Obj) :=
  if lowestFree fds fd then some (Function.update fds fd (some obj)) else none

/-- `initialize_error_file`, with the fallback to `STDOUT_FILENO`. -/
def openErrFile (fds : Fd → Option Obj) : Option Fd → Option ((Fd → Option Obj) × Fd)
  | none => some (fds, stdoutFileno)
  | some fd =>
    match openFd fds fd .errFile with
    | some fds' => some (fds', fd)
    | none => none

def surveillanceAck : Option Surveillance → List Msg
  | some (.inotify rootPaths _ _) => [.inotifyWatchListUpdated rootPaths]
  | some (.watchSocket destport) => [.socketWatched (asI32 destport)]
  | none => []

/-- The messages of `process_surveillance_requests`. -/
def surveillanceAcks (sock : Fd) (toWatch : List (Option Surveillance)) : List Sent :=
  (toWatch.flatMap surveillanceAck).map fun m => ⟨sock, m, none⟩

namespace State

/-- The daemon at its first `epoll_wait`, with the descriptors below `nfds` in use and an
uninitialised `communication_socket`. -/
def init (heap : Nat → ProcessInfo) (nfds : Nat) (garbageSock : Fd) (destPort : Nat) : State where
  children := []
  table := .init heap
  fds := fun fd => if fd < nfds then some .other else none
  conns := []
  pipes := []
  freed := []
  pending := none
  mode := .loop
  batch := []
  communicationSocket := garbageSock
  destPort := destPort
  sent := []
  killed := []

/-- The child that a pid names for the kernel. -/
def unreaped (s : State) (pid : Pid) : Option (Child × Nat) :=
  s.children.zipIdx.find? fun x => x.1.pid == pid && x.1.unreaped

/-- The latest launch with that pid. -/
def latest (s : State) (pid : Pid) : Option Nat :=
  (s.children.zipIdx.reverse.find? fun x => x.1.pid == pid).map (·.2)

def childAct (s : State) (k : Nat) (act : ChildAct) : Option State :=
  match s.children[k]? with
  | some c =>
    match c.step act with
    | some c' =>
      some { s with
        children := s.children.set k c'
        pending := if act.notifies then s.pending.or (some c.pid) else s.pending }
    | none => none
  | none => none

/-- `close(fd)`. The registration of a pipe goes away with the last descriptor of its file. -/
def closeFd (s : State) (fd : Fd) (held : Bool) : State :=
  { s with
    fds := Function.update s.fds fd none
    pipes := if held then s.pipes
      else s.pipes.filter fun e => ¬ (e.fd = fd ∧ s.fds fd = some (.pipeRead e.launch)) }

def ready (s : State) : Ready → Bool
  | .signalfd => s.pending.isSome
  | .execve e => e ∈ s.pipes && (s.children[e.launch]?.bind Child.readPipe).isSome
  | .sockMessage fd => fd ∈ s.conns
  | .sockConnexion | .inotify | .hupErr => true

def epollWait (s : State) (events : List Ready) : Option State :=
  if s.mode = .loop ∧ s.batch = [] ∧ events ≠ [] ∧ events.length ≤ maxEvents ∧ events.Nodup ∧
      ∀ r ∈ events, s.ready r then
    some { s with batch := events }
  else none

/-- `nfds == -1`, when a signal interrupts the call: `exit(EXIT_FAILURE)`. -/
def epollFails (s : State) : Option State :=
  if s.mode = .loop ∧ s.batch = [] then some { s with mode := .halted } else none

/-- `handle_SIGCHLD` after `waitpid`, and the `send_message` of its result. -/
def report (s : State) (pid : Pid) (launch : Option Nat) (exitStatus : Nat) (held : Bool) :
    Option State :=
  match s.table.release pid with
  | some (table, closed) =>
    let s := match closed with
      | some fd => s.closeFd fd held
      | none => s
    some { s with
      table := table
      mode := .loop
      sent := s.sent ++ [⟨s.communicationSocket, .processTerminated pid exitStatus, launch⟩] }
  | none => none

/-- `handle_SIGCHLD` from `waitpid` on: it reaps a zombie, blocks on a live child, and fails when
the pid names no child. -/
def handleSIGCHLD (s : State) (pid : Pid) (garbage : Nat) (held : Bool) : Option State :=
  match s.unreaped pid with
  | some (c, k) =>
    match c.life with
    | .zombie status =>
      { s with children := s.children.set k { c with life := .reaped status } }.report pid (some k)
        status.exitStatus held
    | _ => some { s with mode := .waitpid pid }
  | none => s.report pid (s.latest pid) garbage held

/-- The SIGNALFD case. -/
def signalfd (s : State) (garbage : Nat) (held : Bool) : Option State :=
  match s.mode, s.batch, s.pending with
  | .loop, .signalfd :: rest, some pid =>
    { s with batch := rest, pending := none }.handleSIGCHLD pid garbage held
  | _, _, _ => none

def waitpidReturns (s : State) (garbage : Nat) (held : Bool) : Option State :=
  match s.mode with
  | .waitpid pid => s.handleSIGCHLD pid garbage held
  | _ => none

/-- The `success` that the EXECVE case computes from `read(fd, ..)`. -/
def readExecve (s : State) (fd : Fd) (foreign : Bool) : Option Bool :=
  match s.fds fd with
  | some (.pipeRead k) => (s.children[k]?.bind Child.readPipe).map Option.isNone
  | _ => some foreign

/-- The EXECVE case, and the same lines of the HUP/ERR branch. -/
def execve (s : State) (foreign : Bool) : Option State :=
  match s.mode, s.batch with
  | .loop, .execve e :: rest =>
    if e.launch ∈ s.freed then none
    else
      match s.readExecve e.fd foreign with
      | some success =>
        some { s.closeFd e.fd false with
          batch := rest
          freed := e.launch :: s.freed
          sent := s.sent ++
            [⟨s.communicationSocket, .execveTerminated e.pid e.path success, some e.launch⟩] }
      | none => none
  | _, _ => none

/-- A launch that sends `ChildCreationError`. -/
def launchFails (s : State) (rest : List Ready) (sock : Fd) (com : Command) (errno : Nat)
    (fds : Fd → Option Obj) : State :=
  { s with
    batch := rest
    fds := fds
    sent := s.sent ++ (⟨sock, .childCreationError errno, none⟩ :: surveillanceAcks sock com.toWatch) }

/-- `process_command_request` up to the return of `clone`. -/
def processCommandRequest (s : State) (rest : List Ready) (sock : Fd) (com : Command) :
    LaunchOs → Option State
  | .paramFails errno => some (s.launchFails rest sock com errno s.fds)
  | .mallocFails errFile errno =>
    match openErrFile s.fds errFile with
    | some (fds, _) => some (s.launchFails rest sock com errno fds)
    | none => none
  | .pipeFails => some { s with batch := rest, mode := .halted }
  | .cloneFails errFile pipefd errno => do
    let (fds, _) ← openErrFile s.fds errFile
    let fds ← openFd fds pipefd.1 .leakedPipe
    let fds ← openFd fds pipefd.2 .leakedPipe
    return s.launchFails rest sock com errno fds
  | .clones errFile pipefd pid stack => do
    let (fds, err) ← openErrFile s.fds errFile
    let fds ← openFd fds pipefd.1 (.pipeRead s.children.length)
    if lowestFree fds pipefd.2 ∧ 0 < pid ∧ s.unreaped pid = none then
      some { s with
        batch := rest
        fds := fds
        children := s.children ++ [⟨pid, com.path, .running, .beforeExecve⟩]
        mode := .launching
          ⟨s.children.length, pid, com.path, sock, err, stack, pipefd.1, com.toWatch⟩ }
    else none

def runCommand (s : State) (com : Command) (os : LaunchOs) : Option State :=
  match s.mode, s.batch with
  | .loop, .sockMessage sock :: rest => s.processCommandRequest rest sock com os
  | _, _ => none

/-- `process_command_request` after `clone`, and `process_surveillance_requests`.
`add_event_pipeExecve` closes the pipe when it cannot register it. -/
def launchReturns (s : State) (epollAdd : Bool) : Option State :=
  match s.mode with
  | .launching l =>
    some { s with
      mode := .loop
      table := s.table.register l.pid l.errFile l.stack
      pipes := if epollAdd then s.pipes ++ [⟨l.pipe, l.pid, l.path, l.launch⟩] else s.pipes
      fds := if epollAdd then s.fds else Function.update s.fds l.pipe none
      sent := s.sent ++ (⟨l.sock, .processLaunched l.pid, some l.launch⟩ ::
        surveillanceAcks l.sock l.toWatch) }
  | _ => none

/-- The KILL_PROCESS case; pid 0 kills the process group of the daemon. -/
def killProcess (s : State) (pid : Pid) : Option State :=
  match s.mode, s.batch with
  | .loop, .sockMessage _ :: rest =>
    if 0 < pid then some { s with batch := rest, killed := s.killed ++ [pid] }
    else if pid = 0 then some { s with batch := rest, mode := .halted }
    else some { s with batch := rest }
  | _, _ => none

def unexpected (s : State) : Option State :=
  match s.mode, s.batch with
  | .loop, .sockMessage _ :: rest => some { s with batch := rest }
  | _, _ => none

/-- The branch `size==0` of the SOCK_MESSAGE case. -/
def sockClosed (s : State) : Option State :=
  match s.mode, s.batch with
  | .loop, .sockMessage fd :: rest =>
    some { s.closeFd fd false with batch := rest, conns := s.conns.erase fd }
  | _, _ => none

def sockConnexion (s : State) (fd : Fd) : Option State :=
  match s.mode, s.batch with
  | .loop, .sockConnexion :: rest =>
    match openFd s.fds fd .other with
    | some fds =>
      some { s with
        batch := rest
        fds := fds
        conns := fd :: s.conns
        communicationSocket := fd
        sent := s.sent ++ [⟨fd, .tcpSocketListening s.destPort, none⟩] }
    | none => none
  | _, _ => none

/-- The INOTIFYFD case, with the records that `handle_inotify_event` reads. -/
def inotify (s : State) (updates : List InotifyPathUpdated) : Option State :=
  match s.mode, s.batch with
  | .loop, .inotify :: rest =>
    some { s with
      batch := rest
      sent := s.sent ++ updates.map fun info => ⟨s.communicationSocket, .inotifyPathUpdated info, none⟩ }
  | _, _ => none

/-- The HUP/ERR branch for what is not a notification pipe: `close(events[i].data.fd)`, where
`data` holds a pointer. -/
def hupErr (s : State) (number : Fd) (held : Bool) : Option State :=
  match s.mode, s.batch with
  | .loop, .hupErr :: rest => some { s.closeFd number held with batch := rest }
  | _, _ => none

/-- The other parts of the daemon: inotify instances, the netlink sockets of socket watches. -/
def openOther (s : State) (fd : Fd) : Option State :=
  match openFd s.fds fd .other with
  | some fds => some { s with fds := fds }
  | none => none

def closeOther (s : State) (fd : Fd) : Option State :=
  if s.fds fd = some .other then some { s with fds := Function.update s.fds fd none } else none

end State

def step (s : State) : Label → Option State
  | .child k act => s.childAct k act
  | .openOther fd => s.openOther fd
  | .closeOther fd => s.closeOther fd
  | .epollWait events => s.epollWait events
  | .epollFails => s.epollFails
  | .signalfd garbage held => s.signalfd garbage held
  | .waitpidReturns garbage held => s.waitpidReturns garbage held
  | .execve foreign => s.execve foreign
  | .runCommand com os => s.runCommand com os
  | .launchReturns epollAdd => s.launchReturns epollAdd
  | .killProcess pid => s.killProcess pid
  | .unexpected => s.unexpected
  | .sockClosed => s.sockClosed
  | .sockConnexion fd => s.sockConnexion fd
  | .inotify updates => s.inotify updates
  | .hupErr number held => s.hupErr number held

/-- The messages about launch `k`, in the order they were sent. -/
def State.log (s : State) (k : Nat) : List Msg :=
  (s.sent.filter fun m => m.launch = some k).map (·.msg)

/-! ## The steps of concrete runs -/

/-- A daemon whose descriptors 0 to 7 are in use. -/
def State.start : State := .init (fun _ => ⟨none, 0, 0⟩) 8 0 8080

/-- A client connects; its socket is descriptor 8. -/
def connects : List Label := [.epollWait [.sockConnexion], .sockConnexion 8]

def launches (path : String) (errFile : Fd) (pipefd : Fd × Fd) (pid : Pid) : List Label :=
  [.epollWait [.sockMessage 8],
   .runCommand ⟨path, [path], [], 0, 8192, []⟩ (.clones (some errFile) pipefd pid 4096),
   .launchReturns true]

/-- The child of launch `k` execs and its notification is handled. -/
def execs (k : Nat) (path : String) (fd : Fd) (pid : Pid) : List Label :=
  [.child k .execveSucceeds, .epollWait [.execve ⟨fd, pid, path, k⟩], .execve false]

def handlesSignal : List Label := [.epollWait [.signalfd], .signalfd 0 false]

end ProcCtrld
