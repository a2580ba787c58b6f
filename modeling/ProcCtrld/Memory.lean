import ProcCtrld.Blocks
import ProcCtrld.Descriptors
import ProcCtrld.Drain
import ProcCtrld.LaunchFailures

/-!
# ProcCtrld.Memory

The heap of the C daemon: each `malloc`, `new`, `strdup` and `free` between two `epoll_wait`, in the order of
the source, and the reads through pointers that `main` keeps from one event to the next.

A pointer is kept by epoll (the `event_data` of what is registered), by the process table (the stacks), and
by the local variables while `clone` has not come back. `Memory` is the daemon with these pointers and its
heap. A step that frees or reads a block that is not allocated, or reads past the process table, sets
`faulted`.

`lostBy` lists what a step should leave allocated with no pointer to it. The threads of the socket watches,
which end the process when they come to their end, are left out.
-/

namespace ProcCtrld

open Blocks (Block Prog malloc free freeNullable access accesses mallocs fault)

/-- What a block holds, by its C type. `strings` is an array of `char*`, `buffer` the bytes of a message. -/
inductive Site where
  | manager
  | processInfo
  | stack
  | socketInfo
  | eventDataSock
  | eventData
  | eventDataInotifySize
  | eventDataPipeExecve
  | epollEvent
  | bufferInfo
  | buffer
  | tempBuffer
  | command
  | string
  | strings
  | surveillances
  | inotifyParameters
  | tcpSocket
  | cloneParameters
  | execveParameter
  | infoChild
  | detectorArgs
deriving DecidableEq, Repr

/-- `failing` is the call that fails in a launch that the label lets fail. `sent n` says whether the `n`-th
`send_message` of the step sends all of its message, where the messages about `to_watch[i]` count as number
`i + 1`; `added i` whether the inotify instance or the thread of `to_watch[i]` is there after it. `listed`
says whether the command has a vector `to_watch`, and `watch` is the inotify instance of an event. -/
structure MemoryOs where
  failing : FailingCall
  sent : Nat → Bool
  added : Nat → Bool
  listed : Bool
  watch : Nat

/-- `command*`: the struct, its `path`, and all else that it points to. -/
structure CommandPtr where
  self : Addr
  path : Addr
  parts : List (Block Site)

/-- The local variables across `clone`: `com`, `param`, `p` (`parameters` in `launch_process`), `info_c`, and
the stack. -/
structure Locals where
  com : CommandPtr
  param : Addr
  parameters : Addr
  info : Addr
  stack : Addr

/-- The `event_data_pipe_execve` of a launch, and the path in it. -/
structure PipePtr where
  launch : Nat
  edata : Addr
  path : Addr

/-- `kept` are the `event_data` of the inotify instances and the arguments of the watch threads. -/
structure Pointers where
  manager : Addr
  slots : List Addr
  socketInfo : Addr
  listener : Addr
  signalfd : Addr
  kept : List (Block Site)
  conns : List (Fd × Addr)
  pipes : List PipePtr
  locals : Option Locals

namespace Memory

/-! ## Messages -/

/-- `struct buffer_info*`, with the pointer in it. -/
structure BufferPtr where
  info : Addr
  buffer : Addr

/-- `read_socket_message` when it gets a whole message. -/
def readSocketMessage : Prog Site BufferPtr := do
  let info ← malloc .bufferInfo
  let buffer ← malloc .buffer
  return ⟨info, buffer⟩

/-- The `send_*_to_user` of `serialize.cpp`. -/
def sendToUser : Prog Site BufferPtr := do
  let info ← malloc .bufferInfo
  let buffer ← malloc .buffer
  return ⟨info, buffer⟩

/-- `send_message`, which frees `info` when all of it was sent. -/
def sendMessage (info : BufferPtr) (sent : Bool) : Prog Site Unit := do
  let temp ← malloc .tempBuffer
  access info.info
  access info.buffer
  free temp
  if sent then free info.info

def answer (sent : Bool) : Prog Site Unit := do
  let info ← sendToUser
  sendMessage info sent

/-- Answers, the first of which is number `i` of the step. -/
def answers (sent : Nat → Bool) (i : Nat) : Nat → Prog Site Unit
  | 0 => pure ()
  | n + 1 => do
    answer (sent i)
    answers sent (i + 1) n

/-! ## Commands -/

def surveillanceSites : Option Surveillance → List Site
  | some (.inotify ..) => [.inotifyParameters, .string]
  | some (.watchSocket _) => [.tcpSocket]
  | none => []

/-- What `receive_command` allocates beside the struct and its path, in this order. -/
def partSites (com : Command) (listed : Bool) : List Site :=
  [.strings, .strings] ++ com.args.map (fun _ => .string) ++ com.envp.map (fun _ => .string) ++
    if listed then .surveillances :: com.toWatch.flatMap surveillanceSites else []

/-- `receive_command` on a message that it accepts. -/
def receiveCommand (com : Command) (listed : Bool) (buffer : Addr) :
    Prog Site {ptr : CommandPtr // ptr.parts.map Block.kind = partSites com listed} := do
  let self ← malloc .command
  access buffer
  let path ← malloc .string
  let parts ← mallocs (partSites com listed)
  return ⟨⟨self, path, parts.1⟩, parts.2⟩

/-- An `add_event_*` of `events.c`, and the start of the thread in `detect_socket`: what is allocated is
freed again if it cannot be registered. -/
def addEvent (kind : Site) (added : Bool) : Prog Site (List (Block Site)) := do
  let edata ← malloc kind
  if added then return [⟨edata, kind⟩]
  else
    free edata
    return []

def addEventInotifyFd (added : Bool) : Prog Site (List (Block Site)) := addEvent .eventDataInotifySize added

def addEventPipeExecve (added : Bool) : Prog Site (List (Block Site)) := addEvent .eventDataPipeExecve added

def detectSocket (created : Bool) : Prog Site (List (Block Site)) := addEvent .detectorArgs created

/-- What `process_surveillance_requests` does with one entry; returns what stays registered. -/
def processEntry (sent added : Bool) : Option Surveillance → Prog Site (List (Block Site))
  | some (.inotify _ _ size) => do
    let kept ← (if 0 < size then addEventInotifyFd added else pure [])
    answer sent
    return kept
  | some (.watchSocket _) => do
    answer sent
    detectSocket added
  | none => return []

/-- `process_surveillance_requests`, from `to_watch[i]` on. -/
def processSurveillanceRequests (com : CommandPtr) (os : MemoryOs) (i : Nat) :
    List (Option Surveillance) → Prog Site (List (Block Site))
  | [] => do
    access com.self
    return []
  | entry :: entries => do
    access com.self
    let kept ← processEntry (os.sent (i + 1)) (os.added i) entry
    let rest ← processSurveillanceRequests com os (i + 1) entries
    return kept ++ rest

/-! ## Launches -/

/-- `extract_clone_parameters`. -/
def extractCloneParameters (com : CommandPtr) : Prog Site Addr := do
  access com.self
  malloc .cloneParameters

/-- `launch_process` up to the return of `clone`. -/
def launchProcess : Prog Site (Addr × Addr) := do
  let info ← malloc .infoChild
  let stack ← malloc .stack
  return (info, stack)

/-- `launch_process` when it returns NULL. -/
def launchProcessFails : FailingCall → Prog Site Unit
  | .mallocParameter | .mallocInfo => pure ()
  | .mallocStack => do
    let info ← malloc .infoChild
    free info
  | .clone _ => do
    let (info, stack) ← launchProcess
    free stack
    free info

/-- `handle_clone_event` when it returns NULL. -/
def handleCloneEventFails (param : Addr) : FailingCall → Prog Site Unit
  | .mallocParameter => pure ()
  | call => do
    let parameters ← malloc .execveParameter
    access param
    launchProcessFails call
    free param
    free parameters

/-! ## The process table -/

/-- The slots that `manager_add_process` looks at. -/
def slotsTried (t : ProcessTable) : Nat :=
  if t.nbProcess < maxProcess then
    match scan maxProcess fun j => (t.manager j).stackP.isNone with
    | some j => j + 1
    | none => maxProcess
  else 0

/-- The slots that `manager_remove_process` looks at. -/
def slotsMatched (t : ProcessTable) (pid : Pid) : Nat :=
  match matchedSlot pid t.manager t.nbProcess with
  | some i => i + 1
  | none => min t.nbProcess.toNat maxProcess

/-- The stack that `manager_remove_process` frees. -/
def stackMatched (t : ProcessTable) (pid : Pid) : Option Addr :=
  (matchedSlot pid t.manager t.nbProcess).bind fun i => (t.manager i).stackP

def managerAddProcess (p : Pointers) (t : ProcessTable) : Prog Site Unit := do
  access p.manager
  accesses (p.slots.take (slotsTried t))

def managerRemoveProcess (p : Pointers) (t : ProcessTable) (pid : Pid) : Prog Site Unit := do
  access p.manager
  accesses (p.slots.take (slotsMatched t pid))
  freeNullable (stackMatched t pid)

/-- The loop of `free_manager`, from slot `i` on. -/
def freeSlots (manager : Manager) (i : Nat) : List Addr → Prog Site Unit
  | [] => pure ()
  | slot :: slots => do
    access slot
    freeNullable (manager i).stackP
    free slot
    freeSlots manager (i + 1) slots

/-- It reads past the table when the counter is above `MAX_PROCESS`. -/
def freeManager (p : Pointers) (t : ProcessTable) : Prog Site Unit := do
  access p.manager
  freeSlots t.manager 0 (p.slots.take t.nbProcess.toNat)
  if t.nbProcess ≤ p.slots.length then free p.manager else fault

/-- `handle_SIGCHLD`, and the `send_message` of its result; nothing happens while `waitpid` blocks. -/
def handleSIGCHLD (p : Pointers) (s : State) (pid : Pid) (garbage : Nat) (os : MemoryOs) : Prog Site Unit :=
  if (s.terminated pid garbage).isSome then do
    managerRemoveProcess p s.table pid
    answer (os.sent 0)
  else pure ()

/-! ## The cases of `main` -/

/-- A pointer that `main` has kept. -/
def known {α : Type} : Option α → Prog Site α
  | some a => pure a
  | none => fault

/-- The SOCK_MESSAGE case up to its `switch`. -/
def sockMessage (p : Pointers) (fd : Fd) : Prog Site BufferPtr := do
  let edata ← known (p.conns.lookup fd)
  access edata
  let info ← readSocketMessage
  access info.info
  return info

/-- `process_command_request` up to its `ChildCreationError`: `extract_clone_parameters` has no memory, or
`handle_clone_event` returns NULL. -/
def processCommandRequestFails (com : CommandPtr) : Option FailingCall → Prog Site Unit
  | none => access com.self
  | some call => do
    let param ← extractCloneParameters com
    handleCloneEventFails param call

/-- The RUN_COMMAND case when there is no child. -/
def runCommandFails (p : Pointers) (fd : Fd) (com : Command) (os : MemoryOs) (call : Option FailingCall) :
    Prog Site Pointers := do
  let info ← sockMessage p fd
  let ⟨ptr, _⟩ ← receiveCommand com os.listed info.buffer
  processCommandRequestFails ptr call
  answer (os.sent 0)
  let kept ← processSurveillanceRequests ptr os 0 com.toWatch
  free ptr.self
  return { p with kept := p.kept ++ kept }

/-- The RUN_COMMAND case up to the return of `clone`. -/
def runCommandClones (p : Pointers) (fd : Fd) (com : Command) (os : MemoryOs) : Prog Site Pointers := do
  let info ← sockMessage p fd
  let ⟨ptr, _⟩ ← receiveCommand com os.listed info.buffer
  let param ← extractCloneParameters ptr
  let parameters ← malloc .execveParameter
  access param
  let (info, stack) ← launchProcess
  return { p with locals := some ⟨ptr, param, parameters, info, stack⟩ }

/-- The rest of the RUN_COMMAND case. -/
def launchReturns (p : Pointers) (s : State) (lg : Launching) (epollAdd : Bool) (os : MemoryOs) :
    Prog Site Pointers := do
  let l ← known p.locals
  access l.info
  free l.param
  free l.parameters
  access l.info
  managerAddProcess p s.table
  answer (os.sent 0)
  let edata ← addEventPipeExecve epollAdd
  free l.info
  let kept ← processSurveillanceRequests l.com os 0 lg.toWatch
  free l.com.self
  return { p with
    kept := p.kept ++ kept
    pipes := p.pipes ++ edata.map fun b => ⟨lg.launch, b.addr, l.com.path⟩
    locals := none }

/-- The EXECVE case, and the same lines of the HUP/ERR branch. -/
def execve (p : Pointers) (e : PipeExecve) (os : MemoryOs) : Prog Site Pointers := do
  let pipe ← known (p.pipes.find? fun x => x.launch = e.launch)
  access pipe.edata
  access pipe.path
  answer (os.sent 0)
  access pipe.edata
  free pipe.edata
  return { p with pipes := p.pipes.filter fun x => x.launch ≠ e.launch }

/-- The branch `size==0`. -/
def sockClosed (p : Pointers) (fd : Fd) : Prog Site Pointers := do
  let _ ← sockMessage p fd
  let edata ← known (p.conns.lookup fd)
  access edata
  free edata
  return { p with conns := p.conns.eraseP fun x => x.1 = fd }

def killProcess (p : Pointers) (s : State) (fd : Fd) (pid : Pid) : Prog Site Pointers := do
  let info ← sockMessage p fd
  access info.buffer
  (if pid = 0 then freeManager p s.table else pure ())
  return p

/-- The SOCK_CONNEXION case. -/
def sockConnexion (p : Pointers) (fd : Fd) (os : MemoryOs) : Prog Site Pointers := do
  access p.listener
  access p.socketInfo
  let _ev ← malloc .epollEvent
  let edata ← malloc .eventData
  answer (os.sent 0)
  return { p with conns := (fd, edata) :: p.conns }

def inotify (p : Pointers) (updates : List InotifyPathUpdated) (os : MemoryOs) : Prog Site Pointers := do
  let edata ← known p.kept[os.watch]?
  access edata.addr
  answers os.sent 0 updates.length
  return p

/-- The heap from one `epoll_wait` to the next. -/
def program (p : Pointers) (s : State) (os : MemoryOs) : Label → Prog Site Pointers
  | .signalfd garbage _ =>
    match s.pending with
    | some pid => do
      access p.signalfd
      handleSIGCHLD p s pid garbage os
      return p
    | none => pure p
  | .waitpidReturns garbage _ =>
    match s.mode with
    | .waitpid pid => do
      handleSIGCHLD p s pid garbage os
      return p
    | _ => pure p
  | .execve _ =>
    match s.batch with
    | .execve e :: _ => execve p e os
    | _ => pure p
  | .runCommand com launch =>
    match s.batch with
    | .sockMessage fd :: _ =>
      match launch with
      | .paramFails _ => runCommandFails p fd com os none
      | .mallocFails .. => runCommandFails p fd com os (some os.failing)
      | .cloneFails _ pipefd _ => runCommandFails p fd com os (some (.clone pipefd))
      | .pipeFails | .clones .. => runCommandClones p fd com os
    | _ => pure p
  | .launchReturns epollAdd =>
    match s.mode with
    | .launching lg => launchReturns p s lg epollAdd os
    | _ => pure p
  | .killProcess pid =>
    match s.batch with
    | .sockMessage fd :: _ => killProcess p s fd pid
    | _ => pure p
  | .unexpected =>
    match s.batch with
    | .sockMessage fd :: _ => do
      let info ← sockMessage p fd
      access info.buffer
      return p
    | _ => pure p
  | .sockClosed =>
    match s.batch with
    | .sockMessage fd :: _ => sockClosed p fd
    | _ => pure p
  | .sockConnexion fd => sockConnexion p fd os
  | .inotify updates => inotify p updates os
  | .child .. | .openOther _ | .closeOther _ | .epollWait _ | .epollFails | .hupErr .. => pure p

/-- `main` up to its first `epoll_wait`. -/
def startUp : Prog Site Pointers := do
  let manager ← malloc .manager
  let slots ← mallocs (List.replicate maxProcess .processInfo)
  let socketInfo ← malloc .socketInfo
  let listener ← malloc .eventDataSock
  let inotify ← malloc .eventDataInotifySize
  let signalfd ← malloc .eventData
  return {
    manager := manager
    slots := slots.1.map Block.addr
    socketInfo := socketInfo
    listener := listener
    signalfd := signalfd
    kept := [⟨inotify, .eventDataInotifySize⟩]
    conns := []
    pipes := []
    locals := none }

/-! ## What a step leaves behind -/

/-- The buffer of a message that was sent; `info` too, if `send_message` has failed. -/
def answerLost (sent : Bool) : List Site := if sent then [.buffer] else [.bufferInfo, .buffer]

def answersLost (sent : Nat → Bool) (i : Nat) : Nat → List Site
  | 0 => []
  | n + 1 => answerLost (sent i) ++ answersLost sent (i + 1) n

/-- The message that was read. -/
def readLost : List Site := [.bufferInfo, .buffer]

def entriesLost (sent : Nat → Bool) (i : Nat) : List (Option Surveillance) → List Site
  | [] => []
  | some _ :: entries => answerLost (sent (i + 1)) ++ entriesLost sent (i + 1) entries
  | none :: entries => entriesLost sent (i + 1) entries

def requestLost (com : Command) (os : MemoryOs) : List Site :=
  .string :: partSites com os.listed ++ answerLost (os.sent 0) ++ entriesLost os.sent 0 com.toWatch

/-- `handle_clone_event` returns without a `free` of `param` if it has no memory for `p`. -/
def failureLost : FailingCall → List Site
  | .mallocParameter => [.cloneParameters]
  | _ => []

/-- The arrays and strings of the command, the path if no `event_data` has it, and the stack if the table has no
slot for it. -/
def launchLost (s : State) (lg : Launching) (l : Locals) (epollAdd : Bool) (os : MemoryOs) : List Site :=
  l.com.parts.map Block.kind ++ (if epollAdd then [] else [.string]) ++
    (if s.table.nextSlot.isSome then [] else [.stack]) ++ answerLost (os.sent 0) ++
    entriesLost os.sent 0 lg.toWatch

def reportLost (s : State) (pid : Pid) (garbage : Nat) (os : MemoryOs) : List Site :=
  if (s.terminated pid garbage).isSome then answerLost (os.sent 0) else []

def lostBy (p : Pointers) (s : State) (os : MemoryOs) : Label → List Site
  | .signalfd garbage _ =>
    match s.pending with
    | some pid => reportLost s pid garbage os
    | none => []
  | .waitpidReturns garbage _ =>
    match s.mode with
    | .waitpid pid => reportLost s pid garbage os
    | _ => []
  | .execve _ => .string :: answerLost (os.sent 0)
  | .runCommand com (.paramFails _) => readLost ++ requestLost com os
  | .runCommand com (.mallocFails ..) => readLost ++ failureLost os.failing ++ requestLost com os
  | .runCommand com (.cloneFails ..) => readLost ++ requestLost com os
  | .runCommand _ .pipeFails | .runCommand _ (.clones ..) => readLost
  | .launchReturns epollAdd =>
    match s.mode, p.locals with
    | .launching lg, some l => launchLost s lg l epollAdd os
    | _, _ => []
  | .killProcess _ | .unexpected | .sockClosed => readLost
  | .sockConnexion _ => .epollEvent :: answerLost (os.sent 0)
  | .inotify updates => answersLost os.sent 0 updates.length
  | _ => []

end Memory

/-- The daemon with its heap. `lost` is what the steps so far should have left behind. -/
structure Memory where
  daemon : State
  pointers : Pointers
  heap : Blocks Site
  lost : List Site
  faulted : Bool

structure MemoryLabel where
  label : Label
  os : MemoryOs

namespace Memory

/-- At the first `epoll_wait`. -/
def init (heap : Nat → ProcessInfo) (nfds : Nat) (garbageSock : Fd) (destPort : Nat) : Option Memory :=
  match startUp Blocks.empty with
  | some (pointers, blocks) => some {
      daemon := .init heap nfds garbageSock destPort
      pointers := pointers
      heap := blocks
      lost := []
      faulted := false }
  | none => none

/-- The label and what the system does beside it agree: a `clone` that fails has its own label, a command
without a vector `to_watch` watches nothing, and an inotify event is one of an inotify instance. -/
def agrees (p : Pointers) (os : MemoryOs) : Label → Bool
  | .runCommand com launch =>
    (os.listed || com.toWatch.isEmpty) &&
      match launch, os.failing with
      | .mallocFails .., .clone _ => false
      | _, _ => true
  | .inotify _ => (p.kept[os.watch]?.map Block.kind) = some .eventDataInotifySize
  | _ => true

/-- The stack of a new child is where `launch_process` has it. -/
def stackAgrees (p : Pointers) : Label → Bool
  | .runCommand _ (.clones _ _ _ stack) => (p.locals.map Locals.stack) = some stack
  | _ => true

end Memory

def memoryStep (t : Memory) (l : MemoryLabel) : Option Memory :=
  if t.faulted ∨ ¬ Memory.agrees t.pointers l.os l.label then none
  else
    match step t.daemon l.label with
    | none => if l.label.handlesSignal ∧ t.daemon.pastTable then some { t with faulted := true } else none
    | some s =>
      match Memory.program t.pointers t.daemon l.os l.label t.heap with
      | none => some { t with faulted := true }
      | some (pointers, heap) =>
        if Memory.stackAgrees pointers l.label then
          some {
            daemon := s
            pointers := pointers
            heap := heap
            lost := t.lost ++ Memory.lostBy t.pointers t.daemon l.os l.label
            faulted := false }
        else none

/-! ## The steps of a concrete run -/

namespace Memory

/-- Every call succeeds. -/
def quiet : MemoryOs := ⟨.mallocInfo, fun _ => true, fun _ => true, true, 0⟩

def start : Option Memory := init (fun _ => ⟨none, 0, 0⟩) 8 0 8080

/-- A launch that watches a file, up to the end of its child and the event of the next request. -/
def servesOne : List MemoryLabel :=
  let labels : List Label := connects ++ [.epollWait [.sockMessage 8],
    .runCommand ⟨"A", ["A"], [], 0, 8192, [some (.inotify "f" 2 0)]⟩ (.clones (some 9) (10, 11) 20 279),
    .launchReturns true] ++ execs 0 "A" 10 20 ++ .child 0 (.exit (.exited 0)) :: handlesSignal ++
    [.epollWait [.sockMessage 8]]
  labels.map fun l => ⟨l, quiet⟩

end Memory

end ProcCtrld
