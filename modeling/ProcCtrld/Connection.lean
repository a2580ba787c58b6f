import ProcCtrld.Daemon
import ProcCtrld.Requests
import ProcCtrld.SockMessage

/-!
# ProcCtrld.Connection

The SOCK_MESSAGE case of the event loop (`daemon-core.c`, `events.c`) over the whole life of one
connection: the bytes the client sent, cut into the chunks the daemon's reads return, and then the
disconnection. `hangup` is the number of the first SOCK_MESSAGE step by which the client has
disconnected.

A step reads a frame (`sockMessage`), decodes it and carries out the case of its `switch`, answers
included; `Crash` lists what ends the daemon on the way. `serve` records each step with the stream
before and after it. `survives_iff` says on which streams every step does what the loop is for: only on
complete frames with requests that can be carried out, followed by a frame of size zero that the daemon
reads after the client has gone or by a request to end the daemon. The end of the stream itself is
never such a step.
-/

namespace ProcCtrld

/-- What stops the daemon inside a step, besides a request to end it. -/
inductive Crash where
  | nullDeref
  /-- a read outside an array or of memory that was never written -/
  | undefined
  /-- `exit(1)` -/
  | exits
  /-- the default action of SIGPIPE -/
  | sigpipe
  /-- what a child does that is part of the process of the daemon -/
  | child
deriving DecidableEq, Repr

/-- The process table that one step finds and what the system does to it. `decodes` and `builds i` are for
the allocations of `receive_command` and of the `i`-th answer (`serialize_wrapper.cpp` makes NULL of one
that fails), `sigpipe i` says whether the `send` of that answer raises the signal, `detectorArgs i` whether
the `malloc` of `detect_socket` after it succeeds, `spared` whether a child with flags that are not ordinary
leaves the daemon as it is, and `isDaemon` which pids name the daemon for `kill`. -/
structure StepOs where
  malloc : Malloc
  table : ProcessTable
  launch : LaunchOs
  decodes : Bool
  builds : Nat → Bool
  sigpipe : Nat → Bool
  detectorArgs : Nat → Bool
  spared : Bool
  isDaemon : Pid → Bool

namespace StepOs

/-- `send_message`, which reads `info->size` without a test; a `send` that fails otherwise returns -1. -/
def sendMessage (os : StepOs) (i : Nat) : Except Crash Unit :=
  if os.builds i = false then .error .nullDeref
  else if os.sigpipe i then .error .sigpipe
  else .ok ()

/-- `process_command_request`, up to its answer. -/
def processCommandRequest (os : StepOs) (com : Command) : Except Crash Unit :=
  match os.launch with
  | .paramFails _ => .ok ()
  | .mallocFails .. | .cloneFails .. =>
    -- the name of the error file is made of `param->args[0]`
    if com.args = [] then .error .undefined else .ok ()
  | .pipeFails => if com.args = [] then .error .undefined else .error .exits
  | .clones .. =>
    if com.args = [] then .error .undefined
    else if com.OrdinaryChild ∨ os.spared then .ok ()
    else .error .child

/-- One turn of `process_surveillance_requests`, whose answer is the `i`-th. -/
def surveillanceRequest (os : StepOs) (i : Nat) : Option Surveillance → Except Crash Unit
  | some (.inotify ..) => os.sendMessage i
  | some (.watchSocket _) => do
    os.sendMessage i
    if os.detectorArgs i then .ok () else .error .exits
  -- `to_watch[i].event` was never written
  | none => .error .undefined

def processSurveillanceRequests (os : StepOs) : Nat → List (Option Surveillance) → Except Crash Unit
  | _, [] => .ok ()
  | i, w :: ws => do
    os.surveillanceRequest i w
    os.processSurveillanceRequests (i + 1) ws

/-- The RUN_COMMAND case. -/
def runCommand (os : StepOs) (com : Command) : Except Crash Unit :=
  if os.decodes then do
    os.processCommandRequest com
    os.sendMessage 0
    os.processSurveillanceRequests 1 com.toWatch
  -- `com->args` with `com == NULL`
  else .error .nullDeref

/-- The KILL_PROCESS case; pid 0 frees the table and kills the process group of the daemon. -/
def killProcess (os : StepOs) (pid : Pid) : Except Crash Bool :=
  if 0 < pid then .ok (!os.isDaemon pid)
  else if pid = 0 then
    match freeManager os.table.manager os.table.nbProcess with
    | some _ => .ok false
    | none => .error .undefined
  else .ok true

/-- A case of the `switch`: whether the daemon goes on after it. -/
def act (os : StepOs) : Request → Except Crash Bool
  | .runCommand com => do
    os.runCommand com
    return true
  | .killProcess pid => os.killProcess pid
  | .unexpected => .ok true

/-- What the `switch` does with a payload. -/
def serve (verify : Bytes → Int → Option Message) (os : StepOs) (payload : Bytes) : Except Crash Bool :=
  match dispatch verify payload payload.length with
  | .error _ => .error .nullDeref
  | .ok req => os.act req

end StepOs

/-- `ended`: the daemon has ended itself because the frame asks for that. -/
inductive StepOutcome where
  | handled (payload : Bytes)
  | ended (payload : Bytes)
  | closed
  | crashed (crash : Crash)
deriving DecidableEq, Repr

/-- The SOCK_MESSAGE case. -/
def sockMessageCase (verify : Bytes → Int → Option Message) (os : StepOs) (sock : List Bytes) :
    StepOutcome × List Bytes :=
  match sockMessage os.malloc sock with
  | (.nullDeref, rest) => (.crashed .nullDeref, rest)
  | (.closed, rest) => (.closed, rest)
  | (.handled payload, rest) =>
    match os.serve verify payload with
    | .ok true => (.handled payload, rest)
    | .ok false => (.ended payload, rest)
    | .error crash => (.crashed crash, rest)

structure ServedStep where
  index : Nat
  before : List Bytes
  outcome : StepOutcome
  after : List Bytes

section Serve

variable (verify : Bytes → Int → Option Message) (os : Nat → StepOs)

/-- The SOCK_MESSAGE steps of one connection, from step number `k` on: after a handled frame the
connection is still registered, and after anything else there is none or no daemon. -/
def serve : Nat → Nat → List Bytes → List ServedStep
  | 0, _, _ => []
  | fuel + 1, k, sock =>
    let r := sockMessageCase verify (os k) sock
    ⟨k, sock, r.1, r.2⟩ ::
      match r.1 with
      | .handled _ => serve fuel (k + 1) r.2
      | _ => []

/-- Every frame takes at least its header off the stream, so this is the whole connection. -/
def connection (sock : List Bytes) : List ServedStep := serve verify os (sock.flatten.length + 1) 0 sock

end Serve

/-- What a step is for: it handles the complete frame the stream starts with, or it closes a
connection whose client has gone. -/
def StepOk (hangup : Nat) (st : ServedStep) : Prop :=
  match st.outcome with
  | .handled p | .ended p => st.before.flatten = frame p ++ st.after.flatten
  | .closed => hangup ≤ st.index
  | .crashed _ => False

/-! ## The requests that can be carried out -/

def LaunchOs.paramFailed : LaunchOs → Bool
  | paramFails _ => true
  | _ => false

def LaunchOs.cloned : LaunchOs → Bool
  | clones .. => true
  | _ => false

def SurveillanceEvent.watchesSocket : SurveillanceEvent → Bool
  | tcpSocket _ => true
  | _ => false

/-- The `i`-th answer gets through, or is refused without a signal. -/
def StepOs.Answers (os : StepOs) (i : Nat) : Prop := os.builds i = true ∧ os.sigpipe i = false

/-- The entry is complete, it can be answered, and the arguments of its thread can be allocated. -/
def SurveillanceEvent.Feasible (os : StepOs) (i : Nat) (w : SurveillanceEvent) : Prop :=
  w.Complete ∧ os.Answers i ∧ (w.watchesSocket → os.detectorArgs i)

structure RunCommand.Feasible (os : StepOs) (r : RunCommand) : Prop where
  complete : r.Complete
  decodes : os.decodes
  argument : r.args = some [] → os.launch.paramFailed
  pipe : os.launch ≠ .pipeFails
  child : os.launch.cloned → OrdinaryFlags r.flags ∨ os.spared
  answer : os.Answers 0
  watches : ∀ (j : Nat) (w : SurveillanceEvent), (r.toWatch.getD [])[j]? = some w → w.Feasible os (j + 1)

section Payload

variable (verify : Bytes → Int → Option Message) (os : StepOs) (p : Bytes)

/-- The payload is refused by the verifier, or holds a request that the daemon can carry out and live. -/
def Feasible : Prop :=
  match getMessage verify (some p) p.length with
  | some (.runCommand events) => ∃ r, events = some r ∧ r.Feasible os
  | some (.killProcess events) => ∃ t, events = some t ∧ t.pid ≠ 0 ∧ (0 < t.pid → os.isDaemon t.pid = false)
  | _ => True

/-- The payload asks the daemon to end, and the table is one that it can free. -/
def EndsDaemon : Prop :=
  ∃ t, getMessage verify (some p) p.length = some (.killProcess (some t)) ∧
    (0 < t.pid ∧ os.isDaemon t.pid ∨ t.pid = 0 ∧ os.table.nbProcess ≤ maxProcess)

end Payload

/-- Complete uncut frames with feasible payloads, then an uncut frame of size zero read after the client
has disconnected or an uncut frame that ends the daemon; every allocation of the reads succeeds. Steps
are counted from `k`. -/
def Survivable (verify : Bytes → Int → Option Message) (os : Nat → StepOs) (hangup k : Nat)
    (sock : List Bytes) : Prop :=
  ∃ (ps : List Bytes) (last rest : Bytes),
    (∀ i p, ps[i]? = some p → p ≠ [] ∧ p.length < 2 ^ 31 ∧ Feasible verify (os (k + i)) p) ∧
    last.length < 2 ^ 31 ∧ sock.flatten = frames (ps ++ [last]) ++ rest ∧
    FramesUncut sock 0 (ps ++ [last]) ∧ Allocated (fun i => (os i).malloc) k (ps ++ [last]) ∧
    (last = [] ∧ hangup ≤ k + ps.length ∨ last ≠ [] ∧ EndsDaemon verify (os (k + ps.length)) last)

/-! ## What the switch does -/

section Act

variable {os : StepOs}

theorem sendMessage_ok_iff {i : Nat} : os.sendMessage i = .ok () ↔ os.Answers i := by
  unfold StepOs.sendMessage StepOs.Answers
  cases os.builds i <;> cases os.sigpipe i <;> simp

theorem processCommandRequest_ok_iff {com : Command} :
    os.processCommandRequest com = .ok () ↔
      (com.args = [] → os.launch.paramFailed) ∧ os.launch ≠ .pipeFails ∧
        (os.launch.cloned → com.OrdinaryChild ∨ os.spared) := by
  unfold StepOs.processCommandRequest
  generalize os.launch = launch
  cases launch with
  | paramFails errno => simp [LaunchOs.paramFailed, LaunchOs.cloned]
  | mallocFails errFile errno => by_cases hargs : com.args = [] <;> simp [hargs, LaunchOs.paramFailed, LaunchOs.cloned]
  | pipeFails => by_cases hargs : com.args = [] <;> simp [hargs]
  | cloneFails errFile pipefd errno =>
    by_cases hargs : com.args = [] <;> simp [hargs, LaunchOs.paramFailed, LaunchOs.cloned]
  | clones errFile pipefd pid stack =>
    by_cases hargs : com.args = []
    · simp [hargs, LaunchOs.paramFailed]
    · by_cases hchild : com.OrdinaryChild ∨ os.spared <;> simp [hargs, hchild, LaunchOs.cloned]

theorem surveillance_feasible {i : Nat} (w : SurveillanceEvent) :
    (∃ e, receiveSurveillance w = .ok e ∧ os.surveillanceRequest i e = .ok ()) ↔ w.Feasible os i := by
  cases w with
  | inotify event =>
    simp only [receiveSurveillance, bind_eq_ok, deref_eq_ok, pure_eq_ok, SurveillanceEvent.Feasible,
      SurveillanceEvent.Complete, SurveillanceEvent.watchesSocket, Option.isSome_iff_exists]
    constructor
    · rintro ⟨_, ⟨t, rfl, path, hpath, rfl⟩, hreq⟩
      exact ⟨⟨t, rfl, path, hpath⟩, sendMessage_ok_iff.mp hreq, by simp⟩
    · rintro ⟨⟨t, rfl, path, hpath⟩, hsend, -⟩
      exact ⟨_, ⟨t, rfl, path, hpath, rfl⟩, sendMessage_ok_iff.mpr hsend⟩
  | tcpSocket event =>
    simp only [receiveSurveillance, bind_eq_ok, deref_eq_ok, pure_eq_ok, SurveillanceEvent.Feasible,
      SurveillanceEvent.Complete, SurveillanceEvent.watchesSocket, Option.isSome_iff_exists]
    constructor
    · rintro ⟨_, ⟨t, rfl, rfl⟩, hreq⟩
      obtain ⟨_, hsend, hargs⟩ := bind_eq_ok.mp hreq
      refine ⟨⟨t, rfl⟩, sendMessage_ok_iff.mp hsend, fun _ => ?_⟩
      by_contra hno
      rw [if_neg hno] at hargs
      cases hargs
    · rintro ⟨⟨t, rfl⟩, hsend, hargs⟩
      exact ⟨_, ⟨t, rfl, rfl⟩, bind_eq_ok.mpr ⟨(), sendMessage_ok_iff.mpr hsend, if_pos (hargs trivial)⟩⟩
  | other tag htag =>
    simp [receiveSurveillance, pure_eq_ok, StepOs.surveillanceRequest, SurveillanceEvent.Feasible,
      SurveillanceEvent.Complete]

variable (os) in
/-- The entries are walked to the end exactly when all of them are feasible. -/
theorem surveillances_feasible (ws : List SurveillanceEvent) : ∀ i : Nat,
    (∃ es, receiveSurveillances ws = .ok es ∧ os.processSurveillanceRequests i es = .ok ()) ↔
      ∀ (j : Nat) (w : SurveillanceEvent), ws[j]? = some w → w.Feasible os (i + j) := by
  induction ws with
  | nil => intro i; simp [receiveSurveillances, pure_eq_ok, StepOs.processSurveillanceRequests]
  | cons w ws ih =>
    intro i
    have hhead : (∀ (j : Nat) (w' : SurveillanceEvent), (w :: ws)[j]? = some w' → w'.Feasible os (i + j)) ↔
        w.Feasible os i ∧ ∀ (j : Nat) (w' : SurveillanceEvent), ws[j]? = some w' → w'.Feasible os (i + 1 + j) := by
      constructor
      · intro h
        refine ⟨h 0 w rfl, fun j w' hj => ?_⟩
        have hnext := h (j + 1) w' hj
        rwa [show i + (j + 1) = i + 1 + j by omega] at hnext
      · rintro ⟨hw, hws⟩ j w' hj
        cases j with
        | zero => cases hj; exact hw
        | succ j =>
          rw [show i + (j + 1) = i + 1 + j by omega]
          exact hws j w' hj
    rw [hhead, ← ih (i + 1), ← surveillance_feasible]
    simp only [receiveSurveillances, bind_eq_ok, pure_eq_ok]
    constructor
    · rintro ⟨_, ⟨e, he, es, hes, rfl⟩, hreq⟩
      obtain ⟨_, hone, hrest⟩ := bind_eq_ok.mp hreq
      exact ⟨⟨e, he, hone⟩, es, hes, hrest⟩
    · rintro ⟨⟨e, he, hone⟩, es, hes, hrest⟩
      exact ⟨_, ⟨e, he, es, hes, rfl⟩, bind_eq_ok.mpr ⟨(), hone, hrest⟩⟩

theorem runCommand_ok_iff {com : Command} :
    os.runCommand com = .ok () ↔
      os.decodes ∧ os.processCommandRequest com = .ok () ∧ os.Answers 0 ∧
        os.processSurveillanceRequests 1 com.toWatch = .ok () := by
  unfold StepOs.runCommand
  by_cases hdecodes : os.decodes = true
  · rw [if_pos hdecodes]
    simp only [bind_eq_ok, ← sendMessage_ok_iff, hdecodes, true_and]
    constructor
    · rintro ⟨_, hreq, _, hsend, hwatch⟩
      exact ⟨hreq, hsend, hwatch⟩
    · rintro ⟨hreq, hsend, hwatch⟩
      exact ⟨(), hreq, (), hsend, hwatch⟩
  · simp [hdecodes]

theorem command_feasible (events : Option RunCommand) :
    (∃ com, receiveRunCommand events = .ok com ∧ os.runCommand com = .ok ()) ↔
      ∃ r, events = some r ∧ r.Feasible os := by
  simp only [runCommand_ok_iff, processCommandRequest_ok_iff, receiveRunCommand, bind_eq_ok, deref_eq_ok,
    pure_eq_ok]
  constructor
  · rintro ⟨_, ⟨r, rfl, path, hpath, args, hargs, envp, henvp, es, hes, rfl⟩, hdecodes, ⟨harg, hpipe, hchild⟩,
      hsend, hwatch⟩
    have hwatches := (surveillances_feasible os _ 1).mp ⟨es, hes, hwatch⟩
    refine ⟨r, rfl, ?_, hdecodes, ?_, hpipe, hchild, hsend, ?_⟩
    · refine ⟨by simp [hpath], by simp [hargs], by simp [henvp], fun w hw => ?_⟩
      obtain ⟨j, hj⟩ := List.mem_iff_getElem?.mp hw
      exact (hwatches j w hj).1
    · intro hnil
      rw [hargs] at hnil
      cases hnil
      exact harg rfl
    · intro j w hj
      rw [Nat.add_comm]
      exact hwatches j w hj
  · rintro ⟨r, rfl, h⟩
    obtain ⟨hpath, hargs, henvp, -⟩ := h.complete
    obtain ⟨path, hpath⟩ := Option.isSome_iff_exists.mp hpath
    obtain ⟨args, hargs⟩ := Option.isSome_iff_exists.mp hargs
    obtain ⟨envp, henvp⟩ := Option.isSome_iff_exists.mp henvp
    obtain ⟨es, hes, hwatch⟩ := (surveillances_feasible os (r.toWatch.getD []) 1).mpr fun j w hj => by
      rw [Nat.add_comm]
      exact h.watches j w hj
    refine ⟨_, ⟨r, rfl, path, hpath, args, hargs, envp, henvp, es, hes, rfl⟩, h.decodes, ⟨?_, h.pipe, h.child⟩,
      h.answer, hwatch⟩
    intro hnil
    refine h.argument ?_
    rw [hargs, List.map_eq_nil_iff.mp hnil]

theorem killProcess_true_iff {pid : Pid} :
    os.killProcess pid = .ok true ↔ pid ≠ 0 ∧ (0 < pid → os.isDaemon pid = false) := by
  unfold StepOs.killProcess
  split
  · rename_i hpos
    simp [hpos, hpos.ne']
  · rename_i hpos
    by_cases hzero : pid = 0
    · cases hfree : freeManager os.table.manager os.table.nbProcess <;> simp [hzero]
    · simp [hpos, hzero]

theorem killProcess_false_iff {pid : Pid} :
    os.killProcess pid = .ok false ↔
      0 < pid ∧ os.isDaemon pid ∨ pid = 0 ∧ os.table.nbProcess ≤ maxProcess := by
  unfold StepOs.killProcess
  split
  · rename_i hpos
    simp [hpos, hpos.ne']
  · rename_i hpos
    by_cases hzero : pid = 0
    · by_cases hnb : os.table.nbProcess ≤ maxProcess <;> simp [hzero, hnb, freeManager]
    · simp [hpos, hzero]

end Act

section Payload

variable {verify : Bytes → Int → Option Message} {os : StepOs} {p : Bytes}

theorem serve_runCommand {events : Option RunCommand}
    (hm : getMessage verify (some p) p.length = some (.runCommand events)) {goesOn : Bool} :
    os.serve verify p = .ok goesOn ↔ goesOn = true ∧ ∃ r, events = some r ∧ r.Feasible os := by
  rw [← command_feasible]
  have hmsg : receiveMessageFromUser verify (some p) p.length = .runCommand := by
    simp only [receiveMessageFromUser, hm]
  have hcmd : receiveCommand verify (some p) p.length = (receiveRunCommand events >>= fun c => pure (some c)) := by
    simp only [receiveCommand, hm]
  simp only [StepOs.serve, dispatch, hmsg, hcmd]
  cases hdec : receiveRunCommand events with
  | error fault => simp [bind, Except.bind]
  | ok com =>
    have hact : os.act (.runCommand com) = .ok goesOn ↔ goesOn = true ∧ os.runCommand com = .ok () := by
      simp only [StepOs.act, bind_eq_ok, pure_eq_ok]
      constructor
      · rintro ⟨_, hrun, h⟩
        exact ⟨h.symm, hrun⟩
      · rintro ⟨h, hrun⟩
        exact ⟨(), hrun, h.symm⟩
    simpa [bind, Except.bind, pure, Except.pure, deref] using hact

theorem serve_killProcess {events : Option KillProcess}
    (hm : getMessage verify (some p) p.length = some (.killProcess events)) {goesOn : Bool} :
    os.serve verify p = .ok goesOn ↔ ∃ t, events = some t ∧ os.killProcess t.pid = .ok goesOn := by
  have hmsg : receiveMessageFromUser verify (some p) p.length = .killProcess := by
    simp only [receiveMessageFromUser, hm]
  have hkill : receiveKill verify (some p) p.length = (deref events >>= fun k => pure k.pid) := by
    simp only [receiveKill, hm]
  simp only [StepOs.serve, dispatch, hmsg, hkill]
  cases events with
  | none => simp [deref, bind, Except.bind]
  | some t => simp [deref, bind, Except.bind, pure, Except.pure, StepOs.act]

theorem serve_unexpected (hrun : ∀ events, getMessage verify (some p) p.length ≠ some (.runCommand events))
    (hkill : ∀ events, getMessage verify (some p) p.length ≠ some (.killProcess events)) :
    os.serve verify p = .ok true := by
  have hmsg : receiveMessageFromUser verify (some p) p.length = .none := by
    unfold receiveMessageFromUser
    split
    · rename_i events hm
      exact absurd hm (hrun events)
    · rename_i events hm
      exact absurd hm (hkill events)
    · rfl
  simp only [StepOs.serve, dispatch, hmsg]
  rfl

theorem serve_true_iff : os.serve verify p = .ok true ↔ Feasible verify os p := by
  unfold Feasible
  split
  · rename_i events hm
    simp [serve_runCommand hm]
  · rename_i events hm
    simp only [serve_killProcess hm, killProcess_true_iff]
  · rename_i hrun hkill
    exact iff_of_true (serve_unexpected hrun hkill) trivial

theorem serve_false_iff : os.serve verify p = .ok false ↔ EndsDaemon verify os p := by
  constructor
  · intro h
    by_cases hkill : ∃ events, getMessage verify (some p) p.length = some (.killProcess events)
    · obtain ⟨events, hm⟩ := hkill
      obtain ⟨t, rfl, hend⟩ := (serve_killProcess hm).mp h
      exact ⟨t, hm, killProcess_false_iff.mp hend⟩
    · by_cases hrun : ∃ events, getMessage verify (some p) p.length = some (.runCommand events)
      · obtain ⟨events, hm⟩ := hrun
        cases ((serve_runCommand hm).mp h).1
      · rw [serve_unexpected (fun e he => hrun ⟨e, he⟩) fun e he => hkill ⟨e, he⟩] at h
        cases h
  · rintro ⟨t, hm, hend⟩
    exact (serve_killProcess hm).mpr ⟨t, rfl, killProcess_false_iff.mpr hend⟩

end Payload

/-! ## The steps of one connection -/

section Steps

variable {verify : Bytes → Int → Option Message} {os : Nat → StepOs} {hangup k : Nat}
  {sock sock' : List Bytes} {p : Bytes}

/-- What a call of `read_socket_message` that returns `p` says about the stream and leaves of it. -/
structure FirstFrame (malloc : Malloc) (sock : List Bytes) (p : Bytes) (sock' : List Bytes) : Prop where
  short : p.length < 2 ^ 31
  stream : sock.flatten = frame p ++ sock'.flatten
  header : Chunks.Uncut sock 0 4
  body : Chunks.Uncut sock 4 p.length
  info : malloc.info
  buffer : malloc.buffer p.length
  chunks : ∀ c ∈ sock', c ≠ []
  shift : ∀ a m, Chunks.Uncut sock' a m ↔ Chunks.Uncut sock (a + (4 + p.length)) m

theorem firstFrame_of_read {malloc : Malloc} (hne : ∀ c ∈ sock, c ≠ [])
    (hread : readSocketMessage malloc sock = (some ⟨p, p.length⟩, sock')) : FirstFrame malloc sock p sock' := by
  obtain ⟨_, hlt, hs⟩ := readSocketMessage_some hread
  have hfirst : (readSocketMessage malloc sock).1 = some ⟨p, p.length⟩ := by rw [hread]
  obtain ⟨hchunks, _, hshift⟩ := readSocketMessage_rest hlt hne hs hfirst
  rw [hread] at hchunks hshift
  obtain ⟨h0, h4, hi, hb⟩ := (readSocketMessage_frame hlt hne hs).mp hfirst
  exact ⟨hlt, hs, h0, h4, hi, hb, hchunks, hshift⟩

theorem read_frames {malloc : Nat → Malloc} {ps : List Bytes} {rest : Bytes} (hne : ∀ c ∈ sock, c ≠ [])
    (hlt : p.length < 2 ^ 31) (hflat : sock.flatten = frames (p :: ps) ++ rest)
    (huncut : FramesUncut sock 0 (p :: ps)) (halloc : Allocated malloc k (p :: ps)) :
    ∃ sock', readSocketMessage (malloc k) sock = (some ⟨p, p.length⟩, sock') ∧
      sock'.flatten = frames ps ++ rest ∧ FramesUncut sock' 0 ps ∧ Allocated malloc (k + 1) ps := by
  obtain ⟨h0, h4, huncut⟩ := huncut
  obtain ⟨hi, hb, halloc⟩ := halloc
  have hs : sock.flatten = frame p ++ (frames ps ++ rest) := by simpa [frames] using hflat
  have hfirst := (readSocketMessage_frame hlt hne hs).mpr ⟨h0, by simpa using h4, hi, hb⟩
  obtain ⟨_, hrest, hshift⟩ := readSocketMessage_rest hlt hne hs hfirst
  refine ⟨_, Prod.ext hfirst rfl, hrest, ?_, halloc⟩
  rw [framesUncut_shift hshift]
  simpa [Nat.add_comm, Nat.add_left_comm] using huncut

/-- A step whose frame is carried out: whether the daemon goes on is what the `switch` says. -/
theorem sockMessageCase_served {os : StepOs} (goesOn : Bool) :
    sockMessageCase verify os sock = (if goesOn then .handled p else .ended p, sock') ↔
      sockMessage os.malloc sock = (.handled p, sock') ∧ os.serve verify p = .ok goesOn := by
  obtain ⟨read, rest, hread⟩ : ∃ read rest, sockMessage os.malloc sock = (read, rest) := ⟨_, _, rfl⟩
  cases read with
  | nullDeref => cases goesOn <;> simp [sockMessageCase, hread]
  | closed => cases goesOn <;> simp [sockMessageCase, hread]
  | handled payload =>
    simp only [sockMessageCase, hread, Prod.mk.injEq, SockStep.handled.injEq]
    constructor
    · intro h
      cases hserve : os.serve verify payload with
      | error crash => cases goesOn <;> simp [hserve] at h
      | ok goes =>
        cases goes <;> cases goesOn <;> simp [hserve] at h <;>
          exact ⟨h, h.1 ▸ hserve⟩
    · rintro ⟨⟨rfl, rfl⟩, hserve⟩
      cases goesOn <;> simp [hserve]

theorem sockMessageCase_handled {os : StepOs} :
    sockMessageCase verify os sock = (.handled p, sock') ↔
      p ≠ [] ∧ readSocketMessage os.malloc sock = (some ⟨p, p.length⟩, sock') ∧ Feasible verify os p := by
  rw [← and_assoc, ← sockMessage_handled, ← serve_true_iff]
  exact sockMessageCase_served true

theorem sockMessageCase_ended {os : StepOs} :
    sockMessageCase verify os sock = (.ended p, sock') ↔
      p ≠ [] ∧ readSocketMessage os.malloc sock = (some ⟨p, p.length⟩, sock') ∧ EndsDaemon verify os p := by
  rw [← and_assoc, ← sockMessage_handled, ← serve_false_iff]
  exact sockMessageCase_served false

theorem sockMessageCase_closed {os : StepOs} :
    sockMessageCase verify os sock = (.closed, sock') ↔
      readSocketMessage os.malloc sock = (some ⟨[], 0⟩, sock') := by
  rw [← sockMessage_closed]
  obtain ⟨read, rest, hread⟩ : ∃ read rest, sockMessage os.malloc sock = (read, rest) := ⟨_, _, rfl⟩
  cases read with
  | nullDeref => simp [sockMessageCase, hread]
  | closed => simp [sockMessageCase, hread]
  | handled payload =>
    simp only [sockMessageCase, hread]
    rcases os.serve verify payload with crash | goes | goes <;> simp

theorem survivable_iff (hne : ∀ c ∈ sock, c ≠ []) :
    Survivable verify os hangup k sock ↔
      (∃ p sock', sockMessageCase verify (os k) sock = (.handled p, sock') ∧
        Survivable verify os hangup (k + 1) sock') ∨
      (∃ sock', sockMessageCase verify (os k) sock = (.closed, sock') ∧ hangup ≤ k) ∨
      ∃ p sock', sockMessageCase verify (os k) sock = (.ended p, sock') := by
  constructor
  · rintro ⟨ps, last, rest, hps, hlast, hflat, huncut, halloc, hend⟩
    cases ps with
    | nil =>
      obtain ⟨sock', hread, -⟩ := read_frames hne hlast hflat huncut halloc
      right
      rcases hend with ⟨rfl, hk⟩ | ⟨hne', hend⟩
      · exact .inl ⟨sock', sockMessageCase_closed.mpr hread, hk⟩
      · exact .inr ⟨last, sock', sockMessageCase_ended.mpr ⟨hne', hread, hend⟩⟩
    | cons p ps =>
      obtain ⟨hp, hlt, hfeasible⟩ := hps 0 p rfl
      obtain ⟨sock', hread, hrest, huncut', halloc'⟩ := read_frames hne hlt hflat huncut halloc
      refine .inl ⟨p, sock', sockMessageCase_handled.mpr ⟨hp, hread, hfeasible⟩, ps, last, rest, ?_, hlast,
        hrest, huncut', halloc', ?_⟩
      · intro i q hq
        rw [Nat.add_assoc, Nat.add_comm 1]
        exact hps (i + 1) q hq
      · rw [Nat.add_assoc, Nat.add_comm 1]
        exact hend
  · rintro (⟨p, sock', hcase, hrest⟩ | ⟨sock', hcase, hk⟩ | ⟨p, sock', hcase⟩)
    · obtain ⟨hp, hread, hfeasible⟩ := sockMessageCase_handled.mp hcase
      have hfirst := firstFrame_of_read hne hread
      obtain ⟨ps, last, rest, hps, hlast, hflat, huncut, halloc, hend⟩ := hrest
      refine ⟨p :: ps, last, rest, ?_, hlast, ?_, ?_, ⟨hfirst.info, hfirst.buffer, halloc⟩, ?_⟩
      · intro i q hq
        cases i with
        | zero => cases hq; exact ⟨hp, hfirst.short, hfeasible⟩
        | succ i =>
          rw [Nat.add_comm i, ← Nat.add_assoc]
          exact hps i q hq
      · rw [hfirst.stream, hflat]; simp [frames]
      · rw [framesUncut_shift hfirst.shift] at huncut
        refine ⟨hfirst.header, by simpa using hfirst.body, ?_⟩
        simpa [Nat.add_comm, Nat.add_left_comm] using huncut
      · rw [List.length_cons, Nat.add_comm ps.length, ← Nat.add_assoc]
        exact hend
    · have hfirst := firstFrame_of_read (p := []) hne (sockMessageCase_closed.mp hcase)
      exact ⟨[], [], sock'.flatten, by simp, hfirst.short, by simpa [frames] using hfirst.stream,
        ⟨hfirst.header, hfirst.body, trivial⟩, ⟨hfirst.info, hfirst.buffer, trivial⟩, .inl ⟨rfl, hk⟩⟩
    · obtain ⟨hp, hread, hend⟩ := sockMessageCase_ended.mp hcase
      have hfirst := firstFrame_of_read hne hread
      exact ⟨[], p, sock'.flatten, by simp, hfirst.short, by simpa [frames] using hfirst.stream,
        ⟨hfirst.header, by simpa using hfirst.body, trivial⟩, ⟨hfirst.info, hfirst.buffer, trivial⟩,
        .inr ⟨hp, hend⟩⟩

theorem serve_ok_iff (verify : Bytes → Int → Option Message) (os : Nat → StepOs) (hangup : Nat) :
    ∀ (fuel k : Nat) (sock : List Bytes), sock.flatten.length < fuel → (∀ c ∈ sock, c ≠ []) →
      ((∀ st ∈ serve verify os fuel k sock, StepOk hangup st) ↔ Survivable verify os hangup k sock) := by
  intro fuel
  induction fuel with
  | zero => intro k sock h; omega
  | succ fuel ih =>
    intro k sock hfuel hne
    rw [survivable_iff hne]
    simp only [serve, List.forall_mem_cons]
    obtain ⟨outcome, sock', hcase⟩ :
        ∃ outcome sock', sockMessageCase verify (os k) sock = (outcome, sock') := ⟨_, _, rfl⟩
    rw [hcase]
    cases outcome with
    | handled p =>
      have hfirst := firstFrame_of_read hne (sockMessageCase_handled.mp hcase).2.1
      have hlen : sock'.flatten.length < fuel := by
        rw [hfirst.stream, List.length_append, length_frame] at hfuel
        omega
      rw [ih (k + 1) sock' hlen hfirst.chunks]
      constructor
      · rintro ⟨_, hrest⟩
        exact .inl ⟨p, sock', rfl, hrest⟩
      · rintro (⟨q, _, heq, hrest⟩ | ⟨_, heq, _⟩ | ⟨_, _, heq⟩)
        · cases heq
          exact ⟨hfirst.stream, hrest⟩
        · cases heq
        · cases heq
    | ended p =>
      have hfirst := firstFrame_of_read hne (sockMessageCase_ended.mp hcase).2.1
      exact iff_of_true ⟨hfirst.stream, by simp⟩ (.inr (.inr ⟨p, sock', rfl⟩))
    | closed =>
      constructor
      · rintro ⟨hk, _⟩
        exact .inr (.inl ⟨sock', rfl, hk⟩)
      · rintro (⟨_, _, heq, _⟩ | ⟨_, _, hk⟩ | ⟨_, _, heq⟩)
        · cases heq
        · exact ⟨hk, by simp⟩
        · cases heq
    | crashed crash =>
      refine iff_of_false (fun h => h.1) ?_
      rintro (⟨_, _, heq, _⟩ | ⟨_, heq, _⟩ | ⟨_, _, heq⟩) <;> cases heq

end Steps

/-- A system in which every call succeeds. -/
def steadyOs : StepOs where
  malloc := mallocOk
  table := .init fun _ => ⟨none, 0, 0⟩
  launch := .clones (some 8) (9, 10) 42 1
  decodes := true
  builds := fun _ => true
  sigpipe := fun _ => false
  detectorArgs := fun _ => true
  spared := false
  isDaemon := fun pid => pid = 7

/-- A command without a path is a complete frame that ends the daemon. -/
example : (connection verifyEmpty (fun _ => steadyOs) [frame emptyRunCommand, frame []]).map (·.outcome) =
    [.crashed .nullDeref] := by
  decide

/-- The verifier on the message that kills process 42. -/
def verifyKill (b : Bytes) (n : Int) : Option Message :=
  if b = Python.killBytes ∧ n = b.length then some (.killProcess (some ⟨42⟩)) else none

end ProcCtrld
