import ProcCtrld.UserCodec
import ProcCtrld.RustDaemon

/-!
# ProcCtrld.ClientCodec

One client for both daemons: the Python decoders on the buffers of `serialize.cpp` and on those of
`serialisation.rs`, for the events that both daemons encode.

The enums cross the wire as numbers. Their declarations in the schema, in `data_structs.h` and in the
client agree but for one: the schema has `created` before `listeing`, the C header and the
client have LISTENING before CREATED. The C daemon casts its own numbers and the client reads them, so
they understand each other; the Rust daemon sends the numbers of the schema.

`decoded_alike_iff`: the client sees the same in the buffers of both daemons, and what happened,
exactly for the events other than a socket watch that ended with a listening or established socket.
-/

namespace ProcCtrld

open FlatBuffers

/-! ## The Python client -/

/-- The values that the decoders return, with the enums of the client. -/
inductive PyValue where
  | none
  | int (n : Int)
  | str (s : String)
  | event (e : DemonEvent)
  | execveInfo (pid : Int) (commandName : String) (success : Bool)
  | processTerminatedInfo (pid errorCode : Int)
  | inotifyPathUpdated (path : String) (event : InotifyEvent) (size sizeLimit : Int)
  | socketWatchInfo (port : Int) (state : CSocketState)
deriving DecidableEq, Repr

namespace Python

/-- `InotifyEvent(n)`; a number without a member raises a ValueError. -/
def inotifyEvent : Int → Option InotifyEvent
  | 0 => some .modified
  | 1 => some .created
  | 2 => some .sizeReached
  | 3 => some .deleted
  | 4 => some .accessed
  | _ => none

/-- `SocketState(n)`: SOCKET_UNKNOWN, SOCKET_LISTENING, SOCKET_CREATED. -/
def socketState : Int → Option CSocketState
  | 0 => some .unknown
  | 1 => some .listening
  | 2 => some .created
  | _ => none

section Receive

variable (getRootAsMessage : Bytes → Option Value) (buffer : Bytes) (size : Int)

/-- The common body of the `receive_*`. An exception, `none` here, gives `error`. -/
def receive (tag : EventType) (rejected error : PyValue) (decode : Value → Option PyValue) : PyValue :=
  if buffer = [] ∨ size ≤ 0 then rejected
  else
    match getRootAsMessage buffer with
    | none => error
    | some message =>
      if message.scalarAt 0 ≠ tag.number then rejected
      -- `message.Events().Bytes` raises when there is no union value
      else ((message.tableAt 1).bind decode).getD error

def receiveExecveterminated : PyValue :=
  receive getRootAsMessage buffer size .execveTerminated .none .none fun t => do
    let commandName ← t.stringAt 1
    return .execveInfo (t.scalarAt 0) commandName (t.scalarAt 2 != 0)

def receiveProcesslaunched : PyValue :=
  receive getRootAsMessage buffer size .processLaunched (.int (-1)) (.int (-1)) fun t =>
    some (.int (t.scalarAt 0))

def receiveChildcreationerror : PyValue :=
  receive getRootAsMessage buffer size .childCreationError (.int (-1)) (.int (-1)) fun t =>
    some (.int (t.scalarAt 0))

/-- An exception is answered with -1 here and not with `None`. -/
def receiveProcessterminated : PyValue :=
  receive getRootAsMessage buffer size .processTerminated .none (.int (-1)) fun t =>
    some (.processTerminatedInfo (t.scalarAt 0) (t.scalarAt 1))

def receiveTCPSocketListening : PyValue :=
  receive getRootAsMessage buffer size .tcpSocketListening (.int (-1)) (.int (-1)) fun t =>
    some (.int (t.scalarAt 0))

def receiveInotifypathupdated : PyValue :=
  receive getRootAsMessage buffer size .inotifyPathUpdated .none .none fun t => do
    let path ← t.stringAt 0
    let event ← inotifyEvent (t.scalarAt 1)
    return .inotifyPathUpdated path event (t.scalarAt 2) (t.scalarAt 3)

def receiveInotifywatchlistupdated : PyValue :=
  receive getRootAsMessage buffer size .inotifyWatchListUpdated .none .none fun t => do
    let path ← t.stringAt 0
    return .str path

def receiveSocketwatched : PyValue :=
  receive getRootAsMessage buffer size .socketWatched (.int (-1)) (.int (-1)) fun t =>
    some (.int (t.scalarAt 0))

def receiveSocketwatchterminated : PyValue :=
  receive getRootAsMessage buffer size .socketWatchTerminated .none .none fun t => do
    let state ← socketState (t.scalarAt 1)
    return .socketWatchInfo (t.scalarAt 0) state

/-- `event_map`. -/
def eventMap : Option EventType → DemonEvent
  | some .processLaunched => .processLaunched
  | some .childCreationError => .childCreationError
  | some .processTerminated => .processTerminated
  | some .tcpSocketListening => .tcpSocketListening
  | some .inotifyPathUpdated => .inotifyPathUpdated
  | some .inotifyWatchListUpdated => .inotifyWatchListUpdated
  | some .socketWatched => .socketWatched
  | some .socketWatchTerminated => .socketWatchTerminated
  | some .execveTerminated => .execveTerminated
  | _ => .none

def receiveMessageFromDemon : PyValue :=
  if buffer = [] ∨ size ≤ 0 then .event .none
  else
    match getRootAsMessage buffer with
    | none => .int (-1)
    | some message => .event (eventMap (EventType.ofNumber (message.scalarAt 0)))

end Receive

/-- All that the client can see of a buffer. -/
structure Seen where
  kind : PyValue
  execveterminated : PyValue
  processlaunched : PyValue
  childcreationerror : PyValue
  processterminated : PyValue
  tcpSocketListening : PyValue
  inotifypathupdated : PyValue
  inotifywatchlistupdated : PyValue
  socketwatched : PyValue
  socketwatchterminated : PyValue
deriving DecidableEq, Repr

def see (getRootAsMessage : Bytes → Option Value) (info : BufferInfo) : Seen where
  kind := receiveMessageFromDemon getRootAsMessage info.buffer info.size
  execveterminated := receiveExecveterminated getRootAsMessage info.buffer info.size
  processlaunched := receiveProcesslaunched getRootAsMessage info.buffer info.size
  childcreationerror := receiveChildcreationerror getRootAsMessage info.buffer info.size
  processterminated := receiveProcessterminated getRootAsMessage info.buffer info.size
  tcpSocketListening := receiveTCPSocketListening getRootAsMessage info.buffer info.size
  inotifypathupdated := receiveInotifypathupdated getRootAsMessage info.buffer info.size
  inotifywatchlistupdated := receiveInotifywatchlistupdated getRootAsMessage info.buffer info.size
  socketwatched := receiveSocketwatched getRootAsMessage info.buffer info.size
  socketwatchterminated := receiveSocketwatchterminated getRootAsMessage info.buffer info.size

/-- Only the kind is recognised. -/
def rejects (kind : DemonEvent) : Seen where
  kind := .event kind
  execveterminated := .none
  processlaunched := .int (-1)
  childcreationerror := .int (-1)
  processterminated := .none
  tcpSocketListening := .int (-1)
  inotifypathupdated := .none
  inotifywatchlistupdated := .none
  socketwatched := .int (-1)
  socketwatchterminated := .none

/-- The right view of a message: its kind, and its fields under the names of the C daemon. -/
def rightView : ToUser → Seen
  | .execveTerminated info => { rejects .execveTerminated with
      execveterminated := .execveInfo info.pid info.commandName info.success }
  | .processLaunched pid => { rejects .processLaunched with processlaunched := .int pid }
  | .childCreationError errorCode => { rejects .childCreationError with
      childcreationerror := .int errorCode }
  | .processTerminated pid errorCode => { rejects .processTerminated with
      processterminated := .processTerminatedInfo pid errorCode }
  | .tcpSocketListening port => { rejects .tcpSocketListening with tcpSocketListening := .int port }
  | .inotifyPathUpdated path event size sizeLimit => { rejects .inotifyPathUpdated with
      inotifypathupdated := .inotifyPathUpdated path event size sizeLimit }
  | .inotifyWatchListUpdated path => { rejects .inotifyWatchListUpdated with
      inotifywatchlistupdated := .str path }
  | .socketWatched port => { rejects .socketWatched with socketwatched := .int port }
  | .socketWatchTerminated port state => { rejects .socketWatchTerminated with
      socketwatchterminated := .socketWatchInfo port state }

end Python

/-! ## The Rust encoders -/

def SocketState.number : SocketState → Int
  | .unknown => 0
  | .created => 1
  | .listeing => 2

namespace Rust

def serializeExecveTerminated (pid : Int) (commandName : String) (success : Bool) : Build Offset := do
  let commandNameStr ← createString commandName
  let execve ← createExecveTerminated pid commandNameStr success
  createMessage .execveTerminated execve

def serializeTcpSocketListenning (port : Nat) : Build Offset := do
  createMessage .tcpSocketListening (← createTCPSocketListening port)

def serializeProcessLaunched (pid : Int) : Build Offset := do
  createMessage .processLaunched (← createProcessLaunched pid)

def serializeChildCreationError (errorCode : Nat) : Build Offset := do
  createMessage .childCreationError (← createChildCreationError errorCode)

def serializeProcessTerminated (pid : Int) (errorCode : Nat) : Build Offset := do
  createMessage .processTerminated (← createProcessTerminated pid errorCode)

def serializeInotifyPathUpdate (path : String) (trigger : InotifyEvent) (size sizeLimit : Nat) :
    Build Offset := do
  let pathOffset ← createString path
  let inotifyUpdate ← createInotifyPathUpdated pathOffset trigger.number size sizeLimit
  createMessage .inotifyPathUpdated inotifyUpdate

def serializeSocketWatched (port : Int) : Build Offset := do
  createMessage .socketWatched (← createSocketWatched port)

def serializeSocketWatchTerminated (port : Int) (state : SocketState) : Build Offset := do
  createMessage .socketWatchTerminated (← createSocketWatchTerminated port state.number)

end Rust

/-! ## The events -/

/-- What happened, for the events that both daemons encode. -/
inductive DaemonEvent where
  | processLaunched (pid : Int)
  | childCreationError (errorCode : Nat)
  | processTerminated (pid : Int) (errorCode : Nat)
  | execveTerminated (pid : Int) (commandName : String) (success : Bool)
  | tcpSocketListening (port : Nat)
  | inotifyPathUpdated (path : String) (trigger : InotifyEvent) (size sizeLimit : Nat)
  | socketWatched (port : Int)
  | socketWatchTerminated (port : Int) (state : Rust.TcpState)
deriving DecidableEq, Repr

namespace DaemonEvent

/-- How the C daemon calls the state of a socket. -/
def cState : Rust.TcpState → CSocketState
  | .listen => SocketWatch.socketState SocketWatch.tcpListen
  | .established => SocketWatch.socketState SocketWatch.tcpEstablished
  | .other => .unknown

/-- The message of the C daemon. -/
def toUser : DaemonEvent → ToUser
  | processLaunched pid => .processLaunched pid
  | childCreationError errorCode => .childCreationError errorCode
  | processTerminated pid errorCode => .processTerminated pid errorCode
  | execveTerminated pid commandName success => .execveTerminated ⟨pid, commandName, success⟩
  | tcpSocketListening port => .tcpSocketListening port
  | inotifyPathUpdated path trigger size sizeLimit => .inotifyPathUpdated path trigger size sizeLimit
  | socketWatched port => .socketWatched port
  | socketWatchTerminated port state => .socketWatchTerminated port (cState state)

/-- The call of the Rust daemon. -/
def serialize : DaemonEvent → Build Offset
  | processLaunched pid => Rust.serializeProcessLaunched pid
  | childCreationError errorCode => Rust.serializeChildCreationError errorCode
  | processTerminated pid errorCode => Rust.serializeProcessTerminated pid errorCode
  | execveTerminated pid commandName success => Rust.serializeExecveTerminated pid commandName success
  | tcpSocketListening port => Rust.serializeTcpSocketListenning port
  | inotifyPathUpdated path trigger size sizeLimit =>
    Rust.serializeInotifyPathUpdate path trigger size sizeLimit
  | socketWatched port => Rust.serializeSocketWatched port
  | socketWatchTerminated port state => Rust.serializeSocketWatchTerminated port state.toSend

end DaemonEvent

/-- The client sees the same in the buffers of both daemons, and it sees what happened. -/
def DecodedAlike (getRootAsMessage : Bytes → Option Value) (cBytes rustBytes : Value → Bytes)
    (e : DaemonEvent) : Prop :=
  ∃ c r, e.toUser.send cBytes = some c ∧ finish rustBytes e.serialize = some r ∧
    Python.see getRootAsMessage r = Python.see getRootAsMessage c ∧
    Python.see getRootAsMessage c = Python.rightView e.toUser

/-! ## What the client sees -/

namespace Python

variable {getRootAsMessage : Bytes → Option Value} {buffer : Bytes} {size : Int} {t : EventType}
  {fields : List (Option Value)} {m : ToUser}

@[simp] theorem inotifyEvent_number (e : InotifyEvent) : inotifyEvent e.number = some e := by
  cases e <;> rfl

@[simp] theorem socketState_number (s : CSocketState) : socketState s.number = some s := by
  cases s <;> rfl

theorem not_refused (hbuffer : buffer ≠ []) (hsize : 0 < size) : ¬ (buffer = [] ∨ size ≤ 0) := by
  rintro (hb | hs)
  · exact hbuffer hb
  · omega

/-- A `receive_*` of the client decodes the messages with its own tag and rejects the others. -/
theorem receive_eq (hbuffer : buffer ≠ []) (hsize : 0 < size)
    (h : getRootAsMessage buffer = some (messageValue t (.table fields))) (tag : EventType)
    (rejected error : PyValue) (decode : Value → Option PyValue) :
    receive getRootAsMessage buffer size tag rejected error decode =
      if t = tag then (decode (.table fields)).getD error else rejected := by
  simp only [receive, if_neg (not_refused hbuffer hsize), h, messageValue_eventsType]
  by_cases ht : t = tag
  · subst ht
    rw [if_neg (not_not.mpr rfl), if_pos rfl]
    rfl
  · have hne : (t.number : Int) ≠ tag.number := fun heq =>
      ht (EventType.number_injective (Int.ofNat.inj heq))
    rw [if_pos hne, if_neg ht]

theorem receiveMessageFromDemon_value (hbuffer : buffer ≠ []) (hsize : 0 < size)
    (h : getRootAsMessage buffer = some m.value) :
    receiveMessageFromDemon getRootAsMessage buffer size = .event m.kind := by
  rw [receiveMessageFromDemon, if_neg (not_refused hbuffer hsize), h]
  simp only [ToUser.value, messageValue_eventsType, EventType.ofNumber_number]
  cases m <;> rfl

/-- The client has the right view of every message whose numbers are those of the C daemon. -/
theorem see_value {info : BufferInfo} (hbuffer : info.buffer ≠ []) (hsize : 0 < info.size)
    (h : getRootAsMessage info.buffer = some m.value) : see getRootAsMessage info = rightView m := by
  have hkind := receiveMessageFromDemon_value hbuffer hsize h
  have hreceive := receive_eq hbuffer hsize h
  simp only [see, hkind, receiveExecveterminated, receiveProcesslaunched, receiveChildcreationerror,
    receiveProcessterminated, receiveTCPSocketListening, receiveInotifypathupdated,
    receiveInotifywatchlistupdated, receiveSocketwatched, receiveSocketwatchterminated, hreceive]
  cases m <;> simp [rightView, rejects, ToUser.kind, ToUser.tag, ToUser.fields]

end Python

/-! ## What the Rust daemon stores -/

namespace DaemonEvent

variable {e : DaemonEvent}

/-- The message of the C daemon that is stored as the Rust daemon stores the event: where the states
of a socket have other numbers, another one. -/
def rustMessage : DaemonEvent → ToUser
  | socketWatchTerminated port .listen => .socketWatchTerminated port .created
  | socketWatchTerminated port .established => .socketWatchTerminated port .listening
  | e => e.toUser

theorem rustMessage_inRange (he : e.toUser.InRange) : e.rustMessage.InRange := by
  cases e with
  | socketWatchTerminated port state => cases state <;> exact he
  | _ => exact he

theorem serialize_builds (he : e.toUser.InRange) :
    Builds e.serialize [] fun o objs => Stored objs o e.rustMessage.value := by
  have hcalls := ToUser.calls_builds (rustMessage_inRange he)
  cases e with
  | execveTerminated pid commandName success =>
    change Builds (sendExecveterminatedToUser ⟨pid, commandName, success⟩) [] _ at hcalls
    rw [sendExecveterminatedToUser, cStr_of_nulFree he.2] at hcalls
    exact hcalls
  | inotifyPathUpdated path trigger size sizeLimit =>
    change Builds (sendInotifypathupdatedToUser ⟨path, trigger.number, size, sizeLimit⟩) [] _ at hcalls
    rw [sendInotifypathupdatedToUser, cStr_of_nulFree he.1] at hcalls
    exact hcalls
  | socketWatchTerminated port state => cases state <;> exact hcalls
  | _ => exact hcalls

end DaemonEvent

section Alike

variable {getRootAsMessage : Bytes → Option Value} {cBytes rustBytes : Value → Bytes} {e : DaemonEvent}

theorem Python.see_message {m : ToUser} {b : Bytes} (hb : b ≠ []) (h : getRootAsMessage b = some m.value) :
    Python.see getRootAsMessage ⟨b, b.length⟩ = Python.rightView m :=
  Python.see_value hb (size_pos hb) h

theorem decodedAlike_iff_view (he : e.toUser.InRange)
    (hc : Faithful verifyMessage cBytes getRootAsMessage e.toUser.calls)
    (hr : Faithful verifyMessage rustBytes getRootAsMessage e.serialize) :
    DecodedAlike getRootAsMessage cBytes rustBytes e ↔
      Python.rightView e.rustMessage = Python.rightView e.toUser := by
  obtain ⟨c, hsend, hc, hreadc⟩ := finish_of_faithful hc (ToUser.calls_builds he)
    (verifyMessage_messageValue (ToUser.verify_fields he))
  obtain ⟨r, hserialize, hr, hreadr⟩ := finish_of_faithful hr (DaemonEvent.serialize_builds he)
    (verifyMessage_messageValue (ToUser.verify_fields (DaemonEvent.rustMessage_inRange he)))
  have hseec := Python.see_message hc hreadc
  have hseer := Python.see_message hr hreadr
  constructor
  · rintro ⟨c', r', hc', hr', halike, -⟩
    rw [ToUser.send, hsend] at hc'
    rw [hserialize] at hr'
    cases hc'
    cases hr'
    rw [← hseer, ← hseec]
    exact halike
  · intro h
    exact ⟨_, _, hsend, hserialize, by rw [hseer, hseec, h], hseec⟩

/-- The client is told the same by both daemons, and rightly, of all events but a socket that a watch
has found. -/
theorem decoded_alike_iff (he : e.toUser.InRange)
    (hc : Faithful verifyMessage cBytes getRootAsMessage e.toUser.calls)
    (hr : Faithful verifyMessage rustBytes getRootAsMessage e.serialize) :
    DecodedAlike getRootAsMessage cBytes rustBytes e ↔
      ∀ port, e ≠ .socketWatchTerminated port .listen ∧ e ≠ .socketWatchTerminated port .established := by
  rw [decodedAlike_iff_view he hc hr]
  cases e with
  | socketWatchTerminated port state =>
    cases state with
    | listen => simp [DaemonEvent.rustMessage, DaemonEvent.toUser, DaemonEvent.cState, Python.rightView,
        SocketWatch.socketState, SocketWatch.tcpListen, SocketWatch.tcpEstablished]
    | established => simp [DaemonEvent.rustMessage, DaemonEvent.toUser, DaemonEvent.cState,
        Python.rightView, SocketWatch.socketState, SocketWatch.tcpEstablished]
    | other => exact iff_of_true rfl (by simp)
  | _ => exact iff_of_true rfl (by simp)

end Alike

/-- The buffers of a watch that found port 80 listening: the C daemon sends state 1, the Rust daemon
state 2. -/
def watchedBytes (state : UInt8) : Bytes :=
  [12, 0, 0, 0, 8, 0, 12, 0, 7, 0, 8, 0, 8, 0, 0, 0, 0, 0, 0, 13, 12, 0, 0, 0, 8, 0, 12, 0, 8, 0,
   7, 0, 8, 0, 0, 0, 0, 0, 0, state, 80, 0, 0, 0]

def readWatched (b : Bytes) : Option Value :=
  if b = watchedBytes 1 then some (ToUser.value (.socketWatchTerminated 80 .listening))
  else if b = watchedBytes 2 then some (ToUser.value (.socketWatchTerminated 80 .created))
  else none

/-- A listening socket found by the Rust daemon is an established one for the client. -/
theorem listening_seen_as_created :
    Faithful verifyMessage (fun _ => watchedBytes 1) readWatched
        (DaemonEvent.socketWatchTerminated 80 .listen).toUser.calls ∧
      Faithful verifyMessage (fun _ => watchedBytes 2) readWatched
        (DaemonEvent.socketWatchTerminated 80 .listen).serialize ∧
      (Python.see readWatched ⟨watchedBytes 1, 44⟩).socketwatchterminated =
        .socketWatchInfo 80 .listening ∧
      (Python.see readWatched ⟨watchedBytes 2, 44⟩).socketwatchterminated =
        .socketWatchInfo 80 .created ∧
      ¬ DecodedAlike readWatched (fun _ => watchedBytes 1) (fun _ => watchedBytes 2)
        (.socketWatchTerminated 80 .listen) := by
  have he : (DaemonEvent.socketWatchTerminated 80 .listen).toUser.InRange := rfl
  have hc : Faithful verifyMessage (fun _ => watchedBytes 1) readWatched
      (DaemonEvent.socketWatchTerminated 80 .listen).toUser.calls :=
    faithful_of_builds (ToUser.calls_builds he) (by simp [watchedBytes]) (if_pos rfl)
  have hr : Faithful verifyMessage (fun _ => watchedBytes 2) readWatched
      (DaemonEvent.socketWatchTerminated 80 .listen).serialize :=
    faithful_of_builds (DaemonEvent.serialize_builds he) (by simp [watchedBytes])
      (by rw [readWatched, if_neg (by simp [watchedBytes]), if_pos rfl]; rfl)
  refine ⟨hc, hr, rfl, rfl, fun h => ?_⟩
  have hview := (decodedAlike_iff_view he hc hr).mp h
  cases hview

/-- The buffer of `ProcessLaunched(42)`, of either daemon. -/
def launchedBytes : Bytes :=
  [12, 0, 0, 0, 8, 0, 14, 0, 7, 0, 8, 0, 8, 0, 0, 0, 0, 0, 0, 6, 12, 0, 0, 0, 0, 0, 6, 0, 8, 0,
   4, 0, 6, 0, 0, 0, 42, 0, 0, 0]

def readLaunched (b : Bytes) : Option Value :=
  if b = launchedBytes then some (ToUser.value (.processLaunched 42)) else none

theorem launched_decoded_alike :
    DecodedAlike readLaunched (fun _ => launchedBytes) (fun _ => launchedBytes) (.processLaunched 42) := by
  have he : (DaemonEvent.processLaunched 42).toUser.InRange := rfl
  exact (decoded_alike_iff he
    (faithful_of_builds (ToUser.calls_builds he) (by simp [launchedBytes]) (if_pos rfl))
    (faithful_of_builds (DaemonEvent.serialize_builds he) (by simp [launchedBytes]) (if_pos rfl))).mpr
    (by simp)

end ProcCtrld
