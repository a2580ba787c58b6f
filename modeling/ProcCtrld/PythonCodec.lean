import ProcCtrld.ClientCodec

/-!
# ProcCtrld.PythonCodec

The encoders and decoders of `tests_python/serialization.py` against each other, for the ten kinds of
messages that have both.

Three of the twenty functions always end in an exception that they turn into `None`: `receive_command`
calls `ArgsAsNumpy`, which the generated class does not have, and `send_inotifypathupdated_to_user` and
`send_socketwatchterminated_to_user` call attributes of the package `demon`, which has nothing but
modules in it. `round_trips_iff`: the other seven kinds, and only these, come back as they were
encoded.
-/

namespace ProcCtrld.Python

open FlatBuffers

/-! ## The encoders -/

/-- An encoder without strings: its table, then the message. -/
def buildMessage (eventsType : EventType) (n : Nat) (adds : List Add) : Build Offset := do
  let events ← createTable n adds
  createTable 2 [.scalar 0 .uint8 eventsType.number, .offset 1 events]

/-- `demon.name(args)`. The attributes of the package are the modules that have been imported, which
cannot be called; any other name is an AttributeError. -/
def callDemon {α β : Type} (_args : β) : Build α := failure

def sendKillToDemon (pid : Int) : Build Offset := buildMessage .killProcess 1 [.scalar 0 .int32 pid]

def sendProcesslaunchedToUser (pid : Int) : Build Offset :=
  buildMessage .processLaunched 1 [.scalar 0 .int32 pid]

def sendChildcreationerrorToUser (errorCode : Int) : Build Offset :=
  buildMessage .childCreationError 1 [.scalar 0 .uint32 errorCode]

def sendProcessterminatedToUser (pid errorCode : Int) : Build Offset :=
  buildMessage .processTerminated 2 [.scalar 0 .int32 pid, .scalar 1 .uint32 errorCode]

def sendTcpsocketlisteningToUser (port : Int) : Build Offset :=
  buildMessage .tcpSocketListening 1 [.scalar 0 .uint16 port]

def sendInotifypathupdatedToUser (path : String) (event : InotifyEvent) (size sizeLimit : Int) :
    Build Offset := do
  let pathStr ← createString path
  -- `demon.InotifyEvent(inotify.event)`
  let triggerEvents ← callDemon event
  buildMessage .inotifyPathUpdated 4 [.offset 0 pathStr, .scalar 1 .int8 triggerEvents,
    .scalar 2 .uint32 size, .scalar 3 .uint32 sizeLimit]

def sendInotifywatchlistupdatedToUser (path : String) : Build Offset := do
  let pathStr ← createString path
  buildMessage .inotifyWatchListUpdated 1 [.offset 0 pathStr]

def sendSocketwatchedToUser (port : Int) : Build Offset :=
  buildMessage .socketWatched 1 [.scalar 0 .int32 port]

def sendSocketwatchterminatedToUser (port : Int) (state : CSocketState) : Build Offset := do
  -- `demon.CreateSocketWatchTerminated(builder, socket_info.port, demon.SocketState(..))`
  let socketState : Int ← callDemon state.number
  let socketWatchTerminated ← callDemon (port, socketState)
  createTable 2 [.scalar 0 .uint8 EventType.socketWatchTerminated.number,
    .offset 1 socketWatchTerminated]

/-! ## The decoders of requests -/

/-- The `event` of a `Surveillance`: a member of `SurveillanceEventType`, or a string. -/
inductive Tag where
  | inotify
  | watchSocket
  | str (s : String)
deriving DecidableEq, Repr

inductive PtrEvent where
  | inotifyParameters (rootPaths : String) (mask size : Int)
  | tcpSocket (destport : Int)
deriving DecidableEq, Repr

/-- The dataclass `Surveillance`. -/
structure SurveillanceObject where
  event : Tag
  ptrEvent : PtrEvent
deriving DecidableEq, Repr

/-- The dataclass `Command`. -/
structure CommandObject where
  path : String
  args : List String
  envp : List String
  flags : Int
  stackSize : Int
  toWatch : List SurveillanceObject
deriving DecidableEq, Repr

/-- An attribute that the object does not have. -/
def attributeError {α : Type} : Option α := none

/-- A method that is called without an argument it needs. -/
def typeError {α : Type} : Option α := none

/-- The body of the loop over `surveillances`. `Event()` returns a bare `Table`, without the
accessors that are called on it. -/
def receiveSurveillance (surveillanceEvent : Value) : Option (List SurveillanceObject) :=
  if surveillanceEvent.scalarAt 0 = surveillanceInotify then do
    let rootPaths ← attributeError
    let mask ← attributeError
    let size ← attributeError
    return [⟨.str "INOTIFY", .inotifyParameters rootPaths mask size⟩]
  else if surveillanceEvent.scalarAt 0 = surveillanceTCPSocket then do
    let destport ← attributeError
    return [⟨.str "WATCH_SOCKET", .tcpSocket destport⟩]
  else return []

/-- `receive_command` from the table on. The generated class has `Args(j)`, `ArgsLength` and
`ArgsIsNone` but no `ArgsAsNumpy`, and its `ToWatch` needs an index. -/
def decodeCommand (runCommand : Value) : Option CommandObject := do
  let path ← runCommand.stringAt 0
  let args ← attributeError
  let envp ← attributeError
  let surveillances : List Value ← typeError
  let toWatch ← surveillances.mapM receiveSurveillance
  return ⟨path, args, envp, runCommand.scalarAt 3, runCommand.scalarAt 4, toWatch.flatten⟩

section Receive

variable (getRootAsMessage : Bytes → Option Value) (buffer : Bytes) (size : Int)

def receiveCommand : Option CommandObject :=
  if buffer = [] ∨ size ≤ 0 then none
  else
    match getRootAsMessage buffer with
    | none => none
    | some message =>
      if message.scalarAt 0 ≠ EventType.runCommand.number then none
      else (message.tableAt 1).bind decodeCommand

def receiveKill : PyValue :=
  receive getRootAsMessage buffer size .killProcess (.int (-1)) (.int (-1)) fun t =>
    some (.int (t.scalarAt 0))

end Receive

/-! ## The messages -/

/-- What is given to an encoder that has a decoder. -/
inductive Encoded where
  | runCommand (cmd : Command)
  | killProcess (pid : Int)
  | processLaunched (pid : Int)
  | childCreationError (errorCode : Int)
  | processTerminated (pid errorCode : Int)
  | tcpSocketListening (port : Int)
  | inotifyPathUpdated (path : String) (event : InotifyEvent) (size sizeLimit : Int)
  | inotifyWatchListUpdated (path : String)
  | socketWatched (port : Int)
  | socketWatchTerminated (port : Int) (state : CSocketState)
deriving DecidableEq, Repr

/-- What a decoder returns. -/
inductive Returns where
  | value (v : PyValue)
  | command (cmd : Option CommandObject)
deriving DecidableEq, Repr

/-- The object that a `Surveillance` of the model stands for. -/
def surveillanceObject : Surveillance → SurveillanceObject
  | .inotify rootPaths mask size => ⟨.inotify, .inotifyParameters rootPaths mask size⟩
  | .watchSocket destport => ⟨.watchSocket, .tcpSocket destport⟩

def commandObject (cmd : Command) : CommandObject where
  path := cmd.path
  args := cmd.args
  envp := cmd.envp
  flags := cmd.flags
  stackSize := cmd.stackSize
  toWatch := cmd.toWatch.reduceOption.map surveillanceObject

def surveillanceInRange : Surveillance → Prop
  | .inotify _ mask size => ScalarType.int32.fits mask = true ∧ ScalarType.uint32.fits size = true
  | .watchSocket destport => ScalarType.uint32.fits destport = true

namespace Encoded

/-- The fields are in the ranges of the schema. -/
def InRange : Encoded → Prop
  | runCommand cmd => ScalarType.uint32.fits cmd.flags = true ∧ ScalarType.uint32.fits cmd.stackSize = true ∧
      ∀ e ∈ cmd.toWatch, ∃ w, e = some w ∧ surveillanceInRange w
  | killProcess pid | processLaunched pid => ScalarType.int32.fits pid = true
  | childCreationError errorCode => ScalarType.uint32.fits errorCode = true
  | processTerminated pid errorCode =>
    ScalarType.int32.fits pid = true ∧ ScalarType.uint32.fits errorCode = true
  | tcpSocketListening port => ScalarType.uint16.fits port = true
  | inotifyPathUpdated _ _ size sizeLimit =>
    ScalarType.uint32.fits size = true ∧ ScalarType.uint32.fits sizeLimit = true
  | inotifyWatchListUpdated _ => True
  | socketWatched port | socketWatchTerminated port _ => ScalarType.int32.fits port = true

/-- The builder calls of the encoder. -/
def calls : Encoded → Build Offset
  | runCommand cmd => buildCommand cmd
  | killProcess pid => sendKillToDemon pid
  | processLaunched pid => sendProcesslaunchedToUser pid
  | childCreationError errorCode => sendChildcreationerrorToUser errorCode
  | processTerminated pid errorCode => sendProcessterminatedToUser pid errorCode
  | tcpSocketListening port => sendTcpsocketlisteningToUser port
  | inotifyPathUpdated path event size sizeLimit => sendInotifypathupdatedToUser path event size sizeLimit
  | inotifyWatchListUpdated path => sendInotifywatchlistupdatedToUser path
  | socketWatched port => sendSocketwatchedToUser port
  | socketWatchTerminated port state => sendSocketwatchterminatedToUser port state

/-- The decoder of the kind. -/
def decode (getRootAsMessage : Bytes → Option Value) (info : BufferInfo) : Encoded → Returns
  | runCommand _ => .command (receiveCommand getRootAsMessage info.buffer info.size)
  | killProcess _ => .value (receiveKill getRootAsMessage info.buffer info.size)
  | processLaunched _ => .value (receiveProcesslaunched getRootAsMessage info.buffer info.size)
  | childCreationError _ => .value (receiveChildcreationerror getRootAsMessage info.buffer info.size)
  | processTerminated _ _ => .value (receiveProcessterminated getRootAsMessage info.buffer info.size)
  | tcpSocketListening _ => .value (receiveTCPSocketListening getRootAsMessage info.buffer info.size)
  | inotifyPathUpdated .. => .value (receiveInotifypathupdated getRootAsMessage info.buffer info.size)
  | inotifyWatchListUpdated _ =>
    .value (receiveInotifywatchlistupdated getRootAsMessage info.buffer info.size)
  | socketWatched _ => .value (receiveSocketwatched getRootAsMessage info.buffer info.size)
  | socketWatchTerminated _ _ =>
    .value (receiveSocketwatchterminated getRootAsMessage info.buffer info.size)

/-- The value that was encoded. -/
def original : Encoded → Returns
  | runCommand cmd => .command (some (commandObject cmd))
  | killProcess pid | processLaunched pid => .value (.int pid)
  | childCreationError errorCode => .value (.int errorCode)
  | processTerminated pid errorCode => .value (.processTerminatedInfo pid errorCode)
  | tcpSocketListening port | socketWatched port => .value (.int port)
  | inotifyPathUpdated path event size sizeLimit => .value (.inotifyPathUpdated path event size sizeLimit)
  | inotifyWatchListUpdated path => .value (.str path)
  | socketWatchTerminated port state => .value (.socketWatchInfo port state)

/-- The three kinds with a function that always fails. -/
def broken : Encoded → Bool
  | runCommand _ | inotifyPathUpdated .. | socketWatchTerminated _ _ => true
  | _ => false

/-- The tag of the message. -/
def tag : Encoded → EventType
  | runCommand _ => .runCommand
  | killProcess _ => .killProcess
  | processLaunched _ => .processLaunched
  | childCreationError _ => .childCreationError
  | processTerminated _ _ => .processTerminated
  | tcpSocketListening _ => .tcpSocketListening
  | inotifyPathUpdated .. => .inotifyPathUpdated
  | inotifyWatchListUpdated _ => .inotifyWatchListUpdated
  | socketWatched _ => .socketWatched
  | socketWatchTerminated _ _ => .socketWatchTerminated

/-- What the encoders that do not fail store in the table. -/
def fields : Encoded → List (Option Value)
  | killProcess pid | processLaunched pid => [scalarField .int32 pid]
  | childCreationError errorCode => [scalarField .uint32 errorCode]
  | processTerminated pid errorCode => [scalarField .int32 pid, scalarField .uint32 errorCode]
  | tcpSocketListening port => [scalarField .uint16 port]
  | inotifyWatchListUpdated path => [some (.string path)]
  | socketWatched port => [scalarField .int32 port]
  | _ => []

end Encoded

/-- The encoder returns a buffer, and the decoder returns the encoded value for it. -/
def RoundTrips (getRootAsMessage : Bytes → Option Value) (bytes : Value → Bytes) (m : Encoded) : Prop :=
  ∃ info, finish bytes m.calls = some info ∧ m.decode getRootAsMessage info = m.original

/-! ## The kinds that come back -/

section RoundTrip

variable {getRootAsMessage : Bytes → Option Value} {bytes : Value → Bytes} {m : Encoded}

theorem buildMessage_builds {objs : List Value} {adds : List Add} {contents : List (Nat × Option Value)}
    (h : List.Forall₂ (Holds objs) adds contents) (t : EventType) (n : Nat) :
    Builds (buildMessage t n adds) objs fun o objs' => Stored objs' o
      (messageValue t (.table (contents.foldl setField (List.replicate n none)))) := by
  refine (createTable_builds h n).bind ?_
  intro e objs₁ _ he
  exact createTable_builds (.cons (.scalar t.number_fits) (.cons (.offset he) .nil)) 2

theorem Encoded.calls_builds (hm : m.InRange) (hb : m.broken = false) :
    Builds m.calls [] fun o objs => Stored objs o (messageValue m.tag (.table m.fields)) := by
  cases m with
  | processTerminated pid errorCode =>
    exact buildMessage_builds (.cons (.scalar hm.1) (.cons (.scalar hm.2) .nil)) _ 2
  | inotifyWatchListUpdated path =>
    refine (createString_builds [] path).bind ?_
    intro o objs _ ho
    exact buildMessage_builds (.cons (.offset ho) .nil) _ 1
  | killProcess pid => exact buildMessage_builds (.cons (.scalar hm) .nil) _ 1
  | processLaunched pid => exact buildMessage_builds (.cons (.scalar hm) .nil) _ 1
  | childCreationError errorCode => exact buildMessage_builds (.cons (.scalar hm) .nil) _ 1
  | tcpSocketListening port => exact buildMessage_builds (.cons (.scalar hm) .nil) _ 1
  | socketWatched port => exact buildMessage_builds (.cons (.scalar hm) .nil) _ 1
  | runCommand cmd => cases hb
  | inotifyPathUpdated path event size sizeLimit => cases hb
  | socketWatchTerminated port state => cases hb

theorem Encoded.verify_fields (hm : m.InRange) (hb : m.broken = false) :
    m.tag.verify (.table m.fields) = true := by
  cases m with
  | processTerminated pid errorCode =>
    simp only [tag, EventType.verify, Bool.and_eq_true]
    exact ⟨Value.verifyScalar_of_field (i := 0) rfl hm.1, Value.verifyScalar_of_field (i := 1) rfl hm.2⟩
  | inotifyWatchListUpdated path => rfl
  | killProcess pid => exact Value.verifyScalar_of_field (i := 0) rfl hm
  | processLaunched pid => exact Value.verifyScalar_of_field (i := 0) rfl hm
  | childCreationError errorCode => exact Value.verifyScalar_of_field (i := 0) rfl hm
  | tcpSocketListening port => exact Value.verifyScalar_of_field (i := 0) rfl hm
  | socketWatched port => exact Value.verifyScalar_of_field (i := 0) rfl hm
  | runCommand cmd => cases hb
  | inotifyPathUpdated path event size sizeLimit => cases hb
  | socketWatchTerminated port state => cases hb

theorem Encoded.decode_eq {info : BufferInfo} (hb : m.broken = false) (hbuffer : info.buffer ≠ [])
    (hsize : 0 < info.size)
    (h : getRootAsMessage info.buffer = some (messageValue m.tag (.table m.fields))) :
    m.decode getRootAsMessage info = m.original := by
  have hreceive := receive_eq hbuffer hsize h
  cases m with
  | runCommand cmd => cases hb
  | inotifyPathUpdated path event size sizeLimit => cases hb
  | socketWatchTerminated port state => cases hb
  | _ =>
    simp only [decode, original, receiveKill, receiveProcesslaunched, receiveChildcreationerror,
      receiveProcessterminated, receiveTCPSocketListening, receiveInotifywatchlistupdated,
      receiveSocketwatched, hreceive, tag, fields, if_true]
    simp

theorem receiveCommand_eq_none (getRootAsMessage : Bytes → Option Value) (buffer : Bytes) (size : Int) :
    receiveCommand getRootAsMessage buffer size = none := by
  have hdecode : ∀ t, decodeCommand t = none := by
    intro t
    unfold decodeCommand attributeError
    cases t.stringAt 0 <;> rfl
  unfold receiveCommand
  split
  · rfl
  · split
    · rfl
    · split
      · rfl
      · rw [Option.bind_eq_none_iff]
        exact fun t _ => hdecode t

theorem finish_eq_none {calls : Build Offset} (h : calls [] = none) : finish bytes calls = none := by
  simp [finish, root, h]

/-- The encoders of the other two broken kinds return `None`. -/
theorem not_roundTrips_of_broken (hb : m.broken = true) : ¬ RoundTrips getRootAsMessage bytes m := by
  rintro ⟨info, hinfo, hdecode⟩
  cases m with
  | runCommand cmd =>
    simp only [Encoded.decode, Encoded.original, receiveCommand_eq_none] at hdecode
    cases hdecode
  | inotifyPathUpdated path event size sizeLimit =>
    have hcalls : sendInotifypathupdatedToUser path event size sizeLimit [] = none := rfl
    rw [Encoded.calls, finish_eq_none hcalls] at hinfo
    cases hinfo
  | socketWatchTerminated port state =>
    have hcalls : sendSocketwatchterminatedToUser port state [] = none := rfl
    rw [Encoded.calls, finish_eq_none hcalls] at hinfo
    cases hinfo
  | _ => cases hb

/-- A message comes back from the decoder of its kind as it was encoded, unless it is a RunCommand, an
InotifyPathUpdated or a SocketWatchTerminated. -/
theorem round_trips_iff (hm : m.InRange) (hf : Faithful verifyMessage bytes getRootAsMessage m.calls) :
    RoundTrips getRootAsMessage bytes m ↔ m.broken = false := by
  constructor
  · intro h
    rw [← Bool.not_eq_true]
    exact fun hb => not_roundTrips_of_broken hb h
  · intro hb
    obtain ⟨b, hfinish, hne, hread⟩ := finish_of_faithful hf (Encoded.calls_builds hm hb)
      (verifyMessage_messageValue (Encoded.verify_fields hm hb))
    exact ⟨_, hfinish, Encoded.decode_eq hb hne (size_pos hne) hread⟩

end RoundTrip

/-- The buffer of `KillProcess(42)` as the Python package lays it out. -/
def killBytes : Bytes :=
  [12, 0, 0, 0, 8, 0, 10, 0, 9, 0, 4, 0, 8, 0, 0, 0, 12, 0, 0, 0, 0, 2, 6, 0, 8, 0, 4, 0, 6, 0, 0, 0,
   42, 0, 0, 0]

def readKill (b : Bytes) : Option Value :=
  if b = killBytes then some (messageValue .killProcess (.table [scalarField .int32 42])) else none

theorem kill_round_trips : RoundTrips readKill (fun _ => killBytes) (.killProcess 42) := by
  have hm : (Encoded.killProcess 42).InRange := rfl
  exact (round_trips_iff hm
    (faithful_of_builds (Encoded.calls_builds hm rfl) (by simp [killBytes]) (if_pos rfl))).mpr rfl

/-- `ls -l /` is encoded to a buffer that is read faithfully and decoded to `None`; the event of a
file and the end of a socket watch are not encoded at all. -/
theorem command_decoded_to_none :
    finish (fun _ => pythonLs) (Encoded.runCommand lsCommand).calls = some ⟨pythonLs, 140⟩ ∧
      Faithful verifyMessage (fun _ => pythonLs) (fun b => verifyLs b b.length)
        (Encoded.runCommand lsCommand).calls ∧
      receiveCommand (fun b => verifyLs b b.length) pythonLs 140 = none ∧
      ¬ RoundTrips (fun b => verifyLs b b.length) (fun _ => pythonLs) (.runCommand lsCommand) ∧
      ∀ (getRootAsMessage : Bytes → Option Value) (bytes : Value → Bytes),
        finish bytes (Encoded.inotifyPathUpdated "/f" .created 1 0).calls = none ∧
        ¬ RoundTrips getRootAsMessage bytes (.inotifyPathUpdated "/f" .created 1 0) ∧
        finish bytes (Encoded.socketWatchTerminated 80 .listening).calls = none ∧
        ¬ RoundTrips getRootAsMessage bytes (.socketWatchTerminated 80 .listening) := by
  have hbuilds := Python.buildCommand_builds lsCommand_wellFormed
  have hread : verifyLs pythonLs pythonLs.length = some (commandValue lsCommand) := if_pos (by simp)
  refine ⟨?_, faithful_of_builds hbuilds (by simp [pythonLs]) hread, receiveCommand_eq_none _ _ _,
    not_roundTrips_of_broken rfl, fun getRootAsMessage bytes => ⟨finish_eq_none rfl,
      not_roundTrips_of_broken rfl, finish_eq_none rfl, not_roundTrips_of_broken rfl⟩⟩
  rw [finish, Encoded.calls, hbuilds.root_eq]
  rfl

end ProcCtrld.Python
