import ProcCtrld.CommandCodec
import ProcCtrld.Messages
import ProcCtrld.SocketWatch

/-!
# ProcCtrld.UserCodec

The messages of the C daemon to its clients, as `serialize.cpp` encodes and decodes them: the nine
`send_*_to_user`, the `receive_*` that belong to them, and `receive_message_from_demon`.

`message_decoded`: a message that is sent is taken for its own kind, is returned by its own `receive_*`
with the fields that were sent, and is rejected by all others, `receive_command` and `receive_kill`
among them.
-/

namespace ProcCtrld

open FlatBuffers

/-! ## The structures of `data_structs.h` -/

def InotifyEvent.number : InotifyEvent → Int
  | .modified => 0
  | .created => 1
  | .sizeReached => 2
  | .deleted => 3
  | .accessed => 4

def CSocketState.number : CSocketState → Int
  | .unknown => 0
  | .listening => 1
  | .created => 2

structure ExecveInfo where
  pid : Pid
  commandName : String
  success : Bool
deriving DecidableEq, Repr

structure ProcessTerminatedInfo where
  pid : Pid
  errorCode : Nat
deriving DecidableEq, Repr

/-- `struct InotifyPathUpdated`; an object of an enum type is its number. -/
structure InotifyPathUpdatedInfo where
  path : String
  event : Int
  size : Nat
  sizeLimit : Nat
deriving DecidableEq, Repr

structure SocketWatchInfo where
  port : Int
  state : Int
deriving DecidableEq, Repr

/-- `enum Event`, as far as `receive_message_from_demon` returns it. -/
inductive DemonEvent where
  | none
  | execveTerminated
  | processLaunched
  | childCreationError
  | processTerminated
  | tcpSocketListening
  | inotifyPathUpdated
  | inotifyWatchListUpdated
  | socketWatched
  | socketWatchTerminated
deriving DecidableEq, Repr

/-! ## The encoders, up to the copy of the finished buffer -/

def sendExecveterminatedToUser (info : ExecveInfo) : Build Offset := do
  let commandName ← createString (cStr info.commandName)
  let execveTerminated ← createExecveTerminated info.pid commandName info.success
  createMessage .execveTerminated execveTerminated

def sendProcesslaunchedToUser (pid : Pid) : Build Offset := do
  createMessage .processLaunched (← createProcessLaunched pid)

def sendChildcreationerrorToUser (errorCode : Nat) : Build Offset := do
  createMessage .childCreationError (← createChildCreationError errorCode)

def sendProcessterminatedToUser (pid : Pid) (errorCode : Nat) : Build Offset := do
  createMessage .processTerminated (← createProcessTerminated pid errorCode)

def sendTcpsocketlisteningToUser (port : Nat) : Build Offset := do
  createMessage .tcpSocketListening (← createTCPSocketListening port)

def sendInotifypathupdatedToUser (inotify : InotifyPathUpdatedInfo) : Build Offset := do
  let pathStr ← createString (cStr inotify.path)
  let inotifyPathUpdated ←
    createInotifyPathUpdated pathStr inotify.event inotify.size inotify.sizeLimit
  createMessage .inotifyPathUpdated inotifyPathUpdated

def sendInotifywatchlistupdatedToUser (path : String) : Build Offset := do
  let pathStr ← createString (cStr path)
  createMessage .inotifyWatchListUpdated (← createInotifyWatchListUpdated pathStr)

def sendSocketwatchedToUser (port : Int) : Build Offset := do
  createMessage .socketWatched (← createSocketWatched port)

def sendSocketwatchterminatedToUser (info : SocketWatchInfo) : Build Offset := do
  createMessage .socketWatchTerminated (← createSocketWatchTerminated info.port info.state)

/-! ## The decoders -/

section Receive

variable (verify : Bytes → Int → Option Value) (buffer : Option Bytes) (size : Int)

/-- The common prologue of the decoders. -/
def getRoot : Option Value :=
  match buffer with
  | none => none
  | some b => if size ≤ 0 then none else verify b size

/-- The common body of the `receive_*`: what is not a message with the tag is rejected. -/
def receiveEvent {α : Type} (tag : EventType) (rejected : α) (decode : Value → Except Fault α) :
    Except Fault α :=
  match getRoot verify buffer size with
  | some message =>
    if message.scalarAt 0 = tag.number then deref (message.tableAt 1) >>= decode else return rejected
  | none => return rejected

def receiveExecveterminated : Except Fault (Option ExecveInfo) :=
  receiveEvent verify buffer size .execveTerminated none fun t => do
    let commandName ← deref (t.stringAt 1)
    return some ⟨t.scalarAt 0, cStr commandName, t.scalarAt 2 != 0⟩

def receiveProcesslaunched : Except Fault Pid :=
  receiveEvent verify buffer size .processLaunched (-1) fun t => return t.scalarAt 0

/-- The `uint32` is returned as an `int32`. -/
def receiveChildcreationerror : Except Fault Int :=
  receiveEvent verify buffer size .childCreationError (-1) fun t => return asI32 (t.scalarAt 0).toNat

def receiveProcessterminated : Except Fault (Option ProcessTerminatedInfo) :=
  receiveEvent verify buffer size .processTerminated none fun t =>
    return some ⟨t.scalarAt 0, (t.scalarAt 1).toNat⟩

def receiveTCPSocketListening : Except Fault Nat :=
  receiveEvent verify buffer size .tcpSocketListening 0 fun t => return (t.scalarAt 0).toNat

def receiveInotifypathupdated : Except Fault (Option InotifyPathUpdatedInfo) :=
  receiveEvent verify buffer size .inotifyPathUpdated none fun t => do
    let path ← deref (t.stringAt 0)
    return some ⟨cStr path, t.scalarAt 1, (t.scalarAt 2).toNat, (t.scalarAt 3).toNat⟩

def receiveInotifywatchlistupdated : Except Fault (Option String) :=
  receiveEvent verify buffer size .inotifyWatchListUpdated none fun t => do
    let path ← deref (t.stringAt 0)
    return some (cStr path)

def receiveSocketwatched : Except Fault Int :=
  receiveEvent verify buffer size .socketWatched (-1) fun t => return t.scalarAt 0

def receiveSocketwatchterminated : Except Fault (Option SocketWatchInfo) :=
  receiveEvent verify buffer size .socketWatchTerminated none fun t =>
    return some ⟨t.scalarAt 0, t.scalarAt 1⟩

def receiveMessageFromDemon : DemonEvent :=
  match getRoot verify buffer size with
  | some message =>
    match EventType.ofNumber (message.scalarAt 0) with
    | some .processLaunched => .processLaunched
    | some .childCreationError => .childCreationError
    | some .processTerminated => .processTerminated
    | some .tcpSocketListening => .tcpSocketListening
    | some .inotifyPathUpdated => .inotifyPathUpdated
    | some .inotifyWatchListUpdated => .inotifyWatchListUpdated
    | some .socketWatched => .socketWatched
    | some .socketWatchTerminated => .socketWatchTerminated
    | some .execveTerminated => .execveTerminated
    | _ => .none
  | none => .none

end Receive

/-! ## The messages -/

/-- A call of one of the `send_*_to_user`. -/
inductive ToUser where
  | execveTerminated (info : ExecveInfo)
  | processLaunched (pid : Pid)
  | childCreationError (errorCode : Nat)
  | processTerminated (pid : Pid) (errorCode : Nat)
  | tcpSocketListening (port : Nat)
  | inotifyPathUpdated (path : String) (event : InotifyEvent) (size sizeLimit : Nat)
  | inotifyWatchListUpdated (path : String)
  | socketWatched (port : Int)
  | socketWatchTerminated (port : Int) (state : CSocketState)
deriving DecidableEq, Repr

namespace ToUser

def calls : ToUser → Build Offset
  | execveTerminated info => sendExecveterminatedToUser info
  | processLaunched pid => sendProcesslaunchedToUser pid
  | childCreationError errorCode => sendChildcreationerrorToUser errorCode
  | processTerminated pid errorCode => sendProcessterminatedToUser pid errorCode
  | tcpSocketListening port => sendTcpsocketlisteningToUser port
  | inotifyPathUpdated path event size sizeLimit =>
    sendInotifypathupdatedToUser ⟨path, event.number, size, sizeLimit⟩
  | inotifyWatchListUpdated path => sendInotifywatchlistupdatedToUser path
  | socketWatched port => sendSocketwatchedToUser port
  | socketWatchTerminated port state => sendSocketwatchterminatedToUser ⟨port, state.number⟩

def send (bytes : Value → Bytes) (m : ToUser) : Option BufferInfo := finish bytes m.calls

/-- The arguments have the values of their C types, and strings are NUL-free. -/
def InRange : ToUser → Prop
  | execveTerminated info => ScalarType.int32.fits info.pid = true ∧ NulFree info.commandName
  | processLaunched pid => ScalarType.int32.fits pid = true
  | childCreationError errorCode => ScalarType.uint32.fits errorCode = true
  | processTerminated pid errorCode =>
    ScalarType.int32.fits pid = true ∧ ScalarType.uint32.fits errorCode = true
  | tcpSocketListening port => ScalarType.uint16.fits port = true
  | inotifyPathUpdated path _ size sizeLimit =>
    NulFree path ∧ ScalarType.uint32.fits size = true ∧ ScalarType.uint32.fits sizeLimit = true
  | inotifyWatchListUpdated path => NulFree path
  | socketWatched port => ScalarType.int32.fits port = true
  | socketWatchTerminated port _ => ScalarType.int32.fits port = true

/-- The error code of a creation error is returned as an `int32`, so it has to be below `2 ^ 31`. -/
structure WellFormed (m : ToUser) : Prop where
  inRange : m.InRange
  errorCode : ∀ errorCode, m = childCreationError errorCode → errorCode < 2147483648

def tag : ToUser → EventType
  | execveTerminated _ => .execveTerminated
  | processLaunched _ => .processLaunched
  | childCreationError _ => .childCreationError
  | processTerminated _ _ => .processTerminated
  | tcpSocketListening _ => .tcpSocketListening
  | inotifyPathUpdated _ _ _ _ => .inotifyPathUpdated
  | inotifyWatchListUpdated _ => .inotifyWatchListUpdated
  | socketWatched _ => .socketWatched
  | socketWatchTerminated _ _ => .socketWatchTerminated

/-- The kind of message that the client is to see. -/
def kind : ToUser → DemonEvent
  | execveTerminated _ => .execveTerminated
  | processLaunched _ => .processLaunched
  | childCreationError _ => .childCreationError
  | processTerminated _ _ => .processTerminated
  | tcpSocketListening _ => .tcpSocketListening
  | inotifyPathUpdated _ _ _ _ => .inotifyPathUpdated
  | inotifyWatchListUpdated _ => .inotifyWatchListUpdated
  | socketWatched _ => .socketWatched
  | socketWatchTerminated _ _ => .socketWatchTerminated

/-! What each `receive_*` is to return for the message: its fields, or the rejection value. -/

def execveterminated : ToUser → Option ExecveInfo
  | execveTerminated info => some info
  | _ => none

def processlaunched : ToUser → Pid
  | processLaunched pid => pid
  | _ => -1

def childcreationerror : ToUser → Int
  | childCreationError errorCode => errorCode
  | _ => -1

def processterminated : ToUser → Option ProcessTerminatedInfo
  | processTerminated pid errorCode => some ⟨pid, errorCode⟩
  | _ => none

def tcpsocketlistening : ToUser → Nat
  | tcpSocketListening port => port
  | _ => 0

def inotifypathupdated : ToUser → Option InotifyPathUpdatedInfo
  | inotifyPathUpdated path event size sizeLimit => some ⟨path, event.number, size, sizeLimit⟩
  | _ => none

def inotifywatchlistupdated : ToUser → Option String
  | inotifyWatchListUpdated path => some path
  | _ => none

def socketwatched : ToUser → Int
  | socketWatched port => port
  | _ => -1

def socketwatchterminated : ToUser → Option SocketWatchInfo
  | socketWatchTerminated port state => some ⟨port, state.number⟩
  | _ => none

/-- The fields of the table that is stored. -/
def fields : ToUser → List (Option Value)
  | execveTerminated info => [scalarField .int32 info.pid, some (.string info.commandName),
      scalarField .uint8 info.success.toInt]
  | processLaunched pid => [scalarField .int32 pid]
  | childCreationError errorCode => [scalarField .uint32 errorCode]
  | processTerminated pid errorCode => [scalarField .int32 pid, scalarField .uint32 errorCode]
  | tcpSocketListening port => [scalarField .uint16 port]
  | inotifyPathUpdated path event size sizeLimit => [some (.string path), scalarField .int8 event.number,
      scalarField .uint32 size, scalarField .uint32 sizeLimit]
  | inotifyWatchListUpdated path => [some (.string path)]
  | socketWatched port => [scalarField .int32 port]
  | socketWatchTerminated port state => [scalarField .int32 port, scalarField .int8 state.number]

def value (m : ToUser) : Value := messageValue m.tag (.table m.fields)

end ToUser

/-- What the functions of the client make of a buffer that holds the message. -/
structure DecodedAs (verify : Bytes → Int → Option Value) (buffer : Option Bytes) (size : Int)
    (m : ToUser) : Prop where
  kind : receiveMessageFromDemon verify buffer size = m.kind
  execveterminated : receiveExecveterminated verify buffer size = .ok m.execveterminated
  processlaunched : receiveProcesslaunched verify buffer size = .ok m.processlaunched
  childcreationerror : receiveChildcreationerror verify buffer size = .ok m.childcreationerror
  processterminated : receiveProcessterminated verify buffer size = .ok m.processterminated
  tcpsocketlistening : receiveTCPSocketListening verify buffer size = .ok m.tcpsocketlistening
  inotifypathupdated : receiveInotifypathupdated verify buffer size = .ok m.inotifypathupdated
  inotifywatchlistupdated : receiveInotifywatchlistupdated verify buffer size = .ok m.inotifywatchlistupdated
  socketwatched : receiveSocketwatched verify buffer size = .ok m.socketwatched
  socketwatchterminated : receiveSocketwatchterminated verify buffer size = .ok m.socketwatchterminated
  command : receiveCommand (fun b n => (verify b n).map asMessage) buffer size = .ok none
  kill : receiveKill (fun b n => (verify b n).map asMessage) buffer size = .ok (-1)
  fromUser : receiveMessageFromUser (fun b n => (verify b n).map asMessage) buffer size = .none

/-! ## What a message stores -/

theorem toInt_fits (b : Bool) : ScalarType.uint8.fits b.toInt = true := by
  cases b <;> rfl

@[simp] theorem toInt_bne_zero (b : Bool) : (b.toInt != 0) = b := by
  cases b <;> rfl

theorem InotifyEvent.number_fits (e : InotifyEvent) : ScalarType.int8.fits e.number = true := by
  cases e <;> rfl

theorem CSocketState.number_fits (s : CSocketState) : ScalarType.int8.fits s.number = true := by
  cases s <;> rfl

theorem builds_message {objs : List Value} {calls : Build Offset} {v : Value} (t : EventType)
    (h : Builds calls objs fun o objs' => Stored objs' o v) :
    Builds (calls >>= createMessage t) objs fun o objs' => Stored objs' o (messageValue t v) :=
  h.bind fun _ _ _ ho => createMessage_builds ho t

theorem ToUser.calls_builds {m : ToUser} (hm : m.InRange) :
    Builds m.calls [] fun o objs => Stored objs o m.value := by
  cases m with
  | execveTerminated info =>
    obtain ⟨hpid, hname⟩ := hm
    rw [calls, sendExecveterminatedToUser, cStr_of_nulFree hname]
    refine (createString_builds [] info.commandName).bind fun o objs _ ho => ?_
    exact builds_message _ (createTable_builds
      (.cons (.offset ho) (.cons (.scalar hpid) (.cons (.scalar (toInt_fits _)) .nil))) 3)
  | processLaunched pid => exact builds_message _ (createTable_builds (.cons (.scalar hm) .nil) 1)
  | childCreationError errorCode =>
    exact builds_message _ (createTable_builds (.cons (.scalar hm) .nil) 1)
  | processTerminated pid errorCode =>
    exact builds_message _ (createTable_builds (.cons (.scalar hm.2) (.cons (.scalar hm.1) .nil)) 2)
  | tcpSocketListening port => exact builds_message _ (createTable_builds (.cons (.scalar hm) .nil) 1)
  | inotifyPathUpdated path event size sizeLimit =>
    obtain ⟨hpath, hsize, hlimit⟩ := hm
    rw [calls, sendInotifypathupdatedToUser, cStr_of_nulFree hpath]
    refine (createString_builds [] path).bind fun o objs _ ho => ?_
    exact builds_message _ (createTable_builds (.cons (.scalar hlimit) (.cons (.scalar hsize)
      (.cons (.offset ho) (.cons (.scalar event.number_fits) .nil)))) 4)
  | inotifyWatchListUpdated path =>
    rw [calls, sendInotifywatchlistupdatedToUser, cStr_of_nulFree hm]
    refine (createString_builds [] path).bind fun o objs _ ho => ?_
    exact builds_message _ (createTable_builds (.cons (.offset ho) .nil) 1)
  | socketWatched port => exact builds_message _ (createTable_builds (.cons (.scalar hm) .nil) 1)
  | socketWatchTerminated port state =>
    exact builds_message _ (createTable_builds
      (.cons (.scalar hm) (.cons (.scalar state.number_fits) .nil)) 2)

theorem ToUser.verify_fields {m : ToUser} (hm : m.InRange) : m.tag.verify (.table m.fields) = true := by
  cases m with
  | execveTerminated info =>
    simp only [tag, EventType.verify, Bool.and_eq_true]
    exact ⟨⟨Value.verifyScalar_of_field (i := 0) rfl hm.1, rfl⟩,
      Value.verifyScalar_of_field (i := 2) rfl (toInt_fits _)⟩
  | childCreationError errorCode => exact Value.verifyScalar_of_field (i := 0) rfl hm
  | processTerminated pid errorCode =>
    simp only [tag, EventType.verify, Bool.and_eq_true]
    exact ⟨Value.verifyScalar_of_field (i := 0) rfl hm.1, Value.verifyScalar_of_field (i := 1) rfl hm.2⟩
  | inotifyPathUpdated path event size sizeLimit =>
    simp only [tag, EventType.verify, Bool.and_eq_true]
    exact ⟨⟨⟨rfl, Value.verifyScalar_of_field (i := 1) rfl event.number_fits⟩,
      Value.verifyScalar_of_field (i := 2) rfl hm.2.1⟩, Value.verifyScalar_of_field (i := 3) rfl hm.2.2⟩
  | inotifyWatchListUpdated path => rfl
  | processLaunched pid => exact Value.verifyScalar_of_field (i := 0) rfl hm
  | tcpSocketListening port => exact Value.verifyScalar_of_field (i := 0) rfl hm
  | socketWatched port => exact Value.verifyScalar_of_field (i := 0) rfl hm
  | socketWatchTerminated port state =>
    simp only [tag, EventType.verify, Bool.and_eq_true]
    exact ⟨Value.verifyScalar_of_field (i := 0) rfl hm,
      Value.verifyScalar_of_field (i := 1) rfl state.number_fits⟩

/-! ## What the decoders make of it -/

section Decode

variable {verify : Bytes → Int → Option Value} {buffer : Option Bytes} {size : Int} {t : EventType}
  {fields : List (Option Value)} {m : ToUser}

theorem EventType.number_injective {t t' : EventType} (h : t.number = t'.number) : t = t' := by
  have heq := congrArg (fun n : Nat => EventType.ofNumber n) h
  rw [ofNumber_number, ofNumber_number] at heq
  exact Option.some.inj heq

/-- A `receive_*` decodes the messages with its own tag and rejects the others. -/
theorem receiveEvent_eq {α : Type}
    (h : getRoot verify buffer size = some (messageValue t (.table fields))) (tag : EventType)
    (rejected : α) (decode : Value → Except Fault α) :
    receiveEvent verify buffer size tag rejected decode =
      if t = tag then decode (.table fields) else .ok rejected := by
  simp only [receiveEvent, h, messageValue_eventsType]
  by_cases ht : t = tag
  · subst ht
    rw [if_pos rfl, if_pos rfl]
    rfl
  · have hne : (t.number : Int) ≠ tag.number := fun heq =>
      ht (EventType.number_injective (Int.ofNat.inj heq))
    rw [if_neg hne, if_neg ht]
    rfl

theorem getMessage_other (h : getRoot verify buffer size = some (messageValue t (.table fields)))
    (hrun : t ≠ .runCommand) (hkill : t ≠ .killProcess) :
    ∃ tag htag, getMessage (fun b n => (verify b n).map asMessage) buffer size =
      some (.other tag htag) := by
  have hroot : getMessage (fun b n => (verify b n).map asMessage) buffer size =
      (getRoot verify buffer size).map asMessage := by
    cases buffer with
    | none => rfl
    | some b =>
      simp only [getMessage, getRoot]
      split <;> rfl
  have h₁ : ((messageValue t (.table fields)).scalarAt 0).toNat ≠ 1 := by
    rw [messageValue_eventsType]
    exact fun heq => hrun (EventType.number_injective heq)
  have h₂ : ((messageValue t (.table fields)).scalarAt 0).toNat ≠ 2 := by
    rw [messageValue_eventsType]
    exact fun heq => hkill (EventType.number_injective heq)
  refine ⟨_, ⟨h₁, h₂⟩, ?_⟩
  rw [hroot, h, Option.map_some, asMessage, dif_neg h₁, dif_neg h₂]

theorem receiveExecveterminated_value (hm : m.InRange) (h : getRoot verify buffer size = some m.value) :
    receiveExecveterminated verify buffer size = .ok m.execveterminated := by
  rw [receiveExecveterminated, receiveEvent_eq h]
  cases m with
  | execveTerminated info =>
    simp [ToUser.tag, ToUser.fields, deref, bind, Except.bind, cStr_of_nulFree hm.2, ToUser.execveterminated, pure, Except.pure]
  | _ => rfl

theorem receiveProcesslaunched_value (h : getRoot verify buffer size = some m.value) :
    receiveProcesslaunched verify buffer size = .ok m.processlaunched := by
  rw [receiveProcesslaunched, receiveEvent_eq h]
  cases m with
  | processLaunched pid =>
    simp [ToUser.tag, ToUser.fields, ToUser.processlaunched, pure, Except.pure]
  | _ => rfl

theorem receiveChildcreationerror_value (hm : m.WellFormed) (h : getRoot verify buffer size = some m.value) :
    receiveChildcreationerror verify buffer size = .ok m.childcreationerror := by
  rw [receiveChildcreationerror, receiveEvent_eq h]
  cases m with
  | childCreationError errorCode =>
    have hcode : asI32 errorCode = errorCode := asI32_of_lt (hm.errorCode errorCode rfl)
    simp [ToUser.tag, ToUser.fields, hcode, ToUser.childcreationerror, pure, Except.pure]
  | _ => rfl

theorem receiveProcessterminated_value (h : getRoot verify buffer size = some m.value) :
    receiveProcessterminated verify buffer size = .ok m.processterminated := by
  rw [receiveProcessterminated, receiveEvent_eq h]
  cases m with
  | processTerminated pid errorCode =>
    simp [ToUser.tag, ToUser.fields, ToUser.processterminated, pure, Except.pure]
  | _ => rfl

theorem receiveTCPSocketListening_value (h : getRoot verify buffer size = some m.value) :
    receiveTCPSocketListening verify buffer size = .ok m.tcpsocketlistening := by
  rw [receiveTCPSocketListening, receiveEvent_eq h]
  cases m with
  | tcpSocketListening port =>
    simp [ToUser.tag, ToUser.fields, ToUser.tcpsocketlistening, pure, Except.pure]
  | _ => rfl

theorem receiveInotifypathupdated_value (hm : m.InRange) (h : getRoot verify buffer size = some m.value) :
    receiveInotifypathupdated verify buffer size = .ok m.inotifypathupdated := by
  rw [receiveInotifypathupdated, receiveEvent_eq h]
  cases m with
  | inotifyPathUpdated path event size sizeLimit =>
    simp [ToUser.tag, ToUser.fields, deref, bind, Except.bind, cStr_of_nulFree hm.1, ToUser.inotifypathupdated, pure, Except.pure]
  | _ => rfl

theorem receiveInotifywatchlistupdated_value (hm : m.InRange) (h : getRoot verify buffer size = some m.value) :
    receiveInotifywatchlistupdated verify buffer size = .ok m.inotifywatchlistupdated := by
  rw [receiveInotifywatchlistupdated, receiveEvent_eq h]
  cases m with
  | inotifyWatchListUpdated path =>
    have hpath : cStr path = path := cStr_of_nulFree hm
    simp [ToUser.tag, ToUser.fields, deref, bind, Except.bind, hpath, ToUser.inotifywatchlistupdated, pure, Except.pure]
  | _ => rfl

theorem receiveSocketwatched_value (h : getRoot verify buffer size = some m.value) :
    receiveSocketwatched verify buffer size = .ok m.socketwatched := by
  rw [receiveSocketwatched, receiveEvent_eq h]
  cases m with
  | socketWatched port =>
    simp [ToUser.tag, ToUser.fields, ToUser.socketwatched, pure, Except.pure]
  | _ => rfl

theorem receiveSocketwatchterminated_value (h : getRoot verify buffer size = some m.value) :
    receiveSocketwatchterminated verify buffer size = .ok m.socketwatchterminated := by
  rw [receiveSocketwatchterminated, receiveEvent_eq h]
  cases m with
  | socketWatchTerminated port state =>
    simp [ToUser.tag, ToUser.fields, ToUser.socketwatchterminated, pure, Except.pure]
  | _ => rfl

theorem ToUser.decoded (hm : m.WellFormed) (h : getRoot verify buffer size = some m.value) :
    DecodedAs verify buffer size m := by
  have hrun : m.tag ≠ .runCommand := by cases m <;> simp [tag]
  have hkill : m.tag ≠ .killProcess := by cases m <;> simp [tag]
  obtain ⟨tag, htag, hother⟩ := getMessage_other h hrun hkill
  refine {
    kind := ?_
    execveterminated := receiveExecveterminated_value hm.inRange h
    processlaunched := receiveProcesslaunched_value h
    childcreationerror := receiveChildcreationerror_value hm h
    processterminated := receiveProcessterminated_value h
    tcpsocketlistening := receiveTCPSocketListening_value h
    inotifypathupdated := receiveInotifypathupdated_value hm.inRange h
    inotifywatchlistupdated := receiveInotifywatchlistupdated_value hm.inRange h
    socketwatched := receiveSocketwatched_value h
    socketwatchterminated := receiveSocketwatchterminated_value h
    command := ?_
    kill := ?_
    fromUser := ?_ }
  · rw [receiveMessageFromDemon, h]
    simp only [value, messageValue_eventsType, EventType.ofNumber_number]
    cases m <;> rfl
  · rw [receiveCommand, hother]
    rfl
  · rw [receiveKill, hother]
    rfl
  · rw [receiveMessageFromUser, hother]

end Decode

/-- A message of the daemon comes back from the one `receive_*` that is made for it, as it was sent. -/
theorem message_decoded {verify : Bytes → Int → Option Value} {bytes : Value → Bytes} {m : ToUser}
    (hm : m.WellFormed) (hbytes : Returned verify bytes m.calls) :
    ∃ info, m.send bytes = some info ∧ DecodedAs verify (some info.buffer) info.size m := by
  obtain ⟨b, hinfo, hne, hread⟩ := finish_of_faithful hbytes (ToUser.calls_builds hm.inRange)
    (verifyMessage_messageValue (ToUser.verify_fields hm.inRange))
  refine ⟨_, hinfo, ToUser.decoded hm ?_⟩
  have hsize : ¬ (b.length : Int) ≤ 0 := not_le.mpr (size_pos hne)
  rw [getRoot, if_neg hsize, hread]

/-- The buffer of `ExecveTerminated(42, "ls", true)`. -/
def execveLs : Bytes :=
  [12, 0, 0, 0, 8, 0, 14, 0, 7, 0, 8, 0, 8, 0, 0, 0, 0, 0, 0, 5, 16, 0, 0, 0, 0, 0, 10, 0, 16, 0,
   8, 0, 12, 0, 7, 0, 10, 0, 0, 0, 0, 0, 0, 1, 42, 0, 0, 0, 4, 0, 0, 0, 2, 0, 0, 0, 108, 115, 0, 0]

def verifyExecveLs (b : Bytes) (n : Int) : Option Value :=
  if b = execveLs ∧ n = 60 then some (ToUser.value (.execveTerminated ⟨42, "ls", true⟩)) else none

theorem execve_ls_decoded :
    ∃ info, (ToUser.execveTerminated ⟨42, "ls", true⟩).send (fun _ => execveLs) = some info ∧
      DecodedAs verifyExecveLs (some info.buffer) info.size (.execveTerminated ⟨42, "ls", true⟩) := by
  have hm : (ToUser.execveTerminated ⟨42, "ls", true⟩).InRange := ⟨rfl, by simp [NulFree]⟩
  exact message_decoded ⟨hm, by simp⟩
    (faithful_of_builds (ToUser.calls_builds hm) (by simp [execveLs]) (if_pos ⟨rfl, rfl⟩))

end ProcCtrld
