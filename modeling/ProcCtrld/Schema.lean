import ProcCtrld.FlatBuffers
import ProcCtrld.Serialize

/-!
# ProcCtrld.Schema

The code that the FlatBuffers compiler generated from `demon.fbs`: the numbers of the union tags, the
fields of each table, the `Create` functions of C++ and Rust, which add the fields in the same
order, and the verifier. The buffers themselves are those of `ProcCtrld.FlatBuffers`.

`asMessage` gives the request that the generated accessors see in a verified buffer, so that
`receive_command` and `receive_kill` can be run on what an encoder built.
-/

namespace ProcCtrld

open FlatBuffers

/-- The tags of `union Event`. -/
inductive EventType where
  | none
  | runCommand
  | killProcess
  | establishTCPConnection
  | establishUnixConnection
  | execveTerminated
  | processLaunched
  | childCreationError
  | processTerminated
  | tcpSocketListening
  | inotifyPathUpdated
  | inotifyWatchListUpdated
  | socketWatched
  | socketWatchTerminated
deriving DecidableEq, Repr

namespace EventType

def number : EventType → Nat
  | none => 0
  | runCommand => 1
  | killProcess => 2
  | establishTCPConnection => 3
  | establishUnixConnection => 4
  | execveTerminated => 5
  | processLaunched => 6
  | childCreationError => 7
  | processTerminated => 8
  | tcpSocketListening => 9
  | inotifyPathUpdated => 10
  | inotifyWatchListUpdated => 11
  | socketWatched => 12
  | socketWatchTerminated => 13

def ofNumber : Int → Option EventType
  | 0 => some none
  | 1 => some runCommand
  | 2 => some killProcess
  | 3 => some establishTCPConnection
  | 4 => some establishUnixConnection
  | 5 => some execveTerminated
  | 6 => some processLaunched
  | 7 => some childCreationError
  | 8 => some processTerminated
  | 9 => some tcpSocketListening
  | 10 => some inotifyPathUpdated
  | 11 => some inotifyWatchListUpdated
  | 12 => some socketWatched
  | 13 => some socketWatchTerminated
  | _ => Option.none

theorem ofNumber_number (e : EventType) : ofNumber e.number = some e := by
  cases e <;> rfl

end EventType

/-- The tags of `union Surveillance`. -/
def surveillanceInotify : Nat := 1
def surveillanceTCPSocket : Nat := 2

/-! ## Creating tables -/

def createInotify (rootPaths : Offset) (mask : Int) (size : Nat) : Build Offset :=
  createTable 3 [.scalar 2 .uint32 size, .scalar 1 .int32 mask, .offset 0 rootPaths]

def createTCPSocket (destport : Nat) : Build Offset := createTable 1 [.scalar 0 .uint32 destport]

def createSurveillanceEvent (eventType : Nat) (event : Offset) : Build Offset :=
  createTable 2 [.offset 1 event, .scalar 0 .uint8 eventType]

def createRunCommand (path args envp : Offset) (flags stackSize : Nat) (toWatch : Offset) :
    Build Offset :=
  createTable 6 [.offset 5 toWatch, .scalar 4 .uint32 stackSize, .scalar 3 .uint32 flags,
    .offset 2 envp, .offset 1 args, .offset 0 path]

def createExecveTerminated (pid : Int) (commandName : Offset) (success : Bool) : Build Offset :=
  createTable 3 [.offset 1 commandName, .scalar 0 .int32 pid, .scalar 2 .uint8 success.toInt]

def createProcessLaunched (pid : Int) : Build Offset := createTable 1 [.scalar 0 .int32 pid]

def createChildCreationError (errorCode : Nat) : Build Offset :=
  createTable 1 [.scalar 0 .uint32 errorCode]

def createProcessTerminated (pid : Int) (errorCode : Nat) : Build Offset :=
  createTable 2 [.scalar 1 .uint32 errorCode, .scalar 0 .int32 pid]

def createTCPSocketListening (port : Nat) : Build Offset := createTable 1 [.scalar 0 .uint16 port]

def createInotifyPathUpdated (path : Offset) (triggerEvents : Int) (size sizeLimit : Nat) :
    Build Offset :=
  createTable 4 [.scalar 3 .uint32 sizeLimit, .scalar 2 .uint32 size, .offset 0 path,
    .scalar 1 .int8 triggerEvents]

def createInotifyWatchListUpdated (path : Offset) : Build Offset := createTable 1 [.offset 0 path]

def createSocketWatched (port : Int) : Build Offset := createTable 1 [.scalar 0 .int32 port]

def createSocketWatchTerminated (port state : Int) : Build Offset :=
  createTable 2 [.scalar 0 .int32 port, .scalar 1 .int8 state]

def createMessage (eventsType : EventType) (events : Offset) : Build Offset :=
  createTable 2 [.offset 1 events, .scalar 0 .uint8 eventsType.number]

/-! ## The verifier -/

def verifyInotify (t : Value) : Bool :=
  t.verifyString 0 && t.verifyScalar 1 .int32 && t.verifyScalar 2 .uint32

def verifyTCPSocket (t : Value) : Bool := t.verifyScalar 0 .uint32

def verifySurveillance (type : Int) (obj : Value) : Bool :=
  if type = surveillanceInotify then verifyInotify obj
  else if type = surveillanceTCPSocket then verifyTCPSocket obj
  else true

def verifySurveillanceEvent (t : Value) : Bool :=
  t.isTable && t.verifyScalar 0 .uint8 && t.verifyTable 1 (verifySurveillance (t.scalarAt 0))

def verifyRunCommand (t : Value) : Bool :=
  t.verifyString 0 && t.verifyVector 1 Value.isString && t.verifyVector 2 Value.isString &&
    t.verifyScalar 3 .uint32 && t.verifyScalar 4 .uint32 && t.verifyVector 5 verifySurveillanceEvent

/-- The `Verify` of the table with this tag. -/
def EventType.verify (t : Value) : EventType → Bool
  | none => true
  | runCommand => verifyRunCommand t
  | killProcess | processLaunched | socketWatched => t.verifyScalar 0 .int32
  | establishTCPConnection | childCreationError => t.verifyScalar 0 .uint32
  | establishUnixConnection | inotifyWatchListUpdated => t.verifyString 0
  | execveTerminated => t.verifyScalar 0 .int32 && t.verifyString 1 && t.verifyScalar 2 .uint8
  | processTerminated => t.verifyScalar 0 .int32 && t.verifyScalar 1 .uint32
  | tcpSocketListening => t.verifyScalar 0 .uint16
  | inotifyPathUpdated =>
    t.verifyString 0 && t.verifyScalar 1 .int8 && t.verifyScalar 2 .uint32 && t.verifyScalar 3 .uint32
  | socketWatchTerminated => t.verifyScalar 0 .int32 && t.verifyScalar 1 .int8

def verifyEvent (type : Int) (obj : Value) : Bool :=
  match EventType.ofNumber type with
  | some e => e.verify obj
  | none => true

def verifyMessage (t : Value) : Bool :=
  t.isTable && t.verifyScalar 0 .uint8 && t.verifyTable 1 (verifyEvent (t.scalarAt 0))

/-! ## Requests -/

def asInotify (t : Value) : Inotify := ⟨t.stringAt 0, t.scalarAt 1, (t.scalarAt 2).toNat⟩

def asTCPSocket (t : Value) : TCPSocket := ⟨(t.scalarAt 0).toNat⟩

def asSurveillanceEvent (t : Value) : SurveillanceEvent :=
  if h₁ : (t.scalarAt 0).toNat = 1 then .inotify ((t.tableAt 1).map asInotify)
  else if h₂ : (t.scalarAt 0).toNat = 2 then .tcpSocket ((t.tableAt 1).map asTCPSocket)
  else .other _ ⟨h₁, h₂⟩

/-- An element of a vector of strings. -/
def asString : Value → String
  | .string s => s
  | _ => ""

def asRunCommand (t : Value) : RunCommand where
  path := t.stringAt 0
  args := (t.vectorAt 1).map (List.map asString)
  envp := (t.vectorAt 2).map (List.map asString)
  flags := (t.scalarAt 3).toNat
  stackSize := (t.scalarAt 4).toNat
  toWatch := (t.vectorAt 5).map (List.map asSurveillanceEvent)

def asKillProcess (t : Value) : KillProcess := ⟨t.scalarAt 0⟩

def asMessage (t : Value) : Message :=
  if h₁ : (t.scalarAt 0).toNat = 1 then .runCommand ((t.tableAt 1).map asRunCommand)
  else if h₂ : (t.scalarAt 0).toNat = 2 then .killProcess ((t.tableAt 1).map asKillProcess)
  else .other _ ⟨h₁, h₂⟩

/-! ## Finished buffers -/

/-- `Finish` and the copy of the buffer; `bytes` is the buffer that the builder has made of the
objects. -/
def finish (bytes : Value → Bytes) (calls : Build Offset) : Option BufferInfo :=
  (root calls).map fun v => ⟨bytes v, (bytes v).length⟩

/-- The verifier accepts the finished buffer, and the accessors return what was stored. -/
abbrev Returned (verify : Bytes → Int → Option Value) (bytes : Value → Bytes) (calls : Build Offset) :
    Prop :=
  Faithful verifyMessage bytes (fun b => verify b b.length) calls

/-! ## What a message stores -/

section Values

variable {objs : List Value} {e : Offset} {v : Value}

def messageValue (eventsType : EventType) (v : Value) : Value :=
  .table [scalarField .uint8 eventsType.number, some v]

theorem EventType.number_fits (t : EventType) : ScalarType.uint8.fits t.number = true := by
  cases t <;> rfl

theorem createMessage_builds (h : Stored objs e v) (t : EventType) :
    Builds (createMessage t e) objs fun o objs' => Stored objs' o (messageValue t v) :=
  createTable_builds (.cons (.offset h) (.cons (.scalar t.number_fits) .nil)) 2

theorem messageValue_eventsType (t : EventType) (v : Value) :
    (messageValue t v).scalarAt 0 = t.number :=
  Value.scalarAt_of_field rfl

theorem verifyMessage_messageValue {t : EventType} {fields : List (Option Value)}
    (h : t.verify (.table fields) = true) : verifyMessage (messageValue t (.table fields)) = true := by
  have htag : (messageValue t (.table fields)).verifyScalar 0 .uint8 = true :=
    Value.verifyScalar_of_field rfl t.number_fits
  have hevent : (messageValue t (.table fields)).verifyTable 1 (verifyEvent t.number) = true := by
    show verifyEvent t.number (.table fields) = true
    rw [verifyEvent, t.ofNumber_number]
    exact h
  unfold verifyMessage
  rw [messageValue_eventsType, htag, hevent]
  rfl

theorem size_pos {b : Bytes} (h : b ≠ []) : (0 : Int) < b.length := by
  have := List.length_pos_iff.mpr h
  omega

theorem faithful_of_builds {read : Bytes → Option Value} {b : Bytes} {calls : Build Offset}
    (hcalls : Builds calls [] fun o objs => Stored objs o v) (hne : b ≠ []) (hread : read b = some v) :
    Faithful verifyMessage (fun _ => b) read calls := by
  intro v' hv' _
  rw [hcalls.root_eq] at hv'
  cases hv'
  exact ⟨hne, hread⟩

/-- A message that conforms to the schema reaches the reader as it was built. -/
theorem finish_of_faithful {read : Bytes → Option Value} {bytes : Value → Bytes} {calls : Build Offset}
    (h : Faithful verifyMessage bytes read calls)
    (hcalls : Builds calls [] fun o objs => Stored objs o v) (hv : verifyMessage v = true) :
    ∃ b, finish bytes calls = some ⟨b, b.length⟩ ∧ b ≠ [] ∧ read b = some v := by
  have hroot := hcalls.root_eq
  obtain ⟨hne, hread⟩ := h v hroot hv
  refine ⟨bytes v, ?_, hne, hread⟩
  rw [finish, hroot]
  rfl

end Values

end ProcCtrld
