import ProcCtrld.ClientCodec
import ProcCtrld.ClientLine
import ProcCtrld.RustServer

/-!
# ProcCtrld.ProtoClient

The Rust client (`proto_client.rs`): it sends the command of a line, then reads frames until one of them
tells it to end. `read_exact` may fail, and the client goes on with what is in its buffers.

* `session_exact` — whatever the other connections of the Rust daemon do, the client shows the messages that
  were sent to it up to the first that ends it, and panics if there is none, in every cut of the stream.
* `command_transcript` — what it shows of a command, from the line on: the child that was spawned or the
  error, the watch, and the end.
-/

namespace ProcCtrld.ProtoClient

open FlatBuffers

/-! ## The client -/

inductive ReturnHandleMessage where
  | continues
  | ends
deriving DecidableEq, Repr

/-- What is printed. -/
inductive Shown where
  | processLaunched (pid : Int)
  | listening (port : Int)
  | execve (succeed : Bool) (command : String) (pid : Int)
  | childCreationError (errno : Int)
  | processTerminated (pid errno : Int)
  | socketWatched (port : Int)
  | socketWatchTerminated (state : SocketState) (port : Int)
  | inotifyPathUpdated (path : String) (trigger sizeLimit : Int)
  | unknown
deriving DecidableEq, Repr

/-- The arms of `match state`. -/
def shownState (n : Int) : SocketState := if n = 1 then .created else if n = 2 then .listeing else .unknown

section Client

variable (rootAsMessage : Bytes → Option Value)

/-- `handle_message`; `none` is the panic of an `expect`. -/
def handleMessage (buff : Bytes) : Option (Shown × ReturnHandleMessage) :=
  match rootAsMessage buff with
  | none => none
  | some msg =>
    match EventType.ofNumber (msg.scalarAt 0) with
    | some .processLaunched => (msg.tableAt 1).map fun t => (.processLaunched (t.scalarAt 0), .continues)
    | some .tcpSocketListening => (msg.tableAt 1).map fun t => (.listening (t.scalarAt 0), .continues)
    | some .execveTerminated =>
      (msg.tableAt 1).bind fun t => (t.stringAt 1).map fun command =>
        (.execve (t.scalarAt 2 != 0) command (t.scalarAt 0), .continues)
    | some .childCreationError => (msg.tableAt 1).map fun t => (.childCreationError (t.scalarAt 0), .ends)
    | some .processTerminated =>
      (msg.tableAt 1).map fun t => (.processTerminated (t.scalarAt 0) (t.scalarAt 1), .ends)
    | some .socketWatched => (msg.tableAt 1).map fun t => (.socketWatched (t.scalarAt 0), .continues)
    | some .socketWatchTerminated =>
      (msg.tableAt 1).map fun t =>
        (.socketWatchTerminated (shownState (t.scalarAt 1)) (t.scalarAt 0), .continues)
    | some .inotifyPathUpdated =>
      (msg.tableAt 1).bind fun t => (t.stringAt 0).map fun path =>
        (.inotifyPathUpdated path (t.scalarAt 1) (t.scalarAt 3), .continues)
    | _ => some (.unknown, .ends)

/-- The buffer after `read_exact`, which at the end of the stream leaves what it has got in front of the
zeros. -/
def readExact (n : Nat) (stream : List Bytes) : Bytes × List Bytes :=
  (Chunks.readExact n stream).getD (stream.flatten ++ List.replicate (n - stream.flatten.length) 0, [])

/-- The loop of `main`: what is shown, and whether the client returns or panics. `none` means that the
fuel ran out. -/
def receive : Nat → List Bytes → Option (List Shown × Rust.Ending)
  | 0, _ => none
  | fuel + 1, stream =>
    let lenBuf := readExact 4 stream
    let buf := readExact (Rust.u32OfBytes lenBuf.1) lenBuf.2
    match handleMessage rootAsMessage buf.1 with
    | none => some ([], .panics)
    | some (shown, .ends) => some ([shown], .returns)
    | some (shown, .continues) => (receive fuel buf.2).map fun r => (shown :: r.1, r.2)

end Client

/-! ## What the daemon sends -/

/-- The event of a message, for the messages that the Rust daemon sends. -/
def event : Msg → Option DaemonEvent
  | .execveTerminated pid commandName success => some (.execveTerminated pid commandName success)
  | .processLaunched pid => some (.processLaunched pid)
  | .childCreationError errorCode => some (.childCreationError errorCode)
  | .processTerminated pid errorCode => some (.processTerminated pid errorCode)
  | .tcpSocketListening port => some (.tcpSocketListening port)
  | .inotifyPathUpdated info =>
    some (.inotifyPathUpdated info.path info.triggerEvents info.size info.sizeLimit)
  | .inotifyWatchListUpdated _ => none
  | .socketWatched port => some (.socketWatched port)
  | .socketWatchTerminated port .listeing => some (.socketWatchTerminated port .listen)
  | .socketWatchTerminated port .created => some (.socketWatchTerminated port .established)
  | .socketWatchTerminated port .unknown => some (.socketWatchTerminated port .other)

/-- The finished buffer of the call that sends a message. -/
def encode (bytes : Value → Bytes) (m : Msg) : Bytes :=
  match (event m).bind fun e => finish bytes e.serialize with
  | some info => info.buffer
  | none => []

/-- What the client is to show of a message, and to do after it. -/
def view : Msg → Shown × ReturnHandleMessage
  | .execveTerminated pid commandName success => (.execve success commandName pid, .continues)
  | .processLaunched pid => (.processLaunched pid, .continues)
  | .childCreationError errorCode => (.childCreationError errorCode, .ends)
  | .processTerminated pid errorCode => (.processTerminated pid errorCode, .ends)
  | .tcpSocketListening port => (.listening port, .continues)
  | .inotifyPathUpdated info =>
    (.inotifyPathUpdated info.path info.triggerEvents.number info.sizeLimit, .continues)
  | .inotifyWatchListUpdated _ => (.unknown, .ends)
  | .socketWatched port => (.socketWatched port, .continues)
  | .socketWatchTerminated port state => (.socketWatchTerminated state port, .continues)

/-- The messages up to the first that ends the client; without one, the client panics. -/
def session : List Msg → List Shown × Rust.Ending
  | [] => ([], .panics)
  | m :: ms =>
    match (view m).2 with
    | .ends => ([(view m).1], .returns)
    | .continues => ((view m).1 :: (session ms).1, (session ms).2)

/-- Nothing is shown behind the message that ends the client. -/
theorem session_append {ms : List Msg} (h : (session ms).2 = .returns) (rest : List Msg) :
    session (ms ++ rest) = session ms := by
  induction ms with
  | nil => cases h
  | cons m ms ih =>
    rw [List.cons_append]
    simp only [session] at h ⊢
    cases hview : (view m).2 with
    | ends => rfl
    | continues =>
      simp only [hview] at h ⊢
      rw [ih h]

/-- The message is one of the daemon's, its numbers fit, and its buffer is no longer than a length can
say and read as it was built. -/
structure Readable (rootAsMessage : Bytes → Option Value) (bytes : Value → Bytes) (m : Msg) : Prop where
  event : ∃ e, event m = some e ∧ e.toUser.InRange ∧ Faithful verifyMessage bytes rootAsMessage e.serialize
  length : (encode bytes m).length < 2 ^ 32

section Session

variable {rootAsMessage : Bytes → Option Value} {bytes : Value → Bytes} {m : Msg}

theorem messageValue_events (t : EventType) (fields : List (Option Value)) :
    (messageValue t (.table fields)).tableAt 1 = some (.table fields) :=
  rfl

theorem handleMessage_encode (h : Readable rootAsMessage bytes m) :
    handleMessage rootAsMessage (encode bytes m) = some (view m) := by
  obtain ⟨e, he, hrange, hfaithful⟩ := h.event
  obtain ⟨b, hfinish, -, hread⟩ := finish_of_faithful hfaithful (DaemonEvent.serialize_builds hrange)
    (verifyMessage_messageValue (ToUser.verify_fields (DaemonEvent.rustMessage_inRange hrange)))
  have hencode : encode bytes m = b := by
    simp only [encode, he, Option.bind_some, hfinish]
  rw [hencode, handleMessage, hread]
  cases m with
  | inotifyWatchListUpdated path => cases he
  | socketWatchTerminated port state =>
    cases state <;> cases he <;>
      simp [DaemonEvent.rustMessage, DaemonEvent.toUser, DaemonEvent.cState, ToUser.value, ToUser.tag,
        ToUser.fields, messageValue_eventsType, messageValue_events, EventType.ofNumber_number, view,
        CSocketState.number, shownState]
  | _ =>
    cases he
    simp [DaemonEvent.rustMessage, DaemonEvent.toUser, ToUser.value, ToUser.tag, ToUser.fields,
      messageValue_eventsType, messageValue_events, EventType.ofNumber_number, view]

theorem readExact_eq {n : Nat} {stream : List Bytes} (h : n ≤ stream.flatten.length) :
    ∃ rest, readExact n stream = (stream.flatten.take n, rest) ∧ rest.flatten = stream.flatten.drop n := by
  obtain ⟨rest, hread, hflat⟩ := Chunks.readExact_eq_some h
  exact ⟨rest, by rw [readExact, hread, Option.getD_some], hflat⟩

theorem receive_frame {p tail : Bytes} {stream : List Bytes} (hlen : p.length < 2 ^ 32)
    (hstream : stream.flatten = frame p ++ tail) (fuel : Nat) :
    ∃ stream', stream'.flatten = tail ∧ receive rootAsMessage (fuel + 1) stream =
      match handleMessage rootAsMessage p with
      | none => some ([], .panics)
      | some (shown, .ends) => some ([shown], .returns)
      | some (shown, .continues) => (receive rootAsMessage fuel stream').map fun r => (shown :: r.1, r.2) := by
  rw [frame, List.append_assoc] at hstream
  have h4 : 4 ≤ stream.flatten.length := by
    rw [hstream, List.length_append, length_intBytes]
    omega
  obtain ⟨s₁, hread₁, hflat₁⟩ := readExact_eq h4
  rw [hstream, List.take_left' (length_intBytes _)] at hread₁
  rw [hstream, List.drop_left' (length_intBytes _)] at hflat₁
  have hp : p.length ≤ s₁.flatten.length := by
    rw [hflat₁, List.length_append]
    omega
  obtain ⟨s₂, hread₂, hflat₂⟩ := readExact_eq hp
  rw [hflat₁, List.take_left] at hread₂
  rw [hflat₁, List.drop_left] at hflat₂
  refine ⟨s₂, hflat₂, ?_⟩
  simp only [receive, hread₁, Rust.u32OfBytes_intBytes hlen, hread₂]

/-- At the end of the stream the length is 0, and the empty buffer is unwrapped. -/
theorem receive_eof (hempty : rootAsMessage [] = none) {stream : List Bytes} (hstream : stream.flatten = [])
    (fuel : Nat) : receive rootAsMessage (fuel + 1) stream = some ([], .panics) := by
  have hhdr : readExact 4 stream = ([0, 0, 0, 0], []) := by
    rw [readExact, Chunks.readExact_eq_none (by rw [hstream]; decide), hstream]
    rfl
  have hzero : Rust.u32OfBytes [0, 0, 0, 0] = 0 := rfl
  have hbody : readExact 0 [] = (([] : Bytes), []) := rfl
  simp only [receive, hhdr, hzero, hbody, handleMessage, hempty]

theorem receive_session {ms : List Msg} (hread : ∀ m ∈ ms, Readable rootAsMessage bytes m)
    (hempty : rootAsMessage [] = none) {stream : List Bytes}
    (hstream : stream.flatten = frames (ms.map (encode bytes))) {fuel : Nat} (hfuel : ms.length < fuel) :
    receive rootAsMessage fuel stream = some (session ms) := by
  induction ms generalizing stream fuel with
  | nil =>
    obtain ⟨fuel, rfl⟩ := Nat.exists_eq_add_one_of_ne_zero (Nat.ne_of_gt hfuel)
    exact receive_eof hempty hstream fuel
  | cons m ms ih =>
    obtain ⟨fuel, rfl⟩ := Nat.exists_eq_add_one_of_ne_zero (Nat.ne_of_gt (Nat.zero_lt_of_lt hfuel))
    obtain ⟨hm, hms⟩ := List.forall_mem_cons.mp hread
    have hsplit : stream.flatten = frame (encode bytes m) ++ frames (ms.map (encode bytes)) := by
      rw [hstream]
      rfl
    obtain ⟨stream', hstream', hturn⟩ := receive_frame hm.length hsplit fuel
    rw [hturn, handleMessage_encode hm, session]
    cases hview : view m with
    | mk shown next =>
      cases next with
      | ends => rfl
      | continues =>
        rw [ih hms hstream' (Nat.lt_of_succ_lt_succ hfuel)]
        rfl

end Session

/-! ## A session with the Rust daemon -/

section Daemon

variable {rootAsMessage : Bytes → Option Value} {bytes : Value → Bytes} {root : Bytes → Option Message}
  {port : Nat} {s : Rust.Server} {t : Rust.Connection}

theorem peer_of_whole (hinv : Rust.ConnectionInv root (encode bytes) port t)
    (hwhole : ∀ c ∈ t.sent, c.2 = (frame (encode bytes c.1)).length) :
    t.peer = frames (t.messages.map (encode bytes)) := by
  have hcalls : ∀ c ∈ t.sent.map fun c => (encode bytes c.1, c.2), c.2 = (frame c.1).length := by
    intro c hc
    obtain ⟨d, hd, rfl⟩ := List.mem_map.mp hc
    exact hwhole d hd
  have hintact := (Rust.stream_intact_iff (t.sent.map fun c => (encode bytes c.1, c.2)) fun c hc => by
    have := hcalls c hc
    have hframe := length_frame c.1
    omega).mpr hcalls
  rw [hinv.written, hintact, Rust.Connection.messages, List.map_map, List.map_map]
  rfl

/-- The client of a connection whose writes took whole frames. -/
theorem receive_peer (hr : Lts.Reachable (Rust.serverStep root (encode bytes) port) .init s) (ht : t ∈ s.tasks)
    (hwhole : ∀ c ∈ t.sent, c.2 = (frame (encode bytes c.1)).length)
    (hread : ∀ m ∈ t.messages, Readable rootAsMessage bytes m) (hempty : rootAsMessage [] = none)
    {stream : List Bytes} (hstream : stream.flatten = t.peer) :
    receive rootAsMessage (stream.flatten.length + 1) stream = some (session t.messages) := by
  have hpeer := peer_of_whole (Rust.connectionInv_of_reachable hr ht) hwhole
  rw [hpeer] at hstream
  refine receive_session hread hempty hstream ?_
  have hle := Rust.length_le_frames (t.messages.map (encode bytes))
  rw [List.length_map] at hle
  rw [hstream]
  omega

/-- In every run of the Rust daemon in which the writes of a connection took whole frames, its client shows
what was sent to it up to the first message that ends it, however the stream is cut, and panics at the end
of a stream without one. Once it has returned, or the task has ended, this is what it would show of the
whole conversation. -/
theorem session_exact (hr : Lts.Reachable (Rust.serverStep root (encode bytes) port) .init s) (ht : t ∈ s.tasks)
    (hwhole : ∀ c ∈ t.sent, c.2 = (frame (encode bytes c.1)).length)
    (hread : ∀ m ∈ t.messages, Readable rootAsMessage bytes m) (hempty : rootAsMessage [] = none)
    {stream : List Bytes} (hstream : stream.flatten = t.peer) :
    receive rootAsMessage (stream.flatten.length + 1) stream = some (session t.messages) ∧
      ((session t.messages).2 = .returns ∨ t.ended.isSome = true →
        session t.messages = session (Rust.conversation root port t)) := by
  refine ⟨receive_peer hr ht hwhole hread hempty hstream, fun h => ?_⟩
  obtain ⟨⟨rest, hrest⟩, hall⟩ := Rust.messages_prefix (Rust.connectionInv_of_reachable hr ht)
  rcases h with hreturns | hended
  · rw [← hrest, session_append hreturns]
  · rw [hall hended]

/-! ## From the line to the last message -/

/-- What `exec_command` makes of the command of the client. -/
def commandLine (cmd : Command) : Rust.CommandLine :=
  ⟨cmd.path, Rust.dropProgram cmd.path cmd.args, cmd.envp.filterMap Rust.binding⟩

/-- What the client shows of a command: the child runs to its end or could not be spawned, and a socket is
found on port 8080, which every command of the client asks to watch. -/
def transcript (port : Nat) (daemonPid : Pid) (path : String) (state : Rust.TcpState) : Rust.Spawn → List Shown
  | .spawned pid wait =>
    [.listening port, .processLaunched pid, .execve true path pid, .socketWatched 8080,
      .socketWatchTerminated state.toSend 8080, (view (Rust.terminated pid wait)).1]
  | .failed error =>
    if error = .os Rust.enoent then
      [.listening port, .processLaunched daemonPid, .execve false path daemonPid, .socketWatched 8080,
        .socketWatchTerminated state.toSend 8080, .processTerminated 0 1]
    else [.listening port, .processLaunched daemonPid, .childCreationError (error.rawOsError.getD 1)]

theorem lineCommand_eq {inputLine : String} {cmd : Command} (h : Rust.lineCommand inputLine = some cmd) :
    asMessage (commandValue cmd) = .runCommand (some ⟨some cmd.path, some cmd.args, some cmd.envp, 0, 0,
      some [.tcpSocket (some ⟨8080⟩)]⟩) := by
  have hasMessage : asMessage (commandValue cmd) = .runCommand (some (asRunCommand (runCommandValue cmd))) := rfl
  rw [hasMessage, asRunCommand_value]
  unfold Rust.lineCommand at h
  split at h
  · cases h
  · cases h
    have hwatch := asSurveillanceEvent_watchSocket 8080
    simp only [List.reduceOption_cons_of_some, List.reduceOption_nil, List.map_cons, List.map_nil, hwatch]

theorem handleMessage_line {inputLine : String} {cmd : Command} (hline : Rust.lineCommand inputLine = some cmd)
    {b : Bytes} (hread : rootAsMessage b = some (commandValue cmd)) {os : Rust.RequestOs} {spawn : Rust.Spawn}
    (hspawn : os.spawn (commandLine cmd) = .ends spawn) {state : Rust.TcpState}
    (hport : os.port 0 = .finds state) :
    (Rust.handleMessage (fun b => (rootAsMessage b).map asMessage) os b).msgs =
      (Rust.launch os.daemonPid cmd.path spawn).msgs ++
        [.socketWatched 8080, .socketWatchTerminated 8080 state.toSend,
          Rust.terminated (Rust.launch os.daemonPid cmd.path spawn).pid
            (Rust.launch os.daemonPid cmd.path spawn).res] := by
  have hcommand : Rust.execCommand ⟨some cmd.path, some cmd.args, some cmd.envp, 0, 0,
      some [.tcpSocket (some ⟨8080⟩)]⟩ = some (commandLine cmd) := rfl
  have hport' : asI32 8080 = 8080 := rfl
  simp only [Rust.handleMessage, hread, Option.map_some, lineCommand_eq hline, Rust.handleRunCommandTable,
    hcommand, hspawn, Rust.handleRunCommand]
  simp [commandLine, Rust.watches, Rust.watchOutcome, hport, Rust.readEventsPortTokio,
    Rust.handleSurveillanceEvents, Rust.handleSurveillanceEvent, Rust.watch_ok, Rust.sends, Rust.Sending.andThen,
    hport']

theorem session_transcript (port : Nat) (daemonPid : Pid) (path : String) (state : Rust.TcpState)
    (spawn : Rust.Spawn) :
    session (.tcpSocketListening port :: ((Rust.launch daemonPid path spawn).msgs ++
      [.socketWatched 8080, .socketWatchTerminated 8080 state.toSend,
        Rust.terminated (Rust.launch daemonPid path spawn).pid (Rust.launch daemonPid path spawn).res])) =
      (transcript port daemonPid path state spawn, .returns) := by
  cases spawn with
  | spawned pid wait =>
    cases wait <;> rfl
  | failed error =>
    by_cases h : error = .os Rust.enoent
    · simp [Rust.launch, transcript, h, session, view, Rust.terminated, Rust.SpawnError.rawOsError]
    · simp [Rust.launch, transcript, h, session, view]

/-- In every run of the Rust daemon in which the frame of a line has arrived on a connection and
`handle_message` has said all that it has to say, the client shows the transcript of its command and
returns. -/
theorem command_transcript {inputLine : String} {cmd : Command} (hline : Rust.lineCommand inputLine = some cmd)
    {requestBytes : Value → Bytes}
    (hrequest : Faithful verifyMessage requestBytes rootAsMessage (Rust.buildCommand cmd))
    {info : BufferInfo} (hsend : Rust.sendCommand requestBytes cmd = some info)
    (hlen : info.buffer.length < 2 ^ 32)
    (hr : Lts.Reachable (Rust.serverStep (fun b => (rootAsMessage b).map asMessage) (encode bytes) port) .init s)
    (ht : t ∈ s.tasks) (harrived : t.arrived = frame info.buffer) (hcalled : t.handled ≠ [])
    (hsaid : t.messages = Rust.conversation (fun b => (rootAsMessage b).map asMessage) port t)
    {spawn : Rust.Spawn} (hspawn : (t.os 0).spawn (commandLine cmd) = .ends spawn)
    {state : Rust.TcpState} (hport : (t.os 0).port 0 = .finds state)
    (hwhole : ∀ c ∈ t.sent, c.2 = (frame (encode bytes c.1)).length)
    (hread : ∀ m ∈ t.messages, Readable rootAsMessage bytes m) (hempty : rootAsMessage [] = none)
    {stream : List Bytes} (hstream : stream.flatten = t.peer) :
    receive rootAsMessage (stream.flatten.length + 1) stream =
      some (transcript port (t.os 0).daemonPid cmd.path state spawn, .returns) := by
  obtain ⟨b, hfinish, -, hroot⟩ := finish_of_faithful hrequest (Rust.lineCommand_builds hline)
    (verifyMessage_messageValue (verifyRunCommand_fits (Rust.lineCommand_fits hline)))
  have hinfo : info = ⟨b, b.length⟩ := Option.some.inj (hsend.symm.trans hfinish)
  rw [hinfo] at hlen harrived
  obtain ⟨os, hhandled⟩ := (Rust.connectionInv_of_reachable hr ht).handled_of_frame hlen harrived hcalled
  have hos : t.os 0 = os := Rust.Connection.os_handled (show t.handled[0]? = some (b, os) by rw [hhandled]; rfl)
  rw [hos] at hspawn hport
  have hconversation : t.messages = .tcpSocketListening port ::
      ((Rust.launch os.daemonPid cmd.path spawn).msgs ++ [.socketWatched 8080,
        .socketWatchTerminated 8080 state.toSend, Rust.terminated (Rust.launch os.daemonPid cmd.path spawn).pid
          (Rust.launch os.daemonPid cmd.path spawn).res]) := by
    rw [hsaid, Rust.conversation, hhandled, ← handleMessage_line hline hroot hspawn hport]
    simp
  rw [receive_peer hr ht hwhole hread hempty hstream, hconversation, session_transcript, hos]

end Daemon

/-! ## A session -/

/-- The buffers of the session of the line `ls -l /`, whose child has the pid 20 and exits with 1, by the
tags of the messages. -/
def lsReplies (v : Value) : Bytes :=
  if v.scalarAt 0 = 9 then
    [12, 0, 0, 0, 8, 0, 14, 0, 7, 0, 8, 0, 8, 0, 0, 0, 0, 0, 0, 9, 12, 0, 0, 0, 0, 0, 6, 0, 8, 0, 6, 0,
     6, 0, 0, 0, 0, 0, 144, 31]
  else if v.scalarAt 0 = 6 then
    [12, 0, 0, 0, 8, 0, 14, 0, 7, 0, 8, 0, 8, 0, 0, 0, 0, 0, 0, 6, 12, 0, 0, 0, 0, 0, 6, 0, 8, 0, 4, 0,
     6, 0, 0, 0, 20, 0, 0, 0]
  else if v.scalarAt 0 = 5 then
    [12, 0, 0, 0, 8, 0, 14, 0, 7, 0, 8, 0, 8, 0, 0, 0, 0, 0, 0, 5, 16, 0, 0, 0, 0, 0, 10, 0, 16, 0, 8, 0,
     12, 0, 7, 0, 10, 0, 0, 0, 0, 0, 0, 1, 20, 0, 0, 0, 4, 0, 0, 0, 2, 0, 0, 0, 108, 115, 0, 0]
  else if v.scalarAt 0 = 12 then
    [12, 0, 0, 0, 8, 0, 14, 0, 7, 0, 8, 0, 8, 0, 0, 0, 0, 0, 0, 12, 12, 0, 0, 0, 0, 0, 6, 0, 8, 0, 4, 0,
     6, 0, 0, 0, 144, 31, 0, 0]
  else if v.scalarAt 0 = 13 then
    [12, 0, 0, 0, 8, 0, 12, 0, 7, 0, 8, 0, 8, 0, 0, 0, 0, 0, 0, 13, 12, 0, 0, 0, 8, 0, 12, 0, 8, 0, 7, 0,
     8, 0, 0, 0, 0, 0, 0, 1, 144, 31, 0, 0]
  else
    [12, 0, 0, 0, 8, 0, 12, 0, 7, 0, 8, 0, 8, 0, 0, 0, 0, 0, 0, 8, 12, 0, 0, 0, 8, 0, 12, 0, 4, 0, 8, 0,
     8, 0, 0, 0, 20, 0, 0, 0, 1, 0, 0, 0]

/-- The buffer of the command. -/
def lsRequest : Bytes :=
  [12, 0, 0, 0, 8, 0, 12, 0, 7, 0, 8, 0, 8, 0, 0, 0, 0, 0, 0, 1, 20, 0, 0, 0, 16, 0, 20, 0, 4, 0, 8, 0,
   12, 0, 0, 0, 0, 0, 16, 0, 16, 0, 0, 0, 24, 0, 0, 0, 36, 0, 0, 0, 24, 0, 0, 0, 4, 0, 0, 0, 1, 0, 0, 0,
   64, 0, 0, 0, 2, 0, 0, 0, 108, 115, 0, 0, 1, 0, 0, 0, 16, 0, 0, 0, 2, 0, 0, 0, 24, 0, 0, 0, 12, 0, 0, 0,
   0, 0, 0, 0, 0, 0, 0, 0, 1, 0, 0, 0, 47, 0, 0, 0, 2, 0, 0, 0, 45, 108, 0, 0, 8, 0, 14, 0, 7, 0, 8, 0,
   8, 0, 0, 0, 0, 0, 0, 2, 12, 0, 0, 0, 0, 0, 6, 0, 8, 0, 4, 0, 6, 0, 0, 0, 144, 31, 0, 0]

def lsLine : Command := ⟨"ls", ["-l", "/"], [""], 0, 0, [some (.watchSocket 8080)]⟩

/-- The messages of the session. -/
def lsMessages : List Msg :=
  [.tcpSocketListening 8080, .processLaunched 20, .execveTerminated 20 "ls" true, .socketWatched 8080,
    .socketWatchTerminated 8080 .created, .processTerminated 20 1]

/-- What both sides read of the buffers. -/
def lsRoot (b : Bytes) : Option Value :=
  if b = lsRequest then some (commandValue lsLine)
  else (lsMessages.find? fun m => encode lsReplies m = b).bind fun m => (event m).map fun e => e.rustMessage.value

def lsOs : Rust.RequestOs :=
  { Rust.RequestOs.quiet with
    daemonPid := 7
    spawn := fun _ => .ends (.spawned 20 (.ok (.exited 1)))
    port := fun _ => .finds .established }

/-- The daemon takes the request in two pieces and answers it. -/
def lsRun : List Rust.ServerLabel :=
  [.accept 44, .task 0 (.arrives ((frame lsRequest).take 2)), .task 0 .read,
   .task 0 (.arrives ((frame lsRequest).drop 2)), .task 0 .read, .task 0 .sized, .task 0 .read,
   .task 0 (.handle lsOs), .task 0 (.send 44), .task 0 (.send 64), .task 0 (.send 44), .task 0 (.send 48),
   .task 0 (.send 48)]

theorem readable_of_read {rootAsMessage : Bytes → Option Value} {bytes : Value → Bytes} {m : Msg} {e : DaemonEvent}
    (he : event m = some e) (hrange : e.toUser.InRange) (hne : bytes e.rustMessage.value ≠ [])
    (hread : rootAsMessage (bytes e.rustMessage.value) = some e.rustMessage.value)
    (hlen : (bytes e.rustMessage.value).length < 2 ^ 32) : Readable rootAsMessage bytes m := by
  have hroot := (DaemonEvent.serialize_builds hrange).root_eq
  refine ⟨⟨e, he, hrange, fun v hv _ => ?_⟩, ?_⟩
  · rw [hroot] at hv
    cases hv
    exact ⟨hne, hread⟩
  · rw [encode, he, Option.bind_some, finish, hroot]
    exact hlen

theorem ls_readable : ∀ m ∈ lsMessages, Readable lsRoot lsReplies m := by
  intro m hm
  simp only [lsMessages, List.mem_cons, List.not_mem_nil, or_false] at hm
  rcases hm with rfl | rfl | rfl | rfl | rfl | rfl
  · exact readable_of_read rfl rfl (List.cons_ne_nil _ _) rfl (by decide)
  · exact readable_of_read rfl rfl (List.cons_ne_nil _ _) rfl (by decide)
  · exact readable_of_read rfl ⟨rfl, by simp [NulFree]⟩ (List.cons_ne_nil _ _) rfl (by decide)
  · exact readable_of_read rfl rfl (List.cons_ne_nil _ _) rfl (by decide)
  · exact readable_of_read rfl rfl (List.cons_ne_nil _ _) rfl (by decide)
  · exact readable_of_read rfl ⟨rfl, rfl⟩ (List.cons_ne_nil _ _) rfl (by decide)

def exitsWithOne : Rust.SpawnOs → Bool
  | .ends (.spawned pid (.ok (.exited code))) => pid == 20 && code == 1
  | _ => false

theorem exitsWithOne_eq {spawn : Rust.SpawnOs} (h : exitsWithOne spawn = true) :
    spawn = .ends (.spawned 20 (.ok (.exited 1))) := by
  unfold exitsWithOne at h
  split at h
  · rw [Bool.and_eq_true, beq_iff_eq, beq_iff_eq] at h
    rw [h.1, h.2]
  · cases h

/-- Where the run leads: the daemon has said everything, in whole frames. -/
theorem ls_run :
    ∃ (s : Rust.Server) (t : Rust.Connection),
      Lts.Reachable (Rust.serverStep (fun b => (lsRoot b).map asMessage) (encode lsReplies) 8080) .init s ∧
      t ∈ s.tasks ∧ t.messages = lsMessages ∧ t.arrived = frame lsRequest ∧ t.passed = [lsRequest] ∧
      t.messages = Rust.conversation (fun b => (lsRoot b).map asMessage) 8080 t ∧
      (t.sent.all fun c => c.2 == (frame (encode lsReplies c.1)).length) = true ∧ (t.os 0).daemonPid = 7 ∧
      (t.os 0).spawn (commandLine lsLine) = .ends (.spawned 20 (.ok (.exited 1))) ∧
      (t.os 0).port 0 = .finds .established := by
  obtain ⟨s, hs, hp⟩ := Lts.exists_of_run_map
    (p := fun s => s.tasks.head?.any fun t => t.messages == lsMessages && t.arrived == frame lsRequest &&
      t.passed == [lsRequest] && t.messages == Rust.conversation (fun b => (lsRoot b).map asMessage) 8080 t &&
      (t.sent.all fun c => c.2 == (frame (encode lsReplies c.1)).length) && (t.os 0).daemonPid == 7 &&
      (t.os 0).port 0 == .finds .established && exitsWithOne ((t.os 0).spawn (commandLine lsLine)))
    (show (Lts.run (Rust.serverStep (fun b => (lsRoot b).map asMessage) (encode lsReplies) 8080) .init lsRun).map _ =
      some true by decide +kernel)
  obtain ⟨t, ht, hp⟩ := (Option.any_eq_true _ _).mp hp
  simp only [Bool.and_eq_true, beq_iff_eq] at hp
  obtain ⟨⟨⟨⟨⟨⟨⟨hmsgs, harrived⟩, hpassed⟩, hsaid⟩, hsent⟩, hpid⟩, hport⟩, hspawn⟩ := hp
  exact ⟨s, t, Lts.reachable_of_run hs, List.mem_of_mem_head? ht, hmsgs, harrived, hpassed, hsaid, hsent, hpid,
    exitsWithOne_eq hspawn, hport⟩

/-- What the client shows of it. -/
def lsShown : List Shown :=
  [.listening 8080, .processLaunched 20, .execve true "ls" 20, .socketWatched 8080,
    .socketWatchTerminated .created 8080, .processTerminated 20 1]

theorem ls_session_shown :
    ∃ (s : Rust.Server) (t : Rust.Connection),
      Lts.Reachable (Rust.serverStep (fun b => (lsRoot b).map asMessage) (encode lsReplies) 8080) .init s ∧
      t ∈ s.tasks ∧ receive lsRoot ([t.peer].flatten.length + 1) [t.peer] = some (lsShown, .returns) ∧
      session (Rust.conversation (fun b => (lsRoot b).map asMessage) 8080 t) = (lsShown, .returns) := by
  obtain ⟨s, t, hr, ht, hmsgs, -, -, -, hsent, -⟩ := ls_run
  have hwhole : ∀ c ∈ t.sent, c.2 = (frame (encode lsReplies c.1)).length := by
    simpa using hsent
  have hsession := session_exact hr ht hwhole (hmsgs ▸ ls_readable) rfl (show [t.peer].flatten = t.peer by simp)
  rw [hmsgs] at hsession
  exact ⟨s, t, hr, ht, hsession.1, (hsession.2 (.inl rfl)).symm⟩

theorem ls_transcript_shown :
    ∃ (s : Rust.Server) (t : Rust.Connection), Rust.lineCommand "ls -l /\n" = some lsLine ∧
      Lts.Reachable (Rust.serverStep (fun b => (lsRoot b).map asMessage) (encode lsReplies) 8080) .init s ∧
      t ∈ s.tasks ∧ t.arrived = frame lsRequest ∧
      receive lsRoot ([t.peer].flatten.length + 1) [t.peer] =
        some (transcript 8080 7 "ls" .established (.spawned 20 (.ok (.exited 1))), .returns) := by
  obtain ⟨s, t, hr, ht, hmsgs, harrived, hpassed, hsaid, hsent, hpid, hspawn, hport⟩ := ls_run
  have hline : Rust.lineCommand "ls -l /\n" = some lsLine := by decide +kernel
  have hbuilds := Rust.lineCommand_builds hline
  have hfaithful : Faithful verifyMessage (fun _ => lsRequest) lsRoot (Rust.buildCommand lsLine) :=
    faithful_of_builds hbuilds (by simp [lsRequest]) (if_pos rfl)
  have hsend : Rust.sendCommand (fun _ => lsRequest) lsLine = some ⟨lsRequest, lsRequest.length⟩ := by
    rw [Rust.sendCommand, finish, hbuilds.root_eq]
    rfl
  have hwhole : ∀ c ∈ t.sent, c.2 = (frame (encode lsReplies c.1)).length := by
    simpa using hsent
  have hcalled : t.handled ≠ [] := by
    rintro hnil
    simp [Rust.Connection.passed, hnil] at hpassed
  have hlen : lsRequest.length < 2 ^ 32 := by decide +kernel
  have htranscript := command_transcript hline hfaithful hsend hlen hr ht harrived hcalled hsaid hspawn hport
    hwhole (hmsgs ▸ ls_readable) rfl (show [t.peer].flatten = t.peer by simp)
  rw [hpid] at htranscript
  exact ⟨s, t, hline, hr, ht, harrived, htranscript⟩

end ProcCtrld.ProtoClient
