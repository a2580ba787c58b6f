import ProcCtrld.Interchange
import ProcCtrld.ProtoClient
import ProcCtrld.Records
import ProcCtrld.Requests

/-!
# ProcCtrld.PythonTests

The Python client (`test_demon.py`, `test_overhead.py`), which talks to either daemon. It reads a message
with one `recv` for the length and one for the rest, and each of its functions reads on until a message of
one kind comes.

* `test_returns_iff` — on an uncut stream of the Rust daemon a function returns exactly when a message of
  its kind was sent, and with what it makes of the first.
* `tests_alike_iff` — for which outcomes of the program the functions find no difference between the daemons.
* `kill_process_targets` — whom `kill_process` asks either daemon to kill.
-/

namespace ProcCtrld.Python

open FlatBuffers

/-! ## The client -/

/-- `int.from_bytes(b, byteorder='little')`. -/
def intFromBytes : Bytes → Nat
  | [] => 0
  | b :: bs => b.toNat + 256 * intFromBytes bs

/-- `recv(4)` and `recv(size)`. Each is one read, which takes nothing at the end of the stream. -/
def recvMessage (stream : List Bytes) : BufferInfo × List Bytes :=
  let sizeBytes := Chunks.read 4 stream
  let size := intFromBytes sizeBytes.1
  let res := Chunks.read size sizeBytes.2
  (⟨res.1, size⟩, res.2)

/-- The functions of `test_demon.py` that send one command; `inTime` is the outcome of the comparison with
the clock. -/
inductive Test where
  | launchProcess
  | execveExecuted
  | failLaunchProcess
  | processTerminated
  | inotifyWatchlistUpdated
  | inotifyEvent
  | responseTime (inTime : Bool)
  | watchingSocket
  | socketListening
deriving DecidableEq, Repr

namespace Test

/-- The message that the loop waits for. -/
def kind : Test → DemonEvent
  | launchProcess => .processLaunched
  | execveExecuted | failLaunchProcess => .execveTerminated
  | processTerminated | responseTime _ => .processTerminated
  | inotifyWatchlistUpdated => .inotifyWatchListUpdated
  | inotifyEvent => .inotifyPathUpdated
  | watchingSocket => .socketWatched
  | socketListening => .socketWatchTerminated

/-- The first message is read before the command is sent. -/
def readsGreeting : Test → Bool
  | responseTime _ => true
  | _ => false

/-- The result of `if condition: return 1 else: return -1`. -/
def verdict (condition : Bool) : PyValue := .int (if condition then 1 else -1)

/-- From the message that was waited for to the end of the function. `none` is an exception. -/
def result (seen : Seen) : Test → Option PyValue
  | launchProcess =>
    match seen.processlaunched with
    | .int data => some (verdict !(data < 0))
    | _ => none
  | execveExecuted =>
    match seen.execveterminated with
    | .execveInfo pid _ success => some (verdict (success && 0 < pid))
    | _ => none
  | failLaunchProcess =>
    match seen.execveterminated with
    -- the first branch has no `return`
    | .execveInfo pid _ success => some (if !success && 0 < pid then .none else .int (-1))
    | _ => none
  | processTerminated =>
    match seen.processterminated with
    | .processTerminatedInfo pid errorCode => some (verdict (0 ≤ pid && errorCode == 0))
    | _ => none
  | inotifyWatchlistUpdated => some (verdict (seen.inotifywatchlistupdated != .none))
  | inotifyEvent =>
    match seen.inotifypathupdated with
    | .inotifyPathUpdated .. => some (verdict true)
    | _ => none
  | responseTime inTime =>
    match seen.processterminated with
    | .processTerminatedInfo pid errorCode => some (verdict (0 < pid && errorCode == 0 && inTime))
    | _ => none
  | watchingSocket =>
    match seen.socketwatched with
    | .int portRes => some (verdict (0 < portRes))
    | _ => none
  | socketListening =>
    match seen.socketwatchterminated with
    | .socketWatchInfo port _ => some (verdict (0 < port))
    | _ => none

end Test

section Client

variable (getRootAsMessage : Bytes → Option Value)

/-- The first message and the loop `while(receive_message_from_demon(res,size)!=kind)`. `none` means that
the fuel ran out. -/
def waitFor (kind : DemonEvent) : Nat → List Bytes → Option BufferInfo
  | 0, _ => none
  | fuel + 1, stream =>
    let r := recvMessage stream
    if receiveMessageFromDemon getRootAsMessage r.1.buffer r.1.size = .event kind then some r.1
    else waitFor kind fuel r.2

def Test.run (test : Test) (fuel : Nat) (stream : List Bytes) : Option (Option PyValue) :=
  let stream := if test.readsGreeting then (recvMessage stream).2 else stream
  (waitFor getRootAsMessage test.kind fuel stream).map fun res => test.result (see getRootAsMessage res)

/-- The function comes to an end with this result. -/
def Test.Returns (test : Test) (stream : List Bytes) (r : Option PyValue) : Prop :=
  ∃ fuel, test.run getRootAsMessage fuel stream = some r

end Client

/-! ## What it is to make of a list of messages -/

/-- What a function is to return: its result on the first message of its kind. Without one it does not. -/
def Test.outcome (test : Test) (ms : List ToUser) : Option (Option PyValue) :=
  let ms := if test.readsGreeting then ms.tail else ms
  (ms.find? fun m => m.kind = test.kind).map fun m => test.result (rightView m)

/-- The package stores the message in a buffer that the client reads as it was stored. -/
structure Readable (getRootAsMessage : Bytes → Option Value) (bytes : Value → Bytes) (m : ToUser) : Prop where
  nonempty : bytes m.value ≠ []
  read : getRootAsMessage (bytes m.value) = some m.value
  short : (bytes m.value).length < 2 ^ 31

def payloads (bytes : Value → Bytes) (ms : List ToUser) : List Bytes := ms.map fun m => bytes m.value

/-- The stream holds the frames of the messages, cut nowhere inside a length or a payload. -/
structure Carries (bytes : Value → Bytes) (ms : List ToUser) (stream : List Bytes) : Prop where
  chunks : ∀ c ∈ stream, c ≠ []
  flat : stream.flatten = frames (payloads bytes ms)
  uncut : FramesUncut stream 0 (payloads bytes ms)

theorem framesUncut_frames (ps : List Bytes) : FramesUncut (ps.map frame) 0 ps := by
  induction ps with
  | nil => trivial
  | cons p ps ih =>
    have hlen := length_frame p
    refine ⟨Chunks.uncut_head (by omega), Chunks.uncut_head (by omega), ?_⟩
    rw [show 0 + 4 + p.length = 0 + (frame p).length by omega, List.map_cons,
      ← framesUncut_shift fun a m => (Chunks.uncut_cons (frame p) (ps.map frame) a m).symm]
    exact ih

theorem carries_frames (bytes : Value → Bytes) (ms : List ToUser) :
    Carries bytes ms ((payloads bytes ms).map frame) where
  chunks := by
    intro c hc
    obtain ⟨p, -, rfl⟩ := List.mem_map.mp hc
    exact List.append_ne_nil_of_left_ne_nil (List.cons_ne_nil _ _) p
  flat := rfl
  uncut := framesUncut_frames _

section Waiting

variable {getRootAsMessage : Bytes → Option Value} {bytes : Value → Bytes} {m : ToUser} {ms : List ToUser}
  {stream : List Bytes} {kind : DemonEvent}

theorem intFromBytes_eq {b : Bytes} (h : b.length = 4) (hnn : 0 ≤ intOfBytes b) :
    (intFromBytes b : Int) = intOfBytes b := by
  match b, h with
  | [a, b, c, d], _ =>
    have ha := a.toNat_lt
    have hb := b.toNat_lt
    have hc := c.toNat_lt
    have hd := d.toNat_lt
    simp only [intOfBytes] at hnn ⊢
    simp only [intFromBytes]
    split at hnn <;> split <;> omega

theorem recvMessage_of_read {info : BufferInfo} {rest : List Bytes}
    (h : readSocketMessage mallocOk stream = (some info, rest)) : recvMessage stream = (info, rest) := by
  obtain ⟨-, h4, hsize, hnn, -, hbody, hread⟩ := readSocketMessage_eq_some.mp h
  have hint := intFromBytes_eq h4 (by rw [hsize]; exact hnn)
  rw [hsize] at hint
  have hnat : intFromBytes (Chunks.read 4 stream).1 = info.size.toNat := by omega
  simp only [recvMessage, hnat, hread, Int.toNat_of_nonneg hnn]

theorem recvMessage_carried (hm : Readable getRootAsMessage bytes m) (h : Carries bytes (m :: ms) stream) :
    ∃ rest, recvMessage stream = (⟨bytes m.value, (bytes m.value).length⟩, rest) ∧ Carries bytes ms rest := by
  obtain ⟨hne, hflat, h0, h4, huncut⟩ := h
  have hsplit : stream.flatten = frame (bytes m.value) ++ frames (payloads bytes ms) := hflat
  have hread : (readSocketMessage mallocOk stream).1 = some ⟨bytes m.value, (bytes m.value).length⟩ :=
    (readSocketMessage_frame hm.short hne hsplit).mpr ⟨h0, h4, rfl, rfl⟩
  obtain ⟨hne', hrest, hshift⟩ := readSocketMessage_rest hm.short hne hsplit hread
  refine ⟨_, recvMessage_of_read (Prod.ext hread rfl), hne', hrest, ?_⟩
  rw [framesUncut_shift hshift, Nat.zero_add]
  rwa [Nat.zero_add] at huncut

theorem carries_nil (h : Carries bytes [] stream) : stream = [] := by
  cases stream with
  | nil => rfl
  | cons c cs =>
    have hc := h.chunks c List.mem_cons_self
    have hflat : c ++ cs.flatten = [] := h.flat
    exact absurd (List.append_eq_nil_iff.mp hflat).1 hc

/-- At the end of the stream the client goes on asking, and gets nothing. -/
theorem waitFor_eof (hkind : kind ≠ .none) (fuel : Nat) : waitFor getRootAsMessage kind fuel [] = none := by
  induction fuel with
  | zero => rfl
  | succ fuel ih =>
    have hrecv : recvMessage [] = (⟨[], 0⟩, []) := rfl
    have hnone : receiveMessageFromDemon getRootAsMessage [] 0 = .event .none := by
      rw [receiveMessageFromDemon, if_pos (.inl rfl)]
    simp only [waitFor, hrecv, hnone, PyValue.event.injEq, if_neg (Ne.symm hkind), ih]

theorem waitFor_carried (hkind : kind ≠ .none) (hread : ∀ m ∈ ms, Readable getRootAsMessage bytes m)
    (h : Carries bytes ms stream) {fuel : Nat} (hfuel : ms.length < fuel) :
    waitFor getRootAsMessage kind fuel stream =
      (ms.find? fun m => m.kind = kind).map fun m => ⟨bytes m.value, (bytes m.value).length⟩ := by
  induction ms generalizing stream fuel with
  | nil =>
    rw [carries_nil h, waitFor_eof hkind]
    rfl
  | cons m ms ih =>
    obtain ⟨fuel, rfl⟩ := Nat.exists_eq_add_one_of_ne_zero (Nat.ne_of_gt (Nat.zero_lt_of_lt hfuel))
    obtain ⟨hm, hms⟩ := List.forall_mem_cons.mp hread
    obtain ⟨rest, hrecv, hrest⟩ := recvMessage_carried hm h
    have hkind' := receiveMessageFromDemon_value hm.nonempty (size_pos hm.nonempty) hm.read
    simp only [waitFor, hrecv, hkind', PyValue.event.injEq, List.find?_cons]
    by_cases heq : m.kind = kind
    · simp [heq]
    · simp only [heq, if_false, decide_false]
      exact ih hms hrest (Nat.lt_of_succ_lt_succ hfuel)

theorem waitFor_mono {fuel fuel' : Nat} (hle : fuel ≤ fuel') {info : BufferInfo}
    (h : waitFor getRootAsMessage kind fuel stream = some info) :
    waitFor getRootAsMessage kind fuel' stream = some info := by
  induction fuel generalizing stream fuel' with
  | zero => cases h
  | succ fuel ih =>
    obtain ⟨fuel', rfl⟩ := Nat.exists_eq_add_one_of_ne_zero (show fuel' ≠ 0 by omega)
    simp only [waitFor] at h ⊢
    split at h
    · rename_i heq
      rw [if_pos heq, h]
    · rename_i hne
      rw [if_neg hne]
      exact ih (by omega) h

theorem Test.kind_ne_none (test : Test) : test.kind ≠ .none := by
  cases test <;> simp [Test.kind]

theorem carries_tail (hread : ∀ m ∈ ms, Readable getRootAsMessage bytes m) (h : Carries bytes ms stream) :
    Carries bytes ms.tail (recvMessage stream).2 := by
  cases ms with
  | nil =>
    obtain rfl := carries_nil h
    exact h
  | cons m ms =>
    obtain ⟨rest, hrecv, hrest⟩ := recvMessage_carried (hread m List.mem_cons_self) h
    rw [hrecv]
    exact hrest

/-- A function of the client returns exactly when a message of its kind is carried. -/
theorem Test.returns_carried (test : Test) (hread : ∀ m ∈ ms, Readable getRootAsMessage bytes m)
    (h : Carries bytes ms stream) {r : Option PyValue} :
    test.Returns getRootAsMessage stream r ↔ test.outcome ms = some r := by
  obtain ⟨ns, stream', hns, hcarries, hrun, hout⟩ :
      ∃ ns stream', (∀ m ∈ ns, Readable getRootAsMessage bytes m) ∧ Carries bytes ns stream' ∧
        (∀ fuel, test.run getRootAsMessage fuel stream = (waitFor getRootAsMessage test.kind fuel stream').map
          fun res => test.result (see getRootAsMessage res)) ∧
        test.outcome ms = (ns.find? fun m => m.kind = test.kind).map fun m => test.result (rightView m) := by
    by_cases hg : test.readsGreeting = true
    · refine ⟨ms.tail, (recvMessage stream).2, fun m hm => hread m (List.mem_of_mem_tail hm),
        carries_tail hread h, fun fuel => ?_, ?_⟩
      · rw [Test.run, if_pos hg]
      · rw [Test.outcome, if_pos hg]
    · refine ⟨ms, stream, hread, h, fun fuel => ?_, ?_⟩
      · rw [Test.run, if_neg hg]
      · rw [Test.outcome, if_neg hg]
  have hresult : ((ns.find? fun m => m.kind = test.kind).map fun m =>
      (⟨bytes m.value, (bytes m.value).length⟩ : BufferInfo)).map
        (fun res => test.result (see getRootAsMessage res)) = test.outcome ms := by
    rw [hout, Option.map_map]
    cases hfind : ns.find? fun m => m.kind = test.kind with
    | none => rfl
    | some m =>
      have hm := hns m (List.mem_of_find?_eq_some hfind)
      simp only [Option.map_some, Function.comp_apply, see_message hm.nonempty hm.read]
  constructor
  · rintro ⟨fuel, hfuel⟩
    rw [hrun, Option.map_eq_some_iff] at hfuel
    obtain ⟨info, hinfo, hr⟩ := hfuel
    have hmore := waitFor_mono (Nat.le_add_right fuel (ns.length + 1)) hinfo
    rw [waitFor_carried test.kind_ne_none hns hcarries (by omega)] at hmore
    rw [← hresult, hmore, Option.map_some, hr]
  · intro hr
    refine ⟨ns.length + 1, ?_⟩
    rw [hrun, waitFor_carried test.kind_ne_none hns hcarries (Nat.lt_succ_self _), hresult, hr]

end Waiting

/-! ## The two daemons -/

/-- What the C daemon calls the state of a socket. -/
def cState : SocketState → CSocketState
  | .unknown => .unknown
  | .created => .created
  | .listeing => .listening

/-- The name that the client has for the number of the Rust daemon. -/
def rustState : SocketState → CSocketState
  | .unknown => .unknown
  | .created => .listening
  | .listeing => .created

/-- A message of a daemon for the decoders of the client. -/
def toUser (state : SocketState → CSocketState) : Msg → ToUser
  | .execveTerminated pid commandName success => .execveTerminated ⟨pid, commandName, success⟩
  | .processLaunched pid => .processLaunched pid
  | .childCreationError errorCode => .childCreationError errorCode
  | .processTerminated pid errorCode => .processTerminated pid errorCode
  | .tcpSocketListening port => .tcpSocketListening port
  | .inotifyPathUpdated info =>
    .inotifyPathUpdated info.path info.triggerEvents info.size info.sizeLimit
  | .inotifyWatchListUpdated path => .inotifyWatchListUpdated path
  | .socketWatched port => .socketWatched port
  | .socketWatchTerminated port s => .socketWatchTerminated port (state s)

section Pids

variable {s s' : State} {l : Label}

theorem pid_pos_step (h : ∀ c ∈ s.children, 0 < c.pid) (hs : step s l = some s') :
    ∀ c ∈ s'.children, 0 < c.pid := by
  cases step_table hs with
  | same hch | registers _ hch | fails _ _ hch =>
    rw [hch]
    exact h
  | acts hc hact hch =>
    intro c hmem
    rw [hch] at hmem
    rcases List.mem_or_eq_of_mem_set hmem with hmem | rfl
    · exact h c hmem
    · rw [Child.step_pid hact]
      exact h _ (List.mem_of_getElem? hc)
  | @reaps _ _ _ c _ _ hc _ _ hch =>
    intro d hmem
    rw [hch] at hmem
    rcases List.mem_or_eq_of_mem_set hmem with hmem | rfl
    · exact h d hmem
    · exact h c (List.mem_of_getElem? hc)
  | clones hl _ _ _ _ hch =>
    subst hl
    intro c hmem
    rw [hch] at hmem
    rcases List.mem_append.mp hmem with hmem | hmem
    · exact h c hmem
    · rw [List.mem_singleton.mp hmem]
      cases step_cases hs with
      | runCommand hmode hbatch hcase =>
        cases hcase with
        | fails hos hleft => cases hos
        | clones herr hread hwrite hpos hpid => exact hpos

theorem pid_pos_of_reach {guard : State → Label → Prop} {heap : Nat → ProcessInfo} {nfds : Nat} {sock : Fd}
    {port : Nat} (hr : Lts.Reach step guard (.init heap nfds sock port) s) : ∀ c ∈ s.children, 0 < c.pid :=
  hr.invariant (P := fun s => ∀ c ∈ s.children, 0 < c.pid) (by simp [State.init])
    fun _ _ _ _ h _ hs => pid_pos_step h hs

end Pids

section RustDaemon

variable {getRootAsMessage : Bytes → Option Value} {bytes : Value → Bytes} {root : Bytes → Option Message}
  {port : Nat} {s : Rust.Server} {t : Rust.Connection}

theorem rustMessage_eq {m : Msg} {e : DaemonEvent} (he : ProtoClient.event m = some e) :
    e.rustMessage = toUser rustState m := by
  cases m with
  | inotifyWatchListUpdated path => cases he
  | socketWatchTerminated port state => cases state <;> cases he <;> rfl
  | _ => cases he; rfl

theorem readable_rust {m : Msg} (h : ProtoClient.Readable getRootAsMessage bytes m)
    (hshort : (ProtoClient.encode bytes m).length < 2 ^ 31) :
    ProtoClient.encode bytes m = bytes (toUser rustState m).value ∧
      Readable getRootAsMessage bytes (toUser rustState m) := by
  obtain ⟨e, he, hrange, hfaithful⟩ := h.event
  have hbuilds := DaemonEvent.serialize_builds hrange
  have hverify := verifyMessage_messageValue (ToUser.verify_fields (DaemonEvent.rustMessage_inRange hrange))
  obtain ⟨hne, hread⟩ := hfaithful _ hbuilds.root_eq hverify
  have hencode : ProtoClient.encode bytes m = bytes e.rustMessage.value := by
    rw [ProtoClient.encode, he, Option.bind_some, finish, hbuilds.root_eq]
    rfl
  rw [← rustMessage_eq he]
  exact ⟨hencode, hne, hread, by rw [← hencode]; exact hshort⟩

/-- What a function has returned on a part of the stream it returns on all of it. -/
theorem Test.outcome_append (test : Test) {ms : List ToUser} {r : Option PyValue} (h : test.outcome ms = some r)
    (rest : List ToUser) : test.outcome (ms ++ rest) = some r := by
  have hfind : ∀ {ns : List ToUser},
      (ns.find? fun m => m.kind = test.kind).map (fun m => test.result (rightView m)) = some r →
      ((ns ++ rest).find? fun m => m.kind = test.kind).map (fun m => test.result (rightView m)) = some r := by
    intro ns h
    rw [List.find?_append]
    cases hf : ns.find? fun m => m.kind = test.kind with
    | none => rw [hf] at h; cases h
    | some m => rw [hf] at h; exact h
  unfold Test.outcome at h ⊢
  by_cases hg : test.readsGreeting = true
  · rw [if_pos hg] at h ⊢
    cases ms with
    | nil => cases h
    | cons m ms => exact hfind h
  · rw [if_neg hg] at h ⊢
    exact hfind h

/-- The stream of a connection whose writes took whole frames, in a cut that spares lengths and payloads. -/
theorem carries_peer
    (hr : Lts.Reachable (Rust.serverStep root (ProtoClient.encode bytes) port) .init s) (ht : t ∈ s.tasks)
    (hwhole : ∀ c ∈ t.sent, c.2 = (frame (ProtoClient.encode bytes c.1)).length)
    (hread : ∀ m ∈ t.messages, ProtoClient.Readable getRootAsMessage bytes m ∧
      (ProtoClient.encode bytes m).length < 2 ^ 31)
    {stream : List Bytes} (hne : ∀ c ∈ stream, c ≠ []) (hstream : stream.flatten = t.peer)
    (huncut : FramesUncut stream 0 (t.messages.map (ProtoClient.encode bytes))) :
    (∀ m ∈ t.messages.map (toUser rustState), Readable getRootAsMessage bytes m) ∧
      Carries bytes (t.messages.map (toUser rustState)) stream := by
  have hpayloads : t.messages.map (ProtoClient.encode bytes) =
      payloads bytes (t.messages.map (toUser rustState)) := by
    rw [payloads, List.map_map]
    exact List.map_congr_left fun m hm => (readable_rust (hread m hm).1 (hread m hm).2).1
  rw [ProtoClient.peer_of_whole (Rust.connectionInv_of_reachable hr ht) hwhole, hpayloads] at hstream
  rw [hpayloads] at huncut
  refine ⟨fun m hm => ?_, hne, hstream, huncut⟩
  obtain ⟨msg, hmsg, rfl⟩ := List.mem_map.mp hm
  exact (readable_rust (hread msg hmsg).1 (hread msg hmsg).2).2

/-- In every run of the Rust daemon in which the writes of a connection took whole frames, and in every cut
of its stream that spares lengths and payloads, a function returns exactly when a message of its kind was
sent, with its result on the first one; and this is its result on the whole conversation. -/
theorem test_returns_iff (test : Test)
    (hr : Lts.Reachable (Rust.serverStep root (ProtoClient.encode bytes) port) .init s) (ht : t ∈ s.tasks)
    (hwhole : ∀ c ∈ t.sent, c.2 = (frame (ProtoClient.encode bytes c.1)).length)
    (hread : ∀ m ∈ t.messages, ProtoClient.Readable getRootAsMessage bytes m ∧
      (ProtoClient.encode bytes m).length < 2 ^ 31)
    {stream : List Bytes} (hne : ∀ c ∈ stream, c ≠ []) (hstream : stream.flatten = t.peer)
    (huncut : FramesUncut stream 0 (t.messages.map (ProtoClient.encode bytes))) (r : Option PyValue) :
    (test.Returns getRootAsMessage stream r ↔ test.outcome (t.messages.map (toUser rustState)) = some r) ∧
      (test.Returns getRootAsMessage stream r →
        test.outcome ((Rust.conversation root port t).map (toUser rustState)) = some r) := by
  obtain ⟨hreadable, hcarries⟩ := carries_peer hr ht hwhole hread hne hstream huncut
  have hiff := test.returns_carried hreadable hcarries (r := r)
  refine ⟨hiff, fun hreturns => ?_⟩
  obtain ⟨⟨rest, hrest⟩, -⟩ := Rust.messages_prefix (Rust.connectionInv_of_reachable hr ht)
  rw [← hrest, List.map_append]
  exact test.outcome_append (hiff.mp hreturns) _

end RustDaemon

open ProtoClient in
/-- The session of the line `ls -l /`, whose child exits with 1: `process_terminated` is not content with
it, and `inotify_event` waits for ever. -/
theorem ls_session_tested :
    ∃ (s : Rust.Server) (t : Rust.Connection) (stream : List Bytes),
      Lts.Reachable (Rust.serverStep (fun b => (lsRoot b).map asMessage) (encode lsReplies) 8080) .init s ∧
      t ∈ s.tasks ∧ stream.flatten = t.peer ∧
      Test.processTerminated.Returns lsRoot stream (some (.int (-1))) ∧
      ∀ r, ¬ Test.inotifyEvent.Returns lsRoot stream r := by
  obtain ⟨s, t, hr, ht, hmsgs, -, -, -, hsent, -⟩ := ls_run
  have hwhole : ∀ c ∈ t.sent, c.2 = (frame (encode lsReplies c.1)).length := by
    simpa using hsent
  have hshort : ∀ m ∈ lsMessages, (encode lsReplies m).length < 2 ^ 31 := by decide +kernel
  have hread : ∀ m ∈ t.messages, ProtoClient.Readable lsRoot lsReplies m ∧ (encode lsReplies m).length < 2 ^ 31 := by
    rw [hmsgs]
    exact fun m hm => ⟨ls_readable m hm, hshort m hm⟩
  have hne : ∀ c ∈ (t.messages.map (encode lsReplies)).map frame, c ≠ [] := by
    intro c hc
    obtain ⟨p, -, rfl⟩ := List.mem_map.mp hc
    exact List.append_ne_nil_of_left_ne_nil (List.cons_ne_nil _ _) p
  have hstream : ((t.messages.map (encode lsReplies)).map frame).flatten = t.peer :=
    (peer_of_whole (Rust.connectionInv_of_reachable hr ht) hwhole).symm
  have hreturns := fun test => test_returns_iff test hr ht hwhole hread hne hstream (framesUncut_frames _)
  refine ⟨s, t, _, hr, ht, hstream, ((hreturns .processTerminated _).1).mpr ?_, fun r h => ?_⟩
  · rw [hmsgs]
    rfl
  · have hnone := ((hreturns .inotifyEvent r).1).mp h
    rw [hmsgs] at hnone
    cases hnone

section Alike

variable {path : String} {outcome : Outcome} {msgs : List Msg}

theorem cMessages_pos (h : CSends path outcome msgs) :
    ∃ pid err, 0 < pid ∧ msgs = cMessages pid path err outcome := by
  obtain ⟨p, err, hp⟩ := cMessages_of_csends h
  cases h with
  | cannotCreate hbatch hs hpath hwatch hos => exact ⟨1, err, Int.one_pos, hp⟩
  | @ran heap nfds port garbageSock sock s k c status _ hr hc hpath hlife hout hsock =>
    have hmem : Msg.processLaunched c.pid ∈ s.client sock k :=
      List.mem_map.mpr ⟨_, List.mem_filter.mpr ⟨hsock, by simp⟩, rfl⟩
    rw [hp] at hmem
    refine ⟨p, err, ?_, hp⟩
    cases outcome with
    | cannotCreate errno => simp [cMessages] at hmem
    | execveFails errno | exits code | killed sig =>
      simp only [cMessages, List.mem_cons, Msg.processLaunched.injEq, reduceCtorEq, List.not_mem_nil, or_false]
        at hmem
      rw [← hmem]
      exact pid_pos_of_reach hr c (List.mem_of_getElem? hc)

/-- The messages of a command behind the greeting, for the decoders of the client. -/
def told (state : SocketState → CSocketState) (port : Nat) (msgs : List Msg) : List ToUser :=
  (.tcpSocketListening port :: msgs).map (toUser state)

/-- What the functions return of a child that was launched as `p` and reported as `q`. -/
def ranOutcome (success : Bool) (q : Pid) (code : Nat) : Test → Option (Option PyValue)
  | .launchProcess => some (some (.int 1))
  | .execveExecuted => some (some (Test.verdict success))
  | .failLaunchProcess => some (some (if success then .int (-1) else .none))
  | .processTerminated => some (some (Test.verdict (0 ≤ q && code == 0)))
  | .responseTime inTime => some (some (Test.verdict (0 < q && code == 0 && inTime)))
  | _ => none

theorem outcome_ran (test : Test) (state : SocketState → CSocketState) (port : Nat) {p : Pid} (hp : 0 < p)
    (path : String) (success : Bool) (q : Pid) (code : Nat) :
    test.outcome (told state port
      [.processLaunched p, .execveTerminated p path success, .processTerminated q code]) =
      ranOutcome success q code test := by
  have hneg : ¬ p < 0 := Int.not_lt.mpr (Int.le_of_lt hp)
  cases test <;> cases success <;>
    simp [told, toUser, Test.outcome, Test.readsGreeting, Test.kind, ToUser.kind, Test.result, rightView, rejects,
      ranOutcome, Test.verdict, hp, hneg]

/-- The Rust daemon goes on after a child that it could not create. -/
def failedOutcome (errno : Nat) : Test → Option (Option PyValue)
  | .launchProcess => some (some (.int 1))
  | .processTerminated => some (some (Test.verdict (errno == 0)))
  | .responseTime _ => some (some (.int (-1)))
  | _ => none

theorem outcome_failed (test : Test) (port : Nat) {daemonPid : Pid} (hpos : 0 < daemonPid) (errno : Nat) :
    test.outcome (told rustState port
      [.processLaunched daemonPid, .childCreationError errno, .processTerminated 0 errno]) =
      failedOutcome errno test := by
  have hneg : ¬ daemonPid < 0 := Int.not_lt.mpr (Int.le_of_lt hpos)
  cases test <;>
    simp [told, toUser, Test.outcome, Test.readsGreeting, Test.kind, ToUser.kind, Test.result, rightView, rejects,
      failedOutcome, Test.verdict, hneg]

theorem outcome_cannotCreate (test : Test) (port errno : Nat) :
    test.outcome (told cState port [.childCreationError errno]) = none := by
  cases test <;> simp [told, toUser, Test.outcome, Test.readsGreeting, Test.kind, ToUser.kind]

/-- All functions make the same of the messages of both daemons. -/
def OutcomesAlike (path : String) (outcome : Outcome) (port err : Nat) (p daemonPid pid : Pid) : Prop :=
  ∀ test : Test, test.outcome (told cState port (cMessages p path err outcome)) =
    test.outcome (told rustState port (rustMessages daemonPid pid path outcome))

theorem outcomesAlike_iff (path : String) (outcome : Outcome) (port err : Nat) {p daemonPid pid : Pid} (hp : 0 < p)
    (hdaemon : 0 < daemonPid) (hpid : 0 < pid) :
    OutcomesAlike path outcome port err p daemonPid pid ↔
      (∃ code, outcome = .exits code) ∨ (∃ sig, sig ≠ 0 ∧ outcome = .killed sig) ∨
        outcome = .execveFails Rust.enoent ∧ err % 256 ≠ 0 := by
  have hle := Int.le_of_lt hp
  have hle' := Int.le_of_lt hpid
  cases outcome with
  | cannotCreate errno =>
    refine iff_of_false (fun h => ?_) (by simp)
    have hlaunch := h .launchProcess
    rw [rustMessages, Outcome.spawn, rustMessages_failed, cMessages, outcome_cannotCreate] at hlaunch
    split at hlaunch
    · rw [outcome_ran _ _ _ hdaemon] at hlaunch
      cases hlaunch
    · rw [outcome_failed _ _ hdaemon] at hlaunch
      cases hlaunch
  | execveFails errno =>
    rw [OutcomesAlike]
    simp only [rustMessages, Outcome.spawn, rustMessages_failed, cMessages, outcome_ran _ _ _ hp]
    by_cases he : errno = Rust.enoent
    · -- the Rust daemon reports the code 1
      simp only [if_pos he, outcome_ran _ _ _ hdaemon]
      by_cases herr : err % 256 = 0
      · refine iff_of_false (fun h => ?_) (by simp [herr])
        have hterminated := h .processTerminated
        simp [ranOutcome, Test.verdict, herr, hle] at hterminated
      · have hcode : (err % 256 == 0) = false := beq_eq_false_iff_ne.mpr herr
        refine iff_of_true (fun test => ?_) (.inr (.inr ⟨by rw [he], herr⟩))
        cases test <;> simp [ranOutcome, hcode]
    · refine iff_of_false (fun h => ?_) (by simp [he])
      have hexecve := h .execveExecuted
      rw [if_neg he, outcome_failed _ _ hdaemon] at hexecve
      cases hexecve
  | exits code =>
    refine iff_of_true (fun test => ?_) (.inl ⟨code, rfl⟩)
    have hrust : rustMessages daemonPid pid path (.exits code) =
      [.processLaunched pid, .execveTerminated pid path true, .processTerminated pid code] := rfl
    rw [hrust, cMessages, outcome_ran _ _ _ hp, outcome_ran _ _ _ hpid]
    cases test <;> simp [ranOutcome, hp, hpid, hle, hle']
  | killed sig =>
    have hrust : rustMessages daemonPid pid path (.killed sig) =
      [.processLaunched pid, .execveTerminated pid path true, .processTerminated pid 1] := rfl
    rw [OutcomesAlike]
    simp only [hrust, cMessages, outcome_ran _ _ _ hp, outcome_ran _ _ _ hpid]
    by_cases hs : sig = 0
    · refine iff_of_false (fun h => ?_) (by simpa using hs)
      have hterminated := h .processTerminated
      simp [ranOutcome, Test.verdict, hs, hle, hle'] at hterminated
    · have hcode : (sig == 0) = false := beq_eq_false_iff_ne.mpr hs
      refine iff_of_true (fun test => ?_) (.inr (.inl ⟨sig, hs, rfl⟩))
      cases test <;> simp [ranOutcome, hcode]

theorem reports_zero_iff {p : Pid} {err errno : Nat} :
    (∀ q, .processTerminated q 0 ∉ cMessages p path err (.execveFails errno)) ↔ err % 256 ≠ 0 := by
  simp [cMessages, eq_comm]

/-- The functions of `test_demon.py` find no difference between the daemons exactly when the program runs,
to a code or to a signal, or is not found and the C daemon does not report the code 0: by the messages
themselves a signal and a program that is not found are told apart. -/
theorem tests_alike_iff (h : CSends path outcome msgs) {daemonPid pid : Pid} (hdaemon : 0 < daemonPid)
    (hpid : 0 < pid) (port : Nat) {getRootAsMessage : Bytes → Option Value} {cBytes rustBytes : Value → Bytes}
    (hreadc : ∀ m ∈ told cState port msgs, Readable getRootAsMessage cBytes m)
    (hreadr : ∀ m ∈ told rustState port (rustMessages daemonPid pid path outcome),
      Readable getRootAsMessage rustBytes m)
    {cStream rustStream : List Bytes} (hc : Carries cBytes (told cState port msgs) cStream)
    (hr : Carries rustBytes (told rustState port (rustMessages daemonPid pid path outcome)) rustStream) :
    (∀ (test : Test) (r : Option PyValue),
      test.Returns getRootAsMessage cStream r ↔ test.Returns getRootAsMessage rustStream r) ↔
      (∃ code, outcome = .exits code) ∨ (∃ sig, sig ≠ 0 ∧ outcome = .killed sig) ∨
        outcome = .execveFails Rust.enoent ∧ ∀ q, .processTerminated q 0 ∉ msgs := by
  obtain ⟨p, err, hp, rfl⟩ := cMessages_pos h
  have hzero : outcome = .execveFails Rust.enoent → ((∀ q, .processTerminated q 0 ∉ cMessages p path err outcome) ↔
      err % 256 ≠ 0) := by
    rintro rfl
    exact reports_zero_iff
  rw [and_congr_right hzero, ← outcomesAlike_iff path outcome port err hp hdaemon hpid]
  simp only [Test.returns_carried _ hreadc hc, Test.returns_carried _ hreadr hr]
  exact ⟨fun halike test => Option.ext (halike test), fun halike test r => by rw [halike test]⟩

end Alike

/-- The buffers of the messages about a program `A` that is not found, of either daemon. -/
def lostBytes (v : Value) : Bytes :=
  let t := (v.tableAt 1).getD (.table [])
  if v.scalarAt 0 = 9 then
    [12, 0, 0, 0, 8, 0, 14, 0, 7, 0, 8, 0, 8, 0, 0, 0, 0, 0, 0, 9, 12, 0, 0, 0, 0, 0, 6, 0, 8, 0, 6, 0,
     6, 0, 0, 0, 0, 0, 144, 31]
  else if v.scalarAt 0 = 6 then
    [12, 0, 0, 0, 8, 0, 14, 0, 7, 0, 8, 0, 8, 0, 0, 0, 0, 0, 0, 6, 12, 0, 0, 0, 0, 0, 6, 0, 8, 0, 4, 0,
     6, 0, 0, 0] ++ intBytes (t.scalarAt 0).toNat
  else if v.scalarAt 0 = 5 then
    [12, 0, 0, 0, 8, 0, 12, 0, 7, 0, 8, 0, 8, 0, 0, 0, 0, 0, 0, 5, 12, 0, 0, 0, 8, 0, 12, 0, 4, 0, 8, 0,
     8, 0, 0, 0] ++ intBytes (t.scalarAt 0).toNat ++ [4, 0, 0, 0, 1, 0, 0, 0, 65, 0, 0, 0]
  else if t.scalarAt 0 = 0 then
    [12, 0, 0, 0, 8, 0, 12, 0, 7, 0, 8, 0, 8, 0, 0, 0, 0, 0, 0, 8, 12, 0, 0, 0, 8, 0, 8, 0, 0, 0, 4, 0,
     8, 0, 0, 0, 1, 0, 0, 0]
  else
    [12, 0, 0, 0, 8, 0, 12, 0, 7, 0, 8, 0, 8, 0, 0, 0, 0, 0, 0, 8, 12, 0, 0, 0, 8, 0, 12, 0, 4, 0, 8, 0,
     8, 0, 0, 0, 20, 0, 0, 0, 22, 0, 0, 0]

/-- What the C daemon with the child 20 says of it, and the Rust daemon with the pid 500. -/
def lostC : List Msg := [.processLaunched 20, .execveTerminated 20 "A" false, .processTerminated 20 22]

theorem lostDaemon_pos : (0 : Pid) < 500 := by decide

def lostRust : List Msg := [.processLaunched 500, .execveTerminated 500 "A" false, .processTerminated 0 1]

def lostRoot (b : Bytes) : Option Value :=
  ((told cState 8080 lostC ++ told rustState 8080 lostRust).find? fun m => lostBytes m.value = b).map ToUser.value

theorem lost_readable {m : ToUser} (hm : m ∈ told cState 8080 lostC ++ told rustState 8080 lostRust) :
    Readable lostRoot lostBytes m := by
  simp only [told, lostC, lostRust, List.map_cons, List.map_nil, List.cons_append, List.nil_append, List.mem_cons,
    List.not_mem_nil, or_false] at hm
  rcases hm with rfl | rfl | rfl | rfl | rfl | rfl | rfl | rfl <;>
    exact ⟨by decide +kernel, rfl, by decide +kernel⟩

/-- A run of the C daemon that comes to this: the `printf` of the child leaves EINVAL in `errno`. -/
theorem lost_run : ∃ (s : State) (c : Child), Lts.Reach step Clean .start s ∧ s.children[0]? = some c ∧
    c = ⟨20, "A", .reaped (.exited 22), .reported 2 22⟩ ∧ ⟨8, .processLaunched 20, some 0⟩ ∈ s.sent ∧
    s.client 8 0 = lostC := by
  obtain ⟨s, hs, hp⟩ := Lts.exists_of_run_map
    (p := fun s : State => s.children[0]? == some ⟨20, "A", .reaped (.exited 22), .reported 2 22⟩ &&
      decide ((⟨8, .processLaunched 20, some 0⟩ : Sent) ∈ s.sent) && s.client 8 0 == lostC)
    (show (Lts.run (Lts.guarded Clean step) .start (connects ++ launches "A" 9 (10, 11) 20 ++
      [.child 0 (.execveFails 2), .child 0 (.write 22), .epollWait [.execve ⟨10, 20, "A", 0⟩], .execve false,
        .child 0 (.exit (.exited 22))] ++ handlesSignal)).map _ = some true by decide +kernel)
  simp only [Bool.and_eq_true, beq_iff_eq, decide_eq_true_eq] at hp
  obtain ⟨⟨hc, hsock⟩, hclient⟩ := hp
  exact ⟨s, _, Lts.reach_of_run hs, hc, rfl, hsock, hclient⟩

theorem lost_sends : CSends "A" (.execveFails 2) lostC := by
  obtain ⟨s, c, hr, hc, rfl, hsock, hclient⟩ := lost_run
  have hsends := CSends.ran hr hc rfl rfl rfl hsock
  rw [hclient] at hsends
  exact hsends

/-- The functions find no difference, although the messages have one. -/
theorem lost_program_tested_alike :
    (∀ (test : Test) (r : Option PyValue),
      test.Returns lostRoot ((payloads lostBytes (told cState 8080 lostC)).map frame) r ↔
        test.Returns lostRoot ((payloads lostBytes (told rustState 8080 lostRust)).map frame) r) ∧
      ¬ SameUpToPids lostC lostRust :=
  ⟨(tests_alike_iff lost_sends lostDaemon_pos (show (0 : Pid) < 501 by decide) 8080
      (fun m hm => lost_readable (List.mem_append_left _ hm))
      (fun m hm => lost_readable (List.mem_append_right _ hm))
      (carries_frames lostBytes _) (carries_frames lostBytes _)).mpr (.inr (.inr ⟨rfl, by simp [lostC]⟩)),
    by simp [SameUpToPids, lostC, lostRust, Msg.rename]⟩

/-! ## `kill_process` -/

section Kill

variable (getRootAsMessage : Bytes → Option Value) (bytes : Value → Bytes)

/-- `kill_process` from its first message on, with the comparison with the clock: the buffers that it sends,
and its result once it has one. -/
def killProcess (inTime : Bool) : Nat → List Bytes → List Bytes × Option (Option PyValue)
  | 0, _ => ([], none)
  | fuel + 1, stream =>
    let r := recvMessage stream
    let kind := receiveMessageFromDemon getRootAsMessage r.1.buffer r.1.size
    if kind = .event .processTerminated then
      match receiveProcessterminated getRootAsMessage r.1.buffer r.1.size with
      | .processTerminatedInfo pid errorCode =>
        ([], some (some (Test.verdict (0 < pid && 0 < errorCode && inTime))))
      | _ => ([], some none)
    else if kind = .event .execveTerminated then
      match receiveExecveterminated getRootAsMessage r.1.buffer r.1.size with
      | .execveInfo pid _ _ =>
        match finish bytes (sendKillToDemon pid) with
        | some buf =>
          let rest := killProcess inTime fuel r.2
          (buf.buffer :: rest.1, rest.2)
        | none => ([], some none)
      | _ => ([], some none)
    else killProcess inTime fuel r.2

end Kill

/-- The pids it asks to kill, and its result. -/
def killOutcome (inTime : Bool) : List ToUser → List Pid × Option (Option PyValue)
  | [] => ([], none)
  | .processTerminated pid errorCode :: _ =>
    ([], some (some (Test.verdict (0 < pid && 0 < errorCode && inTime))))
  | .execveTerminated info :: ms => (info.pid :: (killOutcome inTime ms).1, (killOutcome inTime ms).2)
  | _ :: ms => killOutcome inTime ms

/-- Whom a daemon is asked to kill by a buffer. -/
def target (verify : Bytes → Int → Option Value) (payload : Bytes) : Option Pid :=
  match asMessages verify payload payload.length with
  | some (.killProcess (some e)) => some e.pid
  | _ => none

section Killing

variable {getRootAsMessage : Bytes → Option Value} {verify : Bytes → Int → Option Value} {bytes : Value → Bytes}
  {requestBytes : Package → Value → Bytes} {ms : List ToUser} {stream : List Bytes} {inTime : Bool}

theorem target_kill {pid : Pid} (h : (Call.pythonKill pid).Sound verify requestBytes) :
    ∃ buf, finish (requestBytes .python) (sendKillToDemon pid) = some buf ∧
      target verify buf.buffer = some pid := by
  obtain ⟨b, hfinish, hne, hread⟩ :=
    finish_of_faithful h.returned (Call.build_builds h.wellFormed) (Call.verify_value h.wellFormed)
  refine ⟨⟨b, b.length⟩, hfinish, ?_⟩
  have hvalue : verify b b.length = some (messageValue .killProcess (.table [scalarField .int32 pid])) := hread
  simp only [target, asMessages, hvalue, Option.map_some, Call.asMessage_kill]

theorem killProcess_eof (inTime : Bool) (fuel : Nat) :
    killProcess getRootAsMessage bytes inTime fuel [] = ([], none) := by
  induction fuel with
  | zero => rfl
  | succ fuel ih =>
    have hrecv : recvMessage [] = (⟨[], 0⟩, []) := rfl
    have hnone : receiveMessageFromDemon getRootAsMessage [] 0 = .event .none := by
      rw [receiveMessageFromDemon, if_pos (.inl rfl)]
    simp [killProcess, hrecv, hnone, ih]

/-- It asks for the pid of every `ExecveTerminated` before the first `ProcessTerminated`. -/
theorem killProcess_carried (hread : ∀ m ∈ ms, Readable getRootAsMessage bytes m)
    (hsound : ∀ pid ∈ (killOutcome inTime ms).1, (Call.pythonKill pid).Sound verify requestBytes)
    (h : Carries bytes ms stream) {fuel : Nat} (hfuel : ms.length < fuel) :
    (killProcess getRootAsMessage (requestBytes .python) inTime fuel stream).1.map (target verify) =
        (killOutcome inTime ms).1.map some ∧
      (killProcess getRootAsMessage (requestBytes .python) inTime fuel stream).2 = (killOutcome inTime ms).2 := by
  induction ms generalizing stream fuel with
  | nil =>
    obtain rfl := carries_nil h
    rw [killProcess_eof]
    exact ⟨rfl, rfl⟩
  | cons m ms ih =>
    obtain ⟨fuel, rfl⟩ := Nat.exists_eq_add_one_of_ne_zero (Nat.ne_of_gt (Nat.zero_lt_of_lt hfuel))
    obtain ⟨hm, hms⟩ := List.forall_mem_cons.mp hread
    obtain ⟨rest, hrecv, hrest⟩ := recvMessage_carried hm h
    have hkind := receiveMessageFromDemon_value hm.nonempty (size_pos hm.nonempty) hm.read
    have hsee := see_message hm.nonempty hm.read
    have hfuel' : ms.length < fuel := Nat.lt_of_succ_lt_succ hfuel
    cases m with
    | processTerminated pid errorCode =>
      have hinfo := congrArg Seen.processterminated hsee
      simp only [see, rightView] at hinfo
      simp [killProcess, hrecv, hkind, hinfo, ToUser.kind, killOutcome]
    | execveTerminated info =>
      have hinfo := congrArg Seen.execveterminated hsee
      simp only [see, rightView] at hinfo
      obtain ⟨hpid, hpids⟩ := List.forall_mem_cons.mp hsound
      obtain ⟨buf, hbuf, htarget⟩ := target_kill hpid
      have hnext := ih hms hpids hrest hfuel'
      simp only [killProcess, hrecv, hkind, hinfo, hbuf, ToUser.kind, killOutcome, List.map_cons, htarget,
        hnext.1, hnext.2, PyValue.event.injEq, reduceCtorEq, if_false, if_true, and_self]
    | _ =>
      simp only [killProcess, hrecv, hkind, ToUser.kind, killOutcome, PyValue.event.injEq, reduceCtorEq, if_false]
      exact ih hms hsound hrest hfuel'

end Killing

/-- The children that a client has been told of. -/
def launchedPids (msgs : List Msg) : List Pid :=
  msgs.filterMap fun
    | .processLaunched pid => some pid
    | _ => none

/-- The pid in the `ExecveTerminated` of the Rust daemon, which is its own if there is no child. -/
def rustTargets (daemonPid pid : Pid) : Outcome → List Pid
  | .exits _ | .killed _ => [pid]
  | .execveFails errno | .cannotCreate errno => if errno = Rust.enoent then [daemonPid] else []

theorem killOutcome_c (inTime : Bool) (port err : Nat) (p : Pid) (path : String) (outcome : Outcome) :
    (killOutcome inTime (told cState port (cMessages p path err outcome))).1 =
      launchedPids (cMessages p path err outcome) := by
  cases outcome <;> rfl

theorem killOutcome_rust (inTime : Bool) (port : Nat) (daemonPid pid : Pid) (path : String) (outcome : Outcome) :
    (killOutcome inTime (told rustState port (rustMessages daemonPid pid path outcome))).1 =
      rustTargets daemonPid pid outcome := by
  cases outcome with
  | exits code | killed sig => rfl
  | execveFails errno | cannotCreate errno =>
    rw [rustMessages, Outcome.spawn, rustMessages_failed, rustTargets]
    split <;> rfl

/-- `kill_process` asks the C daemon to kill the child that was launched and nobody else. It asks the Rust
daemon for the child that was spawned; when the program is not found, it asks it to kill itself. -/
theorem kill_process_targets {path : String} {outcome : Outcome} {msgs : List Msg} (h : CSends path outcome msgs)
    (daemonPid pid : Pid) (port : Nat) (inTime : Bool) {getRootAsMessage : Bytes → Option Value}
    {cBytes rustBytes : Value → Bytes} {cVerify rustVerify : Bytes → Int → Option Value}
    {requestBytes : Package → Value → Bytes}
    (hreadc : ∀ m ∈ told cState port msgs, Readable getRootAsMessage cBytes m)
    (hreadr : ∀ m ∈ told rustState port (rustMessages daemonPid pid path outcome),
      Readable getRootAsMessage rustBytes m)
    (hkillc : ∀ q ∈ launchedPids msgs, (Call.pythonKill q).Sound cVerify requestBytes)
    (hkillr : ∀ q ∈ rustTargets daemonPid pid outcome, (Call.pythonKill q).Sound rustVerify requestBytes)
    {cStream rustStream : List Bytes} (hc : Carries cBytes (told cState port msgs) cStream)
    (hr : Carries rustBytes (told rustState port (rustMessages daemonPid pid path outcome)) rustStream)
    {fuel : Nat} (hfuel : 4 < fuel) :
    (killProcess getRootAsMessage (requestBytes .python) inTime fuel cStream).1.map (target cVerify) =
        (launchedPids msgs).map some ∧
      (killProcess getRootAsMessage (requestBytes .python) inTime fuel rustStream).1.map (target rustVerify) =
        (rustTargets daemonPid pid outcome).map some := by
  obtain ⟨p, err, -, rfl⟩ := cMessages_pos h
  have hlenc : (told cState port (cMessages p path err outcome)).length ≤ 4 := by
    cases outcome <;> simp [told, cMessages]
  have hlenr : (told rustState port (rustMessages daemonPid pid path outcome)).length ≤ 4 := by
    cases outcome with
    | exits code | killed sig => exact le_rfl
    | execveFails errno | cannotCreate errno =>
      rw [rustMessages, Outcome.spawn, rustMessages_failed]
      split <;> exact le_rfl
  rw [← killOutcome_c inTime port] at hkillc ⊢
  rw [← killOutcome_rust inTime port daemonPid pid path] at hkillr ⊢
  exact ⟨(killProcess_carried hreadc hkillc hc (by omega)).1, (killProcess_carried hreadr hkillr hr (by omega)).1⟩

/-- The buffers of `KillProcess` as the Python package lays them out. -/
def lostKill (v : Value) : Bytes :=
  [12, 0, 0, 0, 8, 0, 10, 0, 9, 0, 4, 0, 8, 0, 0, 0, 12, 0, 0, 0, 0, 2, 6, 0, 8, 0, 4, 0, 6, 0, 0, 0] ++
    intBytes (((v.tableAt 1).getD (.table [])).scalarAt 0).toNat

def verifyLostKill (b : Bytes) (n : Int) : Option Value :=
  if n = b.length then
    ([20, 500].map fun q => (Call.pythonKill q).value).find? fun v => lostKill v = b
  else none

theorem lostKill_sound {q : Pid} (hq : q = 20 ∨ q = 500) :
    (Call.pythonKill q).Sound verifyLostKill fun _ => lostKill := by
  have hwell : (Call.pythonKill q).WellFormed := by
    rcases hq with rfl | rfl <;> rfl
  have hroot := (Call.build_builds hwell).root_eq
  refine ⟨hwell, fun v hv _ => ?_, ?_⟩
  · rw [hroot] at hv
    cases hv
    rcases hq with rfl | rfl <;> exact ⟨by decide +kernel, rfl⟩
  · rw [Call.payload, finish, hroot]
    rcases hq with rfl | rfl <;> decide +kernel

/-- The program that is not found: the child 20 of the C daemon, and the Rust daemon itself. -/
theorem lost_program_kill :
    (killProcess lostRoot lostKill true 5 ((payloads lostBytes (told cState 8080 lostC)).map frame)).1.map
        (target verifyLostKill) = [some 20] ∧
      (killProcess lostRoot lostKill true 5 ((payloads lostBytes (told rustState 8080 lostRust)).map frame)).1.map
        (target verifyLostKill) = [some 500] :=
  kill_process_targets lost_sends 500 501 8080 true
    (fun _ hm => lost_readable (List.mem_append_left _ hm))
    (fun _ hm => lost_readable (List.mem_append_right _ hm))
    (fun _ hq => lostKill_sound (.inl (List.mem_singleton.mp hq)))
    (fun _ hq => lostKill_sound (.inr (List.mem_singleton.mp hq)))
    (carries_frames lostBytes _) (carries_frames lostBytes _) (Nat.lt_succ_self 4)

end ProcCtrld.Python
