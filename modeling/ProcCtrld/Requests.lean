import ProcCtrld.PythonCodec

/-!
# ProcCtrld.Requests

A request on its way from a client to the event loop of the C daemon: the encoders of the clients
(`serialize.cpp`, `serialization.py`, `proto_client.rs`), and the `switch` on
`receive_message_from_user` with the decoders that its cases call (`daemon-core.c`).

`Call.dispatched`: the `switch` gets from the buffer of every client the request that was made. The
framing in between is that of `ProcCtrld.Network`; `frames_prefix` says that a stream is a sequence
of frames in one way only.
-/

namespace ProcCtrld

open FlatBuffers

/-! ## The switch of the daemon -/

/-- What the SOCK_MESSAGE case does with a payload: a case of its `switch`, with the decoded argument. -/
inductive Request where
  | runCommand (com : Command)
  | killProcess (pid : Pid)
  | unexpected
deriving DecidableEq, Repr

section Dispatch

variable (verify : Bytes → Int → Option Message) (buffer : Bytes) (size : Int)

def dispatch : Except Fault Request :=
  match receiveMessageFromUser verify (some buffer) size with
  | .runCommand => do
    -- `process_command_request` reads the fields of `com` without a test
    let com ← deref (← receiveCommand verify (some buffer) size)
    return .runCommand com
  | .killProcess => do
    let pid ← receiveKill verify (some buffer) size
    return .killProcess pid
  | .none => return .unexpected

end Dispatch

/-! ## The calls of the clients -/

def createKillProcess (pid : Int) : Build Offset := createTable 1 [.scalar 0 .int32 pid]

/-- `send_kill_to_demon` of `serialize.cpp`. -/
def sendKillToDemon (pid : Pid) : Build Offset := do
  createMessage .killProcess (← createKillProcess pid)

/-- The packages that lay the buffers out. -/
inductive Package where
  | cpp
  | python
  | rust
deriving DecidableEq, Repr

/-- A request as a client makes it; the Rust client has no kill. -/
inductive Call where
  | command (package : Package) (cmd : Command)
  | cppKill (pid : Pid)
  | pythonKill (pid : Pid)
deriving DecidableEq, Repr

namespace Call

def package : Call → Package
  | command package _ => package
  | cppKill _ => .cpp
  | pythonKill _ => .python

def build : Call → Build Offset
  | command .cpp cmd => serializeCommand cmd
  | command .python cmd => Python.buildCommand cmd
  | command .rust cmd => Rust.buildCommand cmd
  | cppKill pid => sendKillToDemon pid
  | pythonKill pid => Python.sendKillToDemon pid

/-- The request that was made. -/
def request : Call → Request
  | command _ cmd => .runCommand cmd
  | cppKill pid | pythonKill pid => .killProcess pid

def WellFormed : Call → Prop
  | command _ cmd => cmd.WellFormed
  | cppKill pid | pythonKill pid => ScalarType.int32.fits pid = true

/-- The root that the builder has made. -/
def value : Call → Value
  | command _ cmd => commandValue cmd
  | cppKill pid | pythonKill pid => messageValue .killProcess (.table [scalarField .int32 pid])

/-- The bytes after the header. -/
def payload (bytes : Package → Value → Bytes) (call : Call) : Bytes :=
  ((finish (bytes call.package) call.build).map (·.buffer)).getD []

end Call

/-- The arguments have the values of their C types, the daemon's verifier and accessors give back what
the client's package stored, and the size fits into the header. -/
structure Call.Sound (verify : Bytes → Int → Option Value) (bytes : Package → Value → Bytes)
    (call : Call) : Prop where
  wellFormed : call.WellFormed
  returned : Returned verify (bytes call.package) call.build
  short : (call.payload bytes).length < 2 ^ 31

/-- The verifier with the accessors that the daemon uses on requests. -/
abbrev asMessages (verify : Bytes → Int → Option Value) (b : Bytes) (n : Int) : Option Message :=
  (verify b n).map asMessage

namespace Call

variable {verify : Bytes → Int → Option Value} {bytes : Package → Value → Bytes} {call : Call}

theorem build_builds (h : call.WellFormed) :
    Builds call.build [] fun o objs => Stored objs o call.value := by
  cases call with
  | command package cmd =>
    cases package with
    | cpp => exact serializeCommand_builds h
    | python => exact Python.buildCommand_builds h
    | rust => exact Rust.buildCommand_builds h.fits
  | cppKill pid => exact builds_message _ (createTable_builds (.cons (.scalar h) .nil) 1)
  | pythonKill pid => exact Python.Encoded.calls_builds (m := .killProcess pid) h rfl

theorem verify_value (h : call.WellFormed) : verifyMessage call.value = true := by
  cases call with
  | command package cmd => exact verifyMessage_messageValue (verifyRunCommand_value h)
  | cppKill pid => exact verifyMessage_messageValue (Value.verifyScalar_of_field (i := 0) rfl h)
  | pythonKill pid => exact verifyMessage_messageValue (Value.verifyScalar_of_field (i := 0) rfl h)

theorem Sound.payload_read (h : call.Sound verify bytes) :
    call.payload bytes ≠ [] ∧
      verify (call.payload bytes) (call.payload bytes).length = some call.value := by
  obtain ⟨b, hfinish, hne, hread⟩ :=
    finish_of_faithful h.returned (build_builds h.wellFormed) (verify_value h.wellFormed)
  have hpayload : call.payload bytes = b := by
    rw [payload, hfinish]
    rfl
  rw [hpayload]
  exact ⟨hne, hread⟩

theorem asMessage_kill (pid : Pid) :
    asMessage (messageValue .killProcess (.table [scalarField .int32 pid])) =
      .killProcess (some ⟨pid⟩) := by
  have hkill : asKillProcess (.table [scalarField .int32 pid]) = ⟨pid⟩ := by
    rw [asKillProcess, Value.scalarAt_of_field rfl]
  show Message.killProcess (some (asKillProcess (.table [scalarField .int32 pid]))) = _
  rw [hkill]

/-- The daemon does what the client asked for. -/
theorem dispatched (h : call.Sound verify bytes) :
    dispatch (asMessages verify) (call.payload bytes) (call.payload bytes).length =
      .ok call.request := by
  obtain ⟨hne, hread⟩ := h.payload_read
  have hsize : ¬ ((call.payload bytes).length : Int) ≤ 0 := not_le.mpr (size_pos hne)
  have hmsg : getMessage (asMessages verify) (some (call.payload bytes)) (call.payload bytes).length =
      some (asMessage call.value) := by
    simp only [getMessage, if_neg hsize, asMessages, hread, Option.map_some]
  have hkill : ∀ pid : Pid, call.value = messageValue .killProcess (.table [scalarField .int32 pid]) →
      dispatch (asMessages verify) (call.payload bytes) (call.payload bytes).length =
        .ok (.killProcess pid) := by
    intro pid hvalue
    rw [hvalue, asMessage_kill] at hmsg
    simp only [dispatch, receiveMessageFromUser, receiveKill, hmsg]
    rfl
  cases call with
  | command package cmd =>
    have hcmd : asMessage (commandValue cmd) = .runCommand (some (asRunCommand (runCommandValue cmd))) := rfl
    simp only [value, hcmd] at hmsg
    simp only [dispatch, receiveMessageFromUser, receiveCommand, hmsg,
      receiveRunCommand_value h.wellFormed]
    rfl
  | cppKill pid => exact hkill pid rfl
  | pythonKill pid => exact hkill pid rfl

end Call

theorem dispatch_of_refused {verify : Bytes → Int → Option Value} {p : Bytes} {n : Int}
    (h : verify p n = none) : dispatch (asMessages verify) p n = .ok .unexpected := by
  have hmsg : getMessage (asMessages verify) (some p) n = none := by
    simp only [getMessage, asMessages, h, Option.map_none, ite_self]
  simp only [dispatch, receiveMessageFromUser, hmsg]
  rfl

/-! ## Streams of frames -/

theorem frames_append (ps qs : List Bytes) : frames (ps ++ qs) = frames ps ++ frames qs := by
  simp [frames]

theorem intBytes_injective {m n : Nat} (hm : m < 2 ^ 32) (hn : n < 2 ^ 32)
    (h : intBytes m = intBytes n) : m = n := by
  simp only [intBytes, List.cons.injEq, and_true, ← UInt8.toNat_inj, UInt8.toNat_ofNat'] at h
  omega

theorem frame_injective {p q rest rest' : Bytes} (hp : p.length < 2 ^ 32) (hq : q.length < 2 ^ 32)
    (h : frame p ++ rest = frame q ++ rest') : p = q ∧ rest = rest' := by
  simp only [frame, List.append_assoc] at h
  obtain ⟨hlen, hrest⟩ := List.append_inj h rfl
  have hlen := intBytes_injective hp hq hlen
  exact List.append_inj hrest hlen

/-- The frames read off the start of a stream of frames, whole or cut off, are the first that were
sent. -/
theorem frames_prefix {ps qs : List Bytes} {rest : Bytes} (hps : ∀ p ∈ ps, p.length < 2 ^ 32)
    (hqs : ∀ q ∈ qs, q.length < 2 ^ 32) (h : frames ps ++ rest <+: frames qs) : ps <+: qs := by
  induction ps generalizing qs with
  | nil => exact List.nil_prefix
  | cons p ps ih =>
    obtain ⟨tail, htail⟩ := h
    cases qs with
    | nil =>
      have hlen := congrArg List.length htail
      simp only [frames, List.map_cons, List.flatten_cons, List.length_append, length_frame, List.map_nil,
        List.flatten_nil, List.length_nil] at hlen
      omega
    | cons q qs =>
      simp only [frames, List.map_cons, List.flatten_cons, List.append_assoc] at htail
      obtain ⟨rfl, hrest⟩ := frame_injective (hps p List.mem_cons_self) (hqs q List.mem_cons_self) htail
      refine List.prefix_cons_inj p |>.mpr (ih (fun r hr => hps r (List.mem_cons_of_mem _ hr))
        (fun r hr => hqs r (List.mem_cons_of_mem _ hr)) ⟨tail, ?_⟩)
      rw [List.append_assoc]
      exact hrest

end ProcCtrld
