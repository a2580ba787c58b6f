import ProcCtrld.InTurn
import ProcCtrld.PythonTests
import ProcCtrld.Requests

/-!
# ProcCtrld.PythonOverhead

The measurement of `test_overhead.py`: a client that sends the same command again and again and reads
three messages after each, one `ProcessLaunched`, one `ExecveTerminated` and one `ProcessTerminated`,
without a look at their kinds.

* `overhead_in_step` — with the Rust daemon each round gets the three messages of its own command, whatever
  became of the program.
* `overhead_in_turn` — with the C daemon it gets those of its own launch, if the commands are taken up one at
  a time; a child that cannot be created is told in one message.
-/

namespace ProcCtrld.Python

open FlatBuffers

/-! ## The client -/

/-- `recv` on a connection that stays open: it waits for bytes. -/
def recvOpen : Nat → List Bytes → Option (Bytes × List Bytes)
  | 0, stream => some ([], stream)
  | _ + 1, [] => none
  | n + 1, stream => some (Chunks.read (n + 1) stream)

def recvMessageOpen (stream : List Bytes) : Option (BufferInfo × List Bytes) := do
  let (sizeBytes, stream) ← recvOpen 4 stream
  let size := intFromBytes sizeBytes
  let (data, stream) ← recvOpen size stream
  return (⟨data, size⟩, stream)

/-- What an iteration gets. -/
structure Round where
  pid : PyValue
  infoExecve : PyValue
  info : PyValue
deriving DecidableEq, Repr

section Client

variable (getRootAsMessage : Bytes → Option Value)

/-- One iteration, after its `sendall`. -/
def iteration (stream : List Bytes) : Option (Round × List Bytes) := do
  let (data, stream) ← recvMessageOpen stream
  let pid := receiveProcesslaunched getRootAsMessage data.buffer data.size
  let (data, stream) ← recvMessageOpen stream
  let infoExecve := receiveExecveterminated getRootAsMessage data.buffer data.size
  let (data, stream) ← recvMessageOpen stream
  let info := receiveProcessterminated getRootAsMessage data.buffer data.size
  return (⟨pid, infoExecve, info⟩, stream)

/-- `for j in range(nb_iteration)`. -/
def iterations : Nat → List Bytes → Option (List Round × List Bytes)
  | 0, stream => some ([], stream)
  | j + 1, stream => do
    let (round, stream) ← iteration getRootAsMessage stream
    let (rounds, stream) ← iterations j stream
    return (round :: rounds, stream)

/-- `for i in range(nb_mesures)`. -/
def mesures (nbIteration : Nat) : Nat → List Bytes → Option (List (List Round) × List Bytes)
  | 0, stream => some ([], stream)
  | i + 1, stream => do
    let (rounds, stream) ← iterations getRootAsMessage nbIteration stream
    let (rest, stream) ← mesures nbIteration i stream
    return (rounds :: rest, stream)

/-- `boucle_launch_process`: `res_port` and the rounds of each measurement, once it has them all. -/
def boucleLaunchProcess (nbMesures nbIteration : Nat) (stream : List Bytes) :
    Option (PyValue × List (List Round)) := do
  let (data, stream) ← recvMessageOpen stream
  let resPort := receiveTCPSocketListening getRootAsMessage data.buffer data.size
  let (rounds, _) ← mesures getRootAsMessage nbIteration nbMesures stream
  return (resPort, rounds)

end Client

/-! ## The rounds on a list of messages -/

/-- The round that three messages make. -/
def roundOf (m₁ m₂ m₃ : ToUser) : Round :=
  ⟨(rightView m₁).processlaunched, (rightView m₂).execveterminated, (rightView m₃).processterminated⟩

def roundsOf : Nat → List ToUser → Option (List Round)
  | 0, _ => some []
  | j + 1, m₁ :: m₂ :: m₃ :: ms =>
    (roundsOf j ms).map (roundOf m₁ m₂ m₃ :: ·)
  | _ + 1, _ => none

theorem roundsOf_isSome {j : Nat} {ms : List ToUser} : (roundsOf j ms).isSome = true ↔ 3 * j ≤ ms.length := by
  induction j generalizing ms with
  | zero => simp [roundsOf]
  | succ j ih =>
    match ms with
    | [] | [_] | [_, _] => simp [roundsOf]; try omega
    | m₁ :: m₂ :: m₃ :: ms =>
      simp only [roundsOf, Option.isSome_map, ih, List.length_cons]
      omega

section Reading

variable {getRootAsMessage : Bytes → Option Value} {bytes : Value → Bytes} {m : ToUser} {ms : List ToUser}
  {stream : List Bytes}

theorem recvMessageOpen_carried (hm : Readable getRootAsMessage bytes m) (h : Carries bytes (m :: ms) stream) :
    ∃ rest, recvMessageOpen stream = some (⟨bytes m.value, (bytes m.value).length⟩, rest) ∧
      Carries bytes ms rest := by
  obtain ⟨rest, hrecv, hrest⟩ := recvMessage_carried hm h
  refine ⟨rest, ?_, hrest⟩
  simp only [recvMessage, Prod.mk.injEq, BufferInfo.mk.injEq, Int.natCast_inj] at hrecv
  obtain ⟨⟨hdata, hsize⟩, hleft⟩ := hrecv
  have hpos : 0 < (bytes m.value).length := List.length_pos_iff_ne_nil.mpr hm.nonempty
  obtain ⟨n, hn⟩ := Nat.exists_eq_add_one_of_ne_zero (Nat.ne_of_gt hpos)
  rw [hsize] at hdata hleft
  -- neither read finds the stream empty
  cases stream with
  | nil =>
    simp only [Chunks.read, intFromBytes] at hsize
    omega
  | cons c cs =>
    cases hstream : (Chunks.read 4 (c :: cs)).2 with
    | nil =>
      rw [hstream] at hdata
      exact absurd hdata.symm hm.nonempty
    | cons d ds =>
      rw [hstream, hn] at hdata hleft
      simp only [recvMessageOpen, recvOpen, bind, Option.bind, hsize, hstream, hn, hdata, hleft]
      rfl

theorem recvMessageOpen_nothing (h : Carries bytes [] stream) : recvMessageOpen stream = none := by
  rw [carries_nil h]
  rfl

theorem iteration_carried {m₁ m₂ m₃ : ToUser} (hread : ∀ m ∈ m₁ :: m₂ :: m₃ :: ms, Readable getRootAsMessage bytes m)
    (h : Carries bytes (m₁ :: m₂ :: m₃ :: ms) stream) :
    ∃ rest, iteration getRootAsMessage stream = some (roundOf m₁ m₂ m₃, rest) ∧ Carries bytes ms rest := by
  simp only [List.forall_mem_cons] at hread
  obtain ⟨hm₁, hm₂, hm₃, -⟩ := hread
  obtain ⟨s₁, h₁, h⟩ := recvMessageOpen_carried hm₁ h
  obtain ⟨s₂, h₂, h⟩ := recvMessageOpen_carried hm₂ h
  obtain ⟨s₃, h₃, h⟩ := recvMessageOpen_carried hm₃ h
  have hsee₁ := congrArg Seen.processlaunched (see_message hm₁.nonempty hm₁.read)
  have hsee₂ := congrArg Seen.execveterminated (see_message hm₂.nonempty hm₂.read)
  have hsee₃ := congrArg Seen.processterminated (see_message hm₃.nonempty hm₃.read)
  refine ⟨s₃, ?_, h⟩
  simp only [see] at hsee₁ hsee₂ hsee₃
  simp only [iteration, h₁, h₂, h₃, bind, Option.bind, hsee₁, hsee₂, hsee₃]
  rfl

theorem iteration_waits (hread : ∀ m ∈ ms, Readable getRootAsMessage bytes m) (h : Carries bytes ms stream)
    (hlen : ms.length < 3) : iteration getRootAsMessage stream = none := by
  match ms with
  | [] =>
    rw [iteration, recvMessageOpen_nothing h]
    rfl
  | [m₁] =>
    obtain ⟨s₁, h₁, h⟩ := recvMessageOpen_carried (hread m₁ (by simp)) h
    simp only [iteration, h₁, bind, Option.bind, recvMessageOpen_nothing h]
  | [m₁, m₂] =>
    obtain ⟨s₁, h₁, h⟩ := recvMessageOpen_carried (hread m₁ (by simp)) h
    obtain ⟨s₂, h₂, h⟩ := recvMessageOpen_carried (hread m₂ (by simp)) h
    simp only [iteration, h₁, h₂, bind, Option.bind, recvMessageOpen_nothing h]
  | _ :: _ :: _ :: _ =>
    simp only [List.length_cons] at hlen
    omega

theorem iterations_carried (j : Nat) (hread : ∀ m ∈ ms, Readable getRootAsMessage bytes m)
    (h : Carries bytes ms stream) : (iterations getRootAsMessage j stream).map (·.1) = roundsOf j ms := by
  induction j generalizing ms stream with
  | zero => rfl
  | succ j ih =>
    by_cases hlen : ms.length < 3
    · have hnone : roundsOf (j + 1) ms = none := by
        rw [← Option.not_isSome_iff_eq_none, roundsOf_isSome]
        omega
      rw [hnone, iterations, iteration_waits hread h hlen]
      rfl
    · match ms, hlen with
      | m₁ :: m₂ :: m₃ :: ms, _ =>
        obtain ⟨rest, hround, hrest⟩ := iteration_carried hread h
        have hnext := ih (fun m hm => hread m (by simp [hm])) hrest
        simp only [iterations, hround, roundsOf, ← hnext, bind, Option.bind]
        cases iterations getRootAsMessage j rest <;> rfl
      | [], hlen | [_], hlen | [_, _], hlen => exact absurd (by simp) hlen

end Reading

section Loops

variable {getRootAsMessage : Bytes → Option Value}

theorem iterations_add (i j : Nat) (stream : List Bytes) :
    iterations getRootAsMessage (i + j) stream = (iterations getRootAsMessage i stream).bind fun r =>
      (iterations getRootAsMessage j r.2).map fun r' => (r.1 ++ r'.1, r'.2) := by
  induction i generalizing stream with
  | zero => simp [iterations]
  | succ i ih =>
    rw [Nat.add_right_comm]
    simp only [iterations, ih, bind, Option.bind]
    cases iteration getRootAsMessage stream with
    | none => rfl
    | some r =>
      simp only
      cases iterations getRootAsMessage i r.2 with
      | none => rfl
      | some r' =>
        simp only [pure]
        cases iterations getRootAsMessage j r'.2 <;> rfl

theorem length_iterations {j : Nat} {stream : List Bytes} {r : List Round × List Bytes}
    (h : iterations getRootAsMessage j stream = some r) : r.1.length = j := by
  induction j generalizing stream r with
  | zero => cases h; rfl
  | succ j ih =>
    simp only [iterations, bind, Option.bind_eq_some_iff] at h
    obtain ⟨r₁, -, r₂, hr₂, h⟩ := h
    cases h
    rw [List.length_cons, ih hr₂]

/-- The measurements are a grouping of the rounds. -/
theorem mesures_flatten (nbIteration nbMesures : Nat) (stream : List Bytes) :
    (mesures getRootAsMessage nbIteration nbMesures stream).map (fun r => (r.1.flatten, r.2)) =
      iterations getRootAsMessage (nbMesures * nbIteration) stream := by
  induction nbMesures generalizing stream with
  | zero => rw [Nat.zero_mul]; rfl
  | succ i ih =>
    rw [Nat.succ_mul, Nat.add_comm (i * nbIteration), iterations_add]
    simp only [mesures, bind, Option.bind, ← ih]
    cases iterations getRootAsMessage nbIteration stream with
    | none => rfl
    | some r =>
      simp only
      cases mesures getRootAsMessage nbIteration i r.2 <;> rfl

theorem length_mesures {nbIteration nbMesures : Nat} {stream : List Bytes} {r : List (List Round) × List Bytes}
    (h : mesures getRootAsMessage nbIteration nbMesures stream = some r) :
    r.1.map List.length = List.replicate nbMesures nbIteration := by
  induction nbMesures generalizing stream r with
  | zero => cases h; rfl
  | succ i ih =>
    simp only [mesures, bind, Option.bind_eq_some_iff] at h
    obtain ⟨r₁, hr₁, r₂, hr₂, h⟩ := h
    cases h
    rw [List.map_cons, length_iterations hr₁, ih hr₂, List.replicate_succ]

/-- The measurement on a list of messages: the greeting, then the rounds. -/
theorem boucle_carried {bytes : Value → Bytes} {port : Nat} {ms : List ToUser} {stream : List Bytes}
    (hread : ∀ m ∈ .tcpSocketListening port :: ms, Readable getRootAsMessage bytes m)
    (h : Carries bytes (.tcpSocketListening port :: ms) stream) (nbMesures nbIteration : Nat) :
    ((boucleLaunchProcess getRootAsMessage nbMesures nbIteration stream).isSome = true ↔
        3 * (nbMesures * nbIteration) ≤ ms.length) ∧
      ∀ resPort rounds, boucleLaunchProcess getRootAsMessage nbMesures nbIteration stream = some (resPort, rounds) →
        resPort = .int port ∧ rounds.map List.length = List.replicate nbMesures nbIteration ∧
          roundsOf (nbMesures * nbIteration) ms = some rounds.flatten := by
  obtain ⟨hm, hread⟩ := List.forall_mem_cons.mp hread
  obtain ⟨rest, hgreeting, hrest⟩ := recvMessageOpen_carried hm h
  have hport := congrArg Seen.tcpSocketListening (see_message hm.nonempty hm.read)
  have hrounds := iterations_carried (nbMesures * nbIteration) hread hrest
  rw [← mesures_flatten, Option.map_map] at hrounds
  simp only [see] at hport
  constructor
  · rw [← roundsOf_isSome, ← hrounds, Option.isSome_map]
    simp only [boucleLaunchProcess, hgreeting, bind, Option.bind]
    cases mesures getRootAsMessage nbIteration nbMesures rest <;> rfl
  · intro resPort rounds hboucle
    simp only [boucleLaunchProcess, hgreeting, bind, Option.bind_some, Option.bind_eq_some_iff] at hboucle
    obtain ⟨r, hr, hboucle⟩ := hboucle
    cases hboucle
    rw [hr] at hrounds
    exact ⟨hport, length_mesures hr, hrounds.symm⟩

end Loops

/-! ## The Rust daemon -/

theorem mem_dropLast_cons {α : Type*} {x y : α} {xs : List α} (h : y ∈ xs.dropLast) : y ∈ (x :: xs).dropLast := by
  cases xs with
  | nil => cases h
  | cons z zs =>
    rw [List.dropLast_cons_cons]
    exact List.mem_cons_of_mem _ h

/-- Three messages for each request but the last, and no more for that: then the rounds are the answers to
the requests, in order. -/
theorem roundsOf_replies {α : Type*} (reply : α → List ToUser) (answer : α → Option Round) (k : Nat)
    {xs : List α} {ms : List ToUser} {rounds : List Round} (hms : ms <+: xs.flatMap reply)
    (hthree : ∀ x ∈ xs, 3 ≤ (reply x).length →
      ∃ m₁ m₂ m₃, reply x = [m₁, m₂, m₃] ∧ answer x = some (roundOf m₁ m₂ m₃))
    (hlast : ∀ x ∈ xs.dropLast, 3 ≤ (reply x).length) (h : roundsOf k ms = some rounds) :
    rounds.map some = (xs.take k).map answer := by
  induction k generalizing xs ms rounds with
  | zero => cases h; simp
  | succ k ih =>
    match ms, h with
    | m₁ :: m₂ :: m₃ :: ms, h =>
      obtain ⟨rounds, hrounds, rfl⟩ := Option.map_eq_some_iff.mp h
      obtain ⟨tail, htail⟩ := hms
      cases xs with
      | nil => cases htail
      | cons x xs =>
        rw [List.flatMap_cons] at htail
        have hlong : 3 ≤ (reply x).length := by
          cases xs with
          | nil =>
            have := congrArg List.length htail
            simp only [List.length_append, List.length_cons, List.flatMap_nil, List.length_nil] at this
            omega
          | cons y ys => exact hlast x (by simp)
        obtain ⟨a₁, a₂, a₃, hreply, hanswer⟩ := hthree x List.mem_cons_self hlong
        rw [hreply] at htail
        simp only [List.cons_append, List.nil_append, List.cons.injEq] at htail
        obtain ⟨rfl, rfl, rfl, htail⟩ := htail
        have hnext := ih ⟨tail, htail⟩ (fun y hy => hthree y (List.mem_cons_of_mem _ hy))
          (fun y hy => hlast y (mem_dropLast_cons hy)) hrounds
        rw [List.map_cons, hnext, List.take_succ_cons, List.map_cons, hanswer]

section RustDaemon

variable {getRootAsMessage rootAsMessage : Bytes → Option Value} {bytes : Value → Bytes} {port : Nat}
  {s : Rust.Server} {t : Rust.Connection} {cmd : Command}

/-- What an iteration gets for a child that has ended, or was not spawned. -/
def answer (daemonPid : Pid) (path : String) : Rust.Spawn → Round
  | .spawned pid wait => ⟨.int pid, .execveInfo pid path true,
      (rightView (toUser rustState (Rust.terminated pid wait))).processterminated⟩
  | .failed error =>
    if error = .os Rust.enoent then
      ⟨.int daemonPid, .execveInfo daemonPid path false, .processTerminatedInfo 0 1⟩
    else ⟨.int daemonPid, .none, .processTerminatedInfo 0 (error.rawOsError.getD 1)⟩

/-- The answer to the command, once its child has ended. -/
def answerTo (cmd : Command) (os : Rust.RequestOs) : Option Round :=
  match os.spawn (ProtoClient.commandLine cmd) with
  | .ends spawn => some (answer os.daemonPid cmd.path spawn)
  | .runs _ => none

theorem handleMessage_unwatched (hwatch : cmd.toWatch = []) {b : Bytes}
    (hread : rootAsMessage b = some (commandValue cmd)) (os : Rust.RequestOs) :
    Rust.handleMessage (fun b => (rootAsMessage b).map asMessage) os b =
      match os.spawn (ProtoClient.commandLine cmd) with
      | .ends spawn => Rust.handleRunCommand os.daemonPid cmd.path spawn []
      | .runs pid => ⟨[.processLaunched pid, .execveTerminated pid cmd.path true], .waits⟩ := by
  have hmsg : asMessage (commandValue cmd) = .runCommand (some ⟨some cmd.path, some cmd.args, some cmd.envp,
      cmd.flags, cmd.stackSize, some []⟩) := by
    have hasMessage : asMessage (commandValue cmd) = .runCommand (some (asRunCommand (runCommandValue cmd))) := rfl
    rw [hasMessage, asRunCommand_value, hwatch]
    rfl
  have hcommand : Rust.execCommand ⟨some cmd.path, some cmd.args, some cmd.envp, cmd.flags, cmd.stackSize,
      some []⟩ = some (ProtoClient.commandLine cmd) := rfl
  simp only [Rust.handleMessage, hread, Option.map_some, hmsg, Rust.handleRunCommandTable, hcommand]
  rfl

/-- Unless its child goes on running, a command is answered with three messages. -/
theorem handleRunCommand_round (daemonPid : Pid) (path : String) (spawn : Rust.Spawn) :
    ∃ m₁ m₂ m₃, (Rust.handleRunCommand daemonPid path spawn []).msgs.map (toUser rustState) = [m₁, m₂, m₃] ∧
      answer daemonPid path spawn = roundOf m₁ m₂ m₃ := by
  rw [Rust.handleRunCommand_msgs_of_returns rfl]
  cases spawn with
  | spawned pid wait => exact ⟨_, _, _, rfl, rfl⟩
  | failed error =>
    by_cases h : error = .os Rust.enoent
    · subst h
      exact ⟨_, _, _, rfl, rfl⟩
    · simp only [Rust.launch, answer, if_neg h]
      exact ⟨_, _, _, rfl, rfl⟩

theorem answered (hwatch : cmd.toWatch = []) {b : Bytes} (hread : rootAsMessage b = some (commandValue cmd))
    (os : Rust.RequestOs) :
    (3 ≤ (Rust.handleMessage (fun b => (rootAsMessage b).map asMessage) os b).msgs.length →
        ∃ m₁ m₂ m₃, (Rust.handleMessage (fun b => (rootAsMessage b).map asMessage) os b).msgs.map
          (toUser rustState) = [m₁, m₂, m₃] ∧ answerTo cmd os = some (roundOf m₁ m₂ m₃)) ∧
      ((Rust.handleMessage (fun b => (rootAsMessage b).map asMessage) os b).ending = .returns →
        3 ≤ (Rust.handleMessage (fun b => (rootAsMessage b).map asMessage) os b).msgs.length) := by
  rw [handleMessage_unwatched hwatch hread, answerTo]
  cases hspawn : os.spawn (ProtoClient.commandLine cmd) with
  | ends spawn =>
    obtain ⟨m₁, m₂, m₃, hmsgs, hanswer⟩ := handleRunCommand_round os.daemonPid cmd.path spawn
    refine ⟨fun _ => ⟨m₁, m₂, m₃, hmsgs, congrArg some hanswer⟩, fun _ => ?_⟩
    have hlen := congrArg List.length hmsgs
    rw [List.length_map] at hlen
    exact hlen.ge
  | runs pid => exact ⟨fun hlong => absurd hlong (by simp), fun hreturned => by cases hreturned⟩

/-- In every run of the Rust daemon in which the client has sent the command again and again, whole or cut
off, and the writes of its connection took whole frames, `boucle_launch_process` has come to its end exactly
when three messages for each round have been sent; and its rounds are then the answers to its commands, in
order, also where no child could be created. -/
theorem overhead_in_step (hcmd : cmd.WellFormed) (hwatch : cmd.toWatch = []) {requestBytes : Value → Bytes}
    (hrequest : Faithful verifyMessage requestBytes rootAsMessage (buildCommand cmd)) {info : BufferInfo}
    (hsend : sendCommandToDemon requestBytes cmd = some info) (hlen : info.buffer.length < 2 ^ 32)
    (hr : Lts.Reachable (Rust.serverStep (fun b => (rootAsMessage b).map asMessage) (ProtoClient.encode bytes) port)
      .init s)
    (ht : t ∈ s.tasks) {n : Nat} (harrived : t.arrived <+: frames (List.replicate n info.buffer))
    (hwhole : ∀ c ∈ t.sent, c.2 = (frame (ProtoClient.encode bytes c.1)).length)
    (hread : ∀ m ∈ t.messages, ProtoClient.Readable getRootAsMessage bytes m ∧
      (ProtoClient.encode bytes m).length < 2 ^ 31)
    {stream : List Bytes} (hne : ∀ c ∈ stream, c ≠ []) (hstream : stream.flatten = t.peer)
    (huncut : FramesUncut stream 0 (t.messages.map (ProtoClient.encode bytes))) (nbMesures nbIteration : Nat) :
    ((boucleLaunchProcess getRootAsMessage nbMesures nbIteration stream).isSome = true ↔
        3 * (nbMesures * nbIteration) < t.messages.length) ∧
      ∀ resPort rounds, boucleLaunchProcess getRootAsMessage nbMesures nbIteration stream = some (resPort, rounds) →
        resPort = .int port ∧ rounds.map List.length = List.replicate nbMesures nbIteration ∧
          rounds.flatten.map some = (t.handled.take (nbMesures * nbIteration)).map fun x => answerTo cmd x.2 := by
  obtain ⟨b, hfinish, -, hroot⟩ := finish_of_faithful hrequest (buildCommand_builds hcmd)
    (verifyMessage_messageValue (verifyRunCommand_value hcmd))
  have hinfo : info = ⟨b, b.length⟩ := Option.some.inj (hsend.symm.trans hfinish)
  rw [hinfo] at hlen harrived
  have hinv := Rust.connectionInv_of_reachable hr ht
  obtain ⟨tail, htail⟩ := hinv.arrived_eq
  rw [htail] at harrived
  -- every payload that was handed on is the one of the command
  have hpassed : ∀ x ∈ t.handled, x.1 = b := by
    intro x hx
    have hbegin := frames_prefix hinv.sizes (fun q hq => by rw [List.eq_of_mem_replicate hq]; exact hlen) harrived
    exact List.eq_of_mem_replicate (hbegin.subset (List.mem_map_of_mem hx))
  obtain ⟨hreadable, hcarries⟩ := carries_peer hr ht hwhole hread hne hstream huncut
  obtain ⟨⟨unsent, hunsent⟩, -⟩ := Rust.messages_prefix hinv
  let reply (x : Bytes × Rust.RequestOs) : List ToUser :=
    (Rust.handleMessage (fun b => (rootAsMessage b).map asMessage) x.2 x.1).msgs.map (toUser rustState)
  have hthree : ∀ x ∈ t.handled, 3 ≤ (reply x).length →
      ∃ m₁ m₂ m₃, reply x = [m₁, m₂, m₃] ∧ answerTo cmd x.2 = some (roundOf m₁ m₂ m₃) := by
    intro x hx hlong
    rw [List.length_map] at hlong
    exact (answered hwatch (by rw [hpassed x hx]; exact hroot) x.2).1 hlong
  have hlast : ∀ x ∈ t.handled.dropLast, 3 ≤ (reply x).length := by
    intro x hx
    rw [List.length_map]
    exact (answered hwatch (by rw [hpassed x (List.mem_of_mem_dropLast hx)]; exact hroot) x.2).2 (hinv.returned x hx)
  cases hmsgs : t.messages with
  | nil =>
    rw [hmsgs] at hcarries
    have hnone : boucleLaunchProcess getRootAsMessage nbMesures nbIteration stream = none := by
      rw [boucleLaunchProcess, recvMessageOpen_nothing hcarries]
      rfl
    rw [hnone]
    simp
  | cons m ms =>
    rw [hmsgs, List.cons_append, Rust.conversation, List.cons.injEq] at hunsent
    obtain ⟨rfl, hunsent⟩ := hunsent
    rw [hmsgs] at hcarries hreadable
    obtain ⟨hsome, hrounds⟩ := boucle_carried hreadable hcarries nbMesures nbIteration
    refine ⟨?_, fun resPort rounds hboucle => ?_⟩
    · rw [hsome, List.length_map, List.length_cons, Nat.lt_succ_iff]
    · obtain ⟨hport, hlengths, hof⟩ := hrounds resPort rounds hboucle
      have hms : ms.map (toUser rustState) <+: t.handled.flatMap reply := by
        refine ⟨unsent.map (toUser rustState), ?_⟩
        rw [← List.map_append, hunsent, List.map_flatMap]
      exact ⟨hport, hlengths, roundsOf_replies reply (fun x => answerTo cmd x.2) _ hms hthree hlast hof⟩

end RustDaemon

/-- The program that is not found, and its request as the Python package lays it out. -/
def lostCommand : Command := ⟨"A", [], [], 0, 0, []⟩

def lostRequest : Bytes :=
  [12, 0, 0, 0, 8, 0, 12, 0, 11, 0, 4, 0, 8, 0, 0, 0, 24, 0, 0, 0, 0, 0, 0, 1, 16, 0, 20, 0, 16, 0, 12, 0,
   8, 0, 0, 0, 0, 0, 4, 0, 16, 0, 0, 0, 16, 0, 0, 0, 16, 0, 0, 0, 16, 0, 0, 0, 16, 0, 0, 0, 0, 0, 0, 0,
   0, 0, 0, 0, 0, 0, 0, 0, 1, 0, 0, 0, 65, 0, 0, 0]

def readRequest (b : Bytes) : Option Value := if b = lostRequest then some (commandValue lostCommand) else none

def lostOs : Rust.RequestOs :=
  { Rust.RequestOs.quiet with
    daemonPid := 500
    spawn := fun _ => .ends (.failed (.os 2)) }

/-- One round of the client, from the `sendall` to the last `write` of the daemon. -/
def asksOnce : List Rust.ServerLabel :=
  [.task 0 (.arrives (frame lostRequest)), .task 0 .read, .task 0 .sized, .task 0 .read, .task 0 (.handle lostOs),
   .task 0 (.send 44), .task 0 (.send 56), .task 0 (.send 44), .task 0 .next]

def lostRound : Round := ⟨.int 500, .execveInfo 500 "A" false, .processTerminatedInfo 0 1⟩

theorem lostCommand_wellFormed : lostCommand.WellFormed where
  path := by simp [NulFree, lostCommand]
  args := by simp [lostCommand]
  envp := by simp [lostCommand]
  flags := by decide
  stackSize := by decide
  toWatch := by simp [lostCommand]

theorem lost_encoded {m : Msg} (hm : m ∈ .tcpSocketListening 8080 :: (lostRust ++ lostRust)) :
    ProtoClient.Readable lostRoot lostBytes m ∧ (ProtoClient.encode lostBytes m).length < 2 ^ 31 := by
  simp only [List.mem_cons, List.mem_append, or_self, lostRust, List.not_mem_nil, or_false] at hm
  rcases hm with rfl | rfl | rfl | rfl
  · exact ⟨ProtoClient.readable_of_read rfl rfl (List.cons_ne_nil _ _) rfl (by decide), by decide +kernel⟩
  · exact ⟨ProtoClient.readable_of_read rfl rfl (List.cons_ne_nil _ _) rfl (by decide), by decide +kernel⟩
  · exact ⟨ProtoClient.readable_of_read rfl ⟨rfl, by simp [NulFree]⟩ (List.cons_ne_nil _ _) rfl (by decide),
      by decide +kernel⟩
  · exact ⟨ProtoClient.readable_of_read rfl ⟨rfl, rfl⟩ (List.cons_ne_nil _ _) rfl (by decide), by decide +kernel⟩

theorem lost_rounds_in_step :
    ∃ (s : Rust.Server) (t : Rust.Connection) (stream : List Bytes) (rounds : List (List Round)),
      Lts.Reachable (Rust.serverStep (fun b => (readRequest b).map asMessage) (ProtoClient.encode lostBytes) 8080)
        .init s ∧
      t ∈ s.tasks ∧ stream.flatten = t.peer ∧
      boucleLaunchProcess lostRoot 1 2 stream = some (.int 8080, rounds) ∧ rounds.flatten = [lostRound, lostRound] := by
  obtain ⟨s, hs, hp⟩ := Lts.exists_of_run_map
    (p := fun s => s.tasks.head?.any fun t =>
      t.messages == .tcpSocketListening 8080 :: (lostRust ++ lostRust) &&
        t.arrived == frames (List.replicate 2 lostRequest) &&
        (t.sent.all fun c => c.2 == (frame (ProtoClient.encode lostBytes c.1)).length) &&
        (t.handled.take 2).map (fun x => answerTo lostCommand x.2) == [some lostRound, some lostRound])
    (show (Lts.run (Rust.serverStep (fun b => (readRequest b).map asMessage) (ProtoClient.encode lostBytes) 8080)
      .init (.accept 44 :: (asksOnce ++ asksOnce))).map _ = some true by decide +kernel)
  obtain ⟨t, ht, hp⟩ := (Option.any_eq_true _ _).mp hp
  simp only [Bool.and_eq_true, beq_iff_eq] at hp
  obtain ⟨⟨⟨hmsgs, harrived⟩, hsent⟩, hanswers⟩ := hp
  have hr := Lts.reachable_of_run hs
  have ht := List.mem_of_mem_head? ht
  have hbuilds := buildCommand_builds lostCommand_wellFormed
  have hfaithful : Faithful verifyMessage (fun _ => lostRequest) readRequest (buildCommand lostCommand) :=
    faithful_of_builds hbuilds (by simp [lostRequest]) (if_pos rfl)
  have hsend : sendCommandToDemon (fun _ => lostRequest) lostCommand = some ⟨lostRequest, lostRequest.length⟩ := by
    rw [sendCommandToDemon, finish, hbuilds.root_eq]
    rfl
  have hwhole : ∀ c ∈ t.sent, c.2 = (frame (ProtoClient.encode lostBytes c.1)).length := by
    simpa using hsent
  have hread : ∀ m ∈ t.messages, ProtoClient.Readable lostRoot lostBytes m ∧
      (ProtoClient.encode lostBytes m).length < 2 ^ 31 := by
    rw [hmsgs]
    exact fun _ hm => lost_encoded hm
  have hne : ∀ c ∈ (t.messages.map (ProtoClient.encode lostBytes)).map frame, c ≠ [] := by
    intro c hc
    obtain ⟨p, -, rfl⟩ := List.mem_map.mp hc
    exact List.append_ne_nil_of_left_ne_nil (List.cons_ne_nil _ _) p
  have hstream : ((t.messages.map (ProtoClient.encode lostBytes)).map frame).flatten = t.peer :=
    (ProtoClient.peer_of_whole (Rust.connectionInv_of_reachable hr ht) hwhole).symm
  have hstep := overhead_in_step lostCommand_wellFormed rfl hfaithful hsend (by decide +kernel) hr ht
    ⟨[], by rw [List.append_nil, harrived]⟩ hwhole hread hne hstream (framesUncut_frames _) 1 2
  have hlong : 3 * (1 * 2) < t.messages.length := by
    rw [hmsgs]
    decide
  obtain ⟨⟨resPort, rounds⟩, hboucle⟩ := Option.isSome_iff_exists.mp (hstep.1.mpr hlong)
  obtain ⟨hport, -, hrounds⟩ := hstep.2 resPort rounds hboucle
  rw [hport] at hboucle
  rw [hanswers] at hrounds
  exact ⟨s, t, _, rounds, hr, ht, hstream, hboucle, List.map_injective_iff.mpr (Option.some_injective _) hrounds⟩

/-! ## The C daemon -/

section CDaemon

variable {getRootAsMessage : Bytes → Option Value} {bytes : Value → Bytes} {s : State}

/-- What an iteration gets for a child that is gone. -/
def answerOf (c : Child) : Option Round :=
  match c.life with
  | .reaped status => some ⟨.int c.pid, .execveInfo c.pid c.path (c.phase = .execd),
      .processTerminatedInfo c.pid status.exitStatus⟩
  | _ => none

theorem log_round {heap : Nat → ProcessInfo} {nfds port : Nat} {sock : Fd}
    (hr : Lts.Reach step Clean (.init heap nfds sock port) s) {k : Nat} {c : Child} (hc : s.children[k]? = some c)
    (hgone : c.unreaped = false) :
    ∃ m₁ m₂ m₃, (s.log k).map (toUser cState) = [m₁, m₂, m₃] ∧ answerOf c = some (roundOf m₁ m₂ m₃) := by
  cases hlife : c.life with
  | reaped status =>
    obtain ⟨success, hlog, hphase⟩ := log_of_reaped hr hc hlife
    have hsuccess : success = decide (c.phase = .execd) := by
      cases success with
      | true =>
        have hexecd : c.phase = .execd := hphase
        simp [hexecd]
      | false =>
        have hfailed : c.phase.failed = true := by simpa using hphase
        cases hp : c.phase <;> simp_all [Phase.failed]
    rw [hlog, answerOf, hlife, ← hsuccess]
    exact ⟨_, _, _, rfl, rfl⟩
  | _ => simp [Child.unreaped, hlife] at hgone

theorem length_log_lt {heap : Nat → ProcessInfo} {nfds port : Nat} {sock : Fd}
    (hr : Lts.Reach step Clean (.init heap nfds sock port) s) {k : Nat} {c : Child} (hc : s.children[k]? = some c)
    (hthere : c.unreaped = true) : (s.log k).length < 3 := by
  have hterm := (termInv_of_reach (hr.mono fun _ _ hg => hg.1)).unreported k c hc hthere
  obtain ⟨-, hlogs⟩ := launchInv_of_reach (hr.mono fun _ _ hg => hg.2.1.kept)
  by_cases hin : s.InProgress k
  · obtain ⟨l, hmode, rfl⟩ := hin
    rw [hlogs.launching l hmode]
    decide
  · obtain ⟨rest, hlog, hrest⟩ := hlogs.shape k c hc hin
    have honce := hlogs.execves_le_one hc hin
    rw [State.terminations, hlog, List.filter_cons_of_neg (by simp [Msg.isProcessTerminated]),
      List.filter_eq_nil_iff] at hterm
    have hall : rest.filter Msg.isExecveTerminated = rest := by
      rw [List.filter_eq_self]
      intro m hm
      rcases hrest m hm with ⟨success, rfl⟩ | ht
      · rfl
      · exact absurd ht (hterm m hm)
    rw [State.execves, hlog, List.filter_cons_of_neg (by simp [Msg.isExecveTerminated]), hall] at honce
    rw [hlog, List.length_cons]
    omega

/-- In every run of the C daemon in which the reports are in order and the commands are taken up one at a
time, `boucle_launch_process` has come to its end exactly when three messages for each round have been sent
about launches; and its rounds are then what there is to say about the children, in the order of their
launches. -/
theorem overhead_in_turn {heap : Nat → ProcessInfo} {nfds port : Nat} {sock : Fd}
    (hr : Lts.Reach step (fun s l => Clean s l ∧ OneAtATime s l) (.init heap nfds sock port) s)
    (hread : ∀ m ∈ told cState port s.launchLog, Readable getRootAsMessage bytes m) {stream : List Bytes}
    (hstream : Carries bytes (told cState port s.launchLog) stream) (nbMesures nbIteration : Nat) :
    ((boucleLaunchProcess getRootAsMessage nbMesures nbIteration stream).isSome = true ↔
        3 * (nbMesures * nbIteration) ≤ s.launchLog.length) ∧
      ∀ resPort rounds, boucleLaunchProcess getRootAsMessage nbMesures nbIteration stream = some (resPort, rounds) →
        resPort = .int port ∧ rounds.map List.length = List.replicate nbMesures nbIteration ∧
          rounds.flatten.map some = (s.children.take (nbMesures * nbIteration)).map answerOf := by
  have hclean : Lts.Reach step Clean (.init heap nfds sock port) s := hr.mono fun _ _ hg => hg.1
  obtain ⟨hlog, hdone⟩ := turnInv_of_reach hr
  obtain ⟨hsome, hrounds⟩ := boucle_carried hread hstream nbMesures nbIteration
  refine ⟨by rw [hsome, List.length_map], fun resPort rounds hboucle => ?_⟩
  obtain ⟨hport, hlengths, hof⟩ := hrounds resPort rounds hboucle
  have hchild : ∀ k ∈ List.range s.children.length, ∃ c, s.children[k]? = some c := fun k hk =>
    ⟨_, List.getElem?_eq_getElem (List.mem_range.mp hk)⟩
  have hms : s.launchLog.map (toUser cState) <+:
      (List.range s.children.length).flatMap fun k => (s.log k).map (toUser cState) := by
    rw [hlog, List.map_flatMap]
  have hthree : ∀ k ∈ List.range s.children.length, 3 ≤ ((s.log k).map (toUser cState)).length →
      ∃ m₁ m₂ m₃, (s.log k).map (toUser cState) = [m₁, m₂, m₃] ∧
        s.children[k]?.bind answerOf = some (roundOf m₁ m₂ m₃) := by
    intro k hk hlong
    obtain ⟨c, hc⟩ := hchild k hk
    rw [hc, Option.bind_some]
    rw [List.length_map] at hlong
    refine log_round hclean hc ?_
    by_contra hthere
    have hshort := length_log_lt hclean hc (by simpa using hthere)
    omega
  have hlast : ∀ k ∈ (List.range s.children.length).dropLast, 3 ≤ ((s.log k).map (toUser cState)).length := by
    intro k hk
    obtain ⟨c, hc⟩ := hchild k (List.mem_of_mem_dropLast hk)
    have hbefore : k + 1 < s.children.length := by
      cases hn : s.children.length with
      | zero => simp [hn] at hk
      | succ n =>
        rw [hn, List.range_succ, List.dropLast_concat, List.mem_range] at hk
        omega
    have hgone : c.unreaped = false := by
      by_contra hthere
      exact hdone k hbefore ((termInv_of_reach (hclean.mono fun _ _ hg => hg.1)).unreported k c hc
        (by simpa using hthere))
    obtain ⟨m₁, m₂, m₃, hmap, -⟩ := log_round hclean hc hgone
    rw [hmap]
    exact Nat.le_refl 3
  have hanswers := roundsOf_replies _ (fun k => s.children[k]?.bind answerOf) _ hms hthree hlast hof
  have hchildren : (List.range s.children.length).map (fun k => s.children[k]?.bind answerOf) =
      s.children.map answerOf := by
    refine List.ext_getElem (by simp) fun k hk _ => ?_
    rw [List.length_map, List.length_range] at hk
    simp [List.getElem?_eq_getElem hk]
  refine ⟨hport, hlengths, hanswers.trans ?_⟩
  rw [List.map_take, hchildren, List.map_take]

end CDaemon

/-- Launch `k` of the program that is not found, from the request to the last message. -/
def losesOne (k : Nat) : List Label :=
  launches "A" 9 (10, 11) 20 ++ [.child k (.execveFails 2), .child k (.write 22), .epollWait [.execve ⟨10, 20, "A", k⟩],
    .execve false, .child k (.exit (.exited 22))] ++ handlesSignal

theorem lost_rounds_in_turn :
    ∃ (s : State) (rounds : List (List Round)),
      Lts.Reach step (fun s l => Clean s l ∧ OneAtATime s l) .start s ∧
      boucleLaunchProcess lostRoot 2 1 ((payloads lostBytes (told cState 8080 s.launchLog)).map frame) =
        some (.int 8080, rounds) ∧
      rounds.flatten.map some = s.children.map answerOf ∧ s.children.length = 2 := by
  obtain ⟨s, hs, hp⟩ := Lts.exists_of_run_map
    (p := fun s : State => s.launchLog == lostC ++ lostC && s.children.length == 2)
    (show (Lts.run (Lts.guarded (fun s l => Clean s l ∧ OneAtATime s l) step) .start
      (connects ++ losesOne 0 ++ losesOne 1)).map _ = some true by decide +kernel)
  rw [Bool.and_eq_true, beq_iff_eq, beq_iff_eq] at hp
  obtain ⟨hlog, hlen⟩ := hp
  have hr := Lts.reach_of_run hs
  have hread : ∀ m ∈ told cState 8080 s.launchLog, Readable lostRoot lostBytes m := by
    intro m hm
    refine lost_readable (List.mem_append_left _ ?_)
    rw [hlog] at hm
    simp only [told, List.map_cons, List.map_append, List.mem_cons, List.mem_append, or_self] at hm ⊢
    exact hm
  have hturn := overhead_in_turn hr hread (carries_frames lostBytes _) 2 1
  have hlong : 3 * (2 * 1) ≤ s.launchLog.length := by
    rw [hlog]
    decide
  obtain ⟨⟨resPort, rounds⟩, hboucle⟩ := Option.isSome_iff_exists.mp (hturn.1.mpr hlong)
  obtain ⟨hport, -, hrounds⟩ := hturn.2 resPort rounds hboucle
  rw [hport] at hboucle
  rw [List.take_of_length_le (by omega)] at hrounds
  exact ⟨s, rounds, hr, hboucle, hrounds, hlen⟩

end ProcCtrld.Python
