import ProcCtrld.PythonTests

/-!
# ProcCtrld.RegressionTest

The C client (`test/Regression_test.c`) of the C daemon. It reads the greeting, sends one command and reads
two messages: the `ProcessLaunched` and, as it takes it, the `ProcessTerminated`. Then it repeats this a
hundred times.

The daemon sends an `ExecveTerminated` as well, and so the test does not come to its end:

* `regression_test_stops` — where the reports of a launch are in order, it reads through a null pointer in
  its third test; in any other run the benchmark gives up in its first round.
-/

namespace ProcCtrld.RegressionTest

open FlatBuffers

/-! ## The client -/

/-- Where the test stops inside of a function. -/
inductive Stop where
  | waits
  | exits
  /-- The message is larger than the array for it. -/
  | overruns
  | faults (fault : Fault)
  | asserts (test : Nat)
deriving DecidableEq, Repr

def faulting {α : Type} : Except Fault α → Except Stop α
  | .ok a => .ok a
  | .error fault => .error (.faults fault)

def htons (port : Nat) : Nat := port % 256 * 256 + port / 256 % 256

section Client

-- `eof`: the daemon has closed its side; `uninit`: what is in `size` before the `read`
variable (verify : Bytes → Int → Option Value) (eof : Bool) (uninit : Nat)

/-- `read(sock, &size, sizeof(int))` and `recv(sock, buf, size, MSG_WAITALL)`. -/
def receiveMessage (room : Nat) (stream : List Bytes) : Except Stop (BufferInfo × List Bytes) :=
  let sizeBytes := Chunks.read 4 stream
  if sizeBytes.1.isEmpty && !eof then throw .waits
  else
    let size := intOfBytes (sizeBytes.1 ++ (intBytes uninit).drop sizeBytes.1.length)
    if 0 ≤ size ∧ size ≤ room then
      match Chunks.readExact size.toNat sizeBytes.2 with
      | some r => return (⟨r.1, size⟩, r.2)
      | none => throw (if eof then .exits else .waits)
    else throw .overruns

def tryConnectingToDaemon (sinPort : Nat) (stream : List Bytes) : Except Stop (Int × List Bytes) := do
  let (info, stream) ← receiveMessage eof uninit 512 stream
  let port ← faulting (receiveTCPSocketListening verify (some info.buffer) info.size)
  return (if htons port = sinPort then 0 else -1, stream)

/-- `sent`: the `send` of the command has taken all of it. -/
def tryLaunchingProcess (sent : Bool) (stream : List Bytes) : Except Stop (Int × List Bytes) := do
  if !sent then return (-1, stream)
  let (info, stream) ← receiveMessage eof uninit 128 stream
  let pid ← faulting (receiveProcesslaunched verify (some info.buffer) info.size)
  return (if pid < 0 then -1 else 0, stream)

def receivingProcessTerminated (stream : List Bytes) : Except Stop (Int × List Bytes) := do
  let (info, stream) ← receiveMessage eof uninit 128 stream
  let info ← faulting (receiveProcessterminated verify (some info.buffer) info.size)
  -- the `printf` of `info->pid`
  let _ ← faulting (deref info)
  return (0, stream)

/-- The loop of `benchmark`, a `send` for each round. -/
def benchmark : List Bool → List Bytes → Except Stop (Int × List Bytes)
  | [], stream => return (0, stream)
  | sent :: sends, stream => do
    if !sent then return (-1, stream)
    let (info, stream) ← receiveMessage eof uninit 128 stream
    let pid ← faulting (receiveProcesslaunched verify (some info.buffer) info.size)
    if pid < 0 then return (-1, stream)
    let (info, stream) ← receiveMessage eof uninit 128 stream
    -- the result is not looked at
    let _ ← faulting (receiveProcessterminated verify (some info.buffer) info.size)
    benchmark sends stream

/-- `main` from the connected socket to the return of `benchmark`, with its value. -/
def main (argPort : Nat) (sends : Nat → Bool) (stream : List Bytes) : Except Stop Int := do
  let (res, stream) ← tryConnectingToDaemon verify eof uninit (htons argPort) stream
  if res ≠ 0 then throw (.asserts 1)
  let (res, stream) ← tryLaunchingProcess verify eof uninit (sends 0) stream
  if res ≠ 0 then throw (.asserts 2)
  let (res, stream) ← receivingProcessTerminated verify eof uninit stream
  if res ≠ 0 then throw (.asserts 3)
  let (res, _) ← benchmark verify eof uninit ((List.range 100).map fun i => sends (i + 1)) stream
  return res

end Client

/-! ## Reading the messages of the daemon -/

/-- The daemon stores the message in a buffer that fits into the array of the test. -/
structure Fits (verify : Bytes → Int → Option Value) (bytes : Value → Bytes) (m : ToUser) : Prop where
  wellFormed : m.WellFormed
  returned : Returned verify bytes m.calls
  room : (bytes m.value).length ≤ 128

/-- No cut falls inside a header. -/
def HeadersUncut (stream : List Bytes) : Nat → List Bytes → Prop
  | _, [] => True
  | a, p :: ps => Chunks.Uncut stream a 4 ∧ HeadersUncut stream (a + 4 + p.length) ps

/-- The stream holds the frames of the messages. -/
structure Carried (bytes : Value → Bytes) (ms : List ToUser) (stream : List Bytes) : Prop where
  chunks : ∀ c ∈ stream, c ≠ []
  flat : stream.flatten = frames (Python.payloads bytes ms)
  uncut : HeadersUncut stream 0 (Python.payloads bytes ms)

theorem headersUncut_shift {sock sock' : List Bytes} {n : Nat}
    (h : ∀ a m, Chunks.Uncut sock' a m ↔ Chunks.Uncut sock (a + n) m) (ps : List Bytes) :
    ∀ a, HeadersUncut sock' a ps ↔ HeadersUncut sock (a + n) ps := by
  induction ps with
  | nil => intro a; rfl
  | cons p ps ih =>
    intro a
    simp only [HeadersUncut, h, ih]
    rw [show a + 4 + p.length + n = a + n + 4 + p.length by omega]

section Reading

variable {verify : Bytes → Int → Option Value} {bytes : Value → Bytes} (eof : Bool) (uninit : Nat) {m : ToUser}
  {ms : List ToUser} {stream : List Bytes}

theorem receiveMessage_carried (hm : Fits verify bytes m) {room : Nat} (hroom : 128 ≤ room)
    (h : Carried bytes (m :: ms) stream) :
    ∃ info rest, receiveMessage eof uninit room stream = .ok (info, rest) ∧
      DecodedAs verify (some info.buffer) info.size m ∧ Carried bytes ms rest := by
  obtain ⟨hne, hflat, h0, huncut⟩ := h
  obtain ⟨hwell, hreturned, hlen⟩ := hm
  have hbuilds := ToUser.calls_builds hwell.inRange
  obtain ⟨hnonempty, hread⟩ := hreturned m.value hbuilds.root_eq
    (verifyMessage_messageValue (ToUser.verify_fields hwell.inRange))
  have hsplit : stream.flatten = frame (bytes m.value) ++ frames (Python.payloads bytes ms) := hflat
  have htotal : stream.flatten.length = 4 + (bytes m.value).length + (frames (Python.payloads bytes ms)).length := by
    rw [hsplit, List.length_append, length_frame]
  have h4 : (Chunks.read 4 stream).1.length = 4 := (Chunks.length_read_eq_iff hne (by omega)).mpr h0
  obtain ⟨hsize, hrest, -⟩ := read_header (by omega) hne hsplit h4
  have hempty : (Chunks.read 4 stream).1.isEmpty = false := by
    rw [List.isEmpty_eq_false_iff, ← List.length_pos_iff_ne_nil]
    omega
  have hthere : (bytes m.value).length ≤ (Chunks.read 4 stream).2.flatten.length := by
    rw [hrest, List.length_append]
    omega
  obtain ⟨rest, hexact, hleft⟩ := Chunks.readExact_eq_some hthere
  rw [hrest, List.take_left] at hexact
  rw [hrest, List.drop_left] at hleft
  obtain ⟨hne', hshift⟩ := Chunks.readExact_rest hexact
  refine ⟨⟨bytes m.value, (bytes m.value).length⟩, rest, ?_, ?_, ?_⟩
  · have hfull : (Chunks.read 4 stream).1 ++ (intBytes uninit).drop 4 = (Chunks.read 4 stream).1 :=
      List.append_nil _
    have hfits : 0 ≤ ((bytes m.value).length : Int) ∧ ((bytes m.value).length : Int) ≤ room := by omega
    simp only [receiveMessage, hempty, h4, Bool.false_and, Bool.false_eq_true, if_false, hfull, hsize, hfits,
      and_self, if_true, Int.toNat_natCast, hexact]
    rfl
  · refine ToUser.decoded hwell ?_
    rw [getRoot, if_neg (not_le.mpr (size_pos hnonempty))]
    exact hread
  · refine ⟨hne' (Chunks.read_ne_nil hne), hleft, ?_⟩
    have hall : ∀ a n, Chunks.Uncut rest a n ↔ Chunks.Uncut stream (a + (4 + (bytes m.value).length)) n := by
      intro a n
      rw [hshift, Chunks.uncut_read h4, Nat.add_assoc, Nat.add_comm 4]
    rw [headersUncut_shift hall, ← Nat.add_assoc]
    exact huncut

theorem receiveMessage_nothing (h : Carried bytes [] stream) (room : Nat) :
    receiveMessage false uninit room stream = .error .waits := by
  have hnil : stream = [] := by
    cases stream with
    | nil => rfl
    | cons c cs =>
      have hflat : c ++ cs.flatten = [] := h.flat
      exact absurd (List.append_eq_nil_iff.mp hflat).1 (h.chunks c List.mem_cons_self)
  rw [hnil]
  rfl

theorem tryConnectingToDaemon_carried {port : Nat} (hm : Fits verify bytes (.tcpSocketListening port))
    (h : Carried bytes (.tcpSocketListening port :: ms) stream) :
    ∃ rest, tryConnectingToDaemon verify eof uninit (htons port) stream = .ok (0, rest) ∧
      Carried bytes ms rest := by
  obtain ⟨info, rest, hrecv, hdec, hrest⟩ :=
    receiveMessage_carried eof uninit hm (show 128 ≤ 512 by decide) h
  refine ⟨rest, ?_, hrest⟩
  simp [tryConnectingToDaemon, hrecv, hdec.tcpsocketlistening, ToUser.tcpsocketlistening, faulting, bind,
    Except.bind, pure, Except.pure]

theorem tryLaunchingProcess_carried {pid : Pid} (hpid : 0 < pid) (hm : Fits verify bytes (.processLaunched pid))
    (h : Carried bytes (.processLaunched pid :: ms) stream) :
    ∃ rest, tryLaunchingProcess verify eof uninit true stream = .ok (0, rest) ∧ Carried bytes ms rest := by
  obtain ⟨info, rest, hrecv, hdec, hrest⟩ :=
    receiveMessage_carried eof uninit hm (Nat.le_refl 128) h
  have hneg : ¬ pid < 0 := Int.not_lt.mpr (Int.le_of_lt hpid)
  refine ⟨rest, ?_, hrest⟩
  simp [tryLaunchingProcess, hrecv, hdec.processlaunched, ToUser.processlaunched, hneg, faulting, bind,
    Except.bind, pure, Except.pure]

/-- The third test is passed by a `ProcessTerminated`; at any other message it reads through `NULL`. -/
theorem receivingProcessTerminated_carried (hm : Fits verify bytes m) (h : Carried bytes (m :: ms) stream) :
    ∃ rest, Carried bytes ms rest ∧ receivingProcessTerminated verify eof uninit stream =
      if m.processterminated.isSome then .ok (0, rest) else .error (.faults .nullDeref) := by
  obtain ⟨info, rest, hrecv, hdec, hrest⟩ :=
    receiveMessage_carried eof uninit hm (Nat.le_refl 128) h
  refine ⟨rest, hrest, ?_⟩
  cases hterm : m.processterminated <;>
    simp [receivingProcessTerminated, hrecv, hdec.processterminated, hterm, faulting, deref, bind, Except.bind,
      pure, Except.pure]

theorem benchmark_late (hfits : ∀ m ∈ ms.head?, Fits verify bytes m ∧ m.processlaunched < 0)
    (h : Carried bytes ms stream) (sent : Bool) (sends : List Bool) :
    (benchmark verify false uninit (sent :: sends) stream).map (·.1) =
      if sent && ms.isEmpty then .error .waits else .ok (-1) := by
  cases sent with
  | false => rfl
  | true =>
    cases ms with
    | nil =>
      simp only [benchmark, receiveMessage_nothing uninit h]
      rfl
    | cons m ms =>
      obtain ⟨hm, hneg⟩ := hfits m rfl
      obtain ⟨info, rest, hrecv, hdec, -⟩ :=
        receiveMessage_carried false uninit hm (Nat.le_refl 128) h
      simp only [benchmark, hrecv, hdec.processlaunched, faulting, bind, Except.bind, Bool.not_true,
        Bool.false_eq_true, if_false, if_pos hneg]
      rfl

end Reading

/-! ## The test and the daemon -/

section Daemon

variable {s : State} {verify : Bytes → Int → Option Value} {bytes : Value → Bytes}

/-- No registered pipe is closed, and the test is the only client. -/
def OneTest (s : State) (l : Label) : Prop := PipesKept s l ∧ OneClient s l

instance (s : State) (l : Label) : Decidable (OneTest s l) :=
  inferInstanceAs (Decidable (PipesKept s l ∧ OneClient s l))

/-- The messages about a launch of which the client has been told. -/
theorem client_shape {heap : Nat → ProcessInfo} {nfds port : Nat} {garbageSock sock : Fd} {k : Nat} {c : Child}
    (hr : Lts.Reach step OneTest (.init heap nfds garbageSock port) s) (hc : s.children[k]? = some c)
    (hsock : ⟨sock, .processLaunched c.pid, some k⟩ ∈ s.sent) :
    s.client sock k = s.log k ∧ LogShape c.pid c.path (s.log k) := by
  have hlaunch := launchInv_of_reach (hr.mono fun _ _ hg => hg.1)
  have hclient : ClientInv s :=
    hr.invariant (clientInv_init heap nfds garbageSock port) fun _ _ _ hr h hg hs =>
      clientInv_step h (launchInv_of_reach (hr.mono fun _ _ hg => hg.1)).pipes hg.2 (step_effect hs)
  have hmem : Msg.processLaunched c.pid ∈ s.log k :=
    List.mem_map.mpr ⟨_, List.mem_filter.mpr ⟨hsock, by simp⟩, rfl⟩
  refine ⟨hclient.client_eq hsock, hlaunch.logs.shape k c hc ?_⟩
  rintro ⟨l, hmode, rfl⟩
  rw [hlaunch.logs.launching l hmode] at hmem
  cases hmem

theorem ordered_of_execve {pid pid' : Pid} {path : String} {success : Bool} (rest : List Msg) :
    Ordered (.processLaunched pid :: .execveTerminated pid' path success :: rest) := by
  intro pre m post heq hterm
  match pre, heq with
  | [], heq =>
    cases heq
    cases hterm
  | [_], heq =>
    cases heq
    cases hterm
  | m₁ :: m₂ :: pre, heq =>
    cases heq
    exact ⟨.execveTerminated pid' path success, by simp, rfl⟩

theorem not_ordered_of_terminated {pid : Pid} {m : Msg} (hm : m.isProcessTerminated = true) (rest : List Msg) :
    ¬ Ordered (.processLaunched pid :: m :: rest) := by
  intro h
  obtain ⟨m', hmem, hexecve⟩ := h [.processLaunched pid] m rest rfl hm
  rw [List.mem_singleton.mp hmem] at hexecve
  cases hexecve

theorem isSome_of_terminated {m : Msg} (hm : m.isProcessTerminated = true) :
    (Python.toUser Python.cState m).processterminated.isSome = true := by
  cases m with
  | processTerminated pid errorCode => rfl
  | _ => cases hm

theorem not_launched_of_follows {pid : Pid} {path : String} {m : Msg} (hm : Follows pid path m) :
    (Python.toUser Python.cState m).processlaunched < 0 := by
  rcases hm with ⟨success, rfl⟩ | hterm
  · exact Int.negSucc_lt_zero 0
  · cases m with
    | processTerminated pid errorCode => exact Int.negSucc_lt_zero 0
    | _ => cases hterm

/-- In every run in which no registered pipe is closed, with one launch for the test: it reads through
`NULL` exactly when two messages about the launch have come and they are in order; it comes to its end
only where they are not, and the benchmark has then given up. -/
theorem regression_test_stops {heap : Nat → ProcessInfo} {nfds port : Nat} {garbageSock sock : Fd} {k : Nat}
    {c : Child} (hr : Lts.Reach step OneTest (.init heap nfds garbageSock port) s)
    (hc : s.children[k]? = some c) (hsock : ⟨sock, .processLaunched c.pid, some k⟩ ∈ s.sent)
    (hfits : ∀ m ∈ Python.told Python.cState port (s.client sock k), Fits verify bytes m) {stream : List Bytes}
    (hstream : Carried bytes (Python.told Python.cState port (s.client sock k)) stream) (uninit : Nat)
    {sends : Nat → Bool} (hsend : sends 0 = true) :
    (main verify false uninit port sends stream = .error (.faults .nullDeref) ↔
      2 ≤ (s.client sock k).length ∧ Ordered (s.client sock k)) ∧
      ∀ res, main verify false uninit port sends stream = .ok res →
        res = -1 ∧ ¬ Ordered (s.client sock k) := by
  obtain ⟨hlog, rest, hshape, hfollows⟩ := client_shape hr hc hsock
  have hpid := Python.pid_pos_of_reach hr c (List.mem_of_getElem? hc)
  rw [hlog, hshape] at hfits hstream ⊢
  simp only [Python.told, List.map_cons, List.forall_mem_cons] at hfits hstream
  obtain ⟨hgreeting, hlaunched, hrest⟩ := hfits
  obtain ⟨s₁, hconnect, hs₁⟩ := tryConnectingToDaemon_carried false uninit hgreeting hstream
  obtain ⟨s₂, hlaunch, hs₂⟩ := tryLaunchingProcess_carried false uninit hpid hlaunched hs₁
  have hrange : (List.range 100).map (fun i => sends (i + 1)) =
      sends 1 :: (List.range 99).map fun i => sends (i + 2) := by
    rw [List.range_succ_eq_map, List.map_cons, List.map_map]
    rfl
  have hstops : ∀ stop, receivingProcessTerminated verify false uninit s₂ = .error stop →
      main verify false uninit port sends stream = .error stop := by
    intro stop h
    simp only [main, hconnect, hsend, hlaunch, h, bind, Except.bind, ne_eq, not_true_eq_false, if_false]
  cases rest with
  | nil =>
    have hwaits : receivingProcessTerminated verify false uninit s₂ = .error .waits := by
      rw [receivingProcessTerminated, receiveMessage_nothing uninit hs₂]
      rfl
    rw [hstops _ hwaits]
    simp
  | cons m rest =>
    obtain ⟨hm, hrest⟩ := List.forall_mem_cons.mp hrest
    obtain ⟨s₃, hs₃, hthird⟩ := receivingProcessTerminated_carried false uninit hm hs₂
    rcases hfollows m List.mem_cons_self with ⟨success, rfl⟩ | hterm
    · have hordered : Ordered (.processLaunched c.pid :: .execveTerminated c.pid c.path success :: rest) :=
        ordered_of_execve rest
      rw [hstops _ hthird]
      simp [hordered]
    · have hnot : ¬ Ordered (.processLaunched c.pid :: m :: rest) := not_ordered_of_terminated hterm rest
      have hpassed : receivingProcessTerminated verify false uninit s₂ = .ok (0, s₃) := by
        rw [hthird, if_pos (isSome_of_terminated hterm)]
      have hlate : ∀ m ∈ (rest.map (Python.toUser Python.cState)).head?,
          Fits verify bytes m ∧ m.processlaunched < 0 := by
        intro m hhead
        have hmem := List.mem_of_mem_head? hhead
        obtain ⟨msg, hmsg, rfl⟩ := List.mem_map.mp hmem
        exact ⟨hrest _ hmem, not_launched_of_follows (hfollows msg (List.mem_cons_of_mem _ hmsg))⟩
      have hmain : main verify false uninit port sends stream = (benchmark verify false uninit
          (sends 1 :: (List.range 99).map fun i => sends (i + 2)) s₃).map (·.1) := by
        simp only [main, hconnect, hsend, hlaunch, hpassed, hrange, bind, Except.bind, ne_eq, not_true_eq_false,
          if_false]
        rfl
      rw [hmain, benchmark_late uninit hlate hs₃]
      refine ⟨iff_of_false ?_ fun h => hnot h.2, fun res hres => ⟨?_, hnot⟩⟩
      · split <;> simp
      · split at hres
        · cases hres
        · exact (Except.ok.inj hres).symm

end Daemon

/-- The C package lays the messages about the lost program out as `Python.lostBytes`. -/
def verifyLost (b : Bytes) (n : Int) : Option Value :=
  if n = b.length then Python.lostRoot b else none

theorem lost_fits {m : ToUser} (hm : m ∈ Python.told Python.cState 8080 Python.lostC) :
    Fits verifyLost Python.lostBytes m := by
  obtain ⟨hne, hread, -⟩ := Python.lost_readable (List.mem_append_left _ hm)
  have hwell : m.InRange ∧ (∀ errorCode, m ≠ .childCreationError errorCode) ∧
      (Python.lostBytes m.value).length ≤ 128 := by
    simp only [Python.told, Python.lostC, List.map_cons, List.map_nil, List.mem_cons, List.not_mem_nil, or_false]
      at hm
    rcases hm with rfl | rfl | rfl | rfl
    · exact ⟨rfl, by simp [Python.toUser], by decide +kernel⟩
    · exact ⟨rfl, by simp [Python.toUser], by decide +kernel⟩
    · exact ⟨⟨rfl, by simp [NulFree]⟩, by simp [Python.toUser], by decide +kernel⟩
    · exact ⟨⟨rfl, rfl⟩, by simp [Python.toUser], by decide +kernel⟩
  obtain ⟨hrange, hnot, hroom⟩ := hwell
  refine ⟨⟨hrange, fun errorCode heq => absurd heq (hnot errorCode)⟩, fun v hv _ => ?_, hroom⟩
  rw [(ToUser.calls_builds hrange).root_eq] at hv
  cases hv
  exact ⟨hne, (if_pos rfl).trans hread⟩

theorem headersUncut_of_framesUncut {stream : List Bytes} {ps : List Bytes} :
    ∀ {a}, FramesUncut stream a ps → HeadersUncut stream a ps := by
  induction ps with
  | nil => exact fun _ => trivial
  | cons p ps ih => exact fun h => ⟨h.1, ih h.2.2⟩

theorem carried_frames (bytes : Value → Bytes) (ms : List ToUser) :
    Carried bytes ms ((Python.payloads bytes ms).map frame) := by
  obtain ⟨hne, hflat, huncut⟩ := Python.carries_frames bytes ms
  exact ⟨hne, hflat, headersUncut_of_framesUncut huncut⟩

def allSent (_ : Nat) : Bool := true

/-- The test at the program that is not found. -/
theorem lost_program_stops :
    main verifyLost false 0 8080 allSent
      ((Python.payloads Python.lostBytes (Python.told Python.cState 8080 Python.lostC)).map frame) =
      .error (.faults .nullDeref) := by
  obtain ⟨s, c, hr, hc, rfl, hsock, hclient⟩ := Python.lost_run
  have hfits : ∀ m ∈ Python.told Python.cState 8080 (s.client 8 0), Fits verifyLost Python.lostBytes m := by
    rw [hclient]
    exact fun _ hm => lost_fits hm
  have hstream := carried_frames Python.lostBytes (Python.told Python.cState 8080 (s.client 8 0))
  have hstops := regression_test_stops (hr.mono fun _ _ hg => ⟨hg.2.1.kept, hg.2.2.2⟩) hc hsock hfits hstream 0
    (show allSent 0 = true from rfl)
  rw [hclient] at hstops
  exact hstops.1.mpr ⟨by decide, ordered_of_execve _⟩

end ProcCtrld.RegressionTest
