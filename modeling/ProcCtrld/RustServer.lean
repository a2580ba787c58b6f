import Mathlib.Data.Prod.Lex
import ProcCtrld.Lts
import ProcCtrld.RustStream

/-!
# ProcCtrld.RustServer

The Rust daemon as a server (`main` in `main.rs`): a loop that accepts connections and greets them, and
one task for each, which reads frames, hands them to `handle_message` and sends what it has to say. The
tasks take their steps in any order, and the bytes of a client arrive in any pieces at any time.

* `served_as_alone` — whatever the other connections do, a connection is sent the greeting and then, in
  order, the answers to its own payloads; when its task has come to an end, it has handed on and ended
  what `serveConnection` says of the bytes that have arrived, however they were cut.
* `closed_connection_ends` — once its client has closed its side, the task takes finitely many steps
  more, and stops nowhere but at such an end.
-/

namespace ProcCtrld.Rust

/-! ## Tasks -/

/-- Where the task of a connection is. `size` and `body` hold what `read_exact` has got so far,
`handling` the messages that `handle_message` has not sent yet. -/
inductive Phase where
  | size (got : Bytes)
  | body (len : Nat) (got : Bytes)
  | handling (rest : List Msg) (ending : Ending)
  | finished (ending : Ending)
deriving DecidableEq, Repr

/-- `inbox` is what has arrived and not been read, `closed` says that nothing more will, and `peer` is
what the socket has taken for the client. The rest are ghosts: the bytes that have arrived, the payloads
handed to `handle_message` with the answers of the system to each call, and the messages sent with what
each `write` took. -/
structure Connection where
  inbox : List Bytes
  closed : Bool
  phase : Phase
  peer : Bytes
  arrived : Bytes
  handled : List (Bytes × RequestOs)
  sent : List (Msg × Nat)

inductive ConnectionLabel where
  | arrives (chunk : Bytes)
  | shutdown
  | read
  | sized
  | handle (os : RequestOs)
  | send (accepted : Nat)
  | next

/-- The steps of the task itself. -/
def ConnectionLabel.isOwn : ConnectionLabel → Bool
  | arrives _ | shutdown => false
  | _ => true

section Server

variable (rootAsMessage : Bytes → Option Message) (encode : Msg → Bytes) (port : Nat)

namespace Connection

/-- A connection that has been accepted and greeted. -/
def init (accepted : Nat) : Connection where
  inbox := []
  closed := false
  phase := .size []
  peer := sendOnSocket [] (encode (.tcpSocketListening port)) accepted
  arrived := []
  handled := []
  sent := [(.tcpSocketListening port, accepted)]

def arrives (t : Connection) (chunk : Bytes) : Option Connection :=
  if t.closed = false ∧ chunk ≠ [] then
    some { t with inbox := t.inbox ++ [chunk], arrived := t.arrived ++ chunk }
  else none

def shutdown (t : Connection) : Option Connection := if t.closed then none else some { t with closed := true }

/-- One `read` for a buffer of `n` bytes that holds `got`; at the end of the stream `read_exact` fails
and the loop is left. -/
def fill (t : Connection) (n : Nat) (got : Bytes) (phase : Bytes → Phase) : Option Connection :=
  if got.length < n then
    match t.inbox with
    | [] => if t.closed then some { t with phase := .finished .returns } else none
    | _ =>
      let r := Chunks.read (n - got.length) t.inbox
      some { t with inbox := r.2, phase := phase (got ++ r.1) }
  else none

def read (t : Connection) : Option Connection :=
  match t.phase with
  | .size got => t.fill 4 got .size
  | .body len got => t.fill len got (.body len)
  | _ => none

/-- `msg_len`. -/
def sized (t : Connection) : Option Connection :=
  match t.phase with
  | .size got => if got.length = 4 then some { t with phase := .body (u32OfBytes got) [] } else none
  | _ => none

def handle (t : Connection) (os : RequestOs) : Option Connection :=
  match t.phase with
  | .body len got =>
    if got.length = len then
      let sending := handleMessage rootAsMessage os got
      some { t with
        phase := .handling sending.msgs sending.ending
        handled := t.handled ++ [(got, os)] }
    else none
  | _ => none

/-- One `send_on_socket`; a `write` that fails has taken nothing. -/
def send (t : Connection) (accepted : Nat) : Option Connection :=
  match t.phase with
  | .handling (m :: rest) ending =>
    if accepted ≤ (frame (encode m)).length then
      some { t with
        phase := .handling rest ending
        peer := sendOnSocket t.peer (encode m) accepted
        sent := t.sent ++ [(m, accepted)] }
    else none
  | _ => none

/-- After the last message. -/
def next (t : Connection) : Option Connection :=
  match t.phase with
  | .handling [] .returns => some { t with phase := .size [] }
  | .handling [] .panics => some { t with phase := .finished .panics }
  | _ => none

/-- How the task has ended; a call that waits for ever counts as an end. -/
def ended (t : Connection) : Option Ending :=
  match t.phase with
  | .finished ending => some ending
  | .handling [] .waits => some .waits
  | _ => none

def passed (t : Connection) : List Bytes := t.handled.map (·.1)

/-- The answers of the system, by the number of the call. -/
def os (t : Connection) (k : Nat) : RequestOs := (t.handled.map (·.2)).getD k .quiet

def messages (t : Connection) : List Msg := t.sent.map (·.1)

end Connection

def connectionStep (t : Connection) : ConnectionLabel → Option Connection
  | .arrives chunk => t.arrives chunk
  | .shutdown => t.shutdown
  | .read => t.read
  | .sized => t.sized
  | .handle os => t.handle rootAsMessage os
  | .send accepted => t.send encode accepted
  | .next => t.next

/-! ## The server -/

/-- `listening` ends with the loop of `main`, and the tasks end with it. -/
structure Server where
  tasks : List Connection
  listening : Bool

inductive ServerLabel where
  | accept (accepted : Nat)
  | acceptFails
  | task (i : Nat) (l : ConnectionLabel)

def Server.init : Server := ⟨[], true⟩

def serverStep (s : Server) : ServerLabel → Option Server
  | .accept accepted =>
    if s.listening ∧ accepted ≤ (frame (encode (.tcpSocketListening port))).length then
      some { s with tasks := s.tasks ++ [.init encode port accepted] }
    else none
  | .acceptFails => if s.listening then some { s with listening := false } else none
  | .task i l =>
    match s.listening, s.tasks[i]? with
    | true, some t =>
      match connectionStep rootAsMessage encode t l with
      | some t' => some { s with tasks := s.tasks.set i t' }
      | none => none
    | _, _ => none

/-- What a connection is to be sent: the greeting, and the messages of each call. -/
def conversation (t : Connection) : List Msg :=
  .tcpSocketListening port :: t.handled.flatMap fun x => (handleMessage rootAsMessage x.2 x.1).msgs

end Server

/-! ## What the loop of a connection makes of a stream -/

section Stream

variable {handle : Nat → Bytes → Ending} {socket : List Bytes}

theorem intBytes_u32OfBytes {b : Bytes} (h : b.length = 4) :
    intBytes (u32OfBytes b) = b ∧ u32OfBytes b < 2 ^ 32 := by
  match b, h with
  | [a, b, c, d], _ =>
    have ha := a.toNat_lt
    have hb := b.toNat_lt
    have hc := c.toNat_lt
    have hd := d.toNat_lt
    refine ⟨?_, ?_⟩
    · simp only [u32OfBytes, intBytes, List.cons.injEq, and_true]
      refine ⟨?_, ?_, ?_, ?_⟩ <;> apply UInt8.toNat_inj.mp <;> rw [UInt8.toNat_ofNat'] <;> omega
    · simp only [u32OfBytes]
      omega

theorem connectionLoop_frame (handle : Nat → Bytes → Ending) {p tail : Bytes} (hlen : p.length < 2 ^ 32)
    (hsock : socket.flatten = frame p ++ tail) (fuel k : Nat) : ∃ socket', socket'.flatten = tail ∧
      connectionLoop handle (fuel + 1) k socket =
        match handle k p with
        | .returns => (connectionLoop handle fuel (k + 1) socket').map fun r => (p :: r.1, r.2)
        | ending => some ([p], ending) := by
  rw [frame, List.append_assoc] at hsock
  have h4 : 4 ≤ socket.flatten.length := by
    rw [hsock, List.length_append, length_intBytes]
    omega
  obtain ⟨s₁, hread₁, hflat₁⟩ := Chunks.readExact_eq_some h4
  have hhdr : socket.flatten.take 4 = intBytes p.length := by
    rw [hsock, List.take_left' (length_intBytes _)]
  have hrest₁ : s₁.flatten = p ++ tail := by
    rw [hflat₁, hsock, List.drop_left' (length_intBytes _)]
  have hp : p.length ≤ s₁.flatten.length := by
    rw [hrest₁, List.length_append]
    omega
  obtain ⟨s₂, hread₂, hflat₂⟩ := Chunks.readExact_eq_some hp
  have hbody : s₁.flatten.take p.length = p := by rw [hrest₁, List.take_left]
  refine ⟨s₂, by rw [hflat₂, hrest₁, List.drop_left], ?_⟩
  cases hend : handle k p <;>
    simp only [connectionLoop, hread₁, hhdr, u32OfBytes_intBytes hlen, hread₂, hbody, hend]

/-- The end of a stream inside a frame. -/
def CutOff (tail : Bytes) : Prop :=
  tail.length < 4 ∨ ∃ len got, tail = intBytes len ++ got ∧ len < 2 ^ 32 ∧ got.length < len

theorem connectionLoop_cutOff (h : CutOff socket.flatten) (fuel k : Nat) :
    connectionLoop handle (fuel + 1) k socket = some ([], .returns) := by
  rcases h with hshort | ⟨len, got, hsock, hlen, hgot⟩
  · simp only [connectionLoop, Chunks.readExact_eq_none hshort]
  · have h4 : 4 ≤ socket.flatten.length := by
      rw [hsock, List.length_append, length_intBytes]
      omega
    obtain ⟨s₁, hread₁, hflat₁⟩ := Chunks.readExact_eq_some h4
    have hhdr : socket.flatten.take 4 = intBytes len := by
      rw [hsock, List.take_left' (length_intBytes _)]
    have hrest₁ : s₁.flatten = got := by
      rw [hflat₁, hsock, List.drop_left' (length_intBytes _)]
    have hnone := Chunks.readExact_eq_none (show s₁.flatten.length < len by rw [hrest₁]; exact hgot)
    simp only [connectionLoop, hread₁, hhdr, u32OfBytes_intBytes hlen, hnone]

/-- Payloads that are answered are handed on, and the loop goes on behind their frames. -/
theorem connectionLoop_frames (handle : Nat → Bytes → Ending) {ps : List Bytes} {tail : Bytes} {k : Nat}
    (hlen : ∀ p ∈ ps, p.length < 2 ^ 32)
    (hret : ∀ (i : Nat) (p : Bytes), ps[i]? = some p → handle (k + i) p = .returns)
    (hsock : socket.flatten = frames ps ++ tail) (fuel : Nat) : ∃ socket', socket'.flatten = tail ∧
      connectionLoop handle (fuel + ps.length) k socket =
        (connectionLoop handle fuel (k + ps.length) socket').map fun r => (ps ++ r.1, r.2) := by
  induction ps generalizing socket k with
  | nil => exact ⟨socket, hsock, by simp⟩
  | cons p ps ih =>
    rw [frames_cons, ← List.append_assoc, ← frame, List.append_assoc] at hsock
    obtain ⟨s₁, hs₁, hloop⟩ := connectionLoop_frame handle (hlen p List.mem_cons_self) hsock (fuel + ps.length) k
    have hrest : ∀ (i : Nat) (q : Bytes), ps[i]? = some q → handle (k + 1 + i) q = .returns := by
      intro i q hq
      have := hret (i + 1) q hq
      rwa [← Nat.add_assoc, Nat.add_right_comm] at this
    obtain ⟨s₂, hs₂, hloop'⟩ := ih (fun q hq => hlen q (List.mem_cons_of_mem _ hq)) hrest hs₁
    have hp : handle k p = .returns := hret 0 p rfl
    refine ⟨s₂, hs₂, ?_⟩
    rw [List.length_cons, ← Nat.add_assoc, hloop, hp, hloop', Option.map_map]
    rw [Nat.add_assoc, Nat.add_comm 1]
    rfl

end Stream

/-! ## The invariant of a task -/

section Invariant

variable (rootAsMessage : Bytes → Option Message) (encode : Msg → Bytes) (port : Nat)

def AllReturned (xs : List (Bytes × RequestOs)) : Prop :=
  ∀ x ∈ xs, (handleMessage rootAsMessage x.2 x.1).ending = .returns

/-- All calls but the last have returned, and the last ends like this. -/
def LastEnds (xs : List (Bytes × RequestOs)) (ending : Ending) : Prop :=
  ∃ before x, xs = before ++ [x] ∧ AllReturned rootAsMessage before ∧
    (handleMessage rootAsMessage x.2 x.1).ending = ending

/-- The loop has been left at the end of the stream, or with the last call. -/
def Connection.Ended (t : Connection) : Ending → Prop
  | .returns => AllReturned rootAsMessage t.handled ∧ t.closed = true ∧
      ∃ tail, t.arrived = frames t.passed ++ tail ∧ CutOff tail
  | ending => LastEnds rootAsMessage t.handled ending ∧ ∃ more, t.arrived = frames t.passed ++ more

def Connection.PhaseInv (t : Connection) : Prop :=
  match t.phase with
  | .size got => t.arrived = frames t.passed ++ (got ++ t.inbox.flatten) ∧ got.length ≤ 4 ∧
      AllReturned rootAsMessage t.handled ∧ t.messages = conversation rootAsMessage port t
  | .body len got => t.arrived = frames t.passed ++ (intBytes len ++ got ++ t.inbox.flatten) ∧
      (got.length ≤ len ∧ len < 2 ^ 32) ∧ AllReturned rootAsMessage t.handled ∧
      t.messages = conversation rootAsMessage port t
  | .handling rest ending => t.arrived = frames t.passed ++ t.inbox.flatten ∧
      LastEnds rootAsMessage t.handled ending ∧ t.messages ++ rest = conversation rootAsMessage port t
  | .finished ending => t.Ended rootAsMessage ending ∧ t.messages = conversation rootAsMessage port t

structure ConnectionInv (t : Connection) : Prop where
  chunks : ∀ c ∈ t.inbox, c ≠ []
  sizes : ∀ p ∈ t.passed, p.length < 2 ^ 32
  written : t.peer = sendAll [] (t.sent.map fun c => (encode c.1, c.2))
  phase : t.PhaseInv rootAsMessage port

end Invariant

section Steps

variable {rootAsMessage : Bytes → Option Message} {encode : Msg → Bytes} {port : Nat} {t t' : Connection}

theorem connectionInv_init (accepted : Nat) :
    ConnectionInv rootAsMessage encode port (.init encode port accepted) where
  chunks := by simp [Connection.init]
  sizes := by simp [Connection.init, Connection.passed]
  written := rfl
  phase := by
    refine ⟨?_, Nat.zero_le 4, ?_, rfl⟩
    · simp [Connection.init, Connection.passed, frames]
    · simp [AllReturned, Connection.init]

theorem connectionInv_arrives {chunk : Bytes} (h : ConnectionInv rootAsMessage encode port t)
    (hs : t.arrives chunk = some t') : ConnectionInv rootAsMessage encode port t' := by
  unfold Connection.arrives at hs
  split at hs
  · rename_i hc
    cases hs
    refine ⟨?_, h.sizes, h.written, ?_⟩
    · intro c hmem
      rcases List.mem_append.mp hmem with hmem | hmem
      · exact h.chunks c hmem
      · rw [List.mem_singleton.mp hmem]
        exact hc.2
    · have hphase := h.phase
      unfold Connection.PhaseInv at hphase ⊢
      cases hp : t.phase with
      | size got =>
        simp only [hp] at hphase ⊢
        exact ⟨by rw [hphase.1]; simp [Connection.passed], hphase.2⟩
      | body len got =>
        simp only [hp] at hphase ⊢
        exact ⟨by rw [hphase.1]; simp [Connection.passed], hphase.2⟩
      | handling rest ending =>
        simp only [hp] at hphase ⊢
        exact ⟨by rw [hphase.1]; simp [Connection.passed], hphase.2⟩
      | finished ending =>
        simp only [hp] at hphase ⊢
        refine ⟨?_, hphase.2⟩
        obtain ⟨hend, -⟩ := hphase
        -- nothing arrives at the end of the stream
        cases ending with
        | returns => exact absurd hend.2.1 (by simp [hc.1])
        | panics | waits =>
          obtain ⟨hlast, more, hmore⟩ := hend
          exact ⟨hlast, more ++ chunk, by rw [hmore, List.append_assoc]; rfl⟩
  · cases hs

theorem connectionInv_shutdown (h : ConnectionInv rootAsMessage encode port t) (hs : t.shutdown = some t') :
    ConnectionInv rootAsMessage encode port t' := by
  unfold Connection.shutdown at hs
  split at hs
  · cases hs
  · cases hs
    refine ⟨h.chunks, h.sizes, h.written, ?_⟩
    have hphase := h.phase
    unfold Connection.PhaseInv at hphase ⊢
    cases hp : t.phase with
    | finished ending =>
      simp only [hp] at hphase ⊢
      refine ⟨?_, hphase.2⟩
      cases ending with
      | returns => exact ⟨hphase.1.1, rfl, hphase.1.2.2⟩
      | panics | waits => exact hphase.1
    | size | body | handling =>
      simp only [hp] at hphase ⊢
      exact hphase

theorem connectionInv_eof {tail : Bytes} (h : ConnectionInv rootAsMessage encode port t)
    (hclosed : t.closed = true) (harrived : t.arrived = frames t.passed ++ tail) (hcut : CutOff tail)
    (hret : AllReturned rootAsMessage t.handled) (hmsgs : t.messages = conversation rootAsMessage port t) :
    ConnectionInv rootAsMessage encode port { t with phase := .finished .returns } where
  chunks := h.chunks
  sizes := h.sizes
  written := h.written
  phase := ⟨⟨hret, hclosed, tail, harrived, hcut⟩, hmsgs⟩

theorem fill_cases {n : Nat} {got : Bytes} {phase : Bytes → Phase} (hs : t.fill n got phase = some t') :
    got.length < n ∧
      (t.inbox = [] ∧ t.closed = true ∧ t' = { t with phase := .finished .returns } ∨
        t.inbox ≠ [] ∧ t' = { t with
          inbox := (Chunks.read (n - got.length) t.inbox).2
          phase := phase (got ++ (Chunks.read (n - got.length) t.inbox).1) }) := by
  unfold Connection.fill at hs
  split at hs
  · rename_i hlt
    refine ⟨hlt, ?_⟩
    split at hs
    · rename_i hinbox
      split at hs
      · rename_i hclosed
        cases hs
        exact .inl ⟨hinbox, hclosed, rfl⟩
      · cases hs
    · rename_i hinbox
      cases hs
      exact .inr ⟨hinbox, rfl⟩
  · cases hs

theorem connectionInv_read (h : ConnectionInv rootAsMessage encode port t) (hs : t.read = some t') :
    ConnectionInv rootAsMessage encode port t' := by
  have hphase := h.phase
  unfold Connection.read at hs
  unfold Connection.PhaseInv at hphase
  split at hs
  · rename_i got hp
    simp only [hp] at hphase
    obtain ⟨harrived, -, hret, hmsgs⟩ := hphase
    obtain ⟨hgot, ⟨hinbox, hclosed, rfl⟩ | ⟨-, rfl⟩⟩ := fill_cases hs
    · refine connectionInv_eof h hclosed harrived (.inl ?_) hret hmsgs
      rw [hinbox]
      simpa using hgot
    · have hread := Chunks.read_append (4 - got.length) t.inbox
      have hle := Chunks.length_read_le (4 - got.length) t.inbox
      refine ⟨Chunks.read_ne_nil h.chunks, h.sizes, h.written, ⟨?_, ?_, hret, hmsgs⟩⟩
      · rw [List.append_assoc, hread]
        exact harrived
      · rw [List.length_append]
        omega
  · rename_i len got hp
    simp only [hp] at hphase
    obtain ⟨harrived, ⟨-, hlen⟩, hret, hmsgs⟩ := hphase
    obtain ⟨hgot, ⟨hinbox, hclosed, rfl⟩ | ⟨-, rfl⟩⟩ := fill_cases hs
    · refine connectionInv_eof h hclosed harrived (.inr ⟨len, got, ?_, hlen, hgot⟩) hret hmsgs
      rw [hinbox]
      simp
    · have hread := Chunks.read_append (len - got.length) t.inbox
      have hle := Chunks.length_read_le (len - got.length) t.inbox
      refine ⟨Chunks.read_ne_nil h.chunks, h.sizes, h.written, ⟨?_, ⟨?_, hlen⟩, hret, hmsgs⟩⟩
      · rw [← List.append_assoc (intBytes len), List.append_assoc, hread]
        exact harrived
      · rw [List.length_append]
        omega
  · cases hs

theorem connectionInv_sized (h : ConnectionInv rootAsMessage encode port t) (hs : t.sized = some t') :
    ConnectionInv rootAsMessage encode port t' := by
  have hphase := h.phase
  unfold Connection.sized at hs
  unfold Connection.PhaseInv at hphase
  split at hs
  · rename_i got hp
    simp only [hp] at hphase
    obtain ⟨harrived, -, hret, hmsgs⟩ := hphase
    split at hs
    · rename_i hgot
      cases hs
      obtain ⟨hbytes, hlen⟩ := intBytes_u32OfBytes hgot
      refine ⟨h.chunks, h.sizes, h.written, ⟨?_, ⟨Nat.zero_le _, hlen⟩, hret, hmsgs⟩⟩
      rw [hbytes, List.append_nil]
      exact harrived
    · cases hs
  · cases hs

theorem connectionInv_handle {os : RequestOs} (h : ConnectionInv rootAsMessage encode port t)
    (hs : t.handle rootAsMessage os = some t') : ConnectionInv rootAsMessage encode port t' := by
  have hphase := h.phase
  unfold Connection.handle at hs
  unfold Connection.PhaseInv at hphase
  split at hs
  · rename_i len got hp
    simp only [hp] at hphase
    obtain ⟨harrived, ⟨-, hlen⟩, hret, hmsgs⟩ := hphase
    split at hs
    · rename_i hgot
      cases hs
      refine ⟨h.chunks, ?_, h.written, ⟨?_, ⟨t.handled, (got, os), rfl, hret, rfl⟩, ?_⟩⟩
      · intro p hmem
        simp only [Connection.passed, List.map_append, List.map_cons, List.map_nil, List.mem_append,
          List.mem_singleton] at hmem
        rcases hmem with hmem | rfl
        · exact h.sizes p hmem
        · omega
      · rw [harrived, ← hgot]
        simp [Connection.passed, frames, frame]
      · simp only [Connection.messages, conversation] at hmsgs ⊢
        rw [hmsgs]
        simp
    · cases hs
  · cases hs

theorem connectionInv_send {accepted : Nat} (h : ConnectionInv rootAsMessage encode port t)
    (hs : t.send encode accepted = some t') : ConnectionInv rootAsMessage encode port t' := by
  have hphase := h.phase
  unfold Connection.send at hs
  unfold Connection.PhaseInv at hphase
  split at hs
  · rename_i m rest ending hp
    simp only [hp] at hphase
    obtain ⟨harrived, hlast, hmsgs⟩ := hphase
    split at hs
    · cases hs
      refine ⟨h.chunks, h.sizes, ?_, ⟨harrived, hlast, ?_⟩⟩
      · simp only [h.written, sendAll, List.map_append, List.foldl_append, List.map_cons, List.map_nil,
          List.foldl_cons, List.foldl_nil]
      · simp only [Connection.messages, conversation, List.map_append, List.map_cons, List.map_nil,
          List.append_assoc, List.cons_append, List.nil_append] at hmsgs ⊢
        exact hmsgs
    · cases hs
  · cases hs

theorem connectionInv_next (h : ConnectionInv rootAsMessage encode port t) (hs : t.next = some t') :
    ConnectionInv rootAsMessage encode port t' := by
  have hphase := h.phase
  unfold Connection.next at hs
  unfold Connection.PhaseInv at hphase
  split at hs
  · rename_i hp
    simp only [hp, List.append_nil] at hphase
    obtain ⟨harrived, ⟨before, x, hx, hret, hend⟩, hmsgs⟩ := hphase
    cases hs
    refine ⟨h.chunks, h.sizes, h.written, ⟨harrived, Nat.zero_le _, ?_, hmsgs⟩⟩
    intro y hy
    rw [show t.handled = before ++ [x] from hx] at hy
    rcases List.mem_append.mp hy with hy | hy
    · exact hret y hy
    · rw [List.mem_singleton.mp hy]
      exact hend
  · rename_i hp
    simp only [hp, List.append_nil] at hphase
    obtain ⟨harrived, hlast, hmsgs⟩ := hphase
    cases hs
    exact ⟨h.chunks, h.sizes, h.written, ⟨⟨hlast, _, harrived⟩, hmsgs⟩⟩
  · cases hs

theorem connectionInv_step {l : ConnectionLabel} (h : ConnectionInv rootAsMessage encode port t)
    (hs : connectionStep rootAsMessage encode t l = some t') : ConnectionInv rootAsMessage encode port t' := by
  cases l with
  | arrives chunk => exact connectionInv_arrives h hs
  | shutdown => exact connectionInv_shutdown h hs
  | read => exact connectionInv_read h hs
  | sized => exact connectionInv_sized h hs
  | handle os => exact connectionInv_handle h hs
  | send accepted => exact connectionInv_send h hs
  | next => exact connectionInv_next h hs

/-! ## How a task ends -/

theorem length_le_frames (ps : List Bytes) : ps.length ≤ (frames ps).length := by
  induction ps with
  | nil => exact Nat.zero_le _
  | cons p ps ih =>
    rw [length_frames_cons, List.length_cons]
    omega

theorem Connection.os_handled {i : Nat} {x : Bytes × RequestOs} (h : t.handled[i]? = some x) : t.os i = x.2 := by
  rw [Connection.os, List.getD_eq_getElem?_getD, List.getElem?_map, h]
  rfl

/-- Calls that have returned are the ones of the loop. -/
theorem returns_of_allReturned {xs rest : List (Bytes × RequestOs)} (hxs : t.handled = xs ++ rest)
    (hret : AllReturned rootAsMessage xs) (i : Nat) (p : Bytes) (hp : (xs.map (·.1))[i]? = some p) :
    (handleMessage rootAsMessage (t.os (0 + i)) p).ending = .returns := by
  rw [List.getElem?_map] at hp
  obtain ⟨x, hx, rfl⟩ := Option.map_eq_some_iff.mp hp
  have hi : t.handled[i]? = some x := by
    rw [hxs, List.getElem?_append_left (List.getElem?_eq_some_iff.mp hx).1]
    exact hx
  rw [Nat.zero_add, Connection.os_handled hi]
  exact hret x (List.mem_of_getElem? hx)

theorem serveConnection_of_cutOff (h : ConnectionInv rootAsMessage encode port t)
    (hret : AllReturned rootAsMessage t.handled) {tail : Bytes} (harrived : t.arrived = frames t.passed ++ tail)
    (hcut : CutOff tail) {socket : List Bytes} (hsock : socket.flatten = t.arrived) :
    serveConnection rootAsMessage t.os socket = some (t.passed, .returns) := by
  have hle : t.passed.length ≤ socket.flatten.length := by
    have := length_le_frames t.passed
    rw [hsock, harrived, List.length_append]
    omega
  obtain ⟨fuel, hfuel⟩ := Nat.exists_eq_add_of_le' hle
  obtain ⟨socket', hsock', hloop⟩ := connectionLoop_frames
    (fun k buf => (handleMessage rootAsMessage (t.os k) buf).ending) h.sizes
    (returns_of_allReturned (List.append_nil t.handled).symm hret) (hsock.trans harrived) (fuel + 1)
  rw [serveConnection, hfuel, Nat.add_right_comm, hloop, connectionLoop_cutOff (hsock' ▸ hcut)]
  simp

theorem serveConnection_of_lastEnds (h : ConnectionInv rootAsMessage encode port t) {ending : Ending}
    (hne : ending ≠ .returns) (hlast : LastEnds rootAsMessage t.handled ending) {more : Bytes}
    (harrived : t.arrived = frames t.passed ++ more) {socket : List Bytes} (hsock : socket.flatten = t.arrived) :
    serveConnection rootAsMessage t.os socket = some (t.passed, ending) := by
  obtain ⟨before, x, hx, hret, hend⟩ := hlast
  have hpassed : t.passed = before.map (·.1) ++ [x.1] := by simp [Connection.passed, hx]
  have hle : (before.map (·.1)).length ≤ socket.flatten.length := by
    have := length_le_frames t.passed
    rw [hsock, harrived, List.length_append]
    rw [hpassed, List.length_append] at this
    rw [hpassed]
    omega
  obtain ⟨fuel, hfuel⟩ := Nat.exists_eq_add_of_le' hle
  have hsplit : socket.flatten = frames (before.map (·.1)) ++ (frame x.1 ++ more) := by
    rw [hsock, harrived, hpassed]
    simp [frames]
  have hsizes := h.sizes
  rw [hpassed] at hsizes
  obtain ⟨s₁, hs₁, hloop⟩ := connectionLoop_frames
    (fun k buf => (handleMessage rootAsMessage (t.os k) buf).ending)
    (fun p hp => hsizes p (List.mem_append_left _ hp)) (returns_of_allReturned hx hret) hsplit (fuel + 1)
  obtain ⟨s₂, -, hloop'⟩ := connectionLoop_frame (fun k buf => (handleMessage rootAsMessage (t.os k) buf).ending)
    (hsizes x.1 (by simp)) hs₁ fuel (0 + (before.map (·.1)).length)
  have hos : t.os (0 + (before.map (·.1)).length) = x.2 := by
    refine Connection.os_handled ?_
    rw [hx, Nat.zero_add, List.length_map, List.getElem?_concat_length]
  rw [serveConnection, hfuel, Nat.add_right_comm, hloop, hloop']
  simp only [hos, hend]
  cases ending with
  | returns => exact absurd rfl hne
  | panics | waits => simp [hpassed]

theorem serveConnection_of_ended (h : ConnectionInv rootAsMessage encode port t) {ending : Ending}
    (hend : t.ended = some ending) {socket : List Bytes} (hsock : socket.flatten = t.arrived) :
    serveConnection rootAsMessage t.os socket = some (t.passed, ending) := by
  have hphase := h.phase
  unfold Connection.PhaseInv at hphase
  unfold Connection.ended at hend
  split at hend
  · rename_i hp
    cases hend
    simp only [hp] at hphase
    cases ending with
    | returns =>
      obtain ⟨⟨hret, -, tail, harrived, hcut⟩, -⟩ := hphase
      exact serveConnection_of_cutOff h hret harrived hcut hsock
    | panics | waits =>
      obtain ⟨⟨hlast, more, harrived⟩, -⟩ := hphase
      exact serveConnection_of_lastEnds h (by simp) hlast harrived hsock
  · rename_i hp
    cases hend
    simp only [hp] at hphase
    exact serveConnection_of_lastEnds h (by simp) hphase.2.1 hphase.1 hsock
  · cases hend

/-- What has been sent is the beginning of the conversation, and all of it between two calls. -/
theorem messages_prefix (h : ConnectionInv rootAsMessage encode port t) :
    t.messages <+: conversation rootAsMessage port t ∧
      (t.ended.isSome = true → t.messages = conversation rootAsMessage port t) := by
  have hphase := h.phase
  unfold Connection.PhaseInv at hphase
  unfold Connection.ended
  cases hp : t.phase with
  | size got =>
    simp only [hp] at hphase
    rw [hphase.2.2.2]
    exact ⟨List.prefix_rfl, fun _ => rfl⟩
  | body len got =>
    simp only [hp] at hphase
    rw [hphase.2.2.2]
    exact ⟨List.prefix_rfl, fun _ => rfl⟩
  | handling rest ending =>
    simp only [hp] at hphase
    refine ⟨⟨rest, hphase.2.2⟩, ?_⟩
    cases rest with
    | nil => exact fun _ => by rw [← hphase.2.2, List.append_nil]
    | cons m rest => simp
  | finished ending =>
    simp only [hp] at hphase
    rw [hphase.2]
    exact ⟨List.prefix_rfl, fun _ => rfl⟩

theorem ConnectionInv.returned (h : ConnectionInv rootAsMessage encode port t) :
    AllReturned rootAsMessage t.handled.dropLast := by
  have hall : AllReturned rootAsMessage t.handled → AllReturned rootAsMessage t.handled.dropLast :=
    fun hret x hx => hret x (List.mem_of_mem_dropLast hx)
  have hlast : ∀ {ending}, LastEnds rootAsMessage t.handled ending → AllReturned rootAsMessage t.handled.dropLast := by
    rintro ending ⟨before, x, hx, hret, -⟩
    rw [hx, List.dropLast_concat]
    exact hret
  have hphase := h.phase
  unfold Connection.PhaseInv at hphase
  cases hp : t.phase with
  | size got =>
    simp only [hp] at hphase
    exact hall hphase.2.2.1
  | body len got =>
    simp only [hp] at hphase
    exact hall hphase.2.2.1
  | handling rest ending =>
    simp only [hp] at hphase
    exact hlast hphase.2.1
  | finished ending =>
    simp only [hp] at hphase
    cases ending with
    | returns => exact hall hphase.1.1
    | panics | waits => exact hlast hphase.1.1

theorem ConnectionInv.arrived_eq (h : ConnectionInv rootAsMessage encode port t) :
    ∃ tail, t.arrived = frames t.passed ++ tail := by
  have hphase := h.phase
  unfold Connection.PhaseInv at hphase
  cases hp : t.phase with
  | size got =>
    simp only [hp] at hphase
    exact ⟨_, hphase.1⟩
  | body len got =>
    simp only [hp] at hphase
    exact ⟨_, hphase.1⟩
  | handling rest ending =>
    simp only [hp] at hphase
    exact ⟨_, hphase.1⟩
  | finished ending =>
    simp only [hp] at hphase
    obtain ⟨hend, -⟩ := hphase
    cases ending with
    | returns =>
      obtain ⟨-, -, tail, htail, -⟩ := hend
      exact ⟨tail, htail⟩
    | panics | waits => exact hend.2

theorem ConnectionInv.handled_of_frame (h : ConnectionInv rootAsMessage encode port t) {b : Bytes}
    (hb : b.length < 2 ^ 32) (harrived : t.arrived = frame b) (hne : t.handled ≠ []) :
    ∃ os, t.handled = [(b, os)] := by
  obtain ⟨x, xs, hx⟩ := List.exists_cons_of_ne_nil hne
  obtain ⟨tail, htail⟩ := h.arrived_eq
  have hpassed : t.passed = x.1 :: xs.map (·.1) := by rw [Connection.passed, hx, List.map_cons]
  rw [harrived, hpassed, frames_cons, frame, List.append_assoc, List.append_assoc] at htail
  obtain ⟨hhdr, hrest⟩ := List.append_inj htail rfl
  have hlen : b.length = x.1.length := by
    have := congrArg u32OfBytes hhdr
    rwa [u32OfBytes_intBytes hb, u32OfBytes_intBytes (h.sizes x.1 (by rw [hpassed]; exact List.mem_cons_self))]
      at this
  have hsum := congrArg List.length hrest
  simp only [List.length_append] at hsum
  have hxs : xs = [] := by
    have := length_le_frames (xs.map (·.1))
    rw [List.length_map] at this
    exact List.length_eq_zero_iff.mp (by omega)
  have hnil : frames (xs.map (·.1)) ++ tail = [] := by
    rw [← List.length_eq_zero_iff, List.length_append]
    omega
  rw [hnil, List.append_nil] at hrest
  exact ⟨x.2, by rw [hx, hxs, hrest]⟩

/-! ## The server -/

theorem connectionInv_of_reachable {s : Server}
    (hr : Lts.Reachable (serverStep rootAsMessage encode port) .init s) (ht : t ∈ s.tasks) :
    ConnectionInv rootAsMessage encode port t := by
  refine hr.invariant (P := fun s => ∀ t ∈ s.tasks, ConnectionInv rootAsMessage encode port t)
    (by simp [Server.init]) ?_ t ht
  intro s l s' _ h _ hs
  cases l with
  | accept accepted =>
    simp only [serverStep] at hs
    split at hs
    · cases hs
      intro t ht
      rcases List.mem_append.mp ht with ht | ht
      · exact h t ht
      · rw [List.mem_singleton.mp ht]
        exact connectionInv_init accepted
    · cases hs
  | acceptFails =>
    simp only [serverStep] at hs
    split at hs
    · cases hs
      exact h
    · cases hs
  | task i l =>
    simp only [serverStep] at hs
    split at hs
    · rename_i u hlistening hu
      split at hs
      · rename_i u' hu'
        cases hs
        intro t ht
        rcases List.mem_or_eq_of_mem_set ht with ht | rfl
        · exact h t ht
        · exact connectionInv_step (h u (List.mem_of_getElem? hu)) hu'
      · cases hs
    · cases hs

/-- In every run of the server, with any number of connections, each connection has been sent a beginning
of its own conversation, as the counts of its writes let it through; and when its task has ended, all of
it, and the task has done what it would have done alone with the bytes that have arrived, in any cut. -/
theorem served_as_alone (rootAsMessage : Bytes → Option Message) (encode : Msg → Bytes) (port : Nat) {s : Server}
    (hr : Lts.Reachable (serverStep rootAsMessage encode port) .init s) {t : Connection} (ht : t ∈ s.tasks) :
    t.messages <+: conversation rootAsMessage port t ∧
      t.peer = sendAll [] (t.sent.map fun c => (encode c.1, c.2)) ∧
      ∀ ending, t.ended = some ending → t.messages = conversation rootAsMessage port t ∧
        ∀ socket : List Bytes, socket.flatten = t.arrived →
          serveConnection rootAsMessage t.os socket = some (t.passed, ending) := by
  have h := connectionInv_of_reachable hr ht
  obtain ⟨hbegin, hall⟩ := messages_prefix h
  refine ⟨hbegin, h.written, fun ending hend => ⟨hall (by rw [hend]; rfl), fun socket hsock => ?_⟩⟩
  exact serveConnection_of_ended h hend hsock

end Steps

/-! ## Two connections -/

/-- The buffers of `TCPSocketListening(8080)` and `ChildCreationError(61)`, as far as they are needed. -/
def encodeTwo : Msg → Bytes
  | .tcpSocketListening _ => [12, 0, 0, 0, 8, 0, 14, 0, 7, 0, 8, 0, 8, 0, 0, 0, 0, 0, 0, 9, 12, 0, 0, 0, 0, 0,
      6, 0, 8, 0, 6, 0, 6, 0, 0, 0, 0, 0, 144, 31]
  | .childCreationError _ => [12, 0, 0, 0, 8, 0, 14, 0, 7, 0, 8, 0, 8, 0, 0, 0, 0, 0, 0, 7, 12, 0, 0, 0, 0, 0,
      6, 0, 8, 0, 4, 0, 6, 0, 0, 0, 61, 0, 0, 0]
  | _ => []

/-- The frame of the first client comes in two pieces, and is answered after the second client has made
its own task panic. The first client then closes its side. -/
def twoClients : List ServerLabel :=
  [.accept 44, .accept 44, .task 0 (.arrives [12, 0]), .task 1 (.arrives [0, 0, 0, 0]), .task 0 .read,
   .task 1 .read, .task 1 .sized, .task 1 (.handle .quiet), .task 1 .next,
   .task 0 (.arrives ([0, 0] ++ noEvent)), .task 0 .read, .task 0 .sized, .task 0 .read, .task 0 (.handle .quiet),
   .task 0 (.send 44), .task 0 .next, .task 0 .shutdown, .task 0 .read]

theorem two_clients_served :
    ∃ (s : Server) (t u : Connection),
      Lts.Reachable (serverStep rootNoEvent encodeTwo 8080) .init s ∧ s.tasks = [t, u] ∧
      t.messages = [.tcpSocketListening 8080, .childCreationError enodata] ∧
      serveConnection rootNoEvent t.os [t.arrived] = some ([noEvent], .returns) ∧
      serveConnection rootNoEvent u.os [u.arrived] = some ([[]], .panics) := by
  obtain ⟨s, hs, hp⟩ := Lts.exists_of_run_map
    (p := fun s => s.tasks.map (fun t => (t.ended, t.passed, t.messages)) ==
      [(some .returns, [noEvent], [.tcpSocketListening 8080, .childCreationError enodata]),
       (some .panics, [[]], [.tcpSocketListening 8080])])
    (show (Lts.run (serverStep rootNoEvent encodeTwo 8080) .init twoClients).map _ = some true by decide +kernel)
  rw [beq_iff_eq] at hp
  obtain ⟨t, u, htasks⟩ : ∃ t u, s.tasks = [t, u] := by
    have hlen := congrArg List.length hp
    rw [List.length_map] at hlen
    exact List.length_eq_two.mp hlen
  rw [htasks] at hp
  simp only [List.map_cons, List.map_nil, List.cons.injEq, Prod.mk.injEq, and_true] at hp
  obtain ⟨⟨ht, htp, htm⟩, hu, hup, -⟩ := hp
  have hr := Lts.reachable_of_run hs
  have hservedt := served_as_alone rootNoEvent encodeTwo 8080 hr (show t ∈ s.tasks by simp [htasks])
  have hservedu := served_as_alone rootNoEvent encodeTwo 8080 hr (show u ∈ s.tasks by simp [htasks])
  replace hservedt := (hservedt.2.2 _ ht).2 [t.arrived] (by simp)
  replace hservedu := (hservedu.2.2 _ hu).2 [u.arrived] (by simp)
  rw [htp] at hservedt
  rw [hup] at hservedu
  exact ⟨s, t, u, hr, htasks, htm, hservedt, hservedu⟩

/-! ## A closed connection -/

section Closed

variable {rootAsMessage : Bytes → Option Message} {encode : Msg → Bytes} {port : Nat} {t t' : Connection}
  {l : ConnectionLabel}

/-- The bytes that are not handed on yet. -/
def Phase.got : Phase → Bytes
  | .size got | .body _ got => got
  | _ => []

/-- How far the phase is from the end of a turn of the loop. -/
def Phase.rank : Phase → Nat
  | .finished _ => 0
  | .size _ => 1
  | .handling _ _ => 2
  | .body _ _ => 3

/-- What is left to do in the phase. -/
def Phase.left : Phase → Nat
  | .size got => 4 - got.length
  | .body len got => len - got.length
  | .handling rest _ => rest.length
  | .finished _ => 0

/-- The bytes that are left, the phase, and what is left of it: a turn of the loop costs four bytes. -/
def Connection.toDo (t : Connection) : ℕ ×ₗ ℕ ×ₗ ℕ :=
  toLex (t.inbox.flatten.length + t.phase.got.length, toLex (t.phase.rank, t.phase.left))

theorem toDo_lt (h : t'.inbox.flatten.length + t'.phase.got.length <
      t.inbox.flatten.length + t.phase.got.length ∨
    t'.inbox.flatten.length + t'.phase.got.length = t.inbox.flatten.length + t.phase.got.length ∧
      (t'.phase.rank < t.phase.rank ∨ t'.phase.rank = t.phase.rank ∧ t'.phase.left < t.phase.left)) :
    t'.toDo < t.toDo := by
  simpa only [Connection.toDo, Prod.Lex.toLex_lt_toLex] using h

theorem read_progress {n : Nat} {cs : List (List UInt8)} (hn : 0 < n) (hne : cs ≠ []) (hc : ∀ c ∈ cs, c ≠ []) :
    0 < (Chunks.read n cs).1.length ∧
      (Chunks.read n cs).2.flatten.length + (Chunks.read n cs).1.length = cs.flatten.length := by
  have happend := congrArg List.length (Chunks.read_append n cs)
  rw [List.length_append] at happend
  refine ⟨?_, by omega⟩
  cases cs with
  | nil => exact absurd rfl hne
  | cons c cs =>
    have hpos := List.length_pos_iff.mpr (hc c List.mem_cons_self)
    simp only [Chunks.read]
    split
    · exact hpos
    · rw [List.length_take]
      omega

theorem toDo_fill (h : ConnectionInv rootAsMessage encode port t) {n : Nat} {got : Bytes} {phase : Bytes → Phase}
    (hgot : t.phase.got = got) (hrank : 0 < t.phase.rank) (hleft : t.phase.left = n - got.length)
    (hphase : ∀ got, (phase got).got = got ∧ (phase got).rank = t.phase.rank ∧ (phase got).left = n - got.length)
    (hs : t.fill n got phase = some t') : t'.toDo < t.toDo := by
  obtain ⟨hlt, ⟨-, -, rfl⟩ | ⟨hne, rfl⟩⟩ := fill_cases hs
  · have hfinished : (Phase.finished .returns).rank < t.phase.rank := hrank
    have hnil : (Phase.finished .returns).got.length = 0 := rfl
    refine toDo_lt ?_
    dsimp only
    omega
  · obtain ⟨hpos, hsum⟩ := read_progress (show 0 < n - got.length by omega) hne h.chunks
    obtain ⟨hgot', hrank', hleft'⟩ := hphase (got ++ (Chunks.read (n - got.length) t.inbox).1)
    rw [List.length_append] at hleft'
    refine toDo_lt (.inr ?_)
    simp only [hgot, hgot', hrank', hleft', hleft, List.length_append]
    exact ⟨by omega, .inr ⟨trivial, by omega⟩⟩

theorem toDo_read (h : ConnectionInv rootAsMessage encode port t) (hs : t.read = some t') : t'.toDo < t.toDo := by
  unfold Connection.read at hs
  split at hs
  · rename_i got hp
    exact toDo_fill h (by rw [hp]; rfl) (by rw [hp]; exact Nat.succ_pos _) (by rw [hp]; rfl)
      (fun _ => ⟨rfl, by rw [hp]; rfl, rfl⟩) hs
  · rename_i len got hp
    exact toDo_fill h (by rw [hp]; rfl) (by rw [hp]; exact Nat.succ_pos _) (by rw [hp]; rfl)
      (fun _ => ⟨rfl, by rw [hp]; rfl, rfl⟩) hs
  · cases hs

theorem toDo_step (h : ConnectionInv rootAsMessage encode port t) (hown : l.isOwn = true)
    (hs : connectionStep rootAsMessage encode t l = some t') : t'.toDo < t.toDo := by
  cases l with
  | arrives chunk | shutdown => cases hown
  | read => exact toDo_read h hs
  | sized =>
    simp only [connectionStep, Connection.sized] at hs
    split at hs
    · rename_i got hp
      split at hs
      · rename_i hgot
        cases hs
        refine toDo_lt (.inl ?_)
        simp only [hp, Phase.got, List.length_nil, hgot]
        omega
      · cases hs
    · cases hs
  | handle os =>
    simp only [connectionStep, Connection.handle] at hs
    split at hs
    · rename_i len got hp
      split at hs
      · cases hs
        refine toDo_lt ?_
        simp only [hp, Phase.got, Phase.rank, List.length_nil]
        omega
      · cases hs
    · cases hs
  | send accepted =>
    simp only [connectionStep, Connection.send] at hs
    split at hs
    · rename_i m rest ending hp
      split at hs
      · cases hs
        refine toDo_lt (.inr ⟨?_, .inr ⟨?_, ?_⟩⟩) <;> simp [hp, Phase.got, Phase.rank, Phase.left]
      · cases hs
    · cases hs
  | next =>
    simp only [connectionStep, Connection.next] at hs
    split at hs
    · rename_i hp
      cases hs
      refine toDo_lt (.inr ⟨?_, .inl ?_⟩) <;> simp [hp, Phase.got, Phase.rank]
    · rename_i hp
      cases hs
      refine toDo_lt (.inr ⟨?_, .inl ?_⟩) <;> simp [hp, Phase.got, Phase.rank]
    · cases hs

theorem fill_of_closed (hclosed : t.closed = true) {n : Nat} {got : Bytes} (hlt : got.length < n)
    (phase : Bytes → Phase) : t.fill n got phase ≠ none := by
  unfold Connection.fill
  rw [if_pos hlt]
  split
  · simp [hclosed]
  · simp

/-- The task can go on until it has ended. -/
theorem ended_of_stuck (h : ConnectionInv rootAsMessage encode port t) (hclosed : t.closed = true)
    (hstuck : ∀ l : ConnectionLabel, l.isOwn = true → connectionStep rootAsMessage encode t l = none) :
    t.ended.isSome = true := by
  have hphase := h.phase
  unfold Connection.PhaseInv at hphase
  cases hp : t.phase with
  | size got =>
    simp only [hp] at hphase
    rcases Nat.lt_or_ge got.length 4 with hlt | hge
    · refine absurd (hstuck .read rfl) ?_
      simp only [connectionStep, Connection.read, hp]
      exact fill_of_closed hclosed hlt _
    · have hsized := hstuck .sized rfl
      simp [connectionStep, Connection.sized, hp, show got.length = 4 by omega] at hsized
  | body len got =>
    simp only [hp] at hphase
    rcases Nat.lt_or_ge got.length len with hlt | hge
    · refine absurd (hstuck .read rfl) ?_
      simp only [connectionStep, Connection.read, hp]
      exact fill_of_closed hclosed hlt _
    · have hhandle := hstuck (.handle .quiet) rfl
      simp [connectionStep, Connection.handle, hp, show got.length = len by omega] at hhandle
  | handling rest ending =>
    cases rest with
    | cons m rest =>
      have hsend := hstuck (.send 0) rfl
      simp [connectionStep, Connection.send, hp] at hsend
    | nil =>
      cases ending with
      | waits => simp [Connection.ended, hp]
      | returns | panics =>
        have hnext := hstuck .next rfl
        simp [connectionStep, Connection.next, hp] at hnext
  | finished ending => simp [Connection.ended, hp]

theorem stuck_of_ended (hend : t.ended.isSome = true) (hown : l.isOwn = true) :
    connectionStep rootAsMessage encode t l = none := by
  unfold Connection.ended at hend
  split at hend
  · rename_i hp
    cases l <;> simp_all [connectionStep, Connection.read, Connection.sized, Connection.handle, Connection.send,
      Connection.next, ConnectionLabel.isOwn]
  · rename_i hp
    cases l <;> simp_all [connectionStep, Connection.read, Connection.sized, Connection.handle, Connection.send,
      Connection.next, ConnectionLabel.isOwn]
  · cases hend

/-- No task goes on for ever by itself, and the task of a client that has closed its side stops exactly
where it has ended. -/
theorem closed_connection_ends (rootAsMessage : Bytes → Option Message) (encode : Msg → Bytes) (port : Nat)
    {s : Server} (hr : Lts.Reachable (serverStep rootAsMessage encode port) .init s) {t : Connection}
    (ht : t ∈ s.tasks) :
    (¬ ∃ r : ℕ → Connection, r 0 = t ∧
      ∀ n, ∃ l, ConnectionLabel.isOwn l = true ∧ connectionStep rootAsMessage encode (r n) l = some (r (n + 1))) ∧
    (t.closed = true →
      ((∀ l : ConnectionLabel, l.isOwn = true → connectionStep rootAsMessage encode t l = none) ↔
        t.ended.isSome = true)) := by
  have h := connectionInv_of_reachable hr ht
  refine ⟨?_, fun hclosed => ⟨ended_of_stuck h hclosed, fun hend l hown => stuck_of_ended hend hown⟩⟩
  exact Lts.no_infinite_run (f := Connection.toDo) (J := ConnectionInv rootAsMessage encode port)
    (fun _ l _ hi (hown : ConnectionLabel.isOwn l = true) hs => ⟨connectionInv_step hi hs, toDo_step hi hown hs⟩) h

end Closed

/-- After `twoClients` the first task can do nothing more. -/
theorem first_client_done :
    ∃ (s : Server) (t : Connection), Lts.Reachable (serverStep rootNoEvent encodeTwo 8080) .init s ∧ t ∈ s.tasks ∧
      t.closed = true ∧
      ∀ l : ConnectionLabel, l.isOwn = true → connectionStep rootNoEvent encodeTwo t l = none := by
  obtain ⟨s, hs, hp⟩ := Lts.exists_of_run_map
    (p := fun s => s.tasks.head?.any fun t => t.closed && t.ended.isSome)
    (show (Lts.run (serverStep rootNoEvent encodeTwo 8080) .init twoClients).map _ = some true by decide +kernel)
  obtain ⟨t, ht, hp⟩ := (Option.any_eq_true _ _).mp hp
  rw [Bool.and_eq_true] at hp
  have hmem := List.mem_of_mem_head? ht
  have hr := Lts.reachable_of_run hs
  exact ⟨s, t, hr, hmem, hp.1, ((closed_connection_ends rootNoEvent encodeTwo 8080 hr hmem).2 hp.1).mpr hp.2⟩

end ProcCtrld.Rust
