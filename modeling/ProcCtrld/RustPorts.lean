import ProcCtrld.RustRequests

/-!
# ProcCtrld.RustPorts

The socket watch of the Rust daemon: `is_port_event` and the loop of `read_events_port_tokio` (`network.rs`),
called from the TCPSocket branch of `handle_surveillance_event` (`main.rs`).

The loop asks three questions in turn, each of a table of its own, and ends at the first one that is answered
with yes (`pollPort_finds_iff`). The entry has its port as a `u32`; the loop gets it cut to 16 bits, and the
messages carry it as an `i32`.

`watched_port_reported_iff`: a port that is seen listening or connected is the port of the message exactly
when `destport` is a port number, or when nothing is seen on the cut port.
-/

namespace ProcCtrld.Rust

/-- `netstat2::TcpState`; `other` are those that the loop does not ask for. -/
inductive TableState where
  | listen
  | unknown
  | established
  | other
deriving DecidableEq, Repr

/-- An entry of a socket table, by its `protocol_socket_info`. -/
inductive SocketInfo where
  | tcp (localPort : BitVec 16) (state : TableState)
  | udp (localPort : BitVec 16)
deriving DecidableEq, Repr

/-- What `get_sockets_info` gives; `none` is the error on which `expect` panics. -/
abbrev Poll := Option (List SocketInfo)

/-- `is_port_event`, with the table that it has got. -/
def isPortEvent (port : BitVec 16) (state : TableState) (socketInfo : List SocketInfo) : Bool :=
  socketInfo.any fun
    | .tcp localPort state' => localPort == port && state' == state
    | .udp _ => false

/-- The three tests of the loop. -/
inductive Query where
  | listen
  | unknown
  | established
deriving DecidableEq, Repr

namespace Query

def state : Query → TableState
  | listen => .listen
  | unknown => .unknown
  | established => .established

/-- The next test; behind the third one the loop begins again. -/
def next : Query → Query
  | listen => unknown
  | unknown => established
  | established => listen

/-- How the task ends on a hit. The `println!` about a listening socket panics without stdio. -/
def ends (stdio : Bool) : Query → PortOs
  | listen => if stdio then .finds .listen else .taskPanics
  | unknown => .finds .other
  | established => .finds .established

/-- The test that comes `n` tests later. -/
def after (q : Query) : Nat → Query
  | 0 => q
  | n + 1 => q.next.after n

end Query

section Loop

variable (port : BitVec 16) (stdio : Bool)

/-- The loop from a test on, with the tables that it gets; it waits when there are no more of them. -/
def pollPort : Query → List Poll → PortOs
  | _, [] => .waits
  | _, none :: _ => .taskPanics
  | q, some table :: polls => if isPortEvent port q.state table then q.ends stdio else pollPort q.next polls

/-- The tables that the loop has looked at when it ends. -/
def polled : Query → List Poll → List (List SocketInfo)
  | _, [] => []
  | _, none :: _ => []
  | q, some table :: polls => if isPortEvent port q.state table then [table] else table :: polled q.next polls

end Loop

/-- The messages of a TCPSocket entry. -/
def watchPort (daemonPid : Pid) (stdio : Bool) (destport : BitVec 32) (polls : List Poll) : List Msg :=
  (handleSurveillanceEvent daemonPid (.tcpSocket (some ⟨destport.toNat⟩))
    (readEventsPortTokio (pollPort (destport.setWidth 16) stdio .listen polls))).msgs

/-- A table of the watch has a TCP socket on the port in that state. -/
def SeenOn (destport : BitVec 32) (polls : List Poll) (port : Int) (state : TableState) : Prop :=
  ∃ table ∈ polled (destport.setWidth 16) .listen polls,
    ∃ localPort, .tcp localPort state ∈ table ∧ (localPort.toNat : Int) = port

/-- What the messages say about their port was seen on that port. -/
structure ReportsItsPort (daemonPid : Pid) (stdio : Bool) (destport : BitVec 32) (polls : List Poll) : Prop where
  acknowledged : ∀ port port' state, .socketWatched port ∈ watchPort daemonPid stdio destport polls →
    .socketWatchTerminated port' state ∈ watchPort daemonPid stdio destport polls → port' = port
  listening : ∀ port, .socketWatchTerminated port .listeing ∈ watchPort daemonPid stdio destport polls →
    SeenOn destport polls port .listen
  created : ∀ port, .socketWatchTerminated port .created ∈ watchPort daemonPid stdio destport polls →
    SeenOn destport polls port .established

/-! ## The loop -/

section Poll

variable {port : BitVec 16} {stdio : Bool} {q : Query} {polls : List Poll} {state : TcpState}

theorem isPortEvent_iff {s : TableState} {table : List SocketInfo} :
    isPortEvent port s table = true ↔ .tcp port s ∈ table := by
  rw [isPortEvent, List.any_eq_true]
  constructor
  · rintro ⟨info, hmem, h⟩
    cases info with
    | tcp localPort s' =>
      simp only [Bool.and_eq_true, beq_iff_eq] at h
      rw [← h.1, ← h.2]
      exact hmem
    | udp localPort => cases h
  · intro h
    exact ⟨_, h, by simp⟩

/-- Test `n` is the first one answered with yes, and no table before it is missing. -/
structure FirstHit (port : BitVec 16) (q : Query) (polls : List Poll) (n : Nat) : Prop where
  hit : ∃ table, polls[n]? = some (some table) ∧ isPortEvent port (q.after n).state table = true
  before : ∀ m < n, ∃ table, polls[m]? = some (some table) ∧ isPortEvent port (q.after m).state table = false

theorem firstHit_zero {table : List SocketInfo} (h : isPortEvent port q.state table = true) :
    FirstHit port q (some table :: polls) 0 :=
  ⟨⟨table, rfl, h⟩, fun _ hm => absurd hm (Nat.not_lt_zero _)⟩

theorem firstHit_succ_iff {table : List SocketInfo} {n : Nat} : FirstHit port q (some table :: polls) (n + 1) ↔
    isPortEvent port q.state table = false ∧ FirstHit port q.next polls n := by
  constructor
  · intro h
    obtain ⟨t, ht, hmiss⟩ := h.before 0 (Nat.succ_pos n)
    cases ht
    refine ⟨hmiss, h.hit, ?_⟩
    intro m hm
    exact h.before (m + 1) (Nat.succ_lt_succ hm)
  · rintro ⟨hmiss, h⟩
    refine ⟨h.hit, ?_⟩
    intro m hm
    cases m with
    | zero => exact ⟨table, rfl, hmiss⟩
    | succ m => exact h.before m (Nat.lt_of_succ_lt_succ hm)

theorem Query.ends_eq_finds (h : q.ends stdio = .finds state) :
    (q = .listen ∧ stdio = true ∧ state = .listen) ∨ (q = .unknown ∧ state = .other) ∨
      (q = .established ∧ state = .established) := by
  cases q with
  | listen =>
    cases stdio with
    | true =>
      cases h
      exact .inl ⟨rfl, rfl, rfl⟩
    | false => cases h
  | unknown =>
    cases h
    exact .inr (.inl ⟨rfl, rfl⟩)
  | established =>
    cases h
    exact .inr (.inr ⟨rfl, rfl⟩)

theorem pollPort_finds_iff : pollPort port stdio q polls = .finds state ↔
    ∃ n, FirstHit port q polls n ∧ (q.after n).ends stdio = .finds state := by
  induction polls generalizing q with
  | nil =>
    refine iff_of_false (by simp [pollPort]) ?_
    rintro ⟨n, h, -⟩
    obtain ⟨table, htable, -⟩ := h.hit
    cases htable
  | cons poll polls ih =>
    cases poll with
    | none =>
      refine iff_of_false (by simp [pollPort]) ?_
      rintro ⟨n, h, -⟩
      cases n with
      | zero =>
        obtain ⟨table, htable, -⟩ := h.hit
        cases htable
      | succ n =>
        obtain ⟨table, htable, -⟩ := h.before 0 (Nat.succ_pos n)
        cases htable
    | some table =>
      rw [pollPort]
      split
      · rename_i hhit
        constructor
        · intro h
          exact ⟨0, firstHit_zero hhit, h⟩
        · rintro ⟨n, hn, hends⟩
          cases n with
          | zero => exact hends
          | succ n => exact absurd hhit (by simp [(firstHit_succ_iff.mp hn).1])
      · rename_i hmiss
        rw [ih]
        constructor
        · rintro ⟨n, hn, hends⟩
          exact ⟨n + 1, firstHit_succ_iff.mpr ⟨by simpa using hmiss, hn⟩, hends⟩
        · rintro ⟨n, hn, hends⟩
          cases n with
          | zero =>
            obtain ⟨t, ht, hhit⟩ := hn.hit
            cases ht
            exact absurd hhit hmiss
          | succ n => exact ⟨n, (firstHit_succ_iff.mp hn).2, hends⟩

theorem polled_of_firstHit {n : Nat} (h : FirstHit port q polls n) :
    ∃ table ∈ polled port q polls, .tcp port (q.after n).state ∈ table := by
  induction polls generalizing q n with
  | nil =>
    obtain ⟨table, htable, -⟩ := h.hit
    cases htable
  | cons poll polls ih =>
    cases n with
    | zero =>
      obtain ⟨table, htable, hhit⟩ := h.hit
      cases htable
      have hq : isPortEvent port q.state table = true := hhit
      refine ⟨table, ?_, isPortEvent_iff.mp hhit⟩
      rw [polled, if_pos hq]
      exact List.mem_singleton_self _
    | succ n =>
      obtain ⟨table, htable, -⟩ := h.before 0 (Nat.succ_pos n)
      cases htable
      obtain ⟨hmiss, hn⟩ := firstHit_succ_iff.mp h
      obtain ⟨t, ht, hmem⟩ := ih hn
      refine ⟨t, ?_, hmem⟩
      rw [polled, if_neg (by simp [hmiss])]
      exact List.mem_cons_of_mem _ ht

end Poll

/-! ## The messages -/

/-- The first hit tells the client nothing about its port: no state, or no message of the watch at all. -/
def Unseen (stdio : Bool) (destport : BitVec 32) (polls : List Poll) : Prop :=
  ∀ n, FirstHit (destport.setWidth 16) .listen polls n →
    Query.listen.after n = .unknown ∨ (Query.listen.after n = .listen ∧ stdio = false)

section Messages

variable {daemonPid : Pid} {stdio : Bool} {destport : BitVec 32} {polls : List Poll} {port : Int}
  {state : SocketState}

theorem mem_socketWatched : .socketWatched port ∈ watchPort daemonPid stdio destport polls ↔
    port = asI32 destport.toNat := by
  unfold watchPort
  cases pollPort (destport.setWidth 16) stdio .listen polls <;>
    simp [handleSurveillanceEvent, readEventsPortTokio, watch, Sending.andThen, sends]

theorem mem_socketWatchTerminated : .socketWatchTerminated port state ∈ watchPort daemonPid stdio destport polls ↔
    port = asI32 destport.toNat ∧
      ∃ found, pollPort (destport.setWidth 16) stdio .listen polls = .finds found ∧ found.toSend = state := by
  unfold watchPort
  cases pollPort (destport.setWidth 16) stdio .listen polls <;>
    simp [handleSurveillanceEvent, readEventsPortTokio, watch, Sending.andThen, sends, eq_comm]

/-- No 16-bit number is the port of a message about a larger one. -/
theorem asI32_eq_toNat_iff (destport : BitVec 32) (localPort : BitVec 16) :
    (localPort.toNat : Int) = asI32 destport.toNat ↔ localPort.toNat = destport.toNat := by
  have hlocal := localPort.isLt
  have hdest := destport.isLt
  simp only [asI32, BitVec.toInt, BitVec.toNat_ofNat]
  omega

theorem toNat_setWidth_eq_iff (destport : BitVec 32) :
    (destport.setWidth 16).toNat = destport.toNat ↔ destport.toNat < 65536 := by
  rw [BitVec.toNat_setWidth]
  omega

theorem listening_iff : .socketWatchTerminated port .listeing ∈ watchPort daemonPid stdio destport polls ↔
    port = asI32 destport.toNat ∧
      ∃ n, FirstHit (destport.setWidth 16) .listen polls n ∧ Query.listen.after n = .listen ∧ stdio = true := by
  rw [mem_socketWatchTerminated]
  refine and_congr_right fun _ => ?_
  constructor
  · rintro ⟨found, hfinds, hsend⟩
    obtain ⟨n, hn, hends⟩ := pollPort_finds_iff.mp hfinds
    rcases Query.ends_eq_finds hends with ⟨hq, hstdio, -⟩ | ⟨-, rfl⟩ | ⟨-, rfl⟩
    · exact ⟨n, hn, hq, hstdio⟩
    · cases hsend
    · cases hsend
  · rintro ⟨n, hn, hq, hstdio⟩
    exact ⟨.listen, pollPort_finds_iff.mpr ⟨n, hn, by simp [hq, hstdio, Query.ends]⟩, rfl⟩

theorem created_iff : .socketWatchTerminated port .created ∈ watchPort daemonPid stdio destport polls ↔
    port = asI32 destport.toNat ∧
      ∃ n, FirstHit (destport.setWidth 16) .listen polls n ∧ Query.listen.after n = .established := by
  rw [mem_socketWatchTerminated]
  refine and_congr_right fun _ => ?_
  constructor
  · rintro ⟨found, hfinds, hsend⟩
    obtain ⟨n, hn, hends⟩ := pollPort_finds_iff.mp hfinds
    rcases Query.ends_eq_finds hends with ⟨-, -, rfl⟩ | ⟨-, rfl⟩ | ⟨hq, -⟩
    · cases hsend
    · cases hsend
    · exact ⟨n, hn, hq⟩
  · rintro ⟨n, hn, hq⟩
    exact ⟨.established, pollPort_finds_iff.mpr ⟨n, hn, by simp [hq, Query.ends]⟩, rfl⟩

/-- A port number keeps its value on the way to the loop and on the way to the message. -/
theorem seenOn_of_lt {n : Nat} (h : destport.toNat < 65536) (hn : FirstHit (destport.setWidth 16) .listen polls n) :
    SeenOn destport polls (asI32 destport.toNat) (Query.listen.after n).state := by
  obtain ⟨table, htable, hmem⟩ := polled_of_firstHit hn
  refine ⟨table, htable, _, hmem, ?_⟩
  rw [asI32_eq_toNat_iff, toNat_setWidth_eq_iff]
  exact h

theorem lt_of_seenOn {s : TableState} (h : SeenOn destport polls (asI32 destport.toNat) s) :
    destport.toNat < 65536 := by
  obtain ⟨table, -, localPort, -, hport⟩ := h
  rw [← (asI32_eq_toNat_iff destport localPort).mp hport]
  exact localPort.isLt

end Messages

/-- For every `destport` and every succession of tables. -/
theorem watched_port_reported_iff (daemonPid : Pid) (stdio : Bool) (destport : BitVec 32) (polls : List Poll) :
    ReportsItsPort daemonPid stdio destport polls ↔ destport.toNat < 65536 ∨ Unseen stdio destport polls := by
  constructor
  · intro h
    by_contra hnot
    push Not at hnot
    obtain ⟨hlarge, hseen⟩ := hnot
    refine hseen ?_
    intro n hn
    cases hq : Query.listen.after n with
    | listen =>
      refine .inr ⟨rfl, ?_⟩
      by_contra hstdio
      have hmsg := h.listening _ (listening_iff.mpr ⟨rfl, n, hn, hq, by simpa using hstdio⟩)
      exact absurd (lt_of_seenOn hmsg) (Nat.not_lt.mpr hlarge)
    | unknown => exact .inl rfl
    | established =>
      have hmsg := h.created _ (created_iff.mpr ⟨rfl, n, hn, hq⟩)
      exact absurd (lt_of_seenOn hmsg) (Nat.not_lt.mpr hlarge)
  · intro h
    refine ⟨?_, ?_, ?_⟩
    · intro port port' state hwatched hterminated
      rw [mem_socketWatched.mp hwatched, (mem_socketWatchTerminated.mp hterminated).1]
    · intro port hmsg
      obtain ⟨rfl, n, hn, hq, hstdio⟩ := listening_iff.mp hmsg
      rcases h with hlt | hunseen
      · have hseen := seenOn_of_lt hlt hn
        rwa [hq] at hseen
      · rcases hunseen n hn with hq' | ⟨-, hstdio'⟩
        · rw [hq] at hq'
          cases hq'
        · rw [hstdio] at hstdio'
          cases hstdio'
    · intro port hmsg
      obtain ⟨rfl, n, hn, hq⟩ := created_iff.mp hmsg
      rcases h with hlt | hunseen
      · have hseen := seenOn_of_lt hlt hn
        rwa [hq] at hseen
      · rcases hunseen n hn with hq' | ⟨hq', -⟩
        · rw [hq] at hq'
          cases hq'
        · rw [hq] at hq'
          cases hq'

/-- A listener on 8080 answers a watch of 73616. -/
theorem port_73616_reported_for_8080 :
    watchPort 500 true 73616 [some [.tcp 8080 .listen]] =
        [.socketWatched 73616, .socketWatchTerminated 73616 .listeing] ∧
      ¬ ReportsItsPort 500 true 73616 [some [.tcp 8080 .listen]] := by
  have hmsgs : watchPort 500 true 73616 [some [.tcp 8080 .listen]] =
      [.socketWatched 73616, .socketWatchTerminated 73616 .listeing] := by decide +kernel
  refine ⟨hmsgs, ?_⟩
  intro h
  have hmem : .socketWatchTerminated 73616 .listeing ∈ watchPort 500 true 73616 [some [.tcp 8080 .listen]] := by
    rw [hmsgs]
    simp
  obtain ⟨table, -, localPort, -, hport⟩ := h.listening 73616 hmem
  have := localPort.isLt
  omega

end ProcCtrld.Rust
