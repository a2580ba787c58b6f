import ProcCtrld.Sends
import Mathlib.Data.List.Pairwise

/-!
# ProcCtrld.Replies

To which client the C daemon sends what a request causes.

The daemon answers a request on the descriptor it came from, but reports later events (the end of a
child, the outcome of its `execve`, inotify records) on `communication_socket`, which every accept
overwrites; a socket watch keeps the number of the descriptor and sends on it whatever it refers to
by then. `Served` is the daemon with the connections behind its descriptors and, for each launch and
each watch, the connection that asked for it. Every message is recorded with the connection that
caused it and the connection that gets it.

`replies_reach_requester_iff`: along a run every message reaches the connection that caused it
exactly when every event that the daemon handles belongs to the client that connected last, while it
is connected (`FromLastClient`).
-/

namespace ProcCtrld

variable {s s' : State} {l : Label}

/-- A connection, by the order of the accepts. -/
abbrev Conn := Nat

/-- The connection behind a descriptor. -/
def connOf (conns : List (Fd × Conn)) (fd : Fd) : Option Conn :=
  (conns.find? (·.1 == fd)).map (·.2)

/-- A `detector_thread`, with the `communication_socket` of its arguments. -/
structure Detector where
  sock : Fd
  port : Nat
  requester : Conn
deriving DecidableEq, Repr

structure Reply where
  msg : Msg
  requester : Option Conn
  receiver : Option Conn
deriving DecidableEq, Repr

/-- `conns` are the open connections with their descriptors, `requesters` the connections behind the
launches and `watches` those behind the inotify watches. `exiting` says that a detector thread has
sent its message and is about to call `exit(0)`. -/
structure Served where
  daemon : State
  conns : List (Fd × Conn)
  accepted : Nat
  requesters : List Conn
  watches : List Conn
  detectors : List Detector
  exiting : Bool
  replies : List Reply

/-- An inotify record comes with the watch it is for, a `SocketWatchTerminated` with its detector
thread. -/
inductive ServedLabel where
  | daemon (l : Label)
  | inotify (updates : List (InotifyPathUpdated × Nat))
  | watchTerminated (detector : Nat) (state : SocketState)
  | exit
deriving DecidableEq, Repr

/-- The list that `process_surveillance_requests` goes through in the step, with the descriptor it
writes to. -/
def State.surveilled (s : State) : Label → Option (Fd × List (Option Surveillance))
  | .runCommand com (.paramFails _) | .runCommand com (.mallocFails ..)
  | .runCommand com (.cloneFails ..) =>
    match s.batch with
    | .sockMessage sock :: _ => some (sock, com.toWatch)
    | _ => none
  | .launchReturns _ =>
    match s.mode with
    | .launching lg => some (lg.sock, lg.toWatch)
    | _ => none
  | _ => none

def newWatches (c : Conn) (toWatch : List (Option Surveillance)) : List Conn :=
  toWatch.filterMap fun
    | some (.inotify ..) => some c
    | _ => none

def newDetectors (sock : Fd) (c : Conn) (toWatch : List (Option Surveillance)) : List Detector :=
  toWatch.filterMap fun
    | some (.watchSocket port) => some ⟨sock, port, c⟩
    | _ => none

namespace Served

/-- The daemon at its first `epoll_wait`. -/
def init (heap : Nat → ProcessInfo) (nfds : Nat) (garbageSock : Fd) (destPort : Nat) : Served where
  daemon := .init heap nfds garbageSock destPort
  conns := []
  accepted := 0
  requesters := []
  watches := []
  detectors := []
  exiting := false
  replies := []

/-- The connection whose request the step works on. -/
def requester (t : Served) : Label → Option Conn
  | .runCommand .. =>
    match t.daemon.batch with
    | .sockMessage sock :: _ => connOf t.conns sock
    | _ => none
  | .launchReturns _ =>
    match t.daemon.mode with
    | .launching lg => t.requesters[lg.launch]?
    | _ => none
  | _ => none

/-- A request is read from a connection, and only the SOCK_MESSAGE case and stale closes close
one. -/
def possible (t : Served) : Label → Bool
  | .inotify _ => false
  | .closeOther fd => (connOf t.conns fd).isNone
  | .runCommand com os => (t.requester (.runCommand com os)).isSome
  | _ => true

/-- A message of the step, sent while the open connections are `conns`. -/
def replyOf (t : Served) (l : Label) (conns : List (Fd × Conn)) (m : Sent) : Reply where
  msg := m.msg
  requester :=
    match m.launch with
    | some k => t.requesters[k]?
    | none => t.requester l
  receiver := connOf conns m.sock

/-- The connections that are still open in `s`. -/
def stillOpen (t : Served) (s : State) : List (Fd × Conn) :=
  t.conns.filter fun x => (s.fds x.1).isSome

/-- `handle_SIGCHLD` closes the error file before its message is sent; the EXECVE case closes the
pipe after. -/
def openAtSend (t : Served) (s : State) : Label → List (Fd × Conn)
  | .signalfd .. | .waitpidReturns .. => t.stillOpen s
  | _ => t.conns

def after (t : Served) (l : Label) (s : State) : Served where
  daemon := s
  conns :=
    match l with
    | .sockConnexion fd => (fd, t.accepted) :: t.stillOpen s
    | _ => t.stillOpen s
  accepted :=
    match l with
    | .sockConnexion _ => t.accepted + 1
    | _ => t.accepted
  requesters :=
    match l with
    | .runCommand _ (.clones ..) => t.requesters ++ (t.requester l).toList
    | _ => t.requesters
  watches :=
    match t.daemon.surveilled l, t.requester l with
    | some (_, toWatch), some c => t.watches ++ newWatches c toWatch
    | _, _ => t.watches
  detectors :=
    match t.daemon.surveilled l, t.requester l with
    | some (sock, toWatch), some c => t.detectors ++ newDetectors sock c toWatch
    | _, _ => t.detectors
  exiting := t.exiting
  replies := t.replies ++
    ((s.sent.drop t.daemon.sent.length).filter (·.msg.isReply)).map (t.replyOf l (t.openAtSend s l))

def daemonStep (t : Served) (l : Label) : Option Served :=
  if t.possible l then
    match step t.daemon l with
    | some s => some (t.after l s)
    | none => none
  else none

def inotify (t : Served) (updates : List (InotifyPathUpdated × Nat)) : Option Served :=
  if ∀ u ∈ updates, u.2 < t.watches.length then
    match step t.daemon (.inotify (updates.map (·.1))) with
    | some s =>
      some { t with
        daemon := s
        replies := t.replies ++ updates.map fun u =>
          ⟨.inotifyPathUpdated u.1, t.watches[u.2]?, connOf t.conns t.daemon.communicationSocket⟩ }
    | none => none
  else none

/-- `search_TCP_connection` sends its message. -/
def watchTerminated (t : Served) (i : Nat) (state : SocketState) : Option Served :=
  match t.detectors[i]? with
  | some d =>
    if t.daemon.mode = .halted then none
    else
      some { t with
        detectors := t.detectors.eraseIdx i
        exiting := true
        replies := t.replies ++
          [⟨.socketWatchTerminated (asI32 d.port) state, some d.requester, connOf t.conns d.sock⟩] }
  | none => none

/-- `exit(0)` in `detector_thread`. -/
def exit (t : Served) : Option Served :=
  if t.exiting then some { t with daemon := { t.daemon with mode := .halted } } else none

end Served

def servedStep (t : Served) : ServedLabel → Option Served
  | .daemon l => t.daemonStep l
  | .inotify updates => t.inotify updates
  | .watchTerminated i state => t.watchTerminated i state
  | .exit => t.exit

/-- The message went to the connection whose request caused it. -/
def Reply.Right (r : Reply) : Prop := ∃ c, r.requester = some c ∧ r.receiver = some c

def RepliesReach (t : Served) : Prop := ∀ r ∈ t.replies, r.Right

/-! ## The condition -/

/-- The launch whose end or whose `execve` the step reports. -/
def State.reportsOn (s : State) : Label → Option (Option Nat)
  | .signalfd garbage _ => (s.pending.bind (s.terminated · garbage)).map (·.launch)
  | .waitpidReturns garbage _ =>
    match s.mode with
    | .waitpid pid => (s.terminated pid garbage).map (·.launch)
    | _ => none
  | .execve _ =>
    match s.batch with
    | .execve e :: _ => some (some e.launch)
    | _ => none
  | _ => none

/-- The client that connected last, while it is connected. -/
def Served.isLast (t : Served) (c : Option Conn) : Prop :=
  ∃ x ∈ t.conns, c = some x.2 ∧ x.2 + 1 = t.accepted

instance (t : Served) (c : Option Conn) : Decidable (t.isLast c) :=
  inferInstanceAs (Decidable (∃ x ∈ t.conns, c = some x.2 ∧ x.2 + 1 = t.accepted))

/-- The events that the daemon handles belong to requests of the client that connected last, and
the close of a stale error file does not hit that client; a socket watch ends while its client is
connected. -/
def FromLastClient (t : Served) : ServedLabel → Prop
  | .daemon l => ∀ launch ∈ t.daemon.reportsOn l,
      t.isLast (launch.bind (t.requesters[·]?)) ∧ t.daemon.closes l ≠ some t.daemon.communicationSocket
  | .inotify updates => ∀ u ∈ updates, t.isLast t.watches[u.2]?
  | .watchTerminated i _ => ∀ d ∈ t.detectors[i]?, ∃ x ∈ t.conns, x.2 = d.requester
  | .exit => True

instance (t : Served) : (l : ServedLabel) → Decidable (FromLastClient t l)
  | .daemon l => inferInstanceAs (Decidable (∀ launch ∈ t.daemon.reportsOn l,
      t.isLast (launch.bind (t.requesters[·]?)) ∧
        t.daemon.closes l ≠ some t.daemon.communicationSocket))
  | .inotify updates => inferInstanceAs (Decidable (∀ u ∈ updates, t.isLast t.watches[u.2]?))
  | .watchTerminated i _ =>
    inferInstanceAs (Decidable (∀ d ∈ t.detectors[i]?, ∃ x ∈ t.conns, x.2 = d.requester))
  | .exit => isTrue trivial

/-! ## Connections and descriptors -/

theorem connOf_mem {conns : List (Fd × Conn)} {fd : Fd} {c : Conn} (h : connOf conns fd = some c) :
    (fd, c) ∈ conns := by
  obtain ⟨x, hx, rfl⟩ := Option.map_eq_some_iff.mp h
  have hfd := List.find?_some hx
  rw [beq_iff_eq] at hfd
  rw [← hfd]
  exact List.mem_of_find?_eq_some hx

theorem connOf_eq_some {conns : List (Fd × Conn)} (hd : conns.Pairwise fun x y => x.1 ≠ y.1) {fd : Fd}
    {c : Conn} : connOf conns fd = some c ↔ (fd, c) ∈ conns := by
  refine ⟨connOf_mem, ?_⟩
  intro hmem
  induction conns with
  | nil => cases hmem
  | cons x xs ih =>
    obtain ⟨hx, hxs⟩ := List.pairwise_cons.mp hd
    rcases List.mem_cons.mp hmem with rfl | hmem
    · simp [connOf]
    · have hne : x.1 ≠ fd := hx _ hmem
      have : connOf (x :: xs) fd = connOf xs fd := by
        simp [connOf, hne]
      rw [this]
      exact ih hxs hmem

/-- The bookkeeping of `Served` matches the daemon: `communication_socket` is the descriptor of the
client that connected last, as long as that client is connected. -/
structure Tidy (t : Served) : Prop where
  isOpen : ∀ x ∈ t.conns, (t.daemon.fds x.1).isSome
  fds : t.conns.Pairwise fun x y => x.1 ≠ y.1
  ids : t.conns.Pairwise fun x y => x.2 ≠ y.2
  known : ∀ x ∈ t.conns, x.2 < t.accepted
  last : ∀ x ∈ t.conns, x.1 = t.daemon.communicationSocket ↔ x.2 + 1 = t.accepted
  requesters : t.requesters.length = t.daemon.children.length
  launching : ∀ lg, t.daemon.mode = .launching lg →
    ∃ c, t.requesters[lg.launch]? = some c ∧ (lg.sock, c) ∈ t.conns
  detectors : ∀ d ∈ t.detectors, d.requester < t.accepted ∧
    ∀ x ∈ t.conns, x.2 = d.requester → x.1 = d.sock

variable {t t' : Served}

theorem tidy_init (heap : Nat → ProcessInfo) (nfds : Nat) (sock : Fd) (port : Nat) :
    Tidy (.init heap nfds sock port) := by
  refine ⟨?_, .nil, .nil, ?_, ?_, rfl, ?_, ?_⟩ <;> simp [Served.init, State.init]

theorem Tidy.isLast_iff (h : Tidy t) (c : Option Conn) :
    t.isLast c ↔ ∃ x, c = some x ∧ connOf t.conns t.daemon.communicationSocket = some x := by
  simp only [connOf_eq_some h.fds]
  constructor
  · rintro ⟨x, hx, rfl, hlast⟩
    refine ⟨x.2, rfl, ?_⟩
    rw [← (h.last x hx).mpr hlast]
    exact hx
  · rintro ⟨x, rfl, hx⟩
    exact ⟨_, hx, rfl, (h.last _ hx).mp rfl⟩

theorem Tidy.detector_iff (h : Tidy t) {d : Detector} (hd : d ∈ t.detectors) :
    (∃ x ∈ t.conns, x.2 = d.requester) ↔ connOf t.conns d.sock = some d.requester := by
  rw [connOf_eq_some h.fds]
  constructor
  · rintro ⟨x, hx, hid⟩
    rw [← (h.detectors d hd).2 x hx hid, ← hid]
    exact hx
  · intro hmem
    exact ⟨_, hmem, rfl⟩

theorem Tidy.unique (h : Tidy t) {x y : Fd × Conn} (hx : x ∈ t.conns) (hy : y ∈ t.conns)
    (hid : x.2 = y.2) : x = y := by
  have : Std.Symm fun x y : Fd × Conn => x.2 ≠ y.2 := ⟨fun _ _ hne => hne.symm⟩
  by_contra hne
  exact h.ids.forall hx hy hne hid

theorem mem_stillOpen {x : Fd × Conn} :
    x ∈ t.stillOpen s ↔ x ∈ t.conns ∧ (s.fds x.1).isSome := by
  simp [Served.stillOpen]

theorem mem_after_detectors {d : Detector} (hd : d ∈ (t.after l s).detectors) :
    d ∈ t.detectors ∨ ∃ (sock : Fd) (ws : List (Option Surveillance)),
      t.daemon.surveilled l = some (sock, ws) ∧ t.requester l = some d.requester ∧ d.sock = sock := by
  simp only [Served.after] at hd
  split at hd
  · rename_i sock ws c hsurv hreq
    rcases List.mem_append.mp hd with hd | hd
    · exact .inl hd
    · obtain ⟨w, -, hw⟩ := List.mem_filterMap.mp hd
      split at hw
      · cases hw
        exact .inr ⟨sock, ws, hsurv, hreq, rfl⟩
      · cases hw
  · exact .inl hd

theorem Tidy.surveilled (h : Tidy t) {sock : Fd} {ws : List (Option Surveillance)} {c : Conn}
    (hsurv : t.daemon.surveilled l = some (sock, ws)) (hreq : t.requester l = some c) :
    (sock, c) ∈ t.conns := by
  cases l with
  | runCommand com os =>
    have hsock : ∀ ws', (match t.daemon.batch with
        | .sockMessage sock :: _ => some (sock, ws')
        | _ => none) = some (sock, ws) → (sock, c) ∈ t.conns := by
      intro ws' hb
      split at hb
      · rename_i fd rest hbatch
        cases hb
        simp only [Served.requester, hbatch] at hreq
        exact connOf_mem hreq
      · cases hb
    cases os with
    | paramFails errno | mallocFails errFile errno | cloneFails errFile pipefd errno =>
      exact hsock _ hsurv
    | pipeFails | clones errFile pipefd pid stack => cases hsurv
  | launchReturns epollAdd =>
    simp only [State.surveilled] at hsurv
    simp only [Served.requester] at hreq
    split at hsurv
    · rename_i lg hmode
      cases hsurv
      simp only [hmode] at hreq
      obtain ⟨c', hc', hmem⟩ := h.launching lg hmode
      rw [hc'] at hreq; cases hreq
      exact hmem
    · cases hsurv
  | _ => cases hsurv

/-- The steps other than an accept: connections go, none comes. -/
theorem Tidy.of_stillOpen (h : Tidy t) (hs : step t.daemon l = some s) (hl : ∀ fd, l ≠ .sockConnexion fd)
    (hposs : t.possible l = true)
    (hsock : s.communicationSocket = t.daemon.communicationSocket)
    (hlen : (t.after l s).requesters.length = s.children.length)
    (hnew : ∀ lg, s.mode = .launching lg → t.daemon.mode = .launching lg ∨
      ∃ c, (t.after l s).requesters[lg.launch]? = some c ∧ (lg.sock, c) ∈ t.stillOpen s) :
    Tidy (t.after l s) := by
  have hconns : (t.after l s).conns = t.stillOpen s := by
    cases l <;> first | rfl | exact absurd rfl (hl _)
  have hacc : (t.after l s).accepted = t.accepted := by
    cases l <;> first | rfl | exact absurd rfl (hl _)
  have hsub : ∀ x ∈ t.stillOpen s, x ∈ t.conns := fun x hx => (mem_stillOpen.mp hx).1
  refine ⟨?_, ?_, ?_, ?_, ?_, hlen, ?_, ?_⟩
  · intro x hx
    rw [hconns] at hx
    exact (mem_stillOpen.mp hx).2
  · rw [hconns]; exact h.fds.filter _
  · rw [hconns]; exact h.ids.filter _
  · intro x hx
    rw [hconns] at hx
    rw [hacc]
    exact h.known x (hsub x hx)
  · intro x hx
    rw [hconns] at hx
    rw [hacc, show (t.after l s).daemon.communicationSocket = t.daemon.communicationSocket from hsock]
    exact h.last x (hsub x hx)
  · intro lg hlg
    rw [hconns]
    rcases hnew lg hlg with hmode | hnew
    · obtain ⟨c, hc, hmem⟩ := h.launching lg hmode
      have hreq : (t.after l s).requesters[lg.launch]? = some c := by
        simp only [Served.after]
        split
        · rw [List.getElem?_append_left (List.getElem?_eq_some_iff.mp hc).1]
          exact hc
        · exact hc
      refine ⟨c, hreq, mem_stillOpen.mpr ⟨hmem, ?_⟩⟩
      refine launching_fds hmode hs hlg (h.isOpen _ hmem) ?_
      rintro rfl
      have hnone : connOf t.conns lg.sock = none := by
        simpa [Served.possible] using hposs
      rw [(connOf_eq_some h.fds).mpr hmem] at hnone
      cases hnone
    · exact hnew
  · intro d hd
    rw [hconns, hacc]
    rcases mem_after_detectors hd with hd | ⟨sock, ws, hsurv, hreq, rfl⟩
    · exact ⟨(h.detectors d hd).1, fun x hx => (h.detectors d hd).2 x (hsub x hx)⟩
    · have hmem := h.surveilled hsurv hreq
      refine ⟨h.known _ hmem, ?_⟩
      intro x hx hid
      rw [h.unique (hsub x hx) hmem hid]

theorem tidy_sockConnexion {fd : Fd} (h : Tidy t) (hs : step t.daemon (.sockConnexion fd) = some s) :
    Tidy (t.after (.sockConnexion fd) s) := by
  have hspec : t.daemon.fds fd = none ∧ (s.fds fd).isSome ∧ s.communicationSocket = fd ∧
      s.mode = .loop := by
    simp only [step, State.sockConnexion] at hs
    split at hs
    · rename_i rest hmode hbatch
      split at hs
      · rename_i fds hopen
        cases hs
        refine ⟨?_, by simp [openFd_new hopen], rfl, hmode⟩
        unfold openFd at hopen
        split at hopen
        · rename_i hfree; exact hfree.1
        · cases hopen
      · cases hs
    · cases hs
  obtain ⟨hfree, hopen, hcomm, hmode⟩ := hspec
  have hsub : ∀ x ∈ t.stillOpen s, x ∈ t.conns := fun x hx => (mem_stillOpen.mp hx).1
  have hne : ∀ x ∈ t.stillOpen s, fd ≠ x.1 := by
    intro x hx heq
    have := h.isOpen x (hsub x hx)
    rw [← heq, hfree] at this
    cases this
  have hconns : (t.after (.sockConnexion fd) s).conns = (fd, t.accepted) :: t.stillOpen s := rfl
  have hlen := (not_clones_spec hs rfl).1
  refine ⟨?_, ?_, ?_, ?_, ?_, ?_, ?_, ?_⟩
  · intro x hx
    rw [hconns] at hx
    rcases List.mem_cons.mp hx with rfl | hx
    · exact hopen
    · exact (mem_stillOpen.mp hx).2
  · rw [hconns]
    exact List.pairwise_cons.mpr ⟨hne, h.fds.filter _⟩
  · rw [hconns]
    refine List.pairwise_cons.mpr ⟨?_, h.ids.filter _⟩
    intro x hx
    exact Nat.ne_of_gt (h.known x (hsub x hx))
  · intro x hx
    rw [hconns] at hx
    rw [show (t.after (.sockConnexion fd) s).accepted = t.accepted + 1 from rfl]
    rcases List.mem_cons.mp hx with rfl | hx
    · exact Nat.lt_succ_self _
    · exact Nat.lt_succ_of_lt (h.known x (hsub x hx))
  · intro x hx
    rw [hconns] at hx
    rw [show (t.after (.sockConnexion fd) s).accepted = t.accepted + 1 from rfl,
      show (t.after (.sockConnexion fd) s).daemon = s from rfl, hcomm]
    rcases List.mem_cons.mp hx with rfl | hx
    · simp
    · have hlt := h.known x (hsub x hx)
      have hfd := hne x hx
      constructor
      · intro heq; exact absurd heq.symm hfd
      · intro heq; exact absurd (Nat.succ.inj heq) (Nat.ne_of_lt hlt)
  · rw [show (t.after (.sockConnexion fd) s).daemon = s from rfl, hlen]
    exact h.requesters
  · intro lg hlg
    rw [show (t.after (.sockConnexion fd) s).daemon = s from rfl, hmode] at hlg
    cases hlg
  · intro d hd
    have hd' : d ∈ t.detectors := hd
    obtain ⟨hlt, hsock⟩ := h.detectors d hd'
    rw [hconns]
    refine ⟨Nat.lt_succ_of_lt hlt, ?_⟩
    intro x hx hid
    rcases List.mem_cons.mp hx with rfl | hx
    · exact absurd hid.symm (Nat.ne_of_lt hlt)
    · exact hsock x (hsub x hx) hid

theorem tidy_daemonStep (h : Tidy t) (hs : t.daemonStep l = some t') : Tidy t' := by
  unfold Served.daemonStep at hs
  split at hs
  · rename_i hposs
    split at hs
    · rename_i s hstep
      cases hs
      by_cases hconn : ∃ fd, l = .sockConnexion fd
      · obtain ⟨fd, rfl⟩ := hconn
        exact tidy_sockConnexion h hstep
      · have hl : ∀ fd, l ≠ .sockConnexion fd := fun fd heq => hconn ⟨fd, heq⟩
        have hsock := communicationSocket_same hstep hl
        by_cases hclone : l.clones = true
        · obtain ⟨com, errFile, pipefd, pid, stack, rfl⟩ := Label.exists_of_clones hclone
          obtain ⟨sock, rest, lg, hbatch, hch, hmode, hlaunch, hlsock⟩ := clones_spec hstep
          obtain ⟨c, hc⟩ := Option.isSome_iff_exists.mp hposs
          have hreq : (t.after (.runCommand com (.clones errFile pipefd pid stack)) s).requesters =
              t.requesters ++ [c] := by simp [Served.after, hc]
          simp only [Served.requester, hbatch] at hc
          have hmem := connOf_mem hc
          refine h.of_stillOpen hstep hl hposs hsock ?_ fun lg' hlg' => .inr ⟨c, ?_, ?_⟩
          · rw [hreq, hch, List.length_append, List.length_append, h.requesters]; rfl
          · rw [hmode] at hlg'; cases hlg'
            rw [hreq, hlaunch, ← h.requesters]
            exact List.getElem?_concat_length
          · rw [hmode] at hlg'; cases hlg'
            rw [hlsock]
            exact mem_stillOpen.mpr ⟨hmem, runCommand_fds hstep (h.isOpen _ hmem)⟩
        · have hclone' : l.clones = false := by simpa using hclone
          obtain ⟨hlen, hmode⟩ := not_clones_spec hstep hclone'
          have hreq : (t.after l s).requesters = t.requesters := by
            simp only [Served.after]
            split
            · cases hclone'
            · rfl
          refine h.of_stillOpen hstep hl hposs hsock ?_ fun lg hlg => .inl (hmode lg hlg)
          rw [hreq, hlen]
          exact h.requesters
    · cases hs
  · cases hs

theorem tidy_step {l : ServedLabel} (h : Tidy t) (hs : servedStep t l = some t') : Tidy t' := by
  cases l with
  | daemon l => exact tidy_daemonStep h hs
  | inotify updates =>
    simp only [servedStep, Served.inotify] at hs
    split at hs
    · split at hs
      · rename_i s hstep
        cases hs
        have hfds : s.fds = t.daemon.fds := by
          simp only [step, State.inotify] at hstep
          split at hstep <;> cases hstep
          rfl
        have hsock := communicationSocket_same hstep (by simp)
        obtain ⟨hlen, hmode⟩ := not_clones_spec hstep rfl
        refine ⟨?_, h.fds, h.ids, h.known, ?_, ?_, fun lg hlg => h.launching lg (hmode lg hlg),
          h.detectors⟩
        · simp only [hfds]; exact h.isOpen
        · simp only [hsock]; exact h.last
        · simp only [hlen]; exact h.requesters
      · cases hs
    · cases hs
  | watchTerminated i state =>
    simp only [servedStep, Served.watchTerminated] at hs
    split at hs
    · split at hs
      · cases hs
      · cases hs
        exact ⟨h.isOpen, h.fds, h.ids, h.known, h.last, h.requesters, h.launching,
          fun d hd => h.detectors d (List.mem_of_mem_eraseIdx hd)⟩
    · cases hs
  | exit =>
    simp only [servedStep, Served.exit] at hs
    split at hs
    · cases hs
      exact ⟨h.isOpen, h.fds, h.ids, h.known, h.last, h.requesters, fun lg hlg => (by cases hlg),
        h.detectors⟩
    · cases hs

/-! ## Which replies are right -/

/-- An answer that a request gets at once, on its own descriptor. -/
theorem right_of_request {sock : Fd} {c : Conn} {m : Sent} (hc : t.requester l = some c)
    (hconn : connOf t.conns sock = some c) (hsock : m.sock = sock)
    (hlaunch : ∀ k, m.launch = some k → t.requesters[k]? = some c) : (t.replyOf l t.conns m).Right := by
  refine ⟨c, ?_, ?_⟩
  · unfold Served.replyOf
    cases hk : m.launch with
    | none => exact hc
    | some k => exact hlaunch k hk
  · simp only [Served.replyOf, hsock]
    exact hconn

/-- A message on `communication_socket` about a launch is right when the launch is the last
client's. -/
theorem Tidy.right_iff (h : Tidy t) {m : Sent} (hreq : t.requester l = none)
    (hsock : m.sock = t.daemon.communicationSocket) :
    (t.replyOf l t.conns m).Right ↔ t.isLast (m.launch.bind (t.requesters[·]?)) := by
  rw [h.isLast_iff]
  unfold Reply.Right Served.replyOf
  rw [hsock]
  cases m.launch with
  | none => simp [hreq]
  | some k => simp

theorem Tidy.connOf_stillOpen (h : Tidy t) (hl : l.handlesSignal = true)
    (hs : step t.daemon l = some s) {fd : Fd} {c : Conn} :
    connOf (t.stillOpen s) fd = some c ↔ connOf t.conns fd = some c ∧ t.daemon.closes l ≠ some fd := by
  have hfds : (t.stillOpen s).Pairwise fun x y => x.1 ≠ y.1 := h.fds.filter _
  rw [connOf_eq_some hfds, connOf_eq_some h.fds, mem_stillOpen, handled_fds hl hs]
  refine and_congr_right ?_
  intro hmem
  have hopen := h.isOpen _ hmem
  by_cases hc : t.daemon.closes l = some fd <;> simp [hc, hopen]

theorem Tidy.signal_right_iff (h : Tidy t) (hl : l.handlesSignal = true)
    (hs : step t.daemon l = some s) {x : Option Sent} (hsends : t.daemon.sends l = x.toList)
    (hreports : t.daemon.reportsOn l = x.map (·.launch))
    (hx : ∀ m ∈ x, m.sock = t.daemon.communicationSocket ∧ m.msg.isReply = true) :
    (∀ m ∈ (t.daemon.sends l).filter (·.msg.isReply), (t.replyOf l (t.openAtSend s l) m).Right) ↔
      FromLastClient t (.daemon l) := by
  have hreq : t.requester l = none := by
    cases l <;> first | rfl | cases hl
  have hopen : t.openAtSend s l = t.stillOpen s := by
    cases l <;> first | rfl | cases hl
  rw [hsends, hopen]
  simp only [FromLastClient, hreports]
  cases x with
  | none => simp
  | some m =>
    obtain ⟨hsock, hreply⟩ := hx m rfl
    have hright : (t.replyOf l (t.stillOpen s) m).Right ↔ (t.replyOf l t.conns m).Right ∧
        t.daemon.closes l ≠ some t.daemon.communicationSocket := by
      simp only [Reply.Right, Served.replyOf, hsock, h.connOf_stillOpen hl hs]
      constructor
      · rintro ⟨c, hc, hconn, hne⟩; exact ⟨⟨c, hc, hconn⟩, hne⟩
      · rintro ⟨⟨c, hc, hconn⟩, hne⟩; exact ⟨c, hc, hconn, hne⟩
    rw [h.right_iff hreq hsock] at hright
    simp [hreply, hright]

theorem right_of_answer {sock : Fd} {c : Conn} {m₀ : Sent} {ws : List (Option Surveillance)}
    (hc : t.requester l = some c) (hconn : connOf t.conns sock = some c) (hsock : m₀.sock = sock)
    (hlaunch : ∀ k, m₀.launch = some k → t.requesters[k]? = some c) :
    ∀ m ∈ (m₀ :: surveillanceAcks sock ws).filter (·.msg.isReply), (t.replyOf l t.conns m).Right := by
  intro m hm
  rcases List.mem_cons.mp (List.mem_of_mem_filter hm) with rfl | hm
  · exact right_of_request hc hconn hsock hlaunch
  · refine right_of_request hc hconn (mem_surveillanceAcks_sock hm) ?_
    intro k hk
    rw [mem_surveillanceAcks hm] at hk
    cases hk

theorem runCommand_right {com : Command} {os : LaunchOs}
    (hposs : t.possible (.runCommand com os) = true) :
    ∀ m ∈ (t.daemon.sends (.runCommand com os)).filter (·.msg.isReply),
      (t.replyOf (.runCommand com os) t.conns m).Right := by
  obtain ⟨c, hc⟩ := Option.isSome_iff_exists.mp hposs
  have hbatch : ∃ sock rest, t.daemon.batch = .sockMessage sock :: rest ∧ connOf t.conns sock = some c := by
    simp only [Served.requester] at hc
    split at hc
    · rename_i sock rest hb
      exact ⟨sock, rest, hb, hc⟩
    · cases hc
  obtain ⟨sock, rest, hb, hconn⟩ := hbatch
  cases os with
  | paramFails errno | mallocFails errFile errno | cloneFails errFile pipefd errno =>
    simp only [State.sends, hb]
    exact right_of_answer hc hconn rfl fun k hk => by cases hk
  | pipeFails | clones errFile pipefd pid stack => simp [State.sends]

theorem Tidy.launchReturns_right (h : Tidy t) (epollAdd : Bool) :
    ∀ m ∈ (t.daemon.sends (.launchReturns epollAdd)).filter (·.msg.isReply),
      (t.replyOf (.launchReturns epollAdd) t.conns m).Right := by
  simp only [State.sends]
  split
  · rename_i lg hmode
    obtain ⟨c, hc, hmem⟩ := h.launching lg hmode
    have hreq : t.requester (.launchReturns epollAdd) = some c := by
      simp only [Served.requester, hmode, hc]
    refine right_of_answer hreq ((connOf_eq_some h.fds).mpr hmem) rfl ?_
    intro k hk
    cases hk
    exact hc
  · simp

theorem Tidy.execve_right_iff (h : Tidy t) {foreign : Bool} (hs : step t.daemon (.execve foreign) = some s) :
    (∀ m ∈ (t.daemon.sends (.execve foreign)).filter (·.msg.isReply),
        (t.replyOf (.execve foreign) t.conns m).Right) ↔ FromLastClient t (.daemon (.execve foreign)) := by
  have hspec : ∃ e rest success, t.daemon.batch = .execve e :: rest ∧
      t.daemon.readExecve e.fd foreign = some success := by
    simp only [step, State.execve] at hs
    split at hs
    · rename_i e rest hmode hbatch
      split at hs
      · cases hs
      · split at hs
        · rename_i success hread
          exact ⟨e, rest, success, hbatch, hread⟩
        · cases hs
    · cases hs
  obtain ⟨e, rest, success, hbatch, hread⟩ := hspec
  let m : Sent := ⟨t.daemon.communicationSocket, .execveTerminated e.pid e.path success, some e.launch⟩
  have hsends : (t.daemon.sends (.execve foreign)).filter (·.msg.isReply) = [m] := by
    simp [State.sends, hbatch, hread, Msg.isReply, m]
  have hright : (t.replyOf (.execve foreign) t.conns m).Right ↔ t.isLast t.requesters[e.launch]? :=
    h.right_iff rfl rfl
  rw [hsends, List.forall_mem_singleton, hright]
  simp [FromLastClient, State.reportsOn, hbatch, State.closes]

/-- The messages of a step of the daemon are right exactly when the step meets the condition. -/
theorem Tidy.daemon_right_iff (h : Tidy t) (hposs : t.possible l = true)
    (hs : step t.daemon l = some s) :
    (∀ m ∈ (t.daemon.sends l).filter (·.msg.isReply), (t.replyOf l (t.openAtSend s l) m).Right) ↔
      FromLastClient t (.daemon l) := by
  cases l with
  | signalfd garbage held =>
    refine h.signal_right_iff rfl hs (x := t.daemon.pending.bind (t.daemon.terminated · garbage)) rfl rfl ?_
    intro m hm
    obtain ⟨pid, -, hm⟩ := Option.bind_eq_some_iff.mp hm
    exact State.terminated_spec hm
  | waitpidReturns garbage held =>
    have hmode : ∃ pid, t.daemon.mode = .waitpid pid := by
      simp only [step, State.waitpidReturns] at hs
      split at hs
      · exact ⟨_, by assumption⟩
      · cases hs
    obtain ⟨pid, hmode⟩ := hmode
    refine h.signal_right_iff rfl hs (x := t.daemon.terminated pid garbage) ?_ ?_ ?_
    · simp only [State.sends, hmode]
    · simp only [State.reportsOn, hmode]
    · exact fun m hm => State.terminated_spec hm
  | execve foreign => exact h.execve_right_iff hs
  | runCommand com os =>
    refine iff_of_true (runCommand_right hposs) ?_
    intro launch hl
    cases hl
  | launchReturns epollAdd =>
    refine iff_of_true (h.launchReturns_right epollAdd) ?_
    intro launch hl
    cases hl
  | inotify updates => cases hposs
  | _ => simp [State.sends, FromLastClient, State.reportsOn, Msg.isReply]

/-! ## Runs -/

/-- What a step adds to the replies is right exactly when the step meets the condition. -/
theorem step_replies {l : ServedLabel} (h : Tidy t) (hs : servedStep t l = some t') :
    ∃ new, t'.replies = t.replies ++ new ∧ ((∀ r ∈ new, r.Right) ↔ FromLastClient t l) := by
  cases l with
  | daemon l =>
    simp only [servedStep, Served.daemonStep] at hs
    split at hs
    · rename_i hposs
      split at hs
      · rename_i s hstep
        cases hs
        have hdrop : s.sent.drop t.daemon.sent.length = t.daemon.sends l := by
          rw [step_sends hstep, List.drop_left]
        refine ⟨_, rfl, ?_⟩
        rw [hdrop, List.forall_mem_map]
        exact h.daemon_right_iff hposs hstep
      · cases hs
    · cases hs
  | inotify updates =>
    simp only [servedStep, Served.inotify] at hs
    split at hs
    · split at hs
      · cases hs
        refine ⟨_, rfl, ?_⟩
        rw [List.forall_mem_map]
        simp only [FromLastClient, h.isLast_iff]
        rfl
      · cases hs
    · cases hs
  | watchTerminated i state =>
    simp only [servedStep, Served.watchTerminated] at hs
    split at hs
    · rename_i d hd
      split at hs
      · cases hs
      · cases hs
        refine ⟨_, rfl, ?_⟩
        simp only [FromLastClient, hd, Option.mem_some, forall_eq', List.forall_mem_singleton,
          h.detector_iff (List.mem_of_getElem? hd), Reply.Right, Option.some.injEq, exists_eq_left']
    · cases hs
  | exit =>
    simp only [servedStep, Served.exit] at hs
    split at hs
    · cases hs
      exact ⟨[], (List.append_nil _).symm, by simp [FromLastClient]⟩
    · cases hs

/-- Along a run every message reaches the client that caused it exactly when every step meets the
condition. -/
theorem replies_reach_requester_iff (heap : Nat → ProcessInfo) (nfds : Nat) (sock : Fd) (port : Nat)
    (ls : List ServedLabel) (hrun : (Lts.run servedStep (.init heap nfds sock port) ls).isSome) :
    Lts.StatesAll servedStep RepliesReach (.init heap nfds sock port) ls ↔
      Lts.StepsAll servedStep FromLastClient (.init heap nfds sock port) ls := by
  refine Lts.forall_states_iff_forall_steps (J := fun t => Tidy t ∧ RepliesReach t) (fun t h => h.2) ?_ ?_
    ⟨tidy_init heap nfds sock port, fun r hr => by cases hr⟩ hrun
  · intro t l t' h hg hs
    obtain ⟨new, hnew, hiff⟩ := step_replies h.1 hs
    refine ⟨tidy_step h.1 hs, ?_⟩
    intro r hr
    rw [hnew] at hr
    rcases List.mem_append.mp hr with hr | hr
    · exact h.2 r hr
    · exact hiff.mpr hg r hr
  · intro t l t' h hg hs hall
    obtain ⟨new, hnew, hiff⟩ := step_replies h.1 hs
    refine hg (hiff.mp fun r hr => hall r ?_)
    rw [hnew]
    exact List.mem_append_right _ hr

/-- A daemon whose descriptors 0 to 7 are in use. -/
def Served.start : Served := .init (fun _ => ⟨none, 0, 0⟩) 8 0 8080

/-- A client launches a child, a second client connects, and the child execs and exits. -/
def secondClientConnects : List ServedLabel :=
  List.map .daemon (connects ++ launches "A" 9 (10, 11) 20 ++
    [.epollWait [.sockConnexion], .sockConnexion 11] ++ execs 0 "A" 10 20 ++
    [.child 0 (.exit (.exited 0))] ++ handlesSignal)

/-- The second client gets the `ExecveTerminated` and the `ProcessTerminated` of the first. -/
theorem second_client_gets_replies :
    (Lts.run servedStep .start secondClientConnects).isSome ∧
      ¬ Lts.StatesAll servedStep RepliesReach .start secondClientConnects := by
  obtain ⟨t, ht, hp⟩ := Lts.exists_of_run_map
    (p := fun t => t.replies == [⟨.processLaunched 20, some 0, some 0⟩,
      ⟨.execveTerminated 20 "A" true, some 0, some 1⟩, ⟨.processTerminated 20 0, some 0, some 1⟩])
    (show (Lts.run servedStep .start secondClientConnects).map _ = some true by decide +kernel)
  rw [beq_iff_eq] at hp
  refine ⟨by rw [ht]; rfl, ?_⟩
  intro hall
  have hreach := hall.last ht
  have hlast : (⟨.processTerminated 20 0, some 0, some 1⟩ : Reply) ∈ t.replies := by rw [hp]; simp
  obtain ⟨c, hreq, hrec⟩ := hreach _ hlast
  cases hreq
  cases hrec

/-- A client launches a child with two surveillances and gets all there is to tell about it; a second
client connects after that, while the socket watch of the first is still running. -/
def oneClientAfterTheOther : List ServedLabel :=
  List.map .daemon (connects ++
    [.epollWait [.sockMessage 8],
     .runCommand ⟨"A", ["A"], [], 0, 8192, [some (.inotify "/tmp" 2 0), some (.watchSocket 80)]⟩
       (.clones (some 9) (10, 11) 20 4096),
     .launchReturns true] ++ execs 0 "A" 10 20) ++
  [.daemon (.epollWait [.inotify]), .inotify [(⟨"f", .modified, 3, 0⟩, 0)]] ++
  List.map .daemon ([.child 0 (.exit (.exited 0))] ++ handlesSignal ++
    [.epollWait [.sockConnexion], .sockConnexion 9]) ++ [.watchTerminated 0 .unknown]

theorem one_client_after_the_other :
    (Lts.run servedStep .start oneClientAfterTheOther).isSome ∧
      Lts.StatesAll servedStep RepliesReach .start oneClientAfterTheOther := by
  have hrun : (Lts.run servedStep .start oneClientAfterTheOther).isSome := by decide +kernel
  exact ⟨hrun, (replies_reach_requester_iff _ 8 0 8080 _ hrun).mpr
    (Lts.stepsAll_of_guarded_run (by decide +kernel))⟩

end ProcCtrld
