import ProcCtrld.Replies
import ProcCtrld.Requests
import ProcCtrld.SockMessage

/-!
# ProcCtrld.EventLoop

The event loop of the C daemon over the bytes of its sockets: the SOCK_MESSAGE and SOCK_CONNEXION
cases of `daemon-core.c` with the reads of `read_socket_message` and the decoding that `Served` leaves
to its labels.

Each connection comes with the stream of its client, cut into the chunks that the reads of the daemon
are answered with. A read that gives no frame and a decoder that reads an absent field dereference
`NULL`, which ends the daemon (`faulted`).

`requests_exact`: in every run, however the connections, the children and the signals interleave, the
requests that the daemon has acted upon from a connection are the first of those that its client made,
in order, and what it has not acted upon is still unread.
-/

namespace ProcCtrld

open FlatBuffers

/-- `streams` are the whole streams of the connections, by the order of the accepts, and `unread` what
is left of them. `handled` logs the requests with the connections they were read from. -/
structure EventLoop where
  served : Served
  streams : List (List Bytes)
  unread : List (List Bytes)
  handled : List (Option Conn × Request)
  faulted : Bool

/-- `malloc` is for the call of `read_socket_message`, and `foreign` is what can be read from a
descriptor that is no longer a connection. -/
inductive LoopLabel where
  | served (l : ServedLabel)
  | sockConnexion (fd : Fd) (stream : List Bytes)
  | sockMessage (malloc : Malloc) (foreign : List Bytes) (os : LaunchOs)

/-- The steps that read from a client or accept one. -/
def ServedLabel.onSocket : ServedLabel → Bool
  | .daemon (.runCommand ..) | .daemon (.killProcess _) | .daemon .unexpected | .daemon .sockClosed
  | .daemon (.sockConnexion _) => true
  | _ => false

/-- The case of the `switch`, with what the system does to it. -/
def Request.label (os : LaunchOs) : Request → Label
  | runCommand com => .runCommand com os
  | killProcess pid => .killProcess pid
  | unexpected => .unexpected

/-- The requests in a log that are from connection `c`. -/
def fromConn (c : Conn) (handled : List (Option Conn × Request)) : List Request :=
  (handled.filter fun x => x.1 = some c).map (·.2)

namespace EventLoop

def init (heap : Nat → ProcessInfo) (nfds : Nat) (garbageSock : Fd) (destPort : Nat) : EventLoop where
  served := .init heap nfds garbageSock destPort
  streams := []
  unread := []
  handled := []
  faulted := false

/-- What the reads of a descriptor are answered with. -/
def readable (t : EventLoop) (fd : Fd) (foreign : List Bytes) : List Bytes :=
  match connOf t.served.conns fd with
  | some c => t.unread.getD c []
  | none => foreign

def advance (t : EventLoop) (fd : Fd) (rest : List Bytes) : EventLoop :=
  match connOf t.served.conns fd with
  | some c => { t with unread := t.unread.set c rest }
  | none => t

/-- The SOCK_MESSAGE case. -/
def sockMessage (verify : Bytes → Int → Option Message) (t : EventLoop) (malloc : Malloc)
    (foreign : List Bytes) (os : LaunchOs) : Option EventLoop :=
  match t.served.daemon.mode, t.served.daemon.batch with
  | .loop, .sockMessage fd :: _ =>
    let r := ProcCtrld.sockMessage malloc (t.readable fd foreign)
    let t' := t.advance fd r.2
    match r.1 with
    | .nullDeref => some { t' with faulted := true }
    | .closed =>
      match t.served.daemonStep .sockClosed with
      | some served => some { t' with served := served }
      | none => none
    | .handled payload =>
      match dispatch verify payload payload.length with
      | .error _ => some { t' with faulted := true }
      | .ok req =>
        match t.served.daemonStep (req.label os) with
        | some served => some { t' with
            served := served
            handled := t.handled ++ [(connOf t.served.conns fd, req)] }
        | none => none
  | _, _ => none

/-- The SOCK_CONNEXION case; `stream` is the stream of the new client. -/
def sockConnexion (t : EventLoop) (fd : Fd) (stream : List Bytes) : Option EventLoop :=
  match t.served.daemonStep (.sockConnexion fd) with
  | some served => some { t with
      served := served
      streams := t.streams ++ [stream]
      unread := t.unread ++ [stream] }
  | none => none

def servedStep (t : EventLoop) (l : ServedLabel) : Option EventLoop :=
  if l.onSocket then none
  else
    match ProcCtrld.servedStep t.served l with
    | some served => some { t with served := served }
    | none => none

/-- The requests from a connection, in the order in which they were acted upon. -/
def requestsOf (t : EventLoop) (c : Conn) : List Request := fromConn c t.handled

end EventLoop

def loopStep (verify : Bytes → Int → Option Message) (t : EventLoop) (l : LoopLabel) :
    Option EventLoop :=
  if t.faulted then none
  else
    match l with
    | .served l => t.servedStep l
    | .sockConnexion fd stream => t.sockConnexion fd stream
    | .sockMessage malloc foreign os => t.sockMessage verify malloc foreign os

/-! ## What a step does -/

section Step

variable {verify : Bytes → Int → Option Message} {t t' : EventLoop} {l : LoopLabel}

theorem servedStep_conns {u u' : Served} {l : ServedLabel} (h : servedStep u l = some u')
    (hl : ∀ fd, l ≠ .daemon (.sockConnexion fd)) :
    u'.accepted = u.accepted ∧ ∀ x ∈ u'.conns, x ∈ u.conns := by
  cases l with
  | daemon l =>
    simp only [servedStep, Served.daemonStep] at h
    split at h
    · split at h
      · rename_i s hs
        cases h
        have hl' : ∀ fd, l ≠ .sockConnexion fd := fun fd heq => hl fd (by rw [heq])
        have hconns : (u.after l s).conns = u.stillOpen s := by
          cases l <;> first | rfl | exact absurd rfl (hl' _)
        have hacc : (u.after l s).accepted = u.accepted := by
          cases l <;> first | rfl | exact absurd rfl (hl' _)
        refine ⟨hacc, fun x hx => ?_⟩
        rw [hconns] at hx
        exact (mem_stillOpen.mp hx).1
      · cases h
    · cases h
  | inotify updates =>
    simp only [servedStep, Served.inotify] at h
    split at h
    · split at h
      · cases h
        exact ⟨rfl, fun x hx => hx⟩
      · cases h
    · cases h
  | watchTerminated i state =>
    simp only [servedStep, Served.watchTerminated] at h
    split at h
    · split at h
      · cases h
      · cases h
        exact ⟨rfl, fun x hx => hx⟩
    · cases h
  | exit =>
    simp only [servedStep, Served.exit] at h
    split at h
    · cases h
      exact ⟨rfl, fun x hx => hx⟩
    · cases h

theorem accept_conns {u u' : Served} {fd : Fd} (h : u.daemonStep (.sockConnexion fd) = some u') :
    u'.accepted = u.accepted + 1 ∧
      ∃ conns, u'.conns = (fd, u.accepted) :: conns ∧ ∀ x ∈ conns, x ∈ u.conns := by
  simp only [Served.daemonStep] at h
  split at h
  · split at h
    · rename_i s hs
      cases h
      exact ⟨rfl, _, rfl, fun x hx => (mem_stillOpen.mp hx).1⟩
    · cases h
  · cases h

theorem sockClosed_conns {u u' : Served} {fd : Fd} {rest : List Ready}
    (h : u.daemonStep .sockClosed = some u') (hmode : u.daemon.mode = .loop)
    (hbatch : u.daemon.batch = .sockMessage fd :: rest) :
    u'.accepted = u.accepted ∧ ∀ x ∈ u'.conns, x ∈ u.conns ∧ x.1 ≠ fd := by
  simp only [Served.daemonStep] at h
  split at h
  · split at h
    · rename_i s hs
      cases h
      refine ⟨rfl, fun x hx => ?_⟩
      obtain ⟨hmem, hopen⟩ := mem_stillOpen.mp hx
      refine ⟨hmem, ?_⟩
      rintro rfl
      simp only [step, State.sockClosed, hmode, hbatch, Option.some.injEq] at hs
      rw [← hs] at hopen
      simp [State.closeFd] at hopen
    · cases h
  · cases h

/-- A step of the loop over the bytes, sorted by what it reads. The first case is every step that reads
nothing from a client. -/
inductive LoopEffect (verify : Bytes → Int → Option Message) (t : EventLoop) :
    LoopLabel → EventLoop → Prop where
  | served {l : ServedLabel} {served : Served} (hl : l.onSocket = false)
      (hstep : servedStep t.served l = some served) :
      LoopEffect verify t (.served l) { t with served := served }
  | accepts {fd : Fd} {stream : List Bytes} {served : Served}
      (hstep : t.served.daemonStep (.sockConnexion fd) = some served) :
      LoopEffect verify t (.sockConnexion fd stream) { t with
        served := served
        streams := t.streams ++ [stream]
        unread := t.unread ++ [stream] }
  | faults {malloc : Malloc} {foreign : List Bytes} {os : LaunchOs} {fd : Fd} {rest : List Bytes} :
      LoopEffect verify t (.sockMessage malloc foreign os) { t.advance fd rest with faulted := true }
  | closes {malloc : Malloc} {foreign : List Bytes} {os : LaunchOs} {fd : Fd} {batch : List Ready}
      {rest : List Bytes} {served : Served} (hmode : t.served.daemon.mode = .loop)
      (hbatch : t.served.daemon.batch = .sockMessage fd :: batch)
      (hstep : t.served.daemonStep .sockClosed = some served) :
      LoopEffect verify t (.sockMessage malloc foreign os) { t.advance fd rest with served := served }
  | handles {malloc : Malloc} {foreign : List Bytes} {os : LaunchOs} {fd : Fd} {rest : List Bytes}
      {payload : Bytes} {req : Request} {served : Served}
      (hread : ProcCtrld.sockMessage malloc (t.readable fd foreign) = (.handled payload, rest))
      (hreq : dispatch verify payload payload.length = .ok req)
      (hstep : t.served.daemonStep (req.label os) = some served) :
      LoopEffect verify t (.sockMessage malloc foreign os) { t.advance fd rest with
        served := served
        handled := t.handled ++ [(connOf t.served.conns fd, req)] }

theorem loopStep_effect (h : loopStep verify t l = some t') :
    t.faulted = false ∧ LoopEffect verify t l t' := by
  unfold loopStep at h
  split at h
  · cases h
  · rename_i hf
    refine ⟨by simpa using hf, ?_⟩
    cases l with
    | served l =>
      simp only [EventLoop.servedStep] at h
      split at h
      · cases h
      · rename_i hl
        split at h
        · rename_i hstep
          cases h
          exact .served (by simpa using hl) hstep
        · cases h
    | sockConnexion fd stream =>
      simp only [EventLoop.sockConnexion] at h
      split at h
      · rename_i hstep
        cases h
        exact .accepts hstep
      · cases h
    | sockMessage malloc foreign os =>
      simp only [EventLoop.sockMessage] at h
      split at h
      · rename_i fd batch hmode hbatch
        cases hread : ProcCtrld.sockMessage malloc (t.readable fd foreign) with
        | mk outcome rest =>
          rw [hread] at h
          cases outcome with
          | nullDeref => cases h; exact .faults
          | closed =>
            simp only at h
            split at h
            · rename_i hstep
              cases h
              exact .closes hmode hbatch hstep
            · cases h
          | handled payload =>
            simp only at h
            split at h
            · cases h; exact .faults
            · rename_i req hreq
              split at h
              · rename_i hstep
                cases h
                exact .handles hread hreq hstep
              · cases h
      · cases h

end Step

/-! ## What has been read -/

section Read

variable {verify : Bytes → Int → Option Message} {t t' : EventLoop} {l : LoopLabel} {c : Conn}

@[simp] theorem advance_served (fd : Fd) (rest : List Bytes) : (t.advance fd rest).served = t.served := by
  unfold EventLoop.advance; split <;> rfl

@[simp] theorem advance_streams (fd : Fd) (rest : List Bytes) :
    (t.advance fd rest).streams = t.streams := by
  unfold EventLoop.advance; split <;> rfl

@[simp] theorem advance_handled (fd : Fd) (rest : List Bytes) :
    (t.advance fd rest).handled = t.handled := by
  unfold EventLoop.advance; split <;> rfl

@[simp] theorem advance_faulted (fd : Fd) (rest : List Bytes) :
    (t.advance fd rest).faulted = t.faulted := by
  unfold EventLoop.advance; split <;> rfl

@[simp] theorem length_advance_unread (fd : Fd) (rest : List Bytes) :
    (t.advance fd rest).unread.length = t.unread.length := by
  unfold EventLoop.advance; split <;> simp

theorem advance_unread_of_ne {fd : Fd} {rest : List Bytes} (h : connOf t.served.conns fd ≠ some c) :
    (t.advance fd rest).unread.getD c [] = t.unread.getD c [] := by
  unfold EventLoop.advance
  split
  · rename_i c₀ hc₀
    have hne : c₀ ≠ c := fun heq => h (by rw [hc₀, heq])
    simp [List.getD_eq_getElem?_getD, List.getElem?_set_ne hne]
  · rfl

theorem advance_unread_self {fd : Fd} {rest : List Bytes} (h : connOf t.served.conns fd = some c)
    (hc : c < t.unread.length) : (t.advance fd rest).unread.getD c [] = rest := by
  simp [EventLoop.advance, h, List.getD_eq_getElem?_getD, hc]

theorem fromConn_concat (handled : List (Option Conn × Request)) (x : Option Conn × Request) :
    fromConn c (handled ++ [x]) = fromConn c handled ++ if x.1 = some c then [x.2] else [] := by
  simp only [fromConn, List.filter_append, List.map_append, List.filter_cons, List.filter_nil]
  split <;> simp_all

/-- The frames `ps` of the stream of connection `c` have been read and acted upon; while the
connection is open, the rest is unread. -/
structure ReadOff (verify : Bytes → Int → Option Message) (t : EventLoop) (c : Conn)
    (stream : List Bytes) (ps : List Bytes) (rest : Bytes) : Prop where
  stream : stream.flatten = frames ps ++ rest
  framed : ∀ p ∈ ps, p ≠ [] ∧ p.length < 2 ^ 31
  handled : (t.requestsOf c).map Except.ok = ps.map fun p => dispatch verify p p.length
  unread : (∃ x ∈ t.served.conns, x.2 = c) → t.faulted = false → (t.unread.getD c []).flatten = rest

structure LoopInv (verify : Bytes → Int → Option Message) (t : EventLoop) : Prop where
  tidy : Tidy t.served
  streams : t.streams.length = t.served.accepted
  unread : t.unread.length = t.served.accepted
  known : ∀ x ∈ t.handled, ∀ c, x.1 = some c → c < t.served.accepted
  read : ∀ c stream, t.streams[c]? = some stream → ∃ ps rest, ReadOff verify t c stream ps rest

theorem loopInv_init (heap : Nat → ProcessInfo) (nfds : Nat) (sock : Fd) (port : Nat) :
    LoopInv verify (.init heap nfds sock port) := by
  refine ⟨tidy_init heap nfds sock port, rfl, rfl, ?_, ?_⟩
  · intro x hx; cases hx
  · intro c stream h; cases h

/-- Steps that read nothing, or whose read has come to nothing: connections may go. -/
theorem LoopInv.of_same (h : LoopInv verify t) (htidy : Tidy t'.served)
    (hacc : t'.served.accepted = t.served.accepted) (hstreams : t'.streams = t.streams)
    (hlen : t'.unread.length = t.unread.length) (hhandled : t'.handled = t.handled)
    (hunread : ∀ x ∈ t'.served.conns, t'.faulted = false →
      x ∈ t.served.conns ∧ t.faulted = false ∧ t'.unread.getD x.2 [] = t.unread.getD x.2 []) :
    LoopInv verify t' := by
  refine ⟨htidy, by rw [hstreams, hacc, h.streams], by rw [hlen, hacc, h.unread], ?_, ?_⟩
  · rw [hhandled, hacc]
    exact h.known
  · intro c stream hc
    rw [hstreams] at hc
    obtain ⟨ps, rest, hread⟩ := h.read c stream hc
    refine ⟨ps, rest, hread.stream, hread.framed, ?_, ?_⟩
    · rw [EventLoop.requestsOf, hhandled]
      exact hread.handled
    · rintro ⟨x, hx, rfl⟩ hf
      obtain ⟨hmem, hf₀, hsame⟩ := hunread x hx hf
      rw [hsame]
      exact hread.unread ⟨x, hmem, rfl⟩ hf₀

/-- A new connection has its whole stream before it. -/
theorem LoopInv.accepts (h : LoopInv verify t) {fd : Fd} {stream : List Bytes} {served : Served}
    (hstep : t.served.daemonStep (.sockConnexion fd) = some served) :
    LoopInv verify { t with
      served := served, streams := t.streams ++ [stream], unread := t.unread ++ [stream] } := by
  obtain ⟨hacc, conns, hconns, hsub⟩ := accept_conns hstep
  have hnone : fromConn t.served.accepted t.handled = [] := by
    rw [fromConn, List.map_eq_nil_iff, List.filter_eq_nil_iff]
    intro x hx hc
    exact absurd (h.known x hx _ (of_decide_eq_true hc)) (lt_irrefl _)
  refine ⟨tidy_daemonStep h.tidy hstep, ?_, ?_, ?_, ?_⟩
  · simp [h.streams, hacc]
  · simp [h.unread, hacc]
  · intro x hx c hc
    exact hacc ▸ Nat.lt_succ_of_lt (h.known x hx c hc)
  · intro c stream' hc
    rcases getElem?_append_some hc with hc | ⟨rfl, rfl⟩
    · have hlt : c < t.served.accepted := h.streams ▸ (List.getElem?_eq_some_iff.mp hc).1
      obtain ⟨ps, rest, hread⟩ := h.read c stream' hc
      refine ⟨ps, rest, hread.stream, hread.framed, hread.handled, ?_⟩
      rintro ⟨x, hx, rfl⟩ hf
      have hmem : x ∈ t.served.conns := by
        simp only [hconns] at hx
        rcases List.mem_cons.mp hx with rfl | hx
        · exact absurd hlt (lt_irrefl _)
        · exact hsub x hx
      have hsame : (t.unread ++ [stream]).getD x.2 [] = t.unread.getD x.2 [] := by
        rw [List.getD_eq_getElem?_getD, List.getD_eq_getElem?_getD,
          List.getElem?_append_left (h.unread ▸ hlt)]
      rw [hsame]
      exact hread.unread ⟨x, hmem, rfl⟩ hf
    · rw [h.streams]
      refine ⟨[], stream'.flatten, rfl, by simp, ?_, ?_⟩
      · simp [EventLoop.requestsOf, hnone]
      · intro _ _
        simp [List.getD_eq_getElem?_getD, ← h.unread]

theorem LoopInv.handles (h : LoopInv verify t) (hf : t.faulted = false) {malloc : Malloc}
    {foreign : List Bytes} {os : LaunchOs} {fd : Fd} {rest : List Bytes} {payload : Bytes} {req : Request}
    {served : Served} (hread : ProcCtrld.sockMessage malloc (t.readable fd foreign) = (.handled payload, rest))
    (hreq : dispatch verify payload payload.length = .ok req)
    (hstep : t.served.daemonStep (req.label os) = some served) :
    LoopInv verify { t.advance fd rest with
      served := served, handled := t.handled ++ [(connOf t.served.conns fd, req)] } := by
  have hlabel : ∀ fd', ServedLabel.daemon (req.label os) ≠ .daemon (.sockConnexion fd') := by
    cases req <;> simp [Request.label]
  obtain ⟨hacc, hsub⟩ := servedStep_conns (l := .daemon (req.label os)) hstep hlabel
  refine ⟨tidy_daemonStep h.tidy hstep, ?_, ?_, ?_, ?_⟩
  · simp [h.streams, hacc]
  · simp [h.unread, hacc]
  · intro x hx c hc
    rw [hacc]
    rcases List.mem_append.mp hx with hx | hx
    · exact h.known x hx c hc
    · rw [List.mem_singleton.mp hx] at hc
      exact h.tidy.known _ (connOf_mem hc)
  · intro c stream hc
    rw [advance_streams] at hc
    obtain ⟨ps, rest₀, hoff⟩ := h.read c stream hc
    by_cases hconn : connOf t.served.conns fd = some c
    · -- the connection that was read from
      obtain ⟨hne, hbuf⟩ := sockMessage_handled.mp hread
      obtain ⟨-, hlt, hflat⟩ := readSocketMessage_some hbuf
      have hrest : (t.unread.getD c []).flatten = rest₀ := hoff.unread ⟨_, connOf_mem hconn, rfl⟩ hf
      simp only [EventLoop.readable, hconn, hrest] at hflat
      refine ⟨ps ++ [payload], rest.flatten, ?_, ?_, ?_, ?_⟩
      · rw [hoff.stream, hflat, frames_append]
        simp [frames]
      · rw [List.forall_mem_append, List.forall_mem_singleton]
        exact ⟨hoff.framed, hne, hlt⟩
      · have hhandled := hoff.handled
        simp only [EventLoop.requestsOf] at hhandled ⊢
        rw [fromConn_concat, if_pos hconn, List.map_append, List.map_append, hhandled, List.map_singleton,
          List.map_singleton, hreq]
      · intro _ _
        have hlen : c < t.unread.length := by
          rw [h.unread]
          exact h.tidy.known _ (connOf_mem hconn)
        rw [advance_unread_self hconn hlen]
    · refine ⟨ps, rest₀, hoff.stream, hoff.framed, ?_, ?_⟩
      · have hhandled := hoff.handled
        simp only [EventLoop.requestsOf] at hhandled ⊢
        rw [fromConn_concat, if_neg hconn, List.append_nil]
        exact hhandled
      · rintro ⟨x, hx, rfl⟩ -
        rw [advance_unread_of_ne hconn]
        exact hoff.unread ⟨x, hsub x hx, rfl⟩ hf

theorem loopInv_step (h : LoopInv verify t) (hs : loopStep verify t l = some t') : LoopInv verify t' := by
  obtain ⟨hf, heffect⟩ := loopStep_effect hs
  cases heffect with
  | @served l served hl hstep =>
    have hl' : ∀ fd, l ≠ .daemon (.sockConnexion fd) := by
      rintro fd rfl
      cases hl
    obtain ⟨hacc, hsub⟩ := servedStep_conns hstep hl'
    exact h.of_same (tidy_step h.tidy hstep) hacc rfl rfl rfl fun x hx _ => ⟨hsub x hx, hf, rfl⟩
  | accepts hstep => exact h.accepts hstep
  | faults =>
    refine h.of_same ?_ ?_ ?_ ?_ ?_ fun x _ hf' => by cases hf'
    all_goals simp [h.tidy]
  | closes hmode hbatch hstep =>
    obtain ⟨hacc, hsub⟩ := sockClosed_conns hstep hmode hbatch
    refine h.of_same (tidy_daemonStep h.tidy hstep) hacc ?_ ?_ ?_ ?_
    · simp
    · simp
    · simp
    · intro x hx _
      obtain ⟨hmem, hne⟩ := hsub x hx
      refine ⟨hmem, hf, advance_unread_of_ne ?_⟩
      intro hconn
      -- the connection that was closed is not among those that are left
      have := h.tidy.unique hmem (connOf_mem hconn) rfl
      exact hne (congrArg Prod.fst this)
  | handles hread hreq hstep => exact h.handles hf hread hreq hstep

theorem loopInv_of_run {heap : Nat → ProcessInfo} {nfds : Nat} {sock : Fd} {port : Nat}
    {ls : List LoopLabel} (h : Lts.run (loopStep verify) (.init heap nfds sock port) ls = some t) :
    LoopInv verify t :=
  (Lts.reachable_of_run h).invariant (loopInv_init heap nfds sock port) fun _ _ _ _ hinv _ hs =>
    loopInv_step hinv hs

end Read

/-! ## The requests of the clients -/

section Clients

variable {verify : Bytes → Int → Option Value} {bytes : Package → Value → Bytes}

/-- The payloads that were read are those of calls, so the requests are the calls. -/
theorem requests_of_calls {calls : List Call} (hcalls : ∀ call ∈ calls, call.Sound verify bytes)
    {reqs : List Request} (h : reqs.map Except.ok = (calls.map fun call => call.payload bytes).map
      fun p => dispatch (asMessages verify) p p.length) : reqs = calls.map Call.request := by
  induction calls generalizing reqs with
  | nil => simpa using h
  | cons call calls ih =>
    obtain ⟨hcall, hcalls⟩ := List.forall_mem_cons.mp hcalls
    cases reqs with
    | nil => cases h
    | cons req reqs =>
      simp only [List.map_cons, List.cons.injEq, Call.dispatched hcall, Except.ok.injEq] at h
      rw [h.1, ih hcalls h.2, List.map_cons]

/-- The daemon acts upon the requests that the client made, in order and from the first; while the
connection is open, the frames of all others are still to be read. `stream` may end anywhere. -/
theorem requests_exact {heap : Nat → ProcessInfo} {nfds : Nat} {sock : Fd} {port : Nat} {ls : List LoopLabel}
    {t : EventLoop} (hrun : Lts.run (loopStep (asMessages verify)) (.init heap nfds sock port) ls = some t)
    {c : Conn} {stream : List Bytes} (hstream : t.streams[c]? = some stream) {calls : List Call}
    (hcalls : ∀ call ∈ calls, call.Sound verify bytes)
    (hsent : stream.flatten <+: frames (calls.map fun call => call.payload bytes)) :
    t.requestsOf c <+: calls.map Call.request ∧
      ((∃ x ∈ t.served.conns, x.2 = c) → t.faulted = false →
        stream.flatten = frames ((calls.take (t.requestsOf c).length).map fun call => call.payload bytes) ++
          (t.unread.getD c []).flatten) := by
  obtain ⟨ps, rest, hread⟩ := (loopInv_of_run hrun).read c stream hstream
  rw [hread.stream] at hsent
  have hshort : ∀ p ∈ calls.map fun call => call.payload bytes, p.length < 2 ^ 31 := by
    intro p hp
    obtain ⟨call, hcall, rfl⟩ := List.mem_map.mp hp
    exact (hcalls call hcall).short
  obtain ⟨n, hps⟩ : ∃ n, ps = (calls.take n).map fun call => call.payload bytes := by
    have hlt : 2 ^ 31 < 2 ^ 32 := by decide
    have hprefix := frames_prefix (fun p hp => (hread.framed p hp).2.trans hlt)
      (fun p hp => (hshort p hp).trans hlt) hsent
    refine ⟨ps.length, ?_⟩
    rw [List.map_take]
    exact List.prefix_iff_eq_take.mp hprefix
  have htake : ∀ call ∈ calls.take n, call.Sound verify bytes := fun call hcall =>
    hcalls call (List.mem_of_mem_take hcall)
  have hreqs := requests_of_calls htake (hps ▸ hread.handled)
  refine ⟨?_, ?_⟩
  · rw [hreqs, List.map_take]
    exact List.take_prefix _ _
  · intro hopen hf
    rw [hread.unread hopen hf, hread.stream, hps]
    congr 3
    rw [hreqs, List.length_map, List.length_take, List.take_eq_take_iff]
    omega

end Clients

/-! ## A client that is cut off -/

/-- The buffers of the clients for `lsCommand`. -/
def lsBytes : Package → Value → Bytes
  | .cpp, _ => cppLs
  | .python, _ => pythonLs
  | .rust, _ => rustLs

theorem lsPayload (package : Package) :
    (Call.command package lsCommand).payload lsBytes = lsBytes package (commandValue lsCommand) := by
  have hbuilds := Call.build_builds (show (Call.command package lsCommand).WellFormed from lsCommand_wellFormed)
  rw [Call.payload, finish, hbuilds.root_eq]
  rfl

theorem lsCall_sound (package : Package) : (Call.command package lsCommand).Sound verifyLs lsBytes := by
  have hbuilds := Call.build_builds (show (Call.command package lsCommand).WellFormed from lsCommand_wellFormed)
  have hread : verifyLs (lsBytes package (commandValue lsCommand))
      (lsBytes package (commandValue lsCommand)).length = some (commandValue lsCommand) := by
    refine if_pos ⟨?_, rfl⟩
    cases package <;> simp [lsBytes]
  have hne : lsBytes package (commandValue lsCommand) ≠ [] := by
    cases package <;> simp [lsBytes, cppLs, pythonLs, rustLs]
  have hconst : lsBytes package = fun _ => lsBytes package (commandValue lsCommand) := by
    cases package <;> rfl
  refine ⟨lsCommand_wellFormed, ?_, ?_⟩
  · have hfaithful : Faithful verifyMessage (fun _ => lsBytes package (commandValue lsCommand))
        (fun b => verifyLs b b.length) (Call.command package lsCommand).build :=
      faithful_of_builds hbuilds hne hread
    rw [← hconst] at hfaithful
    exact hfaithful
  · rw [lsPayload]
    cases package <;> decide +kernel

def EventLoop.start : EventLoop := .init (fun _ => ⟨none, 0, 0⟩) 8 0 8080

/-- A Python client sends `ls -l /`, and is cut off in the header of its second request; the C++ client
connects in between. -/
def cutOffRun : List LoopLabel :=
  [.served (.daemon (.epollWait [.sockConnexion])), .sockConnexion 8 [frame pythonLs ++ [140, 0]],
   .served (.daemon (.epollWait [.sockConnexion, .sockMessage 8])), .sockConnexion 9 [frame cppLs],
   .sockMessage mallocOk [] (.clones (some 10) (11, 12) 20 4096),
   .served (.daemon (.launchReturns true))]

theorem cut_off_client_served :
    ∃ t, Lts.run (loopStep (asMessages verifyLs)) .start cutOffRun = some t ∧
      t.requestsOf 0 <+: [.runCommand lsCommand, .runCommand lsCommand] ∧
      (t.unread.getD 0 []).flatten = [140, 0] := by
  obtain ⟨t, ht, hp⟩ := Lts.exists_of_run_map
    (p := fun t : EventLoop => t.streams[0]? == some [frame pythonLs ++ [140, 0]] &&
      t.unread.getD 0 [] == [[140, 0]])
    (show (Lts.run (loopStep (asMessages verifyLs)) .start cutOffRun).map _ = some true by decide +kernel)
  rw [Bool.and_eq_true, beq_iff_eq, beq_iff_eq] at hp
  have hpayload : (Call.command .python lsCommand).payload lsBytes = pythonLs := lsPayload .python
  have hsent : [frame pythonLs ++ [140, 0]].flatten <+:
      frames ([Call.command .python lsCommand, .command .python lsCommand].map fun call =>
        call.payload lsBytes) := by
    simp only [List.map_cons, List.map_nil, hpayload]
    decide +kernel
  have h := requests_exact ht hp.1 (by simpa using lsCall_sound .python) hsent
  exact ⟨t, ht, h.1, by rw [hp.2]; rfl⟩

end ProcCtrld
