import ProcCtrld.Lts
import Mathlib.Data.List.TakeWhile

/-!
# ProcCtrld.SocketWatch

The socket watches of the C daemon (`Detect_socket.c`). Every WATCH_SOCKET request starts a detached
thread that polls the kernel's socket tables until the port is found or ten seconds are over. The
threads share the flags `found` and `timeout`, the one alarm of the process, and the process itself,
which `detector_thread` ends with `exit(0)`; a SIGALRM that reaches the main thread in `epoll_wait`
ends it too.

`watch_isolated`: a daemon keeps its promises (`Isolated`) while it has one watch at most and that watch
goes on: the kernel answers without its port and no SIGALRM is delivered. What ends a watch ends the
daemon. `watches_interfere` shows it for the expiry, for an alarm that hits `epoll_wait`, and a second
watch that reports a state it never saw.
-/

namespace ProcCtrld

/-- `enum SocketState` of `data_structs.h`. -/
inductive CSocketState where
  | unknown
  | listening
  | created
deriving DecidableEq, Repr

namespace SocketWatch

/-! ## Reading the kernel's answers -/

/-- `struct inet_diag_msg`, as far as it is used. -/
structure InetDiagMsg where
  sport : Nat
  state : Nat
deriving DecidableEq, Repr

/-- A netlink message. The payload of an NLMSG_ERROR is read as a record too. -/
inductive NlMsg where
  | done
  | error (payload : InetDiagMsg)
  | diag (record : InetDiagMsg)
deriving DecidableEq, Repr

def NlMsg.isError : NlMsg → Bool
  | error _ => true
  | _ => false

/-- The record that `recv_tcp_diag` takes the message for. -/
def NlMsg.record : NlMsg → Option InetDiagMsg
  | done => none
  | error payload => some payload
  | diag record => some record

/-- The global `found` and the state in `sock_info`. -/
structure Scan where
  found : Bool
  state : CSocketState
deriving DecidableEq, Repr

def tcpEstablished : Nat := 1
def tcpListen : Nat := 10

def socketState (idiagState : Nat) : CSocketState :=
  if idiagState = tcpEstablished then .created
  else if idiagState = tcpListen then .listening
  else .unknown

/-- `process_inet_diag`: the state is that of any record, `found` needs the port. It always returns
0. -/
def processInetDiag (portFilter : Int) (scan : Scan) (diag : InetDiagMsg) : Scan :=
  ⟨scan.found || ((diag.sport : Int) == portFilter), socketState diag.state⟩

/-- The messages of one datagram; the result says whether NLMSG_DONE was among them. -/
def recvDatagram (portFilter : Int) : Scan → List NlMsg → Scan × Bool
  | scan, [] => (scan, false)
  | scan, .done :: _ => (scan, true)
  | scan, .error payload :: rest => recvDatagram portFilter (processInetDiag portFilter scan payload) rest
  | scan, .diag record :: rest => recvDatagram portFilter (processInetDiag portFilter scan record) rest

/-- `recv_tcp_diag` on the datagrams that `recvmsg` returns. -/
def recvTcpDiag (portFilter : Int) : Scan → List (List NlMsg) → Scan
  | scan, [] => scan
  | scan, d :: ds =>
    match recvDatagram portFilter scan d with
    | (scan, true) => scan
    | (scan, false) => recvTcpDiag portFilter scan ds

/-! ## The process -/

/-- Where a thread is in `search_TCP_connection`; the thread of `lost` was never created. -/
inductive WatchPhase where
  | starting
  | polling
  | leaving
  | reported
  | lost
deriving DecidableEq, Repr

/-- A watch, with the record `sock_info`. As ghosts, whether a record of its port came up in its own
polls and whether the alarm that it set has expired. -/
structure Watch where
  port : Int
  phase : WatchPhase
  state : CSocketState
  matched : Bool
  expired : Bool
deriving DecidableEq, Repr

/-- A `SocketWatchTerminated`. -/
structure Report where
  watch : Nat
  port : Int
  state : CSocketState
deriving DecidableEq, Repr

/-- `alarm` is the watch that set the pending alarm. -/
structure Process where
  found : Bool
  timeout : Bool
  alarm : Option Nat
  watches : List Watch
  reports : List Report
  exited : Bool
deriving DecidableEq, Repr

inductive DetectOs where
  | starts
  | mallocFails
  | createFails
deriving DecidableEq, Repr

/-- `garbage` is the uninitialised `sock_info.state`. `message` is any other event of the main loop,
`begin` runs a thread up to its `alarm(10)`, and `alarm` is the delivery of SIGALRM, to the main
thread inside `epoll_wait` or elsewhere. -/
inductive WatchLabel where
  | request (port : Int) (garbage : CSocketState) (os : DetectOs)
  | message
  | begin (i : Nat) (socket : Bool)
  | poll (i : Nat) (answers : List (List NlMsg))
  | leave (i : Nat)
  | report (i : Nat)
  | exit (i : Nat)
  | alarm (inEpollWait : Bool)
deriving DecidableEq, Repr

/-- The messages that `recv_tcp_diag` goes through: those before the first NLMSG_DONE. -/
def consumed (answers : List (List NlMsg)) : List NlMsg := answers.flatten.takeWhile (· ≠ .done)

/-- A record of the port is among them. -/
def matchedIn (port : Int) (answers : List (List NlMsg)) : Bool :=
  (consumed answers).any fun
    | .diag record => (record.sport : Int) == port
    | _ => false

/-- The kernel answers with sockets in the states that were asked for. -/
def filtered (answers : List (List NlMsg)) : Bool :=
  (consumed answers).all fun
    | .diag record => record.state == tcpEstablished || record.state == tcpListen
    | _ => true

namespace Process

def init : Process := ⟨false, false, none, [], [], false⟩

def setWatch (p : Process) (i : Nat) (w : Watch) : Process := { p with watches := p.watches.set i w }

/-- `detect_socket`. -/
def request (p : Process) (port : Int) (garbage : CSocketState) : DetectOs → Process
  | .starts => { p with watches := p.watches ++ [⟨port, .starting, garbage, false, false⟩] }
  | .mallocFails => { p with exited := true }
  | .createFails => { p with watches := p.watches ++ [⟨port, .lost, garbage, false, false⟩] }

/-- `search_TCP_connection` up to `alarm(10)`, which replaces an alarm that is pending. -/
def begin_ (p : Process) (i : Nat) (w : Watch) (socket : Bool) : Process :=
  if socket then { p.setWatch i { w with phase := .polling } with alarm := some i }
  else { p with exited := true }

/-- One turn of the loop. -/
def poll (p : Process) (i : Nat) (w : Watch) (answers : List (List NlMsg)) : Process :=
  let scan := recvTcpDiag w.port ⟨p.found, w.state⟩ answers
  { p.setWatch i { w with
      state := scan.state
      matched := w.matched || matchedIn w.port answers } with
    found := scan.found }

/-- From `if(found!=1)` to `send_message`. -/
def report (p : Process) (i : Nat) (w : Watch) : Process :=
  let state := if p.found then w.state else .unknown
  { p.setWatch i { w with phase := .reported, state := state } with
    reports := p.reports ++ [⟨i, w.port, state⟩] }

def fireAlarm (p : Process) (i : Nat) (inEpollWait : Bool) : Process :=
  { p with
    alarm := none
    timeout := true
    watches := p.watches.modify i fun w => { w with expired := true }
    exited := p.exited || inEpollWait }

end Process

def watchStep (p : Process) (l : WatchLabel) : Option Process :=
  if p.exited then none
  else
    match l with
    | .request port garbage os => some (p.request port garbage os)
    | .message => some p
    | .begin i socket =>
      match p.watches[i]? with
      | some w => if w.phase = .starting then some (p.begin_ i w socket) else none
      | none => none
    | .poll i answers =>
      match p.watches[i]? with
      | some w =>
        if w.phase = .polling ∧ ¬ p.found ∧ ¬ p.timeout ∧ filtered answers then some (p.poll i w answers)
        else none
      | none => none
    | .leave i =>
      match p.watches[i]? with
      | some w =>
        if w.phase = .polling ∧ (p.found ∨ p.timeout) then some (p.setWatch i { w with phase := .leaving })
        else none
      | none => none
    | .report i =>
      match p.watches[i]? with
      | some w => if w.phase = .leaving then some (p.report i w) else none
      | none => none
    | .exit i =>
      match p.watches[i]? with
      | some w => if w.phase = .reported then some { p with exited := true } else none
      | none => none
    | .alarm inEpollWait =>
      match p.alarm with
      | some i => some (p.fireAlarm i inEpollWait)
      | none => none

/-- What the watch has told its client. -/
def Process.reportsOf (p : Process) (i : Nat) : List Report := p.reports.filter (·.watch = i)

/-- The steps of watch `i` up to its report, with its own alarm and with answers that hold no
NLMSG_ERROR, and the other events of the main loop. -/
def OwnStep (i : Nat) (p : Process) : WatchLabel → Prop
  | .message => True
  | .begin j socket => j = i ∧ socket = true
  | .poll j answers => j = i ∧ ∀ m ∈ consumed answers, m.isError = false
  | .leave j | .report j => j = i
  | .alarm inEpollWait => p.alarm = some i ∧ inEpollWait = false
  | .request .. | .exit _ => False

/-- The watch has reported what it saw itself: that its alarm expired without a match, or a match. -/
structure Watch.Truthful (w : Watch) : Prop where
  unknown : w.state = .unknown → w.expired = true ∧ w.matched = false
  found : w.state ≠ .unknown → w.matched = true

/-- The process lives, and every watch has told what it saw itself and told it once, or will have told
that when its own steps have brought it to its end, which they can. -/
structure Isolated (p : Process) : Prop where
  alive : p.exited = false
  once : ∀ (i : Nat) (w : Watch), p.watches[i]? = some w →
    p.reportsOf i = if w.phase = .reported then [⟨i, w.port, w.state⟩] else []
  truthful : ∀ (i : Nat) (w : Watch), p.watches[i]? = some w → w.phase = .reported → w.Truthful
  ends : ∀ (i : Nat) (w : Watch), p.watches[i]? = some w → ∀ p', Lts.Reach watchStep (OwnStep i) p p' →
    p'.exited = false ∧ ∃ w', p'.watches[i]? = some w' ∧ w'.port = w.port ∧
      p'.reportsOf i = (if w'.phase = .reported then [⟨i, w.port, w'.state⟩] else []) ∧
      (w'.phase = .reported → w'.Truthful)
  completes : ∀ (i : Nat) (w : Watch), p.watches[i]? = some w →
    ∃ p' w', Lts.Reach watchStep (OwnStep i) p p' ∧ p'.watches[i]? = some w' ∧ w'.phase = .reported

/-- At most one watch is asked for and its thread and its netlink socket can be made. No record that it
reads has its port, and no SIGALRM is delivered. -/
def Unfinished (p : Process) : WatchLabel → Prop
  | .request _ _ os => p.watches = [] ∧ os = .starts
  | .begin _ socket => socket = true
  | .poll i answers => ∀ w ∈ p.watches[i]?, ∀ m ∈ consumed answers, ∀ r ∈ m.record, (r.sport : Int) ≠ w.port
  | .alarm _ => False
  | .message | .leave _ | .report _ | .exit _ => True

instance (p : Process) : (l : WatchLabel) → Decidable (Unfinished p l)
  | .request _ _ os => inferInstanceAs (Decidable (p.watches = [] ∧ os = .starts))
  | .begin _ socket => inferInstanceAs (Decidable (socket = true))
  | .poll i answers => inferInstanceAs (Decidable
      (∀ w ∈ p.watches[i]?, ∀ m ∈ consumed answers, ∀ r ∈ m.record, (r.sport : Int) ≠ w.port))
  | .alarm _ => isFalse id
  | .message | .leave _ | .report _ | .exit _ => isTrue trivial

/-! ## Scans -/

/-- `recv_tcp_diag` handles the consumed messages in order. -/
def scanMsg (portFilter : Int) (scan : Scan) : NlMsg → Scan
  | .done => scan
  | .error payload => processInetDiag portFilter scan payload
  | .diag record => processInetDiag portFilter scan record

theorem recvDatagram_eq (portFilter : Int) (scan : Scan) (d : List NlMsg) :
    recvDatagram portFilter scan d =
      ((d.takeWhile (· ≠ .done)).foldl (scanMsg portFilter) scan, decide (NlMsg.done ∈ d)) := by
  induction d generalizing scan with
  | nil => rfl
  | cons m d ih =>
    cases m with
    | done => simp [recvDatagram]
    | error payload => simp [recvDatagram, ih, scanMsg]
    | diag record => simp [recvDatagram, ih, scanMsg]

theorem takeWhile_append_of_done {d : List NlMsg} (h : NlMsg.done ∈ d) (e : List NlMsg) :
    (d ++ e).takeWhile (· ≠ .done) = d.takeWhile (· ≠ .done) := by
  induction d with
  | nil => cases h
  | cons m d ih =>
    by_cases hm : m = .done
    · simp [hm]
    · have hmem : NlMsg.done ∈ d := (List.mem_cons.mp h).resolve_left fun heq => hm heq.symm
      simpa [hm] using ih hmem

theorem recvTcpDiag_eq (portFilter : Int) (scan : Scan) (answers : List (List NlMsg)) :
    recvTcpDiag portFilter scan answers = (consumed answers).foldl (scanMsg portFilter) scan := by
  induction answers generalizing scan with
  | nil => rfl
  | cons d ds ih =>
    simp only [recvTcpDiag, recvDatagram_eq, consumed, List.flatten_cons]
    by_cases hd : NlMsg.done ∈ d
    · rw [takeWhile_append_of_done hd]
      simp [hd]
    · have hall : ∀ m ∈ d, decide (m ≠ .done) = true := by
        intro m hm
        rw [decide_eq_true_eq]
        rintro rfl
        exact hd hm
      have htake : d.takeWhile (· ≠ .done) = d := by
        rw [List.takeWhile_eq_self_iff]
        exact hall
      rw [List.takeWhile_append_of_pos hall, htake]
      simp [hd, ih, consumed]

/-- Without NLMSG_ERROR, `found` says whether a record of the port came up, and the state is that of
a record whenever there was one. -/
theorem foldl_scanMsg (port : Int) {ms : List NlMsg} (hdone : ∀ m ∈ ms, m ≠ .done)
    (herr : ∀ m ∈ ms, m.isError = false)
    (hstates : ms.all (fun
      | .diag record => record.state == tcpEstablished || record.state == tcpListen
      | _ => true) = true) (scan : Scan) :
    (ms.foldl (scanMsg port) scan).found = (scan.found || ms.any fun
      | .diag record => (record.sport : Int) == port
      | _ => false) ∧
    (ms ≠ [] → (ms.foldl (scanMsg port) scan).state ≠ .unknown) := by
  induction ms generalizing scan with
  | nil => simp
  | cons m ms ih =>
    cases m with
    | done => exact absurd rfl (hdone _ List.mem_cons_self)
    | error payload => cases herr _ List.mem_cons_self
    | diag record =>
      simp only [List.all_cons, Bool.and_eq_true] at hstates
      obtain ⟨hstate, hstates⟩ := hstates
      have hnew : socketState record.state ≠ .unknown := by
        simp only [Bool.or_eq_true, beq_iff_eq] at hstate
        rcases hstate with h | h <;> simp [socketState, h, tcpListen, tcpEstablished]
      have hih := ih (fun m hm => hdone m (List.mem_cons_of_mem _ hm))
        (fun m hm => herr m (List.mem_cons_of_mem _ hm)) hstates
        (processInetDiag port scan record)
      simp only [List.foldl_cons, scanMsg, List.any_cons]
      refine ⟨?_, fun _ => ?_⟩
      · rw [hih.1]
        simp [processInetDiag, Bool.or_assoc]
      · cases ms with
        | nil => exact hnew
        | cons m ms => exact hih.2 (by simp)

theorem recvTcpDiag_spec (port : Int) (scan : Scan) {answers : List (List NlMsg)}
    (hfilter : filtered answers = true)
    (herr : ∀ m ∈ consumed answers, m.isError = false) :
    (recvTcpDiag port scan answers).found = (scan.found || matchedIn port answers) ∧
      (matchedIn port answers = true → (recvTcpDiag port scan answers).state ≠ .unknown) := by
  have hdone : ∀ m ∈ consumed answers, m ≠ .done := by
    intro m hm
    have := List.mem_takeWhile_imp hm
    simpa using this
  obtain ⟨hfound, hstate⟩ := foldl_scanMsg port hdone herr hfilter scan
  rw [recvTcpDiag_eq]
  refine ⟨hfound, fun hm => hstate ?_⟩
  intro hnil
  simp [matchedIn, hnil] at hm

theorem recvTcpDiag_miss {port : Int} {answers : List (List NlMsg)}
    (hmiss : ∀ m ∈ consumed answers, ∀ r ∈ m.record, (r.sport : Int) ≠ port) (scan : Scan) :
    (recvTcpDiag port scan answers).found = scan.found ∧ matchedIn port answers = false := by
  rw [recvTcpDiag_eq, matchedIn]
  generalize consumed answers = ms at hmiss
  induction ms generalizing scan with
  | nil => exact ⟨rfl, rfl⟩
  | cons m ms ih =>
    obtain ⟨hm, hms⟩ := List.forall_mem_cons.mp hmiss
    obtain ⟨hfound, hmatched⟩ := ih (scanMsg port scan m) hms
    rw [List.foldl_cons, List.any_cons, hfound, hmatched]
    cases m with
    | done => exact ⟨rfl, rfl⟩
    | error payload =>
      have hne := hm payload rfl
      simp [scanMsg, processInetDiag, hne]
    | diag record =>
      have hne := hm record rfl
      simp [scanMsg, processInetDiag, hne]

/-! ## One watch -/

/-- What is left of a single watch, by phase. The flags and the alarm are its own. -/
structure Own (p : Process) (w : Watch) : Prop where
  alive : p.exited = false
  watches : p.watches = [w]
  found : p.found = w.matched
  timeout : p.timeout = w.expired
  alarm : p.alarm = if w.phase = .starting ∨ p.timeout = true then none else some 0
  starting : w.phase = .starting → p.found = false ∧ p.timeout = false
  seen : w.phase = .polling ∨ w.phase = .leaving → p.found = true → w.state ≠ .unknown
  leaving : w.phase = .leaving → p.found = true ∨ p.timeout = true
  reports : p.reports = if w.phase = .reported then [⟨0, w.port, w.state⟩] else []
  truthful : w.phase = .reported → w.Truthful
  created : w.phase ≠ .lost

variable {p p' : Process} {w : Watch}

theorem Own.get (h : Own p w) {i : Nat} {w' : Watch} (hw : p.watches[i]? = some w') : i = 0 ∧ w' = w := by
  rw [h.watches] at hw
  cases i with
  | zero => cases hw; exact ⟨rfl, rfl⟩
  | succ i => cases hw

theorem Own.setWatch (h : Own p w) (w' : Watch) : (p.setWatch 0 w').watches = [w'] := by
  simp [Process.setWatch, h.watches]

theorem own_request (port : Int) (garbage : CSocketState) :
    Own (Process.init.request port garbage .starts) ⟨port, .starting, garbage, false, false⟩ := by
  refine ⟨rfl, rfl, rfl, rfl, rfl, fun _ => ⟨rfl, rfl⟩, ?_, ?_, rfl, ?_, ?_⟩ <;> simp

theorem own_begin (h : Own p w) (hph : w.phase = .starting) :
    Own (p.begin_ 0 w true) { w with phase := .polling } := by
  obtain ⟨hf, ht⟩ := h.starting hph
  have hr := h.reports
  rw [hph] at hr
  refine ⟨h.alive, h.setWatch _, h.found, h.timeout, ?_, ?_, ?_, ?_, hr, ?_, ?_⟩ <;>
    simp [Process.begin_, Process.setWatch, hf, ht]

/-- A turn of the loop, when `found` says afterwards whether a record of the port came up. -/
theorem own_poll (h : Own p w) (hph : w.phase = .polling) (hf : p.found = false) {answers : List (List NlMsg)}
    (hfound : (recvTcpDiag w.port ⟨p.found, w.state⟩ answers).found = matchedIn w.port answers)
    (hstate : matchedIn w.port answers = true → (recvTcpDiag w.port ⟨p.found, w.state⟩ answers).state ≠ .unknown) :
    ∃ w', Own (p.poll 0 w answers) w' ∧ w'.port = w.port ∧ w'.phase = .polling := by
  have hm : w.matched = false := by rw [← h.found, hf]
  have hr := h.reports
  have ha := h.alarm
  rw [hf] at hfound hstate
  refine ⟨_, ⟨h.alive, h.setWatch _, ?_, h.timeout, ha, ?_, ?_, ?_, ?_, ?_, ?_⟩, rfl, hph⟩
  · simp [Process.poll, Process.setWatch, hfound, hf, hm]
  · simp [hph]
  · intro _ hfd
    simp only [Process.poll, Process.setWatch, hf] at hfd ⊢
    exact hstate (hfound ▸ hfd)
  · simp [hph]
  · rw [hph] at hr
    simpa [Process.poll, Process.setWatch, hph] using hr
  · simp [hph]
  · simp [hph]

theorem own_leave (h : Own p w) (hph : w.phase = .polling) (hstop : p.found = true ∨ p.timeout = true) :
    Own (p.setWatch 0 { w with phase := .leaving }) { w with phase := .leaving } := by
  have hr := h.reports
  have ha := h.alarm
  rw [hph] at hr ha
  refine ⟨h.alive, h.setWatch _, h.found, h.timeout, ?_, ?_, ?_, fun _ => hstop, ?_, ?_, ?_⟩
  · simpa [Process.setWatch] using ha
  · simp
  · intro _ hfd
    exact h.seen (.inl hph) hfd
  · simpa [Process.setWatch] using hr
  · simp
  · simp

/-- The state is the watch's own when it was found, and the alarm was its own when it was not. -/
theorem own_report (h : Own p w) (hph : w.phase = .leaving) : ∃ w', Own (p.report 0 w) w' ∧
    w'.phase = .reported ∧ w'.port = w.port := by
  have hr := h.reports
  have ha := h.alarm
  have hstop := h.leaving hph
  rw [hph] at hr ha
  refine ⟨_, ⟨h.alive, h.setWatch _, h.found, h.timeout, ?_, ?_, ?_, ?_, ?_, fun _ => ⟨?_, ?_⟩, ?_⟩, rfl, rfl⟩
  · simpa [Process.report, Process.setWatch] using ha
  · simp
  · simp
  · simp
  · simp [Process.report, Process.setWatch, hr]
  · intro hunk
    by_cases hf : p.found = true
    · rw [if_pos hf] at hunk
      exact absurd hunk (h.seen (.inr hph) hf)
    · have hf' : p.found = false := by simpa using hf
      refine ⟨?_, by rw [← h.found]; exact hf'⟩
      rw [← h.timeout]
      exact hstop.resolve_left hf
  · intro hkn
    by_cases hf : p.found = true
    · rw [← h.found]; exact hf
    · rw [if_neg hf] at hkn
      exact absurd rfl hkn
  · simp

theorem own_alarm (h : Own p w) (ha : p.alarm = some 0) : ∃ w', Own (p.fireAlarm 0 false) w' ∧
    w'.phase = w.phase ∧ w'.port = w.port := by
  have halarm := h.alarm
  have hph : w.phase ≠ .starting := by
    intro hst
    rw [ha, if_pos (.inl hst)] at halarm
    cases halarm
  refine ⟨{ w with expired := true }, ⟨?_, ?_, h.found, rfl, ?_, ?_, h.seen, fun _ => .inr rfl, h.reports, ?_,
    h.created⟩, rfl, rfl⟩
  · simp [Process.fireAlarm, h.alive]
  · simp [Process.fireAlarm, h.watches]
  · simp [Process.fireAlarm]
  · intro hst
    exact absurd hst hph
  · intro hrep
    exact ⟨fun hunk => ⟨rfl, ((h.truthful hrep).unknown hunk).2⟩, (h.truthful hrep).found⟩

theorem Own.thread_step (h : Own p w) {i : Nat} {can : Watch → Prop} [DecidablePred can]
    {next : Watch → Process}
    (hs : (match p.watches[i]? with
      | some w => if can w then some (next w) else none
      | none => none) = some p') : i = 0 ∧ can w ∧ next w = p' := by
  split at hs
  · rename_i w' hw
    obtain ⟨rfl, rfl⟩ := h.get hw
    split at hs
    · rename_i hcan
      exact ⟨rfl, hcan, Option.some.inj hs⟩
    · cases hs
  · cases hs

/-! ### Its own steps -/

theorem own_step {l : WatchLabel} (h : Own p w) (hg : OwnStep 0 p l) (hs : watchStep p l = some p') :
    ∃ w', Own p' w' ∧ w'.port = w.port := by
  simp only [watchStep, h.alive, Bool.false_eq_true, if_false] at hs
  cases l with
  | request port garbage os => cases hg
  | message => cases hs; exact ⟨w, h, rfl⟩
  | begin i socket =>
    obtain ⟨rfl, rfl⟩ := hg
    obtain ⟨-, hph, rfl⟩ := h.thread_step hs
    exact ⟨_, own_begin h hph, rfl⟩
  | poll i answers =>
    obtain ⟨rfl, herr⟩ := hg
    obtain ⟨-, ⟨hph, hf, -, hfilter⟩, rfl⟩ := h.thread_step hs
    have hf' : p.found = false := by simpa using hf
    obtain ⟨hfound, hstate⟩ := recvTcpDiag_spec w.port ⟨p.found, w.state⟩ hfilter herr
    rw [hf', Bool.false_or, ← hf'] at hfound
    obtain ⟨w', hw', hport, -⟩ := own_poll h hph hf' hfound hstate
    exact ⟨w', hw', hport⟩
  | leave i =>
    obtain rfl := hg
    obtain ⟨-, hc, rfl⟩ := h.thread_step hs
    exact ⟨_, own_leave h hc.1 hc.2, rfl⟩
  | report i =>
    obtain rfl := hg
    obtain ⟨-, hph, rfl⟩ := h.thread_step hs
    obtain ⟨w', hw', -, hport⟩ := own_report h hph
    exact ⟨w', hw', hport⟩
  | exit i => cases hg
  | alarm inEpollWait =>
    obtain ⟨ha, rfl⟩ := hg
    simp only [ha] at hs
    cases hs
    obtain ⟨w', hw', -, hport⟩ := own_alarm h ha
    exact ⟨w', hw', hport⟩

theorem Own.of_reach (h : Own p w) (hr : Lts.Reach watchStep (OwnStep 0) p p') :
    ∃ w', Own p' w' ∧ w'.port = w.port := by
  refine hr.invariant (P := fun q => ∃ w', Own q w' ∧ w'.port = w.port) ⟨w, h, rfl⟩ ?_
  rintro q l q' _ ⟨v, hv, hport⟩ hg hs
  obtain ⟨w', hw', hport'⟩ := own_step hv hg hs
  exact ⟨w', hw', hport'.trans hport⟩

theorem Own.told (h : Own p w) :
    p.reportsOf 0 = (if w.phase = .reported then [⟨0, w.port, w.state⟩] else []) := by
  rw [Process.reportsOf, h.reports]
  split <;> simp

section Completes

variable {q : Process}

theorem Own.reports_of_leaving (hr : Lts.Reach watchStep (OwnStep 0) p q) (h : Own q w) (hph : w.phase = .leaving) :
    ∃ p' w', Lts.Reach watchStep (OwnStep 0) p p' ∧ Own p' w' ∧ w'.phase = .reported := by
  obtain ⟨w', hw', hrep, -⟩ := own_report h hph
  have hstep : watchStep q (.report 0) = some (q.report 0 w) := by
    simp [watchStep, h.alive, h.watches, hph]
  exact ⟨_, w', hr.step (show OwnStep 0 q (.report 0) from rfl) hstep, hw', hrep⟩

theorem Own.reports_of_stopped (hr : Lts.Reach watchStep (OwnStep 0) p q) (h : Own q w) (hph : w.phase = .polling)
    (hstop : q.found = true ∨ q.timeout = true) :
    ∃ p' w', Lts.Reach watchStep (OwnStep 0) p p' ∧ Own p' w' ∧ w'.phase = .reported := by
  have hstep : watchStep q (.leave 0) = some (q.setWatch 0 { w with phase := .leaving }) := by
    simp [watchStep, h.alive, h.watches, hph, hstop]
  exact (own_leave h hph hstop).reports_of_leaving (hr.step (show OwnStep 0 q (.leave 0) from rfl) hstep) rfl

theorem Own.reports_of_polling (hr : Lts.Reach watchStep (OwnStep 0) p q) (h : Own q w) (hph : w.phase = .polling) :
    ∃ p' w', Lts.Reach watchStep (OwnStep 0) p p' ∧ Own p' w' ∧ w'.phase = .reported := by
  by_cases hstop : q.found = true ∨ q.timeout = true
  · exact h.reports_of_stopped hr hph hstop
  · -- the alarm that is pending is the watch's own
    have ha : q.alarm = some 0 := by
      rw [h.alarm, if_neg]
      rintro (hst | ht)
      · rw [hph] at hst; cases hst
      · exact hstop (.inr ht)
    have hstep : watchStep q (.alarm false) = some (q.fireAlarm 0 false) := by
      simp [watchStep, h.alive, ha]
    obtain ⟨w', hw', hph', -⟩ := own_alarm h ha
    exact hw'.reports_of_stopped (hr.step (show OwnStep 0 q (.alarm false) from ⟨ha, rfl⟩) hstep)
      (by rw [hph', hph]) (.inr rfl)

theorem Own.completes (h : Own p w) :
    ∃ p' w', Lts.Reach watchStep (OwnStep 0) p p' ∧ Own p' w' ∧ w'.phase = .reported := by
  cases hph : w.phase with
  | starting =>
    have hstep : watchStep p (.begin 0 true) = some (p.begin_ 0 w true) := by
      simp [watchStep, h.alive, h.watches, hph]
    exact (own_begin h hph).reports_of_polling (.step .init (show OwnStep 0 p (.begin 0 true) from ⟨rfl, rfl⟩) hstep) rfl
  | polling => exact h.reports_of_polling .init hph
  | leaving => exact h.reports_of_leaving .init hph
  | reported => exact ⟨p, w, .init, h, hph⟩
  | lost => exact absurd hph h.created

end Completes

theorem Own.isolated (h : Own p w) : Isolated p := by
  refine ⟨h.alive, ?_, ?_, ?_, ?_⟩
  · intro i w' hw
    obtain ⟨rfl, rfl⟩ := h.get hw
    exact h.told
  · intro i w' hw
    obtain ⟨rfl, rfl⟩ := h.get hw
    exact h.truthful
  · intro i w' hw p' hr
    obtain ⟨rfl, rfl⟩ := h.get hw
    obtain ⟨v, hv, hport⟩ := h.of_reach hr
    exact ⟨hv.alive, v, by rw [hv.watches]; rfl, hport, hport ▸ hv.told, hv.truthful⟩
  · intro i w' hw
    obtain ⟨rfl, rfl⟩ := h.get hw
    obtain ⟨p', v, hr, hv, hrep⟩ := h.completes
    exact ⟨p', v, hr, by rw [hv.watches]; rfl, hrep⟩

/-! ## A watch that goes on -/

/-- A single watch that nothing has ended. -/
structure GoesOn (p : Process) (w : Watch) : Prop where
  own : Own p w
  found : p.found = false
  timeout : p.timeout = false

theorem GoesOn.phase (h : GoesOn p w) : w.phase ≠ .leaving ∧ w.phase ≠ .reported := by
  have hmatched : w.matched = false := h.own.found ▸ h.found
  have hexpired : w.expired = false := h.own.timeout ▸ h.timeout
  constructor
  · intro hph
    have hstop := h.own.leaving hph
    rw [h.found, h.timeout] at hstop
    simp at hstop
  · intro hph
    by_cases hunk : w.state = .unknown
    · have hexp := ((h.own.truthful hph).unknown hunk).1
      rw [hexpired] at hexp
      cases hexp
    · have hmat := (h.own.truthful hph).found hunk
      rw [hmatched] at hmat
      cases hmat

theorem goesOn_step {l : WatchLabel} (h : GoesOn p w) (hg : Unfinished p l) (hs : watchStep p l = some p') :
    ∃ w', GoesOn p' w' := by
  have halive := h.own.alive
  simp only [watchStep, halive, Bool.false_eq_true, if_false] at hs
  cases l with
  | request port garbage os =>
    have hnil := hg.1
    rw [h.own.watches] at hnil
    cases hnil
  | message => cases hs; exact ⟨w, h⟩
  | begin i socket =>
    obtain rfl : socket = true := hg
    obtain ⟨rfl, hph, rfl⟩ := h.own.thread_step hs
    exact ⟨_, own_begin h.own hph, h.found, h.timeout⟩
  | poll i answers =>
    obtain ⟨rfl, ⟨hph, -, -, -⟩, rfl⟩ := h.own.thread_step hs
    have hmiss : ∀ m ∈ consumed answers, ∀ r ∈ m.record, (r.sport : Int) ≠ w.port :=
      hg w (by rw [h.own.watches]; rfl)
    obtain ⟨hfound, hmatched⟩ := recvTcpDiag_miss hmiss ⟨p.found, w.state⟩
    obtain ⟨w', hw', -, -⟩ := own_poll h.own hph h.found (by rw [hfound, hmatched, h.found])
      fun hm => by rw [hmatched] at hm; cases hm
    exact ⟨w', hw', hfound.trans h.found, h.timeout⟩
  | leave i =>
    obtain ⟨-, ⟨-, hstop⟩, -⟩ := h.own.thread_step hs
    rw [h.found, h.timeout] at hstop
    simp at hstop
  | report i =>
    obtain ⟨-, hph, -⟩ := h.own.thread_step hs
    exact absurd hph h.phase.1
  | exit i =>
    obtain ⟨-, hph, -⟩ : i = 0 ∧ w.phase = .reported ∧ ({ p with exited := true } : Process) = p' :=
      h.own.thread_step hs
    exact absurd hph h.phase.2
  | alarm inEpollWait => cases hg

theorem init_step {l : WatchLabel} (hg : Unfinished .init l) (hs : watchStep .init l = some p') :
    p' = .init ∨ ∃ w, GoesOn p' w := by
  cases l with
  | request port garbage os =>
    obtain ⟨-, rfl⟩ := hg
    cases hs
    exact .inr ⟨_, own_request port garbage, rfl, rfl⟩
  | message => cases hs; exact .inl rfl
  | begin i socket | poll i answers | leave i | report i | exit i | alarm inEpollWait => cases hs

theorem goesOn_of_reach (hr : Lts.Reach watchStep Unfinished .init p) : p = .init ∨ ∃ w, GoesOn p w := by
  refine hr.invariant (P := fun p => p = .init ∨ ∃ w, GoesOn p w) (.inl rfl) ?_
  rintro p l p' _ (rfl | ⟨w, hw⟩) hg hs
  · exact init_step hg hs
  · exact .inr (goesOn_step hw hg hs)

/-- In every run in which no watch comes to its end, every watch is isolated. -/
theorem watch_isolated (hr : Lts.Reach watchStep Unfinished .init p) : Isolated p := by
  rcases goesOn_of_reach hr with rfl | ⟨w, hw⟩
  · refine ⟨rfl, ?_, ?_, ?_, ?_⟩ <;> simp [Process.init]
  · exact hw.own.isolated

/-- A watch that is over ends the daemon; an alarm in `epoll_wait` ends it; and a second watch whose
port never comes up reports the uninitialised state when the first is found. -/
theorem watches_interfere :
    (∃ p, Lts.Reachable watchStep .init p ∧ p.reportsOf 0 = [⟨0, 80, .unknown⟩] ∧ p.exited = true ∧
      ¬ Isolated p) ∧
    (∃ p, Lts.Reachable watchStep .init p ∧ p.reports = [] ∧ p.exited = true ∧ ¬ Isolated p) ∧
    ∃ p, Lts.Reachable watchStep .init p ∧ p.exited = false ∧ p.reportsOf 1 = [⟨1, 81, .created⟩] ∧
      ¬ Isolated p := by
  refine ⟨?_, ?_, ?_⟩
  · obtain ⟨p, hs, hp⟩ := Lts.exists_of_run_map
      (p := fun p => p.reportsOf 0 == [⟨0, 80, .unknown⟩] && p.exited)
      (show (Lts.run watchStep .init [.request 80 .unknown .starts, .begin 0 true, .alarm false, .leave 0,
        .report 0, .exit 0]).map _ = some true by decide)
    simp only [Bool.and_eq_true, beq_iff_eq] at hp
    refine ⟨p, Lts.reachable_of_run hs, hp.1, hp.2, ?_⟩
    intro h
    rw [h.alive] at hp
    cases hp.2
  · obtain ⟨p, hs, hp⟩ := Lts.exists_of_run_map (p := fun p => p.reports == [] && p.exited)
      (show (Lts.run watchStep .init [.request 80 .unknown .starts, .begin 0 true, .alarm true]).map _ =
        some true by decide)
    simp only [Bool.and_eq_true, beq_iff_eq] at hp
    refine ⟨p, Lts.reachable_of_run hs, hp.1, hp.2, ?_⟩
    intro h
    rw [h.alive] at hp
    cases hp.2
  · obtain ⟨p, hs, hp⟩ := Lts.exists_of_run_map
      (p := fun p => p.exited == false && p.reportsOf 1 == [⟨1, 81, .created⟩] &&
        p.watches[1]? == some ⟨81, .reported, .created, false, false⟩)
      (show (Lts.run watchStep .init [.request 80 .unknown .starts, .begin 0 true,
        .request 81 .created .starts, .begin 1 true, .poll 0 [[.diag ⟨80, 10⟩, .done]], .leave 1,
        .report 1]).map _ = some true by decide)
    simp only [Bool.and_eq_true, beq_iff_eq] at hp
    obtain ⟨⟨halive, hrep⟩, hw⟩ := hp
    refine ⟨p, Lts.reachable_of_run hs, halive, hrep, ?_⟩
    intro h
    cases (h.truthful 1 _ hw rfl).found (by decide)

/-- A watch on port 80 that has polled twice, while another port is listening. -/
theorem polling_watch_isolated :
    ∃ p, Lts.Reach watchStep Unfinished .init p ∧ p.watches = [⟨80, .polling, .listening, false, false⟩] ∧ Isolated p := by
  obtain ⟨p, hs, hp⟩ := Lts.exists_of_run_map
    (p := fun p => p.watches == [⟨80, .polling, .listening, false, false⟩])
    (show (Lts.run (Lts.guarded Unfinished watchStep) .init [.request 80 .unknown .starts, .message,
      .begin 0 true, .poll 0 [[.done]], .message, .poll 0 [[.diag ⟨22, 10⟩], [.done]]]).map _ = some true by decide)
  rw [beq_iff_eq] at hp
  have hreach := Lts.reach_of_run hs
  exact ⟨p, hreach, hp, watch_isolated hreach⟩

end SocketWatch

end ProcCtrld
