import ProcCtrld.SocketWatch

/-!
# ProcCtrld.SocketScan

What one turn of the loop in `search_TCP_connection` makes of the kernel's answers (`Detect_socket.c`).

A turn requests two dumps, of IPv4 and of IPv6, and calls `recv_tcp_diag` once, which returns at the first
NLMSG_DONE. What it has not read stays in the socket for the next turn. Every message before the NLMSG_DONE
goes to `process_inet_diag`, an NLMSG_ERROR too, and each of them sets the state.

* `genuine_iff`: exactly when a turn decides from records of its port and reads all the records that it
  requested.
* `later_turns_read_none`: when each dump has its NLMSG_DONE, a turn after the first reads nothing of what it
  requested.
-/

namespace ProcCtrld.SocketWatch

/-- The record that `process_inet_diag` is given. -/
def NlMsg.read : NlMsg → Option InetDiagMsg
  | done => none
  | error payload => some payload
  | diag record => some record

/-- `queue` was in the socket when the turn began, `answers` are the dumps that it requested. -/
def turn (port : Int) (state : CSocketState) (queue answers : List (List NlMsg)) : Scan :=
  recvTcpDiag port ⟨false, state⟩ (queue ++ answers)

/-- The messages of `answers` that the turn does not come to. -/
def unconsumed (queue answers : List (List NlMsg)) : List NlMsg :=
  answers.flatten.drop ((consumed (queue ++ answers)).length - queue.flatten.length)

/-- A record of the port, no error. -/
def RecordOf (port : Int) (ms : List NlMsg) (r : InetDiagMsg) : Prop := .diag r ∈ ms ∧ (r.sport : Int) = port

structure Genuine (port : Int) (state : CSocketState) (queue answers : List (List NlMsg)) : Prop where
  found : (turn port state queue answers).found = true ↔ ∃ r, RecordOf port (consumed (queue ++ answers)) r
  state : (turn port state queue answers).found = true → ∃ r, RecordOf port (consumed (queue ++ answers)) r ∧
    (turn port state queue answers).state = socketState r.state
  complete : ∀ r, .diag r ∉ unconsumed queue answers

/-- What the messages have to be like. -/
structure CleanDumps (port : Int) (queue answers : List (List NlMsg)) : Prop where
  /-- An error of the port comes with a record of it. -/
  errors : ∀ p, .error p ∈ consumed (queue ++ answers) → (p.sport : Int) = port →
    ∃ r, RecordOf port (consumed (queue ++ answers)) r
  /-- When there is a record of the port, the last message shows the state of one. -/
  last : ∀ r, RecordOf port (consumed (queue ++ answers)) r →
    ∃ m r', (consumed (queue ++ answers)).getLast?.bind NlMsg.read = some m ∧
      RecordOf port (consumed (queue ++ answers)) r' ∧ socketState m.state = socketState r'.state
  /-- No NLMSG_DONE is left from an earlier turn when there are records to come. -/
  nothingLeft : ∀ r, .diag r ∈ answers.flatten → .done ∉ queue.flatten
  /-- No record comes behind the first NLMSG_DONE. -/
  recordsFirst : ∀ r, .diag r ∉ answers.flatten.dropWhile (· ≠ .done)

/-! ## One turn -/

section Messages

variable {port : Int} {state : CSocketState} {ms : List NlMsg} {scan : Scan} {queue answers : List (List NlMsg)}

theorem scanMsg_eq (port : Int) (scan : Scan) (m : NlMsg) :
    scanMsg port scan m = (m.read.map (processInetDiag port scan)).getD scan := by
  cases m <;> rfl

theorem foldl_found : (ms.foldl (scanMsg port) scan).found = true ↔
    scan.found = true ∨ ∃ m ∈ ms, ∃ r, m.read = some r ∧ (r.sport : Int) = port := by
  induction ms generalizing scan with
  | nil => simp
  | cons m ms ih =>
    rw [List.foldl_cons, ih, scanMsg_eq]
    cases hm : m.read with
    | none => simp [hm]
    | some r => simp [hm, processInetDiag, or_assoc]

theorem foldl_state {m : InetDiagMsg} (hlast : ms.getLast?.bind NlMsg.read = some m) :
    (ms.foldl (scanMsg port) scan).state = socketState m.state := by
  rcases List.eq_nil_or_concat ms with rfl | ⟨init, l, rfl⟩
  · cases hlast
  · have hl : l.read = some m := by simpa using hlast
    rw [List.concat_eq_append, List.foldl_append, List.foldl_cons, List.foldl_nil, scanMsg_eq, hl]
    rfl

theorem not_done_of_consumed {m : NlMsg} (h : m ∈ consumed answers) : m ≠ .done := by
  have := List.mem_takeWhile_imp h
  simpa using this

theorem last_of_consumed (h : consumed answers ≠ []) :
    ∃ m, (consumed answers).getLast?.bind NlMsg.read = some m := by
  have hne := not_done_of_consumed (List.getLast_mem h)
  rw [List.getLast?_eq_some_getLast h, Option.bind_some]
  cases hlast : (consumed answers).getLast h with
  | done => exact absurd hlast hne
  | error payload => exact ⟨payload, rfl⟩
  | diag record => exact ⟨record, rfl⟩

theorem turn_found_iff : (turn port state queue answers).found = true ↔
    (∃ r, RecordOf port (consumed (queue ++ answers)) r) ∨
      ∃ p, .error p ∈ consumed (queue ++ answers) ∧ (p.sport : Int) = port := by
  rw [turn, recvTcpDiag_eq, foldl_found]
  constructor
  · rintro (hfalse | ⟨m, hm, r, hr, hport⟩)
    · cases hfalse
    · cases m with
      | done => cases hr
      | error payload =>
        cases hr
        exact .inr ⟨_, hm, hport⟩
      | diag record =>
        cases hr
        exact .inl ⟨_, hm, hport⟩
  · rintro (⟨r, hr, hport⟩ | ⟨p, hp, hport⟩)
    · exact .inr ⟨_, hr, r, rfl, hport⟩
    · exact .inr ⟨_, hp, p, rfl, hport⟩

theorem turn_state {m : InetDiagMsg} (hlast : (consumed (queue ++ answers)).getLast?.bind NlMsg.read = some m) :
    (turn port state queue answers).state = socketState m.state := by
  rw [turn, recvTcpDiag_eq]
  exact foldl_state hlast

theorem unconsumed_of_done (h : .done ∈ queue.flatten) : unconsumed queue answers = answers.flatten := by
  have hlen : (consumed (queue ++ answers)).length ≤ queue.flatten.length := by
    rw [consumed, List.flatten_append, takeWhile_append_of_done h]
    exact (List.takeWhile_sublist _).length_le
  rw [unconsumed, Nat.sub_eq_zero_of_le hlen, List.drop_zero]

theorem unconsumed_of_not_done (h : .done ∉ queue.flatten) :
    unconsumed queue answers = answers.flatten.dropWhile (· ≠ .done) := by
  have hall : ∀ m ∈ queue.flatten, decide (m ≠ NlMsg.done) = true := by
    intro m hm
    rw [decide_eq_true_eq]
    rintro rfl
    exact h hm
  have hlen : (consumed (queue ++ answers)).length - queue.flatten.length =
      (answers.flatten.takeWhile (· ≠ .done)).length := by
    rw [consumed, List.flatten_append, List.takeWhile_append_of_pos hall, List.length_append]
    omega
  have hsplit : answers.flatten.takeWhile (· ≠ .done) ++ answers.flatten.dropWhile (· ≠ .done) = answers.flatten :=
    List.takeWhile_append_dropWhile
  rw [unconsumed, hlen]
  nth_rewrite 2 [← hsplit]
  exact List.drop_left

theorem complete_iff : (∀ r, .diag r ∉ unconsumed queue answers) ↔
    (∀ r, .diag r ∈ answers.flatten → .done ∉ queue.flatten) ∧
      ∀ r, .diag r ∉ answers.flatten.dropWhile (· ≠ .done) := by
  by_cases hdone : .done ∈ queue.flatten
  · rw [unconsumed_of_done hdone]
    constructor
    · intro h
      refine ⟨fun r hr => absurd hr (h r), ?_⟩
      intro r hr
      exact h r ((List.dropWhile_sublist _).subset hr)
    · rintro ⟨hqueue, -⟩ r hr
      exact hqueue r hr hdone
  · rw [unconsumed_of_not_done hdone]
    exact ⟨fun h => ⟨fun _ _ => hdone, h⟩, fun h => h.2⟩

end Messages

/-- For every port, every state before, everything that is left from earlier turns and all answers. -/
theorem genuine_iff (port : Int) (state : CSocketState) (queue answers : List (List NlMsg)) :
    Genuine port state queue answers ↔ CleanDumps port queue answers := by
  constructor
  · intro h
    obtain ⟨hqueue, hanswers⟩ := complete_iff.mp h.complete
    refine ⟨?_, ?_, hqueue, hanswers⟩
    · intro p hp hport
      exact h.found.mp (turn_found_iff.mpr (.inr ⟨p, hp, hport⟩))
    · intro r hr
      obtain ⟨m, hm⟩ := last_of_consumed (List.ne_nil_of_mem hr.1)
      obtain ⟨r', hr', hstate⟩ := h.state (h.found.mpr ⟨r, hr⟩)
      rw [turn_state hm] at hstate
      exact ⟨m, r', hm, hr', hstate⟩
  · intro h
    have hfound : (turn port state queue answers).found = true ↔
        ∃ r, RecordOf port (consumed (queue ++ answers)) r := by
      rw [turn_found_iff]
      refine or_iff_left_of_imp ?_
      rintro ⟨p, hp, hport⟩
      exact h.errors p hp hport
    refine ⟨hfound, ?_, complete_iff.mpr ⟨h.nothingLeft, h.recordsFirst⟩⟩
    intro htrue
    obtain ⟨r, hr⟩ := hfound.mp htrue
    obtain ⟨m, r', hm, hr', hstate⟩ := h.last r hr
    exact ⟨r', hr', (turn_state hm).trans hstate⟩

/-- Only IPv6 has a socket that listens on the port: the turn that asks for it does not find it. -/
theorem ipv6_listener_not_consumed :
    (turn 8080 .unknown [] [[.done], [.diag ⟨8080, tcpListen⟩, .done]]).found = false ∧
      .diag ⟨8080, tcpListen⟩ ∈ unconsumed [] [[.done], [.diag ⟨8080, tcpListen⟩, .done]] ∧
      ¬ Genuine 8080 .unknown [] [[.done], [.diag ⟨8080, tcpListen⟩, .done]] := by
  have hmem : .diag ⟨8080, tcpListen⟩ ∈ unconsumed [] [[.done], [.diag ⟨8080, tcpListen⟩, .done]] := by decide
  exact ⟨by decide, hmem, fun h => h.complete _ hmem⟩

/-! ## The turns of the loop -/

/-- What `recv_tcp_diag` leaves in the socket. -/
def leftover : List (List NlMsg) → List (List NlMsg)
  | [] => []
  | d :: ds => if .done ∈ d then ds else leftover ds

/-- What is in the socket after turns with these answers. -/
def queueAfter (turns : List (List (List NlMsg))) : List (List NlMsg) :=
  turns.foldl (fun queue answers => leftover (queue ++ answers)) []

/-- The datagrams with a NLMSG_DONE. -/
def ends (datagrams : List (List NlMsg)) : Nat := datagrams.countP fun d => .done ∈ d

section Turns

variable {turns : List (List (List NlMsg))} {queue answers : List (List NlMsg)}

theorem ends_leftover (datagrams : List (List NlMsg)) : ends (leftover datagrams) = ends datagrams - 1 := by
  induction datagrams with
  | nil => rfl
  | cons d ds ih =>
    by_cases hd : .done ∈ d
    · simp [leftover, ends, hd]
    · have hends : ends (d :: ds) = ends ds := by simp [ends, hd]
      rw [leftover, if_neg hd, ih, hends]

theorem ends_append (queue answers : List (List NlMsg)) : ends (queue ++ answers) = ends queue + ends answers :=
  List.countP_append

theorem ends_foldl (h : ∀ answers ∈ turns, ends answers = 2) (queue : List (List NlMsg)) :
    ends (turns.foldl (fun queue answers => leftover (queue ++ answers)) queue) = ends queue + turns.length := by
  induction turns generalizing queue with
  | nil => rfl
  | cons answers turns ih =>
    obtain ⟨hanswers, hturns⟩ := List.forall_mem_cons.mp h
    rw [List.foldl_cons, ih hturns, ends_leftover, ends_append, hanswers, List.length_cons]
    omega

theorem ends_queueAfter (h : ∀ answers ∈ turns, ends answers = 2) : ends (queueAfter turns) = turns.length := by
  have hnil : ends [] = 0 := rfl
  rw [queueAfter, ends_foldl h, hnil, Nat.zero_add]

/-- From the second turn on what is read was requested by an earlier one. -/
theorem later_turns_read_none (h : ∀ answers ∈ turns, ends answers = 2) (hne : turns ≠ [])
    (answers : List (List NlMsg)) : unconsumed (queueAfter turns) answers = answers.flatten := by
  have hpos : 0 < ends (queueAfter turns) := by
    rw [ends_queueAfter h]
    exact List.length_pos_of_ne_nil hne
  obtain ⟨d, hd, hdone⟩ := List.countP_pos_iff.mp hpos
  exact unconsumed_of_done (List.mem_flatten.mpr ⟨d, hd, by simpa using hdone⟩)

end Turns

end ProcCtrld.SocketWatch
