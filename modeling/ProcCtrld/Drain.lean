import Mathlib.Data.Nat.Find
import ProcCtrld.Launch
import ProcCtrld.Sends
import ProcCtrld.Termination

/-!
# ProcCtrld.Drain

What the event loop of the C daemon does once nothing new happens: no child acts, no client sends and
no signal interrupts it.

* `own_steps_bounded` — each step that the daemon takes by itself (`OwnStep`) lowers `State.work`. An
  event of the batch is handled once; a pipe is read once, whatever `epoll_wait` says of it, since its
  `event_data` is freed; a pending SIGCHLD pays for the wait it may block in and the batch it may end.
* `at_rest_has_told` — where it can take no step by itself it has ended, waits for a live child, searches
  past the table or is asleep in `epoll_wait`. Asleep, it has told of every `execve` whose outcome could be
  known and of every child that is gone.
* `live_child_freezes` — a SIGCHLD of a child that has only stopped keeps the daemon from everything else
  until that child exits.
-/

namespace ProcCtrld

variable {s s' : State} {l : Label}

/-! ## The steps of the daemon -/

/-- The events that the daemon's children cause. -/
def Ready.isOwn : Ready → Bool
  | .signalfd | .execve _ => true
  | _ => false

/-- `waitpid` waits for a child that is alive. -/
def State.blocked (s : State) : Bool :=
  match s.mode with
  | .waitpid pid =>
    match s.unreaped pid with
    | some (c, _) => !c.dead
    | none => false
  | _ => false

/-- The daemon goes on with its batch, returns from a call, or finds out what its children have done. -/
structure OwnStep (s : State) (l : Label) : Prop where
  own : l.fromOutside = false
  events : ∀ events ∈ l.poll, ∀ r ∈ events, r.isOwn = true
  returns : l.waits → s.blocked = false

instance (s : State) (l : Label) : Decidable (OwnStep s l) :=
  decidable_of_iff (l.fromOutside = false ∧ (∀ events ∈ l.poll, ∀ r ∈ events, r.isOwn = true) ∧
      (l.waits → s.blocked = false))
    ⟨fun ⟨hown, hevents, hreturns⟩ => ⟨hown, hevents, hreturns⟩, fun h => ⟨h.own, h.events, h.returns⟩⟩

/-- The steps that are neither a wait nor the end of one. -/
theorem OwnStep.of_event (hown : l.fromOutside = false) (hpoll : l.poll = none) (hwaits : l.waits = false) :
    OwnStep s l where
  own := hown
  events := by simp [hpoll]
  returns := by simp [hwaits]

/-! ## The work that is left -/

/-- A request may launch a child, with a pipe to read and a call to return from. -/
def Ready.work : Ready → Nat
  | .signalfd | .execve _ => 0
  | .sockMessage _ => 5
  | _ => 2

theorem Ready.two_le_work {r : Ready} (h : r.isOwn = false) : 2 ≤ r.work := by
  cases r <;> simp_all [Ready.isOwn, Ready.work]

def eventsWork : List Ready → Nat
  | [] => 0
  | r :: rest => r.work + eventsWork rest

def batchWork (batch : List Ready) : Nat := eventsWork batch + if batch.isEmpty then 1 else 0

def Mode.work : Mode → Nat
  | .loop | .halted => 0
  | .waitpid _ | .launching _ => 1

/-- The launches whose pipe has not been read. -/
def State.unread (s : State) : Nat := ((List.range s.children.length).filter (· ∉ s.freed)).length

def State.work (s : State) : Nat :=
  2 * s.unread + (if s.pending.isSome then 3 else 0) + s.mode.work + batchWork s.batch

theorem batchWork_tail (r : Ready) (rest : List Ready) :
    batchWork rest + r.work ≤ batchWork (r :: rest) + 1 := by
  simp only [batchWork, eventsWork]
  split <;> simp <;> omega

theorem batchWork_own {events : List Ready} (hne : events ≠ []) (h : ∀ r ∈ events, r.isOwn = true) :
    batchWork events = 0 := by
  have hsum : eventsWork events = 0 := by
    clear hne
    induction events with
    | nil => rfl
    | cons r rest ih =>
      obtain ⟨hr, hrest⟩ := List.forall_mem_cons.mp h
      have hzero : r.work = 0 := by cases r <;> first | rfl | cases hr
      rw [eventsWork, hzero, ih hrest]
  simp [batchWork, hsum, hne]

theorem unread_of_same (hlen : s'.children.length = s.children.length) (hfreed : s'.freed = s.freed) :
    s'.unread = s.unread := by
  rw [State.unread, State.unread, hlen, hfreed]

theorem unread_of_launch (hlen : s'.children.length = s.children.length + 1) (hfreed : s'.freed = s.freed) :
    s'.unread ≤ s.unread + 1 := by
  rw [State.unread, State.unread, hlen, hfreed, List.range_succ, List.filter_append, List.length_append]
  have := List.length_filter_le (fun k => decide (k ∉ s.freed)) [s.children.length]
  rw [List.length_singleton] at this
  omega

theorem unread_of_read {k : Nat} (hk : k < s.children.length) (hnew : k ∉ s.freed)
    (hlen : s'.children.length = s.children.length) (hfreed : s'.freed = k :: s.freed) :
    s'.unread < s.unread := by
  rw [State.unread, State.unread, hlen, hfreed]
  have hsplit : (List.range s.children.length).filter (· ∉ k :: s.freed) =
      ((List.range s.children.length).filter (· ∉ s.freed)).filter (· ≠ k) := by
    rw [List.filter_filter]
    refine List.filter_congr fun j _ => ?_
    simp only [List.mem_cons, not_or, Bool.decide_and, ne_eq]
  rw [hsplit, List.length_filter_lt_length_iff_exists]
  exact ⟨k, List.mem_filter.mpr ⟨List.mem_range.mpr hk, by simpa using hnew⟩, by simp⟩

/-! ## The batch -/

/-- The events of the batch are still there when their turn comes, as far as the children cause them. -/
structure BatchInv (s : State) : Prop where
  execve : ∀ e, .execve e ∈ s.batch → (s.children[e.launch]?.bind Child.readPipe).isSome = true
  signalfd : .signalfd ∈ s.batch → s.pending.isSome = true
  nodup : s.batch.Nodup

theorem BatchInv.known (h : BatchInv s) {e : PipeExecve} (he : .execve e ∈ s.batch) :
    e.launch < s.children.length := by
  have := h.execve e he
  by_contra hge
  rw [List.getElem?_eq_none (by omega)] at this
  cases this

theorem Child.readPipe_isSome_iff {c : Child} :
    c.readPipe.isSome = true ↔ c.phase.told = true ∨ c.dead = true := by
  unfold Child.readPipe Phase.told
  cases c.phase <;> cases c.dead <;> simp

/-- What a read of the pipe would tell is not taken back. -/
theorem Child.readPipe_step {c c' : Child} {act : ChildAct} (h : c.step act = some c')
    (hr : c.readPipe.isSome = true) : c'.readPipe.isSome = true := by
  rw [Child.readPipe_isSome_iff, Child.step_alive h] at hr
  have htold : c.phase.told = true := by simpa using hr
  rw [Child.readPipe_isSome_iff]
  left
  unfold Child.step at h
  split at h <;> split at h <;> cases h <;> simp_all [Phase.told]

theorem BatchInv.of_children (h : BatchInv s) (hbatch : s'.batch <:+ s.batch)
    (hread : ∀ (k : Nat) (c : Child), s.children[k]? = some c → c.readPipe.isSome = true →
      ∃ c' : Child, s'.children[k]? = some c' ∧ c'.readPipe.isSome = true)
    (hpending : .signalfd ∈ s'.batch → s'.pending.isSome = true) : BatchInv s' := by
  refine ⟨fun e he => ?_, hpending, h.nodup.sublist hbatch.sublist⟩
  have hsome := h.execve e (hbatch.subset he)
  cases hc : s.children[e.launch]? with
  | none =>
    rw [hc] at hsome
    cases hsome
  | some c =>
    rw [hc] at hsome
    obtain ⟨c', hc', hr'⟩ := hread _ c hc hsome
    rw [hc']
    exact hr'

theorem BatchInv.handled (h : BatchInv s) {pid : Pid} {launch : Option Nat} {exitStatus : Nat}
    (hh : Handled s l s' pid launch exitStatus)
    (hread : ∀ (k : Nat) (c : Child), s.children[k]? = some c → c.readPipe.isSome = true →
      ∃ c' : Child, s'.children[k]? = some c' ∧ c'.readPipe.isSome = true) : BatchInv s' := by
  refine h.of_children hh.batch_suffix hread fun hmem => ?_
  rcases hh.awaited with ⟨-, hbatch, -, -⟩ | ⟨-, hbatch, hpending⟩
  · have hnodup := h.nodup
    rw [hbatch, List.nodup_cons] at hnodup
    exact absurd hmem hnodup.1
  · rw [hpending]
    exact h.signalfd (hbatch ▸ hmem)

theorem batchInv_step (h : BatchInv s) (he : Effect s l s') : BatchInv s' := by
  cases he with
  | @child k act c c' hc hact =>
    refine h.of_children (List.suffix_refl _) ?_ ?_
    · intro j d hd hr
      by_cases hjk : k = j
      · subst hjk
        rw [hc] at hd
        cases hd
        exact ⟨c', getElem?_set_same c' hc, Child.readPipe_step hact hr⟩
      · exact ⟨d, by rw [List.getElem?_set_ne hjk]; exact hd, hr⟩
    · intro hmem
      obtain ⟨pid, hpid⟩ := Option.isSome_iff_exists.mp (h.signalfd hmem)
      exact Option.isSome_of_eq_some (pending_act_of_some hpid)
  | quiet hq hcl hbusy =>
    refine h.of_children hq.batch ?_ ?_
    · intro k c hc hr
      exact ⟨c, by rw [hq.children]; exact hc, hr⟩
    · intro hmem
      rw [hq.pending]
      exact h.signalfd (hq.batch.subset hmem)
  | epollWait hmode hnodup hready =>
    refine ⟨fun e he => ?_, fun hmem => hready _ hmem, hnodup⟩
    have := hready _ he
    simp only [State.ready, Bool.and_eq_true] at this
    exact this.2
  | blocks hmode hbatch hpend hc hpid hun halive =>
    have hnodup := h.nodup
    rw [hbatch, List.nodup_cons] at hnodup
    refine h.of_children ?_ (fun k c hc hr => ⟨c, hc, hr⟩) fun hmem => absurd hmem hnodup.1
    rw [hbatch]
    exact List.suffix_cons _ _
  | @reaps l s' pid c k status hh hc hpid hz hch =>
    refine h.handled hh ?_
    intro j d hd hr
    by_cases hjk : k = j
    · subst hjk
      refine ⟨{ c with life := .reaped status }, by rw [hch]; exact getElem?_set_same _ hc, ?_⟩
      unfold Child.readPipe
      split <;> rfl
    · exact ⟨d, by rw [hch, List.getElem?_set_ne hjk]; exact hd, hr⟩
  | fails hh hnone hch =>
    refine h.handled hh ?_
    intro k c hc hr
    exact ⟨c, by rw [hch]; exact hc, hr⟩
  | execve hmode hbatch hfree hread =>
    refine h.of_children ?_ (fun k c hc hr => ⟨c, hc, hr⟩) fun hmem => ?_
    · simp only [hbatch]
      exact List.suffix_cons _ _
    · exact h.signalfd (by rw [hbatch]; exact List.mem_cons_of_mem _ hmem)
  | clones hmode hbatch hkept hnew hpid =>
    refine h.of_children ?_ ?_ fun hmem => ?_
    · rw [hbatch]
      exact List.suffix_cons _ _
    · intro k c hc hr
      exact ⟨c, by rw [List.getElem?_append_left (List.getElem?_eq_some_iff.mp hc).1]; exact hc, hr⟩
    · exact h.signalfd (by rw [hbatch]; exact List.mem_cons_of_mem _ hmem)
  | launched hmode => exact ⟨h.execve, h.signalfd, h.nodup⟩

/-! ## Free numbers -/

/-- The descriptors in use are finitely many. -/
def Bounded (fds : Fd → Option Obj) : Prop := ∃ n, ∀ m, n ≤ m → fds m = none

section Bounded

variable {fds fds' : Fd → Option Obj}

theorem Bounded.update (h : Bounded fds) (fd : Fd) (o : Option Obj) : Bounded (Function.update fds fd o) := by
  obtain ⟨n, hn⟩ := h
  refine ⟨max n (fd + 1), fun m hm => ?_⟩
  have hne : m ≠ fd := by
    rintro rfl
    exact absurd ((le_max_right _ _).trans hm) (Nat.not_succ_le_self m)
  rw [Function.update_of_ne hne]
  exact hn m ((le_max_left _ _).trans hm)

theorem Bounded.openFd {fd : Fd} {obj : Obj} (h : Bounded fds) (ho : openFd fds fd obj = some fds') :
    Bounded fds' := by
  obtain ⟨-, rfl⟩ := openFd_eq ho
  exact h.update fd _

theorem Bounded.opens (h : Bounded fds) (ho : Opens fds fds') : Bounded fds' := by
  induction ho with
  | none => exact h
  | more _ hopen _ ih => exact ih.openFd hopen

theorem Bounded.lowestFree (h : Bounded fds) : ∃ fd, lowestFree fds fd := by
  have hfree : ∃ fd, fds fd = none := by
    obtain ⟨n, hn⟩ := h
    exact ⟨n, hn n le_rfl⟩
  refine ⟨Nat.find hfree, Nat.find_spec hfree, fun n hn => ?_⟩
  have := Nat.find_min hfree hn
  rwa [← ne_eq, Option.ne_none_iff_isSome] at this

theorem bounded_step (h : Bounded s.fds) (hs : step s l = some s') : Bounded s'.fds := by
  have hhandled (hl : l.handlesSignal = true) : Bounded s'.fds := by
    obtain ⟨n, hn⟩ := h
    refine ⟨n, fun m hm => ?_⟩
    rw [handled_fds hl hs, hn m hm, ite_self]
  cases step_cases hs with
  | signalfd | waitpidReturns => exact hhandled rfl
  | openOther hopen | sockConnexion _ _ hopen => exact h.openFd hopen
  | closeOther | execve | sockClosed | hupErr => exact h.update _ none
  | runCommand hmode hbatch hcase =>
    cases hcase with
    | fails hos hleft => exact h.opens hleft.opens
    | pipeFails => exact h
    | clones herr hread hwrite hpos hpid => exact (h.opens (opens_openErrFile herr)).openFd hread
  | @launchReturns epollAdd lg hmode =>
    cases epollAdd with
    | true => exact h
    | false => exact h.update _ none
  | child | epollWait | epollFails | kills | killsGroup | killsNone | unexpected | inotify => exact h

end Bounded

/-! ## Every step lowers the work -/

/-- `handle_SIGCHLD` leaves the batch alone, and blocks only on a live child. -/
theorem sigchld_work {pid : Pid} {garbage : Nat} {held : Bool} (h : SigchldCase s pid garbage held s') :
    s'.unread = s.unread ∧ s'.pending = s.pending ∧ s'.batch = s.batch ∧
      (s'.mode = .loop ∨ (s'.mode = .waitpid pid ∧ ∃ c k, s.unreaped pid = some (c, k) ∧ c.dead = false)) := by
  cases h with
  | blocks hun halive => exact ⟨rfl, rfl, rfl, .inr ⟨rfl, _, _, hun, halive⟩⟩
  | reaps hun hz h =>
    refine ⟨unread_of_same ?_ h.freed, h.pending, h.batch, .inl h.mode⟩
    rw [h.children, List.length_set]
  | fails hun h => exact ⟨unread_of_same (by rw [h.children]) h.freed, h.pending, h.batch, .inl h.mode⟩

theorem Mode.work_le (m : Mode) : m.work ≤ 1 := by
  cases m <;> simp [Mode.work]

theorem work_lt_of_tail {r : Ready} {rest : List Ready} (hbatch : s.batch = r :: rest) (hr : 2 ≤ r.work)
    (hmode : s'.mode.work ≤ s.mode.work) (hbatch' : s'.batch = rest) (hunread : s'.unread = s.unread)
    (hpending : s'.pending = s.pending) : s'.work < s.work := by
  have htail := batchWork_tail r rest
  simp only [State.work, hbatch, hbatch', hunread, hpending]
  omega

theorem work_lt_signalfd {garbage : Nat} {held : Bool} {rest : List Ready} {pid : Pid} (hmode : s.mode = .loop)
    (hbatch : s.batch = .signalfd :: rest) (hpend : s.pending = some pid)
    (h : SigchldCase { s with batch := rest, pending := none } pid garbage held s') : s'.work < s.work := by
  obtain ⟨hunread, hpending, hbatch', -⟩ := sigchld_work h
  have htail := batchWork_tail .signalfd rest
  have hle := s'.mode.work_le
  have hunread' : s'.unread = s.unread := hunread
  simp only [State.work, hbatch, hbatch', hunread', hpending, hpend, hmode, Mode.work, Ready.work] at *
  simp
  omega

theorem work_lt_waitpidReturns {garbage : Nat} {held : Bool} {pid : Pid} (hb : s.blocked = false)
    (hmode : s.mode = .waitpid pid) (h : SigchldCase s pid garbage held s') : s'.work < s.work := by
  obtain ⟨hunread, hpending, hbatch, hmode' | ⟨-, c, k, hu, halive⟩⟩ := sigchld_work h
  · simp only [State.work, hunread, hpending, hbatch, hmode, hmode', Mode.work]
    omega
  · simp [State.blocked, hmode, hu, halive] at hb

theorem work_lt_request {com : Command} {os : LaunchOs} {sock : Fd} {rest : List Ready} (hmode : s.mode = .loop)
    (hbatch : s.batch = .sockMessage sock :: rest) (h : RequestCase s rest sock com os s') :
    s'.work < s.work := by
  cases h with
  | fails hos hleft => exact work_lt_of_tail hbatch (Ready.two_le_work rfl) le_rfl rfl rfl rfl
  | pipeFails => exact work_lt_of_tail hbatch (Ready.two_le_work rfl) (Nat.zero_le _) rfl rfl rfl
  | @clones errFile pipefd pid stack err fds₀ fds herr hread hwrite hpos hpid =>
    have htail := batchWork_tail (.sockMessage sock) rest
    have hle := @unread_of_launch s { s with
      batch := rest
      fds := fds
      children := s.children ++ [⟨pid, com.path, .running, .beforeExecve⟩]
      mode := .launching ⟨s.children.length, pid, com.path, sock, err, stack, pipefd.1, com.toWatch⟩ }
      (by simp) rfl
    simp only [State.work, hbatch, hmode, Mode.work, Ready.work] at *
    omega

theorem work_lt (hi : BatchInv s) (hown : OwnStep s l) (h : step s l = some s') : s'.work < s.work := by
  cases step_cases h with
  | child | openOther | closeOther | epollFails => exact absurd hown.own Bool.noConfusion
  | epollWait hmode hbatch hne hlen hnodup hready =>
    have hzero := batchWork_own hne (hown.events _ rfl)
    have hone : batchWork [] = 1 := rfl
    simp only [State.work, hbatch, hzero, hone, State.unread]
    omega
  | signalfd hmode hbatch hpend hcase => exact work_lt_signalfd hmode hbatch hpend hcase
  | waitpidReturns hmode hcase => exact work_lt_waitpidReturns (hown.returns rfl) hmode hcase
  | @execve foreign success e rest hmode hbatch hfree hread =>
    have hk := hi.known (e := e) (by rw [hbatch]; exact List.mem_cons_self)
    have htail := batchWork_tail (.execve e) rest
    have hlt := @unread_of_read s { s.closeFd e.fd false with
      batch := rest
      freed := e.launch :: s.freed
      sent := s.sent ++ [⟨s.communicationSocket, .execveTerminated e.pid e.path success, some e.launch⟩] }
      e.launch hk hfree rfl rfl
    simp only [State.work, hbatch, Ready.work, State.closeFd] at *
    omega
  | runCommand hmode hbatch hcase => exact work_lt_request hmode hbatch hcase
  | launchReturns hmode =>
    simp only [State.work, hmode, Mode.work, State.unread]
    omega
  | killsGroup hmode hbatch =>
    exact work_lt_of_tail hbatch (Ready.two_le_work rfl) (Nat.zero_le _) rfl rfl rfl
  | kills hmode hbatch | killsNone hmode hbatch | unexpected hmode hbatch | sockClosed hmode hbatch
  | sockConnexion hmode hbatch | inotify hmode hbatch | hupErr hmode hbatch =>
    exact work_lt_of_tail hbatch (Ready.two_le_work rfl) le_rfl rfl rfl rfl

theorem batchInv_of_reachable {heap : Nat → ProcessInfo} {nfds : Nat} {sock : Fd} {port : Nat}
    (hr : Lts.Reachable step (.init heap nfds sock port) s) : BatchInv s :=
  hr.invariant ⟨by simp [State.init], by simp [State.init], List.nodup_nil⟩
    fun _ _ _ _ h _ hs => batchInv_step h (step_effect hs)

/-- In every run in which no registered pipe is closed by number, the daemon takes no more than `State.work`
steps by itself. -/
theorem own_steps_bounded (heap : Nat → ProcessInfo) (nfds : Nat) (sock : Fd) (port : Nat)
    (hr : Lts.Reach step PipesKept (.init heap nfds sock port) s) {ls : List Label}
    (hown : Lts.StepsAll step (fun s l => OwnStep s l ∧ PipesKept s l) s ls) (hrun : Lts.run step s ls = some s') :
    ls.length ≤ s.work := by
  have hle := Lts.length_add_le_of_stepsAll (f := State.work)
    (fun _ _ _ hi ho hs => ⟨batchInv_step hi (step_effect hs), work_lt hi ho.1 hs⟩)
    (batchInv_of_reachable hr.reachable) hown hrun
  omega

/-- A daemon with a child that has exec'd and exited, neither of which it has seen. -/
def unseen : List Label :=
  connects ++ launches "A" 9 (10, 11) 20 ++ [.child 0 .execveSucceeds, .child 0 (.exit (.exited 0))]

/-- One wait and two events; the work is that of one unread pipe, the pending signal and an empty batch. -/
def sees : List Label := [.epollWait [.signalfd, .execve ⟨10, 20, "A", 0⟩], .signalfd 0 false, .execve false]

theorem three_steps_of_six :
    ∃ s s' : State, Lts.Reach step PipesKept .start s ∧ s.work = 6 ∧ Lts.run step s sees = some s' ∧
      sees.length ≤ s.work := by
  obtain ⟨s, hs, hp⟩ := Lts.exists_of_run_map
    (p := fun s => s.work == 6 && (Lts.run (Lts.guarded (fun s l => OwnStep s l ∧ PipesKept s l) step) s sees).isSome &&
      (Lts.run step s sees).isSome)
    (show (Lts.run (Lts.guarded PipesKept step) .start unseen).map _ = some true by decide +kernel)
  simp only [Bool.and_eq_true, beq_iff_eq] at hp
  obtain ⟨⟨hwork, hown⟩, hrun⟩ := hp
  obtain ⟨s', hs'⟩ := Option.isSome_iff_exists.mp hrun
  have hr := Lts.reach_of_run hs
  exact ⟨s, s', hr, hwork, hs', own_steps_bounded _ 8 0 8080 hr (Lts.stepsAll_of_guarded_run hown) hs'⟩

/-! ## Where it stops -/

/-- The pid that `handle_SIGCHLD` is about to look up, of a child that is gone. -/
def State.lookedUp (s : State) : Option Pid :=
  match s.mode, s.batch with
  | .waitpid pid, _ => if s.blocked then none else some pid
  | .loop, .signalfd :: _ =>
    s.pending.filter fun pid => (s.unreaped pid).all fun x => x.1.dead
  | _, _ => none

/-- `manager_remove_process` is about to run past the table. -/
def State.pastTable (s : State) : Bool := s.lookedUp.any fun pid => (s.table.release pid).isNone

/-- `epoll_wait` has nothing of the children to return. -/
def State.asleep (s : State) : Bool :=
  s.mode == .loop && s.batch == [] && s.pending == none && s.pipes.all fun e => !s.ready (.execve e)

def State.atRest (s : State) : Bool := s.mode == .halted || s.blocked || s.pastTable || s.asleep

theorem report_eq_none {pid : Pid} {launch : Option Nat} {exitStatus : Nat} {held : Bool}
    (h : s.report pid launch exitStatus held = none) : s.table.release pid = none := by
  unfold State.report at h
  split at h
  · cases h
  · assumption

theorem handleSIGCHLD_eq_none_iff {pid : Pid} {garbage : Nat} {held : Bool} :
    s.handleSIGCHLD pid garbage held = none ↔
      (s.unreaped pid).all (fun x => x.1.dead) = true ∧ s.table.release pid = none := by
  unfold State.handleSIGCHLD
  cases hu : s.unreaped pid with
  | none =>
    simp only [Option.all_none, true_and]
    exact ⟨report_eq_none, fun h => by rw [State.report, h]⟩
  | some x =>
    obtain ⟨c, k⟩ := x
    simp only [Option.all_some]
    cases hlife : c.life with
    | zombie status =>
      simp only [Child.dead, hlife, true_and]
      exact ⟨report_eq_none, fun h => by simp [State.report, h]⟩
    | running | stopped => simp [Child.dead, hlife]
    | reaped status =>
      have hun := (State.unreaped_eq_some hu).2.2
      simp [Child.unreaped, hlife] at hun

theorem blocked_iff {pid : Pid} (hmode : s.mode = .waitpid pid) :
    s.blocked = false ↔ (s.unreaped pid).all (fun x => x.1.dead) = true := by
  simp only [State.blocked, hmode]
  cases s.unreaped pid with
  | none => simp
  | some x => simp

theorem batch_head_handled {r : Ready} {rest : List Ready} (hi : BatchInv s) (hp : PipesInv s)
    (hb : Bounded s.fds) (hmode : s.mode = .loop) (hbatch : s.batch = r :: rest) (hpast : s.pastTable = false) :
    ∃ l, OwnStep s l ∧ step s l ≠ none := by
  cases r with
  | signalfd =>
    obtain ⟨pid, hpid⟩ := Option.isSome_iff_exists.mp (hi.signalfd (by rw [hbatch]; exact List.mem_cons_self))
    refine ⟨.signalfd 0 false, .of_event rfl rfl rfl, fun hnone => ?_⟩
    simp only [step, State.signalfd, hmode, hbatch, hpid, handleSIGCHLD_eq_none_iff] at hnone
    have hdead : (s.unreaped pid).all (fun x => x.1.dead) = true := hnone.1
    have hrel : s.table.release pid = none := hnone.2
    simp [State.pastTable, State.lookedUp, hmode, hbatch, hpid, hdead, hrel] at hpast
  | execve e =>
    have hmem : Ready.execve e ∈ s.batch := by rw [hbatch]; exact List.mem_cons_self
    have hreg := hp.batch e hmem
    obtain ⟨n, hn⟩ := Option.isSome_iff_exists.mp (hi.execve e hmem)
    refine ⟨.execve false, .of_event rfl rfl rfl, ?_⟩
    simp [step, State.execve, hmode, hbatch, hp.unfreed e hreg, State.readExecve, hp.fds e hreg, hn]
  | sockMessage fd => exact ⟨.unexpected, .of_event rfl rfl rfl, by simp [step, State.unexpected, hmode, hbatch]⟩
  | sockConnexion =>
    obtain ⟨fd, hfd⟩ := hb.lowestFree
    exact ⟨.sockConnexion fd, .of_event rfl rfl rfl, by simp [step, State.sockConnexion, hmode, hbatch, openFd, hfd]⟩
  | inotify => exact ⟨.inotify [], .of_event rfl rfl rfl, by simp [step, State.inotify, hmode, hbatch]⟩
  | hupErr => exact ⟨.hupErr 0 false, .of_event rfl rfl rfl, by simp [step, State.hupErr, hmode, hbatch]⟩

/-- With an empty batch, `epoll_wait` returns what the children have caused. -/
theorem wakes (hmode : s.mode = .loop) (hbatch : s.batch = []) (hawake : s.asleep = false) :
    ∃ l, OwnStep s l ∧ step s l ≠ none := by
  have hwait : ∀ r : Ready, r.isOwn = true → s.ready r = true → ∃ l, OwnStep s l ∧ step s l ≠ none := by
    intro r hown hready
    have hstep : OwnStep s (.epollWait [r]) := by
      refine ⟨rfl, fun events hevents r' hr' => ?_, fun hwaits => absurd hwaits Bool.noConfusion⟩
      cases hevents
      rwa [List.mem_singleton.mp hr']
    refine ⟨.epollWait [r], hstep, ?_⟩
    simp [step, State.epollWait, hmode, hbatch, hready, maxEvents]
  by_cases hpend : s.pending = none
  · simp only [State.asleep, hmode, hbatch, hpend, beq_self_eq_true, Bool.and_self, Bool.true_and,
      List.all_eq_false, Bool.not_eq_true', Bool.not_eq_false] at hawake
    obtain ⟨e, -, hready⟩ := hawake
    exact hwait (.execve e) rfl hready
  · exact hwait .signalfd rfl (Option.isSome_iff_ne_none.mpr hpend)

theorem atRest_of_stuck (hi : BatchInv s) (hp : PipesInv s) (hb : Bounded s.fds)
    (h : ∀ l, OwnStep s l → step s l = none) : s.atRest = true := by
  by_contra hnot
  simp only [State.atRest, Bool.or_eq_true, beq_iff_eq, not_or, Bool.not_eq_true] at hnot
  obtain ⟨⟨⟨hhalted, hblocked⟩, hpast⟩, hawake⟩ := hnot
  suffices ∃ l, OwnStep s l ∧ step s l ≠ none by
    obtain ⟨l, hown, hsome⟩ := this
    exact hsome (h l hown)
  cases hmode : s.mode with
  | halted => exact absurd hmode hhalted
  | launching lg => exact ⟨.launchReturns true, .of_event rfl rfl rfl, by simp [step, State.launchReturns, hmode]⟩
  | waitpid pid =>
    have hstep : OwnStep s (.waitpidReturns 0 false) := ⟨rfl, by simp [Label.poll], fun _ => hblocked⟩
    refine ⟨.waitpidReturns 0 false, hstep, fun hnone => ?_⟩
    simp only [step, State.waitpidReturns, hmode, handleSIGCHLD_eq_none_iff] at hnone
    simp [State.pastTable, State.lookedUp, hmode, hblocked, hnone.2] at hpast
  | loop =>
    cases hbatch : s.batch with
    | nil => exact wakes hmode hbatch hawake
    | cons r rest => exact batch_head_handled hi hp hb hmode hbatch hpast

/-- Where a step of the daemon may start. -/
inductive OwnStart (s : State) : Label → Prop where
  | epollWait {events : List Ready} {r : Ready} (hmode : s.mode = .loop) (hbatch : s.batch = [])
      (hown : r.isOwn = true) (hready : s.ready r = true) : OwnStart s (.epollWait events)
  | event {l : Label} {r : Ready} {rest : List Ready} (hmode : s.mode = .loop) (hbatch : s.batch = r :: rest)
      (hr : r ≠ .signalfd) : OwnStart s l
  | signalfd {garbage : Nat} {held : Bool} {rest : List Ready} {pid : Pid} (hmode : s.mode = .loop)
      (hbatch : s.batch = .signalfd :: rest) (hpend : s.pending = some pid) : OwnStart s (.signalfd garbage held)
  | launching {l : Label} {lg : Launching} (hmode : s.mode = .launching lg) : OwnStart s l
  | waitpid {garbage : Nat} {held : Bool} {pid : Pid} (hmode : s.mode = .waitpid pid)
      (hblocked : s.blocked = false) : OwnStart s (.waitpidReturns garbage held)

theorem ownStart_of_step (hown : OwnStep s l) (h : step s l = some s') : OwnStart s l := by
  cases step_cases h with
  | child | openOther | closeOther | epollFails => exact absurd hown.own Bool.noConfusion
  | @epollWait events hmode hbatch hne hlen hnodup hready =>
    obtain ⟨r, hr⟩ := List.exists_mem_of_ne_nil events hne
    exact .epollWait hmode hbatch (hown.events events rfl r hr) (hready r hr)
  | signalfd hmode hbatch hpend => exact .signalfd hmode hbatch hpend
  | waitpidReturns hmode => exact .waitpid hmode (hown.returns rfl)
  | launchReturns hmode => exact .launching hmode
  | execve hmode hbatch | runCommand hmode hbatch | kills hmode hbatch | killsGroup hmode hbatch
  | killsNone hmode hbatch | unexpected hmode hbatch | sockClosed hmode hbatch | sockConnexion hmode hbatch
  | inotify hmode hbatch | hupErr hmode hbatch => exact .event hmode hbatch (by simp)

theorem stuck_of_atRest (hrest : s.atRest = true) (hown : OwnStep s l) : step s l = none := by
  by_contra hsome
  obtain ⟨s', hs⟩ := Option.ne_none_iff_exists'.mp hsome
  have hstart := ownStart_of_step hown hs
  simp only [State.atRest, Bool.or_eq_true, beq_iff_eq] at hrest
  cases hstart with
  | @epollWait events r hmode hbatch hr hready =>
    obtain ((hm | hm) | hm) | hm := hrest
    · simp [hmode] at hm
    · simp [State.blocked, hmode] at hm
    · simp [State.pastTable, State.lookedUp, hmode, hbatch] at hm
    · simp only [State.asleep, Bool.and_eq_true, beq_iff_eq, List.all_eq_true, Bool.not_eq_true'] at hm
      obtain ⟨⟨-, hpend⟩, hpipes⟩ := hm
      cases r with
      | signalfd => simp [State.ready, hpend] at hready
      | execve e =>
        have hreg : e ∈ s.pipes := by
          simp only [State.ready, Bool.and_eq_true, decide_eq_true_eq] at hready
          exact hready.1
        rw [hpipes e hreg] at hready
        cases hready
      | sockMessage | sockConnexion | inotify | hupErr => cases hr
  | @event l r rest hmode hbatch hr =>
    obtain ((hm | hm) | hm) | hm := hrest
    · simp [hmode] at hm
    · simp [State.blocked, hmode] at hm
    · simp [State.pastTable, State.lookedUp, hmode, hbatch] at hm
      cases r <;> simp_all
    · simp [State.asleep, hbatch] at hm
  | @signalfd garbage held rest pid hmode hbatch hpend =>
    obtain ((hm | hm) | hm) | hm := hrest
    · simp [hmode] at hm
    · simp [State.blocked, hmode] at hm
    · simp only [State.pastTable, State.lookedUp, hmode, hbatch, hpend, Option.any_eq_true,
        Option.filter_eq_some_iff, Option.some.injEq] at hm
      obtain ⟨_, ⟨rfl, hdead⟩, hrel⟩ := hm
      refine hsome ?_
      simp only [step, State.signalfd, hmode, hbatch, hpend, handleSIGCHLD_eq_none_iff]
      exact ⟨hdead, Option.isNone_iff_eq_none.mp hrel⟩
    · simp [State.asleep, hbatch] at hm
  | @launching l lg hmode =>
    obtain ((hm | hm) | hm) | hm := hrest
    · simp [hmode] at hm
    · simp [State.blocked, hmode] at hm
    · simp [State.pastTable, State.lookedUp, hmode] at hm
    · simp [State.asleep, hmode] at hm
  | @waitpid garbage held pid hmode hblocked =>
    obtain ((hm | hm) | hm) | hm := hrest
    · simp [hmode] at hm
    · rw [hblocked] at hm
      cases hm
    · simp only [State.pastTable, State.lookedUp, hmode, hblocked] at hm
      refine hsome ?_
      simp only [step, State.waitpidReturns, hmode, handleSIGCHLD_eq_none_iff]
      exact ⟨(blocked_iff hmode).mp hblocked, by simpa using hm⟩
    · simp [State.asleep, hmode] at hm

theorem bounded_of_reachable {heap : Nat → ProcessInfo} {nfds : Nat} {sock : Fd} {port : Nat}
    (hr : Lts.Reachable step (.init heap nfds sock port) s) : Bounded s.fds :=
  hr.invariant (P := fun s => Bounded s.fds) ⟨nfds, fun _ hm => if_neg (Nat.not_lt.mpr hm)⟩
    fun _ _ _ _ h _ hs => bounded_step h hs

theorem unregistered_of_asleep (hasleep : s.asleep = true) {k : Nat} {c : Child} (hc : s.children[k]? = some c)
    (hdone : c.phase.told = true ∨ c.dead = true) : ∀ e ∈ s.pipes, e.launch ≠ k := by
  rintro e he rfl
  simp only [State.asleep, Bool.and_eq_true, List.all_eq_true, Bool.not_eq_true'] at hasleep
  have hunready := hasleep.2 e he
  simp [State.ready, he, hc, Child.readPipe_isSome_iff.mpr hdone] at hunready

/-- In every run in which no registered pipe is closed and each exit is seen, the daemon stops of its own
accord exactly where it is at rest, and where it sleeps it has told of everything. -/
theorem at_rest_has_told (heap : Nat → ProcessInfo) (nfds : Nat) (sock : Fd) (port : Nat)
    (hr : Lts.Reach step (fun s l => PipesKept s l ∧ ExitSeen s l) (.init heap nfds sock port) s) :
    ((∀ l, OwnStep s l → step s l = none) ↔ s.atRest = true) ∧
      (s.asleep = true → ∀ (k : Nat) (c : Child), s.children[k]? = some c →
        (c.phase.told = true ∨ c.dead = true → (s.execves k).length = 1) ∧
        ∀ status, c.life = .zombie status ∨ c.life = .reaped status →
          c.life = .reaped status ∧ s.terminations k = [.processTerminated c.pid status.exitStatus]) := by
  have hlaunch := launchInv_of_reach (hr.mono fun _ _ h => h.1)
  have hterm := terminations_exact _ _ _ _ (hr.mono fun _ _ h => h.2)
  refine ⟨⟨?_, fun hrest l hown => stuck_of_atRest hrest hown⟩, ?_⟩
  · exact atRest_of_stuck (batchInv_of_reachable hr.reachable) hlaunch.pipes (bounded_of_reachable hr.reachable)
  · intro hasleep k c hc
    have hsleep := hasleep
    simp only [State.asleep, Bool.and_eq_true, beq_iff_eq] at hsleep
    obtain ⟨⟨⟨hmode, -⟩, hpend⟩, -⟩ := hsleep
    refine ⟨fun hdone => ?_, fun status => hterm.reported hpend k c status hc⟩
    refine hlaunch.logs.handled k (List.getElem?_eq_some_iff.mp hc).1 ?_ (unregistered_of_asleep hasleep hc hdone)
    rintro ⟨lg, hlg, -⟩
    rw [hmode] at hlg
    cases hlg

/-- The daemon launches `B` before it sees what has become of `A`, and sleeps: `A` has been reported, and
`B` has only been launched. -/
theorem asleep_after_two_events :
    ∃ s, Lts.Reach step (fun s l => PipesKept s l ∧ ExitSeen s l) .start s ∧ s.asleep = true ∧
      (s.execves 0).length = 1 ∧ s.terminations 0 = [.processTerminated 20 0] ∧ s.log 1 = [.processLaunched 21] ∧
      ∀ l, OwnStep s l → step s l = none := by
  obtain ⟨s, hs, hp⟩ := Lts.exists_of_run_map
    (p := fun s => s.asleep && s.children[0]? == some ⟨20, "A", .reaped (.exited 0), .execd⟩ &&
      s.log 1 == [.processLaunched 21])
    (show (Lts.run (Lts.guarded (fun s l => PipesKept s l ∧ ExitSeen s l) step) .start
      (unseen ++ launches "B" 11 (12, 13) 21 ++ sees)).map _ = some true by decide +kernel)
  simp only [Bool.and_eq_true, beq_iff_eq] at hp
  obtain ⟨⟨hasleep, hc⟩, hlog⟩ := hp
  have hr := Lts.reach_of_run hs
  have htold := at_rest_has_told _ 8 0 8080 hr
  obtain ⟨hexecve, hterm⟩ := htold.2 hasleep 0 _ hc
  exact ⟨s, hr, hasleep, hexecve (.inl rfl), (hterm _ (.inr rfl)).2, hlog,
    htold.1.mpr (by simp [State.atRest, hasleep])⟩

/-! ## A signal of a live child -/

/-- A SIGCHLD of a child that has only stopped or gone on blocks the daemon in `waitpid`. What it holds is
what it held at `s₀`. -/
structure Frozen (s₀ : State) (pid : Pid) (k : Nat) (s : State) : Prop where
  mode : s.mode = .waitpid pid
  child : ∃ c, s.children[k]? = some c ∧ c.pid = pid ∧ c.dead = false
  distinct : PidsDistinct s
  batch : s.batch = s₀.batch
  table : s.table = s₀.table
  conns : s.conns = s₀.conns
  sock : s.communicationSocket = s₀.communicationSocket
  sent : s.sent = s₀.sent
  killed : s.killed = s₀.killed

def Surveillance.ofFile : Option Surveillance → Bool
  | some (.inotify ..) => true
  | _ => false

/-- The children are ordinary and no thread of the daemon watches a socket. -/
def FilesOnly (_ : State) (l : Label) : Prop :=
  l.Ordinary ∧ ∀ com ∈ l.command, ∀ w ∈ com.toWatch, Surveillance.ofFile w = true

instance (s : State) (l : Label) : Decidable (FilesOnly s l) :=
  inferInstanceAs (Decidable (l.Ordinary ∧ ∀ com ∈ l.command, ∀ w ∈ com.toWatch, Surveillance.ofFile w = true))

/-- The exit of the child of launch `k`. -/
def ExitOf (k : Nat) (l : Label) : Prop := l.exit = some k

instance (k : Nat) (l : Label) : Decidable (ExitOf k l) := inferInstanceAs (Decidable (l.exit = some k))

section Frozen

variable {s₀ : State} {pid : Pid} {k : Nat} {c : Child}

theorem unreaped_of_distinct (hd : PidsDistinct s) (hc : s.children[k]? = some c) (hun : c.unreaped = true) :
    s.unreaped c.pid = some (c, k) := by
  cases hu : s.unreaped c.pid with
  | none =>
    rw [State.unreaped_eq_none hu hc rfl] at hun
    cases hun
  | some x =>
    obtain ⟨d, j⟩ := x
    obtain ⟨hj, hpid, hund⟩ := State.unreaped_eq_some hu
    have hjk := hd j k d c hj hc hund hun hpid
    subst hjk
    rw [hc] at hj
    cases hj
    rfl

theorem handleSIGCHLD_alive {garbage : Nat} {held : Bool} (hd : PidsDistinct s)
    (hc : s.children[k]? = some c) (halive : c.dead = false) :
    s.handleSIGCHLD c.pid garbage held = some { s with mode := .waitpid c.pid } := by
  rw [State.handleSIGCHLD, unreaped_of_distinct hd hc (Child.unreaped_of_not_dead halive)]
  cases hl : c.life with
  | running | stopped => simp only [hl]
  | zombie status | reaped status => simp [Child.dead, hl] at halive

/-- Only the children and the other threads can do anything, and `waitpid` waits on. -/
theorem frozen_step (h : Frozen s₀ pid k s) (hno : ¬ ExitOf k l) (hs : step s l = some s') :
    Frozen s₀ pid k s' := by
  obtain ⟨hmode, ⟨c, hc, rfl, halive⟩, hd, hbatch, htable, hconns, hsock, hsent, hkilled⟩ := h
  have hd' := pidsDistinct_step hd (step_effect hs)
  cases step_cases hs with
  | @child j act d d' hj hact =>
    refine ⟨hmode, ?_, hd', hbatch, htable, hconns, hsock, hsent, hkilled⟩
    by_cases hjk : j = k
    · subst hjk
      rw [hc] at hj
      cases hj
      refine ⟨d', getElem?_set_same d' hc, Child.step_pid hact, ?_⟩
      by_contra hdead
      obtain ⟨⟨status, rfl⟩, -⟩ := Child.step_dead hact (by simpa using hdead)
      exact hno rfl
    · exact ⟨c, by rw [List.getElem?_set_ne hjk, hc], rfl, halive⟩
  | openOther | closeOther =>
    exact ⟨hmode, ⟨c, hc, rfl, halive⟩, hd', hbatch, htable, hconns, hsock, hsent, hkilled⟩
  | waitpidReturns hm hcase =>
    rw [hmode] at hm
    cases hm
    cases hcase with
    | blocks => exact ⟨rfl, ⟨c, hc, rfl, halive⟩, hd', hbatch, htable, hconns, hsock, hsent, hkilled⟩
    | reaps hun hz =>
      rw [unreaped_of_distinct hd hc (Child.unreaped_of_not_dead halive), Option.some.injEq, Prod.mk.injEq] at hun
      obtain ⟨rfl, rfl⟩ := hun
      simp [Child.dead, hz] at halive
    | fails hun =>
      rw [unreaped_of_distinct hd hc (Child.unreaped_of_not_dead halive)] at hun
      cases hun
  | epollWait hm | epollFails hm | signalfd hm | execve hm | runCommand hm | launchReturns hm | kills hm
  | killsGroup hm | killsNone hm | unexpected hm | sockClosed hm | sockConnexion hm | inotify hm | hupErr hm =>
    rw [hmode] at hm
    cases hm

theorem handleSIGCHLD_zombie {status : WaitStatus} {garbage : Nat} {held : Bool} (hd : PidsDistinct s)
    (hc : s.children[k]? = some c) (hlife : c.life = .zombie status)
    (hs : s.handleSIGCHLD c.pid garbage held = some s') :
    s'.sent = s.sent ++ [⟨s.communicationSocket, .processTerminated c.pid status.exitStatus, some k⟩] := by
  have hun : c.unreaped = true := by rw [Child.unreaped, hlife]
  rw [sigchld_sent (handleSIGCHLD_cases hs), State.terminated, unreaped_of_distinct hd hc hun]
  simp only [hlife, Option.toList_some]

theorem thaws (h : Frozen s₀ pid k s) {status : WaitStatus} {s₁ s₂ : State} {garbage : Nat} {held : Bool}
    (hexit : step s (.child k (.exit status)) = some s₁) (hs : step s₁ (.waitpidReturns garbage held) = some s₂) :
    s₂.sent = s₀.sent ++ [⟨s₀.communicationSocket, .processTerminated pid status.exitStatus, some k⟩] := by
  obtain ⟨hmode, ⟨c, hc, rfl, halive⟩, hd, -, -, -, hsock, hsent, -⟩ := h
  have hd₁ := pidsDistinct_step hd (step_effect hexit)
  simp only [step, State.childAct, hc] at hexit
  split at hexit
  · rename_i c' hact
    have hpid := Child.step_pid hact
    have hlife : c'.life = .zombie status := by
      simp only [Child.step] at hact
      split at hact
      · cases hact
        rfl
      · cases hact
    have hs₁ : s₁.mode = .waitpid c'.pid ∧ s₁.children[k]? = some c' ∧ s₁.sent = s₀.sent ∧
        s₁.communicationSocket = s₀.communicationSocket := by
      cases hexit
      exact ⟨by rw [hpid]; exact hmode, getElem?_set_same c' hc, hsent, hsock⟩
    obtain ⟨hmode₁, hc₁, hsent₁, hsock₁⟩ := hs₁
    simp only [step, State.waitpidReturns, hmode₁] at hs
    rw [handleSIGCHLD_zombie hd₁ hc₁ hlife hs, hpid, hsent₁, hsock₁]
  · cases hexit

end Frozen

/-- While no socket watch runs: once the daemon takes up a SIGCHLD of a child that is alive, it handles no
event, sends nothing and kills nobody, whatever its clients and its other children do, until that child
exits; the first thing it says then is that the child has. -/
theorem live_child_freezes (heap : Nat → ProcessInfo) (nfds : Nat) (sock : Fd) (port : Nat)
    (hr : Lts.Reach step FilesOnly (.init heap nfds sock port) s) {k : Nat} {c : Child} (hpend : s.pending = some c.pid)
    (hc : s.children[k]? = some c) (halive : c.dead = false) {garbage : Nat} {held : Bool} {s₁ : State}
    (hs : step s (.signalfd garbage held) = some s₁) {ls : List Label}
    (hno : Lts.StepsAll step (fun _ l => ¬ ExitOf k l) s₁ ls) (hrun : Lts.run step s₁ ls = some s') :
    s'.mode = .waitpid c.pid ∧ s'.batch = s.batch.tail ∧ s'.sent = s.sent ∧ s'.killed = s.killed ∧
      s'.conns = s.conns ∧ s'.table = s.table ∧
      ∀ status s₂ s₃, step s' (.child k (.exit status)) = some s₂ →
        ∀ garbage held, step s₂ (.waitpidReturns garbage held) = some s₃ →
          s₃.sent = s.sent ++ [⟨s.communicationSocket, .processTerminated c.pid status.exitStatus, some k⟩] := by
  have hd := pidsDistinct_of_reach hr.reachable
  have hfrozen : Frozen { s with batch := s.batch.tail } c.pid k s₁ := by
    simp only [step, State.signalfd] at hs
    split at hs
    · rename_i rest pid hmode hbatch hpid
      rw [hpend] at hpid
      cases hpid
      have hblocks := @handleSIGCHLD_alive { s with batch := rest, pending := none } k c garbage held hd hc halive
      rw [hblocks] at hs
      cases hs
      exact ⟨rfl, ⟨c, hc, rfl, halive⟩, hd, by rw [hbatch, List.tail_cons], rfl, rfl, rfl, rfl, rfl⟩
    · cases hs
  have h := hno.keeps (fun _ _ _ h hg hs => frozen_step h hg hs) hfrozen hrun
  exact ⟨h.mode, h.batch, h.sent, h.killed, h.conns, h.table,
    fun status s₂ s₃ hexit garbage held hs => thaws h hexit hs⟩

/-- `A` has been stopped and `B` runs. -/
def stopped : List Label :=
  connects ++ launches "A" 9 (10, 11) 20 ++ launches "B" 11 (12, 13) 21 ++
    [.child 0 .execveSucceeds, .child 0 .stop, .epollWait [.signalfd]]

/-- `B` comes to its end and `A` is continued, while the daemon waits for `A`. -/
def meanwhile : List Label :=
  [.child 1 .execveSucceeds, .child 1 (.exit (.exited 0)), .waitpidReturns 0 false, .child 0 .cont]

/-- The daemon does not tell of `B` in the meantime. -/
theorem stopped_child_freezes :
    ∃ s s₁ s' : State, Lts.Reach step FilesOnly .start s ∧ step s (.signalfd 0 false) = some s₁ ∧
      Lts.run step s₁ meanwhile = some s' ∧ s'.mode = .waitpid 20 ∧ s'.sent = s.sent ∧
      s'.children[1]? = some ⟨21, "B", .zombie (.exited 0), .execd⟩ := by
  obtain ⟨s, hs, hp⟩ := Lts.exists_of_run_map
    (p := fun s => s.pending == some 20 && s.children[0]? == some ⟨20, "A", .stopped, .execd⟩ &&
      (step s (.signalfd 0 false)).any fun s₁ =>
        (Lts.run (Lts.guarded (fun _ l => ¬ ExitOf 0 l) step) s₁ meanwhile).isSome &&
          (Lts.run step s₁ meanwhile).any fun s' =>
            s'.children[1]? == some ⟨21, "B", .zombie (.exited 0), .execd⟩)
    (show (Lts.run (Lts.guarded FilesOnly step) .start stopped).map _ = some true by decide +kernel)
  simp only [Bool.and_eq_true, beq_iff_eq] at hp
  obtain ⟨⟨hpend, hc⟩, hp⟩ := hp
  obtain ⟨s₁, hs₁, hp⟩ := (Option.any_eq_true _ _).mp hp
  obtain ⟨hno, hp⟩ := Bool.and_eq_true_iff.mp hp
  obtain ⟨s', hs', hp⟩ := (Option.any_eq_true _ _).mp hp
  have hr := Lts.reach_of_run hs
  obtain ⟨hmode, -, hsent, -⟩ := live_child_freezes _ 8 0 8080 hr hpend hc rfl hs₁
    (Lts.stepsAll_of_guarded_run hno) hs'
  exact ⟨s, s₁, s', hr, hs₁, hs', hmode, hsent, beq_iff_eq.mp hp⟩

end ProcCtrld
