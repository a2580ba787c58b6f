import ProcCtrld.Lts
import ProcCtrld.StepCases
import Mathlib.Data.List.Infix

/-!
# ProcCtrld.Effects

What the steps of the daemon do to its children, to the log of a launch and to the notification pipes.
`step_effect` sorts the `StepCase`s into nine effects, and the invariants of the later modules are proved
by cases on them.

Most labels are `Quiet`: they neither touch the children, the pending signal and the log of a
launch, nor move the daemon out of its loop except to halt it. `Closes fd` says that a step closes
at most the descriptor number `fd` among those that are notification pipes; `State.closes` is that
number, read off the state before the step.
-/

namespace ProcCtrld

variable {s s' : State} {l : Label}

/-! ## What the conditions on runs look at -/

namespace Label

/-- The launch whose child exits. -/
def exit : Label → Option Nat
  | .child k (.exit _) => some k
  | _ => none

/-- The launch whose child is stopped or continued. -/
def suspend : Label → Option Nat
  | .child k .stop | .child k .cont => some k
  | _ => none

def poll : Label → Option (List Ready)
  | .epollWait events => some events
  | _ => none

def command : Label → Option Command
  | .runCommand com _ => some com
  | _ => none

/-- The command of a launch that makes a child, and its pid. -/
def clone : Label → Option (Command × Pid)
  | .runCommand com (.clones _ _ pid _) => some (com, pid)
  | _ => none

def kill : Label → Option Pid
  | .killProcess pid => some pid
  | _ => none

def connect : Label → Option Fd
  | .sockConnexion fd => some fd
  | _ => none

def readsSignal : Label → Bool
  | .signalfd .. => true
  | _ => false

def isHupErr : Label → Bool
  | .hupErr .. => true
  | _ => false

/-- What the children and the other threads do, and the signals that interrupt `epoll_wait`. -/
def fromOutside : Label → Bool
  | .child .. | .openOther _ | .closeOther _ | .epollFails => true
  | _ => false

def waits : Label → Bool
  | .waitpidReturns .. => true
  | _ => false

theorem kill_eq_some {pid : Pid} (h : l.kill = some pid) : l = .killProcess pid := by
  cases l with
  | killProcess pid' => cases h; rfl
  | _ => cases h

/-- Only ordinary children are made. -/
def Ordinary (l : Label) : Prop := ∀ x ∈ l.clone, x.1.OrdinaryChild

instance (l : Label) : Decidable l.Ordinary := inferInstanceAs (Decidable (∀ x ∈ l.clone, x.1.OrdinaryChild))

end Label

/-- The child whose signal `handle_SIGCHLD` is called for. -/
def State.signalOf (s : State) : Label → Option Pid
  | .signalfd .. => s.pending
  | .waitpidReturns .. =>
    match s.mode with
    | .waitpid pid => some pid
    | _ => none
  | _ => none

/-! ## Logs -/

/-- The messages about launch `k` among `sent`. -/
def about (k : Nat) (sent : List Sent) : List Msg :=
  (sent.filter fun m => m.launch = some k).map (·.msg)

theorem State.log_eq (s : State) (k : Nat) : s.log k = about k s.sent := rfl

theorem about_append (k : Nat) (xs ys : List Sent) : about k (xs ++ ys) = about k xs ++ about k ys := by
  simp [about]

theorem about_cons (k : Nat) (m : Sent) (ms : List Sent) :
    about k (m :: ms) = if m.launch = some k then m.msg :: about k ms else about k ms := by
  unfold about
  split <;> simp_all

theorem about_nil (k : Nat) : about k [] = [] := rfl

theorem about_untagged (k : Nat) {ms : List Sent} (h : ∀ m ∈ ms, m.launch = none) : about k ms = [] := by
  simp only [about, List.map_eq_nil_iff, List.filter_eq_nil_iff]
  intro m hm
  simp [h m hm]

theorem about_surveillanceAcks (k : Nat) (sock : Fd) (ws : List (Option Surveillance)) :
    about k (surveillanceAcks sock ws) = [] := by
  apply about_untagged
  intro m hm
  obtain ⟨x, -, rfl⟩ := List.mem_map.mp hm
  rfl

/-! ## The effects -/

structure Quiet (s : State) (l : Label) (s' : State) : Prop where
  children : s'.children = s.children
  pending : s'.pending = s.pending
  mode : s'.mode = s.mode ∨ (s.mode = .loop ∧ s'.mode = .halted)
  batch : s'.batch <:+ s.batch
  execves : ∀ e, .execve e ∈ s.batch → .execve e ∈ s'.batch
  freed : s'.freed = s.freed
  sock : s'.communicationSocket = s.communicationSocket ∨ ∃ fd, l = .sockConnexion fd
  sent : ∃ ms, s'.sent = s.sent ++ ms ∧ ∀ m ∈ ms, m.launch = none

/-- Of the registered pipes, only one at the number `fd` may go. -/
structure Closes (fd : Option Fd) (s s' : State) : Prop where
  sub : s'.pipes.Sublist s.pipes
  kept : ∀ e ∈ s.pipes, fd ≠ some e.fd → e ∈ s'.pipes
  fds : ∀ n k, s.fds n = some (.pipeRead k) → fd ≠ some n → s'.fds n = some (.pipeRead k)

/-- The number that `handle_SIGCHLD` closes; `manager_remove_process` is reached unless `waitpid`
blocks. -/
def State.removes (s : State) (pid : Pid) : Option Fd :=
  match s.unreaped pid with
  | some (c, _) => if c.dead then s.table.matchedFile pid else none
  | none => s.table.matchedFile pid

/-- The number that a step closes, other than the pipe whose event it handles. -/
def State.closes (s : State) : Label → Option Fd
  | .signalfd _ _ => s.pending.bind s.removes
  | .waitpidReturns _ _ =>
    match s.mode with
    | .waitpid pid => s.removes pid
    | _ => none
  | .sockClosed =>
    match s.batch with
    | .sockMessage fd :: _ => some fd
    | _ => none
  | .hupErr number _ => some number
  | _ => none

/-- `handle_SIGCHLD` for `pid` has returned, read from the signalfd or left blocked before. -/
structure Handled (s : State) (l : Label) (s' : State) (pid : Pid) (launch : Option Nat)
    (exitStatus : Nat) : Prop where
  awaited : (s.mode = .loop ∧ s.batch = .signalfd :: s'.batch ∧ s.pending = some pid ∧ s'.pending = none) ∨
    (s.mode = .waitpid pid ∧ s'.batch = s.batch ∧ s'.pending = s.pending)
  mode : s'.mode = .loop
  freed : s'.freed = s.freed
  sock : s'.communicationSocket = s.communicationSocket
  sent : s'.sent = s.sent ++ [⟨s.communicationSocket, .processTerminated pid exitStatus, launch⟩]
  closes : Closes (s.closes l) s s'

inductive Effect (s : State) : Label → State → Prop where
  | child {k : Nat} {act : ChildAct} {c c' : Child} (hc : s.children[k]? = some c)
      (hact : c.step act = some c') :
      Effect s (.child k act) { s with
        children := s.children.set k c'
        pending := if act.notifies then s.pending.or (some c.pid) else s.pending }
  | quiet {l : Label} {s' : State} (hq : Quiet s l s') (hcl : Closes (s.closes l) s s')
      (hbusy : s.mode ≠ .loop → Closes none s s') : Effect s l s'
  | epollWait {events : List Ready} (hmode : s.mode = .loop) (hnodup : events.Nodup)
      (hready : ∀ r ∈ events, s.ready r = true) :
      Effect s (.epollWait events) { s with batch := events }
  | blocks {garbage : Nat} {held : Bool} {pid : Pid} {rest : List Ready} {c : Child} {k : Nat}
      (hmode : s.mode = .loop) (hbatch : s.batch = .signalfd :: rest) (hpend : s.pending = some pid)
      (hc : s.children[k]? = some c) (hpid : c.pid = pid) (hun : c.unreaped = true)
      (halive : c.dead = false) :
      Effect s (.signalfd garbage held) { s with batch := rest, pending := none, mode := .waitpid pid }
  | reaps {l : Label} {s' : State} {pid : Pid} {c : Child} {k : Nat} {status : WaitStatus}
      (h : Handled s l s' pid (some k) status.exitStatus) (hc : s.children[k]? = some c)
      (hpid : c.pid = pid) (hz : c.life = .zombie status)
      (hch : s'.children = s.children.set k { c with life := .reaped status }) : Effect s l s'
  | fails {l : Label} {s' : State} {pid : Pid} {garbage : Nat}
      (h : Handled s l s' pid (s.latest pid) garbage) (hnone : s.unreaped pid = none)
      (hch : s'.children = s.children) : Effect s l s'
  | execve {foreign success : Bool} {e : PipeExecve} {rest : List Ready} (hmode : s.mode = .loop)
      (hbatch : s.batch = .execve e :: rest) (hfree : e.launch ∉ s.freed)
      (hread : s.readExecve e.fd foreign = some success) :
      Effect s (.execve foreign) { s.closeFd e.fd false with
        batch := rest
        freed := e.launch :: s.freed
        sent := s.sent ++
          [⟨s.communicationSocket, .execveTerminated e.pid e.path success, some e.launch⟩] }
  | clones {com : Command} {errFile : Option Fd} {pipefd : Fd × Fd} {pid : Pid} {stack : Addr}
      {rest : List Ready} {sock err : Fd} {fds : Fd → Option Obj} (hmode : s.mode = .loop)
      (hbatch : s.batch = .sockMessage sock :: rest)
      (hkept : ∀ n k, s.fds n = some (.pipeRead k) → fds n = some (.pipeRead k))
      (hnew : fds pipefd.1 = some (.pipeRead s.children.length)) (hpid : s.unreaped pid = none) :
      Effect s (.runCommand com (.clones errFile pipefd pid stack)) { s with
        batch := rest
        fds := fds
        children := s.children ++ [⟨pid, com.path, .running, .beforeExecve⟩]
        mode := .launching
          ⟨s.children.length, pid, com.path, sock, err, stack, pipefd.1, com.toWatch⟩ }
  | launched {epollAdd : Bool} {l : Launching} (hmode : s.mode = .launching l) :
      Effect s (.launchReturns epollAdd) { s with
        mode := .loop
        table := s.table.register l.pid l.errFile l.stack
        pipes := if epollAdd then s.pipes ++ [⟨l.pipe, l.pid, l.path, l.launch⟩] else s.pipes
        fds := if epollAdd then s.fds else Function.update s.fds l.pipe none
        sent := s.sent ++ (⟨l.sock, .processLaunched l.pid, some l.launch⟩ ::
          surveillanceAcks l.sock l.toWatch) }

/-! ## Descriptors -/

theorem closes_of_kept (fd : Option Fd) (hp : s'.pipes = s.pipes)
    (hk : ∀ n o, s.fds n = some o → s'.fds n = some o) : Closes fd s s' where
  sub := by rw [hp]
  kept := fun e he _ => by rw [hp]; exact he
  fds := fun n k hn _ => hk n _ hn

theorem closes_same (fd : Option Fd) (hp : s'.pipes = s.pipes) (hf : s'.fds = s.fds) : Closes fd s s' :=
  closes_of_kept fd hp fun n o hn => by rw [hf]; exact hn

theorem closes_closeFd (s : State) (fd : Fd) (held : Bool) (hp : s'.pipes = (s.closeFd fd held).pipes)
    (hf : s'.fds = (s.closeFd fd held).fds) : Closes (some fd) s s' where
  sub := by
    rw [hp]
    unfold State.closeFd
    split
    · exact List.Sublist.refl _
    · exact List.filter_sublist
  kept := by
    intro e he hne
    rw [hp]
    unfold State.closeFd
    split
    · exact he
    · refine List.mem_filter.mpr ⟨he, ?_⟩
      have : e.fd ≠ fd := fun h => hne (by rw [h])
      simp [this]
  fds := by
    intro n k hn hne
    have : n ≠ fd := fun h => hne (by rw [h])
    rw [hf]
    simp [State.closeFd, this, hn]

/-! ## Handlers -/

theorem sent_same : ∃ ms : List Sent, s.sent = s.sent ++ ms ∧ ∀ m ∈ ms, m.launch = none :=
  ⟨[], (List.append_nil _).symm, by simp⟩

theorem Quiet.log (h : Quiet s l s') (k : Nat) : s'.log k = s.log k := by
  obtain ⟨ms, hms, hnone⟩ := h.sent
  rw [State.log_eq, State.log_eq, hms, about_append, about_untagged k hnone, List.append_nil]

theorem ReportSpec.closes {pid : Pid} {launch : Option Nat} {exitStatus : Nat} {held : Bool}
    (h : ReportSpec s s' pid launch exitStatus held) : Closes (s.table.matchedFile pid) s s' := by
  have hfds := h.fds
  have hpipes := h.pipes
  cases hfile : s.table.matchedFile pid with
  | none =>
    rw [hfile] at hfds hpipes
    exact closes_same _ hpipes hfds
  | some fd =>
    rw [hfile] at hfds hpipes
    exact closes_closeFd s fd held hpipes hfds

theorem State.removes_of_zombie {pid : Pid} {c : Child} {k : Nat} {status : WaitStatus}
    (hun : s.unreaped pid = some (c, k)) (hz : c.life = .zombie status) :
    s.removes pid = s.table.matchedFile pid := by
  simp [State.removes, hun, Child.dead, hz]

theorem State.removes_of_unknown {pid : Pid} (hun : s.unreaped pid = none) :
    s.removes pid = s.table.matchedFile pid := by
  simp [State.removes, hun]

/-- `handle_SIGCHLD` blocks, or releases the slot and closes the number that it finds. -/
theorem sigchld_frame {pid : Pid} {garbage : Nat} {held : Bool}
    (h : SigchldCase s pid garbage held s') :
    s'.conns = s.conns ∧ s'.batch = s.batch ∧ s'.children.length = s.children.length ∧
      (∀ lg, s'.mode ≠ .launching lg) ∧
      ((s'.table = s.table ∧ s.removes pid = none) ∨
        s.table.release pid = some (s'.table, s.removes pid)) := by
  cases h with
  | blocks hun halive =>
    have hnone : s.removes pid = none := by simp [State.removes, hun, halive]
    exact ⟨rfl, rfl, rfl, by simp, .inl ⟨rfl, hnone⟩⟩
  | reaps hun hz h =>
    refine ⟨h.conns, h.batch, by rw [h.children, List.length_set], by rw [h.mode]; simp, .inr ?_⟩
    rw [State.removes_of_zombie hun hz]
    exact h.table
  | fails hun h =>
    refine ⟨h.conns, h.batch, by rw [h.children], by rw [h.mode]; simp, .inr ?_⟩
    rw [State.removes_of_unknown hun]
    exact h.table

theorem signalfd_effect {garbage : Nat} {held : Bool} {rest : List Ready} {pid : Pid} (hmode : s.mode = .loop)
    (hbatch : s.batch = .signalfd :: rest) (hpend : s.pending = some pid)
    (h : SigchldCase { s with batch := rest, pending := none } pid garbage held s') :
    Effect s (.signalfd garbage held) s' := by
  have hcloses : s.closes (.signalfd garbage held) = s.removes pid := by
    simp [State.closes, hpend]
  cases h with
  | blocks hun halive =>
    obtain ⟨hc, hpid, hunr⟩ := State.unreaped_eq_some hun
    exact .blocks hmode hbatch hpend hc hpid hunr halive
  | reaps hun hz hr =>
    obtain ⟨hc, hpid, -⟩ := State.unreaped_eq_some hun
    refine .reaps ⟨.inl ⟨hmode, ?_, hpend, hr.pending⟩, hr.mode, hr.freed, hr.sock, hr.sent, ?_⟩ hc hpid hz
      hr.children
    · rw [hr.batch]; exact hbatch
    · rw [hcloses, State.removes_of_zombie (s := s) hun hz]
      exact ⟨hr.closes.sub, hr.closes.kept, hr.closes.fds⟩
  | fails hun hr =>
    refine .fails ⟨.inl ⟨hmode, ?_, hpend, hr.pending⟩, hr.mode, hr.freed, hr.sock, hr.sent, ?_⟩ hun hr.children
    · rw [hr.batch]; exact hbatch
    · rw [hcloses, State.removes_of_unknown (s := s) hun]
      exact ⟨hr.closes.sub, hr.closes.kept, hr.closes.fds⟩

theorem waitpidReturns_effect {garbage : Nat} {held : Bool} {pid : Pid} (hmode : s.mode = .waitpid pid)
    (h : SigchldCase s pid garbage held s') : Effect s (.waitpidReturns garbage held) s' := by
  have hcloses : s.closes (.waitpidReturns garbage held) = s.removes pid := by
    simp [State.closes, hmode]
  cases h with
  | blocks hun halive =>
    exact .quiet ⟨rfl, rfl, .inl hmode.symm, List.suffix_refl _, fun _ he => he, rfl, .inl rfl, sent_same⟩
      (closes_same _ rfl rfl) fun _ => closes_same _ rfl rfl
  | reaps hun hz hr =>
    obtain ⟨hc, hpid, -⟩ := State.unreaped_eq_some hun
    refine .reaps ⟨.inr ⟨hmode, hr.batch, hr.pending⟩, hr.mode, hr.freed, hr.sock, hr.sent, ?_⟩ hc hpid hz
      hr.children
    rw [hcloses, State.removes_of_zombie hun hz]
    exact ⟨hr.closes.sub, hr.closes.kept, hr.closes.fds⟩
  | fails hun hr =>
    refine .fails ⟨.inr ⟨hmode, hr.batch, hr.pending⟩, hr.mode, hr.freed, hr.sock, hr.sent, ?_⟩ hun hr.children
    rw [hcloses, State.removes_of_unknown hun]
    exact hr.closes

/-- A step that handles the head of the batch, sends only messages that are about no launch and
leaves the registered pipes alone. -/
theorem quiet_effect {l : Label} {r : Ready} (hch : s'.children = s.children)
    (hpend : s'.pending = s.pending) (hloop : s.mode = .loop) (hmode : s'.mode = .loop ∨ s'.mode = .halted)
    (hbatch : s.batch = r :: s'.batch) (hr : r.isExecve = false) (hfreed : s'.freed = s.freed)
    (hsock : s'.communicationSocket = s.communicationSocket ∨ ∃ fd, l = .sockConnexion fd)
    (hsent : ∃ ms, s'.sent = s.sent ++ ms ∧ ∀ m ∈ ms, m.launch = none)
    (hcl : Closes (s.closes l) s s') : Effect s l s' := by
  refine .quiet ⟨hch, hpend, ?_, ?_, fun e he => ?_, hfreed, hsock, hsent⟩ hcl fun h => absurd hloop h
  · rw [hloop]
    rcases hmode with hm | hm
    · exact .inl hm
    · exact .inr ⟨rfl, hm⟩
  · rw [hbatch]; exact List.suffix_cons _ _
  · rw [hbatch] at he
    rcases List.mem_cons.mp he with rfl | he
    · cases hr
    · exact he

theorem mem_surveillanceAcks {sock : Fd} {ws : List (Option Surveillance)} {m : Sent}
    (h : m ∈ surveillanceAcks sock ws) : m.launch = none := by
  obtain ⟨x, -, rfl⟩ := List.mem_map.mp h
  rfl

theorem request_effect {com : Command} {os : LaunchOs} {sock : Fd} {rest : List Ready} (hmode : s.mode = .loop)
    (hbatch : s.batch = .sockMessage sock :: rest) (h : RequestCase s rest sock com os s') :
    Effect s (.runCommand com os) s' := by
  cases h with
  | fails hos hleft =>
    refine quiet_effect rfl rfl hmode (.inl hmode) hbatch rfl rfl (.inl rfl) ⟨_, rfl, fun m hm => ?_⟩
      (closes_of_kept _ rfl fun _ _ hn => hleft.opens.kept hn)
    rcases List.mem_cons.mp hm with rfl | hm
    · rfl
    · exact mem_surveillanceAcks hm
  | pipeFails =>
    exact quiet_effect rfl rfl hmode (.inr rfl) hbatch rfl rfl (.inl rfl) sent_same (closes_same _ rfl rfl)
  | clones herr hread hwrite hpos hpid =>
    exact .clones hmode hbatch (fun _ _ hn => openFd_kept hread ((opens_openErrFile herr).kept hn))
      (openFd_new hread) hpid

theorem idle_effect {l : Label} (hch : s'.children = s.children) (hpend : s'.pending = s.pending)
    (hmode : s'.mode = s.mode ∨ (s.mode = .loop ∧ s'.mode = .halted)) (hbatch : s'.batch = s.batch)
    (hfreed : s'.freed = s.freed) (hsock : s'.communicationSocket = s.communicationSocket)
    (hsent : s'.sent = s.sent) (hcl : ∀ fd, Closes fd s s') : Effect s l s' := by
  refine .quiet ⟨hch, hpend, hmode, ?_, fun e he => ?_, hfreed, .inl hsock, ?_⟩ (hcl _) fun _ => hcl _
  · rw [hbatch]
  · rw [hbatch]; exact he
  · rw [hsent]; exact sent_same

theorem closes_other {fd : Fd} (hother : s.fds fd = some .other) (hp : s'.pipes = s.pipes)
    (hf : s'.fds = Function.update s.fds fd none) (fd' : Option Fd) : Closes fd' s s' := by
  refine ⟨by rw [hp], fun e he _ => by rw [hp]; exact he, fun n k hn _ => ?_⟩
  have hne : n ≠ fd := by
    rintro rfl
    rw [hother] at hn; cases hn
  rw [hf, Function.update_of_ne hne]
  exact hn

/-! ## Every step -/

theorem step_effect (h : step s l = some s') : Effect s l s' := by
  cases step_cases h with
  | child hc hact => exact .child hc hact
  | openOther hopen =>
    exact idle_effect rfl rfl (.inl rfl) rfl rfl rfl rfl fun _ =>
      closes_of_kept _ rfl fun _ _ hn => openFd_kept hopen hn
  | closeOther hother =>
    exact idle_effect rfl rfl (.inl rfl) rfl rfl rfl rfl (closes_other hother rfl rfl)
  | epollWait hmode hbatch hne hlen hnodup hready => exact .epollWait hmode hnodup hready
  | epollFails hmode hbatch =>
    exact idle_effect rfl rfl (.inr ⟨hmode, rfl⟩) rfl rfl rfl rfl fun _ => closes_same _ rfl rfl
  | signalfd hmode hbatch hpend hcase => exact signalfd_effect hmode hbatch hpend hcase
  | waitpidReturns hmode hcase => exact waitpidReturns_effect hmode hcase
  | execve hmode hbatch hfree hread => exact .execve hmode hbatch hfree hread
  | runCommand hmode hbatch hcase => exact request_effect hmode hbatch hcase
  | launchReturns hmode => exact .launched hmode
  | kills hmode hbatch hpos =>
    exact quiet_effect rfl rfl hmode (.inl hmode) hbatch rfl rfl (.inl rfl) sent_same (closes_same _ rfl rfl)
  | killsGroup hmode hbatch =>
    exact quiet_effect rfl rfl hmode (.inr rfl) hbatch rfl rfl (.inl rfl) sent_same (closes_same _ rfl rfl)
  | killsNone hmode hbatch hneg =>
    exact quiet_effect rfl rfl hmode (.inl hmode) hbatch rfl rfl (.inl rfl) sent_same (closes_same _ rfl rfl)
  | unexpected hmode hbatch =>
    exact quiet_effect rfl rfl hmode (.inl hmode) hbatch rfl rfl (.inl rfl) sent_same (closes_same _ rfl rfl)
  | @sockClosed fd rest hmode hbatch =>
    have hcloses : s.closes .sockClosed = some fd := by simp [State.closes, hbatch]
    refine quiet_effect rfl rfl hmode (.inl hmode) hbatch rfl rfl (.inl rfl) sent_same ?_
    rw [hcloses]
    exact closes_closeFd s fd false rfl rfl
  | sockConnexion hmode hbatch hopen =>
    exact quiet_effect rfl rfl hmode (.inl hmode) hbatch rfl rfl (.inr ⟨_, rfl⟩) ⟨_, rfl, by simp⟩
      (closes_of_kept _ rfl fun _ _ hn => openFd_kept hopen hn)
  | inotify hmode hbatch =>
    exact quiet_effect rfl rfl hmode (.inl hmode) hbatch rfl rfl (.inl rfl) ⟨_, rfl, by simp⟩
      (closes_same _ rfl rfl)
  | @hupErr number held rest hmode hbatch =>
    exact quiet_effect rfl rfl hmode (.inl hmode) hbatch rfl rfl (.inl rfl) sent_same
      (closes_closeFd s number held rfl rfl)

/-! ## What the effects do to the children and to the logs -/

theorem getElem?_set_some {α : Type} {cs : List α} {k : Nat} {c' : α} {j : Nat} {d : α}
    (h : (cs.set k c')[j]? = some d) : (j = k ∧ d = c') ∨ (j ≠ k ∧ cs[j]? = some d) := by
  rw [List.getElem?_set] at h
  split at h
  · rename_i hjk
    split at h
    · cases h; exact .inl ⟨hjk.symm, rfl⟩
    · cases h
  · rename_i hjk
    exact .inr ⟨fun e => hjk e.symm, h⟩

theorem getElem?_set_same {cs : List Child} {k : Nat} {c : Child} (c' : Child) (hc : cs[k]? = some c) :
    (cs.set k c')[k]? = some c' := by
  obtain ⟨hk, -⟩ := List.getElem?_eq_some_iff.mp hc
  rw [List.getElem?_set, if_pos rfl, if_pos hk]

theorem getElem?_append_some {α : Type} {cs : List α} {c : α} {j : Nat} {d : α}
    (h : (cs ++ [c])[j]? = some d) : cs[j]? = some d ∨ (j = cs.length ∧ d = c) := by
  rw [List.getElem?_append] at h
  split at h
  · exact .inl h
  · rename_i hj
    have : j - cs.length = 0 := by
      by_contra hne
      rw [List.getElem?_eq_none (by simp; omega)] at h
      cases h
    rw [this] at h
    cases h
    exact .inr ⟨by omega, rfl⟩

/-- A SIGCHLD that is pending after the act of a child was pending before, or is the child's own. -/
theorem pending_of_act {act : ChildAct} {pending : Option Pid} {own pid : Pid}
    (h : (if act.notifies then pending.or (some own) else pending) = some pid) :
    pending = some pid ∨ (act.notifies = true ∧ pending = none ∧ pid = own) := by
  split at h
  · rename_i hnot
    cases pending with
    | none =>
      rw [Option.none_or] at h
      exact .inr ⟨hnot, rfl, (Option.some.inj h).symm⟩
    | some q =>
      rw [Option.some_or] at h
      exact .inl h
  · exact .inl h

/-- A SIGCHLD that is pending stays pending while the children act. -/
theorem pending_act_of_some {act : ChildAct} {pending : Option Pid} {own pid : Pid}
    (h : pending = some pid) :
    (if act.notifies then pending.or (some own) else pending) = some pid := by
  subst h
  rw [Option.some_or, ite_self]

theorem log_of_sent {ms : List Sent} (h : s'.sent = s.sent ++ ms) (k : Nat) :
    s'.log k = s.log k ++ about k ms := by
  rw [State.log_eq, State.log_eq, h, about_append]

section Tagged

variable {sock : Fd} {m : Msg} {j : Nat} {ms : List Sent}

theorem log_of_tagged (h : s'.sent = s.sent ++ ⟨sock, m, some j⟩ :: ms) (hms : about j ms = []) :
    s'.log j = s.log j ++ [m] := by
  rw [log_of_sent h, about_cons, if_pos rfl, hms]

theorem log_of_tagged_ne {k : Nat} (h : s'.sent = s.sent ++ ⟨sock, m, some j⟩ :: ms)
    (hms : about k ms = []) (hk : k ≠ j) : s'.log k = s.log k := by
  have hne : ¬ some j = some k := fun heq => hk (Option.some.inj heq).symm
  rw [log_of_sent h, about_cons, if_neg hne, hms, List.append_nil]

end Tagged

theorem Handled.log {pid : Pid} {launch : Option Nat} {exitStatus : Nat}
    (h : Handled s l s' pid launch exitStatus) (k : Nat) :
    s'.log k = s.log k ++ if launch = some k then [.processTerminated pid exitStatus] else [] := by
  rw [log_of_sent h.sent, about_cons, about_nil]

theorem Handled.batch_suffix {pid : Pid} {launch : Option Nat} {exitStatus : Nat}
    (h : Handled s l s' pid launch exitStatus) : s'.batch <:+ s.batch := by
  rcases h.awaited with ⟨-, hb, -⟩ | ⟨-, hb, -⟩
  · rw [hb]; exact List.suffix_cons _ _
  · rw [hb]

/-- The unreaped children have different pids. -/
def PidsDistinct (s : State) : Prop :=
  ∀ (j k : Nat) (c d : Child), s.children[j]? = some c → s.children[k]? = some d →
    c.unreaped = true → d.unreaped = true → c.pid = d.pid → j = k

theorem pidsDistinct_set {k : Nat} {c c' : Child} (h : PidsDistinct s) (hc : s.children[k]? = some c)
    (hpid : c'.pid = c.pid) (hun : c'.unreaped = true → c.unreaped = true)
    (hs' : s'.children = s.children.set k c') : PidsDistinct s' := by
  have old : ∀ (j : Nat) (d : Child), s'.children[j]? = some d → ∃ d₀ : Child,
      s.children[j]? = some d₀ ∧ d.pid = d₀.pid ∧ (d.unreaped = true → d₀.unreaped = true) := by
    intro j d hd
    rw [hs'] at hd
    rcases getElem?_set_some hd with ⟨rfl, rfl⟩ | ⟨-, hd⟩
    · exact ⟨c, hc, hpid, hun⟩
    · exact ⟨d, hd, rfl, id⟩
  intro i j d d' hi hj hd hd' heq
  obtain ⟨d₀, h₀, hp₀, hu₀⟩ := old i d hi
  obtain ⟨d₁, h₁, hp₁, hu₁⟩ := old j d' hj
  exact h i j d₀ d₁ h₀ h₁ (hu₀ hd) (hu₁ hd') (by rw [← hp₀, ← hp₁]; exact heq)

theorem pidsDistinct_step (h : PidsDistinct s) (he : Effect s l s') : PidsDistinct s' := by
  cases he with
  | @child k act c c' hc hact =>
    exact pidsDistinct_set h hc (Child.step_pid hact)
      (fun _ => Child.unreaped_of_not_dead (Child.step_alive hact)) rfl
  | quiet hq hcl hbusy => unfold PidsDistinct; rw [hq.children]; exact h
  | epollWait hmode hnodup hready => exact h
  | blocks hmode hbatch hpend hc hpid hun halive => exact h
  | reaps hh hc hpid hz hch =>
    refine pidsDistinct_set h hc ?_ ?_ hch
    · rfl
    · simp [Child.unreaped]
  | fails hh hnone hch => unfold PidsDistinct; rw [hch]; exact h
  | execve hmode hbatch hfree hread => exact h
  | clones hmode hbatch hkept hnew hpid =>
    intro i j d d' hi hj hd hd' heq
    rcases getElem?_append_some hi with hi | ⟨rfl, rfl⟩ <;>
      rcases getElem?_append_some hj with hj | ⟨rfl, rfl⟩
    · exact h i j d d' hi hj hd hd' heq
    · rw [State.unreaped_eq_none hpid hi heq] at hd; cases hd
    · rw [State.unreaped_eq_none hpid hj heq.symm] at hd'; cases hd'
    · rfl
  | launched hmode => exact h

theorem pidsDistinct_of_reach {guard : State → Label → Prop} {heap : Nat → ProcessInfo} {nfds : Nat}
    {sock : Fd} {port : Nat} (hr : Lts.Reach step guard (.init heap nfds sock port) s) :
    PidsDistinct s := by
  refine hr.invariant ?_ fun _ _ _ _ h _ hs => pidsDistinct_step h (step_effect hs)
  intro j k c d hc
  cases hc

/-- The child of launch `k` in `s'` is the one of `s` after some act. -/
def SameChild (s s' : State) : Prop :=
  ∀ (k : Nat) (c : Child), s.children[k]? = some c →
    ∃ c' : Child, s'.children[k]? = some c' ∧ c'.pid = c.pid ∧ c'.path = c.path

theorem sameChild_of_eq (h : s'.children = s.children) : SameChild s s' := by
  intro k c hc
  exact ⟨c, by rw [h]; exact hc, rfl, rfl⟩

theorem sameChild_set {k : Nat} {c c' : Child} (hc : s.children[k]? = some c) (hpid : c'.pid = c.pid)
    (hpath : c'.path = c.path) (h : s'.children = s.children.set k c') : SameChild s s' := by
  intro j d hd
  rw [h]
  by_cases hjk : k = j
  · subst hjk
    rw [hc] at hd; cases hd
    exact ⟨c', getElem?_set_same c' hc, hpid, hpath⟩
  · exact ⟨d, by rw [List.getElem?_set_ne hjk]; exact hd, rfl, rfl⟩

theorem SameChild.length (h : SameChild s s') : s.children.length ≤ s'.children.length := by
  by_contra hlt
  have hk : s'.children.length < s.children.length := by omega
  obtain ⟨c', hc', -, -⟩ := h s'.children.length _ (List.getElem?_eq_getElem hk)
  have := (List.getElem?_eq_some_iff.mp hc').1
  omega

end ProcCtrld
