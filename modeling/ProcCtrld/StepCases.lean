import ProcCtrld.Daemon

/-!
# ProcCtrld.StepCases

The ways through a step of the daemon, said once.

`step_cases`: each step that is possible is one of the `StepCase`s, which have the guards of the handler
and the state after it. `handle_SIGCHLD` and `process_command_request` have cases of their own
(`SigchldCase`, `RequestCase`), since the first is reached by two steps and the second fails in three ways.
What later modules say of a step is proved by cases on these and not from the handlers.
-/

namespace ProcCtrld

variable {s s' : State} {l : Label}

/-! ## Looking children up -/

theorem State.unreaped_eq_some {pid : Pid} {c : Child} {k : Nat}
    (h : s.unreaped pid = some (c, k)) :
    s.children[k]? = some c ∧ c.pid = pid ∧ c.unreaped = true := by
  have hp := List.find?_some h
  have hm := List.mem_zipIdx_iff_getElem?.mp (List.mem_of_find?_eq_some h)
  simp only [Bool.and_eq_true, beq_iff_eq] at hp
  exact ⟨hm, hp.1, hp.2⟩

theorem State.unreaped_eq_none {pid : Pid} (h : s.unreaped pid = none) {k : Nat} {c : Child}
    (hc : s.children[k]? = some c) (hpid : c.pid = pid) : c.unreaped = false := by
  have hm : (c, k) ∈ s.children.zipIdx := List.mem_zipIdx_iff_getElem?.mpr hc
  have hn := List.find?_eq_none.mp h (c, k) hm
  simpa [hpid] using hn

theorem State.latest_eq_some {pid : Pid} {k : Nat} (h : s.latest pid = some k) :
    ∃ c, s.children[k]? = some c ∧ c.pid = pid := by
  obtain ⟨⟨c, k'⟩, hf, rfl⟩ := Option.map_eq_some_iff.mp h
  have hp := List.find?_some hf
  have hm := List.mem_reverse.mp (List.mem_of_find?_eq_some hf)
  exact ⟨c, List.mem_zipIdx_iff_getElem?.mp hm, by simpa using hp⟩

/-! ## Opening descriptors -/

section Open

variable {fds fds' : Fd → Option Obj} {fd n : Fd} {obj o : Obj}

theorem openFd_eq (h : openFd fds fd obj = some fds') :
    lowestFree fds fd ∧ fds' = Function.update fds fd (some obj) := by
  unfold openFd at h
  split at h
  · rename_i hfree
    cases h
    exact ⟨hfree, rfl⟩
  · cases h

theorem openFd_new (h : openFd fds fd obj = some fds') : fds' fd = some obj := by
  rw [(openFd_eq h).2, Function.update_self]

theorem openFd_kept (h : openFd fds fd obj = some fds') (hn : fds n = some o) : fds' n = some o := by
  obtain ⟨hfree, rfl⟩ := openFd_eq h
  rw [Function.update_of_ne]
  · exact hn
  · rintro rfl
    rw [hfree.1] at hn; cases hn

/-- Some descriptors have been opened, none of them the pipe of a child. -/
inductive Opens (fds : Fd → Option Obj) : (Fd → Option Obj) → Prop where
  | none : Opens fds fds
  | more {fds₁ fds₂ : Fd → Option Obj} {fd : Fd} {obj : Obj} (h : Opens fds fds₁)
      (hopen : openFd fds₁ fd obj = some fds₂) (hobj : ∀ k, obj ≠ .pipeRead k) : Opens fds fds₂

theorem Opens.kept (h : Opens fds fds') (hn : fds n = some o) : fds' n = some o := by
  induction h with
  | none => exact hn
  | more h hopen hobj ih => exact openFd_kept hopen ih

theorem opens_openErrFile {errFile : Option Fd} {err : Fd} (h : openErrFile fds errFile = some (fds', err)) :
    Opens fds fds' := by
  unfold openErrFile at h
  split at h
  · cases h; exact .none
  · split at h
    · rename_i hopen
      cases h
      exact Opens.none.more hopen (by simp)
    · cases h

end Open

/-! ## `process_command_request` -/

/-- The errno of a launch that creates no child. -/
def LaunchOs.creationErrno : LaunchOs → Option Nat
  | .paramFails errno | .mallocFails _ errno | .cloneFails _ _ errno => some errno
  | _ => none

/-- The descriptors that a failed launch leaves behind. -/
inductive LeftOpen (fds : Fd → Option Obj) : LaunchOs → (Fd → Option Obj) → Prop where
  | paramFails {errno : Nat} : LeftOpen fds (.paramFails errno) fds
  | mallocFails {errFile : Option Fd} {errno : Nat} {fds₀ : Fd → Option Obj} {err : Fd}
      (herr : openErrFile fds errFile = some (fds₀, err)) : LeftOpen fds (.mallocFails errFile errno) fds₀
  | cloneFails {errFile : Option Fd} {pipefd : Fd × Fd} {errno : Nat} {fds₀ fds₁ fds₂ : Fd → Option Obj}
      {err : Fd} (herr : openErrFile fds errFile = some (fds₀, err))
      (hread : openFd fds₀ pipefd.1 .leakedPipe = some fds₁)
      (hwrite : openFd fds₁ pipefd.2 .leakedPipe = some fds₂) :
      LeftOpen fds (.cloneFails errFile pipefd errno) fds₂

theorem LeftOpen.opens {fds fds' : Fd → Option Obj} {os : LaunchOs} (h : LeftOpen fds os fds') : Opens fds fds' := by
  cases h with
  | paramFails => exact .none
  | mallocFails herr => exact opens_openErrFile herr
  | cloneFails herr hread hwrite =>
    exact ((opens_openErrFile herr).more hread (by simp)).more hwrite (by simp)

inductive RequestCase (s : State) (rest : List Ready) (sock : Fd) (com : Command) : LaunchOs → State → Prop where
  | fails {os : LaunchOs} {errno : Nat} {fds : Fd → Option Obj} (hos : os.creationErrno = some errno)
      (hleft : LeftOpen s.fds os fds) : RequestCase s rest sock com os (s.launchFails rest sock com errno fds)
  | pipeFails : RequestCase s rest sock com .pipeFails { s with batch := rest, mode := .halted }
  | clones {errFile : Option Fd} {pipefd : Fd × Fd} {pid : Pid} {stack : Addr} {err : Fd}
      {fds₀ fds : Fd → Option Obj} (herr : openErrFile s.fds errFile = some (fds₀, err))
      (hread : openFd fds₀ pipefd.1 (.pipeRead s.children.length) = some fds)
      (hwrite : lowestFree fds pipefd.2) (hpos : 0 < pid) (hpid : s.unreaped pid = none) :
      RequestCase s rest sock com (.clones errFile pipefd pid stack) { s with
        batch := rest
        fds := fds
        children := s.children ++ [⟨pid, com.path, .running, .beforeExecve⟩]
        mode := .launching
          ⟨s.children.length, pid, com.path, sock, err, stack, pipefd.1, com.toWatch⟩ }

theorem processCommandRequest_cases {rest : List Ready} {sock : Fd} {com : Command} {os : LaunchOs}
    (h : s.processCommandRequest rest sock com os = some s') : RequestCase s rest sock com os s' := by
  cases os with
  | paramFails errno =>
    cases h
    exact .fails rfl .paramFails
  | mallocFails errFile errno =>
    simp only [State.processCommandRequest] at h
    split at h
    · rename_i herr
      cases h
      exact .fails rfl (.mallocFails herr)
    · cases h
  | pipeFails =>
    cases h
    exact .pipeFails
  | cloneFails errFile pipefd errno =>
    simp only [State.processCommandRequest, Option.bind_eq_bind, Option.bind_eq_some_iff] at h
    obtain ⟨⟨fds, err⟩, herr, fds₁, h₁, fds₂, h₂, h⟩ := h
    cases h
    exact .fails rfl (.cloneFails herr h₁ h₂)
  | clones errFile pipefd pid stack =>
    simp only [State.processCommandRequest, Option.bind_eq_bind, Option.bind_eq_some_iff] at h
    obtain ⟨⟨fds, err⟩, herr, fds₁, h₁, h⟩ := h
    split at h
    · rename_i hfresh
      cases h
      exact .clones herr h₁ hfresh.1 hfresh.2.1 hfresh.2.2
    · cases h

/-! ## `handle_SIGCHLD` -/

/-- What `report` does: the slot of the pid is emptied and the number in it closed. -/
structure ReportSpec (s s' : State) (pid : Pid) (launch : Option Nat) (exitStatus : Nat) (held : Bool) :
    Prop where
  children : s'.children = s.children
  table : s.table.release pid = some (s'.table, s.table.matchedFile pid)
  fds : s'.fds = match s.table.matchedFile pid with
    | some fd => Function.update s.fds fd none
    | none => s.fds
  pipes : s'.pipes = match s.table.matchedFile pid with
    | some fd => (s.closeFd fd held).pipes
    | none => s.pipes
  conns : s'.conns = s.conns
  freed : s'.freed = s.freed
  pending : s'.pending = s.pending
  mode : s'.mode = .loop
  batch : s'.batch = s.batch
  sock : s'.communicationSocket = s.communicationSocket
  destPort : s'.destPort = s.destPort
  sent : s'.sent = s.sent ++ [⟨s.communicationSocket, .processTerminated pid exitStatus, launch⟩]
  killed : s'.killed = s.killed

theorem report_spec {pid : Pid} {launch : Option Nat} {exitStatus : Nat} {held : Bool}
    (h : s.report pid launch exitStatus held = some s') : ReportSpec s s' pid launch exitStatus held := by
  unfold State.report at h
  split at h
  · rename_i table closed hrel
    obtain rfl := ProcessTable.release_closes hrel
    cases hfile : s.table.matchedFile pid with
    | none =>
      rw [hfile] at h hrel
      cases h
      exact ⟨rfl, by rw [hfile, hrel], by rw [hfile], by rw [hfile], rfl, rfl, rfl, rfl, rfl, rfl, rfl, rfl, rfl⟩
    | some fd =>
      rw [hfile] at h hrel
      cases h
      exact ⟨rfl, by rw [hfile, hrel], by rw [hfile]; rfl, by rw [hfile], rfl, rfl, rfl, rfl, rfl, rfl, rfl, rfl, rfl⟩
  · cases h

/-- `waitpid` blocks, reaps a zombie or fails. -/
inductive SigchldCase (s : State) (pid : Pid) (garbage : Nat) (held : Bool) : State → Prop where
  | blocks {c : Child} {k : Nat} (hun : s.unreaped pid = some (c, k)) (halive : c.dead = false) :
      SigchldCase s pid garbage held { s with mode := .waitpid pid }
  | reaps {c : Child} {k : Nat} {status : WaitStatus} {s' : State} (hun : s.unreaped pid = some (c, k))
      (hz : c.life = .zombie status)
      (h : ReportSpec { s with children := s.children.set k { c with life := .reaped status } } s' pid (some k)
        status.exitStatus held) : SigchldCase s pid garbage held s'
  | fails {s' : State} (hun : s.unreaped pid = none)
      (h : ReportSpec s s' pid (s.latest pid) garbage held) : SigchldCase s pid garbage held s'

theorem handleSIGCHLD_cases {pid : Pid} {garbage : Nat} {held : Bool}
    (h : s.handleSIGCHLD pid garbage held = some s') : SigchldCase s pid garbage held s' := by
  unfold State.handleSIGCHLD at h
  split at h
  · rename_i c k hun
    split at h
    · rename_i status hz
      exact .reaps hun hz (report_spec h)
    · rename_i hz
      have hunr := (State.unreaped_eq_some hun).2.2
      have halive : c.dead = false := by
        unfold Child.dead
        unfold Child.unreaped at hunr
        split <;> simp_all
      cases h
      exact .blocks hun halive
  · rename_i hun
    exact .fails hun (report_spec h)

/-! ## Every step -/

inductive StepCase (s : State) : Label → State → Prop where
  | child {k : Nat} {act : ChildAct} {c c' : Child} (hc : s.children[k]? = some c)
      (hact : c.step act = some c') :
      StepCase s (.child k act) { s with
        children := s.children.set k c'
        pending := if act.notifies then s.pending.or (some c.pid) else s.pending }
  | openOther {fd : Fd} {fds : Fd → Option Obj} (hopen : openFd s.fds fd .other = some fds) :
      StepCase s (.openOther fd) { s with fds := fds }
  | closeOther {fd : Fd} (hother : s.fds fd = some .other) :
      StepCase s (.closeOther fd) { s with fds := Function.update s.fds fd none }
  | epollWait {events : List Ready} (hmode : s.mode = .loop) (hbatch : s.batch = []) (hne : events ≠ [])
      (hlen : events.length ≤ maxEvents) (hnodup : events.Nodup) (hready : ∀ r ∈ events, s.ready r = true) :
      StepCase s (.epollWait events) { s with batch := events }
  | epollFails (hmode : s.mode = .loop) (hbatch : s.batch = []) :
      StepCase s .epollFails { s with mode := .halted }
  | signalfd {garbage : Nat} {held : Bool} {rest : List Ready} {pid : Pid} {s' : State}
      (hmode : s.mode = .loop) (hbatch : s.batch = .signalfd :: rest) (hpend : s.pending = some pid)
      (h : SigchldCase { s with batch := rest, pending := none } pid garbage held s') :
      StepCase s (.signalfd garbage held) s'
  | waitpidReturns {garbage : Nat} {held : Bool} {pid : Pid} {s' : State} (hmode : s.mode = .waitpid pid)
      (h : SigchldCase s pid garbage held s') : StepCase s (.waitpidReturns garbage held) s'
  | execve {foreign success : Bool} {e : PipeExecve} {rest : List Ready} (hmode : s.mode = .loop)
      (hbatch : s.batch = .execve e :: rest) (hfree : e.launch ∉ s.freed)
      (hread : s.readExecve e.fd foreign = some success) :
      StepCase s (.execve foreign) { s.closeFd e.fd false with
        batch := rest
        freed := e.launch :: s.freed
        sent := s.sent ++
          [⟨s.communicationSocket, .execveTerminated e.pid e.path success, some e.launch⟩] }
  | runCommand {com : Command} {os : LaunchOs} {sock : Fd} {rest : List Ready} {s' : State}
      (hmode : s.mode = .loop) (hbatch : s.batch = .sockMessage sock :: rest)
      (h : RequestCase s rest sock com os s') : StepCase s (.runCommand com os) s'
  | launchReturns {epollAdd : Bool} {lg : Launching} (hmode : s.mode = .launching lg) :
      StepCase s (.launchReturns epollAdd) { s with
        mode := .loop
        table := s.table.register lg.pid lg.errFile lg.stack
        pipes := if epollAdd then s.pipes ++ [⟨lg.pipe, lg.pid, lg.path, lg.launch⟩] else s.pipes
        fds := if epollAdd then s.fds else Function.update s.fds lg.pipe none
        sent := s.sent ++ (⟨lg.sock, .processLaunched lg.pid, some lg.launch⟩ ::
          surveillanceAcks lg.sock lg.toWatch) }
  | kills {pid : Pid} {sock : Fd} {rest : List Ready} (hmode : s.mode = .loop)
      (hbatch : s.batch = .sockMessage sock :: rest) (hpos : 0 < pid) :
      StepCase s (.killProcess pid) { s with batch := rest, killed := s.killed ++ [pid] }
  | killsGroup {sock : Fd} {rest : List Ready} (hmode : s.mode = .loop)
      (hbatch : s.batch = .sockMessage sock :: rest) :
      StepCase s (.killProcess 0) { s with batch := rest, mode := .halted }
  | killsNone {pid : Pid} {sock : Fd} {rest : List Ready} (hmode : s.mode = .loop)
      (hbatch : s.batch = .sockMessage sock :: rest) (hneg : pid < 0) :
      StepCase s (.killProcess pid) { s with batch := rest }
  | unexpected {sock : Fd} {rest : List Ready} (hmode : s.mode = .loop)
      (hbatch : s.batch = .sockMessage sock :: rest) : StepCase s .unexpected { s with batch := rest }
  | sockClosed {fd : Fd} {rest : List Ready} (hmode : s.mode = .loop)
      (hbatch : s.batch = .sockMessage fd :: rest) :
      StepCase s .sockClosed { s.closeFd fd false with batch := rest, conns := s.conns.erase fd }
  | sockConnexion {fd : Fd} {rest : List Ready} {fds : Fd → Option Obj} (hmode : s.mode = .loop)
      (hbatch : s.batch = .sockConnexion :: rest) (hopen : openFd s.fds fd .other = some fds) :
      StepCase s (.sockConnexion fd) { s with
        batch := rest
        fds := fds
        conns := fd :: s.conns
        communicationSocket := fd
        sent := s.sent ++ [⟨fd, .tcpSocketListening s.destPort, none⟩] }
  | inotify {updates : List InotifyPathUpdated} {rest : List Ready} (hmode : s.mode = .loop)
      (hbatch : s.batch = .inotify :: rest) :
      StepCase s (.inotify updates) { s with
        batch := rest
        sent := s.sent ++
          updates.map fun info => ⟨s.communicationSocket, .inotifyPathUpdated info, none⟩ }
  | hupErr {number : Fd} {held : Bool} {rest : List Ready} (hmode : s.mode = .loop)
      (hbatch : s.batch = .hupErr :: rest) :
      StepCase s (.hupErr number held) { s.closeFd number held with batch := rest }

theorem killProcess_cases {pid : Pid} (h : s.killProcess pid = some s') : StepCase s (.killProcess pid) s' := by
  unfold State.killProcess at h
  split at h
  · rename_i sock rest hmode hbatch
    split at h
    · rename_i hpos
      cases h
      exact .kills hmode hbatch hpos
    · rename_i hpos
      split at h
      · rename_i hzero
        subst hzero
        cases h
        exact .killsGroup hmode hbatch
      · rename_i hzero
        cases h
        exact .killsNone hmode hbatch (lt_of_le_of_ne (not_lt.mp hpos) hzero)
  · cases h

theorem execve_cases {foreign : Bool} (h : s.execve foreign = some s') : StepCase s (.execve foreign) s' := by
  unfold State.execve at h
  split at h
  · rename_i e rest hmode hbatch
    split at h
    · cases h
    · rename_i hfree
      split at h
      · rename_i success hread
        cases h
        exact .execve hmode hbatch hfree hread
      · cases h
  · cases h

theorem step_cases (h : step s l = some s') : StepCase s l s' := by
  cases l with
  | child k act =>
    simp only [step, State.childAct] at h
    split at h
    · rename_i c hc
      split at h
      · rename_i c' hact
        cases h
        exact .child hc hact
      · cases h
    · cases h
  | openOther fd =>
    simp only [step, State.openOther] at h
    split at h
    · rename_i fds hopen
      cases h
      exact .openOther hopen
    · cases h
  | closeOther fd =>
    simp only [step, State.closeOther] at h
    split at h
    · rename_i hother
      cases h
      exact .closeOther hother
    · cases h
  | epollWait events =>
    simp only [step, State.epollWait] at h
    split at h
    · rename_i hc
      obtain ⟨hmode, hbatch, hne, hlen, hnodup, hready⟩ := hc
      cases h
      exact .epollWait hmode hbatch hne hlen hnodup hready
    · cases h
  | epollFails =>
    simp only [step, State.epollFails] at h
    split at h
    · rename_i hc
      cases h
      exact .epollFails hc.1 hc.2
    · cases h
  | signalfd garbage held =>
    simp only [step, State.signalfd] at h
    split at h
    · rename_i rest pid hmode hbatch hpend
      exact .signalfd hmode hbatch hpend (handleSIGCHLD_cases h)
    · cases h
  | waitpidReturns garbage held =>
    simp only [step, State.waitpidReturns] at h
    split at h
    · rename_i pid hmode
      exact .waitpidReturns hmode (handleSIGCHLD_cases h)
    · cases h
  | execve foreign => exact execve_cases h
  | runCommand com os =>
    simp only [step, State.runCommand] at h
    split at h
    · rename_i sock rest hmode hbatch
      exact .runCommand hmode hbatch (processCommandRequest_cases h)
    · cases h
  | launchReturns epollAdd =>
    simp only [step, State.launchReturns] at h
    split at h
    · rename_i lg hmode
      cases h
      exact .launchReturns hmode
    · cases h
  | killProcess pid => exact killProcess_cases h
  | unexpected =>
    simp only [step, State.unexpected] at h
    split at h
    · rename_i sock rest hmode hbatch
      cases h
      exact .unexpected hmode hbatch
    · cases h
  | sockClosed =>
    simp only [step, State.sockClosed] at h
    split at h
    · rename_i fd rest hmode hbatch
      cases h
      exact .sockClosed hmode hbatch
    · cases h
  | sockConnexion fd =>
    simp only [step, State.sockConnexion] at h
    split at h
    · rename_i rest hmode hbatch
      split at h
      · rename_i fds hopen
        cases h
        exact .sockConnexion hmode hbatch hopen
      · cases h
    · cases h
  | inotify updates =>
    simp only [step, State.inotify] at h
    split at h
    · rename_i rest hmode hbatch
      cases h
      exact .inotify hmode hbatch
    · cases h
  | hupErr number held =>
    simp only [step, State.hupErr] at h
    split at h
    · rename_i rest hmode hbatch
      cases h
      exact .hupErr hmode hbatch
    · cases h

end ProcCtrld
