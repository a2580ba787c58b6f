import ProcCtrld.Records

/-!
# ProcCtrld.Sends

What a step of the daemon sends, and what it does to the descriptors that are open.

`State.sends` reads the messages of a step off the state before it, with the descriptor each is
written to; `step_sends` says that these are what the step adds to the log. `handled_fds`,
`runCommand_fds` and `launching_fds` say which descriptors survive a step.
-/

namespace ProcCtrld

variable {s s' : State} {l : Label}

/-! ## Messages -/

/-- The messages that answer a request. -/
def Msg.isReply : Msg → Bool
  | tcpSocketListening _ => false
  | _ => true

/-- The message that `handle_SIGCHLD` makes for `pid`, unless `waitpid` blocks. -/
def State.terminated (s : State) (pid : Pid) (garbage : Nat) : Option Sent :=
  match s.unreaped pid with
  | some (c, k) =>
    match c.life with
    | .zombie status => some ⟨s.communicationSocket, .processTerminated pid status.exitStatus, some k⟩
    | _ => none
  | none => some ⟨s.communicationSocket, .processTerminated pid garbage, s.latest pid⟩

/-- The messages of a step. -/
def State.sends (s : State) : Label → List Sent
  | .signalfd garbage _ => (s.pending.bind (s.terminated · garbage)).toList
  | .waitpidReturns garbage _ =>
    match s.mode with
    | .waitpid pid => (s.terminated pid garbage).toList
    | _ => []
  | .execve foreign =>
    match s.batch with
    | .execve e :: _ =>
      (s.readExecve e.fd foreign).toList.map fun success =>
        ⟨s.communicationSocket, .execveTerminated e.pid e.path success, some e.launch⟩
    | _ => []
  | .runCommand com (.paramFails errno) | .runCommand com (.mallocFails _ errno)
  | .runCommand com (.cloneFails _ _ errno) =>
    match s.batch with
    | .sockMessage sock :: _ =>
      ⟨sock, .childCreationError errno, none⟩ :: surveillanceAcks sock com.toWatch
    | _ => []
  | .launchReturns _ =>
    match s.mode with
    | .launching lg =>
      ⟨lg.sock, .processLaunched lg.pid, some lg.launch⟩ :: surveillanceAcks lg.sock lg.toWatch
    | _ => []
  | .sockConnexion fd => [⟨fd, .tcpSocketListening s.destPort, none⟩]
  | .inotify updates =>
    updates.map fun info => ⟨s.communicationSocket, .inotifyPathUpdated info, none⟩
  | _ => []

theorem sigchld_sent {pid : Pid} {garbage : Nat} {held : Bool} (h : SigchldCase s pid garbage held s') :
    s'.sent = s.sent ++ (s.terminated pid garbage).toList := by
  cases h with
  | @blocks c k hun halive =>
    have hnone : s.terminated pid garbage = none := by
      rw [State.terminated, hun]
      cases hl : c.life with
      | zombie status => simp [Child.dead, hl] at halive
      | running | stopped | reaped status => simp only [hl]
    rw [hnone]
    exact (List.append_nil _).symm
  | reaps hun hz h =>
    rw [h.sent, State.terminated, hun]
    simp only [hz, Option.toList_some]
  | fails hun h =>
    rw [h.sent, State.terminated, hun]
    rfl

theorem request_sent {com : Command} {os : LaunchOs} {sock : Fd} {rest : List Ready}
    (hbatch : s.batch = .sockMessage sock :: rest) (h : RequestCase s rest sock com os s') :
    s'.sent = s.sent ++ s.sends (.runCommand com os) := by
  cases h with
  | fails hos hleft =>
    cases hleft <;> cases hos <;> simp only [State.sends, hbatch] <;> rfl
  | pipeFails | clones => exact (List.append_nil _).symm

theorem step_sends (h : step s l = some s') : s'.sent = s.sent ++ s.sends l := by
  cases step_cases h with
  | signalfd hmode hbatch hpend hcase =>
    have hsent := sigchld_sent hcase
    simp only [State.sends, hpend, Option.bind_some]
    exact hsent
  | waitpidReturns hmode hcase =>
    simp only [State.sends, hmode]
    exact sigchld_sent hcase
  | runCommand hmode hbatch hcase => exact request_sent hbatch hcase
  | launchReturns hmode => simp only [State.sends, hmode]
  | execve hmode hbatch hfree hread =>
    simp only [State.sends, hbatch, hread]
    rfl
  | sockConnexion | inotify => rfl
  | child | openOther | closeOther | epollWait | epollFails | kills | killsGroup | killsNone | unexpected
  | sockClosed | hupErr => exact (List.append_nil _).symm

theorem State.terminated_spec {pid : Pid} {garbage : Nat} {m : Sent}
    (h : s.terminated pid garbage = some m) :
    m.sock = s.communicationSocket ∧ m.msg.isReply = true := by
  unfold State.terminated at h
  split at h
  · split at h <;> cases h
    exact ⟨rfl, rfl⟩
  · cases h; exact ⟨rfl, rfl⟩

theorem mem_surveillanceAcks_sock {sock : Fd} {ws : List (Option Surveillance)} {m : Sent}
    (h : m ∈ surveillanceAcks sock ws) : m.sock = sock := by
  obtain ⟨x, -, rfl⟩ := List.mem_map.mp h
  rfl

/-! ## Descriptors -/

theorem ReportSpec.fds_apply {pid : Pid} {launch : Option Nat} {exitStatus : Nat} {held : Bool}
    (h : ReportSpec s s' pid launch exitStatus held) (n : Fd) :
    s'.fds n = if s.table.matchedFile pid = some n then none else s.fds n := by
  rw [h.fds]
  cases s.table.matchedFile pid with
  | none => rfl
  | some fd => simp only [Function.update_apply, Option.some.injEq, eq_comm]

/-- `handle_SIGCHLD` closes the number of the error file that it finds and no other. -/
theorem sigchld_fds {pid : Pid} {garbage : Nat} {held : Bool} (h : SigchldCase s pid garbage held s') (n : Fd) :
    s'.fds n = if s.removes pid = some n then none else s.fds n := by
  cases h with
  | blocks hun halive =>
    rw [State.removes, hun]
    simp [halive]
  | reaps hun hz h =>
    rw [State.removes_of_zombie hun hz]
    exact h.fds_apply n
  | fails hun h =>
    rw [State.removes_of_unknown hun]
    exact h.fds_apply n

/-- The steps of `handle_SIGCHLD`. -/
def Label.handlesSignal : Label → Bool
  | .signalfd .. | .waitpidReturns .. => true
  | _ => false

theorem handled_fds (hl : l.handlesSignal = true) (h : step s l = some s') (n : Fd) :
    s'.fds n = if s.closes l = some n then none else s.fds n := by
  cases step_cases h with
  | signalfd hmode hbatch hpend hcase =>
    have hfds := sigchld_fds hcase n
    simp only [State.closes, hpend, Option.bind_some]
    exact hfds
  | waitpidReturns hmode hcase =>
    simp only [State.closes, hmode]
    exact sigchld_fds hcase n
  | _ => cases hl

theorem runCommand_fds {com : Command} {os : LaunchOs} (h : step s (.runCommand com os) = some s')
    {n : Fd} (hn : (s.fds n).isSome) : (s'.fds n).isSome := by
  obtain ⟨o, ho⟩ := Option.isSome_iff_exists.mp hn
  cases step_cases h with
  | runCommand hmode hbatch hcase =>
    cases hcase with
    | fails hos hleft => exact Option.isSome_of_eq_some (hleft.opens.kept ho)
    | pipeFails => exact hn
    | clones herr hread hwrite hpos hpid =>
      exact Option.isSome_of_eq_some (openFd_kept hread ((opens_openErrFile herr).kept ho))

/-- While a launch is in progress nothing that is open is closed, other parts of the daemon apart. -/
theorem launching_fds {lg : Launching} (hmode : s.mode = .launching lg) (h : step s l = some s')
    (hmode' : s'.mode = .launching lg) {n : Fd} (hn : (s.fds n).isSome) (hl : l ≠ .closeOther n) :
    (s'.fds n).isSome := by
  cases step_cases h with
  | child | epollWait | epollFails | kills | killsGroup | killsNone | unexpected | inotify => exact hn
  | openOther hopen =>
    obtain ⟨o, ho⟩ := Option.isSome_iff_exists.mp hn
    exact Option.isSome_of_eq_some (openFd_kept hopen ho)
  | closeOther hother =>
    have hne : n ≠ _ := fun heq => hl (by rw [heq])
    simpa [hne] using hn
  | launchReturns => cases hmode'
  | signalfd hm | execve hm | runCommand hm | sockClosed hm | sockConnexion hm | hupErr hm
  | waitpidReturns hm =>
    rw [hmode] at hm
    cases hm

/-! ## Launches -/

theorem communicationSocket_same (h : step s l = some s') (hl : ∀ fd, l ≠ .sockConnexion fd) :
    s'.communicationSocket = s.communicationSocket := by
  cases step_effect h with
  | quiet hq hcl hbusy =>
    rcases hq.sock with hsock | ⟨fd, rfl⟩
    · exact hsock
    · exact absurd rfl (hl fd)
  | reaps hh hc hpid hz hch => exact hh.sock
  | fails hh hnone hch => exact hh.sock
  | _ => rfl

theorem clones_spec {com : Command} {errFile : Option Fd} {pipefd : Fd × Fd} {pid : Pid} {stack : Addr}
    (h : step s (.runCommand com (.clones errFile pipefd pid stack)) = some s') :
    ∃ (sock : Fd) (rest : List Ready) (lg : Launching), s.batch = .sockMessage sock :: rest ∧
      s'.children = s.children ++ [⟨pid, com.path, .running, .beforeExecve⟩] ∧ s'.mode = .launching lg ∧
      lg.launch = s.children.length ∧ lg.sock = sock := by
  cases step_cases h with
  | runCommand hmode hbatch hcase =>
    cases hcase with
    | fails hos hleft => cases hos
    | clones herr hread hwrite hpos hpid => exact ⟨_, _, _, hbatch, rfl, rfl, rfl, rfl⟩

def Label.clones : Label → Bool
  | .runCommand _ (.clones ..) => true
  | _ => false

theorem Label.exists_of_clones (hl : l.clones = true) : ∃ (com : Command) (errFile : Option Fd) (pipefd : Fd × Fd)
    (pid : Pid) (stack : Addr), l = .runCommand com (.clones errFile pipefd pid stack) := by
  cases l with
  | runCommand com os =>
    cases os with
    | clones errFile pipefd pid stack => exact ⟨com, errFile, pipefd, pid, stack, rfl⟩
    | _ => cases hl
  | _ => cases hl

theorem not_clones_spec (h : step s l = some s') (hl : l.clones = false) :
    s'.children.length = s.children.length ∧
      ∀ lg, s'.mode = .launching lg → s.mode = .launching lg := by
  cases step_table h with
  | same hch ht hmode =>
    refine ⟨by rw [hch], ?_⟩
    intro lg hlg
    rcases hmode with hm | ⟨-, hm | ⟨pid, k, c, hm, -⟩⟩
    · rw [← hm]; exact hlg
    · rw [hm] at hlg; cases hlg
    · rw [hm] at hlg; cases hlg
  | acts hc hact hch ht hmode =>
    exact ⟨by rw [hch, List.length_set], fun lg hlg => by rw [← hmode]; exact hlg⟩
  | clones hl' => subst hl'; cases hl
  | registers hmode hch ht hmode' => exact ⟨by rw [hch], fun lg hlg => by rw [hmode'] at hlg; cases hlg⟩
  | reaps hmode hc hpid hz hch ht hmode' =>
    exact ⟨by rw [hch, List.length_set], fun lg hlg => by rw [hmode'] at hlg; cases hlg⟩
  | fails hmode hnone hch ht hmode' => exact ⟨by rw [hch], fun lg hlg => by rw [hmode'] at hlg; cases hlg⟩

end ProcCtrld
