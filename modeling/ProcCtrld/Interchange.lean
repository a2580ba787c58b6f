import ProcCtrld.Termination
import ProcCtrld.ExecveReport
import ProcCtrld.Order
import ProcCtrld.RustDaemon
import Mathlib.Logic.Equiv.Basic

/-!
# ProcCtrld.Interchange

The two daemons compared on one `RunCommand` without surveillance.

`CSends path outcome msgs` says that the C daemon sends the requesting client the messages `msgs`
for a command whose outcome is `outcome`, in a run that meets the conditions of the earlier modules
(`Clean`). In such a run the messages about a launch are determined by its outcome (`log_of_reaped`):
launched, execve, terminated, with the exit code or the number of the signal. After a failed `execve`
the exit code is what the child has left in `errno` when it writes it, which need not be the error of
`execve`.

`interchangeable_iff` compares them with what the Rust daemon sends: the two agree, up to the names
of the pids, exactly when the program runs and exits with a code, or is killed by signal 1. A child
that cannot be created, an `execve` that fails and every other signal are told differently.
-/

namespace ProcCtrld

variable {s s' : State} {l : Label}

/-- The request comes on the connection that was made last, and no connection is made afterwards. -/
def OneClient (s : State) (l : Label) : Prop :=
  (l.connect.isSome → s.children = []) ∧
    (l.command.isSome → s.batch.head? = some (.sockMessage s.communicationSocket))

instance (s : State) (l : Label) : Decidable (OneClient s l) :=
  inferInstanceAs (Decidable ((l.connect.isSome → s.children = []) ∧
    (l.command.isSome → s.batch.head? = some (.sockMessage s.communicationSocket))))

/-- The conditions under which the C daemon reports launches and terminations as it should, to the
client that asked. -/
def Clean (s : State) (l : Label) : Prop :=
  ExitSeen s l ∧ InOrder s l ∧ DiesTold s l ∧ OneClient s l

instance (s : State) (l : Label) : Decidable (Clean s l) :=
  inferInstanceAs (Decidable (ExitSeen s l ∧ InOrder s l ∧ DiesTold s l ∧ OneClient s l))

/-! ## The client that is written to -/

/-- The messages about launch `k` that were sent on `sock`. -/
def State.client (s : State) (sock : Fd) (k : Nat) : List Msg :=
  (s.sent.filter fun m => m.launch = some k ∧ m.sock = sock).map (·.msg)

structure ClientInv (s : State) : Prop where
  tagged : ∀ m ∈ s.sent, ∀ k, m.launch = some k →
    k < s.children.length ∧ m.sock = s.communicationSocket
  launching : ∀ l, s.mode = .launching l →
    l.launch < s.children.length ∧ l.sock = s.communicationSocket

theorem clientInv_init (heap : Nat → ProcessInfo) (nfds : Nat) (sock : Fd) (port : Nat) :
    ClientInv (.init heap nfds sock port) := by
  refine ⟨?_, ?_⟩ <;> simp [State.init]

theorem ClientInv.of_sent {ms : List Sent} (h : ClientInv s)
    (hlen : s.children.length ≤ s'.children.length)
    (hsock : s'.communicationSocket = s.communicationSocket) (hsent : s'.sent = s.sent ++ ms)
    (hms : ∀ m ∈ ms, ∀ k, m.launch = some k → k < s.children.length ∧ m.sock = s.communicationSocket)
    (hmode : ∀ l, s'.mode = .launching l →
      l.launch < s'.children.length ∧ l.sock = s.communicationSocket) : ClientInv s' := by
  refine ⟨?_, ?_⟩
  · intro m hm k hk
    rw [hsent] at hm
    rw [hsock]
    rcases List.mem_append.mp hm with hm | hm
    · obtain ⟨hlt, heq⟩ := h.tagged m hm k hk
      exact ⟨by omega, heq⟩
    · obtain ⟨hlt, heq⟩ := hms m hm k hk
      exact ⟨by omega, heq⟩
  · intro l hl
    rw [hsock]
    exact hmode l hl

theorem clientInv_handled {pid : Pid} {launch : Option Nat} {exitStatus : Nat} (h : ClientInv s)
    (hh : Handled s l s' pid launch exitStatus) (hlen : s'.children.length = s.children.length)
    (hlaunch : ∀ k, launch = some k → k < s.children.length) : ClientInv s' := by
  refine h.of_sent hlen.ge hh.sock hh.sent ?_ (by rw [hh.mode]; simp)
  intro m hm k hk
  rw [List.mem_singleton] at hm
  subst hm
  exact ⟨hlaunch k hk, rfl⟩

theorem clientInv_step (h : ClientInv s) (hp : PipesInv s) (hg : OneClient s l) (he : Effect s l s') :
    ClientInv s' := by
  cases he with
  | child hc hact =>
    refine h.of_sent (by simp) rfl (List.append_nil _).symm (by simp) ?_
    intro l hl
    obtain ⟨hlt, heq⟩ := h.launching l hl
    exact ⟨by simpa using hlt, heq⟩
  | quiet hq hcl hbusy =>
    obtain ⟨ms, hms, hnone⟩ := hq.sent
    have hmode : ∀ l', s'.mode = .launching l' → s.mode = .launching l' := by
      intro l' hl'
      rcases hq.mode with hm | ⟨-, hm⟩
      · rw [← hm]; exact hl'
      · rw [hm] at hl'; cases hl'
    rcases hq.sock with hsock | ⟨fd, rfl⟩
    · refine h.of_sent (by rw [hq.children]) hsock hms ?_ ?_
      · intro m hm k hk
        rw [hnone m hm] at hk; cases hk
      · intro l' hl'
        rw [hq.children]
        exact h.launching l' (hmode l' hl')
    · -- a new connection comes before the first launch
      have hnil : s.children = [] := hg.1 rfl
      refine ⟨?_, ?_⟩
      · intro m hm k hk
        rw [hms] at hm
        rcases List.mem_append.mp hm with hm | hm
        · have := (h.tagged m hm k hk).1
          simp [hnil] at this
        · rw [hnone m hm] at hk; cases hk
      · intro l' hl'
        have := (h.launching l' (hmode l' hl')).1
        simp [hnil] at this
  | epollWait hmode hnodup hready => exact ⟨h.tagged, h.launching⟩
  | blocks hmode hbatch hpend hc hpid hun halive => exact ⟨h.tagged, by simp⟩
  | reaps hh hc hpid hz hch =>
    refine clientInv_handled h hh (by rw [hch, List.length_set]) ?_
    intro k hk
    cases hk
    exact (List.getElem?_eq_some_iff.mp hc).1
  | fails hh hnone hch =>
    refine clientInv_handled h hh (by rw [hch]) ?_
    intro k hk
    obtain ⟨c, hc, -⟩ := State.latest_eq_some hk
    exact (List.getElem?_eq_some_iff.mp hc).1
  | @execve foreign success e rest hmode hbatch hfree hread =>
    refine h.of_sent le_rfl rfl rfl ?_ fun l' hl' => h.launching l' hl'
    intro m hm k hk
    rw [List.mem_singleton] at hm
    subst hm
    cases hk
    obtain ⟨c, hc, -, -⟩ := hp.child e (hp.batch e (by rw [hbatch]; simp))
    exact ⟨(List.getElem?_eq_some_iff.mp hc).1, rfl⟩
  | clones hmode hbatch hkept hnew hpid =>
    refine h.of_sent (by simp) rfl (List.append_nil _).symm (by simp) ?_
    intro l' hl'
    cases hl'
    have hhead : s.batch.head? = some (.sockMessage s.communicationSocket) := hg.2 rfl
    rw [hbatch] at hhead
    simp only [List.head?_cons, Option.some.injEq, Ready.sockMessage.injEq] at hhead
    exact ⟨by simp, hhead⟩
  | launched hmode =>
    obtain ⟨hlt, heq⟩ := h.launching _ hmode
    refine h.of_sent le_rfl rfl rfl ?_ (by simp)
    intro m hm k hk
    rcases List.mem_cons.mp hm with rfl | hm
    · cases hk
      exact ⟨hlt, heq⟩
    · rw [mem_surveillanceAcks hm] at hk; cases hk

theorem ClientInv.client_eq (h : ClientInv s) {sock : Fd} {k : Nat} {m : Msg}
    (hm : ⟨sock, m, some k⟩ ∈ s.sent) : s.client sock k = s.log k := by
  have hsock : sock = s.communicationSocket := (h.tagged _ hm k rfl).2
  unfold State.client State.log
  congr 1
  apply List.filter_congr
  intro m' hm'
  simp only [decide_eq_decide, and_iff_left_iff_imp]
  intro hk
  rw [hsock]
  exact (h.tagged m' hm' k hk).2

/-! ## The exit code of a failed `execve` -/

/-- A child leaves with the number that it wrote, modulo 256. -/
def LeavesWithErrno (c : Child) : Prop :=
  ∀ errno err status, c.phase = .reported errno err →
    c.life = .zombie (.exited status) ∨ c.life = .reaped (.exited status) → status = err % 256

theorem leavesWithErrno_of_alive {c : Child} (h : c.dead = false) : LeavesWithErrno c := by
  intro errno err status _ hl
  rcases hl with hl | hl <;> simp [Child.dead, hl] at h

theorem leavesWithErrno_step {c c' : Child} {act : ChildAct} (hact : c.step act = some c') :
    LeavesWithErrno c' := by
  intro errno err status hphase hl
  have hdead : c'.dead = true := by rcases hl with hl | hl <;> simp [Child.dead, hl]
  obtain ⟨⟨st, rfl⟩, hsame⟩ := Child.step_dead hact hdead
  simp only [Child.step] at hact
  split at hact
  · rename_i hmay
    cases hact
    rcases hl with hl | hl
    · cases hl
      have hphase' : c.phase = .reported errno err := hphase
      simp only [Child.mayExit, hphase', Bool.and_eq_true, decide_eq_true_eq] at hmay
      exact hmay.2
    · cases hl
  · cases hact

theorem leavesWithErrno_of_reach {guard : State → Label → Prop} {heap : Nat → ProcessInfo} {nfds : Nat}
    {sock : Fd} {port : Nat} (hr : Lts.Reach step guard (.init heap nfds sock port) s) :
    ∀ (k : Nat) (c : Child), s.children[k]? = some c → LeavesWithErrno c := by
  refine hr.invariant (P := fun s => ∀ (k : Nat) (c : Child), s.children[k]? = some c → LeavesWithErrno c)
    (fun k c hc => by cases hc) ?_
  intro s l s' _ h _ hs k c hc
  cases step_effect hs with
  | child hd hact =>
    rcases getElem?_set_some hc with ⟨-, rfl⟩ | ⟨-, hc⟩
    · exact leavesWithErrno_step hact
    · exact h k c hc
  | quiet hq hcl hbusy => rw [hq.children] at hc; exact h k c hc
  | epollWait hmode hnodup hready => exact h k c hc
  | blocks hmode hbatch hpend hc' hpid hun halive => exact h k c hc
  | reaps hh hd hpid hz hch =>
    rw [hch] at hc
    rcases getElem?_set_some hc with ⟨rfl, rfl⟩ | ⟨-, hc⟩
    · intro errno err status hphase hl
      refine h _ _ hd errno err status hphase (.inl ?_)
      rcases hl with hl | hl
      · cases hl
      · rw [hz, Life.reaped.inj hl]
    · exact h k c hc
  | fails hh hnone hch => rw [hch] at hc; exact h k c hc
  | execve hmode hbatch hfree hread => exact h k c hc
  | clones hmode hbatch hkept hnew hpid =>
    rcases getElem?_append_some hc with hc | ⟨-, rfl⟩
    · exact h k c hc
    · exact leavesWithErrno_of_alive rfl
  | launched hmode => exact h k c hc

/-! ## What the C daemon sends -/

/-- In a clean run the messages about a reaped child are determined by what happened to it. -/
theorem log_of_reaped {heap : Nat → ProcessInfo} {nfds : Nat} {sock : Fd} {port : Nat}
    (hr : Lts.Reach step Clean (.init heap nfds sock port) s) {k : Nat} {c : Child} {status : WaitStatus}
    (hc : s.children[k]? = some c) (hlife : c.life = .reaped status) :
    ∃ success, s.log k = [.processLaunched c.pid, .execveTerminated c.pid c.path success,
      .processTerminated c.pid status.exitStatus] ∧
      if success = true then c.phase = .execd else c.phase.failed = true := by
  have hterm := (termInv_of_reach (hr.mono fun _ _ hg => hg.1)).reported k c status hc hlife
  have horder := (orderInv_of_reach (hr.mono fun _ _ hg => hg.2.1)).ordered k
  obtain ⟨-, hlogs⟩ := launchInv_of_reach (hr.mono fun _ _ hg => hg.2.1.kept)
  have htruth := (truthInv_of_reach (hr.mono fun _ _ hg => hg.2.2.1)).truthful k c hc
  have hnot : ¬ s.InProgress k := by
    rintro ⟨l, hmode, rfl⟩
    rw [State.terminations, hlogs.launching l hmode] at hterm
    cases hterm
  obtain ⟨rest, hlog, hrest⟩ := hlogs.shape k c hc hnot
  have honce := hlogs.execves_le_one hc hnot
  rw [State.terminations, hlog] at hterm
  rw [State.execves, hlog] at honce
  cases rest with
  | nil => cases hterm
  | cons m rest =>
    rcases hrest m (by simp) with ⟨success, rfl⟩ | hm
    · -- the rest is only terminations, and there is one
      have hnone : ∀ m ∈ rest, m.isProcessTerminated = true := by
        intro m hm
        rcases hrest m (List.mem_cons_of_mem _ hm) with ⟨b, rfl⟩ | hpt
        · have hin : Msg.execveTerminated c.pid c.path b ∈ rest.filter Msg.isExecveTerminated :=
            List.mem_filter.mpr ⟨hm, rfl⟩
          have := List.length_pos_of_mem hin
          simp only [List.filter_cons, Msg.isExecveTerminated, if_true, List.length_cons,
            Bool.false_eq_true, if_false] at honce
          omega
        · exact hpt
      have hall : rest.filter Msg.isProcessTerminated = rest := List.filter_eq_self.mpr hnone
      have hone : rest = [.processTerminated c.pid status.exitStatus] := by
        rw [← hall]
        simpa [Msg.isProcessTerminated] using hterm
      subst hone
      refine ⟨success, hlog, ?_⟩
      cases success with
      | true => exact htruth.success c.pid c.path (by rw [hlog]; simp)
      | false => exact htruth.failure c.pid c.path (by rw [hlog]; simp)
    · obtain ⟨m', hm', het⟩ := horder [.processLaunched c.pid] m rest hlog hm
      rw [List.mem_singleton] at hm'
      subst hm'
      cases het

/-- What the operating system makes of a command. -/
inductive Outcome where
  | cannotCreate (errno : Nat)
  | execveFails (errno : Nat)
  | exits (code : Nat)
  | killed (sig : Nat)
deriving DecidableEq, Repr

/-- The outcome of a child that is gone; one that died before the outcome of its `execve` has
none. -/
def Outcome.of : Phase → WaitStatus → Option Outcome
  | .execd, .exited code => some (.exits code)
  | .execd, .signaled sig => some (.killed sig)
  | .reported errno _, .exited _ => some (.execveFails errno)
  | _, _ => none

/-- `msgs` is what the C daemon sends the requesting client about a command with an empty
`to_watch`. The client of a launch is the one its `ProcessLaunched` went to. -/
inductive CSends (path : String) : Outcome → List Msg → Prop where
  | cannotCreate {s s' : State} {sock : Fd} {rest : List Ready} {com : Command} {os : LaunchOs}
      {errno : Nat} (hbatch : s.batch = .sockMessage sock :: rest)
      (hs : step s (.runCommand com os) = some s') (hpath : com.path = path)
      (hwatch : com.toWatch = []) (hos : os.creationErrno = some errno) :
      CSends path (.cannotCreate errno)
        (((s'.sent.drop s.sent.length).filter fun m => m.sock = sock).map (·.msg))
  | ran {heap : Nat → ProcessInfo} {nfds port : Nat} {garbageSock sock : Fd} {s : State} {k : Nat}
      {c : Child} {status : WaitStatus} {outcome : Outcome}
      (hr : Lts.Reach step Clean (.init heap nfds garbageSock port) s) (hc : s.children[k]? = some c)
      (hpath : c.path = path) (hlife : c.life = .reaped status)
      (hout : Outcome.of c.phase status = some outcome)
      (hsock : ⟨sock, .processLaunched c.pid, some k⟩ ∈ s.sent) :
      CSends path outcome (s.client sock k)

/-- The messages of the C daemon, by outcome; `err` is what a child whose `execve` failed wrote. -/
def cMessages (pid : Pid) (path : String) (err : Nat) : Outcome → List Msg
  | .cannotCreate errno => [.childCreationError errno]
  | .execveFails _ =>
    [.processLaunched pid, .execveTerminated pid path false, .processTerminated pid (err % 256)]
  | .exits code =>
    [.processLaunched pid, .execveTerminated pid path true, .processTerminated pid code]
  | .killed sig =>
    [.processLaunched pid, .execveTerminated pid path true, .processTerminated pid sig]

theorem clientInv_of_reach {heap : Nat → ProcessInfo} {nfds port : Nat} {sock : Fd}
    (hr : Lts.Reach step Clean (.init heap nfds sock port) s) : ClientInv s :=
  hr.invariant (clientInv_init heap nfds sock port) fun _ _ _ hr h hg hs =>
    clientInv_step h (launchInv_of_reach (hr.mono fun _ _ hg => hg.2.1.kept)).pipes hg.2.2.2 (step_effect hs)

theorem sent_of_creation_fails {sock : Fd} {rest : List Ready} {com : Command} {os : LaunchOs}
    {errno : Nat} (hbatch : s.batch = .sockMessage sock :: rest)
    (hs : step s (.runCommand com os) = some s') (hwatch : com.toWatch = [])
    (hos : os.creationErrno = some errno) :
    s'.sent = s.sent ++ [⟨sock, .childCreationError errno, none⟩] := by
  cases step_cases hs with
  | runCommand hmode hbatch' hcase =>
    rw [hbatch] at hbatch'
    cases hbatch'
    cases hcase with
    | fails hos' hleft =>
      rw [hos] at hos'
      cases hos'
      simp [State.launchFails, surveillanceAcks, hwatch]
    | pipeFails | clones => cases hos

theorem cMessages_of_csends {path : String} {outcome : Outcome} {msgs : List Msg}
    (h : CSends path outcome msgs) : ∃ pid err, msgs = cMessages pid path err outcome := by
  cases h with
  | cannotCreate hbatch hs hpath hwatch hos =>
    refine ⟨0, 0, ?_⟩
    rw [sent_of_creation_fails hbatch hs hwatch hos, List.drop_left]
    simp [cMessages]
  | @ran heap nfds port garbageSock sock s k c status _ hr hc hpath hlife hout hsock =>
    rw [(clientInv_of_reach hr).client_eq hsock]
    obtain ⟨success, hlog, hphase⟩ := log_of_reaped hr hc hlife
    have herrno := leavesWithErrno_of_reach hr k c hc
    rw [hlog, hpath]
    refine ⟨c.pid, ?_⟩
    cases hp : c.phase with
    | execd =>
      have hs : success = true := by
        cases success with
        | true => rfl
        | false => simp [hp, Phase.failed] at hphase
      subst hs
      cases status with
      | exited code => simp only [hp, Outcome.of, Option.some.injEq] at hout; subst hout; exact ⟨0, rfl⟩
      | signaled sig => simp only [hp, Outcome.of, Option.some.injEq] at hout; subst hout; exact ⟨0, rfl⟩
    | reported errno err =>
      have hs : success = false := by
        cases success with
        | true => simp [hp] at hphase
        | false => rfl
      subst hs
      cases status with
      | exited code =>
        simp only [hp, Outcome.of, Option.some.injEq] at hout
        subst hout
        rw [herrno errno err code hp (.inr hlife)]
        exact ⟨err, rfl⟩
      | signaled sig => simp [hp, Outcome.of] at hout
    | beforeExecve => simp [hp, Outcome.of] at hout
    | execveFailed errno => simp [hp, Outcome.of] at hout

/-! ## The comparison -/

def Msg.rename (f : Pid → Pid) : Msg → Msg
  | .execveTerminated pid commandName success => .execveTerminated (f pid) commandName success
  | .processLaunched pid => .processLaunched (f pid)
  | .processTerminated pid errorCode => .processTerminated (f pid) errorCode
  | m => m

/-- Equal up to an injective renaming of the pids. -/
def SameUpToPids (ms ms' : List Msg) : Prop :=
  ∃ f : Pid → Pid, Function.Injective f ∧ ms' = ms.map (Msg.rename f)

/-- What `spawn` returns to the Rust daemon: an `execve` that fails is an error of `spawn`. -/
def Outcome.spawn (pid : Pid) : Outcome → Rust.Spawn
  | .cannotCreate errno | .execveFails errno => .failed (.os errno)
  | .exits code => .spawned pid (.ok (.exited code))
  | .killed sig => .spawned pid (.ok (.signaled sig))

/-- What the Rust daemon sends about a command with an empty `to_watch`. -/
def rustMessages (daemonPid pid : Pid) (path : String) (outcome : Outcome) : List Msg :=
  (Rust.handleRunCommand daemonPid path (outcome.spawn pid) []).msgs

theorem sameUpToPids_launched (p q : Pid) (path : String) (code code' : Nat) :
    SameUpToPids
      [.processLaunched p, .execveTerminated p path true, .processTerminated p code]
      [.processLaunched q, .execveTerminated q path true, .processTerminated q code'] ↔ code' = code := by
  constructor
  · rintro ⟨f, -, heq⟩
    simp only [List.map_cons, List.map_nil, Msg.rename, List.cons.injEq, Msg.processTerminated.injEq] at heq
    exact heq.2.2.1.2
  · rintro rfl
    refine ⟨Equiv.swap p q, (Equiv.swap p q).injective, ?_⟩
    simp [Msg.rename]

theorem rustMessages_failed (daemonPid : Pid) (path : String) (errno : Nat) :
    (Rust.handleRunCommand daemonPid path (.failed (.os errno)) []).msgs =
      if errno = Rust.enoent then
        [.processLaunched daemonPid, .execveTerminated daemonPid path false, .processTerminated 0 1]
      else [.processLaunched daemonPid, .childCreationError errno, .processTerminated 0 errno] := by
  rw [Rust.handleRunCommand_msgs_of_returns rfl]
  by_cases he : errno = Rust.enoent
  · subst he; rfl
  · simp [Rust.launch, he, Rust.terminated, Rust.SpawnError.rawOsError, Rust.handleSurveillanceEvents,
      Rust.sends]

/-- The daemons tell a client the same exactly when the program exits with a code or is killed by
signal 1. -/
theorem interchangeable_iff {path : String} {outcome : Outcome} {msgs : List Msg} {daemonPid : Pid}
    (hdaemon : 0 < daemonPid) (pid : Pid) (h : CSends path outcome msgs) :
    SameUpToPids msgs (rustMessages daemonPid pid path outcome) ↔
      (∃ code, outcome = .exits code) ∨ outcome = .killed 1 := by
  obtain ⟨p, err, rfl⟩ := cMessages_of_csends h
  cases outcome with
  | cannotCreate errno =>
    refine iff_of_false ?_ (by simp)
    rintro ⟨f, -, heq⟩
    rw [rustMessages, Outcome.spawn, rustMessages_failed] at heq
    split at heq <;> simp [cMessages] at heq
  | execveFails errno =>
    refine iff_of_false ?_ (by simp)
    rintro ⟨f, -, heq⟩
    rw [rustMessages, Outcome.spawn, rustMessages_failed] at heq
    split at heq
    · -- the pid of the daemon and the pid 0 would be one pid of the C daemon
      simp only [cMessages, List.map_cons, List.map_nil, Msg.rename, List.cons.injEq,
        Msg.processLaunched.injEq, Msg.processTerminated.injEq] at heq
      obtain ⟨hfp, -, ⟨hfp', -⟩, -⟩ := heq
      exact absurd (hfp'.trans hfp.symm) hdaemon.ne
    · simp [cMessages, Msg.rename] at heq
  | exits code =>
    refine iff_of_true ?_ (.inl ⟨code, rfl⟩)
    exact (sameUpToPids_launched p pid path code code).mpr rfl
  | killed sig =>
    have hiff := sameUpToPids_launched p pid path sig 1
    refine hiff.trans ⟨fun hs => .inr (by rw [hs]), ?_⟩
    intro hs
    rcases hs with ⟨code, hs⟩ | hs
    · cases hs
    · exact (Outcome.killed.inj hs).symm

/-- One launch, exec'd, and gone with `status`. -/
def runsAndEnds (status : WaitStatus) : List Label :=
  connects ++ launches "A" 9 (10, 11) 20 ++ execs 0 "A" 10 20 ++ [.child 0 (.exit status)] ++ handlesSignal

/-- A program killed by SIGKILL: the C daemon reports 9, the Rust daemon 1. -/
theorem sigkill_told_differently :
    CSends "A" (.killed 9)
        [.processLaunched 20, .execveTerminated 20 "A" true, .processTerminated 20 9] ∧
      rustMessages 500 501 "A" (.killed 9) =
        [.processLaunched 501, .execveTerminated 501 "A" true, .processTerminated 501 1] ∧
      ¬ SameUpToPids [.processLaunched 20, .execveTerminated 20 "A" true, .processTerminated 20 9]
        (rustMessages 500 501 "A" (.killed 9)) := by
  refine ⟨?_, rfl, ?_⟩
  · obtain ⟨s, hs, hp⟩ := Lts.exists_of_run_map
      (p := fun s : State => s.children[0]? == some ⟨20, "A", .reaped (.signaled 9), .execd⟩ &&
        decide ((⟨8, .processLaunched 20, some 0⟩ : Sent) ∈ s.sent) && s.client 8 0 ==
          [.processLaunched 20, .execveTerminated 20 "A" true, .processTerminated 20 9])
      (show (Lts.run (Lts.guarded Clean step) .start (runsAndEnds (.signaled 9))).map _ = some true by
        decide +kernel)
    simp only [Bool.and_eq_true, beq_iff_eq, decide_eq_true_eq] at hp
    obtain ⟨⟨hc, hsock⟩, hclient⟩ := hp
    have hsends := CSends.ran (Lts.reach_of_run hs) hc rfl rfl rfl hsock
    rw [hclient] at hsends
    exact hsends
  · rintro ⟨f, -, heq⟩
    have hrust : rustMessages 500 501 "A" (.killed 9) =
      [.processLaunched 501, .execveTerminated 501 "A" true, .processTerminated 501 1] := rfl
    rw [hrust] at heq
    simp [Msg.rename] at heq

/-- A program that exits with code 3 is told alike. -/
theorem exit_told_alike :
    ∃ msgs, CSends "A" (.exits 3) msgs ∧ SameUpToPids msgs (rustMessages 500 501 "A" (.exits 3)) := by
  obtain ⟨s, hs, hp⟩ := Lts.exists_of_run_map
    (p := fun s : State => s.children[0]? == some ⟨20, "A", .reaped (.exited 3), .execd⟩ &&
      decide ((⟨8, .processLaunched 20, some 0⟩ : Sent) ∈ s.sent))
    (show (Lts.run (Lts.guarded Clean step) .start (runsAndEnds (.exited 3))).map _ = some true by
      decide +kernel)
  simp only [Bool.and_eq_true, beq_iff_eq, decide_eq_true_eq] at hp
  obtain ⟨hc, hsock⟩ := hp
  have hsends : CSends "A" (.exits 3) (s.client 8 0) :=
    CSends.ran (Lts.reach_of_run hs) hc rfl rfl rfl hsock
  exact ⟨_, hsends, (interchangeable_iff (show (0 : Pid) < 500 by decide) 501 hsends).mpr (.inl ⟨3, rfl⟩)⟩

end ProcCtrld
