import ProcCtrld.Launch

/-!
# ProcCtrld.ExecveReport

Whether `ExecveTerminated` tells the truth. The daemon takes the end of file on the notification
pipe for success, and the pipe also ends when the child dies. `execve_terminated_truthful` proves
that the message is right in every run in which a child dies only after its `execve` has succeeded or
after it has written its errno to the pipe, and no `close` hits a registered pipe (`DiesTold`). A
child killed before it gets to `execve` is reported as a success (`killed_before_execve_succeeds`).
-/

namespace ProcCtrld

variable {s s' : State} {l : Label}

/-- `success` is true only after a successful `execve`, and false only after a failed one. -/
structure Truthful (log : List Msg) (phase : Phase) : Prop where
  success : ∀ pid path, .execveTerminated pid path true ∈ log → phase = .execd
  failure : ∀ pid path, .execveTerminated pid path false ∈ log → phase.failed = true

/-- A child dies only once its pipe tells the outcome of its `execve`. -/
def DiesTold (s : State) (l : Label) : Prop :=
  PipesUnhit s l ∧ l.Ordinary ∧ ∀ k ∈ l.exit, ∀ c ∈ s.children[k]?, c.phase.told = true

instance (s : State) (l : Label) : Decidable (DiesTold s l) :=
  inferInstanceAs (Decidable (PipesUnhit s l ∧ l.Ordinary ∧
    ∀ k ∈ l.exit, ∀ c ∈ s.children[k]?, c.phase.told = true))

structure TruthInv (s : State) : Prop where
  pipes : PipesInv s
  fresh : ∀ k, s.children.length ≤ k → s.log k = []
  truthful : ∀ (k : Nat) (c : Child), s.children[k]? = some c → Truthful (s.log k) c.phase
  told : ∀ (k : Nat) (c : Child), s.children[k]? = some c → c.dead = true → c.phase.told = true

theorem truthInv_init (heap : Nat → ProcessInfo) (nfds : Nat) (sock : Fd) (port : Nat) :
    TruthInv (.init heap nfds sock port) := by
  refine ⟨pipesInv_init heap nfds sock port, fun _ _ => rfl, ?_, ?_⟩ <;> simp [State.init]

theorem truthful_nil (phase : Phase) : Truthful [] phase := ⟨by simp, by simp⟩

theorem Truthful.append {log ms : List Msg} {phase : Phase} (h : Truthful log phase)
    (hms : ∀ m ∈ ms, m.isExecveTerminated = false) : Truthful (log ++ ms) phase := by
  have old : ∀ pid path success, Msg.execveTerminated pid path success ∈ log ++ ms →
      Msg.execveTerminated pid path success ∈ log := by
    intro pid path success hm
    rcases List.mem_append.mp hm with hm | hm
    · exact hm
    · exact absurd (hms _ hm) (by simp [Msg.isExecveTerminated])
  exact ⟨fun pid path hm => h.success pid path (old _ _ _ hm),
    fun pid path hm => h.failure pid path (old _ _ _ hm)⟩

theorem Truthful.step {log : List Msg} {c c' : Child} {act : ChildAct} (h : Truthful log c.phase)
    (hact : c.step act = some c') : Truthful log c'.phase :=
  ⟨fun pid path hm => Child.step_phase_execd hact (h.success pid path hm),
    fun pid path hm => Child.step_phase_failed hact (h.failure pid path hm)⟩

/-- The steps that send no `ExecveTerminated` about a launch and leave the children as they are. -/
theorem TruthInv.of_log (h : TruthInv s) (hp : PipesInv s') (hch : s'.children = s.children)
    (hlog : ∀ k, ∃ ms, s'.log k = s.log k ++ ms ∧ (∀ m ∈ ms, m.isExecveTerminated = false) ∧
      (s.children.length ≤ k → ms = [])) : TruthInv s' := by
  refine ⟨hp, ?_, ?_, by rw [hch]; exact h.told⟩
  · intro k hk
    rw [hch] at hk
    obtain ⟨ms, hms, -, hnil⟩ := hlog k
    rw [hms, hnil hk, h.fresh k hk]
    rfl
  · intro k c hc
    rw [hch] at hc
    obtain ⟨ms, hms, hnot, -⟩ := hlog k
    rw [hms]
    exact (h.truthful k c hc).append hnot

theorem TruthInv.of_log_eq (h : TruthInv s) (hp : PipesInv s') (hch : s'.children = s.children)
    (hlog : ∀ k, s'.log k = s.log k) : TruthInv s' :=
  h.of_log hp hch fun k => ⟨[], by rw [hlog, List.append_nil], by simp, fun _ => rfl⟩

theorem Handled.log_tail {pid : Pid} {launch : Option Nat} {exitStatus : Nat}
    (hh : Handled s l s' pid launch exitStatus)
    (hlaunch : ∀ k, launch = some k → k < s.children.length) (k : Nat) :
    ∃ ms, s'.log k = s.log k ++ ms ∧ (∀ m ∈ ms, m.isExecveTerminated = false) ∧
      (s.children.length ≤ k → ms = []) := by
  refine ⟨_, hh.log k, ?_, ?_⟩
  · split <;> simp [Msg.isExecveTerminated]
  · intro hk
    rw [if_neg]
    intro he
    have := hlaunch k he
    omega

theorem truthInv_child {k : Nat} {act : ChildAct} {c c' : Child} {pending : Option Pid} (h : TruthInv s)
    (hg : DiesTold s (.child k act)) (hc : s.children[k]? = some c) (hact : c.step act = some c')
    (hp : PipesInv { s with children := s.children.set k c', pending := pending }) :
    TruthInv { s with children := s.children.set k c', pending := pending } := by
  refine ⟨hp, ?_, ?_, ?_⟩
  · intro j hj
    exact h.fresh j (by simpa using hj)
  · intro j d hd
    rcases getElem?_set_some hd with ⟨rfl, rfl⟩ | ⟨-, hd⟩
    · exact (h.truthful j c hc).step hact
    · exact h.truthful j d hd
  · intro j d hd hdead
    rcases getElem?_set_some hd with ⟨rfl, rfl⟩ | ⟨-, hd⟩
    · obtain ⟨⟨status, rfl⟩, hphase⟩ := Child.step_dead hact hdead
      rw [hphase]
      exact hg.2.2 _ rfl c hc
    · exact h.told j d hd hdead

/-- What the EXECVE case reads is what happened. -/
theorem truthful_of_read {c : Child} {success : Bool} (htold : c.dead = true → c.phase.told = true)
    (hread : c.readPipe.map Option.isNone = some success) :
    if success = true then c.phase = .execd else c.phase.failed = true := by
  unfold Child.readPipe at hread
  split at hread
  · rename_i errno hphase
    cases hread
    simp [hphase, Phase.failed]
  · rename_i hphase
    cases hread
    simp [hphase]
  · rename_i hr he
    split at hread
    · rename_i hdead
      have := htold hdead
      cases hphase : c.phase <;> simp_all [Phase.told]
    · cases hread

theorem truthInv_execve {e : PipeExecve} {rest : List Ready} {success foreign : Bool} {sock : Fd}
    (h : TruthInv s) (hbatch : s.batch = .execve e :: rest)
    (hread : s.readExecve e.fd foreign = some success)
    (hch : s'.children = s.children) (hp : PipesInv s')
    (hsent : s'.sent = s.sent ++ [⟨sock, .execveTerminated e.pid e.path success, some e.launch⟩]) :
    TruthInv s' := by
  have he : e ∈ s.pipes := h.pipes.batch e (by rw [hbatch]; simp)
  obtain ⟨c, hc, -, -⟩ := h.pipes.child e he
  have hlt := (List.getElem?_eq_some_iff.mp hc).1
  have hother : ∀ k, k ≠ e.launch → s'.log k = s.log k := fun k =>
    log_of_tagged_ne hsent (about_nil k)
  have hself : s'.log e.launch = s.log e.launch ++ [.execveTerminated e.pid e.path success] :=
    log_of_tagged hsent (about_nil _)
  have hphase : if success = true then c.phase = .execd else c.phase.failed = true := by
    refine truthful_of_read (h.told _ c hc) ?_
    simpa [State.readExecve, h.pipes.fds e he, hc] using hread
  refine ⟨hp, ?_, ?_, by rw [hch]; exact h.told⟩
  · intro k hk
    rw [hch] at hk
    rw [hother k (by omega)]
    exact h.fresh k hk
  · intro k d hd
    rw [hch] at hd
    by_cases hk : k = e.launch
    · subst hk
      rw [hc] at hd; cases hd
      have hold := h.truthful _ c hc
      rw [hself]
      refine ⟨?_, ?_⟩
      · intro pid path hm
        rcases List.mem_append.mp hm with hm | hm
        · exact hold.success pid path hm
        · rw [List.mem_singleton] at hm
          cases hm
          simpa using hphase
      · intro pid path hm
        rcases List.mem_append.mp hm with hm | hm
        · exact hold.failure pid path hm
        · rw [List.mem_singleton] at hm
          cases hm
          simpa using hphase
    · rw [hother k hk]
      exact h.truthful k d hd

theorem truthInv_step (h : TruthInv s) (hg : DiesTold s l) (he : Effect s l s') : TruthInv s' := by
  have hp := pipesInv_step h.pipes hg.1 he
  cases he with
  | child hc hact => exact truthInv_child h hg hc hact hp
  | quiet hq hcl hbusy => exact h.of_log_eq hp hq.children hq.log
  | epollWait hmode hnodup hready => exact h.of_log_eq hp rfl fun _ => rfl
  | blocks hmode hbatch hpend hc hpid hun halive => exact h.of_log_eq hp rfl fun _ => rfl
  | @reaps l s' pid c k status hh hc hpid hz hch =>
    have hlt := (List.getElem?_eq_some_iff.mp hc).1
    have htail := hh.log_tail fun j hj => by cases hj; exact hlt
    refine ⟨hp, ?_, ?_, ?_⟩
    · intro j hj
      rw [hch, List.length_set] at hj
      obtain ⟨ms, hms, -, hnil⟩ := htail j
      rw [hms, hnil hj, h.fresh j hj]
      rfl
    · intro j d hd
      rw [hch] at hd
      obtain ⟨ms, hms, hnot, -⟩ := htail j
      rw [hms]
      rcases getElem?_set_some hd with ⟨rfl, rfl⟩ | ⟨-, hd⟩
      · exact (h.truthful j c hc).append hnot
      · exact (h.truthful j d hd).append hnot
    · intro j d hd hdead
      rw [hch] at hd
      rcases getElem?_set_some hd with ⟨rfl, rfl⟩ | ⟨-, hd⟩
      · exact h.told j c hc (by simp [Child.dead, hz])
      · exact h.told j d hd hdead
  | fails hh hnone hch =>
    refine h.of_log hp hch (hh.log_tail ?_)
    intro j hj
    obtain ⟨c, hc, -⟩ := State.latest_eq_some hj
    exact (List.getElem?_eq_some_iff.mp hc).1
  | execve hmode hbatch hfree hread => exact truthInv_execve h hbatch hread rfl hp rfl
  | clones hmode hbatch hkept hnew hpid =>
    refine ⟨hp, ?_, ?_, ?_⟩
    · intro j hj
      exact h.fresh j (by simp at hj; omega)
    · intro j d hd
      rcases getElem?_append_some hd with hd | ⟨rfl, rfl⟩
      · exact h.truthful j d hd
      · have hlog := h.fresh s.children.length le_rfl
        exact hlog ▸ truthful_nil _
    · intro j d hd hdead
      rcases getElem?_append_some hd with hd | ⟨-, rfl⟩
      · exact h.told j d hd hdead
      · cases hdead
  | @launched epollAdd l hmode =>
    obtain ⟨-, ⟨c, hc, -, -⟩, -, -⟩ := h.pipes.launching l hmode
    have hlt := (List.getElem?_eq_some_iff.mp hc).1
    refine h.of_log hp rfl fun k => ⟨_, log_of_sent rfl k, ?_, ?_⟩
    · rw [about_cons, about_surveillanceAcks]
      split <;> simp [Msg.isExecveTerminated]
    · intro hk
      rw [about_cons, about_surveillanceAcks, if_neg]
      simp only [Option.some.injEq]
      omega

theorem truthInv_of_reach {heap : Nat → ProcessInfo} {nfds : Nat} {sock : Fd} {port : Nat}
    (hr : Lts.Reach step DiesTold (.init heap nfds sock port) s) : TruthInv s :=
  hr.invariant (truthInv_init heap nfds sock port)
    fun _ _ _ _ h hg hs => truthInv_step h hg (step_effect hs)

/-- In every run in which children die told, `ExecveTerminated` tells the truth. -/
theorem execve_terminated_truthful (heap : Nat → ProcessInfo) (nfds : Nat) (sock : Fd) (port : Nat)
    (hr : Lts.Reach step DiesTold (.init heap nfds sock port) s) {k : Nat} {c : Child}
    (hc : s.children[k]? = some c) : Truthful (s.log k) c.phase :=
  (truthInv_of_reach hr).truthful k c hc

/-- The client asks to kill the child, which dies before it calls `execve`. -/
def killedBeforeExecve : List Label :=
  connects ++ launches "A" 9 (10, 11) 20 ++
    [.epollWait [.sockMessage 8], .killProcess 20, .child 0 (.exit (.signaled 9)),
     .epollWait [.execve ⟨10, 20, "A", 0⟩], .execve false]

theorem killed_before_execve_succeeds :
    ∃ s, Lts.Reachable step .start s ∧
      s.children[0]? = some ⟨20, "A", .zombie (.signaled 9), .beforeExecve⟩ ∧
      s.log 0 = [.processLaunched 20, .execveTerminated 20 "A" true] ∧
      ¬ Truthful (s.log 0) .beforeExecve := by
  obtain ⟨s, hs, hp⟩ := Lts.exists_of_run_map
    (p := fun s => s.children[0]? == some ⟨20, "A", .zombie (.signaled 9), .beforeExecve⟩ &&
      s.log 0 == [.processLaunched 20, .execveTerminated 20 "A" true])
    (show (Lts.run step .start killedBeforeExecve).map _ = some true by decide +kernel)
  simp only [Bool.and_eq_true, beq_iff_eq] at hp
  refine ⟨s, Lts.reachable_of_run hs, hp.1, hp.2, ?_⟩
  intro ht
  have := ht.success 20 "A" (by rw [hp.2]; simp)
  cases this

/-- One program that execs and one that does not exist, where `perror` leaves EINVAL in `errno`. -/
theorem exec_and_enoent_truthful :
    ∃ s, Lts.Reach step DiesTold .start s ∧
      s.log 0 = [.processLaunched 20, .execveTerminated 20 "A" true] ∧
      s.log 1 = [.processLaunched 21, .execveTerminated 21 "B" false] ∧
      s.children[1]? = some ⟨21, "B", .zombie (.exited 22), .reported 2 22⟩ ∧
      Truthful (s.log 1) (.reported 2 22) := by
  obtain ⟨s, hs, hp⟩ := Lts.exists_of_run_map
    (p := fun s => s.log 0 == [.processLaunched 20, .execveTerminated 20 "A" true] &&
      s.log 1 == [.processLaunched 21, .execveTerminated 21 "B" false] &&
      s.children[1]? == some ⟨21, "B", .zombie (.exited 22), .reported 2 22⟩)
    (show (Lts.run (Lts.guarded DiesTold step) .start
      (connects ++ launches "A" 9 (10, 11) 20 ++ launches "B" 11 (12, 13) 21 ++ execs 0 "A" 10 20 ++
        [.child 1 (.execveFails 2), .child 1 (.write 22), .child 1 (.exit (.exited 22)),
         .epollWait [.execve ⟨12, 21, "B", 1⟩], .execve false])).map _ = some true by decide +kernel)
  simp only [Bool.and_eq_true, beq_iff_eq] at hp
  obtain ⟨⟨h0, h1⟩, hc⟩ := hp
  have hreach := Lts.reach_of_run hs
  exact ⟨s, hreach, h0, h1, hc, execve_terminated_truthful _ 8 0 8080 hreach hc⟩

end ProcCtrld
