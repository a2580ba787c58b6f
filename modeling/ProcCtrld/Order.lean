import ProcCtrld.Launch

/-!
# ProcCtrld.Order

The order of `ExecveTerminated` and `ProcessTerminated`. The two notifications of a launch come
through different descriptors, the pipe and the signalfd, and the daemon handles a batch in the order
in which `epoll_wait` lists it.

`execve_terminated_first` proves the order for every run whose steps meet `InOrder`: a batch lists
the signalfd after all the pipes that are ready, a child is stopped or continued only after its
`ExecveTerminated`, a new child does not have the pid of the pending SIGCHLD, and no registered pipe
is closed. The invariant behind it is that the pending SIGCHLD names a child that is already
notified, or one that is gone and whose pipe is therefore ready.

With the signalfd first in the batch the order is the other one (`signalfd_before_pipe`).
-/

namespace ProcCtrld

variable {s s' : State} {l : Label}

/-- Every `ProcessTerminated` has an `ExecveTerminated` before it. -/
def Ordered (log : List Msg) : Prop :=
  ∀ pre m post, log = pre ++ m :: post → m.isProcessTerminated = true →
    ∃ m' ∈ pre, m'.isExecveTerminated = true

/-- No pipe comes after the signalfd. -/
def Sorted (batch : List Ready) : Prop := batch.Pairwise fun a b => a = .signalfd → b.isExecve = false

instance (batch : List Ready) : Decidable (Sorted batch) :=
  inferInstanceAs (Decidable (batch.Pairwise fun a b => a = .signalfd → b.isExecve = false))

/-- The `ExecveTerminated` of launch `k` has been sent. -/
def State.Notified (s : State) (k : Nat) : Prop := s.execves k ≠ []

instance (s : State) (k : Nat) : Decidable (s.Notified k) :=
  inferInstanceAs (Decidable (s.execves k ≠ []))

/-- A batch with the signalfd lists all pipes that are ready, before it; a child is stopped or continued
after its `ExecveTerminated`; and a new child does not get the pid that the pending SIGCHLD names. -/
structure InOrder (s : State) (l : Label) : Prop where
  kept : PipesKept s l
  batch : ∀ events ∈ l.poll, .signalfd ∈ events →
    Sorted events ∧ ∀ e ∈ s.pipes, s.ready (.execve e) = true → .execve e ∈ events
  suspend : ∀ k ∈ l.suspend, s.Notified k
  clone : ∀ x ∈ l.clone, s.pending ≠ some x.2

instance (s : State) (l : Label) : Decidable (InOrder s l) :=
  decidable_of_iff (PipesKept s l ∧ (∀ events ∈ l.poll, .signalfd ∈ events →
      Sorted events ∧ ∀ e ∈ s.pipes, s.ready (.execve e) = true → .execve e ∈ events) ∧
      (∀ k ∈ l.suspend, s.Notified k) ∧ ∀ x ∈ l.clone, s.pending ≠ some x.2)
    ⟨fun ⟨hkept, hbatch, hsuspend, hclone⟩ => ⟨hkept, hbatch, hsuspend, hclone⟩,
      fun h => ⟨h.kept, h.batch, h.suspend, h.clone⟩⟩

structure OrderInv (s : State) : Prop where
  pending : ∀ (k : Nat) (c : Child), s.children[k]? = some c → s.pending = some c.pid →
    s.Notified k ∨ c.dead = true
  waiting : ∀ (k : Nat) (c : Child), s.children[k]? = some c → s.mode = .waitpid c.pid → s.Notified k
  sorted : Sorted s.batch
  awake : .signalfd ∈ s.batch → s.pending ≠ none
  signal : ∀ (k : Nat) (c : Child), .signalfd ∈ s.batch → s.children[k]? = some c →
    s.pending = some c.pid → s.Notified k ∨ ∃ e, .execve e ∈ s.batch ∧ e.launch = k
  ordered : ∀ k, Ordered (s.log k)

theorem orderInv_init (heap : Nat → ProcessInfo) (nfds : Nat) (sock : Fd) (port : Nat) :
    OrderInv (.init heap nfds sock port) := by
  refine ⟨?_, ?_, List.Pairwise.nil, ?_, ?_, ?_⟩
  · simp [State.init]
  · simp [State.init]
  · simp [State.init]
  · simp [State.init]
  · intro k pre m post h
    simp [State.init, State.log] at h

/-! ## Logs that grow -/

theorem Ordered.append {log ms : List Msg} (h : Ordered log)
    (hms : ∀ m ∈ ms, m.isProcessTerminated = true → ∃ m' ∈ log, m'.isExecveTerminated = true) :
    Ordered (log ++ ms) := by
  intro pre m post heq hm
  rcases List.append_eq_append_iff.mp heq with ⟨a, rfl, rfl⟩ | ⟨a, hlog, hpost⟩
  · obtain ⟨m', hm', het⟩ := hms m (by simp) hm
    exact ⟨m', List.mem_append_left _ hm', het⟩
  · cases a with
    | nil =>
      rw [List.append_nil] at hlog
      rw [List.nil_append] at hpost
      subst hlog
      exact hms m (by rw [← hpost]; simp) hm
    | cons x a =>
      obtain ⟨rfl, -⟩ := List.cons.inj hpost
      exact h pre m a hlog hm

theorem State.Notified.mono {k : Nat} {ms : List Msg} (h : s.Notified k)
    (hlog : s'.log k = s.log k ++ ms) : s'.Notified k := by
  unfold State.Notified
  rw [execves_append hlog]
  intro hnil
  exact h (List.append_eq_nil_iff.mp hnil).1

theorem State.Notified.exists {k : Nat} (h : s.Notified k) :
    ∃ m ∈ s.log k, m.isExecveTerminated = true := by
  obtain ⟨m, hm⟩ := List.exists_mem_of_ne_nil _ h
  exact ⟨m, (List.mem_filter.mp hm).1, (List.mem_filter.mp hm).2⟩

/-! ## Steps -/

theorem OrderInv.sorted_tail (h : OrderInv s) {r : Ready} {rest : List Ready} (hbatch : s.batch = r :: rest) :
    Sorted rest := by
  refine h.sorted.sublist ?_
  rw [hbatch]
  exact List.sublist_cons_self r rest

/-- The head of a sorted batch is the signalfd: every child its signal names is notified. -/
theorem OrderInv.notified_of_signalfd (h : OrderInv s) {rest : List Ready}
    (hbatch : s.batch = .signalfd :: rest) {k : Nat} {c : Child} (hc : s.children[k]? = some c)
    (hpend : s.pending = some c.pid) : s.Notified k := by
  rcases h.signal k c (by rw [hbatch]; simp) hc hpend with hn | ⟨e, he, -⟩
  · exact hn
  · have hsorted := h.sorted
    rw [hbatch, Sorted, List.pairwise_cons] at hsorted
    rw [hbatch] at he
    rcases List.mem_cons.mp he with he | he
    · cases he
    · exact absurd (hsorted.1 _ he rfl) (by simp [Ready.isExecve])

theorem OrderInv.notified_of_handled {pid : Pid} {launch : Option Nat} {exitStatus : Nat}
    (h : OrderInv s) (hh : Handled s l s' pid launch exitStatus) {k : Nat} {c : Child}
    (hc : s.children[k]? = some c) (hpid : c.pid = pid) : s.Notified k := by
  rcases hh.awaited with ⟨-, hbatch, hpend, -⟩ | ⟨hmode, -⟩
  · exact h.notified_of_signalfd hbatch hc (by rw [hpid]; exact hpend)
  · exact h.waiting k c hc (by rw [hpid]; exact hmode)

/-- A handled SIGCHLD. `old` relates the children after it to those before. -/
theorem orderInv_handled {pid : Pid} {launch : Option Nat} {exitStatus : Nat} (h : OrderInv s)
    (hp : PipesInv s) (hh : Handled s l s' pid launch exitStatus)
    (old : ∀ (k : Nat) (c' : Child), s'.children[k]? = some c' → ∃ c : Child, s.children[k]? = some c ∧
      c'.pid = c.pid ∧ (c.dead = true → c'.dead = true))
    (hlaunch : ∀ k, launch = some k → ∃ c : Child, s.children[k]? = some c ∧ c.pid = pid) :
    OrderInv s' := by
  have hmono : ∀ k, s.Notified k → s'.Notified k := fun k hk => hk.mono (hh.log k)
  have hnodup := hp.nodup
  have hawait : .signalfd ∈ s'.batch → s'.batch = s.batch ∧ s'.pending = s.pending := by
    intro hin
    rcases hh.awaited with ⟨-, hbatch, -, -⟩ | ⟨-, hbatch, hpend⟩
    · rw [hbatch, List.nodup_cons] at hnodup
      exact absurd hin hnodup.1
    · exact ⟨hbatch, hpend⟩
  refine ⟨?_, ?_, ?_, ?_, ?_, ?_⟩
  · intro k c' hc' hpend'
    obtain ⟨c, hc, hpid, hdead⟩ := old k c' hc'
    rcases hh.awaited with ⟨-, -, -, hnone⟩ | ⟨-, -, hpend⟩
    · rw [hnone] at hpend'; cases hpend'
    · rcases h.pending k c hc (by rw [← hpend, hpend', hpid]) with hn | hd
      · exact .inl (hmono k hn)
      · exact .inr (hdead hd)
  · intro k c' _ hmode
    rw [hh.mode] at hmode; cases hmode
  · exact h.sorted.sublist hh.batch_suffix.sublist
  · intro hin
    obtain ⟨hbatch, hpend⟩ := hawait hin
    rw [hbatch] at hin
    rw [hpend]
    exact h.awake hin
  · intro k c' hin hc' hpend'
    obtain ⟨c, hc, hpid, -⟩ := old k c' hc'
    obtain ⟨hbatch, hpend⟩ := hawait hin
    rw [hbatch] at hin ⊢
    rcases h.signal k c hin hc (by rw [← hpend, hpend', hpid]) with hn | he
    · exact .inl (hmono k hn)
    · exact .inr he
  · intro k
    rw [hh.log k]
    refine (h.ordered k).append ?_
    intro m hm _
    split at hm
    · rename_i hk
      obtain ⟨c, hc, hpid⟩ := hlaunch k hk
      exact (h.notified_of_handled hh hc hpid).exists
    · cases hm

theorem orderInv_child {k : Nat} {act : ChildAct} {c c' : Child} (h : OrderInv s) (hd : PidsDistinct s)
    (hg : InOrder s (.child k act)) (hc : s.children[k]? = some c) (hact : c.step act = some c') :
    OrderInv { s with
      children := s.children.set k c'
      pending := if act.notifies then s.pending.or (some c.pid) else s.pending } := by
  have hpid := Child.step_pid hact
  have halive := Child.step_alive hact
  have hun := Child.unreaped_of_not_dead halive
  -- the signal that a child raises itself
  have hraised : act.notifies = true → ∀ (j : Nat) (d : Child), (s.children.set k c')[j]? = some d →
      d.pid = c.pid → s.Notified j ∨ d.dead = true := by
    intro hnot j d hdj hpid'
    rcases getElem?_set_some hdj with ⟨rfl, rfl⟩ | ⟨hjk, hdj⟩
    · cases act with
      | exit status => exact .inr (Child.step_exit_dead hact)
      | stop => exact .inl (hg.suspend _ rfl)
      | cont => exact .inl (hg.suspend _ rfl)
      | _ => cases hnot
    · right
      by_contra hdead
      rw [Bool.not_eq_true] at hdead
      exact hjk (hd j k d c hdj hc (Child.unreaped_of_not_dead hdead) hun hpid')
  have hold : ∀ (j : Nat) (d : Child), (s.children.set k c')[j]? = some d →
      ∃ d₀ : Child, s.children[j]? = some d₀ ∧ d.pid = d₀.pid ∧ (d₀.dead = true → d.dead = true) := by
    intro j d hdj
    rcases getElem?_set_some hdj with ⟨rfl, rfl⟩ | ⟨-, hdj⟩
    · exact ⟨c, hc, hpid, by rw [halive]; simp⟩
    · exact ⟨d, hdj, rfl, id⟩
  refine ⟨?_, ?_, h.sorted, ?_, ?_, h.ordered⟩
  · intro j d hdj hpend'
    obtain ⟨d₀, hd₀, hp₀, hdead₀⟩ := hold j d hdj
    rcases pending_of_act hpend' with hpend | ⟨hnot, -, hown⟩
    · rcases h.pending j d₀ hd₀ (by rw [hpend, hp₀]) with hn | hdd
      · exact .inl hn
      · exact .inr (hdead₀ hdd)
    · exact hraised hnot j d hdj hown
  · intro j d hdj hmode
    obtain ⟨d₀, hd₀, hp₀, -⟩ := hold j d hdj
    exact h.waiting j d₀ hd₀ (by rw [← hp₀]; exact hmode)
  · intro hin
    have := h.awake hin
    cases hpend : s.pending with
    | none => exact absurd hpend this
    | some q => simp
  · intro j d hin hdj hpend'
    obtain ⟨d₀, hd₀, hp₀, -⟩ := hold j d hdj
    refine h.signal j d₀ hin hd₀ ?_
    rcases pending_of_act hpend' with hpend | ⟨-, hnone, -⟩
    · rw [hpend, hp₀]
    · exact absurd hnone (h.awake hin)

/-- A new batch: a child that the pending signal names and that is not notified is gone, so that its
pipe is ready and comes before the signalfd. -/
theorem orderInv_epollWait {events : List Ready} (h : OrderInv s) (hl : LaunchInv s)
    (hg : InOrder s (.epollWait events)) (hmode : s.mode = .loop)
    (hready : ∀ r ∈ events, s.ready r = true) : OrderInv { s with batch := events } := by
  refine ⟨h.pending, h.waiting, ?_, ?_, ?_, h.ordered⟩
  · by_cases hin : .signalfd ∈ events
    · exact (hg.batch _ rfl hin).1
    · refine List.Pairwise.imp_of_mem ?_ (List.pairwise_of_forall (R := fun _ _ => True) (fun _ _ => trivial))
      rintro a b ha - - rfl
      exact absurd ha hin
  · intro hin
    have := hready _ hin
    intro hnone
    simp only at hnone
    simp [State.ready, hnone] at this
  · intro k c hin hc hpend
    rcases h.pending k c hc hpend with hn | hdead
    · exact .inl hn
    · by_cases hreg : ∃ e ∈ s.pipes, e.launch = k
      · obtain ⟨e, he, rfl⟩ := hreg
        refine .inr ⟨e, (hg.batch _ rfl hin).2 e he ?_, rfl⟩
        have hsome := Child.readPipe_isSome (.inr hdead)
        simp [State.ready, he, hc, hsome]
      · left
        have hnot : ¬ s.InProgress k := by
          rintro ⟨l, hm, -⟩
          rw [hmode] at hm; cases hm
        have hone := hl.logs.handled k (List.getElem?_eq_some_iff.mp hc).1 hnot
          fun e he hk => hreg ⟨e, he, hk⟩
        intro hnil
        rw [show s.execves k = [] from hnil] at hone
        cases hone

/-- The steps that send no `ProcessTerminated` and leave the children and the pending signal. -/
theorem OrderInv.of_log (h : OrderInv s) (hch : s'.children = s.children) (hpend : s'.pending = s.pending)
    (hmode : ∀ pid, s'.mode = .waitpid pid → s.mode = .waitpid pid) (hbatch : s'.batch <:+ s.batch)
    (hlog : ∀ k, ∃ ms, s'.log k = s.log k ++ ms ∧ ∀ m ∈ ms, m.isProcessTerminated = false)
    (hexec : ∀ e, .execve e ∈ s.batch → .execve e ∈ s'.batch ∨ s'.Notified e.launch) : OrderInv s' := by
  have hmono : ∀ k, s.Notified k → s'.Notified k := by
    intro k hk
    obtain ⟨ms, hms, -⟩ := hlog k
    exact hk.mono hms
  refine ⟨?_, ?_, h.sorted.sublist hbatch.sublist, ?_, ?_, ?_⟩
  · intro k c hc hp
    rw [hch] at hc
    rw [hpend] at hp
    rcases h.pending k c hc hp with hn | hd
    · exact .inl (hmono k hn)
    · exact .inr hd
  · intro k c hc hm
    rw [hch] at hc
    exact hmono k (h.waiting k c hc (hmode _ hm))
  · intro hin
    rw [hpend]
    exact h.awake (hbatch.subset hin)
  · intro k c hin hc hp
    rw [hch] at hc
    rw [hpend] at hp
    rcases h.signal k c (hbatch.subset hin) hc hp with hn | ⟨e, he, rfl⟩
    · exact .inl (hmono k hn)
    · rcases hexec e he with he' | hn
      · exact .inr ⟨e, he', rfl⟩
      · exact .inl hn
  · intro k
    obtain ⟨ms, hms, hnot⟩ := hlog k
    rw [hms]
    exact (h.ordered k).append fun m hm hpt => absurd (hnot m hm) (by rw [hpt]; simp)

theorem orderInv_blocks {pid : Pid} {rest : List Ready} (h : OrderInv s) (hp : PipesInv s)
    (hbatch : s.batch = .signalfd :: rest) (hpend : s.pending = some pid) :
    OrderInv { s with batch := rest, pending := none, mode := .waitpid pid } := by
  have hnodup := hp.nodup
  rw [hbatch, List.nodup_cons] at hnodup
  refine ⟨?_, ?_, h.sorted_tail hbatch, fun hin => absurd hin hnodup.1,
    fun _ _ hin => absurd hin hnodup.1, h.ordered⟩
  · intro j d _ hp
    cases hp
  · intro j d hd hm
    refine h.notified_of_signalfd hbatch hd ?_
    rw [hpend, ← Mode.waitpid.inj hm]

theorem orderInv_clones {c : Child} {sock : Fd} (h : OrderInv s) (hne : s.pending ≠ some c.pid)
    (hbatch : s.batch = .sockMessage sock :: s'.batch) (hch : s'.children = s.children ++ [c])
    (hmode : ∀ pid, s'.mode ≠ .waitpid pid) (hpend : s'.pending = s.pending)
    (hlog : ∀ k, s'.log k = s.log k) : OrderInv s' := by
  have hnotified : ∀ k, s.Notified k → s'.Notified k := fun k hk =>
    hk.mono (by rw [hlog, List.append_nil])
  have hold : ∀ (j : Nat) (d : Child), s'.children[j]? = some d → s'.pending = some d.pid →
      s.children[j]? = some d ∧ s.pending = some d.pid := by
    intro j d hd hp
    rw [hch] at hd
    rw [hpend] at hp
    rcases getElem?_append_some hd with hd | ⟨-, rfl⟩
    · exact ⟨hd, hp⟩
    · exact absurd hp hne
  have hin' : ∀ r, r ∈ s'.batch → r ∈ s.batch := by
    intro r hr
    rw [hbatch]
    exact List.mem_cons_of_mem _ hr
  refine ⟨?_, fun _ d _ hm => absurd hm (hmode d.pid), h.sorted_tail hbatch, ?_, ?_, ?_⟩
  · intro j d hd hp
    obtain ⟨hd, hp⟩ := hold j d hd hp
    exact (h.pending j d hd hp).imp_left (hnotified j)
  · intro hin
    rw [hpend]
    exact h.awake (hin' _ hin)
  · intro j d hin hd hp
    obtain ⟨hd, hp⟩ := hold j d hd hp
    rcases h.signal j d (hin' _ hin) hd hp with hn | ⟨e, he, hej⟩
    · exact .inl (hnotified j hn)
    · rw [hbatch] at he
      rcases List.mem_cons.mp he with heq | he
      · cases heq
      · exact .inr ⟨e, he, hej⟩
  · intro k
    rw [hlog k]
    exact h.ordered k

theorem orderInv_step (h : OrderInv s) (hl : LaunchInv s) (hd : PidsDistinct s) (hg : InOrder s l)
    (he : Effect s l s') : OrderInv s' := by
  cases he with
  | child hc hact => exact orderInv_child h hd hg hc hact
  | quiet hq hcl hbusy =>
    refine h.of_log hq.children hq.pending ?_ hq.batch
      (fun k => ⟨[], by rw [hq.log, List.append_nil], by simp⟩) fun e he => .inl (hq.execves e he)
    intro pid hm
    rcases hq.mode with hm' | ⟨-, hm'⟩
    · rw [← hm']; exact hm
    · rw [hm'] at hm; cases hm
  | epollWait hmode hnodup hready => exact orderInv_epollWait h hl hg hmode hready
  | blocks hmode hbatch hpend hc hpid hun halive => exact orderInv_blocks h hl.pipes hbatch hpend
  | @reaps l s' pid c k status hh hc hpid hz hch =>
    refine orderInv_handled h hl.pipes hh ?_ ?_
    · intro j d hdj
      rw [hch] at hdj
      rcases getElem?_set_some hdj with ⟨rfl, rfl⟩ | ⟨-, hdj⟩
      · exact ⟨c, hc, rfl, fun _ => rfl⟩
      · exact ⟨d, hdj, rfl, id⟩
    · intro j hj
      cases hj
      exact ⟨c, hc, hpid⟩
  | fails hh hnone hch =>
    refine orderInv_handled h hl.pipes hh ?_ fun j hj => State.latest_eq_some hj
    intro j d hdj
    rw [hch] at hdj
    exact ⟨d, hdj, rfl, id⟩
  | @execve foreign success e rest hmode hbatch hfree hread =>
    refine h.of_log rfl rfl (fun _ hm => hm) ?_ (fun k => ⟨_, log_of_sent rfl k, ?_⟩) ?_
    · rw [hbatch]; exact List.suffix_cons _ _
    · rw [about_cons, about_nil]
      split <;> simp [Msg.isProcessTerminated]
    · intro e' he'
      rw [hbatch] at he'
      rcases List.mem_cons.mp he' with heq | he'
      · right
        cases heq
        unfold State.Notified
        rw [execves_append (log_of_sent rfl e.launch), about_cons, if_pos rfl]
        simp [Msg.isExecveTerminated]
      · exact .inl he'
  | clones hmode hbatch hkept hnew hpid =>
    exact orderInv_clones h (hg.clone _ rfl) hbatch rfl (by simp) rfl fun _ => rfl
  | launched hmode =>
    refine h.of_log rfl rfl (by simp) (List.suffix_refl _) (fun k => ⟨_, log_of_sent rfl k, ?_⟩)
      fun e he => .inl he
    rw [about_cons, about_surveillanceAcks]
    split <;> simp [Msg.isProcessTerminated]

theorem orderInv_of_reach {heap : Nat → ProcessInfo} {nfds : Nat} {sock : Fd} {port : Nat}
    (hr : Lts.Reach step InOrder (.init heap nfds sock port) s) : OrderInv s :=
  hr.invariant (orderInv_init heap nfds sock port) fun _ _ _ hr h hg hs =>
    orderInv_step h (launchInv_of_reach (hr.mono fun _ _ hg => hg.kept)) (pidsDistinct_of_reach hr) hg
      (step_effect hs)

/-- In every run whose steps are in order, `ExecveTerminated` comes before `ProcessTerminated`. -/
theorem execve_terminated_first (heap : Nat → ProcessInfo) (nfds : Nat) (sock : Fd) (port : Nat)
    (hr : Lts.Reach step InOrder (.init heap nfds sock port) s) (k : Nat) : Ordered (s.log k) :=
  (orderInv_of_reach hr).ordered k

/-- The signal of `X` has just been read, so the signalfd is still on the ready list when the pipe of
`A` becomes ready behind it. -/
def signalfdFirst : List Label :=
  connects ++ launches "X" 9 (10, 11) 20 ++ execs 0 "X" 10 20 ++ launches "A" 10 (11, 12) 21 ++
    [.child 0 (.exit (.exited 0))] ++ handlesSignal ++
    [.child 1 .execveSucceeds, .child 1 (.exit (.exited 0)),
     .epollWait [.signalfd, .execve ⟨11, 21, "A", 1⟩], .signalfd 0 false, .execve false]

theorem signalfd_before_pipe :
    ∃ s, Lts.Reachable step .start s ∧
      s.log 1 = [.processLaunched 21, .processTerminated 21 0, .execveTerminated 21 "A" true] ∧
      ¬ Ordered (s.log 1) := by
  obtain ⟨s, hs, hp⟩ := Lts.exists_of_run_map
    (p := fun s => s.log 1 ==
      [.processLaunched 21, .processTerminated 21 0, .execveTerminated 21 "A" true])
    (show (Lts.run step .start signalfdFirst).map _ = some true by decide +kernel)
  rw [beq_iff_eq] at hp
  refine ⟨s, Lts.reachable_of_run hs, hp, ?_⟩
  intro hord
  obtain ⟨m, hm, het⟩ := hord [.processLaunched 21] (.processTerminated 21 0) _ hp rfl
  rw [List.mem_singleton] at hm
  subst hm
  cases het

/-- The same children with the pipe first, `X` stopped and killed on the way. -/
theorem pipe_before_signalfd :
    ∃ s, Lts.Reach step InOrder .start s ∧
      s.log 1 = [.processLaunched 21, .execveTerminated 21 "A" true, .processTerminated 21 0] ∧
      ∀ k, Ordered (s.log k) := by
  obtain ⟨s, hs, hp⟩ := Lts.exists_of_run_map
    (p := fun s => s.log 1 ==
      [.processLaunched 21, .execveTerminated 21 "A" true, .processTerminated 21 0])
    (show (Lts.run (Lts.guarded InOrder step) .start
      (connects ++ launches "X" 9 (10, 11) 20 ++ execs 0 "X" 10 20 ++ launches "A" 10 (11, 12) 21 ++
        [.child 0 .stop, .child 0 (.exit (.signaled 9))] ++ handlesSignal ++
        [.child 1 .execveSucceeds, .child 1 (.exit (.exited 0)),
         .epollWait [.execve ⟨11, 21, "A", 1⟩, .signalfd], .execve false, .signalfd 0 false])).map _ =
        some true by decide +kernel)
  rw [beq_iff_eq] at hp
  have hreach := Lts.reach_of_run hs
  exact ⟨s, hreach, hp, execve_terminated_first _ 8 0 8080 hreach⟩

end ProcCtrld
