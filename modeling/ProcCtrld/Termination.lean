import ProcCtrld.Effects

/-!
# ProcCtrld.Termination

Which children the C daemon reports as terminated.

`TerminationsExact` is the contract: no child is reported twice, and while no SIGCHLD is pending
every child that is gone has been waited for and reported once, with its own status. The daemon
reads one signal at a time and waits for the one pid it names, so the contract rests on what is
pending when a child exits. `terminations_exact` proves it for every run in which that is right
(`ExitSeen`): a child that the daemon does not wait for exits while no SIGCHLD of another child is
pending, and a child that the daemon is blocked on exits while one is.

Two children that exit before the signal is read, and a child that is stopped and then killed, each
break the contract (`exits_merge_and_stops_repeat`).
-/

namespace ProcCtrld

variable {s s' : State} {l : Label}

/-- The `ProcessTerminated` messages about launch `k`. -/
def State.terminations (s : State) (k : Nat) : List Msg :=
  (s.log k).filter Msg.isProcessTerminated

structure TerminationsExact (s : State) : Prop where
  once : ∀ k, (s.terminations k).length ≤ 1
  reported : s.pending = none → ∀ (k : Nat) (c : Child) (status : WaitStatus), s.children[k]? = some c →
    c.life = .zombie status ∨ c.life = .reaped status →
    c.life = .reaped status ∧ s.terminations k = [.processTerminated c.pid status.exitStatus]

/-- When a child exits, the SIGCHLD that is pending is not another child's, unless the daemon is
blocked in `waitpid` for the child: then it is. -/
def ExitSeen (s : State) (l : Label) : Prop :=
  l.Ordinary ∧ ∀ k ∈ l.exit, ∀ c ∈ s.children[k]?,
    if s.mode = .waitpid c.pid then s.pending ≠ none ∧ s.pending ≠ some c.pid
    else s.pending = none ∨ s.pending = some c.pid

instance (s : State) (l : Label) : Decidable (ExitSeen s l) :=
  inferInstanceAs (Decidable (l.Ordinary ∧ ∀ k ∈ l.exit, ∀ c ∈ s.children[k]?,
    if s.mode = .waitpid c.pid then s.pending ≠ none ∧ s.pending ≠ some c.pid
    else s.pending = none ∨ s.pending = some c.pid))

/-- The zombies are the children that a pending SIGCHLD names or that `waitpid` will return. -/
structure TermInv (s : State) : Prop where
  distinct : PidsDistinct s
  pending : ∀ pid, s.pending = some pid → ∃ (k : Nat) (c : Child), s.children[k]? = some c ∧
    c.unreaped = true ∧ c.pid = pid
  waiting : ∀ pid, s.mode = .waitpid pid → ∃ (k : Nat) (c : Child), s.children[k]? = some c ∧
    c.unreaped = true ∧ c.pid = pid
  zombies : ∀ (k : Nat) (c : Child) (status : WaitStatus), s.children[k]? = some c →
    c.life = .zombie status →
    (s.pending = some c.pid ∧ s.mode ≠ .waitpid c.pid) ∨
    (s.mode = .waitpid c.pid ∧ s.pending ≠ none ∧ s.pending ≠ some c.pid)
  unreported : ∀ (k : Nat) (c : Child), s.children[k]? = some c → c.unreaped = true →
    s.terminations k = []
  reported : ∀ (k : Nat) (c : Child) (status : WaitStatus), s.children[k]? = some c →
    c.life = .reaped status → s.terminations k = [.processTerminated c.pid status.exitStatus]
  fresh : ∀ k, s.children.length ≤ k → s.terminations k = []

theorem termInv_init (heap : Nat → ProcessInfo) (nfds : Nat) (sock : Fd) (port : Nat) :
    TermInv (.init heap nfds sock port) := by
  refine ⟨?_, ?_, ?_, ?_, ?_, ?_, fun _ _ => rfl⟩ <;> simp [State.init, PidsDistinct]

theorem TermInv.exact (h : TermInv s) : TerminationsExact s := by
  refine ⟨?_, ?_⟩
  · intro k
    cases hc : s.children[k]? with
    | none => rw [h.fresh k (List.getElem?_eq_none_iff.mp hc)]; simp
    | some c =>
      by_cases hu : c.unreaped = true
      · rw [h.unreported k c hc hu]; simp
      · cases hl : c.life with
        | reaped status => rw [h.reported k c status hc hl]; simp
        | _ => simp [Child.unreaped, hl] at hu
  · intro hpend k c status hc hlife
    rcases hlife with hz | hr
    · rcases h.zombies k c status hc hz with ⟨hp, -⟩ | ⟨-, hp, -⟩
      · rw [hpend] at hp; cases hp
      · exact absurd hpend hp
    · exact ⟨hr, h.reported k c status hc hr⟩

theorem terminations_append {k : Nat} {ms : List Msg} (h : s'.log k = s.log k ++ ms) :
    s'.terminations k = s.terminations k ++ ms.filter Msg.isProcessTerminated := by
  rw [State.terminations, h, List.filter_append]
  rfl

theorem TermInv.congr (h : TermInv s) (hch : s'.children = s.children) (hp : s'.pending = s.pending)
    (hm : ∀ pid, s'.mode = .waitpid pid ↔ s.mode = .waitpid pid)
    (ht : ∀ k, s'.terminations k = s.terminations k) : TermInv s' := by
  refine ⟨?_, ?_, ?_, ?_, ?_, ?_, ?_⟩
  · unfold PidsDistinct; rw [hch]; exact h.distinct
  · rw [hch, hp]; exact h.pending
  · intro pid hmode
    rw [hch]
    exact h.waiting pid ((hm pid).mp hmode)
  · intro k c status hc hz
    rw [hch] at hc
    simp only [hp, ne_eq, hm]
    exact h.zombies k c status hc hz
  · intro k c hc hu
    rw [hch] at hc
    rw [ht k]
    exact h.unreported k c hc hu
  · intro k c status hc hr
    rw [hch] at hc
    rw [ht k]
    exact h.reported k c status hc hr
  · intro k hk
    rw [hch] at hk
    rw [ht k]
    exact h.fresh k hk

theorem termInv_child {k : Nat} {act : ChildAct} {c c' : Child} (h : TermInv s)
    (hg : ExitSeen s (.child k act)) (hc : s.children[k]? = some c) (hact : c.step act = some c') :
    TermInv { s with
      children := s.children.set k c'
      pending := if act.notifies then s.pending.or (some c.pid) else s.pending } := by
  have hpid := Child.step_pid hact
  have hun : c.unreaped = true := Child.unreaped_of_not_dead (Child.step_alive hact)
  have hun' : c'.unreaped = true := Child.step_unreaped hact
  have hself := getElem?_set_same c' hc
  have keep : ∀ pid, (∃ (j : Nat) (d : Child), s.children[j]? = some d ∧ d.unreaped = true ∧ d.pid = pid) →
      ∃ (j : Nat) (d : Child), (s.children.set k c')[j]? = some d ∧ d.unreaped = true ∧ d.pid = pid := by
    rintro pid ⟨j, d, hd, hdu, rfl⟩
    by_cases hjk : j = k
    · subst hjk
      rw [hc] at hd; cases hd
      exact ⟨j, c', hself, hun', hpid⟩
    · refine ⟨j, d, ?_, hdu, rfl⟩
      rw [List.getElem?_set_ne (fun e => hjk e.symm)]
      exact hd
  refine ⟨pidsDistinct_step h.distinct (.child hc hact), ?_, ?_, ?_, ?_, ?_, ?_⟩
  · intro pid hp
    rcases pending_of_act hp with hp | ⟨-, -, rfl⟩
    · exact keep pid (h.pending pid hp)
    · exact ⟨k, c', hself, hun', hpid⟩
  · intro pid hmode
    exact keep pid (h.waiting pid hmode)
  · intro j d status hd hz
    simp only
    rcases getElem?_set_some hd with ⟨rfl, rfl⟩ | ⟨hjk, hd⟩
    · -- the child that acts becomes a zombie only by its exit
      obtain rfl := Child.step_zombie hact hz
      have hseen := hg.2 _ rfl c hc
      rw [hpid]
      split at hseen
      · rename_i hw
        obtain ⟨q, hq⟩ := Option.ne_none_iff_exists'.mp hseen.1
        refine .inr ⟨hw, ?_⟩
        rw [pending_act_of_some hq, ← hq]
        exact hseen
      · rename_i hw
        refine .inl ⟨?_, hw⟩
        rcases hseen with hp | hp
        · rw [hp]; rfl
        · exact pending_act_of_some hp
    · rcases h.zombies j d status hd hz with ⟨hp, hw⟩ | ⟨hw, hp, hp'⟩
      · exact .inl ⟨pending_act_of_some hp, hw⟩
      · obtain ⟨q, hq⟩ := Option.ne_none_iff_exists'.mp hp
        refine .inr ⟨hw, ?_⟩
        rw [pending_act_of_some hq, ← hq]
        exact ⟨hp, hp'⟩
  · intro j d hd hdu
    rcases getElem?_set_some hd with ⟨rfl, rfl⟩ | ⟨hjk, hd⟩
    · exact h.unreported j c hc hun
    · exact h.unreported j d hd hdu
  · intro j d status hd hr
    rcases getElem?_set_some hd with ⟨rfl, rfl⟩ | ⟨hjk, hd⟩
    · simp [Child.unreaped, hr] at hun'
    · exact h.reported j d status hd hr
  · intro j hj
    exact h.fresh j (by simpa using hj)

/-- In the loop a zombie is the child that the pending signal names. -/
theorem TermInv.zombie_pending (h : TermInv s) (hmode : s.mode = .loop) {k : Nat} {c : Child}
    {status : WaitStatus} (hc : s.children[k]? = some c) (hz : c.life = .zombie status) :
    s.pending = some c.pid := by
  rcases h.zombies k c status hc hz with ⟨hp, -⟩ | ⟨hw, -⟩
  · exact hp
  · rw [hmode] at hw; cases hw

theorem termInv_blocks {pid : Pid} {rest : List Ready} {c : Child} {k : Nat} (h : TermInv s)
    (hmode : s.mode = .loop) (hpend : s.pending = some pid) (hc : s.children[k]? = some c)
    (hpid : c.pid = pid) (hun : c.unreaped = true) (halive : c.dead = false) :
    TermInv { s with batch := rest, pending := none, mode := .waitpid pid } := by
  refine ⟨h.distinct, ?_, ?_, ?_, h.unreported, h.reported, h.fresh⟩
  · intro q hq; cases hq
  · intro q hq
    cases hq
    exact ⟨k, c, hc, hun, hpid⟩
  · intro j d status hd hz
    have hp := h.zombie_pending hmode hd hz
    have hdu : d.unreaped = true := by simp [Child.unreaped, hz]
    rw [hpend] at hp
    have hjk := h.distinct j k d c hd hc hdu hun (by rw [hpid]; exact (Option.some.inj hp).symm)
    subst hjk
    rw [hc] at hd; cases hd
    simp [Child.dead, hz] at halive

section Reaps

variable {pid : Pid} {c : Child} {k : Nat} {status : WaitStatus}

/-- What is still pending after a child is reaped is another child's. -/
theorem TermInv.pending_of_reaps (h : TermInv s) (hh : Handled s l s' pid (some k) status.exitStatus)
    (hc : s.children[k]? = some c) (hpid : c.pid = pid) (hz : c.life = .zombie status) {q : Pid}
    (hq : s'.pending = some q) : s.pending = some q ∧ q ≠ pid := by
  rcases hh.awaited with ⟨-, -, -, hnone⟩ | ⟨hmode, -, hp⟩
  · rw [hnone] at hq; cases hq
  · rw [hp] at hq
    rcases h.zombies k c status hc hz with ⟨-, hne⟩ | ⟨-, -, hne⟩
    · rw [hpid] at hne; exact absurd hmode hne
    · refine ⟨hq, fun e => hne ?_⟩
      rw [hq, e, hpid]

theorem TermInv.other_zombie (h : TermInv s) (hh : Handled s l s' pid (some k) status.exitStatus)
    {j : Nat} {d : Child} {status' : WaitStatus} (hd : s.children[j]? = some d)
    (hz : d.life = .zombie status') (hne : d.pid ≠ pid) : s'.pending = some d.pid := by
  rcases hh.awaited with ⟨hmode, -, hp, -⟩ | ⟨hmode, -, hp⟩
  · have hp' := h.zombie_pending hmode hd hz
    rw [hp] at hp'
    exact absurd (Option.some.inj hp').symm hne
  · rcases h.zombies j d status' hd hz with ⟨hp', -⟩ | ⟨hw, -⟩
    · rw [hp]; exact hp'
    · rw [hmode] at hw
      exact absurd (Mode.waitpid.inj hw).symm hne

/-- The child that `waitpid` returns is reported once; no other signal was lost with it. -/
theorem termInv_reaps (h : TermInv s) (hh : Handled s l s' pid (some k) status.exitStatus)
    (hc : s.children[k]? = some c) (hpid : c.pid = pid) (hz : c.life = .zombie status)
    (hch : s'.children = s.children.set k { c with life := .reaped status }) : TermInv s' := by
  have hun : c.unreaped = true := by simp [Child.unreaped, hz]
  have hterm : ∀ j, s'.terminations j =
      s.terminations j ++ if k = j then [.processTerminated pid status.exitStatus] else [] := by
    intro j
    rw [terminations_append (hh.log j)]
    by_cases hkj : k = j <;> simp [hkj, Msg.isProcessTerminated]
  have hdist : PidsDistinct s' := by
    refine pidsDistinct_set h.distinct hc ?_ ?_ hch
    · rfl
    · simp [Child.unreaped]
  refine ⟨hdist, ?_, ?_, ?_, ?_, ?_, ?_⟩
  · intro q hq
    obtain ⟨hq', hne⟩ := h.pending_of_reaps hh hc hpid hz hq
    obtain ⟨j, d, hd, hdu, rfl⟩ := h.pending q hq'
    have hjk : k ≠ j := by
      rintro rfl
      rw [hc] at hd; cases hd
      exact hne hpid
    exact ⟨j, d, by rw [hch, List.getElem?_set_ne hjk]; exact hd, hdu, rfl⟩
  · intro q hq
    rw [hh.mode] at hq; cases hq
  · intro j d st hd hzd
    rw [hch] at hd
    rcases getElem?_set_some hd with ⟨-, rfl⟩ | ⟨hjk, hd⟩
    · cases hzd
    · have hdu : d.unreaped = true := by simp [Child.unreaped, hzd]
      have hne : d.pid ≠ pid := fun e =>
        hjk (h.distinct j k d c hd hc hdu hun (by rw [hpid]; exact e))
      exact .inl ⟨h.other_zombie hh hd hzd hne, by rw [hh.mode]; simp⟩
  · intro j d hd hdu
    rw [hch] at hd
    rcases getElem?_set_some hd with ⟨-, rfl⟩ | ⟨hjk, hd⟩
    · simp [Child.unreaped] at hdu
    · rw [hterm j, if_neg (fun e => hjk e.symm), List.append_nil]
      exact h.unreported j d hd hdu
  · intro j d st hd hr
    rw [hch] at hd
    rcases getElem?_set_some hd with ⟨rfl, rfl⟩ | ⟨hjk, hd⟩
    · cases hr
      rw [hterm j, if_pos rfl, h.unreported j c hc hun, hpid]
      rfl
    · rw [hterm j, if_neg (fun e => hjk e.symm), List.append_nil]
      exact h.reported j d st hd hr
  · intro j hj
    rw [hch, List.length_set] at hj
    have hlt := (List.getElem?_eq_some_iff.mp hc).1
    rw [hterm j, if_neg (by omega), List.append_nil]
    exact h.fresh j hj

end Reaps

theorem TermInv.unreaped_of_handled {pid : Pid} {launch : Option Nat} {exitStatus : Nat} (h : TermInv s)
    (hh : Handled s l s' pid launch exitStatus) : s.unreaped pid ≠ none := by
  intro hnone
  have hex : ∃ (k : Nat) (c : Child), s.children[k]? = some c ∧ c.unreaped = true ∧ c.pid = pid := by
    rcases hh.awaited with ⟨-, -, hp, -⟩ | ⟨hw, -⟩
    · exact h.pending pid hp
    · exact h.waiting pid hw
  obtain ⟨k, c, hc, hun, hpid⟩ := hex
  rw [State.unreaped_eq_none hnone hc hpid] at hun
  cases hun

theorem termInv_clones {c : Child} (h : TermInv s) (hmode : s.mode = .loop) (hdist : PidsDistinct s')
    (hrun : c.life = .running) (hch : s'.children = s.children ++ [c]) (hp : s'.pending = s.pending)
    (hm : ∀ pid, s'.mode ≠ .waitpid pid) (ht : ∀ k, s'.terminations k = s.terminations k) :
    TermInv s' := by
  have hnew : ∀ (j : Nat) (d : Child), s'.children[j]? = some d →
      s.children[j]? = some d ∨ (j = s.children.length ∧ d = c) := by
    intro j d hd
    rw [hch] at hd
    exact getElem?_append_some hd
  refine ⟨hdist, ?_, ?_, ?_, ?_, ?_, ?_⟩
  · intro pid hpid
    rw [hp] at hpid
    obtain ⟨j, d, hd, hdu, rfl⟩ := h.pending pid hpid
    refine ⟨j, d, ?_, hdu, rfl⟩
    rw [hch, List.getElem?_append_left (List.getElem?_eq_some_iff.mp hd).1]
    exact hd
  · intro pid hpid
    exact absurd hpid (hm pid)
  · intro j d status hd hz
    rcases hnew j d hd with hd | ⟨-, rfl⟩
    · exact .inl ⟨by rw [hp]; exact h.zombie_pending hmode hd hz, hm d.pid⟩
    · rw [hrun] at hz; cases hz
  · intro j d hd hdu
    rw [ht j]
    rcases hnew j d hd with hd | ⟨rfl, -⟩
    · exact h.unreported j d hd hdu
    · exact h.fresh _ le_rfl
  · intro j d status hd hr
    rw [ht j]
    rcases hnew j d hd with hd | ⟨-, rfl⟩
    · exact h.reported j d status hd hr
    · rw [hrun] at hr; cases hr
  · intro j hj
    rw [hch, List.length_append] at hj
    rw [ht j]
    exact h.fresh j (by omega)

theorem termInv_step (h : TermInv s) (hg : ExitSeen s l) (he : Effect s l s') : TermInv s' := by
  have hdist := pidsDistinct_step h.distinct he
  cases he with
  | child hc hact => exact termInv_child h hg hc hact
  | quiet hq hcl hbusy =>
    refine h.congr hq.children hq.pending ?_ fun k => by rw [State.terminations, hq.log]; rfl
    intro pid
    rcases hq.mode with hm | ⟨hm, hm'⟩
    · rw [hm]
    · rw [hm, hm']; simp
  | epollWait hmode hnodup hready => exact h.congr rfl rfl (fun _ => Iff.rfl) fun _ => rfl
  | blocks hmode hbatch hpend hc hpid hun halive => exact termInv_blocks h hmode hpend hc hpid hun halive
  | reaps hh hc hpid hz hch => exact termInv_reaps h hh hc hpid hz hch
  | fails hh hnone hch => exact absurd hnone (h.unreaped_of_handled hh)
  | execve hmode hbatch hfree hread =>
    refine h.congr rfl rfl (fun _ => Iff.rfl) ?_
    intro k
    rw [terminations_append (log_of_sent rfl k), about_cons, about_nil]
    split <;> simp [Msg.isProcessTerminated]
  | clones hmode hbatch hkept hnew hpid =>
    exact termInv_clones h hmode hdist rfl rfl rfl (by simp) fun _ => rfl
  | launched hmode =>
    refine h.congr rfl rfl (fun pid => by rw [hmode]; simp) ?_
    intro k
    rw [terminations_append (log_of_sent rfl k), about_cons, about_surveillanceAcks]
    split <;> simp [Msg.isProcessTerminated]

theorem termInv_of_reach {heap : Nat → ProcessInfo} {nfds : Nat} {sock : Fd} {port : Nat}
    (hr : Lts.Reach step ExitSeen (.init heap nfds sock port) s) : TermInv s :=
  hr.invariant (termInv_init heap nfds sock port) fun _ _ _ _ h hg hs => termInv_step h hg (step_effect hs)

/-- In every run in which each exit is seen, terminations are reported exactly once. -/
theorem terminations_exact (heap : Nat → ProcessInfo) (nfds : Nat) (sock : Fd) (port : Nat)
    (hr : Lts.Reach step ExitSeen (.init heap nfds sock port) s) : TerminationsExact s :=
  (termInv_of_reach hr).exact

/-- Two children, one of which exits before the signal of the other is read. -/
def twoExits : List Label :=
  connects ++ launches "A" 9 (10, 11) 20 ++ launches "B" 11 (12, 13) 21 ++ execs 0 "A" 10 20 ++
    execs 1 "B" 12 21 ++
    [.child 0 (.exit (.exited 0)), .child 1 (.exit (.exited 3))] ++ handlesSignal

/-- A child is stopped, the daemon reads that signal and blocks, and the child is killed. -/
def stopThenKill : List Label :=
  connects ++ launches "A" 9 (10, 11) 20 ++ execs 0 "A" 10 20 ++ [.child 0 .stop] ++ handlesSignal ++
    [.child 0 (.exit (.signaled 9)), .waitpidReturns 0 false] ++ handlesSignal

/-- After `twoExits` the second child is a zombie that nothing will report; after `stopThenKill` the
child has been reported twice. -/
theorem exits_merge_and_stops_repeat :
    (∃ s, Lts.Reachable step .start s ∧ s.pending = none ∧ s.batch = [] ∧
      s.children[1]? = some ⟨21, "B", .zombie (.exited 3), .execd⟩ ∧ ¬ TerminationsExact s) ∧
    ∃ s, Lts.Reachable step .start s ∧
      s.terminations 0 = [.processTerminated 20 9, .processTerminated 20 0] ∧ ¬ TerminationsExact s := by
  constructor
  · obtain ⟨s, hs, hp⟩ := Lts.exists_of_run_map
      (p := fun s => s.pending == none && s.batch == [] &&
        s.children[1]? == some ⟨21, "B", .zombie (.exited 3), .execd⟩)
      (show (Lts.run step .start twoExits).map _ = some true by decide +kernel)
    simp only [Bool.and_eq_true, beq_iff_eq] at hp
    obtain ⟨⟨hpend, hbatch⟩, hc⟩ := hp
    refine ⟨s, Lts.reachable_of_run hs, hpend, hbatch, hc, ?_⟩
    intro hex
    have := (hex.reported hpend 1 _ (.exited 3) hc (.inl rfl)).1
    cases this
  · obtain ⟨s, hs, hp⟩ := Lts.exists_of_run_map
      (p := fun s => s.terminations 0 == [.processTerminated 20 9, .processTerminated 20 0])
      (show (Lts.run step .start stopThenKill).map _ = some true by decide +kernel)
    rw [beq_iff_eq] at hp
    refine ⟨s, Lts.reachable_of_run hs, hp, ?_⟩
    intro hex
    have := hex.once 0
    rw [hp] at this
    simp at this

/-- Two children, the first stopped and killed before the daemon reads its signal, the second gone
after that. -/
theorem stop_and_exits_reported_once :
    ∃ s, Lts.Reach step ExitSeen .start s ∧ s.terminations 0 = [.processTerminated 20 9] ∧
      s.terminations 1 = [.processTerminated 21 3] ∧ TerminationsExact s := by
  obtain ⟨s, hs, hp⟩ := Lts.exists_of_run_map
    (p := fun s => s.terminations 0 == [.processTerminated 20 9] &&
      s.terminations 1 == [.processTerminated 21 3])
    (show (Lts.run (Lts.guarded ExitSeen step) .start
      (connects ++ launches "A" 9 (10, 11) 20 ++ launches "B" 11 (12, 13) 21 ++ execs 1 "B" 12 21 ++
        [.child 0 .stop, .child 0 (.exit (.signaled 9))] ++ handlesSignal ++
        [.child 1 (.exit (.exited 3))] ++ handlesSignal)).map _ = some true by decide +kernel)
  simp only [Bool.and_eq_true, beq_iff_eq] at hp
  have hreach := Lts.reach_of_run hs
  exact ⟨s, hreach, hp.1, hp.2, terminations_exact _ 8 0 8080 hreach⟩

end ProcCtrld
