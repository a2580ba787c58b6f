import ProcCtrld.Effects
import ProcCtrld.Termination
import Mathlib.Data.List.Count

/-!
# ProcCtrld.Records

The process table along the runs of the C daemon, whatever the children and the signals do.

`step_table` says what a step does to the children and the table together. Two results come from it.

* `running_record_kept` — the slot that `manager_add_process` fills for a child holds its pid, its
  stack and its error file for as long as the child has not been waited for. A release names a pid
  whose child `waitpid` has just reaped or does not know, and a launch fills a free slot.
* `counter_bounded` — `nb_process` stays between 0 and `MAX_PROCESS` in the runs that launch into a
  free slot, below `MAX_PROCESS` unreaped children, and that handle no signal of a child already
  waited for. The counter goes up for a refused child and down for every signal, so neither
  condition can be left out (`counter_below_zero`).
-/

namespace ProcCtrld

variable {s s' : State} {l : Label}

/-! ## What a step does to the table -/

/-- `handle_SIGCHLD` runs for `pid`, read from the signalfd now or before. -/
inductive State.Awaits (s : State) : Label → Pid → Prop where
  | signalfd {pid : Pid} {garbage : Nat} {held : Bool} (hmode : s.mode = .loop)
      (hpend : s.pending = some pid) : s.Awaits (.signalfd garbage held) pid
  | waitpid {pid : Pid} {garbage : Nat} {held : Bool} (hmode : s.mode = .waitpid pid) :
      s.Awaits (.waitpidReturns garbage held) pid

theorem State.Awaits.mode {pid : Pid} (h : s.Awaits l pid) : s.mode = .loop ∨ s.mode = .waitpid pid := by
  cases h with
  | signalfd hmode => exact .inl hmode
  | waitpid hmode => exact .inr hmode

inductive TableEffect (s : State) (l : Label) (s' : State) : Prop where
  | same (hch : s'.children = s.children) (ht : s'.table = s.table)
      (hmode : s'.mode = s.mode ∨ (s.mode = .loop ∧ (s'.mode = .halted ∨
        ∃ (pid : Pid) (k : Nat) (c : Child), s'.mode = .waitpid pid ∧ s.children[k]? = some c ∧
          c.unreaped = true ∧ c.pid = pid)))
  | acts {k : Nat} {act : ChildAct} {c c' : Child} (hc : s.children[k]? = some c)
      (hact : c.step act = some c') (hch : s'.children = s.children.set k c')
      (ht : s'.table = s.table) (hmode : s'.mode = s.mode)
  | clones {com : Command} {errFile : Option Fd} {pipefd : Fd × Fd} {pid : Pid} {stack : Addr}
      {lg : Launching} (hl : l = .runCommand com (.clones errFile pipefd pid stack))
      (hmode : s.mode = .loop) (hpid : s.unreaped pid = none) (hlg : lg.launch = s.children.length)
      (hlgpid : lg.pid = pid)
      (hch : s'.children = s.children ++ [⟨pid, com.path, .running, .beforeExecve⟩])
      (ht : s'.table = s.table) (hmode' : s'.mode = .launching lg)
  | registers {lg : Launching} (hmode : s.mode = .launching lg) (hch : s'.children = s.children)
      (ht : s'.table = s.table.register lg.pid lg.errFile lg.stack) (hmode' : s'.mode = .loop)
  | reaps {pid : Pid} {closed : Option Fd} {k : Nat} {c : Child} {status : WaitStatus}
      (hmode : s.mode = .loop ∨ s.mode = .waitpid pid) (hc : s.children[k]? = some c)
      (hpid : c.pid = pid) (hz : c.life = .zombie status)
      (hch : s'.children = s.children.set k { c with life := .reaped status })
      (ht : s.table.release pid = some (s'.table, closed)) (hmode' : s'.mode = .loop)
  | fails {pid : Pid} {closed : Option Fd} (hmode : s.Awaits l pid) (hnone : s.unreaped pid = none)
      (hch : s'.children = s.children) (ht : s.table.release pid = some (s'.table, closed))
      (hmode' : s'.mode = .loop)

/-- `s₁` is the state in which the signal has been taken off the batch. -/
theorem sigchld_table {s₁ : State} {pid : Pid} {garbage : Nat} {held : Bool} (hmode : s.Awaits l pid)
    (hch : s₁.children = s.children) (ht : s₁.table = s.table) (h : SigchldCase s₁ pid garbage held s') :
    TableEffect s l s' := by
  have hun' : s₁.unreaped pid = s.unreaped pid := by rw [State.unreaped, hch]; rfl
  cases h with
  | @blocks c k hun halive =>
    obtain ⟨hc, hpid, hunr⟩ := State.unreaped_eq_some (hun' ▸ hun)
    refine .same hch ht ?_
    rcases hmode.mode with hm | hm
    · exact .inr ⟨hm, .inr ⟨pid, k, c, rfl, hc, hunr, hpid⟩⟩
    · exact .inl hm.symm
  | reaps hun hz h =>
    obtain ⟨hc, hpid, -⟩ := State.unreaped_eq_some (hun' ▸ hun)
    exact .reaps hmode.mode hc hpid hz (by rw [h.children, hch]) (ht ▸ h.table) h.mode
  | fails hun h => exact .fails hmode (hun' ▸ hun) (by rw [h.children, hch]) (ht ▸ h.table) h.mode

theorem step_table (h : step s l = some s') : TableEffect s l s' := by
  cases step_cases h with
  | child hc hact => exact .acts hc hact rfl rfl rfl
  | epollFails hmode hbatch => exact .same rfl rfl (.inr ⟨hmode, .inl rfl⟩)
  | signalfd hmode hbatch hpend hcase => refine sigchld_table (.signalfd hmode hpend) ?_ ?_ hcase <;> rfl
  | waitpidReturns hmode hcase => exact sigchld_table (.waitpid hmode) rfl rfl hcase
  | runCommand hmode hbatch hcase =>
    cases hcase with
    | fails hos hleft => exact .same rfl rfl (.inl rfl)
    | pipeFails => exact .same rfl rfl (.inr ⟨hmode, .inl rfl⟩)
    | clones herr hread hwrite hpos hpid => exact .clones rfl hmode hpid rfl rfl rfl rfl rfl
  | launchReturns hmode => exact .registers hmode rfl rfl rfl
  | killsGroup hmode hbatch => exact .same rfl rfl (.inr ⟨hmode, .inl rfl⟩)
  | openOther | closeOther | epollWait | execve | kills | killsNone | unexpected | sockClosed | sockConnexion
  | inotify | hupErr => exact .same rfl rfl (.inl rfl)

/-! ## Records of running children -/

/-- The child of launch `k` has the pid of `info`, and while it has not been waited for the slot `j`
holds `info`. -/
structure Held (k j : Nat) (info : ProcessInfo) (s : State) : Prop where
  child : ∃ c : Child, s.children[k]? = some c ∧ c.pid = info.childId
  slot : ∀ c : Child, s.children[k]? = some c → c.unreaped = true → s.table.manager j = info

section Held

variable {k j : Nat} {info : ProcessInfo}

theorem Held.frame (h : Held k j info s) (hget : s'.children[k]? = s.children[k]?)
    (ht : s'.table = s.table) : Held k j info s' :=
  ⟨by rw [hget]; exact h.child, by rw [hget, ht]; exact h.slot⟩

/-- A release of a pid that no unreaped child has afterwards. -/
theorem Held.release {pid : Pid} {closed : Option Fd} (h : Held k j info s)
    (hchild : ∃ c : Child, s'.children[k]? = some c ∧ c.pid = info.childId)
    (hold : ∀ c : Child, s'.children[k]? = some c → c.unreaped = true →
      s.children[k]? = some c ∧ c.pid ≠ pid)
    (ht : s.table.release pid = some (s'.table, closed)) : Held k j info s' := by
  refine ⟨hchild, ?_⟩
  intro c hc hun
  obtain ⟨hc₀, hne⟩ := hold c hc hun
  have hslot := h.slot c hc₀ hun
  obtain ⟨c₁, hc₁, hpid⟩ := h.child
  rw [hc₀] at hc₁; cases hc₁
  have hid : (s.table.manager j).childId ≠ pid := by rw [hslot, ← hpid]; exact hne
  rw [release_other ht hid]
  exact hslot

theorem held_step (h : Held k j info s) (hd : PidsDistinct s) (hinfo : info.stackP.isSome)
    (he : TableEffect s l s') : Held k j info s' := by
  obtain ⟨c₀, hc₀, hpid₀⟩ := h.child
  cases he with
  | same hch ht hmode => exact h.frame (by rw [hch]) ht
  | @acts i act c c' hc hact hch ht hmode =>
    by_cases hik : i = k
    · subst hik
      rw [hc₀] at hc; cases hc
      have hself : s'.children[i]? = some c' := by rw [hch]; exact getElem?_set_same c' hc₀
      refine ⟨⟨c', hself, by rw [Child.step_pid hact, hpid₀]⟩, ?_⟩
      intro c hc hun
      rw [ht]
      exact h.slot c₀ hc₀ (Child.unreaped_of_not_dead (Child.step_alive hact))
    · exact h.frame (by rw [hch, List.getElem?_set_ne hik]) ht
  | clones hl hmode hpid hlg hlgpid hch ht hmode' =>
    have hlt := (List.getElem?_eq_some_iff.mp hc₀).1
    exact h.frame (by rw [hch, List.getElem?_append_left hlt]) ht
  | registers hmode hch ht hmode' =>
    refine ⟨by rw [hch]; exact h.child, ?_⟩
    intro c hc hun
    rw [hch] at hc
    have hslot := h.slot c hc hun
    rw [ht, register_occupied _ _ _ (by rw [hslot]; exact hinfo)]
    exact hslot
  | @reaps pid closed i c status hmode hc hpid hz hch ht hmode' =>
    have hun : c.unreaped = true := by simp [Child.unreaped, hz]
    by_cases hik : i = k
    · -- the child itself is waited for
      subst hik
      rw [hc₀] at hc; cases hc
      have hself : s'.children[i]? = some { c₀ with life := .reaped status } := by
        rw [hch]; exact getElem?_set_same _ hc₀
      refine h.release ⟨_, hself, hpid₀⟩ ?_ ht
      intro d hd hdun
      rw [hself] at hd
      cases hd
      simp [Child.unreaped] at hdun
    · have hget : s'.children[k]? = s.children[k]? := by rw [hch, List.getElem?_set_ne hik]
      refine h.release (by rw [hget]; exact h.child) ?_ ht
      intro d hd' hdun
      rw [hget] at hd'
      refine ⟨hd', fun heq => hik ?_⟩
      exact hd i k c d hc hd' hun hdun (by rw [hpid, heq])
  | fails hmode hnone hch ht hmode' =>
    refine h.release (by rw [hch]; exact h.child) ?_ ht
    intro d hd' hdun
    rw [hch] at hd'
    refine ⟨hd', ?_⟩
    intro heq
    rw [State.unreaped_eq_none hnone hd' heq] at hdun
    cases hdun

end Held

theorem launching_child {guard : State → Label → Prop} {heap : Nat → ProcessInfo} {nfds : Nat}
    {sock : Fd} {port : Nat} (hr : Lts.Reach step guard (.init heap nfds sock port) s) :
    ∀ lg, s.mode = .launching lg → ∃ c : Child, s.children[lg.launch]? = some c ∧ c.pid = lg.pid := by
  refine hr.invariant (P := fun s => ∀ lg, s.mode = .launching lg →
    ∃ c : Child, s.children[lg.launch]? = some c ∧ c.pid = lg.pid) ?_ ?_
  · intro lg hmode
    cases hmode
  · intro s l s' hr h hg hs lg hlg
    cases step_table hs with
    | same hch ht hmode =>
      rcases hmode with hm | ⟨-, hm | ⟨pid, k, c, hm, -⟩⟩
      · rw [hch]; exact h lg (hm ▸ hlg)
      · rw [hm] at hlg; cases hlg
      · rw [hm] at hlg; cases hlg
    | acts hc hact hch ht hmode =>
      obtain ⟨c₀, hc₀, hpid⟩ := h lg (hmode ▸ hlg)
      have hsame : SameChild s s' := sameChild_set hc (Child.step_pid hact) (Child.step_path hact) hch
      obtain ⟨c₁, hc₁, hpid₁, -⟩ := hsame _ c₀ hc₀
      exact ⟨c₁, hc₁, by rw [hpid₁, hpid]⟩
    | clones hl hmode hpid hk hlgpid hch ht hmode' =>
      rw [hmode'] at hlg
      cases hlg
      exact ⟨_, by rw [hch, hk]; exact List.getElem?_concat_length, hlgpid.symm⟩
    | registers hmode hch ht hmode' => rw [hmode'] at hlg; cases hlg
    | reaps hmode hc hpid hz hch ht hmode' => rw [hmode'] at hlg; cases hlg
    | fails hmode hnone hch ht hmode' => rw [hmode'] at hlg; cases hlg

/-- The steps before a `KillProcess` of the daemon itself. -/
def NoKillAll (_ : State) (l : Label) : Prop := l ≠ .killProcess 0

instance (s : State) (l : Label) : Decidable (NoKillAll s l) :=
  inferInstanceAs (Decidable (l ≠ .killProcess 0))

/-- A child that `manager_add_process` accepted at the launch `lg` keeps its slot while it runs. -/
theorem running_record_kept (heap : Nat → ProcessInfo) (nfds : Nat) (sock : Fd) (port : Nat)
    {s₁ s₂ : State} {lg : Launching} {epollAdd : Bool} {c : Child}
    (hr : Lts.Reach step NoKillAll (.init heap nfds sock port) s) (hmode : s.mode = .launching lg)
    (hadd : (managerAddProcess lg.pid s.table.manager lg.errFile lg.stack s.table.nbProcess).1 = 1)
    (hs : step s (.launchReturns epollAdd) = some s₁) (hr₂ : Lts.Reach step NoKillAll s₁ s₂)
    (hc : s₂.children[lg.launch]? = some c) (halive : c.dead = false) :
    ∃ j < maxProcess, (s.table.manager j).stackP = none ∧
      s₁.table.manager j = ⟨some lg.stack, lg.pid, lg.errFile⟩ ∧
      s₂.table.manager j = ⟨some lg.stack, lg.pid, lg.errFile⟩ := by
  obtain ⟨j, hj, hslot⟩ := managerAddProcess_eq_one hadd
  obtain ⟨hfree, hlt, -⟩ := scan_eq_some.mp hj
  have hs₁ : s₁.table = s.table.register lg.pid lg.errFile lg.stack ∧ s₁.children = s.children := by
    simp only [step, State.launchReturns, hmode, Option.some.injEq] at hs
    subst hs
    exact ⟨rfl, rfl⟩
  have hslot₁ : s₁.table.manager j = ⟨some lg.stack, lg.pid, lg.errFile⟩ := by
    rw [hs₁.1]; exact hslot
  have hheld : Held lg.launch j ⟨some lg.stack, lg.pid, lg.errFile⟩ s₁ := by
    refine ⟨?_, fun _ _ _ => hslot₁⟩
    rw [hs₁.2]
    exact launching_child hr lg hmode
  have hd₁ := pidsDistinct_step (pidsDistinct_of_reach hr) (step_effect hs)
  have hinv := hr₂.invariant
    (P := fun s => PidsDistinct s ∧ Held lg.launch j ⟨some lg.stack, lg.pid, lg.errFile⟩ s) ⟨hd₁, hheld⟩
    fun s l s' _ h _ hs =>
      ⟨pidsDistinct_step h.1 (step_effect hs), held_step h.2 h.1 rfl (step_table hs)⟩
  exact ⟨j, hlt, Option.isNone_iff_eq_none.mp hfree, hslot₁,
    hinv.2.slot c hc (Child.unreaped_of_not_dead halive)⟩

/-- The second of two children keeps its slot while the first one terminates, a stop of its own is
seen and a third child takes the pid and the slot of the first. -/
def secondChildStays : List Label :=
  execs 0 "A" 10 20 ++ execs 1 "B" 12 21 ++ [.child 0 (.exit (.exited 0))] ++ handlesSignal ++
    [.child 1 .stop, .child 1 .cont] ++ launches "C" 9 (10, 12) 20

theorem second_record_kept :
    ∃ s s₁ s₂ : State, Lts.Reach step NoKillAll .start s ∧ step s (.launchReturns true) = some s₁ ∧
      Lts.Reach step NoKillAll s₁ s₂ ∧ (s₂.table.manager 0).childId = 20 ∧
      s₂.children[2]? = some ⟨20, "C", .running, .beforeExecve⟩ ∧
      ∃ j < maxProcess, (s.table.manager j).stackP = none ∧
        s₁.table.manager j = ⟨some 4096, 21, 11⟩ ∧ s₂.table.manager j = ⟨some 4096, 21, 11⟩ := by
  let lg : Launching := ⟨1, 21, "B", 8, 11, 4096, 12, []⟩
  obtain ⟨s, hs, hp⟩ := Lts.exists_of_run_map
    (p := fun s : State => s.mode == .launching lg &&
      (managerAddProcess lg.pid s.table.manager lg.errFile lg.stack s.table.nbProcess).1 == 1 &&
      ((step s (.launchReturns true)).bind fun s₁ =>
        (Lts.run (Lts.guarded NoKillAll step) s₁ secondChildStays).map fun s₂ =>
          (s₂.table.manager 0).childId == 20 &&
          s₂.children[2]? == some ⟨20, "C", .running, .beforeExecve⟩ &&
          s₂.children[1]? == some ⟨21, "B", .running, .execd⟩) == some true)
    (show (Lts.run (Lts.guarded NoKillAll step) .start (connects ++ launches "A" 9 (10, 11) 20 ++
      (launches "B" 11 (12, 13) 21).take 2)).map _ = some true by decide +kernel)
  simp only [Bool.and_eq_true, beq_iff_eq] at hp
  obtain ⟨⟨hmode, hadd⟩, hrest⟩ := hp
  obtain ⟨s₁, hs₁, hrest⟩ := Option.bind_eq_some_iff.mp hrest
  obtain ⟨s₂, hs₂, hrest⟩ := Option.map_eq_some_iff.mp hrest
  simp only [Bool.and_eq_true, beq_iff_eq] at hrest
  obtain ⟨⟨hid, hthird⟩, hc⟩ := hrest
  have hr := Lts.reach_of_run hs
  have hr₂ := Lts.reach_of_run hs₂
  exact ⟨s, s₁, s₂, hr, hs₁, hr₂, hid, hthird,
    running_record_kept _ 8 0 8080 hr hmode hadd hs₁ hr₂ hc rfl⟩

/-! ## The counter -/

/-- The children that the daemon has not waited for. -/
def State.unreapedCount (s : State) : Nat := s.children.countP Child.unreaped

/-- `nb_process` is a size of the table, the loops that it bounds stay inside, and a refused launch
changes nothing. -/
structure CounterBounded (s : State) : Prop where
  nonneg : 0 ≤ s.table.nbProcess
  le : s.table.nbProcess ≤ maxProcess
  removes : ∀ pid, (managerRemoveProcess pid s.table.manager s.table.nbProcess).isSome
  frees : (freeManager s.table.manager s.table.nbProcess).isSome
  refused : ∀ lg, s.mode = .launching lg →
    (managerAddProcess lg.pid s.table.manager lg.errFile lg.stack s.table.nbProcess).1 = -1 →
    s.table.register lg.pid lg.errFile lg.stack = s.table

/-- A child is launched while fewer than `MAX_PROCESS` are unreaped and a slot is free, and a signal
is handled while the child it names is unreaped. -/
def CounterFits (s : State) (l : Label) : Prop :=
  (l.clone.isSome → s.unreapedCount < maxProcess ∧
    (scan maxProcess fun j => (s.table.manager j).stackP.isNone).isSome) ∧
  (l.readsSignal → ∀ pid ∈ s.pending, (s.unreaped pid).isSome)

instance (s : State) (l : Label) : Decidable (CounterFits s l) :=
  inferInstanceAs (Decidable ((l.clone.isSome → _ ∧ _ = true) ∧ (l.readsSignal → ∀ pid ∈ s.pending, _ = true)))

/-- The counter is the number of unreaped children that have been registered. -/
structure CounterInv (s : State) : Prop where
  bound : s.unreapedCount ≤ maxProcess
  nonneg : 0 ≤ s.table.nbProcess
  count : (∀ lg, s.mode ≠ .launching lg) → s.table.nbProcess = s.unreapedCount
  launching : ∀ lg, s.mode = .launching lg → s.table.nbProcess + 1 = s.unreapedCount ∧
    (scan maxProcess fun j => (s.table.manager j).stackP.isNone).isSome
  waiting : ∀ pid, s.mode = .waitpid pid → ∃ (k : Nat) (c : Child), s.children[k]? = some c ∧
    c.unreaped = true ∧ c.pid = pid

theorem counterInv_init (heap : Nat → ProcessInfo) (nfds : Nat) (sock : Fd) (port : Nat) :
    CounterInv (.init heap nfds sock port) := by
  refine ⟨?_, le_rfl, fun _ => rfl, ?_, ?_⟩
  · exact Nat.zero_le _
  · intro lg hmode; cases hmode
  · intro pid hmode; cases hmode

theorem CounterInv.accepted (h : CounterInv s) {lg : Launching} (hmode : s.mode = .launching lg) :
    ∃ j, s.table.register lg.pid lg.errFile lg.stack =
        ⟨Function.update s.table.manager j ⟨some lg.stack, lg.pid, lg.errFile⟩, s.table.nbProcess + 1⟩ ∧
      (managerAddProcess lg.pid s.table.manager lg.errFile lg.stack s.table.nbProcess).1 = 1 := by
  obtain ⟨hcount, hfree⟩ := h.launching lg hmode
  obtain ⟨j, hj⟩ := Option.isSome_iff_exists.mp hfree
  have hnb : s.table.nbProcess < maxProcess := by
    have := h.bound
    omega
  refine ⟨j, register_eq _ _ _ hnb hj, ?_⟩
  simp only [managerAddProcess, if_pos hnb, hj]

theorem CounterInv.bounded (h : CounterInv s) : CounterBounded s := by
  have hle : s.table.nbProcess ≤ maxProcess := by
    have hb := h.bound
    by_cases hl : ∃ lg, s.mode = .launching lg
    · obtain ⟨lg, hmode⟩ := hl
      have := (h.launching lg hmode).1
      omega
    · have := h.count fun lg hmode => hl ⟨lg, hmode⟩
      omega
  refine ⟨h.nonneg, hle, fun pid => managerRemoveProcess_isSome hle pid, freeManager_isSome hle, ?_⟩
  intro lg hmode hrefused
  obtain ⟨j, -, hadd⟩ := h.accepted hmode
  rw [hadd] at hrefused
  cases hrefused

/-! The number of unreaped children after a change of one of them. -/

theorem unreapedCount_set {k : Nat} {c c' : Child} (hc : s.children[k]? = some c)
    (hun : c.unreaped = true) (hch : s'.children = s.children.set k c') :
    s'.unreapedCount + 1 = s.unreapedCount + if c'.unreaped then 1 else 0 := by
  obtain ⟨hk, hget⟩ := List.getElem?_eq_some_iff.mp hc
  have hpos : 0 < s.unreapedCount :=
    List.countP_pos_iff.mpr ⟨c, List.mem_of_getElem? hc, hun⟩
  unfold State.unreapedCount at hpos ⊢
  rw [hch, List.countP_set hk, hget, if_pos hun]
  omega

theorem unreapedCount_append {c : Child} (hun : c.unreaped = true) (hch : s'.children = s.children ++ [c]) :
    s'.unreapedCount = s.unreapedCount + 1 := by
  rw [State.unreapedCount, State.unreapedCount, hch, List.countP_append, List.countP_singleton, if_pos hun]

theorem unreapedCount_congr (hch : s'.children = s.children) : s'.unreapedCount = s.unreapedCount := by
  rw [State.unreapedCount, State.unreapedCount, hch]

theorem CounterInv.awaited (h : CounterInv s) (hg : CounterFits s l) {pid : Pid} (ha : s.Awaits l pid) :
    s.unreaped pid ≠ none := by
  intro hnone
  cases ha with
  | signalfd hmode hpend =>
    have := hg.2 rfl pid hpend
    rw [hnone] at this
    cases this
  | waitpid hmode =>
    obtain ⟨k, c, hc, hun, hpid⟩ := h.waiting pid hmode
    rw [State.unreaped_eq_none hnone hc hpid] at hun
    cases hun

theorem counterInv_step (h : CounterInv s) (hg : CounterFits s l) (he : TableEffect s l s') :
    CounterInv s' := by
  cases he with
  | same hch ht hmode =>
    have hcount := unreapedCount_congr hch
    rcases hmode with hm | ⟨hloop, hm⟩
    · refine ⟨?_, ?_, ?_, ?_, ?_⟩ <;> simp only [hcount, ht, hm, hch]
      exacts [h.bound, h.nonneg, h.count, h.launching, h.waiting]
    · have hnb := h.count (by rw [hloop]; simp)
      refine ⟨by rw [hcount]; exact h.bound, by rw [ht]; exact h.nonneg,
        fun _ => by rw [ht, hcount]; exact hnb, ?_, ?_⟩
      · intro lg hlg
        rcases hm with hm | ⟨pid, k, c, hm, -⟩ <;> rw [hm] at hlg <;> cases hlg
      · intro pid hpid
        rw [hch]
        rcases hm with hm | ⟨pid', k, c, hm, hc, hun, rfl⟩ <;> rw [hm] at hpid <;> cases hpid
        exact ⟨k, c, hc, hun, rfl⟩
  | @acts k act c c' hc hact hch ht hmode =>
    have hun := Child.unreaped_of_not_dead (Child.step_alive hact)
    have hcount : s'.unreapedCount = s.unreapedCount := by
      have := unreapedCount_set hc hun hch
      rw [if_pos (Child.step_unreaped hact)] at this
      omega
    refine ⟨?_, ?_, ?_, ?_, ?_⟩ <;> simp only [hcount, ht, hmode]
    exacts [h.bound, h.nonneg, h.count, h.launching, fun pid hpid => by
      obtain ⟨i, d, hd, hdun, rfl⟩ := h.waiting pid hpid
      rw [hch]
      by_cases hki : k = i
      · subst hki
        rw [hc] at hd; cases hd
        exact ⟨k, c', getElem?_set_same c' hc, Child.step_unreaped hact, Child.step_pid hact⟩
      · exact ⟨i, d, by rw [List.getElem?_set_ne hki]; exact hd, hdun, rfl⟩]
  | clones hl hmode hpid hlg hlgpid hch ht hmode' =>
    subst hl
    obtain ⟨hlt, hfree⟩ := hg.1 rfl
    have hcount := unreapedCount_append rfl hch
    have hnb := h.count (by rw [hmode]; simp)
    refine ⟨by omega, by rw [ht]; exact h.nonneg, fun hne => absurd hmode' (hne _), ?_, ?_⟩
    · intro lg' hlg'
      rw [ht, hcount]
      exact ⟨by push_cast; omega, hfree⟩
    · intro pid' hpid'
      rw [hmode'] at hpid'; cases hpid'
  | registers hmode hch ht hmode' =>
    have hcount := unreapedCount_congr hch
    obtain ⟨j, hreg, -⟩ := h.accepted hmode
    have hnb := (h.launching _ hmode).1
    have hnonneg := h.nonneg
    rw [hreg] at ht
    have ht' : s'.table.nbProcess = s.table.nbProcess + 1 := by rw [ht]
    refine ⟨by rw [hcount]; exact h.bound, by omega, fun _ => by omega, ?_, ?_⟩
    · intro lg' hlg'
      rw [hmode'] at hlg'; cases hlg'
    · intro pid' hpid'
      rw [hmode'] at hpid'; cases hpid'
  | @reaps pid closed k c status hmode hc hpid hz hch ht hmode' =>
    have hun : c.unreaped = true := by simp [Child.unreaped, hz]
    have hcount := unreapedCount_set hc hun hch
    have hnb := h.count (by rcases hmode with hm | hm <;> rw [hm] <;> simp)
    have hrel := release_nbProcess ht
    have hbound := h.bound
    simp only [Child.unreaped, Bool.false_eq_true, if_false, Nat.add_zero] at hcount
    refine ⟨by omega, by omega, fun _ => by omega, ?_, ?_⟩
    · intro lg' hlg'
      rw [hmode'] at hlg'; cases hlg'
    · intro pid' hpid'
      rw [hmode'] at hpid'; cases hpid'
  | fails hmode hnone hch ht hmode' => exact absurd hnone (h.awaited hg hmode)

/-- In every run whose launches fit and whose signals name unreaped children, `nb_process` is a size
of the table. -/
theorem counter_bounded (heap : Nat → ProcessInfo) (nfds : Nat) (sock : Fd) (port : Nat)
    (hr : Lts.Reach step CounterFits (.init heap nfds sock port) s) : CounterBounded s := by
  have hinv := hr.invariant (counterInv_init heap nfds sock port)
    fun _ _ _ _ h hg hs => counterInv_step h hg (step_table hs)
  exact hinv.bounded

/-- A child that is stopped and then killed is counted down twice, and a child that
`manager_add_process` refuses is counted up. -/
theorem counter_below_zero :
    (∃ s, Lts.Reachable step .start s ∧ s.table.nbProcess = -1 ∧ ¬ CounterBounded s) ∧
    ∀ (s s' : State) (lg : Launching) (epollAdd : Bool), s.mode = .launching lg →
      (managerAddProcess lg.pid s.table.manager lg.errFile lg.stack s.table.nbProcess).1 = -1 →
      step s (.launchReturns epollAdd) = some s' →
      s'.table.nbProcess = s.table.nbProcess + 1 ∧ ¬ CounterBounded s := by
  constructor
  · obtain ⟨s, hs, hp⟩ := Lts.exists_of_run_map (p := fun s => s.table.nbProcess == -1)
      (show (Lts.run step .start stopThenKill).map _ = some true by decide +kernel)
    rw [beq_iff_eq] at hp
    refine ⟨s, Lts.reachable_of_run hs, hp, ?_⟩
    intro hb
    have := hb.nonneg
    omega
  · intro s s' lg epollAdd hmode hrefused hs
    have hreg := register_eq_of_refused hrefused
    have ht : s'.table = s.table.register lg.pid lg.errFile lg.stack := by
      simp only [step, State.launchReturns, hmode, Option.some.injEq] at hs
      rw [← hs]
    refine ⟨by rw [ht, hreg], ?_⟩
    intro hb
    have hsame := congrArg ProcessTable.nbProcess (hb.refused lg hmode hrefused)
    rw [hreg] at hsame
    simp only at hsame
    omega

/-- Two children, the second one gone first. -/
theorem two_children_counted :
    ∃ s, Lts.Reach step CounterFits .start s ∧ s.table.nbProcess = 1 ∧ CounterBounded s := by
  obtain ⟨s, hs, hp⟩ := Lts.exists_of_run_map (p := fun s => s.table.nbProcess == 1)
    (show (Lts.run (Lts.guarded CounterFits step) .start
      (connects ++ launches "A" 9 (10, 11) 20 ++ launches "B" 11 (12, 13) 21 ++ execs 1 "B" 12 21 ++
        [.child 1 (.exit (.exited 3))] ++ handlesSignal)).map _ = some true by decide +kernel)
  rw [beq_iff_eq] at hp
  have hreach := Lts.reach_of_run hs
  exact ⟨s, hreach, hp, counter_bounded _ 8 0 8080 hreach⟩

end ProcCtrld
