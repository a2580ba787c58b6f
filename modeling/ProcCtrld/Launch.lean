import ProcCtrld.Effects
import Mathlib.Data.List.Pairwise

/-!
# ProcCtrld.Launch

The launch protocol of the C daemon: what a client is told about one launch.

`LaunchReported` is the contract: one `ProcessLaunched`, first of all; at most one
`ExecveTerminated`, with the pid and the path of the launch; and exactly one once the child has
exec'd or is gone and no event of its pipe is unhandled. `launch_reported` proves it for every run
in which no `close` hits the number of a registered pipe (`PipesKept`).

The daemon breaks that condition by itself. `manager_remove_process` closes the error file of the
slot it finds without looking whether the slot is in use, so a second SIGCHLD of a child that was
stopped closes a number that may belong to the pipe of a later launch
(`stale_close_loses_execve_terminated`).
-/

namespace ProcCtrld

variable {s s' : State} {l : Label}

/-- The `ExecveTerminated` messages about launch `k`. -/
def State.execves (s : State) (k : Nat) : List Msg := (s.log k).filter Msg.isExecveTerminated

/-- What may follow the `ProcessLaunched` of a launch: its `ExecveTerminated`, and terminations. -/
def Follows (pid : Pid) (path : String) (m : Msg) : Prop :=
  (∃ success, m = .execveTerminated pid path success) ∨ m.isProcessTerminated = true

/-- One `ProcessLaunched`, then messages about the same process. -/
def LogShape (pid : Pid) (path : String) (log : List Msg) : Prop :=
  ∃ rest, log = .processLaunched pid :: rest ∧ ∀ m ∈ rest, Follows pid path m

structure LaunchReported (s : State) (k : Nat) (c : Child) : Prop where
  shape : LogShape c.pid c.path (s.log k)
  once : (s.execves k).length ≤ 1
  handled : c.phase = .execd ∨ c.dead = true →
    (∀ e ∈ s.pipes, e.launch = k → s.ready (.execve e) = false) → (s.execves k).length = 1

/-- `process_command_request` has not come back from the launch of `k`. -/
def State.InProgress (s : State) (k : Nat) : Prop := ∃ l, s.mode = .launching l ∧ l.launch = k

/-- No `close` hits the number of a registered pipe. -/
def PipesUnhit (s : State) (l : Label) : Prop := ∀ fd ∈ s.closes l, ∀ e ∈ s.pipes, e.fd ≠ fd

instance (s : State) (l : Label) : Decidable (PipesUnhit s l) :=
  inferInstanceAs (Decidable (∀ fd ∈ s.closes l, ∀ e ∈ s.pipes, e.fd ≠ fd))

/-- No `close` hits a registered pipe, and `add_event_pipeExecve` succeeds. -/
def PipesKept (s : State) (l : Label) : Prop := PipesUnhit s l ∧ l ≠ .launchReturns false ∧ l.Ordinary

instance (s : State) (l : Label) : Decidable (PipesKept s l) :=
  inferInstanceAs (Decidable (PipesUnhit s l ∧ l ≠ .launchReturns false ∧ l.Ordinary))

/-! ## Registered pipes -/

/-- A registered pipe belongs to its launch, and so does the one of a launch in progress. -/
structure PipesInv (s : State) : Prop where
  fds : ∀ e ∈ s.pipes, s.fds e.fd = some (.pipeRead e.launch)
  child : ∀ e ∈ s.pipes, ∃ c : Child, s.children[e.launch]? = some c ∧ c.pid = e.pid ∧ c.path = e.path
  unfreed : ∀ e ∈ s.pipes, e.launch ∉ s.freed
  distinct : s.pipes.Pairwise fun e e' => e.launch ≠ e'.launch
  batch : ∀ e, .execve e ∈ s.batch → e ∈ s.pipes
  nodup : s.batch.Nodup
  freed : ∀ k ∈ s.freed, k < s.children.length
  launching : ∀ l, s.mode = .launching l → s.fds l.pipe = some (.pipeRead l.launch) ∧
    (∃ c : Child, s.children[l.launch]? = some c ∧ c.pid = l.pid ∧ c.path = l.path) ∧
    l.launch ∉ s.freed ∧ ∀ e ∈ s.pipes, e.launch ≠ l.launch

theorem PipesInv.unique (h : PipesInv s) {e e' : PipeExecve} (he : e ∈ s.pipes) (he' : e' ∈ s.pipes)
    (hl : e.launch = e'.launch) : e = e' := by
  have : Std.Symm fun e e' : PipeExecve => e.launch ≠ e'.launch := ⟨fun _ _ hne => hne.symm⟩
  by_contra hne
  exact h.distinct.forall he he' hne hl

theorem pipesInv_init (heap : Nat → ProcessInfo) (nfds : Nat) (sock : Fd) (port : Nat) :
    PipesInv (.init heap nfds sock port) := by
  refine ⟨?_, ?_, ?_, ?_, ?_, ?_, ?_, ?_⟩ <;> simp [State.init]

/-- The steps that close no registered pipe, open none and end no launch. -/
theorem PipesInv.of_closes {fd : Option Fd} (h : PipesInv s) (hcl : Closes fd s s')
    (hfd : ∀ e ∈ s.pipes, fd ≠ some e.fd) (hch : SameChild s s') (hfreed : s'.freed = s.freed)
    (hbatch : s'.batch <:+ s.batch)
    (hmode : ∀ l, s'.mode = .launching l → s.mode = .launching l ∧ fd ≠ some l.pipe) :
    PipesInv s' := by
  have hsub : ∀ e ∈ s'.pipes, e ∈ s.pipes := fun e he => hcl.sub.subset he
  refine ⟨?_, ?_, ?_, ?_, ?_, ?_, ?_, ?_⟩
  · intro e he
    exact hcl.fds e.fd e.launch (h.fds e (hsub e he)) (hfd e (hsub e he))
  · intro e he
    obtain ⟨c, hc, hpid, hpath⟩ := h.child e (hsub e he)
    obtain ⟨c', hc', hpid', hpath'⟩ := hch _ c hc
    exact ⟨c', hc', by rw [hpid', hpid], by rw [hpath', hpath]⟩
  · intro e he
    rw [hfreed]
    exact h.unfreed e (hsub e he)
  · exact h.distinct.sublist hcl.sub
  · intro e he
    have hmem := h.batch e (hbatch.subset he)
    exact hcl.kept e hmem (hfd e hmem)
  · exact h.nodup.sublist hbatch.sublist
  · intro k hk
    rw [hfreed] at hk
    have := h.freed k hk
    have := hch.length
    omega
  · intro l hl
    obtain ⟨hl', hne⟩ := hmode l hl
    obtain ⟨hfds, ⟨c, hc, hpid, hpath⟩, hfr, hpipes⟩ := h.launching l hl'
    obtain ⟨c', hc', hpid', hpath'⟩ := hch _ c hc
    refine ⟨hcl.fds _ _ hfds hne, ⟨c', hc', by rw [hpid', hpid], by rw [hpath', hpath]⟩, ?_, ?_⟩
    · rw [hfreed]; exact hfr
    · exact fun e he => hpipes e (hsub e he)

theorem PipesInv.mem_closeFd (h : PipesInv s) {e e' : PipeExecve} (he : e ∈ s.pipes) :
    e' ∈ (s.closeFd e.fd false).pipes ↔ e' ∈ s.pipes ∧ e'.launch ≠ e.launch := by
  simp only [State.closeFd, Bool.false_eq_true, if_false, List.mem_filter, h.fds e he,
    Option.some.injEq, Obj.pipeRead.injEq, decide_eq_true_eq, not_and]
  constructor
  · rintro ⟨hmem, hne⟩
    refine ⟨hmem, ?_⟩
    intro hl
    rw [h.unique hmem he hl] at hne
    exact hne rfl rfl
  · rintro ⟨hmem, hne⟩
    exact ⟨hmem, fun _ hl => hne hl.symm⟩

theorem pipesInv_execve {e : PipeExecve} {rest : List Ready} (h : PipesInv s) (hmode : s.mode = .loop)
    (hbatch : s.batch = .execve e :: rest) {sent : List Sent} :
    PipesInv { s.closeFd e.fd false with
      batch := rest, freed := e.launch :: s.freed, sent := sent } := by
  have he : e ∈ s.pipes := h.batch e (by rw [hbatch]; simp)
  have hmem : ∀ e', e' ∈ (s.closeFd e.fd false).pipes ↔ e' ∈ s.pipes ∧ e'.launch ≠ e.launch :=
    fun e' => h.mem_closeFd he
  have hnodup := h.nodup
  rw [hbatch, List.nodup_cons] at hnodup
  refine ⟨?_, ?_, ?_, ?_, ?_, hnodup.2, ?_, ?_⟩
  · intro e' he'
    obtain ⟨hin, hne⟩ := (hmem e').mp he'
    have hfd : e'.fd ≠ e.fd := by
      intro heq
      have := h.fds e' hin
      rw [heq, h.fds e he] at this
      exact hne (Obj.pipeRead.inj (Option.some.inj this)).symm
    simp only [State.closeFd]
    rw [Function.update_of_ne hfd]
    exact h.fds e' hin
  · intro e' he'
    exact h.child e' ((hmem e').mp he').1
  · intro e' he'
    obtain ⟨hin, hne⟩ := (hmem e').mp he'
    simp only [List.mem_cons, not_or]
    exact ⟨hne, h.unfreed e' hin⟩
  · refine h.distinct.sublist ?_
    simp only [State.closeFd, Bool.false_eq_true, if_false]
    exact List.filter_sublist
  · intro e' he'
    refine (hmem e').mpr ⟨h.batch e' (by rw [hbatch]; exact List.mem_cons_of_mem _ he'), ?_⟩
    intro hl
    have hin : e' ∈ s.pipes := h.batch e' (by rw [hbatch]; exact List.mem_cons_of_mem _ he')
    rw [h.unique hin he hl] at he'
    exact hnodup.1 he'
  · intro k hk
    rcases List.mem_cons.mp hk with rfl | hk
    · obtain ⟨c, hc, -, -⟩ := h.child e he
      exact (List.getElem?_eq_some_iff.mp hc).1
    · exact h.freed k hk
  · intro l hl
    simp only [State.closeFd] at hl
    rw [hmode] at hl; cases hl

theorem pipesInv_launched {epollAdd : Bool} {l : Launching} {table : ProcessTable} {sent : List Sent}
    (h : PipesInv s) (hmode : s.mode = .launching l) :
    PipesInv { s with
      mode := .loop
      table := table
      pipes := if epollAdd then s.pipes ++ [⟨l.pipe, l.pid, l.path, l.launch⟩] else s.pipes
      fds := if epollAdd then s.fds else Function.update s.fds l.pipe none
      sent := sent } := by
  obtain ⟨hfds, hchild, hfr, hpipes⟩ := h.launching l hmode
  cases epollAdd with
  | false =>
    refine ⟨?_, h.child, h.unfreed, h.distinct, h.batch, h.nodup, h.freed, by simp⟩
    intro e he
    have hne : e.fd ≠ l.pipe := by
      intro heq
      have := h.fds e he
      rw [heq, hfds] at this
      exact hpipes e he (Obj.pipeRead.inj (Option.some.inj this)).symm
    simpa [hne] using h.fds e he
  | true =>
    refine ⟨?_, ?_, ?_, ?_, ?_, h.nodup, h.freed, by simp⟩
    · intro e he
      rcases List.mem_append.mp he with he | he
      · exact h.fds e he
      · rw [List.mem_singleton] at he; subst he; exact hfds
    · intro e he
      rcases List.mem_append.mp he with he | he
      · exact h.child e he
      · rw [List.mem_singleton] at he; subst he; exact hchild
    · intro e he
      rcases List.mem_append.mp he with he | he
      · exact h.unfreed e he
      · rw [List.mem_singleton] at he; subst he; exact hfr
    · simp only [if_true]
      refine List.pairwise_append.mpr ⟨h.distinct, List.pairwise_singleton _ _, ?_⟩
      intro e he e' he'
      rw [List.mem_singleton] at he'; subst he'
      exact hpipes e he
    · intro e he
      exact List.mem_append_left _ (h.batch e he)

theorem pipesInv_step (h : PipesInv s) (hg : PipesUnhit s l) (he : Effect s l s') : PipesInv s' := by
  have hguard : ∀ e ∈ s.pipes, s.closes l ≠ some e.fd := fun e hmem hfd => hg e.fd hfd e hmem rfl
  cases he with
  | @child k act c c' hc hact =>
    exact h.of_closes (closes_same none rfl rfl) (by simp)
      (sameChild_set hc (Child.step_pid hact) (Child.step_path hact) rfl) rfl (List.suffix_refl _)
      fun l hl => ⟨hl, by simp⟩
  | quiet hq hcl hbusy =>
    by_cases hloop : s.mode = .loop
    · refine h.of_closes hcl hguard (sameChild_of_eq hq.children) hq.freed hq.batch ?_
      intro l hl
      rcases hq.mode with hm | ⟨-, hm⟩
      · rw [hm, hloop] at hl; cases hl
      · rw [hm] at hl; cases hl
    · refine h.of_closes (hbusy hloop) (by simp) (sameChild_of_eq hq.children) hq.freed hq.batch
        fun l hl => ⟨?_, by simp⟩
      rcases hq.mode with hm | ⟨hm, -⟩
      · rw [← hm]; exact hl
      · exact absurd hm hloop
  | epollWait hmode hnodup hready =>
    refine ⟨h.fds, h.child, h.unfreed, h.distinct, ?_, hnodup, h.freed, h.launching⟩
    intro e he
    have := hready _ he
    simp only [State.ready, Bool.and_eq_true, decide_eq_true_eq] at this
    exact this.1
  | blocks hmode hbatch hpend hc hpid hun halive =>
    refine h.of_closes (closes_same none rfl rfl) (by simp) (sameChild_of_eq rfl) rfl
      ?_ (by simp)
    rw [hbatch]; exact List.suffix_cons _ _
  | reaps hh hc hpid hz hch =>
    refine h.of_closes hh.closes hguard (sameChild_set hc ?_ ?_ hch) hh.freed hh.batch_suffix
      (by rw [hh.mode]; simp)
    · rfl
    · rfl
  | fails hh hnone hch =>
    exact h.of_closes hh.closes hguard (sameChild_of_eq hch) hh.freed hh.batch_suffix
      (by rw [hh.mode]; simp)
  | execve hmode hbatch hfree hread => exact pipesInv_execve h hmode hbatch
  | @clones com errFile pipefd pid stack rest sock err fds hmode hbatch hkept hnew hpid =>
    have hlt : ∀ e ∈ s.pipes, e.launch < s.children.length := by
      intro e he
      obtain ⟨c, hc, -, -⟩ := h.child e he
      exact (List.getElem?_eq_some_iff.mp hc).1
    refine ⟨fun e he => hkept _ _ (h.fds e he), ?_, h.unfreed, h.distinct, ?_, ?_, ?_, ?_⟩
    · intro e he
      obtain ⟨c, hc, hpid', hpath'⟩ := h.child e he
      exact ⟨c, by rw [List.getElem?_append_left (hlt e he)]; exact hc, hpid', hpath'⟩
    · intro e he
      exact h.batch e (by rw [hbatch]; exact List.mem_cons_of_mem _ he)
    · have := h.nodup
      rw [hbatch, List.nodup_cons] at this
      exact this.2
    · intro k hk
      have := h.freed k hk
      simp only [List.length_append, List.length_singleton]
      omega
    · intro l hl
      cases hl
      refine ⟨hnew, ⟨_, List.getElem?_concat_length, rfl, rfl⟩, fun hmem => ?_, fun e he => ?_⟩
      · exact absurd (h.freed _ hmem) (lt_irrefl _)
      · exact (hlt e he).ne
  | @launched epollAdd l hmode => exact pipesInv_launched h hmode

/-! ## Logs -/

/-- A launch has its `ExecveTerminated` exactly when its pipe is no longer registered. -/
structure LogInv (s : State) : Prop where
  fresh : ∀ k, s.children.length ≤ k → s.log k = []
  launching : ∀ l, s.mode = .launching l → s.log l.launch = []
  shape : ∀ (k : Nat) (c : Child), s.children[k]? = some c → ¬ s.InProgress k →
    LogShape c.pid c.path (s.log k)
  registered : ∀ e ∈ s.pipes, s.execves e.launch = []
  handled : ∀ k, k < s.children.length → ¬ s.InProgress k → (∀ e ∈ s.pipes, e.launch ≠ k) →
    (s.execves k).length = 1

theorem logInv_init (heap : Nat → ProcessInfo) (nfds : Nat) (sock : Fd) (port : Nat) :
    LogInv (.init heap nfds sock port) := by
  refine ⟨fun _ _ => rfl, ?_, ?_, ?_, ?_⟩ <;> simp [State.init]

theorem LogShape.append {pid : Pid} {path : String} {log ms : List Msg} (h : LogShape pid path log)
    (hms : ∀ m ∈ ms, Follows pid path m) : LogShape pid path (log ++ ms) := by
  obtain ⟨rest, rfl, hrest⟩ := h
  refine ⟨rest ++ ms, rfl, ?_⟩
  intro m hm
  rcases List.mem_append.mp hm with hm | hm
  · exact hrest m hm
  · exact hms m hm

theorem not_execve_of_terminated {m : Msg} (h : m.isProcessTerminated = true) :
    m.isExecveTerminated = false := by
  cases m <;> first | rfl | cases h

theorem execves_append {k : Nat} {ms : List Msg} (h : s'.log k = s.log k ++ ms) :
    s'.execves k = s.execves k ++ ms.filter Msg.isExecveTerminated := by
  rw [State.execves, h, List.filter_append]
  rfl

/-- The steps that only report terminations. -/
theorem LogInv.of_terminations (h : LogInv s) (hch : SameChild s s')
    (hlen : s'.children.length = s.children.length)
    (hmode : ∀ l, s'.mode = .launching l ↔ s.mode = .launching l)
    (hpipes : ∀ e, e ∈ s'.pipes ↔ e ∈ s.pipes)
    (hlog : ∀ k, s'.log k = s.log k ∨ (k < s.children.length ∧ ¬ s.InProgress k ∧
      ∃ m, m.isProcessTerminated = true ∧ s'.log k = s.log k ++ [m])) : LogInv s' := by
  have hprog : ∀ k, s'.InProgress k ↔ s.InProgress k := by
    intro k
    simp only [State.InProgress, hmode]
  have hexec : ∀ k, s'.execves k = s.execves k := by
    intro k
    rcases hlog k with hk | ⟨-, -, m, hm, hk⟩
    · rw [State.execves, hk]; rfl
    · rw [execves_append hk]
      simp [not_execve_of_terminated hm]
  refine ⟨?_, ?_, ?_, ?_, ?_⟩
  · intro k hk
    rw [hlen] at hk
    rcases hlog k with hk' | ⟨hlt, -⟩
    · rw [hk']; exact h.fresh k hk
    · omega
  · intro l hl
    have hl' := (hmode l).mp hl
    rcases hlog l.launch with hk | ⟨-, hnot, -⟩
    · rw [hk]; exact h.launching l hl'
    · exact absurd ⟨l, hl', rfl⟩ hnot
  · intro k c' hc' hnot
    rw [hprog] at hnot
    have hlt : k < s.children.length := by
      rw [← hlen]; exact (List.getElem?_eq_some_iff.mp hc').1
    obtain ⟨c'', hc'', hpid, hpath⟩ := hch k _ (List.getElem?_eq_getElem hlt)
    rw [hc'] at hc''; cases hc''
    have hshape := h.shape k _ (List.getElem?_eq_getElem hlt) hnot
    rw [← hpid, ← hpath] at hshape
    rcases hlog k with hk | ⟨-, -, m, hm, hk⟩
    · rw [hk]; exact hshape
    · rw [hk]
      refine hshape.append ?_
      intro m' hm'
      rw [List.mem_singleton] at hm'; subst hm'
      exact .inr hm
  · intro e he
    rw [hexec]
    exact h.registered e ((hpipes e).mp he)
  · intro k hk hnot hreg
    rw [hexec]
    exact h.handled k (by omega) (by rw [← hprog]; exact hnot) fun e he => hreg e ((hpipes e).mpr he)

theorem Handled.not_launching {pid : Pid} {launch : Option Nat} {exitStatus : Nat}
    (hh : Handled s l s' pid launch exitStatus) (l' : Launching) : s.mode ≠ .launching l' := by
  rcases hh.awaited with ⟨hm, -⟩ | ⟨hm, -⟩ <;> rw [hm] <;> simp

theorem logInv_handled {pid : Pid} {launch : Option Nat} {exitStatus : Nat} (h : LogInv s)
    (hh : Handled s l s' pid launch exitStatus) (hch : SameChild s s')
    (hlen : s'.children.length = s.children.length) (hpipes : ∀ e, e ∈ s'.pipes ↔ e ∈ s.pipes)
    (hlaunch : ∀ k, launch = some k → k < s.children.length) : LogInv s' := by
  refine h.of_terminations hch hlen ?_ hpipes ?_
  · intro l'
    refine iff_of_false ?_ (hh.not_launching l')
    rw [hh.mode]; simp
  · intro k
    have hlog := hh.log k
    split at hlog
    · rename_i hk
      refine .inr ⟨hlaunch k hk, ?_, _, rfl, hlog⟩
      rintro ⟨l', hl', -⟩
      exact hh.not_launching l' hl'
    · exact .inl (by rw [hlog, List.append_nil])

theorem logInv_execve {e : PipeExecve} {rest : List Ready} {success : Bool} {sock : Fd} (h : LogInv s)
    (hp : PipesInv s) (hmode : s.mode = .loop) (hbatch : s.batch = .execve e :: rest) :
    LogInv { s.closeFd e.fd false with
      batch := rest
      freed := e.launch :: s.freed
      sent := s.sent ++ [⟨sock, .execveTerminated e.pid e.path success, some e.launch⟩] } := by
  have he : e ∈ s.pipes := hp.batch e (by rw [hbatch]; simp)
  obtain ⟨c, hc, hpid, hpath⟩ := hp.child e he
  generalize hs' : ({ s.closeFd e.fd false with
      batch := rest
      freed := e.launch :: s.freed
      sent := s.sent ++ [⟨sock, .execveTerminated e.pid e.path success, some e.launch⟩] } : State) = s'
  have hchildren : s'.children = s.children := by rw [← hs']; rfl
  have hmode' : s'.mode = s.mode := by rw [← hs']; rfl
  have hsent : s'.sent = s.sent ++ [⟨sock, .execveTerminated e.pid e.path success, some e.launch⟩] := by
    rw [← hs']
  have hpipes : ∀ e', e' ∈ s'.pipes ↔ e' ∈ s.pipes ∧ e'.launch ≠ e.launch := by
    intro e'
    rw [← hs']
    exact hp.mem_closeFd he
  have hother : ∀ k, k ≠ e.launch → s'.log k = s.log k := fun k =>
    log_of_tagged_ne hsent (about_nil k)
  have hself : s'.log e.launch = s.log e.launch ++ [.execveTerminated e.pid e.path success] :=
    log_of_tagged hsent (about_nil _)
  have hnone : ∀ k, ¬ s.InProgress k := by
    rintro k ⟨l', hl', -⟩
    rw [hmode] at hl'; cases hl'
  refine ⟨?_, ?_, ?_, ?_, ?_⟩
  · intro k hk
    rw [hchildren] at hk
    have := (List.getElem?_eq_some_iff.mp hc).1
    rw [hother k (by omega)]
    exact h.fresh k hk
  · intro l' hl'
    rw [hmode', hmode] at hl'; cases hl'
  · intro k d hd _
    rw [hchildren] at hd
    by_cases hk : k = e.launch
    · subst hk
      rw [hc] at hd; cases hd
      rw [hself]
      refine (h.shape _ c hc (hnone _)).append ?_
      intro m hm
      rw [List.mem_singleton] at hm; subst hm
      exact .inl ⟨success, by rw [hpid, hpath]⟩
    · rw [hother k hk]
      exact h.shape k d hd (hnone k)
  · intro e' he'
    obtain ⟨hin, hne⟩ := (hpipes e').mp he'
    rw [State.execves, hother _ hne]
    exact h.registered e' hin
  · intro k hk _ hreg
    rw [hchildren] at hk
    by_cases hke : k = e.launch
    · subst hke
      rw [execves_append hself, h.registered e he]
      rfl
    · rw [State.execves, hother k hke]
      refine h.handled k hk (hnone k) ?_
      intro e' he' hl
      exact hreg e' ((hpipes e').mpr ⟨he', by rw [hl]; exact hke⟩) hl

theorem logInv_launched {l : Launching} {table : ProcessTable} {acks : List Sent} (h : LogInv s)
    (hp : PipesInv s) (hmode : s.mode = .launching l) (hacks : ∀ k, about k acks = []) :
    LogInv { s with
      mode := .loop
      table := table
      pipes := s.pipes ++ [⟨l.pipe, l.pid, l.path, l.launch⟩]
      fds := s.fds
      sent := s.sent ++ (⟨l.sock, .processLaunched l.pid, some l.launch⟩ :: acks) } := by
  obtain ⟨-, ⟨c, hc, hpid, hpath⟩, -, hpipes⟩ := hp.launching l hmode
  generalize hs' : ({ s with
      mode := .loop
      table := table
      pipes := s.pipes ++ [⟨l.pipe, l.pid, l.path, l.launch⟩]
      fds := s.fds
      sent := s.sent ++ (⟨l.sock, .processLaunched l.pid, some l.launch⟩ :: acks) } : State) = s'
  have hchildren : s'.children = s.children := by rw [← hs']
  have hmode' : s'.mode = .loop := by rw [← hs']
  have hsent : s'.sent = s.sent ++ (⟨l.sock, .processLaunched l.pid, some l.launch⟩ :: acks) := by
    rw [← hs']
  have hpipes' : s'.pipes = s.pipes ++ [⟨l.pipe, l.pid, l.path, l.launch⟩] := by rw [← hs']
  have hother : ∀ k, k ≠ l.launch → s'.log k = s.log k := fun k =>
    log_of_tagged_ne hsent (hacks k)
  have hself : s'.log l.launch = [.processLaunched l.pid] := by
    rw [log_of_tagged hsent (hacks _), h.launching l hmode]
    rfl
  have hnot : ∀ k, k ≠ l.launch → ¬ s.InProgress k := by
    rintro k hk ⟨l', hl', rfl⟩
    rw [hmode] at hl'; cases hl'
    exact hk rfl
  refine ⟨?_, ?_, ?_, ?_, ?_⟩
  · intro k hk
    rw [hchildren] at hk
    have := (List.getElem?_eq_some_iff.mp hc).1
    rw [hother k (by omega)]
    exact h.fresh k hk
  · intro l' hl'
    rw [hmode'] at hl'; cases hl'
  · intro k d hd _
    rw [hchildren] at hd
    by_cases hk : k = l.launch
    · subst hk
      rw [hc] at hd; cases hd
      rw [hself, ← hpid]
      exact ⟨[], rfl, by simp⟩
    · rw [hother k hk]
      exact h.shape k d hd (hnot k hk)
  · intro e he
    rw [hpipes'] at he
    rcases List.mem_append.mp he with he | he
    · rw [State.execves, hother _ (hpipes e he)]
      exact h.registered e he
    · rw [List.mem_singleton] at he; subst he
      rw [State.execves, hself]
      rfl
  · intro k hk _ hreg
    rw [hchildren] at hk
    rw [hpipes'] at hreg
    have hne : k ≠ l.launch := fun e => hreg _ (List.mem_append_right _ (List.mem_singleton.mpr rfl)) e.symm
    rw [State.execves, hother k hne]
    exact h.handled k hk (hnot k hne) fun e he => hreg e (List.mem_append_left _ he)

theorem logInv_clones {l : Launching} {c : Child} (h : LogInv s) (hmode : s.mode = .loop)
    (hch : s'.children = s.children ++ [c]) (hl : l.launch = s.children.length)
    (hmode' : s'.mode = .launching l) (hpipes : s'.pipes = s.pipes) (hsent : s'.sent = s.sent) :
    LogInv s' := by
  have hlog : ∀ k, s'.log k = s.log k := fun k => by rw [State.log_eq, State.log_eq, hsent]
  have hexec : ∀ k, s'.execves k = s.execves k := fun k => by rw [State.execves, hlog]; rfl
  have hnone : ∀ k, ¬ s.InProgress k := by
    rintro k ⟨l', hl', -⟩
    rw [hmode] at hl'; cases hl'
  refine ⟨?_, ?_, ?_, ?_, ?_⟩
  · intro k hk
    rw [hch, List.length_append] at hk
    rw [hlog]
    exact h.fresh k (by omega)
  · intro l' hl'
    rw [hmode'] at hl'; cases hl'
    rw [hlog]
    exact h.fresh _ hl.ge
  · intro k d hd hnot
    rw [hch] at hd
    rcases getElem?_append_some hd with hd | ⟨rfl, -⟩
    · rw [hlog]
      exact h.shape k d hd (hnone k)
    · exact absurd ⟨l, hmode', hl⟩ hnot
  · intro e he
    rw [hpipes] at he
    rw [hexec]
    exact h.registered e he
  · intro k hk hnot hreg
    rw [hch, List.length_append, List.length_singleton] at hk
    rw [hpipes] at hreg
    have hne : k ≠ s.children.length := fun e => hnot ⟨l, hmode', by rw [hl, e]⟩
    rw [hexec]
    exact h.handled k (by omega) (hnone k) hreg

theorem logInv_step (h : LogInv s) (hp : PipesInv s) (hg : PipesKept s l) (he : Effect s l s') :
    LogInv s' := by
  have hguard : ∀ e ∈ s.pipes, s.closes l ≠ some e.fd := fun e hmem hfd => hg.1 e.fd hfd e hmem rfl
  have hkept : Closes (s.closes l) s s' → ∀ e, e ∈ s'.pipes ↔ e ∈ s.pipes := fun hcl e =>
    ⟨fun hmem => hcl.sub.subset hmem, fun hmem => hcl.kept e hmem (hguard e hmem)⟩
  cases he with
  | @child k act c c' hc hact =>
    exact h.of_terminations (sameChild_set hc (Child.step_pid hact) (Child.step_path hact) rfl)
      (List.length_set ..) (fun _ => Iff.rfl) (fun _ => Iff.rfl) fun _ => .inl rfl
  | quiet hq hcl hbusy =>
    refine h.of_terminations (sameChild_of_eq hq.children) (by rw [hq.children]) ?_
      (hkept hcl) fun k => .inl (hq.log k)
    intro l'
    rcases hq.mode with hm | ⟨hm, hm'⟩
    · rw [hm]
    · rw [hm, hm']; simp
  | epollWait hmode hnodup hready =>
    exact h.of_terminations (sameChild_of_eq rfl) rfl (fun _ => Iff.rfl) (fun _ => Iff.rfl)
      fun _ => .inl rfl
  | blocks hmode hbatch hpend hc hpid hun halive =>
    refine h.of_terminations (sameChild_of_eq rfl) rfl ?_ (fun _ => Iff.rfl) fun _ => .inl rfl
    intro l'
    rw [hmode]; simp
  | reaps hh hc hpid hz hch =>
    refine logInv_handled h hh (sameChild_set hc ?_ ?_ hch) (by rw [hch, List.length_set])
      (hkept hh.closes) ?_
    · rfl
    · rfl
    · intro k hk
      cases hk
      exact (List.getElem?_eq_some_iff.mp hc).1
  | fails hh hnone hch =>
    refine logInv_handled h hh (sameChild_of_eq hch) (by rw [hch]) (hkept hh.closes) ?_
    intro k hk
    obtain ⟨c, hc, -⟩ := State.latest_eq_some hk
    exact (List.getElem?_eq_some_iff.mp hc).1
  | execve hmode hbatch hfree hread => exact logInv_execve h hp hmode hbatch
  | clones hmode hbatch hkept' hnew hpid => exact logInv_clones h hmode rfl rfl rfl rfl rfl
  | @launched epollAdd l hmode =>
    cases epollAdd with
    | false => exact absurd rfl hg.2.1
    | true => exact logInv_launched h hp hmode fun k => about_surveillanceAcks k _ _

/-- The invariants of the runs in which no registered pipe is closed. -/
structure LaunchInv (s : State) : Prop where
  pipes : PipesInv s
  logs : LogInv s

theorem launchInv_of_reach {heap : Nat → ProcessInfo} {nfds : Nat} {sock : Fd} {port : Nat}
    (hr : Lts.Reach step PipesKept (.init heap nfds sock port) s) : LaunchInv s :=
  hr.invariant ⟨pipesInv_init heap nfds sock port, logInv_init heap nfds sock port⟩
    fun _ _ _ _ h hg hs => ⟨pipesInv_step h.pipes hg.1 (step_effect hs),
      logInv_step h.logs h.pipes hg (step_effect hs)⟩

theorem LogInv.execves_le_one (h : LogInv s) {k : Nat} {c : Child} (hc : s.children[k]? = some c)
    (hnot : ¬ s.InProgress k) : (s.execves k).length ≤ 1 := by
  by_cases hreg : ∃ e ∈ s.pipes, e.launch = k
  · obtain ⟨e, he, rfl⟩ := hreg
    rw [h.registered e he]; simp
  · rw [h.handled k (List.getElem?_eq_some_iff.mp hc).1 hnot fun e he hk => hreg ⟨e, he, hk⟩]

theorem Child.readPipe_isSome {c : Child} (h : c.phase = .execd ∨ c.dead = true) :
    c.readPipe.isSome = true := by
  unfold Child.readPipe
  rcases h with h | h
  · rw [h]; rfl
  · cases c.phase <;> simp [h]

/-- In every run in which no registered pipe is closed, each launch that has returned is reported as
it should be, and one that has not is not reported yet. -/
theorem launch_reported (heap : Nat → ProcessInfo) (nfds : Nat) (sock : Fd) (port : Nat)
    (hr : Lts.Reach step PipesKept (.init heap nfds sock port) s) {k : Nat} {c : Child}
    (hc : s.children[k]? = some c) :
    (s.InProgress k → s.log k = []) ∧ (¬ s.InProgress k → LaunchReported s k c) := by
  obtain ⟨hp, hl⟩ := launchInv_of_reach hr
  refine ⟨?_, fun hnot => ⟨hl.shape k c hc hnot, hl.execves_le_one hc hnot, ?_⟩⟩
  · rintro ⟨l, hmode, rfl⟩
    exact hl.launching l hmode
  · intro hdone hunready
    refine hl.handled k (List.getElem?_eq_some_iff.mp hc).1 hnot fun e he hk => ?_
    have hready := hunready e he hk
    subst hk
    have hsome := Child.readPipe_isSome hdone
    simp [State.ready, he, hc, hsome] at hready

/-- `X`, `A` and `C` run; `X` exits and frees slot 0 and descriptor 9. `A` is stopped, the daemon
blocks on it, and it is killed: descriptor 10, its error file, is closed, and its second SIGCHLD is
pending. The next request launches `B`, whose pipe is descriptor 10. The second SIGCHLD finds the
stale slot of `A` and closes descriptor 10 again. -/
def staleClose : List Label :=
  connects ++ launches "X" 9 (10, 11) 20 ++ execs 0 "X" 10 20 ++ launches "A" 10 (11, 12) 21 ++
    launches "C" 12 (13, 14) 22 ++ execs 1 "A" 11 21 ++ execs 2 "C" 13 22 ++
    [.child 0 (.exit (.exited 0))] ++ handlesSignal ++
    [.child 1 .stop, .epollWait [.signalfd, .sockMessage 8], .signalfd 0 false,
     .child 1 (.exit (.signaled 9)), .waitpidReturns 0 false,
     .runCommand ⟨"B", ["B"], [], 0, 8192, []⟩ (.clones (some 9) (10, 11) 23 4096), .launchReturns true] ++
    handlesSignal ++ [.child 3 .execveSucceeds]

theorem stale_close_loses_execve_terminated :
    ∃ s, Lts.Reachable step .start s ∧ s.mode = .loop ∧ s.pipes = [] ∧
      s.children[3]? = some ⟨23, "B", .running, .execd⟩ ∧ s.log 3 = [.processLaunched 23] ∧
      ¬ LaunchReported s 3 ⟨23, "B", .running, .execd⟩ := by
  obtain ⟨s, hs, hp⟩ := Lts.exists_of_run_map
    (p := fun s => s.mode == .loop && s.pipes == [] &&
      s.children[3]? == some ⟨23, "B", .running, .execd⟩ && s.log 3 == [.processLaunched 23])
    (show (Lts.run step .start staleClose).map _ = some true by decide +kernel)
  simp only [Bool.and_eq_true, beq_iff_eq] at hp
  obtain ⟨⟨⟨hmode, hpipes⟩, hc⟩, hlog⟩ := hp
  refine ⟨s, Lts.reachable_of_run hs, hmode, hpipes, hc, hlog, ?_⟩
  intro hrep
  have := hrep.handled (.inl rfl) (by rw [hpipes]; simp)
  rw [State.execves, hlog] at this
  cases this

/-- Two launches in flight; the first child has exec'd and exited, its notification is handled and
its exit is not. -/
theorem two_launches_reported :
    ∃ s, Lts.Reach step PipesKept .start s ∧ s.children[0]? = some ⟨20, "A", .zombie (.exited 0), .execd⟩ ∧
      s.log 0 = [.processLaunched 20, .execveTerminated 20 "A" true] ∧ s.log 1 = [.processLaunched 21] ∧
      LaunchReported s 0 ⟨20, "A", .zombie (.exited 0), .execd⟩ := by
  obtain ⟨s, hs, hp⟩ := Lts.exists_of_run_map
    (p := fun s => s.mode == .loop && s.children[0]? == some ⟨20, "A", .zombie (.exited 0), .execd⟩ &&
      s.log 0 == [.processLaunched 20, .execveTerminated 20 "A" true] && s.log 1 == [.processLaunched 21])
    (show (Lts.run (Lts.guarded PipesKept step) .start
      (connects ++ launches "A" 9 (10, 11) 20 ++ launches "B" 11 (12, 13) 21 ++
        [.child 0 .execveSucceeds, .child 0 (.exit (.exited 0)),
         .epollWait [.execve ⟨10, 20, "A", 0⟩], .execve false])).map _ = some true by decide +kernel)
  simp only [Bool.and_eq_true, beq_iff_eq] at hp
  obtain ⟨⟨⟨hmode, hc⟩, hlog⟩, hlog'⟩ := hp
  have hreach := Lts.reach_of_run hs
  refine ⟨s, hreach, hc, hlog, hlog', (launch_reported _ 8 0 8080 hreach hc).2 ?_⟩
  rintro ⟨l, hl, -⟩
  rw [hmode] at hl; cases hl

end ProcCtrld
