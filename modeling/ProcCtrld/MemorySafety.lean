import ProcCtrld.Launch
import ProcCtrld.MemoryTriples
import ProcCtrld.Records

/-!
# ProcCtrld.MemorySafety

What the C daemon frees and what it leaves allocated, over whole runs.

* `PointersInv` — the pointers are to the connections, the pipes and the launch that the event loop has.
* `program_triple` — what a step frees is there, and what it leaves is held or is in `lostBy`.
* `program_pointers` — a step keeps `PointersInv`.
* `faults_iff` — a step faults if and only if it reads past the process table, which the counter allows when more
  than `MAX_PROCESS` children have been counted.
* `memory_exact` — both, in every run in which no `close` hits a descriptor that epoll watches.
* `memory_safe` — with the counter in bounds no step faults.
* `memory_grows` — each message that was sent has left a buffer allocated.
-/

namespace ProcCtrld

open Blocks (Block Prog Triple Returns)
open Memory (agrees stackAgrees program lostBy)

variable {s s' : State} {l : Label} {p p' : Pointers} {os : MemoryOs}

/-! ## The event loop -/

/-- No `close` hits a descriptor that epoll watches: a notification pipe, or, unless a connection is closed at
its end, what is not a file of the launches. -/
def WatchedUnhit (s : State) (l : Label) : Prop :=
  PipesUnhit s l ∧ (l ≠ .sockClosed → ∀ fd ∈ s.closes l, s.fds fd ≠ some .other) ∧
    ∀ fd ∈ s.conns, l ≠ .closeOther fd

instance (s : State) (l : Label) : Decidable (WatchedUnhit s l) :=
  inferInstanceAs (Decidable (PipesUnhit s l ∧ (l ≠ .sockClosed → ∀ fd ∈ s.closes l, s.fds fd ≠ some .other) ∧
    ∀ fd ∈ s.conns, l ≠ .closeOther fd))

/-- The stack of the launch in progress. -/
def State.launchStack (s : State) : Option Addr :=
  match s.mode with
  | .launching lg => some lg.stack
  | _ => none

theorem launchStack_of_mode (h : s'.mode = s.mode) : s'.launchStack = s.launchStack := by
  unfold State.launchStack
  rw [h]

theorem step_launchStack (h : step s l = some s')
    (hclones : ∀ com errFile pipefd pid stack, l ≠ .runCommand com (.clones errFile pipefd pid stack))
    (hlaunch : ∀ e, l ≠ .launchReturns e) : s'.launchStack = s.launchStack := by
  have hloop {s : State} (hmode : s.mode = .loop) : s.launchStack = none := by rw [State.launchStack, hmode]
  have hhandled {pid : Pid} {launch : Option Nat} {exitStatus : Nat} (hh : Handled s l s' pid launch exitStatus) :
      s'.launchStack = s.launchStack := by
    rw [hloop hh.mode]
    obtain ⟨hmode, -⟩ | ⟨hmode, -⟩ := hh.awaited
    · rw [hloop hmode]
    · rw [State.launchStack, hmode]
  cases step_effect h with
  | quiet hq hcl hbusy =>
    obtain hmode | ⟨hmode, hmode'⟩ := hq.mode
    · exact launchStack_of_mode hmode
    · rw [hloop hmode, State.launchStack, hmode']
  | blocks hmode => rw [hloop hmode]; rfl
  | reaps hh => exact hhandled hh
  | fails hh => exact hhandled hh
  | clones => exact absurd rfl (hclones _ _ _ _ _)
  | launched => exact absurd rfl (hlaunch _)
  | _ => rfl

theorem Closes.pipes_eq {fd : Option Fd} (h : Closes fd s s') (hp : PipesInv s)
    (hfd : ∀ e ∈ s.pipes, fd ≠ some e.fd) : s'.pipes = s.pipes := by
  have hnodup : s.pipes.Nodup := hp.distinct.imp fun hne heq => hne (by rw [heq])
  refine h.sub.eq_of_length_le ?_
  exact (hnodup.subperm fun e he => h.kept e he (hfd e he)).length_le

/-- The steps that leave the registered pipes and the launch in progress as they are. -/
theorem step_pipes (hp : PipesInv s) (hg : PipesUnhit s l) (h : step s l = some s') (hexecve : ∀ f, l ≠ .execve f)
    (hlaunch : ∀ e, l ≠ .launchReturns e) : s'.pipes = s.pipes := by
  have hguard : ∀ e ∈ s.pipes, s.closes l ≠ some e.fd := fun e hmem hfd => hg e.fd hfd e hmem rfl
  cases step_effect h with
  | quiet hq hcl hbusy => exact hcl.pipes_eq hp hguard
  | reaps hh hc hpid hz hch => exact hh.closes.pipes_eq hp hguard
  | fails hh hnone hch => exact hh.closes.pipes_eq hp hguard
  | execve => exact absurd rfl (hexecve _)
  | launched => exact absurd rfl (hlaunch _)
  | _ => rfl

theorem step_batch (h : step s l = some s') (hl : ∀ events, l ≠ .epollWait events) : s'.batch <:+ s.batch := by
  cases step_effect h with
  | quiet hq hcl hbusy => exact hq.batch
  | epollWait => exact absurd rfl (hl _)
  | blocks hmode hbatch => rw [hbatch]; exact List.suffix_cons _ _
  | reaps hh hc hpid hz hch => exact hh.batch_suffix
  | fails hh hnone hch => exact hh.batch_suffix
  | execve hmode hbatch => rw [hbatch]; exact List.suffix_cons _ _
  | clones hmode hbatch => rw [hbatch]; exact List.suffix_cons _ _
  | _ => exact List.suffix_refl _

theorem step_conns (h : step s l = some s') (hclosed : l ≠ .sockClosed) (haccept : ∀ fd, l ≠ .sockConnexion fd) :
    s'.conns = s.conns := by
  cases step_cases h with
  | signalfd _ _ _ hcase => exact (sigchld_frame hcase).1
  | waitpidReturns _ hcase => exact (sigchld_frame hcase).1
  | runCommand _ _ hcase => cases hcase <;> rfl
  | sockClosed => exact absurd rfl hclosed
  | sockConnexion => exact absurd rfl (haccept _)
  | _ => rfl

/-- `handle_SIGCHLD` comes to `manager_remove_process`, or blocks. -/
theorem sigchld_removes {s₁ : State} {pid : Pid} {garbage : Nat} {held : Bool} (hch : s₁.children = s.children)
    (ht : s₁.table = s.table) (h : SigchldCase s₁ pid garbage held s') :
    ((s.terminated pid garbage).isSome = true ∧ ∃ closed, s.table.release pid = some (s'.table, closed)) ∨
      (s.terminated pid garbage = none ∧ s'.table = s.table) := by
  have hun' : s₁.unreaped pid = s.unreaped pid := by rw [State.unreaped, hch]; rfl
  unfold State.terminated
  cases h with
  | @blocks c k hun halive =>
    rw [← hun', hun]
    cases hl : c.life with
    | zombie status => simp [Child.dead, hl] at halive
    | running | stopped | reaped status => exact .inr ⟨by simp only [hl], ht⟩
  | reaps hun hz h =>
    rw [← hun', hun]
    exact .inl ⟨by simp only [hz, Option.isSome_some], _, ht ▸ h.table⟩
  | fails hun h =>
    rw [← hun', hun]
    exact .inl ⟨rfl, _, ht ▸ h.table⟩

/-! ## Pointers -/

/-- The pointers are to what the event loop has. -/
structure PointersInv (p : Pointers) (s : State) : Prop where
  slots : p.slots.length = maxProcess
  conns : p.conns.map Prod.fst = s.conns
  pipes : p.pipes.map PipePtr.launch = s.pipes.map PipeExecve.launch
  batch : ∀ fd, .sockMessage fd ∈ s.batch → fd ∈ s.conns
  locals : p.locals.map Locals.stack = s.launchStack

theorem PointersInv.same (h : PointersInv p s) (hslots : p'.slots = p.slots) (hpc : p'.conns = p.conns)
    (hpp : p'.pipes = p.pipes) (hpl : p'.locals = p.locals) (hconns : s'.conns = s.conns)
    (hpipes : s'.pipes = s.pipes) (hbatch : s'.batch <:+ s.batch) (hlaunch : s'.launchStack = s.launchStack) :
    PointersInv p' s' where
  slots := by rw [hslots]; exact h.slots
  conns := by rw [hpc, hconns]; exact h.conns
  pipes := by rw [hpp, hpipes]; exact h.pipes
  batch := fun fd hfd => by rw [hconns]; exact h.batch fd (hbatch.subset hfd)
  locals := by rw [hpl, hlaunch]; exact h.locals

theorem PointersInv.nodup (h : PointersInv p s) (hp : PipesInv s) : (p.pipes.map PipePtr.launch).Nodup := by
  rw [h.pipes]
  exact List.pairwise_map.mpr hp.distinct

theorem PointersInv.no_locals (h : PointersInv p s) (hmode : s.mode = .loop) : p.locals = none := by
  have hl := h.locals
  rw [State.launchStack, hmode] at hl
  exact Option.map_eq_none_iff.mp hl

theorem PointersInv.launching (h : PointersInv p s) {lg : Launching} (hmode : s.mode = .launching lg) :
    ∃ l, p.locals = some l ∧ l.stack = lg.stack := by
  have hl := h.locals
  rw [State.launchStack, hmode] at hl
  exact Option.map_eq_some_iff.mp hl

theorem PointersInv.conn (h : PointersInv p s) {fd : Fd} {rest : List Ready} (hbatch : s.batch = .sockMessage fd :: rest) :
    fd ∈ p.conns.map Prod.fst := by
  rw [h.conns]
  exact h.batch fd (by rw [hbatch]; exact List.mem_cons_self ..)

theorem PointersInv.lookup (h : PointersInv p s) {fd : Fd} {rest : List Ready} (hbatch : s.batch = .sockMessage fd :: rest) :
    ∃ edata, p.conns.lookup fd = some edata ∧ ⟨edata, .eventData⟩ ∈ p.held := by
  obtain ⟨edata, hlookup, hblocks, -⟩ := Memory.conns_lookup (h.conn hbatch)
  exact ⟨edata, hlookup, by simp [Pointers.held, hblocks]⟩

theorem PointersInv.pipe (h : PointersInv p s) (hp : PipesInv s) {e : PipeExecve} {rest : List Ready}
    (hbatch : s.batch = .execve e :: rest) : e.launch ∈ p.pipes.map PipePtr.launch := by
  rw [h.pipes]
  exact List.mem_map_of_mem (hp.batch e (by rw [hbatch]; exact List.mem_cons_self ..))

/-! ## Steps -/

namespace Memory

/-- `handle_SIGCHLD` frees the stack of the slot that it empties. -/
theorem reports_triple {s₁ : State} {pid : Pid} {garbage : Nat} {held : Bool} (os : MemoryOs)
    (hch : s₁.children = s.children) (ht : s₁.table = s.table) (h : SigchldCase s₁ pid garbage held s') :
    Triple (p.held + Manager.stacks s.table.manager) (do
        Memory.handleSIGCHLD p s pid garbage os
        return p)
      (fun p' => p'.held + Manager.stacks s'.table.manager) ↑(reportLost s pid garbage os) := by
  have hpure : Triple (p.held + Manager.stacks s'.table.manager) (pure p : Prog Site Pointers)
      (fun p' => p'.held + Manager.stacks s'.table.manager) 0 :=
    Triple.pure fun p' : Pointers => p'.held + Manager.stacks s'.table.manager
  have hfixed : p.fixed ≤ p.held + Manager.stacks s.table.manager := by
    simp only [Pointers.held, add_assoc]
    exact Multiset.le_add_right ..
  rcases sigchld_removes hch ht h with ⟨hterm, closed, hrel⟩ | ⟨hterm, ht'⟩
  · have hstacks : p.held + Manager.stacks s.table.manager =
        ↑((stackMatched s.table pid).toList.map stackBlock) + (p.held + Manager.stacks s'.table.manager) := by
      rw [stacks_release hrel]
      abel
    exact ((handleSIGCHLD_triple os hfixed hterm hstacks).bind fun _ => hpure).of_eq rfl (fun _ => rfl)
      (add_zero _).symm
  · rw [ht'] at hpure ⊢
    exact ((handleSIGCHLD_quiet os hterm).bind fun _ => hpure).of_eq rfl (fun _ => rfl) (add_zero _).symm

/-- From one `epoll_wait` to the next nothing faults, and the blocks that are allocated are those that the daemon
keeps a pointer to and those that the step leaves behind. -/
theorem program_triple (hi : PointersInv p s) (hp : PipesInv s) (hag : agrees p os l = true)
    (hs : step s l = some s') (hkill : l ≠ .killProcess 0) :
    Triple (p.held + Manager.stacks s.table.manager) (program p s os l)
      (fun p' => p'.held + Manager.stacks s'.table.manager) ↑(lostBy p s os l) := by
  have hpure (ht : s'.table = s.table) : Triple (p.held + Manager.stacks s.table.manager) (pure p : Prog Site Pointers)
      (fun p' => p'.held + Manager.stacks s'.table.manager) 0 := by
    rw [ht]
    exact Triple.pure fun p' : Pointers => p'.held + Manager.stacks s.table.manager
  have hkills {pid : Pid} {fd : Fd} {rest : List Ready} (hbatch : s.batch = .sockMessage fd :: rest) (hpid : pid ≠ 0)
      (ht : s'.table = s.table) : Triple (p.held + Manager.stacks s.table.manager) (program p s os (.killProcess pid))
      (fun p' => p'.held + Manager.stacks s'.table.manager) ↑(lostBy p s os (.killProcess pid)) := by
    obtain ⟨edata, hlookup, hmem⟩ := hi.lookup hbatch
    simp only [program, hbatch, killProcess, if_neg hpid, pure_bind, ht]
    exact (readMessage_triple hlookup hmem).of_eq rfl (fun _ => rfl) (add_zero _).symm
  cases step_cases hs with
  | child | openOther | closeOther | epollWait | epollFails | hupErr => exact hpure rfl
  | signalfd hmode hbatch hpend hcase =>
    simp only [program, lostBy, hpend]
    refine (Triple.access (k := .eventData) (by simp [Pointers.held, Pointers.fixed])).seq fun _ => ?_
    refine reports_triple os ?_ ?_ hcase <;> rfl
  | waitpidReturns hmode hcase =>
    simp only [program, lostBy, hmode]
    exact reports_triple os rfl rfl hcase
  | execve hmode hbatch hfree hread =>
    simp only [program, lostBy, hbatch]
    exact execve_triple os (hi.nodup hp) (hi.pipe hp hbatch)
  | @runCommand com launch fd rest _ hmode hbatch hcase =>
    obtain ⟨edata, hlookup, hmem⟩ := hi.lookup hbatch
    have hfails (call : Option FailingCall) :=
      runCommandFails_triple (X := Manager.stacks s.table.manager) com os call hlookup hmem
    have hclones := runCommandClones_triple (X := Manager.stacks s.table.manager) com os (hi.no_locals hmode)
      hlookup hmem
    simp only [program, hbatch]
    cases hcase with
    | fails hos hleft =>
      cases hleft with
      | paramFails => exact (hfails none).of_eq rfl (fun _ => rfl) rfl
      | mallocFails herr =>
        refine (hfails (some os.failing)).of_eq rfl (fun _ => rfl) ?_
        simp only [lostBy, ← Multiset.coe_add, add_assoc]
        rfl
      | @cloneFails _ pipefd => exact (hfails (some (.clone pipefd))).of_eq rfl (fun _ => rfl) rfl
    | pipeFails => exact hclones.of_eq rfl (fun _ => rfl) (add_zero _).symm
    | clones => exact hclones.of_eq rfl (fun _ => rfl) (add_zero _).symm
  | @launchReturns epollAdd lg hmode =>
    obtain ⟨l, hl, hstack⟩ := hi.launching hmode
    simp only [program, lostBy, hmode, hl]
    exact launchReturns_triple epollAdd os hl hstack
  | kills hmode hbatch hpos => exact hkills hbatch hpos.ne' rfl
  | killsNone hmode hbatch hneg => exact hkills hbatch hneg.ne rfl
  | killsGroup => exact absurd rfl hkill
  | unexpected hmode hbatch =>
    obtain ⟨edata, hlookup, hmem⟩ := hi.lookup hbatch
    simp only [program, hbatch]
    exact (readMessage_triple hlookup hmem).of_eq rfl (fun _ => rfl) (add_zero _).symm
  | sockClosed hmode hbatch =>
    simp only [program, hbatch]
    exact (sockClosed_triple (hi.conn hbatch)).of_eq rfl (fun _ => rfl) (add_zero _).symm
  | sockConnexion => exact sockConnexion_triple os
  | inotify => exact inotify_triple _ os (by simpa [agrees] using hag)

/-! ## What the programs return -/

/-- The pointers to what is registered, and the local variables, are as they were. -/
def Keeps (p p' : Pointers) : Prop :=
  p'.slots = p.slots ∧ p'.conns = p.conns ∧ p'.pipes = p.pipes ∧ p'.locals = p.locals

theorem Keeps.refl (p : Pointers) : Keeps p p := ⟨rfl, rfl, rfl, rfl⟩

theorem addEvent_length (kind : Site) (added : Bool) :
    Returns (addEvent kind added) fun kept => kept.length = if added then 1 else 0 := by
  refine Returns.after fun edata => ?_
  cases added with
  | true => exact Returns.pure rfl
  | false => exact Returns.after fun _ => Returns.pure rfl

theorem runCommandFails_keeps {fd : Fd} {com : Command} {call : Option FailingCall} :
    Returns (runCommandFails p fd com os call) (Keeps p) := by
  refine Returns.after fun info => Returns.after fun ⟨ptr, _⟩ => Returns.after fun _ => Returns.after fun _ => ?_
  exact Returns.after fun kept => Returns.after fun _ => Returns.pure ⟨rfl, rfl, rfl, rfl⟩

theorem runCommandClones_returns {fd : Fd} {com : Command} :
    Returns (runCommandClones p fd com os) fun p' =>
      p'.slots = p.slots ∧ p'.conns = p.conns ∧ p'.pipes = p.pipes := by
  refine Returns.after fun info => Returns.after fun ⟨ptr, _⟩ => Returns.after fun param => ?_
  refine Returns.after fun parameters => Returns.after fun _ => Returns.after fun ⟨info, stack⟩ => ?_
  exact Returns.pure ⟨rfl, rfl, rfl⟩

theorem launchReturns_returns {lg : Launching} {epollAdd : Bool} :
    Returns (launchReturns p s lg epollAdd os) fun p' =>
      p'.slots = p.slots ∧ p'.conns = p.conns ∧ p'.locals = none ∧
        p'.pipes.map PipePtr.launch = p.pipes.map PipePtr.launch ++ if epollAdd then [lg.launch] else [] := by
  refine Returns.after fun l => Returns.after fun _ => Returns.after fun _ => Returns.after fun _ => ?_
  refine Returns.after fun _ => Returns.after fun _ => Returns.after fun _ => ?_
  refine (addEvent_length .eventDataPipeExecve epollAdd).bind fun edata hlength => ?_
  refine Returns.after fun _ => Returns.after fun kept => Returns.after fun _ => Returns.pure ⟨rfl, rfl, rfl, ?_⟩
  rw [List.map_append, List.map_map]
  congr 1
  cases epollAdd with
  | true =>
    obtain ⟨b, rfl⟩ := List.length_eq_one_iff.mp hlength
    rfl
  | false =>
    rw [List.length_eq_zero_iff.mp hlength]
    rfl

theorem execve_returns {e : PipeExecve} :
    Returns (execve p e os) fun p' => p' = { p with pipes := p.pipes.filter fun x => x.launch ≠ e.launch } := by
  refine Returns.after fun pipe => Returns.after fun _ => Returns.after fun _ => Returns.after fun _ => ?_
  exact Returns.after fun _ => Returns.after fun _ => Returns.pure rfl

theorem sockClosed_returns {fd : Fd} :
    Returns (sockClosed p fd) fun p' => p' = { p with conns := p.conns.eraseP fun x => x.1 = fd } := by
  refine Returns.after fun _ => Returns.after fun edata => Returns.after fun _ => Returns.after fun _ => ?_
  exact Returns.pure rfl

theorem sockConnexion_returns {fd : Fd} :
    Returns (sockConnexion p fd os) fun p' => ∃ edata, p' = { p with conns := (fd, edata) :: p.conns } := by
  refine Returns.after fun _ => Returns.after fun _ => Returns.after fun _ => Returns.after fun edata => ?_
  exact Returns.after fun _ => Returns.pure ⟨edata, rfl⟩

/-- The steps that register nothing, take nothing off and launch nothing. -/
theorem program_keeps (hexecve : ∀ f, l ≠ .execve f) (hlaunch : ∀ e, l ≠ .launchReturns e)
    (hclones : ∀ com errFile pipefd pid stack, l ≠ .runCommand com (.clones errFile pipefd pid stack))
    (hpipe : ∀ com, l ≠ .runCommand com .pipeFails) (hclosed : l ≠ .sockClosed) (haccept : ∀ fd, l ≠ .sockConnexion fd) :
    Returns (program p s os l) (Keeps p) := by
  have hp : Returns (pure p : Prog Site Pointers) (Keeps p) := Returns.pure (.refl p)
  cases l with
  | signalfd garbage held =>
    simp only [program]
    split
    · exact Returns.after fun _ => Returns.after fun _ => hp
    · exact hp
  | waitpidReturns garbage held =>
    simp only [program]
    split
    · exact Returns.after fun _ => hp
    · exact hp
  | execve foreign => exact absurd rfl (hexecve _)
  | runCommand com launch =>
    simp only [program]
    split
    · cases launch with
      | paramFails | mallocFails | cloneFails => exact runCommandFails_keeps
      | pipeFails => exact absurd rfl (hpipe _)
      | clones => exact absurd rfl (hclones _ _ _ _ _)
    · exact hp
  | launchReturns epollAdd => exact absurd rfl (hlaunch _)
  | killProcess pid =>
    simp only [program]
    split
    · exact Returns.after fun _ => Returns.after fun _ => Returns.after fun _ => hp
    · exact hp
  | unexpected =>
    simp only [program]
    split
    · exact Returns.after fun _ => Returns.after fun _ => hp
    · exact hp
  | sockClosed => exact absurd rfl hclosed
  | sockConnexion fd => exact absurd rfl (haccept _)
  | inotify updates => exact Returns.after fun _ => Returns.after fun _ => Returns.after fun _ => hp
  | child | openOther | closeOther | epollWait | epollFails | hupErr => exact hp

theorem pointersInv_execve (hi : PointersInv p s) (hp : PipesInv s) {e : PipeExecve} {rest : List Ready}
    (hbatch : s.batch = .execve e :: rest) (hpipes : s'.pipes = (s.closeFd e.fd false).pipes)
    (hbatch' : s'.batch = rest) (hconns : s'.conns = s.conns) (hmode : s'.mode = s.mode) :
    PointersInv { p with pipes := p.pipes.filter fun x => x.launch ≠ e.launch } s' where
  slots := hi.slots
  conns := by rw [hconns]; exact hi.conns
  pipes := by
    have he : e ∈ s.pipes := hp.batch e (by rw [hbatch]; exact List.mem_cons_self ..)
    have hfilter : s'.pipes = s.pipes.filter fun x => x.launch ≠ e.launch := by
      rw [hpipes]
      refine List.filter_congr fun x hx => ?_
      rw [decide_eq_decide, hp.fds e he]
      refine not_congr ⟨fun h => ?_, fun h => ?_⟩
      · exact (Obj.pipeRead.inj (Option.some.inj h.2)).symm
      · rw [hp.unique hx he h]
        exact ⟨rfl, rfl⟩
    have hmap {α : Type} (launch : α → Nat) (xs : List α) :
        (xs.filter fun x => launch x ≠ e.launch).map launch = (xs.map launch).filter fun k => k ≠ e.launch := by
      rw [List.filter_map]
      rfl
    rw [hfilter, hmap PipePtr.launch, hmap PipeExecve.launch, hi.pipes]
  batch := fun fd hfd => by
    rw [hconns]
    refine hi.batch fd ?_
    rw [hbatch]
    exact List.mem_cons_of_mem _ (hbatch' ▸ hfd)
  locals := by rw [launchStack_of_mode hmode]; exact hi.locals

theorem pointersInv_closed (hi : PointersInv p s) (hnodup : s.batch.Nodup) {fd : Fd} {rest : List Ready}
    (hbatch : s.batch = .sockMessage fd :: rest) (hpipes : s'.pipes = s.pipes)
    (hbatch' : s'.batch = rest) (hconns : s'.conns = s.conns.erase fd) (hmode : s'.mode = s.mode) :
    PointersInv { p with conns := p.conns.eraseP fun x => x.1 = fd } s' where
  slots := hi.slots
  conns := by
    obtain ⟨-, -, -, hfds⟩ := conns_lookup (hi.conn hbatch)
    rw [hconns, ← hi.conns]
    exact hfds
  pipes := by rw [hpipes]; exact hi.pipes
  batch := fun fd' hfd' => by
    rw [hbatch'] at hfd'
    rw [hbatch, List.nodup_cons] at hnodup
    have hne : fd' ≠ fd := fun h => hnodup.1 (h ▸ hfd')
    rw [hconns]
    exact (List.mem_erase_of_ne hne).mpr (hi.batch fd' (hbatch ▸ List.mem_cons_of_mem _ hfd'))
  locals := by rw [launchStack_of_mode hmode]; exact hi.locals

/-- A step keeps the pointers to what the event loop has. -/
theorem program_pointers (hi : PointersInv p s) (hp : PipesInv s) (hg : PipesUnhit s l) (hs : step s l = some s')
    (hmode : s'.mode ≠ .halted) :
    Returns (program p s os l) fun p' => stackAgrees p' l = true → PointersInv p' s' := by
  have hsame (hexecve : ∀ f, l ≠ .execve f) (hlaunch : ∀ e, l ≠ .launchReturns e)
      (hclones : ∀ com errFile pipefd pid stack, l ≠ .runCommand com (.clones errFile pipefd pid stack))
      (hpipe : ∀ com, l ≠ .runCommand com .pipeFails) (hclosed : l ≠ .sockClosed) (haccept : ∀ fd, l ≠ .sockConnexion fd)
      (hwait : ∀ events, l ≠ .epollWait events) :
      Returns (program p s os l) fun p' => stackAgrees p' l = true → PointersInv p' s' := by
    refine (program_keeps hexecve hlaunch hclones hpipe hclosed haccept).mono ?_
    rintro p' ⟨hslots, hpc, hpp, hpl⟩ -
    exact hi.same hslots hpc hpp hpl (step_conns hs hclosed haccept) (step_pipes hp hg hs hexecve hlaunch)
      (step_batch hs hwait) (step_launchStack hs hclones hlaunch)
  cases step_cases hs with
  | execve hloop hbatch hfree hread =>
    simp only [program, hbatch]
    refine execve_returns.mono ?_
    rintro p' rfl -
    exact pointersInv_execve hi hp hbatch rfl rfl rfl rfl
  | runCommand hloop hbatch hcase =>
    cases hcase with
    | fails hos hleft =>
      cases hleft <;> exact hsame (by simp) (by simp) (by simp) (by simp) (by simp) (by simp) (by simp)
    | pipeFails => exact absurd rfl hmode
    | clones =>
      have hpipes := step_pipes hp hg hs (by simp) (by simp)
      have hconns := step_conns hs (by simp) (by simp)
      have hsuffix := step_batch hs (by simp)
      simp only [program, hbatch]
      refine runCommandClones_returns.mono ?_
      rintro p' ⟨hslots, hpc, hpp⟩ hstack
      exact {
        slots := by rw [hslots]; exact hi.slots
        conns := by rw [hpc]; exact hi.conns
        pipes := by rw [hpp]; exact hi.pipes
        batch := fun fd hfd => hi.batch fd (hsuffix.subset hfd)
        locals := of_decide_eq_true hstack }
  | @launchReturns epollAdd lg hlaunching =>
    simp only [program, hlaunching]
    refine launchReturns_returns.mono ?_
    rintro p' ⟨hslots, hpc, hpl, hpp⟩ -
    exact {
      slots := by rw [hslots]; exact hi.slots
      conns := by rw [hpc]; exact hi.conns
      pipes := by
        rw [hpp, hi.pipes]
        cases epollAdd <;> simp
      batch := hi.batch
      locals := by rw [hpl]; rfl }
  | sockClosed hloop hbatch =>
    have hpipes := step_pipes hp hg hs (by simp) (by simp)
    simp only [program, hbatch]
    refine sockClosed_returns.mono ?_
    rintro p' rfl -
    exact pointersInv_closed hi hp.nodup hbatch hpipes rfl rfl rfl
  | sockConnexion hloop hbatch hopen =>
    refine sockConnexion_returns.mono ?_
    rintro p' ⟨edata, rfl⟩ -
    exact {
      slots := hi.slots
      conns := by rw [List.map_cons, hi.conns]
      pipes := hi.pipes
      batch := fun fd' hfd' => List.mem_cons_of_mem _ (hi.batch fd' (hbatch ▸ List.mem_cons_of_mem _ hfd'))
      locals := hi.locals }
  | epollWait hloop hbatch hne hlen hnodup hready =>
    refine Returns.pure fun _ => {
      slots := hi.slots
      conns := hi.conns
      pipes := hi.pipes
      batch := fun fd hfd => ?_
      locals := hi.locals }
    simpa [State.ready] using hready _ hfd
  | _ => exact hsame (by simp) (by simp) (by simp) (by simp) (by simp) (by simp) (by simp)

/-! ## The end of the daemon -/

theorem fault_returns {α : Type} {Q : α → Prop} : Returns (Blocks.fault : Prog Site α) Q :=
  fun _ _ _ h => nomatch h

theorem freeManager_faults {t : ProcessTable} (hslots : p.slots.length = maxProcess) (hnb : (maxProcess : Int) < t.nbProcess) :
    Returns (freeManager p t) fun _ => False := by
  refine Returns.after fun _ => Returns.after fun _ => ?_
  rw [if_neg (by rw [hslots]; omega)]
  exact fault_returns

theorem killProcess_faults (hslots : p.slots.length = maxProcess) (hnb : (maxProcess : Int) < s.table.nbProcess) {fd : Fd} :
    Returns (killProcess p s fd 0) fun _ => False :=
  Returns.after fun _ => Returns.after fun _ => (freeManager_faults hslots hnb).bind fun _ h => h.elim

/-- Otherwise each slot and stack is freed once. -/
theorem killProcess_triple (hi : PointersInv p s) {fd : Fd} {rest : List Ready} (hbatch : s.batch = .sockMessage fd :: rest)
    (hnb : s.table.nbProcess ≤ maxProcess) :
    ∃ (R : Pointers → Multiset (Block Site)) (lost : Multiset Site),
      Triple (p.held + Manager.stacks s.table.manager) (killProcess p s fd 0) R lost := by
  obtain ⟨edata, hlookup, hmem⟩ := hi.lookup hbatch
  obtain ⟨Y, hfree⟩ := freeManager_triple (X := 0) hi.slots hnb
  refine ⟨fun _ => Y + 0, ↑readLost + 0, (sockMessage_triple hlookup (Multiset.mem_add.mpr (.inl hmem))).seq fun b => forgetRead ?_⟩
  refine (Triple.access (k := .buffer) (by simp)).seq fun _ => ?_
  rw [if_pos rfl]
  refine ((hfree.frame (X := {⟨b.info, .bufferInfo⟩} + {⟨b.buffer, .buffer⟩}) ?_).seq fun _ =>
    Triple.pure (a := p) fun _ => Y + 0 + ({⟨b.info, .bufferInfo⟩} + {⟨b.buffer, .buffer⟩})).of_eq rfl ?_ rfl
  · rw [add_zero]
    abel
  · intro _
    abel

end Memory

/-! ## Runs -/

/-- The step reads past the process table: in `manager_remove_process`, or in `free_manager`. -/
def PastTable (s : State) (l : Label) : Prop :=
  (l.handlesSignal = true ∧ s.pastTable = true) ∨ (l = .killProcess 0 ∧ (maxProcess : Int) < s.table.nbProcess)

/-- The blocks that are allocated are those with a pointer to them, and those that the steps so far have left
behind. -/
structure MemoryLive (t : Memory) : Prop where
  pipes : PipesInv t.daemon
  pointers : PointersInv t.pointers t.daemon
  exact : ∃ L : Multiset (Block Site), L.map Block.kind = ↑t.lost ∧ (↑t.heap.live : Multiset (Block Site)) = t.held + L

def Memory.Unhit (t : Memory) (ml : MemoryLabel) : Prop := WatchedUnhit t.daemon ml.label

instance (t : Memory) (ml : MemoryLabel) : Decidable (t.Unhit ml) :=
  inferInstanceAs (Decidable (WatchedUnhit t.daemon ml.label))

/-- Also, what is read are complete requests with an argument, for ordinary children. -/
def Memory.Whole (t : Memory) (ml : MemoryLabel) : Prop :=
  t.Unhit ml ∧ ml.label.Ordinary ∧ ∀ com ∈ ml.label.command, com.args ≠ [] ∧ ∀ w ∈ com.toWatch, w.isSome

instance (t : Memory) (ml : MemoryLabel) : Decidable (t.Whole ml) :=
  inferInstanceAs (Decidable (t.Unhit ml ∧ ml.label.Ordinary ∧
    ∀ com ∈ ml.label.command, com.args ≠ [] ∧ ∀ w ∈ com.toWatch, w.isSome))

/-- Launches fit into the process table, and signals name children that have not been waited for. -/
def Memory.Counted (t : Memory) (ml : MemoryLabel) : Prop := t.Unhit ml ∧ CounterFits t.daemon ml.label

instance (t : Memory) (ml : MemoryLabel) : Decidable (t.Counted ml) :=
  inferInstanceAs (Decidable (t.Unhit ml ∧ CounterFits t.daemon ml.label))

/-- Of a daemon that has ended or faulted nothing is said. -/
def MemoryInv (t : Memory) : Prop := t.faulted = false → t.daemon.mode ≠ .halted → MemoryLive t

section Runs

variable {t t' : Memory} {ml : MemoryLabel}

/-- What a step of the daemon with its heap can do. -/
inductive MemoryEffect (t : Memory) (ml : MemoryLabel) : Memory → Prop where
  | pastTable (hsig : ml.label.handlesSignal = true) (hpast : t.daemon.pastTable = true)
      (hnone : step t.daemon ml.label = none) : MemoryEffect t ml { t with faulted := true }
  | faults {s : State} (hs : step t.daemon ml.label = some s)
      (hrun : program t.pointers t.daemon ml.os ml.label t.heap = none) : MemoryEffect t ml { t with faulted := true }
  | runs {s : State} {p' : Pointers} {h' : Blocks Site} (hs : step t.daemon ml.label = some s)
      (hrun : program t.pointers t.daemon ml.os ml.label t.heap = some (p', h'))
      (hstack : stackAgrees p' ml.label = true) :
      MemoryEffect t ml {
        daemon := s
        pointers := p'
        heap := h'
        lost := t.lost ++ lostBy t.pointers t.daemon ml.os ml.label
        faulted := false }

theorem not_pastTable (hsig : l.handlesSignal = true) (h : step s l = some s') : s.pastTable = false := by
  rw [← Bool.not_eq_true]
  intro hpast
  obtain ⟨pid, hlk, hnone⟩ := (Option.any_eq_true _ _).mp hpast
  rw [Option.isNone_iff_eq_none] at hnone
  cases l with
  | signalfd garbage held =>
    simp only [step, State.signalfd] at h
    split at h
    · rename_i rest pid' hmode hbatch hpend
      simp only [State.lookedUp, hmode, hbatch, hpend, Option.filter_some] at hlk
      split at hlk <;> cases hlk
      rename_i hall
      exact (Option.some_ne_none _ (h.symm.trans (handleSIGCHLD_eq_none_iff.mpr ⟨hall, hnone⟩))).elim
    · cases h
  | waitpidReturns garbage held =>
    simp only [step, State.waitpidReturns] at h
    split at h
    · rename_i pid' hmode
      simp only [State.lookedUp, hmode] at hlk
      split at hlk <;> cases hlk
      rename_i hblocked
      have hall := (blocked_iff hmode).mp (Bool.not_eq_true _ ▸ hblocked)
      exact (Option.some_ne_none _ (h.symm.trans (handleSIGCHLD_eq_none_iff.mpr ⟨hall, hnone⟩))).elim
    · cases h
  | _ => cases hsig

theorem halted_stays (hmode : s.mode = .halted) (h : step s l = some s') : s'.mode = .halted := by
  have hne : s.mode ≠ .loop := by rw [hmode]; exact Mode.noConfusion
  have hhandled {pid : Pid} {launch : Option Nat} {exitStatus : Nat} (hh : Handled s l s' pid launch exitStatus) : False := by
    obtain ⟨hloop, -⟩ | ⟨hwait, -⟩ := hh.awaited
    · exact hne hloop
    · rw [hmode] at hwait
      cases hwait
  cases step_effect h with
  | quiet hq hcl hbusy =>
    obtain hsame | ⟨hloop, -⟩ := hq.mode
    · rw [hsame, hmode]
    · exact absurd hloop hne
  | child => exact hmode
  | epollWait => exact hmode
  | blocks hloop => exact absurd hloop hne
  | reaps hh => exact (hhandled hh).elim
  | fails hh => exact (hhandled hh).elim
  | execve => exact hmode
  | clones hloop => exact absurd hloop hne
  | launched hlaunching => rw [hmode] at hlaunching; cases hlaunching

theorem memory_effect (h : memoryStep t ml = some t') :
    t.faulted = false ∧ agrees t.pointers ml.os ml.label = true ∧ MemoryEffect t ml t' := by
  unfold memoryStep at h
  split at h
  · cases h
  · rename_i hok
    rw [not_or, not_not] at hok
    refine ⟨Bool.not_eq_true _ ▸ hok.1, hok.2, ?_⟩
    split at h
    · rename_i hnone
      split at h <;> cases h
      rename_i hpast
      exact .pastTable hpast.1 hpast.2 hnone
    · rename_i s hs
      split at h
      · rename_i hrun
        cases h
        exact .faults hs hrun
      · rename_i p' h' hrun
        split at h <;> cases h
        rename_i hstack
        exact .runs hs hrun hstack

/-- Killing the daemon faults if and only if the counter is above the number of slots. -/
theorem kill_faults_iff (hlive : MemoryLive t) {s : State} (hs : step t.daemon (.killProcess 0) = some s) (os : MemoryOs) :
    program t.pointers t.daemon os (.killProcess 0) t.heap = none ↔ (maxProcess : Int) < t.daemon.table.nbProcess := by
  simp only [step, State.killProcess] at hs
  split at hs
  · rename_i fd rest hmode hbatch
    simp only [program, hbatch]
    refine ⟨fun hnone => ?_, fun hnb => ?_⟩
    · by_contra hnb
      obtain ⟨R, lost, htriple⟩ := Memory.killProcess_triple hlive.pointers hbatch (by omega)
      obtain ⟨L, -, hheap⟩ := hlive.exact
      obtain ⟨p', h', -, hrun, -⟩ := htriple t.heap L hheap
      rw [hrun] at hnone
      cases hnone
    · refine Option.eq_none_iff_forall_ne_some.mpr fun x hrun => ?_
      exact Memory.killProcess_faults hlive.pointers.slots hnb t.heap x.1 x.2 hrun
  · cases hs

/-- A step faults exactly where it reads past the process table. -/
theorem faults_iff (hlive : MemoryLive t) (h : memoryStep t ml = some t') :
    t'.faulted = true ↔ PastTable t.daemon ml.label := by
  obtain ⟨hok, hag, heffect⟩ := memory_effect h
  cases heffect with
  | pastTable hsig hpast hnone => exact iff_of_true rfl (.inl ⟨hsig, hpast⟩)
  | faults hs hrun =>
    refine iff_of_true rfl (.inr ?_)
    by_cases hkill : ml.label = .killProcess 0
    · rw [hkill] at hs hrun
      exact ⟨hkill, (kill_faults_iff hlive hs ml.os).mp hrun⟩
    · obtain ⟨L, -, hheap⟩ := hlive.exact
      obtain ⟨p', h', -, hrun', -⟩ := Memory.program_triple hlive.pointers hlive.pipes hag hs hkill t.heap L hheap
      rw [hrun] at hrun'
      cases hrun'
  | runs hs hrun hstack =>
    refine iff_of_false Bool.false_ne_true ?_
    rintro (⟨hsig, hpast⟩ | ⟨hkill, hnb⟩)
    · rw [not_pastTable hsig hs] at hpast
      cases hpast
    · rw [hkill] at hs hrun
      rw [(kill_faults_iff hlive hs ml.os).mpr hnb] at hrun
      cases hrun

theorem memoryInv_step (hinv : MemoryInv t) (hg : Memory.Unhit t ml) (h : memoryStep t ml = some t') :
    MemoryInv t' := by
  obtain ⟨hok, hag, heffect⟩ := memory_effect h
  cases heffect with
  | pastTable => exact fun hfalse => nomatch hfalse
  | faults => exact fun hfalse => nomatch hfalse
  | @runs s p' h' hs hrun hstack =>
    intro _ hmode
    have hlive := hinv hok fun hhalted => hmode (halted_stays hhalted hs)
    have hkill : ml.label ≠ .killProcess 0 := by
      intro hkill
      rw [hkill] at hs
      simp only [step, State.killProcess] at hs
      split at hs <;> cases hs
      exact hmode rfl
    obtain ⟨L, hkinds, hheap⟩ := hlive.exact
    obtain ⟨p'', h'', L', hrun', hkinds', hheap'⟩ :=
      Memory.program_triple hlive.pointers hlive.pipes hag hs hkill t.heap L hheap
    rw [hrun] at hrun'
    cases hrun'
    exact {
      pipes := pipesInv_step hlive.pipes hg.1 (step_effect hs)
      pointers := Memory.program_pointers hlive.pointers hlive.pipes hg.1 hs hmode t.heap p' h' hrun hstack
      exact := ⟨L + L', by rw [Multiset.map_add, hkinds, hkinds', Multiset.coe_add],
        by rw [hheap', add_assoc, add_comm L' L]; rfl⟩ }

/-! ## From the start -/

theorem startUp_triple : Triple 0 Memory.startUp (fun p => p.held) 0 := by
  refine Triple.malloc.seq fun manager => (Triple.mallocs _).seq fun slots => ?_
  refine Triple.malloc.seq fun socketInfo => Triple.malloc.seq fun listener => ?_
  refine Triple.malloc.seq fun inotify => Triple.malloc.seq fun signalfd => ?_
  have hslots : (slots.1.map Block.addr).map Memory.slotBlock = slots.1 := by
    rw [List.map_map]
    conv_rhs => rw [← List.map_id slots.1]
    refine List.map_congr_left fun b hb => ?_
    have hkind : b.kind = .processInfo := by
      refine List.eq_of_mem_replicate (n := maxProcess) ?_
      rw [← slots.2]
      exact List.mem_map_of_mem hb
    show (⟨b.addr, .processInfo⟩ : Block Site) = b
    rw [← hkind]
  refine (Triple.pure fun p : Pointers => p.held).of_eq ?_ (fun _ => rfl) rfl
  simp only [Pointers.held, Pointers.fixed, Pointers.localBlocks, hslots, List.map_nil, List.sum_nil,
    Multiset.coe_singleton, Multiset.coe_nil]
  abel

theorem startUp_returns :
    Returns Memory.startUp fun p => p.slots.length = maxProcess ∧ p.conns = [] ∧ p.pipes = [] ∧ p.locals = none := by
  refine Returns.after fun manager => Returns.after fun slots => Returns.after fun socketInfo => ?_
  refine Returns.after fun listener => Returns.after fun inotify => Returns.after fun signalfd => ?_
  refine Returns.pure ⟨?_, rfl, rfl, rfl⟩
  have hlength := congrArg List.length slots.2
  rw [List.length_map, List.length_replicate] at hlength
  rw [List.length_map, hlength]

theorem stacks_init (heap : Nat → ProcessInfo) : Manager.stacks (ProcessTable.init heap).manager = 0 :=
  Finset.sum_eq_zero fun _ _ => rfl

theorem memoryInv_init {heap : Nat → ProcessInfo} {nfds : Nat} {sock : Fd} {port : Nat}
    (h : Memory.init heap nfds sock port = some t) : MemoryInv t := by
  have hempty : (↑(Blocks.empty : Blocks Site).live : Multiset (Block Site)) = 0 + 0 := by
    rw [zero_add]
    rfl
  obtain ⟨p, h', L, hrun, hkinds, hheap⟩ := startUp_triple Blocks.empty 0 hempty
  have hp := startUp_returns Blocks.empty p h' hrun
  have ht : t = ⟨.init heap nfds sock port, p, h', [], false⟩ := by
    unfold Memory.init at h
    split at h
    · rename_i p₁ h₁ hrun₁
      have heq : (p, h') = (p₁, h₁) := Option.some.inj (hrun.symm.trans hrun₁)
      rw [(Prod.mk.inj heq).1, (Prod.mk.inj heq).2]
      exact (Option.some.inj h).symm
    · cases h
  subst ht
  intro _ _
  have hpointers : PointersInv p (.init heap nfds sock port) := {
    slots := hp.1
    conns := by rw [hp.2.1]; rfl
    pipes := by rw [hp.2.2.1]; rfl
    batch := fun fd hfd => absurd hfd (List.not_mem_nil)
    locals := by rw [hp.2.2.2]; rfl }
  refine ⟨pipesInv_init heap nfds sock port, hpointers, L, hkinds, ?_⟩
  have hstacks : Manager.stacks (State.init heap nfds sock port).table.manager = 0 := stacks_init heap
  rw [hheap, Memory.held, hstacks]
  show p.held + L + 0 = p.held + 0 + L
  rw [add_zero, add_zero]

theorem memoryInv_of_reach {heap : Nat → ProcessInfo} {nfds : Nat} {sock : Fd} {port : Nat}
    (h : Memory.init heap nfds sock port = some t) (hr : Lts.Reach memoryStep Memory.Unhit t t') : MemoryInv t' :=
  hr.invariant (memoryInv_init h) fun _ _ _ _ hinv hg hs => memoryInv_step hinv hg hs

theorem servesOne_run :
    ∃ t t', Memory.start = some t ∧ Lts.Reach memoryStep (fun t ml => t.Whole ml ∧ t.Counted ml) t t' ∧
      t'.faulted = false ∧ t'.daemon.mode ≠ .halted ∧ t'.lost.length = 15 ∧ t'.daemon.sent.length = 5 ∧
      t'.daemon.table.nbProcess ≤ maxProcess ∧ t'.Whole ⟨.killProcess 0, Memory.quiet⟩ ∧
      (memoryStep t' ⟨.killProcess 0, Memory.quiet⟩).isSome = true := by
  have hruns : ((Memory.start.bind fun t =>
      Lts.run (Lts.guarded (fun t ml => t.Whole ml ∧ t.Counted ml) memoryStep) t Memory.servesOne).map fun t =>
        !t.faulted && decide (t.daemon.mode ≠ .halted) && t.lost.length == 15 && t.daemon.sent.length == 5 &&
        decide (t.daemon.table.nbProcess ≤ (maxProcess : Int)) && decide (t.Whole ⟨.killProcess 0, Memory.quiet⟩) &&
        (memoryStep t ⟨.killProcess 0, Memory.quiet⟩).isSome) = some true := by decide +kernel
  obtain ⟨t', hrun, hp⟩ := Option.map_eq_some_iff.mp hruns
  obtain ⟨t, ht, hrun⟩ := Option.bind_eq_some_iff.mp hrun
  simp only [Bool.and_eq_true, Bool.not_eq_true', beq_iff_eq, decide_eq_true_eq] at hp
  obtain ⟨⟨⟨⟨⟨⟨hok, hmode⟩, hlost⟩, hsent⟩, hnb⟩, hwhole⟩, hkill⟩ := hp
  exact ⟨t, t', ht, Lts.reach_of_run hrun, hok, hmode, hlost, hsent, hnb, hwhole, hkill⟩

theorem not_pastTable_of_bounded (h : CounterBounded s) : ¬ PastTable s l := by
  rintro (⟨-, hpast⟩ | ⟨-, hnb⟩)
  · obtain ⟨pid, -, hnone⟩ := (Option.any_eq_true _ _).mp hpast
    obtain ⟨r, hr⟩ := Option.isSome_iff_exists.mp (h.removes pid)
    rw [ProcessTable.release, hr] at hnone
    cases hnone
  · have hle := h.le
    omega

theorem halted_idle (hmode : s.mode = .halted) (h : step s l = some s') : program p s os l = pure p := by
  cases l with
  | child | openOther | closeOther | epollWait | epollFails | hupErr => rfl
  | signalfd => simp [step, State.signalfd, hmode] at h
  | waitpidReturns => simp [step, State.waitpidReturns, hmode] at h
  | execve => simp [step, State.execve, hmode] at h
  | runCommand => simp [step, State.runCommand, hmode] at h
  | launchReturns => simp [step, State.launchReturns, hmode] at h
  | killProcess => simp [step, State.killProcess, hmode] at h
  | unexpected => simp [step, State.unexpected, hmode] at h
  | sockClosed => simp [step, State.sockClosed, hmode] at h
  | sockConnexion => simp [step, State.sockConnexion, hmode] at h
  | inotify => simp [step, State.inotify, hmode] at h

theorem counted_step (hinv : MemoryInv t) (hcount : CounterInv t.daemon) (hg : t.Counted ml)
    (h : memoryStep t ml = some t') : CounterInv t'.daemon ∧ t'.faulted = false := by
  obtain ⟨hok, hag, heffect⟩ := memory_effect h
  have hpast := not_pastTable_of_bounded (l := ml.label) hcount.bounded
  cases heffect with
  | pastTable hsig hpast' hnone => exact absurd (.inl ⟨hsig, hpast'⟩) hpast
  | faults hs hrun =>
    exfalso
    by_cases hmode : t.daemon.mode = .halted
    · rw [halted_idle hmode hs] at hrun
      cases hrun
    · exact hpast ((faults_iff (hinv hok hmode) h).mp rfl)
  | runs hs hrun hstack => exact ⟨counterInv_step hcount hg.2 (step_table hs), rfl⟩

namespace Memory

theorem count_answerLost (sent : Bool) : (answerLost sent).count .buffer = 1 := by
  cases sent <;> rfl

theorem count_answersLost (sent : Nat → Bool) (i n : Nat) : (answersLost sent i n).count .buffer = n := by
  induction n generalizing i with
  | zero => rfl
  | succ n ih => rw [answersLost, List.count_append, count_answerLost, ih, Nat.add_comm]

theorem count_entriesLost (sent : Nat → Bool) (i : Nat) (sock : Fd) (entries : List (Option Surveillance)) :
    (entriesLost sent i entries).count .buffer = (surveillanceAcks sock entries).length := by
  induction entries generalizing i with
  | nil => rfl
  | cons entry entries ih =>
    simp only [surveillanceAcks, List.length_map, List.flatMap_cons, List.length_append] at ih ⊢
    cases entry with
    | none => simp only [entriesLost, ih, surveillanceAck, List.length_nil, Nat.zero_add]
    | some w =>
      have hack : (surveillanceAck (some w)).length = 1 := by cases w <;> rfl
      rw [entriesLost, List.count_append, count_answerLost, ih, hack]

theorem count_requestLost (os : MemoryOs) (com : Command) (sock : Fd) :
    (surveillanceAcks sock com.toWatch).length + 1 ≤ (requestLost com os).count .buffer := by
  simp only [requestLost, List.count_append, count_answerLost, count_entriesLost _ _ sock]
  omega

theorem count_reportLost {pid : Pid} {garbage : Nat} :
    (s.terminated pid garbage).toList.length ≤ (reportLost s pid garbage os).count .buffer := by
  unfold reportLost
  cases s.terminated pid garbage with
  | none => exact Nat.zero_le _
  | some m => exact (count_answerLost _).ge

theorem sends_le_lostBy (os : MemoryOs) (l : Label) (hi : PointersInv p s) : (s.sends l).length ≤ (lostBy p s os l).count .buffer := by
  cases l with
  | signalfd garbage held =>
    simp only [State.sends, lostBy]
    cases s.pending with
    | none => exact Nat.zero_le _
    | some pid => exact count_reportLost
  | waitpidReturns garbage held =>
    simp only [State.sends, lostBy]
    cases s.mode with
    | waitpid pid => exact count_reportLost
    | loop | launching lg | halted => exact Nat.zero_le _
  | execve foreign =>
    have hlength : (s.sends (.execve foreign)).length ≤ 1 := by
      simp only [State.sends]
      split
      · rw [List.length_map]
        exact Option.length_toList_le
      · exact Nat.zero_le _
    simp only [lostBy, List.count_cons, count_answerLost]
    omega
  | runCommand com launch =>
    cases launch with
    | paramFails | mallocFails | cloneFails =>
      simp only [State.sends]
      split
      · rename_i sock rest hbatch
        have hrequest := count_requestLost os com sock
        simp only [lostBy, List.count_append, List.length_cons]
        omega
      · exact Nat.zero_le _
    | pipeFails | clones => exact Nat.zero_le _
  | launchReturns epollAdd =>
    simp only [State.sends]
    split
    · rename_i lg hmode
      obtain ⟨l, hl, -⟩ := hi.launching hmode
      simp only [lostBy, hmode, hl, launchLost, List.count_append, count_answerLost, count_entriesLost _ _ lg.sock,
        List.length_cons]
      omega
    · exact Nat.zero_le _
  | sockConnexion fd =>
    simp only [State.sends, lostBy, List.count_cons, count_answerLost, List.length_singleton]
    omega
  | inotify updates => simp only [State.sends, lostBy, List.length_map, count_answersLost, le_refl]
  | child | openOther | closeOther | epollWait | epollFails | killProcess | unexpected | sockClosed | hupErr =>
    exact Nat.zero_le _

end Memory

theorem sent_le_lost {heap : Nat → ProcessInfo} {nfds : Nat} {sock : Fd} {port : Nat}
    (h : Memory.init heap nfds sock port = some t) (hr : Lts.Reach memoryStep Memory.Unhit t t') :
    t'.faulted = false → t'.daemon.mode ≠ .halted → t'.daemon.sent.length ≤ t'.lost.count .buffer := by
  induction hr with
  | init =>
    intro _ _
    unfold Memory.init at h
    split at h <;> cases h
    exact Nat.zero_le _
  | @step t₁ t₂ ml hr hg hs ih =>
    obtain ⟨hok, -, heffect⟩ := memory_effect hs
    cases heffect with
    | pastTable => exact fun hfalse => nomatch hfalse
    | faults => exact fun hfalse => nomatch hfalse
    | runs hstep hrun hstack =>
      intro _ hmode
      have hmode₁ : t₁.daemon.mode ≠ .halted := fun hhalted => hmode (halted_stays hhalted hstep)
      have hlive := memoryInv_of_reach h hr hok hmode₁
      have hbefore := ih hok hmode₁
      have hsends := Memory.sends_le_lostBy ml.os ml.label hlive.pointers
      simp only [step_sends hstep, List.length_append, List.count_append]
      omega

/-- The daemon keeps the process table, and each message that it has sent has left a buffer: the heap grows with every
message. -/
theorem memory_grows (heap : Nat → ProcessInfo) (nfds : Nat) (sock : Fd) (port : Nat)
    (h : Memory.init heap nfds sock port = some t) (hr : Lts.Reach memoryStep Memory.Unhit t t')
    (hok : t'.faulted = false) (hmode : t'.daemon.mode ≠ .halted) :
    maxProcess + t'.daemon.sent.length ≤ t'.heap.live.length := by
  have hlive := memoryInv_of_reach h hr hok hmode
  obtain ⟨L, hkinds, hheap⟩ := hlive.exact
  have hlost : Multiset.card L = t'.lost.length := by
    rw [← Multiset.card_map Block.kind, hkinds, Multiset.coe_card]
  have hslots : maxProcess ≤ Multiset.card t'.held := by
    have hle : (↑(t'.pointers.slots.map Memory.slotBlock) : Multiset (Block Site)) ≤ t'.held := by
      simp only [Memory.held, Pointers.held, Pointers.fixed, add_assoc]
      exact (Multiset.le_add_right ..).trans (Multiset.le_add_left ..)
    have hcard := Multiset.card_le_card hle
    rwa [Multiset.coe_card, List.length_map, hlive.pointers.slots] at hcard
  have hcard := congrArg Multiset.card hheap
  rw [Multiset.coe_card, Multiset.card_add, hlost] at hcard
  have hsent := (sent_le_lost h hr hok hmode).trans List.count_le_length
  omega

theorem five_messages_left :
    ∃ t t', Memory.start = some t ∧ Lts.Reach memoryStep Memory.Unhit t t' ∧ t'.daemon.sent.length = 5 ∧
      maxProcess + t'.daemon.sent.length ≤ t'.heap.live.length := by
  obtain ⟨t, t', ht, hserved, hok, hmode, -, hsent, -⟩ := servesOne_run
  have hr := hserved.mono fun _ _ hg => hg.2.1
  exact ⟨t, t', ht, hr, hsent, memory_grows _ 8 0 8080 ht hr hok hmode⟩

end Runs

end ProcCtrld
