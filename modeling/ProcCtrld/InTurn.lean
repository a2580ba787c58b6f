import ProcCtrld.Interchange

/-!
# ProcCtrld.InTurn

A client of the C daemon that waits for the end of one program before it asks for the next
(`OneAtATime`). The messages about its launches then come one launch after the other
(`turnInv_of_reach`), although they come through different descriptors: all that is said about a launch is
said between the request for it and the next one.
-/

namespace ProcCtrld

variable {s s' : State} {l : Label}

/-- A command is taken up once the termination of every launch before it has been sent. -/
def OneAtATime (s : State) (l : Label) : Prop :=
  l.command.isSome → ∀ k < s.children.length, s.terminations k ≠ []

instance (s : State) (l : Label) : Decidable (OneAtATime s l) :=
  inferInstanceAs (Decidable (l.command.isSome → ∀ k < s.children.length, s.terminations k ≠ []))

/-- The messages about launches, in the order in which they were sent. -/
def State.launchLog (s : State) : List Msg := (s.sent.filter fun m => m.launch.isSome).map (·.msg)

theorem launchLog_of_sent {ms : List Sent} (h : s'.sent = s.sent ++ ms) :
    s'.launchLog = s.launchLog ++ (ms.filter fun m => m.launch.isSome).map (·.msg) := by
  rw [State.launchLog, h, List.filter_append, List.map_append]
  rfl

structure TurnInv (s : State) : Prop where
  log : s.launchLog = (List.range s.children.length).flatMap s.log
  done : ∀ k, k + 1 < s.children.length → s.terminations k ≠ []

theorem turnInv_init (heap : Nat → ProcessInfo) (nfds : Nat) (sock : Fd) (port : Nat) :
    TurnInv (.init heap nfds sock port) := by
  refine ⟨rfl, fun k hk => ?_⟩
  simp [State.init] at hk

theorem TurnInv.untagged (h : TurnInv s) {ms : List Sent} (hch : s'.children.length = s.children.length)
    (hsent : s'.sent = s.sent ++ ms) (hms : ∀ m ∈ ms, m.launch = none) : TurnInv s' := by
  have hlog : ∀ k, s'.log k = s.log k := by
    intro k
    rw [log_of_sent hsent, about_untagged k hms, List.append_nil]
  have hnone : (ms.filter fun m => m.launch.isSome) = [] := by
    rw [List.filter_eq_nil_iff]
    intro m hm
    simp [hms m hm]
  refine ⟨?_, fun k hk => ?_⟩
  · rw [launchLog_of_sent hsent, hnone, List.map_nil, List.append_nil, h.log, hch, funext hlog]
  · rw [hch] at hk
    rw [State.terminations, hlog]
    exact h.done k hk

theorem TurnInv.tagged (h : TurnInv s) {sock : Fd} {m : Msg} {k : Nat} {ms : List Sent}
    (hch : s'.children.length = s.children.length) (hsent : s'.sent = s.sent ++ ⟨sock, m, some k⟩ :: ms)
    (hms : ∀ m ∈ ms, m.launch = none) (hk : k + 1 = s.children.length) : TurnInv s' := by
  have hother : ∀ j, j ≠ k → s'.log j = s.log j := fun j =>
    log_of_tagged_ne hsent (about_untagged j hms)
  have hself : s'.log k = s.log k ++ [m] := log_of_tagged hsent (about_untagged k hms)
  have hnone : (ms.filter fun m => m.launch.isSome) = [] := by
    rw [List.filter_eq_nil_iff]
    intro m hm
    simp [hms m hm]
  refine ⟨?_, fun j hj => ?_⟩
  · have hbefore : (List.range k).flatMap s'.log = (List.range k).flatMap s.log := by
      refine List.flatMap_congr fun j hj => hother j ?_
      rw [List.mem_range] at hj
      omega
    rw [launchLog_of_sent hsent, List.filter_cons_of_pos rfl, hnone, h.log, hch, ← hk, List.range_succ,
      List.flatMap_append, List.flatMap_append, hbefore]
    simp [hself]
  · rw [hch, ← hk] at hj
    rw [State.terminations, hother j (by omega)]
    exact h.done j (by omega)

/-- The launch that a message is about is the last one, unless its termination has been sent. -/
theorem TurnInv.last (h : TurnInv s) {k : Nat} (hk : k < s.children.length) (hnil : s.terminations k = []) :
    k + 1 = s.children.length := by
  by_contra hne
  exact h.done k (by omega) hnil

/-- An `ExecveTerminated` that is still to come is about the last launch. -/
theorem terminations_nil_of_ordered {k : Nat} (hordered : Ordered (s.log k)) (hnil : s.execves k = []) :
    s.terminations k = [] := by
  rw [State.terminations, List.filter_eq_nil_iff]
  intro m hm hterm
  obtain ⟨pre, post, hsplit⟩ := List.append_of_mem hm
  obtain ⟨m', hpre, hexecve⟩ := hordered pre m post hsplit hterm
  have hmem : m' ∈ s.execves k := by
    refine List.mem_filter.mpr ⟨?_, hexecve⟩
    rw [hsplit]
    exact List.mem_append_left _ hpre
  rw [hnil] at hmem
  cases hmem

theorem turnInv_step (h : TurnInv s) (hterm : TermInv s) (hlaunch : LaunchInv s) (horder : OrderInv s)
    (hg : OneAtATime s l) (he : Effect s l s') : TurnInv s' := by
  cases he with
  | child hc hact =>
    exact h.untagged (List.length_set ..) (List.append_nil _).symm (by simp)
  | quiet hq hcl hbusy =>
    obtain ⟨ms, hms, hnone⟩ := hq.sent
    exact h.untagged (by rw [hq.children]) hms hnone
  | epollWait hmode hnodup hready => exact h.untagged rfl (List.append_nil _).symm (by simp)
  | blocks hmode hbatch hpend hc hpid hun halive => exact h.untagged rfl (List.append_nil _).symm (by simp)
  | @reaps l s' pid c k status hh hc hpid hz hch =>
    have hun : c.unreaped = true := by simp [Child.unreaped, hz]
    exact h.tagged (by rw [hch, List.length_set]) hh.sent (by simp)
      (h.last (List.getElem?_eq_some_iff.mp hc).1 (hterm.unreported k c hc hun))
  | fails hh hnone hch => exact absurd hnone (hterm.unreaped_of_handled hh)
  | @execve foreign success e rest hmode hbatch hfree hread =>
    have hreg : e ∈ s.pipes := hlaunch.pipes.batch e (by rw [hbatch]; simp)
    obtain ⟨c, hc, -, -⟩ := hlaunch.pipes.child e hreg
    exact h.tagged rfl rfl (by simp) (h.last (List.getElem?_eq_some_iff.mp hc).1
      (terminations_nil_of_ordered (horder.ordered e.launch) (hlaunch.logs.registered e hreg)))
  | @clones com errFile pipefd pid stack rest sock err fds hmode hbatch hkept hnew hpid =>
    have hfresh := hlaunch.logs.fresh s.children.length (Nat.le_refl _)
    refine ⟨?_, fun k hk => ?_⟩
    · have hlog : s.launchLog = (List.range (s.children.length + 1)).flatMap s.log := by
        rw [List.range_succ, List.flatMap_append, List.flatMap_singleton, hfresh, List.append_nil, h.log]
      rw [List.length_append]
      exact hlog
    · -- the command was taken up after all terminations
      simp only [List.length_append, List.length_cons, List.length_nil] at hk
      exact hg rfl k (by omega)
  | @launched epollAdd l hmode =>
    obtain ⟨-, ⟨c, hc, -, -⟩, -, -⟩ := hlaunch.pipes.launching l hmode
    have hnil : s.terminations l.launch = [] := by
      rw [State.terminations, hlaunch.logs.launching l hmode]
      rfl
    refine h.tagged rfl rfl ?_ (h.last (List.getElem?_eq_some_iff.mp hc).1 hnil)
    intro m hm
    obtain ⟨x, -, rfl⟩ := List.mem_map.mp hm
    rfl

/-- In every run in which the reports are in order and the commands are taken up one at a time, the
messages about launches come one launch after the other. -/
theorem turnInv_of_reach {heap : Nat → ProcessInfo} {nfds port : Nat} {sock : Fd}
    (hr : Lts.Reach step (fun s l => Clean s l ∧ OneAtATime s l) (.init heap nfds sock port) s) : TurnInv s :=
  hr.invariant (turnInv_init heap nfds sock port) fun _ _ _ hr h hg hs =>
    turnInv_step h (termInv_of_reach (hr.mono fun _ _ hg => hg.1.1))
      (launchInv_of_reach (hr.mono fun _ _ hg => hg.1.2.1.kept)) (orderInv_of_reach (hr.mono fun _ _ hg => hg.1.2.1))
      hg.2 (step_effect hs)

end ProcCtrld
