import ProcCtrld.Effects
import ProcCtrld.RustRequests

/-!
# ProcCtrld.KillRequests

Whom a `KillProcess` message kills, in the C daemon (the KILL_PROCESS case of `daemon-core.c`) and in the
Rust daemon (`handle_message` and `send_sigkill`). Both hand the number from the network to `kill(2)`
without looking it up among their children; the C daemon leaves negative numbers alone.

* `Procs.hits` — the processes that `kill(pid, SIGKILL)` reaches, from the processes there are.
* `killStep` and `Rust.taskStep` — the runs of the two daemons with a log of whom each request hit.
* `kills_own_children_iff` — in every run of either daemon, each request hits at most one process, an
  unreaped child of the daemon, exactly when every request is for a number that leads to nobody else.
-/

namespace ProcCtrld

/-! ## `kill(2)` -/

/-- `mayKill` says whether the daemon has the permission to signal the process. -/
structure Process where
  pid : Pid
  pgid : Pid
  mayKill : Bool
deriving DecidableEq, Repr

def intMin : Int := -2 ^ 31

/-- The process is among those that `pid` stands for, in a call by `self`. -/
def Process.addressed (self : Process) (pid : Pid) (p : Process) : Bool :=
  if 0 < pid then p.pid = pid
  else if pid = 0 then p.pgid = self.pgid
  else if pid = -1 then p.pid ≠ 1 && p.pid ≠ self.pid
  else if pid = intMin then false
  else p.pgid = -pid

/-- A process that gets SIGKILL: the child of a launch, not yet reaped, or another process. -/
inductive Target where
  | child (launch : Nat)
  | other (p : Process)
deriving DecidableEq, Repr

/-- The processes at the moment of a `kill`: the daemon itself, the group and the permission of its
children by their launch, and all the others. -/
structure Procs where
  self : Process
  ofChild : Nat → Pid × Bool
  others : List Process

namespace Procs

variable (ps : Procs) (pid : Pid)

def reaches (p : Process) : Bool := p.mayKill && ps.self.addressed pid p

/-- The unreaped child of a launch as a process. -/
def childProcess (c : Nat × Pid) : Process := ⟨c.2, (ps.ofChild c.1).1, (ps.ofChild c.1).2⟩

def reachedChildren (own : List (Nat × Pid)) : List (Nat × Pid) :=
  own.filter fun c => ps.reaches pid (ps.childProcess c)

/-- `kill(pid, SIGKILL)`, when `own` are the launches and pids of the unreaped children. -/
def hits (own : List (Nat × Pid)) : List Target :=
  (ps.reachedChildren pid own).map (fun c => .child c.1) ++
    ((ps.self :: ps.others).filter (ps.reaches pid)).map .other

/-- The number leads to no process that is not a child. -/
def SparesOthers : Prop := ∀ p ∈ ps.self :: ps.others, ps.self.addressed pid p → p.mayKill = false

instance : Decidable (ps.SparesOthers pid) :=
  inferInstanceAs (Decidable (∀ p ∈ ps.self :: ps.others, ps.self.addressed pid p → p.mayKill = false))

end Procs

/-- At most one process is hit, and it is an unreaped child of the daemon. -/
structure OwnOnly (hits : List Target) : Prop where
  one : hits.length ≤ 1
  own : ∀ t ∈ hits, ∃ launch, t = .child launch

/-- The launches and pids of the unreaped children; `none` is a child that has been reaped. -/
def unreapedPids (pids : List (Option Pid)) : List (Nat × Pid) :=
  pids.zipIdx.filterMap fun x => x.1.map fun pid => (x.2, pid)

section Kill

variable {ps : Procs} {pid : Pid} {own : List (Nat × Pid)}

theorem ownOnly_hits_iff :
    OwnOnly (ps.hits pid own) ↔ ps.SparesOthers pid ∧ (ps.reachedChildren pid own).length ≤ 1 := by
  have hfilter : (ps.self :: ps.others).filter (ps.reaches pid) = [] ↔ ps.SparesOthers pid := by
    rw [List.filter_eq_nil_iff]
    refine forall_congr' fun p => forall_congr' fun _ => ?_
    rw [Procs.reaches, Bool.and_eq_true, not_and', Bool.not_eq_true]
  rw [← hfilter]
  constructor
  · rintro ⟨hone, hown⟩
    refine ⟨?_, ?_⟩
    · by_contra hne
      obtain ⟨p, hp⟩ := List.exists_mem_of_ne_nil _ hne
      obtain ⟨launch, hlaunch⟩ := hown (.other p) (List.mem_append_right _ (List.mem_map_of_mem hp))
      cases hlaunch
    · rw [Procs.hits, List.length_append, List.length_map] at hone
      omega
  · rintro ⟨hnil, hone⟩
    rw [Procs.hits, hnil, List.map_nil, List.append_nil]
    refine ⟨by rw [List.length_map]; exact hone, ?_⟩
    intro t ht
    obtain ⟨c, -, rfl⟩ := List.mem_map.1 ht
    exact ⟨c.1, rfl⟩

theorem mem_unreapedPids {pids : List (Option Pid)} {c : Nat × Pid} :
    c ∈ unreapedPids pids ↔ pids[c.1]? = some (some c.2) := by
  obtain ⟨k, pid⟩ := c
  simp only [unreapedPids, List.mem_filterMap, Option.map_eq_some_iff, Prod.mk.injEq]
  constructor
  · rintro ⟨⟨x, i⟩, hx, p, hp, rfl, rfl⟩
    rw [List.mem_zipIdx_iff_getElem?] at hx
    rw [hx]
    exact congrArg some hp
  · intro h
    exact ⟨(some pid, k), List.mem_zipIdx_iff_getElem?.2 h, pid, rfl, rfl, rfl⟩

theorem nodup_unreapedPids (pids : List (Option Pid)) : (unreapedPids pids).Nodup := by
  have hindices : (pids.zipIdx.map Prod.snd).Nodup := by
    rw [List.zipIdx_map_snd]
    exact List.nodup_range'
  refine List.Nodup.filterMap ?_ hindices.of_map
  rintro ⟨x, i⟩ ⟨y, j⟩ c hx hy
  simp only [Option.mem_def, Option.map_eq_some_iff] at hx hy
  obtain ⟨p, rfl, rfl⟩ := hx
  obtain ⟨q, rfl, hq⟩ := hy
  cases hq
  rfl

/-- No two unreaped children have the same pid. -/
def DistinctPids (pids : List (Option Pid)) : Prop :=
  ∀ (j k : Nat) (pid : Pid), pids[j]? = some (some pid) → pids[k]? = some (some pid) → j = k

/-- A positive number names at most one unreaped child. -/
theorem reachedChildren_le_one {pids : List (Option Pid)} (hpos : 0 < pid) (hd : DistinctPids pids) :
    (ps.reachedChildren pid (unreapedPids pids)).length ≤ 1 := by
  have hpid : ∀ c ∈ ps.reachedChildren pid (unreapedPids pids), pids[c.1]? = some (some pid) ∧ c.2 = pid := by
    intro c hc
    obtain ⟨hmem, hreach⟩ := List.mem_filter.1 hc
    rw [Procs.reaches, Process.addressed, if_pos hpos, Bool.and_eq_true, decide_eq_true_eq] at hreach
    have heq : c.2 = pid := hreach.2
    exact ⟨heq ▸ mem_unreapedPids.1 hmem, heq⟩
  have hnodup : (ps.reachedChildren pid (unreapedPids pids)).Nodup := (nodup_unreapedPids pids).filter _
  match h : ps.reachedChildren pid (unreapedPids pids) with
  | [] => exact Nat.zero_le _
  | [_] => exact le_rfl
  | a :: b :: rest =>
    -- two of them would be the same child
    rw [h] at hpid hnodup
    obtain ⟨ha, hap⟩ := hpid a (List.mem_cons_self ..)
    obtain ⟨hb, hbp⟩ := hpid b (List.mem_cons_of_mem _ (List.mem_cons_self ..))
    have hab : a = b := Prod.ext (hd _ _ _ ha hb) (hap.trans hbp.symm)
    rw [hab] at hnodup
    exact absurd (List.mem_cons_self ..) (List.nodup_cons.1 hnodup).1

end Kill

/-! ## The C daemon -/

/-- The event loop with the processes that each KillProcess hit. -/
structure Killing where
  state : State
  hits : List (List Target)

def State.unreapedPids (s : State) : List (Option Pid) :=
  s.children.map fun c => if c.unreaped then some c.pid else none

/-- A step, with the processes there are when it is a `kill`. -/
def killStep (s : Killing) (x : Label × Procs) : Option Killing :=
  match step s.state x.1 with
  | some s' =>
    match x.1 with
    | .killProcess pid =>
      if 0 < pid then some ⟨s', s.hits ++ [x.2.hits pid (ProcCtrld.unreapedPids s.state.unreapedPids)]⟩
      else some ⟨s', s.hits⟩
    | _ => some ⟨s', s.hits⟩
  | none => none

def Killing.OwnOnly (s : Killing) : Prop := ∀ hits ∈ s.hits, ProcCtrld.OwnOnly hits

/-- A KillProcess with a negative number, or with one that leads to no process but a child. -/
def SparingKill (_ : Killing) (x : Label × Procs) : Prop := ∀ pid ∈ x.1.kill, 0 < pid → x.2.SparesOthers pid

instance (s : Killing) (x : Label × Procs) : Decidable (SparingKill s x) :=
  inferInstanceAs (Decidable (∀ pid ∈ x.1.kill, 0 < pid → x.2.SparesOthers pid))

theorem distinctPids_of_pidsDistinct {s : State} (h : PidsDistinct s) : DistinctPids s.unreapedPids := by
  intro j k pid hj hk
  simp only [State.unreapedPids, List.getElem?_map, Option.map_eq_some_iff] at hj hk
  obtain ⟨c, hc, hcp⟩ := hj
  obtain ⟨d, hd, hdp⟩ := hk
  split at hcp
  · rename_i hcu
    split at hdp
    · rename_i hdu
      cases hcp
      rw [Option.some.injEq] at hdp
      exact h j k c d hc hd hcu hdu hdp.symm
    · cases hdp
  · cases hcp

section CDaemon

variable {s s' : Killing} {x : Label × Procs}

theorem killStep_cases (h : killStep s x = some s') :
    step s.state x.1 = some s'.state ∧
    ((∃ pid, x.1 = .killProcess pid ∧ 0 < pid ∧
        s'.hits = s.hits ++ [x.2.hits pid (unreapedPids s.state.unreapedPids)]) ∨
      (SparingKill s x ∧ s'.hits = s.hits)) := by
  obtain ⟨l, ps⟩ := x
  unfold killStep at h
  split at h
  · rename_i t hstep
    split at h
    · rename_i pid hl
      simp only at hl
      subst hl
      split at h
      · rename_i hpos
        cases h
        exact ⟨hstep, .inl ⟨pid, rfl, hpos, rfl⟩⟩
      · rename_i hpos
        cases h
        refine ⟨hstep, .inr ⟨fun pid' hpid' h' => ?_, rfl⟩⟩
        cases hpid'
        exact absurd h' hpos
    · rename_i hl
      cases h
      refine ⟨hstep, .inr ⟨fun pid hpid _ => ?_, rfl⟩⟩
      exact absurd (Label.kill_eq_some hpid) (hl pid)
  · cases h

theorem killing_kept (h : s.OwnOnly ∧ PidsDistinct s.state) (hg : SparingKill s x) (hs : killStep s x = some s') :
    s'.OwnOnly ∧ PidsDistinct s'.state := by
  obtain ⟨hstep, hlog⟩ := killStep_cases hs
  refine ⟨?_, pidsDistinct_step h.2 (step_effect hstep)⟩
  unfold Killing.OwnOnly
  rcases hlog with ⟨pid, hl, hpos, hhits⟩ | ⟨-, hhits⟩
  · have hspares : x.2.SparesOthers pid := hg pid (by rw [hl]; rfl) hpos
    rw [hhits, List.forall_mem_append, List.forall_mem_singleton, ownOnly_hits_iff]
    exact ⟨h.1, hspares, reachedChildren_le_one hpos (distinctPids_of_pidsDistinct h.2)⟩
  · rw [hhits]
    exact h.1

theorem killing_sharp (hg : ¬ SparingKill s x) (hs : killStep s x = some s') : ¬ s'.OwnOnly := by
  obtain ⟨-, ⟨pid, hl, hpos, hhits⟩ | ⟨hspares, -⟩⟩ := killStep_cases hs
  · intro hown
    have hlast := hown _ (hhits ▸ List.mem_append_right _ (List.mem_singleton_self _))
    apply hg
    intro pid' hpid' _
    rw [hl] at hpid'
    cases hpid'
    exact (ownOnly_hits_iff.1 hlast).1
  · exact absurd hspares hg

end CDaemon

/-! ## The Rust daemon -/

namespace Rust

/-- A child of the Rust daemon. -/
structure Spawned where
  pid : Pid
  life : Life
deriving DecidableEq, Repr

/-- The pid, until the child is reaped. -/
def Spawned.unreapedPid (c : Spawned) : Option Pid :=
  match c.life with
  | .reaped _ => none
  | _ => some c.pid

/-- Where the task of a connection is: at `read_exact`, in the `wait` for a child, or between that and the
end of `handle_message`. -/
inductive Task where
  | idle
  | waits (launch : Nat)
  | watches
  | gone
deriving DecidableEq, Repr

structure Tasks where
  children : List Spawned
  tasks : List Task
  hits : List (List Target)

/-- `spawned` is the pid of a child that `spawn` creates, and `procs` the processes there are when the
message is a kill. A task is left at the end of its stream and by a panic. -/
inductive TaskLabel where
  | accept
  | handles (conn : Nat) (msg : Message) (spawned : Option Pid) (procs : Procs)
  | exits (launch : Nat) (status : WaitStatus)
  | waitReturns (conn : Nat)
  | watchesEnd (conn : Nat)
  | leaves (conn : Nat)

namespace Tasks

def init : Tasks := ⟨[], [], []⟩

def unreapedPids (s : Tasks) : List (Option Pid) := s.children.map Spawned.unreapedPid

/-- `send_sigkill`. What number 0 does is not logged. -/
def sendSigkill (s : Tasks) (pid : Pid) (procs : Procs) : Tasks :=
  if pid = 0 then s else { s with hits := s.hits ++ [procs.hits pid (ProcCtrld.unreapedPids s.unreapedPids)] }

/-- The RunCommand branch up to the `wait`. -/
def runCommand (s : Tasks) (conn : Nat) (runCmd : RunCommand) (spawned : Option Pid) : Option Tasks :=
  match execCommand runCmd, runCmd.toWatch, spawned with
  | some _, some _, some pid =>
    if some pid ∈ s.unreapedPids then none
    else some { s with
      children := s.children ++ [⟨pid, .running⟩]
      tasks := s.tasks.set conn (.waits s.children.length) }
  | some _, some _, none => some { s with tasks := s.tasks.set conn .watches }
  | _, _, _ => some { s with tasks := s.tasks.set conn .gone }

/-- `handle_message`. -/
def handle (s : Tasks) (conn : Nat) (spawned : Option Pid) (procs : Procs) : Message → Option Tasks
  | .killProcess none => some { s with tasks := s.tasks.set conn .gone }
  | .killProcess (some e) => some (s.sendSigkill e.pid procs)
  | .runCommand none => some { s with tasks := s.tasks.set conn .gone }
  | .runCommand (some runCmd) => s.runCommand conn runCmd spawned
  | .other _ _ => some s

def exits (s : Tasks) (launch : Nat) (status : WaitStatus) : Option Tasks :=
  match s.children[launch]? with
  | some ⟨pid, .running⟩ => some { s with children := s.children.set launch ⟨pid, .zombie status⟩ }
  | _ => none

/-- `child.wait().await` returns: the child is reaped. -/
def waitReturns (s : Tasks) (conn : Nat) : Option Tasks :=
  match s.tasks[conn]? with
  | some (.waits launch) =>
    match s.children[launch]? with
    | some ⟨pid, .zombie status⟩ =>
      some { s with
        children := s.children.set launch ⟨pid, .reaped status⟩
        tasks := s.tasks.set conn .watches }
    | _ => none
  | _ => none

end Tasks

def taskStep (s : Tasks) : TaskLabel → Option Tasks
  | .accept => some { s with tasks := s.tasks ++ [.idle] }
  | .handles conn msg spawned procs =>
    if s.tasks[conn]? = some .idle then s.handle conn spawned procs msg else none
  | .exits launch status => s.exits launch status
  | .waitReturns conn => s.waitReturns conn
  | .watchesEnd conn =>
    if s.tasks[conn]? = some .watches then some { s with tasks := s.tasks.set conn .idle } else none
  | .leaves conn =>
    if s.tasks[conn]? = some .idle ∨ s.tasks[conn]? = some .watches then
      some { s with tasks := s.tasks.set conn .gone }
    else none

def Tasks.OwnOnly (s : Tasks) : Prop := ∀ hits ∈ s.hits, ProcCtrld.OwnOnly hits

/-- A kill whose number leads to no process but a child, and, if it is negative, to one child at most. -/
def SparingTask (s : Tasks) : TaskLabel → Prop
  | .handles _ (.killProcess (some e)) _ procs => e.pid ≠ 0 →
    procs.SparesOthers e.pid ∧
      (e.pid < 0 → (procs.reachedChildren e.pid (ProcCtrld.unreapedPids s.unreapedPids)).length ≤ 1)
  | _ => True

instance (s : Tasks) : (l : TaskLabel) → Decidable (SparingTask s l)
  | .handles _ (.killProcess (some e)) _ procs => inferInstanceAs (Decidable (e.pid ≠ 0 →
      procs.SparesOthers e.pid ∧
        (e.pid < 0 → (procs.reachedChildren e.pid (ProcCtrld.unreapedPids s.unreapedPids)).length ≤ 1)))
  | .handles _ (.killProcess none) .. | .handles _ (.runCommand _) .. | .handles _ (.other ..) ..
  | .accept | .exits .. | .waitReturns _ | .watchesEnd _ | .leaves _ => isTrue trivial

section RustDaemon

variable {s s' : Tasks} {l : TaskLabel}

/-- The pids that are in use after a step: those of before, fewer, or a new one. -/
inductive PidsStep (pids : List (Option Pid)) : List (Option Pid) → Prop where
  | fewer {pids' : List (Option Pid)}
      (h : ∀ (k : Nat) (pid : Pid), pids'[k]? = some (some pid) → pids[k]? = some (some pid)) :
      PidsStep pids pids'
  | new {pid : Pid} (h : some pid ∉ pids) : PidsStep pids (pids ++ [some pid])

theorem PidsStep.same (pids : List (Option Pid)) : PidsStep pids pids := .fewer fun _ _ h => h

theorem PidsStep.set {children : List Spawned} {k : Nat} {pid : Pid} {c : Spawned} (life : Life)
    (hc : children[k]? = some c) (hpid : c.unreapedPid = some pid) :
    PidsStep (children.map Spawned.unreapedPid) ((children.set k ⟨pid, life⟩).map Spawned.unreapedPid) := by
  refine .fewer ?_
  intro j p hj
  rw [List.getElem?_map, Option.map_eq_some_iff] at hj ⊢
  obtain ⟨d, hd, hdp⟩ := hj
  rcases getElem?_set_some hd with ⟨rfl, rfl⟩ | ⟨-, hd⟩
  · refine ⟨c, hc, ?_⟩
    rw [hpid]
    unfold Spawned.unreapedPid at hdp
    split at hdp
    · cases hdp
    · exact hdp
  · exact ⟨d, hd, hdp⟩

theorem DistinctPids.step {pids pids' : List (Option Pid)} (h : DistinctPids pids) (hp : PidsStep pids pids') :
    DistinctPids pids' := by
  cases hp with
  | fewer hfewer => exact fun j k pid hj hk => h j k pid (hfewer j pid hj) (hfewer k pid hk)
  | new hnew =>
    intro j k pid hj hk
    rcases getElem?_append_some hj with hj' | ⟨hj', hpid⟩ <;>
      rcases getElem?_append_some hk with hk' | ⟨hk', hpid'⟩
    · exact h j k pid hj' hk'
    · exact absurd (hpid' ▸ List.mem_of_getElem? hj') hnew
    · exact absurd (hpid ▸ List.mem_of_getElem? hk') hnew
    · rw [hj', hk']

/-- What a step can do: it logs a kill, or it spares everybody. -/
inductive TaskEffect (s : Tasks) (l : TaskLabel) : Tasks → Prop where
  | kills {conn : Nat} {e : KillProcess} {spawned : Option Pid} {procs : Procs}
      (hl : l = .handles conn (.killProcess (some e)) spawned procs) (hne : e.pid ≠ 0) :
      TaskEffect s l { s with hits := s.hits ++ [procs.hits e.pid (ProcCtrld.unreapedPids s.unreapedPids)] }
  | spares {s' : Tasks} (hl : SparingTask s l) (hhits : s'.hits = s.hits)
      (hpids : PidsStep s.unreapedPids s'.unreapedPids) : TaskEffect s l s'

theorem TaskEffect.moves (hl : SparingTask s l) (hchildren : s'.children = s.children) (hhits : s'.hits = s.hits) :
    TaskEffect s l s' := by
  refine .spares hl hhits ?_
  rw [Tasks.unreapedPids, Tasks.unreapedPids, hchildren]
  exact .same _

theorem sendSigkill_effect {conn : Nat} {e : KillProcess} {spawned : Option Pid} {procs : Procs} :
    TaskEffect s (.handles conn (.killProcess (some e)) spawned procs) (s.sendSigkill e.pid procs) := by
  unfold Tasks.sendSigkill
  split
  · rename_i hzero
    exact .moves (fun hne => absurd hzero hne) rfl rfl
  · rename_i hne
    exact .kills rfl hne

theorem runCommand_effect {conn : Nat} {runCmd : RunCommand} {spawned : Option Pid} (hl : SparingTask s l)
    (h : s.runCommand conn runCmd spawned = some s') : TaskEffect s l s' := by
  unfold Tasks.runCommand at h
  split at h
  · split at h
    · cases h
    · rename_i pid _ _ hnew
      cases h
      refine .spares hl rfl ?_
      simp only [Tasks.unreapedPids, List.map_append] at hnew ⊢
      exact .new hnew
  · cases h; exact .moves hl rfl rfl
  · cases h; exact .moves hl rfl rfl

theorem taskStep_effect (h : taskStep s l = some s') : TaskEffect s l s' := by
  cases l with
  | accept => cases h; exact .moves trivial rfl rfl
  | handles conn msg spawned procs =>
    simp only [taskStep] at h
    split at h
    · cases msg with
      | killProcess e =>
        cases e with
        | none => cases h; exact .moves trivial rfl rfl
        | some e => cases h; exact sendSigkill_effect
      | runCommand runCmd =>
        cases runCmd with
        | none => cases h; exact .moves trivial rfl rfl
        | some runCmd => exact runCommand_effect trivial h
      | other tag htag => cases h; exact .moves trivial rfl rfl
    · cases h
  | exits launch status =>
    simp only [taskStep, Tasks.exits] at h
    split at h
    · rename_i pid hc
      cases h
      exact .spares trivial rfl (.set _ hc rfl)
    · cases h
  | waitReturns conn =>
    simp only [taskStep, Tasks.waitReturns] at h
    split at h
    · split at h
      · rename_i pid status hc
        cases h
        exact .spares trivial rfl (.set _ hc rfl)
      · cases h
    · cases h
  | watchesEnd conn =>
    simp only [taskStep] at h
    split at h
    · cases h; exact .moves trivial rfl rfl
    · cases h
  | leaves conn =>
    simp only [taskStep] at h
    split at h
    · cases h; exact .moves trivial rfl rfl
    · cases h

theorem tasks_kept (h : s.OwnOnly ∧ DistinctPids s.unreapedPids) (hg : SparingTask s l)
    (hs : taskStep s l = some s') : s'.OwnOnly ∧ DistinctPids s'.unreapedPids := by
  cases taskStep_effect hs with
  | kills hl hne =>
    subst hl
    obtain ⟨hspares, hone⟩ := hg hne
    refine ⟨?_, h.2⟩
    unfold Tasks.OwnOnly
    rw [List.forall_mem_append, List.forall_mem_singleton, ownOnly_hits_iff]
    refine ⟨h.1, hspares, ?_⟩
    rcases lt_or_gt_of_ne hne with hneg | hpos
    · exact hone hneg
    · exact reachedChildren_le_one hpos h.2
  | spares hl hhits hpids =>
    refine ⟨?_, DistinctPids.step h.2 hpids⟩
    unfold Tasks.OwnOnly
    rw [hhits]
    exact h.1

theorem tasks_sharp (hg : ¬ SparingTask s l) (hs : taskStep s l = some s') : ¬ s'.OwnOnly := by
  cases taskStep_effect hs with
  | kills hl hne =>
    subst hl
    intro hown
    have hlast := ownOnly_hits_iff.1 (hown _ (List.mem_append_right _ (List.mem_singleton_self _)))
    exact hg fun _ => ⟨hlast.1, fun _ => hlast.2⟩
  | spares hl hhits hpids => exact absurd hl hg

end RustDaemon

end Rust

/-! ## Both -/

/-- The C daemon at its first `epoll_wait`. -/
def Killing.init (heap : Nat → ProcessInfo) (nfds : Nat) (garbageSock : Fd) (destPort : Nat) : Killing :=
  ⟨.init heap nfds garbageSock destPort, []⟩

/-- For every run of the C daemon and every run of the Rust daemon. -/
theorem kills_own_children_iff (heap : Nat → ProcessInfo) (nfds : Nat) (garbageSock : Fd) (destPort : Nat)
    (ls : List (Label × Procs)) (rs : List Rust.TaskLabel)
    (hls : (Lts.run killStep (.init heap nfds garbageSock destPort) ls).isSome)
    (hrs : (Lts.run Rust.taskStep .init rs).isSome) :
    (Lts.StatesAll killStep Killing.OwnOnly (.init heap nfds garbageSock destPort) ls ↔
      Lts.StepsAll killStep SparingKill (.init heap nfds garbageSock destPort) ls) ∧
    (Lts.StatesAll Rust.taskStep Rust.Tasks.OwnOnly .init rs ↔
      Lts.StepsAll Rust.taskStep Rust.SparingTask .init rs) := by
  constructor
  · refine Lts.forall_states_iff_forall_steps (J := fun s => s.OwnOnly ∧ PidsDistinct s.state) (fun _ h => h.1)
      (fun _ _ _ => killing_kept) (fun _ _ _ _ => killing_sharp) ⟨?_, ?_⟩ hls
    · intro hits h
      cases h
    · intro j k c d h
      cases h
  · refine Lts.forall_states_iff_forall_steps (J := fun s => s.OwnOnly ∧ DistinctPids s.unreapedPids)
      (fun _ h => h.1) (fun _ _ _ => Rust.tasks_kept) (fun _ _ _ _ => Rust.tasks_sharp) ⟨?_, ?_⟩ hrs
    · intro hits h
      cases h
    · intro j k pid h
      cases h

/-- The daemon is process 50; processes 99 and 100 are of another group and not its children. -/
def strangers : Procs := ⟨⟨50, 50, true⟩, fun _ => (50, true), [⟨99, 99, true⟩, ⟨100, 99, true⟩]⟩

/-- The C daemon launches process 20, which may be killed while it runs. -/
def killsRunning : List Label :=
  connects ++ launches "A" 9 (10, 11) 20 ++ [Label.epollWait [.sockMessage 8], .killProcess 20]

/-- Process 100 is launched, ends and is reaped; then a client asks for its death. -/
def killsReaped : List Label :=
  connects ++ launches "A" 9 (10, 11) 100 ++ execs 0 "A" 10 100 ++ [Label.child 0 (.exit (.exited 0))] ++
    handlesSignal ++ [Label.epollWait [.sockMessage 8], .killProcess 100]

def Killing.start : Killing := .init (fun _ => ⟨none, 0, 0⟩) 8 0 8080

namespace Rust

/-- One connection runs a command, and another one kills the number. -/
def killsFromSecond (pid : Pid) : List TaskLabel :=
  [.accept, .accept, .handles 0 (.runCommand (some ⟨some "A", none, none, 0, 0, some []⟩)) (some 20) strangers,
   .handles 1 (.killProcess (some ⟨pid⟩)) none strangers]

end Rust

/-- A kill of a running child, by each daemon. -/
theorem running_child_killed :
    Lts.StatesAll killStep Killing.OwnOnly .start (killsRunning.map (·, strangers)) ∧
    Lts.StatesAll Rust.taskStep Rust.Tasks.OwnOnly .init (Rust.killsFromSecond 20) := by
  have hls : (Lts.run killStep .start (killsRunning.map (·, strangers))).isSome := by decide +kernel
  have hrs : (Lts.run Rust.taskStep .init (Rust.killsFromSecond 20)).isSome := by decide +kernel
  have h := kills_own_children_iff (fun _ => ⟨none, 0, 0⟩) 8 0 8080 _ _ hls hrs
  exact ⟨h.1.2 (Lts.stepsAll_of_guarded_run (by decide +kernel)),
    h.2.2 (Lts.stepsAll_of_guarded_run (by decide +kernel))⟩

/-- The C daemon kills whoever has the number of a child it reaped, and the Rust daemon a whole group. -/
theorem strangers_killed :
    (∃ s, Lts.run killStep .start (killsReaped.map (·, strangers)) = some s ∧
      s.hits = [[.other ⟨100, 99, true⟩]] ∧ ¬ s.OwnOnly) ∧
    ∃ s, Lts.run Rust.taskStep .init (Rust.killsFromSecond (-99)) = some s ∧
      s.hits = [[.other ⟨99, 99, true⟩, .other ⟨100, 99, true⟩]] ∧ ¬ s.OwnOnly := by
  constructor
  · obtain ⟨s, hs, hp⟩ := Lts.exists_of_run_map (p := fun s => s.hits == [[.other ⟨100, 99, true⟩]])
      (show (Lts.run killStep .start (killsReaped.map (·, strangers))).map _ = some true by decide +kernel)
    rw [beq_iff_eq] at hp
    refine ⟨s, hs, hp, ?_⟩
    intro hown
    obtain ⟨launch, hlaunch⟩ := (hown _ (hp ▸ List.mem_singleton_self _)).own _ (List.mem_singleton_self _)
    cases hlaunch
  · obtain ⟨s, hs, hp⟩ := Lts.exists_of_run_map
      (p := fun s => s.hits == [[.other ⟨99, 99, true⟩, .other ⟨100, 99, true⟩]])
      (show (Lts.run Rust.taskStep .init (Rust.killsFromSecond (-99))).map _ = some true by decide +kernel)
    rw [beq_iff_eq] at hp
    refine ⟨s, hs, hp, ?_⟩
    intro hown
    have hone := (hown _ (hp ▸ List.mem_singleton_self _)).one
    revert hone
    decide

end ProcCtrld
