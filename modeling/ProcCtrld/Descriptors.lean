import ProcCtrld.Ledger
import ProcCtrld.Launch
import ProcCtrld.Sends

/-!
# ProcCtrld.Descriptors

What the C daemon closes. Every connection, notification pipe and error file has a descriptor number, which
the kernel gives again after a `close`; the daemon keeps the numbers in its `event_data`, in the process
table and in local variables.

`Owned` is the daemon with a ledger of its descriptors: whose each number is, and for each `close` what the
code means to release and what the number belonged to. `Live.agrees` ties the ledger to the descriptors of
the event loop.

The closes go wrong in four places. The HUP/ERR branch closes the low half of a pointer.
`manager_remove_process` closes the error file of the first slot that has the pid, whether the slot is in
use and whoever it was filled for. `free_manager` closes `STDOUT_FILENO` for a child without an error file
of its own, and `add_event_inotifyFd` closes -1 if neither `inotify_init` nor `malloc` succeeded.
`closes_own_descriptors` proves that in the runs that keep clear of them every `close` releases the object it
is meant for, and no object is released twice.
-/

namespace ProcCtrld

/-- What a descriptor of the daemon is: one that it had from the start, the `n`-th connection, an end of the
notification pipe or the error file of a launch, what a failed launch left open, or something of the other
parts of the daemon. -/
inductive Owner where
  | main (fd : Fd)
  | conn (n : Nat)
  | errFile (launch : Nat)
  | pipe (launch : Nat)
  | pipeWrite (launch : Nat)
  | lostFile (n : Nat)
  | lostPipe (n : Nat)
  | other (n : Nat)
deriving DecidableEq, Repr

/-- The same for the event loop. -/
def Owner.obj : Owner → Obj
  | main _ | conn _ | other _ => .other
  | errFile _ | lostFile _ => .errFile
  | pipe launch => .pipeRead launch
  | pipeWrite _ | lostPipe _ => .leakedPipe

abbrev Fds := Ledger Fd Owner

/-- `connAt` is the connection that was accepted last with a number, `slots` the launch that a slot of the
process table was filled for. `accepted` and `others` count connections and other objects. -/
structure Owned where
  daemon : State
  ledger : Fds
  connAt : Fd → Option Nat
  accepted : Nat
  others : Nat
  slots : Nat → Option Nat

/-- `noMemory` is `add_event_inotifyFd` without memory, after `inotify_init` gave a descriptor or -1. -/
inductive OwnedLabel where
  | daemon (l : Label)
  | noMemory (inotifyFd : Option Fd)
deriving DecidableEq, Repr

/-- The launch that a SIGCHLD is about. -/
def State.signalled (s : State) (pid : Pid) : Option Nat :=
  match s.unreaped pid with
  | some (_, k) => some k
  | none => s.latest pid

/-- The slot that `manager_add_process` fills. -/
def ProcessTable.nextSlot (t : ProcessTable) : Option Nat :=
  if t.nbProcess < maxProcess then scan maxProcess fun j => (t.manager j).stackP.isNone else none

namespace Owned

def init (heap : Nat → ProcessInfo) (nfds : Nat) (garbageSock : Fd) (destPort : Nat) : Owned where
  daemon := .init heap nfds garbageSock destPort
  ledger := ⟨fun fd => if fd < nfds then some (.main fd) else none, []⟩
  connAt := fun _ => none
  accepted := 0
  others := 0
  slots := fun _ => none

variable (t : Owned)

def openErrFile (errFile : Option Fd) (o : Owner) : Fds :=
  match errFile with
  | some fd => t.ledger.acquire fd o
  | none => t.ledger

/-- `close(manager[i]->err_file)` in `manager_remove_process`. -/
def closeErrFile (pid : Pid) : Fds :=
  match t.daemon.removes pid with
  | some fd => t.ledger.release fd ((t.daemon.signalled pid).map .errFile)
  | none => t.ledger

/-- What `free_manager` closes. -/
def freedFiles : List (Fd × Option Owner) :=
  (List.range t.daemon.table.nbProcess.toNat).filterMap fun i =>
    (t.daemon.table.manager i).stackP.map fun _ =>
      ((t.daemon.table.manager i).errFile, (t.slots i).map .errFile)

/-- The ledger after a step: what the step opens, and then what it closes. -/
def books : Label → Fds
  | .openOther fd => t.ledger.acquire fd (.other t.others)
  | .sockConnexion fd => t.ledger.acquire fd (.conn t.accepted)
  | .sockClosed =>
    match t.daemon.batch with
    | .sockMessage fd :: _ => t.ledger.release fd ((t.connAt fd).map .conn)
    | _ => t.ledger
  | .hupErr number _ => t.ledger.release number none
  | .execve _ =>
    match t.daemon.batch with
    | .execve e :: _ => t.ledger.release e.fd (some (.pipe e.launch))
    | _ => t.ledger
  | .signalfd _ _ =>
    match t.daemon.pending with
    | some pid => t.closeErrFile pid
    | none => t.ledger
  | .waitpidReturns _ _ =>
    match t.daemon.mode with
    | .waitpid pid => t.closeErrFile pid
    | _ => t.ledger
  | .runCommand _ (.mallocFails errFile _) => t.openErrFile errFile (.lostFile t.others)
  | .runCommand _ (.cloneFails errFile pipefd _) =>
    ((t.openErrFile errFile (.lostFile t.others)).acquire pipefd.1 (.lostPipe t.others)).acquire pipefd.2
      (.lostPipe (t.others + 1))
  | .runCommand _ (.clones errFile pipefd _ _) =>
    -- `launch_process` closes the write end itself
    let k := t.daemon.children.length
    (((t.openErrFile errFile (.errFile k)).acquire pipefd.1 (.pipe k)).acquire pipefd.2
      (.pipeWrite k)).release pipefd.2 (some (.pipeWrite k))
  | .launchReturns false =>
    match t.daemon.mode with
    | .launching lg => t.ledger.release lg.pipe (some (.pipe lg.launch))
    | _ => t.ledger
  | .killProcess pid => if pid = 0 then t.ledger.releaseAll t.freedFiles else t.ledger
  | _ => t.ledger

def after (l : Label) (s : State) : Owned where
  daemon := s
  ledger := t.books l
  connAt :=
    match l with
    | .sockConnexion fd => Function.update t.connAt fd (some t.accepted)
    | _ => t.connAt
  accepted :=
    match l with
    | .sockConnexion _ => t.accepted + 1
    | _ => t.accepted
  others :=
    match l with
    | .openOther _ | .runCommand _ (.mallocFails ..) => t.others + 1
    | .runCommand _ (.cloneFails ..) => t.others + 2
    | _ => t.others
  slots :=
    match l, t.daemon.mode, t.daemon.table.nextSlot with
    | .launchReturns _, .launching lg, some j => Function.update t.slots j (some lg.launch)
    | _, _, _ => t.slots

/-- Nothing is opened after the end, `closeOther` is `noMemory` here, and `free_manager` stays inside the
table. -/
def possible : Label → Bool
  | .closeOther _ => false
  | .openOther _ => t.daemon.mode ≠ .halted
  | .killProcess pid => pid ≠ 0 || (freeManager t.daemon.table.manager t.daemon.table.nbProcess).isSome
  | _ => true

def noMemory (inotifyFd : Option Fd) : Option Owned :=
  if t.daemon.mode = .halted then none
  else
    match inotifyFd with
    | some fd =>
      if lowestFree t.daemon.fds fd then
        some { t with
          ledger := (t.ledger.acquire fd (.other t.others)).release fd (some (.other t.others))
          others := t.others + 1 }
      else none
    | none => some { t with ledger := t.ledger.releaseNothing none }

end Owned

def ownedStep (t : Owned) : OwnedLabel → Option Owned
  | .daemon l =>
    if t.possible l then
      match step t.daemon l with
      | some s => some (t.after l s)
      | none => none
    else none
  | .noMemory inotifyFd => t.noMemory inotifyFd

/-- Every `close` was of an open descriptor of the object being released, and no object was released
twice. -/
def ClosesOwn (t : Owned) : Prop := t.ledger.Proper

/-! ## The condition -/

/-- If `manager_remove_process` closes something, the slot it finds is in use for the child that the signal
is about. -/
def Owned.FindsSlot (t : Owned) (pid : Pid) : Prop :=
  (t.daemon.removes pid).isSome → ∃ i ∈ matchedSlot pid t.daemon.table.manager t.daemon.table.nbProcess,
    (t.daemon.table.manager i).stackP.isSome ∧ t.slots i = t.daemon.signalled pid

/-- No HUP/ERR event but those of notification pipes is handled; a signal finds the slot of its child; the
daemon is told to end while every child in the table has an error file of its own; and `malloc` does not
fail after `inotify_init`. -/
def SafeClose (t : Owned) : OwnedLabel → Prop
  | .daemon l => l.Ordinary ∧ l.isHupErr = false ∧ (∀ pid ∈ t.daemon.signalOf l, t.FindsSlot pid) ∧
      (l.kill = some 0 → ∀ i < t.daemon.table.nbProcess.toNat,
        (t.daemon.table.manager i).stackP.isSome → (t.daemon.table.manager i).errFile ≠ stdoutFileno)
  | .noMemory inotifyFd => inotifyFd.isSome

instance (t : Owned) (pid : Pid) : Decidable (t.FindsSlot pid) :=
  inferInstanceAs (Decidable (_ → ∃ i ∈ matchedSlot pid t.daemon.table.manager t.daemon.table.nbProcess, _ ∧ _))

instance (t : Owned) : (l : OwnedLabel) → Decidable (SafeClose t l)
  | .daemon l => inferInstanceAs (Decidable (l.Ordinary ∧ l.isHupErr = false ∧
      (∀ pid ∈ t.daemon.signalOf l, t.FindsSlot pid) ∧ (l.kill = some 0 → ∀ i < t.daemon.table.nbProcess.toNat,
        (t.daemon.table.manager i).stackP.isSome → (t.daemon.table.manager i).errFile ≠ stdoutFileno)))
  | .noMemory inotifyFd => inferInstanceAs (Decidable (inotifyFd.isSome = true))

/-! ## The invariant -/

/-- The objects there have been so far. -/
def Owned.used (t : Owned) : Owner → Prop
  | .main _ => True
  | .conn n => n < t.accepted
  | .errFile k | .pipe k | .pipeWrite k => k < t.daemon.children.length
  | .lostFile n | .lostPipe n | .other n => n < t.others

/-- The ledger knows what the event loop knows of the descriptors. -/
def Agrees (fds : Fd → Option Obj) (g : Fds) : Prop := ∀ fd, fds fd = (g.owner fd).map Owner.obj

/-- The number is that of the error file of the launch, unless there was none. -/
def Owned.HoldsFile (t : Owned) (fd : Fd) (launch : Nat) : Prop :=
  fd ≠ stdoutFileno → t.ledger.owner fd = some (.errFile launch)

structure Live (t : Owned) : Prop where
  agrees : Agrees t.daemon.fds t.ledger
  pipes : PipesInv t.daemon
  conns : ∀ fd ∈ t.daemon.conns, ∃ n, t.connAt fd = some n ∧ t.ledger.owner fd = some (.conn n)
  nodup : t.daemon.conns.Nodup
  batch : ∀ fd, .sockMessage fd ∈ t.daemon.batch → fd ∈ t.daemon.conns
  launching : ∀ lg, t.daemon.mode = .launching lg →
    t.HoldsFile lg.errFile lg.launch ∧ ∀ i, t.slots i ≠ some lg.launch
  slots : ∀ i, (t.daemon.table.manager i).stackP.isSome →
    ∃ k, t.slots i = some k ∧ t.HoldsFile (t.daemon.table.manager i).errFile k
  distinct : ∀ i j k, (t.daemon.table.manager i).stackP.isSome → (t.daemon.table.manager j).stackP.isSome →
    t.slots i = some k → t.slots j = some k → i = j
  launched : ∀ i k, t.slots i = some k → k < t.daemon.children.length

structure OwnedInv (t : Owned) : Prop where
  sound : t.ledger.Sound t.used
  live : t.daemon.mode ≠ .halted → Live t

section Agreement

variable {fds fds' : Fd → Option Obj} {g : Fds} {fd : Fd} {o : Owner}

theorem Agrees.free (h : Agrees fds g) (hfd : fds fd = none) : g.owner fd = none := by
  rw [h fd, Option.map_eq_none_iff] at hfd
  exact hfd

theorem Agrees.acquire (h : Agrees fds g) (fd : Fd) (o : Owner) :
    Agrees (Function.update fds fd (some o.obj)) (g.acquire fd o) := by
  intro n
  by_cases hn : n = fd
  · rw [hn, Function.update_self, Ledger.owner_acquire_self, Option.map_some]
  · rw [Function.update_of_ne hn, Ledger.owner_acquire_of_ne hn]
    exact h n

theorem Agrees.release (h : Agrees fds g) (intended : Option Owner) :
    Agrees (Function.update fds fd none) (g.release fd intended) := by
  intro n
  by_cases hn : n = fd
  · rw [hn, Function.update_self, Ledger.owner_release_self, Option.map_none]
  · rw [Function.update_of_ne hn, Ledger.owner_release_of_ne _ hn]
    exact h n

theorem Agrees.acquire_release (h : Agrees fds g) (hfd : fds fd = none) (o : Owner) (intended : Option Owner) :
    Agrees fds ((g.acquire fd o).release fd intended) := by
  intro n
  by_cases hn : n = fd
  · rw [hn, Ledger.owner_release_self, Option.map_none, hfd]
  · rw [Ledger.owner_release_of_ne _ hn, Ledger.owner_acquire_of_ne hn]
    exact h n

theorem Agrees.pipe {k : Nat} (h : Agrees fds g) (hfd : fds fd = some (.pipeRead k)) :
    g.owner fd = some (.pipe k) := by
  rw [h fd, Option.map_eq_some_iff] at hfd
  obtain ⟨o, ho, hobj⟩ := hfd
  cases o with
  | pipe launch => cases hobj; exact ho
  | _ => cases hobj

theorem Agrees.kept (h : Agrees fds g) (hfd : fds fd = none) {n : Fd} {o' : Owner} (hn : g.owner n = some o') :
    (g.acquire fd o).owner n = some o' := by
  have hne : n ≠ fd := by
    rintro rfl
    rw [h.free hfd] at hn
    cases hn
  rw [Ledger.owner_acquire_of_ne hne]
  exact hn

theorem Agrees.kept_release (h : Agrees fds g) (hfd : fds fd = none) (intended : Option Owner) {n : Fd} {o' : Owner}
    (hn : g.owner n = some o') : ((g.acquire fd o).release fd intended).owner n = some o' := by
  have hne : n ≠ fd := by
    rintro rfl
    rw [h.free hfd] at hn
    cases hn
  rw [Ledger.owner_release_of_ne _ hne, Ledger.owner_acquire_of_ne hne]
  exact hn

end Agreement

section Steps

variable {t t' : Owned} {s : State} {l : Label}

theorem ownedInv_init (heap : Nat → ProcessInfo) (nfds : Nat) (sock : Fd) (port : Nat) :
    OwnedInv (.init heap nfds sock port) := by
  have howner : ∀ fd o, (Owned.init heap nfds sock port).ledger.owner fd = some o → o = .main fd := by
    intro fd o h
    simp only [Owned.init] at h
    split at h
    · cases h; rfl
    · cases h
  refine ⟨⟨⟨?_, ?_⟩, ?_, ?_, ?_, ?_⟩, fun _ => ⟨?_, pipesInv_init heap nfds sock port, ?_, ?_, ?_, ?_, ?_, ?_, ?_⟩⟩
  · intro r hr
    cases hr
  · exact List.nodup_nil
  · intro r hr
    cases hr
  · intro x y o hx hy
    rw [howner x o hx] at hy
    cases howner y _ hy
    rfl
  · intro x o hx
    rw [howner x o hx]
    trivial
  · intro r hr
    cases hr
  · intro fd
    simp only [Owned.init, State.init]
    split <;> rfl
  · intro fd hfd
    cases hfd
  · exact List.nodup_nil
  · intro fd hfd
    cases hfd
  · intro lg hlg
    cases hlg
  · intro i hi
    cases hi
  · intro i j k hi
    cases hi
  · intro i k hk
    cases hk

/-- The steps that fill no slot and accept no connection. `rel` is the number they close. -/
theorem Live.keep (h : Live t) (rel : Option Fd) (hag : Agrees t'.daemon.fds t'.ledger) (hp : PipesInv t'.daemon)
    (howner : ∀ fd, rel ≠ some fd → ∀ o, t.ledger.owner fd = some o → t'.ledger.owner fd = some o)
    (hconnAt : t'.connAt = t.connAt) (hslots : t'.slots = t.slots)
    (hconns : ∀ fd ∈ t'.daemon.conns, fd ∈ t.daemon.conns ∧ rel ≠ some fd) (hnodup : t'.daemon.conns.Nodup)
    (hbatch : ∀ fd, .sockMessage fd ∈ t'.daemon.batch → fd ∈ t'.daemon.conns)
    (hlaunching : ∀ lg, t'.daemon.mode = .launching lg →
      t'.HoldsFile lg.errFile lg.launch ∧ ∀ i, t'.slots i ≠ some lg.launch)
    (htable : ∀ i, (t'.daemon.table.manager i).stackP.isSome →
      t'.daemon.table.manager i = t.daemon.table.manager i ∧
        ((t.daemon.table.manager i).errFile ≠ stdoutFileno → rel ≠ some (t.daemon.table.manager i).errFile))
    (hlen : t.daemon.children.length ≤ t'.daemon.children.length) : Live t' := by
  refine ⟨hag, hp, ?_, hnodup, hbatch, hlaunching, ?_, ?_, ?_⟩
  · intro fd hfd
    obtain ⟨hfd, hrel⟩ := hconns fd hfd
    obtain ⟨n, hn, hown⟩ := h.conns fd hfd
    exact ⟨n, by rw [hconnAt]; exact hn, howner fd hrel _ hown⟩
  · intro i hi
    obtain ⟨hsame, hrel⟩ := htable i hi
    rw [hsame] at hi ⊢
    obtain ⟨k, hk, hfile⟩ := h.slots i hi
    exact ⟨k, by rw [hslots]; exact hk, fun hne => howner _ (hrel hne) _ (hfile hne)⟩
  · intro i j k hi hj hik hjk
    rw [hslots] at hik hjk
    rw [(htable i hi).1] at hi
    rw [(htable j hj).1] at hj
    exact h.distinct i j k hi hj hik hjk
  · intro i k hk
    rw [hslots] at hk
    exact Nat.lt_of_lt_of_le (h.launched i k hk) hlen

theorem used_after (l : Label) (hlen : t.daemon.children.length ≤ s.children.length) {o : Owner} (ho : t.used o) :
    (t.after l s).used o := by
  have hacc : t.accepted ≤ (t.after l s).accepted := by
    simp only [Owned.after]
    split <;> omega
  have hoth : t.others ≤ (t.after l s).others := by
    simp only [Owned.after]
    split <;> omega
  cases o with
  | main fd => trivial
  | conn n => exact Nat.lt_of_lt_of_le ho hacc
  | errFile k | pipe k | pipeWrite k => exact Nat.lt_of_lt_of_le ho hlen
  | lostFile n | lostPipe n | other n => exact Nat.lt_of_lt_of_le ho hoth

theorem used_after_new {o : Owner} (hlen : t.daemon.children.length ≤ s.children.length)
    (hnew : (t.after l s).used o) (o' : Owner) (ho' : t.used o' ∨ o' = o) : (t.after l s).used o' := by
  rcases ho' with ho' | rfl
  · exact used_after l hlen ho'
  · exact hnew

theorem Live.unhit (h : Live t) (hcl : ∀ fd ∈ t.daemon.closes l, ∃ o, t.ledger.owner fd = some o ∧ ∀ k, o ≠ .pipe k) :
    PipesUnhit t.daemon l := by
  intro fd hfd e he
  obtain ⟨o, ho, hne⟩ := hcl fd hfd
  exact Ledger.ne_of_owner (h.agrees.pipe (h.pipes.fds e he)) ho (hne e.launch).symm

theorem Live.pipes_step (h : Live t) (hs : step t.daemon l = some s) (hcl : t.daemon.closes l = none) :
    PipesInv s :=
  pipesInv_step h.pipes (h.unhit (by rw [hcl]; simp)) (step_effect hs)

theorem Live.opener (h : Live t) (hs : step t.daemon l = some s) (hcl : t.daemon.closes l = none)
    (hag : Agrees s.fds (t.books l)) (howner : ∀ fd o, t.ledger.owner fd = some o → (t.books l).owner fd = some o)
    (hconnAt : (t.after l s).connAt = t.connAt) (hslots : (t.after l s).slots = t.slots)
    (hconns : s.conns = t.daemon.conns) (hbatch : ∀ fd, .sockMessage fd ∈ s.batch → fd ∈ t.daemon.conns)
    (hmode : ∀ lg, s.mode = .launching lg → t.daemon.mode = .launching lg) (htable : s.table = t.daemon.table)
    (hlen : t.daemon.children.length ≤ s.children.length) : Live (t.after l s) := by
  refine h.keep none hag (h.pipes_step hs hcl) (fun fd _ => howner fd) hconnAt hslots ?_
    (show s.conns.Nodup from hconns ▸ h.nodup) (fun fd hfd => show fd ∈ s.conns from hconns ▸ hbatch fd hfd)
    ?_ ?_ hlen
  · intro fd hfd
    exact ⟨hconns ▸ hfd, by simp⟩
  · intro lg hlg
    obtain ⟨hfile, hnew⟩ := h.launching lg (hmode lg hlg)
    exact ⟨fun hne => howner _ _ (hfile hne), by rw [hslots]; exact hnew⟩
  · intro i _
    rw [show (t.after l s).daemon.table = t.daemon.table from htable]
    exact ⟨rfl, by simp⟩

theorem Live.quiet (h : Live t) (hs : step t.daemon l = some s) (hcl : t.daemon.closes l = none)
    (hbooks : t.books l = t.ledger) (hconnAt : (t.after l s).connAt = t.connAt)
    (hslots : (t.after l s).slots = t.slots) (hfds : s.fds = t.daemon.fds) (hconns : s.conns = t.daemon.conns)
    (hbatch : ∀ fd, .sockMessage fd ∈ s.batch → fd ∈ t.daemon.conns)
    (hmode : ∀ lg, s.mode = .launching lg → t.daemon.mode = .launching lg) (htable : s.table = t.daemon.table)
    (hlen : t.daemon.children.length ≤ s.children.length) : Live (t.after l s) := by
  refine h.opener hs hcl ?_ ?_ hconnAt hslots hconns hbatch hmode htable hlen
  · rw [hbooks, hfds]
    exact h.agrees
  · intro fd o ho
    rw [hbooks]
    exact ho

theorem OwnedInv.quiet (h : OwnedInv t) (hbooks : t.books l = t.ledger)
    (hlen : t.daemon.children.length ≤ s.children.length) (hlive : s.mode ≠ .halted → Live (t.after l s)) :
    OwnedInv (t.after l s) := by
  refine ⟨?_, hlive⟩
  rw [show (t.after l s).ledger = t.ledger from hbooks]
  exact h.sound.mono fun _ => used_after l hlen

theorem not_launching_of_loop {mode : Mode} (h : mode = .loop) (lg : Launching) : mode ≠ .launching lg := by
  rw [h]
  exact Mode.noConfusion

theorem mem_of_tail {r : Ready} {rest : List Ready} (h : Live t) (hbatch : t.daemon.batch = r :: rest) (fd : Fd)
    (hfd : .sockMessage fd ∈ rest) : fd ∈ t.daemon.conns :=
  h.batch fd (hbatch ▸ List.mem_cons_of_mem _ hfd)

theorem ownedInv_child {k : Nat} {act : ChildAct} (h : OwnedInv t) (hs : step t.daemon (.child k act) = some s) :
    OwnedInv (t.after (.child k act) s) := by
  cases step_cases hs with
  | @child _ _ c c' hc hact =>
    have hlen : t.daemon.children.length ≤ (t.daemon.children.set k c').length := by rw [List.length_set]
    refine h.quiet rfl hlen ?_
    intro hmode
    have hlive := h.live hmode
    exact hlive.quiet hs rfl rfl rfl rfl rfl rfl hlive.batch (fun _ h => h) rfl hlen

theorem ownedInv_epollWait {events : List Ready} (h : OwnedInv t)
    (hs : step t.daemon (.epollWait events) = some s) : OwnedInv (t.after (.epollWait events) s) := by
  cases step_cases hs with
  | epollWait hmode _ _ _ _ hready =>
    refine h.quiet rfl le_rfl ?_
    intro hne
    have hlive := h.live hne
    refine hlive.quiet hs rfl rfl rfl rfl rfl rfl ?_ (fun _ h => h) rfl le_rfl
    intro fd hfd
    simpa [State.ready] using hready _ hfd

theorem ownedInv_epollFails (h : OwnedInv t) (hs : step t.daemon .epollFails = some s) :
    OwnedInv (t.after .epollFails s) := by
  cases step_cases hs with
  | epollFails hmode hbatch => exact h.quiet rfl le_rfl fun hne => absurd rfl hne

theorem ownedInv_unexpected (h : OwnedInv t) (hs : step t.daemon .unexpected = some s) :
    OwnedInv (t.after .unexpected s) := by
  cases step_cases hs with
  | unexpected hmode hbatch =>
    refine h.quiet rfl le_rfl ?_
    intro hne
    have hlive := h.live hne
    exact hlive.quiet hs rfl rfl rfl rfl rfl rfl (mem_of_tail hlive hbatch) (fun _ h => h) rfl le_rfl

theorem ownedInv_inotify {updates : List InotifyPathUpdated} (h : OwnedInv t)
    (hs : step t.daemon (.inotify updates) = some s) : OwnedInv (t.after (.inotify updates) s) := by
  cases step_cases hs with
  | inotify hmode hbatch =>
    refine h.quiet rfl le_rfl ?_
    intro hne
    have hlive := h.live hne
    exact hlive.quiet hs rfl rfl rfl rfl rfl rfl (mem_of_tail hlive hbatch) (fun _ h => h) rfl le_rfl

/-- The steps that close a connection or a pipe of which they have the number. -/
theorem OwnedInv.closer {fd : Fd} {o : Owner} (h : OwnedInv t) (hlive : Live t)
    (howner : t.ledger.owner fd = some o) (hfile : ∀ k, o ≠ .errFile k)
    (hbooks : t.books l = t.ledger.release fd (some o)) (hconnAt : (t.after l s).connAt = t.connAt)
    (hslots : (t.after l s).slots = t.slots) (hlen : t.daemon.children.length ≤ s.children.length)
    (hfds : s.fds = Function.update t.daemon.fds fd none) (hpipes : PipesInv s)
    (hconns : ∀ n ∈ s.conns, n ∈ t.daemon.conns ∧ n ≠ fd) (hnodup : s.conns.Nodup)
    (hbatch : ∀ n, .sockMessage n ∈ s.batch → n ∈ s.conns) (hmode : ∀ lg, s.mode ≠ .launching lg)
    (htable : s.table = t.daemon.table) : OwnedInv (t.after l s) := by
  have hledger : (t.after l s).ledger = t.ledger.release fd (some o) := hbooks
  refine ⟨?_, fun _ => ?_⟩
  · rw [hledger]
    exact (h.sound.release howner).mono fun _ => used_after l hlen
  · refine hlive.keep (some fd) ?_ hpipes ?_ hconnAt hslots ?_ hnodup hbatch ?_ ?_ hlen
    · rw [hledger, show (t.after l s).daemon.fds = Function.update t.daemon.fds fd none from hfds]
      exact hlive.agrees.release _
    · intro n hne o' ho'
      rw [hledger, Ledger.owner_release_of_ne _ (fun heq => hne (by rw [heq]))]
      exact ho'
    · intro n hn
      exact ⟨(hconns n hn).1, fun heq => (hconns n hn).2 (Option.some.inj heq).symm⟩
    · intro lg hlg
      exact absurd hlg (hmode lg)
    · intro i hi
      rw [show (t.after l s).daemon.table = t.daemon.table from htable] at hi ⊢
      refine ⟨rfl, ?_⟩
      intro hne heq
      obtain ⟨k, -, hk⟩ := hlive.slots i hi
      exact Ledger.ne_of_owner howner (hk hne) (hfile k) (Option.some.inj heq)

theorem ownedInv_execve {foreign : Bool} (h : OwnedInv t) (hs : step t.daemon (.execve foreign) = some s) :
    OwnedInv (t.after (.execve foreign) s) := by
  cases step_cases hs with
  | @execve _ success e rest hmode hbatch hfree hread =>
    have hlive := h.live (by rw [hmode]; simp)
    have he : e ∈ t.daemon.pipes := hlive.pipes.batch e (by rw [hbatch]; simp)
    have howner := hlive.agrees.pipe (hlive.pipes.fds e he)
    have hbooks : t.books (.execve foreign) = t.ledger.release e.fd (some (.pipe e.launch)) := by
      simp only [Owned.books, hbatch]
    refine h.closer hlive howner (by simp) hbooks rfl rfl le_rfl rfl (hlive.pipes_step hs rfl)
      ?_ hlive.nodup (fun n hn => mem_of_tail hlive hbatch n hn) (not_launching_of_loop hmode) rfl
    intro n hn
    obtain ⟨m, -, hown⟩ := hlive.conns n hn
    exact ⟨hn, Ledger.ne_of_owner hown howner (by simp)⟩

theorem ownedInv_sockClosed (h : OwnedInv t) (hs : step t.daemon .sockClosed = some s) :
    OwnedInv (t.after .sockClosed s) := by
  cases step_cases hs with
  | @sockClosed fd rest hmode hbatch =>
    have hlive := h.live (by rw [hmode]; simp)
    have hmem : fd ∈ t.daemon.conns := hlive.batch fd (by rw [hbatch]; simp)
    obtain ⟨n, hn, howner⟩ := hlive.conns fd hmem
    have hbooks : t.books .sockClosed = t.ledger.release fd (some (.conn n)) := by
      simp only [Owned.books, hbatch, hn, Option.map_some]
    have hunhit : PipesUnhit t.daemon .sockClosed := by
      refine hlive.unhit ?_
      intro m hm
      simp only [State.closes, hbatch, Option.mem_def, Option.some.injEq] at hm
      subst hm
      exact ⟨_, howner, by simp⟩
    have hrest : .sockMessage fd ∉ rest := by
      have := hlive.pipes.nodup
      rw [hbatch] at this
      exact (List.nodup_cons.1 this).1
    refine h.closer hlive howner (by simp) hbooks rfl rfl le_rfl rfl
      (pipesInv_step hlive.pipes hunhit (step_effect hs)) ?_ (hlive.nodup.erase fd) ?_
      (not_launching_of_loop hmode) rfl
    · intro m hm
      exact (hlive.nodup.mem_erase_iff.1 hm).symm
    · intro m hm
      refine hlive.nodup.mem_erase_iff.2 ⟨?_, mem_of_tail hlive hbatch m hm⟩
      rintro rfl
      exact hrest hm

/-! ## Signals -/

theorem release_inUse {table table' : ProcessTable} {pid : Pid} {closed : Option Fd}
    (h : table.release pid = some (table', closed)) {j : Nat} (hj : (table'.manager j).stackP.isSome) :
    table'.manager j = table.manager j ∧ matchedSlot pid table.manager table.nbProcess ≠ some j := by
  cases hm : matchedSlot pid table.manager table.nbProcess with
  | none =>
    simp only [ProcessTable.release, managerRemoveProcess, hm] at h
    split at h
    · rename_i manager closed' hrm
      split at hrm
      · cases hrm
        cases h
        exact ⟨rfl, by simp⟩
      · cases hrm
    · cases h
  | some i =>
    rw [release_eq_of_matched hm, Option.some.injEq, Prod.mk.injEq] at h
    obtain ⟨rfl, -⟩ := h
    have hne : j ≠ i := by
      rintro rfl
      simp at hj
    exact ⟨Function.update_of_ne hne _ _, fun heq => hne (Option.some.inj heq).symm⟩

/-- What `handle_SIGCHLD` closes is the error file of the child that the signal is about, if the slot that it
finds is in use for that child. -/
theorem Live.closeErrFile {pid : Pid} {fd : Fd} (h : Live t) (hg : t.FindsSlot pid)
    (hfd : t.daemon.removes pid = some fd) :
    ∃ i k, matchedSlot pid t.daemon.table.manager t.daemon.table.nbProcess = some i ∧
      (t.daemon.table.manager i).stackP.isSome ∧ t.slots i = some k ∧ t.daemon.signalled pid = some k ∧
      t.ledger.owner fd = some (.errFile k) := by
  obtain ⟨i, hi, huse, hslot⟩ := hg (by rw [hfd]; rfl)
  obtain ⟨k, hk, hfile⟩ := h.slots i huse
  have hmatched : t.daemon.table.matchedFile pid = some fd := by
    revert hfd
    unfold State.removes
    split
    · split
      · exact id
      · intro h; cases h
    · exact id
  rw [Option.mem_def] at hi
  simp only [ProcessTable.matchedFile, hi] at hmatched
  split at hmatched
  · rename_i hne
    cases hmatched
    exact ⟨i, k, hi, huse, hk, hslot ▸ hk, hfile hne⟩
  · cases hmatched

theorem Live.inUse_handled {pid : Pid} (h : Live t) (hg : t.FindsSlot pid)
    (htable : (s.table = t.daemon.table ∧ t.daemon.removes pid = none) ∨
      t.daemon.table.release pid = some (s.table, t.daemon.removes pid)) {i : Nat}
    (hi : (s.table.manager i).stackP.isSome) :
    s.table.manager i = t.daemon.table.manager i ∧
      ((t.daemon.table.manager i).errFile ≠ stdoutFileno →
        t.daemon.removes pid ≠ some (t.daemon.table.manager i).errFile) := by
  rcases htable with ⟨htab, hnone⟩ | hrel
  · rw [htab]
    exact ⟨rfl, by simp [hnone]⟩
  · obtain ⟨hsame, hother⟩ := release_inUse hrel hi
    refine ⟨hsame, fun hne heq => hother ?_⟩
    obtain ⟨j, k, hj, huse, hjk, -, hown⟩ := h.closeErrFile hg heq
    obtain ⟨k', hik', hfile⟩ := h.slots i (hsame ▸ hi)
    have hk : k' = k := by
      have := hfile hne
      rw [hown, Option.some.injEq, Owner.errFile.injEq] at this
      exact this.symm
    rw [hj, h.distinct j i k huse (hsame ▸ hi) hjk (hk ▸ hik')]

/-- `handle_SIGCHLD` closes the error file of the child, or nothing. -/
theorem closeErrFile_books {pid : Pid} (h : OwnedInv t) (hlive : Live t) (hg : t.FindsSlot pid)
    (hfds : ∀ n, s.fds n = if t.daemon.removes pid = some n then none else t.daemon.fds n) :
    (t.closeErrFile pid).Sound t.used ∧ Agrees s.fds (t.closeErrFile pid) ∧
      ∀ fd, t.daemon.removes pid ≠ some fd → ∀ o, t.ledger.owner fd = some o →
        (t.closeErrFile pid).owner fd = some o := by
  unfold Owned.closeErrFile
  cases hrm : t.daemon.removes pid with
  | none =>
    have hsame : s.fds = t.daemon.fds := by
      funext n
      rw [hfds n, hrm, if_neg (by simp)]
    exact ⟨h.sound, hsame ▸ hlive.agrees, fun fd _ o ho => ho⟩
  | some fd =>
    obtain ⟨i, k, -, -, -, hk, howner⟩ := hlive.closeErrFile hg hrm
    have hsame : s.fds = Function.update t.daemon.fds fd none := by
      funext n
      rw [hfds n, hrm, Function.update_apply]
      simp only [Option.some.injEq, eq_comm]
    simp only [hk, Option.map_some]
    refine ⟨h.sound.release howner, hsame ▸ hlive.agrees.release _, ?_⟩
    intro n hne o ho
    rw [Ledger.owner_release_of_ne _ (fun heq => hne (by rw [heq]))]
    exact ho

theorem ownedInv_handled {pid : Pid} (h : OwnedInv t) (hlive : Live t) (hg : t.FindsSlot pid)
    (hl : l.handlesSignal = true) (hs : step t.daemon l = some s) (hcl : t.daemon.closes l = t.daemon.removes pid)
    (hbooks : t.books l = t.closeErrFile pid) (hconnAt : (t.after l s).connAt = t.connAt)
    (hslots : (t.after l s).slots = t.slots) (hlen : s.children.length = t.daemon.children.length)
    (hconns : s.conns = t.daemon.conns) (hbatch : ∀ fd, .sockMessage fd ∈ s.batch → fd ∈ t.daemon.conns)
    (hmode : ∀ lg, s.mode ≠ .launching lg)
    (htable : (s.table = t.daemon.table ∧ t.daemon.removes pid = none) ∨
      t.daemon.table.release pid = some (s.table, t.daemon.removes pid)) : OwnedInv (t.after l s) := by
  have hfds := handled_fds hl hs
  rw [hcl] at hfds
  have hunhit : PipesUnhit t.daemon l := by
    refine hlive.unhit ?_
    intro fd hfd
    rw [hcl] at hfd
    obtain ⟨i, k, -, -, -, -, hown⟩ := hlive.closeErrFile hg hfd
    exact ⟨_, hown, by simp⟩
  have hpipes : PipesInv s := pipesInv_step hlive.pipes hunhit (step_effect hs)
  obtain ⟨hsound, hag, howner⟩ := closeErrFile_books h hlive hg hfds
  rw [← hbooks] at hsound hag howner
  refine ⟨hsound.mono fun _ => used_after l (le_of_eq hlen.symm), fun _ => hlive.keep (t.daemon.removes pid) hag hpipes
    howner hconnAt hslots ?_ (show s.conns.Nodup from hconns ▸ hlive.nodup)
    (fun fd hfd => show fd ∈ s.conns from hconns ▸ hbatch fd hfd) (fun lg hlg => absurd hlg (hmode lg))
    (fun i hi => hlive.inUse_handled hg htable hi) (le_of_eq hlen.symm)⟩
  intro fd hfd
  have hfd' : fd ∈ t.daemon.conns := hconns ▸ hfd
  refine ⟨hfd', ?_⟩
  intro heq
  obtain ⟨n, -, hconn⟩ := hlive.conns fd hfd'
  obtain ⟨i, k, -, -, -, -, hfile⟩ := hlive.closeErrFile hg heq
  exact Ledger.ne_of_owner hfile hconn (by simp) rfl

theorem ownedInv_signalfd {garbage : Nat} {held : Bool} (h : OwnedInv t)
    (hg : ∀ pid ∈ t.daemon.pending, t.FindsSlot pid) (hs : step t.daemon (.signalfd garbage held) = some s) :
    OwnedInv (t.after (.signalfd garbage held) s) := by
  cases step_cases hs with
  | signalfd hmode hbatch hpend hcase =>
    have hlive := h.live (by rw [hmode]; simp)
    obtain ⟨hconns, hrest, hlen, hmode', htable⟩ := sigchld_frame hcase
    refine ownedInv_handled h hlive (hg _ hpend) rfl hs ?_ ?_ rfl rfl hlen hconns ?_ hmode' htable
    · simp only [State.closes, hpend, Option.bind_some]
    · simp only [Owned.books, hpend]
    · intro fd hfd
      rw [hrest] at hfd
      exact mem_of_tail hlive hbatch fd hfd

theorem ownedInv_waitpidReturns {garbage : Nat} {held : Bool} (h : OwnedInv t)
    (hg : ∀ pid, t.daemon.mode = .waitpid pid → t.FindsSlot pid)
    (hs : step t.daemon (.waitpidReturns garbage held) = some s) :
    OwnedInv (t.after (.waitpidReturns garbage held) s) := by
  cases step_cases hs with
  | waitpidReturns hmode hcase =>
    have hlive := h.live (by rw [hmode]; simp)
    obtain ⟨hconns, hrest, hlen, hmode', htable⟩ := sigchld_frame hcase
    refine ownedInv_handled h hlive (hg _ hmode) rfl hs ?_ ?_ rfl rfl hlen hconns ?_ hmode' htable
    · simp only [State.closes, hmode]
    · simp only [Owned.books, hmode]
    · intro fd hfd
      exact hlive.batch fd (hrest ▸ hfd)

/-! ## Opening -/

theorem ownedInv_openOther {fd : Fd} (h : OwnedInv t) (hmode : t.daemon.mode ≠ .halted)
    (hs : step t.daemon (.openOther fd) = some s) : OwnedInv (t.after (.openOther fd) s) := by
  have hlive := h.live hmode
  cases step_cases hs with
  | openOther hopen =>
    obtain ⟨⟨hfree, -⟩, rfl⟩ := openFd_eq hopen
    refine ⟨?_, fun _ => hlive.opener hs rfl ?_ ?_ rfl rfl rfl hlive.batch (fun _ h => h) rfl le_rfl⟩
    · refine (h.sound.acquire fd (o := .other t.others) (Nat.lt_irrefl _)).mono (used_after_new ?_ ?_)
      · rfl
      · exact Nat.lt_succ_self t.others
    · exact hlive.agrees.acquire fd (.other t.others)
    · exact fun n o ho => hlive.agrees.kept hfree ho

theorem ownedInv_sockConnexion {fd : Fd} (h : OwnedInv t) (hs : step t.daemon (.sockConnexion fd) = some s) :
    OwnedInv (t.after (.sockConnexion fd) s) := by
  cases step_cases hs with
  | @sockConnexion _ rest fds hmode hbatch hopen =>
    obtain ⟨⟨hfree, -⟩, rfl⟩ := openFd_eq hopen
    have hlive := h.live (by rw [hmode]; simp)
    have hkept : ∀ {n : Fd} {o : Owner}, t.ledger.owner n = some o →
        (t.ledger.acquire fd (.conn t.accepted)).owner n = some o := hlive.agrees.kept hfree
    have hne : ∀ n ∈ t.daemon.conns, n ≠ fd := by
      rintro n hn rfl
      obtain ⟨m, -, hown⟩ := hlive.conns n hn
      rw [hlive.agrees.free hfree] at hown
      cases hown
    refine ⟨?_, fun _ => ⟨hlive.agrees.acquire fd (.conn t.accepted), hlive.pipes_step hs rfl, ?_, ?_, ?_,
      fun lg hlg => absurd hlg (not_launching_of_loop hmode lg), ?_, hlive.distinct, hlive.launched⟩⟩
    · refine (h.sound.acquire fd (o := .conn t.accepted) (Nat.lt_irrefl _)).mono (used_after_new ?_ ?_)
      · rfl
      · exact Nat.lt_succ_self t.accepted
    · intro n hn
      rcases List.mem_cons.1 hn with rfl | hn
      · exact ⟨t.accepted, Function.update_self .., Ledger.owner_acquire_self⟩
      · obtain ⟨m, hm, hown⟩ := hlive.conns n hn
        exact ⟨m, by rw [← hm]; exact Function.update_of_ne (hne n hn) _ _, hkept hown⟩
    · exact List.nodup_cons.2 ⟨fun hmem => hne fd hmem rfl, hlive.nodup⟩
    · intro n hn
      exact List.mem_cons_of_mem _ (mem_of_tail hlive hbatch n hn)
    · intro i hi
      obtain ⟨k, hk, hfile⟩ := hlive.slots i hi
      exact ⟨k, hk, fun hne' => hkept (hfile hne')⟩

theorem Live.openErrFile (h : Live t) {errFile : Option Fd} {o : Owner} (ho : o.obj = .errFile)
    {fds : Fd → Option Obj} {err : Fd} (hopen : ProcCtrld.openErrFile t.daemon.fds errFile = some (fds, err)) :
    Agrees fds (t.openErrFile errFile o) ∧
      (∀ n o', t.ledger.owner n = some o' → (t.openErrFile errFile o).owner n = some o') ∧
      (err ≠ stdoutFileno → (t.openErrFile errFile o).owner err = some o) := by
  cases errFile with
  | none =>
    cases hopen
    exact ⟨h.agrees, fun _ _ hn => hn, fun hne => absurd rfl hne⟩
  | some n =>
    simp only [ProcCtrld.openErrFile] at hopen
    split at hopen
    · rename_i fds' hfd
      cases hopen
      obtain ⟨⟨hfree, -⟩, rfl⟩ := openFd_eq hfd
      exact ⟨ho ▸ h.agrees.acquire err o, fun m o' hm => h.agrees.kept hfree hm, fun _ => Ledger.owner_acquire_self⟩
    · cases hopen

theorem OwnedInv.openErrFile (h : OwnedInv t) (errFile : Option Fd) {o : Owner} (hnew : ¬ t.used o) :
    (t.openErrFile errFile o).Sound fun o' => t.used o' ∨ o' = o := by
  cases errFile with
  | none => exact h.sound.mono fun _ => .inl
  | some fd => exact h.sound.acquire fd hnew

theorem ownedInv_launchFails {com : Command} {os : LaunchOs} {sock : Fd} {rest : List Ready} {errno : Nat}
    {fds : Fd → Option Obj} (hlive : Live t) (hbatch : t.daemon.batch = .sockMessage sock :: rest)
    (hmode : t.daemon.mode = .loop)
    (hs : step t.daemon (.runCommand com os) = some (t.daemon.launchFails rest sock com errno fds))
    (hsound : (t.books (.runCommand com os)).Sound
      (t.after (.runCommand com os) (t.daemon.launchFails rest sock com errno fds)).used)
    (hag : Agrees fds (t.books (.runCommand com os)))
    (howner : ∀ fd o, t.ledger.owner fd = some o → (t.books (.runCommand com os)).owner fd = some o) :
    OwnedInv (t.after (.runCommand com os) (t.daemon.launchFails rest sock com errno fds)) := by
  exact ⟨hsound, fun _ => hlive.opener hs rfl hag howner rfl rfl rfl (fun fd hfd => mem_of_tail hlive hbatch fd hfd)
    (fun lg hlg => absurd hlg (not_launching_of_loop hmode lg)) rfl le_rfl⟩

/-- The error file and the pipe of a failed launch stay open. -/
theorem ownedInv_fails {com : Command} {os : LaunchOs} {sock : Fd} {rest : List Ready} {errno : Nat}
    {fds : Fd → Option Obj} (h : OwnedInv t) (hmode : t.daemon.mode = .loop)
    (hbatch : t.daemon.batch = .sockMessage sock :: rest) (hleft : LeftOpen t.daemon.fds os fds)
    (hs : step t.daemon (.runCommand com os) = some (t.daemon.launchFails rest sock com errno fds)) :
    OwnedInv (t.after (.runCommand com os) (t.daemon.launchFails rest sock com errno fds)) := by
  have hlive := h.live (by rw [hmode]; simp)
  cases hleft with
  | paramFails =>
    refine ownedInv_launchFails hlive hbatch hmode hs ?_ hlive.agrees fun _ _ ho => ho
    exact h.sound.mono fun _ ho => used_after _ (by rfl) ho
  | @mallocFails errFile _ _ _ herr =>
    obtain ⟨hag, howner, -⟩ := hlive.openErrFile (o := .lostFile t.others) rfl herr
    refine ownedInv_launchFails hlive hbatch hmode hs ?_ hag howner
    refine (h.openErrFile errFile (o := .lostFile t.others) (Nat.lt_irrefl _)).mono (used_after_new ?_ ?_)
    · rfl
    · exact Nat.lt_succ_self t.others
  | @cloneFails errFile pipefd _ _ _ _ _ herr hread hwrite =>
    obtain ⟨hag, howner, -⟩ := hlive.openErrFile (o := .lostFile t.others) rfl herr
    obtain ⟨⟨hfree₁, -⟩, rfl⟩ := openFd_eq hread
    have hag₁ := hag.acquire pipefd.1 (.lostPipe t.others)
    obtain ⟨⟨hfree₂, -⟩, rfl⟩ := openFd_eq hwrite
    refine ownedInv_launchFails hlive hbatch hmode hs ?_ (hag₁.acquire pipefd.2 (.lostPipe (t.others + 1)))
      (fun n o ho => hag₁.kept hfree₂ (hag.kept hfree₁ (howner n o ho)))
    -- three new objects
    have h₀ := h.openErrFile errFile (o := .lostFile t.others) (Nat.lt_irrefl _)
    have h₁ := h₀.acquire pipefd.1 (o := .lostPipe t.others) (by
      rintro (h | h)
      · exact Nat.lt_irrefl _ h
      · cases h)
    refine (h₁.acquire pipefd.2 (o := .lostPipe (t.others + 1)) ?_).mono ?_
    · rintro ((h | h) | h)
      · exact absurd h (Nat.not_lt.2 (Nat.le_succ _))
      · cases h
      · rw [Owner.lostPipe.injEq] at h
        omega
    · rintro o (((ho | rfl) | rfl) | rfl)
      · exact used_after _ (by rfl) ho
      · exact Nat.lt_add_of_pos_right (by decide)
      · exact Nat.lt_add_of_pos_right (by decide)
      · exact Nat.lt_succ_self _

theorem ownedInv_runCommand {com : Command} {os : LaunchOs} (h : OwnedInv t)
    (hs : step t.daemon (.runCommand com os) = some s) : OwnedInv (t.after (.runCommand com os) s) := by
  cases step_cases hs with
  | runCommand hmode hbatch hcase =>
    have hlive := h.live (by rw [hmode]; simp)
    cases hcase with
    | fails hos hleft => exact ownedInv_fails h hmode hbatch hleft hs
    | pipeFails => exact h.quiet rfl le_rfl fun hne => absurd rfl hne
    | @clones errFile pipefd pid stack err fds₀ _ herr hread hwrite hpos hpid =>
      -- the error file and the pipe of the child are open, and the write end is closed again
      obtain ⟨hag, howner, hfile⟩ := hlive.openErrFile (o := .errFile t.daemon.children.length) rfl herr
      obtain ⟨⟨hfree₁, -⟩, rfl⟩ := openFd_eq hread
      have hag₁ := hag.acquire pipefd.1 (.pipe t.daemon.children.length)
      have hfree₂ := hwrite.1
      have hkept : ∀ {n o}, (t.openErrFile errFile (.errFile t.daemon.children.length)).owner n = some o →
          (t.books (.runCommand com (.clones errFile pipefd pid stack))).owner n = some o :=
        fun ho => hag₁.kept_release hfree₂ _ (hag.kept hfree₁ ho)
      have hlen : t.daemon.children.length ≤
          (t.daemon.children ++ [(⟨pid, com.path, .running, .beforeExecve⟩ : Child)]).length := by simp
      refine ⟨?_, fun _ => hlive.keep none (hag₁.acquire_release hfree₂ _ _) (hlive.pipes_step hs rfl)
        (fun n _ o ho => hkept (howner n o ho)) rfl rfl (fun n hn => ⟨hn, by simp⟩) hlive.nodup
        (fun n hn => mem_of_tail hlive hbatch n hn) ?_ (fun i _ => ⟨rfl, by simp⟩) hlen⟩
      · -- three new objects, of which one is released
        have h₀ := h.openErrFile errFile (o := .errFile t.daemon.children.length) (Nat.lt_irrefl _)
        have h₁ := h₀.acquire pipefd.1 (o := .pipe t.daemon.children.length) (by
          rintro (h | h)
          · exact Nat.lt_irrefl _ h
          · cases h)
        have h₂ := h₁.acquire pipefd.2 (o := .pipeWrite t.daemon.children.length) (by
          rintro ((h | h) | h)
          · exact Nat.lt_irrefl _ h
          · cases h
          · cases h)
        refine (h₂.release Ledger.owner_acquire_self).mono ?_
        rintro o (((ho | rfl) | rfl) | rfl)
        · exact used_after _ hlen ho
        all_goals simp [Owned.used, Owned.after]
      · intro lg hlg
        cases hlg
        refine ⟨fun hne => hkept (hfile hne), ?_⟩
        intro i hi
        exact Nat.lt_irrefl _ (hlive.launched i _ hi)

/-! ## The slot of a new child -/

theorem register_manager (table : ProcessTable) (pid : Pid) (errFile : Fd) (stack : Addr) :
    (table.register pid errFile stack).manager =
      match table.nextSlot with
      | some j => Function.update table.manager j ⟨some stack, pid, errFile⟩
      | none => table.manager := by
  unfold ProcessTable.register managerAddProcess ProcessTable.nextSlot
  by_cases hnb : table.nbProcess < maxProcess
  · simp only [if_pos hnb]
    cases scan maxProcess fun j => (table.manager j).stackP.isNone <;> rfl
  · simp only [if_neg hnb]

theorem registered_slot {lg : Launching} {e : Bool} (hmode : t.daemon.mode = .launching lg) (i : Nat) :
    ((t.daemon.table.register lg.pid lg.errFile lg.stack).manager i = t.daemon.table.manager i ∧
      (t.after (.launchReturns e) s).slots i = t.slots i) ∨
    (t.daemon.table.nextSlot = some i ∧
      (t.daemon.table.register lg.pid lg.errFile lg.stack).manager i = ⟨some lg.stack, lg.pid, lg.errFile⟩ ∧
      (t.after (.launchReturns e) s).slots i = some lg.launch) := by
  simp only [Owned.after, hmode, register_manager]
  cases hnext : t.daemon.table.nextSlot with
  | none => exact .inl ⟨rfl, rfl⟩
  | some j =>
    by_cases hij : i = j
    · subst hij
      exact .inr ⟨rfl, Function.update_self .., Function.update_self ..⟩
    · exact .inl ⟨Function.update_of_ne hij .., Function.update_of_ne hij ..⟩

/-- `add_event_pipeExecve` closes the pipe that it cannot register, and nothing else. -/
theorem launchReturns_books {lg : Launching} (epollAdd : Bool) (h : OwnedInv t) (hlive : Live t)
    (hmode : t.daemon.mode = .launching lg)
    (hfds : s.fds = if epollAdd then t.daemon.fds else Function.update t.daemon.fds lg.pipe none) :
    (t.books (.launchReturns epollAdd)).Sound t.used ∧ Agrees s.fds (t.books (.launchReturns epollAdd)) ∧
      ∀ n o, (∀ k, o ≠ .pipe k) → t.ledger.owner n = some o →
        (t.books (.launchReturns epollAdd)).owner n = some o := by
  have howner := hlive.agrees.pipe (hlive.pipes.launching lg hmode).1
  rw [hfds]
  cases epollAdd with
  | true => exact ⟨h.sound, hlive.agrees, fun _ _ _ ho => ho⟩
  | false =>
    simp only [Owned.books, hmode]
    refine ⟨h.sound.release howner, hlive.agrees.release _, ?_⟩
    intro n o hne ho
    rw [Ledger.owner_release_of_ne _ (Ledger.ne_of_owner ho howner (hne _))]
    exact ho

theorem ownedInv_launchReturns {epollAdd : Bool} (h : OwnedInv t)
    (hs : step t.daemon (.launchReturns epollAdd) = some s) : OwnedInv (t.after (.launchReturns epollAdd) s) := by
  have hspec : ∃ lg, t.daemon.mode = .launching lg ∧ s.table = t.daemon.table.register lg.pid lg.errFile lg.stack ∧
      s.fds = (if epollAdd then t.daemon.fds else Function.update t.daemon.fds lg.pipe none) ∧
      s.conns = t.daemon.conns ∧ s.batch = t.daemon.batch ∧ s.mode = .loop ∧ s.children = t.daemon.children := by
    cases step_cases hs with
    | launchReturns hmode => exact ⟨_, hmode, rfl, rfl, rfl, rfl, rfl, rfl⟩
  obtain ⟨lg, hmode, htable, hfds, hconns, hbatch, hloop, hch⟩ := hspec
  have hlive := h.live (by rw [hmode]; simp)
  obtain ⟨-, ⟨c, hc, -, -⟩, -, -⟩ := hlive.pipes.launching lg hmode
  obtain ⟨hfile, hnew⟩ := hlive.launching lg hmode
  have hlt : lg.launch < t.daemon.children.length := (List.getElem?_eq_some_iff.1 hc).1
  have hpipes := hlive.pipes_step hs rfl
  obtain ⟨hsound, hag, hkept⟩ := launchReturns_books epollAdd h hlive hmode hfds
  have hslot := fun i => registered_slot (s := s) (e := epollAdd) hmode i
  rw [← htable] at hslot
  refine ⟨hsound.mono fun _ ho => used_after _ (by rw [hch]) ho, fun _ => ⟨hag, hpipes, ?_,
    (show s.conns.Nodup from hconns ▸ hlive.nodup), ?_, ?_, ?_, ?_, ?_⟩⟩
  · intro n hn
    obtain ⟨m, hm, hown⟩ := hlive.conns n (hconns ▸ hn)
    exact ⟨m, hm, hkept n _ (by simp) hown⟩
  · intro n hn
    change n ∈ s.conns
    rw [hconns]
    exact hlive.batch n (hbatch ▸ hn)
  · intro lg' hlg'
    rw [show s.mode = .launching lg' from hlg'] at hloop
    cases hloop
  · intro i hi
    change (s.table.manager i).stackP.isSome at hi
    change ∃ k, (t.after (.launchReturns epollAdd) s).slots i = some k ∧
      (t.after (.launchReturns epollAdd) s).HoldsFile (s.table.manager i).errFile k
    rcases hslot i with ⟨hman, hsl⟩ | ⟨-, hman, hsl⟩
    · rw [hman] at hi ⊢
      obtain ⟨k, hk, hown⟩ := hlive.slots i hi
      exact ⟨k, hsl.trans hk, fun hne => hkept _ _ (by simp) (hown hne)⟩
    · rw [hman]
      exact ⟨lg.launch, hsl, fun hne => hkept _ _ (by simp) (hfile hne)⟩
  · intro i j k hi hj hik hjk
    change (s.table.manager i).stackP.isSome at hi
    change (s.table.manager j).stackP.isSome at hj
    rcases hslot i with ⟨hmi, hsi⟩ | ⟨hni, -, hsi⟩ <;> rcases hslot j with ⟨hmj, hsj⟩ | ⟨hnj, -, hsj⟩
    · rw [hmi] at hi
      rw [hmj] at hj
      exact hlive.distinct i j k hi hj (hsi ▸ hik) (hsj ▸ hjk)
    · exact absurd ((hsi.symm.trans hik).trans (hsj.symm.trans hjk).symm) (hnew i)
    · exact absurd ((hsj.symm.trans hjk).trans (hsi.symm.trans hik).symm) (hnew j)
    · exact Option.some.inj (hni.symm.trans hnj)
  · intro i k hk
    change k < s.children.length
    rw [hch]
    rcases hslot i with ⟨-, hsi⟩ | ⟨-, -, hsi⟩
    · exact hlive.launched i k (hsi.symm.trans hk)
    · rw [hsi, Option.some.injEq] at hk
      exact hk ▸ hlt

/-! ## The end of the daemon -/

theorem mem_freedFiles {p : Fd × Option Owner} (h : p ∈ t.freedFiles) :
    ∃ i < t.daemon.table.nbProcess.toNat, (t.daemon.table.manager i).stackP.isSome ∧
      p = ((t.daemon.table.manager i).errFile, (t.slots i).map .errFile) := by
  obtain ⟨i, hi, hp⟩ := List.mem_filterMap.1 h
  obtain ⟨stack, hstack, rfl⟩ := Option.map_eq_some_iff.1 hp
  exact ⟨i, List.mem_range.1 hi, by rw [hstack]; rfl, rfl⟩

theorem freedFiles_eq {freed : List (Addr × Fd)}
    (h : freeManager t.daemon.table.manager t.daemon.table.nbProcess = some freed) :
    t.freedFiles.map Prod.fst = freed.map Prod.snd := by
  unfold freeManager at h
  split at h
  · cases h
    simp only [Owned.freedFiles, List.map_filterMap, Option.map_map]
    rfl
  · cases h

/-- `free_manager` closes the error files of the children in the table, if they all have one. -/
theorem Live.releaseAll_freedFiles (h : OwnedInv t) (hlive : Live t)
    (hg : ∀ i < t.daemon.table.nbProcess.toNat, (t.daemon.table.manager i).stackP.isSome →
      (t.daemon.table.manager i).errFile ≠ stdoutFileno) : (t.ledger.releaseAll t.freedFiles).Sound t.used := by
  have hfile : ∀ i < t.daemon.table.nbProcess.toNat, (t.daemon.table.manager i).stackP.isSome →
      ∃ k, t.slots i = some k ∧ t.ledger.owner (t.daemon.table.manager i).errFile = some (.errFile k) := by
    intro i hi huse
    obtain ⟨k, hk, hown⟩ := hlive.slots i huse
    exact ⟨k, hk, hown (hg i hi huse)⟩
  refine h.sound.releaseAll ?_ ?_
  · intro p hp
    obtain ⟨i, hi, huse, rfl⟩ := mem_freedFiles hp
    obtain ⟨k, hk, hown⟩ := hfile i hi huse
    exact ⟨_, by rw [hk]; rfl, hown⟩
  · -- two slots with one number would be filled for one launch
    refine List.pairwise_filterMap.2 (List.nodup_range.imp_of_mem fun {i j} hi hj hne p hp q hq heq => hne ?_)
    obtain ⟨stack, hstack, rfl⟩ := Option.map_eq_some_iff.1 hp
    obtain ⟨stack', hstack', rfl⟩ := Option.map_eq_some_iff.1 hq
    have hui : (t.daemon.table.manager i).stackP.isSome := by rw [hstack]; rfl
    have huj : (t.daemon.table.manager j).stackP.isSome := by rw [hstack']; rfl
    obtain ⟨k, hk, hown⟩ := hfile i (List.mem_range.1 hi) hui
    obtain ⟨k', hk', hown'⟩ := hfile j (List.mem_range.1 hj) huj
    simp only at heq
    rw [heq, hown', Option.some.injEq, Owner.errFile.injEq] at hown
    exact hlive.distinct i j k hui huj hk (hown ▸ hk')

theorem ownedInv_killProcess {pid : Pid} (h : OwnedInv t)
    (hg : pid = 0 → ∀ i < t.daemon.table.nbProcess.toNat,
      (t.daemon.table.manager i).stackP.isSome → (t.daemon.table.manager i).errFile ≠ stdoutFileno)
    (hs : step t.daemon (.killProcess pid) = some s) : OwnedInv (t.after (.killProcess pid) s) := by
  have htail {rest : List Ready} {sock : Fd} {killed : List Pid} (hmode : t.daemon.mode = .loop)
      (hbatch : t.daemon.batch = .sockMessage sock :: rest) (hne : pid ≠ 0)
      (hs : step t.daemon (.killProcess pid) = some { t.daemon with batch := rest, killed := killed }) :
      OwnedInv (t.after (.killProcess pid) { t.daemon with batch := rest, killed := killed }) := by
    have hlive := h.live (by rw [hmode]; simp)
    have hbooks : t.books (.killProcess pid) = t.ledger := by simp only [Owned.books, if_neg hne]
    exact h.quiet hbooks le_rfl fun _ => hlive.quiet hs rfl hbooks rfl rfl rfl rfl
      (fun n hn => mem_of_tail hlive hbatch n hn) (fun _ h => h) rfl le_rfl
  cases step_cases hs with
  | kills hmode hbatch hpos => exact htail hmode hbatch hpos.ne' hs
  | killsNone hmode hbatch hneg => exact htail hmode hbatch hneg.ne hs
  | killsGroup hmode hbatch =>
    have hlive := h.live (by rw [hmode]; simp)
    have hsound := hlive.releaseAll_freedFiles h (hg rfl)
    refine ⟨?_, fun hne => absurd rfl hne⟩
    simp only [Owned.after, Owned.books]
    exact hsound.mono fun _ ho => used_after (.killProcess 0) (by rfl) ho

theorem ownedInv_noMemory {fd : Fd} (h : OwnedInv t) (hs : t.noMemory (some fd) = some t') : OwnedInv t' := by
  unfold Owned.noMemory at hs
  split at hs
  · cases hs
  · rename_i hmode
    have hlive := h.live hmode
    simp only at hs
    split at hs
    · rename_i hfree
      cases hs
      have hacq := h.sound.acquire fd (o := .other t.others) (Nat.lt_irrefl _)
      refine ⟨(hacq.release Ledger.owner_acquire_self).mono ?_, fun _ => ?_⟩
      · rintro o (ho | rfl)
        · cases o <;> first | exact ho | exact Nat.lt_succ_of_lt ho
        · exact Nat.lt_succ_self _
      · exact hlive.keep none (hlive.agrees.acquire_release hfree.1 _ _) hlive.pipes
          (fun n _ o ho => hlive.agrees.kept_release hfree.1 _ ho) rfl rfl (fun n hn => ⟨hn, by simp⟩) hlive.nodup
          hlive.batch (fun lg hlg => ⟨fun hne => hlive.agrees.kept_release hfree.1 _ ((hlive.launching lg hlg).1 hne),
            (hlive.launching lg hlg).2⟩) (fun i _ => ⟨rfl, by simp⟩) le_rfl
    · cases hs

theorem ownedInv_step {l : OwnedLabel} (h : OwnedInv t) (hg : SafeClose t l) (hs : ownedStep t l = some t') :
    OwnedInv t' := by
  cases l with
  | noMemory inotifyFd =>
    cases inotifyFd with
    | none => exact absurd hg Bool.false_ne_true
    | some fd => exact ownedInv_noMemory h hs
  | daemon l =>
    simp only [ownedStep] at hs
    split at hs
    · rename_i hposs
      obtain ⟨-, hhup, hslot, hkill⟩ := hg
      split at hs
      · rename_i s hstep
        cases hs
        cases l with
        | child k act => exact ownedInv_child h hstep
        | openOther fd => exact ownedInv_openOther h (by simpa [Owned.possible] using hposs) hstep
        | closeOther fd => cases hposs
        | epollWait events => exact ownedInv_epollWait h hstep
        | epollFails => exact ownedInv_epollFails h hstep
        | signalfd garbage held => exact ownedInv_signalfd h hslot hstep
        | waitpidReturns garbage held =>
          refine ownedInv_waitpidReturns h (fun pid hmode => hslot pid ?_) hstep
          simp only [State.signalOf, hmode, Option.mem_def]
        | execve foreign => exact ownedInv_execve h hstep
        | runCommand com os => exact ownedInv_runCommand h hstep
        | launchReturns epollAdd => exact ownedInv_launchReturns h hstep
        | killProcess pid => exact ownedInv_killProcess h (fun hzero => hkill (by rw [hzero]; rfl)) hstep
        | unexpected => exact ownedInv_unexpected h hstep
        | sockClosed => exact ownedInv_sockClosed h hstep
        | sockConnexion fd => exact ownedInv_sockConnexion h hstep
        | inotify updates => exact ownedInv_inotify h hstep
        | hupErr number held => exact absurd hhup Bool.noConfusion
      · cases hs
    · cases hs

end Steps

/-- For every run whose steps keep clear of the wrong closes, in every state it reaches. -/
theorem closes_own_descriptors (heap : Nat → ProcessInfo) (nfds : Nat) (sock : Fd) (port : Nat) {t : Owned}
    (hr : Lts.Reach ownedStep SafeClose (.init heap nfds sock port) t) : ClosesOwn t := by
  have hinv := hr.invariant (ownedInv_init heap nfds sock port) fun _ _ _ _ h hg hs => ownedInv_step h hg hs
  exact hinv.sound.toProper

namespace Owned

/-- The daemon of `State.start`. -/
def start : Owned := .init (fun _ => ⟨none, 0, 0⟩) 8 0 8080

/-- What was meant to be closed, and what was. -/
def closed (t : Owned) : List (Option Owner × Option Owner) :=
  t.ledger.released.map fun r => (r.intended, r.actual)

end Owned

/-- A client launches a child; the child is stopped, and killed while the daemon waits for it; the client
sends a frame of length zero. -/
def stoppedThenZeroFrame : List Label :=
  connects ++ launches "A" 9 (10, 11) 20 ++ execs 0 "A" 10 20 ++ [Label.child 0 .stop] ++ handlesSignal ++
    [Label.child 0 (.exit (.signaled 9)), .waitpidReturns 0 false, .epollWait [.sockMessage 8], .sockClosed]

theorem zero_frame_closes_own :
    ∃ t, Lts.Reach ownedStep SafeClose .start t ∧
      t.closed.map Prod.fst = [some (.pipeWrite 0), some (.pipe 0), some (.errFile 0), some (.conn 0)] ∧
      ClosesOwn t := by
  obtain ⟨t, ht, hp⟩ := Lts.exists_of_run_map (p := fun t : Owned => t.closed.map Prod.fst ==
      [some (.pipeWrite 0), some (.pipe 0), some (.errFile 0), some (.conn 0)])
    (show (Lts.run (Lts.guarded SafeClose ownedStep) .start (stoppedThenZeroFrame.map .daemon)).map _ = some true by
      decide +kernel)
  have hreach := Lts.reach_of_run ht
  exact ⟨t, hreach, by simpa using hp, closes_own_descriptors _ 8 0 8080 hreach⟩

/-- The second SIGCHLD of a child closes the notification pipe of another one in the place of its error
file. -/
theorem closes_pipe_of_other :
    ∃ t, Lts.Reachable ownedStep .start t ∧ (some (.errFile 1), some (.pipe 3)) ∈ t.closed ∧ ¬ ClosesOwn t := by
  obtain ⟨t, ht, hp⟩ := Lts.exists_of_run_map
    (p := fun t : Owned => decide ((some (.errFile 1), some (.pipe 3)) ∈ t.closed))
    (show (Lts.run ownedStep .start (staleClose.map .daemon)).map _ = some true by decide +kernel)
  have hmem := of_decide_eq_true hp
  refine ⟨t, Lts.reachable_of_run ht, hmem, fun hown => ?_⟩
  obtain ⟨r, hr, heq⟩ := List.mem_map.1 hmem
  obtain ⟨o, hint, hact⟩ := hown.right r hr
  rw [hint, hact, Prod.mk.injEq] at heq
  exact absurd (heq.1.symm.trans heq.2) (by simp)

end ProcCtrld
