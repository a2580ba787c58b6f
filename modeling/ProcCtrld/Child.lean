import ProcCtrld.Messages

/-!
# ProcCtrld.Child

A child of the C daemon from `clone` to the wait of its parent (`child_function` in `clone.c`).

The child runs with its own memory and its own descriptor table: the model is of the launches whose
`flags` share neither with the daemon. It calls `execve`. On success the new program runs and the
write end of the notification pipe, which is close-on-exec, is closed. On failure the child calls
`printf` and `perror`, writes what `errno` is after them to the pipe and leaves with `_exit` of that
number: it need not be the error of `execve`. A signal may stop, continue or kill the child at any
point.
-/

namespace ProcCtrld

/-- What `waitpid` stores for a child that is gone. -/
inductive WaitStatus where
  | exited (status : Nat)
  | signaled (sig : Nat)
deriving DecidableEq, Repr

/-- The `exit_status` that `handle_SIGCHLD` computes. -/
def WaitStatus.exitStatus : WaitStatus → Nat
  | .exited status => status
  | .signaled sig => sig

def sigkill : Nat := 9

inductive Life where
  | running
  | stopped
  | zombie (status : WaitStatus)
  | reaped (status : WaitStatus)
deriving DecidableEq, Repr

/-- How far `child_function` has got. -/
inductive Phase where
  | beforeExecve
  | execd
  | execveFailed (errno : Nat)
  -- `err`, the `errno` that `printf` and `perror` have left, is in the pipe
  | reported (errno err : Nat)
deriving DecidableEq, Repr

/-- `execve` returned an error. -/
def Phase.failed : Phase → Bool
  | .execveFailed _ | .reported .. => true
  | _ => false

/-- The outcome of `execve` is what a read of the pipe tells, whatever happens to the child. -/
def Phase.told : Phase → Bool
  | .execd | .reported .. => true
  | _ => false

structure Child where
  pid : Pid
  path : String
  life : Life
  phase : Phase
deriving DecidableEq, Repr

inductive ChildAct where
  | execveSucceeds
  | execveFails (errno : Nat)
  | write (err : Nat)
  | exit (status : WaitStatus)
  | stop
  | cont
deriving DecidableEq, Repr

/-- The acts that raise SIGCHLD in the parent. -/
def ChildAct.notifies : ChildAct → Bool
  | exit _ | stop | cont => true
  | _ => false

namespace Child

def unreaped (c : Child) : Bool :=
  match c.life with
  | .reaped _ => false
  | _ => true

def dead (c : Child) : Bool :=
  match c.life with
  | .zombie _ | .reaped _ => true
  | _ => false

/-- Before `execve` has succeeded the code leaves only by the `_exit(err)` after the write. A stopped
child can only be killed by SIGKILL. -/
def mayExit (c : Child) : WaitStatus → Bool
  | .exited status =>
    c.life = .running &&
      match c.phase with
      | .execd => status < 256
      | .reported _ err => status = err % 256
      | _ => false
  | .signaled sig => c.life = .running || (c.life = .stopped && sig = sigkill)

def step (c : Child) : ChildAct → Option Child
  | .execveSucceeds =>
    if c.life = .running ∧ c.phase = .beforeExecve then some { c with phase := .execd } else none
  | .execveFails errno =>
    if c.life = .running ∧ c.phase = .beforeExecve then
      some { c with phase := .execveFailed errno }
    else none
  | .write err =>
    match c.life, c.phase with
    | .running, .execveFailed errno => some { c with phase := .reported errno err }
    | _, _ => none
  | .exit status => if c.mayExit status then some { c with life := .zombie status } else none
  | .stop => if c.life = .running then some { c with life := .stopped } else none
  | .cont => if c.life = .stopped then some { c with life := .running } else none

/-- `read` on the notification pipe: the number in it, or the end of file once the write end is
closed by `execve` or by the death of the child; `none` is a read that blocks. The daemon reads a
pipe once, since it closes it after the read. -/
def readPipe (c : Child) : Option (Option Nat) :=
  match c.phase with
  | .reported _ err => some (some err)
  | .execd => some none
  | _ => if c.dead then some none else none

section Step

variable {c c' : Child} {act : ChildAct}

theorem step_pid (h : c.step act = some c') : c'.pid = c.pid := by
  unfold step at h
  split at h <;> split at h <;> cases h <;> rfl

theorem step_path (h : c.step act = some c') : c'.path = c.path := by
  unfold step at h
  split at h <;> split at h <;> cases h <;> rfl

theorem step_alive (h : c.step act = some c') : c.dead = false := by
  unfold step at h
  split at h <;> split at h <;> cases h <;> simp_all [dead, mayExit]
  all_goals grind

theorem unreaped_of_not_dead (h : c.dead = false) : c.unreaped = true := by
  revert h
  unfold dead unreaped
  split <;> simp_all

theorem step_unreaped (h : c.step act = some c') : c'.unreaped = true := by
  have halive := unreaped_of_not_dead (step_alive h)
  unfold step at h
  split at h <;> split at h <;> cases h <;> first | exact halive | rfl

theorem step_zombie {status : WaitStatus} (h : c.step act = some c') (hz : c'.life = .zombie status) :
    act = .exit status := by
  have halive := step_alive h
  unfold step at h
  split at h <;> split at h <;> cases h <;> simp_all [dead]

theorem step_phase_execd (h : c.step act = some c') (hp : c.phase = .execd) : c'.phase = .execd := by
  unfold step at h
  split at h <;> split at h <;> cases h <;> simp_all

theorem step_phase_failed (h : c.step act = some c') (hp : c.phase.failed = true) :
    c'.phase.failed = true := by
  unfold step at h
  split at h <;> split at h <;> cases h <;> simp_all [Phase.failed]

/-- An exit leaves the phase as it is, and nothing else kills the child. -/
theorem step_dead (h : c.step act = some c') (hd : c'.dead = true) :
    (∃ status, act = .exit status) ∧ c'.phase = c.phase := by
  have halive := step_alive h
  unfold step at h
  split at h <;> split at h <;> cases h <;> simp_all [dead]

theorem step_exit_dead {status : WaitStatus} (h : c.step (.exit status) = some c') : c'.dead = true := by
  simp only [step] at h
  split at h
  · cases h; rfl
  · cases h

end Step

end Child

end ProcCtrld
