import Mathlib.Data.List.ReduceOption
import ProcCtrld.Effects

/-!
# ProcCtrld.LaunchFailures

What a launch that fails leaves behind (`process_command_request` and `handle_clone_event` in `events.c`,
`launch_process` in `clone.c`).

The error file is opened before the first call that can fail, and the pipe before `clone`; no failure closes
either of them. Each failure is reported by the `errno` that `process_command_request` finds when
`handle_clone_event` has returned NULL, after the `printf`, `fflush`, `perror` and `free` calls behind the
call that failed. The steps of `Daemon` have these launches with the errno that is reported;
`failureStep` says which call failed and what the calls behind it did to `errno` (`failureStep_coarse`,
`failureStep_of_step`).

`launch_failures_atomic_iff`: in which runs every failing launch leaves the daemon as it was and reports the
errno of the call that failed.
-/

namespace ProcCtrld

/-- The call that fails: the `malloc` of `handle_clone_event`, those of `launch_process`, or `clone`. -/
inductive FailingCall where
  | mallocParameter
  | mallocInfo
  | mallocStack
  | clone (pipefd : Fd × Fd)
deriving DecidableEq, Repr

inductive LibCall where
  | printf
  | fflush
  | perror
  | free
deriving DecidableEq, Repr

/-- The library calls between the failing call and the use of `errno`. -/
def FailingCall.behind : FailingCall → List LibCall
  | mallocParameter => []
  | mallocInfo => [.perror, .free, .free]
  | mallocStack => [.perror, .free, .free, .free]
  | clone _ => [.printf, .fflush, .perror, .free, .free, .free, .free]

/-- `later` is what the calls behind the failing one store in `errno`, if they do. -/
structure FailureOs where
  errFile : Option Fd
  call : FailingCall
  errno : Nat
  later : Nat → Option Nat

/-- What is stored in `errno`, in order. -/
def FailureOs.stored (os : FailureOs) : List (Option Nat) :=
  os.call.behind.zipIdx.map fun x => os.later x.2

/-- `errno` when `handle_clone_event` has returned. -/
def FailureOs.errnoRead (os : FailureOs) : Nat :=
  os.stored.foldl (fun errno e => e.getD errno) os.errno

/-- The descriptors after `launch_process`. -/
def launchProcess (fds : Fd → Option Obj) : FailingCall → Option (Fd → Option Obj)
  | .mallocParameter | .mallocInfo | .mallocStack => some fds
  | .clone pipefd => do
    let fds ← openFd fds pipefd.1 .leakedPipe
    openFd fds pipefd.2 .leakedPipe

/-- `process_command_request` when `handle_clone_event` returns NULL. -/
def State.failedRequest (s : State) (rest : List Ready) (sock : Fd) (com : Command) (os : FailureOs) :
    Option State := do
  let (fds, _) ← openErrFile s.fds os.errFile
  let fds ← launchProcess fds os.call
  return s.launchFails rest sock com os.errnoRead fds

/-- A failing launch in `Daemon`, which has the errno that is reported. -/
def FailureOs.coarse (os : FailureOs) : LaunchOs :=
  match os.call with
  | .clone pipefd => .cloneFails os.errFile pipefd os.errnoRead
  | _ => .mallocFails os.errFile os.errnoRead

inductive FailureLabel where
  | other (l : Label)
  | fails (com : Command) (os : FailureOs)

/-- The label is a failure of `handle_clone_event`. -/
def Label.isLaunchFailure : Label → Bool
  | .runCommand _ (.mallocFails _ _) | .runCommand _ (.cloneFails _ _ _) => true
  | _ => false

def failureStep (s : State) : FailureLabel → Option State
  | .other l => if l.isLaunchFailure then none else step s l
  | .fails com os =>
    match s.mode, s.batch with
    | .loop, .sockMessage sock :: rest => s.failedRequest rest sock com os
    | _, _ => none

/-! ## The steps of `Daemon` -/

section Coarse

variable {s s' : State}

theorem failedRequest_eq (rest : List Ready) (sock : Fd) (com : Command) (os : FailureOs) :
    s.failedRequest rest sock com os = s.processCommandRequest rest sock com os.coarse := by
  obtain ⟨errFile, call, errno, later⟩ := os
  cases call with
  | clone pipefd =>
    simp only [State.failedRequest, launchProcess, FailureOs.coarse, State.processCommandRequest,
      Option.bind_eq_bind, Option.bind_assoc]
  | _ =>
    simp only [State.failedRequest, launchProcess, FailureOs.coarse, State.processCommandRequest]
    cases openErrFile s.fds errFile <;> rfl

def FailureLabel.coarse : FailureLabel → Label
  | .other l => l
  | .fails com os => .runCommand com os.coarse

theorem failureStep_coarse {l : FailureLabel} (h : failureStep s l = some s') : step s l.coarse = some s' := by
  cases l with
  | other l =>
    simp only [failureStep] at h
    split at h
    · cases h
    · exact h
  | fails com os =>
    simp only [failureStep, failedRequest_eq] at h
    exact h

theorem errnoRead_of_none (errFile : Option Fd) (call : FailingCall) (errno : Nat) :
    FailureOs.errnoRead ⟨errFile, call, errno, fun _ => none⟩ = errno := by
  cases call <;> rfl

/-- Every step of `Daemon` is one of these, with calls that leave `errno` alone if it is a failing launch. -/
theorem failureStep_of_step {l : Label} (h : step s l = some s') : ∃ l', failureStep s l' = some s' := by
  by_cases hl : l.isLaunchFailure = true
  · cases l with
    | runCommand com os =>
      cases os with
      | mallocFails errFile errno =>
        refine ⟨.fails com ⟨errFile, .mallocStack, errno, fun _ => none⟩, ?_⟩
        simp only [failureStep, failedRequest_eq, FailureOs.coarse, errnoRead_of_none]
        exact h
      | cloneFails errFile pipefd errno =>
        refine ⟨.fails com ⟨errFile, .clone pipefd, errno, fun _ => none⟩, ?_⟩
        simp only [failureStep, failedRequest_eq, FailureOs.coarse, errnoRead_of_none]
        exact h
      | _ => cases hl
    | _ => cases hl
  · exact ⟨.other l, by simp [failureStep, hl, h]⟩

/-- The two systems reach the same states. -/
theorem reachable_failureStep_iff {s₀ : State} : Lts.Reachable failureStep s₀ s ↔ Lts.Reachable step s₀ s := by
  constructor
  · intro h
    induction h with
    | init => exact .init
    | step _ _ hs ih => exact .step ih trivial (failureStep_coarse hs)
  · intro h
    induction h with
    | init => exact .init
    | step _ _ hs ih =>
      obtain ⟨l', hl'⟩ := failureStep_of_step hs
      exact .step ih trivial hl'

end Coarse

/-! ## What a failure leaves behind -/

def Msg.isCreationError : Msg → Bool
  | childCreationError _ => true
  | _ => false

/-- The client on `sock` has got one `ChildCreationError`, and nothing is left of the request. -/
structure Atomic (s s' : State) (sock : Fd) (errno : Nat) : Prop where
  error : (s'.sent.drop s.sent.length).filter (fun m => m.msg.isCreationError) =
    [⟨sock, .childCreationError errno, none⟩]
  table : s'.table = s.table
  descriptors : ∀ fd, (s'.fds fd).isSome = (s.fds fd).isSome

/-- A failing launch is atomic, with the errno of the call that fails. -/
def FailsAtomically (s : State) : FailureLabel → Prop
  | .other _ => True
  | .fails com os => ∀ s' sock rest, s.batch = .sockMessage sock :: rest →
    failureStep s (.fails com os) = some s' → Atomic s s' sock os.errno

/-- The last call that stores something in `errno` stores the same number, if there is one. -/
def FailureOs.ErrnoKept (os : FailureOs) : Prop := ∀ e ∈ os.stored.reduceOption.getLast?, e = os.errno

instance (os : FailureOs) : Decidable os.ErrnoKept :=
  inferInstanceAs (Decidable (∀ e ∈ os.stored.reduceOption.getLast?, e = os.errno))

def FailingCall.isClone : FailingCall → Bool
  | clone _ => true
  | _ => false

/-- A `malloc` fails, the error file could not be opened either, and `errno` is kept. -/
def LeavesNothing (_ : State) : FailureLabel → Prop
  | .other _ => True
  | .fails _ os => os.call.isClone = false ∧ os.errFile = none ∧ os.ErrnoKept

instance (s : State) (l : FailureLabel) : Decidable (LeavesNothing s l) := by
  cases l with
  | other l => exact .isTrue trivial
  | fails com os => exact inferInstanceAs (Decidable (_ ∧ _ ∧ _))

section Failures

variable {s s' : State} {com : Command} {os : FailureOs} {sock : Fd} {rest : List Ready}

theorem foldl_stored (es : List (Option Nat)) (errno : Nat) :
    es.foldl (fun errno e => e.getD errno) errno = es.reduceOption.getLast?.getD errno := by
  induction es generalizing errno with
  | nil => rfl
  | cons e es ih =>
    rw [List.foldl_cons, ih]
    cases e with
    | none => rw [List.reduceOption_cons_of_none, Option.getD_none]
    | some e => rw [List.reduceOption_cons_of_some, List.getLast?_cons, Option.getD_some, Option.getD_some]

theorem errnoRead_eq_iff : os.errnoRead = os.errno ↔ os.ErrnoKept := by
  rw [FailureOs.errnoRead, foldl_stored, FailureOs.ErrnoKept]
  cases os.stored.reduceOption.getLast? <;> simp

theorem filter_surveillanceAcks (ws : List (Option Surveillance)) :
    (surveillanceAcks sock ws).filter (fun m => m.msg.isCreationError) = [] := by
  rw [List.filter_eq_nil_iff]
  intro m hm
  obtain ⟨msg, hmsg, rfl⟩ := List.mem_map.mp hm
  obtain ⟨w, -, hmsg⟩ := List.mem_flatMap.mp hmsg
  cases w with
  | none => cases hmsg
  | some w =>
    cases w with
    | inotify rootPaths mask size =>
      rw [List.mem_singleton.mp hmsg]
      simp [Msg.isCreationError]
    | watchSocket destport =>
      rw [List.mem_singleton.mp hmsg]
      simp [Msg.isCreationError]

theorem fails_spec (hbatch : s.batch = .sockMessage sock :: rest) (h : failureStep s (.fails com os) = some s') :
    ∃ fds err fds', openErrFile s.fds os.errFile = some (fds, err) ∧ launchProcess fds os.call = some fds' ∧
      s' = s.launchFails rest sock com os.errnoRead fds' := by
  simp only [failureStep, hbatch] at h
  split at h
  · rename_i sock' rest' _ heq
    cases heq
    simp only [State.failedRequest, Option.bind_eq_bind, Option.bind_eq_some_iff, Option.pure_def,
      Option.some.injEq] at h
    obtain ⟨⟨fds, err⟩, herr, fds', hfds', rfl⟩ := h
    exact ⟨fds, err, fds', herr, hfds', rfl⟩
  · cases h

theorem launchProcess_kept {fds fds' : Fd → Option Obj} {call : FailingCall} {n : Fd} {o : Obj}
    (h : launchProcess fds call = some fds') (hn : fds n = some o) : fds' n = some o := by
  cases call with
  | clone pipefd =>
    simp only [launchProcess, Option.bind_eq_bind, Option.bind_eq_some_iff] at h
    obtain ⟨fds₁, h₁, h₂⟩ := h
    exact openFd_kept h₂ (openFd_kept h₁ hn)
  | _ =>
    cases h
    exact hn

theorem descriptors_iff {fds fds' : Fd → Option Obj} {err : Fd} (herr : openErrFile s.fds os.errFile = some (fds, err))
    (hlaunch : launchProcess fds os.call = some fds') :
    (∀ fd, (fds' fd).isSome = (s.fds fd).isSome) ↔ os.call.isClone = false ∧ os.errFile = none := by
  constructor
  · intro h
    constructor
    · cases hcall : os.call with
      | clone pipefd =>
        rw [hcall] at hlaunch
        simp only [launchProcess, Option.bind_eq_bind, Option.bind_eq_some_iff] at hlaunch
        obtain ⟨fds₁, h₁, h₂⟩ := hlaunch
        have hsome : fds' pipefd.1 = some .leakedPipe := openFd_kept h₂ (openFd_new h₁)
        have hfree : s.fds pipefd.1 = none := by
          cases hs : s.fds pipefd.1 with
          | none => rfl
          | some o =>
            have hkept := (opens_openErrFile herr).kept hs
            rw [(openFd_eq h₁).1.1] at hkept
            cases hkept
        have heq := h pipefd.1
        rw [hsome, hfree] at heq
        cases heq
      | _ => rfl
    · cases hfile : os.errFile with
      | none => rfl
      | some fd =>
        rw [hfile] at herr
        simp only [openErrFile] at herr
        split at herr
        · rename_i hopen
          obtain ⟨rfl, -⟩ := Prod.mk.inj (Option.some.inj herr)
          have heq := h fd
          rw [launchProcess_kept hlaunch (openFd_new hopen), (openFd_eq hopen).1.1] at heq
          cases heq
        · cases herr
  · rintro ⟨hcall, hfile⟩ fd
    rw [hfile] at herr
    cases herr
    cases hc : os.call with
    | clone pipefd =>
      rw [hc] at hcall
      cases hcall
    | _ =>
      rw [hc] at hlaunch
      cases hlaunch
      rfl

theorem atomic_iff (hbatch : s.batch = .sockMessage sock :: rest) (h : failureStep s (.fails com os) = some s') :
    Atomic s s' sock os.errno ↔ os.call.isClone = false ∧ os.errFile = none ∧ os.ErrnoKept := by
  obtain ⟨fds, err, fds', herr, hlaunch, rfl⟩ := fails_spec hbatch h
  have hsent : ((s.launchFails rest sock com os.errnoRead fds').sent.drop s.sent.length).filter
      (fun m => m.msg.isCreationError) = [⟨sock, .childCreationError os.errnoRead, none⟩] := by
    rw [State.launchFails, List.drop_left, List.filter_cons_of_pos rfl, filter_surveillanceAcks]
  have hdescriptors := descriptors_iff herr hlaunch
  constructor
  · intro hatomic
    obtain ⟨hcall, hfile⟩ := hdescriptors.mp hatomic.descriptors
    have herror := hatomic.error
    rw [hsent] at herror
    refine ⟨hcall, hfile, errnoRead_eq_iff.mp ?_⟩
    simpa using herror
  · rintro ⟨hcall, hfile, hkept⟩
    refine ⟨?_, rfl, hdescriptors.mpr ⟨hcall, hfile⟩⟩
    rw [hsent, errnoRead_eq_iff.mpr hkept]

theorem failsAtomically_iff {l : FailureLabel} (h : failureStep s l = some s') :
    FailsAtomically s l ↔ LeavesNothing s l := by
  cases l with
  | other l => exact Iff.rfl
  | fails com os =>
    have hbatch : ∃ sock rest, s.batch = .sockMessage sock :: rest := by
      simp only [failureStep] at h
      split at h
      · rename_i sock rest _ hbatch
        exact ⟨sock, rest, hbatch⟩
      · cases h
    obtain ⟨sock, rest, hbatch⟩ := hbatch
    constructor
    · intro hall
      exact (atomic_iff hbatch h).mp (hall s' sock rest hbatch h)
    · intro hnothing s₁ sock₁ rest₁ hbatch₁ h₁
      exact (atomic_iff hbatch₁ h₁).mpr hnothing

end Failures

/-- In every run from the start of the daemon. -/
theorem launch_failures_atomic_iff (heap : Nat → ProcessInfo) (nfds : Nat) (garbageSock : Fd) (destPort : Nat)
    {ls : List FailureLabel} (hrun : (Lts.run failureStep (.init heap nfds garbageSock destPort) ls).isSome) :
    Lts.StepsAll failureStep FailsAtomically (.init heap nfds garbageSock destPort) ls ↔
      Lts.StepsAll failureStep LeavesNothing (.init heap nfds garbageSock destPort) ls :=
  Lts.stepsAll_congr_of_step (fun _ _ _ h => failsAtomically_iff h) hrun

section Examples

/-- A client on descriptor 8 asks for a program. -/
def asks : List FailureLabel :=
  [FailureLabel.other (.epollWait [.sockConnexion]), .other (.sockConnexion 8), .other (.epollWait [.sockMessage 8])]

def trueCommand : Command := ⟨"/bin/true", ["/bin/true"], [], 0, 8192, []⟩

/-- ENOMEM, without an error file. -/
def noMemoryNoFile : FailureOs := ⟨none, .mallocStack, 12, fun _ => none⟩

theorem no_memory_atomic :
    Lts.StepsAll failureStep FailsAtomically .start (asks ++ [.fails trueCommand noMemoryNoFile]) :=
  (launch_failures_atomic_iff _ _ _ _ (by decide +kernel)).mpr (Lts.stepsAll_of_guarded_run (by decide +kernel))

/-- EAGAIN of `clone`, with the error file on descriptor 9 and the pipe on 10 and 11; the `printf` behind it
stores ENOTTY in `errno`. -/
def cloneAgain : FailureOs := ⟨some 9, .clone (10, 11), 11, fun i => if i = 0 then some 25 else none⟩

/-- The error file and both ends of the pipe stay open, and the client is told ENOTTY. -/
theorem failed_clone_not_atomic :
    (∃ s, Lts.run failureStep .start (asks ++ [.fails trueCommand cloneAgain]) = some s ∧
      (s.fds 9 = some .errFile ∧ s.fds 10 = some .leakedPipe ∧ s.fds 11 = some .leakedPipe) ∧
      s.sent.getLast? = some ⟨8, .childCreationError 25, none⟩) ∧
    ¬ Lts.StepsAll failureStep FailsAtomically .start (asks ++ [.fails trueCommand cloneAgain]) := by
  constructor
  · obtain ⟨s, hs, hp⟩ := Lts.exists_of_run_map
      (p := fun s : State => decide
        ((s.fds 9 = some .errFile ∧ s.fds 10 = some .leakedPipe ∧ s.fds 11 = some .leakedPipe) ∧
          s.sent.getLast? = some ⟨8, .childCreationError 25, none⟩))
      (show (Lts.run failureStep .start (asks ++ [.fails trueCommand cloneAgain])).map _ = some true by
        decide +kernel)
    exact ⟨s, hs, of_decide_eq_true hp⟩
  · intro h
    obtain ⟨s, hs, hp⟩ := Lts.exists_of_run_map
      (p := fun s : State => (failureStep s (.fails trueCommand cloneAgain)).isSome)
      (show (Lts.run failureStep .start asks).map _ = some true by decide +kernel)
    obtain ⟨s', hs'⟩ := Option.isSome_iff_exists.mp hp
    have hnothing := (failsAtomically_iff hs').mp (h.last hs)
    cases hnothing.1

end Examples

end ProcCtrld
