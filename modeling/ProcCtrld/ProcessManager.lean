import Mathlib.Logic.Function.Basic
import Mathlib.Data.Finset.Card
import Mathlib.Data.Finset.Range
import Mathlib.Data.Set.Function

/-!
# ProcCtrld.ProcessManager

The process table of the C daemon (`process_manager.c`): `MAX_PROCESS` slots, each with the stack,
the pid and the error file of one child. A slot is free when its `stack_p` is `NULL`; freeing a
slot leaves its `child_id` and `err_file` in place, and a slot that was never used holds whatever
`malloc` returned.

`ProcessTable` is the table together with the caller's counter `nb_process`. Its two operations are
the lines of `process_command_request` and `handle_SIGCHLD` that change it: `register` and
`release`. `release` scans the first `nb_process` slots only.
-/

namespace ProcCtrld

abbrev Pid := Int
abbrev Fd := Nat
abbrev Addr := Nat

/-- `MAX_PROCESS`. -/
def maxProcess : Nat := 256

/-- `STDOUT_FILENO`, the error file of a child whose own file could not be opened. -/
def stdoutFileno : Fd := 1

/-- `process_info`. -/
structure ProcessInfo where
  stackP : Option Addr
  childId : Pid
  errFile : Fd
deriving DecidableEq, Repr

/-- `process_info**`; the indices from `maxProcess` on are not part of the table. -/
abbrev Manager := Nat → ProcessInfo

/-- `for (int i = 0; i < n; i++) if (p(i)) return i;` -/
def scan (n : Nat) (p : Nat → Bool) : Option Nat := (List.range' 0 n).find? p

/-- The loop returns the first index that satisfies its test. -/
theorem scan_eq_some {n i : Nat} {p : Nat → Bool} :
    scan n p = some i ↔ p i = true ∧ i < n ∧ ∀ j, j < i → p j = false := by
  simp [scan]

theorem scan_eq_none {n : Nat} {p : Nat → Bool} : scan n p = none ↔ ∀ i, i < n → p i = false := by
  simp [scan]

/-- `create_process_manager`: only `stack_p` is initialised, the rest is what the heap held. -/
def createProcessManager (heap : Nat → ProcessInfo) : Manager :=
  fun i => { heap i with stackP := none }

/-- `manager_add_process`: the first free slot of the whole table, unless `nb_process` says that
the table is full. Returns 1 or -1. -/
def managerAddProcess (pid : Pid) (manager : Manager) (errFile : Fd) (stack : Addr)
    (nbProcess : Int) : Int × Manager :=
  if nbProcess < maxProcess then
    match scan maxProcess (fun j => (manager j).stackP.isNone) with
    | some j => (1, Function.update manager j ⟨some stack, pid, errFile⟩)
    | none => (-1, manager)
  else (-1, manager)

/-- The slot that the loop of `manager_remove_process` stops at: the first of the first `size` slots
whose `child_id` is `pid`. -/
def matchedSlot (pid : Pid) (manager : Manager) (size : Int) : Option Nat :=
  scan (min size.toNat maxProcess) fun i => (manager i).childId == pid

theorem matchedSlot_eq_some {pid : Pid} {manager : Manager} {size : Int} {i : Nat} :
    matchedSlot pid manager size = some i ↔
      (manager i).childId = pid ∧ (i : Int) < size ∧ i < maxProcess ∧
        ∀ j, j < i → (manager j).childId ≠ pid := by
  simp only [matchedSlot, scan_eq_some, beq_iff_eq, beq_eq_false_iff_ne, lt_min_iff, and_assoc]
  have : i < size.toNat ↔ (i : Int) < size := by omega
  rw [this]

theorem matchedSlot_eq_none {pid : Pid} {manager : Manager} {size : Int} :
    matchedSlot pid manager size = none ↔
      ∀ i : Nat, (i : Int) < size → i < maxProcess → (manager i).childId ≠ pid := by
  simp only [matchedSlot, scan_eq_none, beq_eq_false_iff_ne, lt_min_iff, and_imp]
  have : ∀ i : Nat, i < size.toNat ↔ (i : Int) < size := fun i => by omega
  simp only [this]

/-- `manager_remove_process`: frees the matched slot, whether it is in use or not, and closes its
error file. Returns the table and the descriptor it closed; `none` when the loop would read past
the table. -/
def managerRemoveProcess (pid : Pid) (manager : Manager) (size : Int) :
    Option (Manager × Option Fd) :=
  match matchedSlot pid manager size with
  | some i =>
    some (Function.update manager i { manager i with stackP := none },
      if (manager i).errFile ≠ stdoutFileno then some (manager i).errFile else none)
  | none => if size ≤ maxProcess then some (manager, none) else none

/-- `free_manager`: the stacks it frees, each with the error file it closes; `none` when the loop
would read past the table. -/
def freeManager (manager : Manager) (size : Int) : Option (List (Addr × Fd)) :=
  if size ≤ maxProcess then
    some ((List.range size.toNat).filterMap fun i =>
      (manager i).stackP.map fun stack => (stack, (manager i).errFile))
  else none

/-- The table and the counter `nb_process` that `main` keeps beside it. -/
structure ProcessTable where
  manager : Manager
  nbProcess : Int

namespace ProcessTable

def init (heap : Nat → ProcessInfo) : ProcessTable := ⟨createProcessManager heap, 0⟩

/-- `process_command_request`: `if (manager_add_process(..)) (*nb_process)++`, where both results
of `manager_add_process` are true in C. -/
def register (t : ProcessTable) (pid : Pid) (errFile : Fd) (stack : Addr) : ProcessTable :=
  let r := managerAddProcess pid t.manager errFile stack t.nbProcess
  ⟨r.2, if r.1 ≠ 0 then t.nbProcess + 1 else t.nbProcess⟩

/-- `handle_SIGCHLD`: `manager_remove_process(pid, manager, *size); (*size)--`. -/
def release (t : ProcessTable) (pid : Pid) : Option (ProcessTable × Option Fd) :=
  match managerRemoveProcess pid t.manager t.nbProcess with
  | some (manager, closed) => some (⟨manager, t.nbProcess - 1⟩, closed)
  | none => none

/-- The error file that `release` closes: the one in the slot it stops at. -/
def matchedFile (t : ProcessTable) (pid : Pid) : Option Fd :=
  match matchedSlot pid t.manager t.nbProcess with
  | some i => if (t.manager i).errFile ≠ stdoutFileno then some (t.manager i).errFile else none
  | none => none

theorem release_closes {t t' : ProcessTable} {pid : Pid} {closed : Option Fd}
    (h : t.release pid = some (t', closed)) : closed = t.matchedFile pid := by
  unfold release at h
  split at h
  · rename_i manager closed' hrm
    simp only [Option.some.injEq, Prod.mk.injEq] at h
    obtain ⟨-, rfl⟩ := h
    unfold managerRemoveProcess at hrm
    unfold matchedFile
    split at hrm
    · cases hrm; rfl
    · split at hrm
      · cases hrm; rfl
      · cases hrm
  · cases h

end ProcessTable

/-- The slots in use. -/
def occupied (manager : Manager) : Finset Nat :=
  (Finset.range maxProcess).filter fun i => (manager i).stackP.isSome

@[simp] theorem mem_occupied {manager : Manager} {i : Nat} :
    i ∈ occupied manager ↔ i < maxProcess ∧ (manager i).stackP.isSome := by
  simp [occupied]

theorem occupied_createProcessManager (heap : Nat → ProcessInfo) :
    occupied (createProcessManager heap) = ∅ := by
  ext i; simp [createProcessManager]

theorem occupied_update_some (manager : Manager) {j : Nat} (hj : j < maxProcess) (stack : Addr)
    (pid : Pid) (errFile : Fd) :
    occupied (Function.update manager j ⟨some stack, pid, errFile⟩) = insert j (occupied manager) := by
  ext i
  by_cases h : i = j
  · subst h; simp [hj]
  · simp [h]

theorem occupied_update_none (manager : Manager) (j : Nat) (p : ProcessInfo) (hp : p.stackP = none) :
    occupied (Function.update manager j p) = (occupied manager).erase j := by
  ext i
  by_cases h : i = j
  · subst h; simp [hp]
  · simp [h]

theorem exists_free {manager : Manager} (h : (occupied manager).card < maxProcess) :
    ∃ j, scan maxProcess (fun j => (manager j).stackP.isNone) = some j := by
  cases hs : scan maxProcess (fun j => (manager j).stackP.isNone) with
  | some j => exact ⟨j, rfl⟩
  | none =>
    rw [scan_eq_none] at hs
    have hall : occupied manager = Finset.range maxProcess := by
      ext i
      simp only [mem_occupied, Finset.mem_range, and_iff_left_iff_imp]
      intro hi
      have := hs i hi
      cases hst : (manager i).stackP <;> simp_all
    rw [hall, Finset.card_range] at h
    omega

theorem register_eq {t : ProcessTable} (pid : Pid) (errFile : Fd) (stack : Addr)
    (hnb : t.nbProcess < maxProcess) {j : Nat}
    (hj : scan maxProcess (fun j => (t.manager j).stackP.isNone) = some j) :
    t.register pid errFile stack =
      ⟨Function.update t.manager j ⟨some stack, pid, errFile⟩, t.nbProcess + 1⟩ := by
  simp [ProcessTable.register, managerAddProcess, hnb, hj]

theorem release_eq_of_matched {t : ProcessTable} {pid : Pid} {i : Nat}
    (hi : matchedSlot pid t.manager t.nbProcess = some i) :
    t.release pid =
      some (⟨Function.update t.manager i { t.manager i with stackP := none }, t.nbProcess - 1⟩,
        if (t.manager i).errFile ≠ stdoutFileno then some (t.manager i).errFile else none) := by
  simp only [ProcessTable.release, managerRemoveProcess, hi]

/-- `release` of a pid that is in none of the first `nb_process` slots: the counter goes down and
the slot of the pid, if it has one further up, stays in use. -/
theorem release_eq_of_not_matched {t : ProcessTable} {pid : Pid} (hnb : t.nbProcess ≤ maxProcess)
    (hi : matchedSlot pid t.manager t.nbProcess = none) :
    t.release pid = some (⟨t.manager, t.nbProcess - 1⟩, none) := by
  simp only [ProcessTable.release, managerRemoveProcess, hi, if_pos hnb]

theorem managerAddProcess_eq_one {pid : Pid} {manager : Manager} {errFile : Fd} {stack : Addr}
    {nbProcess : Int} (h : (managerAddProcess pid manager errFile stack nbProcess).1 = 1) :
    ∃ j, scan maxProcess (fun j => (manager j).stackP.isNone) = some j ∧
      (managerAddProcess pid manager errFile stack nbProcess).2 j = ⟨some stack, pid, errFile⟩ := by
  unfold managerAddProcess at h ⊢
  split
  · rename_i hlt
    rw [if_pos hlt] at h
    split
    · rename_i j hj
      exact ⟨j, hj, Function.update_self _ _ _⟩
    · rename_i hnone
      rw [hnone] at h
      cases h
  · rename_i hge
    rw [if_neg hge] at h
    cases h

/-- A refused `register` leaves the slots alone and counts the child all the same. -/
theorem register_eq_of_refused {t : ProcessTable} {pid : Pid} {errFile : Fd} {stack : Addr}
    (h : (managerAddProcess pid t.manager errFile stack t.nbProcess).1 = -1) :
    t.register pid errFile stack = ⟨t.manager, t.nbProcess + 1⟩ := by
  have hkept : (managerAddProcess pid t.manager errFile stack t.nbProcess).2 = t.manager := by
    revert h
    unfold managerAddProcess
    split
    · split
      · intro h; cases h
      · intro; rfl
    · intro; rfl
  simp only [ProcessTable.register, h, hkept]
  rfl

theorem register_occupied {t : ProcessTable} (pid : Pid) (errFile : Fd) (stack : Addr) {i : Nat}
    (hi : (t.manager i).stackP.isSome) :
    (t.register pid errFile stack).manager i = t.manager i := by
  unfold ProcessTable.register managerAddProcess
  split
  · split
    · rename_i j hj
      have hfree := (scan_eq_some.mp hj).1
      have hne : i ≠ j := by
        rintro rfl
        rw [Option.isNone_iff_eq_none.mp hfree] at hi
        cases hi
      exact Function.update_of_ne hne _ _
    · rfl
  · rfl

theorem release_other {t t' : ProcessTable} {pid : Pid} {closed : Option Fd}
    (h : t.release pid = some (t', closed)) {i : Nat} (hi : (t.manager i).childId ≠ pid) :
    t'.manager i = t.manager i := by
  unfold ProcessTable.release managerRemoveProcess at h
  split at h
  · rename_i manager closed' hrm
    simp only [Option.some.injEq, Prod.mk.injEq] at h
    obtain ⟨rfl, -⟩ := h
    split at hrm
    · rename_i j hj
      cases hrm
      have hne : i ≠ j := by
        rintro rfl
        exact hi (matchedSlot_eq_some.mp hj).1
      exact Function.update_of_ne hne _ _
    · split at hrm <;> cases hrm
      rfl
  · cases h

/-- `register` counts the child whether it has recorded it or not. -/
theorem register_nbProcess (t : ProcessTable) (pid : Pid) (errFile : Fd) (stack : Addr) :
    (t.register pid errFile stack).nbProcess = t.nbProcess + 1 := by
  unfold ProcessTable.register managerAddProcess
  split
  · split <;> rfl
  · rfl

theorem release_nbProcess {t t' : ProcessTable} {pid : Pid} {closed : Option Fd}
    (h : t.release pid = some (t', closed)) : t'.nbProcess = t.nbProcess - 1 := by
  unfold ProcessTable.release at h
  split at h
  · cases h; rfl
  · cases h

theorem managerRemoveProcess_isSome {manager : Manager} {size : Int} (h : size ≤ maxProcess) (pid : Pid) :
    (managerRemoveProcess pid manager size).isSome := by
  unfold managerRemoveProcess
  split
  · rfl
  · rw [if_pos h]; rfl

theorem freeManager_isSome {manager : Manager} {size : Int} (h : size ≤ maxProcess) :
    (freeManager manager size).isSome := by
  rw [freeManager, if_pos h]; rfl

end ProcCtrld
