import ProcCtrld.TableRun

/-!
# ProcCtrld.FullScan

`manager_add_process` and `manager_remove_process` (`process_manager.c`) for a caller that gives
`manager_remove_process` the whole table to look through: `size` is `MAX_PROCESS`, and `nb_process` is
the number of the pids that are registered.

A freed slot keeps its `child_id`, and a slot that was never used holds any, so the loop of
`manager_remove_process` meets pids that are not registered. It takes the first match. `full_scan_exact`:
after any sequence of calls, every add below capacity succeeds and every remove frees the slot that the
latest add of its pid filled. The invariant is `TableInv`: below the slot of a registered pid no slot
carries that pid, because an add takes the lowest free slot.
-/

namespace ProcCtrld

/-- The table, and the registered pids, each with the slot that its latest add filled. -/
structure Scanned where
  manager : Manager
  registered : List (Pid × Nat)

inductive ManagerCall where
  | add (pid : Pid) (errFile : Fd) (stack : Addr)
  | remove (pid : Pid)
deriving DecidableEq, Repr

/-- The slot that was free and is in use. -/
def newSlot (before after : Manager) : Option Nat :=
  scan maxProcess fun i => (before i).stackP.isNone && (after i).stackP.isSome

namespace Scanned

def init (heap : Nat → ProcessInfo) : Scanned := ⟨createProcessManager heap, []⟩

def pids (s : Scanned) : List Pid := s.registered.map Prod.fst

/-- `manager_add_process`, with the number of registered pids for `nb_process`. -/
def add (s : Scanned) (pid : Pid) (errFile : Fd) (stack : Addr) : Int × Manager :=
  managerAddProcess pid s.manager errFile stack s.registered.length

/-- `manager_remove_process`, over the whole table. -/
def remove (s : Scanned) (pid : Pid) : Option (Manager × Option Fd) :=
  managerRemoveProcess pid s.manager maxProcess

end Scanned

/-- A pid is added when it is not registered, and removed when it is. -/
def managerStep (s : Scanned) : ManagerCall → Option Scanned
  | .add pid errFile stack =>
    if pid ∈ s.pids then none
    else
      let manager := (s.add pid errFile stack).2
      match newSlot s.manager manager with
      | some i => some ⟨manager, (pid, i) :: s.registered⟩
      | none => some ⟨manager, s.registered⟩
  | .remove pid =>
    if pid ∈ s.pids then
      match s.remove pid with
      | some (manager, _) => some ⟨manager, s.registered.filter (·.1 ≠ pid)⟩
      | none => none
    else none

/-- What the next call does. -/
structure ScansExactly (s : Scanned) : Prop where
  adds : ∀ pid errFile stack, pid ∉ s.pids → s.registered.length < maxProcess →
    (s.add pid errFile stack).1 = 1 ∧
      ∃ i < maxProcess, (s.manager i).stackP = none ∧
        (s.add pid errFile stack).2 = Function.update s.manager i ⟨some stack, pid, errFile⟩
  removes : ∀ pid i, (pid, i) ∈ s.registered →
    i < maxProcess ∧ (s.manager i).stackP.isSome ∧ (s.manager i).childId = pid ∧
      ∃ closed, s.remove pid = some (Function.update s.manager i { s.manager i with stackP := none }, closed)

/-! ## The invariant -/

/-- The same table, with the counter and the pids. -/
def Scanned.table (s : Scanned) : TableState := ⟨⟨s.manager, s.registered.length⟩, s.pids⟩

structure ScannedInv (s : Scanned) : Prop where
  table : TableInv s.table
  slots : ∀ pid i, (pid, i) ∈ s.registered → i ∈ occupied s.manager ∧ (s.manager i).childId = pid

section Calls

variable {s s' : Scanned}

theorem scannedInv_init (heap : Nat → ProcessInfo) : ScannedInv (.init heap) := by
  refine ⟨tableInv_init heap, ?_⟩
  intro pid i h
  cases h

theorem ScannedInv.add_eq (h : ScannedInv s) (hlen : s.registered.length < maxProcess) (pid : Pid) (errFile : Fd)
    (stack : Addr) :
    ∃ j, scan maxProcess (fun j => (s.manager j).stackP.isNone) = some j ∧
      s.add pid errFile stack = (1, Function.update s.manager j ⟨some stack, pid, errFile⟩) := by
  have hcard : (occupied s.manager).card = s.registered.length := by
    have := h.table.card_occupied
    simpa [Scanned.table, Scanned.pids] using this
  have hfree : (occupied s.manager).card < maxProcess := by omega
  obtain ⟨j, hj⟩ := exists_free hfree
  have hnb : (s.registered.length : Int) < maxProcess := by exact_mod_cast hlen
  refine ⟨j, hj, ?_⟩
  simp only [Scanned.add, managerAddProcess, if_pos hnb, hj]

theorem Scanned.add_full (hlen : ¬ s.registered.length < maxProcess) (pid : Pid) (errFile : Fd) (stack : Addr) :
    s.add pid errFile stack = (-1, s.manager) := by
  have hnb : ¬ (s.registered.length : Int) < maxProcess := by exact_mod_cast hlen
  simp only [Scanned.add, managerAddProcess, if_neg hnb]

theorem ScannedInv.remove_eq (h : ScannedInv s) {pid : Pid} {i : Nat} (hi : (pid, i) ∈ s.registered) :
    ∃ closed, s.remove pid = some (Function.update s.manager i { s.manager i with stackP := none }, closed) := by
  obtain ⟨hocc, rfl⟩ := h.slots pid i hi
  have hlt : (i : Int) < maxProcess := by
    have := (mem_occupied.mp hocc).1
    omega
  have hmatch := h.table.noStale.matchedSlot hocc hlt
  refine ⟨if (s.manager i).errFile ≠ stdoutFileno then some (s.manager i).errFile else none, ?_⟩
  unfold Scanned.remove managerRemoveProcess
  rw [show matchedSlot (s.manager i).childId s.manager maxProcess = some i from hmatch]

theorem newSlot_fill {manager : Manager} {j : Nat}
    (hj : scan maxProcess (fun j => (manager j).stackP.isNone) = some j) (pid : Pid) (errFile : Fd) (stack : Addr) :
    newSlot manager (Function.update manager j ⟨some stack, pid, errFile⟩) = some j := by
  obtain ⟨hfree, hjlt, hbefore⟩ := scan_eq_some.mp hj
  refine scan_eq_some.mpr ⟨?_, hjlt, ?_⟩
  · simp [hfree]
  · intro i hi
    simp [hbefore i hi]

theorem newSlot_same (manager : Manager) : newSlot manager manager = none := by
  refine scan_eq_none.mpr ?_
  intro i _
  cases (manager i).stackP <;> rfl

theorem scannedInv_add {pid : Pid} {errFile : Fd} {stack : Addr} (h : ScannedInv s)
    (hs : managerStep s (.add pid errFile stack) = some s') : ScannedInv s' := by
  simp only [managerStep] at hs
  split at hs
  · cases hs
  · rename_i hpid
    by_cases hlen : s.registered.length < maxProcess
    · obtain ⟨j, hj, hadd⟩ := h.add_eq hlen pid errFile stack
      simp only [hadd, newSlot_fill hj] at hs
      cases hs
      have hfill := h.table.fill hpid hj errFile stack
      refine ⟨?_, ?_⟩
      · have hcount : ((s.registered.length : Int) + 1) = (s.registered.length + 1 : Nat) := by push_cast; rfl
        simpa only [Scanned.table, Scanned.pids, List.map_cons, List.length_cons, hcount] using hfill
      · intro q i hq
        obtain ⟨hfree, hjlt, -⟩ := scan_eq_some.mp hj
        dsimp only at hq ⊢
        rcases List.mem_cons.mp hq with heq | hq
        · cases heq
          rw [occupied_update_some s.manager hjlt]
          exact ⟨Finset.mem_insert_self _ _, by simp⟩
        · obtain ⟨hocc, hid⟩ := h.slots q i hq
          have hne : i ≠ j := by
            rintro rfl
            have := (mem_occupied.mp hocc).2
            rw [Option.isNone_iff_eq_none.mp hfree] at this
            cases this
          rw [occupied_update_some s.manager hjlt, Function.update_of_ne hne]
          exact ⟨Finset.mem_insert_of_mem hocc, hid⟩
    · simp only [Scanned.add_full hlen, newSlot_same] at hs
      cases hs
      exact h

theorem scannedInv_remove {pid : Pid} (h : ScannedInv s) (hs : managerStep s (.remove pid) = some s') :
    ScannedInv s' := by
  simp only [managerStep] at hs
  split at hs
  · rename_i hpid
    obtain ⟨⟨q, i⟩, hi, rfl⟩ := List.mem_map.mp hpid
    obtain ⟨closed, hremove⟩ := h.remove_eq hi
    obtain ⟨hocc, hid⟩ := h.slots q i hi
    simp only [hremove] at hs
    cases hs
    have hnodup : s.pids.Nodup := h.table.nodup
    have hpids : (s.registered.filter (·.1 ≠ q)).map Prod.fst = s.pids.erase q := by
      rw [hnodup.erase_eq_filter, Scanned.pids, List.filter_map]
      refine congrArg _ (List.filter_congr ?_)
      intro x _
      by_cases hx : x.1 = q <;> simp [hx]
    have hcount : ((s.registered.filter (·.1 ≠ q)).length : Int) = s.registered.length - 1 := by
      have hlen := congrArg List.length hpids
      rw [List.length_map, List.length_erase_of_mem hpid, Scanned.pids, List.length_map] at hlen
      have hpos := List.length_pos_of_mem hi
      omega
    refine ⟨?_, ?_⟩
    · have hfree := h.table.free hocc
      rw [show (s.table.table.manager i).childId = q from hid] at hfree
      simpa only [Scanned.table, Scanned.pids, hpids, hcount, hid] using hfree
    · intro p j hj
      dsimp only at hj ⊢
      obtain ⟨hj, hne⟩ := List.mem_filter.mp hj
      obtain ⟨hoccj, hidj⟩ := h.slots p j hj
      have hij : j ≠ i := by
        rintro rfl
        have : p = q := hidj.symm.trans hid
        simp [this] at hne
      rw [occupied_update_none _ _ _ rfl, Function.update_of_ne hij]
      exact ⟨Finset.mem_erase.mpr ⟨hij, hoccj⟩, hidj⟩
  · cases hs

theorem scannedInv_step {c : ManagerCall} (h : ScannedInv s) (hs : managerStep s c = some s') : ScannedInv s' := by
  cases c with
  | add pid errFile stack => exact scannedInv_add h hs
  | remove pid => exact scannedInv_remove h hs

theorem ScannedInv.exact (h : ScannedInv s) : ScansExactly s where
  adds := by
    intro pid errFile stack _ hlen
    obtain ⟨j, hj, hadd⟩ := h.add_eq hlen pid errFile stack
    obtain ⟨hfree, hjlt, -⟩ := scan_eq_some.mp hj
    rw [hadd]
    exact ⟨rfl, j, hjlt, Option.isNone_iff_eq_none.mp hfree, rfl⟩
  removes := by
    intro pid i hi
    obtain ⟨hocc, hid⟩ := h.slots pid i hi
    obtain ⟨hlt, huse⟩ := mem_occupied.mp hocc
    exact ⟨hlt, huse, hid, h.remove_eq hi⟩

end Calls

/-- For every content of the slots at the start and every sequence of calls. -/
theorem full_scan_exact (heap : Nat → ProcessInfo) {s : Scanned}
    (hr : Lts.Reachable managerStep (.init heap) s) : ScansExactly s := by
  have hinv := hr.invariant (scannedInv_init heap) fun _ _ _ _ h _ hs => scannedInv_step h hs
  exact hinv.exact

/-- The slots hold pid 11 at the start. It is added to slot 1, removed, and added again to slot 0, while
slot 1 and the slots that were never used still carry it. -/
theorem stale_pid_added_again :
    ∃ s, Lts.Reachable managerStep (.init fun _ => ⟨none, 11, 0⟩) s ∧ s.registered = [(11, 0)] ∧
      (s.manager 1).childId = 11 ∧ ScansExactly s := by
  obtain ⟨s, hs, hp⟩ := Lts.exists_of_run_map
    (p := fun s => s.registered == [(11, 0)] && (s.manager 1).childId == 11)
    (show (Lts.run managerStep (.init fun _ => ⟨none, 11, 0⟩)
      [.add 10 4 100, .add 11 5 200, .remove 11, .remove 10, .add 11 6 300]).map _ = some true by decide +kernel)
  simp only [Bool.and_eq_true, beq_iff_eq] at hp
  have hreach := Lts.reachable_of_run hs
  exact ⟨s, hreach, hp.1, hp.2, full_scan_exact _ hreach⟩

end ProcCtrld
