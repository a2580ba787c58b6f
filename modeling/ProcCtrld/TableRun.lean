import ProcCtrld.Lts
import ProcCtrld.ProcessManager

/-!
# ProcCtrld.TableRun

Runs of the process table: launches and terminations in any order, with the kernel's pids (a new
child never has the pid of an unreaped one), at most `MAX_PROCESS` unreaped children at once, and
one SIGCHLD handled for each child that exits.

`Represents` is what the table is for: the occupied slots hold the unreaped children, one slot
each, and `nb_process` counts them. `represents_iff_slot_below` says exactly when the code keeps
it: along a run the table represents the unreaped children if and only if every child that
terminates sits in one of the first `nb_process` slots at that moment. The scan of `release` stops
there, while `register` fills the first free slot of the whole table.

The proof needs `NoStaleBelow`: below the slot of an unreaped child no slot, free or not, still
carries its pid, so that the scan cannot stop at a stale entry.
-/

namespace ProcCtrld

structure TableState where
  table : ProcessTable
  unreaped : List Pid

inductive TableEvent where
  | launch (pid : Pid) (errFile : Fd) (stack : Addr)
  | terminate (pid : Pid)
deriving DecidableEq, Repr

def TableState.init (heap : Nat → ProcessInfo) : TableState := ⟨.init heap, []⟩

def tableStep (s : TableState) : TableEvent → Option TableState
  | .launch pid errFile stack =>
    if pid ∉ s.unreaped ∧ s.unreaped.length < maxProcess then
      some ⟨s.table.register pid errFile stack, pid :: s.unreaped⟩
    else none
  | .terminate pid =>
    if pid ∈ s.unreaped then
      match s.table.release pid with
      | some (table, _) => some ⟨table, s.unreaped.erase pid⟩
      | none => none
    else none

/-- The occupied slots are in bijection with the unreaped children through `child_id`, and
`nb_process` is their number. -/
structure Represents (s : TableState) : Prop where
  slots : Set.BijOn (fun i => (s.table.manager i).childId) (occupied s.table.manager)
    {pid | pid ∈ s.unreaped}
  count : s.table.nbProcess = (occupied s.table.manager).card

/-- Below the slot of an unreaped child no slot carries its pid. -/
def NoStaleBelow (manager : Manager) : Prop :=
  ∀ i j, j ∈ occupied manager → i < j → (manager i).childId ≠ (manager j).childId

/-- The invariant of the runs that keep `Represents`. -/
structure TableInv (s : TableState) : Prop extends Represents s where
  nodup : s.unreaped.Nodup
  noStale : NoStaleBelow s.table.manager

/-- What a step needs: a child that terminates holds a slot below `nb_process`. -/
def SlotBelow (s : TableState) : TableEvent → Prop
  | .launch _ _ _ => True
  | .terminate pid => ∃ i ∈ occupied s.table.manager,
      (s.table.manager i).childId = pid ∧ (i : Int) < s.table.nbProcess

instance (s : TableState) (e : TableEvent) : Decidable (SlotBelow s e) :=
  match e with
  | .launch _ _ _ => isTrue trivial
  | .terminate pid => inferInstanceAs (Decidable (∃ i ∈ occupied s.table.manager,
      (s.table.manager i).childId = pid ∧ (i : Int) < s.table.nbProcess))

theorem tableInv_init (heap : Nat → ProcessInfo) : TableInv (.init heap) := by
  have hocc := occupied_createProcessManager heap
  refine ⟨⟨?_, ?_⟩, List.nodup_nil, ?_⟩
  · simp [TableState.init, ProcessTable.init, hocc, Set.BijOn, Set.MapsTo, Set.InjOn, Set.SurjOn]
  · simp [TableState.init, ProcessTable.init, hocc]
  · intro i j hj
    simp [TableState.init, ProcessTable.init, hocc] at hj

theorem TableInv.card_occupied {s : TableState} (h : TableInv s) :
    (occupied s.table.manager).card = s.unreaped.length := by
  rw [← List.toFinset_card_of_nodup h.nodup]
  refine Finset.card_nbij _ ?_ h.slots.injOn ?_
  · intro i hi; simpa using h.slots.mapsTo hi
  · intro pid hpid; exact h.slots.surjOn (by simpa using hpid)

/-- A slot in use is the only one that carries its pid among the slots up to it. -/
theorem NoStaleBelow.matchedSlot {manager : Manager} (h : NoStaleBelow manager) {i : Nat}
    (hi : i ∈ occupied manager) {size : Int} (hlt : (i : Int) < size) :
    matchedSlot (manager i).childId manager size = some i :=
  matchedSlot_eq_some.mpr ⟨rfl, hlt, (mem_occupied.mp hi).1, fun j hj => h j i hi hj⟩

theorem TableInv.fill {s : TableState} (h : TableInv s) {pid : Pid} (hpid : pid ∉ s.unreaped)
    {j : Nat} (hj : scan maxProcess (fun j => (s.table.manager j).stackP.isNone) = some j)
    (errFile : Fd) (stack : Addr) :
    TableInv ⟨⟨Function.update s.table.manager j ⟨some stack, pid, errFile⟩, s.table.nbProcess + 1⟩,
      pid :: s.unreaped⟩ := by
  obtain ⟨hfree, hjlt, hbefore⟩ := scan_eq_some.mp hj
  have hjocc : j ∉ occupied s.table.manager := by
    rw [mem_occupied, Option.isNone_iff_eq_none.mp hfree]; simp
  have hold : ∀ i, i ∈ occupied s.table.manager →
      (Function.update s.table.manager j ⟨some stack, pid, errFile⟩ i) = s.table.manager i :=
    fun i hi => Function.update_of_ne (show i ≠ j from fun e => hjocc (e ▸ hi)) _ _
  have hne : ∀ i, i ∈ occupied s.table.manager → (s.table.manager i).childId ≠ pid :=
    fun i hi e => hpid (e ▸ h.slots.mapsTo hi)
  have hocc := occupied_update_some s.table.manager hjlt stack pid errFile
  refine ⟨⟨?_, ?_⟩, List.nodup_cons.mpr ⟨hpid, h.nodup⟩, ?_⟩
  · have hid : Set.EqOn (fun i => (s.table.manager i).childId)
        (fun i => (Function.update s.table.manager j ⟨some stack, pid, errFile⟩ i).childId)
        (occupied s.table.manager) := fun i hi => by simp only [hold i hi]
    have hslots := h.slots.congr hid
    have := hslots.insert (a := j) (by simpa using hpid)
    simpa [hocc, Set.insert_def, List.mem_cons] using this
  · simp only [hocc, Finset.card_insert_of_notMem hjocc, h.count]; push_cast; rfl
  · -- the slots below the new one are in use, so they carry other pids
    intro i k hk hik
    simp only [hocc, Finset.mem_insert] at hk
    rcases hk with rfl | hk
    · have hi : i ∈ occupied s.table.manager := by
        have := hbefore i hik
        exact mem_occupied.mpr ⟨by omega, by simpa [Option.isNone_eq_false_iff] using this⟩
      simpa only [Function.update_self, hold i hi] using hne i hi
    · simp only [hold k hk]
      by_cases hij : i = j
      · subst hij; simpa only [Function.update_self] using (hne k hk).symm
      · simpa only [Function.update_of_ne hij] using h.noStale i k hk hik

theorem TableInv.free {s : TableState} (h : TableInv s) {j : Nat}
    (hj : j ∈ occupied s.table.manager) :
    TableInv ⟨⟨Function.update s.table.manager j { s.table.manager j with stackP := none },
      s.table.nbProcess - 1⟩, s.unreaped.erase (s.table.manager j).childId⟩ := by
  have hocc := occupied_update_none s.table.manager j { s.table.manager j with stackP := none } rfl
  have hid : ∀ i, (Function.update s.table.manager j { s.table.manager j with stackP := none } i).childId
      = (s.table.manager i).childId := by
    intro i
    by_cases hij : i = j
    · subst hij; simp
    · simp [hij]
  refine ⟨⟨?_, ?_⟩, h.nodup.erase _, ?_⟩
  · have hrest : ∀ q, q ∈ s.unreaped.erase (s.table.manager j).childId ↔
        q ∈ s.unreaped ∧ q ≠ (s.table.manager j).childId := fun q => by
      rw [h.nodup.mem_erase_iff, and_comm]
    have := h.slots.sdiff_singleton (Finset.mem_coe.mpr hj)
    simpa [hocc, hid, hrest, Set.sdiff_eq, Set.inter_def] using this
  · have hpos : 0 < (occupied s.table.manager).card := Finset.card_pos.mpr ⟨j, hj⟩
    simp only [hocc, Finset.card_erase_of_mem hj, h.count]
    omega
  · intro i k hk hik
    simp only [hocc, Finset.mem_erase] at hk
    simp only [hid]
    exact h.noStale i k hk.2 hik

theorem tableInv_launch {s s' : TableState} {pid : Pid} {errFile : Fd} {stack : Addr}
    (h : TableInv s) (hs : tableStep s (.launch pid errFile stack) = some s') : TableInv s' := by
  simp only [tableStep] at hs
  split at hs
  · rename_i hc
    obtain ⟨hpid, hlen⟩ := hc
    cases hs
    have hcard := h.card_occupied
    have hnb : s.table.nbProcess < maxProcess := by rw [h.count]; omega
    have hfree : (occupied s.table.manager).card < maxProcess := by omega
    obtain ⟨j, hj⟩ := exists_free hfree
    rw [register_eq pid errFile stack hnb hj]
    exact h.fill hpid hj errFile stack
  · cases hs

theorem tableInv_terminate {s s' : TableState} {pid : Pid} (h : TableInv s)
    (hslot : SlotBelow s (.terminate pid)) (hs : tableStep s (.terminate pid) = some s') :
    TableInv s' := by
  obtain ⟨j, hj, rfl, hlt⟩ := hslot
  simp only [tableStep] at hs
  split at hs
  · rw [release_eq_of_matched (h.noStale.matchedSlot hj hlt)] at hs
    cases hs
    exact h.free hj
  · cases hs

theorem tableInv_step {s s' : TableState} {e : TableEvent} (h : TableInv s) (hg : SlotBelow s e)
    (hs : tableStep s e = some s') : TableInv s' := by
  cases e with
  | launch pid errFile stack => exact tableInv_launch h hs
  | terminate pid => exact tableInv_terminate h hg hs

/-- A child whose slot is not below `nb_process` is not found: the counter goes down and its slot
stays in use. -/
theorem not_represents_of_slot_above {s s' : TableState} {e : TableEvent} (h : TableInv s)
    (hg : ¬ SlotBelow s e) (hs : tableStep s e = some s') : ¬ Represents s' := by
  cases e with
  | launch pid errFile stack => exact absurd trivial hg
  | terminate pid =>
    simp only [tableStep] at hs
    split at hs
    · rename_i hpid
      obtain ⟨j, hj, rfl⟩ := h.slots.surjOn hpid
      have hnb : s.table.nbProcess ≤ j := by
        by_contra hlt
        exact hg ⟨j, hj, rfl, by omega⟩
      have hle : s.table.nbProcess ≤ maxProcess := by
        have := (mem_occupied.mp hj).1
        omega
      have hnone : matchedSlot (s.table.manager j).childId s.table.manager s.table.nbProcess = none :=
        matchedSlot_eq_none.mpr fun i hi _ => h.noStale i j hj (by omega)
      rw [release_eq_of_not_matched hle hnone] at hs
      cases hs
      intro hrep
      have h1 := hrep.count
      have h2 := h.count
      simp only at h1
      omega
    · cases hs

/-- Along a run the table represents the unreaped children exactly when every child that terminates
holds a slot below `nb_process`. -/
theorem represents_iff_slot_below (heap : Nat → ProcessInfo) (es : List TableEvent)
    (hrun : (Lts.run tableStep (.init heap) es).isSome) :
    Lts.StatesAll tableStep Represents (.init heap) es ↔
      Lts.StepsAll tableStep SlotBelow (.init heap) es :=
  Lts.forall_states_iff_forall_steps (fun _ h => h.toRepresents)
    (fun _ _ _ h hg hs => tableInv_step h hg hs)
    (fun _ _ _ h hg hs => not_represents_of_slot_above h hg hs) (tableInv_init heap) hrun

/-- Two children, the first one first: it is found in slot 0 and `nb_process` becomes 1, so the
second one, in slot 1, is out of reach of the scan. -/
def twoInLaunchOrder : List TableEvent :=
  [.launch 10 4 100, .launch 11 5 200, .terminate 10, .terminate 11]

/-- The heap of the concrete runs. -/
def zeroHeap : Nat → ProcessInfo := fun _ => ⟨none, 0, 0⟩

theorem two_in_launch_order_not_represented :
    (Lts.run tableStep (.init zeroHeap) twoInLaunchOrder).isSome ∧
      ¬ Lts.StatesAll tableStep Represents (.init zeroHeap) twoInLaunchOrder := by
  obtain ⟨s, hs, hp⟩ := Lts.exists_of_run_map
    (p := fun s => s.table.nbProcess == 0 && (s.table.manager 1).stackP.isSome)
    (show (Lts.run tableStep (.init zeroHeap) twoInLaunchOrder).map _ = some true by decide)
  refine ⟨by rw [hs]; rfl, ?_⟩
  intro hall
  have hcount := (hall.last hs).count
  simp only [Bool.and_eq_true, beq_iff_eq] at hp
  rw [hp.1] at hcount
  have hmem : 1 ∈ occupied s.table.manager := mem_occupied.mpr ⟨by decide, hp.2⟩
  have := Finset.card_pos.mpr ⟨1, hmem⟩
  omega

/-- The same children, the second one first: every state represents them. -/
theorem two_in_reverse_order_represented :
    (Lts.run tableStep (.init zeroHeap)
        [.launch 10 4 100, .launch 11 5 200, .terminate 11, .terminate 10]).isSome ∧
      Lts.StatesAll tableStep Represents (.init zeroHeap)
        [.launch 10 4 100, .launch 11 5 200, .terminate 11, .terminate 10] := by
  have hrun : (Lts.run tableStep (.init zeroHeap)
      [.launch 10 4 100, .launch 11 5 200, .terminate 11, .terminate 10]).isSome := by decide
  exact ⟨hrun, (represents_iff_slot_below zeroHeap _ hrun).mpr
    (Lts.stepsAll_of_guarded_run (by decide))⟩

end ProcCtrld
