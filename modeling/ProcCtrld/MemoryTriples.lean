import Mathlib.Algebra.BigOperators.Group.Finset.Basic
import ProcCtrld.Memory

/-!
# ProcCtrld.MemoryTriples

One triple for each program of `Memory`: the blocks it owns before and after, and what it leaves behind.

* `Pointers.held`, `Manager.stacks` — the blocks that epoll, the local variables and the process table point to.
* `stacks_register`, `stacks_release` — the process table takes over a stack, and gives it back to be freed.
* `conns_lookup`, `pipes_find` — the `event_data` of an event, taken out of those that epoll keeps.
* `runCommandFails_triple`, `runCommandClones_triple`, `launchReturns_triple`, `execve_triple`,
  `sockClosed_triple`, `handleSIGCHLD_triple` — the cases of `main`.
-/

namespace ProcCtrld

open Blocks (Block Prog Triple Returns)

namespace Memory

variable {P : Multiset (Block Site)}

/-! ## Messages and commands -/

theorem sendToUser_triple :
    Triple P sendToUser (fun b => {⟨b.info, .bufferInfo⟩} + ({⟨b.buffer, .buffer⟩} + P)) 0 := by
  refine Triple.malloc.seq fun info => Triple.malloc.seq fun buffer => ?_
  refine (Triple.pure (a := BufferPtr.mk info buffer) fun b =>
    {⟨b.info, .bufferInfo⟩} + ({⟨b.buffer, .buffer⟩} + P)).of_eq ?_ (fun _ => rfl) rfl
  abel

theorem sendMessage_triple (b : BufferPtr) (sent : Bool) :
    Triple ({⟨b.info, .bufferInfo⟩} + ({⟨b.buffer, .buffer⟩} + P)) (sendMessage b sent) (fun _ => P)
      ↑(answerLost sent) := by
  refine Triple.malloc.seq fun temp => ?_
  refine (Triple.access (k := .bufferInfo) (by simp)).seq fun _ => ?_
  refine (Triple.access (k := .buffer) (by simp)).seq fun _ => ?_
  refine (Triple.free rfl).seq fun _ => ?_
  cases sent with
  | true => exact (Triple.free rfl).forget (X := {⟨b.buffer, Site.buffer⟩}) fun _ => add_comm ..
  | false =>
    refine (Triple.pure (a := ()) fun _ => {⟨b.info, .bufferInfo⟩} + ({⟨b.buffer, .buffer⟩} + P)).forget
      (X := {⟨b.info, .bufferInfo⟩} + {⟨b.buffer, .buffer⟩}) fun _ => ?_
    abel

theorem answer_triple (sent : Bool) : Triple P (answer sent) (fun _ => P) ↑(answerLost sent) :=
  sendToUser_triple.seq fun b => sendMessage_triple b sent

theorem answers_triple (sent : Nat → Bool) (i n : Nat) :
    Triple P (answers sent i n) (fun _ => P) ↑(answersLost sent i n) := by
  induction n generalizing i with
  | zero => exact Triple.pure (a := ()) fun _ => P
  | succ n ih => exact (answer_triple (sent i)).bind fun _ => ih (i + 1)

theorem receiveCommand_triple (com : Command) (listed : Bool) {buffer : Addr} (hb : ⟨buffer, .buffer⟩ ∈ P) :
    Triple P (receiveCommand com listed buffer)
      (fun ptr => {⟨ptr.1.self, .command⟩} + ({⟨ptr.1.path, .string⟩} + ((↑ptr.1.parts : Multiset (Block Site)) + P))) 0 := by
  refine Triple.malloc.seq fun self => ?_
  refine (Triple.access (k := .buffer) (by simp [hb])).seq fun _ => ?_
  refine Triple.malloc.seq fun path => (Triple.mallocs _).seq fun parts => ?_
  refine (Triple.pure (a := ⟨⟨self, path, parts.1⟩, parts.2⟩)
    fun ptr : {ptr : CommandPtr // ptr.parts.map Block.kind = partSites com listed} =>
      {⟨ptr.1.self, .command⟩} + ({⟨ptr.1.path, .string⟩} + ((↑ptr.1.parts : Multiset (Block Site)) + P))).of_eq ?_ (fun _ => rfl) rfl
  abel

theorem addEvent_triple (kind : Site) (added : Bool) :
    Triple P (addEvent kind added) (fun kept => (↑kept : Multiset (Block Site)) + P) 0 := by
  refine Triple.malloc.seq fun edata => ?_
  cases added with
  | true => exact Triple.pureBlocks [⟨edata, kind⟩] rfl
  | false => exact (Triple.free rfl).seq fun _ => Triple.pureBlocks [] (zero_add P).symm

def entryLost (sent : Bool) : Option Surveillance → List Site
  | some _ => answerLost sent
  | none => []

theorem processEntry_triple (sent added : Bool) (entry : Option Surveillance) :
    Triple P (processEntry sent added entry) (fun kept => (↑kept : Multiset (Block Site)) + P) ↑(entryLost sent entry) := by
  have hnone := Triple.pureBlocks (P := P) [] (zero_add P).symm
  rcases entry with - | ⟨-, -, size⟩ | -
  · exact hnone
  · have hkept : Triple P (if 0 < size then addEventInotifyFd added else pure []) (fun kept => (↑kept : Multiset (Block Site)) + P) 0 := by
      split
      · exact addEvent_triple _ added
      · exact hnone
    refine hkept.seq fun kept => ?_
    exact ((answer_triple sent).bind fun _ => Triple.pureBlocks kept rfl).of_eq rfl (fun _ => rfl) (add_zero _).symm
  · exact ((answer_triple sent).bind fun _ => addEvent_triple _ added).of_eq rfl (fun _ => rfl) (add_zero _).symm

theorem processSurveillanceRequests_triple {com : CommandPtr} (os : MemoryOs) (i : Nat)
    (entries : List (Option Surveillance)) (hcom : ⟨com.self, .command⟩ ∈ P) :
    Triple P (processSurveillanceRequests com os i entries) (fun kept => (↑kept : Multiset (Block Site)) + P)
      ↑(entriesLost os.sent i entries) := by
  induction entries generalizing P i with
  | nil =>
    refine (Triple.access hcom).seq fun _ => ?_
    exact Triple.pureBlocks [] (zero_add P).symm
  | cons entry entries ih =>
    have hlost : entriesLost os.sent i (entry :: entries) =
        entryLost (os.sent (i + 1)) entry ++ entriesLost os.sent (i + 1) entries := by
      cases entry <;> rfl
    rw [hlost, ← Multiset.coe_add]
    refine (Triple.access hcom).seq fun _ => (processEntry_triple _ _ entry).bind fun kept => ?_
    refine ((ih (i + 1) (by simp [hcom])).bind fun rest => ?_).of_eq rfl (fun _ => rfl) (add_zero _).symm
    refine Triple.pureBlocks (kept ++ rest) ?_
    rw [← Multiset.coe_add]
    abel

/-! ## Launches -/

theorem launchProcess_triple :
    Triple P launchProcess (fun x => {⟨x.2, .stack⟩} + ({⟨x.1, .infoChild⟩} + P)) 0 := by
  refine Triple.malloc.seq fun info => Triple.malloc.seq fun stack => ?_
  exact Triple.pure (a := (info, stack)) fun x => {⟨x.2, .stack⟩} + ({⟨x.1, .infoChild⟩} + P)

theorem launchProcessFails_triple (call : FailingCall) :
    Triple P (launchProcessFails call) (fun _ => P) 0 := by
  cases call with
  | mallocParameter | mallocInfo => exact Triple.pure (a := ()) fun _ => P
  | mallocStack => exact Triple.malloc.seq fun info => Triple.free rfl
  | clone pipefd =>
    refine launchProcess_triple.seq fun x => ?_
    exact (Triple.free rfl).seq fun _ => Triple.free rfl

/-- A failing launch frees what it has allocated, but for `param` when `p` is NULL. -/
theorem handleCloneEventFails_triple (param : Addr) (call : FailingCall) :
    Triple ({⟨param, .cloneParameters⟩} + P) (handleCloneEventFails param call) (fun _ => P)
      ↑(failureLost call) := by
  have hlate : call ≠ .mallocParameter → Triple ({⟨param, .cloneParameters⟩} + P) (do
      let parameters ← Blocks.malloc .execveParameter
      Blocks.access param
      launchProcessFails call
      Blocks.free param
      Blocks.free parameters) (fun _ => P) 0 := by
    intro _
    refine Triple.malloc.seq fun parameters => ?_
    refine (Triple.access (k := .cloneParameters) (by simp)).seq fun _ => ?_
    refine (launchProcessFails_triple call).seq fun _ => ?_
    exact (Triple.free (add_left_comm ..)).seq fun _ => Triple.free rfl
  cases call with
  | mallocParameter =>
    exact (Triple.pure (a := ()) fun _ => {⟨param, .cloneParameters⟩} + P).forget fun _ => add_comm ..
  | mallocInfo | mallocStack | clone pipefd => exact hlate (by simp)

end Memory

/-! ## Who keeps a pointer to what -/

namespace Memory

def slotBlock (slot : Addr) : Block Site := ⟨slot, .processInfo⟩

def connBlock (c : Fd × Addr) : Block Site := ⟨c.2, .eventData⟩

def stackBlock (stack : Addr) : Block Site := ⟨stack, .stack⟩

end Memory

open Memory

/-- What is there from the start, but for the first inotify instance. -/
def Pointers.fixed (p : Pointers) : Multiset (Block Site) :=
  {⟨p.manager, .manager⟩} + ↑(p.slots.map slotBlock) +
    ({⟨p.socketInfo, .socketInfo⟩} + {⟨p.listener, .eventDataSock⟩} + {⟨p.signalfd, .eventData⟩})

def PipePtr.blocks (x : PipePtr) : Multiset (Block Site) :=
  {⟨x.edata, .eventDataPipeExecve⟩} + {⟨x.path, .string⟩}

def Locals.blocks (l : Locals) : Multiset (Block Site) :=
  {⟨l.com.self, .command⟩} + ({⟨l.com.path, .string⟩} + ((↑l.com.parts : Multiset (Block Site)) +
    ({⟨l.param, .cloneParameters⟩} + ({⟨l.parameters, .execveParameter⟩} +
      ({⟨l.info, .infoChild⟩} + {⟨l.stack, .stack⟩})))))

def Pointers.localBlocks (p : Pointers) : Multiset (Block Site) :=
  match p.locals with
  | some l => l.blocks
  | none => 0

def Pointers.held (p : Pointers) : Multiset (Block Site) :=
  p.fixed + ↑p.kept + ↑(p.conns.map connBlock) + (p.pipes.map PipePtr.blocks).sum + p.localBlocks

def ProcessInfo.stacks (info : ProcessInfo) : Multiset (Block Site) := ↑(info.stackP.toList.map stackBlock)

/-- The stacks in the process table. -/
def Manager.stacks (manager : Manager) : Multiset (Block Site) :=
  ∑ i ∈ Finset.range maxProcess, (manager i).stacks

/-- The blocks that the daemon keeps a pointer to. -/
def Memory.held (t : Memory) : Multiset (Block Site) := t.pointers.held + Manager.stacks t.daemon.table.manager

namespace Memory

section Table

variable {manager : Manager} {t t' : ProcessTable} {p : Pointers} {P X : Multiset (Block Site)} {pid : Pid}

theorem stacks_update (manager : Manager) {j : Nat} (hj : j < maxProcess) (info : ProcessInfo) :
    Manager.stacks (Function.update manager j info) + (manager j).stacks =
      info.stacks + Manager.stacks manager := by
  have hmem : j ∈ Finset.range maxProcess := Finset.mem_range.mpr hj
  have hrest : ∑ i ∈ (Finset.range maxProcess).erase j, (Function.update manager j info i).stacks =
      ∑ i ∈ (Finset.range maxProcess).erase j, (manager i).stacks := by
    refine Finset.sum_congr rfl fun i hi => ?_
    rw [Function.update_of_ne (Finset.ne_of_mem_erase hi)]
  unfold Manager.stacks
  rw [← Finset.add_sum_erase _ _ hmem, hrest, Function.update_self, ← Finset.add_sum_erase _ (fun i => (manager i).stacks) hmem]
  abel

/-- The stack of a new child is in the table, unless the table has no slot for it. -/
theorem stacks_register (pid : Pid) (errFile : Fd) (stack : Addr) :
    Manager.stacks (t.register pid errFile stack).manager =
      (if t.nextSlot.isSome then {stackBlock stack} else 0) + Manager.stacks t.manager := by
  rw [register_manager]
  cases hnext : t.nextSlot with
  | none => simp
  | some j =>
    have hscan : scan maxProcess (fun j => (t.manager j).stackP.isNone) = some j := by
      unfold ProcessTable.nextSlot at hnext
      split at hnext
      · exact hnext
      · cases hnext
    obtain ⟨hfree, hj, -⟩ := scan_eq_some.mp hscan
    have hnone : (t.manager j).stacks = 0 := by
      rw [ProcessInfo.stacks, Option.isNone_iff_eq_none.mp hfree]
      rfl
    have hupd := stacks_update t.manager hj ⟨some stack, pid, errFile⟩
    rw [hnone, add_zero] at hupd
    exact hupd

theorem stacks_release {closed : Option Fd} (h : t.release pid = some (t', closed)) :
    Manager.stacks t.manager = ↑((stackMatched t pid).toList.map stackBlock) + Manager.stacks t'.manager := by
  cases hmatch : matchedSlot pid t.manager t.nbProcess with
  | none =>
    have hsame : t'.manager = t.manager := by
      simp only [ProcessTable.release, ProcCtrld.managerRemoveProcess, hmatch] at h
      split at h
      · rename_i heq
        split at heq <;> cases heq
        cases h
        rfl
      · cases h
    rw [stackMatched, hmatch, hsame]
    exact (zero_add _).symm
  | some i =>
    rw [release_eq_of_matched hmatch] at h
    cases h
    obtain ⟨-, -, hi, -⟩ := matchedSlot_eq_some.mp hmatch
    have hupd := stacks_update t.manager hi { t.manager i with stackP := none }
    rw [stackMatched, hmatch]
    rw [add_comm] at hupd
    exact (hupd.trans (zero_add _)).symm

theorem fixed_slot {slot : Addr} (h : slot ∈ p.slots) : ⟨slot, .processInfo⟩ ∈ p.fixed := by
  simp only [Pointers.fixed, Multiset.mem_add, Multiset.mem_coe]
  exact .inl (.inr (List.mem_map_of_mem h))

theorem managerAddProcess_triple (h : p.fixed ≤ P) :
    Triple P (managerAddProcess p t) (fun _ => P) 0 := by
  refine (Triple.access (k := .manager) (Multiset.mem_of_le h (by simp [Pointers.fixed]))).seq fun _ => ?_
  exact Triple.accesses fun slot hslot => Multiset.mem_of_le h (fixed_slot (List.mem_of_mem_take hslot))

theorem managerRemoveProcess_triple (h : p.fixed ≤ P)
    (hP : P = ↑((stackMatched t pid).toList.map stackBlock) + X) :
    Triple P (managerRemoveProcess p t pid) (fun _ => X) 0 := by
  refine (Triple.access (k := .manager) (Multiset.mem_of_le h (by simp [Pointers.fixed]))).seq fun _ => ?_
  refine (Triple.accesses fun slot hslot =>
    Multiset.mem_of_le h (fixed_slot (List.mem_of_mem_take hslot))).seq fun _ => ?_
  exact Triple.freeNullable hP

end Table

end Memory

/-! ## The cases of `main` -/

namespace Memory

section Cases

variable {p : Pointers} {P X : Multiset (Block Site)} {fd : Fd} {edata : Addr}

theorem conns_lookup {conns : List (Fd × Addr)} (h : fd ∈ conns.map Prod.fst) :
    ∃ edata, conns.lookup fd = some edata ∧
      (↑(conns.map connBlock) : Multiset (Block Site)) =
        {⟨edata, .eventData⟩} + ↑((conns.eraseP fun x => x.1 = fd).map connBlock) ∧
      (conns.eraseP fun x => x.1 = fd).map Prod.fst = (conns.map Prod.fst).erase fd := by
  induction conns with
  | nil => cases h
  | cons c conns ih =>
    obtain ⟨fd', edata'⟩ := c
    by_cases heq : fd' = fd
    · subst heq
      refine ⟨edata', List.lookup_cons_self, ?_, by simp⟩
      simp only [decide_true, List.eraseP_cons_of_pos]
      rfl
    · have hmem : fd ∈ conns.map Prod.fst := List.mem_of_ne_of_mem (Ne.symm heq) h
      obtain ⟨edata, hlookup, hblocks, hfds⟩ := ih hmem
      refine ⟨edata, by rw [List.lookup_cons, beq_false_of_ne (Ne.symm heq)]; exact hlookup, ?_, ?_⟩
      · rw [List.eraseP_cons_of_neg (by simpa using heq), List.map_cons, List.map_cons, ← Multiset.cons_coe,
          ← Multiset.cons_coe, hblocks, ← Multiset.singleton_add, ← Multiset.singleton_add]
        abel
      · rw [List.eraseP_cons_of_neg (by simpa using heq), List.map_cons, List.map_cons, hfds,
          List.erase_cons_tail (by simpa using heq)]

theorem pipes_find {pipes : List PipePtr} {k : Nat} (hd : (pipes.map PipePtr.launch).Nodup)
    (h : k ∈ pipes.map PipePtr.launch) :
    ∃ x, pipes.find? (fun x => x.launch = k) = some x ∧
      (pipes.map PipePtr.blocks).sum = x.blocks + ((pipes.filter fun x => x.launch ≠ k).map PipePtr.blocks).sum := by
  induction pipes with
  | nil => cases h
  | cons y pipes ih =>
    rw [List.map_cons, List.nodup_cons] at hd
    by_cases heq : y.launch = k
    · subst heq
      have hrest : pipes.filter (fun x => x.launch ≠ y.launch) = pipes := by
        refine List.filter_eq_self.mpr fun x hx => ?_
        have hne : x.launch ≠ y.launch := fun he => hd.1 (he ▸ List.mem_map_of_mem hx)
        simpa using hne
      refine ⟨y, by simp, ?_⟩
      rw [List.filter_cons_of_neg (by simp), hrest, List.map_cons, List.sum_cons]
    · have hmem : k ∈ pipes.map PipePtr.launch := List.mem_of_ne_of_mem (Ne.symm heq) h
      obtain ⟨x, hfind, hsum⟩ := ih hd.2 hmem
      refine ⟨x, by simpa [heq] using hfind, ?_⟩
      rw [List.filter_cons_of_pos (by simpa using heq), List.map_cons, List.map_cons, List.sum_cons, List.sum_cons, hsum]
      abel

theorem sockMessage_triple (hconn : p.conns.lookup fd = some edata) (hmem : ⟨edata, .eventData⟩ ∈ P) :
    Triple P (sockMessage p fd) (fun b => {⟨b.info, .bufferInfo⟩} + ({⟨b.buffer, .buffer⟩} + P)) 0 := by
  unfold sockMessage known
  rw [hconn]
  simp only [pure_bind]
  refine (Triple.access hmem).seq fun _ => ?_
  have hread : Triple P readSocketMessage
      (fun b => {⟨b.info, .bufferInfo⟩} + ({⟨b.buffer, .buffer⟩} + P)) 0 := sendToUser_triple
  refine hread.seq fun b => ?_
  refine (Triple.access (k := .bufferInfo) (by simp)).seq fun _ => ?_
  exact Triple.pure (a := b) fun b => {⟨b.info, .bufferInfo⟩} + ({⟨b.buffer, .buffer⟩} + P)

theorem forgetRead {α : Type} {m : Prog Site α} {R : α → Multiset (Block Site)} {L : Multiset Site} {b : BufferPtr}
    (h : Triple ({⟨b.info, .bufferInfo⟩} + ({⟨b.buffer, .buffer⟩} + P)) m
      (fun a => {⟨b.info, .bufferInfo⟩} + ({⟨b.buffer, .buffer⟩} + R a)) L) :
    Triple ({⟨b.info, .bufferInfo⟩} + ({⟨b.buffer, .buffer⟩} + P)) m R (↑readLost + L) := by
  refine (h.forget (U := R) (X := {⟨b.info, .bufferInfo⟩} + {⟨b.buffer, .buffer⟩}) fun _ => by abel).of_eq rfl
    (fun _ => rfl) ?_
  rw [add_comm]
  rfl

theorem held_kept (kept : List (Block Site)) :
    Pointers.held { p with kept := p.kept ++ kept } = ↑kept + p.held := by
  simp only [Pointers.held, Pointers.fixed, Pointers.localBlocks, ← Multiset.coe_add]
  abel

theorem extractCloneParameters_triple {com : CommandPtr} (hcom : ⟨com.self, .command⟩ ∈ P) :
    Triple P (extractCloneParameters com) (fun param => {⟨param, .cloneParameters⟩} + P) 0 :=
  (Triple.access hcom).seq fun _ => Triple.malloc

theorem processCommandRequestFails_triple {com : CommandPtr} (call : Option FailingCall)
    (hcom : ⟨com.self, .command⟩ ∈ P) :
    Triple P (processCommandRequestFails com call) (fun _ => P) ↑((call.map failureLost).getD []) := by
  cases call with
  | none => exact Triple.access hcom
  | some call => exact (extractCloneParameters_triple hcom).seq fun param => handleCloneEventFails_triple param call

theorem runCommandFails_triple (com : Command) (os : MemoryOs) (call : Option FailingCall)
    (hconn : p.conns.lookup fd = some edata) (hmem : ⟨edata, .eventData⟩ ∈ p.held) :
    Triple (p.held + X) (runCommandFails p fd com os call) (fun p' => p'.held + X)
      (↑readLost + (↑((call.map failureLost).getD []) + ↑(requestLost com os))) := by
  refine (sockMessage_triple hconn (Multiset.mem_add.mpr (.inl hmem))).seq fun b => ?_
  refine forgetRead ((receiveCommand_triple com os.listed (by simp)).seq fun ptr => ?_)
  obtain ⟨ptr, hptr⟩ := ptr
  refine (processCommandRequestFails_triple call (by simp)).bind fun _ => ?_
  have hrest : ∀ kept : List (Block Site), Triple
      ((↑kept : Multiset (Block Site)) + ({⟨ptr.self, .command⟩} + ({⟨ptr.path, .string⟩} + ((↑ptr.parts : Multiset (Block Site)) +
        ({⟨b.info, .bufferInfo⟩} + ({⟨b.buffer, .buffer⟩} + (p.held + X)))))))
      (do
        Blocks.free ptr.self
        return { p with kept := p.kept ++ kept })
      (fun p' => {⟨b.info, .bufferInfo⟩} + ({⟨b.buffer, .buffer⟩} + (p'.held + X)))
      ↑(.string :: partSites com os.listed) := by
    intro kept
    refine (Triple.free (add_left_comm ..)).seq fun _ => ?_
    refine ((Triple.pure fun p' : Pointers => p'.held + ({⟨b.info, .bufferInfo⟩} + ({⟨b.buffer, .buffer⟩} + X) +
      ({⟨ptr.path, .string⟩} + (↑ptr.parts : Multiset (Block Site))))).of_eq ?_ (fun _ => rfl) rfl).forget
      (X := {⟨ptr.path, .string⟩} + (↑ptr.parts : Multiset (Block Site))) (fun _ => ?_) |>.of_eq rfl (fun _ => rfl) ?_
    · rw [held_kept]
      abel
    · abel
    · rw [zero_add, Multiset.map_add, Multiset.map_coe, hptr]
      rfl
  refine ((answer_triple _).bind fun _ => (processSurveillanceRequests_triple os 0 com.toWatch (by simp)).bind hrest).of_eq
    rfl (fun _ => rfl) ?_
  simp only [requestLost, ← Multiset.coe_add, ← Multiset.cons_coe, ← Multiset.singleton_add]
  abel

theorem runCommandClones_triple (com : Command) (os : MemoryOs) (hlocals : p.locals = none)
    (hconn : p.conns.lookup fd = some edata) (hmem : ⟨edata, .eventData⟩ ∈ p.held) :
    Triple (p.held + X) (runCommandClones p fd com os) (fun p' => p'.held + X) (↑readLost + 0) := by
  refine (sockMessage_triple hconn (Multiset.mem_add.mpr (.inl hmem))).seq fun b => ?_
  refine forgetRead ((receiveCommand_triple com os.listed (by simp)).seq fun ptr => ?_)
  obtain ⟨ptr, -⟩ := ptr
  refine (extractCloneParameters_triple (by simp)).seq fun param => Triple.malloc.seq fun parameters => ?_
  refine (Triple.access (k := .cloneParameters) (by simp)).seq fun _ => launchProcess_triple.seq fun x => ?_
  refine (Triple.pure fun p' : Pointers => {⟨b.info, .bufferInfo⟩} + ({⟨b.buffer, .buffer⟩} + (p'.held + X))).of_eq ?_
    (fun _ => rfl) rfl
  simp only [Pointers.held, Pointers.fixed, Pointers.localBlocks, Locals.blocks, hlocals]
  abel

theorem execve_triple {e : PipeExecve} (os : MemoryOs) (hd : (p.pipes.map PipePtr.launch).Nodup)
    (he : e.launch ∈ p.pipes.map PipePtr.launch) :
    Triple (p.held + X) (execve p e os) (fun p' => p'.held + X) ↑(Site.string :: answerLost (os.sent 0)) := by
  obtain ⟨x, hfind, hsum⟩ := pipes_find hd he
  unfold execve known
  rw [hfind]
  simp only [pure_bind]
  have hedata : ⟨x.edata, .eventDataPipeExecve⟩ ∈ p.held + X := by simp [Pointers.held, hsum, PipePtr.blocks]
  have hpath : ⟨x.path, .string⟩ ∈ p.held + X := by simp [Pointers.held, hsum, PipePtr.blocks]
  refine (Triple.access hedata).seq fun _ => (Triple.access hpath).seq fun _ => ?_
  refine ((answer_triple (os.sent 0)).bind (N := {Site.string}) fun _ => ?_).of_eq rfl (fun _ => rfl) ?_
  · refine (Triple.access hedata).seq fun _ => ?_
    refine (Triple.free (k := .eventDataPipeExecve) (X := {⟨x.path, .string⟩} +
      (Pointers.held { p with pipes := p.pipes.filter fun x => x.launch ≠ e.launch } + X)) ?_).seq fun _ => ?_
    · simp only [Pointers.held, Pointers.fixed, Pointers.localBlocks, hsum, PipePtr.blocks]
      abel
    · refine (Triple.pure fun p' : Pointers => {⟨x.path, .string⟩} + (p'.held + X)).forget (X := {⟨x.path, .string⟩})
        fun _ => add_comm ..
  · rw [← Multiset.cons_coe, ← Multiset.singleton_add, add_comm]

theorem sockClosed_triple (h : fd ∈ p.conns.map Prod.fst) :
    Triple (p.held + X) (sockClosed p fd) (fun p' => p'.held + X) (↑readLost + 0) := by
  obtain ⟨edata, hlookup, hblocks, -⟩ := conns_lookup h
  have hmem : ⟨edata, .eventData⟩ ∈ p.held + X := by simp [Pointers.held, hblocks]
  refine (sockMessage_triple hlookup hmem).seq fun b => forgetRead ?_
  unfold known
  rw [hlookup]
  simp only [pure_bind]
  refine (Triple.access (k := .eventData) (by simp [hmem])).seq fun _ => ?_
  refine (Triple.free (k := .eventData) (X := {⟨b.info, .bufferInfo⟩} + ({⟨b.buffer, .buffer⟩} +
    (Pointers.held { p with conns := p.conns.eraseP fun x => x.1 = fd } + X))) ?_).seq fun _ => ?_
  · simp only [Pointers.held, Pointers.fixed, Pointers.localBlocks, hblocks]
    abel
  · exact Triple.pure fun p' : Pointers => {⟨b.info, .bufferInfo⟩} + ({⟨b.buffer, .buffer⟩} + (p'.held + X))

/-- A message that is read, and the rest of its case does nothing to the heap but read the message. -/
theorem readMessage_triple (hconn : p.conns.lookup fd = some edata) (hmem : ⟨edata, .eventData⟩ ∈ p.held) :
    Triple (p.held + X) (do
      let info ← sockMessage p fd
      Blocks.access info.buffer
      return p) (fun p' => p'.held + X) (↑readLost + 0) := by
  refine (sockMessage_triple hconn (Multiset.mem_add.mpr (.inl hmem))).seq fun b => forgetRead ?_
  refine (Triple.access (k := .buffer) (by simp)).seq fun _ => ?_
  exact Triple.pure fun p' : Pointers => {⟨b.info, .bufferInfo⟩} + ({⟨b.buffer, .buffer⟩} + (p'.held + X))

theorem sockConnexion_triple (os : MemoryOs) :
    Triple (p.held + X) (sockConnexion p fd os) (fun p' => p'.held + X)
      ↑(Site.epollEvent :: answerLost (os.sent 0)) := by
  refine (Triple.access (k := .eventDataSock) (by simp [Pointers.held, Pointers.fixed])).seq fun _ => ?_
  refine (Triple.access (k := .socketInfo) (by simp [Pointers.held, Pointers.fixed])).seq fun _ => ?_
  refine Triple.malloc.seq fun ev => Triple.malloc.seq fun edata => ?_
  refine ((answer_triple (os.sent 0)).bind (N := {Site.epollEvent}) fun _ => ?_).of_eq rfl (fun _ => rfl) ?_
  · refine ((Triple.pure fun p' : Pointers => p'.held + X + {⟨ev, .epollEvent⟩}).of_eq ?_ (fun _ => rfl) rfl).forget
      (X := {⟨ev, .epollEvent⟩}) fun _ => rfl
    simp only [Pointers.held, Pointers.fixed, Pointers.localBlocks, List.map_cons, ← Multiset.cons_coe,
      ← Multiset.singleton_add, connBlock]
    abel
  · rw [← Multiset.cons_coe, ← Multiset.singleton_add, add_comm]

theorem inotify_triple (updates : List InotifyPathUpdated) (os : MemoryOs)
    (hwatch : p.kept[os.watch]?.map Block.kind = some .eventDataInotifySize) :
    Triple (p.held + X) (inotify p updates os) (fun p' => p'.held + X) ↑(answersLost os.sent 0 updates.length) := by
  obtain ⟨b, hb, -⟩ := Option.map_eq_some_iff.mp hwatch
  unfold inotify known
  rw [hb]
  simp only [pure_bind]
  have hmem : b ∈ p.held + X := by simp [Pointers.held, List.mem_of_getElem? hb]
  refine (Triple.access hmem).seq fun _ => ?_
  exact ((answers_triple _ _ _).bind fun _ => Triple.pure fun p' : Pointers => p'.held + X).of_eq rfl (fun _ => rfl)
    (add_zero _).symm

theorem handleSIGCHLD_quiet {s : State} {pid : Pid} {garbage : Nat} (os : MemoryOs)
    (h : s.terminated pid garbage = none) :
    Triple P (handleSIGCHLD p s pid garbage os) (fun _ => P) ↑(reportLost s pid garbage os) := by
  simp only [handleSIGCHLD, reportLost, h, Option.isSome_none, Bool.false_eq_true, if_false]
  exact Triple.pure (a := ()) fun _ => P

theorem handleSIGCHLD_triple {s : State} {pid : Pid} {garbage : Nat} (os : MemoryOs) (hfixed : p.fixed ≤ P)
    (h : (s.terminated pid garbage).isSome = true)
    (hP : P = ↑((stackMatched s.table pid).toList.map stackBlock) + X) :
    Triple P (handleSIGCHLD p s pid garbage os) (fun _ => X) ↑(reportLost s pid garbage os) := by
  simp only [handleSIGCHLD, reportLost, h, if_true]
  exact (managerRemoveProcess_triple hfixed hP).seq fun _ => answer_triple _

theorem freeSlots_triple (manager : Manager) (i : Nat) (slots : List Addr) :
    Triple ((↑(slots.map slotBlock) : Multiset (Block Site)) +
        (∑ j ∈ Finset.range slots.length, (manager (i + j)).stacks) + P)
      (freeSlots manager i slots) (fun _ => P) 0 := by
  induction slots generalizing i with
  | nil => exact (Triple.pure (a := ()) fun _ => P).of_eq (by simp) (fun _ => rfl) rfl
  | cons slot slots ih =>
    have hshift : ∑ j ∈ Finset.range slots.length, (manager (i + (j + 1))).stacks =
        ∑ j ∈ Finset.range slots.length, (manager (i + 1 + j)).stacks :=
      Finset.sum_congr rfl fun j _ => by rw [Nat.add_comm j 1, Nat.add_assoc]
    refine (Triple.access (k := .processInfo) ?_).seq fun _ => ?_
    · simp [slotBlock]
    refine (Triple.freeNullable (k := .stack) (X := {⟨slot, Site.processInfo⟩} + ((↑(slots.map slotBlock) : Multiset (Block Site)) +
      (∑ j ∈ Finset.range slots.length, (manager (i + 1 + j)).stacks) + P)) ?_).seq fun _ => ?_
    · have hstack : (manager i).stacks =
          ↑((manager i).stackP.toList.map fun stack => (⟨stack, .stack⟩ : Block Site)) := rfl
      rw [List.length_cons, Finset.sum_range_succ', hshift, List.map_cons, ← Multiset.cons_coe,
        ← Multiset.singleton_add, Nat.add_zero i, hstack, slotBlock]
      abel
    · exact (Triple.free rfl).seq fun _ => ih (i + 1)

/-- `free_manager` frees the slots below `nb_process` with their stacks, and the table; the rest stays. -/
theorem freeManager_triple {t : ProcessTable} (hslots : p.slots.length = maxProcess)
    (hnb : t.nbProcess ≤ maxProcess) :
    ∃ Y, Triple (p.held + Manager.stacks t.manager + X) (freeManager p t) (fun _ => Y + X) 0 := by
  obtain ⟨n, hn⟩ : ∃ n, t.nbProcess.toNat = n := ⟨_, rfl⟩
  have hle : n ≤ maxProcess := by omega
  have hlen : (p.slots.take n).length = n := by rw [List.length_take, hslots]; omega
  have hsplit : Manager.stacks t.manager = (∑ j ∈ Finset.range n, (t.manager (0 + j)).stacks) +
      ∑ j ∈ Finset.range (maxProcess - n), (t.manager (n + j)).stacks := by
    have hsum := Finset.sum_range_add (fun j => (t.manager j).stacks) n (maxProcess - n)
    rw [Nat.add_sub_cancel' hle] at hsum
    simpa only [Manager.stacks, Nat.zero_add] using hsum
  have hslotsSplit : (↑(p.slots.map slotBlock) : Multiset (Block Site)) =
      ↑((p.slots.take n).map slotBlock) + ↑((p.slots.drop n).map slotBlock) := by
    rw [Multiset.coe_add, ← List.map_append, List.take_append_drop]
  obtain ⟨Y, hY⟩ : ∃ Y : Multiset (Block Site), Y = ↑((p.slots.drop n).map slotBlock) +
      (∑ j ∈ Finset.range (maxProcess - n), (t.manager (n + j)).stacks) +
      ({⟨p.socketInfo, .socketInfo⟩} + {⟨p.listener, .eventDataSock⟩} + {⟨p.signalfd, .eventData⟩}) + ↑p.kept +
      ↑(p.conns.map connBlock) + (p.pipes.map PipePtr.blocks).sum + p.localBlocks := ⟨_, rfl⟩
  refine ⟨Y, (Triple.access (k := .manager) (by simp [Pointers.held, Pointers.fixed])).seq fun _ => ?_⟩
  have hfree := freeSlots_triple (P := {⟨p.manager, .manager⟩} + (Y + X)) t.manager 0 (p.slots.take n)
  rw [hlen] at hfree
  rw [hn]
  refine (hfree.of_eq ?_ (fun _ => rfl) rfl).seq fun _ => ?_
  · rw [hY]
    simp only [Pointers.held, Pointers.fixed, hsplit, hslotsSplit]
    abel
  · rw [if_pos (by rw [hslots]; exact hnb)]
    exact Triple.free rfl

/-- The end of the RUN_COMMAND case. Of `edata` and the path, `Y` is left. -/
theorem launchEnd_triple {lg : Launching} {l : Locals} {os : MemoryOs} {Y B : Multiset (Block Site)}
    (edata : List (Block Site))
    (hY : (↑edata : Multiset (Block Site)) + {⟨l.com.path, .string⟩} =
      ((edata.map fun b => PipePtr.mk lg.launch b.addr l.com.path).map PipePtr.blocks).sum + Y)
    (hB : B = Pointers.held { p with locals := none }) :
    Triple ((↑edata : Multiset (Block Site)) + ({⟨l.com.self, .command⟩} + ({⟨l.com.path, .string⟩} +
        ((↑l.com.parts : Multiset (Block Site)) + ({⟨l.info, .infoChild⟩} + (B + X))))))
      (do
        Blocks.free l.info
        let kept ← processSurveillanceRequests l.com os 0 lg.toWatch
        Blocks.free l.com.self
        return { p with
          kept := p.kept ++ kept
          pipes := p.pipes ++ edata.map fun b : Block Site => PipePtr.mk lg.launch b.addr l.com.path
          locals := none })
      (fun p' => p'.held + X)
      (↑(entriesLost os.sent 0 lg.toWatch) + (↑(l.com.parts.map Block.kind) + Y.map Block.kind)) := by
  refine (Triple.free (k := .infoChild) (X := (↑edata : Multiset (Block Site)) + ({⟨l.com.self, .command⟩} +
    ({⟨l.com.path, .string⟩} + ((↑l.com.parts : Multiset (Block Site)) + (B + X))))) (by abel)).seq fun _ => ?_
  refine (processSurveillanceRequests_triple os 0 lg.toWatch (by simp)).bind fun kept => ?_
  refine (Triple.free (k := .command) (X := (↑kept : Multiset (Block Site)) + ((↑edata : Multiset (Block Site)) +
    {⟨l.com.path, .string⟩}) + ((↑l.com.parts : Multiset (Block Site)) + (B + X))) (by abel)).seq fun _ => ?_
  refine ((Triple.pure fun p' : Pointers => p'.held + X + ((↑l.com.parts : Multiset (Block Site)) + Y)).of_eq ?_
    (fun _ => rfl) rfl).forget (U := fun p' => p'.held + X) (X := (↑l.com.parts : Multiset (Block Site)) + Y)
    (fun _ => rfl) |>.of_eq rfl (fun _ => rfl) ?_
  · rw [hY, hB]
    simp only [Pointers.held, Pointers.fixed, Pointers.localBlocks, List.map_append, List.sum_append,
      ← Multiset.coe_add]
    abel
  · rw [Multiset.map_add, Multiset.map_coe, zero_add]

theorem launchReturns_triple {s : State} {lg : Launching} {l : Locals} (epollAdd : Bool) (os : MemoryOs)
    (hl : p.locals = some l) (hstack : l.stack = lg.stack) :
    Triple (p.held + Manager.stacks s.table.manager) (launchReturns p s lg epollAdd os)
      (fun p' => p'.held + Manager.stacks (s.table.register lg.pid lg.errFile lg.stack).manager)
      ↑(launchLost s lg l epollAdd os) := by
  obtain ⟨B, hB⟩ : ∃ B, B = Pointers.held { p with locals := none } := ⟨_, rfl⟩
  obtain ⟨T, hT⟩ : ∃ T, T = Manager.stacks (s.table.register lg.pid lg.errFile lg.stack).manager := ⟨_, rfl⟩
  obtain ⟨Z, hZ⟩ : ∃ Z : Multiset (Block Site), Z = if s.table.nextSlot.isSome then 0 else {⟨l.stack, .stack⟩} :=
    ⟨_, rfl⟩
  have htable : {⟨l.stack, .stack⟩} + Manager.stacks s.table.manager = T + Z := by
    rw [hT, stacks_register, hZ, hstack, stackBlock]
    split
    · rw [add_zero]
    · rw [zero_add, add_comm]
  have hZkind : Z.map Block.kind = ↑(if s.table.nextSlot.isSome then [] else [Site.stack]) := by
    rw [hZ]
    split <;> rfl
  have hheld : p.held + Manager.stacks s.table.manager = {⟨l.com.self, .command⟩} + ({⟨l.com.path, .string⟩} +
      ((↑l.com.parts : Multiset (Block Site)) + ({⟨l.param, .cloneParameters⟩} +
        ({⟨l.parameters, .execveParameter⟩} + ({⟨l.info, .infoChild⟩} + (B + (T + Z))))))) := by
    rw [← htable, hB]
    simp only [Pointers.held, Pointers.fixed, Pointers.localBlocks, Locals.blocks, hl]
    abel
  have hfixed : p.fixed ≤ {⟨l.com.self, .command⟩} + ({⟨l.com.path, .string⟩} +
      ((↑l.com.parts : Multiset (Block Site)) + ({⟨l.info, .infoChild⟩} + (B + (T + Z))))) := by
    have hB' : p.fixed ≤ B := by
      rw [hB]
      simp only [Pointers.held, add_assoc]
      exact Multiset.le_add_right ..
    refine hB'.trans ((Multiset.le_add_right B (T + Z)).trans ?_)
    exact (Multiset.le_add_left ..).trans ((Multiset.le_add_left ..).trans ((Multiset.le_add_left ..).trans
      (Multiset.le_add_left ..)))
  rw [hheld, ← hT]
  unfold launchReturns known
  rw [hl]
  simp only [pure_bind]
  refine (Triple.access (k := .infoChild) (by simp)).seq fun _ => ?_
  refine (Triple.free (k := .cloneParameters) (X := {⟨l.com.self, Site.command⟩} + ({⟨l.com.path, .string⟩} +
    ((↑l.com.parts : Multiset (Block Site)) + ({⟨l.parameters, .execveParameter⟩} + ({⟨l.info, .infoChild⟩} +
      (B + (T + Z))))))) (by abel)).seq fun _ => ?_
  refine (Triple.free (k := .execveParameter) (X := {⟨l.com.self, Site.command⟩} + ({⟨l.com.path, .string⟩} +
    ((↑l.com.parts : Multiset (Block Site)) + ({⟨l.info, .infoChild⟩} + (B + (T + Z)))))) (by abel)).seq fun _ => ?_
  refine (Triple.access (k := .infoChild) (by simp)).seq fun _ => (managerAddProcess_triple hfixed).seq fun _ => ?_
  have hlost : (↑(launchLost s lg l epollAdd os) : Multiset Site) = ↑(answerLost (os.sent 0)) +
      (↑(entriesLost os.sent 0 lg.toWatch) + (↑(l.com.parts.map Block.kind) +
        ↑(if epollAdd then [] else [Site.string])) + Z.map Block.kind) := by
    rw [hZkind]
    simp only [launchLost, ← Multiset.coe_add]
    abel
  rw [hlost]
  refine (answer_triple (os.sent 0)).bind fun _ => ?_
  cases epollAdd with
  | true =>
    have hadd : addEventPipeExecve true =
        Blocks.malloc .eventDataPipeExecve >>= fun a => pure [⟨a, .eventDataPipeExecve⟩] := rfl
    rw [hadd]
    simp only [bind_assoc, pure_bind]
    refine Triple.malloc.seq fun a => ?_
    refine ((launchEnd_triple (p := p) (l := l) (X := T + Z) (Y := 0) [⟨a, .eventDataPipeExecve⟩] ?_ hB).of_eq ?_
      (fun _ => rfl) ?_).forget fun _ => (add_assoc ..).symm
    · simp [PipePtr.blocks]
    · rfl
    · rfl
  | false =>
    have hadd : addEventPipeExecve false =
        Blocks.malloc .eventDataPipeExecve >>= fun a => Blocks.free a >>= fun _ => pure [] := rfl
    rw [hadd]
    simp only [bind_assoc, pure_bind]
    refine Triple.malloc.seq fun a => (Triple.free rfl).seq fun _ => ?_
    refine ((launchEnd_triple (p := p) (l := l) (X := T + Z) (Y := {⟨l.com.path, .string⟩}) [] ?_ hB).of_eq ?_
      (fun _ => rfl) ?_).forget fun _ => (add_assoc ..).symm
    · simp
    · exact (zero_add _).symm
    · rfl

end Cases

end Memory

end ProcCtrld
