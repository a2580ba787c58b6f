import Mathlib.Data.String.Basic
import ProcCtrld.ArgVectors
import ProcCtrld.CommandCodec
import ProcCtrld.RustRequests
import ProcCtrld.SortedMap

/-!
# ProcCtrld.Invocation

What a program is started with: by the C daemon through `execve(path, args, envp)` (`child_function` in
`clone.c`), and by the Rust daemon through the `Command` of `exec_command` (`command.rs`).

The Rust daemon leaves out the first argument only when it is the path or its last component. `Command::env`
adds to the environment of the daemon: without any call the child gets that environment as it is, and after
one the standard library makes a `BTreeMap` of the daemon's variables and of the command's, so the child gets
them in the order of their names, each name once (`mem_capture`).

`same_invocation_iff` says exactly when both programs get the arguments but the first and exactly `envp`.
-/

namespace ProcCtrld

/-- The arguments after `argv[0]`, and the environment. -/
structure Invocation where
  args : List String
  env : List String
deriving DecidableEq, Repr

/-- `execve` reads these strings in the two arrays. -/
structure Vectors.Execve (v : Vectors) (argv env : List String) : Prop where
  argv : v.args.Yields argv
  env : v.envp.Yields env

/-- Every string of the two lists has its copy, and both arrays have a NULL behind them. -/
structure Heap.Serves (heap : Heap) (args envp : List String) : Prop where
  args : (∀ i < args.length, heap.args i = true) ∧ heap.behindArgs 0 = .null
  envp : (∀ i < envp.length, heap.envp i = true) ∧ heap.behindEnvp 0 = .null

namespace Rust

/-! ## The environment of a child -/

/-- A variable as `Command` gives it to `execve`. -/
def assignment (b : String × String) : String := b.1 ++ "=" ++ b.2

/-- `std::env::vars_os`: a name has at least one character, which may be a `=`; an entry without a `=` after
it is left out. -/
def inheritedVar (entry : String) : Option (String × String) :=
  match entry.toList with
  | [] => none
  | c :: cs =>
    if '=' ∈ cs then
      some (String.ofList (c :: cs.takeWhile (· ≠ '=')), String.ofList ((cs.dropWhile (· ≠ '=')).drop 1))
    else none

/-- `CommandEnv::capture`: the daemon's variables, then those of the command. -/
def capture (environ : List String) (env : List (String × String)) : SortedMap String String :=
  (SortedMap.empty.insertAll (environ.filterMap inheritedVar)).insertAll env

def childEnv (environ : List String) (env : List (String × String)) : List String :=
  if env = [] then environ else (capture environ env).entries.map assignment

/-- `spawn`; `none` is its error for a NUL in one of the strings it has to pass. -/
def CommandLine.invocation (environ : List String) (command : CommandLine) : Option Invocation :=
  if NulFree command.program ∧ (∀ s ∈ command.args, NulFree s) ∧
      (command.env ≠ [] → ∀ s ∈ childEnv environ command.env, NulFree s) then
    some ⟨command.args, childEnv environ command.env⟩
  else none

/-- Both programs get the arguments but the first, and this environment. -/
structure SameInvocation (environ : List String) (runCmd : RunCommand) (v : Vectors) (args envp : List String) :
    Prop where
  c : v.Execve args envp
  rust : (execCommand runCmd).bind (CommandLine.invocation environ) = some ⟨args.tail, envp⟩

/-! ## The condition -/

/-- The first argument, if there is one, is the path or its last component. -/
def NamesProgram (path : String) (args : List String) : Prop :=
  ∀ first ∈ args.head?, first = path ∨ first = (fileName path).getD ""

/-- When the child's environment is `envp`. -/
inductive EnvAgrees (environ envp : List String) : Prop where
  /-- No entry of `envp` is a variable, and the daemon has the same environment. -/
  | inherited (hno : ∀ e ∈ envp, '=' ∉ e.toList) (henviron : environ = envp)
  /-- All entries of `envp` are variables, in the order of their names, and the daemon has no others. -/
  | listed (hne : envp ≠ []) (hall : ∀ e ∈ envp, '=' ∈ e.toList) (hascend : KeysAscend (envp.filterMap binding))
      (hnamed : ∀ b ∈ environ.filterMap inheritedVar, b.1 ∈ (envp.filterMap binding).map Prod.fst)
  /-- The daemon has a name that begins with `=`, which no entry of `envp` can set; `envp` lists the last
  value of each name. -/
  | odd (m : SortedMap String String) (hodd : ∃ b ∈ environ.filterMap inheritedVar, '=' ∈ b.1.toList)
      (hm : ∀ k v, (k, v) ∈ m ↔ lastOf k (envp.filterMap binding) = some v ∨
        (lastOf k (envp.filterMap binding) = none ∧ lastOf k (environ.filterMap inheritedVar) = some v))
      (henvp : m.entries.map assignment = envp)

/-- What the two daemons need to run the same program alike. -/
structure RunsAlike (environ : List String) (heap : Heap) (path : String) (args envp : List String) : Prop where
  serves : heap.Serves args envp
  pathFree : NulFree path
  argsFree : ∀ s ∈ args, NulFree s
  envpFree : ∀ s ∈ envp, NulFree s
  program : NamesProgram path args
  env : EnvAgrees environ envp

/-! ## Splitting entries -/

section Bindings

variable {e k v : String} {b : String × String} {environ envp : List String} {env : List (String × String)}

theorem toList_assignment (b : String × String) : (assignment b).toList = b.1.toList ++ '=' :: b.2.toList := by
  simp [assignment]

theorem eq_mem_assignment (b : String × String) : '=' ∈ (assignment b).toList := by
  rw [toList_assignment]
  exact List.mem_append_right _ (List.mem_cons_self ..)

theorem binding_eq_none_iff : binding e = none ↔ '=' ∉ e.toList := by
  unfold binding
  split
  · rename_i h
    simp [h]
  · rename_i h
    simp [h]

theorem binding_assignment (h : '=' ∉ k.toList) : binding (assignment (k, v)) = some (k, v) := by
  have hname : ∀ c ∈ k.toList, decide (c ≠ '=') = true := by
    intro c hc
    rw [decide_eq_true_eq]
    rintro rfl
    exact h hc
  rw [binding, if_pos (eq_mem_assignment _), toList_assignment, List.takeWhile_append_of_pos hname,
    List.dropWhile_append_of_pos hname]
  simp

theorem dropWhile_cons_of_mem {cs : List Char} (h : '=' ∈ cs) :
    cs.dropWhile (· ≠ '=') = '=' :: (cs.dropWhile (· ≠ '=')).drop 1 := by
  induction cs with
  | nil => cases h
  | cons c cs ih =>
    by_cases hc : c = '='
    · subst hc
      simp
    · have hcs : '=' ∈ cs := (List.mem_cons.mp h).resolve_left (Ne.symm hc)
      rw [List.dropWhile_cons_of_pos (by simpa using hc)]
      exact ih hcs

theorem assignment_of_binding (h : binding e = some b) : assignment b = e := by
  unfold binding at h
  split at h
  · rename_i hmem
    cases h
    refine String.toList_injective ?_
    rw [toList_assignment, String.toList_ofList, String.toList_ofList, ← dropWhile_cons_of_mem hmem]
    exact List.takeWhile_append_dropWhile
  · cases h

theorem name_of_binding (h : binding e = some b) : '=' ∉ b.1.toList := by
  unfold binding at h
  split at h
  · cases h
    rw [String.toList_ofList]
    intro hmem
    have hne := List.mem_takeWhile_imp hmem
    simp at hne
  · cases h

theorem name_of_mem (h : b ∈ envp.filterMap binding) : '=' ∉ b.1.toList := by
  obtain ⟨e, -, hbinding⟩ := List.mem_filterMap.mp h
  exact name_of_binding hbinding

theorem filterMap_map_assignment (h : ∀ b ∈ env, '=' ∉ b.1.toList) :
    (env.map assignment).filterMap binding = env := by
  induction env with
  | nil => rfl
  | cons b env ih =>
    obtain ⟨hb, henv⟩ := List.forall_mem_cons.mp h
    rw [List.map_cons, List.filterMap_cons_some (binding_assignment hb), ih henv]

theorem map_assignment_filterMap (h : ∀ e ∈ envp, '=' ∈ e.toList) :
    (envp.filterMap binding).map assignment = envp := by
  induction envp with
  | nil => rfl
  | cons e envp ih =>
    obtain ⟨he, henvp⟩ := List.forall_mem_cons.mp h
    cases hb : binding e with
    | none => exact absurd he (binding_eq_none_iff.mp hb)
    | some b => rw [List.filterMap_cons_some hb, List.map_cons, assignment_of_binding hb, ih henvp]

/-- The last value that the command gives to a name, or else the last one that the daemon has for it. -/
theorem mem_capture : (k, v) ∈ capture environ env ↔
    lastOf k env = some v ∨ (lastOf k env = none ∧ lastOf k (environ.filterMap inheritedVar) = some v) := by
  rw [capture, SortedMap.mem_insertAll, SortedMap.mem_insertAll_empty]

theorem filterMap_binding_eq_nil_iff : envp.filterMap binding = [] ↔ ∀ e ∈ envp, '=' ∉ e.toList := by
  rw [List.filterMap_eq_nil_iff]
  exact forall₂_congr fun _ _ => binding_eq_none_iff

/-- A name of the daemon that the command does not give stays. -/
theorem mem_capture_of_inherited (hb : b ∈ environ.filterMap inheritedVar) (hnone : lastOf b.1 env = none) :
    ∃ v, (b.1, v) ∈ capture environ env := by
  cases hlast : lastOf b.1 (environ.filterMap inheritedVar) with
  | none => exact absurd (List.mem_map_of_mem hb) (lastOf_eq_none_iff.mp hlast)
  | some v => exact ⟨v, mem_capture.mpr (.inr ⟨hnone, hlast⟩)⟩

/-- Without odd names what the child gets splits again, so it is the map of the entries that were given. -/
theorem entries_capture (hodd : ∀ b ∈ environ.filterMap inheritedVar, '=' ∉ b.1.toList)
    (h : (capture environ (envp.filterMap binding)).entries.map assignment = envp) :
    (capture environ (envp.filterMap binding)).entries = envp.filterMap binding := by
  have hnames : ∀ b ∈ (capture environ (envp.filterMap binding)).entries, '=' ∉ b.1.toList := by
    rintro ⟨k, v⟩ hb
    rcases mem_capture.mp hb with hlast | ⟨-, hlast⟩
    · exact name_of_mem (mem_of_lastOf hlast)
    · exact hodd _ (mem_of_lastOf hlast)
  calc (capture environ (envp.filterMap binding)).entries
      = ((capture environ (envp.filterMap binding)).entries.map assignment).filterMap binding :=
        (filterMap_map_assignment hnames).symm
    _ = envp.filterMap binding := by rw [h]

theorem envAgrees_of_capture (hne : envp.filterMap binding ≠ [])
    (h : (capture environ (envp.filterMap binding)).entries.map assignment = envp) : EnvAgrees environ envp := by
  by_cases hodd : ∃ b ∈ environ.filterMap inheritedVar, '=' ∈ b.1.toList
  · exact .odd _ hodd (fun _ _ => mem_capture) h
  · push Not at hodd
    have hentries := entries_capture hodd h
    refine .listed ?_ ?_ ?_ ?_
    · rintro rfl
      exact hne rfl
    · intro e he
      rw [← h] at he
      obtain ⟨b, -, rfl⟩ := List.mem_map.mp he
      exact eq_mem_assignment b
    · rw [← hentries]
      exact (capture environ (envp.filterMap binding)).ascend
    · intro b hb
      by_contra hnot
      obtain ⟨v, hv⟩ := mem_capture_of_inherited hb (lastOf_eq_none_iff.mpr hnot)
      have hmem : (b.1, v) ∈ envp.filterMap binding := by
        rw [← hentries]
        exact hv
      exact hnot (List.mem_map.mpr ⟨_, hmem, rfl⟩)

theorem capture_eq_of_listed (hascend : KeysAscend (envp.filterMap binding))
    (hnamed : ∀ b ∈ environ.filterMap inheritedVar, b.1 ∈ (envp.filterMap binding).map Prod.fst) :
    capture environ (envp.filterMap binding) = ⟨envp.filterMap binding, hascend⟩ := by
  refine SortedMap.ext_mem ?_
  rintro ⟨k, v⟩
  rw [mem_capture, hascend.lastOf_iff]
  refine or_iff_left ?_
  rintro ⟨hnone, hlast⟩
  exact lastOf_eq_none_iff.mp hnone (hnamed _ (mem_of_lastOf hlast))

theorem childEnv_eq_iff : childEnv environ (envp.filterMap binding) = envp ↔ EnvAgrees environ envp := by
  unfold childEnv
  constructor
  · intro h
    split at h
    · rename_i hnil
      exact .inherited (filterMap_binding_eq_nil_iff.mp hnil) h
    · rename_i hne
      exact envAgrees_of_capture hne h
  · intro h
    cases h with
    | inherited hno henviron => rw [if_pos (filterMap_binding_eq_nil_iff.mpr hno), henviron]
    | listed hne hall hascend hnamed =>
      have hsome : envp.filterMap binding ≠ [] := by
        intro hnil
        obtain ⟨e, he⟩ := List.exists_mem_of_ne_nil _ hne
        exact filterMap_binding_eq_nil_iff.mp hnil e he (hall e he)
      rw [if_neg hsome, capture_eq_of_listed hascend hnamed]
      exact map_assignment_filterMap hall
    | odd m hodd hm henvp =>
      have hcapture : capture environ (envp.filterMap binding) = m := by
        refine SortedMap.ext_mem ?_
        rintro ⟨k, v⟩
        rw [mem_capture, hm]
      have hsome : envp.filterMap binding ≠ [] := by
        intro hnil
        obtain ⟨b, hb, -⟩ := hodd
        have hnone : lastOf b.1 (envp.filterMap binding) = none := by
          rw [hnil]
          rfl
        obtain ⟨v, hv⟩ := mem_capture_of_inherited hb hnone
        rw [hcapture] at hv
        have hmem : assignment (b.1, v) ∈ envp := henvp ▸ List.mem_map_of_mem hv
        exact filterMap_binding_eq_nil_iff.mp hnil _ hmem (eq_mem_assignment _)
      rw [if_neg hsome, hcapture, henvp]

end Bindings

/-! ## The invocation -/

section Invocation

variable {path : String} {args envp environ : List String} {heap : Heap} {flags stackSize : Nat}

theorem dropProgram_eq_tail_iff : dropProgram path args = args.tail ↔ NamesProgram path args := by
  cases args with
  | nil => simp [dropProgram, NamesProgram]
  | cons first args =>
    rw [dropProgram]
    split
    · rename_i h
      simpa [NamesProgram] using h
    · rename_i h
      have hlen : first :: args ≠ args := by
        intro heq
        have := congrArg List.length heq
        simp at this
      simpa [NamesProgram, hlen] using h

theorem cStr_eq_self_iff {s : String} : cStr s = s ↔ NulFree s := by
  refine ⟨?_, cStr_of_nulFree⟩
  intro h hmem
  rw [← h, cStr, String.toList_ofList] at hmem
  have hne := List.mem_takeWhile_imp hmem
  simp at hne

theorem map_cStr_eq_iff {ss : List String} : ss.map cStr = ss ↔ ∀ s ∈ ss, NulFree s := by
  induction ss with
  | nil => simp
  | cons s ss ih => rw [List.map_cons, List.cons.injEq, List.forall_mem_cons, cStr_eq_self_iff, ih]

theorem execve_iff {toWatch : List (Option Surveillance)} :
    (Command.vectors ⟨cStr path, args.map cStr, envp.map cStr, flags, stackSize, toWatch⟩ heap).Execve args envp ↔
      ((∀ s ∈ args, NulFree s) ∧ ∀ s ∈ envp, NulFree s) ∧ heap.Serves args envp := by
  have hargs : (copyStrings heap.args heap.behindArgs (args.map cStr)).Yields args ↔ _ :=
    copyStrings_yields_iff (List.length_map _).symm
  have henvp : (copyStrings heap.envp heap.behindEnvp (envp.map cStr)).Yields envp ↔ _ :=
    copyStrings_yields_iff (List.length_map _).symm
  rw [map_cStr_eq_iff, List.length_map] at hargs henvp
  constructor
  · intro h
    obtain ⟨hargsFree, hargsHeap⟩ := hargs.mp h.argv
    obtain ⟨henvpFree, henvpHeap⟩ := henvp.mp h.env
    exact ⟨⟨hargsFree, henvpFree⟩, hargsHeap, henvpHeap⟩
  · rintro ⟨⟨hargsFree, henvpFree⟩, hheap⟩
    exact ⟨hargs.mpr ⟨hargsFree, hheap.args⟩, henvp.mpr ⟨henvpFree, hheap.envp⟩⟩

theorem dropProgram_subset {s : String} (h : s ∈ dropProgram path args) : s ∈ args := by
  cases args with
  | nil => exact h
  | cons first args =>
    rw [dropProgram] at h
    split at h
    · exact List.mem_cons_of_mem _ h
    · exact h

theorem invocation_eq_iff {command : CommandLine} {i : Invocation} :
    command.invocation environ = some i ↔
      (NulFree command.program ∧ (∀ s ∈ command.args, NulFree s) ∧
        (command.env ≠ [] → ∀ s ∈ childEnv environ command.env, NulFree s)) ∧
      command.args = i.args ∧ childEnv environ command.env = i.env := by
  obtain ⟨iargs, ienv⟩ := i
  unfold CommandLine.invocation
  split
  · rename_i h
    rw [Option.some.injEq, Invocation.mk.injEq, and_iff_right h]
  · rename_i h
    simp only [reduceCtorEq, h, false_and]

/-- For every command that the C daemon can decode, every environment of the Rust daemon and every heap. -/
theorem same_invocation_iff {runCmd : RunCommand} {c : Command} (hdecode : receiveRunCommand (some runCmd) = .ok c)
    (environ : List String) (heap : Heap) :
    ∃ path args envp, runCmd.path = some path ∧ runCmd.args = some args ∧ runCmd.envp = some envp ∧
      (SameInvocation environ runCmd (c.vectors heap) args envp ↔ RunsAlike environ heap path args envp) := by
  simp only [receiveRunCommand, bind_eq_ok, deref_eq_ok, pure_eq_ok] at hdecode
  obtain ⟨_, ⟨⟩, path, hpath, args, hargs, envp, henvp, toWatch, -, rfl⟩ := hdecode
  have hexec : execCommand runCmd = some ⟨path, dropProgram path args, envp.filterMap binding⟩ := by
    simp only [execCommand, hpath, hargs, henvp, Option.getD_some]
  refine ⟨path, args, envp, hpath, hargs, henvp, ?_⟩
  constructor
  · intro h
    obtain ⟨⟨hargsFree, henvpFree⟩, hheap⟩ := execve_iff.mp h.c
    have hrust := h.rust
    rw [hexec, Option.bind_some, invocation_eq_iff] at hrust
    obtain ⟨⟨hpathFree, -, -⟩, htail, henv⟩ := hrust
    exact ⟨hheap, hpathFree, hargsFree, henvpFree, dropProgram_eq_tail_iff.mp htail, childEnv_eq_iff.mp henv⟩
  · intro h
    have henv := childEnv_eq_iff.mpr h.env
    refine ⟨execve_iff.mpr ⟨⟨h.argsFree, h.envpFree⟩, h.serves⟩, ?_⟩
    rw [hexec, Option.bind_some, invocation_eq_iff]
    refine ⟨⟨h.pathFree, ?_, ?_⟩, dropProgram_eq_tail_iff.mpr h.program, henv⟩
    · intro s hs
      exact h.argsFree s (dropProgram_subset hs)
    · intro _
      rw [henv]
      exact h.envpFree

end Invocation

section Ls

def lsWithEnvironment : RunCommand := ⟨some "/bin/ls", some ["ls", "-l"], some ["A=1", "B=2"], 0, 0, none⟩

/-- The daemon has only variables that the command sets too. -/
theorem ls_runs_alike : SameInvocation ["B=0"] lsWithEnvironment
    (Command.vectors ⟨"/bin/ls", ["ls", "-l"], ["A=1", "B=2"], 0, 0, []⟩ clearedHeap) ["ls", "-l"]
    ["A=1", "B=2"] := by
  have hdecode : receiveRunCommand (some lsWithEnvironment) =
      .ok ⟨"/bin/ls", ["ls", "-l"], ["A=1", "B=2"], 0, 0, []⟩ := by decide +kernel
  obtain ⟨path, args, envp, hpath, hargs, henvp, hiff⟩ := same_invocation_iff hdecode ["B=0"] clearedHeap
  cases hpath
  cases hargs
  cases henvp
  have hbindings : ["A=1", "B=2"].filterMap binding = [("A", "1"), ("B", "2")] := by decide +kernel
  have hinherited : ["B=0"].filterMap inheritedVar = [("B", "0")] := by decide +kernel
  refine hiff.mpr ⟨⟨⟨fun _ _ => rfl, rfl⟩, fun _ _ => rfl, rfl⟩, by decide +kernel, by decide +kernel,
    by decide +kernel, by unfold NamesProgram; decide +kernel, .listed (by simp) (by decide +kernel) ?_ ?_⟩
  · rw [hbindings]
    unfold KeysAscend
    decide
  · rw [hbindings, hinherited]
    simp

def lsOfBusybox : RunCommand := ⟨some "/bin/busybox", some ["ls", "-l"], some ["A=1"], 0, 0, none⟩

/-- The Rust daemon passes on the program name and its own variables. -/
theorem busybox_runs_differently :
    (Command.vectors ⟨"/bin/busybox", ["ls", "-l"], ["A=1"], 0, 0, []⟩ clearedHeap).Execve ["ls", "-l"] ["A=1"] ∧
      (execCommand lsOfBusybox).bind (CommandLine.invocation ["HOME=/root"]) =
        some ⟨["ls", "-l"], ["A=1", "HOME=/root"]⟩ ∧
      ¬ SameInvocation ["HOME=/root"] lsOfBusybox
        (Command.vectors ⟨"/bin/busybox", ["ls", "-l"], ["A=1"], 0, 0, []⟩ clearedHeap) ["ls", "-l"] ["A=1"] := by
  have hc : (Command.vectors ⟨"/bin/busybox", ["ls", "-l"], ["A=1"], 0, 0, []⟩ clearedHeap).Execve ["ls", "-l"]
      ["A=1"] := by
    refine ⟨⟨?_, rfl⟩, ⟨?_, rfl⟩⟩
    · decide
    · decide
  have hrust : (execCommand lsOfBusybox).bind (CommandLine.invocation ["HOME=/root"]) =
      some ⟨["ls", "-l"], ["A=1", "HOME=/root"]⟩ := by decide +kernel
  refine ⟨hc, hrust, ?_⟩
  intro h
  have := h.rust
  rw [hrust] at this
  simp at this

end Ls

end Rust

end ProcCtrld
