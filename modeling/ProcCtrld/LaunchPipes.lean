import ProcCtrld.Sends

/-!
# ProcCtrld.LaunchPipes

The notification pipe as the child of a launch sees it (`launch_process` and `child_function` in `clone.c`).

`pipe` gives the two lowest free numbers, the read end first, and the child gets a copy of the descriptors of
the daemon with both ends. It takes the number below its write end for the read end and closes it.

`child_closes_own_read_end_iff`: in which runs this is always the read end of its own pipe. It is when the
number behind the read end is free too; otherwise the child closes what the daemon has opened there.
-/

namespace ProcCtrld

/-- `write_fd - 1`. -/
def readingSide (writeFd : Fd) : Fd := writeFd - 1

/-- The descriptors of a child, when `clone` has left the daemon in state `s`. -/
def State.childFds (s : State) (pipefd : Fd × Fd) : Fd → Option Obj :=
  Function.update s.fds pipefd.2 (some .other)

/-- The child of a launch closes the read end of the pipe that was made for it. -/
def ClosesOwnReadEnd (s : State) : Label → Prop
  | .runCommand com (.clones errFile pipefd pid stack) =>
    ∀ s', step s (.runCommand com (.clones errFile pipefd pid stack)) = some s' →
      s'.childFds pipefd (readingSide pipefd.2) = some (.pipeRead s.children.length)
  | _ => True

/-- The number behind the lowest free one, which is the read end, is free when `pipe` is called. The error file
has been opened before. -/
def NextIsFree (s : State) : Label → Prop
  | .runCommand _ (.clones errFile pipefd _ _) => s.fds (pipefd.1 + 1) = none ∧ errFile ≠ some (pipefd.1 + 1)
  | _ => True

instance (s : State) (l : Label) : Decidable (NextIsFree s l) := by
  unfold NextIsFree
  split
  · exact inferInstanceAs (Decidable (_ ∧ _))
  · exact .isTrue trivial

/-! ## Read ends -/

section Pipes

variable {s s' : State} {l : Label} {n : Fd} {k : Nat}

/-- No descriptor is the read end of a launch to come. -/
def ReadEndsOfLaunches (s : State) : Prop := ∀ n k, s.fds n = some (.pipeRead k) → k < s.children.length

theorem update_pipeRead {fds : Fd → Option Obj} {fd : Fd} {o : Option Obj} (ho : o ≠ some (.pipeRead k))
    (h : Function.update fds fd o n = some (.pipeRead k)) : fds n = some (.pipeRead k) := by
  by_cases hn : n = fd
  · subst hn
    rw [Function.update_self] at h
    exact absurd h ho
  · rwa [Function.update_of_ne hn] at h

theorem openFd_pipeRead {fds fds' : Fd → Option Obj} {fd : Fd} {obj : Obj} (hopen : openFd fds fd obj = some fds')
    (hobj : obj ≠ .pipeRead k) (h : fds' n = some (.pipeRead k)) : fds n = some (.pipeRead k) := by
  rw [(openFd_eq hopen).2] at h
  exact update_pipeRead (by simpa using hobj) h

theorem Opens.pipeRead {fds fds' : Fd → Option Obj} (h : Opens fds fds') (hn : fds' n = some (.pipeRead k)) :
    fds n = some (.pipeRead k) := by
  induction h with
  | none => exact hn
  | more h hopen hobj ih => exact ih (openFd_pipeRead hopen (hobj k) hn)

theorem clones_fds {com : Command} {errFile : Option Fd} {pipefd : Fd × Fd} {pid : Pid} {stack : Addr}
    (h : step s (.runCommand com (.clones errFile pipefd pid stack)) = some s') :
    ∃ fds err, openErrFile s.fds errFile = some (fds, err) ∧ lowestFree fds pipefd.1 ∧
      s'.fds = Function.update fds pipefd.1 (some (.pipeRead s.children.length)) ∧ lowestFree s'.fds pipefd.2 := by
  cases step_cases h with
  | runCommand hmode hbatch hcase =>
    cases hcase with
    | fails hos hleft => cases hos
    | clones herr hread hwrite hpos hpid =>
      obtain ⟨hfree, heq⟩ := openFd_eq hread
      exact ⟨_, _, herr, hfree, heq, hwrite⟩

theorem step_pipeRead (h : step s l = some s') (hl : l.clones = false) (hn : s'.fds n = some (.pipeRead k)) :
    s.fds n = some (.pipeRead k) := by
  have hhandled (hl : l.handlesSignal = true) : s.fds n = some (.pipeRead k) := by
    rw [handled_fds hl h n] at hn
    split at hn
    · cases hn
    · exact hn
  cases step_cases h with
  | signalfd | waitpidReturns => exact hhandled rfl
  | openOther hopen | sockConnexion _ _ hopen => exact openFd_pipeRead hopen (by simp) hn
  | closeOther | execve | sockClosed | hupErr => exact update_pipeRead (by simp) hn
  | runCommand hmode hbatch hcase =>
    cases hcase with
    | fails hos hleft => exact hleft.opens.pipeRead hn
    | pipeFails => exact hn
    | clones => cases hl
  | @launchReturns epollAdd lg hmode =>
    cases epollAdd with
    | true => exact hn
    | false => exact update_pipeRead (by simp) hn
  | child | epollWait | epollFails | kills | killsGroup | killsNone | unexpected | inotify => exact hn

theorem readEnds_init (heap : Nat → ProcessInfo) (nfds : Nat) (garbageSock : Fd) (destPort : Nat) :
    ReadEndsOfLaunches (.init heap nfds garbageSock destPort) := by
  intro n k hn
  simp only [State.init] at hn
  split at hn <;> cases hn

theorem readEnds_step (h : ReadEndsOfLaunches s) (hs : step s l = some s') : ReadEndsOfLaunches s' := by
  intro n k hn
  by_cases hl : l.clones = true
  · obtain ⟨com, errFile, pipefd, pid, stack, rfl⟩ := Label.exists_of_clones hl
    obtain ⟨sock, rest, lg, -, hch, -⟩ := clones_spec hs
    obtain ⟨fds, err, herr, -, hfds, -⟩ := clones_fds hs
    have hlen : s'.children.length = s.children.length + 1 := by rw [hch, List.length_append]; rfl
    rw [hlen]
    rw [hfds] at hn
    by_cases hnk : n = pipefd.1
    · subst hnk
      rw [Function.update_self] at hn
      cases hn
      omega
    · rw [Function.update_of_ne hnk] at hn
      have := h n k ((opens_openErrFile herr).pipeRead hn)
      omega
  · have hfalse : l.clones = false := by simpa using hl
    rw [(not_clones_spec hs hfalse).1]
    exact h n k (step_pipeRead hs hfalse hn)

/-! ## The child -/

theorem openErrFile_eq_none_iff {fds fds' : Fd → Option Obj} {errFile : Option Fd} {err : Fd}
    (hopen : openErrFile fds errFile = some (fds', err)) : fds' n = none ↔ fds n = none ∧ errFile ≠ some n := by
  cases errFile with
  | none =>
    cases hopen
    simp
  | some fd =>
    simp only [openErrFile] at hopen
    split at hopen
    · rename_i hfd
      obtain ⟨rfl, -⟩ := Prod.mk.inj (Option.some.inj hopen)
      rw [(openFd_eq hfd).2]
      by_cases hn : n = fd
      · simp [hn]
      · simp [hn, Ne.symm hn]
    · cases hopen

theorem write_end_next_iff {fds : Fd → Option Obj} {o : Obj} {r w : Nat} (hfirst : lowestFree fds r)
    (hsecond : lowestFree (Function.update fds r (some o)) w) : readingSide w = r ↔ fds (r + 1) = none := by
  have hfree : ∀ m : Nat, Function.update fds r (some o) m = none ↔ fds m = none ∧ m ≠ r := by
    intro m
    by_cases hm : m = r
    · simp [hm]
    · simp [hm]
  obtain ⟨hnone, hne⟩ := (hfree w).mp hsecond.1
  have hlt : r < w := by
    by_contra hge
    have hwr : w < r := by omega
    have hsome := hfirst.2 w hwr
    rw [hnone] at hsome
    cases hsome
  have hside : readingSide w = r ↔ w = r + 1 := by
    show (w - 1 : Nat) = r ↔ w = r + 1
    omega
  rw [hside]
  constructor
  · rintro rfl
    exact hnone
  · intro hnext
    have hle : w ≤ r + 1 := by
      by_contra hgt
      have hrw : r + 1 < w := by omega
      have hsome := hsecond.2 (r + 1) hrw
      rw [(hfree (r + 1)).mpr ⟨hnext, by omega⟩] at hsome
      cases hsome
    omega

theorem closesOwnReadEnd_iff (hinv : ReadEndsOfLaunches s) (h : step s l = some s') :
    ClosesOwnReadEnd s l ↔ NextIsFree s l := by
  cases l with
  | runCommand com os =>
    cases os with
    | clones errFile pipefd pid stack =>
      obtain ⟨fds, err, herr, hfirst, hfds, hsecond⟩ := clones_fds h
      have hnext := write_end_next_iff hfirst (hfds ▸ hsecond)
      have hclosed : s'.childFds pipefd (readingSide pipefd.2) = some (.pipeRead s.children.length) ↔
          readingSide pipefd.2 = pipefd.1 := by
        constructor
        · intro hread
          have hread' := update_pipeRead (by simp) hread
          rw [hfds] at hread'
          by_contra hne
          rw [Function.update_of_ne hne] at hread'
          exact absurd (hinv _ _ ((opens_openErrFile herr).pipeRead hread')) (lt_irrefl _)
        · intro heq
          have hne : pipefd.1 ≠ pipefd.2 := by
            intro hpipe
            rw [hpipe] at hfds
            have hnone := hsecond.1
            rw [hfds, Function.update_self] at hnone
            cases hnone
          rw [State.childFds, heq, Function.update_of_ne hne, hfds, Function.update_self]
      have hfree : fds (pipefd.1 + 1) = none ↔ NextIsFree s (.runCommand com (.clones errFile pipefd pid stack)) :=
        openErrFile_eq_none_iff herr
      rw [← hfree, ← hnext, ← hclosed]
      constructor
      · intro hall
        exact hall s' h
      · intro hread s₁ h₁
        rw [h] at h₁
        cases h₁
        exact hread
    | _ => exact Iff.rfl
  | _ => exact Iff.rfl

end Pipes

/-- In every run from the start of the daemon. -/
theorem child_closes_own_read_end_iff (heap : Nat → ProcessInfo) (nfds : Nat) (garbageSock : Fd) (destPort : Nat)
    {ls : List Label} (hrun : (Lts.run step (.init heap nfds garbageSock destPort) ls).isSome) :
    Lts.StepsAll step ClosesOwnReadEnd (.init heap nfds garbageSock destPort) ls ↔
      Lts.StepsAll step NextIsFree (.init heap nfds garbageSock destPort) ls :=
  Lts.stepsAll_congr (fun _ _ _ => readEnds_step) (fun _ _ _ => closesOwnReadEnd_iff)
    (readEnds_init heap nfds garbageSock destPort) hrun

theorem two_children_close_own :
    Lts.StepsAll step ClosesOwnReadEnd .start
      (connects ++ launches "A" 9 (10, 11) 20 ++ execs 0 "A" 10 20 ++ launches "B" 10 (11, 12) 21) :=
  (child_closes_own_read_end_iff _ _ _ _ (by decide +kernel)).mpr (Lts.stepsAll_of_guarded_run (by decide +kernel))

/-- Four clients; `A` is launched for the first, and the second and the last hang up. -/
def gaps : List Label :=
  connects ++ [Label.epollWait [.sockConnexion], .sockConnexion 9, .epollWait [.sockConnexion], .sockConnexion 10,
    .epollWait [.sockConnexion], .sockConnexion 11] ++ launches "A" 12 (13, 14) 20 ++
  [Label.epollWait [.sockMessage 9], .sockClosed, .epollWait [.sockMessage 11], .sockClosed,
    .epollWait [.sockMessage 8]]

/-- The error file of `B` gets 9 and its pipe 11 and 14, and its child closes 13, the pipe of `A`. -/
def launchB : Label := .runCommand ⟨"B", ["B"], [], 0, 8192, []⟩ (.clones (some 9) (11, 14) 21 8192)

theorem child_closes_pipe_of_other :
    (∃ s, Lts.run step .start (gaps ++ [launchB]) = some s ∧
      s.childFds (11, 14) (readingSide 14) = some (.pipeRead 0)) ∧
    ¬ Lts.StepsAll step ClosesOwnReadEnd .start (gaps ++ [launchB]) := by
  constructor
  · obtain ⟨s, hs, hp⟩ := Lts.exists_of_run_map
      (p := fun s : State => s.childFds (11, 14) (readingSide 14) == some (.pipeRead 0))
      (show (Lts.run step .start (gaps ++ [launchB])).map _ = some true by decide +kernel)
    exact ⟨s, hs, by simpa using hp⟩
  · intro h
    obtain ⟨s, hs, hp⟩ := Lts.exists_of_run_map
      (p := fun s : State => s.children.length == 1 && (step s launchB).any fun s' =>
        s'.childFds (11, 14) (readingSide 14) == some (.pipeRead 0))
      (show (Lts.run step .start gaps).map _ = some true by decide +kernel)
    simp only [Bool.and_eq_true, beq_iff_eq, Option.any_eq_true] at hp
    obtain ⟨hlen, s', hs', hfd⟩ := hp
    have hown := h.last hs s' hs'
    simp only [hlen] at hown
    rw [hfd] at hown
    cases hown

end ProcCtrld
