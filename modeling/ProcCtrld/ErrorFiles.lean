import ProcCtrld.Sends
import Mathlib.Data.List.TakeWhile

/-!
# ProcCtrld.ErrorFiles

The names of the error files (`process_command_request` in `events.c`): `snprintf` writes `nb_process`, a dash
and `args[0]` into 20 bytes.

`nb_process` goes down when `handle_SIGCHLD` has seen a child end, so it comes back to the value that a child
was launched with while that child still runs: when as many terminations as launches have been told of since
(`counter_back_iff`). `ErrorName.file_eq_iff` says when two names are the same, and
`error_file_names_unique_iff` in which runs the names of the running children are unique.
-/

namespace ProcCtrld

/-! ## Names -/

def digits (n : Nat) : Bytes := (Nat.toDigits 10 n).map fun c => c.toNat.toUInt8

/-- `%d`. -/
def decimal : Int → Bytes
  | .ofNat n => digits n
  | .negSucc n => 45 :: digits (n + 1)

def utf8 (s : String) : Bytes := s.toList.flatMap String.utf8EncodeChar

/-- What `%s` prints for `args[0]`. `copied` says whether `strdup` had memory for it; without arguments the
word behind the array is read, and `behind` is the text it points to. -/
def arg0Text (com : Command) (copied : Bool) (behind : Bytes) : Bytes :=
  match com.args with
  | a :: _ => if copied then utf8 (cStr a) else utf8 "(null)"
  | [] => behind

/-- The values that an error file is named after. -/
structure ErrorName where
  nbProcess : Int32
  arg0 : Bytes
deriving DecidableEq

namespace ErrorName

/-- `snprintf(buffer, sizeof(buffer), "%d-%s", ..)`, where the last of the 20 bytes is the NUL. -/
def file (n : ErrorName) : Bytes := (decimal n.nbProcess.toInt ++ 45 :: n.arg0).take 19

/-- The bytes of `args[0]` that the name has room for. -/
def room (n : ErrorName) : Nat := 18 - (decimal n.nbProcess.toInt).length

end ErrorName

/-! ## When two names are the same -/

theorem digits_ne_nil (n : Nat) : digits n ≠ [] := by
  simp [digits, Nat.toDigits_ne_nil]

theorem digit_bounds {c : Char} (h : c.isDigit) : 48 ≤ c.toNat ∧ c.toNat ≤ 57 := by
  simp only [Char.isDigit, Bool.and_eq_true, decide_eq_true_eq] at h
  exact ⟨h.1, h.2⟩

theorem digit_of_mem_toDigits {n : Nat} {c : Char} (h : c ∈ Nat.toDigits 10 n) : 48 ≤ c.toNat ∧ c.toNat ≤ 57 :=
  digit_bounds (Nat.isDigit_of_mem_toDigits (by decide) (by decide) h)

theorem dash_notMem_digits (n : Nat) : 45 ∉ digits n := by
  intro h
  obtain ⟨c, hc, hdash⟩ := List.mem_map.mp h
  have hdigit := digit_of_mem_toDigits hc
  have hval := congrArg UInt8.toNat hdash
  simp at hval
  omega

theorem digits_injective {n m : Nat} (h : digits n = digits m) : n = m := by
  have hchars : ∀ k : Nat, (digits k).map (fun b => Char.ofNat b.toNat) = Nat.toDigits 10 k := by
    intro k
    rw [digits, List.map_map]
    refine (List.map_congr_left fun c hc => ?_).trans (List.map_id _)
    have hdigit := digit_of_mem_toDigits hc
    have hlt : c.toNat < 256 := by omega
    simp [Nat.mod_eq_of_lt hlt]
  have hsame : Nat.toDigits 10 n = Nat.toDigits 10 m := by rw [← hchars n, ← hchars m, h]
  rw [← Nat.ofDigitChars_ten_toDigits (n := n), hsame, Nat.ofDigitChars_ten_toDigits]

theorem digits_length_le {n k : Nat} (hk : 0 < k) (h : n < 10 ^ k) : (digits n).length ≤ k := by
  rw [digits, List.length_map]
  exact (Nat.length_toDigits_le_iff (by decide) hk).mpr h

/-- After the first byte, which may be the sign, there is no dash. -/
theorem decimal_eq_cons (n : Int) : ∃ b t, decimal n = b :: t ∧ 45 ∉ t := by
  cases n with
  | ofNat n =>
    obtain ⟨b, t, hd⟩ := List.exists_cons_of_ne_nil (digits_ne_nil n)
    refine ⟨b, t, hd, ?_⟩
    intro hmem
    exact dash_notMem_digits n (hd ▸ List.mem_cons_of_mem b hmem)
  | negSucc n => exact ⟨45, digits (n + 1), rfl, dash_notMem_digits (n + 1)⟩

theorem decimal_injective {n m : Int} (h : decimal n = decimal m) : n = m := by
  cases n with
  | ofNat n =>
    cases m with
    | ofNat m => rw [digits_injective h]
    | negSucc m =>
      have hmem : 45 ∈ digits n := by
        rw [show digits n = 45 :: digits (m + 1) from h]
        exact List.mem_cons_self
      exact absurd hmem (dash_notMem_digits n)
  | negSucc n =>
    cases m with
    | ofNat m =>
      have hmem : 45 ∈ digits m := by
        rw [← show 45 :: digits (n + 1) = digits m from h]
        exact List.mem_cons_self
      exact absurd hmem (dash_notMem_digits m)
    | negSucc m =>
      have hnm := digits_injective (List.cons.inj h).2
      rw [show n = m by omega]

theorem decimal_length_le (n : Int32) : (decimal n.toInt).length ≤ 11 := by
  have hlt := n.toInt_lt
  have hle := n.le_toInt
  generalize n.toInt = i at hlt hle
  cases i with
  | ofNat k =>
    have hdigits : (digits k).length ≤ 10 := digits_length_le (by decide) (by simp at hlt; omega)
    show (digits k).length ≤ 11
    omega
  | negSucc k =>
    have hdigits : (digits (k + 1)).length ≤ 10 := digits_length_le (by decide) (by omega)
    show (digits (k + 1)).length + 1 ≤ 11
    omega

theorem append_dash_inj {t t' p p' : Bytes} (ht : 45 ∉ t) (ht' : 45 ∉ t') (h : t ++ 45 :: p = t' ++ 45 :: p') :
    t = t' ∧ p = p' := by
  have hbefore : ∀ u q : Bytes, 45 ∉ u → (u ++ 45 :: q).takeWhile (· ≠ 45) = u := by
    intro u q hu
    rw [List.takeWhile_append_of_pos]
    · simp
    · intro b hb
      simp only [decide_eq_true_eq]
      rintro rfl
      exact hu hb
  have htt : t = t' := by rw [← hbefore t p ht, h, hbefore t' p' ht']
  subst htt
  exact ⟨rfl, (List.cons.inj (List.append_cancel_left h)).2⟩

namespace ErrorName

theorem file_eq (n : ErrorName) : n.file = decimal n.nbProcess.toInt ++ 45 :: n.arg0.take n.room := by
  have hlen := decimal_length_le n.nbProcess
  have htake : 19 - (decimal n.nbProcess.toInt).length = n.room + 1 := by
    rw [room]
    omega
  rw [file, List.take_append, htake, List.take_succ_cons, List.take_of_length_le (by omega)]

/-- The counter was the same, and the beginnings of `args[0]` are. -/
theorem file_eq_iff {n m : ErrorName} :
    n.file = m.file ↔ n.nbProcess = m.nbProcess ∧ n.arg0.take n.room = m.arg0.take n.room := by
  constructor
  · intro h
    rw [n.file_eq, m.file_eq] at h
    obtain ⟨b, t, hn, ht⟩ := decimal_eq_cons n.nbProcess.toInt
    obtain ⟨b', t', hm, ht'⟩ := decimal_eq_cons m.nbProcess.toInt
    rw [hn, hm, List.cons_append, List.cons_append] at h
    obtain ⟨hb, hrest⟩ := List.cons.inj h
    obtain ⟨htt, htake⟩ := append_dash_inj ht ht' hrest
    have hnb : n.nbProcess = m.nbProcess := by
      refine Int32.toInt_inj.mp (decimal_injective ?_)
      rw [hn, hm, hb, htt]
    have hroom : n.room = m.room := by rw [room, room, hnb]
    exact ⟨hnb, htake.trans (by rw [hroom])⟩
  · rintro ⟨hnb, htake⟩
    have hroom : n.room = m.room := by rw [room, room, hnb]
    rw [n.file_eq, m.file_eq, htake, hnb, hroom]

end ErrorName

/-! ## The counter -/

/-- What the launch or the end that a message tells of has done to `nb_process`. -/
def Msg.counted : Msg → Int
  | processLaunched _ => 1
  | processTerminated .. => -1
  | _ => 0

/-- The launches that the messages tell of, less the terminations. -/
def balance (sent : List Sent) : Int := (sent.map fun m => m.msg.counted).sum

section Counter

variable {s s' : State} {l : Label}

theorem balance_append (sent sent' : List Sent) : balance (sent ++ sent') = balance sent + balance sent' := by
  simp [balance]

theorem balance_cons (m : Sent) (sent : List Sent) : balance (m :: sent) = m.msg.counted + balance sent := by
  simp [balance]

theorem balance_of_uncounted {sent : List Sent} (h : ∀ m ∈ sent, m.msg.counted = 0) : balance sent = 0 := by
  refine List.sum_eq_zero fun n hn => ?_
  obtain ⟨m, hm, rfl⟩ := List.mem_map.mp hn
  exact h m hm

theorem balance_surveillanceAcks (sock : Fd) (ws : List (Option Surveillance)) :
    balance (surveillanceAcks sock ws) = 0 := by
  refine balance_of_uncounted fun m hm => ?_
  obtain ⟨msg, hmsg, rfl⟩ := List.mem_map.mp hm
  obtain ⟨w, -, hw⟩ := List.mem_flatMap.mp hmsg
  match w with
  | some (.inotify ..) | some (.watchSocket _) => rw [List.mem_singleton.mp hw]; rfl
  | none => cases hw

theorem sigchld_balance {pid : Pid} {garbage : Nat} {held : Bool} (h : SigchldCase s pid garbage held s') :
    s'.table.nbProcess - s.table.nbProcess = balance s'.sent - balance s.sent := by
  cases h with
  | blocks => simp
  | reaps hun hz h | fails hun h =>
    rw [release_nbProcess h.table, h.sent, balance_append, balance_cons]
    simp only [Msg.counted, show balance [] = 0 from rfl]
    omega

theorem step_balance (h : step s l = some s') :
    s'.table.nbProcess - s.table.nbProcess = balance s'.sent - balance s.sent := by
  cases step_cases h with
  | signalfd hmode hbatch hpend hcase =>
    have hbalance := sigchld_balance hcase
    exact hbalance
  | waitpidReturns hmode hcase => exact sigchld_balance hcase
  | runCommand hmode hbatch hcase =>
    cases hcase with
    | fails hos hleft =>
      simp [State.launchFails, balance_append, balance_cons, balance_surveillanceAcks, Msg.counted]
    | pipeFails | clones => simp
  | launchReturns hmode =>
    simp only [register_nbProcess, balance_append, balance_cons, balance_surveillanceAcks, Msg.counted]
    omega
  | execve | sockConnexion => simp [balance, Msg.counted, State.closeFd]
  | @inotify updates _ _ _ =>
    have hupdates : balance (updates.map fun info => ⟨s.communicationSocket, .inotifyPathUpdated info, none⟩) = 0 := by
      refine balance_of_uncounted fun m hm => ?_
      obtain ⟨info, -, rfl⟩ := List.mem_map.mp hm
      rfl
    simp [balance_append, hupdates]
  | child | openOther | closeOther | epollWait | epollFails | kills | killsGroup | killsNone | unexpected
  | sockClosed | hupErr => simp [State.closeFd]

/-- `nb_process` is back at a value exactly when as many terminations as launches have been told of since. -/
theorem counter_back_iff {ls : List Label} (h : Lts.run step s ls = some s') :
    s'.table.nbProcess = s.table.nbProcess ↔ balance s'.sent = balance s.sent := by
  have hdiff : s'.table.nbProcess - s.table.nbProcess = balance s'.sent - balance s.sent := by
    induction ls generalizing s with
    | nil => cases h; simp
    | cons l ls ih =>
      simp only [Lts.run] at h
      split at h
      · rename_i s₁ hs
        have hfirst := step_balance hs
        have hrest := ih h
        omega
      · cases h
  omega

end Counter

/-! ## The names of a run -/

/-- The daemon, and what the error file of each child was named after. -/
structure Named where
  state : State
  names : List ErrorName

/-- A label of the daemon with what `%s` reads at a launch. -/
structure NamedLabel where
  label : Label
  copied : Bool
  behind : Bytes

def Named.init (heap : Nat → ProcessInfo) (nfds : Nat) (garbageSock : Fd) (destPort : Nat) : Named :=
  ⟨.init heap nfds garbageSock destPort, []⟩

/-- The name that `process_command_request` formats, also when the launch fails afterwards. -/
def Named.errorName (t : Named) (l : NamedLabel) : Option ErrorName :=
  match l.label with
  | .runCommand _ (.paramFails _) => none
  | .runCommand com _ => some ⟨.ofInt t.state.table.nbProcess, arg0Text com l.copied l.behind⟩
  | _ => none

def namedStep (t : Named) (l : NamedLabel) : Option Named :=
  match step t.state l.label with
  | some s => some ⟨s, if l.label.clones then t.names ++ (t.errorName l).toList else t.names⟩
  | none => none

def runningNames (children : List Child) (names : List ErrorName) : List ErrorName :=
  ((children.zip names).filter fun x => !x.1.dead).map (·.2)

/-- The names of the children that have not ended. -/
def Named.running (t : Named) : List ErrorName := runningNames t.state.children t.names

/-- A name that is formatted is that of no running child. -/
def FreshName (t : Named) (l : NamedLabel) : Prop :=
  ∀ n ∈ (t.errorName l).toList, ∀ m ∈ t.running, n.file ≠ m.file

/-- No two running children have the same error file. -/
def DistinctNames (t : Named) : Prop := (t.running.map ErrorName.file).Nodup

/-- `nb_process` is not what it was when a running child was launched, or `args[0]` begins otherwise. -/
def CounterOrArgDiffers (t : Named) (l : NamedLabel) : Prop :=
  ∀ n ∈ (t.errorName l).toList, ∀ m ∈ t.running,
    n.nbProcess = m.nbProcess → n.arg0.take n.room ≠ m.arg0.take n.room

instance (t : Named) (l : NamedLabel) : Decidable (CounterOrArgDiffers t l) := by
  unfold CounterOrArgDiffers
  infer_instance

section Runs

variable {s s' : State} {t t' : Named} {l : Label} {nl : NamedLabel}

theorem freshName_iff : FreshName t nl ↔ CounterOrArgDiffers t nl := by
  constructor
  · intro h n hn m hm hnb htake
    exact h n hn m hm (ErrorName.file_eq_iff.mpr ⟨hnb, htake⟩)
  · intro h n hn m hm hfile
    obtain ⟨hnb, htake⟩ := ErrorName.file_eq_iff.mp hfile
    exact h n hn m hm hnb htake

/-- A step that is no `clone` changes at most one child, and wakes none from the dead. -/
theorem not_clones_children (h : step s l = some s') (hl : l.clones = false) :
    s'.children = s.children ∨ ∃ k c c', s.children[k]? = some c ∧ s'.children = s.children.set k c' ∧
      (c.dead = true → c'.dead = true) := by
  cases step_table h with
  | same hch ht hmode => exact .inl hch
  | acts hc hact hch ht hmode =>
    refine .inr ⟨_, _, _, hc, hch, ?_⟩
    intro hdead
    rw [Child.step_alive hact] at hdead
    cases hdead
  | clones hl' => subst hl'; cases hl
  | registers hmode hch ht hmode' => exact .inl hch
  | reaps hmode hc hpid hz hch ht hmode' => exact .inr ⟨_, _, _, hc, hch, fun _ => rfl⟩
  | fails hmode hnone hch ht hmode' => exact .inl hch

theorem runningNames_set_sublist {children : List Child} {names : List ErrorName} {k : Nat} {c c' : Child}
    (hc : children[k]? = some c) (hdead : c.dead = true → c'.dead = true) :
    (runningNames (children.set k c') names).Sublist (runningNames children names) := by
  induction children generalizing names k with
  | nil => simp at hc
  | cons d children ih =>
    cases names with
    | nil => simp [runningNames]
    | cons n names =>
      cases k with
      | zero =>
        simp only [List.getElem?_cons_zero, Option.some.injEq] at hc
        subst hc
        simp only [runningNames, List.set_cons_zero, List.zip_cons_cons, List.filter_cons]
        cases hd : d.dead with
        | true => simp [hdead hd]
        | false =>
          cases c'.dead with
          | true => simp
          | false => simp
      | succ k =>
        have hrest : (runningNames (children.set k c') names).Sublist (runningNames children names) := ih hc
        simp only [runningNames, List.set_cons_succ, List.zip_cons_cons, List.filter_cons] at hrest ⊢
        cases d.dead with
        | true => exact hrest
        | false => exact hrest.cons_cons n

theorem runningNames_append {children : List Child} {names : List ErrorName} {c : Child} {n : ErrorName}
    (hlen : children.length = names.length) (hc : c.dead = false) :
    runningNames (children ++ [c]) (names ++ [n]) = runningNames children names ++ [n] := by
  simp [runningNames, List.zip_append hlen, hc]

/-- What a run of fresh names keeps: every child has a name, and the running ones have different ones. -/
structure NamedInv (t : Named) : Prop where
  aligned : t.state.children.length = t.names.length
  distinct : DistinctNames t

theorem namedInv_init (heap : Nat → ProcessInfo) (nfds : Nat) (garbageSock : Fd) (destPort : Nat) :
    NamedInv (.init heap nfds garbageSock destPort) :=
  ⟨rfl, List.nodup_nil⟩

theorem namedStep_eq_some (h : namedStep t nl = some t') : step t.state nl.label = some t'.state ∧
    t'.names = if nl.label.clones then t.names ++ (t.errorName nl).toList else t.names := by
  unfold namedStep at h
  split at h
  · rename_i s hs
    cases h
    exact ⟨hs, rfl⟩
  · cases h

theorem errorName_of_clones (hl : nl.label.clones = true) : ∃ n, t.errorName nl = some n := by
  obtain ⟨com, errFile, pipefd, pid, stack, hlabel⟩ := Label.exists_of_clones hl
  simp only [Named.errorName, hlabel]
  exact ⟨_, rfl⟩

theorem namedInv_step (h : NamedInv t) (hg : FreshName t nl) (hs : namedStep t nl = some t') : NamedInv t' := by
  obtain ⟨hstep, hnames⟩ := namedStep_eq_some hs
  cases hl : nl.label.clones with
  | true =>
    obtain ⟨n, hn⟩ := errorName_of_clones (t := t) hl
    obtain ⟨com, errFile, pipefd, pid, stack, hlabel⟩ := Label.exists_of_clones hl
    obtain ⟨-, -, -, -, hch, -⟩ := clones_spec (hlabel ▸ hstep)
    rw [hl, if_pos rfl, hn] at hnames
    have hrunning : t'.running = t.running ++ [n] := by
      rw [Named.running, hch, hnames]
      exact runningNames_append h.aligned rfl
    refine ⟨by simp [hch, hnames, h.aligned], ?_⟩
    rw [DistinctNames, hrunning, List.map_append, List.nodup_append]
    refine ⟨h.distinct, by simp, ?_⟩
    intro file hfile file' hfile'
    obtain ⟨m, hm, rfl⟩ := List.mem_map.mp hfile
    obtain rfl : file' = n.file := by simpa using hfile'
    exact (hg n (by simp [hn]) m hm).symm
  | false =>
    rw [hl, if_neg (by decide)] at hnames
    rcases not_clones_children hstep hl with hch | ⟨k, c, c', hc, hch, hdead⟩
    · refine ⟨by rw [hch, hnames, h.aligned], ?_⟩
      rw [DistinctNames, Named.running, hch, hnames]
      exact h.distinct
    · refine ⟨by rw [hch, hnames, List.length_set, h.aligned], ?_⟩
      rw [DistinctNames, Named.running, hch, hnames]
      exact h.distinct.sublist ((runningNames_set_sublist hc hdead).map _)

end Runs

/-- In every run from the start of the daemon. -/
theorem error_file_names_unique_iff (heap : Nat → ProcessInfo) (nfds : Nat) (garbageSock : Fd) (destPort : Nat)
    {ls : List NamedLabel} (hrun : (Lts.run namedStep (.init heap nfds garbageSock destPort) ls).isSome) :
    (Lts.StepsAll namedStep FreshName (.init heap nfds garbageSock destPort) ls ∧
        Lts.StatesAll namedStep DistinctNames (.init heap nfds garbageSock destPort) ls) ↔
      Lts.StepsAll namedStep CounterOrArgDiffers (.init heap nfds garbageSock destPort) ls := by
  have hsame : Lts.StepsAll namedStep FreshName (.init heap nfds garbageSock destPort) ls ↔
      Lts.StepsAll namedStep CounterOrArgDiffers (.init heap nfds garbageSock destPort) ls :=
    Lts.stepsAll_congr_of_step (fun _ _ _ _ => freshName_iff) hrun
  rw [← hsame]
  refine ⟨fun h => h.1, fun hfresh => ⟨hfresh, ?_⟩⟩
  exact Lts.statesAll_of_stepsAll (fun _ h => h.distinct) (fun _ _ _ => namedInv_step)
    (namedInv_init heap nfds garbageSock destPort) hfresh

/-- The steps of a run in which every `args[0]` could be copied. -/
def copied (ls : List Label) : List NamedLabel := ls.map fun l => ⟨l, true, []⟩

/-- The children of a daemon with a client: `A` and `B` run, `A` ends, and `c` is launched. -/
def relaunch (c : String) : List NamedLabel :=
  copied (connects ++ launches "A" 9 (10, 11) 20 ++ execs 0 "A" 10 20 ++ launches "B" 10 (11, 12) 21 ++
    execs 1 "B" 11 21 ++ [Label.child 0 (.exit (.exited 0))] ++ handlesSignal ++ launches c 9 (11, 12) 22)

def Named.start : Named := ⟨.start, []⟩

theorem relaunch_of_other_name :
    Lts.StepsAll namedStep FreshName .start (relaunch "C") ∧
      Lts.StatesAll namedStep DistinctNames .start (relaunch "C") :=
  (error_file_names_unique_iff _ _ _ _ (by decide +kernel)).mpr (Lts.stepsAll_of_guarded_run (by decide +kernel))

/-- `B` is launched twice while `nb_process` is 1: both write to `1-B`. -/
theorem second_B_named_as_first :
    (∃ t, Lts.run namedStep .start (relaunch "B") = some t ∧
      t.running.map ErrorName.file = [utf8 "1-B", utf8 "1-B"]) ∧
    ¬ Lts.StepsAll namedStep FreshName .start (relaunch "B") := by
  have hrun : ∃ t, Lts.run namedStep .start (relaunch "B") = some t ∧
      (t.running.map ErrorName.file == [utf8 "1-B", utf8 "1-B"]) = true :=
    Lts.exists_of_run_map (show (Lts.run namedStep .start (relaunch "B")).map _ = some true by decide +kernel)
  obtain ⟨t, ht, hfiles⟩ := hrun
  have hsame : t.running.map ErrorName.file = [utf8 "1-B", utf8 "1-B"] := by simpa using hfiles
  refine ⟨⟨t, ht, hsame⟩, ?_⟩
  intro hfresh
  have hall := Lts.statesAll_of_stepsAll (fun _ h => h) (fun _ _ _ => namedInv_step)
    (namedInv_init (fun _ => ⟨none, 0, 0⟩) 8 0 8080) hfresh
  have hdistinct := (hall.last ht).distinct
  rw [DistinctNames, hsame] at hdistinct
  simp at hdistinct

end ProcCtrld
