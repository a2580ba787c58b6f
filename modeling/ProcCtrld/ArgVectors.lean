import ProcCtrld.Serialize

/-!
# ProcCtrld.ArgVectors

The arrays `args` and `envp` that `receive_command` allocates (`serialize.cpp`), and what is read of them:
`process_command_request` reads `args[0]` for the name of the error file, and `execve` in `child_function`
(`clone.c`) reads both arrays up to their first NULL.

There is one element for each string of the message and none for the NULL. The words behind an array are
whatever the heap holds there, and a string of which `strdup` has no copy is a NULL. `execve` reads exactly
the strings when every copy was made and the word behind the array is NULL by chance (`copyStrings_yields_iff`);
but then it has read that word (`Yields.execveReads`), so `vectors_malformed` holds of every decoded command.
-/

namespace ProcCtrld

/-- A word of memory where a `char *` is expected; `wild` is the address of no string. -/
inductive Word where
  | null
  | string (s : String)
  | wild (address : Nat)
deriving DecidableEq, Repr

/-- A `char **`: its allocated elements, and the words behind them. -/
structure CharArray where
  elems : List Word
  behind : Nat → Word

/-- Arguments and environment of `command`. -/
structure Vectors where
  args : CharArray
  envp : CharArray

/-- For each string of `args` and `envp`, whether there is memory for its copy; and the words behind the
two arrays. -/
structure Heap where
  args : Nat → Bool
  envp : Nat → Bool
  behindArgs : Nat → Word
  behindEnvp : Nat → Word

def strdup (memory : Bool) (s : String) : Word := if memory then .string s else .null

/-- `new char*[size]` and the loop that fills it. -/
def copyStrings (memory : Nat → Bool) (behind : Nat → Word) (strings : List String) : CharArray :=
  ⟨strings.mapIdx fun i s => strdup (memory i) s, behind⟩

/-- The arrays of a decoded command, whose strings end at their first NUL already. -/
def Command.vectors (c : Command) (heap : Heap) : Vectors :=
  ⟨copyStrings heap.args heap.behindArgs c.args, copyStrings heap.envp heap.behindEnvp c.envp⟩

/-- `receive_command` with the arrays it allocates. -/
def receiveVectors (verify : Bytes → Int → Option Message) (heap : Heap) (buffer : Option Bytes) (size : Int) :
    Except Fault (Option (Command × Vectors)) := do
  let command ← receiveCommand verify buffer size
  return command.map fun c => (c, c.vectors heap)

/-! ## Reading the arrays -/

namespace CharArray

variable {a : CharArray}

/-- `a[i]`, which C does not check. -/
def word (a : CharArray) (i : Nat) : Word :=
  if h : i < a.elems.length then a.elems[i] else a.behind (i - a.elems.length)

/-- `execve` comes to `a[i]`. -/
def ExecveReads (a : CharArray) (i : Nat) : Prop := ∀ j < i, a.word j ≠ .null

/-- Up to its first NULL the array has these strings. -/
structure Yields (a : CharArray) (strings : List String) : Prop where
  string : ∀ i (h : i < strings.length), a.word i = .string strings[i]
  null : a.word strings.length = .null

/-- The array with the NULL that the decoder leaves out. -/
def terminated (strings : List String) (behind : Nat → Word) : CharArray := ⟨strings.map .string ++ [.null], behind⟩

theorem terminated_yields (strings : List String) (behind : Nat → Word) :
    (terminated strings behind).Yields strings := by
  refine ⟨?_, ?_⟩
  · intro i hi
    have hlt : i < strings.length + 1 := by omega
    simp [word, terminated, hi, hlt]
  · simp [word, terminated]

theorem terminated_inside {strings : List String} {behind : Nat → Word} {i : Nat}
    (h : (terminated strings behind).ExecveReads i) : i < (terminated strings behind).elems.length := by
  by_contra hge
  have hlt : strings.length < i := by
    simp [terminated] at hge
    omega
  exact h _ hlt (terminated_yields strings behind).null

theorem Yields.execveReads {strings : List String} (h : a.Yields strings) : a.ExecveReads strings.length := by
  intro j hj hnull
  rw [h.string j hj] at hnull
  cases hnull

end CharArray

/-- `args[i]` is read: the first element by `process_command_request`, whatever the size is. -/
def Vectors.ArgsRead (v : Vectors) (i : Nat) : Prop := i = 0 ∨ v.args.ExecveReads i

def Vectors.EnvpRead (v : Vectors) (i : Nat) : Prop := v.envp.ExecveReads i

/-- Nothing is read outside the arrays, and `execve` gets the strings of the command. -/
structure WellFormedVectors (c : Command) (v : Vectors) : Prop where
  argsInside : ∀ i, v.ArgsRead i → i < v.args.elems.length
  envpInside : ∀ i, v.EnvpRead i → i < v.envp.elems.length
  args : v.args.Yields c.args
  envp : v.envp.Yields c.envp

/-- One more element in each array would do. -/
theorem terminated_wellFormed (c : Command) (behindArgs behindEnvp : Nat → Word) :
    WellFormedVectors c ⟨.terminated c.args behindArgs, .terminated c.envp behindEnvp⟩ where
  argsInside := by
    rintro i (rfl | hread)
    · simp [CharArray.terminated]
    · exact CharArray.terminated_inside hread
  envpInside := by
    intro i hread
    exact CharArray.terminated_inside hread
  args := CharArray.terminated_yields c.args behindArgs
  envp := CharArray.terminated_yields c.envp behindEnvp

/-! ## The decoder's arrays -/

section CopyStrings

variable {memory : Nat → Bool} {behind : Nat → Word} {strings : List String}

@[simp] theorem copyStrings_length : (copyStrings memory behind strings).elems.length = strings.length := by
  simp [copyStrings]

theorem copyStrings_word {i : Nat} (h : i < strings.length) :
    (copyStrings memory behind strings).word i = strdup (memory i) strings[i] := by
  simp [CharArray.word, copyStrings, h]

theorem copyStrings_word_length : (copyStrings memory behind strings).word strings.length = behind 0 := by
  simp [CharArray.word, copyStrings]

theorem strdup_eq_string_iff {b : Bool} {s t : String} : strdup b s = .string t ↔ b = true ∧ s = t := by
  cases b <;> simp [strdup]

theorem strdup_ne_null_iff {b : Bool} {s : String} : strdup b s ≠ .null ↔ b = true := by
  cases b <;> simp [strdup]

/-- As many strings come out only if they are the copied ones, and only with the help of the word behind
them. -/
theorem copyStrings_yields_iff {found : List String} (hlen : found.length = strings.length) :
    (copyStrings memory behind strings).Yields found ↔
      strings = found ∧ (∀ i < strings.length, memory i = true) ∧ behind 0 = .null := by
  constructor
  · intro h
    have hword : ∀ i (hi : i < strings.length) (hfound : i < found.length),
        strdup (memory i) strings[i] = .string found[i] := by
      intro i hi hfound
      exact (copyStrings_word hi).symm.trans (h.string i hfound)
    refine ⟨?_, ?_, ?_⟩
    · refine List.ext_getElem hlen.symm ?_
      intro i hi hfound
      exact (strdup_eq_string_iff.mp (hword i hi hfound)).2
    · intro i hi
      exact (strdup_eq_string_iff.mp (hword i hi (by omega))).1
    · rw [← h.null, hlen]
      exact copyStrings_word_length.symm
  · rintro ⟨rfl, hmemory, hbehind⟩
    refine ⟨?_, ?_⟩
    · intro i hi
      rw [copyStrings_word hi]
      exact strdup_eq_string_iff.mpr ⟨hmemory i hi, rfl⟩
    · rw [copyStrings_word_length, hbehind]

theorem execveReads_outside_iff : (copyStrings memory behind strings).ExecveReads strings.length ↔
    ∀ i < strings.length, memory i = true := by
  constructor
  · intro h i hi
    have hne := h i hi
    rw [copyStrings_word hi] at hne
    exact strdup_ne_null_iff.mp hne
  · intro h i hi
    rw [copyStrings_word hi]
    exact strdup_ne_null_iff.mpr (h i hi)

end CopyStrings

/-- Without arguments even `args[0]` is outside. -/
theorem argsRead_outside_of_nil {c : Command} (h : c.args = []) (heap : Heap) :
    (c.vectors heap).ArgsRead 0 ∧ (c.vectors heap).args.elems.length = 0 :=
  ⟨.inl rfl, by simp [Command.vectors, h]⟩

theorem not_wellFormedVectors (c : Command) (heap : Heap) : ¬ WellFormedVectors c (c.vectors heap) := by
  intro h
  have hread : (c.vectors heap).ArgsRead c.args.length := .inr h.args.execveReads
  have hinside := h.argsInside _ hread
  simp [Command.vectors] at hinside

theorem receiveVectors_eq {verify : Bytes → Int → Option Message} {heap : Heap} {buffer : Option Bytes} {size : Int}
    {c : Command} {v : Vectors} (h : receiveVectors verify heap buffer size = .ok (some (c, v))) :
    receiveCommand verify buffer size = .ok (some c) ∧ v = c.vectors heap := by
  obtain ⟨command, hcommand, h⟩ := bind_eq_ok.mp h
  cases command with
  | none => cases h
  | some c' =>
    cases h
    exact ⟨hcommand, rfl⟩

/-- For every message, every command and every state of the heap. -/
theorem vectors_malformed {verify : Bytes → Int → Option Message} {heap : Heap} {buffer : Option Bytes} {size : Int}
    {c : Command} {v : Vectors} (h : receiveVectors verify heap buffer size = .ok (some (c, v))) :
    ¬ WellFormedVectors c v := by
  rw [(receiveVectors_eq h).2]
  exact not_wellFormedVectors c heap

section Echo

/-- `echo bonjour` with an empty environment. -/
def echo : Message := .runCommand (some ⟨some "/bin/echo", some ["echo", "bonjour"], some [], 0, 1048576, some []⟩)

/-- Its buffer as the C++ package lays it out. -/
def echoBytes : Bytes :=
  [12, 0, 0, 0, 8, 0, 12, 0, 7, 0, 8, 0, 8, 0, 0, 0, 0, 0, 0, 1, 20, 0, 0, 0,
   16, 0, 24, 0, 4, 0, 8, 0, 12, 0, 0, 0, 16, 0, 20, 0, 16, 0, 0, 0, 40, 0, 0, 0,
   24, 0, 0, 0, 16, 0, 0, 0, 0, 0, 16, 0, 4, 0, 0, 0, 0, 0, 0, 0, 0, 0, 0, 0,
   2, 0, 0, 0, 36, 0, 0, 0, 20, 0, 0, 0, 9, 0, 0, 0, 47, 98, 105, 110, 47, 101, 99, 104,
   111, 0, 0, 0, 7, 0, 0, 0, 98, 111, 110, 106, 111, 117, 114, 0, 4, 0, 0, 0, 101, 99, 104, 111,
   0, 0, 0, 0]

/-- What the verifier and the accessors make of it. -/
def verifyEcho (b : Bytes) (n : Int) : Option Message :=
  if b = echoBytes ∧ n = b.length then some echo else none

/-- Memory for every copy, and zeros behind the arrays. -/
def clearedHeap : Heap := ⟨fun _ => true, fun _ => true, fun _ => .null, fun _ => .null⟩

/-- As `clearedHeap`, with other data behind the arguments. -/
def usedHeap : Heap := { clearedHeap with behindArgs := fun _ => .wild 1 }

def echoCommand : Command := ⟨"/bin/echo", ["echo", "bonjour"], [], 0, 1048576, []⟩

theorem receiveVectors_echo (heap : Heap) :
    receiveVectors verifyEcho heap (some echoBytes) 124 = .ok (some (echoCommand, echoCommand.vectors heap)) := by
  have hmessage : getMessage verifyEcho (some echoBytes) 124 = some echo := by
    rw [getMessage, if_neg (by decide), verifyEcho, if_pos ⟨rfl, by simp [echoBytes]⟩]
  simp only [receiveVectors, receiveCommand, hmessage]
  rfl

theorem echo_malformed : ¬ WellFormedVectors echoCommand (echoCommand.vectors clearedHeap) :=
  vectors_malformed (receiveVectors_echo clearedHeap)

/-- On a used heap `execve` gets a third argument that is not in the message. -/
theorem echo_gets_wild_argument :
    receiveVectors verifyEcho usedHeap (some echoBytes) 124 =
        .ok (some (echoCommand, echoCommand.vectors usedHeap)) ∧
      (echoCommand.vectors usedHeap).args.ExecveReads 2 ∧ (echoCommand.vectors usedHeap).args.word 2 = .wild 1 ∧
      ¬ WellFormedVectors echoCommand (echoCommand.vectors usedHeap) := by
  have hreads : (echoCommand.vectors usedHeap).args.ExecveReads 2 :=
    execveReads_outside_iff.mpr fun _ _ => rfl
  refine ⟨receiveVectors_echo usedHeap, hreads, rfl, ?_⟩
  exact not_wellFormedVectors echoCommand usedHeap

end Echo

end ProcCtrld
