import ProcCtrld.CommandCodec

/-!
# ProcCtrld.ClientLine

How the Rust client makes a `RunCommand` of a line of its standard input (`main` in `proto_client.rs`).

The line is cut into tokens. The arguments and the environment entries are two filters of all tokens, which
tell the path by its value; each list is joined with spaces and split again. Joining and splitting gives a
list of tokens back, but no tokens become one empty string (`splitSpace_joinSpace`).

`line_partitioned_iff` says exactly which lines come out as the path, the other tokens without `=` and those
with it.
-/

namespace ProcCtrld.Rust

open FlatBuffers

/-! ## Tokens -/

/-- `char::is_whitespace`. -/
def isWhitespace (c : Char) : Bool :=
  let n := c.toNat
  (9 ≤ n && n ≤ 13) || n == 0x20 || n == 0x85 || n == 0xA0 || n == 0x1680 || (0x2000 ≤ n && n ≤ 0x200A) ||
    n == 0x2028 || n == 0x2029 || n == 0x202F || n == 0x205F || n == 0x3000

/-- `str::trim`. -/
def trim (s : List Char) : List Char :=
  ((s.dropWhile isWhitespace).reverse.dropWhile isWhitespace).reverse

/-- `str::split_whitespace`. -/
def splitWhitespace (s : List Char) : List (List Char) := (s.splitOnP isWhitespace).filter (· ≠ [])

def tokens (inputLine : String) : List String :=
  ((splitWhitespace (trim inputLine.toList)).map String.ofList).filter (· ≠ "\n")

/-- `arg.contains("=")`. -/
def hasEq (arg : String) : Bool := '=' ∈ arg.toList

/-- `join(" ")`. -/
def joinSpace (args : List String) : String := String.ofList ([' '].intercalate (args.map String.toList))

/-- `split(" ").collect()`. -/
def splitSpace (s : String) : List String := (s.toList.splitOn ' ').map String.ofList

/-! ## The command -/

def argsTab (tokens : List String) (pathCommand : String) : List String :=
  splitSpace (joinSpace (tokens.filter fun arg => arg ≠ pathCommand ∧ ¬ hasEq arg))

def argsEnvs (tokens : List String) : List String := splitSpace (joinSpace (tokens.filter hasEq))

/-- What `main` gives to `serialize_run_command`; `none` is the panic of `tokens[0]`. -/
def lineCommand (inputLine : String) : Option Command :=
  match tokens inputLine with
  | [] => none
  | pathCommand :: rest =>
    some ⟨pathCommand, argsTab (pathCommand :: rest) pathCommand, argsEnvs (pathCommand :: rest), 0, 0,
      [some (.watchSocket 8080)]⟩

/-- The command has the first token for its path, the other tokens without `=` for its arguments, and those
with `=` for its environment. -/
structure Partitioned (cmd : Command) (path : String) (rest : List String) : Prop where
  path : cmd.path = path
  args : cmd.args = rest.filter fun arg => ¬ hasEq arg
  envp : cmd.envp = rest.filter hasEq

/-- The table that a line is sent as. -/
def Sent (inputLine : String) (cmd : Command) : Prop :=
  lineCommand inputLine = some cmd ∧ Builds (buildCommand cmd) [] fun o objs => Stored objs o (commandValue cmd)

/-! ## Tokens have no spaces -/

theorem mem_splitOnP {p : Char → Bool} {s : List Char} : ∀ t ∈ s.splitOnP p, ∀ c ∈ t, p c = false := by
  induction s with
  | nil =>
    intro t ht c hc
    rw [List.splitOnP_nil, List.mem_singleton] at ht
    rw [ht] at hc
    cases hc
  | cons a s ih =>
    intro t ht c hc
    rw [List.splitOnP_cons_eq_if_modifyHead] at ht
    split at ht
    · rcases List.mem_cons.mp ht with rfl | ht
      · cases hc
      · exact ih t ht c hc
    · rename_i ha
      obtain ⟨u, us, hus⟩ := List.exists_cons_of_ne_nil (List.splitOnP_ne_nil p s)
      rw [hus, List.modifyHead_cons] at ht
      rcases List.mem_cons.mp ht with rfl | ht
      · rcases List.mem_cons.mp hc with rfl | hc
        · exact Bool.eq_false_iff.mpr ha
        · exact ih u (by rw [hus]; exact List.mem_cons_self ..) c hc
      · exact ih t (by rw [hus]; exact List.mem_cons_of_mem _ ht) c hc

/-- What `join` and `split` need to know of a token. -/
structure IsToken (t : String) : Prop where
  spaceFree : ' ' ∉ t.toList
  nonempty : t ≠ ""

theorem isToken_of_mem {inputLine t : String} (h : t ∈ tokens inputLine) : IsToken t := by
  obtain ⟨h, -⟩ := List.mem_filter.mp h
  obtain ⟨cs, hcs, rfl⟩ := List.mem_map.mp h
  obtain ⟨hsplit, hne⟩ := List.mem_filter.mp hcs
  refine ⟨?_, ?_⟩
  · rw [String.toList_ofList]
    intro hspace
    have hfalse := mem_splitOnP cs hsplit ' ' hspace
    revert hfalse
    decide
  · intro hempty
    have hnil := congrArg String.toList hempty
    rw [String.toList_ofList] at hnil
    simp [hnil] at hne

theorem splitSpace_joinSpace {ts : List String} (h : ∀ t ∈ ts, IsToken t) :
    splitSpace (joinSpace ts) = if ts = [] then [""] else ts := by
  by_cases hts : ts = []
  · subst hts
    rfl
  · have hspace : ∀ cs ∈ ts.map String.toList, ' ' ∉ cs := by
      intro cs hcs
      obtain ⟨t, ht, rfl⟩ := List.mem_map.mp hcs
      exact (h t ht).spaceFree
    have hne : ts.map String.toList ≠ [] := by simpa using hts
    rw [if_neg hts, splitSpace, joinSpace, String.toList_ofList, List.splitOn_intercalate ' ' hspace hne, List.map_map]
    simp

theorem splitSpace_joinSpace_eq_iff {ts us : List String} (hts : ∀ t ∈ ts, IsToken t) (hus : ∀ t ∈ us, IsToken t) :
    splitSpace (joinSpace ts) = us ↔ us ≠ [] ∧ ts = us := by
  rw [splitSpace_joinSpace hts]
  split
  · rename_i hnil
    constructor
    · intro hempty
      exact absurd rfl (hus "" (hempty ▸ List.mem_singleton_self _)).nonempty
    · rintro ⟨hne, heq⟩
      exact absurd (heq.symm.trans hnil) hne
  · rename_i hne
    constructor
    · rintro rfl
      exact ⟨hne, rfl⟩
    · exact fun h => h.2

/-! ## The two lists -/

section Line

variable {path : String} {rest : List String}

theorem argsTab_eq_iff (h : ∀ t ∈ path :: rest, IsToken t) :
    (argsTab (path :: rest) path = rest.filter fun arg => ¬ hasEq arg) ↔
      (∃ t ∈ rest, hasEq t = false) ∧ (hasEq path = false → path ∉ rest) := by
  have hrest : ∀ t ∈ rest.filter fun arg => ¬ hasEq arg, IsToken t := by
    intro t ht
    exact h t (List.mem_cons_of_mem _ (List.mem_filter.mp ht).1)
  have hall : ((path :: rest).filter fun arg => arg ≠ path ∧ ¬ hasEq arg) =
      (rest.filter fun arg => ¬ hasEq arg).filter fun arg => arg ≠ path := by
    rw [List.filter_cons_of_neg (by simp), List.filter_filter]
    simp
  have hsome : (rest.filter fun arg => ¬ hasEq arg) ≠ [] ↔ ∃ t ∈ rest, hasEq t = false := by
    simp [List.filter_eq_nil_iff]
  have hsame : ((rest.filter fun arg => ¬ hasEq arg).filter fun arg => arg ≠ path) =
      (rest.filter fun arg => ¬ hasEq arg) ↔ (hasEq path = false → path ∉ rest) := by
    rw [List.filter_eq_self]
    constructor
    · intro hne hpath hmem
      simpa using hne path (List.mem_filter.mpr ⟨hmem, by simp [hpath]⟩)
    · intro hnot t ht
      obtain ⟨ht, heq⟩ := List.mem_filter.mp ht
      rw [decide_eq_true_eq]
      rintro rfl
      exact hnot (by simpa using heq) ht
  have hothers : ∀ t ∈ (rest.filter fun arg => ¬ hasEq arg).filter fun arg => arg ≠ path, IsToken t := by
    intro t ht
    exact hrest t (List.mem_filter.mp ht).1
  rw [argsTab, hall, splitSpace_joinSpace_eq_iff hothers hrest, hsome, hsame]

theorem argsEnvs_eq_iff (h : ∀ t ∈ path :: rest, IsToken t) :
    argsEnvs (path :: rest) = rest.filter hasEq ↔ hasEq path = false ∧ ∃ t ∈ rest, hasEq t := by
  have hrest : ∀ t ∈ rest.filter hasEq, IsToken t := by
    intro t ht
    exact h t (List.mem_cons_of_mem _ (List.mem_filter.mp ht).1)
  have hsome : rest.filter hasEq ≠ [] ↔ ∃ t ∈ rest, hasEq t := by
    simp [List.filter_eq_nil_iff]
  have hsame : (path :: rest).filter hasEq = rest.filter hasEq ↔ hasEq path = false := by
    cases hpath : hasEq path with
    | false => simp [hpath]
    | true =>
      rw [List.filter_cons_of_pos hpath]
      constructor
      · intro heq
        have hlen := congrArg List.length heq
        simp at hlen
      · intro hfalse
        cases hfalse
  have hall : ∀ t ∈ (path :: rest).filter hasEq, IsToken t := by
    intro t ht
    exact h t (List.mem_filter.mp ht).1
  rw [argsEnvs, splitSpace_joinSpace_eq_iff hall hrest, hsome, hsame, and_comm]

end Line

/-! ## The table -/

theorem lineCommand_fits {inputLine : String} {cmd : Command} (h : lineCommand inputLine = some cmd) :
    cmd.Fits := by
  unfold lineCommand at h
  split at h
  · cases h
  · cases h
    have hzero : ScalarType.uint32.fits (0 : Nat) = true := by decide
    refine ⟨hzero, hzero, ?_⟩
    intro w hw
    rw [List.mem_singleton.mp hw]
    show ScalarType.uint32.fits (8080 : Nat) = true
    decide

theorem lineCommand_builds {inputLine : String} {cmd : Command} (h : lineCommand inputLine = some cmd) :
    Builds (buildCommand cmd) [] fun o objs => Stored objs o (commandValue cmd) :=
  Rust.buildCommand_builds (lineCommand_fits h)

/-- For every line with a token. -/
theorem line_partitioned_iff {inputLine path : String} {rest : List String}
    (htokens : tokens inputLine = path :: rest) :
    ∃ cmd, Sent inputLine cmd ∧
      (Partitioned cmd path rest ↔
        hasEq path = false ∧ path ∉ rest ∧ (∃ t ∈ rest, hasEq t) ∧ ∃ t ∈ rest, hasEq t = false) := by
  have hline : lineCommand inputLine = some ⟨path, argsTab (path :: rest) path, argsEnvs (path :: rest), 0, 0,
      [some (.watchSocket 8080)]⟩ := by
    simp only [lineCommand, htokens]
  have htoken : ∀ t ∈ path :: rest, IsToken t := by
    intro t ht
    exact isToken_of_mem (htokens ▸ ht)
  refine ⟨_, ⟨hline, lineCommand_builds hline⟩, ?_⟩
  constructor
  · rintro ⟨-, hargs, henvp⟩
    dsimp only at hargs henvp
    obtain ⟨hsome, hnot⟩ := (argsTab_eq_iff htoken).mp hargs
    obtain ⟨hpath, henv⟩ := (argsEnvs_eq_iff htoken).mp henvp
    exact ⟨hpath, hnot hpath, henv, hsome⟩
  · rintro ⟨hpath, hnot, henv, hsome⟩
    refine ⟨rfl, ?_, ?_⟩ <;> dsimp only
    · exact (argsTab_eq_iff htoken).mpr ⟨hsome, fun _ => hnot⟩
    · exact (argsEnvs_eq_iff htoken).mpr ⟨hpath, henv⟩

theorem ls_with_environment_partitioned :
    ∃ cmd, Sent "ls -l A=1 /\n" cmd ∧ Partitioned cmd "ls" ["-l", "A=1", "/"] := by
  have htokens : tokens "ls -l A=1 /\n" = ["ls", "-l", "A=1", "/"] := by decide +kernel
  have hpath : hasEq "ls" = false := by decide +kernel
  have hassign : hasEq "A=1" = true := by decide +kernel
  have hflag : hasEq "-l" = false := by decide +kernel
  obtain ⟨cmd, hsent, hiff⟩ := line_partitioned_iff htokens
  exact ⟨cmd, hsent, hiff.mpr ⟨hpath, by simp, ⟨"A=1", by simp, hassign⟩, ⟨"-l", by simp, hflag⟩⟩⟩

/-- `ls` alone gets an empty argument and an empty environment entry. -/
theorem ls_gets_empty_strings :
    ∃ cmd, Sent "ls\n" cmd ∧ cmd.args = [""] ∧ cmd.envp = [""] ∧ ¬ Partitioned cmd "ls" [] := by
  have hline : lineCommand "ls\n" = some ⟨"ls", [""], [""], 0, 0, [some (.watchSocket 8080)]⟩ := by decide +kernel
  refine ⟨_, ⟨hline, lineCommand_builds hline⟩, rfl, rfl, ?_⟩
  intro h
  have := h.args
  simp at this

end ProcCtrld.Rust
