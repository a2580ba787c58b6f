import ProcCtrld.Network
import ProcCtrld.UserCodec
import ProcCtrld.RustDaemon

/-!
# ProcCtrld.InotifyRecords

What the C daemon tells of inotify records (`findSize`, `process_Event` and `handle_inotify_event` in
`events.c`), from the bytes that `read` put into the buffer.

The loop walks over headers and names in memory. A name is read as a C string at the end of the header,
also when the record has none, and one `struct InotifyPathUpdated` serves all records, so an event
that no test assigns is the one of the record before. `handleRecords_data` says what the walk makes of
the bytes of a list of records.

* `own_event_only_iff` — the path and the event of a message are those of its own record, whatever else
  is in the batch, exactly when the record has a name and a kind that is reported.
* `size_trigger_exact_iff` — when SIZE_REACHED is sent exactly for the files above the threshold: the
  size is cut to 32 bits, a failed `stat` counts as the largest size, and no threshold as the threshold 0.
-/

namespace ProcCtrld

open Rust (IN_ACCESS IN_CLOSE_WRITE IN_CREATE IN_DELETE IN_MODIFY)

/-! ## The loop over the buffer -/

/-- `struct InotifyPathUpdated`, with the bytes of the string that `path` points to. -/
structure PathInfo where
  path : Bytes
  event : Int
  size : Nat
  sizeLimit : Nat
deriving DecidableEq, Repr

/-- An `int` converted to `uint32_t`. -/
def asU32 (n : Int) : Nat := (BitVec.ofInt 32 n).toNat

/-- `findSize`: an `off_t` returned as an `int`, or -1. `stat` gives the size of a file that it finds. -/
def findSize (stat : Bytes → Option Nat) (fileName : Bytes) : Int :=
  match stat fileName with
  | some size => asI32 size
  | none => -1

/-- `process_Event` on a record with this mask and name. In the comparison of `info->size` with the
`int` `size` both are unsigned. -/
def processEvent (stat : Bytes → Option Nat) (size : Int) (mask : BitVec 32) (name : Bytes)
    (info : PathInfo) : PathInfo :=
  let event := if mask &&& IN_ACCESS ≠ 0 then InotifyEvent.accessed.number else info.event
  let event := if mask &&& IN_CREATE ≠ 0 then InotifyEvent.created.number else event
  let event := if mask &&& IN_DELETE ≠ 0 then InotifyEvent.deleted.number else event
  if mask &&& IN_MODIFY ≠ 0 then
    let newSize := asU32 (findSize stat name)
    let event := if asU32 size < newSize then InotifyEvent.sizeReached.number
      else InotifyEvent.modified.number
    ⟨name, event, newSize, asU32 size⟩
  else ⟨name, event, asU32 size, asU32 size⟩

def uint32At (mem : Bytes) (offset : Nat) : BitVec 32 :=
  BitVec.ofInt 32 (intOfBytes ((mem.drop offset).take 4))

/-! `struct inotify_event` at the start of the memory: `wd`, `mask`, `cookie`, `len`, `name`. -/

def headerSize : Nat := 16

def maskAt (mem : Bytes) : BitVec 32 := uint32At mem 4

def lenAt (mem : Bytes) : Nat := (uint32At mem 12).toNat

/-- A C string ends at the first NUL, wherever that is. -/
def nameAt (mem : Bytes) : Bytes := (mem.drop headerSize).takeWhile (· ≠ 0)

/-- The loop of `handle_inotify_event` with `left` bytes to go, `mem` being the memory from `p` on: the
messages it sends. -/
def handleRecords (stat : Bytes → Option Nat) (size : Int) : Nat → Nat → Bytes → PathInfo → List PathInfo
  | 0, _, _, _ => []
  | fuel + 1, left, mem, info =>
    if 0 < left then
      let info := processEvent stat size (maskAt mem) (nameAt mem) info
      let step := headerSize + lenAt mem
      info :: handleRecords stat size fuel (left - step) (mem.drop step) info
    else []

/-- `handle_inotify_event` when `read` returns `s`. `buf` is the memory from the buffer on, and `info`
the uninitialised structure. Every turn of the loop takes 16 bytes or more. -/
def handleInotifyEvent (stat : Bytes → Option Nat) (size s : Int) (buf : Bytes) (info : PathInfo) :
    List PathInfo :=
  handleRecords stat size s.toNat s.toNat buf info

/-! ## Batches -/

/-- The kernel pads a name with NULs, to 256 bytes at most. A record about the watched object itself has
no name. -/
structure Record where
  wd : BitVec 32
  mask : BitVec 32
  cookie : BitVec 32
  name : Bytes
  pad : Nat
  nulFree : 0 ∉ name
  terminated : name ≠ [] → 0 < pad
  unnamed : name = [] → pad = 0
  short : name.length + pad ≤ 256

namespace Record

def len (r : Record) : Nat := r.name.length + r.pad

def header (r : Record) : Bytes :=
  intBytes r.wd.toNat ++ intBytes r.mask.toNat ++ intBytes r.cookie.toNat ++ intBytes r.len

def bytes (r : Record) : Bytes := r.header ++ (r.name ++ List.replicate r.pad 0)

/-- The string that is found where the name of the record should be. -/
def path (r : Record) (following : Bytes) : Bytes :=
  if r.name = [] then following.takeWhile (· ≠ 0) else r.name

end Record

def data (rs : List Record) : Bytes := rs.flatMap Record.bytes

/-- `char buf[512]`. -/
def Fits (rs : List Record) : Prop := (data rs).length ≤ 512

/-- The kind that `process_Event` makes of a mask, size apart. -/
def kindOf (mask : BitVec 32) : Option InotifyEvent :=
  if mask &&& IN_MODIFY ≠ 0 then some .modified
  else if mask &&& IN_DELETE ≠ 0 then some .deleted
  else if mask &&& IN_CREATE ≠ 0 then some .created
  else if mask &&& IN_ACCESS ≠ 0 then some .accessed
  else none

/-- One message for each record, in order. -/
def reports (stat : Bytes → Option Nat) (size : Int) (after : Bytes) : List Record → PathInfo → List PathInfo
  | [], _ => []
  | r :: rs, info =>
    let info := processEvent stat size r.mask (r.path (data rs ++ after)) info
    info :: reports stat size after rs info

/-! ## Reading a record back -/

theorem uint32_intBytes (n : Nat) : BitVec.ofInt 32 (intOfBytes (intBytes n)) = BitVec.ofNat 32 n := by
  apply BitVec.eq_of_toNat_eq
  simp only [intBytes, intOfBytes, UInt8.toNat_ofNat', BitVec.toNat_ofInt, BitVec.toNat_ofNat]
  split <;> omega

namespace Record

variable (r : Record) (rest : Bytes)

theorem length_header : r.header.length = headerSize := by
  simp [header, length_intBytes, headerSize]

theorem length_bytes : r.bytes.length = headerSize + r.len := by
  simp [bytes, length_header, len]

theorem maskAt_bytes : maskAt (r.bytes ++ rest) = r.mask := by
  have hread : ((r.bytes ++ rest).drop 4).take 4 = intBytes r.mask.toNat := rfl
  rw [maskAt, uint32At, hread, uint32_intBytes, BitVec.ofNat_toNat, BitVec.setWidth_eq]

theorem lenAt_bytes : lenAt (r.bytes ++ rest) = r.len := by
  have hread : ((r.bytes ++ rest).drop 12).take 4 = intBytes r.len := rfl
  have hlt : r.len < 2 ^ 32 := by
    have := r.short
    unfold len
    omega
  rw [lenAt, uint32At, hread, uint32_intBytes, BitVec.toNat_ofNat, Nat.mod_eq_of_lt hlt]

theorem nameAt_bytes : nameAt (r.bytes ++ rest) = r.path rest := by
  have hdrop : (r.bytes ++ rest).drop headerSize = r.name ++ (List.replicate r.pad 0 ++ rest) := by
    rw [bytes, List.append_assoc, List.drop_left' r.length_header, List.append_assoc]
  rw [nameAt, hdrop, path]
  split
  · rename_i hname
    rw [hname, r.unnamed hname]
    rfl
  · -- the name ends at the first byte of its padding
    rename_i hname
    have hall : ∀ b ∈ r.name, decide (b ≠ 0) = true := by
      intro b hb
      rw [decide_eq_true_eq]
      rintro rfl
      exact r.nulFree hb
    obtain ⟨n, hn⟩ : ∃ n, r.pad = n + 1 := ⟨r.pad - 1, by have := r.terminated hname; omega⟩
    rw [List.takeWhile_append_of_pos hall, hn, List.replicate_succ]
    simp

theorem drop_bytes : (r.bytes ++ rest).drop (headerSize + r.len) = rest :=
  List.drop_left' r.length_bytes

end Record

section Walk

variable {stat : Bytes → Option Nat} {size : Int} {after : Bytes}

/-- The walk over the bytes of a list of records reports one after the other. -/
theorem handleRecords_data (rs : List Record) : ∀ (fuel : Nat) (info : PathInfo), (data rs).length ≤ fuel →
    handleRecords stat size fuel (data rs).length (data rs ++ after) info =
      reports stat size after rs info := by
  induction rs with
  | nil =>
    intro fuel info _
    cases fuel <;> rfl
  | cons r rs ih =>
    intro fuel info hfuel
    have hdata : data (r :: rs) = r.bytes ++ data rs := rfl
    rw [hdata, List.length_append, r.length_bytes] at hfuel ⊢
    have hpos : 0 < headerSize := by decide
    obtain ⟨fuel, rfl⟩ : ∃ n, fuel = n + 1 := ⟨fuel - 1, by omega⟩
    have hleft : 0 < headerSize + r.len + (data rs).length := by omega
    simp only [handleRecords, if_pos hleft, List.append_assoc, r.maskAt_bytes, r.nameAt_bytes,
      r.lenAt_bytes, r.drop_bytes, Nat.add_sub_cancel_left]
    rw [ih fuel _ (by omega)]
    rfl

theorem handleInotifyEvent_data (rs : List Record) (info : PathInfo) :
    handleInotifyEvent stat size (data rs).length (data rs ++ after) info =
      reports stat size after rs info :=
  handleRecords_data rs _ info le_rfl

variable (stat size after) in
theorem reports_at (pre : List Record) (r : Record) (post : List Record) (info : PathInfo) :
    ∃ before, (reports stat size after (pre ++ r :: post) info)[pre.length]? =
      some (processEvent stat size r.mask (r.path (data post ++ after)) before) := by
  induction pre generalizing info with
  | nil => exact ⟨info, rfl⟩
  | cons q pre ih => exact ih _

end Walk

/-! ## What a message depends on -/

section Own

variable (stat : Bytes → Option Nat) (size : Int) (after : Bytes) (info : PathInfo)

/-- The path and the event that are sent for `r` between `pre` and `post`. -/
def told (pre : List Record) (r : Record) (post : List Record) : Option (Bytes × Int) :=
  (handleInotifyEvent stat size (data (pre ++ r :: post)).length (data (pre ++ r :: post) ++ after)
    info)[pre.length]?.map fun m => (m.path, m.event)

/-- What is told of `r` is the same in all batches, and if `r` is of no reported kind it is not the kind
of a record before it. -/
structure OwnEventOnly (r : Record) : Prop where
  same : ∀ pre post pre' post', Fits (pre ++ r :: post) → Fits (pre' ++ r :: post') →
    told stat size after info pre r post = told stat size after info pre' r post'
  fresh : kindOf r.mask = none → ∀ pre post, Fits (pre ++ r :: post) → ∀ q ∈ pre, ∀ kind,
    kindOf q.mask = some kind → ∀ m ∈ told stat size after info pre r post, m.2 ≠ kind.number

end Own

section Dependence

variable {stat : Bytes → Option Nat} {size : Int} {after : Bytes} {info : PathInfo} {r : Record}

theorem processEvent_path (mask : BitVec 32) (name : Bytes) :
    (processEvent stat size mask name info).path = name := by
  by_cases hmodify : mask &&& IN_MODIFY ≠ 0
  · simp only [processEvent, if_pos hmodify]
  · simp only [processEvent, if_neg hmodify]

theorem processEvent_event_of_kind {mask : BitVec 32} (h : (kindOf mask).isSome) (name : Bytes)
    (info' : PathInfo) :
    (processEvent stat size mask name info).event = (processEvent stat size mask name info').event := by
  unfold kindOf at h
  split at h
  · rename_i hmodify
    simp only [processEvent, if_pos hmodify]
  · rename_i hmodify
    split at h
    · rename_i hdelete
      simp only [processEvent, if_neg hmodify, if_pos hdelete]
    · rename_i hdelete
      split at h
      · rename_i hcreate
        simp only [processEvent, if_neg hmodify, if_neg hdelete, if_pos hcreate]
      · rename_i hcreate
        split at h
        · rename_i haccess
          simp only [processEvent, if_neg hmodify, if_neg hdelete, if_neg hcreate, if_pos haccess]
        · cases h

theorem processEvent_event_of_no_kind {mask : BitVec 32} (h : kindOf mask = none) (name : Bytes) :
    (processEvent stat size mask name info).event = info.event := by
  unfold kindOf at h
  split at h
  · cases h
  · rename_i hmodify
    split at h
    · cases h
    · rename_i hdelete
      split at h
      · cases h
      · rename_i hcreate
        split at h
        · cases h
        · rename_i haccess
          simp only [processEvent, if_neg hmodify, if_neg hdelete, if_neg hcreate, if_neg haccess]

/-- A record with a name and a kind is told by itself. -/
theorem told_of_kind (hname : r.name ≠ []) (hkind : (kindOf r.mask).isSome) (pre post : List Record) :
    told stat size after info pre r post =
      some (r.name, (processEvent stat size r.mask r.name info).event) := by
  obtain ⟨before, hbefore⟩ := reports_at stat size after pre r post info
  rw [told, handleInotifyEvent_data, hbefore, Record.path, if_neg hname, Option.map_some,
    processEvent_path, processEvent_event_of_kind hkind r.name info]

/-- A record without a name, about the watch `wd`. -/
def nameless (wd mask : BitVec 32) : Record where
  wd := wd
  mask := mask
  cookie := 0
  name := []
  pad := 0
  nulFree := by simp
  terminated := fun h => absurd rfl h
  unnamed := fun _ => rfl
  short := by simp

theorem length_data_cons (q : Record) (rs : List Record) :
    (data (q :: rs)).length = headerSize + q.len + (data rs).length := by
  rw [← q.length_bytes, ← List.length_append]
  rfl

theorem length_data_nil : (data []).length = 0 := rfl

theorem fits_pair {q₁ q₂ : Record} (h : q₁.len + q₂.len ≤ 256) : Fits [q₁, q₂] := by
  unfold Fits
  rw [length_data_cons, length_data_cons, length_data_nil]
  unfold headerSize
  omega

variable (stat size after info) in
/-- After a record without a name the watch descriptor of the next one is read. -/
theorem told_nameless (hname : r.name = []) (wd mask : BitVec 32) (b : UInt8) (hb : b ≠ 0)
    (hwd : intBytes wd.toNat = [b, 0, 0, 0]) :
    (told stat size after info [] r [nameless wd mask]).map (·.1) = some [b] := by
  have hpath : r.path (data [nameless wd mask] ++ after) = [b] := by
    have hdata : data [nameless wd mask] ++ after = b :: 0 :: ((data [nameless wd mask] ++ after).drop 2) := by
      simp [data, nameless, Record.bytes, Record.header, hwd]
    rw [Record.path, if_pos hname, hdata]
    simp [hb]
  rw [told, handleInotifyEvent_data]
  simp [reports, hpath, processEvent_path]

variable (stat size after info) in
/-- A record of no reported kind is told with the kind of the one before. -/
theorem told_no_kind (hkind : kindOf r.mask = none) (q : Record) :
    (told stat size after info [q] r []).map (·.2) =
      some (processEvent stat size q.mask (q.path (data [r] ++ after)) info).event := by
  rw [told, handleInotifyEvent_data]
  simp [reports, processEvent_event_of_no_kind hkind]

/-- For every record and whatever the memory held before: the message depends on the record alone exactly
when the record has a name and is of a kind that is reported. -/
theorem own_event_only_iff (stat : Bytes → Option Nat) (size : Int) (after : Bytes) (info : PathInfo)
    (r : Record) :
    OwnEventOnly stat size after info r ↔ r.name ≠ [] ∧ (kindOf r.mask).isSome := by
  constructor
  · intro h
    have hlen : r.len ≤ 256 := r.short
    constructor
    · intro hname
      have hsame := h.same [] [nameless 1 0] [] [nameless 2 0] (fits_pair hlen) (fits_pair hlen)
      have h₁ := told_nameless stat size after info hname 1 0 1 (by decide) rfl
      rw [hsame, told_nameless stat size after info hname 2 0 2 (by decide) rfl] at h₁
      cases h₁
    · rw [Option.isSome_iff_ne_none]
      intro hkind
      have hfits : ∀ mask, Fits ([nameless 1 mask] ++ [r]) := fun mask => fits_pair (by
        rw [Nat.add_comm]; exact hlen)
      have hsame := h.same [nameless 1 IN_CREATE] [] [nameless 1 IN_DELETE] [] (hfits _) (hfits _)
      have h₁ := told_no_kind stat size after info hkind (nameless 1 IN_CREATE)
      rw [hsame, told_no_kind stat size after info hkind] at h₁
      cases h₁
  · rintro ⟨hname, hkind⟩
    refine ⟨?_, ?_⟩
    · intro pre post pre' post' _ _
      rw [told_of_kind hname hkind, told_of_kind hname hkind]
    · intro hnone
      rw [hnone] at hkind; cases hkind

end Dependence

/-- A record with the name `a`. -/
def named (mask : BitVec 32) : Record where
  wd := 1
  mask := mask
  cookie := 0
  name := [97]
  pad := 15
  nulFree := by decide
  terminated := by decide
  unnamed := by decide
  short := by decide

/-- A close is told as a creation after a creation and as a deletion after a deletion. -/
theorem close_repeats_kind_before :
    told (fun _ => none) 0 [] ⟨[], 0, 0, 0⟩ [named IN_CREATE] (named IN_CLOSE_WRITE) [] =
      some ([97], InotifyEvent.created.number) ∧
    told (fun _ => none) 0 [] ⟨[], 0, 0, 0⟩ [named IN_DELETE] (named IN_CLOSE_WRITE) [] =
      some ([97], InotifyEvent.deleted.number) ∧
    kindOf (named IN_CLOSE_WRITE).mask = none ∧
    ¬ OwnEventOnly (fun _ => none) 0 [] ⟨[], 0, 0, 0⟩ (named IN_CLOSE_WRITE) := by
  have hcreate : told (fun _ => none) 0 [] ⟨[], 0, 0, 0⟩ [named IN_CREATE] (named IN_CLOSE_WRITE) [] =
      some ([97], InotifyEvent.created.number) := by decide +kernel
  have hdelete : told (fun _ => none) 0 [] ⟨[], 0, 0, 0⟩ [named IN_DELETE] (named IN_CLOSE_WRITE) [] =
      some ([97], InotifyEvent.deleted.number) := by decide +kernel
  refine ⟨hcreate, hdelete, by decide, ?_⟩
  intro h
  have hfits : ∀ mask, Fits ([named mask] ++ [named IN_CLOSE_WRITE]) := fun _ => fits_pair (by simp [Record.len, named])
  have hsame := h.same _ [] _ [] (hfits IN_CREATE) (hfits IN_DELETE)
  rw [hcreate, hdelete] at hsame
  cases hsame

/-! ## The size trigger -/

/-- `I_param->size` in the `int` that `add_event_inotifyFd` stores with the descriptor. The descriptor of
`main` is stored with 0. -/
def storedSize (threshold : BitVec 32) : Int := asI32 threshold.toNat

/-- SIZE_REACHED is told exactly of a file above a threshold, and MODIFIED otherwise. `found` is the
outcome of `stat`. -/
structure TriggerExact (threshold : BitVec 32) (found : Option Nat) (event : Int) : Prop where
  reached : event = InotifyEvent.sizeReached.number ↔
    threshold ≠ 0 ∧ ∃ size, found = some size ∧ threshold.toNat < size
  otherwise : event ≠ InotifyEvent.sizeReached.number → event = InotifyEvent.modified.number

/-- The file is found, and cutting its size to 32 bits does not take it below the threshold; without a
threshold the 32 bits are 0. A file that is not found passes for one of the largest size, which no
threshold but the largest one withstands. -/
def CutHarmless (threshold : BitVec 32) : Option Nat → Prop
  | none => threshold.toNat = 2 ^ 32 - 1
  | some size =>
    if threshold = 0 then size % 2 ^ 32 = 0 else size < 2 ^ 32 ∨ threshold.toNat < size % 2 ^ 32

/-- The size that is compared with the threshold. -/
def cutSize : Option Nat → Nat
  | none => 2 ^ 32 - 1
  | some size => size % 2 ^ 32

theorem asU32_asI32 (n : Nat) : asU32 (asI32 n) = n % 2 ^ 32 := by
  rw [asU32, asI32, BitVec.ofInt_toInt, BitVec.toNat_ofNat]

theorem asU32_storedSize (threshold : BitVec 32) : asU32 (storedSize threshold) = threshold.toNat := by
  rw [storedSize, asU32_asI32, Nat.mod_eq_of_lt threshold.isLt]

theorem asU32_findSize (stat : Bytes → Option Nat) (name : Bytes) :
    asU32 (findSize stat name) = cutSize (stat name) := by
  unfold findSize
  cases stat name with
  | none => decide
  | some size => exact asU32_asI32 size

section Trigger

variable {stat : Bytes → Option Nat} {threshold : BitVec 32} {after : Bytes} {info : PathInfo} {r : Record}

theorem processEvent_modify {mask : BitVec 32} (h : mask &&& IN_MODIFY ≠ 0) (name : Bytes) :
    (processEvent stat (storedSize threshold) mask name info).event =
      if threshold.toNat < cutSize (stat name) then InotifyEvent.sizeReached.number
      else InotifyEvent.modified.number := by
  simp only [processEvent, if_pos h, asU32_storedSize, asU32_findSize]

/-- Comparing the cut size is as good as the comparison that is asked for. -/
theorem cut_comparison_iff (threshold : BitVec 32) (found : Option Nat) :
    (threshold.toNat < cutSize found ↔
      threshold ≠ 0 ∧ ∃ size, found = some size ∧ threshold.toNat < size) ↔
    CutHarmless threshold found := by
  have hlt := threshold.isLt
  cases found with
  | none =>
    simp only [cutSize, CutHarmless, reduceCtorEq, false_and, exists_false, and_false, iff_false]
    omega
  | some size =>
    have hcut : size % 2 ^ 32 ≤ size := Nat.mod_le _ _
    have hwide : size % 2 ^ 32 < 2 ^ 32 := Nat.mod_lt _ (by decide)
    simp only [cutSize, CutHarmless, Option.some.injEq, exists_eq_left']
    split
    · rename_i hzero
      subst hzero
      have hnat : (0 : BitVec 32).toNat = 0 := rfl
      simp only [ne_eq, not_true_eq_false, false_and, iff_false, hnat]
      omega
    · rename_i hzero
      simp only [ne_eq, hzero, not_false_eq_true, true_and]
      by_cases hsmall : size < 2 ^ 32
      · rw [Nat.mod_eq_of_lt hsmall]
        exact ⟨fun _ => .inl hsmall, fun _ => Iff.rfl⟩
      · constructor
        · intro h
          exact .inr (h.2 (by omega))
        · rintro (h | h)
          · exact absurd h hsmall
          · exact ⟨fun _ => by omega, fun _ => h⟩

theorem triggerExact_iff {event : Int} (found : Option Nat)
    (hevent : event = if threshold.toNat < cutSize found then InotifyEvent.sizeReached.number
      else InotifyEvent.modified.number) :
    TriggerExact threshold found event ↔ CutHarmless threshold found := by
  rw [← cut_comparison_iff]
  by_cases hcmp : threshold.toNat < cutSize found
  · rw [if_pos hcmp] at hevent
    subst hevent
    exact ⟨fun h => by simpa [hcmp] using h.reached,
      fun h => ⟨by simpa [hcmp] using h, fun hne => absurd rfl hne⟩⟩
  · rw [if_neg hcmp] at hevent
    subst hevent
    have hne : InotifyEvent.modified.number ≠ InotifyEvent.sizeReached.number := by decide
    exact ⟨fun h => by simpa [hcmp, hne] using h.reached,
      fun h => ⟨by simpa [hcmp, hne] using h, fun _ => rfl⟩⟩

end Trigger

/-- For every batch and every record of a modification in it, every threshold and outcome of `stat`. -/
theorem size_trigger_exact_iff (stat : Bytes → Option Nat) (threshold : BitVec 32) (after : Bytes)
    (info : PathInfo) (pre : List Record) (r : Record) (post : List Record)
    (hmodify : r.mask &&& IN_MODIFY ≠ 0) :
    (∃ m, told stat (storedSize threshold) after info pre r post = some m ∧
      TriggerExact threshold (stat (r.path (data post ++ after))) m.2) ↔
    CutHarmless threshold (stat (r.path (data post ++ after))) := by
  obtain ⟨before, hbefore⟩ := reports_at stat (storedSize threshold) after pre r post info
  have htold : told stat (storedSize threshold) after info pre r post =
      some (r.path (data post ++ after), (processEvent stat (storedSize threshold) r.mask
        (r.path (data post ++ after)) before).event) := by
    rw [told, handleInotifyEvent_data, hbefore, Option.map_some, processEvent_path]
  rw [← triggerExact_iff _ (processEvent_modify hmodify _)]
  constructor
  · rintro ⟨m, hm, hexact⟩
    rw [htold, Option.some.injEq] at hm
    subst hm
    exact hexact
  · intro h
    exact ⟨_, htold, h⟩

/-- A file of 11 bytes with the threshold 10. -/
theorem size_trigger_eleven_bytes :
    (named IN_MODIFY).mask &&& IN_MODIFY ≠ 0 ∧ CutHarmless 10 (some 11) ∧
    ∃ m, told (fun _ => some 11) (storedSize 10) [] ⟨[], 0, 0, 0⟩ [] (named IN_MODIFY) [] = some m ∧
      TriggerExact 10 (some 11) m.2 := by
  have hmodify : (named IN_MODIFY).mask &&& IN_MODIFY ≠ 0 := by decide
  have hharmless : CutHarmless 10 (some 11) := by
    rw [CutHarmless, if_neg (by decide)]
    exact .inl (by decide)
  exact ⟨hmodify, hharmless,
    (size_trigger_exact_iff (fun _ => some 11) 10 [] ⟨[], 0, 0, 0⟩ [] (named IN_MODIFY) [] hmodify).2 hharmless⟩

/-- Without a threshold, SIZE_REACHED is told of a file of 5 bytes; with the threshold 10, of a file that is
not found; and a file of `2 ^ 32` bytes does not reach it. -/
theorem five_bytes_reach_no_threshold :
    told (fun _ => some 5) (storedSize 0) [] ⟨[], 0, 0, 0⟩ [] (named IN_MODIFY) [] =
      some ([97], InotifyEvent.sizeReached.number) ∧
    ¬ TriggerExact 0 (some 5) InotifyEvent.sizeReached.number ∧
    told (fun _ => none) (storedSize 10) [] ⟨[], 0, 0, 0⟩ [] (named IN_MODIFY) [] =
      some ([97], InotifyEvent.sizeReached.number) ∧
    ¬ TriggerExact 10 none InotifyEvent.sizeReached.number ∧
    told (fun _ => some (2 ^ 32)) (storedSize 10) [] ⟨[], 0, 0, 0⟩ [] (named IN_MODIFY) [] =
      some ([97], InotifyEvent.modified.number) ∧
    ¬ TriggerExact 10 (some (2 ^ 32)) InotifyEvent.modified.number := by
  refine ⟨by decide +kernel, ?_, by decide +kernel, ?_, by decide +kernel, ?_⟩
  · intro h
    exact (h.reached.1 rfl).1 rfl
  · intro h
    obtain ⟨-, size, hsize, -⟩ := h.reached.1 rfl
    cases hsize
  · intro h
    have hreached := h.reached.2 ⟨by decide, _, rfl, by decide⟩
    cases hreached

end ProcCtrld
