import ProcCtrld.InotifyRecords

/-!
# ProcCtrld.InotifyWalk

The loop of `handle_inotify_event` (`events.c`) turn by turn, with the pointer `p` and a log of the calls
of `process_Event`. The step to the next record is the `len` field of the record in the buffer.

A record is a header of 16 bytes and as many bytes of name as its `len` says, whatever they are.
`batch_walked`: on the bytes of any list of records that fit into the buffer, the loop goes to each record
once and in order, calls `process_Event` with its mask and its name, sends one message for each, and ends with
`p` at the end of the bytes.
`walk_sent` connects the turns with `handleInotifyEvent`.
-/

namespace ProcCtrld

/-- `struct inotify_event` with the bytes of its name. -/
structure RawRecord where
  wd : BitVec 32
  mask : BitVec 32
  cookie : BitVec 32
  name : Bytes
deriving DecidableEq, Repr

namespace RawRecord

def header (r : RawRecord) : Bytes :=
  intBytes r.wd.toNat ++ intBytes r.mask.toNat ++ intBytes r.cookie.toNat ++ intBytes r.name.length

def bytes (r : RawRecord) : Bytes := r.header ++ r.name

/-- The C string that `event->name` points to, with `following` behind the record. -/
def path (r : RawRecord) (following : Bytes) : Bytes := (r.name ++ following).takeWhile (· ≠ 0)

end RawRecord

def batch (rs : List RawRecord) : Bytes := rs.flatMap RawRecord.bytes

/-- The record that a pointer to this memory points to. -/
def recordAt (mem : Bytes) : RawRecord where
  wd := uint32At mem 0
  mask := maskAt mem
  cookie := uint32At mem 8
  name := (mem.drop headerSize).take (lenAt mem)

/-- `p` counts from the start of the buffer. `calls` are the records that `process_Event` was called on,
each with the structure that it left. -/
structure Walk where
  p : Nat
  info : PathInfo
  calls : List (RawRecord × PathInfo)
  sent : List PathInfo

/-- The calls of `process_Event` on the records of a batch, each with the structure that the one before it
left. -/
def recordCalls (stat : Bytes → Option Nat) (size : Int) (after : Bytes) :
    List RawRecord → PathInfo → List (RawRecord × PathInfo)
  | [], _ => []
  | r :: rs, info =>
    let info := processEvent stat size r.mask (r.path (batch rs ++ after)) info
    (r, info) :: recordCalls stat size after rs info

def Walk.start (info : PathInfo) : Walk := ⟨0, info, [], []⟩

section Loop

variable (stat : Bytes → Option Nat) (size s : Int) (buf : Bytes)

/-- The body of the loop and `p += sizeof(struct inotify_event) + event->len`. -/
def Walk.turn (w : Walk) : Walk :=
  let event := buf.drop w.p
  let info := processEvent stat size (maskAt event) (nameAt event) w.info
  { p := w.p + (headerSize + lenAt event)
    info := info
    calls := w.calls ++ [(recordAt event, info)]
    sent := w.sent ++ [info] }

/-- The loop, with the condition `p<buf+s`; `none` when it has not ended after that many turns. -/
def Walk.run : Nat → Walk → Option Walk
  | 0, w => if (w.p : Int) < s then none else some w
  | turns + 1, w => if (w.p : Int) < s then Walk.run turns (w.turn stat size buf) else some w

end Loop

/-! ## Records in the buffer -/

namespace RawRecord

variable (r : RawRecord) (rest : Bytes)

theorem length_header : r.header.length = headerSize := by
  simp [header, length_intBytes, headerSize]

theorem length_bytes : r.bytes.length = headerSize + r.name.length := by
  rw [bytes, List.length_append, length_header]

theorem uint32At_bytes {offset n : Nat} (h : ((r.bytes ++ rest).drop offset).take 4 = intBytes n) :
    uint32At (r.bytes ++ rest) offset = BitVec.ofNat 32 n := by
  rw [uint32At, h, uint32_intBytes]

theorem lenAt_bytes (hlen : r.name.length < 2 ^ 32) : lenAt (r.bytes ++ rest) = r.name.length := by
  rw [lenAt, r.uint32At_bytes rest (n := r.name.length) rfl, BitVec.toNat_ofNat, Nat.mod_eq_of_lt hlen]

theorem maskAt_bytes : maskAt (r.bytes ++ rest) = r.mask := by
  rw [maskAt, r.uint32At_bytes rest (n := r.mask.toNat) rfl, BitVec.ofNat_toNat, BitVec.setWidth_eq]

theorem nameAt_bytes : nameAt (r.bytes ++ rest) = r.path rest := by
  rw [nameAt, bytes, List.append_assoc, List.drop_left' r.length_header, path]

theorem recordAt_bytes (hlen : r.name.length < 2 ^ 32) : recordAt (r.bytes ++ rest) = r := by
  have hwd : uint32At (r.bytes ++ rest) 0 = r.wd := by
    rw [r.uint32At_bytes rest (n := r.wd.toNat) rfl, BitVec.ofNat_toNat, BitVec.setWidth_eq]
  have hcookie : uint32At (r.bytes ++ rest) 8 = r.cookie := by
    rw [r.uint32At_bytes rest (n := r.cookie.toNat) rfl, BitVec.ofNat_toNat, BitVec.setWidth_eq]
  have hname : ((r.bytes ++ rest).drop headerSize).take r.name.length = r.name := by
    rw [bytes, List.append_assoc, List.drop_left' r.length_header, List.take_left]
  rw [recordAt, hwd, r.maskAt_bytes, hcookie, r.lenAt_bytes rest hlen, hname]

end RawRecord

/-! ## The walk -/

section Walk

variable {stat : Bytes → Option Nat} {size s : Int} {buf : Bytes}

theorem Walk.run_of_end {w : Walk} (h : ¬ (w.p : Int) < s) (turns : Nat) :
    w.run stat size s buf turns = some w := by
  cases turns <;> rw [Walk.run, if_neg h]

variable (stat size) in
theorem turn_record {w : Walk} {r : RawRecord} {rest : Bytes} (hevent : buf.drop w.p = r.bytes ++ rest)
    (hr : r.name.length < 2 ^ 32) :
    w.turn stat size buf =
      let info := processEvent stat size r.mask (r.path rest) w.info
      ⟨w.p + r.bytes.length, info, w.calls ++ [(r, info)], w.sent ++ [info]⟩ := by
  simp only [Walk.turn, hevent, r.lenAt_bytes rest hr, r.recordAt_bytes rest hr, r.maskAt_bytes, r.nameAt_bytes,
    r.length_bytes]

theorem recordCalls_records (after : Bytes) (rs : List RawRecord) : ∀ info : PathInfo,
    (recordCalls stat size after rs info).map Prod.fst = rs := by
  induction rs with
  | nil => intro info; rfl
  | cons r rs ih => intro info; simp only [recordCalls, List.map_cons, ih]

variable (stat size) in
/-- From the first record that is left, one turn for each. -/
theorem run_batch (rs : List RawRecord) : ∀ (before after : Bytes) (w : Walk) (turns : Nat),
    (∀ r ∈ rs, r.name.length < 2 ^ 32) → w.p = before.length → rs.length ≤ turns →
    ∃ w', w.run stat size (before ++ batch rs).length (before ++ batch rs ++ after) turns = some w' ∧
      w'.p = (before ++ batch rs).length ∧ w'.calls = w.calls ++ recordCalls stat size after rs w.info ∧
      w'.sent = w.sent ++ (recordCalls stat size after rs w.info).map Prod.snd := by
  induction rs with
  | nil =>
    intro before after w turns _ hp _
    have hend : ¬ (w.p : Int) < ((before ++ batch []).length : Nat) := by
      simp [batch, hp]
    exact ⟨w, Walk.run_of_end hend turns, by simp [batch, hp], by simp [recordCalls], by simp [recordCalls]⟩
  | cons r rs ih =>
    intro before after w turns hlen hp hturns
    obtain ⟨turns, rfl⟩ : ∃ n, turns = n + 1 := ⟨turns - 1, by simp at hturns; omega⟩
    have hr := hlen r (List.mem_cons_self ..)
    have hsame : before ++ batch (r :: rs) = before ++ r.bytes ++ batch rs := by
      rw [show batch (r :: rs) = r.bytes ++ batch rs from rfl, List.append_assoc]
    rw [hsame]
    have hevent : (before ++ r.bytes ++ batch rs ++ after).drop w.p = r.bytes ++ (batch rs ++ after) := by
      rw [hp, List.append_assoc, List.append_assoc, List.drop_left]
    have hcond : (w.p : Int) < ((before ++ r.bytes ++ batch rs).length : Nat) := by
      have hpos : 0 < headerSize := by decide
      rw [List.length_append, List.length_append, r.length_bytes]
      omega
    have hturn := turn_record stat size hevent hr
    obtain ⟨w', hrun, hend, hcalls, hsent⟩ := ih (before ++ r.bytes) after
      (w.turn stat size (before ++ r.bytes ++ batch rs ++ after)) turns
      (fun q hq => hlen q (List.mem_cons_of_mem _ hq)) (by rw [hturn, hp, List.length_append])
      (by simpa using hturns)
    rw [hturn] at hcalls hsent
    refine ⟨w', ?_, hend, ?_, ?_⟩
    · rw [Walk.run, if_pos hcond]
      exact hrun
    · rw [hcalls, List.append_assoc, List.singleton_append, recordCalls]
    · rw [hsent, List.append_assoc, List.singleton_append, recordCalls, List.map_cons]

theorem length_name_le {rs : List RawRecord} {r : RawRecord} (hr : r ∈ rs) : r.name.length ≤ (batch rs).length := by
  induction rs with
  | nil => cases hr
  | cons q rs ih =>
    have hlen : (batch (q :: rs)).length = headerSize + q.name.length + (batch rs).length := by
      rw [show batch (q :: rs) = q.bytes ++ batch rs from rfl, List.length_append, q.length_bytes]
    rcases List.mem_cons.mp hr with rfl | hr
    · omega
    · have := ih hr
      omega

theorem walk_sent (turns : Nat) : ∀ (w w' : Walk) (fuel : Nat), w.run stat size s buf turns = some w' →
    s.toNat - w.p ≤ fuel →
    w'.sent = w.sent ++ handleRecords stat size fuel (s.toNat - w.p) (buf.drop w.p) w.info := by
  induction turns with
  | zero =>
    intro w w' fuel h hfuel
    rw [Walk.run] at h
    split at h
    · cases h
    · rename_i hend
      cases h
      have hleft : s.toNat - w.p = 0 := by omega
      rw [hleft]
      cases fuel <;> simp [handleRecords]
  | succ turns ih =>
    intro w w' fuel h hfuel
    rw [Walk.run] at h
    split at h
    · rename_i hlt
      obtain ⟨fuel, rfl⟩ : ∃ n, fuel = n + 1 := ⟨fuel - 1, by omega⟩
      have hpos : 0 < s.toNat - w.p := by omega
      have hstep : 0 < headerSize + lenAt (buf.drop w.p) := Nat.add_pos_left (by decide) _
      rw [ih _ w' fuel h (by simp only [Walk.turn]; omega)]
      simp only [Walk.turn, handleRecords, if_pos hpos, List.append_assoc, List.singleton_append, List.drop_drop,
        Nat.sub_sub]
    · rename_i hend
      cases h
      have hleft : s.toNat - w.p = 0 := by omega
      rw [hleft]
      cases fuel <;> simp [handleRecords]

end Walk

/-- For every list of records that fit into the buffer, whatever is in the memory behind them, and for a
`read` that gives nothing. -/
theorem batch_walked (stat : Bytes → Option Nat) (size : Int) (info : PathInfo) (rs : List RawRecord)
    (hfit : (batch rs).length ≤ 512) (after : Bytes) (turns : Nat) (hturns : rs.length ≤ turns) :
    (∃ w, (Walk.start info).run stat size (batch rs).length (batch rs ++ after) turns = some w ∧
        w.calls = recordCalls stat size after rs info ∧ w.calls.map Prod.fst = rs ∧
        w.sent = w.calls.map Prod.snd ∧ w.sent.length = rs.length ∧ w.p = (batch rs).length) ∧
      ∀ (s : Int) (buf : Bytes), s = 0 ∨ s = -1 →
        ∃ w, (Walk.start info).run stat size s buf turns = some w ∧ w.calls = [] ∧ w.sent = [] := by
  constructor
  · have hlen : ∀ r ∈ rs, r.name.length < 2 ^ 32 := by
      intro r hr
      have := length_name_le hr
      omega
    obtain ⟨w, hrun, hend, hcalls, hsent⟩ := run_batch stat size rs [] after (Walk.start info) turns hlen rfl hturns
    have hcalls : w.calls = recordCalls stat size after rs info := hcalls
    have hsent : w.sent = (recordCalls stat size after rs info).map Prod.snd := hsent
    have hrs : (recordCalls stat size after rs info).map Prod.fst = rs := recordCalls_records after rs info
    refine ⟨w, hrun, hcalls, ?_, ?_, ?_, hend⟩
    · rw [hcalls, hrs]
    · rw [hcalls, hsent]
    · rw [hsent, List.length_map, ← List.length_map (f := Prod.fst), hrs]
  · intro s buf hs
    have hend : ¬ ((Walk.start info).p : Int) < s := by
      simp only [Walk.start]
      omega
    exact ⟨_, Walk.run_of_end hend turns, rfl, rfl⟩

/-- A creation with a name, and an access to the watched file itself. -/
def twoRecords : List RawRecord := [⟨1, 0x100, 0, [102, 111, 111, 0]⟩, ⟨1, 1, 0, []⟩]

theorem two_records_walked :
    (batch twoRecords).length ≤ 512 ∧
      ∃ w, (Walk.start ⟨[], 7, 0, 0⟩).run (fun _ => none) 0 36 (batch twoRecords ++ [9, 0]) 2 = some w ∧
        w.calls.map Prod.fst = twoRecords ∧ w.sent.map PathInfo.path = [[102, 111, 111], [9]] ∧ w.p = 36 := by
  have hfit : (batch twoRecords).length ≤ 512 := by decide
  obtain ⟨⟨w, hw, hcalls, hrs, hsent, -, hp⟩, -⟩ :=
    batch_walked (fun _ => none) 0 ⟨[], 7, 0, 0⟩ twoRecords hfit [9, 0] 2 (by decide)
  refine ⟨hfit, w, hw, hrs, ?_, hp⟩
  rw [hsent, hcalls]
  rfl

end ProcCtrld
