import ProcCtrld.Chunks
import Mathlib.Algebra.Group.Nat.Defs
import Mathlib.Algebra.Ring.Int.Defs

/-!
# ProcCtrld.Network

The framing reader of the C daemon (`read_socket_message` in `Network.c`) over a byte stream cut
into the chunks that successive `read` calls return. A frame is a 4-byte native `int` (little
endian) followed by that many bytes.

The reader makes one `read` for the header and one for the body and gives up when either is short.
`read_messages_iff` says exactly when it is independent of the cut: successive calls return the
payloads that were sent if and only if no cut falls strictly inside a header or a payload and every
allocation succeeds.
-/

namespace ProcCtrld

abbrev Bytes := List UInt8

/-- `struct buffer_info`. -/
structure BufferInfo where
  buffer : Bytes
  size : Int
deriving DecidableEq, Repr

/-- What `malloc` answers during one call of `read_socket_message`: whether it can allocate the
`struct buffer_info`, and a buffer of a given size. -/
structure Malloc where
  info : Bool
  buffer : Nat → Bool

def intBytes (n : Nat) : Bytes :=
  [UInt8.ofNat n, UInt8.ofNat (n / 256), UInt8.ofNat (n / 65536), UInt8.ofNat (n / 16777216)]

/-- The `int` stored in four bytes; the value of a shorter list is never used. -/
def intOfBytes : Bytes → Int
  | [a, b, c, d] =>
    let u := a.toNat + 256 * b.toNat + 65536 * c.toNat + 16777216 * d.toNat
    if u < 2 ^ 31 then u else u - 2 ^ 32
  | _ => 0

def frame (payload : Bytes) : Bytes := intBytes payload.length ++ payload

def frames (payloads : List Bytes) : Bytes := (payloads.map frame).flatten

/-- `read_socket_message`: the result (`none` is `NULL`) and the rest of the stream. -/
def readSocketMessage (malloc : Malloc) (sock : List Bytes) : Option BufferInfo × List Bytes :=
  if malloc.info then
    let hdr := Chunks.read 4 sock
    if hdr.1.length = 4 then
      let size := intOfBytes hdr.1
      -- a negative size becomes a `size_t` above PTRDIFF_MAX, which malloc always refuses
      if 0 ≤ size ∧ malloc.buffer size.toNat then
        let body := Chunks.read size.toNat hdr.2
        if (body.1.length : Int) = size then (some ⟨body.1, size⟩, body.2) else (none, body.2)
      else (none, hdr.2)
    else (none, hdr.2)
  else (none, sock)

/-- `n` successive calls on one socket, the first one being call number `k`. -/
def readSocketMessages (malloc : Nat → Malloc) : Nat → Nat → List Bytes → List (Option BufferInfo)
  | _, 0, _ => []
  | k, n + 1, sock =>
    let r := readSocketMessage (malloc k) sock
    r.1 :: readSocketMessages malloc (k + 1) n r.2

/-- No cut falls strictly inside the header or the payload of a frame, the first frame starting at
position `a` of the stream. -/
def FramesUncut (sock : List Bytes) : Nat → List Bytes → Prop
  | _, [] => True
  | a, p :: ps =>
    Chunks.Uncut sock a 4 ∧ Chunks.Uncut sock (a + 4) p.length ∧ FramesUncut sock (a + 4 + p.length) ps

/-- Every allocation of the calls that read `payloads` succeeds. -/
def Allocated (malloc : Nat → Malloc) : Nat → List Bytes → Prop
  | _, [] => True
  | k, p :: ps => (malloc k).info ∧ (malloc k).buffer p.length ∧ Allocated malloc (k + 1) ps

theorem length_intBytes (n : Nat) : (intBytes n).length = 4 := rfl

theorem intOfBytes_intBytes {n : Nat} (h : n < 2 ^ 31) : intOfBytes (intBytes n) = n := by
  simp only [intBytes, intOfBytes, UInt8.toNat_ofNat']
  rw [if_pos (by omega)]
  omega

theorem length_frame (p : Bytes) : (frame p).length = 4 + p.length := by
  simp [frame, length_intBytes]

theorem framesUncut_shift {sock sock' : List Bytes} {n : Nat}
    (h : ∀ a m, Chunks.Uncut sock' a m ↔ Chunks.Uncut sock (a + n) m) (ps : List Bytes) :
    ∀ a, FramesUncut sock' a ps ↔ FramesUncut sock (a + n) ps := by
  induction ps with
  | nil => intro a; rfl
  | cons p ps ih =>
    intro a
    simp only [FramesUncut, h, ih]
    rw [show a + 4 + n = a + n + 4 by omega, show a + 4 + p.length + n = a + n + 4 + p.length by omega]

/-- What a call that returns a buffer has done: both allocations succeeded and both reads were
answered in full. -/
theorem readSocketMessage_eq_some {malloc : Malloc} {sock sock' : List Bytes} {info : BufferInfo} :
    readSocketMessage malloc sock = (some info, sock') ↔
      malloc.info ∧ (Chunks.read 4 sock).1.length = 4 ∧ intOfBytes (Chunks.read 4 sock).1 = info.size ∧
        0 ≤ info.size ∧ malloc.buffer info.size.toNat ∧ (info.buffer.length : Int) = info.size ∧
        Chunks.read info.size.toNat (Chunks.read 4 sock).2 = (info.buffer, sock') := by
  simp only [readSocketMessage]
  constructor
  · intro h
    split at h
    · rename_i hinfo
      split at h
      · rename_i hhdr
        split at h
        · rename_i hsize
          split at h
          · rename_i hbody; cases h; exact ⟨hinfo, hhdr, rfl, hsize.1, hsize.2, hbody, rfl⟩
          · cases h
        · cases h
      · cases h
    · cases h
  · rintro ⟨hinfo, hhdr, hsize, hnn, hbuf, hlen, hread⟩
    rw [if_pos hinfo, if_pos hhdr, hsize, if_pos ⟨hnn, hbuf⟩, hread, if_pos hlen]

section Frame

variable {malloc : Malloc} {sock : List Bytes} {p rest : Bytes}

theorem read_header (hp : p.length < 2 ^ 31) (hne : ∀ c ∈ sock, c ≠ [])
    (hs : sock.flatten = frame p ++ rest) (h4 : (Chunks.read 4 sock).1.length = 4) :
    intOfBytes (Chunks.read 4 sock).1 = p.length ∧ (Chunks.read 4 sock).2.flatten = p ++ rest ∧
      ((Chunks.read p.length (Chunks.read 4 sock).2).1.length = p.length ↔
        Chunks.Uncut sock 4 p.length) := by
  obtain ⟨htake, hdrop⟩ := Chunks.read_eq_of_length h4
  rw [hs, frame, List.append_assoc] at htake hdrop
  have htake' : (Chunks.read 4 sock).1 = intBytes p.length := htake
  have hdrop' : (Chunks.read 4 sock).2.flatten = p ++ rest := hdrop
  refine ⟨by rw [htake', intOfBytes_intBytes hp], hdrop', ?_⟩
  rw [Chunks.length_read_eq_iff (Chunks.read_ne_nil hne) (by rw [hdrop']; simp),
    Chunks.uncut_read h4, Nat.zero_add]

/-- One call on such a stream returns `p` exactly when both reads are answered in full and both
allocations succeed. -/
theorem readSocketMessage_frame (hp : p.length < 2 ^ 31) (hne : ∀ c ∈ sock, c ≠ [])
    (hs : sock.flatten = frame p ++ rest) :
    (readSocketMessage malloc sock).1 = some ⟨p, p.length⟩ ↔
      Chunks.Uncut sock 0 4 ∧ Chunks.Uncut sock 4 p.length ∧ malloc.info ∧ malloc.buffer p.length := by
  have hlen : sock.flatten.length = 4 + p.length + rest.length := by
    rw [hs, List.length_append, length_frame]
  have hhdr := Chunks.length_read_eq_iff hne (show 4 ≤ sock.flatten.length by omega)
  constructor
  · intro h
    obtain ⟨hinfo, h4, _, _, hbuf, _, hread⟩ := readSocketMessage_eq_some.mp (Prod.ext h rfl)
    obtain ⟨_, _, hbody⟩ := read_header hp hne hs h4
    simp only [Int.toNat_natCast] at hbuf hread
    exact ⟨hhdr.mp h4, hbody.mp (by rw [hread]), hinfo, hbuf⟩
  · rintro ⟨hu0, hu4, hinfo, hbuf⟩
    have h4 := hhdr.mpr hu0
    obtain ⟨hsize, hrest, hbody⟩ := read_header hp hne hs h4
    have hfull := hbody.mpr hu4
    have hb := (Chunks.read_eq_of_length hfull).1
    rw [hrest, List.take_left] at hb
    have hall : readSocketMessage malloc sock = (some ⟨p, p.length⟩, _) :=
      readSocketMessage_eq_some.mpr ⟨hinfo, h4, hsize, by simp, by simpa using hbuf, rfl, Prod.ext hb rfl⟩
    rw [hall]

/-- After such a call the stream goes on after the frame. -/
theorem readSocketMessage_rest (hp : p.length < 2 ^ 31) (hne : ∀ c ∈ sock, c ≠ [])
    (hs : sock.flatten = frame p ++ rest) (h : (readSocketMessage malloc sock).1 = some ⟨p, p.length⟩) :
    (∀ c ∈ (readSocketMessage malloc sock).2, c ≠ []) ∧
      (readSocketMessage malloc sock).2.flatten = rest ∧
      ∀ a m, Chunks.Uncut (readSocketMessage malloc sock).2 a m ↔
        Chunks.Uncut sock (a + (4 + p.length)) m := by
  obtain ⟨_, h4, _, _, _, _, hread⟩ := readSocketMessage_eq_some.mp (Prod.ext h rfl)
  simp only [Int.toNat_natCast] at hread
  have hfull : (Chunks.read p.length (Chunks.read 4 sock).2).1.length = p.length := by rw [hread]
  have hsock : (readSocketMessage malloc sock).2 = (Chunks.read p.length (Chunks.read 4 sock).2).2 := by
    rw [hread]
  rw [hsock]
  refine ⟨Chunks.read_ne_nil (Chunks.read_ne_nil hne), ?_, ?_⟩
  · rw [(Chunks.read_eq_of_length hfull).2, (read_header hp hne hs h4).2.1, List.drop_left]
  · intro a m
    rw [Chunks.uncut_read hfull, Chunks.uncut_read h4, Nat.add_assoc, Nat.add_comm 4]

end Frame

theorem read_messages_iff_from (malloc : Nat → Malloc) (ps : List Bytes) :
    ∀ (k : Nat) (sock : List Bytes), (∀ p ∈ ps, p.length < 2 ^ 31) → (∀ c ∈ sock, c ≠ []) →
      sock.flatten = frames ps →
      (readSocketMessages malloc k ps.length sock = ps.map (fun p => some ⟨p, p.length⟩) ↔
        FramesUncut sock 0 ps ∧ Allocated malloc k ps) := by
  induction ps with
  | nil => intro k sock _ _ _; simp [readSocketMessages, FramesUncut, Allocated]
  | cons p ps ih =>
    intro k sock hlt hne hs
    have hp := hlt p (by simp)
    have hs' : sock.flatten = frame p ++ frames ps := by simpa [frames] using hs
    have hone := @readSocketMessage_frame (malloc k) sock p (frames ps) hp hne hs'
    simp only [List.length_cons, readSocketMessages, List.map_cons, List.cons.injEq, FramesUncut,
      Allocated, Nat.zero_add]
    by_cases hfirst : (readSocketMessage (malloc k) sock).1 = some ⟨p, p.length⟩
    · obtain ⟨hne', hrest, hshift⟩ := readSocketMessage_rest hp hne hs' hfirst
      rw [ih (k + 1) _ (fun q hq => hlt q (by simp [hq])) hne' hrest,
        framesUncut_shift hshift ps 0, Nat.zero_add]
      obtain ⟨h0, h4, hi, hb⟩ := hone.mp hfirst
      simp only [hfirst, true_and, h0, h4, hi, hb]
    · constructor
      · intro h; exact absurd h.1 hfirst
      · rintro ⟨⟨h0, h4, _⟩, hi, hb, _⟩
        exact absurd (hone.mpr ⟨h0, h4, hi, hb⟩) hfirst

/-- Successive calls return the payloads that were sent, in order, exactly when no cut of the stream
falls strictly inside a header or a payload and no allocation fails. -/
theorem read_messages_iff (malloc : Nat → Malloc) (payloads : List Bytes) (sock : List Bytes)
    (hpayloads : ∀ p ∈ payloads, p ≠ [] ∧ p.length < 2 ^ 31) (hchunks : ∀ c ∈ sock, c ≠ [])
    (hstream : sock.flatten = frames payloads) :
    readSocketMessages malloc 0 payloads.length sock = payloads.map (fun p => some ⟨p, p.length⟩) ↔
      FramesUncut sock 0 payloads ∧ Allocated malloc 0 payloads :=
  read_messages_iff_from malloc payloads 0 sock (fun p hp => (hpayloads p hp).2) hchunks hstream

def mallocOk : Malloc := ⟨true, fun _ => true⟩

/-- Two frames, the second one of them cut inside its payload: the second call returns `NULL`. -/
theorem cut_payload_is_lost :
    let payloads : List Bytes := [[7], [1, 2, 3]]
    let sock : List Bytes := [[1, 0, 0, 0, 7, 3, 0, 0, 0, 1], [2, 3]]
    ((∀ p ∈ payloads, p ≠ [] ∧ p.length < 2 ^ 31) ∧ (∀ c ∈ sock, c ≠ []) ∧
      sock.flatten = frames payloads) ∧
    readSocketMessages (fun _ => mallocOk) 0 payloads.length sock = [some ⟨[7], 1⟩, none] ∧
    readSocketMessages (fun _ => mallocOk) 0 payloads.length sock ≠
      payloads.map (fun p => some ⟨p, p.length⟩) := by
  decide

/-- The same frames, with two of them in one segment and a cut between a header and its payload. -/
theorem uncut_payloads_are_returned :
    readSocketMessages (fun _ => mallocOk) 0 2 [[1, 0, 0, 0, 7, 3, 0, 0, 0], [1, 2, 3]] =
      [some ⟨[7], 1⟩, some ⟨[1, 2, 3], 3⟩] :=
  (read_messages_iff (fun _ => mallocOk) [[7], [1, 2, 3]] [[1, 0, 0, 0, 7, 3, 0, 0, 0], [1, 2, 3]]
    (by decide) (by decide) (by decide)).mpr
    ⟨⟨by decide, by decide, by decide, by decide, trivial⟩, rfl, rfl, rfl, rfl, trivial⟩

end ProcCtrld
