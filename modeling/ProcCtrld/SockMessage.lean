import ProcCtrld.Network

/-!
# ProcCtrld.SockMessage

The SOCK_MESSAGE case of the event loop (`daemon-core.c`) up to its `switch`: the frame that the step
reads off the stream of the client. `main` reads `info->buffer` and `info->size` before it looks at the
result of `read_socket_message`, and takes size 0 for a closed socket.
-/

namespace ProcCtrld

inductive SockStep where
  | handled (payload : Bytes)
  | closed
  | nullDeref
deriving DecidableEq, Repr

/-- The SOCK_MESSAGE case up to the dispatch on the message. -/
def sockMessage (malloc : Malloc) (sock : List Bytes) : SockStep × List Bytes :=
  match readSocketMessage malloc sock with
  -- `info->buffer` with `info == NULL`
  | (none, rest) => (.nullDeref, rest)
  | (some info, rest) => if info.size = 0 then (.closed, rest) else (.handled info.buffer, rest)

theorem intBytes_intOfBytes {h : Bytes} (hlen : h.length = 4) (hnn : 0 ≤ intOfBytes h) :
    intBytes (intOfBytes h).toNat = h ∧ intOfBytes h < 2 ^ 31 := by
  match h, hlen with
  | [a, b, c, d], _ =>
    have ha := a.toNat_lt; have hb := b.toNat_lt; have hc := c.toNat_lt; have hd := d.toNat_lt
    simp only [intOfBytes] at hnn ⊢
    split at hnn
    · rename_i hlt
      rw [if_pos hlt]
      refine ⟨?_, by exact_mod_cast hlt⟩
      simp only [Int.toNat_natCast, intBytes, List.cons.injEq, and_true]
      refine ⟨?_, ?_, ?_, ?_⟩ <;>
        (apply UInt8.toNat_inj.mp; simp only [UInt8.toNat_ofNat']; omega)
    · omega

theorem readSocketMessage_some {malloc : Malloc} {sock sock' : List Bytes} {info : BufferInfo}
    (h : readSocketMessage malloc sock = (some info, sock')) :
    info.size = info.buffer.length ∧ info.buffer.length < 2 ^ 31 ∧
      sock.flatten = frame info.buffer ++ sock'.flatten := by
  obtain ⟨_, h4, hsize, hnn, _, hlen, hread⟩ := readSocketMessage_eq_some.mp h
  obtain ⟨hbytes, hlt⟩ := intBytes_intOfBytes h4 (by omega)
  rw [hsize] at hbytes hlt
  refine ⟨hlen.symm, by omega, ?_⟩
  have h1 := Chunks.read_append 4 sock
  have h2 := Chunks.read_append info.size.toNat (Chunks.read 4 sock).2
  rw [hread] at h2
  rw [← h1, ← h2, frame, ← hbytes, ← hlen, List.append_assoc, Int.toNat_natCast]

theorem sockMessage_handled {malloc : Malloc} {sock sock' : List Bytes} {p : Bytes} :
    sockMessage malloc sock = (.handled p, sock') ↔
      p ≠ [] ∧ readSocketMessage malloc sock = (some ⟨p, p.length⟩, sock') := by
  simp only [sockMessage]
  constructor
  · intro h
    split at h
    · cases h
    · rename_i info rest hread
      obtain ⟨hsize, _, _⟩ := readSocketMessage_some hread
      split at h
      · cases h
      · rename_i hne
        cases h
        refine ⟨fun h0 => hne (by rw [hsize, h0]; rfl), ?_⟩
        rw [hread, ← hsize]
  · rintro ⟨hp, hread⟩
    rw [hread]; simp [hp]

theorem sockMessage_closed {malloc : Malloc} {sock sock' : List Bytes} :
    sockMessage malloc sock = (.closed, sock') ↔
      readSocketMessage malloc sock = (some ⟨[], 0⟩, sock') := by
  simp only [sockMessage]
  constructor
  · intro h
    split at h
    · cases h
    · rename_i info rest hread
      obtain ⟨hsize, _, _⟩ := readSocketMessage_some hread
      split at h
      · rename_i h0
        cases h
        have : info.buffer = [] := List.eq_nil_of_length_eq_zero (by omega)
        rw [hread, ← h0, ← this]
      · cases h
  · intro hread; rw [hread]; simp

end ProcCtrld
