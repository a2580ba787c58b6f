import ProcCtrld.RustRequests

/-!
# ProcCtrld.RustStream

The byte streams of the Rust daemon (`main.rs`): the loop of a connection, which reads frames with
`read_exact` and hands their payloads to `handle_message`, and `send_on_socket`, which writes frames
with a single `write`.

* `connection_loop_exact_iff` — however the stream is cut and wherever it ends, what is handed on are
  complete payloads in order; it is all of them exactly when `handle_message` returns on each.
* `stream_intact_iff` — the peer receives the frames that were sent exactly when every `write` takes
  its whole frame.
-/

namespace ProcCtrld.Rust

/-! ## Reading -/

/-- `u32::from_le_bytes`; the value of a list of another length is never used. -/
def u32OfBytes : Bytes → Nat
  | [a, b, c, d] => a.toNat + 256 * b.toNat + 65536 * c.toNat + 16777216 * d.toNat
  | _ => 0

theorem u32OfBytes_intBytes {n : Nat} (h : n < 2 ^ 32) : u32OfBytes (intBytes n) = n := by
  simp only [intBytes, u32OfBytes, UInt8.toNat_ofNat']
  omega

/-- The loop of a connection: the payloads handed to `handle_message`, and how the task ends.
`.returns` is a `break`. `handle k` is how the `k`-th call of `handle_message` ends; `none` means that
the fuel ran out. -/
def connectionLoop (handle : Nat → Bytes → Ending) : Nat → Nat → List Bytes → Option (List Bytes × Ending)
  | 0, _, _ => none
  | fuel + 1, k, socket =>
    match Chunks.readExact 4 socket with
    | none => some ([], .returns)
    | some (lenBuf, socket) =>
      match Chunks.readExact (u32OfBytes lenBuf) socket with
      | none => some ([], .returns)
      | some (buf, socket) =>
        match handle k buf with
        | .returns => (connectionLoop handle fuel (k + 1) socket).map fun r => (buf :: r.1, r.2)
        | ending => some ([buf], ending)

/-- The task of one connection. Each turn of the loop that goes on has read four bytes or more. -/
def serveConnection (rootAsMessage : Bytes → Option Message) (os : Nat → RequestOs)
    (socket : List Bytes) : Option (List Bytes × Ending) :=
  connectionLoop (fun k buf => (handleMessage rootAsMessage (os k) buf).ending)
    (socket.flatten.length + 1) 0 socket

/-- The payloads whose frames lie within the first `n` bytes of the stream. -/
def complete : Nat → List Bytes → List Bytes
  | _, [] => []
  | n, p :: ps => if 4 + p.length ≤ n then p :: complete (n - (4 + p.length)) ps else []

/-- Handing payloads to `handle_message` one after the other. -/
def handleAll (handle : Nat → Bytes → Ending) : Nat → List Bytes → List Bytes × Ending
  | _, [] => ([], .returns)
  | k, p :: ps =>
    match handle k p with
    | .returns => (p :: (handleAll handle (k + 1) ps).1, (handleAll handle (k + 1) ps).2)
    | ending => ([p], ending)

theorem frames_cons (p : Bytes) (ps : List Bytes) : frames (p :: ps) = intBytes p.length ++ (p ++ frames ps) := by
  simp [frames, frame]

theorem length_frames_cons (p : Bytes) (ps : List Bytes) :
    (frames (p :: ps)).length = 4 + p.length + (frames ps).length := by
  rw [frames_cons, List.length_append, List.length_append, length_intBytes]
  omega

theorem length_complete_le (n : Nat) (ps : List Bytes) :
    (complete n ps).length ≤ ((frames ps).take n).length := by
  induction ps generalizing n with
  | nil => simp [complete]
  | cons p ps ih =>
    simp only [complete]
    split
    · rename_i hle
      have hih := ih (n - (4 + p.length))
      rw [List.length_take] at hih ⊢
      rw [length_frames_cons, List.length_cons]
      omega
    · simp

theorem read_frame {p : Bytes} {ps : List Bytes} {n : Nat} {socket : List Bytes}
    (hlen : p.length < 2 ^ 32) (hle : 4 + p.length ≤ n)
    (hsock : socket.flatten = (frames (p :: ps)).take n) :
    ∃ s₁ s₂, Chunks.readExact 4 socket = some (intBytes p.length, s₁) ∧
      Chunks.readExact (u32OfBytes (intBytes p.length)) s₁ = some (p, s₂) ∧
      s₂.flatten = (frames ps).take (n - (4 + p.length)) := by
  rw [frames_cons] at hsock
  have h4 : 4 ≤ socket.flatten.length := by
    rw [hsock, List.length_take, List.length_append, length_intBytes]
    omega
  obtain ⟨s₁, hread₁, hflat₁⟩ := Chunks.readExact_eq_some h4
  have hhdr : socket.flatten.take 4 = intBytes p.length := by
    rw [hsock, List.take_take, Nat.min_eq_left (by omega), List.take_left' (length_intBytes _)]
  have hrest₁ : s₁.flatten = (p ++ frames ps).take (n - 4) := by
    rw [hflat₁, hsock, List.drop_take, List.drop_left' (length_intBytes _)]
  have hp : p.length ≤ s₁.flatten.length := by
    rw [hrest₁, List.length_take, List.length_append]
    omega
  obtain ⟨s₂, hread₂, hflat₂⟩ := Chunks.readExact_eq_some hp
  have hbody : s₁.flatten.take p.length = p := by
    rw [hrest₁, List.take_take, Nat.min_eq_left (by omega), List.take_left]
  refine ⟨s₁, s₂, by rw [hread₁, hhdr], by rw [u32OfBytes_intBytes hlen, hread₂, hbody], ?_⟩
  rw [hflat₂, hrest₁, List.drop_take, List.drop_left, Nat.sub_sub]

theorem connectionLoop_cut {handle : Nat → Bytes → Ending} {p : Bytes} {ps : List Bytes} {n : Nat}
    {socket : List Bytes} (hlen : p.length < 2 ^ 32) (hlt : n < 4 + p.length)
    (hsock : socket.flatten = (frames (p :: ps)).take n) (fuel k : Nat) :
    connectionLoop handle (fuel + 1) k socket = some ([], .returns) := by
  rw [frames_cons] at hsock
  have hn : socket.flatten.length = n := by
    rw [hsock, List.length_take, List.length_append, List.length_append, length_intBytes]
    omega
  by_cases h4 : 4 ≤ n
  · obtain ⟨s₁, hread₁, hflat₁⟩ := Chunks.readExact_eq_some (hn ▸ h4)
    have hhdr : socket.flatten.take 4 = intBytes p.length := by
      rw [hsock, List.take_take, Nat.min_eq_left (by omega), List.take_left' (length_intBytes _)]
    have hshort : s₁.flatten.length < u32OfBytes (intBytes p.length) := by
      rw [hflat₁, List.length_drop, hn, u32OfBytes_intBytes hlen]
      omega
    simp only [connectionLoop, hread₁, hhdr, Chunks.readExact_eq_none hshort]
  · simp only [connectionLoop, Chunks.readExact_eq_none (show socket.flatten.length < 4 by omega)]

/-- The loop hands on the complete payloads, as long as `handle_message` returns. -/
theorem connectionLoop_eq (handle : Nat → Bytes → Ending) {ps : List Bytes}
    (hlen : ∀ p ∈ ps, p.length < 2 ^ 32) {n : Nat} {socket : List Bytes}
    (hsock : socket.flatten = (frames ps).take n) {fuel : Nat} (hfuel : (complete n ps).length < fuel)
    (k : Nat) : connectionLoop handle fuel k socket = some (handleAll handle k (complete n ps)) := by
  induction ps generalizing n socket fuel k with
  | nil =>
    obtain ⟨fuel, rfl⟩ := Nat.exists_eq_add_one_of_ne_zero (Nat.ne_of_gt (Nat.zero_lt_of_lt hfuel))
    have hnil : socket.flatten.length < 4 := by rw [hsock]; simp [frames]
    simp only [connectionLoop, Chunks.readExact_eq_none hnil, complete, handleAll]
  | cons p ps ih =>
    obtain ⟨fuel, rfl⟩ := Nat.exists_eq_add_one_of_ne_zero (Nat.ne_of_gt (Nat.zero_lt_of_lt hfuel))
    have hp := hlen p List.mem_cons_self
    by_cases hle : 4 + p.length ≤ n
    · obtain ⟨s₁, s₂, hread₁, hread₂, hflat₂⟩ := read_frame hp hle hsock
      have hcomp : complete n (p :: ps) = p :: complete (n - (4 + p.length)) ps := by
        rw [complete, if_pos hle]
      rw [hcomp] at hfuel ⊢
      have hih := ih (fun q hq => hlen q (List.mem_cons_of_mem _ hq)) hflat₂
        (Nat.lt_of_succ_lt_succ hfuel) (k + 1)
      simp only [connectionLoop, hread₁, hread₂, handleAll]
      cases handle k p with
      | returns => simp only [hih, Option.map_some]
      | panics => rfl
      | waits => rfl
    · have hcomp : complete n (p :: ps) = [] := by rw [complete, if_neg hle]
      rw [hcomp, connectionLoop_cut hp (by omega) hsock]
      rfl

theorem handleAll_prefix (handle : Nat → Bytes → Ending) (k : Nat) (ps : List Bytes) :
    (handleAll handle k ps).1 <+: ps := by
  induction ps generalizing k with
  | nil => exact List.prefix_rfl
  | cons p ps ih =>
    simp only [handleAll]
    split
    · exact List.prefix_cons_inj p |>.mpr (ih (k + 1))
    · exact ⟨ps, rfl⟩

theorem handleAll_eq_iff (handle : Nat → Bytes → Ending) (k : Nat) (ps : List Bytes) :
    handleAll handle k ps = (ps, .returns) ↔
      ∀ (i : Nat) (p : Bytes), ps[i]? = some p → handle (k + i) p = .returns := by
  induction ps generalizing k with
  | nil => simp [handleAll]
  | cons p ps ih =>
    have hsplit : (∀ (i : Nat) (q : Bytes), (p :: ps)[i]? = some q → handle (k + i) q = .returns) ↔
        handle k p = .returns ∧
          ∀ (i : Nat) (q : Bytes), ps[i]? = some q → handle (k + 1 + i) q = .returns := by
      constructor
      · intro h
        refine ⟨h 0 p rfl, ?_⟩
        intro i q hq
        rw [Nat.add_assoc, Nat.add_comm 1 i]
        exact h (i + 1) q hq
      · rintro ⟨h₀, h⟩ i q hq
        cases i with
        | zero => cases hq; exact h₀
        | succ i =>
          rw [Nat.add_comm i 1, ← Nat.add_assoc]
          exact h i q hq
    rw [hsplit, ← ih (k + 1)]
    simp only [handleAll]
    cases handle k p with
    | returns => simp [Prod.ext_iff]
    | panics => simp
    | waits => simp

/-- For every cut of the stream and every byte at which it ends, the loop hands on a prefix of the
complete payloads. It hands on all of them and is left by `break` exactly when `handle_message`
answers each of them. -/
theorem connection_loop_exact_iff (rootAsMessage : Bytes → Option Message) (os : Nat → RequestOs)
    {payloads : List Bytes} (hlen : ∀ p ∈ payloads, p.length < 2 ^ 32) (n : Nat) {socket : List Bytes}
    (hsock : socket.flatten = (frames payloads).take n) :
    (∃ passed ending, serveConnection rootAsMessage os socket = some (passed, ending) ∧
      passed <+: complete n payloads) ∧
    (serveConnection rootAsMessage os socket = some (complete n payloads, .returns) ↔
      ∀ (i : Nat) (p : Bytes), (complete n payloads)[i]? = some p → Answered rootAsMessage (os i) p) := by
  have hfuel : (complete n payloads).length < socket.flatten.length + 1 := by
    have := length_complete_le n payloads
    rw [← hsock] at this
    omega
  have hloop := connectionLoop_eq (fun k buf => (handleMessage rootAsMessage (os k) buf).ending) hlen hsock
    hfuel 0
  rw [serveConnection, hloop]
  refine ⟨⟨_, _, rfl, handleAll_prefix _ _ _⟩, ?_⟩
  rw [Option.some.injEq, handleAll_eq_iff]
  simp only [Nat.zero_add, handleMessage_returns_iff]

/-- Two empty payloads: the verifier refuses the first, the task panics and the second is never
read. -/
theorem second_payload_never_read :
    complete 8 [[], []] = [[], []] ∧
    ∀ rootAsMessage : Bytes → Option Message, rootAsMessage [] = none →
      serveConnection rootAsMessage (fun _ => .quiet) [frames [[], []]] = some ([[]], .panics) ∧
      serveConnection rootAsMessage (fun _ => .quiet) [frames [[], []]] ≠
        some (complete 8 [[], []], .returns) := by
  refine ⟨by decide, ?_⟩
  intro rootAsMessage hroot
  have hloop : serveConnection rootAsMessage (fun _ => .quiet) [frames [[], []]] = some ([[]], .panics) := by
    have hread : Chunks.readExact 4 [frames [[], []]] = some ([0, 0, 0, 0], [[0, 0, 0, 0]]) := by decide
    have hlen : u32OfBytes [0, 0, 0, 0] = 0 := by decide
    have hbody : Chunks.readExact 0 [([0, 0, 0, 0] : Bytes)] = some ([], [[0, 0, 0, 0]]) := rfl
    simp only [serveConnection, connectionLoop, hread, hlen, hbody, handleMessage, hroot, panics]
  refine ⟨hloop, ?_⟩
  rw [hloop]
  decide

/-- The FlatBuffers encoding of a `Message` without an event. -/
def noEvent : Bytes := [8, 0, 0, 0, 4, 0, 4, 0, 4, 0, 0, 0]

/-- What the verifier makes of `noEvent`. -/
def rootNoEvent (b : Bytes) : Option Message := if b = noEvent then some (.other 0 (by decide)) else none

/-- Two frames cut inside the first length and ended after the second one: the first payload is
handed on. -/
theorem cut_frames_read :
    serveConnection rootNoEvent (fun _ => .quiet)
      [[12, 0], [0, 0, 8, 0, 0], [0, 4, 0, 4, 0, 4, 0, 0, 0, 12], [0, 0, 0]] =
      some ([noEvent], .returns) := by
  have hlen : ∀ p ∈ [noEvent, noEvent], p.length < 2 ^ 32 := by decide
  refine (connection_loop_exact_iff rootNoEvent (fun _ => .quiet) hlen 20 (by decide)).2.mpr ?_
  intro i p hp
  have hcomp : complete 20 [noEvent, noEvent] = [noEvent] := by decide
  rw [hcomp] at hp
  cases i with
  | zero =>
    cases hp
    simp [Answered, rootNoEvent]
  | succ i => cases hp

/-! ## Writing -/

/-- `send_on_socket` on a stream of which the peer has `peer`: one `write`, of which the socket
accepts the first `accepted` bytes. -/
def sendOnSocket (peer retour : Bytes) (accepted : Nat) : Bytes := peer ++ (frame retour).take accepted

/-- Calls of `send_on_socket`, each with the count its `write` returns. -/
def sendAll (peer : Bytes) (calls : List (Bytes × Nat)) : Bytes :=
  calls.foldl (fun peer c => sendOnSocket peer c.1 c.2) peer

theorem sendAll_eq (peer : Bytes) (calls : List (Bytes × Nat)) :
    sendAll peer calls = peer ++ (calls.map fun c => (frame c.1).take c.2).flatten := by
  induction calls generalizing peer with
  | nil => simp [sendAll]
  | cons c calls ih =>
    have := ih (sendOnSocket peer c.1 c.2)
    simp only [sendAll, List.foldl_cons] at this ⊢
    rw [this]
    simp [sendOnSocket, List.append_assoc]

theorem length_sendAll {calls : List (Bytes × Nat)} (h : ∀ c ∈ calls, c.2 ≤ (frame c.1).length) :
    (sendAll [] calls).length ≤ (frames (calls.map (·.1))).length ∧
      ((sendAll [] calls).length = (frames (calls.map (·.1))).length →
        ∀ c ∈ calls, c.2 = (frame c.1).length) := by
  rw [sendAll_eq, List.nil_append]
  induction calls with
  | nil => simp [frames]
  | cons c calls ih =>
    obtain ⟨hle, heq⟩ := ih fun d hd => h d (List.mem_cons_of_mem _ hd)
    have hc := h c List.mem_cons_self
    have hframes : (frames ((c :: calls).map (·.1))).length =
        (frame c.1).length + (frames (calls.map (·.1))).length := by simp [frames]
    rw [List.map_cons, List.flatten_cons, List.length_append, List.length_take, hframes]
    refine ⟨by omega, ?_⟩
    intro hsum
    rw [List.forall_mem_cons]
    exact ⟨by omega, heq (by omega)⟩

/-- The peer receives the concatenation of the frames exactly when every `write` takes its whole
frame. -/
theorem stream_intact_iff (calls : List (Bytes × Nat))
    (h : ∀ c ∈ calls, 1 ≤ c.2 ∧ c.2 ≤ (frame c.1).length) :
    sendAll [] calls = frames (calls.map (·.1)) ↔ ∀ c ∈ calls, c.2 = (frame c.1).length := by
  constructor
  · intro heq
    exact (length_sendAll fun c hc => (h c hc).2).2 (congrArg List.length heq)
  · intro hall
    have hmap : (calls.map fun c => (frame c.1).take c.2) = calls.map fun c => frame c.1 := by
      refine List.map_congr_left ?_
      intro c hc
      rw [hall c hc, List.take_length]
    rw [sendAll_eq, hmap, List.nil_append, frames, List.map_map]
    rfl

/-- A write that takes five of the seven bytes of its frame: the next frame starts in the middle of
the payload. -/
theorem short_write_corrupts :
    sendAll [] [([1, 2, 3], 5), ([9], 5)] = [3, 0, 0, 0, 1, 1, 0, 0, 0, 9] ∧
      sendAll [] [([1, 2, 3], 5), ([9], 5)] ≠ frames [[1, 2, 3], [9]] := by
  decide

theorem full_writes_intact :
    (∀ c ∈ [(([1, 2, 3] : Bytes), 7), ([9], 5)], 1 ≤ c.2 ∧ c.2 ≤ (frame c.1).length) ∧
      sendAll [] [([1, 2, 3], 7), ([9], 5)] = frames [[1, 2, 3], [9]] := by
  have h : ∀ c ∈ [(([1, 2, 3] : Bytes), 7), ([9], 5)], 1 ≤ c.2 ∧ c.2 ≤ (frame c.1).length := by decide
  exact ⟨h, (stream_intact_iff _ h).mpr (by decide)⟩

end ProcCtrld.Rust
