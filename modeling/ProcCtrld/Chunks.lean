import Mathlib.Data.List.Basic

/-!
# ProcCtrld.Chunks

A stream of elements cut into chunks, and the `read` of a stream socket on it: a read of at most
`n` elements answers with elements of the first chunk only, so it may answer with fewer than `n`
although more of the stream follows. Every way a run of reads can be answered is a cut of the
stream.

* `boundaries` — the positions at which the stream is cut.
* `Uncut cs a n` — no boundary lies strictly inside the `n` elements that start at position `a`.
* `length_read_eq_iff` — a read of `n` elements is answered in full exactly when they are uncut.
* `uncut_read` — what is uncut in the rest of the stream after such a read.
* `readExact` — reads until `n` elements are there or the stream ends; its result does not depend on
  the cut.
-/

namespace Chunks

variable {α : Type*}

/-- One read of at most `n` elements; the empty answer is the end of the stream. -/
def read (n : Nat) : List (List α) → List α × List (List α)
  | [] => ([], [])
  | c :: cs => if c.length ≤ n then (c, cs) else (c.take n, c.drop n :: cs)

def boundaries : List (List α) → List Nat
  | [] => []
  | c :: cs => c.length :: (boundaries cs).map (c.length + ·)

def Uncut (cs : List (List α)) (a n : Nat) : Prop := ∀ b ∈ boundaries cs, ¬ (a < b ∧ b < a + n)

instance (cs : List (List α)) (a n : Nat) : Decidable (Uncut cs a n) :=
  inferInstanceAs (Decidable (∀ b ∈ boundaries cs, ¬ (a < b ∧ b < a + n)))

theorem read_append (n : Nat) (cs : List (List α)) :
    (read n cs).1 ++ (read n cs).2.flatten = cs.flatten := by
  cases cs with
  | nil => rfl
  | cons c cs =>
    simp only [read]
    split
    · simp
    · simp [← List.append_assoc]

theorem length_read_le (n : Nat) (cs : List (List α)) : (read n cs).1.length ≤ n := by
  cases cs with
  | nil => exact Nat.zero_le _
  | cons c cs =>
    simp only [read]
    split
    · assumption
    · exact List.length_take_le n c

theorem read_ne_nil {n : Nat} {cs : List (List α)} (h : ∀ c ∈ cs, c ≠ []) :
    ∀ c ∈ (read n cs).2, c ≠ [] := by
  cases cs with
  | nil => simp [read]
  | cons c cs =>
    simp only [read]
    split
    · exact fun d hd => h d (by simp [hd])
    · intro d hd
      rcases List.mem_cons.mp hd with rfl | hd
      · rw [← List.length_pos_iff_ne_nil, List.length_drop]; omega
      · exact h d (by simp [hd])

/-- A read that is answered in full takes the first `n` elements of the stream. -/
theorem read_eq_of_length {n : Nat} {cs : List (List α)} (h : (read n cs).1.length = n) :
    (read n cs).1 = cs.flatten.take n ∧ (read n cs).2.flatten = cs.flatten.drop n := by
  rw [← read_append n cs]
  constructor
  · rw [List.take_append_of_le_length (by omega), List.take_of_length_le (by omega)]
  · rw [List.drop_append_of_le_length (by omega), List.drop_of_length_le (by omega), List.nil_append]

theorem length_read_eq_iff {n : Nat} {cs : List (List α)} (hne : ∀ c ∈ cs, c ≠ [])
    (hlen : n ≤ cs.flatten.length) : (read n cs).1.length = n ↔ Uncut cs 0 n := by
  cases cs with
  | nil =>
    simp only [List.flatten_nil, List.length_nil, Nat.le_zero] at hlen
    subst hlen
    simp [read, Uncut, boundaries]
  | cons c cs =>
    have hc : 0 < c.length := List.length_pos_iff_ne_nil.mpr (hne c (by simp))
    have hfirst : (read n (c :: cs)).1.length = min c.length n := by
      simp only [read]
      split
      · simp only; omega
      · simp only [List.length_take]; omega
    rw [hfirst]
    constructor
    · -- the first boundary is at `c.length`, the others lie further on
      intro h b hb
      simp only [boundaries, List.mem_cons, List.mem_map] at hb
      rcases hb with rfl | ⟨b', _, rfl⟩ <;> omega
    · intro h
      have := h c.length (by simp [boundaries])
      omega

theorem uncut_read {n : Nat} {cs : List (List α)} (h : (read n cs).1.length = n) (a m : Nat) :
    Uncut (read n cs).2 a m ↔ Uncut cs (a + n) m := by
  cases cs with
  | nil => simp [read, Uncut, boundaries]
  | cons c cs =>
    simp only [read] at h ⊢
    split at h
    · -- the first chunk ends where the read ends
      rename_i hle
      rw [if_pos hle]
      simp only at h
      simp only [Uncut, boundaries, List.mem_cons, List.mem_map, forall_eq_or_imp,
        forall_exists_index, and_imp, forall_apply_eq_imp_iff₂, h]
      constructor
      · intro hu
        exact ⟨by omega, fun b hb => by have := hu b hb; omega⟩
      · intro hu b hb
        have := hu.2 b hb
        omega
    · rename_i hle
      rw [if_neg hle]
      simp only [Uncut, boundaries, List.mem_cons, List.mem_map, forall_eq_or_imp,
        forall_exists_index, and_imp, forall_apply_eq_imp_iff₂, List.length_drop]
      constructor
      · rintro ⟨h0, hu⟩
        exact ⟨by omega, fun b hb => by have := hu b hb; omega⟩
      · rintro ⟨h0, hu⟩
        exact ⟨by omega, fun b hb => by have := hu b hb; omega⟩

theorem uncut_head {c : List α} {cs : List (List α)} {a n : Nat} (h : a + n ≤ c.length) : Uncut (c :: cs) a n := by
  intro b hb
  simp only [boundaries, List.mem_cons, List.mem_map] at hb
  rcases hb with rfl | ⟨b', -, rfl⟩ <;> omega

theorem uncut_cons (c : List α) (cs : List (List α)) (a n : Nat) :
    Uncut (c :: cs) (a + c.length) n ↔ Uncut cs a n := by
  simp only [Uncut, boundaries, List.mem_cons, List.mem_map, forall_eq_or_imp, forall_exists_index, and_imp,
    forall_apply_eq_imp_iff₂]
  constructor
  · rintro ⟨-, hu⟩ b hb
    have := hu b hb
    omega
  · intro hu
    refine ⟨by omega, fun b hb => ?_⟩
    have := hu b hb
    omega

/-! ## Reading until a buffer is full -/

/-- Reads `n` elements across chunks, or fails at the end of the stream. -/
def readExact : Nat → List (List α) → Option (List α × List (List α))
  | 0, cs => some ([], cs)
  | _ + 1, [] => none
  | n + 1, c :: cs =>
    if n + 1 < c.length then some (c.take (n + 1), c.drop (n + 1) :: cs)
    else (readExact (n + 1 - c.length) cs).map fun r => (c ++ r.1, r.2)

theorem readExact_eq_some {n : Nat} {cs : List (List α)} (h : n ≤ cs.flatten.length) :
    ∃ rest, readExact n cs = some (cs.flatten.take n, rest) ∧ rest.flatten = cs.flatten.drop n := by
  induction cs generalizing n with
  | nil =>
    have hn : n = 0 := by simpa using h
    subst hn
    exact ⟨[], rfl, rfl⟩
  | cons c cs ih =>
    cases n with
    | zero => exact ⟨c :: cs, rfl, rfl⟩
    | succ n =>
      simp only [List.flatten_cons, List.length_append] at h
      simp only [readExact]
      split
      · rename_i hlt
        refine ⟨_, by rw [List.flatten_cons, List.take_append_of_le_length (by omega)], ?_⟩
        rw [List.flatten_cons, List.flatten_cons, List.drop_append_of_le_length (by omega)]
      · rename_i hge
        obtain ⟨rest, hrest, hflat⟩ := ih (n := n + 1 - c.length) (by omega)
        have htake : c.take (n + 1) = c := List.take_of_length_le (by omega)
        have hdrop : c.drop (n + 1) = [] := List.drop_of_length_le (by omega)
        refine ⟨rest, ?_, ?_⟩
        · rw [hrest, Option.map_some, List.flatten_cons, List.take_append, htake]
        · rw [hflat, List.flatten_cons, List.drop_append, hdrop, List.nil_append]

theorem readExact_eq_none {n : Nat} {cs : List (List α)} (h : cs.flatten.length < n) :
    readExact n cs = none := by
  induction cs generalizing n with
  | nil =>
    cases n with
    | zero => simp at h
    | succ n => rfl
  | cons c cs ih =>
    cases n with
    | zero => simp at h
    | succ n =>
      simp only [List.flatten_cons, List.length_append] at h
      simp only [readExact]
      rw [if_neg (by omega), ih (by omega), Option.map_none]

/-- What such a reading leaves of the stream, and of its cut. -/
theorem readExact_rest {n : Nat} {cs : List (List α)} {r : List α × List (List α)} (h : readExact n cs = some r) :
    ((∀ c ∈ cs, c ≠ []) → ∀ c ∈ r.2, c ≠ []) ∧ ∀ a m, Uncut r.2 a m ↔ Uncut cs (a + n) m := by
  induction cs generalizing n r with
  | nil =>
    cases n with
    | zero => cases h; exact ⟨id, fun _ _ => Iff.rfl⟩
    | succ n => cases h
  | cons c cs ih =>
    cases n with
    | zero => cases h; exact ⟨id, fun _ _ => Iff.rfl⟩
    | succ n =>
      simp only [readExact] at h
      split at h
      · -- the first chunk is not used up
        rename_i hlt
        cases h
        have hread : read (n + 1) (c :: cs) = (c.take (n + 1), c.drop (n + 1) :: cs) := by
          rw [read, if_neg (by omega)]
        have hfull : (read (n + 1) (c :: cs)).1.length = n + 1 := by
          rw [hread, List.length_take]
          omega
        refine ⟨fun hne => ?_, fun a m => ?_⟩
        · have hrest := read_ne_nil (n := n + 1) hne
          rwa [hread] at hrest
        · rw [← uncut_read hfull, hread]
      · rename_i hge
        obtain ⟨r', hr', rfl⟩ := Option.map_eq_some_iff.mp h
        obtain ⟨hne, huncut⟩ := ih hr'
        refine ⟨fun hcs => hne fun d hd => hcs d (List.mem_cons_of_mem _ hd), fun a m => ?_⟩
        rw [huncut, ← uncut_cons c cs, show a + (n + 1 - c.length) + c.length = a + (n + 1) by omega]

end Chunks
