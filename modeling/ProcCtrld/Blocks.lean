import Mathlib.Algebra.Order.Group.Multiset
import Mathlib.Data.List.Nodup
import Mathlib.Tactic.Abel

/-!
# ProcCtrld.Blocks

Programs that allocate blocks and free them.

* `Blocks` — the blocks that are allocated. A number is given once, so that a pointer to a block that was
  freed points to nothing.
* `Blocks.Prog` — programs on a heap. A program fails when it frees or reads a block that is not allocated.
* `Blocks.Triple` — a program that owns the blocks `P` does not fail, whatever else is allocated. It hands
  over the blocks `R`, and leaves behind blocks of the kinds `lost` that it keeps no pointer to. The frame is
  part of the triple, so that the programs called one after the other add up (`Triple.bind`,
  `Triple.frame`).
* `Blocks.Returns` — what the results of a program satisfy.
-/

/-- A block; `kind` is what it holds. -/
structure Blocks.Block (κ : Type*) where
  addr : Nat
  kind : κ
deriving DecidableEq, Repr

structure Blocks (κ : Type*) where
  next : Nat
  live : List (Blocks.Block κ)
  below : ∀ b ∈ live, b.addr < next
  nodup : (live.map Blocks.Block.addr).Nodup

namespace Blocks

variable {κ α β : Type}

def empty : Blocks κ := ⟨0, [], by simp, by simp⟩

def alloc (h : Blocks κ) (kind : κ) : Blocks κ where
  next := h.next + 1
  live := ⟨h.next, kind⟩ :: h.live
  below := by
    intro b hb
    rcases List.mem_cons.mp hb with rfl | hb
    · exact Nat.lt_succ_self _
    · exact Nat.lt_succ_of_lt (h.below b hb)
  nodup := by
    refine List.nodup_cons.mpr ⟨?_, h.nodup⟩
    intro hmem
    obtain ⟨b, hb, haddr⟩ := List.mem_map.mp hmem
    exact absurd (h.below b hb) (by simp [haddr])

def remove (h : Blocks κ) (p : Nat) : Blocks κ where
  next := h.next
  live := h.live.filter fun b => b.addr ≠ p
  below := fun b hb => h.below b (List.mem_of_mem_filter hb)
  nodup := h.nodup.sublist (List.filter_sublist.map _)

abbrev Prog (κ : Type) := StateT (Blocks κ) Option

def malloc (kind : κ) : Prog κ Nat := fun h => some (h.next, h.alloc kind)

def free (p : Nat) : Prog κ Unit := fun h =>
  if p ∈ h.live.map Block.addr then some ((), h.remove p) else none

/-- `free(p)`, where `p` may be NULL. -/
def freeNullable : Option Nat → Prog κ Unit
  | some p => free p
  | none => pure ()

/-- A read or a write of the block. -/
def access (p : Nat) : Prog κ Unit := fun h =>
  if p ∈ h.live.map Block.addr then some ((), h) else none

/-- A use of a pointer that points to nothing. -/
def fault : Prog κ α := fun _ => none

/-- One block of each kind. -/
def mallocs : (kinds : List κ) → Prog κ {blocks : List (Block κ) // blocks.map Block.kind = kinds}
  | [] => pure ⟨[], rfl⟩
  | kind :: kinds => do
    let p ← malloc kind
    let blocks ← mallocs kinds
    return ⟨⟨p, kind⟩ :: blocks.1, by rw [List.map_cons, blocks.2]⟩

def accesses : List Nat → Prog κ Unit
  | [] => pure ()
  | p :: ps => do
    access p
    accesses ps

/-! ## Triples -/

/-- What a program that owns `P` does to a heap. -/
def Triple (P : Multiset (Block κ)) (m : Prog κ α) (R : α → Multiset (Block κ)) (lost : Multiset κ) : Prop :=
  ∀ (h : Blocks κ) (F : Multiset (Block κ)), ↑h.live = P + F →
    ∃ a h' L, m h = some (a, h') ∧ L.map Block.kind = lost ∧ ↑h'.live = R a + L + F

namespace Triple

variable {P P' X : Multiset (Block κ)} {m : Prog κ α} {R U : α → Multiset (Block κ)} {lost N : Multiset κ}
  {k : κ} {p : Nat}

theorem pure {a : α} (R : α → Multiset (Block κ)) : Triple (R a) (Pure.pure a : Prog κ α) R 0 := by
  intro h F hF
  exact ⟨a, h, 0, rfl, rfl, by rw [hF, add_zero]⟩

theorem bind {f : α → Prog κ β} {S : β → Multiset (Block κ)} (hm : Triple P m R lost)
    (hf : ∀ a, Triple (R a) (f a) S N) : Triple P (m >>= f) S (lost + N) := by
  intro h F hF
  obtain ⟨a, h₁, L₁, hrun₁, hkind₁, hlive₁⟩ := hm h F hF
  obtain ⟨b, h₂, L₂, hrun₂, hkind₂, hlive₂⟩ := hf a h₁ (L₁ + F) (by rw [hlive₁, add_assoc])
  refine ⟨b, h₂, L₁ + L₂, ?_, ?_, ?_⟩
  · show (m h).bind (fun x => f x.1 x.2) = _
    rw [hrun₁]
    exact hrun₂
  · rw [Multiset.map_add, hkind₁, hkind₂]
  · rw [hlive₂]
    abel

theorem of_eq (hm : Triple P m R lost) (hP : P' = P) (hR : ∀ a, U a = R a) (hlost : N = lost) :
    Triple P' m U N := by
  rw [hP, hlost, show U = R from funext hR]
  exact hm

/-- Nothing is left behind before the rest of the program. -/
theorem seq {f : α → Prog κ β} {S : β → Multiset (Block κ)} (hm : Triple P m R 0)
    (hf : ∀ a, Triple (R a) (f a) S lost) : Triple P (m >>= f) S lost :=
  (hm.bind hf).of_eq rfl (fun _ => rfl) (zero_add lost).symm

theorem frame (hm : Triple P m R lost) (hP : P' = P + X) : Triple P' m (fun a => R a + X) lost := by
  intro h F hF
  obtain ⟨a, h', L, hrun, hkind, hlive⟩ := hm h (X + F) (by rw [hF, hP, add_assoc])
  refine ⟨a, h', L, hrun, hkind, ?_⟩
  show _ = R a + X + L + F
  rw [hlive]
  abel

/-- Blocks that no pointer is handed over to. -/
theorem forget (hm : Triple P m R lost) (hR : ∀ a, R a = U a + X) :
    Triple P m U (lost + X.map Block.kind) := by
  intro h F hF
  obtain ⟨a, h', L, hrun, hkind, hlive⟩ := hm h F hF
  refine ⟨a, h', L + X, hrun, by rw [Multiset.map_add, hkind], ?_⟩
  rw [hlive, hR a]
  abel

theorem pureBlocks (blocks : List (Block κ)) (hP : P' = (↑blocks : Multiset (Block κ)) + P) :
    Triple P' (Pure.pure blocks : Prog κ (List (Block κ)))
      (fun blocks => (↑blocks : Multiset (Block κ)) + P) 0 := by
  rw [hP]
  exact pure fun blocks : List (Block κ) => (↑blocks : Multiset (Block κ)) + P

/-! ## The calls -/

theorem malloc : Triple P (malloc k) (fun p => {⟨p, k⟩} + P) 0 := by
  intro h F hF
  refine ⟨h.next, h.alloc k, 0, rfl, rfl, ?_⟩
  have hlive : (↑(h.alloc k).live : Multiset (Block κ)) = ⟨h.next, k⟩ ::ₘ ↑h.live := rfl
  rw [hlive, hF, add_zero, add_assoc, Multiset.singleton_add]

/-- A block that is owned is allocated, and no other has its address. -/
theorem owned {h : Blocks κ} {F : Multiset (Block κ)} (hF : ↑h.live = {⟨p, k⟩} + F) :
    p ∈ h.live.map Block.addr ∧ ∀ b ∈ F, b.addr ≠ p := by
  obtain ⟨l, rfl⟩ := Quot.exists_rep F
  have hperm : h.live.Perm (⟨p, k⟩ :: l) := Multiset.coe_eq_coe.mp hF
  have hnodup := (hperm.map Block.addr).nodup_iff.mp h.nodup
  refine ⟨(hperm.map Block.addr).mem_iff.mpr (by simp), ?_⟩
  intro b hb heq
  rw [List.map_cons, List.nodup_cons] at hnodup
  exact hnodup.1 (List.mem_map.mpr ⟨b, hb, heq⟩)

theorem free (hP : P = {⟨p, k⟩} + X) : Triple P (free p) (fun _ => X) 0 := by
  intro h F hF
  rw [hP, add_assoc] at hF
  obtain ⟨hmem, hother⟩ := owned hF
  refine ⟨(), h.remove p, 0, if_pos hmem, rfl, ?_⟩
  have hlive : (↑(h.remove p).live : Multiset (Block κ)) =
      (↑h.live : Multiset (Block κ)).filter fun b => b.addr ≠ p := by
    rw [Multiset.filter_coe]
    rfl
  rw [hlive, hF, Multiset.filter_add, Multiset.filter_singleton, if_neg (by simp), Multiset.filter_eq_self.mpr hother,
    Multiset.empty_eq_zero, zero_add, add_zero]

theorem access (hb : ⟨p, k⟩ ∈ P) : Triple P (access p) (fun _ => P) 0 := by
  intro h F hF
  obtain ⟨X, rfl⟩ := Multiset.exists_cons_of_mem hb
  refine ⟨(), h, 0, if_pos ?_, rfl, by rw [hF, add_zero]⟩
  rw [← Multiset.singleton_add, add_assoc] at hF
  exact (owned hF).1

theorem freeNullable {q : Option Nat} (hP : P = ↑(q.toList.map fun p => (⟨p, k⟩ : Block κ)) + X) :
    Triple P (freeNullable q) (fun _ => X) 0 := by
  cases q with
  | none => exact (pure (a := ()) fun _ => X).of_eq (hP.trans (zero_add X)) (fun _ => rfl) rfl
  | some p => exact free hP

theorem accesses {ps : List Nat} (hps : ∀ p ∈ ps, ⟨p, k⟩ ∈ P) :
    Triple P (accesses ps) (fun _ => P) 0 := by
  induction ps with
  | nil => exact pure (a := ()) fun _ => P
  | cons p ps ih =>
    obtain ⟨hp, hps⟩ := List.forall_mem_cons.mp hps
    exact (access hp).seq fun _ => ih hps

theorem mallocs (kinds : List κ) :
    Triple P (mallocs kinds) (fun blocks => (↑blocks.1 : Multiset (Block κ)) + P) 0 := by
  induction kinds generalizing P with
  | nil =>
    refine (pure (a := ⟨[], rfl⟩) fun blocks : {b : List (Block κ) // b.map Block.kind = []} =>
      (↑blocks.1 : Multiset (Block κ)) + P).of_eq ?_ (fun _ => rfl) rfl
    exact (zero_add P).symm
  | cons k kinds ih =>
    refine malloc.seq fun p => ih.seq fun blocks => ?_
    refine (pure fun blocks : {b : List (Block κ) // b.map Block.kind = k :: kinds} =>
      (↑blocks.1 : Multiset (Block κ)) + P).of_eq ?_ (fun _ => rfl) rfl
    rw [← Multiset.cons_coe, ← Multiset.singleton_add]
    abel

end Triple

/-! ## Results -/

/-- What every result of a program satisfies. -/
def Returns (m : Prog κ α) (Q : α → Prop) : Prop := ∀ h a h', m h = some (a, h') → Q a

namespace Returns

variable {m : Prog κ α} {Q : β → Prop}

theorem pure {b : β} (hb : Q b) : Returns (Pure.pure b : Prog κ β) Q := by
  intro h b' h' hrun
  cases hrun
  exact hb

theorem bind {f : α → Prog κ β} {T : α → Prop} (hm : Returns m T) (hf : ∀ a, T a → Returns (f a) Q) :
    Returns (m >>= f) Q := by
  intro h b h' hrun
  cases hm₁ : m h with
  | none =>
    have : (m h).bind (fun x => f x.1 x.2) = some (b, h') := hrun
    rw [hm₁] at this
    cases this
  | some x =>
    have hrun' : (m h).bind (fun x => f x.1 x.2) = some (b, h') := hrun
    rw [hm₁] at hrun'
    exact hf x.1 (hm h x.1 x.2 hm₁) x.2 b h' hrun'

theorem mono {T : β → Prop} {m : Prog κ β} (hm : Returns m T) (h : ∀ b, T b → Q b) : Returns m Q :=
  fun h₁ b h₂ hrun => h b (hm h₁ b h₂ hrun)

theorem after {f : α → Prog κ β} (hf : ∀ a, Returns (f a) Q) : Returns (m >>= f) Q :=
  bind (T := fun _ => True) (fun _ _ _ _ => trivial) fun a _ => hf a

end Returns

end Blocks
