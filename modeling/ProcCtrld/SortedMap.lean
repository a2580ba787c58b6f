import Mathlib.Data.List.Sort

/-!
# ProcCtrld.SortedMap

Maps that list their entries in the order of the keys, as an ordered tree iterates over them.

* `SortedMap` — the entries, with the proof that their keys ascend.
* `SortedMap.insertAll` — a list of entries put in one after the other; `mem_insertAll` says which are there
  at the end, by `lastOf`.
* `SortedMap.ext_mem` — two maps with the same entries are equal.
-/

/-- The keys of the entries ascend strictly. -/
def KeysAscend {α β : Type*} [LT α] (m : List (α × β)) : Prop := m.Pairwise fun a b => a.1 < b.1

structure SortedMap (α β : Type*) [LT α] where
  entries : List (α × β)
  ascend : KeysAscend entries

variable {α β : Type*} [LinearOrder α] {k k' : α} {v v' : β} {bs : List (α × β)}

/-- The value that the last entry of a key gives it. -/
def lastOf (k : α) : List (α × β) → Option β
  | [] => none
  | (k', v) :: bs => (lastOf k bs).or (if k' = k then some v else none)

theorem lastOf_eq_none_iff : lastOf k bs = none ↔ k ∉ bs.map Prod.fst := by
  induction bs with
  | nil => simp [lastOf]
  | cons b bs ih =>
    obtain ⟨k', v⟩ := b
    rw [lastOf, Option.or_eq_none_iff, ih, List.map_cons, List.mem_cons, not_or, and_comm]
    by_cases h : k' = k
    · simp [h]
    · simp [h, Ne.symm h]

theorem mem_of_lastOf (h : lastOf k bs = some v) : (k, v) ∈ bs := by
  induction bs with
  | nil => cases h
  | cons b bs ih =>
    obtain ⟨k', v'⟩ := b
    rcases Option.or_eq_some_iff.mp h with h | ⟨-, h⟩
    · exact List.mem_cons_of_mem _ (ih h)
    · split at h
      · rename_i heq
        cases h
        rw [heq]
        exact List.mem_cons_self ..
      · cases h

namespace KeysAscend

theorem nil : KeysAscend ([] : List (α × β)) := List.Pairwise.nil

theorem lastOf_iff (h : KeysAscend bs) : lastOf k bs = some v ↔ (k, v) ∈ bs := by
  refine ⟨mem_of_lastOf, ?_⟩
  induction bs with
  | nil =>
    intro hmem
    cases hmem
  | cons b bs ih =>
    obtain ⟨k', v'⟩ := b
    obtain ⟨hlt, hbs⟩ := List.pairwise_cons.mp h
    intro hmem
    rw [lastOf]
    rcases List.mem_cons.mp hmem with heq | hmem
    · cases heq
      have hnone : lastOf k bs = none := by
        rw [lastOf_eq_none_iff, List.mem_map]
        rintro ⟨b, hb, rfl⟩
        exact lt_irrefl _ (hlt b hb)
      rw [hnone, if_pos rfl, Option.none_or]
    · rw [ih hbs hmem, Option.some_or]

end KeysAscend

/-- Where the key is, its value is replaced. -/
def insertEntry (k : α) (v : β) : List (α × β) → List (α × β)
  | [] => [(k, v)]
  | (k', v') :: m =>
    if k < k' then (k, v) :: (k', v') :: m
    else if k = k' then (k, v) :: m
    else (k', v') :: insertEntry k v m

theorem fst_of_mem_insertEntry {b : α × β} (h : b ∈ insertEntry k v bs) : b.1 = k ∨ b ∈ bs := by
  induction bs with
  | nil =>
    rw [List.mem_singleton.mp h]
    exact .inl rfl
  | cons b' bs ih =>
    obtain ⟨k', v'⟩ := b'
    rw [insertEntry] at h
    split at h
    · rcases List.mem_cons.mp h with rfl | h
      · exact .inl rfl
      · exact .inr h
    · split at h
      · rcases List.mem_cons.mp h with rfl | h
        · exact .inl rfl
        · exact .inr (List.mem_cons_of_mem _ h)
      · rcases List.mem_cons.mp h with rfl | h
        · exact .inr (List.mem_cons_self ..)
        · rcases ih h with h | h
          · exact .inl h
          · exact .inr (List.mem_cons_of_mem _ h)

theorem insertEntry_ascend (h : KeysAscend bs) : KeysAscend (insertEntry k v bs) := by
  induction bs with
  | nil => exact List.pairwise_singleton _ _
  | cons b bs ih =>
    obtain ⟨k', v'⟩ := b
    obtain ⟨hlt, hbs⟩ := List.pairwise_cons.mp h
    rw [insertEntry]
    split
    · rename_i hk
      refine List.pairwise_cons.mpr ⟨?_, h⟩
      intro b hb
      rcases List.mem_cons.mp hb with rfl | hb
      · exact hk
      · exact hk.trans (hlt b hb)
    · rename_i hk
      split
      · rename_i heq
        subst heq
        exact List.pairwise_cons.mpr ⟨hlt, hbs⟩
      · rename_i hne
        refine List.pairwise_cons.mpr ⟨?_, ih hbs⟩
        intro b hb
        rcases fst_of_mem_insertEntry hb with heq | hb
        · rw [heq]
          exact lt_of_le_of_ne (not_lt.mp hk) (Ne.symm hne)
        · exact hlt b hb

/-- The new value at the key, everything else as before. -/
theorem mem_insertEntry (h : KeysAscend bs) :
    (k', v') ∈ insertEntry k v bs ↔ (k' = k ∧ v' = v) ∨ (k' ≠ k ∧ (k', v') ∈ bs) := by
  induction bs with
  | nil => simp [insertEntry]
  | cons b bs ih =>
    obtain ⟨k₀, v₀⟩ := b
    obtain ⟨hlt, hbs⟩ := List.pairwise_cons.mp h
    rw [insertEntry]
    split
    · rename_i hk
      have hne : (k', v') ∈ (k₀, v₀) :: bs → k' ≠ k := by
        intro hmem
        rcases List.mem_cons.mp hmem with heq | hmem
        · cases heq
          exact ne_of_gt hk
        · exact ne_of_gt (hk.trans (hlt _ hmem))
      rw [List.mem_cons, Prod.mk.injEq, and_iff_right_of_imp hne]
    · split
      · rename_i heq
        have hne : (k', v') ∈ bs → k' ≠ k := by
          intro hmem
          rw [heq]
          exact ne_of_gt (hlt _ hmem)
        rw [List.mem_cons, List.mem_cons, Prod.mk.injEq, Prod.mk.injEq, ← heq]
        constructor
        · rintro (hnew | hmem)
          · exact .inl hnew
          · exact .inr ⟨hne hmem, .inr hmem⟩
        · rintro (hnew | ⟨hk', hold | hmem⟩)
          · exact .inl hnew
          · exact absurd hold.1 hk'
          · exact .inr hmem
      · rename_i hne
        rw [List.mem_cons, List.mem_cons, ih hbs, Prod.mk.injEq]
        constructor
        · rintro (hold | hnew | ⟨hk', hmem⟩)
          · refine .inr ⟨?_, .inl hold⟩
            rw [hold.1]
            exact Ne.symm hne
          · exact .inl hnew
          · exact .inr ⟨hk', .inr hmem⟩
        · rintro (hnew | ⟨hk', hold | hmem⟩)
          · exact .inr (.inl hnew)
          · exact .inl hold
          · exact .inr (.inr ⟨hk', hmem⟩)

namespace SortedMap

variable {m m' : SortedMap α β}

instance : Membership (α × β) (SortedMap α β) := ⟨fun m b => b ∈ m.entries⟩

theorem ext_mem (h : ∀ b, b ∈ m ↔ b ∈ m') : m = m' := by
  obtain ⟨bs, hbs⟩ := m
  obtain ⟨bs', hbs'⟩ := m'
  have : Std.Irrefl fun a b : α × β => a.1 < b.1 := ⟨fun a => lt_irrefl a.1⟩
  have : Std.Antisymm fun a b : α × β => a.1 < b.1 := ⟨fun _ _ hab hba => absurd hba (lt_asymm hab)⟩
  congr 1
  exact List.Pairwise.eq_of_mem_iff hbs hbs' h

def empty : SortedMap α β := ⟨[], KeysAscend.nil⟩

def insert (m : SortedMap α β) (b : α × β) : SortedMap α β :=
  ⟨insertEntry b.1 b.2 m.entries, insertEntry_ascend m.ascend⟩

def insertAll (m : SortedMap α β) (bs : List (α × β)) : SortedMap α β := bs.foldl insert m

theorem not_mem_empty : (k, v) ∉ (empty : SortedMap α β) := List.not_mem_nil

theorem mem_insert : (k', v') ∈ m.insert (k, v) ↔ (k' = k ∧ v' = v) ∨ (k' ≠ k ∧ (k', v') ∈ m) :=
  mem_insertEntry m.ascend

/-- Of the entries put in the last one of each key stays, and of the old ones those with other keys. -/
theorem mem_insertAll :
    (k, v) ∈ m.insertAll bs ↔ lastOf k bs = some v ∨ (lastOf k bs = none ∧ (k, v) ∈ m) := by
  induction bs generalizing m with
  | nil => simp [insertAll, lastOf]
  | cons b bs ih =>
    obtain ⟨k₀, v₀⟩ := b
    have hcons : m.insertAll ((k₀, v₀) :: bs) = (m.insert (k₀, v₀)).insertAll bs := rfl
    rw [hcons, ih, mem_insert, lastOf]
    cases hlast : lastOf k bs with
    | some w => simp
    | none =>
      by_cases h : k₀ = k
      · simp [h, eq_comm]
      · simp [h, Ne.symm h]

theorem mem_insertAll_empty : (k, v) ∈ empty.insertAll bs ↔ lastOf k bs = some v := by
  rw [mem_insertAll, or_iff_left]
  exact fun h => not_mem_empty h.2

end SortedMap
