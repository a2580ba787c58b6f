import Mathlib.Logic.Function.Basic
import Mathlib.Data.List.Nodup

/-!
# ProcCtrld.Ledger

Who owns which handle, for a program that gets handles from elsewhere, keeps copies of them and gives
them back. A handle that was given back may come again for another owner.

* `Ledger` — the owner of every handle, and for every release the owner it was meant for and the owner
  that the handle had.
* `Ledger.Proper` — every release was of a handle that its owner had, and no owner released twice.
* `Ledger.Sound` — the invariant for it, relative to the owners that have been in `used`. Handles may be
  acquired for new owners (`Sound.acquire`) and released by the owner they have (`Sound.release`,
  `Sound.releaseAll`).
-/

structure Ledger.Release (ω : Type*) where
  intended : Option ω
  actual : Option ω

structure Ledger (η ω : Type*) where
  owner : η → Option ω
  released : List (Ledger.Release ω)

namespace Ledger

variable {η ω : Type*} [DecidableEq η]

def acquire (g : Ledger η ω) (x : η) (o : ω) : Ledger η ω :=
  { g with owner := Function.update g.owner x (some o) }

def release (g : Ledger η ω) (x : η) (intended : Option ω) : Ledger η ω where
  owner := Function.update g.owner x none
  released := g.released ++ [⟨intended, g.owner x⟩]

def releaseAll (g : Ledger η ω) : List (η × Option ω) → Ledger η ω
  | [] => g
  | (x, intended) :: rest => (g.release x intended).releaseAll rest

/-- A release of something that is no handle. -/
def releaseNothing (g : Ledger η ω) (intended : Option ω) : Ledger η ω :=
  { g with released := g.released ++ [⟨intended, none⟩] }

structure Proper (g : Ledger η ω) : Prop where
  right : ∀ r ∈ g.released, ∃ o, r.intended = some o ∧ r.actual = some o
  once : (g.released.map Release.intended).Nodup

structure Sound (used : ω → Prop) (g : Ledger η ω) : Prop extends Proper g where
  gone : ∀ r ∈ g.released, ∀ x, g.owner x ≠ r.intended
  one : ∀ x y o, g.owner x = some o → g.owner y = some o → x = y
  owned : ∀ x o, g.owner x = some o → used o
  past : ∀ r ∈ g.released, ∀ o, r.intended = some o → used o

variable {g : Ledger η ω} {used used' : ω → Prop} {x y : η} {o : ω}

theorem owner_acquire_self : (g.acquire x o).owner x = some o := Function.update_self ..

theorem owner_acquire_of_ne (h : y ≠ x) : (g.acquire x o).owner y = g.owner y := Function.update_of_ne h ..

theorem owner_release_self (intended : Option ω) : (g.release x intended).owner x = none :=
  Function.update_self ..

theorem owner_release_of_ne (intended : Option ω) (h : y ≠ x) :
    (g.release x intended).owner y = g.owner y := Function.update_of_ne h ..

omit [DecidableEq η] in
theorem ne_of_owner {o' : ω} (hx : g.owner x = some o) (hy : g.owner y = some o') (hne : o ≠ o') : x ≠ y := by
  rintro rfl
  rw [hx, Option.some.injEq] at hy
  exact hne hy

omit [DecidableEq η] in
theorem Sound.mono (h : Sound used g) (hsub : ∀ o, used o → used' o) : Sound used' g :=
  { h with
    owned := fun x o hx => hsub o (h.owned x o hx)
    past := fun r hr o ho => hsub o (h.past r hr o ho) }

/-- A handle for an owner that has never been there. -/
theorem Sound.acquire (h : Sound used g) (x : η) (hnew : ¬ used o) :
    Sound (fun o' => used o' ∨ o' = o) (g.acquire x o) := by
  have hold : ∀ y o', (g.acquire x o).owner y = some o' → (y = x ∧ o' = o) ∨ (y ≠ x ∧ g.owner y = some o') := by
    intro y o' hy
    by_cases hyx : y = x
    · rw [hyx, owner_acquire_self, Option.some.injEq] at hy
      exact .inl ⟨hyx, hy.symm⟩
    · rw [owner_acquire_of_ne hyx] at hy
      exact .inr ⟨hyx, hy⟩
  refine ⟨⟨h.right, h.once⟩, ?_, ?_, ?_, fun r hr o' ho' => .inl (h.past r hr o' ho')⟩
  · intro r hr y hy
    obtain ⟨o', hint, -⟩ := h.right r hr
    rw [hint] at hy
    rcases hold y o' hy with ⟨-, rfl⟩ | ⟨-, hy⟩
    · exact hnew (h.past r hr _ hint)
    · exact h.gone r hr y (hint ▸ hy)
  · intro y z o' hy hz
    rcases hold y o' hy with ⟨hyx, rfl⟩ | ⟨-, hy⟩ <;> rcases hold z _ hz with ⟨hzx, ho'⟩ | ⟨-, hz⟩
    · rw [hyx, hzx]
    · exact absurd (h.owned z _ hz) hnew
    · exact absurd (h.owned y _ (ho' ▸ hy)) hnew
    · exact h.one y z o' hy hz
  · intro y o' hy
    rcases hold y o' hy with ⟨-, rfl⟩ | ⟨-, hy⟩
    · exact .inr rfl
    · exact .inl (h.owned y o' hy)

theorem Sound.release (h : Sound used g) (hx : g.owner x = some o) : Sound used (g.release x (some o)) := by
  have hold : ∀ y o', (g.release x (some o)).owner y = some o' → y ≠ x ∧ g.owner y = some o' := by
    intro y o' hy
    by_cases hyx : y = x
    · rw [hyx, owner_release_self] at hy
      cases hy
    · rw [owner_release_of_ne _ hyx] at hy
      exact ⟨hyx, hy⟩
  have hlog : ∀ r ∈ (g.release x (some o)).released, r ∈ g.released ∨ r = ⟨some o, some o⟩ := by
    intro r hr
    rw [← hx]
    simpa [Ledger.release, hx] using hr
  refine ⟨⟨?_, ?_⟩, ?_, ?_, ?_, ?_⟩
  · intro r hr
    rcases hlog r hr with hr | rfl
    · exact h.right r hr
    · exact ⟨o, rfl, rfl⟩
  · rw [Ledger.release, List.map_append, List.map_singleton, List.nodup_append]
    refine ⟨h.once, List.nodup_singleton _, ?_⟩
    intro i hi j hj
    obtain ⟨r, hr, rfl⟩ := List.mem_map.1 hi
    rw [List.mem_singleton] at hj
    subst hj
    exact fun heq => h.gone r hr x (hx.trans heq.symm)
  · intro r hr y hy
    rcases hlog r hr with hr | rfl
    · obtain ⟨o', hint, -⟩ := h.right r hr
      rw [hint] at hy
      exact h.gone r hr y (hint ▸ (hold y o' hy).2)
    · -- no other handle has the owner that has just released
      obtain ⟨hyx, hy⟩ := hold y o hy
      exact hyx (h.one y x o hy hx)
  · intro y z o' hy hz
    exact h.one y z o' (hold y o' hy).2 (hold z o' hz).2
  · intro y o' hy
    exact h.owned y o' (hold y o' hy).2
  · intro r hr o' ho'
    rcases hlog r hr with hr | rfl
    · exact h.past r hr o' ho'
    · cases ho'
      exact h.owned x o hx

/-- Different handles are released one after the other, each by the owner it has. -/
theorem Sound.releaseAll (h : Sound used g) {l : List (η × Option ω)}
    (hl : ∀ p ∈ l, ∃ o, p.2 = some o ∧ g.owner p.1 = some o) (hne : l.Pairwise fun p q => p.1 ≠ q.1) :
    Sound used (g.releaseAll l) := by
  induction l generalizing g with
  | nil => exact h
  | cons p rest ih =>
    obtain ⟨o, hint, hown⟩ := hl p (List.mem_cons_self ..)
    obtain ⟨hp, hrest⟩ := List.pairwise_cons.1 hne
    have hrel : Sound used (g.release p.1 p.2) := hint ▸ h.release hown
    refine ih hrel ?_ hrest
    intro q hq
    obtain ⟨o', hint', hown'⟩ := hl q (List.mem_cons_of_mem _ hq)
    exact ⟨o', hint', by rw [owner_release_of_ne _ (hp q hq).symm]; exact hown'⟩

end Ledger
