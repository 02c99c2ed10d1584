/-
**Resources behind handles.**

A kernel gives a program a handle for each resource it creates and takes the handle back when the
resource is deleted; a handle is never given out twice.  The table carries that as a field, so the
handle of a new resource is dead before and differs from every live one.

Main definitions:

* `HandleTable` — the resources that are live, by their handles, with `alloc`, `free`, `update`;
* `HandleTable.Vacant`, `HandleTable.Only`, `HandleTable.AtMostOne` — none is live, exactly the
  given one is, and there are not two.

Main results:

* `HandleTable.only_alloc`, `HandleTable.vacant_free` — creating the first resource and deleting
  the last;
* `HandleTable.not_atMostOne_alloc` — **a second resource is one too many**.
-/

import Mathlib.Data.Nat.Notation
import Mathlib.Logic.Function.Basic

set_option relaxedAutoImplicit false
set_option autoImplicit false

/-- The live resources of one kind.  Handles from `next` on have not been given out. -/
structure HandleTable (ρ : Type*) where
  next : ℕ
  get : ℕ → Option ρ
  fresh : ∀ h, next ≤ h → get h = none

namespace HandleTable

variable {ρ : Type*}

/-! ### The operations -/

/-- The table before anything was created. -/
def empty : HandleTable ρ := ⟨0, fun _ => none, fun _ _ => rfl⟩

/-- Creating a resource, under the handle `next`. -/
def alloc (t : HandleTable ρ) (x : ρ) : HandleTable ρ where
  next := t.next + 1
  get := Function.update t.get t.next (some x)
  fresh h hh := by
    have hne : h ≠ t.next := by omega
    rw [Function.update_of_ne hne]
    exact t.fresh h (by omega)

/-- Deleting a resource. -/
def free (t : HandleTable ρ) (h : ℕ) : HandleTable ρ where
  next := t.next
  get := Function.update t.get h none
  fresh h' hh := by
    by_cases heq : h' = h
    · rw [heq, Function.update_self]
    · rw [Function.update_of_ne heq]
      exact t.fresh h' hh

/-- Changing a resource; a dead handle stays dead. -/
def update (t : HandleTable ρ) (h : ℕ) (f : ρ → ρ) : HandleTable ρ where
  next := t.next
  get := Function.update t.get h ((t.get h).map f)
  fresh h' hh := by
    by_cases heq : h' = h
    · rw [heq, Function.update_self, t.fresh h (heq ▸ hh)]
      rfl
    · rw [Function.update_of_ne heq]
      exact t.fresh h' hh

/-- The handle of a resource that exists. -/
def Live (t : HandleTable ρ) (h : ℕ) : Prop := t.get h ≠ none

theorem not_live_empty (h : ℕ) : ¬ (empty : HandleTable ρ).Live h := fun hh => hh rfl

theorem not_live_next (t : HandleTable ρ) : ¬ t.Live t.next :=
  fun h => h (t.fresh t.next (Nat.le_refl _))

theorem live_alloc {t : HandleTable ρ} {x : ρ} {h : ℕ} :
    (t.alloc x).Live h ↔ h = t.next ∨ t.Live h := by
  by_cases heq : h = t.next
  · simp [Live, alloc, heq]
  · simp [Live, alloc, heq]

theorem live_free {t : HandleTable ρ} {h h' : ℕ} : (t.free h).Live h' ↔ h' ≠ h ∧ t.Live h' := by
  by_cases heq : h' = h
  · simp [Live, free, heq]
  · simp [Live, free, heq]

@[simp] theorem live_update {t : HandleTable ρ} {h h' : ℕ} {f : ρ → ρ} :
    (t.update h f).Live h' ↔ t.Live h' := by
  by_cases heq : h' = h
  · simp [Live, update, heq]
  · simp [Live, update, heq]

theorem get_update_self (t : HandleTable ρ) (h : ℕ) (f : ρ → ρ) :
    (t.update h f).get h = (t.get h).map f :=
  Function.update_self ..

theorem get_alloc (t : HandleTable ρ) (x : ρ) (h : ℕ) :
    (t.alloc x).get h = if h = t.next then some x else t.get h :=
  Function.update_apply ..

theorem get_free (t : HandleTable ρ) (h h' : ℕ) :
    (t.free h).get h' = if h' = h then none else t.get h' :=
  Function.update_apply ..

theorem get_update (t : HandleTable ρ) (h : ℕ) (f : ρ → ρ) (h' : ℕ) :
    (t.update h f).get h' = if h' = h then (t.get h).map f else t.get h' :=
  Function.update_apply ..

/-! ### How many are live -/

/-- Nothing is live. -/
def Vacant (t : HandleTable ρ) : Prop := ∀ h, ¬ t.Live h

/-- Exactly the given handle is live. -/
def Only (t : HandleTable ρ) (h : ℕ) : Prop := ∀ h', t.Live h' ↔ h' = h

/-- No two handles are live. -/
def AtMostOne (t : HandleTable ρ) : Prop := ∀ h h', t.Live h → t.Live h' → h = h'

theorem vacant_empty : (empty : HandleTable ρ).Vacant := not_live_empty

theorem Only.live {t : HandleTable ρ} {h : ℕ} (ht : t.Only h) : t.Live h := (ht h).2 rfl

theorem Vacant.atMostOne {t : HandleTable ρ} (ht : t.Vacant) : t.AtMostOne :=
  fun h _ hh _ => absurd hh (ht h)

theorem Only.atMostOne {t : HandleTable ρ} {h : ℕ} (ht : t.Only h) : t.AtMostOne :=
  fun h₁ h₂ hh₁ hh₂ => ((ht h₁).1 hh₁).trans ((ht h₂).1 hh₂).symm

/-- The first resource created is the only one. -/
theorem only_alloc {t : HandleTable ρ} (ht : t.Vacant) (x : ρ) : (t.alloc x).Only t.next := by
  intro h
  rw [live_alloc]
  exact or_iff_left (ht h)

/-- Deleting the only resource leaves none. -/
theorem vacant_free {t : HandleTable ρ} {h : ℕ} (ht : t.Only h) : (t.free h).Vacant := by
  intro h' hh
  obtain ⟨hne, hlive⟩ := live_free.1 hh
  exact hne ((ht h').1 hlive)

/-- **A second resource is one too many.** -/
theorem not_atMostOne_alloc {t : HandleTable ρ} {h : ℕ} (ht : t.Live h) (x : ρ) :
    ¬ (t.alloc x).AtMostOne := by
  intro hone
  have heq : h = t.next := hone h t.next (live_alloc.2 (Or.inr ht)) (live_alloc.2 (Or.inl rfl))
  exact t.not_live_next (heq ▸ ht)

end HandleTable
