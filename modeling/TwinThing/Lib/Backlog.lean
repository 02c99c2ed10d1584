/-
**The backlog of a bounded queue.**

A queue of capacity `cap` is sent to and received from in some order.  Whether it ever has to
refuse an item does not depend on the items, only on how sends and receives are interleaved: the
number of waiting items is the largest excess of sends over receives in a stretch of the history
that ends now, and so the queue refuses nothing exactly when no stretch of the history has an
excess above the capacity.

Main definitions:

* `Backlog.Act`, `Backlog.step` — sends and receives, and the number of items waiting;
* `Backlog.Within` — no stretch of a history has more than `cap` sends above its receives.

Main results:

* `Backlog.grow_le_iff` — the number of waiting items is the largest excess of a stretch that
  ends now;
* `Backlog.along_room_iff` — **the backlog rule**: nothing is refused exactly when the history is
  within the capacity.
-/

import TwinThing.Lib.Runs

set_option relaxedAutoImplicit false
set_option autoImplicit false

namespace Backlog

open Runs

/-! ### Waiting items -/

/-- What happens to a queue. -/
inductive Act where
  | send
  | receive
  deriving DecidableEq

/-- The number of items in a queue that never refuses one. -/
def grow (n : ℕ) : Act → ℕ
  | .send => n + 1
  | .receive => n - 1

/-- The number of items in a queue that holds `cap`. -/
def step (cap n : ℕ) : Act → ℕ
  | .send => if n < cap then n + 1 else n
  | .receive => n - 1

/-- A send finds room. -/
def Room (cap n : ℕ) (a : Act) : Prop := a = .send → n < cap

/-- In no stretch of the history there are more than `cap` sends above the receives. -/
def Within (cap : ℕ) (as : List Act) : Prop :=
  ∀ w, w <:+: as → w.count .send ≤ cap + w.count .receive

theorem Within.of_prefix {cap : ℕ} {as bs : List Act} (h : Within cap bs) (hpre : as <+: bs) :
    Within cap as :=
  fun w hw => h w (hw.trans hpre.isInfix)

/-! ### The backlog as an excess -/

/-- The stretches that end now, after one more act. -/
theorem forall_suffix_concat {P : List Act → Prop} {as : List Act} {a : Act} :
    (∀ w, w <:+ as ++ [a] → P w) ↔ P [] ∧ ∀ w, w <:+ as → P (w ++ [a]) := by
  constructor
  · intro h
    refine ⟨h [] List.nil_suffix, fun w hw => h _ ?_⟩
    exact List.suffix_concat_iff.2 (Or.inr ⟨w, rfl, hw⟩)
  · rintro ⟨hnil, hconcat⟩ w hw
    rcases List.suffix_concat_iff.1 hw with rfl | ⟨v, rfl, hv⟩
    · exact hnil
    · exact hconcat v hv

/-- At most `m` items are waiting exactly when no stretch that ends now has more than `m` sends
above its receives. -/
theorem grow_le_iff (as : List Act) (m : ℕ) :
    run grow 0 as ≤ m ↔ ∀ w, w <:+ as → w.count .send ≤ m + w.count .receive := by
  induction as using List.reverseRecOn generalizing m with
  | nil => simp
  | append_singleton as a ih =>
      rw [run_concat, forall_suffix_concat]
      cases a with
      | send =>
          cases m with
          | zero =>
              -- the last send alone is an excess
              refine iff_of_false (by simp [grow]) fun h => ?_
              have hlast := h.2 [] List.nil_suffix
              simp at hlast
          | succ m =>
              have hle : grow (run grow 0 as) .send ≤ m + 1 ↔ run grow 0 as ≤ m :=
                Nat.add_le_add_iff_right
              simp [hle, ih m, Nat.add_right_comm m 1]
      | receive =>
          have hle : grow (run grow 0 as) .receive ≤ m ↔ run grow 0 as ≤ m + 1 :=
            Nat.sub_le_iff_le_add
          simp [hle, ih (m + 1), Nat.add_assoc, Nat.add_comm 1]

/-- One more act is one more bound. -/
theorem within_concat {cap : ℕ} {as : List Act} {a : Act} :
    Within cap (as ++ [a]) ↔ Within cap as ∧ run grow 0 (as ++ [a]) ≤ cap := by
  rw [grow_le_iff]
  constructor
  · intro h
    exact ⟨h.of_prefix (List.prefix_append _ _), fun w hw => h w hw.isInfix⟩
  · rintro ⟨hpre, hsuf⟩ w hw
    rcases List.infix_concat_iff.1 hw with hw | hw
    · exact hsuf w hw
    · exact hpre w hw

/-! ### The bounded queue -/

/-- As long as the history is within the capacity, the bound makes no difference. -/
theorem run_step_eq {cap : ℕ} {as : List Act} (h : Within cap as) :
    run (step cap) 0 as = run grow 0 as := by
  induction as using List.reverseRecOn with
  | nil => rfl
  | append_singleton as a ih =>
      obtain ⟨hpre, hle⟩ := within_concat.1 h
      rw [run_concat] at hle
      rw [run_concat, run_concat, ih hpre]
      cases a with
      | send =>
          have hroom : run grow 0 as < cap := hle
          simp only [step, grow, if_pos hroom]
      | receive => rfl

/-- **The backlog rule.**  No send is refused exactly when no stretch of the history has more than
`cap` sends above its receives. -/
theorem along_room_iff (cap : ℕ) (as : List Act) :
    Along (step cap) (Room cap) 0 as ↔ Within cap as := by
  rw [Runs.along_iff_forall_prefix (J := Within cap)]
  · exact ⟨fun h => h as (List.prefix_refl as), fun h pre hpre => h.of_prefix hpre⟩
  · intro w hw
    simp [List.infix_nil.1 hw]
  · intro pre a hpre
    have hnow : run grow 0 pre ≤ cap :=
      (grow_le_iff pre cap).2 fun w hw => hpre w hw.isInfix
    rw [within_concat, run_step_eq hpre, run_concat, and_iff_right hpre]
    cases a with
    | send =>
        rw [Room]
        exact ⟨fun h => h rfl, fun h _ => h⟩
    | receive =>
        rw [Room]
        refine iff_of_true (fun h => Act.noConfusion h) ?_
        simp only [grow]
        omega

end Backlog
