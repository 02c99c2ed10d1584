/-
**Protocols of use, and when they are exact.**

An object is used through operations, in between which its own activities take steps; what matters
is safe or not in a whole interleaving of the two.  A protocol is a small machine on the operations
alone that says which of them are allowed.  If the object follows the machine, and every operation
that is not allowed can go wrong, then the protocol is exactly what the users have to keep to.

Main definitions:

* `Protocol` — an object with a protocol for it, and what has to be checked of single acts.

Main results:

* `Protocol.matches_run` — a run whose operations are allowed follows the protocol;
* `Protocol.safe_iff` — **the protocol rule**: every interleaving of some operations is safe
  exactly when the operations are allowed.
-/

import TwinThing.Lib.Runs

set_option relaxedAutoImplicit false
set_option autoImplicit false

open Runs

/-- An object with states `σ` and acts `α`, some of which are operations `ο`, and a protocol with
states `υ`. -/
structure Protocol (σ α ο υ : Type*) where
  step : σ → α → σ
  Safe : σ → α → Prop
  /-- The operation an act is, if it is one. -/
  op? : α → Option ο
  /-- The act of an operation. -/
  op : ο → α
  next : υ → ο → υ
  Allowed : υ → ο → Prop
  /-- The object is where the protocol has it. -/
  Matches : σ → υ → Prop
  op?_op : ∀ o, op? (op o) = some o
  follows_op : ∀ s u a o, op? a = some o → Matches s u → Allowed u o →
    Safe s a ∧ Matches (step s a) (next u o)
  follows_own : ∀ s u a, op? a = none → Matches s u → Safe s a ∧ Matches (step s a) u
  unsafe_of_not_allowed : ∀ s u o, Matches s u → ¬ Allowed u o →
    ∃ as, as.filterMap op? = [o] ∧ ¬ Along step Safe s as

namespace Protocol

variable {σ α ο υ : Type*} (P : Protocol σ α ο υ)

/-- A run whose operations are allowed is safe and follows the protocol. -/
theorem matches_run {s : σ} {u : υ} (h : P.Matches s u) {as : List α}
    (has : Along P.next P.Allowed u (as.filterMap P.op?)) :
    Along P.step P.Safe s as ∧ P.Matches (run P.step s as) (run P.next u (as.filterMap P.op?)) := by
  induction as generalizing s u with
  | nil => exact ⟨trivial, h⟩
  | cons a as ih =>
      cases ha : P.op? a with
      | none =>
          rw [List.filterMap_cons_none ha] at has ⊢
          obtain ⟨hsafe, hnext⟩ := P.follows_own s u a ha h
          obtain ⟨hrest, hmatches⟩ := ih hnext has
          exact ⟨⟨hsafe, hrest⟩, hmatches⟩
      | some o =>
          rw [List.filterMap_cons_some ha] at has ⊢
          obtain ⟨hsafe, hnext⟩ := P.follows_op s u a o ha h has.1
          obtain ⟨hrest, hmatches⟩ := ih hnext has.2
          exact ⟨⟨hsafe, hrest⟩, hmatches⟩

theorem filterMap_op (os : List ο) : (os.map P.op).filterMap P.op? = os := by
  have hid : P.op? ∘ P.op = some := funext P.op?_op
  rw [List.filterMap_map, hid, List.filterMap_some]

/-- Operations that are not all allowed have an interleaving that is not safe. -/
theorem exists_unsafe {s : σ} {u : υ} (h : P.Matches s u) {os : List ο}
    (hos : ¬ Along P.next P.Allowed u os) :
    ∃ as, as.filterMap P.op? = os ∧ ¬ Along P.step P.Safe s as := by
  induction os generalizing s u with
  | nil => exact absurd trivial hos
  | cons o os ih =>
      by_cases ho : P.Allowed u o
      · obtain ⟨-, hnext⟩ := P.follows_op s u (P.op o) o (P.op?_op o) h ho
        obtain ⟨as, has, hunsafe⟩ := ih hnext fun hrest => hos ⟨ho, hrest⟩
        exact ⟨P.op o :: as, by rw [List.filterMap_cons_some (P.op?_op o), has],
          fun hs => hunsafe hs.2⟩
      · obtain ⟨as, has, hunsafe⟩ := P.unsafe_of_not_allowed s u o h ho
        refine ⟨as ++ os.map P.op, ?_, fun hs => hunsafe (along_append.1 hs).1⟩
        rw [List.filterMap_append, has, P.filterMap_op]
        rfl

/-- **The protocol rule.** -/
theorem safe_iff {s : σ} {u : υ} (h : P.Matches s u) (os : List ο) :
    (∀ as : List α, as.filterMap P.op? = os → Along P.step P.Safe s as) ↔
      Along P.next P.Allowed u os := by
  constructor
  · intro hsafe
    by_contra hos
    obtain ⟨as, has, hunsafe⟩ := P.exists_unsafe h hos
    exact hunsafe (hsafe as has)
  · rintro hos as rfl
    exact (P.matches_run h hos).1

end Protocol
