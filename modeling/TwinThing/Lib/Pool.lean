/-
**A pool of tokens that circulate through a queue.**

A fixed set of tokens is shared by clients.  The free ones wait in a queue: a client takes the one
at the front, and what is put back goes to the end.  The queue does not know which tokens are out,
so it cannot tell a token that comes back from one that was never out; whether the clients can
rely on the pool is up to what they put back.

Main definitions:

* `Pool` — the free tokens and those that are out, with `take` and `put`;
* `Pool.Fair` — a take brings a token of the set that nobody else has out, and a put fits;
* `Pool.Owned` — what is put back was out.

Main results:

* `Pool.forall_fair_iff` — **the ownership rule**: the pool stays fair, however often tokens are
  taken from it afterwards, exactly when only tokens that are out are put back;
* `Pool.intact_run` — then the free tokens and those that are out are together the whole set;
* `Pool.taken_append_free` — **the order of service**: tokens are handed out in the order in
  which they came in.
-/

import Mathlib.Data.List.Nodup
import Mathlib.Data.List.Perm.Subperm
import TwinThing.Lib.Mailbox

set_option relaxedAutoImplicit false
set_option autoImplicit false

/-- The tokens that are free, in the order in which they will be taken, and those that are out. -/
structure Pool (α : Type*) (cap : ℕ) where
  free : Fifo α cap
  out : List α

namespace Pool

variable {α : Type*} {cap : ℕ}

/-! ### The operations -/

/-- Taking the token at the front, if there is one. -/
def take (p : Pool α cap) : Pool α cap :=
  match p.free.pop with
  | none => p
  | some (x, q) => ⟨q, x :: p.out⟩

/-- What a client does. -/
inductive Op (α : Type*) where
  | take
  | put (x : α)

/-- What a client's operation brings back. -/
def Op.back : Op α → Option α
  | .take => none
  | .put x => some x

theorem take_of_empty {p : Pool α cap} (h : p.free.items = []) : p.take = p := by
  cases hpop : p.free.pop with
  | none => simp only [take, hpop]
  | some r => simp [Fifo.items_of_pop_some hpop] at h

theorem take_of_cons {p : Pool α cap} {x : α} {xs : List α} (h : p.free.items = x :: xs) :
    p.take.free.items = xs ∧ p.take.out = x :: p.out := by
  cases hpop : p.free.pop with
  | none => simp [Fifo.items_of_pop_none hpop] at h
  | some r =>
      have heq := (Fifo.items_of_pop_some hpop).symm.trans h
      obtain ⟨rfl, rfl⟩ := List.cons.inj heq
      simp only [take, hpop, and_self]

/-! ### What the clients rely on, and what it takes -/

section Fairness

variable (all : List α)

/-- A take brings a token of the set that nobody has out; a put finds room. -/
def Fair (p : Pool α cap) : Op α → Prop
  | .take => ∀ x ∈ p.free.items.head?, x ∈ all ∧ x ∉ p.out
  | .put _ => ¬ p.free.Full

/-- Only what is out is put back. -/
def Owned (p : Pool α cap) (o : Op α) : Prop := ∀ x, o = .put x → x ∈ p.out

/-- Every token is in the pool or out, and only once. -/
def Intact (p : Pool α cap) : Prop := (p.free.items ++ p.out).Perm all

/-- Tokens of the set, none of them twice. -/
def Proper (xs : List α) : Prop := xs.Nodup ∧ ∀ x ∈ xs, x ∈ all

end Fairness

variable {all : List α}

theorem Proper.of_perm {xs ys : List α} (h : xs.Perm ys) (hys : Proper all ys) :
    Proper all xs :=
  ⟨h.nodup_iff.2 hys.1, fun x hx => hys.2 x (h.mem_iff.1 hx)⟩

theorem Proper.of_sublist {xs ys : List α} (h : xs.Sublist ys) (hys : Proper all ys) :
    Proper all xs :=
  ⟨hys.1.sublist h, fun x hx => hys.2 x (h.subset hx)⟩

theorem Intact.proper {p : Pool α cap} (hall : all.Nodup) (h : Intact all p) :
    Proper all (p.free.items ++ p.out) :=
  Proper.of_perm h ⟨hall, fun _ hx => hx⟩

/-- While a token is out there is room for it. -/
theorem Intact.not_full {p : Pool α cap} (hcap : all.length ≤ cap) (h : Intact all p) {x : α}
    (hx : x ∈ p.out) : ¬ p.free.Full := by
  intro hfull
  have hlen := h.length_eq
  have hpos := List.length_pos_of_mem hx
  simp only [List.length_append] at hlen
  have hle : cap ≤ p.free.items.length := hfull
  omega

theorem fair_of_intact {p : Pool α cap} {o : Op α} (hall : all.Nodup) (hcap : all.length ≤ cap)
    (h : Intact all p) (ho : Owned p o) : Fair all p o := by
  cases o with
  | take =>
      intro x hx
      obtain ⟨hnodup, hmem⟩ := h.proper hall
      have hfree : x ∈ p.free.items := List.mem_of_mem_head? hx
      exact ⟨hmem x (List.mem_append_left _ hfree), List.disjoint_of_nodup_append hnodup hfree⟩
  | put x => exact h.not_full hcap (ho x rfl)

/-- A take moves a token from the free ones to those that are out. -/
theorem perm_take (p : Pool α cap) :
    (p.take.free.items ++ p.take.out).Perm (p.free.items ++ p.out) := by
  cases h : p.free.items with
  | nil => rw [take_of_empty h, h]
  | cons x xs =>
      obtain ⟨hfree, hout⟩ := take_of_cons h
      rw [hfree, hout]
      exact List.perm_middle

/-! ### What an operation keeps -/

variable [DecidableEq α]

/-- Putting a token back, if it fits. -/
def put (p : Pool α cap) (x : α) : Pool α cap :=
  if p.free.Full then p else ⟨p.free.push x, p.out.erase x⟩

def step (p : Pool α cap) : Op α → Pool α cap
  | .take => p.take
  | .put x => p.put x

theorem put_of_full {p : Pool α cap} (h : p.free.Full) (x : α) : p.put x = p := if_pos h

theorem put_of_not_full {p : Pool α cap} (h : ¬ p.free.Full) (x : α) :
    (p.put x).free.items = p.free.items ++ [x] ∧ (p.put x).out = p.out.erase x := by
  rw [put, if_neg h]
  exact ⟨Fifo.items_push_of_not_full h x, rfl⟩

/-- Putting back what is out moves it to the free ones. -/
theorem perm_put {p : Pool α cap} (hfull : ¬ p.free.Full) {x : α} (hx : x ∈ p.out) :
    ((p.put x).free.items ++ (p.put x).out).Perm (p.free.items ++ p.out) := by
  obtain ⟨hfree, hout⟩ := put_of_not_full hfull x
  rw [hfree, hout, List.append_assoc]
  exact (List.perm_cons_erase hx).symm.append_left _

theorem intact_step {p : Pool α cap} {o : Op α} (hcap : all.length ≤ cap) (h : Intact all p)
    (ho : Owned p o) : Intact all (step p o) := by
  cases o with
  | take => exact (perm_take p).trans h
  | put x => exact (perm_put (h.not_full hcap (ho x rfl)) (ho x rfl)).trans h

/-- **As long as only tokens that are out come back, every token is in the pool or out.** -/
theorem intact_run {p : Pool α cap} {os : List (Op α)} (hcap : all.length ≤ cap)
    (h : Intact all p) (hos : Runs.Along step Owned p os) : Intact all (Runs.run step p os) := by
  induction os generalizing p with
  | nil => exact h
  | cons o os ih => exact ih (intact_step hcap h hos.1) hos.2

theorem along_fair {p : Pool α cap} {os : List (Op α)} (hall : all.Nodup)
    (hcap : all.length ≤ cap) (h : Intact all p) (hos : Runs.Along step Owned p os) :
    Runs.Along step (Fair all) p os := by
  induction os generalizing p with
  | nil => exact trivial
  | cons o os ih =>
      exact ⟨fair_of_intact hall hcap h hos.1, ih (intact_step hcap h hos.1) hos.2⟩

/-! ### A token put back that was not out -/

/-- What fair takes bring out is proper. -/
theorem proper_out_step {p : Pool α cap} {o : Op α} (h : Proper all p.out) (ho : Fair all p o) :
    Proper all (step p o).out := by
  cases o with
  | take =>
      change Proper all p.take.out
      cases hfree : p.free.items with
      | nil => rwa [take_of_empty hfree]
      | cons x xs =>
          obtain ⟨hx, hnew⟩ := ho x (by rw [hfree]; rfl)
          rw [(take_of_cons hfree).2]
          refine ⟨List.nodup_cons.2 ⟨hnew, h.1⟩, ?_⟩
          intro y hy
          rcases List.mem_cons.1 hy with rfl | hy
          · exact hx
          · exact h.2 y hy
  | put x =>
      change Proper all (p.put x).out
      rw [(put_of_not_full ho x).2]
      exact h.of_sublist List.erase_sublist

/-- What is proper after a fair step was proper before it: a step never takes anything out of the
pool and the clients' hands. -/
theorem proper_of_step {p : Pool α cap} {o : Op α} (ho : Fair all p o)
    (h : Proper all ((step p o).free.items ++ (step p o).out)) :
    Proper all (p.free.items ++ p.out) := by
  cases o with
  | take => exact h.of_perm (perm_take p).symm
  | put x =>
      by_cases hx : x ∈ p.out
      · exact h.of_perm (perm_put ho hx).symm
      · change Proper all ((p.put x).free.items ++ (p.put x).out) at h
        obtain ⟨hfree, hout⟩ := put_of_not_full ho x
        rw [hfree, hout, List.erase_of_not_mem hx] at h
        exact h.of_sublist ((List.sublist_append_left _ _).append_right _)

/-- If the pool can be emptied fairly, what is in it and what is out is proper. -/
theorem proper_of_drained {p : Pool α cap} (hout : Proper all p.out)
    (h : ∀ k, Runs.Along step (Fair all) p (List.replicate k .take)) :
    Proper all (p.free.items ++ p.out) := by
  induction hn : p.free.items.length generalizing p with
  | zero =>
      rw [List.length_eq_zero_iff.1 hn]
      exact hout
  | succ n ih =>
      have hfirst : Fair all p .take := (h 1).1
      refine proper_of_step hfirst (ih (proper_out_step hout hfirst) (fun k => (h (k + 1)).2) ?_)
      obtain ⟨x, xs, hx⟩ := List.exists_cons_of_length_eq_add_one hn
      have hlen : xs.length = n := by simpa [hx] using hn
      exact (congrArg List.length (take_of_cons hx).1).trans hlen

theorem proper_of_fair {p : Pool α cap} {os : List (Op α)} (hout : Proper all p.out)
    (h : ∀ k, Runs.Along step (Fair all) p (os ++ List.replicate k .take)) :
    Proper all (p.free.items ++ p.out) := by
  induction os generalizing p with
  | nil => exact proper_of_drained hout h
  | cons o os ih =>
      have ho : Fair all p o := (h 0).1
      exact proper_of_step ho (ih (proper_out_step hout ho) fun k => (h k).2)

/-- A token that was not out is one too many in the pool. -/
theorem not_proper_put {p : Pool α cap} {x : α} (h : Intact all p) (hfull : ¬ p.free.Full)
    (hx : x ∉ p.out) : ¬ Proper all ((p.put x).free.items ++ (p.put x).out) := by
  obtain ⟨hfree, hout⟩ := put_of_not_full hfull x
  rw [hfree, hout, List.erase_of_not_mem hx, List.append_assoc]
  rintro ⟨hnodup, hmem⟩
  have hall : x ∈ all := hmem x (by simp)
  rcases List.mem_append.1 (h.mem_iff.2 hall) with hin | hin
  · exact List.disjoint_of_nodup_append hnodup hin (by simp)
  · exact hx hin

/-- **The ownership rule.**  From a pool that has all its tokens, every take is served with a
token of its own and every put fits, also if all free tokens are taken afterwards, exactly when
only what is out is put back. -/
theorem forall_fair_iff {p : Pool α cap} (hall : all.Nodup) (hcap : all.length ≤ cap)
    (h : Intact all p) (os : List (Op α)) :
    (∀ k, Runs.Along step (Fair all) p (os ++ List.replicate k .take)) ↔
      Runs.Along step Owned p os := by
  constructor
  · intro hfair
    induction os generalizing p with
    | nil => exact trivial
    | cons o os ih =>
        have hfirst : Fair all p o := (hfair 0).1
        have howned : Owned p o := by
          rintro x rfl
          by_contra hx
          -- the pool is spoilt, and emptying it at the end would show
          have hout : Proper all p.out :=
            (h.proper hall).of_sublist (List.sublist_append_right _ _)
          exact not_proper_put h hfirst hx
            (proper_of_fair (proper_out_step hout hfirst) fun k => (hfair k).2)
        exact ⟨howned, ih (intact_step hcap h howned) fun k => (hfair k).2⟩
  · intro hos k
    refine along_fair hall hcap h (Runs.along_append.2 ⟨hos, ?_⟩)
    refine Runs.along_iff_throughout.2 ?_
    rintro pre o post heq x rfl
    have hmem : Op.put x ∈ List.replicate k (Op.take : Op α) := by simp [heq]
    cases List.eq_of_mem_replicate hmem

/-! ### The order of service -/

/-- What a step hands out. -/
def handed (p : Pool α cap) : Op α → List α
  | .take => p.free.items.head?.toList
  | .put _ => []

/-- What is brought back, if anything, finds room. -/
def Fits (p : Pool α cap) (o : Op α) : Prop := o.back ≠ none → ¬ p.free.Full

/-- **The order of service.**  As long as every put fits, the tokens handed out and then those
still free are the tokens that were free at first and then those that were put back, in this
order. -/
theorem taken_append_free {p : Pool α cap} {os : List (Op α)}
    (h : Runs.Along step Fits p os) :
    Runs.outputs step handed p os ++ (Runs.run step p os).free.items
      = p.free.items ++ os.filterMap Op.back := by
  induction os generalizing p with
  | nil => simp [Runs.outputs]
  | cons o os ih =>
      rw [Runs.outputs, Runs.run_cons, List.append_assoc, ih h.2]
      cases o with
      | take =>
          change handed p .take ++ (p.take.free.items ++ os.filterMap Op.back) = _
          cases hfree : p.free.items with
          | nil =>
              rw [take_of_empty hfree, hfree, List.filterMap_cons_none rfl, handed, hfree]
              rfl
          | cons x xs =>
              rw [(take_of_cons hfree).1, List.filterMap_cons_none rfl, handed, hfree]
              rfl
      | put x =>
          have hfull : ¬ p.free.Full := h.1 (by simp [Op.back])
          change [] ++ ((p.put x).free.items ++ os.filterMap Op.back) = _
          simp [(put_of_not_full hfull x).1, Op.back]

end Pool
