/-
**Runs of a deterministic transition function, and conditions along a run.**

A system that takes one input at a time is a function `step : σ → ι → σ`; a run is a list of
inputs.  Two kinds of statement are made about runs: that a property holds in every state a run
reaches, and that every *step* of a run meets a condition on the state before it and on the input.
This module relates the two.

Main definitions:

* `Runs.run` — the state a list of inputs leads to;
* `Runs.outputs` — what a run puts out, step by step;
* `Runs.Throughout` — every event of a history meets a condition on what came before it;
* `Runs.Along` — every step of a run meets a condition.

Main results:

* `Runs.run_invariant` — an invariant of the steps is an invariant of the runs;
* `Runs.throughout_concat` — one more event is one more condition;
* `Runs.sublist_and_eq_iff_throughout` — **the loss rule**: two sequences read off a history, one
  of which only ever loses, are equal exactly when no event loses anything;
* `Runs.along_iff_throughout` — a condition along a run is a condition on its history;
* `Runs.along_iff_forall_prefix` — **the exactness rule**: if, as long as a property of the
  history holds, a step keeps it exactly when it meets a condition, then the property holds after
  every prefix of a run exactly when the condition holds along the run;
* `Runs.abs_run`, `Runs.outputs_abs`, `Runs.along_abs` — **the projection rule**: a run seen
  through an abstraction function is a run of the other system on what is seen of it;
* `Runs.exists_iterate_le_of_measure` — a step that lowers a measure until it is done gets done.
-/

import Mathlib.Data.List.Infix
import Mathlib.Logic.Function.Iterate

set_option relaxedAutoImplicit false
set_option autoImplicit false

namespace Runs

variable {σ ι : Type*} (step : σ → ι → σ)

/-! ### The state after a list of inputs -/

/-- The state reached from `s` by taking the inputs of the list in order. -/
def run (s : σ) (es : List ι) : σ := es.foldl step s

@[simp] theorem run_nil (s : σ) : run step s [] = s := rfl

@[simp] theorem run_cons (s : σ) (e : ι) (es : List ι) :
    run step s (e :: es) = run step (step s e) es := rfl

theorem run_append (s : σ) (es fs : List ι) :
    run step s (es ++ fs) = run step (run step s es) fs :=
  List.foldl_append

@[simp] theorem run_concat (s : σ) (es : List ι) (e : ι) :
    run step s (es ++ [e]) = step (run step s es) e := by
  rw [run_append, run_cons, run_nil]

/-- Repeating one input is iterating its step. -/
theorem run_replicate (s : σ) (e : ι) (k : ℕ) :
    run step s (List.replicate k e) = (fun t => step t e)^[k] s := by
  induction k generalizing s with
  | zero => rfl
  | succ k ih => rw [List.replicate_succ, run_cons, ih, Function.iterate_succ_apply]

/-- An invariant of every step is an invariant of every run. -/
theorem run_invariant (Inv : σ → Prop) (hstep : ∀ s e, Inv s → Inv (step s e)) {s : σ}
    (h : Inv s) (es : List ι) : Inv (run step s es) := by
  induction es generalizing s with
  | nil => exact h
  | cons e es ih => exact ih (hstep s e h)

/-! ### What a run puts out -/

section Outputs

variable {ω : Type*} (out : σ → ι → List ω)

/-- What the run from `s` puts out, when a step on `e` puts out `out s e`. -/
def outputs : σ → List ι → List ω
  | _, [] => []
  | s, e :: es => out s e ++ outputs (step s e) es

theorem outputs_singleton (s : σ) (e : ι) : outputs step out s [e] = out s e :=
  List.append_nil _

theorem outputs_append (s : σ) (es fs : List ι) :
    outputs step out s (es ++ fs)
      = outputs step out s es ++ outputs step out (run step s es) fs := by
  induction es generalizing s with
  | nil => rfl
  | cons e es ih => simp only [List.cons_append, outputs, run_cons, ih, List.append_assoc]

/-- Where every step puts out at most one thing, the output can be split only where the run can. -/
theorem exists_split_of_outputs (hout : ∀ s e, (out s e).length ≤ 1) {s : σ} {es : List ι}
    {us vs : List ω} (h : outputs step out s es = us ++ vs) :
    ∃ es₁ es₂, es = es₁ ++ es₂ ∧ outputs step out s es₁ = us ∧
      outputs step out (run step s es₁) es₂ = vs := by
  induction es generalizing s us with
  | nil =>
      obtain ⟨rfl, rfl⟩ := List.append_eq_nil_iff.1 h.symm
      exact ⟨[], [], rfl, rfl, rfl⟩
  | cons e es ih =>
      cases us with
      | nil => exact ⟨[], e :: es, rfl, rfl, h⟩
      | cons u us =>
          cases hse : out s e with
          | nil =>
              rw [outputs, hse, List.nil_append] at h
              obtain ⟨es₁, es₂, rfl, hus, hvs⟩ := ih h
              exact ⟨e :: es₁, es₂, rfl, by rw [outputs, hse, hus, List.nil_append], hvs⟩
          | cons w ws =>
              have hws : ws = [] := by
                have hlen := hout s e
                rw [hse, List.length_cons] at hlen
                exact List.length_eq_zero_iff.1 (by omega)
              rw [outputs, hse, hws, List.singleton_append, List.cons_append] at h
              obtain ⟨rfl, htail⟩ := List.cons.inj h
              obtain ⟨es₁, es₂, rfl, hus, hvs⟩ := ih htail
              exact ⟨e :: es₁, es₂, rfl, by rw [outputs, hse, hws, hus]; rfl, hvs⟩

/-- Then a stretch of the output is the output of a stretch of the run. -/
theorem exists_infix_of_outputs (hout : ∀ s e, (out s e).length ≤ 1) {s : σ} {es : List ι}
    {ws : List ω} (h : ws <:+: outputs step out s es) :
    ∃ t fs, fs <:+: es ∧ outputs step out t fs = ws := by
  obtain ⟨us, vs, h⟩ := h
  obtain ⟨es₁, es₂, rfl, hus, -⟩ := exists_split_of_outputs step out hout h.symm
  obtain ⟨es₃, es₄, rfl, -, hws⟩ := exists_split_of_outputs step out hout hus
  exact ⟨_, es₄, ⟨es₃, es₂, rfl⟩, hws⟩

theorem outputs_concat (s : σ) (es : List ι) (e : ι) :
    outputs step out s (es ++ [e]) = outputs step out s es ++ out (run step s es) e := by
  rw [outputs_append, outputs, outputs, List.append_nil]

end Outputs

/-! ### Conditions on a history -/

/-- Every event of a history meets `C`, a condition on what came before it and on it. -/
def Throughout (C : List ι → ι → Prop) (es : List ι) : Prop :=
  ∀ pre e post, es = pre ++ e :: post → C pre e

variable {C D : List ι → ι → Prop}

theorem throughout_nil : Throughout C [] := by
  intro pre e post hes
  simp at hes

/-- One more event is one more condition. -/
theorem throughout_concat {es : List ι} {d : ι} :
    Throughout C (es ++ [d]) ↔ Throughout C es ∧ C es d := by
  constructor
  · intro h
    refine ⟨fun pre e post hes => h pre e (post ++ [d]) (by simp [hes]), h es d [] rfl⟩
  · rintro ⟨hes, hd⟩ pre e post heq
    rcases List.eq_nil_or_concat post with rfl | ⟨post, d', rfl⟩
    · obtain ⟨hpre, hcons⟩ := List.append_inj' heq rfl
      rw [← hpre, ← List.singleton_inj.1 hcons]
      exact hd
    · have heq' : es ++ [d] = (pre ++ e :: post) ++ [d'] := by simpa using heq
      exact hes pre e post (List.append_inj' heq' rfl).1

theorem Throughout.of_append {es fs : List ι} (h : Throughout C (es ++ fs)) : Throughout C es :=
  fun pre e post hes => h pre e (post ++ fs) (by simp [hes])

/-- Two conditions that agree wherever a third holds. -/
theorem throughout_congr {A : List ι → ι → Prop} {es : List ι} (hA : Throughout A es)
    (h : ∀ pre e, A pre e → (C pre e ↔ D pre e)) : Throughout C es ↔ Throughout D es := by
  constructor
  · intro hC pre e post hes
    exact (h pre e (hA pre e post hes)).1 (hC pre e post hes)
  · intro hD pre e post hes
    exact (h pre e (hA pre e post hes)).2 (hD pre e post hes)

/-- Two conditions that agree on an event as long as one of them has held before it. -/
theorem throughout_congr_of_before
    (h : ∀ pre e, Throughout C pre → (C pre e ↔ D pre e)) (es : List ι) :
    Throughout C es ↔ Throughout D es := by
  induction es using List.reverseRecOn with
  | nil => exact iff_of_true throughout_nil throughout_nil
  | append_singleton pre e ih =>
      rw [throughout_concat, throughout_concat, ← ih]
      exact and_congr_right (h pre e)

theorem append_eq_append_iff_of_sublist {ω : Type*} {as bs cs ds : List ω} (h : as.Sublist bs)
    (h' : cs.Sublist ds) : as ++ cs = bs ++ ds ↔ as = bs ∧ cs = ds := by
  constructor
  · intro heq
    have hlen := congrArg List.length heq
    have hle := h.length_le
    have hle' := h'.length_le
    simp only [List.length_append] at hlen
    exact ⟨h.eq_of_length (by omega), h'.eq_of_length (by omega)⟩
  · rintro ⟨rfl, rfl⟩
    rfl

/-- **The loss rule.**  Of two ways to turn a history into a sequence, each of which adds to its
sequence at every event, one only ever loses: what it adds is a part of what the other adds, and
is all of it exactly when the event meets `C`.  Then nothing is lost exactly when `C` holds
throughout.  What is said of an event may use a condition `A` that holds throughout. -/
theorem sublist_and_eq_iff_throughout {ω : Type*} {A : List ι → ι → Prop} {f g : List ι → List ω}
    (h0 : f [] = g [])
    (hstep : ∀ pre e, A pre e → ∃ as bs, f (pre ++ [e]) = f pre ++ as ∧
      g (pre ++ [e]) = g pre ++ bs ∧ as.Sublist bs ∧ (as = bs ↔ C pre e))
    {es : List ι} (hA : Throughout A es) :
    (f es).Sublist (g es) ∧ (f es = g es ↔ Throughout C es) := by
  induction es using List.reverseRecOn with
  | nil => exact ⟨h0 ▸ List.Sublist.refl _, iff_of_true h0 throughout_nil⟩
  | append_singleton pre e ih =>
      obtain ⟨hpre, hAe⟩ := throughout_concat.1 hA
      obtain ⟨hsub, hiff⟩ := ih hpre
      obtain ⟨as, bs, hf, hg, hadd, hC⟩ := hstep pre e hAe
      rw [hf, hg, append_eq_append_iff_of_sublist hsub hadd, throughout_concat, hiff, hC]
      exact ⟨hsub.append hadd, Iff.rfl⟩

/-! ### Conditions along a run -/

/-- Every step of the run from `s` meets `P`, a condition on the state before the step and on
the input it takes. -/
def Along (P : σ → ι → Prop) : σ → List ι → Prop
  | _, [] => True
  | s, e :: es => P s e ∧ Along P (step s e) es

variable {step} {P : σ → ι → Prop}

theorem along_nil (s : σ) : Along step P s [] := trivial

theorem along_singleton {s : σ} {e : ι} : Along step P s [e] ↔ P s e := by
  rw [Along, Along, and_true]

instance decidableAlong [∀ s e, Decidable (P s e)] :
    (s : σ) → (es : List ι) → Decidable (Along step P s es)
  | _, [] => isTrue trivial
  | s, e :: es =>
    have := decidableAlong (step s e) es
    inferInstanceAs (Decidable (P s e ∧ Along step P (step s e) es))

theorem along_append {s : σ} {es fs : List ι} :
    Along step P s (es ++ fs) ↔ Along step P s es ∧ Along step P (run step s es) fs := by
  induction es generalizing s with
  | nil => simp [Along]
  | cons e es ih => simp only [List.cons_append, Along, run_cons, ih, and_assoc]

/-- A condition holds along a run exactly when it holds at every point the run is split at. -/
theorem along_iff_throughout {s : σ} {es : List ι} :
    Along step P s es ↔ Throughout (fun pre e => P (run step s pre) e) es := by
  constructor
  · rintro h pre e post rfl
    exact (along_append.1 h).2.1
  · intro h
    induction es generalizing s with
    | nil => exact trivial
    | cons e es ih =>
        refine ⟨h [] e es rfl, ih ?_⟩
        intro pre d post hes
        exact h (e :: pre) d post (by rw [hes, List.cons_append])

/-- **The exactness rule.**  `J` is a property of the inputs taken so far.  If it holds before
anything happened, and a step taken while it holds keeps it exactly when the step meets `P`, then
it holds after every prefix of a run exactly when `P` holds along the run. -/
theorem along_iff_forall_prefix {J : List ι → Prop} {s : σ} (h0 : J [])
    (hstep : ∀ pre e, J pre → (P (run step s pre) e ↔ J (pre ++ [e]))) (es : List ι) :
    Along step P s es ↔ ∀ pre, pre <+: es → J pre := by
  constructor
  · intro h pre hpre
    induction pre using List.reverseRecOn with
    | nil => exact h0
    | append_singleton pre e ih =>
        obtain ⟨post, rfl⟩ := hpre
        -- `J` before the last step, by induction, turns the condition on that step into `J`
        have hJ : J pre := ih ⟨e :: post, by simp⟩
        have hP : P (run step s pre) e := along_iff_throughout.1 h pre e post (by simp)
        exact (hstep pre e hJ).1 hP
  · intro h
    refine along_iff_throughout.2 ?_
    rintro pre e post rfl
    have hJ : J pre := h pre (List.prefix_append _ _)
    exact (hstep pre e hJ).2 (h (pre ++ [e]) ⟨post, by simp⟩)

/-! ### One system seen through another -/

section Projection

variable {σ' ι' : Type*} {step' : σ' → ι' → σ'} {abs : σ → σ'} {seen : σ → ι → List ι'}
  {Inv : σ → Prop} (hinv : ∀ s e, Inv s → Inv (step s e))
  (habs : ∀ s e, Inv s → abs (step s e) = run step' (abs s) (seen s e))

include hinv habs

/-- **The projection rule.**  If every step is, seen through `abs`, some steps of another system or
none, then a run is a run of the other system on what is seen of it. -/
theorem abs_run {s : σ} (h : Inv s) (es : List ι) :
    abs (run step s es) = run step' (abs s) (outputs step seen s es) := by
  induction es generalizing s with
  | nil => rfl
  | cons e es ih => rw [run_cons, ih (hinv s e h), habs s e h, outputs, run_append]

/-- What a run puts out, read off what is seen of it. -/
theorem outputs_abs {ω : Type*} {out : σ → ι → List ω} {out' : σ' → ι' → List ω}
    (hout : ∀ s e, Inv s → out s e = outputs step' out' (abs s) (seen s e)) {s : σ} (h : Inv s)
    (es : List ι) :
    outputs step out s es = outputs step' out' (abs s) (outputs step seen s es) := by
  induction es generalizing s with
  | nil => rfl
  | cons e es ih =>
      rw [outputs, outputs, ih (hinv s e h), hout s e h, habs s e h, outputs_append]

/-- A condition along a run, as a condition along what is seen of it. -/
theorem along_abs {P' : σ' → ι' → Prop}
    (hP : ∀ s e, Inv s → (P s e ↔ Along step' P' (abs s) (seen s e))) {s : σ} (h : Inv s)
    (es : List ι) : Along step P s es ↔ Along step' P' (abs s) (outputs step seen s es) := by
  induction es generalizing s with
  | nil => exact Iff.rfl
  | cons e es ih => rw [Along, outputs, along_append, ih (hinv s e h), hP s e h, habs s e h]

end Projection

/-! ### Running until done -/

/-- If `f` keeps an invariant, and lowers a measure on every state that has the invariant and is
not done, iterating it gets done, in no more steps than the measure. -/
theorem exists_iterate_le_of_measure {Inv Done : σ → Prop} {f : σ → σ} (m : σ → ℕ)
    (hinv : ∀ s, Inv s → Inv (f s)) (hf : ∀ s, Inv s → ¬ Done s → m (f s) < m s) {s : σ}
    (hs : Inv s) : ∃ k ≤ m s, Done (f^[k] s) := by
  induction hn : m s using Nat.strong_induction_on generalizing s with
  | _ n ih =>
      by_cases hd : Done s
      · exact ⟨0, Nat.zero_le n, hd⟩
      · have hlt : m (f s) < n := hn ▸ hf s hs hd
        obtain ⟨k, hle, hk⟩ := ih (m (f s)) hlt (hinv s hs) rfl
        exact ⟨k + 1, by omega, by rwa [Function.iterate_succ_apply]⟩

/-- Iterating gets done, however large the measure is. -/
theorem exists_iterate_of_measure {Inv Done : σ → Prop} {f : σ → σ} (m : σ → ℕ)
    (hinv : ∀ s, Inv s → Inv (f s)) (hf : ∀ s, Inv s → ¬ Done s → m (f s) < m s) {s : σ}
    (hs : Inv s) : ∃ k, Done (f^[k] s) := by
  obtain ⟨k, -, hk⟩ := exists_iterate_le_of_measure m hinv hf hs
  exact ⟨k, hk⟩

end Runs
