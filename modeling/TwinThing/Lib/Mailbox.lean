/-
**A bounded mailbox in front of a device, and what the device settles to.**

Producers put commands into a bounded first-in first-out queue; one consumer takes them out and
applies them to a device.  While commands are waiting, the state of the device is out of date, and
what matters is the state it will *settle* to once the queue has drained: the waiting commands
applied, in order, to the device as it stands.  Receiving a command leaves that state alone, so it
can only be changed by a send, and a send to a full queue does not change it either.

Main definitions:

* `Fifo` — a queue that carries the proof that it is within its capacity;
* `Mailbox`, `Mailbox.settled` — a queue in front of a device, and the state the device settles
  to;
* `Mailbox.Consumer` — a process that empties the mailbox in steps of its own, seen through an
  abstraction function.

Main results:

* `Mailbox.settled_receive` — **receiving does not change what the device settles to**;
* `Mailbox.settled_send_of_not_full`, `Mailbox.settled_send_of_full` — what a send changes;
* `Mailbox.Consumer.forall_idle_iff` — the device shows a property whenever the consumer has
  gone idle exactly when the settled state has it.
-/

import TwinThing.Lib.Runs

set_option relaxedAutoImplicit false
set_option autoImplicit false

/-! ### Bounded queues -/

/-- A first-in first-out queue holding at most `cap` items, oldest first. -/
structure Fifo (α : Type*) (cap : ℕ) where
  /-- The waiting items. -/
  items : List α
  /-- The queue is within its capacity. -/
  length_le : items.length ≤ cap

namespace Fifo

variable {α : Type*} {cap : ℕ}

@[ext] theorem ext {q q' : Fifo α cap} (h : q.items = q'.items) : q = q' := by
  cases q; cases q'; cases h; rfl

/-- The queue with nothing in it. -/
def empty : Fifo α cap := ⟨[], Nat.zero_le _⟩

/-- No further item fits. -/
def Full (q : Fifo α cap) : Prop := cap ≤ q.items.length

instance (q : Fifo α cap) : Decidable q.Full := inferInstanceAs (Decidable (cap ≤ _))

/-- Adding an item at the back; a full queue stays as it is. -/
def push (q : Fifo α cap) (x : α) : Fifo α cap :=
  if h : q.Full then q else ⟨q.items ++ [x], by
    have : ¬ cap ≤ q.items.length := h
    simp only [List.length_append, List.length_cons, List.length_nil]
    omega⟩

/-- Taking the oldest item out. -/
def pop (q : Fifo α cap) : Option (α × Fifo α cap) :=
  match q with
  | ⟨[], _⟩ => none
  | ⟨x :: xs, h⟩ => some (x, ⟨xs, by simp only [List.length_cons] at h; omega⟩)

theorem push_of_full {q : Fifo α cap} (h : q.Full) (x : α) : q.push x = q := dif_pos h

theorem items_push_of_not_full {q : Fifo α cap} (h : ¬ q.Full) (x : α) :
    (q.push x).items = q.items ++ [x] := by
  rw [push, dif_neg h]

theorem items_of_pop_none {q : Fifo α cap} (h : q.pop = none) : q.items = [] := by
  obtain ⟨xs, hxs⟩ := q
  cases xs with
  | nil => rfl
  | cons x xs => cases h

theorem items_of_pop_some {q q' : Fifo α cap} {x : α} (h : q.pop = some (x, q')) :
    q.items = x :: q'.items := by
  obtain ⟨xs, hxs⟩ := q
  cases xs with
  | nil => cases h
  | cons y ys =>
      simp only [pop, Option.some.injEq, Prod.mk.injEq] at h
      obtain ⟨rfl, rfl⟩ := h
      rfl

end Fifo

/-! ### A queue in front of a device -/

/-- Commands of type `κ` waiting for a device with states `δ`. -/
structure Mailbox (δ κ : Type*) (cap : ℕ) where
  /-- The commands on their way. -/
  queue : Fifo κ cap
  /-- The device as it stands. -/
  device : δ

namespace Mailbox

variable {δ κ : Type*} {cap : ℕ} (act : δ → κ → δ)

/-- The state the device is in once every waiting command has been applied. -/
def settled (m : Mailbox δ κ cap) : δ := m.queue.items.foldl act m.device

/-- Sending a command, which a full queue drops. -/
def send (m : Mailbox δ κ cap) (x : κ) : Mailbox δ κ cap := { m with queue := m.queue.push x }

/-- The consumer takes the oldest command, if there is one, and applies it. -/
def receive (m : Mailbox δ κ cap) : Mailbox δ κ cap :=
  match m.queue.pop with
  | none => m
  | some (x, q) => ⟨q, act m.device x⟩

theorem settled_of_empty {m : Mailbox δ κ cap} (h : m.queue.items = []) :
    settled act m = m.device := by
  rw [settled, h, List.foldl_nil]

/-- **Receiving does not change what the device settles to.** -/
theorem settled_receive (m : Mailbox δ κ cap) : settled act (receive act m) = settled act m := by
  cases h : m.queue.pop with
  | none => simp only [receive, h]
  | some p =>
      obtain ⟨x, q⟩ := p
      simp only [receive, h, settled, Fifo.items_of_pop_some h, List.foldl_cons]

/-- A command that fits is the last one to be applied. -/
theorem settled_send_of_not_full {m : Mailbox δ κ cap} (h : ¬ m.queue.Full) (x : κ) :
    settled act (m.send x) = act (settled act m) x := by
  simp only [settled, send, Fifo.items_push_of_not_full h, List.foldl_append, List.foldl_cons,
    List.foldl_nil]

theorem settled_send_of_full {m : Mailbox δ κ cap} (h : m.queue.Full) (x : κ) :
    settled act (m.send x) = settled act m := by
  simp only [settled, send, Fifo.push_of_full h]

/-! ### The process that empties the mailbox -/

/-- A consumer process with states `τ`: its loop step is, through the abstraction function, either
a receive or invisible, and it keeps getting closer to being idle, which it can only be with an
empty queue. -/
structure Consumer (τ : Type*) (cap : ℕ) where
  /-- One step of the process. -/
  loop : τ → τ
  /-- The mailbox the process is serving. -/
  abs : τ → Mailbox δ κ cap
  /-- The states the process can be in. -/
  Inv : τ → Prop
  /-- The process is between two rounds and has nothing to do. -/
  Idle : τ → Prop
  /-- What is left to do. -/
  work : τ → ℕ
  inv_loop : ∀ t, Inv t → Inv (loop t)
  refines : ∀ t, Inv t → abs (loop t) = abs t ∨ abs (loop t) = receive act (abs t)
  idle_empty : ∀ t, Idle t → (abs t).queue.items = []
  work_lt : ∀ t, Inv t → ¬ Idle t → work (loop t) < work t

namespace Consumer

variable {act} {τ : Type*} (C : Consumer act τ cap)

theorem inv_iterate {t : τ} (h : C.Inv t) (k : ℕ) : C.Inv (C.loop^[k] t) := by
  induction k generalizing t with
  | zero => exact h
  | succ k ih => exact ih (C.inv_loop t h)

/-- One step of the process does not change what the device settles to. -/
theorem settled_loop {t : τ} (h : C.Inv t) :
    settled act (C.abs (C.loop t)) = settled act (C.abs t) := by
  rcases C.refines t h with heq | heq
  · rw [heq]
  · rw [heq, settled_receive]

theorem settled_iterate {t : τ} (h : C.Inv t) (k : ℕ) :
    settled act (C.abs (C.loop^[k] t)) = settled act (C.abs t) := by
  induction k generalizing t with
  | zero => rfl
  | succ k ih => rw [Function.iterate_succ_apply, ih (C.inv_loop t h), C.settled_loop h]

theorem device_of_idle {t : τ} (h : C.Idle t) : (C.abs t).device = settled act (C.abs t) :=
  (settled_of_empty act (C.idle_empty t h)).symm

/-- **What the device shows when the process is idle.**  Whenever the process, left alone, has
gone idle, the device has a property exactly when the settled state has it. -/
theorem forall_idle_iff {t : τ} (h : C.Inv t) (Q : δ → Prop) :
    (∀ k, C.Idle (C.loop^[k] t) → Q (C.abs (C.loop^[k] t)).device) ↔
      Q (settled act (C.abs t)) := by
  constructor
  · intro hQ
    -- left alone the process does go idle, and has changed nothing that matters on the way
    obtain ⟨k, hk⟩ := Runs.exists_iterate_of_measure C.work C.inv_loop C.work_lt h
    have hdev := hQ k hk
    rwa [C.device_of_idle hk, C.settled_iterate h k] at hdev
  · intro hQ k hk
    rwa [C.device_of_idle hk, C.settled_iterate h k]

end Consumer

end Mailbox
