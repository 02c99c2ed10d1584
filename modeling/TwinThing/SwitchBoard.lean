/-
**Several switches behind one callback.**

A `SwitchMgr` registers itself for its pin when it is constructed, so that several of them share
the one callback of all pads.  Its destructor is empty: it does not register anything else for
the pin, and a later interrupt there calls an object that is gone.  A second manager for the same
pin takes the place of the first.

Calling an object that is gone, like an access out of bounds, is not defined, and a run ends there
with `none`.

Main definitions:

* `TwinThing.SwitchBoard`, `TwinThing.SwitchBoard.step` — the table of observers, the managers, and
  what they have notified;
* `TwinThing.ownerOf`, `TwinThing.Alive` — the manager last constructed for a pad, and those that
  have not been destroyed;
* `TwinThing.SoloEvent`, `TwinThing.soloEvents` — what happens to one manager alone.

Main results:

* `TwinThing.board_defined_iff` — **exactly when a run is defined**: when the pads are in the
  table, and no interrupt comes for a manager that is gone;
* `TwinThing.board_notices` — **every switch works as if it were alone**: it notifies what a
  manager does that sees the interrupts of its pad only, until another is constructed there.
-/

import TwinThing.Lib.Handles
import TwinThing.GPIOInputMgr
import TwinThing.SwitchMgr

set_option relaxedAutoImplicit false
set_option autoImplicit false

namespace TwinThing

open GPIOInputMgr (Static)

/-! ### The managers and the table -/

/-- The static manager of the pads, whose observers are managers of switches, these managers, and
the notices they have given. -/
structure SwitchBoard where
  inputs : Static ℕ
  managers : HandleTable SwitchMgr
  notices : List (ℕ × Notice)

/-- A switch manager is constructed, given an observer or `NULL`, or destroyed; or an interrupt
comes, with what the clock reads when it is read. -/
inductive BoardEvent
  | construct (gp : Pad) (xFallingTime : UInt32)
  | setObserver (h : ℕ) (obs : Bool)
  | destroy (h : ℕ)
  | gpioCallback (gp : Pad) (events fallClock riseClock : UInt32)
  deriving DecidableEq, Repr

namespace SwitchBoard

/-- Before any manager was constructed. -/
def start : SwitchBoard := ⟨.init, .empty, []⟩

/-- The constructor of a manager, which registers it for its pin. -/
def construct (b : SwitchBoard) (gp : Pad) (xFallingTime : UInt32) : Option SwitchBoard :=
  (b.inputs.register gp (some b.managers.next)).toOption.map fun inputs =>
    { b with
      inputs := inputs
      managers := b.managers.alloc (SwitchMgr.init (UInt8.ofNat gp) xFallingTime) }

def setObserver (b : SwitchBoard) (h : ℕ) (obs : Bool) : Option SwitchBoard :=
  (b.managers.get h).map fun m =>
    { b with managers := b.managers.update h fun _ => m.setObserver obs }

/-- The destructor, which leaves the table as it is. -/
def destroy (b : SwitchBoard) (h : ℕ) : Option SwitchBoard :=
  (b.managers.get h).map fun _ => { b with managers := b.managers.free h }

/-- A call of `handleGPIO` of the manager at an address. -/
def call (bits : EdgeBits) (fallClock riseClock : UInt32) (b : SwitchBoard)
    (c : ObserverCall ℕ) : Option SwitchBoard :=
  (b.managers.get c.obs).map fun m =>
    let p := SwitchMgr.handleGPIO bits m (UInt32.ofNat c.gpio) c.events fallClock riseClock
    { b with
      managers := b.managers.update c.obs fun _ => p.1
      notices := b.notices ++ p.2.map fun n => (c.obs, n) }

/-- The interrupt callback, and the calls it makes. -/
def gpioCallback (bits : EdgeBits) (b : SwitchBoard) (gp : Pad)
    (events fallClock riseClock : UInt32) : Option SwitchBoard :=
  (b.inputs.gpioCallback gp events).toOption.bind fun inputs =>
    (inputs.calls.drop b.inputs.calls.length).foldlM (call bits fallClock riseClock)
      { b with inputs := inputs }

def step (bits : EdgeBits) (b : SwitchBoard) : BoardEvent → Option SwitchBoard
  | .construct gp x => b.construct gp x
  | .setObserver h obs => b.setObserver h obs
  | .destroy h => b.destroy h
  | .gpioCallback gp events fallClock riseClock =>
    b.gpioCallback bits gp events fallClock riseClock

/-- The board after some events, if they are defined. -/
def after (bits : EdgeBits) (es : List BoardEvent) : Option SwitchBoard :=
  es.foldlM (step bits) start

theorem after_concat (bits : EdgeBits) (es : List BoardEvent) (e : BoardEvent) :
    after bits (es ++ [e]) = (after bits es).bind fun b => b.step bits e := by
  rw [after, List.foldlM_append]
  simp [after]

/-- What the manager at an address has notified. -/
def noticesOf (b : SwitchBoard) (h : ℕ) : List Notice :=
  (b.notices.filter fun p => p.1 = h).map Prod.snd

end SwitchBoard

/-! ### Histories -/

/-- The pads for which managers were constructed, in order; the `i`-th has the address `i`. -/
def constructs (es : List BoardEvent) : List Pad :=
  es.filterMap fun
    | .construct gp _ => some gp
    | _ => none

/-- The manager last constructed for a pad. -/
def ownerOf (es : List BoardEvent) (g : Pad) : Option ℕ :=
  ((constructs es).zipIdx.filter fun p => p.1 = g).getLast?.map Prod.snd

/-- The manager at an address has been constructed and not destroyed. -/
def Alive (es : List BoardEvent) (h : ℕ) : Prop :=
  h < (constructs es).length ∧ .destroy h ∉ es

/-- An event is defined after others: a pad that a manager is constructed for is in the table, so
is one that interrupts unless there is no manager yet, and no object that is gone is used. -/
def Defined (pre : List BoardEvent) : BoardEvent → Prop
  | .construct gp _ => gp.val < NUM_GPIO
  | .setObserver h _ => Alive pre h
  | .destroy h => Alive pre h
  | .gpioCallback gp _ _ _ =>
    constructs pre = [] ∨ gp.val < NUM_GPIO ∧ ∀ h, ownerOf pre gp = some h → Alive pre h

/-! ### One manager alone -/

/-- What happens to one manager: it is given an observer or `NULL`, or its handler is called. -/
inductive SoloEvent
  | setObserver (obs : Bool)
  | interrupt (events fallClock riseClock : UInt32)
  deriving DecidableEq, Repr

/-- A manager, with the handler called for its own pin only. -/
def soloStep (bits : EdgeBits) (m : SwitchMgr) : SoloEvent → SwitchMgr × List Notice
  | .setObserver obs => (m.setObserver obs, [])
  | .interrupt events fallClock riseClock =>
    SwitchMgr.handleGPIO bits m m.xGP.toUInt32 events fallClock riseClock

/-- What a manager alone notifies. -/
def soloNotices (bits : EdgeBits) (m : SwitchMgr) (es : List SoloEvent) : List Notice :=
  Runs.outputs (fun m e => (soloStep bits m e).1) (fun m e => (soloStep bits m e).2) m es

/-- A manager alone, after some events. -/
def soloAfter (bits : EdgeBits) (m : SwitchMgr) (es : List SoloEvent) : SwitchMgr :=
  Runs.run (fun m e => (soloStep bits m e).1) m es

/-- What an event is to the manager at an address, if it is the one registered for a pad. -/
def soloEvent (h : ℕ) (g : Pad) : BoardEvent → Option SoloEvent
  | .setObserver h' obs => if h' = h then some (.setObserver obs) else none
  | .gpioCallback gp events fallClock riseClock =>
    if gp = g then some (.interrupt events fallClock riseClock) else none
  | _ => none

/-- The event is not the construction of another manager for the pad. -/
def keeps (g : Pad) : BoardEvent → Bool
  | .construct gp _ => decide (gp ≠ g)
  | _ => true

/-- What happens to the manager at an address after its construction for a pad, until another is
constructed there. -/
def soloEvents (h : ℕ) (g : Pad) (es : List BoardEvent) : List SoloEvent :=
  (es.takeWhile (keeps g)).filterMap (soloEvent h g)

/-! ### What histories say -/

theorem constructs_construct (es : List BoardEvent) (gp : Pad) (x : UInt32) :
    constructs (es ++ [.construct gp x]) = constructs es ++ [gp] := by
  simp [constructs]

theorem constructs_of_ne {e : BoardEvent} (h : ∀ gp x, e ≠ .construct gp x)
    (es : List BoardEvent) : constructs (es ++ [e]) = constructs es := by
  cases e with
  | construct gp x => exact absurd rfl (h gp x)
  | _ => simp [constructs]

theorem ownerOf_construct (es : List BoardEvent) (gp : Pad) (x : UInt32) (g : Pad) :
    ownerOf (es ++ [.construct gp x]) g
      = if g = gp then some (constructs es).length else ownerOf es g := by
  rw [ownerOf, constructs_construct, List.zipIdx_append, List.filter_append]
  by_cases h : g = gp
  · simp [h]
  · have hne : gp ≠ g := fun hgp => h hgp.symm
    simp [h, hne, ownerOf]

theorem ownerOf_of_ne {e : BoardEvent} (h : ∀ gp x, e ≠ .construct gp x) (es : List BoardEvent)
    (g : Pad) : ownerOf (es ++ [e]) g = ownerOf es g := by
  rw [ownerOf, constructs_of_ne h, ownerOf]

/-- The manager of a pad was constructed for it. -/
theorem getElem?_of_ownerOf {es : List BoardEvent} {g : Pad} {h : ℕ} (ho : ownerOf es g = some h) :
    (constructs es)[h]? = some g := by
  obtain ⟨p, hp, rfl⟩ := Option.map_eq_some_iff.1 ho
  obtain ⟨hmem, hpad⟩ := List.mem_filter.1 (List.mem_of_getLast? hp)
  rw [← of_decide_eq_true hpad]
  exact List.mem_zipIdx_iff_getElem?.1 hmem

theorem constructs_append (es fs : List BoardEvent) :
    constructs (es ++ fs) = constructs es ++ constructs fs := List.filterMap_append

/-- A manager has its pad until another is constructed there, and then never again. -/
theorem ownerOf_eq_iff (pre : List BoardEvent) (g : Pad) (x : UInt32) (post : List BoardEvent) :
    ownerOf (pre ++ .construct g x :: post) g = some (constructs pre).length
      ↔ post.all (keeps g) = true := by
  induction post using List.reverseRecOn with
  | nil => rw [ownerOf_construct, if_pos rfl]; simp
  | append_singleton post e ih =>
      rw [show pre ++ .construct g x :: (post ++ [e]) = (pre ++ .construct g x :: post) ++ [e] by
        simp, List.all_append, Bool.and_eq_true, ← ih]
      cases e with
      | construct gp x' =>
          rw [ownerOf_construct]
          by_cases h : g = gp
          · -- the newer manager has a greater address
            subst h
            simp [keeps, constructs]
          · have hne : gp ≠ g := fun hgp => h hgp.symm
            simp [h, hne, keeps]
      | _ => rw [ownerOf_of_ne (by simp)]; simp [keeps]

/-- It is no other pad's manager. -/
theorem eq_of_ownerOf {pre : List BoardEvent} {g gp : Pad} {x : UInt32} {post : List BoardEvent}
    (h : ownerOf (pre ++ .construct g x :: post) gp = some (constructs pre).length) : gp = g := by
  have hget := getElem?_of_ownerOf h
  rw [constructs_append] at hget
  simpa [constructs] using hget.symm

/-! ### What an event does to the board -/

namespace SwitchBoard

variable {bits : EdgeBits} {b : SwitchBoard}

theorem construct_spec {gp : Pad} (x : UInt32) (hg : gp.val < NUM_GPIO) :
    ∃ inputs, b.construct gp x = some { b with
        inputs := inputs
        managers := b.managers.alloc (SwitchMgr.init (UInt8.ofNat gp) x) } ∧
      inputs.pSelf ≠ none ∧
      ∀ g, inputs.observer g = if g = gp then some b.managers.next else b.inputs.observer g := by
  obtain ⟨inputs, hok, hself, -, hobs⟩ :=
    GPIOInputMgr.register_spec b.inputs (some b.managers.next) hg
  refine ⟨inputs, ?_, hself, hobs⟩
  rw [construct, hok]
  rfl

theorem construct_eq_none {gp : Pad} (x : UInt32) (hg : ¬ gp.val < NUM_GPIO) :
    b.construct gp x = none := by
  rw [construct, GPIOInputMgr.register_error b.inputs _ hg]
  rfl

theorem call_of_some {c : ObserverCall ℕ} {m : SwitchMgr} (h : b.managers.get c.obs = some m)
    {fallClock riseClock : UInt32} {p : SwitchMgr × List Notice}
    (hp : p = SwitchMgr.handleGPIO bits m (UInt32.ofNat c.gpio) c.events fallClock riseClock) :
    b.call bits fallClock riseClock c = some { b with
      managers := b.managers.update c.obs fun _ => p.1
      notices := b.notices ++ p.2.map fun n => (c.obs, n) } := by
  rw [call, h, hp]
  rfl

theorem call_of_none {c : ObserverCall ℕ} (h : b.managers.get c.obs = none)
    {fallClock riseClock : UInt32} : b.call bits fallClock riseClock c = none := by
  rw [call, h]
  rfl

/-- What an interrupt does when its pad has a manager, or none, in the table. -/
theorem gpioCallback_eq (bits : EdgeBits) (b : SwitchBoard) {gp : Pad} (hg : gp.val < NUM_GPIO)
    (events fallClock riseClock : UInt32) :
    ∃ inputs, inputs.pSelf = b.inputs.pSelf ∧
      (∀ g, inputs.observer g = b.inputs.observer g) ∧
      b.gpioCallback bits gp events fallClock riseClock =
        match b.inputs.observer gp with
        | some h => { b with inputs := inputs }.call bits fallClock riseClock ⟨h, gp, events⟩
        | none => some { b with inputs := inputs } := by
  refine ⟨{ b.inputs with
    calls := b.inputs.calls ++ (b.inputs.observer gp).toList.map (⟨·, gp, events⟩) }, rfl,
    fun _ => rfl, ?_⟩
  rw [gpioCallback, GPIOInputMgr.gpioCallback_spec b.inputs events hg]
  cases b.inputs.observer gp with
  | none => simp [Except.toOption]
  | some h => simp [Except.toOption]

/-- Before there is a manager of the pads nothing happens. -/
theorem gpioCallback_of_none (h : b.inputs.pSelf = none) (gp : Pad)
    (events fallClock riseClock : UInt32) :
    b.gpioCallback bits gp events fallClock riseClock = some b := by
  rw [gpioCallback, GPIOInputMgr.gpioCallback_of_none h]
  simp [Except.toOption]

theorem gpioCallback_eq_none (h : b.inputs.pSelf ≠ none) {gp : Pad} (hg : ¬ gp.val < NUM_GPIO)
    (events fallClock riseClock : UInt32) :
    b.gpioCallback bits gp events fallClock riseClock = none := by
  rw [gpioCallback, GPIOInputMgr.gpioCallback_error h events hg]
  rfl

/-! ### What holds in every run -/

/-- The board agrees with its history. -/
structure Tracks (es : List BoardEvent) (b : SwitchBoard) : Prop where
  managed : b.inputs.pSelf ≠ none ↔ constructs es ≠ []
  observer : ∀ g, b.inputs.observer g = ownerOf es g
  next : b.managers.next = (constructs es).length
  live : ∀ h, b.managers.Live h ↔ Alive es h
  destroyed : ∀ h, .destroy h ∈ es → h < (constructs es).length
  noticed : ∀ p ∈ b.notices, p.1 < (constructs es).length

theorem tracks_start : Tracks [] start where
  managed := iff_of_false (fun h => h rfl) (fun h => h rfl)
  observer := fun g => GPIOInputMgr.observer_of_none rfl g
  next := rfl
  live := fun h => iff_of_false (HandleTable.not_live_empty h) (fun hh => Nat.not_lt_zero h hh.1)
  destroyed := by simp
  noticed := by simp [start]

variable {es : List BoardEvent}

theorem mem_concat_of_ne {d e : BoardEvent} (h : d ≠ e) : d ∈ es ++ [e] ↔ d ∈ es := by
  rw [List.mem_append, List.mem_singleton]
  exact or_iff_left h

/-- An event that constructs and destroys nothing leaves the board agreeing with its history, if
it changes nothing that its history tells. -/
theorem Tracks.of_quiet (ht : Tracks es b) {e : BoardEvent} (hc : ∀ gp x, e ≠ .construct gp x)
    (hd : ∀ h, e ≠ .destroy h) {b' : SwitchBoard} (hself : b'.inputs.pSelf = b.inputs.pSelf)
    (hobs : ∀ g, b'.inputs.observer g = b.inputs.observer g)
    (hnext : b'.managers.next = b.managers.next)
    (hlive : ∀ h, b'.managers.Live h ↔ b.managers.Live h)
    (hnoticed : ∀ p ∈ b'.notices, p ∈ b.notices ∨ b.managers.Live p.1) : Tracks (es ++ [e]) b' where
  managed := by
    rw [hself, constructs_of_ne hc]
    exact ht.managed
  observer := by
    intro g
    rw [hobs, ownerOf_of_ne hc]
    exact ht.observer g
  next := by
    rw [hnext, constructs_of_ne hc]
    exact ht.next
  live := by
    intro h
    rw [hlive, ht.live, Alive, Alive, constructs_of_ne hc, mem_concat_of_ne (hd h).symm]
  destroyed := by
    intro h hmem
    rw [constructs_of_ne hc]
    exact ht.destroyed h ((mem_concat_of_ne (hd h).symm).1 hmem)
  noticed := by
    intro p hp
    rw [constructs_of_ne hc]
    rcases hnoticed p hp with hp | hp
    · exact ht.noticed p hp
    · exact ((ht.live p.1).1 hp).1

/-- **The step lemma**: an event that is defined leaves the board agreeing with its history. -/
theorem exists_step_of_defined (bits : EdgeBits) (ht : Tracks es b) {e : BoardEvent}
    (he : Defined es e) :
    ∃ b', b.step bits e = some b' ∧ Tracks (es ++ [e]) b' := by
  cases e with
  | construct gp x =>
      obtain ⟨inputs, hstep, hself, hobs⟩ := construct_spec x he
      refine ⟨_, hstep, ?_, ?_, ?_, ?_, ?_, ?_⟩
      · rw [constructs_construct]
        exact iff_of_true hself (by simp)
      · intro g
        rw [hobs, ownerOf_construct, ht.next, ht.observer]
      · rw [constructs_construct, List.length_append]
        exact congrArg (· + 1) ht.next
      · intro h
        rw [HandleTable.live_alloc, ht.live, ht.next, Alive, Alive, constructs_construct,
          List.length_append, List.length_singleton, mem_concat_of_ne (by simp)]
        constructor
        · rintro (rfl | ⟨hlt, hnot⟩)
          · -- a new manager was not destroyed before it was constructed
            exact ⟨Nat.lt_succ_self _, fun hmem => Nat.lt_irrefl _ (ht.destroyed _ hmem)⟩
          · exact ⟨Nat.lt_succ_of_lt hlt, hnot⟩
        · rintro ⟨hlt, hnot⟩
          rcases Nat.lt_succ_iff_lt_or_eq.1 hlt with hlt | heq
          · exact Or.inr ⟨hlt, hnot⟩
          · exact Or.inl heq
      · intro h hmem
        rw [constructs_construct, List.length_append]
        exact Nat.lt_succ_of_lt (ht.destroyed h ((mem_concat_of_ne (by simp)).1 hmem))
      · intro p hp
        rw [constructs_construct, List.length_append]
        exact Nat.lt_succ_of_lt (ht.noticed p hp)
  | setObserver h obs =>
      obtain ⟨m, hm⟩ := Option.ne_none_iff_exists'.1 ((ht.live h).2 he)
      refine ⟨{ b with managers := b.managers.update h fun _ => m.setObserver obs }, ?_,
        ht.of_quiet (by simp) (by simp) rfl (fun _ => rfl) rfl ?_ fun p hp => Or.inl hp⟩
      · rw [step, setObserver, hm]
        rfl
      · intro h'
        exact HandleTable.live_update
  | destroy h =>
      obtain ⟨m, hm⟩ := Option.ne_none_iff_exists'.1 ((ht.live h).2 he)
      refine ⟨{ b with managers := b.managers.free h }, ?_, ?_, ?_, ?_, ?_, ?_, ?_⟩
      · rw [step, destroy, hm]
        rfl
      · rw [constructs_of_ne (by simp)]
        exact ht.managed
      · intro g
        rw [ownerOf_of_ne (by simp)]
        exact ht.observer g
      · rw [constructs_of_ne (by simp)]
        exact ht.next
      · intro h'
        rw [HandleTable.live_free, ht.live, Alive, Alive, constructs_of_ne (by simp),
          List.mem_append, List.mem_singleton, BoardEvent.destroy.injEq, not_or]
        exact ⟨fun ⟨hne, hlt, hnot⟩ => ⟨hlt, hnot, hne⟩, fun ⟨hlt, hnot, hne⟩ => ⟨hne, hlt, hnot⟩⟩
      · intro h' hmem
        rw [constructs_of_ne (by simp)]
        rcases List.mem_append.1 hmem with hmem | hmem
        · exact ht.destroyed h' hmem
        · cases List.mem_singleton.1 hmem
          exact he.1
      · intro p hp
        rw [constructs_of_ne (by simp)]
        exact ht.noticed p hp
  | gpioCallback gp events fallClock riseClock =>
      rcases he with hnone | ⟨hg, halive⟩
      · have hself : b.inputs.pSelf = none := not_not.1 fun hne => ht.managed.1 hne hnone
        exact ⟨b, gpioCallback_of_none hself .., ht.of_quiet (by simp) (by simp) rfl (fun _ => rfl)
          rfl (fun _ => Iff.rfl) fun p hp => Or.inl hp⟩
      · obtain ⟨inputs, hself, hobs, hstep⟩ :=
          gpioCallback_eq bits b hg events fallClock riseClock
        rw [step, hstep, ht.observer]
        cases ho : ownerOf es gp with
        | none =>
            exact ⟨_, rfl, ht.of_quiet (by simp) (by simp) hself hobs rfl (fun _ => Iff.rfl)
              fun p hp => Or.inl hp⟩
        | some h =>
            have hlive : b.managers.Live h := (ht.live h).2 (halive h ho)
            obtain ⟨m, hm⟩ := Option.ne_none_iff_exists'.1 hlive
            refine ⟨_, call_of_some hm rfl, ht.of_quiet (by simp) (by simp) hself hobs rfl
              (fun _ => HandleTable.live_update) fun p hp => ?_⟩
            rcases List.mem_append.1 hp with hp | hp
            · exact Or.inl hp
            · obtain ⟨n, -, rfl⟩ := List.mem_map.1 hp
              exact Or.inr hlive

/-- An event that is not defined ends the run. -/
theorem step_eq_none (ht : Tracks es b) {e : BoardEvent} (he : ¬ Defined es e) :
    b.step bits e = none := by
  cases e with
  | construct gp x => exact construct_eq_none x he
  | setObserver h obs =>
      have hm : b.managers.get h = none := not_not.1 fun hne => he ((ht.live h).1 hne)
      rw [step, setObserver, hm]
      rfl
  | destroy h =>
      have hm : b.managers.get h = none := not_not.1 fun hne => he ((ht.live h).1 hne)
      rw [step, destroy, hm]
      rfl
  | gpioCallback gp events fallClock riseClock =>
      obtain ⟨hsome, hbad⟩ := not_or.1 he
      by_cases hg : gp.val < NUM_GPIO
      · -- the pad's manager is gone
        obtain ⟨inputs, -, -, hstep⟩ :=
          gpioCallback_eq bits b hg events fallClock riseClock
        obtain ⟨h, ho, hdead⟩ : ∃ h, ownerOf es gp = some h ∧ ¬ Alive es h := by
          simpa [hg] using hbad
        have hm : b.managers.get h = none := not_not.1 fun hne => hdead ((ht.live h).1 hne)
        rw [step, hstep, ht.observer, ho]
        exact call_of_none hm
      · exact gpioCallback_eq_none (ht.managed.2 hsome) hg ..

/-- A run whose events are defined leaves the board agreeing with its history. -/
theorem exists_after (bits : EdgeBits) {es : List BoardEvent} (h : Runs.Throughout Defined es) :
    ∃ b, after bits es = some b ∧ Tracks es b := by
  induction es using List.reverseRecOn with
  | nil => exact ⟨start, rfl, tracks_start⟩
  | append_singleton es e ih =>
      obtain ⟨hes, he⟩ := Runs.throughout_concat.1 h
      obtain ⟨b, hafter, ht⟩ := ih hes
      obtain ⟨b', hstep, ht'⟩ := exists_step_of_defined bits ht he
      exact ⟨b', by rw [after_concat, hafter]; exact hstep, ht'⟩

theorem throughout_of_after {bits : EdgeBits} {es : List BoardEvent} {b : SwitchBoard}
    (h : after bits es = some b) : Runs.Throughout Defined es := by
  induction es using List.reverseRecOn generalizing b with
  | nil => exact Runs.throughout_nil
  | append_singleton es e ih =>
      rw [after_concat] at h
      obtain ⟨b', hafter, hstep⟩ := Option.bind_eq_some_iff.1 h
      have hes := ih hafter
      obtain ⟨b'', hafter', ht⟩ := exists_after bits hes
      cases hafter.symm.trans hafter'
      refine Runs.throughout_concat.2 ⟨hes, not_not.1 fun he => ?_⟩
      rw [step_eq_none ht he] at hstep
      cases hstep

theorem tracks_of_after {bits : EdgeBits} {es : List BoardEvent} {b : SwitchBoard}
    (h : after bits es = some b) : Tracks es b := by
  obtain ⟨b', hb', ht⟩ := exists_after bits (throughout_of_after h)
  cases h.symm.trans hb'
  exact ht

end SwitchBoard

/-- **Exactly when a run is defined**: every manager is constructed for a pad in the table, no
object that is gone is used, and no interrupt comes, once there is a manager, from the last pad or
from one whose last manager has been destroyed. -/
theorem board_defined_iff (bits : EdgeBits) (es : List BoardEvent) :
    (SwitchBoard.after bits es).isSome ↔ Runs.Throughout Defined es := by
  rw [Option.isSome_iff_exists]
  constructor
  · rintro ⟨b, h⟩
    exact SwitchBoard.throughout_of_after h
  · intro h
    obtain ⟨b, hb, -⟩ := SwitchBoard.exists_after bits h
    exact ⟨b, hb⟩

/-! ### One manager among others -/

theorem xGP_of_handled {bits : EdgeBits} {m : SwitchMgr} {gpio events c c' : UInt32}
    {p : SwitchMgr × List Notice} (hp : p = SwitchMgr.handleGPIO bits m gpio events c c') :
    p.1.xGP = m.xGP := by
  rw [hp]
  unfold SwitchMgr.handleGPIO
  split
  · dsimp only
    split
    · split <;> rfl
    · split <;> rfl
  · rfl

theorem soloAfter_xGP (bits : EdgeBits) (m : SwitchMgr) (es : List SoloEvent) :
    (soloAfter bits m es).xGP = m.xGP := by
  refine Runs.run_invariant _ (fun n : SwitchMgr => n.xGP = m.xGP) ?_ rfl es
  intro n e hn
  cases e with
  | setObserver obs => exact hn
  | interrupt events c c' => exact (xGP_of_handled rfl).trans hn

theorem soloAfter_concat (bits : EdgeBits) (m : SwitchMgr) (es : List SoloEvent) (e : SoloEvent) :
    soloAfter bits m (es ++ [e]) = (soloStep bits (soloAfter bits m es) e).1 :=
  Runs.run_concat ..

theorem soloNotices_concat (bits : EdgeBits) (m : SwitchMgr) (es : List SoloEvent) (e : SoloEvent) :
    soloNotices bits m (es ++ [e])
      = soloNotices bits m es ++ (soloStep bits (soloAfter bits m es) e).2 :=
  Runs.outputs_concat ..

/-- A pad as the manager keeps it and as the interrupt passes it. -/
theorem toUInt32_pad (g : Pad) : (UInt8.ofNat g).toUInt32 = UInt32.ofNat g := by
  revert g
  decide

theorem takeWhile_concat (p : BoardEvent → Bool) (es : List BoardEvent) (e : BoardEvent) :
    (es ++ [e]).takeWhile p
      = es.takeWhile p ++ if es.all p = true then [e].takeWhile p else [] := by
  induction es with
  | nil => simp
  | cons d es ih =>
      cases hd : p d with
      | true => simp [hd, ih]
      | false => simp [hd]

/-- The construction of another manager for its pad is nothing that happens to a manager. -/
theorem filterMap_takeWhile_singleton (h : ℕ) (g : Pad) (e : BoardEvent) :
    ([e].takeWhile (keeps g)).filterMap (soloEvent h g) = (soloEvent h g e).toList := by
  cases hk : keeps g e with
  | true =>
      rw [List.takeWhile_cons_of_pos hk, List.takeWhile_nil]
      cases hs : soloEvent h g e with
      | none => simp [hs]
      | some a => simp [hs]
  | false =>
      rw [List.takeWhile_cons_of_neg (by simp [hk])]
      cases e with
      | construct gp x => rfl
      | _ => cases hk

theorem soloEvents_concat (h : ℕ) (g : Pad) (post : List BoardEvent) (e : BoardEvent) :
    soloEvents h g (post ++ [e]) = soloEvents h g post ++
      if post.all (keeps g) = true then (soloEvent h g e).toList else [] := by
  rw [soloEvents, takeWhile_concat, List.filterMap_append, soloEvents]
  split
  · rw [filterMap_takeWhile_singleton]
  · rfl

namespace SwitchBoard

variable {bits : EdgeBits} {b b' : SwitchBoard} {es : List BoardEvent}

theorem noticesOf_append (inputs : Static ℕ) (managers : HandleTable SwitchMgr)
    (notices : List (ℕ × Notice)) (h h' : ℕ) (ns : List Notice) :
    noticesOf ⟨inputs, managers, notices ++ ns.map fun n => (h', n)⟩ h
      = noticesOf ⟨inputs, managers, notices⟩ h ++ if h' = h then ns else [] := by
  rw [noticesOf, List.filter_append, List.map_append, noticesOf]
  by_cases heq : h' = h
  · simp [heq, List.filter_map, Function.comp_def]
  · simp [heq, List.filter_map, Function.comp_def]

/-- What an event does to the manager at an address that was given out: nothing, unless it ends its
life; or it sets its observer; or it calls its handler. -/
theorem step_cases_at (ht : Tracks es b) {e : BoardEvent} (hstep : b.step bits e = some b') {h : ℕ}
    (hh : h < (constructs es).length) :
    (b'.noticesOf h = b.noticesOf h ∧ (∀ m, b'.managers.get h = some m → b.managers.get h = some m)
        ∧ ∀ g, ownerOf es g = some h → soloEvent h g e = none) ∨
      (∃ obs m, e = .setObserver h obs ∧ b'.noticesOf h = b.noticesOf h ∧
        b.managers.get h = some m ∧ b'.managers.get h = some (m.setObserver obs)) ∨
      ∃ gp events c c' m p, e = .gpioCallback gp events c c' ∧ ownerOf es gp = some h ∧
        b.managers.get h = some m ∧
        p = SwitchMgr.handleGPIO bits m (UInt32.ofNat gp) events c c' ∧
        b'.noticesOf h = b.noticesOf h ++ p.2 ∧ b'.managers.get h = some p.1 := by
  cases e with
  | construct gp x =>
      left
      obtain ⟨inputs, -, hb'⟩ := Option.map_eq_some_iff.1 hstep
      subst hb'
      refine ⟨rfl, ?_, fun _ _ => rfl⟩
      intro m hm
      have hne : h ≠ b.managers.next := by
        rw [ht.next]
        exact Nat.ne_of_lt hh
      rwa [HandleTable.get_alloc, if_neg hne] at hm
  | setObserver h' obs =>
      obtain ⟨m, hm, hb'⟩ := Option.map_eq_some_iff.1 hstep
      subst hb'
      by_cases heq : h' = h
      · right
        left
        subst heq
        refine ⟨obs, m, rfl, rfl, hm, ?_⟩
        rw [HandleTable.get_update_self, hm]
        rfl
      · left
        refine ⟨rfl, ?_, fun _ _ => if_neg heq⟩
        intro n hn
        rwa [HandleTable.get_update, if_neg fun h => heq h.symm] at hn
  | destroy h' =>
      left
      obtain ⟨m, hm, hb'⟩ := Option.map_eq_some_iff.1 hstep
      subst hb'
      refine ⟨rfl, ?_, fun _ _ => rfl⟩
      intro n hn
      rw [HandleTable.get_free] at hn
      split at hn
      · cases hn
      · exact hn
  | gpioCallback gp events c c' =>
      have hself : b.inputs.pSelf ≠ none := by
        refine ht.managed.2 fun hnil => ?_
        rw [hnil] at hh
        exact Nat.not_lt_zero h hh
      have hg : gp.val < NUM_GPIO := by
        refine not_not.1 fun hg => ?_
        rw [step, gpioCallback_eq_none hself hg] at hstep
        cases hstep
      obtain ⟨inputs, -, -, hcall⟩ := gpioCallback_eq bits b hg events c c'
      rw [step, hcall, ht.observer] at hstep
      cases ho : ownerOf es gp with
      | none =>
          rw [ho] at hstep
          cases hstep
          refine Or.inl ⟨rfl, fun _ hm => hm, fun g hg => if_neg ?_⟩
          rintro rfl
          rw [ho] at hg
          cases hg
      | some h' =>
          rw [ho] at hstep
          obtain ⟨m, hm, hb'⟩ := Option.map_eq_some_iff.1 hstep
          subst hb'
          by_cases heq : h' = h
          · subst heq
            refine Or.inr (Or.inr ⟨gp, events, c, c', m, _, rfl, ho, hm, rfl, ?_, ?_⟩)
            · exact (noticesOf_append ..).trans (congrArg (_ ++ ·) (if_pos rfl))
            · exact (HandleTable.get_update_self ..).trans (congrArg (Option.map _) hm)
          · left
            refine ⟨?_, ?_, ?_⟩
            · exact (noticesOf_append ..).trans
                ((congrArg (_ ++ ·) (if_neg heq)).trans (List.append_nil _))
            · intro n hn
              rwa [HandleTable.get_update, if_neg fun h => heq h.symm] at hn
            · intro g hg
              refine if_neg ?_
              rintro rfl
              exact heq (Option.some.inj (ho.symm.trans hg))

/-- **The run lemma**: from its construction on, a manager has notified what it would have alone,
and, until another is constructed for its pad, it is what it would be alone. -/
theorem solo_of_after {pre post : List BoardEvent} {g : Pad} {x : UInt32}
    (hafter : after bits (pre ++ .construct g x :: post) = some b) :
    b.noticesOf (constructs pre).length
        = soloNotices bits (SwitchMgr.init (UInt8.ofNat g) x)
          (soloEvents (constructs pre).length g post) ∧
      (post.all (keeps g) = true → ∀ m, b.managers.get (constructs pre).length = some m →
        m = soloAfter bits (SwitchMgr.init (UInt8.ofNat g) x)
          (soloEvents (constructs pre).length g post)) := by
  induction post using List.reverseRecOn generalizing b with
  | nil =>
      rw [after_concat] at hafter
      obtain ⟨a, hpre, hstep⟩ := Option.bind_eq_some_iff.1 hafter
      have ht := tracks_of_after hpre
      obtain ⟨inputs, -, hb⟩ := Option.map_eq_some_iff.1 hstep
      subst hb
      constructor
      · -- nothing was notified under an address that had not been given out
        have hnone : a.notices.filter (fun p => p.1 = (constructs pre).length) = [] := by
          refine List.filter_eq_nil_iff.2 fun p hp heq => ?_
          exact absurd (of_decide_eq_true heq) (Nat.ne_of_lt (ht.noticed p hp))
        exact congrArg (List.map Prod.snd) hnone
      · intro _ m hm
        rw [HandleTable.get_alloc, if_pos ht.next.symm] at hm
        exact (Option.some.inj hm).symm
  | append_singleton post e ih =>
      have hes : pre ++ .construct g x :: (post ++ [e])
          = (pre ++ .construct g x :: post) ++ [e] := by simp
      rw [hes, after_concat] at hafter
      obtain ⟨a, hpre, hstep⟩ := Option.bind_eq_some_iff.1 hafter
      have ht := tracks_of_after hpre
      obtain ⟨hnotices, hmgr⟩ := ih hpre
      have hh : (constructs pre).length < (constructs (pre ++ .construct g x :: post)).length := by
        simp [constructs]
      rw [soloEvents_concat, List.all_append, Bool.and_eq_true]
      rcases step_cases_at ht hstep hh with ⟨hsame, hget, hnot⟩ | ⟨obs, m, rfl, hsame, hm, hm'⟩ |
        ⟨gp, events, c, c', m, p, rfl, howner, hm, hp, hnew, hm'⟩
      · -- nothing happens to the manager, alone or not
        have hsolo : (if post.all (keeps g) = true then
            (soloEvent (constructs pre).length g e).toList else []) = [] := by
          split
          · rw [hnot g ((ownerOf_eq_iff pre g x post).2 ‹_›)]
            rfl
          · rfl
        rw [hsolo, List.append_nil, hsame]
        exact ⟨hnotices, fun hall m hm => hmgr hall.1 m (hget m hm)⟩
      · rw [hsame, hnotices]
        by_cases hall : post.all (keeps g) = true
        · rw [if_pos hall]
          simp only [soloEvent, if_true, Option.toList_some, soloNotices_concat, soloAfter_concat]
          refine ⟨(List.append_nil _).symm, fun _ n hn => ?_⟩
          rw [← hmgr hall m hm]
          exact Option.some.inj (hn.symm.trans hm')
        · rw [if_neg hall, List.append_nil]
          exact ⟨rfl, fun h => absurd h.1 hall⟩
      · -- the manager is the one its pad has, as it would be alone
        cases eq_of_ownerOf howner
        have hall := (ownerOf_eq_iff pre g x post).1 howner
        have hsolo := hmgr hall m hm
        have hpin : UInt32.ofNat g = m.xGP.toUInt32 := by
          rw [hsolo, soloAfter_xGP]
          exact (toUInt32_pad g).symm
        rw [if_pos hall, hnew, hnotices]
        simp only [soloEvent, if_true, Option.toList_some, soloNotices_concat, soloAfter_concat]
        rw [← hsolo, soloStep, ← hpin, ← hp]
        exact ⟨rfl, fun _ n hn => Option.some.inj (hn.symm.trans hm')⟩

end SwitchBoard

/-- **Every switch works as if it were alone.**  Whatever managers there are, and whatever comes
after its construction, a manager has notified exactly what it notifies alone when its observer is
set as it was, and it sees the interrupts of its pad until another is constructed there. -/
theorem board_notices (bits : EdgeBits) (pre post : List BoardEvent) (g : Pad) (x : UInt32)
    {b : SwitchBoard} (h : SwitchBoard.after bits (pre ++ .construct g x :: post) = some b) :
    b.noticesOf (constructs pre).length
      = soloNotices bits (SwitchMgr.init (UInt8.ofNat g) x)
        (soloEvents (constructs pre).length g post) :=
  (SwitchBoard.solo_of_after h).1

/-- A second switch is constructed and both are pressed, the second one after the first and for
longer; then the first one's observer is taken away, and it is pressed again. -/
def overlapping : List BoardEvent :=
  [.construct 15 7, .setObserver 0 true, .setObserver 1 true, .gpioCallback 14 0x4 3000 3000,
    .gpioCallback 15 0x4 3050 3050, .gpioCallback 14 0x8 3100 3100,
    .gpioCallback 15 0x8 3350 3350, .setObserver 0 false, .gpioCallback 14 0x4 4000 4000,
    .gpioCallback 14 0x8 4100 4100]

theorem board_notices_overlapping :
    ∃ b, SwitchBoard.after .pico ([] ++ .construct 14 0 :: overlapping) = some b ∧
      b.noticesOf 0 = soloNotices .pico (SwitchMgr.init 14 0) (soloEvents 0 14 overlapping) ∧
      soloNotices .pico (SwitchMgr.init 14 0) (soloEvents 0 14 overlapping) = [⟨.short, 14⟩] := by
  have hsome : (SwitchBoard.after .pico ([] ++ .construct 14 0 :: overlapping)).isSome := by
    decide +kernel
  obtain ⟨b, hb⟩ := Option.isSome_iff_exists.1 hsome
  exact ⟨b, hb, board_notices .pico [] overlapping 14 0 hb, by decide +kernel⟩

end TwinThing
