/-
**The table of observers: `GPIOInputMgr`.**

All pads share one interrupt callback, so one manager object keeps an observer for each of them.
The manager is created the first time someone asks for it, and the callback does nothing before
that.  Neither registration nor the callback checks the pad number against the array, and the
array is one entry shorter than the chip has user pads: an access to the last pad is out of
bounds.

What an access out of bounds does is not defined, so the model stops there with a fault, and so
does every later event.  The SDK's part of a registration, which makes the pad an input and turns
its interrupts on, does not touch the manager and is left out.

Main definitions:

* `TwinThing.GPIOInputMgr`, with `addObserver`, `getMgr`, `gpioCallback` — the manager and the
  static that holds it;
* `TwinThing.GPIOInputMgr.observerOf` — the observer last registered for a pad;
* `TwinThing.GPIOInputMgr.Served` — an event is served as the table is meant to serve it;
* `TwinThing.GPIOInputMgr.Registry` — the manager without the table.

Main results:

* `TwinThing.GPIOInputMgr.exists_tracks` — as long as accesses are in bounds, the table agrees
  with the registrations;
* `TwinThing.GPIOInputMgr.served_iff` — **exactly when all events are served**: when nothing is
  registered for the last pad, and nothing happens there once there is a manager;
* `TwinThing.GPIOInputMgr.calls_eq` — as long as accesses are in bounds, the manager refines the
  registry.
-/

import TwinThing.Lib.Runs

set_option relaxedAutoImplicit false
set_option autoImplicit false

namespace TwinThing

open Runs

/-! ### The manager -/

/-- The number of entries in the table. -/
def NUM_GPIO : ℕ := 29

/-- A user pad of the RP2040, 0 to 29. -/
abbrev Pad := Fin 30

/-- An access outside the table. -/
inductive Fault
  | outOfBounds (index : ℕ)
  deriving DecidableEq, Repr

/-- A call of an observer's `handleGPIO`. -/
structure ObserverCall (Obs : Type) where
  obs : Obs
  gpio : ℕ
  events : UInt32
  deriving DecidableEq, Repr

/-- The manager object; an entry without an observer is `NULL`. -/
structure GPIOInputMgr (Obs : Type) where
  pObservers : Vector (Option Obs) NUM_GPIO

namespace GPIOInputMgr

variable {Obs : Type}

/-- The constructor, which clears the table. -/
def new : GPIOInputMgr Obs := ⟨Vector.replicate NUM_GPIO none⟩

/-- Registering an observer, or `NULL`, for a pad. -/
def addObserver (m : GPIOInputMgr Obs) (gpio : ℕ) (obs : Option Obs) :
    Except Fault (GPIOInputMgr Obs) :=
  if h : gpio < NUM_GPIO then .ok ⟨m.pObservers.set gpio obs h⟩ else .error (.outOfBounds gpio)

/-- Passing an event on to the observer of its pad: the calls made. -/
def handleGPIO (m : GPIOInputMgr Obs) (gpio : ℕ) (events : UInt32) :
    Except Fault (List (ObserverCall Obs)) :=
  if h : gpio < NUM_GPIO then
    match m.pObservers[gpio] with
    | some obs => .ok [⟨obs, gpio, events⟩]
    | none => .ok []
  else .error (.outOfBounds gpio)

/-- The static `pSelf`, and the calls made to observers so far. -/
structure Static (Obs : Type) where
  pSelf : Option (GPIOInputMgr Obs)
  calls : List (ObserverCall Obs)

/-- Before anyone asked for the manager. -/
def Static.init : Static Obs := ⟨none, []⟩

/-- Asking for the manager, which creates it the first time. -/
def Static.getMgr (s : Static Obs) : GPIOInputMgr Obs × Static Obs :=
  match s.pSelf with
  | some m => (m, s)
  | none => (new, { s with pSelf := some new })

/-- `getMgr()->addObserver(gpio, obs)`. -/
def Static.register (s : Static Obs) (gpio : ℕ) (obs : Option Obs) :
    Except Fault (Static Obs) := do
  let m ← s.getMgr.1.addObserver gpio obs
  return { s.getMgr.2 with pSelf := some m }

/-- The interrupt callback, for which there may be no manager yet. -/
def Static.gpioCallback (s : Static Obs) (gpio : ℕ) (events : UInt32) :
    Except Fault (Static Obs) :=
  match s.pSelf with
  | some m => do
    let cs ← handleGPIO m gpio events
    return { s with calls := s.calls ++ cs }
  | none => return s

/-! ### Events -/

/-- A registration or an interrupt. -/
inductive Event (Obs : Type)
  | addObserver (gpio : Pad) (obs : Option Obs)
  | gpioCallback (gpio : Pad) (events : UInt32)
  deriving DecidableEq, Repr

/-- The pad an event is about. -/
def Event.gpio : Event Obs → Pad
  | .addObserver g _ => g
  | .gpioCallback g _ => g

/-- One event, in a run without a fault so far. -/
def Static.serve (s : Static Obs) : Event Obs → Except Fault (Static Obs)
  | .addObserver g obs => s.register g obs
  | .gpioCallback g events => s.gpioCallback g events

/-- The state after some events; a fault ends the run. -/
def after (es : List (Event Obs)) : Except Fault (Static Obs) :=
  run (fun r e => r.bind fun s => s.serve e) (.ok .init) es

@[simp] theorem after_nil : after ([] : List (Event Obs)) = .ok .init := rfl

@[simp] theorem after_concat (es : List (Event Obs)) (e : Event Obs) :
    after (es ++ [e]) = (after es).bind fun s => s.serve e := run_concat _ _ es e

/-! ### What the table is for -/

/-- What an event registers for a pad, if it is a registration for it. -/
def registration (g : Pad) : Event Obs → Option (Option Obs)
  | .addObserver h obs => if h = g then some obs else none
  | .gpioCallback _ _ => none

/-- The observer last registered for a pad. -/
def observerOf (es : List (Event Obs)) (g : Pad) : Option Obs :=
  (es.filterMap (registration g)).getLast?.join

/-- The observer the table has for a pad. -/
def Static.observer (s : Static Obs) (g : Pad) : Option Obs :=
  s.pSelf.bind fun m => m.pObservers[g.val]?.join

/-- Something was registered. -/
def Managed (es : List (Event Obs)) : Prop := ∃ g obs, Event.addObserver g obs ∈ es

/-- An event after others is served: nothing is accessed out of bounds, a callback calls the
observer last registered for the pad, once, and no other, and a registration calls nobody and
changes the entry of its own pad only. -/
def Served (pre : List (Event Obs)) (e : Event Obs) : Prop :=
  ∃ s s', after pre = .ok s ∧ s.serve e = .ok s' ∧
    match e with
    | .gpioCallback g events =>
        s'.calls = s.calls ++ (observerOf pre g).toList.map (⟨·, g, events⟩) ∧
          ∀ h, s'.observer h = s.observer h
    | .addObserver g obs =>
        s'.calls = s.calls ∧ s'.observer g = obs ∧ ∀ h, h ≠ g → s'.observer h = s.observer h

/-- An event stays within the table: it is about another pad than the last one, or it is an
interrupt and there is no manager yet. -/
def Within (pre : List (Event Obs)) (e : Event Obs) : Prop :=
  e.gpio.val < NUM_GPIO ∨ (∃ g events, e = .gpioCallback g events) ∧ ¬ Managed pre

/-! ### What an event does -/

theorem observer_of_none {s : Static Obs} (h : s.pSelf = none) (g : Pad) : s.observer g = none := by
  rw [Static.observer, h]
  rfl

theorem observer_of_some {s : Static Obs} {m : GPIOInputMgr Obs} (h : s.pSelf = some m) (g : Pad) :
    s.observer g = m.pObservers[g.val]?.join := by
  rw [Static.observer, h]
  rfl

/-- Creating the manager registers nothing. -/
theorem getMgr_spec (s : Static Obs) :
    s.getMgr.2.pSelf = some s.getMgr.1 ∧ s.getMgr.2.calls = s.calls ∧
      ∀ g, s.getMgr.2.observer g = s.observer g := by
  unfold Static.getMgr
  cases h : s.pSelf with
  | some m => exact ⟨h, rfl, fun _ => rfl⟩
  | none =>
      refine ⟨rfl, rfl, fun g => ?_⟩
      rw [observer_of_none h, observer_of_some rfl, new, Vector.getElem?_replicate]
      split <;> rfl

/-- A registration for a pad that the table has an entry for. -/
theorem register_spec (s : Static Obs) {g : Pad} (obs : Option Obs) (hg : g.val < NUM_GPIO) :
    ∃ s', s.register g obs = .ok s' ∧ s'.pSelf ≠ none ∧ s'.calls = s.calls ∧
      ∀ h, s'.observer h = if h = g then obs else s.observer h := by
  obtain ⟨hself, hcalls, hobs⟩ := getMgr_spec s
  refine ⟨{ s.getMgr.2 with pSelf := some ⟨s.getMgr.1.pObservers.set g obs hg⟩ }, ?_, ?_, hcalls,
    ?_⟩
  · rw [Static.register, addObserver, dif_pos hg]
    rfl
  · exact Option.some_ne_none _
  · intro h
    rw [observer_of_some rfl, Vector.getElem?_set]
    by_cases heq : h = g
    · rw [heq, if_pos rfl, if_pos rfl]
      rfl
    · have hval : g.val ≠ h.val := fun hval => heq (Fin.ext hval.symm)
      rw [if_neg hval, if_neg heq, ← hobs h, observer_of_some hself]

/-- A registration for a pad beyond the table. -/
theorem register_error (s : Static Obs) {g : Pad} (obs : Option Obs) (hg : ¬ g.val < NUM_GPIO) :
    s.register g obs = .error (.outOfBounds g) := by
  rw [Static.register, addObserver, dif_neg hg]
  rfl

/-- Without a manager an interrupt is dropped. -/
theorem gpioCallback_of_none {s : Static Obs} (h : s.pSelf = none) (g : Pad) (events : UInt32) :
    s.gpioCallback g events = .ok s := by
  rw [Static.gpioCallback, h]
  rfl

/-- An interrupt at a pad that the table has an entry for calls the observer in that entry. -/
theorem gpioCallback_spec (s : Static Obs) {g : Pad} (events : UInt32) (hg : g.val < NUM_GPIO) :
    s.gpioCallback g events
      = .ok { s with calls := s.calls ++ (s.observer g).toList.map (⟨·, g, events⟩) } := by
  rcases Option.eq_none_or_eq_some s.pSelf with h | ⟨m, h⟩
  · rw [gpioCallback_of_none h, observer_of_none h, Option.toList_none, List.map_nil,
      List.append_nil]
  · rw [Static.gpioCallback, h, observer_of_some h, Vector.getElem?_eq_getElem hg]
    simp only
    unfold handleGPIO
    rw [dif_pos hg]
    cases ho : m.pObservers[g.val] with
    | none => simp
    | some obs => simp

/-- An interrupt at a pad beyond the table, when there is a manager. -/
theorem gpioCallback_error {s : Static Obs} (h : s.pSelf ≠ none) {g : Pad} (events : UInt32)
    (hg : ¬ g.val < NUM_GPIO) : s.gpioCallback g events = .error (.outOfBounds g) := by
  obtain ⟨m, hm⟩ := Option.ne_none_iff_exists'.1 h
  rw [Static.gpioCallback, hm]
  simp only
  unfold handleGPIO
  rw [dif_neg hg]
  rfl

/-! ### The table and the registrations -/

theorem observerOf_addObserver (es : List (Event Obs)) (g h : Pad) (obs : Option Obs) :
    observerOf (es ++ [.addObserver g obs]) h = if h = g then obs else observerOf es h := by
  by_cases heq : h = g
  · simp [observerOf, registration, heq]
  · have hne : g ≠ h := fun hgh => heq hgh.symm
    simp [observerOf, registration, heq, hne]

theorem observerOf_gpioCallback (es : List (Event Obs)) (g h : Pad) (events : UInt32) :
    observerOf (es ++ [.gpioCallback g events]) h = observerOf es h := by
  simp [observerOf, registration]

theorem managed_addObserver (es : List (Event Obs)) (g : Pad) (obs : Option Obs) :
    Managed (es ++ [.addObserver g obs]) := ⟨g, obs, by simp⟩

theorem managed_gpioCallback {es : List (Event Obs)} {g : Pad} {events : UInt32} :
    Managed (es ++ [.gpioCallback g events]) ↔ Managed es := by
  simp [Managed]

/-- The table agrees with the registrations: there is a manager once something was registered, and
its entries are the last registrations. -/
structure Tracks (es : List (Event Obs)) (s : Static Obs) : Prop where
  managed : s.pSelf ≠ none ↔ Managed es
  observer : ∀ g, s.observer g = observerOf es g

theorem tracks_init : Tracks [] (Static.init : Static Obs) := by
  refine ⟨?_, fun g => observer_of_none rfl g⟩
  simp [Static.init, Managed]

/-- **The step lemma**: an event within the table is served, and the table follows it. -/
theorem serve_of_within {pre : List (Event Obs)} {s : Static Obs} {e : Event Obs}
    (hs : Tracks pre s) (hafter : after pre = .ok s) (he : Within pre e) :
    Served pre e ∧ ∃ s', s.serve e = .ok s' ∧ Tracks (pre ++ [e]) s' := by
  cases e with
  | addObserver g obs =>
      have hg : g.val < NUM_GPIO := by
        rcases he with hg | ⟨⟨_, _, hcall⟩, -⟩
        · exact hg
        · cases hcall
      obtain ⟨s', hok, hself, hcalls, hobs⟩ := register_spec s obs hg
      refine ⟨⟨s, s', hafter, hok, hcalls, ?_, ?_⟩, s', hok, ?_, ?_⟩
      · rw [hobs, if_pos rfl]
      · intro h hne
        rw [hobs, if_neg hne]
      · exact iff_of_true hself (managed_addObserver pre g obs)
      · intro h
        rw [hobs, observerOf_addObserver, hs.observer]
  | gpioCallback g events =>
      have hok : s.gpioCallback g events
          = .ok { s with calls := s.calls ++ (s.observer g).toList.map (⟨·, g, events⟩) } := by
        rcases he with hg | ⟨-, hnot⟩
        · exact gpioCallback_spec s events hg
        · -- no manager yet, so that nobody is called whatever the pad is
          have hnone : s.pSelf = none := not_not.1 fun hsome => hnot (hs.managed.1 hsome)
          rw [gpioCallback_of_none hnone, observer_of_none hnone]
          simp
      refine ⟨⟨s, _, hafter, hok, ?_, fun _ => rfl⟩, _, hok, ?_, ?_⟩
      · rw [hs.observer]
      · rw [managed_gpioCallback]
        exact hs.managed
      · intro h
        rw [observerOf_gpioCallback]
        exact hs.observer h

/-- As long as accesses are within the table there is no fault, and the table agrees with the
registrations. -/
theorem exists_tracks {es : List (Event Obs)} (h : Throughout Within es) :
    ∃ s, after es = .ok s ∧ Tracks es s := by
  induction es using List.reverseRecOn with
  | nil => exact ⟨.init, rfl, tracks_init⟩
  | append_singleton es e ih =>
      obtain ⟨hes, he⟩ := throughout_concat.1 h
      obtain ⟨s, hafter, hs⟩ := ih hes
      obtain ⟨-, s', hok, hs'⟩ := serve_of_within hs hafter he
      refine ⟨s', ?_, hs'⟩
      rw [after_concat, hafter]
      exact hok

/-- An event beyond the table is a fault. -/
theorem serve_error {pre : List (Event Obs)} {s : Static Obs} {e : Event Obs}
    (hs : Tracks pre s) (he : ¬ Within pre e) : s.serve e = .error (.outOfBounds e.gpio) := by
  obtain ⟨hg, hcall⟩ := not_or.1 he
  cases e with
  | addObserver g obs => exact register_error s obs hg
  | gpioCallback g events =>
      have hmanaged : Managed pre := not_not.1 fun hnot => hcall ⟨⟨g, events, rfl⟩, hnot⟩
      exact gpioCallback_error (hs.managed.2 hmanaged) events hg

/-- **Events reach exactly the registered observer**, over any run of registrations and
interrupts at the user pads, exactly when nothing is registered for the last pad and no interrupt
comes from it once there is a manager. -/
theorem served_iff (es : List (Event Obs)) : Throughout Served es ↔ Throughout Within es := by
  refine (throughout_congr_of_before (fun pre e hpre => ?_) es).symm
  obtain ⟨s, hafter, hs⟩ := exists_tracks hpre
  constructor
  · intro he
    exact (serve_of_within hs hafter he).1
  · rintro ⟨t, t', ht, hok, -⟩
    rw [hafter] at ht
    cases ht
    refine not_not.1 fun he => ?_
    rw [serve_error hs he] at hok
    cases hok

/-- Registering an observer for the last pad writes beyond the table. -/
theorem not_served_of_last_pad :
    ¬ ∀ es : List (Event Unit), Throughout Served es := by
  intro h
  obtain ⟨s, s', hs, hok, -⟩ := h [.addObserver 29 (some ())] [] (.addObserver 29 (some ())) [] rfl
  cases hs
  cases hok

/-! ### The registry -/

/-- The manager without the table: a registry that can be asked about any pad. -/
abbrev Registry (Obs : Type) : Type := Pad → Option Obs

/-- What an event does to a registry. -/
def Registry.step (r : Registry Obs) : Event Obs → Registry Obs
  | .addObserver g obs => Function.update r g obs
  | .gpioCallback _ _ => r

/-- The calls an event makes through a registry. -/
def Registry.deliver (r : Registry Obs) : Event Obs → List (ObserverCall Obs)
  | .addObserver _ _ => []
  | .gpioCallback g events => (r g).toList.map (⟨·, g, events⟩)

/-- A registry holds the last registrations. -/
theorem run_registry (es : List (Event Obs)) :
    run Registry.step (fun _ => none) es = observerOf es := by
  induction es using List.reverseRecOn with
  | nil => rfl
  | append_singleton es e ih =>
      rw [run_concat, ih]
      funext h
      cases e with
      | addObserver g obs =>
          rw [observerOf_addObserver, Registry.step, Function.update_apply]
      | gpioCallback g events => rw [observerOf_gpioCallback, Registry.step]

/-- **The manager refines the registry**: in a run within the table it makes the calls that the
registry makes, all of them in order and no others. -/
theorem calls_eq {es : List (Event Obs)} (h : Throughout Within es) :
    ∃ s, after es = .ok s ∧
      s.calls = outputs Registry.step Registry.deliver (fun _ => none) es := by
  induction es using List.reverseRecOn with
  | nil => exact ⟨.init, rfl, rfl⟩
  | append_singleton es e ih =>
      obtain ⟨hes, he⟩ := throughout_concat.1 h
      obtain ⟨t, ht, htracks⟩ := exists_tracks hes
      obtain ⟨⟨s, s', hafter, hok, he⟩, -⟩ := serve_of_within htracks ht he
      obtain ⟨u, hu, hcalls⟩ := ih hes
      rw [hafter] at hu
      cases hu
      refine ⟨s', by rw [after_concat, hafter]; exact hok, ?_⟩
      rw [outputs_concat, run_registry, ← hcalls]
      cases e with
      | addObserver g obs => rw [he.1, Registry.deliver, List.append_nil]
      | gpioCallback g events => rw [he.1, Registry.deliver]

end GPIOInputMgr

end TwinThing
