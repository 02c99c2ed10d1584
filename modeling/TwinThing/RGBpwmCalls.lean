/-
**The driver under arbitrary calls.**

The public operations of the driver may be called in any order: nothing makes a caller tick it
between two requests.  Two questions are settled here for every sequence of calls after `setup`.

The first is about the pins.  A tick writes them on some of its branches only, so that they match
the driver afterwards is an invariant: between two calls either the driver has a change to take
up, or its outputs already match it.

The second is about the mode `Once`, which a tick ends by going back to the previous mode.  There
is one slot for that mode, and a second request for `Once` before the tick fills it with `Once`
itself: the tick then restores `Once`, and so does every tick after it.

Main definitions:

* `TwinThing.RGBpwm.Call`, `TwinThing.RGBpwm.call`, `TwinThing.RGBpwm.after` — the calls, what one
  does, and the driver after a sequence of them;
* `TwinThing.RGBpwm.Displayed` — the outputs and the counter match mode, colour and flag;
* `TwinThing.RGBpwm.StackedOnce` — the last two modes asked for since the last tick are `Once`.

Main results:

* `TwinThing.RGBpwm.displayed_after_tick` — **after every tick the outputs match the driver**;
* `TwinThing.RGBpwm.tick_ends_once_iff` — **the ticks end every request for `Once`** exactly when
  none of them finds two of them stacked.
-/

import TwinThing.RGBpwm
import TwinThing.Lib.Runs

set_option relaxedAutoImplicit false
set_option autoImplicit false

namespace TwinThing

open Runs

namespace RGBpwm

/-! ### Calls -/

/-- A call of one of the public operations of the driver. -/
inductive Call
  | setRGB (c : Rgb16)
  | setRGBb (r g b : UInt8)
  | setMode (m : RGBMode)
  | tick
  deriving DecidableEq, Repr

/-- The driver after one call. -/
def call (d : RGBpwm) : Call → RGBpwm
  | .setRGB c => d.setRGB c
  | .setRGBb r g b => d.setRGBb r g b
  | .setMode m => d.setMode m
  | .tick => d.tick.1

/-- The driver after `setup` and then some calls; the memory held the two colours before. -/
def after (pRgb pPrevRgb : Rgb16) (cs : List Call) : RGBpwm := run call (setup pRgb pPrevRgb) cs

@[simp] theorem after_nil (pRgb pPrevRgb : Rgb16) :
    after pRgb pPrevRgb [] = setup pRgb pPrevRgb := rfl

@[simp] theorem after_concat (pRgb pPrevRgb : Rgb16) (cs : List Call) (c : Call) :
    after pRgb pPrevRgb (cs ++ [c]) = (after pRgb pPrevRgb cs).call c :=
  run_concat call (setup pRgb pPrevRgb) cs c

/-! ### A tick on a driver that has nothing to go back to -/

/-- A tick that finds `Once` in both slots goes through the blink, finds no case for the restored
mode, and leaves the pins dark. -/
theorem tick_of_stuck {d : RGBpwm} (hm : d.xMode = .once) (hp : d.xPrevMode = .once) :
    d.tick.1 = { d.restored with xChanged := false, xTickCount := 0 } := by
  obtain ⟨c, p, ch, m, pm, n, st, lv⟩ := d
  cases hm
  cases hp
  rfl

/-- A tick leaves the mode `Once` exactly when there is another mode to go back to. -/
theorem tick_xMode_ne_once_iff {d : RGBpwm} : d.tick.1.xMode ≠ .once ↔ d.Restorable := by
  constructor
  · intro h hm hp
    rw [tick_of_stuck hm hp] at h
    exact h hp
  · exact tick_xMode_ne_once

/-! ### The outputs after a tick -/

/-- The outputs match the driver: they are dark or lit as the mode has it, the flag of a blinking
mode tells a dark phase from a lit one, and the counter is within its period. -/
structure Displayed (d : RGBpwm) : Prop where
  unchanged : d.xChanged = false
  dark : d.xMode = .off ∨ d.xMode = .once → d.levels = .black
  lit : d.xMode = .on → d.levels = d.pRgb
  blinking : d.xMode = .fast ∨ d.xMode = .slow → d.levels = .black ∨ d.levels = d.pRgb
  litPhase : d.xMode = .fast ∨ d.xMode = .slow → d.xState = false → d.levels = d.pRgb
  fastCount : d.xMode = .fast → d.xTickCount < 20
  slowCount : d.xMode = .slow → d.xTickCount < 80
  restCount : d.xMode ≠ .fast → d.xMode ≠ .slow → d.xTickCount = 0

/-- What holds between two calls: a change is waiting to be taken up, or the outputs match the
driver, and in either case the counter is small. -/
structure Tended (d : RGBpwm) : Prop where
  waiting : d.xChanged = false → d.Displayed
  count : d.xTickCount < 80

theorem Displayed.count_lt {d : RGBpwm} (h : d.Displayed) : d.xTickCount < 80 := by
  by_cases hf : d.xMode = .fast
  · exact UInt32.lt_trans (h.fastCount hf) (by decide)
  · by_cases hs : d.xMode = .slow
    · exact h.slowCount hs
    · rw [h.restCount hf hs]
      decide

theorem Displayed.tended {d : RGBpwm} (h : d.Displayed) : d.Tended := ⟨fun _ => h, h.count_lt⟩

theorem displayed_setup (pRgb pPrevRgb : Rgb16) : (setup pRgb pPrevRgb).Displayed := by
  constructor <;> simp [setup]

/-- With the counter back at zero the outputs still match. -/
theorem Displayed.reset {d : RGBpwm} (h : d.Displayed) : { d with xTickCount := 0 }.Displayed :=
  ⟨h.unchanged, h.dark, h.lit, h.blinking, h.litPhase, fun _ => UInt32.pos_iff_ne_zero.2 (by simp),
    fun _ => UInt32.pos_iff_ne_zero.2 (by simp), fun _ _ => rfl⟩

/-- A change that has been taken up shows. -/
theorem displayed_takeUp {d : RGBpwm} (h : d.xMode ≠ .once) : d.takeUp.Displayed := by
  obtain ⟨c, p, ch, m, pm, n, st, lv⟩ := d
  cases m with
  | once => exact absurd rfl h
  | off => constructor <;> simp [takeUp]
  | on => constructor <;> simp [takeUp]
  | slow => constructor <;> simp [takeUp]
  | fast => constructor <;> simp [takeUp]

/-- Toggling keeps the outputs on the driver, and the counter below the period. -/
theorem toggle_displayed {d : RGBpwm} {P : UInt32} (hP : 0 < P)
    (hlv : d.levels = .black ∨ d.levels = d.pRgb) (hst : d.xState = false → d.levels = d.pRgb) :
    let e := (d.toggle P).1
    e.xMode = d.xMode ∧ e.xChanged = d.xChanged ∧ e.xTickCount < P ∧
      (e.levels = .black ∨ e.levels = e.pRgb) ∧ (e.xState = false → e.levels = e.pRgb) := by
  unfold toggle
  split
  · split
    · exact ⟨rfl, rfl, hP, Or.inr rfl, fun _ => rfl⟩
    · exact ⟨rfl, rfl, hP, Or.inl rfl, fun h => absurd h Bool.noConfusion⟩
  · rename_i hlt
    exact ⟨rfl, rfl, UInt32.not_le.1 hlt, hlv, hst⟩

/-- A tick that takes no change up keeps the outputs on the driver, whatever the counter was. -/
theorem displayed_tickBlink {d : RGBpwm} (h : d.Displayed) (n : UInt32) :
    ({ d with xTickCount := n }.tickBlink.1).Displayed := by
  obtain ⟨c, p, ch, m, pm, k, st, lv⟩ := d
  have hreset := h.reset
  obtain ⟨hun, -, -, hblink, hphase, -, -, -⟩ := h
  cases m with
  | off => exact hreset
  | once => exact hreset
  | on => exact hreset
  | fast =>
      obtain ⟨emode, echanged, ecount, elv, est⟩ := toggle_displayed
        (d := ⟨c, p, ch, .fast, pm, n, st, lv⟩) (show 0 < FASTTICK by decide)
        (hblink (Or.inl rfl)) (hphase (Or.inl rfl))
      show (toggle ⟨c, p, ch, .fast, pm, n, st, lv⟩ FASTTICK).1.Displayed
      exact ⟨echanged.trans hun, by simp [emode], by simp [emode], fun _ => elv, fun _ => est,
        fun _ => ecount, by simp [emode], by simp [emode]⟩
  | slow =>
      obtain ⟨emode, echanged, ecount, elv, est⟩ := toggle_displayed
        (d := ⟨c, p, ch, .slow, pm, n, st, lv⟩) (show 0 < SLOWTICK by decide)
        (hblink (Or.inr rfl)) (hphase (Or.inr rfl))
      show (toggle ⟨c, p, ch, .slow, pm, n, st, lv⟩ SLOWTICK).1.Displayed
      exact ⟨echanged.trans hun, by simp [emode], by simp [emode], fun _ => elv, fun _ => est,
        by simp [emode], fun _ => ecount, by simp [emode]⟩

theorem displayed_tick {d : RGBpwm} (h : d.Tended) : d.tick.1.Displayed := by
  by_cases hm : d.xMode = .once
  · by_cases hp : d.xPrevMode = .once
    · rw [tick_of_stuck hm hp]
      constructor <;> simp [restored, hp]
    · rw [tick_of_once hm hp]
      exact displayed_takeUp hp
  · cases hc : d.xChanged with
    | true =>
        rw [tick_of_changed hm hc]
        exact displayed_takeUp hm
    | false =>
        rw [tick_of_not_changed hm hc]
        exact displayed_tickBlink (h.waiting hc) _

/-- A setter leaves a change to be taken up; a tick leaves none. -/
theorem tended_call {d : RGBpwm} (c : Call) (h : d.Tended) : (d.call c).Tended := by
  cases c with
  | setRGB c => exact ⟨fun hc => absurd hc Bool.noConfusion, h.count⟩
  | setRGBb r g b => exact ⟨fun hc => absurd hc Bool.noConfusion, h.count⟩
  | setMode m => exact ⟨fun hc => absurd hc Bool.noConfusion, h.count⟩
  | tick => exact (displayed_tick h).tended

theorem tended_after (pRgb pPrevRgb : Rgb16) (cs : List Call) : (after pRgb pPrevRgb cs).Tended :=
  run_invariant call Tended (fun _ c h => tended_call c h) (displayed_setup pRgb pPrevRgb).tended cs

/-- **After every tick the outputs match the driver**, whatever was called before, and the tick's
increment of the counter did not wrap. -/
theorem displayed_after_tick (pRgb pPrevRgb : Rgb16) (cs : List Call) :
    (after pRgb pPrevRgb (cs ++ [.tick])).Displayed ∧
      (after pRgb pPrevRgb cs).xTickCount.toNat + 1 < UInt32.size := by
  have h := tended_after pRgb pPrevRgb cs
  refine ⟨?_, ?_⟩
  · rw [after_concat]
    exact displayed_tick h
  · have hlt : (after pRgb pPrevRgb cs).xTickCount.toNat < 80 := UInt32.lt_iff_toNat_lt.1 h.count
    have hsize : 81 ≤ UInt32.size := by decide
    omega

/-! ### What the calls asked for -/

/-- The mode a call asks for, if it asks for one. -/
def Call.mode? : Call → Option RGBMode
  | .setMode m => some m
  | _ => none

/-- The last mode other than `Once` that the calls asked for, and `Off` if they asked for none. -/
def lastMode (cs : List Call) : RGBMode :=
  ((cs.filterMap Call.mode?).filter (· ≠ .once)).getLastD .off

/-- The modes asked for since the last tick, oldest first, after one more call. -/
def sinceTick (ms : List RGBMode) : Call → List RGBMode
  | .setMode m => ms ++ [m]
  | .tick => []
  | _ => ms

/-- The modes that the calls asked for since the last tick, oldest first. -/
def modesSinceTick (cs : List Call) : List RGBMode := run sinceTick [] cs

/-- Two requests for `Once` with no other mode after them, and no tick in between or after. -/
def StackedOnce (cs : List Call) : Prop := [.once, .once] <:+ modesSinceTick cs

instance (cs : List Call) : Decidable (StackedOnce cs) :=
  inferInstanceAs (Decidable (_ <:+ _))

theorem lastMode_setMode (cs : List Call) (m : RGBMode) :
    lastMode (cs ++ [.setMode m]) = if m = .once then lastMode cs else m := by
  by_cases hm : m = .once
  · simp [lastMode, Call.mode?, hm]
  · simp [lastMode, Call.mode?, hm]

/-- A call that asks for no mode leaves the last one as it is. -/
theorem lastMode_of_mode_none {cs : List Call} {c : Call} (h : c.mode? = none) :
    lastMode (cs ++ [c]) = lastMode cs := by
  simp [lastMode, h]

@[simp] theorem modesSinceTick_concat (cs : List Call) (c : Call) :
    modesSinceTick (cs ++ [c]) = sinceTick (modesSinceTick cs) c := run_concat sinceTick [] cs c

/-! ### One-shot requests -/

/-- What the driver remembers of the calls, as long as every tick so far found something to go
back to: whether `Once` is pending, whether it is stacked, and the last mode other than it. -/
structure Remembers (cs : List Call) (d : RGBpwm) : Prop where
  pending : d.xMode = .once ↔ [.once] <:+ modesSinceTick cs
  stacked : d.Restorable ↔ ¬ StackedOnce cs
  steady : d.Restorable → d.steady.1 = lastMode cs

theorem remembers_setup (pRgb pPrevRgb : Rgb16) : Remembers [] (setup pRgb pPrevRgb) := by
  constructor <;> simp [setup, modesSinceTick, StackedOnce, Restorable, RGBpwm.steady, lastMode]

theorem singleton_suffix_concat {m : RGBMode} {ms : List RGBMode} :
    [.once] <:+ ms ++ [m] ↔ m = .once := by
  constructor
  · rintro ⟨l, hl⟩
    exact (List.singleton_inj.1 (List.append_inj' hl rfl).2).symm
  · rintro rfl
    exact List.suffix_append ms [.once]

theorem pair_suffix_concat {m : RGBMode} {ms : List RGBMode} :
    [.once, .once] <:+ ms ++ [m] ↔ m = .once ∧ [.once] <:+ ms := by
  constructor
  · rintro ⟨l, hl⟩
    have hl' : (l ++ [.once]) ++ [.once] = ms ++ [m] := by simpa using hl
    obtain ⟨hms, hm⟩ := List.append_inj' hl' rfl
    exact ⟨(List.singleton_inj.1 hm).symm, ⟨l, hms⟩⟩
  · rintro ⟨rfl, l, rfl⟩
    exact ⟨l, by simp⟩

/-- Setting the mode: the slot gets the present mode, which is `Once` only if one is pending. -/
theorem remembers_setMode {cs : List Call} {d : RGBpwm} (m : RGBMode) (h : Remembers cs d) :
    Remembers (cs ++ [.setMode m]) (d.setMode m) := by
  have hrest : (d.setMode m).Restorable ↔ ¬ (m = .once ∧ d.xMode = .once) := by
    simp only [Restorable, setMode, not_and, ne_eq]
  refine ⟨?_, ?_, ?_⟩
  · rw [modesSinceTick_concat]
    exact singleton_suffix_concat.symm
  · rw [hrest, StackedOnce, modesSinceTick_concat, sinceTick, pair_suffix_concat, h.pending]
  · intro hr
    rw [lastMode_setMode]
    by_cases hm : m = .once
    · -- the request goes back to the present mode, which is not `Once`
      have hd : d.xMode ≠ .once := fun hd => hrest.1 hr ⟨hm, hd⟩
      have hsteady := h.steady (fun hd' => absurd hd' hd)
      rw [steady_of_ne hd] at hsteady
      rw [if_pos hm, steady_of_once (d := d.setMode m) hm]
      exact hsteady
    · rw [if_neg hm, steady_of_ne (d := d.setMode m) hm]
      rfl

/-- Setting the colour touches neither of the two modes. -/
theorem remembers_setRGB {cs : List Call} {d : RGBpwm} {c : Call} (x : Rgb16)
    (hc : sinceTick (modesSinceTick cs) c = modesSinceTick cs) (hm : c.mode? = none)
    (h : Remembers cs d) : Remembers (cs ++ [c]) (d.setRGB x) := by
  have hsteady : (d.setRGB x).steady.1 = d.steady.1 := by
    by_cases hd : d.xMode = .once
    · rw [steady_of_once hd, steady_of_once (d := d.setRGB x) hd]
      rfl
    · rw [steady_of_ne hd, steady_of_ne (d := d.setRGB x) hd]
      rfl
  refine ⟨?_, ?_, ?_⟩
  · rw [modesSinceTick_concat, hc]
    exact h.pending
  · rw [StackedOnce, modesSinceTick_concat, hc]
    exact h.stacked
  · intro hr
    rw [hsteady, lastMode_of_mode_none hm]
    exact h.steady hr

/-- A tick that finds something to go back to goes back to it, and nothing is pending then. -/
theorem remembers_tick {cs : List Call} {d : RGBpwm} (hr : d.Restorable) (h : Remembers cs d) :
    Remembers (cs ++ [.tick]) d.tick.1 := by
  have hne := tick_xMode_ne_once hr
  refine ⟨?_, ?_, ?_⟩
  · simp [sinceTick, hne]
  · simp [StackedOnce, sinceTick, Restorable, hne]
  · intro _
    rw [steady_tick hr, lastMode_of_mode_none rfl]
    exact h.steady hr

/-- The driver after the calls and one more tick is out of the mode `Once`, in the last mode other
than `Once` that was asked for. -/
def EndsOnce (pRgb pPrevRgb : Rgb16) (cs : List Call) : Prop :=
  let d := after pRgb pPrevRgb (cs ++ [.tick])
  d.xMode ≠ .once ∧ d.xMode = lastMode cs

/-- `Q` holds of the calls before every tick. -/
def AtTicks (Q : List Call → Prop) (cs : List Call) : Prop :=
  Throughout (fun pre c => c = .tick → Q pre) cs

/-- The driver remembers the calls when every tick among them ended the requests before it. -/
theorem remembers_after {pRgb pPrevRgb : Rgb16} {cs : List Call}
    (h : AtTicks (EndsOnce pRgb pPrevRgb) cs) : Remembers cs (after pRgb pPrevRgb cs) := by
  induction cs using List.reverseRecOn with
  | nil => exact remembers_setup pRgb pPrevRgb
  | append_singleton cs c ih =>
      obtain ⟨hcs, hc⟩ := throughout_concat.1 h
      have hd := ih hcs
      rw [after_concat]
      cases c with
      | setRGB x => exact remembers_setRGB x rfl rfl hd
      | setRGBb r g b => exact remembers_setRGB (squares r g b) rfl rfl hd
      | setMode m => exact remembers_setMode m hd
      | tick =>
          have hne := (hc rfl).1
          rw [after_concat] at hne
          exact remembers_tick (tick_xMode_ne_once_iff.1 hne) hd

/-- **The ticks end every request for `Once`**, whatever the calls are and in whatever order they
come, exactly when no tick finds two requests for it stacked. -/
theorem tick_ends_once_iff (pRgb pPrevRgb : Rgb16) (cs : List Call) :
    AtTicks (EndsOnce pRgb pPrevRgb) cs ↔ AtTicks (fun pre => ¬ StackedOnce pre) cs := by
  refine throughout_congr_of_before (fun pre c hpre => ?_) cs
  have hd := remembers_after hpre
  refine imp_congr_right fun _ => ?_
  show EndsOnce pRgb pPrevRgb pre ↔ ¬ StackedOnce pre
  rw [← hd.stacked, EndsOnce, after_concat]
  constructor
  · intro h
    exact tick_xMode_ne_once_iff.1 h.1
  · intro hr
    have hmode : (after pRgb pPrevRgb pre).tick.1.xMode = (after pRgb pPrevRgb pre).steady.1 :=
      congrArg Prod.fst (tick_display hr)
    exact ⟨tick_xMode_ne_once hr, hmode.trans (hd.steady hr)⟩

/-- Two requests for `Once` and then a tick: the driver is still in the mode `Once`. -/
theorem tick_keeps_stacked_once :
    ¬ ∀ (pRgb pPrevRgb : Rgb16) (cs : List Call), AtTicks (EndsOnce pRgb pPrevRgb) cs := by
  intro h
  have htick := h .black .black [.setMode .once, .setMode .once, .tick]
    [.setMode .once, .setMode .once] .tick [] rfl rfl
  exact htick.1 rfl

end RGBpwm

end TwinThing
