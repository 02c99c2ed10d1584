/-
**The driver of an RGB LED: `RGBpwm`.**

The driver holds a colour and a mode, remembers one previous colour and one previous mode, and
writes PWM levels to three pins when it is ticked.  The mode `Once` is a request, not a display:
the tick that finds it blinks the colour once, with a delay after each write, and then goes back
to the previous mode and the previous colour.

A tick is modelled in the three parts it has in the source — the one-shot blink, the consumption
of `xChanged`, and the periodic toggling — and returns, beside the new driver, what it did to the
pins and for how long it slept, in order.  Every write comes from `off` or `on`, which change the
levels and note the write at once.

Main definitions:

* `TwinThing.RGBpwm` and its operations `setup`, `setRGB`, `setRGBb`, `setMode`, `tick`;
* `TwinThing.putOut` — the levels at the pins after some acts;
* `TwinThing.RGBpwm.steady` — the mode and colour the driver comes back to once a pending one-shot
  blink is over;
* `TwinThing.RGBpwm.Showing` — the outputs show the steady display from its beginning.

Main results:

* `TwinThing.RGBpwm.tick_of_changed`, `TwinThing.RGBpwm.tick_of_not_changed`,
  `TwinThing.RGBpwm.tick_of_once` — what a tick does, case by case;
* `TwinThing.RGBpwm.levels_tick` — **the levels after a tick are those of its last write**;
* `TwinThing.RGBpwm.steady_tick` — **a tick never changes the steady display**;
* `TwinThing.RGBpwm.showing_takeUp` — a change that has been taken up shows at the pins.
-/

import Mathlib.Data.List.Infix
import Mathlib.Logic.Function.Basic

set_option relaxedAutoImplicit false
set_option autoImplicit false

namespace TwinThing

/-! ### Colours and modes -/

/-- The modes of the driver, in the order of the source's enumeration. -/
inductive RGBMode
  | off
  | on
  | slow
  | fast
  | once
  deriving DecidableEq, Repr

/-- Three sixteen-bit brightness levels, one for each of the red, green and blue pins. -/
structure Rgb16 where
  r : UInt16
  g : UInt16
  b : UInt16
  deriving DecidableEq, Repr

/-- All three levels zero. -/
def Rgb16.black : Rgb16 := ⟨0, 0, 0⟩

/-- The sixteen-bit brightness of an eight-bit one.  The product fits, so nothing wraps. -/
def square (x : UInt8) : UInt16 := x.toUInt16 * x.toUInt16

/-- The sixteen-bit colour of an eight-bit one. -/
def squares (r g b : UInt8) : Rgb16 := ⟨square r, square g, square b⟩

theorem square_toNat (x : UInt8) : (square x).toNat = x.toNat * x.toNat := by
  have hx : x.toNat < 256 := x.toNat_lt
  have hlt : x.toNat * x.toNat < 256 * 256 := Nat.mul_lt_mul'' hx hx
  rw [square, UInt16.toNat_mul, UInt8.toNat_toUInt16, Nat.mod_eq_of_lt hlt]

theorem square_injective : Function.Injective square := by
  intro x y h
  have hsq : x.toNat * x.toNat = y.toNat * y.toNat := by
    rw [← square_toNat, ← square_toNat, h]
  exact UInt8.toNat_inj.1 (Nat.mul_self_inj.1 hsq)

/-- Squaring loses nothing: two eight-bit colours with the same levels are the same colour. -/
theorem squares_inj {r g b r' g' b' : UInt8} :
    squares r g b = squares r' g' b' ↔ r = r' ∧ g = g' ∧ b = b' := by
  simp only [squares, Rgb16.mk.injEq, square_injective.eq_iff]

/-! ### The driver and its operations -/

/-- One thing a tick does: write the three levels, or sleep for some RTOS ticks. -/
inductive PwmAct
  | write (levels : Rgb16)
  | delay (ticks : ℕ)
  deriving DecidableEq, Repr

/-- The levels that the pins put out after some acts, when they put out `c` before. -/
def putOut (c : Rgb16) (acts : List PwmAct) : Rgb16 :=
  acts.foldl (fun c a =>
    match a with
    | .write levels => levels
    | .delay _ => c) c

theorem putOut_append (c : Rgb16) (as bs : List PwmAct) :
    putOut c (as ++ bs) = putOut (putOut c as) bs :=
  List.foldl_append ..

/-- RTOS ticks between two toggles in mode `Slow`, counted in calls of `tick`. -/
def SLOWTICK : UInt32 := 800 / 10

/-- RTOS ticks between two toggles in mode `Fast`, counted in calls of `tick`. -/
def FASTTICK : UInt32 := 200 / 10

/-- The driver object, with the levels its three pins put out. -/
structure RGBpwm where
  pRgb : Rgb16
  pPrevRgb : Rgb16
  xChanged : Bool
  xMode : RGBMode
  xPrevMode : RGBMode
  xTickCount : UInt32
  xState : Bool
  /-- The levels of the three PWM pins. -/
  levels : Rgb16
  deriving DecidableEq, Repr

namespace RGBpwm

/-- The driver after construction and `setup`: the pins are dark and the two colour arrays hold
whatever the memory held. -/
def setup (pRgb pPrevRgb : Rgb16) : RGBpwm where
  pRgb := pRgb
  pPrevRgb := pPrevRgb
  xChanged := false
  xMode := .off
  xPrevMode := .off
  xTickCount := 0
  xState := false
  levels := .black

/-- Setting the colour.  The arguments are passed by value, so a caller may pass `pPrevRgb`. -/
def setRGB (d : RGBpwm) (c : Rgb16) : RGBpwm :=
  { d with pPrevRgb := d.pRgb, pRgb := c, xChanged := true }

/-- Setting the colour from eight-bit components. -/
def setRGBb (d : RGBpwm) (r g b : UInt8) : RGBpwm := d.setRGB (squares r g b)

/-- Setting the mode. -/
def setMode (d : RGBpwm) (m : RGBMode) : RGBpwm :=
  { d with xPrevMode := d.xMode, xMode := m, xChanged := true }

/-- Writing the levels of the three pins. -/
def put (d : RGBpwm) (c : Rgb16) : RGBpwm × List PwmAct := ({ d with levels := c }, [.write c])

/-- Turning the LED off. -/
def off (d : RGBpwm) : RGBpwm × List PwmAct := d.put .black

/-- Turning the LED on in its colour. -/
def on (d : RGBpwm) : RGBpwm × List PwmAct := d.put d.pRgb

/-- The first part of a tick: the one-shot blink, after which the previous mode and colour are
put back through the public setters. -/
def tickOnce (d : RGBpwm) : RGBpwm × List PwmAct :=
  if d.xMode = .once then
    let pause : List PwmAct := [.delay (FASTTICK / 2).toNat]
    let p₁ := d.off
    let p₂ := p₁.1.on
    let p₃ := p₂.1.off
    -- by now `Once` is the previous mode, and the colour of the blink becomes the previous colour
    let d₁ := p₃.1.setMode p₃.1.xPrevMode
    (d₁.setRGB d₁.pPrevRgb, p₁.2 ++ pause ++ p₂.2 ++ pause ++ p₃.2 ++ pause)
  else (d, [])

/-- The second part of a tick: a change of mode or colour is taken up.  The switch has no case for
`Once`. -/
def tickChanged (d : RGBpwm) : RGBpwm × List PwmAct :=
  if d.xChanged then
    let d₁ := { d with xChanged := false }
    match d.xMode with
    | .off => d₁.off
    | .on => d₁.on
    | .fast | .slow => { d₁ with xTickCount := 0, xState := true }.on
    | .once => (d₁, [])
  else (d, [])

/-- Toggling every `period` ticks, common to the two blinking modes. -/
def toggle (d : RGBpwm) (period : UInt32) : RGBpwm × List PwmAct :=
  if period ≤ d.xTickCount then
    if d.xState then { d with xTickCount := 0, xState := false }.on
    else { d with xTickCount := 0, xState := true }.off
  else (d, [])

/-- The third part of a tick: the blinking modes toggle, the others hold the counter at zero. -/
def tickBlink (d : RGBpwm) : RGBpwm × List PwmAct :=
  match d.xMode with
  | .fast => d.toggle FASTTICK
  | .slow => d.toggle SLOWTICK
  | _ => ({ d with xTickCount := 0 }, [])

/-- One call of `tick`: the driver afterwards, and what happened at the pins meanwhile. -/
def tick (d : RGBpwm) : RGBpwm × List PwmAct :=
  let d₀ := { d with xTickCount := d.xTickCount + 1 }
  let p₁ := d₀.tickOnce
  let p₂ := p₁.1.tickChanged
  let p₃ := p₂.1.tickBlink
  (p₃.1, p₁.2 ++ p₂.2 ++ p₃.2)

/-! ### What a tick does, case by case -/

/-- The driver once a change of mode or colour has been taken up. -/
def takeUp (d : RGBpwm) : RGBpwm :=
  { d with
    xChanged := false
    xTickCount := 0
    xState := d.xState || decide (d.xMode = .fast ∨ d.xMode = .slow)
    levels := if d.xMode = .off then .black else d.pRgb }

/-- The driver after a one-shot blink, before the restored display is taken up: the two slots of
either kind have changed places. -/
def restored (d : RGBpwm) : RGBpwm :=
  { d with
    pRgb := d.pPrevRgb
    pPrevRgb := d.pRgb
    xMode := d.xPrevMode
    xPrevMode := .once
    xChanged := true
    levels := .black }

theorem tickOnce_of_ne {d : RGBpwm} (h : d.xMode ≠ .once) : d.tickOnce = (d, []) := if_neg h

theorem tickOnce_of_once {d : RGBpwm} (h : d.xMode = .once) :
    d.tickOnce = (d.restored, [.write .black, .delay 10, .write d.pRgb, .delay 10,
      .write .black, .delay 10]) := by
  obtain ⟨c, p, ch, m, pm, n, st, lv⟩ := d
  cases h
  rfl

theorem tickChanged_of_not_changed {d : RGBpwm} (h : d.xChanged = false) :
    d.tickChanged = (d, []) := by
  rw [tickChanged, h]
  rfl

/-- Taking up a change is one write, after which the last part of the tick has nothing to do. -/
theorem tickChanged_of_changed {d : RGBpwm} (hm : d.xMode ≠ .once) (hc : d.xChanged = true) :
    d.tickChanged.1.tickBlink = (d.takeUp, []) ∧ d.tickChanged.2 = [.write d.takeUp.levels] := by
  obtain ⟨c, p, ch, m, pm, n, st, lv⟩ := d
  cases hc
  cases m with
  | once => exact absurd rfl hm
  | off => exact ⟨by simp [tickChanged, tickBlink, takeUp, off, put], rfl⟩
  | on => exact ⟨by simp [tickChanged, tickBlink, takeUp, on, put], rfl⟩
  | slow => exact ⟨by simp [tickChanged, tickBlink, takeUp, on, put, toggle, SLOWTICK], rfl⟩
  | fast => exact ⟨by simp [tickChanged, tickBlink, takeUp, on, put, toggle, FASTTICK], rfl⟩

theorem tick_of_changed {d : RGBpwm} (hm : d.xMode ≠ .once) (hc : d.xChanged = true) :
    d.tick = (d.takeUp, [.write d.takeUp.levels]) := by
  have h := tickChanged_of_changed (d := { d with xTickCount := d.xTickCount + 1 }) hm hc
  simp only [tick, tickOnce_of_ne (d := { d with xTickCount := d.xTickCount + 1 }) hm, h.1, h.2]
  rfl

theorem tick_of_not_changed {d : RGBpwm} (hm : d.xMode ≠ .once) (hc : d.xChanged = false) :
    d.tick = { d with xTickCount := d.xTickCount + 1 }.tickBlink := by
  simp only [tick, tickOnce_of_ne (d := { d with xTickCount := d.xTickCount + 1 }) hm,
    tickChanged_of_not_changed (d := { d with xTickCount := d.xTickCount + 1 }) hc,
    List.nil_append]

/-- **A tick in mode `Once`** is a pulse in the colour of the request, and then the restored
display taken up. -/
theorem tick_of_once {d : RGBpwm} (hm : d.xMode = .once) (hp : d.xPrevMode ≠ .once) :
    d.tick = (d.restored.takeUp, [.write .black, .delay 10, .write d.pRgb, .delay 10,
      .write .black, .delay 10, .write d.restored.takeUp.levels]) := by
  have h := tickChanged_of_changed
    (d := { d with xTickCount := d.xTickCount + 1 }.restored) hp rfl
  simp only [tick, tickOnce_of_once (d := { d with xTickCount := d.xTickCount + 1 }) hm, h.1, h.2,
    List.append_nil]
  rfl

/-! ### The levels and the writes -/

theorem levels_tickOnce (d : RGBpwm) : d.tickOnce.1.levels = putOut d.levels d.tickOnce.2 := by
  unfold tickOnce
  split <;> rfl

theorem levels_tickChanged (d : RGBpwm) :
    d.tickChanged.1.levels = putOut d.levels d.tickChanged.2 := by
  unfold tickChanged
  split
  · split <;> rfl
  · rfl

theorem levels_toggle (d : RGBpwm) (period : UInt32) :
    (d.toggle period).1.levels = putOut d.levels (d.toggle period).2 := by
  unfold toggle
  split
  · split <;> rfl
  · rfl

theorem levels_tickBlink (d : RGBpwm) : d.tickBlink.1.levels = putOut d.levels d.tickBlink.2 := by
  unfold tickBlink
  split
  · exact levels_toggle d FASTTICK
  · exact levels_toggle d SLOWTICK
  · rfl

/-- **The levels after a tick are those of its last write**, and those before it if it makes
none. -/
theorem levels_tick (d : RGBpwm) : d.tick.1.levels = putOut d.levels d.tick.2 := by
  rw [tick, putOut_append, putOut_append]
  simp only
  rw [levels_tickBlink, levels_tickChanged, levels_tickOnce]

/-! ### The steady display -/

/-- The mode and colour the driver comes back to: its own, unless a one-shot blink is pending. -/
def steady (d : RGBpwm) : RGBMode × Rgb16 :=
  if d.xMode = .once then (d.xPrevMode, d.pPrevRgb) else (d.xMode, d.pRgb)

/-- A pending one-shot blink has something to go back to. -/
def Restorable (d : RGBpwm) : Prop := d.xMode = .once → d.xPrevMode ≠ .once

/-- The outputs show the display from its beginning: dark when it is off, and lit in its colour
otherwise, with the phase of a blinking mode restarted. -/
def Showing (d : RGBpwm) : Prop :=
  match d.xMode with
  | .off => d.levels = .black
  | .on => d.levels = d.pRgb
  | .slow | .fast => d.levels = d.pRgb ∧ d.xTickCount = 0 ∧ d.xState = true
  | .once => False

theorem steady_of_ne {d : RGBpwm} (h : d.xMode ≠ .once) : d.steady = (d.xMode, d.pRgb) := if_neg h

theorem steady_of_once {d : RGBpwm} (h : d.xMode = .once) :
    d.steady = (d.xPrevMode, d.pPrevRgb) := if_pos h

/-- The last part of a tick keeps mode and colour. -/
theorem tickBlink_display (d : RGBpwm) :
    (d.tickBlink.1.xMode, d.tickBlink.1.pRgb) = (d.xMode, d.pRgb) := by
  have htoggle : ∀ period, ((d.toggle period).1.xMode, (d.toggle period).1.pRgb)
      = (d.xMode, d.pRgb) := by
    intro period
    unfold toggle
    split
    · split <;> rfl
    · rfl
  unfold tickBlink
  split
  · exact htoggle FASTTICK
  · exact htoggle SLOWTICK
  · rfl

/-- After a tick the driver has the mode and colour that were steady before it. -/
theorem tick_display {d : RGBpwm} (h : d.Restorable) :
    (d.tick.1.xMode, d.tick.1.pRgb) = d.steady := by
  by_cases hm : d.xMode = .once
  · rw [tick_of_once hm (h hm), steady_of_once hm]
    rfl
  · rw [steady_of_ne hm]
    cases hc : d.xChanged with
    | true => rw [tick_of_changed hm hc]; rfl
    | false => rw [tick_of_not_changed hm hc, tickBlink_display]

theorem steady_ne_once {d : RGBpwm} (h : d.Restorable) : d.steady.1 ≠ .once := by
  by_cases hm : d.xMode = .once
  · rw [steady_of_once hm]; exact h hm
  · rwa [steady_of_ne hm]

theorem tick_xMode_ne_once {d : RGBpwm} (h : d.Restorable) : d.tick.1.xMode ≠ .once := by
  have hd : d.tick.1.xMode = d.steady.1 := congrArg Prod.fst (tick_display h)
  rw [hd]
  exact steady_ne_once h

/-- **A tick never changes the steady display.** -/
theorem steady_tick {d : RGBpwm} (h : d.Restorable) : d.tick.1.steady = d.steady := by
  rw [steady_of_ne (tick_xMode_ne_once h), tick_display h]

theorem showing_takeUp {d : RGBpwm} (h : d.xMode ≠ .once) : d.takeUp.Showing := by
  obtain ⟨c, p, ch, m, pm, n, st, lv⟩ := d
  cases m with
  | once => exact absurd rfl h
  | off => rfl
  | on => rfl
  | slow => exact ⟨rfl, rfl, Bool.or_true st⟩
  | fast => exact ⟨rfl, rfl, Bool.or_true st⟩

end RGBpwm

end TwinThing
