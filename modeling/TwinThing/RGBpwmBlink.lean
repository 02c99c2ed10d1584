/-
**The waveform of the blinking modes.**

In the modes `Fast` and `Slow` the driver toggles its outputs every `FASTTICK`, respectively
`SLOWTICK`, ticks.  The flag `xState` says what the next toggle does — `true` means "light" — but
the branch that takes a change up lights the LED and also sets the flag to `true`, so the first
toggle lights an LED that is lit already.  The waveform is computed here in closed form: the first
lit phase lasts two periods, and the square wave only starts after it.

Main definitions:

* `TwinThing.RGBpwm.period` — the period of a blinking mode;
* `TwinThing.RGBpwm.wave` — the driver `n` ticks after it took a blinking mode up;
* `TwinThing.RGBpwm.SquareWave` — the waveform that is lit in the even periods and dark in the
  odd ones.

Main results:

* `TwinThing.RGBpwm.iterate_tick_setMode` — **the closed form**;
* `TwinThing.RGBpwm.squareWave_iff` — blinking is an even square wave only in black.
-/

import TwinThing.RGBpwm

set_option relaxedAutoImplicit false
set_option autoImplicit false

namespace TwinThing

namespace RGBpwm

/-! ### The closed form -/

/-- The number of ticks between two toggles of a blinking mode; the other modes do not toggle. -/
def period : RGBMode → UInt32
  | .fast => FASTTICK
  | .slow => SLOWTICK
  | _ => 0

/-- Period `k` of a blinking mode is lit: the very first one, and then every odd one. -/
def LitPeriod (k : ℕ) : Prop := k = 0 ∨ k % 2 = 1

instance (k : ℕ) : Decidable (LitPeriod k) := inferInstanceAs (Decidable (_ ∨ _))

/-- The driver `d` after tick `n` of a blinking mode with period `p`, counted from the tick that
took the mode up. -/
def wave (d : RGBpwm) (p n : ℕ) : RGBpwm :=
  { d with
    xChanged := false
    xTickCount := UInt32.ofNat (n % p)
    xState := decide (n / p % 2 = 0)
    levels := if LitPeriod (n / p) then d.pRgb else .black }

/-- The next tick either starts a new period or stays in the present one. -/
theorem succ_div_mod {n p : ℕ} (hp : 0 < p) :
    (n % p + 1 = p ∧ (n + 1) / p = n / p + 1 ∧ (n + 1) % p = 0) ∨
      (n % p + 1 < p ∧ (n + 1) / p = n / p ∧ (n + 1) % p = n % p + 1) := by
  have hlt : n % p < p := Nat.mod_lt n hp
  have hn : p * (n / p) + n % p = n := Nat.div_add_mod n p
  rcases Nat.lt_or_ge (n % p + 1) p with h | h
  · have hsucc : n + 1 = n % p + 1 + p * (n / p) := by omega
    right
    refine ⟨h, ?_, ?_⟩
    · rw [hsucc, Nat.add_mul_div_left _ _ hp, Nat.div_eq_of_lt h, Nat.zero_add]
    · rw [hsucc, Nat.add_mul_mod_self_left, Nat.mod_eq_of_lt h]
  · have hsucc : n + 1 = p * (n / p + 1) := by rw [Nat.mul_succ]; omega
    left
    refine ⟨by omega, ?_, ?_⟩
    · rw [hsucc, Nat.mul_div_cancel_left _ hp]
    · rw [hsucc, Nat.mul_mod_right]

/-- **One toggle step of the closed form.**  The counter wraps exactly at the end of a period, and
the flag is then worth the parity of the period that ends. -/
theorem toggle_wave (d : RGBpwm) {P : UInt32} (hP : 0 < P.toNat) (n : ℕ) :
    ({ d.wave P.toNat n with xTickCount := (d.wave P.toNat n).xTickCount + 1 }.toggle P).1
      = d.wave P.toNat (n + 1) := by
  have hmod : n % P.toNat < P.toNat := Nat.mod_lt n hP
  have hbound : P.toNat < 2 ^ 32 := P.toNat_lt
  have hcount : UInt32.ofNat (n % P.toNat) + 1 = UInt32.ofNat (n % P.toNat + 1) := by
    rw [UInt32.ofNat_add]; rfl
  have hnat : (UInt32.ofNat (n % P.toNat + 1)).toNat = n % P.toNat + 1 :=
    UInt32.toNat_ofNat_of_lt (show n % P.toNat + 1 < 2 ^ 32 by omega)
  simp only [toggle, wave, hcount, UInt32.le_iff_toNat_le, hnat]
  rcases succ_div_mod (n := n) hP with ⟨hend, hdiv, hrem⟩ | ⟨hin, hdiv, hrem⟩
  · have hreached : P.toNat ≤ n % P.toNat + 1 := by omega
    rw [if_pos hreached, hdiv, hrem]
    by_cases hpar : n / P.toNat % 2 = 0
    · -- an even period ends: the flag lights the LED for the odd period that begins
      have hlit : LitPeriod (n / P.toNat + 1) := Or.inr (by omega)
      have hodd : ¬ (n / P.toNat + 1) % 2 = 0 := by omega
      simp [hpar, hlit, hodd, on, put]
    · -- an odd period ends, and the even one after it, which is not the first, is dark
      have heven : (n / P.toNat + 1) % 2 = 0 := by omega
      have hdark : ¬ LitPeriod (n / P.toNat + 1) := by
        rintro (h | h)
        · exact Nat.succ_ne_zero _ h
        · omega
      simp [hpar, hdark, heven, off, put]
  · have hbelow : ¬ P.toNat ≤ n % P.toNat + 1 := by omega
    rw [if_neg hbelow, hdiv, hrem]

theorem tick_of_blinking {d : RGBpwm} (hm : d.xMode = .fast ∨ d.xMode = .slow)
    (hc : d.xChanged = false) :
    d.tick.1 = ({ d with xTickCount := d.xTickCount + 1 }.toggle (period d.xMode)).1 := by
  have hne : d.xMode ≠ .once := by rcases hm with h | h <;> simp [h]
  rw [tick_of_not_changed hne hc, tickBlink]
  rcases hm with h | h <;> simp only [h, period]

theorem takeUp_of_blinking {d : RGBpwm} (hm : d.xMode = .fast ∨ d.xMode = .slow) (p : ℕ) :
    d.takeUp = d.wave p 0 := by
  have hne : d.xMode ≠ .off := by rcases hm with h | h <;> simp [h]
  have hlit : LitPeriod 0 := Or.inl rfl
  simp [takeUp, wave, hm, hne, hlit]

theorem period_pos {m : RGBMode} (hm : m = .fast ∨ m = .slow) : 0 < (period m).toNat := by
  rcases hm with rfl | rfl
  · decide
  · decide

/-- **The closed form of a blinking mode**: after tick `n` from the one that took the mode up, the
driver is in the state `TwinThing.RGBpwm.wave` says. -/
theorem iterate_tick_setMode (d : RGBpwm) {m : RGBMode} (hm : m = .fast ∨ m = .slow) (n : ℕ) :
    (fun e => (tick e).1)^[n + 1] (d.setMode m) = (d.setMode m).wave (period m).toNat n := by
  have hP := period_pos hm
  have hne : (d.setMode m).xMode ≠ .once := by rcases hm with rfl | rfl <;> simp [setMode]
  induction n with
  | zero =>
      rw [Function.iterate_one, tick_of_changed hne rfl]
      exact takeUp_of_blinking hm _
  | succ n ih =>
      rw [Function.iterate_succ_apply', ih, tick_of_blinking hm rfl]
      exact toggle_wave _ hP n

/-! ### An even square wave -/

/-- After tick `n` from the one that takes the mode up, the LED is lit when `n / P` is even and
dark when it is odd. -/
def SquareWave (d : RGBpwm) (m : RGBMode) : Prop :=
  ∀ n, let d' := (fun e => (tick e).1)^[n + 1] (d.setMode m)
    d'.levels = if n / (period m).toNat % 2 = 0 then d'.pRgb else .black

/-- The period after the first is lit, where the square wave has its first dark one. -/
theorem levels_second_period (d : RGBpwm) {m : RGBMode} (hm : m = .fast ∨ m = .slow) :
    ((fun e => (tick e).1)^[(period m).toNat + 1] (d.setMode m)).levels = d.pRgb := by
  have hP := period_pos hm
  have hlit : LitPeriod ((period m).toNat / (period m).toNat) := by
    rw [Nat.div_self hP]
    exact Or.inr rfl
  rw [iterate_tick_setMode d hm]
  exact if_pos hlit

/-- Blinking is an even square wave exactly when the colour is black, so that nothing is seen of
it: in any other colour the first lit phase lasts two periods. -/
theorem squareWave_iff (d : RGBpwm) {m : RGBMode} (hm : m = .fast ∨ m = .slow) :
    SquareWave d m ↔ d.pRgb = .black := by
  constructor
  · intro h
    have hP := period_pos hm
    have hsq := h (period m).toNat
    simp only at hsq
    rw [levels_second_period d hm, Nat.div_self hP] at hsq
    exact hsq
  · intro hblack n
    simp only [iterate_tick_setMode d hm]
    simp [wave, setMode, hblack]

/-- A red LED set blinking fast: the hypotheses of `squareWave_iff` at a concrete driver. -/
theorem squareWave_iff_red :
    SquareWave ((setup .black .black).setRGBb 0xFF 0 0) .fast ↔ squares 0xFF 0 0 = .black :=
  squareWave_iff ((setup .black .black).setRGBb 0xFF 0 0) (Or.inl rfl)

/-- A red LED set blinking fast is not an even square wave: it is still lit at tick 20. -/
theorem red_fast_not_squareWave :
    ¬ SquareWave ((setup .black .black).setRGBb 0xFF 0 0) .fast := by
  intro h
  have hsq := h 20
  have hlit :=
    levels_second_period ((setup .black .black).setRGBb 0xFF 0 0) (m := .fast) (Or.inl rfl)
  have hdark : squares 0xFF 0 0 = Rgb16.black := hlit.symm.trans hsq
  exact absurd hdark (by decide)

end RGBpwm

end TwinThing
