/-
**The press cycle of the switch observer.**

Every press of the switch, short or long, takes the state one step along the colours of a rainbow
and then to off.  The observer counts the presses itself, in a byte that is reset one press late,
and writes the on status only at the two ends of the cycle; in between, the twin may have written
it.  What a press calls depends on the counter alone, so it is modelled by the list of its setter
calls; reading the rainbow out of bounds is `none`.

Main definitions:

* `TwinThing.RGBSwitchObs.handleShortPress`, `TwinThing.RGBSwitchObs.handleLongPress`;
* `TwinThing.runPresses` — presses interleaved with updates made by others;
* `TwinThing.CycleLaw` — what the state should be after the `n`-th press.

Main results:

* `TwinThing.RGBSwitchObs.handleShortPress_spec` — a press never reads out of bounds, and its
  phase advances by one modulo eight;
* `TwinThing.press_cycle` — **the press cycle**: colours and the two ends of the cycle do not
  depend on what others do, and in between the on status is the last one others wrote.
-/

import TwinThing.StateExample
import TwinThing.SwitchMgr

set_option relaxedAutoImplicit false
set_option autoImplicit false

namespace TwinThing

/-! ### The observer -/

/-- The observer, with its place in the rainbow. -/
structure RGBSwitchObs where
  xSeq : UInt8
  deriving DecidableEq, Repr

namespace RGBSwitchObs

def init : RGBSwitchObs := ⟨0⟩

def xRainbowCount : UInt8 := 7

def pRainbow : List Rgb8 :=
  [⟨0x94, 0x00, 0xD3⟩, ⟨0x4B, 0x00, 0x82⟩, ⟨0x00, 0x00, 0xFF⟩, ⟨0x00, 0xFF, 0x00⟩,
    ⟨0xFF, 0xFF, 0x00⟩, ⟨0xFF, 0x7F, 0x00⟩, ⟨0xFF, 0x00, 0x00⟩]

/-- A short press: the observer afterwards and the setters it called, or nothing when `pRainbow`
was read out of bounds. -/
def handleShortPress (o : RGBSwitchObs) : Option (RGBSwitchObs × List Setter) :=
  -- the press after the one that switched off starts again
  let xSeq := if o.xSeq > xRainbowCount then 0 else o.xSeq
  let on : List Setter := if xSeq = 0 then [.setOn true] else []
  if xSeq = xRainbowCount then some (⟨xSeq + 1⟩, on ++ [.setOn false])
  else pRainbow[xSeq.toNat]?.map fun c => (⟨xSeq + 1⟩, on ++ [.setRGB c])

def handleLongPress (o : RGBSwitchObs) : Option (RGBSwitchObs × List Setter) := o.handleShortPress

/-- The phase of the cycle the next press is in. -/
def phase (o : RGBSwitchObs) : ℕ := if o.xSeq > xRainbowCount then 0 else o.xSeq.toNat

/-- The setters a press calls in each phase. -/
def settersAt (k : ℕ) : List Setter :=
  (if k = 0 then [.setOn true] else []) ++
    match pRainbow[k]? with
    | some c => [.setRGB c]
    | none => [.setOn false]

theorem phase_lt (o : RGBSwitchObs) : o.phase < 8 := by
  unfold phase
  split
  · decide
  · rename_i h
    have hle : o.xSeq.toNat ≤ 7 := UInt8.le_iff_toNat_le.1 (UInt8.not_lt.1 h)
    omega

/-- **A press never reads out of bounds**, does what its phase says, and advances the phase by one
modulo eight. -/
theorem handleShortPress_spec (o : RGBSwitchObs) :
    ∃ o', o.handleShortPress = some (o', settersAt o.phase) ∧ o'.phase = (o.phase + 1) % 8 := by
  -- the counter the press works with, which is the phase as a byte
  obtain ⟨x, hx, hphase⟩ : ∃ x : UInt8, (if o.xSeq > xRainbowCount then 0 else o.xSeq) = x ∧
      o.phase = x.toNat := by
    refine ⟨_, rfl, ?_⟩
    unfold phase
    split
    · rfl
    · rfl
  have hlt : x.toNat < 8 := hphase ▸ o.phase_lt
  obtain ⟨k, hk, rfl⟩ : ∃ k : Fin 8, x.toNat = k.val ∧ x = UInt8.ofNat k.val := by
    refine ⟨⟨x.toNat, hlt⟩, rfl, ?_⟩
    exact (UInt8.ofNat_toNat).symm
  refine ⟨⟨UInt8.ofNat k.val + 1⟩, ?_, ?_⟩
  · simp only [handleShortPress, hx, hphase]
    clear hx hphase hlt hk
    revert k
    decide
  · rw [hphase]
    clear hx hphase hlt hk
    revert k
    decide

end RGBSwitchObs

/-! ### Presses among other updates -/

/-- What others do to the state: the two setters, and remote updates. -/
inductive Remote
  | setOn (b : Bool)
  | setRGB (c : Rgb8)
  | update (json : List (String × Json))

/-- The setters another caller calls. -/
def Remote.setters : Remote → List Setter
  | .setOn b => [.setOn b]
  | .setRGB c => [.setRGB c]
  | .update json => updateSetters json

/-- A step: a press, or something others do between presses. -/
inductive PressAct
  | press (kind : Press)
  | remote (r : Remote)

/-- The observer and its state. -/
structure PressSystem where
  obs : RGBSwitchObs
  state : StateExample

/-- What a press calls. -/
def Press.handle : Press → RGBSwitchObs → Option (RGBSwitchObs × List Setter)
  | .short => RGBSwitchObs.handleShortPress
  | .long => RGBSwitchObs.handleLongPress

/-- One step, or nothing when the rainbow was read out of bounds. -/
def pressStep (s : PressSystem) : PressAct → Option PressSystem
  | .press kind => (kind.handle s.obs).map fun p => ⟨p.1, Runs.run Setter.run s.state p.2⟩
  | .remote r => some { s with state := Runs.run Setter.run s.state r.setters }

/-- The system after a run of steps. -/
def runPresses (s : PressSystem) (acts : List PressAct) : Option PressSystem :=
  acts.foldlM pressStep s

/-- The number of presses in a run. -/
def pressCount (acts : List PressAct) : ℕ :=
  acts.countP fun
    | .press _ => true
    | .remote _ => false

/-- The on status a setter writes, if it writes it. -/
def Setter.onWrite : Setter → Option Bool
  | .setOn b => some b
  | .setRGB _ => none

/-- The on statuses others write in a run, in order. -/
def onWrites (acts : List PressAct) : List Bool :=
  acts.flatMap fun
    | .press _ => []
    | .remote r => r.setters.filterMap Setter.onWrite

/-- What the state should be right after the press with `n` presses before it, whatever others
do. -/
def CycleLaw (n : ℕ) (s : StateExample) : Prop :=
  (∀ c, RGBSwitchObs.pRainbow[n % 8]? = some c → s.on = true ∧ s.rgb = c) ∧
    (n % 8 = 7 → s.on = false)

/-! ### One step -/

/-- The on status after some setter calls is the last one they wrote. -/
theorem run_setters_on (s : StateExample) (cs : List Setter) :
    (Runs.run Setter.run s cs).on = ((cs.filterMap Setter.onWrite).getLast?).getD s.on := by
  induction cs using List.reverseRecOn with
  | nil => rfl
  | append_singleton cs c ih =>
      rw [Runs.run_concat, List.filterMap_append]
      cases c with
      | setOn b => simp [Setter.run, StateExample.setOn, StateExample.setDirty, Setter.onWrite]
      | setRGB c => simpa [Setter.run, StateExample.setRGB, StateExample.setDirty, Setter.onWrite]
          using ih

/-- What a press does to the system. -/
theorem pressStep_press (s : PressSystem) (kind : Press) :
    ∃ s', pressStep s (.press kind) = some s' ∧ s'.obs.phase = (s.obs.phase + 1) % 8 ∧
      s'.state = Runs.run Setter.run s.state (RGBSwitchObs.settersAt s.obs.phase) := by
  obtain ⟨o', hpress, hphase⟩ := s.obs.handleShortPress_spec
  refine ⟨⟨o', Runs.run Setter.run s.state (RGBSwitchObs.settersAt s.obs.phase)⟩, ?_, hphase, rfl⟩
  have hhandle : kind.handle s.obs = some (o', RGBSwitchObs.settersAt s.obs.phase) := by
    cases kind <;> exact hpress
  rw [pressStep, hhandle]
  rfl

/-! ### Runs -/

theorem runPresses_append (s : PressSystem) (acts acts' : List PressAct) :
    runPresses s (acts ++ acts') = (runPresses s acts).bind fun s' => runPresses s' acts' :=
  List.foldlM_append

theorem runPresses_concat (s : PressSystem) (acts : List PressAct) (a : PressAct) :
    runPresses s (acts ++ [a]) = (runPresses s acts).bind fun s' => pressStep s' a := by
  rw [runPresses_append]
  simp [runPresses]

@[simp] theorem pressCount_press (acts : List PressAct) (kind : Press) :
    pressCount (acts ++ [.press kind]) = pressCount acts + 1 := by
  simp [pressCount]

@[simp] theorem pressCount_remote (acts : List PressAct) (r : Remote) :
    pressCount (acts ++ [.remote r]) = pressCount acts := by
  simp [pressCount]

@[simp] theorem onWrites_press (acts : List PressAct) (kind : Press) :
    onWrites (acts ++ [.press kind]) = onWrites acts := by
  simp [onWrites]

theorem onWrites_remote (acts : List PressAct) (r : Remote) :
    onWrites (acts ++ [.remote r]) = onWrites acts ++ r.setters.filterMap Setter.onWrite := by
  simp [onWrites]

/-- No run reads the rainbow out of bounds, and the phase is the number of presses modulo eight. -/
theorem runPresses_phase (s : PressSystem) (acts : List PressAct) :
    ∃ s', runPresses s acts = some s' ∧
      s'.obs.phase = (s.obs.phase + pressCount acts) % 8 := by
  induction acts using List.reverseRecOn with
  | nil => exact ⟨s, rfl, (Nat.mod_eq_of_lt s.obs.phase_lt).symm⟩
  | append_singleton acts a ih =>
      obtain ⟨s', hrun, hphase⟩ := ih
      rw [runPresses_concat, hrun]
      cases a with
      | press kind =>
          obtain ⟨t, hstep, ht, -⟩ := pressStep_press s' kind
          refine ⟨t, hstep, ?_⟩
          rw [ht, hphase, pressCount_press]
          omega
      | remote r => exact ⟨_, rfl, by rw [pressCount_remote]; exact hphase⟩

/-- In the six phases between the ends of the cycle a press does not write the on status. -/
theorem settersAt_onWrite {k : ℕ} (h0 : 0 < k) (h7 : k < 7) :
    (RGBSwitchObs.settersAt k).filterMap Setter.onWrite = [] := by
  have hall : ∀ k : Fin 7, 0 < k.val →
      (RGBSwitchObs.settersAt k).filterMap Setter.onWrite = [] := by decide
  exact hall ⟨k, h7⟩ h0

/-- **Between the ends of the cycle the on status is the others'.**  As long as the presses of a
run stay in the six phases between the two ends, the on status is the last one others wrote. -/
theorem runPresses_on {s s' : PressSystem} {acts : List PressAct}
    (hrun : runPresses s acts = some s') (h0 : 0 < s.obs.phase)
    (h7 : s.obs.phase + pressCount acts ≤ 7) :
    s'.state.on = ((onWrites acts).getLast?).getD s.state.on := by
  induction acts using List.reverseRecOn generalizing s' with
  | nil =>
      cases hrun
      rfl
  | append_singleton acts a ih =>
      obtain ⟨t, ht, hphase⟩ := runPresses_phase s acts
      rw [runPresses_concat, ht, Option.bind_some] at hrun
      cases a with
      | press kind =>
          rw [pressCount_press] at h7
          have hon := ih ht (by omega)
          have hlow : t.obs.phase = s.obs.phase + pressCount acts := by
            rw [hphase, Nat.mod_eq_of_lt (by omega)]
          obtain ⟨u, hu, -, hstate⟩ := pressStep_press t kind
          cases hrun.symm.trans hu
          rw [hstate, run_setters_on, settersAt_onWrite (by omega) (by omega), onWrites_press]
          exact hon
      | remote r =>
          rw [pressCount_remote] at h7
          have hon := ih ht h7
          cases hrun
          rw [run_setters_on, onWrites_remote, List.getLast?_append, hon]
          cases (r.setters.filterMap Setter.onWrite).getLast? <;> rfl

/-- What a press in a phase leaves behind. -/
theorem run_settersAt (s : StateExample) (k : ℕ) :
    (∀ c, RGBSwitchObs.pRainbow[k]? = some c →
      (Runs.run Setter.run s (RGBSwitchObs.settersAt k)).rgb = c) ∧
    (k = 0 → (Runs.run Setter.run s (RGBSwitchObs.settersAt k)).on = true) ∧
    (k = 7 → (Runs.run Setter.run s (RGBSwitchObs.settersAt k)).on = false) := by
  refine ⟨?_, ?_, ?_⟩
  · intro c hc
    rw [RGBSwitchObs.settersAt, hc, Runs.run_concat]
    rfl
  · rintro rfl
    rfl
  · rintro rfl
    rfl

/-- **The press cycle.**  In every run of presses and updates by others, no press reads the rainbow
out of bounds; right after the `n`-th press the colour is the one of its phase, the status is on in
phase 0 and off in phase 7, and in the phases between it is the last one that others have written
since the press of phase 0, or on if they have written none. -/
theorem press_cycle (s₀ : StateExample) (acts : List PressAct) (kind : Press) :
    ∃ s, runPresses ⟨.init, s₀⟩ (acts ++ [.press kind]) = some s ∧
      (∀ c, RGBSwitchObs.pRainbow[pressCount acts % 8]? = some c → s.state.rgb = c) ∧
      (pressCount acts % 8 = 0 → s.state.on = true) ∧
      (pressCount acts % 8 = 7 → s.state.on = false) ∧
      ∀ pre first mid, acts = pre ++ [.press first] ++ mid → pressCount pre % 8 = 0 →
        pressCount mid < 6 → s.state.on = ((onWrites mid).getLast?).getD true := by
  obtain ⟨t, ht, hphase⟩ := runPresses_phase ⟨.init, s₀⟩ acts
  obtain ⟨u, hu, -, hstate⟩ := pressStep_press t kind
  have hrun : runPresses ⟨.init, s₀⟩ (acts ++ [.press kind]) = some u := by
    rw [runPresses_concat, ht]
    exact hu
  have hn : t.obs.phase = pressCount acts % 8 := by
    rw [hphase, show RGBSwitchObs.init.phase = 0 from rfl, Nat.zero_add]
  obtain ⟨hrgb, hfirst, hlast⟩ := run_settersAt t.state t.obs.phase
  rw [← hstate, hn] at hrgb hfirst hlast
  refine ⟨u, hrun, hrgb, hfirst, hlast, ?_⟩
  -- the run from the press of phase 0 on: it leaves the status on, and stays between the ends
  rintro pre first mid rfl hpre hmid
  obtain ⟨p, hp, hpphase⟩ := runPresses_phase ⟨.init, s₀⟩ pre
  rw [show RGBSwitchObs.init.phase = 0 from rfl, Nat.zero_add, hpre] at hpphase
  obtain ⟨q, hq, hqphase, hqstate⟩ := pressStep_press p first
  rw [hpphase] at hqphase hqstate
  have hqon : q.state.on = true := by
    rw [hqstate]
    exact (run_settersAt p.state 0).2.1 rfl
  have hfirstRun : runPresses ⟨.init, s₀⟩ (pre ++ [.press first]) = some q := by
    rw [runPresses_concat, hp]
    exact hq
  have hmidRun : runPresses q (mid ++ [.press kind]) = some u := by
    rwa [List.append_assoc, runPresses_append, hfirstRun, Option.bind_some] at hrun
  have hon := runPresses_on hmidRun (by rw [hqphase]; decide)
    (by rw [hqphase, pressCount_press]; omega)
  rw [hon, hqon, onWrites_press]

/-- The press cycle does depend on what others do: after the first press, the status is switched
off remotely; the second press sets its colour and leaves the status off. -/
theorem remote_off_breaks_cycle :
    ∃ s, runPresses ⟨.init, .init⟩ [.press .short, .remote (.setOn false), .press .short] = some s ∧
      pressCount [.press .short, .remote (.setOn false)] = 1 ∧ ¬ CycleLaw 1 s.state := by
  refine ⟨_, rfl, rfl, ?_⟩
  rintro ⟨hcolour, -⟩
  exact absurd (hcolour ⟨0x4B, 0x00, 0x82⟩ rfl).1 (by decide)

end TwinThing
