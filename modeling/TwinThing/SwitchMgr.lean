/-
**The switch: from edges at a pin to presses.**

`SwitchMgr::handleGPIO` is called from the interrupt with a mask of edges.  A falling edge stores
the time; a rising edge measures how long the switch was held, by subtraction of two clock
readings of 32 bits, and notifies the observer of a short or a long press.  The stored time is not
initialised, is zeroed after every rising edge, and is subtracted whether or not a falling edge
was seen.

Main definitions:

* `TwinThing.SwitchMgr`, `TwinThing.SwitchMgr.handleGPIO` — the manager and its handler;
* `TwinThing.classify` — what a hold of a given length is;
* `TwinThing.pendingFall` — when the switch went down, by the edges that were seen;
* `TwinThing.ClassifiedTruly` — every callback reports the true hold time, and nothing else.

Main results:

* `TwinThing.SwitchMgr.after_eq` — the stored time, after any callbacks;
* `TwinThing.classifiedTruly_iff` — **exactly when holds are classified truly**: when no rising
  edge without a falling edge before it, and none that ends a hold longer than the clock's range,
  makes up a time that looks like a press.
-/

import TwinThing.Lib.Runs
import Mathlib.Algebra.Group.Nat.Defs

set_option relaxedAutoImplicit false
set_option autoImplicit false

namespace TwinThing

/-! ### Edges, times and presses -/

/-- An edge at a pin. -/
inductive Edge
  | fall
  | rise
  deriving DecidableEq, Repr

/-- The two bits of an event mask that stand for edges, `GPIO_IRQ_EDGE_FALL` and
`GPIO_IRQ_EDGE_RISE` of the SDK. -/
structure EdgeBits where
  fall : UInt32
  rise : UInt32
  fall_pos : fall > 0
  rise_pos : rise > 0
  disjoint : fall &&& rise = 0

/-- The mask with one edge in it. -/
def EdgeBits.mask (bits : EdgeBits) : Edge → UInt32
  | .fall => bits.fall
  | .rise => bits.rise

/-- The mask with both edges in it. -/
def EdgeBits.both (bits : EdgeBits) : UInt32 := bits.fall ||| bits.rise

/-- The bits as the SDK has them. -/
def EdgeBits.pico : EdgeBits := ⟨0x4, 0x8, by decide, by decide, by decide⟩

/-- A reading of the clock, `to_ms_since_boot (get_absolute_time ())`, at a time in milliseconds. -/
def clock (t : ℕ) : UInt32 := UInt32.ofNat t

/-- A press of the switch. -/
inductive Press
  | short
  | long
  deriving DecidableEq, Repr

/-- A call of the observer's `handleShortPress` or `handleLongPress`. -/
structure Notice where
  press : Press
  gp : UInt8
  deriving DecidableEq, Repr

/-! ### The manager -/

def SHORT_PRESS_TIME : UInt32 := 5

def LONG_PRESS_TIME : UInt32 := 200

def MAX_PRESS_TIME : UInt32 := 2000

/-- The switch manager: its pin, the stored time, and whether it has an observer. -/
structure SwitchMgr where
  xGP : UInt8
  xFallingTime : UInt32
  pObs : Bool
  deriving DecidableEq, Repr

namespace SwitchMgr

/-- The constructor leaves in `xFallingTime` what was there, and has no observer. -/
def init (gp : UInt8) (xFallingTime : UInt32) : SwitchMgr := ⟨gp, xFallingTime, false⟩

/-- Giving it an observer, or `NULL`, which takes the one it has away. -/
def setObserver (m : SwitchMgr) (obs : Bool) : SwitchMgr := { m with pObs := obs }

def handleShortPress (m : SwitchMgr) : List Notice := if m.pObs then [⟨.short, m.xGP⟩] else []

def handleLongPress (m : SwitchMgr) : List Notice := if m.pObs then [⟨.long, m.xGP⟩] else []

/-- The handler, with what the clock reads when it is read for a falling and for a rising edge:
the manager afterwards, and the calls of its observer. -/
def handleGPIO (bits : EdgeBits) (m : SwitchMgr) (gpio events fallClock riseClock : UInt32) :
    SwitchMgr × List Notice :=
  if gpio = m.xGP.toUInt32 then
    let m := if events &&& bits.fall > 0 then { m with xFallingTime := fallClock } else m
    if events &&& bits.rise > 0 then
      -- whatever is stored, also when no falling edge was seen
      let stableTime := riseClock - m.xFallingTime
      let m := { m with xFallingTime := 0 }
      (m, (if stableTime > SHORT_PRESS_TIME ∧ stableTime < LONG_PRESS_TIME then
            m.handleShortPress else []) ++
          if stableTime ≥ LONG_PRESS_TIME ∧ stableTime < MAX_PRESS_TIME then
            m.handleLongPress else [])
    else (m, [])
  else (m, [])

end SwitchMgr

/-! ### Holds -/

/-- A hold of this many milliseconds is a press, short or long. -/
def IsPress (hold : ℕ) : Prop := 5 < hold ∧ hold < 2000

instance (hold : ℕ) : Decidable (IsPress hold) := inferInstanceAs (Decidable (_ ∧ _))

/-- What a hold of this many milliseconds is to be reported as. -/
def classify (gp : UInt8) (hold : ℕ) : List Notice :=
  if 5 < hold ∧ hold < 200 then [⟨.short, gp⟩]
  else if 200 ≤ hold ∧ hold < 2000 then [⟨.long, gp⟩]
  else []

theorem classify_eq_nil_iff (gp : UInt8) (hold : ℕ) : classify gp hold = [] ↔ ¬ IsPress hold := by
  unfold classify IsPress
  split
  · simp
    omega
  · split
    · simp
      omega
    · simp
      omega

theorem classify_of_not {gp : UInt8} {hold : ℕ} (h : ¬ IsPress hold) : classify gp hold = [] :=
  (classify_eq_nil_iff gp hold).2 h

/-- The difference of two clock readings is the time between them, up to the clock's range. -/
theorem toNat_clock_sub {t₁ t₂ : ℕ} (h : t₁ ≤ t₂) :
    (clock t₂ - clock t₁).toNat = (t₂ - t₁) % 2 ^ 32 := by
  rw [clock, clock, ← UInt32.ofNat_sub h, UInt32.toNat_ofNat']

/-- So is the clock itself, which is what is left when nothing is stored. -/
theorem toNat_clock_sub_zero (t : ℕ) : (clock t - 0).toNat = t % 2 ^ 32 := by
  rw [UInt32.sub_zero, clock, UInt32.toNat_ofNat']

/-- A hold is classified by its length up to the clock's range; this is right except when it was
longer than that and the rest of it looks like a press. -/
theorem classify_mod_iff (gp : UInt8) (hold : ℕ) :
    classify gp (hold % 2 ^ 32) = classify gp hold
      ↔ hold < 2 ^ 32 ∨ ¬ IsPress (hold % 2 ^ 32) := by
  by_cases h : hold < 2 ^ 32
  · rw [Nat.mod_eq_of_lt h]
    exact iff_of_true rfl (Or.inl h)
  · have hlong : classify gp hold = [] := classify_of_not (by unfold IsPress; omega)
    rw [hlong, classify_eq_nil_iff]
    exact ⟨Or.inr, fun hor => hor.resolve_left h⟩

/-! ### What the handler does -/

namespace EdgeBits

variable (bits : EdgeBits)

@[simp] theorem fall_and_rise : ¬ bits.fall &&& bits.rise > 0 := by
  rw [bits.disjoint]
  decide

@[simp] theorem rise_and_fall : ¬ bits.rise &&& bits.fall > 0 := by
  rw [UInt32.and_comm]
  exact bits.fall_and_rise

theorem both_and (x : UInt32) : bits.both &&& x = bits.fall &&& x ||| bits.rise &&& x :=
  UInt32.toBitVec_inj.1 BitVec.and_or_distrib_right

@[simp] theorem both_and_fall : bits.both &&& bits.fall > 0 := by
  rw [both_and, UInt32.and_self, UInt32.and_comm bits.rise, bits.disjoint, UInt32.or_zero]
  exact bits.fall_pos

@[simp] theorem both_and_rise : bits.both &&& bits.rise > 0 := by
  rw [both_and, UInt32.and_self, bits.disjoint, UInt32.zero_or]
  exact bits.rise_pos

end EdgeBits

namespace SwitchMgr

/-- The manager with another stored time, which is all that its handler changes. -/
def store (m : SwitchMgr) (x : UInt32) : SwitchMgr := { m with xFallingTime := x }

variable (bits : EdgeBits) (m : SwitchMgr) (x : UInt32)

@[simp] theorem store_xGP : (m.store x).xGP = m.xGP := rfl

/-- Edges at other pins are ignored. -/
theorem handleGPIO_of_ne {gpio : UInt32} (h : gpio ≠ m.xGP.toUInt32) (events c c' : UInt32) :
    handleGPIO bits (m.store x) gpio events c c' = (m.store x, []) := if_neg h

theorem handleGPIO_fall (c c' : UInt32) :
    handleGPIO bits (m.store x) m.xGP.toUInt32 bits.fall c c' = (m.store c, []) := by
  have hfall : bits.fall &&& bits.fall > 0 := by rw [UInt32.and_self]; exact bits.fall_pos
  unfold handleGPIO
  rw [store_xGP, if_pos rfl, if_pos hfall, if_neg bits.fall_and_rise]
  rfl

/-- The report of a rising edge is the classification of the difference it computes. -/
theorem stable_classified (h : m.pObs = true) (stableTime : UInt32) :
    (if stableTime > SHORT_PRESS_TIME ∧ stableTime < LONG_PRESS_TIME then
        m.handleShortPress else []) ++
      (if stableTime ≥ LONG_PRESS_TIME ∧ stableTime < MAX_PRESS_TIME then
        m.handleLongPress else [])
      = classify m.xGP stableTime.toNat := by
  have hshort : SHORT_PRESS_TIME.toNat = 5 := rfl
  have hlong : LONG_PRESS_TIME.toNat = 200 := rfl
  have hmax : MAX_PRESS_TIME.toNat = 2000 := rfl
  simp only [gt_iff_lt, ge_iff_le, UInt32.lt_iff_toNat_lt, UInt32.le_iff_toNat_le, hshort, hlong,
    hmax, handleShortPress, handleLongPress, h, classify]
  split
  · rename_i hs
    simp only [if_true]
    rw [if_neg (by omega)]
    rfl
  · rfl

theorem handleGPIO_rise (h : m.pObs = true) (c c' : UInt32) :
    handleGPIO bits (m.store x) m.xGP.toUInt32 bits.rise c c'
      = (m.store 0, classify m.xGP (c' - x).toNat) := by
  have hrise : bits.rise &&& bits.rise > 0 := by rw [UInt32.and_self]; exact bits.rise_pos
  unfold handleGPIO
  rw [store_xGP, if_pos rfl, if_neg bits.rise_and_fall, if_pos hrise]
  exact congrArg (Prod.mk _) (stable_classified (m.store 0) h _)

/-- Both edges in one mask are taken as a fall and then a rise. -/
theorem handleGPIO_both (h : m.pObs = true) (c c' : UInt32) :
    handleGPIO bits (m.store x) m.xGP.toUInt32 bits.both c c'
      = (m.store 0, classify m.xGP (c' - c).toNat) := by
  unfold handleGPIO
  rw [store_xGP, if_pos rfl, if_pos bits.both_and_fall, if_pos bits.both_and_rise]
  exact congrArg (Prod.mk _) (stable_classified (m.store 0) h _)

theorem handleGPIO_of_no_observer {m : SwitchMgr} (h : m.pObs = false)
    {gpio events c c' : UInt32} {p : SwitchMgr × List Notice}
    (hp : p = handleGPIO bits m gpio events c c') : p.1.pObs = false ∧ p.2 = [] := by
  have hshort (y : UInt32) : SwitchMgr.handleShortPress ⟨m.xGP, y, m.pObs⟩ = [] :=
    if_neg (by simp [h])
  have hlong (y : UInt32) : SwitchMgr.handleLongPress ⟨m.xGP, y, m.pObs⟩ = [] :=
    if_neg (by simp [h])
  rw [hp]
  unfold handleGPIO
  split
  · -- whether or not a falling edge has stored its time
    obtain ⟨x, hx⟩ : ∃ x, (if events &&& bits.fall > 0 then
        { m with xFallingTime := c } else m) = m.store x := by
      split
      · exact ⟨c, rfl⟩
      · exact ⟨m.xFallingTime, rfl⟩
    rw [hx]
    dsimp only [store]
    rw [hshort, hlong, ite_self, ite_self]
    split
    · exact ⟨h, rfl⟩
    · exact ⟨h, rfl⟩
  · exact ⟨h, rfl⟩

end SwitchMgr

/-! ### Callbacks -/

/-- A callback of the interrupt with a single edge, at a time in milliseconds since boot. -/
structure Callback where
  gpio : UInt32
  edge : Edge
  time : ℕ
  deriving DecidableEq, Repr

/-- The callbacks come in the order of their times. -/
def InOrder (cs : List Callback) : Prop := cs.Pairwise fun c d => c.time ≤ d.time

instance (cs : List Callback) : Decidable (InOrder cs) :=
  inferInstanceAs (Decidable (List.Pairwise _ _))

theorem InOrder.throughout {cs : List Callback} (h : InOrder cs) :
    Runs.Throughout (fun pre c => ∀ d ∈ pre, d.time ≤ c.time) cs := by
  rintro pre c post rfl d hd
  exact (List.pairwise_append.1 h).2.2 d hd c List.mem_cons_self

/-- The falling edges at a pin since the last rising edge there, the latest first. -/
def fallsSinceRise (gp : UInt8) (cs : List Callback) : List Callback :=
  (cs.filter fun c => c.gpio = gp.toUInt32).reverse.takeWhile fun c => c.edge = .fall

/-- When the switch last went down, if it has not come up since. -/
def pendingFall (gp : UInt8) (cs : List Callback) : Option ℕ :=
  (fallsSinceRise gp cs).head?.map Callback.time

/-- What a callback is to be reported as, after the callbacks before it. -/
def trueReport (gp : UInt8) (pre : List Callback) (c : Callback) : List Notice :=
  if c.gpio = gp.toUInt32 ∧ c.edge = .rise then
    match pendingFall gp pre with
    | some t₁ => classify gp (c.time - t₁)
    | none => []
  else []

section PendingFall

variable {gp : UInt8} {c : Callback} (cs : List Callback)

theorem pendingFall_concat_of_ne (h : c.gpio ≠ gp.toUInt32) :
    pendingFall gp (cs ++ [c]) = pendingFall gp cs := by
  simp [pendingFall, fallsSinceRise, h]

theorem pendingFall_concat_fall (h : c.gpio = gp.toUInt32) (he : c.edge = .fall) :
    pendingFall gp (cs ++ [c]) = some c.time := by
  simp [pendingFall, fallsSinceRise, h, he]

theorem pendingFall_concat_rise (h : c.gpio = gp.toUInt32) (he : c.edge = .rise) :
    pendingFall gp (cs ++ [c]) = none := by
  simp [pendingFall, fallsSinceRise, h, he]

/-- The pending fall is one of the callbacks. -/
theorem exists_of_pendingFall {t : ℕ} (h : pendingFall gp cs = some t) : ∃ d ∈ cs, d.time = t := by
  obtain ⟨d, hd, rfl⟩ := Option.map_eq_some_iff.1 h
  have hmem := (List.takeWhile_prefix _).subset (List.mem_of_mem_head? hd)
  exact ⟨d, (List.mem_filter.1 (List.mem_reverse.1 hmem)).1, rfl⟩

end PendingFall

namespace SwitchMgr

/-- The handler of the manager, called back with one edge. -/
def callback (bits : EdgeBits) (m : SwitchMgr) (c : Callback) : SwitchMgr × List Notice :=
  handleGPIO bits m c.gpio (bits.mask c.edge) (clock c.time) (clock c.time)

/-- The manager after some callbacks. -/
def after (bits : EdgeBits) (m : SwitchMgr) (cs : List Callback) : SwitchMgr :=
  Runs.run (fun m c => (m.callback bits c).1) m cs

/-- The time that is stored after some callbacks: of the pending fall if there is one, and
otherwise zero, or what was there in the beginning. -/
def storedTime (m : SwitchMgr) (cs : List Callback) : UInt32 :=
  match pendingFall m.xGP cs with
  | some t₁ => clock t₁
  | none => if cs.any fun c => c.gpio = m.xGP.toUInt32 then 0 else m.xFallingTime

section StoredTime

variable {m : SwitchMgr} {c : Callback} (cs : List Callback)

theorem storedTime_concat_of_ne (h : c.gpio ≠ m.xGP.toUInt32) :
    m.storedTime (cs ++ [c]) = m.storedTime cs := by
  simp [storedTime, pendingFall_concat_of_ne cs h, h]

theorem storedTime_concat_fall (h : c.gpio = m.xGP.toUInt32) (he : c.edge = .fall) :
    m.storedTime (cs ++ [c]) = clock c.time := by
  simp [storedTime, pendingFall_concat_fall cs h he]

theorem storedTime_concat_rise (h : c.gpio = m.xGP.toUInt32) (he : c.edge = .rise) :
    m.storedTime (cs ++ [c]) = 0 := by
  simp [storedTime, pendingFall_concat_rise cs h he, h]

end StoredTime

variable (bits : EdgeBits) (m : SwitchMgr) (x : UInt32) {c : Callback}

theorem callback_of_ne (hg : c.gpio ≠ m.xGP.toUInt32) :
    (m.store x).callback bits c = (m.store x, []) :=
  m.handleGPIO_of_ne bits x hg ..

theorem callback_fall (hg : c.gpio = m.xGP.toUInt32) (he : c.edge = .fall) :
    (m.store x).callback bits c = (m.store (clock c.time), []) := by
  rw [callback, hg, he]
  exact m.handleGPIO_fall bits x ..

theorem callback_rise (h : m.pObs = true) (hg : c.gpio = m.xGP.toUInt32) (he : c.edge = .rise) :
    (m.store x).callback bits c = (m.store 0, classify m.xGP (clock c.time - x).toNat) := by
  rw [callback, hg, he]
  exact m.handleGPIO_rise bits x h ..

/-- **What the manager has stored**, after any callbacks. -/
theorem after_eq (h : m.pObs = true) (cs : List Callback) :
    m.after bits cs = m.store (m.storedTime cs) := by
  induction cs using List.reverseRecOn with
  | nil => rfl
  | append_singleton cs c ih =>
      have hrun : m.after bits (cs ++ [c]) = ((m.after bits cs).callback bits c).1 :=
        Runs.run_concat ..
      rw [hrun, ih]
      by_cases hg : c.gpio = m.xGP.toUInt32
      · cases he : c.edge with
        | fall => rw [callback_fall bits m _ hg he, storedTime_concat_fall cs hg he]
        | rise => rw [callback_rise bits m _ h hg he, storedTime_concat_rise cs hg he]
      · rw [callback_of_ne bits m _ hg, storedTime_concat_of_ne cs hg]

end SwitchMgr

/-! ### Classification by true hold time -/

/-- **Every callback reports the true hold time**: a rising edge at the pin is reported as the
press that the time since the last falling edge makes it, and no other callback is reported. -/
def ClassifiedTruly (bits : EdgeBits) (m : SwitchMgr) (cs : List Callback) : Prop :=
  Runs.Throughout (fun pre c => ((m.after bits pre).callback bits c).2 = trueReport m.xGP pre c) cs

/-- A rising edge at the pin makes up a press: what looks like one is the rest of a hold that was
too long for the clock, or, with no hold to end, the clock itself, or, with no edge at the pin
before it, the clock less what was stored in the beginning. -/
def MakesUp (m : SwitchMgr) (pre : List Callback) (c : Callback) : Prop :=
  c.gpio = m.xGP.toUInt32 ∧ c.edge = .rise ∧
    match pendingFall m.xGP pre with
    | some t₁ => 2 ^ 32 ≤ c.time - t₁ ∧ IsPress ((c.time - t₁) % 2 ^ 32)
    | none =>
      if pre.any fun d => d.gpio = m.xGP.toUInt32 then IsPress (c.time % 2 ^ 32)
      else IsPress (clock c.time - m.xFallingTime).toNat

/-- One callback is reported truly exactly when it makes nothing up. -/
theorem report_iff (bits : EdgeBits) {m : SwitchMgr} (h : m.pObs = true) (pre : List Callback)
    (c : Callback) (hord : ∀ d ∈ pre, d.time ≤ c.time) :
    ((m.after bits pre).callback bits c).2 = trueReport m.xGP pre c ↔ ¬ MakesUp m pre c := by
  rw [SwitchMgr.after_eq bits m h]
  by_cases hg : c.gpio = m.xGP.toUInt32
  · cases he : c.edge with
    | fall =>
        rw [SwitchMgr.callback_fall bits m _ hg he]
        simp [trueReport, MakesUp, he]
    | rise =>
        rw [SwitchMgr.callback_rise bits m _ h hg he]
        rw [trueReport, if_pos ⟨hg, he⟩, MakesUp]
        cases hp : pendingFall m.xGP pre with
        | none =>
            simp only [classify_eq_nil_iff, hg, he, true_and, SwitchMgr.storedTime, hp]
            split
            · rw [toNat_clock_sub_zero]
            · rfl
        | some t₁ =>
            obtain ⟨d, hd, rfl⟩ := exists_of_pendingFall pre hp
            have hstored : m.storedTime pre = clock d.time := by rw [SwitchMgr.storedTime, hp]
            rw [hstored, toNat_clock_sub (hord d hd), classify_mod_iff]
            simp only [hg, he, true_and, not_and_or, Nat.not_le]
  · rw [SwitchMgr.callback_of_ne bits m _ hg]
    simp [trueReport, MakesUp, hg]

/-- **Exactly when holds are classified truly.**  For a manager with an observer, whatever its
uninitialised field holds, and any callbacks in the order of their times, every callback is
reported as it should be exactly when no rising edge makes up a press. -/
theorem classifiedTruly_iff (bits : EdgeBits) (m : SwitchMgr) (h : m.pObs = true)
    (cs : List Callback) (hord : InOrder cs) :
    ClassifiedTruly bits m cs ↔ Runs.Throughout (fun pre c => ¬ MakesUp m pre c) cs :=
  Runs.throughout_congr hord.throughout fun pre c hle => report_iff bits h pre c hle

/-- A press of a tenth of a second, at pin 0. -/
theorem classifiedTruly_iff_press :
    ClassifiedTruly .pico ((SwitchMgr.init 0 0).setObserver true)
        [⟨0, .fall, 3000⟩, ⟨0, .rise, 3100⟩]
      ↔ Runs.Throughout (fun pre c => ¬ MakesUp ((SwitchMgr.init 0 0).setObserver true) pre c)
        [⟨0, .fall, 3000⟩, ⟨0, .rise, 3100⟩] :=
  classifiedTruly_iff .pico ((SwitchMgr.init 0 0).setObserver true) rfl _ (by decide)

/-- A rising edge with no falling edge before it, a tenth of a second after the time that happens
to be in the uninitialised field, is reported as a short press. -/
theorem stray_rise_not_classifiedTruly :
    ¬ ClassifiedTruly .pico ((SwitchMgr.init 0 2900).setObserver true) [⟨0, .rise, 3000⟩] := by
  intro h
  exact absurd (h [] ⟨0, .rise, 3000⟩ [] rfl) (by decide)

end TwinThing
