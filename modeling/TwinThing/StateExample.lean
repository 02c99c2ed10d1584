/-
**The twin's state: the light switch, and remote updates to it.**

`StateExample` holds whether the light is on and its colour in three bytes; every setter tells the
twin library which slot it made dirty.  `updateFromJson` reads a remote document, checks it, and
calls the setters; what it calls depends on the document alone, so it is modelled by the list of
its setter calls.  The check of a colour is a loop of three rounds over the elements of an array.
It compares an `int` that received a sixty-four bit integer, and it moves on to the next element
even when there is none.

Main definitions:

* `TwinThing.StateExample`, `TwinThing.Setter` — the state and its setters;
* `TwinThing.scan` — the loop that checks a colour;
* `TwinThing.updateFromJson`, `TwinThing.updateCalls` — a remote update, and the pointers it
  follows;
* `TwinThing.AcceptsSet` — what a remote update should do.

Main results:

* `TwinThing.scan_spec` — the loop in closed form: what it accepts and what it reads;
* `TwinThing.acceptsSet_iff` — **a remote update is accepted exactly when it is well formed**,
  except for integers that only fit a byte modulo `2 ^ 32`;
* `TwinThing.updateCalls_safe_iff` — **no null node is followed** exactly when the colour is not an
  array of fewer than three elements.
-/

import TwinThing.Lib.Runs
import TwinThing.TinyJson
import Mathlib.Algebra.Group.Int.Defs

set_option relaxedAutoImplicit false
set_option autoImplicit false

namespace TwinThing

/-! ### The state and its setters -/

/-- A colour in three bytes. -/
structure Rgb8 where
  r : UInt8
  g : UInt8
  b : UInt8
  deriving DecidableEq, Repr

/-- Assigning one element of the array. -/
def Rgb8.set (c : Rgb8) (i : Fin 3) (v : UInt8) : Rgb8 :=
  match i with
  | 0 => { c with r := v }
  | 1 => { c with g := v }
  | 2 => { c with b := v }

/-- The slot of the colour in the twin's state. -/
def RGBSLOT : ℕ := 3

/-- The slot of the on status. -/
def ONSLOT : ℕ := 4

/-- The state, with the calls of `setDirty` made so far. -/
structure StateExample where
  rgb : Rgb8
  on : Bool
  dirty : List ℕ
  deriving DecidableEq, Repr

/-- The state as constructed. -/
def StateExample.init : StateExample := ⟨⟨0, 0, 0⟩, false, []⟩

namespace StateExample

/-- The library is told that a slot has changed. -/
def setDirty (s : StateExample) (slot : ℕ) : StateExample := { s with dirty := s.dirty ++ [slot] }

def setOn (s : StateExample) (b : Bool) : StateExample := { s with on := b }.setDirty ONSLOT

def setRGB (s : StateExample) (c : Rgb8) : StateExample := { s with rgb := c }.setDirty RGBSLOT

end StateExample

/-- A call of one of the setters. -/
inductive Setter
  | setOn (b : Bool)
  | setRGB (c : Rgb8)
  deriving DecidableEq, Repr

/-- The state after a setter call. -/
def Setter.run (s : StateExample) : Setter → StateExample
  | .setOn b => s.setOn b
  | .setRGB c => s.setRGB c

/-! ### The loop that checks a colour -/

/-- The local variables of the loop, with the calls it has made. -/
structure Scan where
  jp : Node
  newRGB : Rgb8
  rgbOK : Bool
  calls : List ApiCall

namespace Scan

/-- A call that follows the pointer the loop is at. -/
def call (st : Scan) (fn : ApiFn) : Scan := { st with calls := st.calls ++ [⟨fn, st.jp⟩] }

/-- The check of one element. -/
def checkElement (st : Scan) (i : Fin 3) : Scan :=
  match st.jp with
  | [] => { st with rgbOK := false }
  | e :: _ =>
    let st := st.call .getType
    match e with
    | .integer v =>
      let st := st.call .getInteger
      -- the source keeps the value in an `int`
      let col : Int32 := v.toInt32
      if 0 ≤ col ∧ col ≤ 0xFF then
        { st with newRGB := st.newRGB.set i col.toUInt32.toUInt8 }
      else { st with rgbOK := false }
    | _ => { st with rgbOK := false }

/-- Moving on to the next element, whether or not there was one to check. -/
def advance (st : Scan) : Scan := { st.call .getSibling with jp := st.jp.tail }

/-- One round of the loop. -/
def round (st : Scan) (i : Fin 3) : Scan := (st.checkElement i).advance

end Scan

/-- The loop over the elements of an array, from the child pointer. -/
def scan (child : Node) : Scan := Runs.run Scan.round ⟨child, ⟨0, 0, 0⟩, true, []⟩ [0, 1, 2]

/-! ### Remote updates -/

/-- What `updateFromJson` does about the member `on`: the setter it calls, if any, and the pointers
it follows. -/
def onRequest (json : List (String × Json)) : List Setter × List ApiCall :=
  match getProperty json "on" with
  | [] => ([], [])
  | .boolean b :: rest =>
    ([.setOn b], [⟨.getType, .boolean b :: rest⟩, ⟨.getBoolean, .boolean b :: rest⟩])
  | e :: rest => ([], [⟨.getType, e :: rest⟩])

/-- What `updateFromJson` does about the member `rgb`. -/
def rgbRequest (json : List (String × Json)) : List Setter × List ApiCall :=
  match getProperty json "rgb" with
  | [] => ([], [])
  | .array elems :: rest =>
    let st := scan elems
    (if st.rgbOK then [.setRGB st.newRGB] else [],
      [⟨.getType, .array elems :: rest⟩, ⟨.getChild, .array elems :: rest⟩] ++ st.calls)
  | e :: rest => ([], [⟨.getType, e :: rest⟩])

/-- The setter calls of an update, in order. -/
def updateSetters (json : List (String × Json)) : List Setter :=
  (onRequest json).1 ++ (rgbRequest json).1

/-- The calls that follow a pointer, in order. -/
def updateCalls (json : List (String × Json)) : List ApiCall :=
  (onRequest json).2 ++ (rgbRequest json).2

/-- A remote update of the state. -/
def updateFromJson (s : StateExample) (json : List (String × Json)) : StateExample :=
  Runs.run Setter.run s (updateSetters json)

/-! ### What one element contributes -/

/-- The test the loop makes of the element it is at: an integer whose value, as an `int`, is a
byte. -/
def passes : Node → Bool
  | .integer v :: _ => decide (0 ≤ v.toInt32 ∧ v.toInt32 ≤ 0xFF)
  | _ => false

/-- The byte the loop takes from an element that passed. -/
def byteAt : Node → UInt8
  | .integer v :: _ => v.toInt32.toUInt32.toUInt8
  | _ => 0

/-- What one round does to the loop's variables. -/
theorem round_fields (st : Scan) (i : Fin 3) :
    (st.round i).jp = st.jp.tail ∧
      (st.round i).rgbOK = (st.rgbOK && passes st.jp) ∧
      (st.round i).newRGB
        = (if passes st.jp then st.newRGB.set i (byteAt st.jp) else st.newRGB) := by
  obtain ⟨jp, rgb, ok, calls⟩ := st
  cases jp with
  | nil => simp [Scan.round, Scan.advance, Scan.checkElement, Scan.call, passes]
  | cons e rest =>
      cases e with
      | integer v =>
          by_cases h : 0 ≤ v.toInt32 ∧ v.toInt32 ≤ 0xFF
          · simp [Scan.round, Scan.advance, Scan.checkElement, Scan.call, passes, byteAt, h]
          · simp [Scan.round, Scan.advance, Scan.checkElement, Scan.call, passes, h]
      | _ => simp [Scan.round, Scan.advance, Scan.checkElement, Scan.call, passes]

/-- The calls of one round are safe exactly when there is an element to check. -/
theorem round_safe_iff (st : Scan) (i : Fin 3) :
    (∀ c ∈ (st.round i).calls, c.Safe) ↔ (∀ c ∈ st.calls, c.Safe) ∧ st.jp ≠ [] := by
  obtain ⟨jp, rgb, ok, calls⟩ := st
  cases jp with
  | nil =>
      constructor
      · intro h
        exact absurd rfl (h ⟨.getSibling, []⟩ (by simp [Scan.round, Scan.advance,
          Scan.checkElement, Scan.call]))
      · rintro ⟨-, h⟩
        exact absurd rfl h
  | cons e rest =>
      have hcalls : ∃ new : List ApiFn, (Scan.round ⟨e :: rest, rgb, ok, calls⟩ i).calls
          = calls ++ new.map fun fn => ⟨fn, e :: rest⟩ := by
        cases e with
        | integer v =>
            refine ⟨[.getType, .getInteger, .getSibling], ?_⟩
            by_cases h : 0 ≤ v.toInt32 ∧ v.toInt32 ≤ 0xFF
            · simp [Scan.round, Scan.advance, Scan.checkElement, Scan.call, h]
            · simp [Scan.round, Scan.advance, Scan.checkElement, Scan.call, h]
        | _ =>
            exact ⟨[.getType, .getSibling],
              by simp [Scan.round, Scan.advance, Scan.checkElement, Scan.call]⟩
      obtain ⟨new, hnew⟩ := hcalls
      constructor
      · intro h
        refine ⟨fun c hc => h c ?_, List.cons_ne_nil e rest⟩
        rw [hnew]
        exact List.mem_append_left _ hc
      · rintro ⟨h, -⟩ c hc
        rw [hnew, List.mem_append, List.mem_map] at hc
        rcases hc with hc | ⟨fn, -, rfl⟩
        · exact h c hc
        · exact List.cons_ne_nil e rest

/-- **The loop in closed form.**  It accepts exactly when each of the first three elements passes,
and has then read a byte from each of them. -/
theorem scan_spec (child : Node) :
    (scan child).rgbOK = (passes child && passes child.tail && passes child.tail.tail) ∧
      ((scan child).rgbOK = true →
        (scan child).newRGB = ⟨byteAt child, byteAt child.tail, byteAt child.tail.tail⟩) := by
  simp only [scan, Runs.run_cons, Runs.run_nil]
  obtain ⟨hjp₀, hok₀, hrgb₀⟩ := round_fields ⟨child, ⟨0, 0, 0⟩, true, []⟩ 0
  obtain ⟨hjp₁, hok₁, hrgb₁⟩ := round_fields (Scan.round ⟨child, ⟨0, 0, 0⟩, true, []⟩ 0) 1
  obtain ⟨-, hok₂, hrgb₂⟩ :=
    round_fields ((Scan.round ⟨child, ⟨0, 0, 0⟩, true, []⟩ 0).round 1) 2
  simp only [hjp₀, hok₀, Bool.true_and] at hjp₁ hok₁ hrgb₁
  simp only [hjp₁, hok₁] at hok₂ hrgb₂
  refine ⟨hok₂, ?_⟩
  intro hok
  rw [hok₂, Bool.and_eq_true, Bool.and_eq_true] at hok
  obtain ⟨⟨h₀, h₁⟩, h₂⟩ := hok
  rw [hrgb₂, if_pos h₂, hrgb₁, if_pos h₁, hrgb₀, if_pos h₀]
  rfl

/-- The loop follows no null pointer exactly when there are three elements. -/
theorem scan_safe_iff (child : Node) :
    (∀ c ∈ (scan child).calls, c.Safe) ↔ 3 ≤ child.length := by
  simp only [scan, Runs.run_cons, Runs.run_nil, round_safe_iff, (round_fields _ _).1]
  match child with
  | [] => simp
  | [_] => simp
  | [_, _] => simp
  | _ :: _ :: _ :: _ => simp

/-! ### Integers and bytes -/

/-- The integer is a byte. -/
def InByte (v : Int64) : Prop := 0 ≤ v.toInt ∧ v.toInt ≤ 0xFF

instance (v : Int64) : Decidable (InByte v) := inferInstanceAs (Decidable (_ ∧ _))

/-- The integer is a byte modulo `2 ^ 32`. -/
def WrapsIntoByte (v : Int64) : Prop := v.toInt % 2 ^ 32 ≤ 0xFF

theorem InByte.wraps {v : Int64} (h : InByte v) : WrapsIntoByte v := by
  unfold InByte at h
  unfold WrapsIntoByte
  omega

/-- The test of the loop is made modulo `2 ^ 32`. -/
theorem toInt32_mem_byte_iff (v : Int64) :
    (0 ≤ v.toInt32 ∧ v.toInt32 ≤ 0xFF) ↔ WrapsIntoByte v := by
  have h0 : (0 : Int32).toInt = 0 := rfl
  have h255 : (0xFF : Int32).toInt = 0xFF := rfl
  rw [Int32.le_iff_toInt_le, Int32.le_iff_toInt_le, Int64.toInt_toInt32, h0, h255, WrapsIntoByte]
  simp only [Int.bmod]
  split
  · omega
  · omega

theorem low_byte {v : Int64} (h : InByte v) :
    v.toInt32.toUInt32.toUInt8 = UInt8.ofNat v.toInt.toNat := by
  unfold InByte at h
  have hv : v.toInt32.toInt = v.toInt := by
    rw [Int64.toInt_toInt32]
    exact Int.bmod_eq_of_le (by omega) (by omega)
  have hnn : 0 ≤ v.toInt32 := by
    rw [Int32.le_iff_toInt_le, hv]
    exact h.1
  refine UInt8.toNat_inj.1 ?_
  rw [UInt32.toNat_toUInt8, Int32.toNat_toUInt32_of_le hnn, UInt8.toNat_ofNat', ← Int32.toNat_toInt,
    hv]

theorem passes_integer (v : Int64) (rest : Node) :
    passes (.integer v :: rest) = true ↔ WrapsIntoByte v := by
  rw [passes, decide_eq_true_iff, toInt32_mem_byte_iff]

theorem eq_integer_of_passes {jp : Node} (h : passes jp = true) :
    ∃ v, jp = .integer v :: jp.tail ∧ WrapsIntoByte v := by
  cases jp with
  | nil => cases h
  | cons e rest =>
      cases e with
      | integer v => exact ⟨v, rfl, (passes_integer v rest).1 h⟩
      | _ => cases h

/-! ### What an update asks for, and what is accepted -/

/-- The on status a document asks for. -/
def wantedOn (json : List (String × Json)) : Option Bool :=
  match firstNamed json "on" with
  | some (.boolean b) => some b
  | _ => none

/-- The colour a document asks for: an array whose first three elements are integers between 0 and
255. -/
def wantedRgb (json : List (String × Json)) : Option Rgb8 :=
  match firstNamed json "rgb" with
  | some (.array (.integer v₀ :: .integer v₁ :: .integer v₂ :: _)) =>
    if InByte v₀ ∧ InByte v₁ ∧ InByte v₂ then
      some ⟨UInt8.ofNat v₀.toInt.toNat, UInt8.ofNat v₁.toInt.toNat, UInt8.ofNat v₂.toInt.toNat⟩
    else none
  | _ => none

/-- What a remote update should do: assign exactly what a well-formed document asks for, and
declare dirty exactly what it assigns. -/
structure AcceptsSet (json : List (String × Json)) (s s' : StateExample) : Prop where
  on : s'.on = (wantedOn json).getD s.on
  rgb : s'.rgb = (wantedRgb json).getD s.rgb
  dirty : s'.dirty = s.dirty ++ (if (wantedOn json).isSome then [ONSLOT] else [])
    ++ (if (wantedRgb json).isSome then [RGBSLOT] else [])

/-- The colour the code accepts from a document. -/
def acceptedRgb (json : List (String × Json)) : Option Rgb8 :=
  match firstNamed json "rgb" with
  | some (.array elems) => if (scan elems).rgbOK then some (scan elems).newRGB else none
  | _ => none

theorem onRequest_setters (json : List (String × Json)) :
    (onRequest json).1 = ((wantedOn json).map Setter.setOn).toList := by
  cases h : firstNamed json "on" with
  | none => simp only [onRequest, getProperty_eq_nil h, wantedOn, h]; rfl
  | some v =>
      obtain ⟨rest, hrest⟩ := getProperty_eq_cons h
      cases v <;> simp only [onRequest, hrest, wantedOn, h] <;> rfl

theorem rgbRequest_setters (json : List (String × Json)) :
    (rgbRequest json).1 = ((acceptedRgb json).map Setter.setRGB).toList := by
  cases h : firstNamed json "rgb" with
  | none => simp only [rgbRequest, getProperty_eq_nil h, acceptedRgb, h]; rfl
  | some v =>
      obtain ⟨rest, hrest⟩ := getProperty_eq_cons h
      cases v with
      | array elems =>
          simp only [rgbRequest, hrest, acceptedRgb, h]
          cases (scan elems).rgbOK <;> rfl
      | _ => simp only [rgbRequest, hrest, acceptedRgb, h]; rfl

/-- What an update does to the state. -/
theorem updateFromJson_fields (s : StateExample) (json : List (String × Json)) :
    updateFromJson s json =
      ⟨(acceptedRgb json).getD s.rgb, (wantedOn json).getD s.on,
        s.dirty ++ (if (wantedOn json).isSome then [ONSLOT] else [])
          ++ (if (acceptedRgb json).isSome then [RGBSLOT] else [])⟩ := by
  rw [updateFromJson, updateSetters, onRequest_setters, rgbRequest_setters]
  cases wantedOn json <;> cases acceptedRgb json <;>
    simp [Runs.run, Setter.run, StateExample.setOn, StateExample.setRGB, StateExample.setDirty]

/-- An update does what it should exactly when the colour accepted is the colour asked for. -/
theorem acceptsSet_iff_accepted (s : StateExample) (json : List (String × Json)) :
    AcceptsSet json s (updateFromJson s json) ↔ acceptedRgb json = wantedRgb json := by
  rw [updateFromJson_fields]
  constructor
  · rintro ⟨-, hrgb, hdirty⟩
    simp only [List.append_cancel_left_eq] at hdirty
    cases ha : acceptedRgb json with
    | none =>
        cases hw : wantedRgb json with
        | none => rfl
        | some c => simp [ha, hw] at hdirty
    | some c =>
        cases hw : wantedRgb json with
        | none => simp [ha, hw] at hdirty
        | some c' => simpa [ha, hw] using hrgb
  · intro h
    rw [h]
    exact ⟨rfl, rfl, rfl⟩

/-- The document asks for a colour that only fits three bytes modulo `2 ^ 32`. -/
def Aliased (json : List (String × Json)) : Prop :=
  ∃ v₀ v₁ v₂ rest,
    firstNamed json "rgb" = some (.array (.integer v₀ :: .integer v₁ :: .integer v₂ :: rest)) ∧
      (WrapsIntoByte v₀ ∧ WrapsIntoByte v₁ ∧ WrapsIntoByte v₂) ∧
      ¬ (InByte v₀ ∧ InByte v₁ ∧ InByte v₂)

/-- What the code accepts from three integers. -/
theorem acceptedRgb_integers {json : List (String × Json)} {v₀ v₁ v₂ : Int64} {rest : Node}
    (h : firstNamed json "rgb" = some (.array (.integer v₀ :: .integer v₁ :: .integer v₂ :: rest)))
    (hw : WrapsIntoByte v₀ ∧ WrapsIntoByte v₁ ∧ WrapsIntoByte v₂) :
    acceptedRgb json = some ⟨v₀.toInt32.toUInt32.toUInt8, v₁.toInt32.toUInt32.toUInt8,
      v₂.toInt32.toUInt32.toUInt8⟩ := by
  obtain ⟨hok, hrgb⟩ := scan_spec (.integer v₀ :: .integer v₁ :: .integer v₂ :: rest)
  have hpass : (scan (.integer v₀ :: .integer v₁ :: .integer v₂ :: rest)).rgbOK = true := by
    rw [hok, Bool.and_eq_true, Bool.and_eq_true]
    exact ⟨⟨(passes_integer _ _).2 hw.1, (passes_integer _ _).2 hw.2.1⟩,
      (passes_integer _ _).2 hw.2.2⟩
  simp only [acceptedRgb, h, hpass, if_true, hrgb hpass]
  rfl

/-- Whatever is accepted comes from three integers that are bytes modulo `2 ^ 32`. -/
theorem integers_of_acceptedRgb {json : List (String × Json)} {c : Rgb8}
    (h : acceptedRgb json = some c) : ∃ v₀ v₁ v₂ rest,
      firstNamed json "rgb" = some (.array (.integer v₀ :: .integer v₁ :: .integer v₂ :: rest)) ∧
        (WrapsIntoByte v₀ ∧ WrapsIntoByte v₁ ∧ WrapsIntoByte v₂) := by
  unfold acceptedRgb at h
  split at h
  · rename_i elems hfirst
    split at h
    · rename_i hok
      rw [(scan_spec elems).1, Bool.and_eq_true, Bool.and_eq_true] at hok
      obtain ⟨⟨h₀, h₁⟩, h₂⟩ := hok
      obtain ⟨v₀, he₀, hw₀⟩ := eq_integer_of_passes h₀
      obtain ⟨v₁, he₁, hw₁⟩ := eq_integer_of_passes h₁
      obtain ⟨v₂, he₂, hw₂⟩ := eq_integer_of_passes h₂
      refine ⟨v₀, v₁, v₂, elems.tail.tail.tail, ?_, hw₀, hw₁, hw₂⟩
      rw [hfirst, ← he₂, ← he₁, ← he₀]
    · cases h
  · cases h

/-- Three integers that are bytes are accepted as asked. -/
theorem acceptedRgb_of_wanted {json : List (String × Json)} {c : Rgb8}
    (h : wantedRgb json = some c) : acceptedRgb json = some c := by
  unfold wantedRgb at h
  split at h
  · rename_i v₀ v₁ v₂ rest hfirst
    split at h
    · rename_i hb
      rw [acceptedRgb_integers hfirst ⟨hb.1.wraps, hb.2.1.wraps, hb.2.2.wraps⟩, low_byte hb.1,
        low_byte hb.2.1, low_byte hb.2.2]
      exact h
    · cases h
  · cases h

/-- **A remote update is accepted exactly when it is well formed, all or nothing**, unless it asks
for a colour that only fits three bytes modulo `2 ^ 32`, which is accepted too. -/
theorem acceptsSet_iff (s : StateExample) (json : List (String × Json)) :
    AcceptsSet json s (updateFromJson s json) ↔ ¬ Aliased json := by
  rw [acceptsSet_iff_accepted]
  constructor
  · rintro heq ⟨v₀, v₁, v₂, rest, hfirst, hw, hb⟩
    rw [acceptedRgb_integers hfirst hw] at heq
    simp only [wantedRgb, hfirst, if_neg hb] at heq
    cases heq
  · intro hnot
    cases hwant : wantedRgb json with
    | some c => exact acceptedRgb_of_wanted hwant
    | none =>
        cases hacc : acceptedRgb json with
        | none => rfl
        | some c =>
            -- three integers were accepted that are not all bytes
            obtain ⟨v₀, v₁, v₂, rest, hfirst, hw⟩ := integers_of_acceptedRgb hacc
            refine absurd ⟨v₀, v₁, v₂, rest, hfirst, hw, ?_⟩ hnot
            intro hb
            simp only [wantedRgb, hfirst, if_pos hb] at hwant
            cases hwant

/-- A document asking for the red level `2 ^ 32`: it is not a byte, and the code stores 0. -/
theorem alias_not_acceptsSet :
    ¬ AcceptsSet [("rgb", .array [.integer 4294967296, .integer 0, .integer 0])]
      ⟨⟨0xFF, 0xFF, 0xFF⟩, true, []⟩
      (updateFromJson ⟨⟨0xFF, 0xFF, 0xFF⟩, true, []⟩
        [("rgb", .array [.integer 4294967296, .integer 0, .integer 0])]) := by
  intro h
  exact absurd h.rgb (by decide)

/-! ### The pointers an update follows -/

theorem onRequest_safe (json : List (String × Json)) : ∀ c ∈ (onRequest json).2, c.Safe := by
  unfold onRequest
  split
  · intro c hc
    cases hc
  · intro c hc
    simp only [List.mem_cons, List.not_mem_nil, or_false] at hc
    rcases hc with rfl | rfl
    · exact List.cons_ne_nil _ _
    · exact List.cons_ne_nil _ _
  · intro c hc
    rw [List.mem_singleton] at hc
    subst hc
    exact List.cons_ne_nil _ _

/-- Reading a colour follows a null pointer exactly when it is in too short an array. -/
theorem rgbRequest_safe_iff (json : List (String × Json)) :
    (∀ c ∈ (rgbRequest json).2, c.Safe) ↔
      ∀ elems, firstNamed json "rgb" = some (.array elems) → 3 ≤ elems.length := by
  cases h : firstNamed json "rgb" with
  | none => simp [rgbRequest, getProperty_eq_nil h]
  | some v =>
      obtain ⟨rest, hrest⟩ := getProperty_eq_cons h
      cases v with
      | array elems =>
          simp only [rgbRequest, hrest, List.cons_append, List.nil_append, List.forall_mem_cons,
            ApiCall.Safe, ne_eq, reduceCtorEq, not_false_iff, true_and, Option.some.injEq,
            Json.array.injEq, forall_eq']
          exact scan_safe_iff elems
      | _ => simp [rgbRequest, hrest, ApiCall.Safe]

/-- **An update never follows a null node**, except when the colour is an array of fewer than three
elements. -/
theorem updateCalls_safe_iff (json : List (String × Json)) :
    (∀ c ∈ updateCalls json, c.Safe) ↔
      ∀ elems, firstNamed json "rgb" = some (.array elems) → 3 ≤ elems.length := by
  rw [← rgbRequest_safe_iff, updateCalls, List.forall_mem_append]
  exact and_iff_right (onRequest_safe json)

/-- An empty array of colours: the loop asks for the sibling of the null pointer. -/
theorem empty_array_not_safe : ¬ ∀ c ∈ updateCalls [("rgb", .array [])], c.Safe := by
  intro h
  exact h ⟨.getSibling, []⟩ (by simp [updateCalls, onRequest, rgbRequest, getProperty, scan,
    Runs.run, Scan.round, Scan.advance, Scan.checkElement, Scan.call]) rfl

end TwinThing
