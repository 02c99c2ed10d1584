/-
**Reports of the state, and what they restore.**

For every slot the state has a helper that writes the slot's value as a member of a JSON document;
`StateExample` adds its two to those of its base class.  A setter declares its slot dirty, so that
whoever follows the state need only be told the slots that were declared since the last time.
Here a copy of the state is kept up to date by such reports, which it takes as remote updates.

The text of a document is left to the library that writes it and the one that reads it; the model
has the tree in between.  The helpers of the base class are a parameter: all that matters of them
is that their members have other names.

Main definitions:

* `TwinThing.jsonOn`, `TwinThing.jsonRGB`, `TwinThing.TempHelpers` — the helpers;
* `TwinThing.report` — the document that reports some slots;
* `TwinThing.Mirror`, `TwinThing.mirrorStep` — the state, and a copy that takes its reports.

Main results:

* `TwinThing.updateFromJson_report` — **the round trip**: a report restores exactly the slots that
  are in it;
* `TwinThing.copy_follows` — **dirty slots account for every change**: a copy that is told them is
  the state but for the slots declared since.
-/

import TwinThing.StateExample

set_option relaxedAutoImplicit false
set_option autoImplicit false

namespace TwinThing

open Runs

/-! ### The helpers -/

/-- The on status as a member. -/
def jsonOn (s : StateExample) : String × Json := ("on", .boolean s.on)

/-- A byte as `json_uint` writes it. -/
def jsonUint (v : UInt8) : Json := .integer (Int64.ofNat v.toNat)

/-- The colour as a member, an array of three integers. -/
def jsonRGB (s : StateExample) : String × Json :=
  ("rgb", .array [jsonUint s.rgb.r, jsonUint s.rgb.g, jsonUint s.rgb.b])

/-- The helpers of the base class, whose members have names of their own. -/
structure TempHelpers where
  member : ℕ → Option (String × Json)
  named : ∀ slot m, member slot = some m → m.1 ≠ "on" ∧ m.1 ≠ "rgb"

/-- The helper of a slot, where the constructor has put one. -/
def jsonHelper (temp : TempHelpers) (s : StateExample) (slot : ℕ) : Option (String × Json) :=
  if slot = RGBSLOT then some (jsonRGB s)
  else if slot = ONSLOT then some (jsonOn s)
  else temp.member slot

/-- The document that reports some slots, in that order. -/
def report (temp : TempHelpers) (s : StateExample) (slots : List ℕ) : List (String × Json) :=
  slots.filterMap (jsonHelper temp s)

/-! ### What a report restores -/

theorem firstNamed_cons (m : String × Json) (members : List (String × Json)) (name : String) :
    firstNamed (m :: members) name = if m.1 = name then some m.2 else firstNamed members name := by
  by_cases h : m.1 = name
  · simp [firstNamed, h]
  · simp [firstNamed, h]

/-- A member that one slot alone writes is in a report exactly when the slot is. -/
theorem firstNamed_filterMap {f : ℕ → Option (String × Json)} {k : ℕ} {name : String} {v : Json}
    (hk : f k = some (name, v)) (hother : ∀ slot m, slot ≠ k → f slot = some m → m.1 ≠ name)
    (slots : List ℕ) :
    firstNamed (slots.filterMap f) name = if k ∈ slots then some v else none := by
  induction slots with
  | nil => rfl
  | cons slot slots ih =>
      by_cases heq : slot = k
      · rw [heq, List.filterMap_cons_some hk, firstNamed_cons, if_pos rfl,
          if_pos List.mem_cons_self]
      · have hmem : k ∈ slot :: slots ↔ k ∈ slots := by
          rw [List.mem_cons]
          exact or_iff_right fun h => heq h.symm
        simp only [hmem]
        cases hf : f slot with
        | none => rw [List.filterMap_cons_none hf, ih]
        | some m =>
            rw [List.filterMap_cons_some hf, firstNamed_cons, if_neg (hother slot m heq hf), ih]

section Report

variable (temp : TempHelpers) (s : StateExample)

theorem firstNamed_report_on (slots : List ℕ) :
    firstNamed (report temp s slots) "on"
      = if ONSLOT ∈ slots then some (.boolean s.on) else none := by
  refine firstNamed_filterMap rfl ?_ slots
  intro slot m hne hm
  by_cases hrgb : slot = RGBSLOT
  · rw [jsonHelper, if_pos hrgb] at hm
    cases hm
    exact (by decide : "rgb" ≠ "on")
  · rw [jsonHelper, if_neg hrgb, if_neg hne] at hm
    exact (temp.named slot m hm).1

theorem firstNamed_report_rgb (slots : List ℕ) :
    firstNamed (report temp s slots) "rgb"
      = if RGBSLOT ∈ slots then some (jsonRGB s).2 else none := by
  refine firstNamed_filterMap rfl ?_ slots
  intro slot m hne hm
  by_cases hon : slot = ONSLOT
  · rw [jsonHelper, if_neg hne, if_pos hon] at hm
    cases hm
    exact (by decide : "on" ≠ "rgb")
  · rw [jsonHelper, if_neg hne, if_neg hon] at hm
    exact (temp.named slot m hm).2

/-- What is written of a byte is read back as that byte. -/
theorem inByte_jsonUint (v : UInt8) :
    InByte (Int64.ofNat v.toNat) ∧ UInt8.ofNat (Int64.ofNat v.toNat).toInt.toNat = v := by
  have hlt := v.toNat_lt
  have hval : (Int64.ofNat v.toNat).toInt = v.toNat := Int64.toInt_ofNat_of_lt (by omega)
  refine ⟨?_, ?_⟩
  · rw [InByte, hval]
    omega
  · rw [hval, Int.toNat_natCast, UInt8.ofNat_toNat]

theorem wantedOn_report (slots : List ℕ) :
    wantedOn (report temp s slots) = if ONSLOT ∈ slots then some s.on else none := by
  by_cases h : ONSLOT ∈ slots
  · simp only [wantedOn, firstNamed_report_on, if_pos h]
  · simp only [wantedOn, firstNamed_report_on, if_neg h]

theorem acceptedRgb_report (slots : List ℕ) :
    acceptedRgb (report temp s slots) = if RGBSLOT ∈ slots then some s.rgb else none := by
  by_cases h : RGBSLOT ∈ slots
  · obtain ⟨hr, hr'⟩ := inByte_jsonUint s.rgb.r
    obtain ⟨hg, hg'⟩ := inByte_jsonUint s.rgb.g
    obtain ⟨hb, hb'⟩ := inByte_jsonUint s.rgb.b
    rw [if_pos h]
    refine acceptedRgb_of_wanted ?_
    rw [wantedRgb, firstNamed_report_rgb, if_pos h]
    simp only [jsonRGB, jsonUint, hr, hg, hb, hr', hg', hb', and_self, if_true]
  · rw [if_neg h, acceptedRgb, firstNamed_report_rgb, if_neg h]

/-- **The round trip**: taken as a remote update, a report restores exactly the slots in it. -/
theorem updateFromJson_report (c : StateExample) (slots : List ℕ) :
    (updateFromJson c (report temp s slots)).on = (if ONSLOT ∈ slots then s.on else c.on) ∧
      (updateFromJson c (report temp s slots)).rgb
        = (if RGBSLOT ∈ slots then s.rgb else c.rgb) := by
  rw [updateFromJson_fields, wantedOn_report, acceptedRgb_report]
  constructor
  · by_cases h : ONSLOT ∈ slots
    · simp only [if_pos h, Option.getD_some]
    · simp only [if_neg h, Option.getD_none]
  · by_cases h : RGBSLOT ∈ slots
    · simp only [if_pos h, Option.getD_some]
    · simp only [if_neg h, Option.getD_none]

end Report

/-! ### A copy of the state -/

/-- The state, how many of its declarations have been reported, and a copy kept by the reports. -/
structure Mirror where
  state : StateExample
  reported : ℕ
  copy : StateExample

/-- A setter call, a remote update, or a report of some slots. -/
inductive MirrorAct
  | set (c : Setter)
  | update (json : List (String × Json))
  | report (temp : TempHelpers) (slots : List ℕ)

namespace Mirror

/-- A copy of a state of which everything has been reported. -/
def start (s : StateExample) : Mirror := ⟨s, s.dirty.length, s⟩

/-- The slots that were declared dirty since the last report. -/
def pending (m : Mirror) : List ℕ := m.state.dirty.drop m.reported

end Mirror

def mirrorStep (m : Mirror) : MirrorAct → Mirror
  | .set c => { m with state := c.run m.state }
  | .update json => { m with state := updateFromJson m.state json }
  | .report temp slots =>
    { m with
      reported := m.state.dirty.length
      copy := updateFromJson m.copy (report temp m.state slots) }

/-- A report has in it what was declared dirty since the last one. -/
def Covers (m : Mirror) : MirrorAct → Prop
  | .report _ slots => ∀ slot ∈ m.pending, slot ∈ slots
  | _ => True

/-- **The copy follows the state**: it agrees with it on every slot that was not declared dirty
since the last report. -/
structure Mirror.Follows (m : Mirror) : Prop where
  reported : m.reported ≤ m.state.dirty.length
  on : ONSLOT ∉ m.pending → m.copy.on = m.state.on
  rgb : RGBSLOT ∉ m.pending → m.copy.rgb = m.state.rgb

namespace Mirror

theorem follows_start (s : StateExample) : (start s).Follows where
  reported := Nat.le_refl _
  on := fun _ => rfl
  rgb := fun _ => rfl

/-- A setter declares the slot it writes. -/
theorem pending_set {m : Mirror} (h : m.Follows) (c : Setter) :
    (mirrorStep m (.set c)).pending = m.pending ++ [match c with
      | .setOn _ => ONSLOT
      | .setRGB _ => RGBSLOT] := by
  cases c with
  | setOn b => exact List.drop_append_of_le_length h.reported
  | setRGB c => exact List.drop_append_of_le_length h.reported

theorem follows_set {m : Mirror} (h : m.Follows) (c : Setter) :
    (mirrorStep m (.set c)).Follows := by
  have hpending := pending_set h c
  cases c with
  | setOn b =>
      refine ⟨?_, ?_, ?_⟩
      · exact Nat.le_trans h.reported (List.length_append ▸ Nat.le_add_right _ _)
      · intro hon
        rw [hpending] at hon
        exact absurd (List.mem_append_right _ (List.mem_singleton_self _)) hon
      · intro hrgb
        rw [hpending] at hrgb
        exact h.rgb fun hmem => hrgb (List.mem_append_left _ hmem)
  | setRGB c =>
      refine ⟨?_, ?_, ?_⟩
      · exact Nat.le_trans h.reported (List.length_append ▸ Nat.le_add_right _ _)
      · intro hon
        rw [hpending] at hon
        exact h.on fun hmem => hon (List.mem_append_left _ hmem)
      · intro hrgb
        rw [hpending] at hrgb
        exact absurd (List.mem_append_right _ (List.mem_singleton_self _)) hrgb

/-- A remote update is the setter calls it makes. -/
theorem mirrorStep_update (m : Mirror) (json : List (String × Json)) :
    mirrorStep m (.update json)
      = run (fun m c => mirrorStep m (.set c)) m (updateSetters json) := by
  rw [mirrorStep, updateFromJson]
  generalize updateSetters json = cs
  induction cs generalizing m with
  | nil => rfl
  | cons c cs ih => exact ih (mirrorStep m (.set c))

theorem follows_report {m : Mirror} (h : m.Follows) {temp : TempHelpers} {slots : List ℕ}
    (hcovers : Covers m (.report temp slots)) : (mirrorStep m (.report temp slots)).Follows := by
  obtain ⟨hon, hrgb⟩ := updateFromJson_report temp m.state m.copy slots
  refine ⟨Nat.le_refl _, fun _ => ?_, fun _ => ?_⟩
  · refine hon.trans ?_
    split
    · rfl
    · exact h.on fun hmem => ‹ONSLOT ∉ slots› (hcovers _ hmem)
  · refine hrgb.trans ?_
    split
    · rfl
    · exact h.rgb fun hmem => ‹RGBSLOT ∉ slots› (hcovers _ hmem)

/-- The step lemma. -/
theorem follows_step {m : Mirror} (h : m.Follows) {a : MirrorAct} (ha : Covers m a) :
    (mirrorStep m a).Follows := by
  cases a with
  | set c => exact follows_set h c
  | update json =>
      rw [mirrorStep_update]
      exact run_invariant _ Follows (fun m c h => follows_set h c) h _
  | report temp slots => exact follows_report h ha

end Mirror

theorem Mirror.follows_run (s : StateExample) {acts : List MirrorAct}
    (h : Along mirrorStep Covers (.start s) acts) : (run mirrorStep (.start s) acts).Follows := by
  induction acts using List.reverseRecOn with
  | nil => exact Mirror.follows_start s
  | append_singleton acts a ih =>
      obtain ⟨hpre, ha⟩ := along_append.1 h
      rw [run_concat]
      exact Mirror.follows_step (ih hpre) ha.1

/-- **Dirty slots account for every change.**  In every run of setter calls, remote updates and
reports, in which every report has in it at least the slots declared dirty since the one before,
in whatever order and with whatever others: the copy that takes the reports agrees with the state
on every slot not declared since. -/
theorem copy_follows (s : StateExample) (acts : List MirrorAct)
    (h : Along mirrorStep Covers (.start s) acts) :
    let m := run mirrorStep (.start s) acts
    (ONSLOT ∉ m.pending → m.copy.on = m.state.on) ∧
      (RGBSLOT ∉ m.pending → m.copy.rgb = m.state.rgb) :=
  ⟨(Mirror.follows_run s h).on, (Mirror.follows_run s h).rgb⟩

instance (m : Mirror) : (a : MirrorAct) → Decidable (Covers m a)
  | .set _ => isTrue trivial
  | .update _ => isTrue trivial
  | .report _ slots => inferInstanceAs (Decidable (∀ slot ∈ m.pending, slot ∈ slots))

/-- A base class that reports a temperature in its first slot. -/
def temperature : TempHelpers where
  member slot := if slot = 0 then some ("temp", .real "21.5") else none
  named := by
    intro slot m hm
    split at hm
    · cases hm
      decide
    · cases hm

/-- A colour set remotely is reported along with the temperature; the light is switched on after
that, and the copy is a light of that colour that is still off. -/
theorem copy_follows_colour :
    let acts : List MirrorAct :=
      [.update [("rgb", .array [.integer 255, .integer 127, .integer 0])],
        .report temperature [0, RGBSLOT], .set (.setOn true)]
    (run mirrorStep (.start .init) acts).copy.rgb = ⟨255, 127, 0⟩ := by
  intro acts
  refine ((copy_follows .init acts (by decide +kernel)).2 (by decide +kernel)).trans ?_
  decide +kernel

end TwinThing
