/-
**Merged edges: two edges of the switch in one callback.**

Two edges at the same time may reach `SwitchMgr::handleGPIO` in one callback, whose mask does not
say which of them came first.  The handler takes them as a fall and then a rise.  For a fall and a
rise this is right.  For a rise and a fall it loses the hold that the rise ended, and, because the
fall is forgotten, the hold that the fall began.

Main definitions:

* `TwinThing.Physical` — the edges a switch makes, which alternate;
* `TwinThing.Delivery`, `TwinThing.edgesOf`, `TwinThing.unmerged` — edges delivered singly or in
  pairs, the edges they deliver, and the same edges delivered singly;
* `TwinThing.SwitchMgr.reports` — what a manager reports of some deliveries.

Main results:

* `TwinThing.reports_sublist_and_eq_iff` — merging never invents a report;
* `TwinThing.reports_merged_iff` — **exactly when merging loses no press**: when no hold that
  begins or ends in a merged rise and fall is a press.
-/

import TwinThing.SwitchMgr

set_option relaxedAutoImplicit false
set_option autoImplicit false

namespace TwinThing

/-! ### Edges at the pin of the switch -/

/-- The other edge. -/
def Edge.other : Edge → Edge
  | .fall => .rise
  | .rise => .fall

/-- An edge at the pin of the switch, and its time in milliseconds since boot. -/
structure PinEdge where
  edge : Edge
  time : ℕ
  deriving DecidableEq, Repr

/-- An edge may follow others: it is a fall if there are none, and otherwise it is the other edge
than the one before it, and not earlier. -/
def Follows (pre : List PinEdge) (e : PinEdge) : Prop :=
  match pre.getLast? with
  | none => e.edge = .fall
  | some d => e.edge = d.edge.other ∧ d.time ≤ e.time

/-- **The edges a switch makes** from its released state: falls and rises alternate, in the order
of their times, in the range of times in which the clock does not wrap. -/
structure Physical (es : List PinEdge) : Prop where
  follows : Runs.Throughout Follows es
  inRange : ∀ e ∈ es, 2000 ≤ e.time ∧ e.time < 2 ^ 32

theorem Physical.of_append {es fs : List PinEdge} (h : Physical (es ++ fs)) : Physical es where
  follows := h.follows.of_append
  inRange := fun e he => h.inRange e (List.mem_append_left _ he)

theorem physical_nil : Physical [] := ⟨Runs.throughout_nil, by simp⟩

theorem Physical.concat {es : List PinEdge} {e : PinEdge} (h : Physical es) (hf : Follows es e)
    (hr : 2000 ≤ e.time ∧ e.time < 2 ^ 32) : Physical (es ++ [e]) where
  follows := Runs.throughout_concat.2 ⟨h.follows, hf⟩
  inRange := by
    intro d hd
    rcases List.mem_append.1 hd with hd | hd
    · exact h.inRange d hd
    · rw [List.mem_singleton.1 hd]
      exact hr

/-! ### Deliveries -/

/-- A callback: for one edge, or for an edge and the other one after it, at the same time. -/
inductive Delivery
  | single (e : PinEdge)
  | merged (e : PinEdge)
  deriving DecidableEq, Repr

namespace Delivery

/-- The edges a callback is for. -/
def edges : Delivery → List PinEdge
  | single e => [e]
  | merged e => [e, ⟨e.edge.other, e.time⟩]

def time : Delivery → ℕ
  | single e => e.time
  | merged e => e.time

/-- The mask of events it is called with. -/
def mask (bits : EdgeBits) : Delivery → UInt32
  | single e => bits.mask e.edge
  | merged _ => bits.both

/-- A callback is for its first edge alone, or for that edge and the other one. -/
theorem eq_of_head {d : Delivery} {e : PinEdge} (h : d.edges.head? = some e) :
    d = single e ∨ d = merged e := by
  rcases d with e' | e'
  · left
    rw [Option.some.inj h]
  · right
    rw [Option.some.inj h]

end Delivery

/-- The edges that some callbacks are for. -/
def edgesOf (ds : List Delivery) : List PinEdge := ds.flatMap Delivery.edges

/-- The same edges, each delivered in its own callback. -/
def unmerged (ds : List Delivery) : List Delivery := (edgesOf ds).map .single

theorem edgesOf_append (ds ds' : List Delivery) : edgesOf (ds ++ ds') = edgesOf ds ++ edgesOf ds' :=
  List.flatMap_append

theorem edgesOf_concat (ds : List Delivery) (d : Delivery) :
    edgesOf (ds ++ [d]) = edgesOf ds ++ d.edges := by
  simp [edgesOf]

theorem unmerged_concat (ds : List Delivery) (d : Delivery) :
    unmerged (ds ++ [d]) = unmerged ds ++ d.edges.map .single := by
  simp [unmerged, edgesOf_concat]

/-- When the switch is down, the last callback was for its fall alone, or for a rise and then its
fall. -/
theorem exists_concat_of_fall {ds : List Delivery} {t : ℕ}
    (h : (edgesOf ds).getLast? = some ⟨.fall, t⟩) :
    ∃ ds', ds = ds' ++ [.single ⟨.fall, t⟩] ∨ ds = ds' ++ [.merged ⟨.rise, t⟩] := by
  rcases List.eq_nil_or_concat' ds with rfl | ⟨ds', d, rfl⟩
  · simp [edgesOf] at h
  · refine ⟨ds', ?_⟩
    rw [edgesOf_concat] at h
    rcases d with e | ⟨edge, time⟩
    · left
      simp only [Delivery.edges, List.getLast?_concat, Option.some.injEq] at h
      rw [h]
    · right
      cases edge <;> simp_all [Delivery.edges, Edge.other]

namespace SwitchMgr

/-- The handler of the manager, called back with a delivery. -/
def deliver (bits : EdgeBits) (m : SwitchMgr) (d : Delivery) : SwitchMgr × List Notice :=
  handleGPIO bits m m.xGP.toUInt32 (d.mask bits) (clock d.time) (clock d.time)

/-- The manager after some deliveries. -/
def delivered (bits : EdgeBits) (m : SwitchMgr) (ds : List Delivery) : SwitchMgr :=
  Runs.run (fun m d => (m.deliver bits d).1) m ds

/-- What the manager reports of some deliveries. -/
def reports (bits : EdgeBits) (m : SwitchMgr) (ds : List Delivery) : List Notice :=
  Runs.outputs (fun m d => (m.deliver bits d).1) (fun m d => (m.deliver bits d).2) m ds

end SwitchMgr

/-- The time that is stored after a delivery, whatever was stored before: that of a fall that was
delivered alone, and otherwise zero. -/
def Delivery.storedTime : Delivery → UInt32
  | .single ⟨.fall, t⟩ => clock t
  | _ => 0

namespace SwitchMgr

variable (bits : EdgeBits) (m : SwitchMgr) (x : UInt32)

theorem deliver_single_fall (t : ℕ) :
    (m.store x).deliver bits (.single ⟨.fall, t⟩) = (m.store (clock t), []) :=
  m.handleGPIO_fall bits ..

theorem deliver_single_rise (h : m.pObs = true) (t : ℕ) :
    (m.store x).deliver bits (.single ⟨.rise, t⟩)
      = (m.store 0, classify m.xGP (clock t - x).toNat) :=
  m.handleGPIO_rise bits x h ..

/-- A merged callback is a hold of no time, and no report. -/
theorem deliver_merged (h : m.pObs = true) (e : PinEdge) :
    (m.store x).deliver bits (.merged e) = (m.store 0, []) := by
  have hzero : classify m.xGP (clock e.time - clock e.time).toNat = [] := by
    rw [UInt32.sub_self]
    rfl
  exact (m.handleGPIO_both bits x h ..).trans (congrArg (Prod.mk _) hzero)

/-- A delivery stores its own time, whatever was stored before. -/
theorem deliver_fst (h : m.pObs = true) (d : Delivery) :
    ((m.store x).deliver bits d).1 = m.store d.storedTime := by
  rcases d with ⟨edge, t⟩ | e
  · cases edge with
    | fall => rw [deliver_single_fall]; rfl
    | rise => rw [deliver_single_rise bits m x h]; rfl
  · rw [deliver_merged bits m x h]
    rfl

theorem exists_delivered_eq (h : m.pObs = true) (ds : List Delivery) :
    ∃ x, m.delivered bits ds = m.store x := by
  induction ds using List.reverseRecOn with
  | nil => exact ⟨m.xFallingTime, rfl⟩
  | append_singleton ds d ih =>
      obtain ⟨x, hx⟩ := ih
      refine ⟨d.storedTime, ?_⟩
      rw [delivered, Runs.run_concat, ← delivered, hx, deliver_fst bits m x h]

theorem delivered_concat (h : m.pObs = true) (ds : List Delivery) (d : Delivery) :
    m.delivered bits (ds ++ [d]) = m.store d.storedTime := by
  obtain ⟨x, hx⟩ := exists_delivered_eq bits m h ds
  rw [delivered, Runs.run_concat, ← delivered, hx, deliver_fst bits m x h]

theorem reports_append (ds ds' : List Delivery) :
    m.reports bits (ds ++ ds') = m.reports bits ds ++ (m.delivered bits ds).reports bits ds' :=
  Runs.outputs_append ..

theorem reports_concat (ds : List Delivery) (d : Delivery) :
    m.reports bits (ds ++ [d]) = m.reports bits ds ++ ((m.delivered bits ds).deliver bits d).2 :=
  Runs.outputs_concat ..

theorem reports_cons (d : Delivery) (ds : List Delivery) :
    m.reports bits (d :: ds) = (m.deliver bits d).2 ++ (m.deliver bits d).1.reports bits ds := rfl

theorem reports_nil : m.reports bits [] = [] := rfl

/-- The edges of a callback that begins with a fall, each delivered alone, report nothing. -/
theorem reports_edges_of_fall (h : m.pObs = true) {d : Delivery} {t : ℕ}
    (hd : d.edges.head? = some ⟨.fall, t⟩) :
    (m.store x).reports bits (d.edges.map .single) = [] := by
  rcases Delivery.eq_of_head hd with rfl | rfl
  · simp only [Delivery.edges, List.map_cons, List.map_nil, reports_cons, deliver_single_fall,
      reports_nil, List.append_nil]
  · simp only [Delivery.edges, Edge.other, List.map_cons, List.map_nil, reports_cons,
      deliver_single_fall, deliver_single_rise bits m _ h, reports_nil, UInt32.sub_self]
    rfl

/-- Those of a callback that begins with a rise report the hold the rise ends. -/
theorem reports_edges_of_rise (h : m.pObs = true) {d : Delivery} {t : ℕ}
    (hd : d.edges.head? = some ⟨.rise, t⟩) :
    (m.store x).reports bits (d.edges.map .single) = classify m.xGP (clock t - x).toNat := by
  rcases Delivery.eq_of_head hd with rfl | rfl
  · simp only [Delivery.edges, List.map_cons, List.map_nil, reports_cons,
      deliver_single_rise bits m _ h, reports_nil, List.append_nil]
  · simp only [Delivery.edges, Edge.other, List.map_cons, List.map_nil, reports_cons,
      deliver_single_rise bits m _ h, deliver_single_fall, reports_nil, List.append_nil]

end SwitchMgr

/-! ### What merging loses -/

/-- The callback loses no press: a rise in it ends no hold that is a press, or ends it alone and
after a fall that was delivered alone. -/
def Spared (pre : List Delivery) (d : Delivery) : Prop :=
  ∀ t₁ t₂, (edgesOf pre).getLast? = some ⟨.fall, t₁⟩ → d.edges.head? = some ⟨.rise, t₂⟩ →
    d = .merged ⟨.rise, t₂⟩ ∨ pre.getLast? = some (.merged ⟨.rise, t₁⟩) → ¬ IsPress (t₂ - t₁)

section Loss

variable (bits : EdgeBits) (m : SwitchMgr)

/-- What a callback reports. -/
abbrev reported (pre : List Delivery) (d : Delivery) : List Notice :=
  ((m.delivered bits pre).deliver bits d).2

/-- What its edges report, when all edges are delivered alone. -/
abbrev reportedSingly (pre : List Delivery) (d : Delivery) : List Notice :=
  (m.delivered bits (unmerged pre)).reports bits (d.edges.map .single)

/-- The edge before a rise is a fall. -/
theorem exists_fall_of_follows {es : List PinEdge} {t₂ : ℕ} (h : Follows es ⟨.rise, t₂⟩) :
    ∃ t₁ ≤ t₂, es.getLast? = some ⟨.fall, t₁⟩ := by
  unfold Follows at h
  cases hlast : es.getLast? with
  | none => simp [hlast] at h
  | some d =>
      obtain ⟨edge, t₁⟩ := d
      rw [hlast] at h
      refine ⟨t₁, h.2, ?_⟩
      cases edge with
      | fall => rfl
      | rise => exact absurd h.1 (by simp [Edge.other])

/-- A callback that begins with a fall reports nothing, merged or not. -/
theorem reported_of_fall (h : m.pObs = true) (pre : List Delivery) {d : Delivery} {t : ℕ}
    (hd : d.edges.head? = some ⟨.fall, t⟩) :
    reported bits m pre d = [] ∧ reportedSingly bits m pre d = [] := by
  obtain ⟨x, hx⟩ := SwitchMgr.exists_delivered_eq bits m h pre
  obtain ⟨y, hy⟩ := SwitchMgr.exists_delivered_eq bits m h (unmerged pre)
  rw [reported, reportedSingly, hx, hy]
  refine ⟨?_, SwitchMgr.reports_edges_of_fall bits m y h hd⟩
  rcases Delivery.eq_of_head hd with rfl | rfl
  · rw [SwitchMgr.deliver_single_fall]
  · rw [SwitchMgr.deliver_merged bits m x h]

/-- Delivered alone, a rise reports the hold it ends. -/
theorem reportedSingly_of_rise (h : m.pObs = true) {pre : List Delivery} {d : Delivery}
    {t₁ t₂ : ℕ} (hd : d.edges.head? = some ⟨.rise, t₂⟩) (hle : t₁ ≤ t₂) (hlt : t₂ < 2 ^ 32)
    (hlast : (edgesOf pre).getLast? = some ⟨.fall, t₁⟩) :
    reportedSingly bits m pre d = classify m.xGP (t₂ - t₁) := by
  obtain ⟨es, hes⟩ : ∃ es, edgesOf pre = es ++ [⟨.fall, t₁⟩] := List.getLast?_eq_some_iff.1 hlast
  have hstored : m.delivered bits (unmerged pre) = m.store (clock t₁) := by
    rw [unmerged, hes, List.map_append]
    exact SwitchMgr.delivered_concat bits m h (es.map .single) (.single ⟨.fall, t₁⟩)
  rw [reportedSingly, hstored, SwitchMgr.reports_edges_of_rise bits m _ h hd, toNat_clock_sub hle,
    Nat.mod_eq_of_lt (by omega)]

/-- Merged or after a merged rise and fall, it reports nothing. -/
theorem reported_of_touched (h : m.pObs = true) {pre : List Delivery} {d : Delivery} {t₁ t₂ : ℕ}
    (hd : d.edges.head? = some ⟨.rise, t₂⟩) (hrange : 2000 ≤ t₂ ∧ t₂ < 2 ^ 32)
    (htouched : d = .merged ⟨.rise, t₂⟩ ∨ pre.getLast? = some (.merged ⟨.rise, t₁⟩)) :
    reported bits m pre d = [] := by
  obtain ⟨x, hx⟩ := SwitchMgr.exists_delivered_eq bits m h pre
  rcases Delivery.eq_of_head hd with rfl | rfl
  · obtain ⟨ds, rfl⟩ := List.getLast?_eq_some_iff.1 (htouched.resolve_left (by simp))
    -- the fall was forgotten, so the difference computed is the clock itself
    rw [reported, SwitchMgr.delivered_concat bits m h,
      SwitchMgr.deliver_single_rise bits m _ h]
    refine classify_of_not ?_
    simp only [Delivery.storedTime, toNat_clock_sub_zero, Nat.mod_eq_of_lt hrange.2, IsPress]
    omega
  · rw [reported, hx, SwitchMgr.deliver_merged bits m x h]

/-- Alone and after a fall that was delivered alone, it reports the hold it ends. -/
theorem reported_of_not_touched (h : m.pObs = true) {pre : List Delivery} {d : Delivery} {t₁ t₂ : ℕ}
    (hd : d.edges.head? = some ⟨.rise, t₂⟩) (hle : t₁ ≤ t₂) (hlt : t₂ < 2 ^ 32)
    (hlast : (edgesOf pre).getLast? = some ⟨.fall, t₁⟩)
    (htouched : ¬ (d = .merged ⟨.rise, t₂⟩ ∨ pre.getLast? = some (.merged ⟨.rise, t₁⟩))) :
    reported bits m pre d = classify m.xGP (t₂ - t₁) := by
  obtain ⟨hd', hpre⟩ := not_or.1 htouched
  obtain ⟨ds, rfl | rfl⟩ := exists_concat_of_fall hlast
  · rcases Delivery.eq_of_head hd with rfl | rfl
    · rw [reported, SwitchMgr.delivered_concat bits m h,
        SwitchMgr.deliver_single_rise bits m _ h, Delivery.storedTime, toNat_clock_sub hle,
        Nat.mod_eq_of_lt (by omega)]
    · exact absurd rfl hd'
  · exact absurd List.getLast?_concat hpre

/-- **What one callback loses**: nothing, or all of a report, and nothing exactly when it spares
the hold it ends. -/
theorem reported_sublist_and_eq_iff (h : m.pObs = true) {pre : List Delivery} {d : Delivery}
    (hphys : Physical (edgesOf (pre ++ [d]))) :
    (reported bits m pre d).Sublist (reportedSingly bits m pre d) ∧
      (reported bits m pre d = reportedSingly bits m pre d ↔ Spared pre d) := by
  obtain ⟨e, es, hedges⟩ : ∃ e es, d.edges = e :: es := by cases d <;> exact ⟨_, _, rfl⟩
  have hhead : d.edges.head? = some e := by rw [hedges]; rfl
  rw [edgesOf_concat, hedges] at hphys
  have hfollows : Follows (edgesOf pre) e := hphys.follows _ e es rfl
  have hrange := hphys.inRange e (by simp)
  obtain ⟨edge, t₂⟩ := e
  cases edge with
  | fall =>
      obtain ⟨hmerged, hsingly⟩ := reported_of_fall bits m h pre hhead
      rw [hmerged, hsingly]
      refine ⟨List.Sublist.refl _, iff_of_true rfl ?_⟩
      intro t₁ t hlast hrise
      simp [hhead] at hrise
  | rise =>
      obtain ⟨t₁, hle, hlast⟩ := exists_fall_of_follows hfollows
      rw [reportedSingly_of_rise bits m h hhead hle hrange.2 hlast]
      by_cases htouched : d = .merged ⟨.rise, t₂⟩ ∨ pre.getLast? = some (.merged ⟨.rise, t₁⟩)
      · rw [reported_of_touched bits m h hhead hrange htouched]
        refine ⟨List.nil_sublist _, ?_⟩
        rw [eq_comm, classify_eq_nil_iff]
        constructor
        · intro hnot t₁' t₂' hlast' hrise' _
          obtain rfl : t₁ = t₁' := by simpa [hlast] using hlast'
          obtain rfl : t₂ = t₂' := by simpa [hhead] using hrise'
          exact hnot
        · intro hspared
          exact hspared t₁ t₂ hlast hhead htouched
      · rw [reported_of_not_touched bits m h hhead hle hrange.2 hlast htouched]
        refine ⟨List.Sublist.refl _, iff_of_true rfl ?_⟩
        intro t₁' t₂' hlast' hrise' htouched'
        obtain rfl : t₁ = t₁' := by simpa [hlast] using hlast'
        obtain rfl : t₂ = t₂' := by simpa [hhead] using hrise'
        exact absurd htouched' htouched

/-- **Merging never invents a report, and may lose some**: none exactly when every callback spares
the hold it ends. -/
theorem reports_sublist_and_eq_iff (h : m.pObs = true) {ds : List Delivery}
    (hphys : Physical (edgesOf ds)) :
    (m.reports bits ds).Sublist (m.reports bits (unmerged ds)) ∧
      (m.reports bits ds = m.reports bits (unmerged ds) ↔ Runs.Throughout Spared ds) := by
  -- every prefix of the deliveries is physical too
  have hA : Runs.Throughout (fun pre d => Physical (edgesOf (pre ++ [d]))) ds := by
    rintro pre d post rfl
    rw [List.append_cons, edgesOf_append] at hphys
    exact hphys.of_append
  refine Runs.sublist_and_eq_iff_throughout (f := m.reports bits)
    (g := fun ds => m.reports bits (unmerged ds)) rfl ?_ hA
  intro pre d hpre
  refine ⟨reported bits m pre d, reportedSingly bits m pre d, ?_, ?_, ?_⟩
  · exact SwitchMgr.reports_concat bits m pre d
  · rw [unmerged_concat, SwitchMgr.reports_append]
  · exact reported_sublist_and_eq_iff bits m h hpre

end Loss

theorem reports_of_no_observer (bits : EdgeBits) {m : SwitchMgr} (h : m.pObs = false)
    (ds : List Delivery) : m.reports bits ds = [] := by
  induction ds generalizing m with
  | nil => rfl
  | cons d ds ih =>
      obtain ⟨hnext, hreport⟩ :=
        SwitchMgr.handleGPIO_of_no_observer bits h (rfl : m.deliver bits d = _)
      rw [SwitchMgr.reports_cons, hreport, ih hnext, List.append_nil]

/-- **Exactly when merging loses no press.**  For any manager and any way of delivering the edges
of a switch, singly or with two edges of one time in one callback, the reports are those of the
same edges delivered singly exactly when there is no observer, or no hold that begins or ends in a
merged rise and fall is a press. -/
theorem reports_merged_iff (bits : EdgeBits) (m : SwitchMgr) (ds : List Delivery)
    (hphys : Physical (edgesOf ds)) :
    m.reports bits ds = m.reports bits (unmerged ds)
      ↔ m.pObs = false ∨ Runs.Throughout Spared ds := by
  cases h : m.pObs with
  | true => simpa using (reports_sublist_and_eq_iff bits m h hphys).2
  | false => simp [reports_of_no_observer bits h]

/-- A press of a tenth of a second that bounces at its end, with the bounce in one callback. -/
def bounce : List Delivery := [.single ⟨.fall, 3000⟩, .merged ⟨.rise, 3100⟩, .single ⟨.rise, 3101⟩]

theorem physical_bounce : Physical (edgesOf bounce) := by
  have h₁ : Physical [⟨.fall, 3000⟩] := physical_nil.concat rfl (by decide)
  have h₂ : Physical [⟨.fall, 3000⟩, ⟨.rise, 3100⟩] := h₁.concat ⟨rfl, by decide⟩ (by decide)
  have h₃ : Physical [⟨.fall, 3000⟩, ⟨.rise, 3100⟩, ⟨.fall, 3100⟩] :=
    h₂.concat ⟨rfl, by decide⟩ (by decide)
  exact h₃.concat ⟨rfl, by decide⟩ (by decide)

theorem reports_merged_iff_bounce :
    ((SwitchMgr.init 0 0).setObserver true).reports .pico bounce
        = ((SwitchMgr.init 0 0).setObserver true).reports .pico (unmerged bounce)
      ↔ ((SwitchMgr.init 0 0).setObserver true).pObs = false ∨ Runs.Throughout Spared bounce :=
  reports_merged_iff .pico ((SwitchMgr.init 0 0).setObserver true) bounce physical_bounce

/-- Its edges, delivered singly, are a short press; with the bounce merged nothing is reported. -/
theorem bounce_loses_press :
    ¬ ∀ ds, Physical (edgesOf ds) →
      ((SwitchMgr.init 0 0).setObserver true).reports .pico ds
        = ((SwitchMgr.init 0 0).setObserver true).reports .pico (unmerged ds) := by
  intro h
  exact absurd (h bounce physical_bounce) (by decide)

end TwinThing
