import Mathlib.Data.List.Perm.Basic
import TrainerBooking.Proofs.Stepping

/-! # Lists of hours

A trainer opens and closes hours by lists of time stamps.  Each hour is an update of its own, so a
list that stops halfway leaves the hours before the one that stopped it changed.

* **Legal.** `Contents.Legal` looks at the contents *before* the list: its times lie in different
  seconds, and each of them is admitted (`Contents.Admits`).  Faults come into it by hour, so a list
  may be stopped in the middle by the fault of a single row.
* **Turned.** `Contents.Turned` says that the hours of the times have a new availability and that
  nothing else is other than before.  The order of the times does not matter to either.
* **Worked through.** A list is worked through as far as it is legal (`Contents.WorkedThrough`): an
  hour that was taken does not change what is said of the others, and is not admitted again
  (`Contents.legal_cons_iff`).
* **Calls.** `Api.WorksThrough` says what becomes of a call with such a list. -/

namespace TrainerBooking

/-! ### Contents that differ in hours -/

namespace Contents

variable {window : BookingWindow} {now : Moment} {c c' c'' : Contents} {step : HourStep}
variable {time : Moment} {times : List Moment} {a a' : Availability}

/-- The two hold the same, but for the hours of these seconds. -/
def SameBut (seconds : List Int) : Contents → Contents → Prop
  | memory hours trainings accounts, memory hours' trainings' accounts' =>
    (∀ second ∉ seconds, hours' second = hours second) ∧
      trainings' = trainings ∧ accounts' = accounts
  | tables t, tables t' =>
    (∀ second ∉ seconds, t'.hours.rows.get? second = t.hours.rows.get? second) ∧
      t' = { t with hours := t'.hours }
  | _, _ => False

namespace SameBut

variable {seconds seconds' : List Int} {second : Int}

theorem refl (seconds : List Int) (c : Contents) : c.SameBut seconds c := by
  cases c <;> exact ⟨fun _ _ => rfl, by simp⟩

theorem trans (h : c.SameBut seconds c') (h' : c'.SameBut seconds' c'') :
    c.SameBut (seconds ++ seconds') c'' := by
  cases c <;> cases c' <;> cases c'' <;> try contradiction
  · obtain ⟨hhours, rfl, rfl⟩ := h
    obtain ⟨hhours', rfl, rfl⟩ := h'
    refine ⟨fun second hs => ?_, rfl, rfl⟩
    rw [List.mem_append, not_or] at hs
    rw [hhours' second hs.2, hhours second hs.1]
  · obtain ⟨hrows, ht⟩ := h
    obtain ⟨hrows', ht'⟩ := h'
    refine ⟨fun second hs => ?_, by rw [ht', ht]⟩
    rw [List.mem_append, not_or] at hs
    rw [hrows' second hs.2, hrows second hs.1]

theorem hour?_eq (h : c.SameBut seconds c') (hs : second ∉ seconds) :
    c'.hour? second = c.hour? second := by
  cases c <;> cases c' <;> try contradiction
  · exact h.1 second hs
  · rw [hour?, hour?, h.1 second hs]

theorem hasHour_eq (h : c.SameBut seconds c') (hs : second ∉ seconds) :
    c'.hasHour second = c.hasHour second := by
  cases c <;> cases c' <;> try contradiction
  · rw [hasHour, hasHour, h.1 second hs]
  · rw [hasHour, hasHour, Registry.contains, Registry.contains, h.1 second hs]

theorem keptTime_eq (h : c.SameBut seconds c') : c'.keptTime time = c.keptTime time := by
  cases c <;> cases c' <;> first | contradiction | rfl

/-- Other hours do not matter to what the tries to update an hour meet. -/
theorem carriesOut_iff (h : c.SameBut seconds c') (statements : List Statement) :
    c'.CarriesOut second statements ↔ c.CarriesOut second statements := by
  cases c <;> cases c' <;> try contradiction
  · exact iff_of_true carriesOut_memory carriesOut_memory
  · rw [h.2]
    rfl

theorem fits_iff (h : c.SameBut seconds c') (hs : time.second ∉ seconds)
    (statements : List Statement) :
    c'.Fits window now step time statements ↔ c.Fits window now step time statements := by
  constructor
  · rintro (⟨hh, hfrom⟩ | ⟨hnone, hfrom, hcheck⟩)
    · exact .stored (h.hour?_eq hs ▸ hh) hfrom
    · exact .fresh (h.hasHour_eq hs ▸ hnone) hfrom hcheck
  · rintro (⟨hh, hfrom⟩ | ⟨hnone, hfrom, hcheck⟩)
    · exact .stored ((h.hour?_eq hs).trans hh) hfrom
    · exact .fresh ((h.hasHour_eq hs).trans hnone) hfrom hcheck

theorem admits_iff (h : c.SameBut seconds c') (hs : time.second ∉ seconds) :
    c'.Admits window now step time ↔ c.Admits window now step time :=
  exists_congr fun statements => and_congr (h.fits_iff hs statements) (h.carriesOut_iff statements)

/-- To file the hour of a second leaves everything else as it was. -/
theorem fileHour (c : Contents) (second : Int) (h : Hour) :
    c.SameBut [second] (c.fileHour second h) := by
  cases c with
  | memory hours trainings accounts =>
      exact ⟨fun other hother => Function.update_of_ne (by simpa using hother) _ _, rfl, rfl⟩
  | tables t =>
      rw [Contents.fileHour]
      split
      · refine ⟨fun other hother => ?_, rfl⟩
        rw [Registry.get?_adjust, if_neg (by simpa using hother)]
      · refine ⟨fun other hother => ?_, rfl⟩
        rw [HourTable.get?_append, if_neg (by simpa using hother)]

end SameBut

/-- The hours of the times have this availability, and nothing else is other than before. -/
structure Turned (c : Contents) (a : Availability) (times : List Moment) (c' : Contents) :
    Prop where
  /-- All but the hours of the times is as before. -/
  same : c.SameBut (times.map Moment.second) c'
  /-- The hours of the times are there, and begin where they did. -/
  turned : ∀ time ∈ times, c'.hour? time.second = some (c.hourWith time a)

namespace Turned

theorem nil (a : Availability) (c : Contents) : c.Turned a [] c := ⟨.refl _ c, nofun⟩

/-- One more hour in front, of another second than the others. -/
theorem cons (h : c.Turned a [time] c') (h' : c'.Turned a times c'')
    (hnew : time.second ∉ times.map Moment.second) : c.Turned a (time :: times) c'' := by
  refine ⟨h.same.trans h'.same, fun other hother => ?_⟩
  obtain rfl | hother := List.mem_cons.mp hother
  · rw [h'.same.hour?_eq hnew, h.turned other (List.mem_singleton_self other)]
  · have hne : other.second ∉ [time].map Moment.second := by
      intro hs
      rw [List.map_singleton, List.mem_singleton] at hs
      exact hnew (hs ▸ List.mem_map_of_mem hother)
    rw [h'.turned other hother, hourWith, hourWith, h.same.hour?_eq hne, h.same.keptTime_eq]

/-- Hours that are turned twice are turned once, to where they were turned last. -/
theorem again (h : c.Turned a times c') (h' : c'.Turned a' times c'') : c.Turned a' times c'' := by
  have hall := h.same.trans h'.same
  refine ⟨?_, fun time htime => ?_⟩
  · cases c <;> cases c'' <;> first | contradiction | exact hall.imp_left (by simp)
  · rw [h'.turned time htime, hourWith, h.turned time htime, hourWith]
    rfl

end Turned

/-- To file the hour of a time, if it is admitted, is to turn it. -/
theorem Admits.turned (h : c.Admits window now step time) :
    c.Turned step.edge.2 [time] (c.fileHour time.second (c.hourWith time step.edge.2)) := by
  refine ⟨.fileHour c time.second _, fun other hother => ?_⟩
  obtain rfl := List.mem_singleton.mp hother
  cases c with
  | memory hours trainings accounts => exact Function.update_self ..
  | tables t =>
      obtain ⟨statements, hfits, -⟩ := h
      cases hfits with
      | stored hh hfrom =>
          obtain ⟨row, hrow, hd⟩ := exists_row_of_hour? hh
          have hcontains : t.hours.rows.contains other.second = true := by
            rw [Registry.contains, hrow]
            rfl
          rw [fileHour, if_pos hcontains, setAvailability, hour?, Registry.get?_adjust, if_pos rfl,
            hrow, Option.map_some, Option.bind_some, HourRow.decode_relabel _ hd,
            hourWith_of_stored hh]
          rfl
      | fresh hnone hfrom hcheck =>
          have hcontains : ¬ t.hours.rows.contains other.second = true :=
            Bool.eq_false_iff.mp hnone
          rw [fileHour, if_neg hcontains, hour?, HourTable.get?_append, if_pos rfl,
            Option.bind_some, hourWith_of_missing hnone, HourRow.decode_of_check hcheck]
          rfl

/-! ### Legal lists -/

/-- The list can be worked through: its times lie in different seconds, and the contents admit each
of them. -/
def Legal (window : BookingWindow) (now : Moment) (c : Contents) (step : HourStep)
    (times : List Moment) : Prop :=
  (times.map Moment.second).Nodup ∧ ∀ time ∈ times, c.Admits window now step time

theorem Legal.nil : c.Legal window now step [] := ⟨List.nodup_nil, nofun⟩

/-- An hour that was taken is not admitted again, and does not matter to the others. -/
theorem legal_cons_iff (hadmits : c.Admits window now step time)
    (hturned : c.Turned step.edge.2 [time] c') :
    c.Legal window now step (time :: times) ↔ c'.Legal window now step times := by
  have hother : ∀ other : Moment, other.second ≠ time.second →
      (c'.Admits window now step other ↔ c.Admits window now step other) := fun other hne =>
    hturned.same.admits_iff (by simpa using hne)
  have hagain : ∀ other : Moment, c'.Admits window now step other →
      other.second ≠ time.second := by
    rintro other ⟨statements, hfits, -⟩ hs
    have hhour := hturned.turned time (List.mem_singleton_self time)
    rw [← hs] at hhour
    cases hfits with
    | stored hh hfrom =>
        rw [hhour] at hh
        cases hh
        cases step <;> cases hfrom
    | fresh hnone hfrom hcheck =>
        rw [hour?_of_not_hasHour hnone] at hhour
        cases hhour
  unfold Legal
  rw [List.map_cons, List.nodup_cons, List.forall_mem_cons]
  constructor
  · rintro ⟨⟨hnew, hnodup⟩, -, hrest⟩
    refine ⟨hnodup, fun other hmem => (hother other fun hs => ?_).mpr (hrest other hmem)⟩
    exact hnew (hs ▸ List.mem_map_of_mem hmem)
  · rintro ⟨hnodup, hrest⟩
    refine ⟨⟨fun hmem => ?_, hnodup⟩, hadmits, fun other hmem => ?_⟩
    · obtain ⟨other, hmem, hs⟩ := List.mem_map.mp hmem
      exact hagain other (hrest other hmem) hs
    · exact (hother other (hagain other (hrest other hmem))).mp (hrest other hmem)

/-- The list was worked through by a step: to its end if it is legal, and otherwise up to the first
time with which it is not. -/
inductive WorkedThrough (window : BookingWindow) (now : Moment) (c : Contents) (step : HourStep)
    (times : List Moment) : Bool → Contents → Prop
  | all {c' : Contents} (hlegal : c.Legal window now step times)
      (hturned : c.Turned step.edge.2 times c') : WorkedThrough window now c step times true c'
  | cut (before : List Moment) {after : List Moment} {time : Moment} {c' : Contents}
      (htimes : times = before ++ time :: after) (hlegal : c.Legal window now step before)
      (hnot : ¬ c.Legal window now step (before ++ [time]))
      (hturned : c.Turned step.edge.2 before c') : WorkedThrough window now c step times false c'

namespace WorkedThrough

variable {done : Bool}

theorem cons (hadmits : c.Admits window now step time) (hturned : c.Turned step.edge.2 [time] c')
    (h : c'.WorkedThrough window now step times done c'') :
    c.WorkedThrough window now step (time :: times) done c'' := by
  cases h with
  | all hlegal hrest =>
      have hall := (legal_cons_iff hadmits hturned).mpr hlegal
      exact .all hall (hturned.cons hrest (List.nodup_cons.mp hall.1).1)
  | @cut before after other _ htimes hlegal hnot hrest =>
      have hall := (legal_cons_iff hadmits hturned).mpr hlegal
      refine .cut (time :: before) (by rw [htimes]; rfl) hall ?_
        (hturned.cons hrest (List.nodup_cons.mp hall.1).1)
      exact fun h => hnot ((legal_cons_iff hadmits hturned).mp h)

theorem turned (h : c.WorkedThrough window now step times done c') (hdone : done = true) :
    c.Turned step.edge.2 times c' := by
  cases h with
  | all hlegal hturned => exact hturned
  | cut before htimes hlegal hnot hturned => cases hdone

theorem stopped (h : c.WorkedThrough window now step times done c') (hdone : done = false) :
    ∃ before time after, times = before ++ time :: after ∧ c.Legal window now step before ∧
      ¬ c.Legal window now step (before ++ [time]) ∧ c.Turned step.edge.2 before c' := by
  cases h with
  | all hlegal hturned => cases hdone
  | cut before htimes hlegal hnot hturned => exact ⟨before, _, _, htimes, hlegal, hnot, hturned⟩

end WorkedThrough

end Contents

/-! ### Acts on lists -/

namespace Desk

variable {s : Setting}

end Desk

/-! ### Calls -/

namespace Api

/-- The times are what the time stamps say. -/
def Reads (hours : List String) (times : List Moment) : Prop :=
  List.Forall₂ (fun text time => Stamp.read text = .ok time) hours times

section

variable {action message : String} {desk : List Moment → Act Failure Unit} {caller : Caller}
variable {hours : List String} {s : Setting} {w : World}

end

section

variable {s : Setting} {caller : Caller} {w : World}

end

end Api

/-- What was opened can be closed, whatever the clock says. -/
theorem Contents.Legal.closing {c c' : Contents} {window window' : BookingWindow}
    {now now' : Moment} {times : List Moment} (h : c.Legal window now .makeAvailable times)
    (hturned : c.Turned .available times c') :
    c'.Legal window' now' .makeNotAvailable times := by
  refine ⟨h.1, fun time htime => ⟨_, .stored (hturned.turned time htime) rfl, ?_⟩⟩
  exact (hturned.same.carriesOut_iff _).mpr (h.2 time htime).update

namespace Api

section samples

open Sample Desk.Command Repository

end samples

end Api

end TrainerBooking
