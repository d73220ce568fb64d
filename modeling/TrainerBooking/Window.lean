import TrainerBooking.Ending
import TrainerBooking.Hour

/-! # The booking window

New hours come into the calendar through a `BookingWindow` only.  It admits the full hours that are
strictly in the future, not more than so many weeks ahead, and within the daily band from the
earliest to the latest UTC hour.  The checks are made in a fixed order, and the first one that fails
is the violation (`BookingWindow.check`).

A window is made of `Limits`, which have to be sound: `Limits.problems` lists everything that is
wrong with them. -/

namespace TrainerBooking

/-- What bounds the hours that may be created. -/
structure Limits where
  /-- The number of weeks for which the calendar may be edited ahead. -/
  weeks : Nat
  /-- The first UTC hour of the day. -/
  earliest : Nat
  /-- The last UTC hour of the day. -/
  latest : Nat
deriving DecidableEq, Repr

namespace Limits

/-- The limits in force unless others are given. -/
def standard : Limits := ⟨6, 12, 20⟩

/-- Everything that is wrong with the limits. -/
def problems (l : Limits) : List String :=
  (if l.weeks < 1 then
    ["max_weeks_in_the_future_to_set should be greater than 1, but is " ++ Nat.repr l.weeks]
   else []) ++
  (if l.earliest > 24 then
    ["min_utc_hour should be value between 0 and 24, but is " ++ Nat.repr l.earliest]
   else []) ++
  (if l.latest > 24 then
    ["max_utc_hour should be value between 0 and 24, but is " ++ Nat.repr l.latest]
   else []) ++
  (if l.earliest > l.latest then
    ["max_utc_hour (" ++ Nat.repr l.latest ++ ") can't be before min_utc_hour (" ++
      Nat.repr l.earliest ++ ")"]
   else [])

/-- Limits without problems. -/
def Sound (l : Limits) : Prop :=
  1 ≤ l.weeks ∧ l.earliest ≤ 24 ∧ l.latest ≤ 24 ∧ l.earliest ≤ l.latest

instance (l : Limits) : Decidable l.Sound := by unfold Sound; infer_instance

theorem problems_eq_nil_iff {l : Limits} : l.problems = [] ↔ l.Sound := by
  simp only [problems, List.append_eq_nil_iff, Sound]
  constructor
  · rintro ⟨⟨⟨h₁, h₂⟩, h₃⟩, h₄⟩
    refine ⟨?_, ?_, ?_, ?_⟩ <;> apply Decidable.byContradiction <;> intro h
    · rw [if_pos (by omega)] at h₁; simp at h₁
    · rw [if_pos (by omega)] at h₂; simp at h₂
    · rw [if_pos (by omega)] at h₃; simp at h₃
    · rw [if_pos (by omega)] at h₄; simp at h₄
  · rintro ⟨h₁, h₂, h₃, h₄⟩
    simp [show ¬ l.weeks < 1 by omega, show ¬ l.earliest > 24 by omega,
      show ¬ l.latest > 24 by omega, show ¬ l.earliest > l.latest by omega]

end Limits

/-- Sound limits for new hours. -/
structure BookingWindow extends Limits where
  /-- The limits have no problems. -/
  sound : toLimits.Sound
deriving DecidableEq, Repr

namespace BookingWindow

/-- The window within given limits. -/
def ofLimits (l : Limits) : Except Violation BookingWindow :=
  if h : l.Sound then .ok ⟨l, h⟩ else .error (.unsoundLimits (", ".intercalate l.problems))

/-- The window within the limits in force unless others are given. -/
def standard : BookingWindow := ⟨Limits.standard, by decide⟩

/-- Checks whether an hour may be created at a time, as seen at the moment `now`.

The time is moved to UTC first; the end of the window is worked out only for full hours.  Either may
leave the range of moments, which crashes. -/
def check (w : BookingWindow) (time now : Moment) : Ending Violation Unit :=
  match time.toUtc?, now.toUtc? with
  | some time, some now =>
    if !time.isFullHour then .refused (.notFullHour time)
    else
      match now.shift? (w.weeks * Moment.perWeek) with
      | none => .crashed
      | some horizon =>
        if horizon < time then .refused (.tooDistant w.weeks time)
        else if time.nanos ≤ now.hourStart then .refused (.pastHour time)
        else if time.hour > w.latest then .refused (.tooLate w.latest time)
        else if time.hour < w.earliest then .refused (.tooEarly w.earliest time)
        else .done ()
  | _, _ => .crashed

/-- A new hour of the given availability, if the window admits it. -/
def newHour (w : BookingWindow) (availability : Availability) (time now : Moment) :
    Ending Violation Hour :=
  (w.check time now).mapValue fun _ => ⟨time, availability⟩

end BookingWindow

end TrainerBooking
