import TrainerBooking.Proofs.RoundTrip
import TrainerBooking.Proofs.Timetable

/-! # What the booking window admits

A window admits a new hour exactly if every one of its rules holds, and it names the first rule that
is broken otherwise (`BookingWindow.newHour_admission`).

* **The clock.** In UTC, the rest of the nanoseconds after whole hours is what minute, second and
  fraction show (`Moment.isFullHour_iff`), and what is left without it is the date and the hour of the
  same clock with zeros behind them (`Moment.hourStart_civil`).
* **The past.** A full hour is not after the hour in which the clock stands exactly if it is not after
  the clock (`Moment.le_hourStart_iff`).  So the rule on the past is about `now` itself.
* **The rules.** `BookingWindow.rules` lists them in the order in which they count, each on its own:
  none of them presumes the ones before it. -/

namespace TrainerBooking

/-! ### The clock -/

namespace Moment

/-- Does the clock of the moment show zero minutes, zero seconds and no fraction? -/
def OnTheHour (m : Moment) : Prop := m.minute = 0 ∧ m.secondOfMinute = 0 ∧ m.subsecond = 0

instance (m : Moment) : Decidable m.OnTheHour := by unfold OnTheHour; infer_instance

/-- In UTC, the hour of the instant is full exactly if the clock shows it. -/
theorem isFullHour_iff {m : Moment} (hutc : m.offset = 0) : m.isFullHour = true ↔ m.OnTheHour := by
  rw [isFullHour, decide_eq_true_eq]
  simp only [OnTheHour, minute, secondOfMinute, subsecond, secondOfDay, localSecond, second, hutc,
    perHour, perSecond]
  omega

/-- **The hour begins where the clock, set back to its hour, stands**: at the date of the moment, with
zeros behind its hour. -/
theorem hourStart_civil {m : Moment} (hutc : m.offset = 0) :
    Stamp.momentAt m.date (m.hour * 3600) 0 0 = ⟨m.hourStart, 0⟩ := by
  unfold Stamp.momentAt
  rw [date, Date.dayNumber_ofDayNumber]
  simp only [hourStart, hour, secondOfDay, localSecond, second, hutc, perHour, perSecond,
    Moment.mk.injEq, and_true]
  omega

/-- Among full hours, the beginning of an hour is as late as any moment of it. -/
theorem le_hourStart_iff {m now : Moment} (hfull : m.isFullHour = true) :
    m.nanos ≤ now.hourStart ↔ m ≤ now := by
  have hrest : m.nanos % perHour = 0 := of_decide_eq_true hfull
  rw [le_def, hourStart]
  simp only [perHour, perSecond] at hrest ⊢
  omega

end Moment

/-! ### The rules -/

namespace BookingWindow

/-- The rules for a new hour at a time in UTC, as seen at the moment `now`, in the order in which they
count: does the rule hold, and what is the violation if it does not? -/
def rules (window : BookingWindow) (utc now : Moment) : List (Bool × Violation) := [
  (decide utc.OnTheHour, .notFullHour utc),
  (decide (utc.nanos ≤ now.nanos + window.weeks * Moment.perWeek), .tooDistant window.weeks utc),
  (decide (now < utc), .pastHour utc),
  (decide (utc.hour ≤ window.latest), .tooLate window.latest utc),
  (decide (window.earliest ≤ utc.hour), .tooEarly window.earliest utc)]

/-- The violation of the first rule that does not hold. -/
def firstBroken (rules : List (Bool × Violation)) : Option Violation :=
  (rules.find? fun rule => !rule.1).map Prod.snd

@[simp] theorem firstBroken_nil : firstBroken [] = none := rfl

@[simp] theorem firstBroken_cons (holds : Bool) (v : Violation) (rest : List (Bool × Violation)) :
    firstBroken ((holds, v) :: rest) = if holds then firstBroken rest else some v := by
  cases holds <;> rfl

/-- No rule is broken exactly if all of them hold. -/
theorem firstBroken_eq_none {rules : List (Bool × Violation)} :
    firstBroken rules = none ↔ ∀ rule ∈ rules, rule.1 = true := by
  rw [firstBroken, Option.map_eq_none_iff, List.find?_eq_none]
  simp

variable {window : BookingWindow} {time now utc utcNow : Moment}

/-- **The check finds the first rule that is broken.** -/
theorem check_eq (htime : time.toUtc? = some utc) (hnow : now.toUtc? = some utcNow)
    (hweeks : (utcNow.shift? (window.weeks * Moment.perWeek)).isSome = true) :
    window.check time now = ((firstBroken (window.rules utc utcNow)).elim (.done ()) .refused) := by
  obtain ⟨horizon, hhorizon⟩ := Option.isSome_iff_exists.mp hweeks
  have hnanos : horizon.nanos = utcNow.nanos + window.weeks * Moment.perWeek := by
    unfold Moment.shift? Moment.checked at hhorizon
    split at hhorizon <;> cases hhorizon
    rfl
  have hutc : utc.offset = 0 := by rw [Moment.toUtc?_eq_some htime]
  unfold check
  rw [htime, hnow]
  dsimp only
  rw [hhorizon]
  dsimp only [rules]
  simp only [firstBroken_cons, firstBroken_nil, decide_eq_true_eq]
  by_cases hfull : utc.OnTheHour
  · have hfull' := (Moment.isFullHour_iff hutc).mpr hfull
    have hpast : utc.nanos ≤ utcNow.hourStart ↔ ¬ utcNow < utc := by
      rw [Moment.le_hourStart_iff hfull', Moment.not_lt]
    have hnear : horizon < utc ↔ ¬ utc.nanos ≤ utcNow.nanos + window.weeks * Moment.perWeek := by
      rw [Moment.lt_def, hnanos, Int.not_le]
    rw [hfull', if_pos hfull]
    simp only [Bool.not_true, Bool.false_eq_true, if_false, hpast, hnear, gt_iff_lt, ← Nat.not_le,
      ite_not]
    -- The remaining checks are the remaining rules, in the same order.
    repeat' split
    all_goals rfl
  · have hfull' : utc.isFullHour = false := by
      rw [← Bool.not_eq_true, Moment.isFullHour_iff hutc]
      exact hfull
    rw [hfull', if_neg hfull]
    rfl

/-- The check sees only the instants, not the offsets in which they are written. -/
theorem check_congr {time' now' : Moment} (htime : time'.nanos = time.nanos)
    (hnow : now'.nanos = now.nanos) : window.check time' now' = window.check time now := by
  unfold check Moment.toUtc?
  rw [htime, hnow]

/-- **The window admits exactly the strictly future full hours that it reaches.**  A new hour is made if
its time is on the hour by the clock of UTC, after `now`, not more than the weeks of the window later,
and within its daily band there.  Otherwise it is refused with the violation of the first rule that is
broken, which names the time in UTC.  The offsets in which the time and `now` are written do not
matter, except that the hour keeps the one of its time. -/
theorem newHour_admission (availability : Availability) (htime : time.toUtc? = some utc)
    (hnow : now.toUtc? = some utcNow)
    (hweeks : (utcNow.shift? (window.weeks * Moment.perWeek)).isSome = true) :
    (window.newHour availability time now = .done ⟨time, availability⟩ ↔
      (utc.minute = 0 ∧ utc.secondOfMinute = 0 ∧ utc.subsecond = 0) ∧
        (now < time ∧ time.nanos ≤ now.nanos + window.weeks * (7 * 86400 * Moment.perSecond)) ∧
        window.earliest ≤ utc.hour ∧ utc.hour ≤ window.latest) ∧
    (∀ v, window.newHour availability time now = .refused v ↔
      firstBroken (window.rules utc utcNow) = some v) ∧
    window.newHour availability time now ≠ .crashed ∧
    ∀ time' now' : Moment, time'.nanos = time.nanos → now'.nanos = now.nanos →
      window.newHour availability time' now' =
        (window.newHour availability time now).mapValue fun h => ⟨time', h.availability⟩ := by
  have hcheck : window.check time now = _ := check_eq htime hnow hweeks
  have hutc : utc.nanos = time.nanos := by rw [Moment.toUtc?_eq_some htime]
  have hutcNow : utcNow.nanos = now.nanos := by rw [Moment.toUtc?_eq_some hnow]
  have hkept : firstBroken (window.rules utc utcNow) = none ↔
      utc.OnTheHour ∧ (now < time ∧ time.nanos ≤ now.nanos + window.weeks * Moment.perWeek) ∧
        window.earliest ≤ utc.hour ∧ utc.hour ≤ window.latest := by
    rw [firstBroken_eq_none]
    simp only [rules, List.forall_mem_cons, decide_eq_true_eq, Moment.lt_def, hutc, hutcNow]
    constructor
    · rintro ⟨hfull, hnear, hfuture, hlate, hearly, -⟩
      exact ⟨hfull, ⟨hfuture, hnear⟩, hearly, hlate⟩
    · rintro ⟨hfull, ⟨hfuture, hnear⟩, hearly, hlate⟩
      exact ⟨hfull, hnear, hfuture, hlate, hearly, List.forall_mem_nil _⟩
  refine ⟨Iff.trans ?_ hkept, fun v => ?_, ?_, fun time' now' htime' hnow' => ?_⟩
  · unfold newHour
    rw [hcheck]
    cases firstBroken (window.rules utc utcNow) <;> simp [Ending.mapValue]
  · unfold newHour
    rw [hcheck]
    cases firstBroken (window.rules utc utcNow) <;> simp [Ending.mapValue]
  · unfold newHour
    rw [hcheck]
    cases firstBroken (window.rules utc utcNow) <;> simp [Ending.mapValue]
  · unfold newHour
    rw [check_congr htime' hnow']
    cases window.check time now <;> rfl

/-- At half past three on New Year's Day, written four hours behind UTC as half past eleven on New
Year's Eve, the window admits four o'clock, but no longer three o'clock. -/
theorem newHour_admission_new_year :
    let window : BookingWindow := ⟨⟨6, 0, 20⟩, by decide⟩
    let now : Moment := ⟨1893468600 * Moment.perSecond, -14400⟩
    let three : Moment := ⟨1893466800 * Moment.perSecond, 7200⟩
    let four : Moment := ⟨1893470400 * Moment.perSecond, 7200⟩
    window.newHour .available four now = .done ⟨four, .available⟩ ∧
      window.newHour .notAvailable three now = .refused (.pastHour ⟨three.nanos, 0⟩) := by
  intro window now three four
  have hnow : now.toUtc? = some ⟨now.nanos, 0⟩ := by decide
  have hthree : three.toUtc? = some ⟨three.nanos, 0⟩ := by decide
  have hfour : four.toUtc? = some ⟨four.nanos, 0⟩ := by decide
  refine ⟨?_, ?_⟩
  · refine (newHour_admission .available hfour hnow (by decide)).1.mpr ?_
    decide
  · refine ((newHour_admission .notAvailable hthree hnow (by decide)).2.1 _).mpr ?_
    decide

end BookingWindow

end TrainerBooking
