import TrainerBooking.Proofs.Times

/-! # When booked trainings start

A call that is done and books a training brings it into a stored hour, which begins in the second of
the time that was asked for.

* **Asked for.** `Call.Asks` says to which time a call brings which training: the one in the request,
  or the one that was proposed.
* **The hour.** The hour is a full one by the clock of UTC.  So the training starts as many nanoseconds
  after it as its time is past the second (`Moment.nanos_of_second_eq`).
* **The fraction.** In tables the fraction of a time is not kept, and the training starts exactly when
  its hour does.  In memory the training keeps it, while nobody checks that there is none: whether a
  time is a full hour is asked only when an hour is made (`Run.not_exact_start`). -/

namespace TrainerBooking

/-- In the second in which a whole second begins, a moment is as late as its fraction says. -/
theorem Moment.nanos_of_second_eq {start m : Moment} (hwhole : start.nanos % perSecond = 0)
    (hsecond : start.second = m.second) : m.nanos = start.nanos + m.subsecond := by
  simp only [second, subsecond, perSecond] at *
  omega

namespace Api

/-- The training that the call brings into an hour. -/
def Call.books? : Call → Option String
  | createTraining _ fresh _ => some fresh
  | rescheduleTraining _ id _ | approveReschedule _ id => some id
  | _ => none

theorem Call.creates_or_vacates {call : Call} {id : String} (h : call.books? = some id) :
    call.creates? = some id ∨ call.vacates? = some id := by
  cases call with
  | createTraining caller fresh r => exact .inl h
  | rescheduleTraining caller id' r => exact .inr h
  | approveReschedule caller id' => exact .inr h
  | _ => cases h

/-- The call asks to bring the training `id` to the time `asked`. -/
inductive Call.Asks (b : Books) (id : String) (asked : Moment) : Call → Prop
  | creating {caller : Caller} {r : TrainingRequest} (hread : Stamp.read r.time = .ok asked) :
      Asks b id asked (.createTraining caller id r)
  | rescheduling {caller : Caller} {r : TrainingRequest} (hread : Stamp.read r.time = .ok asked) :
      Asks b id asked (.rescheduleTraining caller id r)
  | approving {caller : Caller} {t : Training} {proposer : Role} (ht : b.trainings id = some t)
      (hp : t.proposal = some ⟨asked, proposer⟩) : Asks b id asked (.approveReschedule caller id)

end Api

namespace Books

variable {b b' : Books}

/-- The training `id` is stored at the time `asked`, as it is kept, in a stored hour.  The hour is booked,
unless the training was in the same hour before. -/
def Places (b b' : Books) (id : String) (asked : Moment) : Prop :=
  ∃ t hour, b'.trainings id = some t ∧ t.time = b'.keptTime asked ∧
    b'.hours t.time.second = some hour ∧
    ((∀ old, b.trainings id = some old → old.time.second ≠ t.time.second) →
      hour.availability = .trainingScheduled)

theorem Booking.places {t : Training} {e : Ending Failure Unit} (h : b.Booking t e b')
    (hdone : e.isDone = true) : b.Places b' t.id t.time := by
  cases h with
  | refused f => cases hdone
  | unpaid f hfree => cases hdone
  | unbooked hfree ha hn he => rw [he] at hdone; cases hdone
  | @booked a n h hfree ha hn hopen hh =>
      refine ⟨b.kept t, h, ?_, b.kept_time t, ?_, fun _ => hh⟩
      · rw [setHour_trainings, setAccount_trainings, setTraining_trainings, if_pos rfl]
      · rw [kept_second, setHour_hours, if_pos rfl]

theorem Moving.places {id : String} {caller : Caller} {change : Training → Training → Prop}
    {e : Ending Failure Unit} (h : b.Moving id caller change e b') (hdone : e.isDone = true) :
    ∃ t t', b.trainings id = some t ∧ change t t' ∧ b.Places b' id t'.time := by
  cases h with
  | refused hf => cases hdone
  | crashed => cases hdone
  | unreleased ht hsees hactive hkeeps hchange hopen hh hbooked he => rw [he] at hdone; cases hdone
  | @moved t t' h h' ht hsees hactive hkeeps hchange hopen hh hbooked hh' =>
      refine ⟨t, t', ht, hchange, b.kept t', if t'.time.second = t.time.second then h' else h, ?_,
        b.kept_time t', ?_, fun hmoved => ?_⟩
      · rw [setTraining_trainings, if_pos rfl]
      · rw [kept_second, setTraining_hours, setHour_hours]
        split
        · rfl
        · rw [setHour_hours, if_pos rfl]
      · have hne := hmoved t ht
        rw [kept_second] at hne
        rw [if_neg (Ne.symm hne)]
        exact hh

end Books

/-- A call that is done and books a training places it where it asks to. -/
theorem Api.Call.Outcome.places {now : Moment} {b b' : Books} {call : Api.Call} {done : Bool}
    {id : String} (h : call.Outcome now b done b') (hdone : done = true)
    (hid : call.books? = some id) : ∃ asked, call.Asks b id asked ∧ b.Places b' id asked := by
  cases h with
  | refused call => cases hdone
  | edited done hcreates hvacates hcaller hrole h =>
      rcases Call.creates_or_vacates hid with hc | hv
      · rw [hcreates] at hc; cases hc
      · rw [hvacates] at hv; cases hv
  | banked done hcreates hvacates h =>
      rcases Call.creates_or_vacates hid with hc | hv
      · rw [hcreates] at hc; cases hc
      · rw [hvacates] at hv; cases hv
  | booking htime h =>
      cases hid
      exact ⟨_, .creating htime, h.places hdone⟩
  | canceling h => cases hid
  | rescheduling htime h =>
      cases hid
      obtain ⟨t, t', -, rfl, hplaces⟩ := h.places hdone
      exact ⟨_, .rescheduling htime, hplaces⟩
  | approving h =>
      cases hid
      obtain ⟨t, t', ht, ⟨p, hp, rfl⟩, hplaces⟩ := h.places hdone
      exact ⟨_, .approving ht hp, hplaces⟩
  | requesting htime h => cases hid
  | rejecting h => cases hid

/-! ### Runs -/

/-- The training `id`, which the turn was asked to bring to the time `asked`, is stored in a stored hour:
a full hour of UTC within the daily band of the window. -/
structure Turn.Starts (window : BookingWindow) (turn : Turn) (id : String) (asked : Moment)
    (t : Training) (hour : Hour) : Prop where
  asks : turn.call.Asks turn.before.books id asked
  stored : turn.after.books.trainings id = some t
  kept : t.time = turn.after.books.keptTime asked
  listed : hour ∈ turn.after.hours
  covered : window.Covers hour.time
  second : hour.time.second = t.time.second
  /-- Unless the training was there before, the hour is booked. -/
  booked : (∀ old, turn.before.books.trainings id = some old →
    old.time.second ≠ t.time.second) → hour.availability = .trainingScheduled
  /-- The training does not start before its hour, and not a second later. -/
  near : hour.time ≤ t.time ∧ t.time.nanos < hour.time.nanos + Moment.perSecond
  /-- It starts exactly then, if the store keeps no fractions, or none was asked for. -/
  exact : t.time.nanos = hour.time.nanos ↔
    turn.after.books.inMemory = false ∨ asked.subsecond = 0

theorem Books.subsecond_keptTime (b : Books) (m : Moment) :
    (b.keptTime m).subsecond = 0 ↔ b.inMemory = false ∨ m.subsecond = 0 := by
  unfold keptTime
  cases b.inMemory with
  | true => simp
  | false => simp [Moment.floored, Moment.subsecond]

/-- What is placed in the hours of a timetable starts with one of them. -/
theorem Turn.starts_of_places {window : BookingWindow} {turn : Turn} {id : String} {asked : Moment}
    (hasks : turn.call.Asks turn.before.books id asked)
    (hplaces : turn.before.books.Places turn.after.books id asked)
    (hbooks : turn.after.books.Timetabled window) : ∃ t hour, turn.Starts window id asked t hour := by
  obtain ⟨t, hour, ht, htime, hhour, hbooked⟩ := hplaces
  obtain ⟨hsecond, hcovers⟩ := hbooks _ hour hhour
  have hwhole : hour.time.nanos % Moment.perSecond = 0 := by
    have hfull := hcovers.fullHour
    simp only [Moment.perHour, Moment.perSecond] at hfull ⊢
    omega
  have hnanos := Moment.nanos_of_second_eq hwhole hsecond
  have hsub : (t.time.subsecond : Int) < Moment.perSecond := by
    unfold Moment.subsecond Moment.perSecond
    omega
  refine ⟨t, hour, hasks, ht, htime, ?_, hcovers, hsecond, hbooked, ?_, ?_⟩
  · rw [hbooks.mem_hours, hsecond]
    exact hhour
  · rw [Moment.le_def]
    omega
  · rw [← Books.subsecond_keptTime, ← htime]
    omega

namespace Run

variable {window : BookingWindow} {watch : Watch} {history : List Turn} {w : World}

/-- **A training is booked into the hour of its second, and starts with it up to a fraction**: in every
run, each call that is done and books a training leaves it stored in a stored full hour, at the time
that was asked for.  In tables it starts exactly when the hour does.  In memory it does so exactly if the
time that was asked for is a whole second, and it starts within the first second of the hour anyhow. -/
theorem starts (h : Run window watch history w) : ∀ turn ∈ history, turn.ending.isDone = true →
    ∀ id, turn.call.books? = some id → ∃ asked t hour, turn.Starts window id asked t hour := by
  induction h with
  | start h => exact List.forall_mem_nil _
  | @next history w h now call ih =>
      intro turn hturn hdone id hid
      rcases List.mem_append.mp hturn with hturn | hturn
      · exact ih turn hturn hdone id hid
      · obtain rfl := List.mem_singleton.mp hturn
        have houtcome : (Turn.make window watch now call w).1.Outcome :=
          (Turn.make_outcome now call h.sound).2
        obtain ⟨asked, hasks, hplaces⟩ := houtcome.places hdone hid
        obtain ⟨-, hbooks, -⟩ := (h.next now call).log.timetabled
        exact ⟨asked, Turn.starts_of_places hasks hplaces hbooks⟩

open Sample in
/-- In tables, Ann books noon by a time with a fraction, and her proposal to move the training to three
o'clock, written an hour ahead of UTC and with a fraction as well, is approved. -/
theorem starts_ann :
    let played := playOn (.tables (.empty 1)) [
      .makeHoursAvailable tess ⟨["2030-01-02T15:00:00Z"]⟩,
      .createTraining ann "1" ⟨"2030-01-02T12:00:00.5Z", "legs"⟩,
      .requestReschedule ann "1" ⟨"2030-01-02T16:00:00.25+01:00", "legs"⟩,
      .approveReschedule tess "1"]
    (∀ turn ∈ played.1, turn.ending.isDone = true) ∧
      (played.1.map fun turn => turn.call.books?) =
        [none, none, none, none, some "1", none, some "1"] ∧
      ∀ turn ∈ played.1, ∀ id, turn.call.books? = some id →
        ∃ asked t hour, turn.Starts .standard id asked t hour := by
  intro played
  have hdone : ∀ turn ∈ played.1, turn.ending.isDone = true := by decide +kernel
  have hbooks : (played.1.map fun turn => turn.call.books?) =
      [none, none, none, none, some "1", none, some "1"] := by decide +kernel
  exact ⟨hdone, hbooks, fun turn hturn => starts (runOn (.tables 1) _) turn hturn (hdone turn hturn)⟩

open Sample in
/-- In memory, Ann books noon by a time that is half a second later.  Her training is stored at that time,
which is not the one of the hour into which it is booked. -/
theorem not_exact_start :
    ¬ ∀ (window : BookingWindow) (watch : Watch) (history : List Turn) (w : World),
      Run window watch history w → ∀ turn ∈ history, turn.ending.isDone = true →
        ∀ id, turn.call.books? = some id → ∀ t, turn.after.books.trainings id = some t →
          ∀ hour ∈ turn.after.hours, hour.time.second = t.time.second →
            t.time.nanos = hour.time.nanos := by
  intro h
  let played := play [.createTraining ann "1" ⟨"2030-01-02T12:00:00.5Z", "legs"⟩]
  let noon : Moment := ⟨1893585600 * Moment.perSecond, 0⟩
  have hlast : ∃ turn ∈ played.1, turn.ending.isDone = true ∧ turn.call.books? = some "1" ∧
      turn.after.books.trainings "1" =
        some ⟨"1", ann.id, ann.name, ⟨noon.nanos + 500000000, 0⟩, "legs", false, none⟩ ∧
      turn.after.hours = [⟨noon, .trainingScheduled⟩] := by decide +kernel
  obtain ⟨turn, hturn, hdone, hid, ht, hhours⟩ := hlast
  have hsame := h .standard .bare played.1 played.2 (Sample.run _) turn hturn hdone "1" hid _ ht
    ⟨noon, .trainingScheduled⟩ (by rw [hhours]; exact List.mem_singleton_self _) (by decide)
  exact absurd hsame (by decide)

end Run

end TrainerBooking
