import TrainerBooking.Proofs.Crashes
import TrainerBooking.Proofs.RoundTrip

/-! # What the calendar shows can be booked

An hour that the calendar shows is addressed by the time stamp under which it is shown.

* **Where hours come from.** The time of a stored hour was read from a time stamp, by which the hour was
  opened (`Run.opened`).  Hours are full, and what is read is whole minutes away from UTC, so nothing of
  the time is lost in the stamp under which the hour is shown (`Run.plain`).
* **What is shown** are stored hours (`Act.Meets.availableHours_shows`).
* **What is answered** when the stamp comes back depends on the stored hour alone: neither the clock nor
  the window is looked at for an hour that was written before (`Act.Meets.scheduleHour_stored`). -/

namespace TrainerBooking

open Api

/-! ### Where the times of hours come from -/

namespace Books

variable {window : BookingWindow} {now : Moment} {b b' : Books} {us : List HourUpdate}
variable {given given' : Moment → Prop}

/-- Every hour is at one of the times given, as it is kept. -/
def Opened (given : Moment → Prop) (b : Books) : Prop :=
  ∀ second h, b.hours second = some h → ∃ m, given m ∧ h.time = b.keptTime m

theorem Opened.mono (h : b.Opened given) (hgiven : ∀ m, given m → given' m) : b.Opened given' := by
  intro second hour hh
  obtain ⟨m, hm, htime⟩ := h second hour hh
  exact ⟨m, hgiven m hm, htime⟩

/-- Only updates that open hours bring times of their own. -/
theorem Worked.opened_at (h : Worked window now b us b') (hb : b.Opened given)
    (hnew : ∀ u ∈ us, u.step = .makeAvailable → given u.time) : b'.Opened given := by
  induction h with
  | rest hhours hkind =>
      intro second hour hh
      rw [hhours] at hh
      obtain ⟨m, hm, htime⟩ := hb second hour hh
      exact ⟨m, hm, by rw [keptTime_congr hkind, htime]⟩
  | step hwrites hrest ih =>
      refine ih (fun second hour hh => ?_) fun v hv => hnew v (List.mem_cons_of_mem _ hv)
      rw [setHour_hours] at hh
      split at hh
      · obtain rfl := Option.some.inj hh
        cases hwrites with
        | stepped hold hfrom =>
            obtain ⟨m, hm, htime⟩ := hb _ _ hold
            exact ⟨m, hm, htime⟩
        | opened hnone hstep hcheck => exact ⟨_, hnew _ List.mem_cons_self hstep, rfl⟩
      · exact hb second hour hh

end Books

/-- What an order opens is in the order. -/
theorem Desk.Order.opens_mem {b : Books} {order : Order} {u : HourUpdate}
    (hu : u ∈ order.updates b) (hstep : u.step = .makeAvailable) : u.time ∈ order.times := by
  have hmem := step_mem hu
  rw [hstep] at hmem
  cases order with
  | makeHoursAvailable times =>
      obtain ⟨time, htime, rfl⟩ := List.mem_map.mp hu
      exact htime
  | _ => simp [steps] at hmem

theorem Deed.opens_mem {b : Books} {deed : Deed} {u : HourUpdate} (hu : u ∈ deed.updates b)
    (hstep : u.step = .makeAvailable) : u.time ∈ deed.times := by
  cases deed with
  | order o => exact Desk.Order.opens_mem hu hstep
  | call c =>
      cases horder : c.order? with
      | none =>
          rw [updates, Call.updates, horder] at hu
          cases hu
      | some o =>
          rw [updates, Call.updates_of_order horder] at hu
          rw [times, order?, horder]
          exact Desk.Order.opens_mem hu hstep

/-- **Every hour was opened** at a time that was given with one of the deeds. -/
theorem Log.opened {window : BookingWindow} {log : List Entry} {w : World} (h : Log window log w) :
    w.store.books.Opened fun m => ∃ e ∈ log, m ∈ e.deed.times := by
  induction h with
  | start h =>
      intro second hour hh
      rw [h.hours] at hh
      cases hh
  | next h watch now deed ih =>
      obtain ⟨-, made, hbegin, hworked, -⟩ := deed.perform_works window watch now h.timetabled.1
      refine hworked.opened_at (ih.mono fun m hm => ?_) fun u hu hstep => ?_
      · obtain ⟨e, he, hm⟩ := hm
        exact ⟨e, List.mem_append_left _ he, hm⟩
      · refine ⟨_, List.mem_append_right _ (List.mem_singleton_self _), ?_⟩
        exact Deed.opens_mem (hbegin.subset hu) hstep

/-- The time that was read, as it is kept, is plain if it is a full hour. -/
theorem Moment.plain_of_read {b : Books} {s : String} {m : Moment} (hread : Stamp.read s = .ok m)
    (hfull : (b.keptTime m).nanos % perHour = 0) : (b.keptTime m).Plain := by
  obtain ⟨date, second, nanos, offset, rfl, -, -, -, -, hfirst, hlast, hminutes⟩ :=
    Stamp.read_eq_ok hread
  have hoffset : (b.keptTime (Stamp.momentAt date second nanos offset)).offset = offset ∨
      (b.keptTime (Stamp.momentAt date second nanos offset)).offset = 0 := by
    unfold Books.keptTime
    split
    · exact .inl rfl
    · exact .inr rfl
  refine ⟨?_, ?_, ?_⟩
  · unfold subsecond
    unfold perHour perSecond at *
    omega
  · omega
  · omega

namespace Run

variable {window : BookingWindow} {watch : Watch} {history : List Turn} {w : World}

/-- A stored hour is filed under its second, and its time stamp denotes its time. -/
theorem plain (h : Run window watch history w) {second : Int} {hour : Hour}
    (hh : w.store.books.hours second = some hour) : hour.time.second = second ∧ hour.time.Plain := by
  obtain ⟨-, htimetabled, -⟩ := h.log.timetabled
  obtain ⟨hfiled, hcovers⟩ := htimetabled second hour hh
  obtain ⟨m, hgiven, htime⟩ := h.log.opened second hour hh
  obtain ⟨turn, -, s, -, hread⟩ := given_read hgiven
  refine ⟨hfiled, ?_⟩
  have hfull := hcovers.fullHour
  rw [htime] at hfull ⊢
  exact Moment.plain_of_read hread hfull

end Run

/-! ### What is shown -/

namespace HourResponse

variable {b : Books}

/-- Does the response show an hour of the books? -/
def Shows (b : Books) (r : HourResponse) : Prop :=
  ∃ second hour, b.hours second = some hour ∧ of hour.view = .ok r

theorem of_eq_ok {view : HourView} {r : HourResponse} (h : of view = .ok r) :
    view.time.stamp? = some r.hour ∧ r.available = view.available ∧ r.booked = view.booked := by
  unfold of Response.stamp at h
  cases hstamp : view.time.stamp? with
  | none =>
      rw [hstamp] at h
      cases h
  | some text =>
      rw [hstamp] at h
      cases h
      exact ⟨rfl, rfl, rfl⟩

end HourResponse

/-- The hours of the days that are shown are those of the days. -/
theorem DayResponse.hours_of {days : List Day} {list : List DayResponse}
    (h : days.mapM DayResponse.of = .ok list) {day : DayResponse} (hday : day ∈ list)
    {r : HourResponse} (hr : r ∈ day.hours) :
    ∃ view ∈ days.flatMap Day.hours, HourResponse.of view = .ok r := by
  obtain ⟨d, hd, hof⟩ := exists_of_mem_mapM h hday
  unfold DayResponse.of at hof
  cases hhours : d.hours.mapM HourResponse.of with
  | error f =>
      rw [hhours] at hof
      cases hof
  | ok hours =>
      rw [hhours] at hof
      cases hof
      obtain ⟨view, hview, hr⟩ := exists_of_mem_mapM hhours hr
      exact ⟨view, List.mem_flatMap.mpr ⟨d, hd, hview⟩, hr⟩

namespace Act.Meets

variable {s : Setting} {b : Books}

/-- The calendar shows hours of the books, if they have times in UTC. -/
theorem availableHours_shows (hs : s.held.hours = [])
    (hutc : ∀ second hour, b.hours second = some hour → hour.time.toUtc?.isSome = true)
    (r : CalendarRequest) :
    (Call.availableHours r).perform.Meets s b fun e _ => ∀ days, e = .done (.days days) →
      ∀ day ∈ days, ∀ shown ∈ day.hours, shown.Shows b := by
  refine bind (readTimeThen (fun first _ => readTimeThen (fun last _ => ?_) nofun) nofun)
  refine bind (operation (watched fun _ => ?_))
  by_cases hlt : last < first
  · rw [if_pos hlt]
    exact refuse nofun
  rw [if_neg hlt]
  have hle : first.second ≤ last.second := Moment.second_mono (Moment.not_lt.mp hlt)
  refine bind (hoursBetween ?_ hle fun hours hhours => .of_done (ofEnding ?_))
  · exact hs
  have hstored : ∀ hour ∈ hours, ∃ second, b.hours second = some hour := by
    intro hour hmem
    obtain ⟨seconds, -, -, rfl⟩ := hhours
    obtain ⟨second, -, hh⟩ := List.mem_filterMap.mp hmem
    exact ⟨second, hh⟩
  have hall : ∀ hour ∈ hours, hour.time.toUtc?.isSome = true := by
    intro hour hmem
    obtain ⟨second, hh⟩ := hstored hour hmem
    exact hutc second hour hh
  obtain ⟨days, hdays, hviews⟩ := Day.group_done (ε := Failure) hall
  rw [hdays]
  refine .of_done (ofExcept ?_)
  cases hlist : days.mapM DayResponse.of with
  | error f => exact nofun
  | ok list =>
      refine .of_done (pure ?_)
      rintro days' ⟨⟩ day hday shown hshown
      obtain ⟨view, hview, hof⟩ := DayResponse.hours_of hlist hday hshown
      rw [hviews] at hview
      obtain ⟨hour, hmem, rfl⟩ := List.mem_map.mp hview
      obtain ⟨second, hh⟩ := hstored hour hmem
      exact ⟨second, hour, hh, hof⟩

end Act.Meets

/-! ### What is answered -/

namespace Books

variable {b : Books}

/-- Nothing but the hour can keep the caller from booking a training with the identifier and the
notes. -/
structure Ready (b : Books) (caller : Caller) (fresh notes : String) : Prop where
  role : caller.role = .attendee
  /-- The caller has an identifier and a name, as everybody has who is let in. -/
  named : Text.isBlank caller.id = false ∧ Text.isBlank caller.name = false
  identifier : Text.isBlank fresh = false
  unused : b.trainings fresh = none
  notes : notes.length ≤ 1000
  /-- A 64-bit number of credits is shown for the account of the caller, and there is one at least. -/
  credit : ∃ a, b.accounts caller.id = some a ∧ 1 ≤ b.shown a ∧
    b.shown a ≤ Account.greatestBalance

theorem Ready.book {caller : Caller} {fresh notes : String} (h : b.Ready caller fresh notes)
    (time : Moment) : Training.book fresh caller.id caller.name time notes =
      .ok ⟨fresh, caller.id, caller.name, time, notes, false, none⟩ := by
  have hnotes : Training.checkNotes notes = .ok () := if_neg (Nat.not_lt.mpr h.notes)
  rw [Training.book, h.identifier, h.named.1, h.named.2, hnotes]
  rfl

end Books

theorem Response.stamp_of_stamp? {m : Moment} {text : String} (h : m.stamp? = some text) :
    stamp m = .ok text := by
  unfold stamp
  rw [h]

theorem Api.toOption_readTime {field value : String} {m : Moment} (h : Stamp.read value = .ok m) :
    (readTime field value).toOption = some m := by
  unfold readTime
  rw [h]
  rfl

/-- Booking a training ends with its identifier if the hour is open, and with a conflict otherwise. -/
def Api.BooksIf (available : Bool) (fresh : String) (e : Ending Refusal Reply) : Prop :=
  if available then e = .done (.identifier fresh)
  else ∃ message, e = .refused (.conflict "hour-not-available" message)

namespace Act.Meets

variable {s : Setting} {b : Books}

/-- A stored hour is booked if it is open, whatever the clock says. -/
theorem scheduleHour_stored {time : Moment} (hour : Hour) (hs : s.held.hours = [])
    (hh : b.hours time.second = some hour) {Q : Ending Failure Unit → Books → Prop}
    (hopen : hour.isAvailable = true → ∀ b', Q (.done ()) b')
    (hclosed : hour.isAvailable = false → Q (.refused (.within "schedule-training-failed"
      "unable to schedule training" (.rule .hourNotAvailable))) b) :
    (Desk.scheduleHour time).Meets s b Q := by
  have stepped : ∀ {s : Setting} {Q : Ending Failure Hour → Books → Prop}, s.held.hours = [] →
      Q (b.stepHour time .scheduleTraining s).1 (b.stepHour time .scheduleTraining s).2 →
        (Repository.updateHour time (Desk.stepping .scheduleTraining)).Meets s b Q :=
    fun hs hQ => updateHour hs hQ
  refine watched fun _ => bind (within (stepped hs ?_))
  unfold Books.stepHour Books.updateHour Books.startHour
  rw [hh]
  obtain ⟨time', a⟩ := hour
  cases a with
  | available => exact .of_done (pure (hopen rfl _))
  | notAvailable => exact hclosed rfl
  | trainingScheduled => exact hclosed rfl

/-- A stored hour is shown again as it is. -/
theorem hourAvailability_answers {stamp : String} {time : Moment} {hour : Hour}
    (hs : s.held.hours = []) (hread : Stamp.read stamp = .ok time) (hstamp : time.stamp? = some stamp)
    (hh : b.hours time.second = some hour) :
    (Call.hourAvailability ⟨stamp⟩).perform.Meets s b fun e _ =>
      e = .done (.availability ⟨stamp, hour.isAvailable⟩) := by
  refine bind (respondThen (toOption_readTime hread) (bind (operation (watched fun _ => ?_))))
  refine bind (hour? ?_ ?_)
  · exact hs
  rw [hh]
  refine .of_done (pure (.of_done (bind (ofExcept ?_))))
  rw [Response.stamp_of_stamp? hstamp]
  exact .of_done (pure (.of_done (pure rfl)))

/-- A training is booked in a stored hour if that is open. -/
theorem createTraining_booksIf {caller : Caller} {fresh stamp notes : String} {time : Moment}
    {hour : Hour} (hs : s.held = Held.nothing) (hready : b.Ready caller fresh notes)
    (hread : Stamp.read stamp = .ok time) (hh : b.hours time.second = some hour) :
    (Call.createTraining caller fresh ⟨stamp, notes⟩).perform.Meets s b fun e _ =>
      BooksIf hour.isAvailable fresh e := by
  obtain ⟨a, ha, hone, hle⟩ := hready.credit
  refine bind (required (decide_eq_true hready.role) (respondThen (toOption_readTime hread) ?_))
  refine bind (operation (watched fun _ => bind_ofRule (fun v hv => ?_) fun t ht => ?_))
  · rw [hready.book] at hv
    cases hv
  obtain rfl := Training.book_eq_ok ht
  refine bind (within (addTraining ?_ (fun detail htaken => ?_) fun _ => ?_))
  · exact congrArg Held.trainings hs
  · rw [hready.unused] at htaken
    cases htaken
  refine .of_done (bind (within (creditAccount (fun a' n _ _ => .of_done ?_) (fun hmissing => ?_)
    fun a' ha' hrefused => ?_)))
  · refine within (scheduleHour_stored hour ?_ ?_ (fun hopen b' => ?_) fun hclosed => ?_)
    · exact congrArg Held.hours hs
    · exact hh
    · refine .of_done (bind (note (.of_done (pure (.of_done (pure ?_))))))
      rw [BooksIf, hopen]
      rfl
    · rw [hclosed]
      exact ⟨_, rfl⟩
  · rw [Books.setTraining_accounts, ha] at hmissing
    cases hmissing
  · rw [Books.setTraining_accounts, ha] at ha'
    obtain rfl := Option.some.inj ha'
    exact absurd hrefused (b.newBalance?_charge_isSome hone hle)

end Act.Meets

/-! ### Runs -/

/-- What is asked about the hour of the response, and booked in it, is answered as the response says, at
any reading of the clock. -/
structure HourResponse.Holds (window : BookingWindow) (watch : Watch) (w : World) (r : HourResponse) :
    Prop where
  exclusive : ¬ (r.available = true ∧ r.booked = true)
  asked : ∀ now, (Turn.make window watch now (.hourAvailability ⟨r.hour⟩) w).1.ending =
    .done (.availability ⟨r.hour, r.available⟩)
  booking : ∀ now caller fresh notes, w.store.books.Ready caller fresh notes →
    BooksIf r.available fresh
      (Turn.make window watch now (.createTraining caller fresh ⟨r.hour, notes⟩) w).1.ending

namespace Run

variable {window : BookingWindow} {watch : Watch} {history : List Turn} {w : World}

/-- An hour of the books that is shown holds what it shows. -/
theorem holds_of_shows (h : Run window watch history w) {r : HourResponse}
    (hr : r.Shows w.store.books) : r.Holds window watch w := by
  obtain ⟨second, hour, hh, hof⟩ := hr
  obtain ⟨hstamp, havailable, hbooked⟩ := HourResponse.of_eq_ok hof
  obtain ⟨hfiled, hplain⟩ := h.plain hh
  -- The stamp denotes the time of the hour, and the hour is filed under the second of its time.
  have hread : Stamp.read r.hour = .ok hour.time := hplain.read_of_stamp? hstamp
  rw [← hfiled] at hh
  have hopen : r.available = hour.isAvailable := havailable
  refine ⟨?_, fun now => ?_, fun now caller fresh notes hready => ?_⟩
  · rw [havailable, hbooked]
    obtain ⟨time, a⟩ := hour
    cases a <;> simp [Hour.view, Hour.isAvailable, Hour.hasTraining]
  · rw [hopen]
    exact (Act.Meets.hourAvailability_answers rfl hread hstamp hh w h.sound rfl).2
  · rw [hopen]
    exact (Act.Meets.createTraining_booksIf rfl hready hread hh w h.sound rfl).2

/-- **What the calendar shows is what can be booked**: after every run, each hour of a calendar that is
answered is not both open and booked; asked about the hour under its time stamp, the API answers the
same; and whoever has a credit books a training there if the hour is shown as open, and is refused with
the conflict over the hour otherwise, whatever the clock says. -/
theorem shown_can_be_booked (h : Run window watch history w) (now : Moment) (r : CalendarRequest)
    {days : List DayResponse}
    (hdays : (Turn.make window watch now (.availableHours r) w).1.ending = .done (.days days)) :
    ∀ day ∈ days, ∀ shown ∈ day.hours, shown.Holds window watch w := by
  have hutc : ∀ second hour, w.store.books.hours second = some hour →
      hour.time.toUtc?.isSome = true := by
    intro second hour hh
    obtain ⟨-, htimetabled, -⟩ := h.log.timetabled
    obtain ⟨-, utc, hutc, -⟩ := htimetabled second hour hh
    exact Option.isSome_of_mem hutc
  have hmeets := Act.Meets.availableHours_shows (s := .outer now window watch) rfl hutc r
  intro day hday shown hshown
  exact h.holds_of_shows ((hmeets w h.sound rfl).2 days hdays day hday shown hshown)

open Sample in
/-- In memory, Ann books noon, and Tess opens the hour after it as it is written two hours ahead of UTC.
The calendar shows one of them as booked and the other as open, and Bob, who has a credit, can try
both. -/
theorem shown_can_be_booked_bob :
    let played := play [.createTraining ann "1" noon,
      .makeHoursAvailable tess ⟨["2030-01-02T15:00:00+02:00"]⟩]
    let days : List DayResponse := [⟨"2030-01-02", true,
      [⟨"2030-01-02T12:00:00Z", false, true⟩, ⟨"2030-01-02T15:00:00+02:00", true, false⟩]⟩]
    (Turn.make .standard .bare newYear
        (.availableHours ⟨"2030-01-02T00:00:00Z", "2030-01-03T00:00:00+01:00"⟩) played.2).1.ending =
      .done (.days days) ∧
    played.2.store.books.Ready bob "2" "arms" ∧
    ∀ day ∈ days, ∀ shown ∈ day.hours, shown.Holds .standard .bare played.2 := by
  intro played days
  have hdays : (Turn.make .standard .bare newYear
      (.availableHours ⟨"2030-01-02T00:00:00Z", "2030-01-03T00:00:00+01:00"⟩) played.2).1.ending =
      .done (.days days) := by decide +kernel
  have haccount : played.2.store.books.accounts bob.id =
      some ⟨bob.id, .attendee, bob.name, 1, none⟩ := by decide +kernel
  have hunused : played.2.store.books.trainings "2" = none := by decide +kernel
  have hshown : played.2.store.books.shown ⟨bob.id, .attendee, bob.name, 1, none⟩ = 1 := by
    decide +kernel
  have hrun : Run .standard .bare played.1 played.2 := Sample.run _
  -- The world is not to be worked out again where the facts on it are used.
  clear_value played
  have hready : played.2.store.books.Ready bob "2" "arms" := {
    role := rfl
    named := by decide
    identifier := by decide
    unused := hunused
    notes := by decide
    credit := ⟨_, haccount, by rw [hshown], by rw [hshown]; decide⟩ }
  exact ⟨hdays, hready, shown_can_be_booked hrun newYear _ hdays⟩

end Run

end TrainerBooking
