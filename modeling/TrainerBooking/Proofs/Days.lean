import Mathlib.Data.List.Chain
import TrainerBooking.Proofs.Crashes
import TrainerBooking.Proofs.RoundTrip

/-! # The calendar by days

The query on the calendar answers every stored hour of its range, once, under its UTC date
(`Reached.calendar`).

* **Cutting.** `Day.Cut` says of days that they are a list of hours, cut where the UTC date changes.
  Whatever the list, grouping cuts it, unless one of the hours has no time in UTC.
* **Order.** Grouping looks at neighbours only.  That no date comes twice is due to the list: UTC dates
  are monotone in the instant, in whatever offsets the hours are written, so the days of hours in
  order of time are in order too (`Day.Cut.pairwise`).
* **Reached.** The stores are those that orders, calls and deletions of hours make from an empty one.
  They file every hour under its second, at a time that the window covers, and such a time is one in
  UTC. -/

namespace TrainerBooking

/-! ### Dates of hours -/

/-- The date on which the hour begins in UTC. -/
def Hour.utcDate (h : Hour) : Date := (⟨h.time.nanos, 0⟩ : Moment).date

/-! ### Cutting a list of hours -/

namespace Day

theorem cons_cons (date : Date) (view : HourView) (d : Day) (rest : List Day) :
    cons date view (d :: rest) =
      if d.date = date then ⟨date, view.available || d.hasFreeHours, view :: d.hours⟩ :: rest
      else ⟨date, view.available, [view]⟩ :: d :: rest := rfl

/-- A day is the one that the hour in front begins, the one that it joins, or one behind. -/
theorem mem_cons {date : Date} {view : HourView} {days : List Day} {day : Day}
    (h : day ∈ cons date view days) :
    day = ⟨date, view.available, [view]⟩ ∨
      (∃ d ∈ days, d.date = date ∧
        day = ⟨date, view.available || d.hasFreeHours, view :: d.hours⟩) ∨ day ∈ days := by
  cases days with
  | nil => exact .inl (List.mem_singleton.mp h)
  | cons d rest =>
      rw [cons_cons] at h
      split at h
      · next hdate =>
          rcases List.mem_cons.mp h with rfl | h
          · exact .inr (.inl ⟨d, List.mem_cons_self, hdate, rfl⟩)
          · exact .inr (.inr (List.mem_cons_of_mem _ h))
      · rcases List.mem_cons.mp h with rfl | h
        · exact .inl rfl
        · exact .inr (.inr h)

/-- The hours of a day are listed with its date. -/
theorem dated_ofDated {l : List (Date × HourView)} {day : Day} (h : day ∈ ofDated l) :
    ∀ view ∈ day.hours, (day.date, view) ∈ l := by
  induction l generalizing day with
  | nil => cases h
  | cons x rest ih =>
      obtain ⟨date, first⟩ := x
      intro view hview
      rcases mem_cons h with rfl | ⟨d, hd, rfl, rfl⟩ | h
      · obtain rfl := List.mem_singleton.mp hview
        exact List.mem_cons_self
      · rcases List.mem_cons.mp hview with rfl | hview
        · exact List.mem_cons_self
        · exact List.mem_cons_of_mem _ (ih hd view hview)
      · exact List.mem_cons_of_mem _ (ih h view hview)

theorem hours_ne_nil_of_mem_ofDated {l : List (Date × HourView)} {day : Day}
    (h : day ∈ ofDated l) : day.hours ≠ [] := by
  induction l with
  | nil => cases h
  | cons x rest ih =>
      rcases mem_cons h with rfl | ⟨d, -, -, rfl⟩ | h
      · exact List.cons_ne_nil _ _
      · exact List.cons_ne_nil _ _
      · exact ih h

/-- A day has free hours if one of its hours can be booked. -/
theorem hasFreeHours_ofDated {l : List (Date × HourView)} {day : Day} (h : day ∈ ofDated l) :
    day.hasFreeHours = day.hours.any HourView.available := by
  induction l generalizing day with
  | nil => cases h
  | cons x rest ih =>
      rcases mem_cons h with rfl | ⟨d, hd, -, rfl⟩ | h
      · simp
      · simp [ih hd]
      · exact ih h

/-- Neighbouring days have different dates. -/
theorem isChain_ofDated (l : List (Date × HourView)) :
    (ofDated l).IsChain fun d d' => d.date ≠ d'.date := by
  induction l with
  | nil => exact .nil
  | cons x rest ih =>
      show (cons x.1 x.2 (ofDated rest)).IsChain _
      cases hrest : ofDated rest with
      | nil => exact .singleton _
      | cons d days =>
          rw [hrest] at ih
          rw [cons_cons]
          split
          · next hdate =>
              rw [List.isChain_cons] at ih ⊢
              refine ⟨fun d' hd' => ?_, ih.2⟩
              rw [← hdate]
              exact ih.1 d' hd'
          · next hdate => exact .cons_cons (Ne.symm hdate) ih

/-- The days are the hours, cut where the UTC date changes. -/
structure Cut (hours : List Hour) (days : List Day) : Prop where
  /-- Put together, the days show the hours in their order. -/
  whole : days.flatMap Day.hours = hours.map Hour.view
  /-- Every hour of a day has its date in UTC. -/
  dated : ∀ day ∈ days, ∀ view ∈ day.hours, view.time.toUtc?.map Moment.date = some day.date
  /-- Neighbouring days have different dates. -/
  apart : days.IsChain fun d d' => d.date ≠ d'.date
  /-- Every day has an hour. -/
  inhabited : ∀ day ∈ days, day.hours ≠ []
  /-- A day has free hours exactly if one of its hours is available. -/
  free : ∀ day ∈ days, day.hasFreeHours = true ↔ ∃ view ∈ day.hours, view.available = true

theorem cut_ofDated {hours : List Hour} (h : ∀ hour ∈ hours, hour.time.toUtc?.isSome = true) :
    Cut hours (ofDated (hours.map fun hour => (hour.utcDate, hour.view))) where
  whole := by
    rw [hours_ofDated, List.map_map]
    rfl
  dated day hday view hview := by
    obtain ⟨hour, hhour, heq⟩ := List.mem_map.mp (dated_ofDated hday view hview)
    obtain ⟨hdate, rfl⟩ := Prod.mk.inj heq
    obtain ⟨utc, hutc⟩ := Option.isSome_iff_exists.mp (h hour hhour)
    rw [← hdate, Hour.view, hutc, Moment.toUtc?_eq_some hutc]
    rfl
  apart := isChain_ofDated _
  inhabited _ hday := hours_ne_nil_of_mem_ofDated hday
  free day hday := by rw [hasFreeHours_ofDated hday, List.any_eq_true]

/-- Dating goes through the list if all of the hours have times in UTC, and crashes otherwise. -/
theorem mapM_dated {ε : Type} (hours : List Hour) :
    (hours.mapM dated : Ending ε (List (Date × HourView))) =
      if ∀ hour ∈ hours, hour.time.toUtc?.isSome = true then
        .done (hours.map fun hour => (hour.utcDate, hour.view))
      else .crashed := by
  induction hours with
  | nil => rfl
  | cons hour rest ih =>
      rw [List.mapM_cons, ih, dated]
      cases hutc : hour.time.toUtc? with
      | none => simp [hutc]
      | some utc =>
          obtain rfl := Moment.toUtc?_eq_some hutc
          by_cases hrest : ∀ hour ∈ rest, hour.time.toUtc?.isSome = true
          · simp [hutc, if_pos hrest, Hour.utcDate]
          · rw [if_neg hrest, if_neg fun h => hrest (List.forall_mem_cons.mp h).2]
            rfl

/-- **Grouping cuts the list**, unless an hour of it has no time in UTC: then it crashes. -/
theorem group_eq {ε : Type} (hours : List Hour) :
    (group hours : Ending ε (List Day)) =
      if ∀ hour ∈ hours, hour.time.toUtc?.isSome = true then
        .done (ofDated (hours.map fun hour => (hour.utcDate, hour.view)))
      else .crashed := by
  rw [group, mapM_dated]
  split <;> rfl

/-- The day of a cut has the number of the day on which any of its hours begins. -/
theorem Cut.date_eq {hours : List Hour} {days : List Day} (h : Cut hours days) {day : Day}
    (hday : day ∈ days) {view : HourView} (hview : view ∈ day.hours) :
    day.date = Date.ofDayNumber (view.time.second / 86400) := by
  obtain ⟨utc, hutc, hdate⟩ := Option.map_eq_some_iff.mp (h.dated day hday view hview)
  rw [← hdate, Moment.toUtc?_eq_some hutc, Moment.date, Moment.localSecond, Int.add_zero]
  rfl

/-- **The days of hours in order of time are in order**, and so no date comes twice. -/
theorem Cut.pairwise {hours : List Hour} {days : List Day} (h : Cut hours days)
    (hsorted : hours.Pairwise fun a b => a.time < b.time) :
    days.Pairwise fun d d' => d.date.dayNumber < d'.date.dayNumber := by
  have hviews : (days.flatMap Day.hours).Pairwise fun v v' => v.time ≤ v'.time := by
    rw [h.whole, List.pairwise_map]
    exact hsorted.imp fun hlt => Int.le_of_lt hlt
  have hle : days.Pairwise fun d d' => d.date.dayNumber ≤ d'.date.dayNumber := by
    refine (List.pairwise_flatMap.mp hviews).2.imp_of_mem fun {d d'} hd hd' hdays => ?_
    obtain ⟨view, hview⟩ := List.exists_mem_of_ne_nil _ (h.inhabited d hd)
    obtain ⟨view', hview'⟩ := List.exists_mem_of_ne_nil _ (h.inhabited d' hd')
    rw [h.date_eq hd hview, h.date_eq hd' hview', Date.dayNumber_ofDayNumber,
      Date.dayNumber_ofDayNumber]
    exact Int.ediv_le_ediv (by decide) (Moment.second_mono (hdays view hview view' hview'))
  have hinj : ∀ d ∈ days, Date.ofDayNumber d.date.dayNumber = d.date := by
    intro d hd
    obtain ⟨view, hview⟩ := List.exists_mem_of_ne_nil _ (h.inhabited d hd)
    rw [h.date_eq hd hview, Date.dayNumber_ofDayNumber]
  have hchain : (days.map fun d => d.date.dayNumber).IsChain (· < ·) := by
    rw [List.isChain_map, List.isChain_iff_forall_rel_of_append_cons_cons]
    intro d d' before after hdays
    have hne : d.date ≠ d'.date :=
      List.isChain_iff_forall_rel_of_append_cons_cons.mp h.apart hdays
    have hdd' : d.date.dayNumber ≤ d'.date.dayNumber := by
      rw [hdays, List.pairwise_append, List.pairwise_cons] at hle
      exact hle.2.1.1 d' List.mem_cons_self
    refine Int.lt_iff_le_and_ne.mpr ⟨hdd', fun heq => hne ?_⟩
    rw [← hinj d (by simp [hdays]), ← hinj d' (by simp [hdays]), heq]
  exact List.pairwise_map.mp hchain.pairwise

end Day

/-! ### Deleting hours -/

/-- The books without the hour of a second. -/
def Books.eraseHour (b : Books) (second : Int) : Books :=
  { b with hours := Function.update b.hours second none }

theorem Books.Timetabled.eraseHour {b : Books} {window : BookingWindow} (hb : b.Timetabled window)
    (second : Int) : (b.eraseHour second).Timetabled window := by
  intro other hour hh
  rw [Books.eraseHour] at hh
  dsimp only at hh
  rw [Function.update_apply] at hh
  split at hh
  · cases hh
  · exact hb other hour hh

theorem HourTable.Sound.erase {t : HourTable} (ht : t.Sound) (second : Int) :
    HourTable.Sound { t with rows := t.rows.erase second } := by
  have hget : ∀ {s : Int} {r : HourRow}, (t.rows.erase second).get? s = some r →
      t.rows.get? s = some r := by
    intro s r hr
    rw [Registry.get?_erase] at hr
    split at hr
    · cases hr
    · exact hr
  exact {
    second := fun hr => ht.second (hget hr)
    inYears := fun hr => ht.inYears (hget hr)
    known := fun hr => ht.known (hget hr)
    rowId_le := fun hr => ht.rowId_le (hget hr)
    rowId_inj := fun hr hr' => ht.rowId_inj (hget hr) (hget hr') }

theorem Tables.books_eraseHour (t : Tables) (second : Int) :
    Tables.books { t with hours := { t.hours with rows := t.hours.rows.erase second } } =
      t.books.eraseHour second := by
  unfold Tables.books Books.eraseHour
  congr 1
  funext s
  rw [Registry.get?_erase, Function.update_apply]
  split <;> rfl

/-- Deleting an hour takes it out of the calendar, or nothing. -/
theorem Act.Meets.deleteHour {s : Setting} {b : Books} {time : Moment} (hs : s.held.hours = []) :
    (Repository.deleteHour time).Meets s b fun _ b' => b' = b ∨ b' = b.eraseHour time.second := by
  intro w hw hb
  subst hb
  rw [Repository.deleteHour, bind_run_done (setting_run s w), bind_run_done (store_run s w)]
  cases hst : w.store with
  | memory m =>
      rw [hst] at hw
      simpa [hst] using hw
  | tables t =>
      rw [hst] at hw
      have hlease : t.lease (!s.held.hours.isEmpty) .writing = .ok () := by rw [hs]; rfl
      by_cases hrow : t.hours.rows.contains time.second = true
      · have hdelete : t.deleteHour time.second =
            .ok ({ t.hours with rows := t.hours.rows.erase time.second }, true) := by
          rw [Tables.deleteHour, if_pos hrow, Tables.change_eq hw.traps]
          rfl
        have hw' : Tables.Sound _ := Tables.Sound.withHours hw (hw.hours.erase time.second)
        have hbooks := t.books_eraseHour time.second
        simpa [hlease, hdelete, bind_run, Act.changeTables, hst, Act.note] using
          ⟨hw', .inr hbooks⟩
      · have hdelete : t.deleteHour time.second = .ok (t.hours, false) := by
          rw [Tables.deleteHour, if_neg hrow]
        simpa [hlease, hdelete, bind_run, Act.changeTables, hst] using hw

/-! ### The hours of a range -/

/-- A timetable lists exactly the hours of the range, each once, in order of time. -/
theorem Books.Timetabled.lists {st : Store} {window : BookingWindow}
    (hb : st.books.Timetabled window) {first last : Int} {hours : List Hour}
    (hl : st.books.ListsHours first last hours) :
    (∀ hour, hour ∈ hours ↔
      hour ∈ st.hours ∧ first ≤ hour.time.second ∧ hour.time.second ≤ last) ∧
    hours.Pairwise fun a b => a.time < b.time := by
  obtain ⟨seconds, hsorted, hmem, rfl⟩ := hl
  constructor
  · intro hour
    rw [hb.mem_hours, List.mem_filterMap]
    constructor
    · rintro ⟨second, hsecond, hh⟩
      obtain ⟨rfl, -⟩ := hb second hour hh
      exact ⟨hh, ((hmem _).mp hsecond).1⟩
    · rintro ⟨hh, hrange⟩
      exact ⟨_, (hmem _).mpr ⟨hrange, Option.isSome_of_mem hh⟩, hh⟩
  · refine List.pairwise_filterMap.mpr (hsorted.imp fun {second second'} hlt a ha b hb' => ?_)
    obtain ⟨rfl, -⟩ := hb _ a ha
    obtain ⟨rfl, -⟩ := hb _ b hb'
    -- A time that is not earlier would lie in a second that is not earlier.
    exact Int.not_le.mp fun hle => Int.not_le.mpr hlt (Moment.second_mono hle)

/-- On a timetable the query refuses a range whose end comes first, and answers the days of the hours
of any other range. -/
theorem Act.Meets.availableHours_cut {s : Setting} {st : Store} {window : BookingWindow}
    (hs : s.held.hours = []) (hb : st.books.Timetabled window) (first last : Moment) :
    (Desk.availableHours first last).Meets s st.books fun e _ =>
      if last < first then e = .refused (.rule (.invertedRange first last))
      else ∃ days hours, e = .done days ∧ Day.Cut hours days ∧
        st.books.ListsHours first.second last.second hours := by
  refine watched fun _ => ?_
  by_cases hlt : last < first
  · simp only [if_pos hlt]
    exact refuse rfl
  · simp only [if_neg hlt]
    refine bind (hoursBetween ?_ (Moment.second_mono (Moment.not_lt.mp hlt)) fun hours hl => ?_)
    · exact hs
    · have hutc : ∀ hour ∈ hours, hour.time.toUtc?.isSome = true := by
        intro hour hhour
        obtain ⟨hstored, -, -⟩ := ((hb.lists hl).1 hour).mp hhour
        obtain ⟨-, utc, hutc, -⟩ := hb _ hour (hb.mem_hours.mp hstored)
        exact Option.isSome_of_mem hutc
      refine .of_done (ofEnding ⟨_, hours, ?_, Day.cut_ofDated hutc, hl⟩)
      rw [Day.group_eq, if_pos hutc]

/-! ### Worlds that are reached -/

/-- The worlds that orders, calls and deletions of hours reach from an empty store, whichever way they
are watched. -/
inductive Reached (window : BookingWindow) : World → Prop
  | start {w : World} (h : w.store.Empty) : Reached window w
  | deed {w : World} (h : Reached window w) (watch : Watch) (now : Moment) (deed : Deed) :
      Reached window (Entry.make window watch now deed w).2
  | deletion {w : World} (h : Reached window w) (watch : Watch) (now time : Moment) :
      Reached window (Repository.deleteHour time (.outer now window watch) w).2

namespace Reached

variable {window : BookingWindow} {w : World}

theorem of_log {log : List Entry} (h : Log window log w) : Reached window w := by
  induction h with
  | start h => exact .start h
  | next _ watch now deed ih => exact ih.deed watch now deed

theorem timetabled (h : Reached window w) :
    w.store.Sound ∧ w.store.books.Timetabled window := by
  induction h with
  | start h => exact ⟨h.sound, h.timetabled⟩
  | deed _ watch now deed ih =>
      obtain ⟨hsound, hbooks⟩ := ih
      obtain ⟨hsound', hbooks', -⟩ := Entry.make_orderly watch now deed hsound hbooks
      exact ⟨hsound', hbooks'⟩
  | @deletion w _ watch now time ih =>
      obtain ⟨hsound, hbooks⟩ := ih
      have hmeets : (Repository.deleteHour time).Meets (.outer now window watch) w.store.books _ :=
        Act.Meets.deleteHour rfl
      obtain ⟨hsound', hsame | herased⟩ := hmeets w hsound rfl
      · exact ⟨hsound', hsame ▸ hbooks⟩
      · exact ⟨hsound', herased ▸ hbooks.eraseHour _⟩

/-- **The calendar neither loses, repeats nor misplaces hours.**  Grouping cuts every list of hours that
have times in UTC into days.  The query on the calendar of a store that is reached refuses a range whose
end comes before its beginning; to any other it answers the stored hours of the seconds from that of the
beginning to that of the end, each once and in order of time, cut into days whose dates increase. -/
theorem calendar (h : Reached window w) (watch : Watch) (now first last : Moment) :
    (∀ hours : List Hour, (∀ hour ∈ hours, hour.time.toUtc?.isSome = true) →
      ∃ days, (Day.group hours : Ending Failure (List Day)) = .done days ∧ Day.Cut hours days) ∧
    let answer := (Desk.availableHours first last (.outer now window watch) w).1
    (last < first → answer = .refused (.rule (.invertedRange first last))) ∧
    (first ≤ last → ∃ days hours, answer = .done days ∧ Day.Cut hours days ∧
      (∀ hour, hour ∈ hours ↔ hour ∈ w.store.hours ∧ first.second ≤ hour.time.second ∧
        hour.time.second ≤ last.second) ∧
      hours.Pairwise (fun a b => a.time < b.time) ∧
      days.Pairwise fun d d' => d.date.dayNumber < d'.date.dayNumber) := by
  obtain ⟨hsound, hbooks⟩ := h.timetabled
  have hmeets := (Act.Meets.availableHours_cut (s := .outer now window watch) rfl hbooks first last
    w hsound rfl).2
  refine ⟨fun hours hutc => ?_, fun hlt => ?_, fun hle => ?_⟩
  · exact ⟨_, by rw [Day.group_eq, if_pos hutc], Day.cut_ofDated hutc⟩
  · simpa only [if_pos hlt] using hmeets
  · simp only [if_neg (Moment.not_lt.mpr hle)] at hmeets
    obtain ⟨days, hours, hanswer, hcut, hl⟩ := hmeets
    obtain ⟨hmem, hsorted⟩ := hbooks.lists hl
    exact ⟨days, hours, hanswer, hcut, hmem, hsorted, hcut.pairwise hsorted⟩

open Sample in
/-- In tables, Tess opens four hours of two days, one of them as it is written two hours ahead of UTC,
and one of them is deleted.  Asked from just before noon of the first day on, the calendar shows both
days. -/
theorem calendar_two_days :
    let hour (second offset : Int) : Moment := ⟨second * Moment.perSecond, offset⟩
    let opened := (Entry.makeAll .standard .bare [(newYear, .order (.makeHoursAvailable
      [hour 1893672000 0, hour 1893585600 7200, hour 1893589200 0, hour 1893596400 0]))]
      (world (.tables (.empty 1)))).2
    let w := (Repository.deleteHour (hour 1893589200 0) (.outer newYear .standard .bare) opened).2
    let first : Moment := ⟨1893585599 * Moment.perSecond + 1, 0⟩
    let last := hour 1893672000 (-3600)
    let days : List Day := [
      ⟨⟨2030, 1, 2⟩, true, [⟨hour 1893585600 0, true, false⟩, ⟨hour 1893596400 0, true, false⟩]⟩,
      ⟨⟨2030, 1, 3⟩, true, [⟨hour 1893672000 0, true, false⟩]⟩]
    Reached .standard w ∧ first ≤ last ∧
      (Desk.availableHours first last (.outer newYear .standard .bare) w).1 = .done days ∧
      ∃ hours, Day.Cut hours days ∧
        (∀ hour, hour ∈ hours ↔ hour ∈ w.store.hours ∧ first.second ≤ hour.time.second ∧
          hour.time.second ≤ last.second) := by
  intro hour opened w first last days
  have hreached : Reached .standard w :=
    .deletion (.of_log (Log.of_empty (.tables 1) _)) .bare newYear _
  have hle : first ≤ last := by decide
  have hanswer : (Desk.availableHours first last (.outer newYear .standard .bare) w).1 =
      .done days := by decide +kernel
  obtain ⟨days', hours, hdone, hcut, hmem, -, -⟩ :=
    (calendar hreached .bare newYear first last).2.2 hle
  rw [hanswer] at hdone
  cases hdone
  exact ⟨hreached, hle, hanswer, hours, hcut, hmem⟩

end Reached

/-- A list with an hour of the last evening of the year `9999`, as it is written five hours behind UTC,
is not grouped: in UTC the hour lies beyond the last year. -/
theorem Day.not_group_cut :
    ¬ ∀ hours : List Hour,
      ∃ days, (Day.group hours : Ending Failure (List Day)) = .done days ∧ Day.Cut hours days := by
  intro h
  obtain ⟨days, hdone, -⟩ := h [⟨⟨253402317000 * Moment.perSecond, -18000⟩, .available⟩]
  have hcrash : (Day.group [⟨⟨253402317000 * Moment.perSecond, -18000⟩, .available⟩] :
      Ending Failure (List Day)) = .crashed := by decide
  rw [hcrash] at hdone
  cases hdone

end TrainerBooking
