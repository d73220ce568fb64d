import TrainerBooking.Proofs.Updates

/-! # The timetable

Orders at the desk and calls of the API, in any order, from an empty store (`Log`): what the calendar
looks like after them, and what each of them may do to it.

* **Well-formed.** `Store.Timetable` says of the stored hours that no two share a second, and that
  each is a full UTC hour within the daily band of the window.
* **Orderly.** `Entry.Orderly` says of a deed that no hour is lost or moved, that hours are added only
  by opening them, and only such as the window admits at that moment, and that every other change goes
  along the edge of a step.

Both follow from what `Books.Worked` says of the updates that a deed makes (`Log.timetable`). -/

namespace TrainerBooking

/-! ### What the window admits -/

namespace BookingWindow

/-- Is the time a full UTC hour within the daily band of the window? -/
def Covers (window : BookingWindow) (time : Moment) : Prop :=
  ∃ utc, time.toUtc? = some utc ∧ utc.isFullHour = true ∧ window.earliest ≤ utc.hour ∧
    utc.hour ≤ window.latest

/-- Is the time in the future, and not beyond the last week of the window? -/
structure Reaches (window : BookingWindow) (now time : Moment) : Prop where
  future : now < time
  near : time.nanos ≤ now.nanos + window.weeks * Moment.perWeek

variable {window : BookingWindow} {now time time' : Moment}

theorem Covers.congr (h : window.Covers time) (hn : time'.nanos = time.nanos) :
    window.Covers time' := by
  obtain ⟨utc, hutc, hrest⟩ := h
  refine ⟨utc, ?_, hrest⟩
  rw [Moment.toUtc?, hn]
  exact hutc

theorem Covers.fullHour (h : window.Covers time) : time.nanos % Moment.perHour = 0 := by
  obtain ⟨utc, hutc, hfull, -⟩ := h
  obtain rfl := Moment.toUtc?_eq_some hutc
  exact of_decide_eq_true hfull

/-- A full hour is a whole second. -/
theorem Covers.keptTime (h : window.Covers time) (b : Books) :
    (b.keptTime time).nanos = time.nanos := by
  have hfull := h.fullHour
  unfold Books.keptTime
  split
  · rfl
  · simp only [Moment.floored, Moment.second, Moment.perSecond]
    simp only [Moment.perHour, Moment.perSecond] at hfull
    omega

theorem covers_of_check (h : window.check time now = .done ()) : window.Covers time := by
  unfold check at h
  split at h
  case h_2 => cases h
  next utc _ hutc _ =>
    split at h
    · cases h
    next hfull =>
      split at h
      · cases h
      split at h
      · cases h
      split at h
      · cases h
      split at h
      · cases h
      next hlate =>
        split at h
        · cases h
        next hearly =>
          refine ⟨utc, hutc, ?_, Nat.not_lt.mp hearly, Nat.not_lt.mp hlate⟩
          simpa using hfull

theorem reaches_of_check (h : window.check time now = .done ()) : window.Reaches now time := by
  have hcovers := covers_of_check h
  have hfull := hcovers.fullHour
  unfold check at h
  split at h
  case h_2 => cases h
  next utc now' hutc hnow =>
    obtain rfl := Moment.toUtc?_eq_some hutc
    obtain rfl := Moment.toUtc?_eq_some hnow
    split at h
    · cases h
    split at h
    · cases h
    next horizon hhorizon =>
      split at h
      · cases h
      next hnear =>
        split at h
        · cases h
        next hpast =>
          have hshift : horizon.nanos = now.nanos + window.weeks * Moment.perWeek := by
            unfold Moment.shift? Moment.checked at hhorizon
            split at hhorizon <;> cases hhorizon
            rfl
          refine ⟨?_, ?_⟩
          · rw [Moment.lt_def]
            simp only [Moment.hourStart, Moment.perHour, Moment.perSecond] at hpast hfull
            omega
          · rw [Moment.lt_def] at hnear
            simp only at hnear
            omega

end BookingWindow

/-! ### Works on a timetable -/

namespace Books

variable {window : BookingWindow} {now : Moment} {b b' : Books} {us : List HourUpdate}

/-- Every hour is filed under its second, and covered by the window. -/
def Timetabled (window : BookingWindow) (b : Books) : Prop :=
  ∀ second h, b.hours second = some h → h.time.second = second ∧ window.Covers h.time

theorem Timetabled.writes {u : HourUpdate} {h : Hour} (hb : b.Timetabled window)
    (hw : u.Writes window now b h) : (b.setHour u.time.second h).Timetabled window := by
  intro second h' hh'
  rw [setHour_hours] at hh'
  split at hh'
  · next hsecond =>
      obtain rfl := Option.some.inj hh'
      subst hsecond
      cases hw with
      | stepped hold hfrom =>
          obtain ⟨hfiled, hcovers⟩ := hb _ _ hold
          exact ⟨hfiled, hcovers⟩
      | opened hnone hstep hcheck =>
          have hcovers := BookingWindow.covers_of_check hcheck
          have hkept := hcovers.keptTime b
          exact ⟨by rw [Moment.second, hkept, Moment.second], hcovers.congr hkept⟩
  · exact hb _ _ hh'

theorem Timetabled.worked (hb : b.Timetabled window) (h : Worked window now b us b') :
    b'.Timetabled window := by
  induction h with
  | rest hhours hkind =>
      intro second h hh
      rw [hhours] at hh
      exact hb second h hh
  | step hwrites hrest ih => exact ih (hb.writes hwrites)

/-- No hour is lost or moved. -/
theorem Worked.kept (h : Worked window now b us b') {second : Int} {hour : Hour}
    (hold : b.hours second = some hour) : ∃ a, b'.hours second = some ⟨hour.time, a⟩ := by
  induction h generalizing hour with
  | rest hhours hkind => exact ⟨hour.availability, by rw [hhours, hold]⟩
  | @step b b' u us h hwrites hrest ih =>
      by_cases hsecond : second = u.time.second
      · cases hwrites with
        | @stepped h₀ hold' hfrom =>
            rw [← hsecond, hold] at hold'
            obtain rfl := Option.some.inj hold'
            have hset : (b.setHour u.time.second ⟨hour.time, u.step.edge.2⟩).hours second =
                some ⟨hour.time, u.step.edge.2⟩ := by rw [setHour_hours, if_pos hsecond]
            obtain ⟨a, ha⟩ := ih hset
            exact ⟨a, ha⟩
        | opened hnone hstep hcheck =>
            rw [← hsecond, hold] at hnone
            cases hnone
      · exact ih (by rw [setHour_hours, if_neg hsecond, hold])

/-- Hours are added by opening them, and the window has to admit them. -/
theorem Worked.added (h : Worked window now b us b') {second : Int} {hour : Hour}
    (hnone : b.hours second = none) (hnew : b'.hours second = some hour) :
    ∃ u ∈ us, u.step = .makeAvailable ∧ window.Reaches now hour.time := by
  induction h with
  | rest hhours hkind =>
      rw [hhours, hnone] at hnew
      cases hnew
  | @step b b' u us h hwrites hrest ih =>
      by_cases hsecond : second = u.time.second
      · cases hwrites with
        | stepped hold hfrom =>
            rw [← hsecond, hnone] at hold
            cases hold
        | opened hnone' hstep hcheck =>
            refine ⟨u, List.mem_cons_self, hstep, ?_⟩
            -- The works that follow leave the hour at the time at which it was opened.
            have hopen : (b.setHour u.time.second ⟨b.keptTime u.time, .available⟩).hours second =
                some ⟨b.keptTime u.time, .available⟩ := by rw [setHour_hours, if_pos hsecond]
            obtain ⟨a, ha⟩ := hrest.kept hopen
            rw [hnew] at ha
            obtain rfl := Option.some.inj ha
            have hkept := (BookingWindow.covers_of_check hcheck).keptTime b
            obtain ⟨hfuture, hnear⟩ := BookingWindow.reaches_of_check hcheck
            refine ⟨?_, ?_⟩
            · rw [Moment.lt_def, hkept]
              exact hfuture
            · rw [hkept]
              exact hnear
      · obtain ⟨v, hv, hrest⟩ := ih (by rw [setHour_hours, if_neg hsecond, hnone]) hnew
        exact ⟨v, List.mem_cons_of_mem _ hv, hrest⟩

/-- Where hours are only opened, what is changed is open. -/
theorem Worked.opened (h : Worked window now b us b') (hopen : ∀ u ∈ us, u.step = .makeAvailable)
    {second : Int} {hour : Hour} (hnew : b'.hours second = some hour) :
    b.hours second = some hour ∨ hour.availability = .available := by
  induction h with
  | rest hhours hkind => exact .inl (hhours ▸ hnew)
  | @step b b' u us h hwrites hrest ih =>
      have hstep := hopen u List.mem_cons_self
      rcases ih (fun v hv => hopen v (List.mem_cons_of_mem _ hv)) hnew with hset | ha
      · rw [setHour_hours] at hset
        split at hset
        · obtain rfl := Option.some.inj hset
          right
          cases hwrites with
          | stepped hold hfrom => rw [hstep]; rfl
          | opened hnone hstep hcheck => rfl
        · exact .inl hset
      · exact .inr ha

end Books

/-! ### Deeds -/

/-- An order at the desk, or a call of the API. -/
inductive Deed where
  | order (order : Desk.Order)
  | call (call : Api.Call)

namespace Deed

/-- Carries out the deed: whether it is done, and the world then. -/
def perform (s : Setting) (w : World) : Deed → Bool × World
  | order o => ((o.perform s w).1.isDone, (o.perform s w).2)
  | call c => ((c.perform s w).1.isDone, (c.perform s w).2)

/-- The updates of the calendar for which the deed asks. -/
def updates (b : Books) : Deed → List HourUpdate
  | order o => o.updates b
  | call c => c.updates b

/-- Is it hours that the deed opens? -/
def opensHours : Deed → Bool
  | order (.makeHoursAvailable _) | call (.makeHoursAvailable _ _) => true
  | order _ | call _ => false

/-- Opening hours asks for this step alone, and nothing else asks for it. -/
theorem opens_iff {b : Books} {deed : Deed} {u : HourUpdate} (hu : u ∈ deed.updates b) :
    u.step = .makeAvailable ↔ deed.opensHours = true := by
  cases deed with
  | order o =>
      have hstep := Desk.Order.step_mem hu
      generalize u.step = step at hstep
      cases o <;> cases step <;> simp_all [Desk.Order.steps, opensHours]
  | call c =>
      have hstep := Api.Call.step_mem hu
      generalize u.step = step at hstep
      cases c <;> cases step <;> simp_all [Api.Call.steps, opensHours]

/-- A deed keeps the store sound, and works on the books by the updates for which it asks. -/
theorem perform_works (deed : Deed) (window : BookingWindow) (watch : Watch) (now : Moment)
    {w : World} (hw : w.store.Sound) :
    let (done, w') := deed.perform (.outer now window watch) w
    w'.store.Sound ∧
      w.store.books.WorkedThrough window now (deed.updates w.store.books) done w'.store.books := by
  cases deed with
  | order o => exact Act.Meets.order_works o rfl w hw rfl
  | call c => exact Act.Meets.call_works c rfl w hw rfl

end Deed

/-! ### Logs -/

/-- A deed that was done or failed: when, and the store before and after it. -/
structure Entry where
  now : Moment
  deed : Deed
  before : Store
  done : Bool
  after : Store

/-- Carries out a deed in a world. -/
def Entry.make (window : BookingWindow) (watch : Watch) (now : Moment) (deed : Deed) (w : World) :
    Entry × World :=
  let r := deed.perform (.outer now window watch) w
  (⟨now, deed, w.store, r.1, r.2.store⟩, r.2)

/-- The entries and the world after deeds from an empty store, whichever way each is watched. -/
inductive Log (window : BookingWindow) : List Entry → World → Prop
  | start {w : World} (h : w.store.Empty) : Log window [] w
  | next {log : List Entry} {w : World} (h : Log window log w) (watch : Watch) (now : Moment)
      (deed : Deed) :
      Log window (log ++ [(Entry.make window watch now deed w).1])
        (Entry.make window watch now deed w).2

/-- Carries out deeds one after the other, all watched in the same way. -/
def Entry.makeAll (window : BookingWindow) (watch : Watch) :
    List (Moment × Deed) → World → List Entry × World
  | [], w => ([], w)
  | (now, deed) :: rest, w =>
    let (entry, w) := make window watch now deed w
    let (log, w) := makeAll window watch rest w
    (entry :: log, w)

/-- The hours that a store holds. -/
def Store.hours : Store → List Hour
  | memory m => m.writtenHours
  | tables t => t.hours.rows.values.filterMap HourRow.meaning?

/-- The values of a registry, seen through `f`, are what it files when it is seen through `f`. -/
theorem Registry.mem_filterMap_values {κ ν α : Type} [KeyOrder κ] [DecidableEq κ]
    {r : Registry κ ν} {f : ν → Option α} {a : α} :
    a ∈ r.values.filterMap f ↔ ∃ key, (r.get? key).bind f = some a := by
  rw [List.mem_filterMap]
  constructor
  · rintro ⟨v, hv, hf⟩
    obtain ⟨e, he, rfl⟩ := List.mem_map.mp hv
    refine ⟨e.1, ?_⟩
    rw [Registry.mem_entries_iff.mp he, Option.bind_some, hf]
  · rintro ⟨key, hkey⟩
    obtain ⟨v, hv, hf⟩ := Option.bind_eq_some_iff.mp hkey
    exact ⟨v, List.mem_map.mpr ⟨(key, v), Registry.mem_entries_iff.mpr hv, rfl⟩, hf⟩

/-- Hours that are filed under their seconds do not share one. -/
theorem Registry.distinct_filterMap_values {ν : Type} {r : Registry Int ν} {f : ν → Option Hour}
    (hf : ∀ second h, (r.get? second).bind f = some h → h.time.second = second) :
    (r.values.filterMap f).Pairwise fun h h' => h.time.second ≠ h'.time.second := by
  rw [List.pairwise_filterMap, Registry.values, List.pairwise_map]
  refine r.sorted.imp_of_mem fun {e e'} he he' hlt h hh h' hh' hsecond => ?_
  have hkey : h.time.second = e.1 := by
    refine hf e.1 h ?_
    rw [Registry.mem_entries_iff.mp he, Option.bind_some, hh]
  have hkey' : h'.time.second = e'.1 := by
    refine hf e'.1 h' ?_
    rw [Registry.mem_entries_iff.mp he', Option.bind_some, hh']
  exact KeyOrder.ne_of_before hlt (hkey.symm.trans (hsecond.trans hkey'))

namespace Store

variable {st : Store} {window : BookingWindow}

theorem mem_hours {h : Hour} : h ∈ st.hours ↔ ∃ second, st.books.hours second = some h := by
  cases st with
  | memory m =>
      rw [hours, Memory.writtenHours, Registry.mem_filterMap_values]
      simp only [Option.bind_id_eq_join]
      rfl
  | tables t => exact Registry.mem_filterMap_values

end Store

/-- No two hours share a second, and every hour is one that the window covers. -/
structure Store.Timetable (window : BookingWindow) (st : Store) : Prop where
  distinct : st.hours.Pairwise fun h h' => h.time.second ≠ h'.time.second
  covered : ∀ h ∈ st.hours, window.Covers h.time

/-- What a deed may do to the calendar. -/
structure Entry.Orderly (window : BookingWindow) (e : Entry) : Prop where
  /-- No hour is lost or moved. -/
  kept : ∀ h ∈ e.before.hours, ∃ h' ∈ e.after.hours, h'.time = h.time
  /-- An hour is added by opening it, and only if the window reaches it then. -/
  added : ∀ h' ∈ e.after.hours, (∀ h ∈ e.before.hours, h.time.second ≠ h'.time.second) →
    e.deed.opensHours = true ∧ h'.availability = .available ∧ window.Reaches e.now h'.time
  /-- The calendar changes by the updates for which the deed asks, each along the edge of its step. -/
  worked : e.before.books.WorkedThrough window e.now (e.deed.updates e.before.books) e.done
    e.after.books

theorem Books.Timetabled.mem_hours {st : Store} {window : BookingWindow}
    (hb : st.books.Timetabled window) {h : Hour} :
    h ∈ st.hours ↔ st.books.hours h.time.second = some h := by
  rw [Store.mem_hours]
  constructor
  · rintro ⟨second, hh⟩
    rw [(hb second h hh).1]
    exact hh
  · exact fun hh => ⟨_, hh⟩

theorem Store.Empty.timetabled {st : Store} {window : BookingWindow} (h : st.Empty) :
    st.books.Timetabled window := by
  intro second hour hhour
  rw [h.hours] at hhour
  cases hhour

theorem Books.Timetabled.listed {st : Store} {window : BookingWindow}
    (hb : st.books.Timetabled window) : st.Timetable window := by
  refine ⟨?_, fun h hh => ?_⟩
  · cases st with
    | memory m =>
        refine Registry.distinct_filterMap_values fun second h hh => (hb second h ?_).1
        rw [Option.bind_id_eq_join] at hh
        exact hh
    | tables t => exact Registry.distinct_filterMap_values fun second h hh => (hb second h hh).1
  · obtain ⟨second, hh⟩ := Store.mem_hours.mp hh
    exact (hb second h hh).2

theorem Entry.make_orderly {window : BookingWindow} (watch : Watch) (now : Moment) (deed : Deed)
    {w : World} (hw : w.store.Sound) (hb : w.store.books.Timetabled window) :
    let made := Entry.make window watch now deed w
    made.2.store.Sound ∧ made.2.store.books.Timetabled window ∧ made.1.Orderly window := by
  intro made
  obtain ⟨hsound, hworks⟩ := deed.perform_works window watch now hw
  obtain ⟨updates, hbegin, hworked, hall⟩ := hworks
  have hb' := hb.worked hworked
  refine ⟨hsound, hb', ⟨fun h hh => ?_, fun h' hh' hnew => ?_, ⟨updates, hbegin, hworked, hall⟩⟩⟩
  · obtain ⟨a, ha⟩ := hworked.kept (hb.mem_hours.mp hh)
    exact ⟨⟨h.time, a⟩, hb'.mem_hours.mpr ha, rfl⟩
  · have hafter := hb'.mem_hours.mp hh'
    have hbefore : w.store.books.hours h'.time.second = none := by
      rw [Option.eq_none_iff_forall_ne_some]
      intro h hh
      refine hnew h ?_ (hb _ h hh).1
      exact Store.mem_hours.mpr ⟨_, hh⟩
    obtain ⟨u, hu, hstep, hreaches⟩ := hworked.added hbefore hafter
    have hopens := (Deed.opens_iff (hbegin.subset hu)).mp hstep
    refine ⟨hopens, ?_, hreaches⟩
    have honly : ∀ v ∈ updates, v.step = .makeAvailable := fun v hv =>
      (Deed.opens_iff (hbegin.subset hv)).mpr hopens
    rcases hworked.opened honly hafter with hold | havailable
    · rw [hbefore] at hold
      cases hold
    · exact havailable

namespace Log

variable {window : BookingWindow} {log : List Entry} {w : World}

theorem append {watch : Watch} (h : Log window log w) (deeds : List (Moment × Deed)) :
    Log window (log ++ (Entry.makeAll window watch deeds w).1)
      (Entry.makeAll window watch deeds w).2 := by
  induction deeds generalizing log w with
  | nil =>
      rw [Entry.makeAll, List.append_nil]
      exact h
  | cons deed rest ih =>
      have hrest := ih (h.next watch deed.1 deed.2)
      rw [List.append_assoc] at hrest
      exact hrest

theorem of_empty {watch : Watch} (hw : w.store.Empty) (deeds : List (Moment × Deed)) :
    Log window (Entry.makeAll window watch deeds w).1 (Entry.makeAll window watch deeds w).2 :=
  (Log.start hw).append deeds

theorem timetabled (h : Log window log w) :
    w.store.Sound ∧ w.store.books.Timetabled window ∧ ∀ e ∈ log, e.Orderly window := by
  induction h with
  | start h => exact ⟨h.sound, h.timetabled, List.forall_mem_nil _⟩
  | next h watch now deed ih =>
      obtain ⟨hsound, hbooks, hlog⟩ := ih
      obtain ⟨hsound', hbooks', horderly⟩ := Entry.make_orderly watch now deed hsound hbooks
      refine ⟨hsound', hbooks', fun e he => ?_⟩
      rcases List.mem_append.mp he with he | he
      · exact hlog e he
      · obtain rfl := List.mem_singleton.mp he
        exact horderly

/-- **The calendar stays well-formed**: after any orders and calls from an empty store, refused or
not, no two hours share a second, and all are full hours of the daily band; and whatever was done has
kept every hour at its time, has added hours only by opening such as the window then reached, and has
changed the calendar only along the edges of its own steps. -/
theorem timetable (h : Log window log w) :
    w.store.Timetable window ∧ ∀ e ∈ log, e.Orderly window := by
  obtain ⟨-, hbooks, hlog⟩ := h.timetabled
  exact ⟨hbooks.listed, hlog⟩

open Sample in
/-- Noon is opened as it is written two hours ahead of UTC, and booked through the API; opening it
again is refused, and so is opening an hour of the past. -/
theorem timetable_noon :
    let local12 : Moment := ⟨1893585600 * Moment.perSecond, 7200⟩
    let made := Entry.makeAll .standard .bare [
      (newYear, .order (.createUser ann.id .attendee ann.name 1)),
      (newYear, .order (.makeHoursAvailable [local12])),
      (newYear, .call (.createTraining ann "1" noon)),
      (newYear, .call (.makeHoursAvailable tess ⟨[noon.time]⟩)),
      (newYear, .order (.makeHoursAvailable [⟨1893412800 * Moment.perSecond, 0⟩]))]
      (world (.memory .empty))
    made.1.map Entry.done = [true, true, true, false, false] ∧
      made.2.store.hours = [⟨local12, .trainingScheduled⟩] ∧
      made.2.store.Timetable .standard ∧ ∀ e ∈ made.1, e.Orderly .standard := by
  refine ⟨by decide +kernel, by decide +kernel, ?_⟩
  exact timetable (.of_empty .memory _)

end Log

end TrainerBooking
