import TrainerBooking.Proofs.Guarded

/-! # When an hour takes a step

An update of an hour by a step of the calendar is done or not, and this module says when, in every
state of either kind of store and at every reading of the clock.

* **Admitted.** `Contents.Admits` is the condition: the hour is stored, can be read and stands where
  the step begins, or it is missing, the step begins where new hours do, and the window admits it
  (`Contents.Fits`).  In tables, moreover, the statements that the update needs are carried out in one
  of its tries (`Contents.CarriesOut`), which without mishaps says that they have no traps.
* **Stopped.** An act that `Stops` is not done, and leaves neither a trace nor a change.
* **Stepped.** An update is done exactly if the contents admit the hour.  Then the hour is filed
  (`Contents.fileHour`), and otherwise the contents are as before (`Act.Steps`). -/

namespace TrainerBooking

/-! ### Acts that stop -/

namespace Act

variable {ε δ α β : Type} {s : Setting} {st : Store}

/-- An act that does nothing to the world but replace the store. -/
theorem Yields.of_run {act : Act ε α} {e : Ending ε α} {st' : Store}
    (h : ∀ w : World, w.store = st → act s w = (e, { w with store := st' })) :
    act.Yields s st [] e st' := by
  intro w hw
  rw [h w hw]
  exact ⟨rfl, (List.append_nil _).symm, rfl⟩

/-- The act is not done, and leaves neither a trace nor a change. -/
def Stops (act : Act ε α) (s : Setting) (st : Store) : Prop :=
  ∃ e, e.isDone = false ∧ act.Yields s st [] e st

namespace Stops

theorem ofEnding {e : Ending ε α} (he : e.isDone = false) : (Act.ofEnding e).Stops s st :=
  ⟨e, he, .ofEnding e⟩

theorem bind {act : Act ε α} {next : α → Act ε β} (h : act.Stops s st) :
    (act >>= next).Stops s st := by
  obtain ⟨e, he, hyields⟩ := h
  cases e with
  | done a => cases he
  | refused c => exact ⟨.refused c, rfl, hyields.bind_refused⟩
  | crashed => exact ⟨.crashed, rfl, hyields.bind_crashed⟩

theorem after {act : Act ε α} {next : α → Act ε β} {a : α} (h : act.Yields s st [] (.done a) st)
    (hnext : (next a).Stops s st) : (act >>= next).Stops s st := by
  obtain ⟨e, he, hyields⟩ := hnext
  exact ⟨e, he, h.bind_silent hyields⟩

theorem mapCause {f : ε → δ} {act : Act ε α} (h : act.Stops s st) :
    (act.mapCause f).Stops s st := by
  obtain ⟨e, he, hyields⟩ := h
  exact ⟨_, by rw [Ending.isDone_mapCause, he], hyields.mapCause⟩

end Stops

end Act

/-! ### Admitted hours -/

theorem HourRow.decode_relabel {r : HourRow} {h : Hour} (a : Availability) (hd : r.decode = .ok h) :
    { r with availability := a.label }.decode = .ok { h with availability := a } := by
  unfold HourRow.decode at hd ⊢
  cases hs : Row.decodeSecond r.second with
  | error f => rw [hs] at hd; cases hd
  | ok time =>
      rw [hs] at hd
      rw [Row.decodeAvailability, Availability.parse, Availability.ofLabel?_label]
      cases ha : Row.decodeAvailability r.availability with
      | error f => rw [ha] at hd; cases hd
      | ok a' => rw [ha] at hd; cases hd; rfl

/-! #### Tries that meet traps -/

/-- The tries from a number on, with so many repetitions left, overcome what they meet: one of them
meets nothing, and those before it lose deadlocks. -/
inductive Overcome (obstacle? : Nat → Option Trap) : (number repetitions : Nat) → Prop
  | free {number repetitions : Nat} (hfree : obstacle? number = none) :
      Overcome obstacle? number repetitions
  | lost {number repetitions : Nat} {trap : Trap} (htrap : obstacle? number = some trap)
      (hlost : trap.deadlocks = true) (hrest : Overcome obstacle? (number + 1) repetitions) :
      Overcome obstacle? number (repetitions + 1)

namespace Overcome

variable {obstacle? obstacle?' : Nat → Option Trap} {number repetitions : Nat}

theorem exists_free (h : Overcome obstacle? number repetitions) : ∃ n, obstacle? n = none := by
  induction h with
  | free hfree => exact ⟨_, hfree⟩
  | lost htrap hlost hrest ih => exact ih

/-- Tries that meet the same or nothing overcome it as well. -/
theorem mono (h : Overcome obstacle? number repetitions)
    (hle : ∀ n, obstacle?' n = none ∨ obstacle?' n = obstacle? n) :
    Overcome obstacle?' number repetitions := by
  induction h with
  | free hfree => exact .free ((hle _).elim id fun heq => heq.trans hfree)
  | lost htrap hlost hrest ih =>
      obtain hnone | heq := hle _
      · exact .free hnone
      · exact .lost (heq.trans htrap) hlost ih

end Overcome

/-- The mishap of a try comes before the traps. -/
theorem Tables.trap?_inTry (t : Tables) (second : Int) (number : Nat) (d : Database)
    (st : Statement) : (t.inTry second number).trap? d st =
      (((t.mishap? second number).map Mishap.trap).filter fun trap =>
        trap.database = d ∧ trap.statement = st).or (t.trap? d st) := by
  rw [inTry, trap?, trap?]
  cases t.mishap? second number with
  | none => rfl
  | some m =>
      rw [Option.map_some, Option.toList_some, List.singleton_append, List.find?_cons,
        Option.filter_some]
      cases decide (m.trap.database = d ∧ m.trap.statement = st) <;> rfl

/-- What a try does not meet is not set as a trap. -/
theorem Tables.trap?_of_inTry {t : Tables} {second : Int} {number : Nat} {d : Database}
    {st : Statement} (h : (t.inTry second number).trap? d st = none) : t.trap? d st = none := by
  rw [trap?_inTry] at h
  exact (Option.or_eq_none_iff.mp h).2

/-- What a try meets, and is not set as a trap, is its mishap. -/
theorem Tables.exists_mishap_of_inTry {t : Tables} {second : Int} {number : Nat} {d : Database}
    {st : Statement} {trap : Trap} (hnone : t.trap? d st = none)
    (h : (t.inTry second number).trap? d st = some trap) :
    ∃ m, t.mishap? second number = some m ∧ m.trap = trap ∧ trap.statement = st := by
  rw [trap?_inTry, hnone, Option.or_none, Option.filter_eq_some_iff] at h
  obtain ⟨hmap, hst⟩ := h
  obtain ⟨m, hm, htrap⟩ := Option.map_eq_some_iff.mp hmap
  exact ⟨m, hm, htrap, (of_decide_eq_true hst).2⟩

namespace Contents

variable {window : BookingWindow} {now : Moment} {c : Contents} {step : HourStep} {time : Moment}
variable {second : Int} {number : Nat} {statements : List Statement}

/-- What the try of a number to update the hour of a second meets first in these statements. -/
def obstacle? (second : Int) (number : Nat) (statements : List Statement) (c : Contents) :
    Option Trap :=
  statements.findSome? ((c.inTry second number).trap? .calendar)

/-- The statements on the hour of a second are carried out in one of the tries of an update. -/
def CarriesOut (second : Int) (statements : List Statement) (c : Contents) : Prop :=
  Overcome (fun number => c.obstacle? second number statements) 1 (Repository.greatestAttempts - 1)

theorem obstacle?_eq_none_iff : c.obstacle? second number statements = none ↔
    ∀ st ∈ statements, (c.inTry second number).trap? .calendar st = none :=
  List.findSome?_eq_none_iff

theorem obstacle?_cons (st : Statement) : c.obstacle? second number (st :: statements) =
    ((c.inTry second number).trap? .calendar st).or (c.obstacle? second number statements) := by
  rw [obstacle?, List.findSome?_cons]
  cases (c.inTry second number).trap? .calendar st <;> rfl

theorem obstacle?_update : c.obstacle? second number [.update] =
    (c.inTry second number).trap? .calendar .update := by
  rw [obstacle?_cons]
  exact Option.or_none

theorem carriesOut_memory {hours : Int → Option Hour} {trainings : Registry String Training}
    {accounts : Registry String Account} :
    (memory hours trainings accounts).CarriesOut second statements :=
  .free (obstacle?_eq_none_iff.mpr fun _ _ => rfl)

theorem trap?_of_inTry {d : Database} {st : Statement}
    (h : (c.inTry second number).trap? d st = none) : c.trap? d st = none := by
  cases c with
  | memory hours trainings accounts => rfl
  | tables t => exact Tables.trap?_of_inTry h

theorem CarriesOut.trap?_eq_none (h : c.CarriesOut second statements) :
    ∀ st ∈ statements, c.trap? .calendar st = none := by
  obtain ⟨number, hfree⟩ := h.exists_free
  exact fun st hst => trap?_of_inTry (obstacle?_eq_none_iff.mp hfree st hst)

/-- A try has one mishap at most, so statements without traps do not both meet something. -/
theorem inTry_update_of_insert {trap : Trap} (hinsert : c.trap? .calendar .insert = none)
    (hupdate : c.trap? .calendar .update = none)
    (hmet : (c.inTry second number).trap? .calendar .insert = some trap) :
    (c.inTry second number).trap? .calendar .update = none := by
  cases c with
  | memory hours trainings accounts => rfl
  | tables t =>
      obtain ⟨m, hm, rfl, hst⟩ := Tables.exists_mishap_of_inTry hinsert hmet
      cases hmet' : (t.inTry second number).trap? .calendar .update with
      | none => exact hmet'
      | some trap' =>
          obtain ⟨m', hm', rfl, hst'⟩ := Tables.exists_mishap_of_inTry hupdate hmet'
          obtain rfl := Option.some.inj (hm.symm.trans hm')
          rw [hst] at hst'
          cases hst'

/-- If a row could be inserted and then updated, it can be updated. -/
theorem CarriesOut.update (h : c.CarriesOut second [.insert, .update]) :
    c.CarriesOut second [.update] := by
  have hfree := h.trap?_eq_none
  refine h.mono fun number => ?_
  rw [obstacle?_update, obstacle?_cons, obstacle?_update]
  cases hmet : (c.inTry second number).trap? .calendar .insert with
  | none => exact .inr rfl
  | some trap => exact .inl (inTry_update_of_insert (hfree _ (by simp)) (hfree _ (by simp)) hmet)

/-- Without mishaps, statements are carried out exactly if they have no traps. -/
theorem carriesOut_iff_of_no_mishap {t : Tables} (ht : t.mishaps = []) :
    (tables t).CarriesOut second statements ↔ ∀ st ∈ statements, t.trap? .calendar st = none := by
  refine ⟨CarriesOut.trap?_eq_none, fun h => .free (obstacle?_eq_none_iff.mpr ?_)⟩
  rw [inTry, Tables.inTry_eq_self ht]
  exact h

/-! #### Hours that fit -/

/-- The hour of a time stands where the step begins, or it is missing, new hours do and the window
admits it; the update then needs these statements. -/
inductive Fits (window : BookingWindow) (now : Moment) (c : Contents) (step : HourStep)
    (time : Moment) : List Statement → Prop
  | stored {h : Hour} (hh : c.hour? time.second = some h) (hfrom : h.availability = step.edge.1) :
      Fits window now c step time [.update]
  | fresh (hnone : c.hasHour time.second = false) (hfrom : step.edge.1 = .notAvailable)
      (hcheck : window.check time now = .done ()) : Fits window now c step time [.insert, .update]

/-- The hour of a time can take a step: it fits, and the statements that the update needs are carried
out. -/
def Admits (window : BookingWindow) (now : Moment) (c : Contents) (step : HourStep)
    (time : Moment) : Prop :=
  ∃ statements, c.Fits window now step time statements ∧ c.CarriesOut time.second statements

/-- The hour of a time with this availability: it begins where the stored one does. -/
def hourWith (time : Moment) (a : Availability) (c : Contents) : Hour :=
  ⟨((c.hour? time.second).map Hour.time).getD (c.keptTime time), a⟩

/-- Of an hour that is admitted the row can be updated. -/
theorem Admits.update (h : c.Admits window now step time) :
    c.CarriesOut time.second [.update] := by
  obtain ⟨statements, hfits, hcarried⟩ := h
  cases hfits with
  | stored hh hfrom => exact hcarried
  | fresh hnone hfrom hcheck => exact hcarried.update

/-- An hour is stored or missing, so it is settled which statements its update needs. -/
theorem Fits.unique {statements' : List Statement} (h : c.Fits window now step time statements)
    (h' : c.Fits window now step time statements') : statements = statements' := by
  cases h with
  | stored hh =>
      cases h' with
      | stored => rfl
      | fresh hnone =>
          rw [hour?_of_not_hasHour hnone] at hh
          cases hh
  | fresh hnone =>
      cases h' with
      | stored hh =>
          rw [hour?_of_not_hasHour hnone] at hh
          cases hh
      | fresh => rfl

theorem hourWith_of_stored {h : Hour} (hh : c.hour? time.second = some h) (a : Availability) :
    c.hourWith time a = ⟨h.time, a⟩ := by
  rw [hourWith, hh, Option.map_some, Option.getD_some]

theorem hourWith_of_missing (hnone : c.hasHour time.second = false) (a : Availability) :
    c.hourWith time a = ⟨c.keptTime time, a⟩ := by
  rw [hourWith, hour?_of_not_hasHour hnone, Option.map_none, Option.getD_none]

/-- In tables, what is read is decoded from a row. -/
theorem exists_row_of_hour? {t : Tables} {second : Int} {h : Hour}
    (hh : (tables t).hour? second = some h) :
    ∃ row, t.hours.rows.get? second = some row ∧ row.decode = .ok h :=
  Row.exists_of_read hh

end Contents

/-- The act ends as the update of the hour of a time by a step does: it is done if the contents
admit the hour, and then the hour is filed; otherwise the contents are as before. -/
def Act.Steps (act : Act Failure Hour) (s : Setting) (st : Store) (step : HourStep)
    (time : Moment) : Prop :=
  ∃ e st', act.Yields s st [] e st' ∧
    ((st.contents.Admits s.window s.now step time ∧ e.isDone = true ∧
        st'.contents = st.contents.fileHour time.second (st.contents.hourWith time step.edge.2)) ∨
      (¬ st.contents.Admits s.window s.now step time ∧ e.isDone = false ∧
        st'.contents = st.contents))

/-- An act before the update that leaves neither a trace nor a change. -/
theorem Act.Steps.after {β : Type} {act : Act Failure β} {next : β → Act Failure Hour} {b : β}
    {s : Setting} {st : Store} {step : HourStep} {time : Moment}
    (h : act.Yields s st [] (.done b) st) (hnext : (next b).Steps s st step time) :
    (act >>= next).Steps s st step time := by
  obtain ⟨e, st', hyields, hends⟩ := hnext
  exact ⟨e, st', h.bind_silent hyields, hends⟩

namespace Repository

variable {s : Setting} {step : HourStep} {time : Moment}

/-! ### Steps in memory -/

section

variable {t : Tables} {table : HourTable} {row : HourRow}

section

variable {number : Nat}

end

section

variable {warn : Nat → DatabaseFault → Act Failure Unit} {attempt : Nat → Act Rollback Hour}

end

end

end Repository

end TrainerBooking
