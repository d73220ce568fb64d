import TrainerBooking.Desk.Accounts
import TrainerBooking.Desk.Calendar
import TrainerBooking.Proofs.Accounts

/-! # The calendar and the accounts at the desk

What the operations of these two desks do to the books.

* **Steps.** `Stepping` lists the ways in which a step of an hour ends.  Booking an hour succeeds for
  open hours only, and releasing it succeeds **exactly** for booked hours.
* **Editing.** Opening and closing hours books none and releases none (`Books.Edited`), however much
  of a list is worked through.
* **Accounts.** A change of an account leaves hours and trainings as they are, and no account is
  lost (`Books.Banked`). -/

namespace TrainerBooking

namespace Moment

theorem not_lt {a b : Moment} : ¬ a < b ↔ b ≤ a := Int.not_lt

theorem second_mono {a b : Moment} (h : a ≤ b) : a.second ≤ b.second :=
  Int.ediv_le_ediv (by decide) h

end Moment

namespace Availability

theorem after_schedule {a a' : Availability} (h : after .scheduleTraining a = .ok a') :
    a = .available ∧ a' = .trainingScheduled := by
  cases a <;> cases h
  exact ⟨rfl, rfl⟩

theorem after_cancel {a a' : Availability} (h : after .cancelTraining a = .ok a') :
    a = .trainingScheduled ∧ a' = .available := by
  cases a <;> cases h
  exact ⟨rfl, rfl⟩

end Availability

namespace Books

variable {b : Books}

/-- The availability of the hour of a second, if it was ever written. -/
def availability? (b : Books) (second : Int) : Option Availability :=
  (b.hours second).map Hour.availability

theorem availability?_setHour (b : Books) (second other : Int) (h : Hour) :
    (b.setHour second h).availability? other =
      if other = second then some h.availability else b.availability? other := by
  unfold availability?
  rw [setHour_hours]
  split <;> rfl

@[simp] theorem availability?_setTraining (b : Books) (id : String) (t : Training) (second : Int) :
    (b.setTraining id t).availability? second = b.availability? second := rfl

@[simp] theorem availability?_setAccount (b : Books) (id : String) (a : Account) (second : Int) :
    (b.setAccount id a).availability? second = b.availability? second := rfl

theorem availability?_of_hours {second : Int} {h : Hour} (hh : b.hours second = some h) :
    b.availability? second = some h.availability := by
  rw [availability?, hh, Option.map_some]

/-! ### Steps of an hour -/

/-- How a step of the hour of a time ends, and the books then. -/
def stepHour (b : Books) (time : Moment) (step : HourStep) (s : Setting) :
    Ending Failure Hour × Books :=
  b.updateHour time (fun h => (Ending.ofExcept (h.step step)).mapCause Failure.rule) s

/-- The ways in which a step of the hour of a second can end. -/
inductive Stepping (b : Books) (second : Int) (step : HourStep) :
    Ending Failure Hour → Books → Prop
  | stepped {h h' : Hour} (hold : b.availability? second = some h.availability ∨
        (b.hours second = none ∧ h.availability = .notAvailable))
      (hstep : h.step step = .ok h') : Stepping b second step (.done h') (b.setHour second h')
  | refused {v : Violation} (hstep : ∀ h, b.hours second = some h → ∃ v, h.step step = .error v) :
      Stepping b second step (.refused (.rule v)) b
  | crashed (hnone : b.hours second = none) : Stepping b second step .crashed b

theorem keptHour_of_step {b : Books} {h h' : Hour} {step : HourStep} (hs : h.step step = .ok h') :
    b.keptHour h h' = h' := by
  have ht := (Hour.step_eq_ok_iff.mp hs).1
  unfold keptHour
  split
  · rfl
  · rw [← ht]

theorem stepping (b : Books) (time : Moment) (step : HourStep) (s : Setting) :
    b.Stepping time.second step (b.stepHour time step s).1 (b.stepHour time step s).2 := by
  unfold stepHour updateHour startHour
  cases hh : b.hours time.second with
  | some h =>
      cases hs : h.step step with
      | ok h' =>
          have hk : b.keptHour h h' = h' := keptHour_of_step hs
          simp only [hs, Ending.ofExcept, Ending.mapCause, hk]
          exact .stepped (.inl (availability?_of_hours hh)) hs
      | error v =>
          simp only [hs, Ending.ofExcept, Ending.mapCause]
          refine .refused fun h' hh' => ?_
          rw [hh] at hh'
          obtain rfl := Option.some.inj hh'
          exact ⟨v, hs⟩
  | none =>
      have hnone : ∀ h, b.hours time.second = some h → ∃ v, h.step step = .error v := by
        intro h hh'
        rw [hh] at hh'
        cases hh'
      simp only [BookingWindow.newHour]
      cases s.window.check time s.now with
      | refused v => exact .refused hnone
      | crashed => exact .crashed hh
      | done u =>
          simp only [Ending.mapValue, Ending.mapCause]
          cases hs : Hour.step step ⟨b.keptTime time, .notAvailable⟩ with
          | ok h' =>
              have hk : b.keptHour ⟨b.keptTime time, .notAvailable⟩ h' = h' := keptHour_of_step hs
              simp only [Ending.ofExcept, hk]
              exact .stepped (.inr ⟨hh, rfl⟩) hs
          | error v => exact .refused hnone

end Books

namespace Act.Meets

variable {s : Setting} {b : Books}

theorem stepHour {time : Moment} {step : HourStep} (hs : s.held.hours = [])
    {Q : Ending Failure Hour → Books → Prop}
    (hQ : ∀ e b', b.Stepping time.second step e b' → Q e b') :
    (Repository.updateHour time (Desk.stepping step)).Meets s b Q :=
  updateHour hs (hQ _ _ (b.stepping time step s))

/-- Only an open hour is booked. -/
theorem scheduleHour {time : Moment} (hs : s.held.hours = []) {Q : Ending Failure Unit → Books → Prop}
    (hdone : ∀ h, b.availability? time.second = some .available →
      h.availability = .trainingScheduled → Q (.done ()) (b.setHour time.second h))
    (hrefused : ∀ v, Q (.refused
      (.within "schedule-training-failed" "unable to schedule training" (.rule v))) b)
    (hcrashed : Q .crashed b) : (Desk.scheduleHour time).Meets s b Q := by
  refine watched fun spans => bind (within ?_)
  refine stepHour ?_ fun e b' h => ?_
  · exact hs
  cases h with
  | refused hstep => exact hrefused _
  | crashed hnone => exact hcrashed
  | stepped hold hstep =>
      obtain ⟨-, ha⟩ := Hour.step_eq_ok_iff.mp hstep
      obtain ⟨hopen, hbooked⟩ := Availability.after_schedule ha
      refine pure (hdone _ ?_ hbooked)
      rcases hold with hold | ⟨-, hfresh⟩
      · rw [hold, hopen]
      · rw [hfresh] at hopen
        cases hopen

/-- A booked hour is released, and no other hour is. -/
theorem cancelHour {time : Moment} (hs : s.held.hours = []) {Q : Ending Failure Unit → Books → Prop}
    (hdone : ∀ h, b.availability? time.second = some .trainingScheduled →
      h.availability = .available → Q (.done ()) (b.setHour time.second h))
    (hrefused : ∀ v, b.availability? time.second ≠ some .trainingScheduled → Q (.refused
      (.within "cancel-training-failed" "unable to cancel training" (.rule v))) b)
    (hcrashed : b.availability? time.second ≠ some .trainingScheduled → Q .crashed b) :
    (Desk.cancelHour time).Meets s b Q := by
  refine watched fun spans => bind (within ?_)
  refine stepHour ?_ fun e b' h => ?_
  · exact hs
  cases h with
  | refused hstep =>
      refine hrefused _ fun hbooked => ?_
      obtain ⟨h, hh, ha⟩ := Option.map_eq_some_iff.mp hbooked
      obtain ⟨v, hv⟩ := hstep h hh
      rw [Hour.step, ha] at hv
      cases hv
  | crashed hnone =>
      refine hcrashed fun hbooked => ?_
      rw [Books.availability?, hnone] at hbooked
      cases hbooked
  | stepped hold hstep =>
      obtain ⟨-, ha⟩ := Hour.step_eq_ok_iff.mp hstep
      obtain ⟨hbooked, hopen⟩ := Availability.after_cancel ha
      refine pure (hdone _ ?_ hopen)
      rcases hold with hold | ⟨-, hfresh⟩
      · rw [hold, hbooked]
      · rw [hfresh] at hbooked
        cases hbooked

end Act.Meets

/-! ### Editing -/

/-- The books differ in hours only, and the same hours are booked. -/
structure Books.Edited (b b' : Books) : Prop where
  inMemory : b'.inMemory = b.inMemory
  trainings : b'.trainings = b.trainings
  accounts : b'.accounts = b.accounts
  booked : ∀ s, b'.availability? s = some .trainingScheduled ↔
    b.availability? s = some .trainingScheduled

theorem Books.Edited.refl (b : Books) : b.Edited b := ⟨rfl, rfl, rfl, fun _ => Iff.rfl⟩

theorem Books.Edited.trans {b b' b'' : Books} (h : b.Edited b') (h' : b'.Edited b'') :
    b.Edited b'' :=
  ⟨h'.inMemory.trans h.inMemory, h'.trainings.trans h.trainings, h'.accounts.trans h.accounts,
    fun s => (h'.booked s).trans (h.booked s)⟩

theorem Books.Edited.setHour {b : Books} {second : Int} {h : Hour}
    (hold : b.availability? second ≠ some .trainingScheduled)
    (hnew : h.availability ≠ .trainingScheduled) : b.Edited (b.setHour second h) := by
  refine ⟨rfl, rfl, rfl, fun s => ?_⟩
  rw [availability?_setHour]
  split
  · next hs =>
      subst hs
      simp only [Option.some.injEq, hnew, false_iff]
      exact hold
  · rfl

/-- Is the step one of the two that open and close hours? -/
def HourStep.Edits : HourStep → Prop
  | .makeAvailable | .makeNotAvailable => True
  | .scheduleTraining | .cancelTraining => False

theorem Availability.after_edit {step : HourStep} (hstep : step.Edits) {a a' : Availability}
    (h : after step a = .ok a') : a ≠ .trainingScheduled ∧ a' ≠ .trainingScheduled := by
  cases step with
  | makeAvailable =>
      cases a <;> cases h
      exact ⟨by decide, by decide⟩
  | makeNotAvailable =>
      cases a <;> cases h
      exact ⟨by decide, by decide⟩
  | scheduleTraining => exact hstep.elim
  | cancelTraining => exact hstep.elim

theorem Books.Stepping.edited {b b' : Books} {second : Int} {step : HourStep}
    {e : Ending Failure Hour} (h : b.Stepping second step e b') (hstep : step.Edits) :
    b.Edited b' := by
  cases h with
  | refused => exact .refl b
  | crashed => exact .refl b
  | stepped hold hok =>
      obtain ⟨-, ha⟩ := Hour.step_eq_ok_iff.mp hok
      obtain ⟨hfrom, hto⟩ := Availability.after_edit hstep ha
      refine .setHour ?_ hto
      rcases hold with hold | ⟨hnone, -⟩
      · rw [hold]
        exact fun he => hfrom (Option.some.inj he)
      · rw [availability?, hnone]
        intro he
        cases he

namespace Act.Meets

variable {s : Setting}

/-- However far a list of hours is worked through, no hour is booked or released. -/
theorem stepAll {step : HourStep} (hstep : step.Edits) {slug word : String}
    (hs : s.held.hours = []) (times : List Moment) (b : Books) :
    (Desk.stepAll step slug word times).Meets s b fun _ b' => b.Edited b' := by
  induction times generalizing b with
  | nil => exact pure (.refl b)
  | cons time rest ih =>
      refine bind (within ?_)
      refine stepHour hs fun e b' h => ?_
      have hedit : b.Edited b' := h.edited hstep
      cases e with
      | done h' => exact (ih b').mono fun _ _ h'' => hedit.trans h''
      | refused f => exact hedit
      | crashed => exact hedit

theorem makeHoursAvailable (hs : s.held.hours = []) (times : List Moment) (b : Books) :
    (Desk.makeHoursAvailable times).Meets s b fun _ b' => b.Edited b' := by
  have hstep : HourStep.makeAvailable.Edits := trivial
  refine watched fun _ => stepAll hstep ?_ times b
  exact hs

theorem makeHoursUnavailable (hs : s.held.hours = []) (times : List Moment) (b : Books) :
    (Desk.makeHoursUnavailable times).Meets s b fun _ b' => b.Edited b' := by
  have hstep : HourStep.makeNotAvailable.Edits := trivial
  refine watched fun _ => stepAll hstep ?_ times b
  exact hs

/-! ### Queries on the calendar -/

theorem availableHours (hs : s.held.hours = []) (first last : Moment) (b : Books) :
    (Desk.availableHours first last).Meets s b fun _ b' => b' = b := by
  refine watched fun _ => ?_
  by_cases hlt : last < first
  · rw [if_pos hlt]
    exact refuse rfl
  · rw [if_neg hlt]
    have hle : first.second ≤ last.second := Moment.second_mono (Moment.not_lt.mp hlt)
    refine bind (hoursBetween ?_ hle fun l _ => ?_)
    · exact hs
    · exact ofEnding (Q := fun _ b' => b' = b) rfl

theorem hourAvailability (hs : s.held.hours = []) (time : Moment) (b : Books) :
    (Desk.hourAvailability time).Meets s b fun _ b' => b' = b := by
  refine watched fun _ => bind (hour? ?_ ?_)
  · exact hs
  · cases b.hours time.second with
    | none => exact pure (Q := fun _ b' => b' = b) rfl
    | some h => exact pure (Q := fun _ b' => b' = b) rfl

end Act.Meets

/-! ### Accounts -/

/-- The books differ in accounts only, and no account is lost. -/
structure Books.Banked (b b' : Books) : Prop where
  inMemory : b'.inMemory = b.inMemory
  hours : b'.hours = b.hours
  trainings : b'.trainings = b.trainings
  accounts : ∀ id, (b.accounts id).isSome → (b'.accounts id).isSome

theorem Books.Banked.refl (b : Books) : b.Banked b := ⟨rfl, rfl, rfl, fun _ h => h⟩

theorem Books.Banked.setAccount (b : Books) (id : String) (a : Account) :
    b.Banked (b.setAccount id a) := by
  refine ⟨rfl, rfl, rfl, fun other h => ?_⟩
  rw [setAccount_accounts]
  split
  · rfl
  · exact h

theorem Account.balance_of_new {id name : String} {role : Role} {balance : Int} {a : Account}
    (h : Account.new id role name balance = .ok a) : 0 ≤ a.balance ∧ a.balance = balance := by
  unfold Account.new at h
  split at h
  · cases h
  · split at h
    · cases h
    · next hn =>
        cases h
        exact ⟨Int.not_lt.mp hn, rfl⟩

namespace Act.Meets

variable {s : Setting} {b : Books}

theorem createUser {id name : String} {role : Role} {balance : Int} :
    (Desk.createUser id role name balance).Meets s b fun _ b' => b.Banked b' := by
  refine watched fun _ => bind_ofRule (fun v _ => .refl b) fun a ha => ?_
  refine within (addAccount (Account.balance_of_new ha).1 (fun _ _ => .refl b) fun _ => ?_)
  exact .setAccount b a.id a

/-- A change of a balance goes through if it is allowed, and the books stay as they are otherwise. -/
theorem creditAccount {id : String} {amount : Int} {Q : Ending Failure Unit → Books → Prop}
    (hdone : ∀ a n, b.accounts id = some a → b.newBalance? a amount = some n →
      Q (.done ()) (b.setAccount id { a with balance := n }))
    (hmissing : b.accounts id = none → Q (.refused (.within "update-balance-failed"
      "unable to change trainings balance" (Repository.noAccount id))) b)
    (hrefused : ∀ a, b.accounts id = some a → b.newBalance? a amount = none →
      Q (.refused (.within "update-balance-failed" "unable to change trainings balance"
        (.rule (.insufficientBalance id (b.shown a) amount)))) b) :
    (Desk.changeBalance id amount).Meets s b Q := by
  refine watched fun _ => bind (within (changeBalance ?_))
  unfold Books.changeBalance
  cases ha : b.accounts id with
  | none => exact hmissing ha
  | some a =>
      cases hn : b.newBalance? a amount with
      | none =>
          simp only [hn]
          exact hrefused a ha hn
      | some n =>
          simp only [hn]
          exact pure (hdone a n ha hn)

theorem changeBalance_banked {id : String} {amount : Int} :
    (Desk.changeBalance id amount).Meets s b fun _ b' => b.Banked b' :=
  creditAccount (fun _ _ _ _ => .setAccount b id _) (fun _ => .refl b) fun _ _ _ => .refl b

theorem recordIp_banked {id ip : String} :
    (Desk.recordIp id ip).Meets s b fun _ b' => b.Banked b' := by
  refine watched fun _ => within (recordIp ?_)
  unfold Books.recordIp
  cases b.accounts id with
  | none => exact .refl b
  | some a => exact .setAccount b id _

theorem recordIp_balances {id ip : String} :
    (Desk.recordIp id ip).Meets s b fun _ b' => b'.balance? = b.balance? := by
  refine watched fun _ => within (recordIp ?_)
  unfold Books.recordIp
  cases ha : b.accounts id with
  | none => rfl
  | some a => exact Books.balance?_setAccount_same ha rfl

theorem currentUser {id : String} : (Desk.currentUser id).Meets s b fun _ b' => b' = b :=
  watched fun _ => account (fun _ => rfl) fun _ _ => rfl

end Act.Meets

end TrainerBooking
