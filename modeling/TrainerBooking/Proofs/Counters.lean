import TrainerBooking.Proofs.Plain
import TrainerBooking.Proofs.Updates

/-! # What is counted

Under the full watch every operation is counted by its name, successes and failures apart, and no two
outcomes are counted together (`Desk.Operation.counter_inj`).  For the two operations that book and
release an hour, the successes can be read off the updates of the calendar.

* **Counts.** `World.counted` is how often an operation was counted with an outcome, and
  `World.successes` how often as a success.
* **Counting.** Only the watch around an operation counts, and it counts a success exactly if the
  operation is done (`Desk.watched_successes`).
* **Uncounted** is what leaves the successes of the two operations as they are (`Act.Uncounted`): plain
  acts and what is put together from them, and operations of other names around such acts. -/

namespace TrainerBooking

open Desk

/-- How often the operation was counted with this outcome. -/
def World.counted (w : World) (o : Operation) (success : Bool) : Nat :=
  (w.counters.get? (o.counter success)).getD 0

/-- How often the operation was counted as a success. -/
def World.successes (w : World) (o : Operation) : Nat := (w.counters.get? (o.counter true)).getD 0

example : Operation.scheduleHour.counter true = "commands.trainer.schedule_training.success" ∧
    Operation.cancelHour.counter true = "commands.trainer.cancel_training.success" := by
  decide +kernel

/-- The operation that takes the step, if it takes no other and each of its successes is one step. -/
def HourStep.operation? : HourStep → Option Operation
  | scheduleTraining => some .scheduleHour
  | cancelTraining => some .cancelHour
  | makeAvailable | makeNotAvailable => none

/-- All operations, each with both outcomes. -/
def Desk.Operation.outcomes : List (Operation × Bool) :=
  [.scheduleHour, .cancelHour, .makeHoursAvailable, .makeHoursUnavailable, .availableHours,
    .hourAvailability, .scheduleTraining, .cancelTraining, .rescheduleTraining, .requestReschedule,
    .approveReschedule, .rejectReschedule, .allTrainings, .trainingsOfCaller, .createUser,
    .changeBalance, .recordIp, .currentUser].flatMap fun o => [(o, true), (o, false)]

/-- Different outcomes are counted under different keys. -/
theorem Desk.Operation.counter_inj {o o' : Operation} {success success' : Bool} :
    o.counter success = o'.counter success' ↔ o = o' ∧ success = success' := by
  have hmem : ∀ (o : Operation) (success : Bool), (o, success) ∈ outcomes := by
    intro o success
    cases o <;> cases success <;> decide
  have hnodup : (outcomes.map fun p => p.1.counter p.2).Nodup := by decide +kernel
  constructor
  · intro h
    exact Prod.mk.inj (List.inj_on_of_nodup_map hnodup (hmem o success) (hmem o' success') h)
  · rintro ⟨rfl, rfl⟩
    rfl

/-! ### Under the watch -/

theorem World.counted_count (w : World) (o o' : Operation) (success success' : Bool)
    (s : Setting) :
    ((Act.count (o'.counter success') : Act Failure Unit) s w).2.counted o success =
      w.counted o success + if o' = o ∧ success' = success then 1 else 0 := by
  rw [Act.count, Act.change_run, counted, counted, Registry.get?_put]
  by_cases h : o' = o ∧ success' = success
  · rw [if_pos (Operation.counter_inj.mpr h).symm, if_pos h, h.1, h.2]
    rfl
  · rw [if_neg fun hkey => h (Operation.counter_inj.mp hkey.symm), if_neg h]
    rfl

theorem World.counted_congr {w w' : World} (h : w'.counters = w.counters) (o : Operation)
    (success : Bool) : w'.counted o success = w.counted o success := by
  rw [counted, counted, h]

/-- Was it a success?  A crash is no outcome. -/
def Ending.outcome? {α : Type} : Ending Failure α → Option Bool
  | .done _ => some true
  | .refused _ => some false
  | .crashed => none

/-- Are outcomes counted under this watch? -/
def Watch.counts : Watch → Bool
  | .bare | .silent => false
  | .full _ => true

namespace Desk

variable {α : Type}

/-- The watch counts the outcome of the operation, if it counts at all. -/
theorem closing_counted (o o' : Operation) (counts success : Bool) (e : Ending Failure α)
    (s : Setting) (w : World) : (closing o counts e s w).2.counted o' success =
      w.counted o' success + if counts = true ∧ o = o' ∧ e.outcome? = some success then 1 else 0 := by
  cases counts with
  | false => cases e <;> rfl
  | true =>
      cases e with
      | crashed =>
          rw [if_neg (by simp [Ending.outcome?])]
          rfl
      | done a =>
          refine (w.counted_count o' o success true s).trans ?_
          simp [Ending.outcome?]
      | refused f =>
          refine (w.counted_count o' o success false s).trans ?_
          simp [Ending.outcome?]

/-- The watch counts one success of an operation that is done. -/
theorem closing_successes (o o' : Operation) (counts : Bool) (e : Ending Failure α) (s : Setting)
    (w : World) : (closing o counts e s w).2.successes o' =
      w.successes o' + (decide (o = o') && (counts && e.isDone)).toNat := by
  refine (closing_counted o o' counts true e s w).trans (congrArg _ ?_)
  cases e <;> cases counts <;> by_cases h : o = o' <;> simp [h, Ending.outcome?, Ending.isDone]

/-- **The watch counts one success of an operation that is done**, if it counts at all. -/
theorem watched_successes (o : Operation) (body : Act Failure α) (s : Setting) (w : World) :
    ∃ (spans : List String) (v : World), v.store = w.store ∧ v.counters = w.counters ∧
      let r := body { s with spans := spans } v
      (watched o body s w).1 = r.1 ∧ (watched o body s w).2.store = r.2.store ∧
      ∀ o', (watched o body s w).2.successes o' =
        r.2.successes o' + (decide (o = o') && (s.watch.counts && r.1.isDone)).toNat := by
  have hnarrated : ∀ (counts : Bool) (s : Setting), let r := body s (opened o s w)
      (narrated o counts body s w).1 = r.1 ∧ (narrated o counts body s w).2.store = r.2.store ∧
        ∀ o', (narrated o counts body s w).2.successes o' =
          r.2.successes o' + (decide (o = o') && (counts && r.1.isDone)).toNat := by
    intro counts s r
    rw [narrated_run]
    exact ⟨rfl, closing_store .., fun o' => closing_successes ..⟩
  obtain ⟨hwatch, heq⟩ | ⟨hwatch, heq⟩ | ⟨span, hwatch, heq⟩ := watched_cases o body s
  · have hcounts : s.watch.counts = false := congrArg Watch.counts hwatch
    rw [heq, hcounts]
    refine ⟨s.spans, w, rfl, rfl, rfl, rfl, fun o' => ?_⟩
    rw [Bool.false_and, Bool.and_false]
    rfl
  · have hcounts : s.watch.counts = false := congrArg Watch.counts hwatch
    rw [heq, hcounts]
    exact ⟨[o.span], opened o _ w, rfl, rfl, hnarrated false _⟩
  · have hcounts : s.watch.counts = true := congrArg Watch.counts hwatch
    rw [heq, hcounts]
    exact ⟨[span, o.span], opened o _ w, rfl, rfl, hnarrated true _⟩

/-- The watch around any other operation leaves the successes as the operation leaves them. -/
theorem watched_elsewhere {o' : Operation} (hschedule : o' ≠ .scheduleHour)
    (hcancel : o' ≠ .cancelHour) (body : Act Failure α) (s : Setting) (w : World) :
    ∃ (spans : List String) (v : World), v.store = w.store ∧ v.counters = w.counters ∧
      let r := body { s with spans := spans } v
      (watched o' body s w).1 = r.1 ∧ (watched o' body s w).2.store = r.2.store ∧
      ∀ {step o}, HourStep.operation? step = some o →
        (watched o' body s w).2.successes o = r.2.successes o := by
  obtain ⟨spans, v, hstore, hcounters, hend, hstore', hcount⟩ := watched_successes o' body s w
  refine ⟨spans, v, hstore, hcounters, hend, hstore', fun {step o} ho => ?_⟩
  have hne : o' ≠ o := by
    rintro rfl
    cases step <;> cases ho
    · exact hschedule rfl
    · exact hcancel rfl
  rw [hcount o, decide_eq_false hne]
  rfl

end Desk

/-! ### What is not counted -/

/-- The act leaves the successes of the operations that book and release hours as they are. -/
def Act.Uncounted {ε α : Type} (act : Act ε α) : Prop :=
  ∀ s w {step o}, HourStep.operation? step = some o → (act s w).2.successes o = w.successes o

namespace Act.Uncounted

variable {ε δ α β : Type}

/-- Plain acts count nothing. -/
theorem of_plain {act : Act ε α} (h : act.Plain) : act.Uncounted := by
  intro s w step o _
  rw [World.successes, h.counters, World.successes]

theorem within {slug description : String} {act : Act Failure α} (h : act.Uncounted) :
    (act.within slug description).Uncounted := h

theorem bind {act : Act ε α} {next : α → Act ε β} (h : act.Uncounted)
    (hnext : ∀ a, (next a).Uncounted) : (act >>= next).Uncounted := by
  intro s w step o ho
  have hfirst := h s w ho
  rw [bind_run]
  generalize act s w = r at hfirst
  obtain ⟨e, w'⟩ := r
  cases e with
  | done a => exact (hnext a s w' ho).trans hfirst
  | refused c => exact hfirst
  | crashed => exact hfirst

/-- Other operations may be counted. -/
theorem watched {o' : Operation} {body : Act Failure α}
    (hschedule : o' ≠ .scheduleHour) (hcancel : o' ≠ .cancelHour) (h : body.Uncounted) :
    (Desk.watched o' body).Uncounted := by
  intro s w step o ho
  obtain ⟨spans, v, -, hcounters, -, -, hcount⟩ := Desk.watched_elsewhere hschedule hcancel body s w
  rw [hcount ho, h _ v ho, World.successes, hcounters, World.successes]

theorem changeBalance_watched {id : String} {amount : Int} :
    (Desk.changeBalance id amount).Uncounted :=
  watched nofun nofun <| .of_plain <|
    ((Act.Plain.changeBalance id amount).within _ _).bind fun _ => .pure ()

end Act.Uncounted

/-- Does the order ask to book or to release an hour, whatever is in the books? -/
def Desk.Order.claims (order : Order) : Bool := order.steps.any fun step => step.operation?.isSome

/-- An order that neither books nor releases an hour counts neither. -/
theorem Desk.Order.uncounted {order : Order} (h : order.claims = false) :
    order.perform.Uncounted := by
  -- Around a plain body there is only the watch, and it counts under another name.
  have told : ∀ {α β : Type} {o : Operation} {body : Act Failure α} {f : α → β},
      o ≠ .scheduleHour → o ≠ .cancelHour → body.Plain →
        (watched o body >>= fun a => (Pure.pure (f a) : Act Failure β)).Uncounted :=
    fun hschedule hcancel hbody =>
      .bind (.watched hschedule hcancel (.of_plain hbody)) fun _ => .of_plain (.pure _)
  cases order with
  | scheduleHour time => cases h
  | cancelHour time => cases h
  | scheduleTraining id owner ownerName time notes => cases h
  | cancelTraining id caller => cases h
  | rescheduleTraining id newTime notes caller => cases h
  | approveReschedule id caller => cases h
  | makeHoursAvailable times => exact told nofun nofun (.stepAll _ _ _ times)
  | makeHoursUnavailable times => exact told nofun nofun (.stepAll _ _ _ times)
  | availableHours first last =>
      refine told nofun nofun (.ite (.refuse _) ?_)
      exact (Act.Plain.hoursBetween first last).bind fun hours => .ofEnding _
  | hourAvailability time =>
      refine told nofun nofun ((Act.Plain.hour? time).bind fun hour => ?_)
      cases hour with
      | none => exact .pure false
      | some hour => exact .pure hour.isAvailable
  | requestReschedule id newTime notes caller =>
      have hupdate := Act.Plain.updateTraining id caller (.requesting newTime notes caller)
      exact told nofun nofun (hupdate.bind fun _ => .pure ())
  | rejectReschedule id caller =>
      have hupdate := Act.Plain.updateTraining id caller .rejecting
      exact told nofun nofun (hupdate.bind fun _ => .pure ())
  | allTrainings => exact told nofun nofun .allTrainings
  | trainingsOfCaller caller => exact told nofun nofun (.trainingsOf caller.id)
  | createUser id role name balance =>
      refine told nofun nofun (((Act.Plain.ofRule _).within _ _).bind fun account => ?_)
      exact (Act.Plain.addAccount account).within _ _
  | changeBalance id amount =>
      exact .bind .changeBalance_watched fun _ => .of_plain (.pure _)
  | recordIp id ip => exact told nofun nofun ((Act.Plain.recordIp id ip).within _ _)
  | currentUser id => exact told nofun nofun (.account id)

end TrainerBooking
