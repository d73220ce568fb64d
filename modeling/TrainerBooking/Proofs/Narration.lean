import TrainerBooking.Proofs.Equivalence
import TrainerBooking.Proofs.Residue
import TrainerBooking.Proofs.Scripts

/-! # What the watch says of a run

Every order has a script, from which it can be read which operations call which others.

* **Scripts.** `Order.script` follows the definitions of the desk.  In an update of a training only the
  transition can call operations, which it does while the training is held
  (`Script.updateTraining`).
* **Runs.** `Desk.serve` says how orders end that are carried out one after the other, `Desk.leave` what
  they leave, and `Desk.invocations` which operations were called on the way.  The last is worked out
  with nobody watching.
* The watch changes neither endings nor stores, and it says and counts just what was called
  (`Desk.orders_narrated`). -/

namespace TrainerBooking.Desk

/-! ### The scripts of the desk

A script of the desk has the name of its act, and its type says that it is a script of this act. -/

namespace Script

variable {α β : Type} {act act' : Act Failure α}

/-- One of two acts. -/
def ite {p : Prop} [inst : Decidable p] (yes : Script act) (no : Script act') :
    Script (if p then act else act') :=
  match inst with
  | .isTrue _ => yes
  | .isFalse _ => no

/-- A rule whose violation is annotated. -/
def rule (e : Except Violation α) (slug description : String) :
    Script ((Act.ofRule e).within slug description) :=
  .own ((Act.Plain.ofRule e).within slug description)

/-- An act of whose value something else is made. -/
def yielding {f : α → β} (script : Script act) : Script (act >>= fun a => pure (f a)) :=
  .andThen script fun a => .own (.pure (f a))

/-- Only the transition of a training can call operations. -/
def updateTraining (id : String) (caller : Caller) {transition : Training → Act Failure Training}
    (script : ∀ t, Script (transition t)) :
    Script (Repository.updateTraining id caller transition) :=
  .andThen (.own .store) fun
    | .memory m =>
      .asking (fun s s' ht => by rw [ht.held]) fun _ =>
        match m.trainings.get? id with
        | none => .own (.refuse _)
        | some t =>
          let unheld :=
            .andThen (.own (.ofRule _)) fun _ =>
              .andThen (.holding _ (script t)) fun updated =>
                .own ((Act.Plain.changeMemory _).bind fun _ => .pure updated)
          .ite (.andThen (.own (.refuse _)) fun _ => unheld) unheld
    | .tables tb =>
      .asking (fun s s' ht => by rw [ht.held]) fun _ =>
        .andThen (.own (.ofDatabase _)) fun _ =>
          match tb.trainings.get? id with
          | none => .own (.refuse _)
          | some row =>
            .andThen (.own (.ofDatabase row.decode)) fun stored =>
              .andThen (.own (.ofRule _)) fun _ =>
                .andThen (.holding _ (script stored)) fun updated =>
                  .own <| (Act.Plain.ofDatabase _).bind fun _ =>
                    (Act.Plain.changeTables _).bind fun _ => .pure updated

def scheduleHour (time : Moment) : Script (Desk.scheduleHour time) :=
  .call .scheduleHour (.yielding (.own ((Act.Plain.stepHour time _).within _ _)))

def cancelHour (time : Moment) : Script (Desk.cancelHour time) :=
  .call .cancelHour (.yielding (.own ((Act.Plain.stepHour time _).within _ _)))

def moveHour (new old : Moment) : Script (Desk.moveHour new old) :=
  .andThen (.within _ _ (scheduleHour new)) fun _ => .within _ _ (cancelHour old)

def changeBalance (id : String) (amount : Int) : Script (Desk.changeBalance id amount) :=
  .call .changeBalance (.yielding (.own ((Act.Plain.changeBalance id amount).within _ _)))

def scheduleTraining (id owner ownerName : String) (time : Moment) (notes : String) :
    Script (Desk.scheduleTraining id owner ownerName time notes) :=
  .call .scheduleTraining <|
    .andThen (rule _ _ _) fun training =>
      .andThen (.own ((Act.Plain.addTraining training).within _ _)) fun _ =>
        .andThen (.within _ _ (changeBalance training.owner (-1))) fun _ =>
          .within _ _ (scheduleHour training.time)

def canceling (caller : Caller) (now : Moment) (training : Training) :
    Script (Desk.canceling caller now training) :=
  .andThen (rule _ _ _) fun canceled =>
    let released := .andThen (.within _ _ (cancelHour canceled.time)) fun _ => .own (.pure canceled)
    .ite (.andThen (.within _ _ (changeBalance canceled.owner _)) fun _ => released) released

def rescheduling (newTime : Moment) (notes : String) (now : Moment) (training : Training) :
    Script (Desk.rescheduling newTime notes now training) :=
  .andThen (rule _ _ _) fun _ =>
    .andThen (rule _ _ _) fun moved =>
      .andThen (.within _ _ (moveHour newTime training.time)) fun _ => .own (.pure moved)

def approving (caller : Caller) (training : Training) : Script (Desk.approving caller training) :=
  .andThen (rule _ _ _) fun moved =>
    .andThen (.within _ _ (moveHour moved.time training.time)) fun _ => .own (.pure moved)

end Script

namespace Order

/-- The operation that is ordered. -/
def operation : Order → Operation
  | scheduleHour _ => .scheduleHour
  | cancelHour _ => .cancelHour
  | makeHoursAvailable _ => .makeHoursAvailable
  | makeHoursUnavailable _ => .makeHoursUnavailable
  | availableHours _ _ => .availableHours
  | hourAvailability _ => .hourAvailability
  | scheduleTraining _ _ _ _ _ => .scheduleTraining
  | cancelTraining _ _ => .cancelTraining
  | rescheduleTraining _ _ _ _ => .rescheduleTraining
  | requestReschedule _ _ _ _ => .requestReschedule
  | approveReschedule _ _ => .approveReschedule
  | rejectReschedule _ _ => .rejectReschedule
  | allTrainings => .allTrainings
  | trainingsOfCaller _ => .trainingsOfCaller
  | createUser _ _ _ _ => .createUser
  | changeBalance _ _ => .changeBalance
  | recordIp _ _ => .recordIp
  | currentUser _ => .currentUser

/-- The script of an order. -/
def script : (order : Order) → Script order.perform
  | scheduleHour time => .yielding (.scheduleHour time)
  | cancelHour time => .yielding (.cancelHour time)
  | makeHoursAvailable times =>
    .yielding (.call .makeHoursAvailable (.own (.stepAll _ _ _ times)))
  | makeHoursUnavailable times =>
    .yielding (.call .makeHoursUnavailable (.own (.stepAll _ _ _ times)))
  | availableHours first last =>
    .yielding <| .call .availableHours <|
      .ite (.own (.refuse _)) <|
        .own ((Act.Plain.hoursBetween first last).bind fun _ => .ofEnding _)
  | hourAvailability time =>
    .yielding <| .call .hourAvailability <|
      .andThen (.own (.hour? time)) fun
        | some _ => .own (.pure _)
        | none => .own (.pure _)
  | scheduleTraining id owner ownerName time notes =>
    .yielding (.scheduleTraining id owner ownerName time notes)
  | cancelTraining id caller =>
    .yielding <| .call .cancelTraining <|
      .andThen (.own .now) fun now =>
        .yielding (.updateTraining id caller (.canceling caller now))
  | rescheduleTraining id newTime notes caller =>
    .yielding <| .call .rescheduleTraining <|
      .andThen (.own .now) fun now =>
        .yielding (.updateTraining id caller (.rescheduling newTime notes now))
  | requestReschedule id newTime notes caller =>
    .yielding <| .call .requestReschedule <|
      .yielding (.own (.updateTraining id caller (.requesting newTime notes caller)))
  | approveReschedule id caller =>
    .yielding <| .call .approveReschedule <|
      .yielding (.updateTraining id caller (.approving caller))
  | rejectReschedule id caller =>
    .yielding <| .call .rejectReschedule <|
      .yielding (.own (.updateTraining id caller .rejecting))
  | allTrainings => .yielding (.call .allTrainings (.own .allTrainings))
  | trainingsOfCaller caller =>
    .yielding (.call .trainingsOfCaller (.own (.trainingsOf caller.id)))
  | createUser _ _ _ _ =>
    .yielding <| .call .createUser <|
      .andThen (.rule _ _ _) fun account => .own ((Act.Plain.addAccount account).within _ _)
  | changeBalance id amount => .yielding (.changeBalance id amount)
  | recordIp id ip => .yielding (.call .recordIp (.own ((Act.Plain.recordIp id ip).within _ _)))
  | currentUser id => .yielding (.call .currentUser (.own (.account id)))

end Order

/-- An operation is called once, with all that it calls in turn, and fails as its body does. -/
theorem Script.calls_yielding {α β : Type} {body : Act Failure α} {f : α → β} (o : Operation)
    (script : Script body) (s : Setting) (w : World) :
    (Script.yielding (f := f) (.call o script)).calls s w =
      .call o ((watched o body >>= fun a => pure (f a)) s w).1.failure? (script.calls s w) .none := by
  have hend := (script.blind.unwatched o s w).1
  rw [yielding, calls, calls, Act.bind_run, ← hend]
  generalize watched o body s w = r
  obtain ⟨e, v⟩ := r
  cases e <;> rfl

/-- An order calls its operation, and nothing else directly. -/
theorem Order.calls_eq (order : Order) (s : Setting) (w : World) :
    ∃ inner, order.script.calls s w =
      .call order.operation (order.perform s w).1.failure? inner .none := by
  cases order <;> exact ⟨_, Script.calls_yielding _ _ _ _⟩

/-! ### Runs -/

/-- The world that orders leave that are carried out one after the other. -/
def leave (window : BookingWindow) (watch : Watch) : List (Moment × Order) → World → World
  | [], w => w
  | (now, order) :: rest, w =>
    leave window watch rest (order.perform (.outer now window watch) w).2

/-- The operations that are called when orders are carried out one after the other, even if nobody
watches. -/
def invocations (window : BookingWindow) : List (Moment × Order) → World → Invocations
  | [], _ => .none
  | (now, order) :: rest, w =>
    order.script.calls (.outer now window .bare) w ++
      invocations window rest (order.perform (.outer now window .bare) w).2

variable {window : BookingWindow} {w w' : World}

/-- The watch changes neither how orders end nor the stores. -/
theorem serve_congr (watch watch' : Watch) (orders : List (Moment × Order))
    (hw : w'.store = w.store) :
    serve window watch' orders w' = serve window watch orders w := by
  induction orders generalizing w w' with
  | nil => rfl
  | cons entry rest ih =>
      obtain ⟨now, order⟩ := entry
      have htwin : (Setting.outer now window watch).Twin (.outer now window watch') :=
        ⟨rfl, rfl, rfl⟩
      obtain ⟨hend, hstore⟩ := order.script.blind _ _ w w' htwin hw
      rw [serve, serve, hend, hstore, ih hstore]

/-- The operations called directly are those ordered, and fail as the orders do. -/
theorem direct_invocations (orders : List (Moment × Order)) (w : World) :
    (invocations window orders w).direct =
      List.zipWith (fun entry r => (entry.2.operation, r.1.failure?)) orders
        (serve window .bare orders w) := by
  induction orders generalizing w with
  | nil => rfl
  | cons entry rest ih =>
      obtain ⟨now, order⟩ := entry
      obtain ⟨inner, hcalls⟩ := order.calls_eq (.outer now window .bare) w
      rw [invocations, Invocations.direct_append, ih, hcalls]
      rfl

/-- Step by step, the watch records what is called without it. -/
theorem records_leave (span : String) (orders : List (Moment × Order)) (hw : w'.store = w.store)
    (hend : ∀ r ∈ serve window .bare orders w, r.1 ≠ .crashed) :
    w'.Records span (invocations window orders w) (leave window (.full span) orders w') := by
  induction orders generalizing w w' with
  | nil => exact .none w'
  | cons entry rest ih =>
      obtain ⟨now, order⟩ := entry
      have htwin : (Setting.outer now window .bare).Twin (.outer now window (.full span)) :=
        ⟨rfl, rfl, rfl⟩
      obtain ⟨hsame, hstore⟩ := order.script.blind _ _ w w' htwin hw
      have hfirst := hend _ List.mem_cons_self
      rw [← hsame] at hfirst
      have hrec := order.script.records rfl w' hfirst
      rw [order.script.calls_congr htwin hw] at hrec
      exact hrec.append (ih hstore fun r hr => hend r (List.mem_cons_of_mem _ hr))

/-- **The watch is transparent and complete.** However they are watched, orders end as they do when
nobody watches and leave the same stores.  Unless one of them crashes, the full watch counts every
operation that was called, by an order or by another operation, once as a success or as a failure, and
it writes of each of them one event before and one after what is written of the operations inside: a
warning exactly if it failed because the storage did in the end, with the slug of that. -/
theorem orders_narrated (window : BookingWindow) (orders : List (Moment × Order)) (w : World) :
    (∀ watch, serve window watch orders w = serve window .bare orders w) ∧
    ((∀ r ∈ serve window .bare orders w, r.1 ≠ .crashed) → ∀ span,
      let calls := invocations window orders w
      let w' := leave window (.full span) orders w
      calls.direct = List.zipWith (fun entry r => (entry.2.operation, r.1.failure?)) orders
          (serve window .bare orders w) ∧
        (∀ o success, w'.counted o success = w.counted o success + calls.count o success) ∧
        w'.narration = w.narration ++ calls.narration span) := by
  refine ⟨fun watch => serve_congr .bare watch orders rfl, fun hend span => ?_⟩
  have hrec := records_leave span orders rfl hend
  exact ⟨direct_invocations orders w, hrec.counted, hrec.narration⟩

open Sample Command in
/-- Ann's training is not saved when it is canceled, after she has been paid and noon was released.  She
books noon, and then tries to book it once more. -/
theorem orders_narrated_ann :
    let w := world (.tables (annsTables .trainingScheduled
      [⟨.trainings, .update, some "disk I/O error"⟩]))
    let orders := [
      (newYear, .cancelTraining "1" ann),
      (newYear, .scheduleTraining "2" ann.id ann.name noonTime "legs"),
      (newYear, .scheduleTraining "3" ann.id ann.name noonTime "legs")]
    let calls := invocations .standard orders w
    let w' := leave .standard (.full "app") orders w
    (∀ r ∈ serve .standard .bare orders w, r.1 ≠ .crashed) ∧
      calls.direct.map (fun call => (call.1, call.2.map Failure.kind)) =
        [(.cancelTraining, some .infrastructure), (.scheduleTraining, none),
          (.scheduleTraining, some .conflict)] ∧
      w'.counted .changeBalance true = 3 ∧ w'.counted .scheduleHour false = 1 ∧
      w'.narration = calls.narration "app" ∧
      (w'.narration.take 6).map (fun e => (e.level, e.message, e.spans.getLast?)) =
        [(.debug, "Executing command", some Operation.cancelTraining.span),
          (.debug, "Executing command", some Operation.changeBalance.span),
          (.debug, "Command executed successfully", some Operation.changeBalance.span),
          (.debug, "Executing command", some Operation.cancelHour.span),
          (.debug, "Command executed successfully", some Operation.cancelHour.span),
          (.warn, "Failed to execute command", some Operation.cancelTraining.span)] := by
  intro w orders calls w'
  have hend : ∀ r ∈ serve .standard .bare orders w, r.1 ≠ .crashed := by decide +kernel
  obtain ⟨-, hcounted, hnarration⟩ := (orders_narrated .standard orders w).2 hend "app"
  have hempty : w.narration = [] := rfl
  have hcharged : w.counted .changeBalance true + calls.count .changeBalance true = 3 := by
    decide +kernel
  have hrefused : w.counted .scheduleHour false + calls.count .scheduleHour false = 1 := by
    decide +kernel
  rw [hempty, List.nil_append] at hnarration
  refine ⟨hend, by decide +kernel, (hcounted _ _).trans hcharged, (hcounted _ _).trans hrefused,
    hnarration, ?_⟩
  rw [hnarration]
  decide +kernel

end TrainerBooking.Desk
