import TrainerBooking.Proofs.Stamps
import TrainerBooking.Proofs.Times

/-! # What makes a call crash

A call crashes where a moment is moved out of the range of moments.  The only moments that are moved
are those of the hours that the call asks to update, the clock, and the hours of the calendar.

* **The clock** is taken to be one with which the window can be worked out (`BookingWindow.Runs`).
* **The calendar** holds hours only that the window admitted, and those have been moved to UTC before
  (`Books.Timetabled`).
* **Updates.** So what remains is an update of an hour that has no time in UTC.  `Act.CrashesIf` says
  of an act that nothing else makes it crash, with one rule for every way in which acts are put
  together, and `Act.CrashesIf.perform` says so of every call.

In a run, the only such hours are those of time stamps that are written behind UTC and lie after the end
of the year `9999` there (`Run.crashes`); such time stamps are read, and make calls crash
(`Run.not_steady`). -/

namespace TrainerBooking

open Api

/-- Was the computation cut off? -/
def Ending.isCrashed {ε α : Type} : Ending ε α → Bool
  | crashed => true
  | _ => false

@[simp] theorem Ending.isCrashed_mapCause {ε δ α : Type} (f : ε → δ) (e : Ending ε α) :
    (e.mapCause f).isCrashed = e.isCrashed := by cases e <;> rfl

@[simp] theorem Ending.isCrashed_ofExcept {ε α : Type} (e : Except ε α) :
    (Ending.ofExcept e).isCrashed = false := by cases e <;> rfl

instance {ε : Type} : LawfulMonad (Ending ε) :=
  LawfulMonad.mk' (Ending ε) (fun e => by cases e <;> rfl) (fun _ _ => rfl)
    fun e _ _ => by cases e <;> rfl

/-! ### The window and the calendar -/

/-- Can the window be worked out at the reading of the clock? -/
def BookingWindow.Runs (window : BookingWindow) (now : Moment) : Prop :=
  ((now.toUtc?).bind fun utc => utc.shift? (window.weeks * Moment.perWeek)).isSome = true

instance (window : BookingWindow) (now : Moment) : Decidable (window.Runs now) := by
  unfold BookingWindow.Runs
  infer_instance

/-- A check of the window crashes only over a time that has none in UTC. -/
theorem BookingWindow.Runs.check {window : BookingWindow} {time now : Moment}
    (h : window.Runs now) (hcrashed : window.check time now = .crashed) : time.toUtc? = none := by
  obtain ⟨horizon, hhorizon⟩ := Option.isSome_iff_exists.mp h
  obtain ⟨utc, hutc, hshift⟩ := Option.bind_eq_some_iff.mp hhorizon
  unfold BookingWindow.check at hcrashed
  rw [hutc] at hcrashed
  cases htime : time.toUtc? with
  | none => rfl
  | some t =>
      simp only [htime, hshift] at hcrashed
      repeat' split at hcrashed
      all_goals cases hcrashed

/-- An update of an hour crashes only in the check of the window. -/
theorem Books.check_of_stepHour {b : Books} {time : Moment} {step : HourStep} {s : Setting}
    (h : (b.stepHour time step s).1.isCrashed = true) : s.window.check time s.now = .crashed := by
  unfold stepHour updateHour startHour at h
  cases hold : b.hours time.second with
  | some hour =>
      simp only [hold] at h
      cases hs : hour.step step <;> simp [hs, Ending.ofExcept, Ending.mapCause, Ending.isCrashed] at h
  | none =>
      simp only [hold, BookingWindow.newHour] at h
      cases hcheck : s.window.check time s.now with
      | crashed => rfl
      | refused v => simp [hcheck, Ending.mapValue, Ending.mapCause, Ending.isCrashed] at h
      | done u =>
          simp only [hcheck, Ending.mapValue, Ending.mapCause] at h
          cases hs : Hour.step step ⟨b.keptTime time, .notAvailable⟩ <;>
            simp [hs, Ending.ofExcept, Ending.isCrashed] at h

/-- Hours that have times in UTC are cut into days without a crash, and without a loss. -/
theorem Day.group_done {ε : Type} {hours : List Hour}
    (h : ∀ hour ∈ hours, hour.time.toUtc?.isSome = true) :
    ∃ days, (Day.group hours : Ending ε (List Day)) = .done days ∧
      days.flatMap Day.hours = hours.map Hour.view := by
  suffices hdated : ∃ l, (hours.mapM Day.dated : Ending ε _) = .done l ∧
      l.map Prod.snd = hours.map Hour.view by
    obtain ⟨l, hl, hviews⟩ := hdated
    exact ⟨Day.ofDated l, by rw [Day.group, hl]; rfl, (Day.hours_ofDated l).trans hviews⟩
  induction hours with
  | nil => exact ⟨[], rfl, rfl⟩
  | cons hour rest ih =>
      obtain ⟨utc, hutc⟩ := Option.isSome_iff_exists.mp (h hour List.mem_cons_self)
      obtain ⟨l, hl, hviews⟩ := ih fun hour' hh => h hour' (List.mem_cons_of_mem _ hh)
      refine ⟨(utc.date, hour.view) :: l, ?_, ?_⟩
      · rw [List.mapM_cons, hl, Day.dated, hutc]
        rfl
      · rw [List.map_cons, List.map_cons, hviews]

/-! ### Acts that crash for one reason -/

namespace Act

variable {ε δ α β : Type}

/-- From a sound store with the books `b` the act crashes only if `C` holds. -/
def CrashesIf (act : Act ε α) (s : Setting) (b : Books) (C : Prop) : Prop :=
  act.Meets s b fun e _ => e.isCrashed = true → C

namespace CrashesIf

variable {s : Setting} {b : Books} {C : Prop}

theorem bind {act : Act ε α} {next : α → Act ε β} (h : act.CrashesIf s b C)
    (hnext : ∀ a b', (next a).CrashesIf s b' C) : (act >>= next).CrashesIf s b C := by
  refine Meets.bind (Meets.mono h fun e b' he => ?_)
  cases e with
  | done a => exact hnext a b'
  | refused c => exact nofun
  | crashed => exact fun hcrashed => he hcrashed

theorem pure {a : α} : (Pure.pure a : Act ε α).CrashesIf s b C :=
  Meets.pure nofun

theorem refuse {c : ε} : (Act.refuse c : Act ε α).CrashesIf s b C :=
  Meets.refuse nofun

theorem note {level : Level} {message : String} {fields : List (String × FieldValue)} :
    (Act.note level message fields : Act ε Unit).CrashesIf s b C :=
  Meets.note nofun

theorem ofExcept {e : Except ε α} : (Act.ofExcept e).CrashesIf s b C := by
  refine Meets.ofExcept fun hcrashed => ?_
  rw [Ending.isCrashed_ofExcept] at hcrashed
  cases hcrashed

theorem mapCause {f : ε → δ} {act : Act ε α} (h : act.CrashesIf s b C) :
    (act.mapCause f).CrashesIf s b C := by
  refine Meets.mapCause (Meets.mono h fun e b' he => ?_)
  rw [Ending.isCrashed_mapCause]
  exact he

theorem within {slug description : String} {act : Act Failure α} (h : act.CrashesIf s b C) :
    (act.within slug description).CrashesIf s b C := mapCause h

theorem ofRule {e : Except Violation α} : (Act.ofRule e).CrashesIf s b C := mapCause ofExcept

/-- An act behind a check runs from the same books. -/
theorem bind_ofRule {e : Except Violation α} {next : α → Act Failure β} {slug description : String}
    (h : ∀ a, e = .ok a → (next a).CrashesIf s b C) :
    ((Act.ofRule e).within slug description >>= next).CrashesIf s b C :=
  Meets.bind_ofRule (fun _ _ => nofun) h

open Desk in
theorem watched {o : Operation} {body : Act Failure α}
    (h : ∀ spans, body.CrashesIf { s with spans := spans } b C) :
    (Desk.watched o body).CrashesIf s b C := Meets.watched h

/-! ### The calendar -/

theorem stepHour {time : Moment} {step : HourStep} (hs : s.held.hours = [])
    (hnow : s.window.Runs s.now) (hC : time.toUtc? = none → C) :
    (Repository.updateHour time (Desk.stepping step)).CrashesIf s b C :=
  Meets.updateHour hs fun hcrashed => hC (hnow.check (Books.check_of_stepHour hcrashed))

theorem scheduleHour {time : Moment} (hs : s.held.hours = []) (hnow : s.window.Runs s.now)
    (hC : time.toUtc? = none → C) : (Desk.scheduleHour time).CrashesIf s b C :=
  watched fun _ => bind (within (stepHour hs hnow hC)) fun _ _ => pure

theorem cancelHour {time : Moment} (hs : s.held.hours = []) (hnow : s.window.Runs s.now)
    (hC : time.toUtc? = none → C) : (Desk.cancelHour time).CrashesIf s b C :=
  watched fun _ => bind (within (stepHour hs hnow hC)) fun _ _ => pure

theorem moveHour {new old : Moment} (hs : s.held.hours = []) (hnow : s.window.Runs s.now)
    (hnew : new.toUtc? = none → C) (hold : old.toUtc? = none → C) :
    (Desk.moveHour new old).CrashesIf s b C :=
  bind (within (scheduleHour hs hnow hnew)) fun _ _ => within (cancelHour hs hnow hold)

theorem stepAll {step : HourStep} {slug word : String} (hs : s.held.hours = [])
    (hnow : s.window.Runs s.now) {times : List Moment}
    (hC : ∀ time ∈ times, time.toUtc? = none → C) :
    (Desk.stepAll step slug word times).CrashesIf s b C := by
  induction times generalizing b with
  | nil => exact pure
  | cons time rest ih =>
      refine bind (within (stepHour hs hnow (hC time List.mem_cons_self))) fun _ _ => ?_
      exact ih fun time' h => hC time' (List.mem_cons_of_mem _ h)

theorem makeHoursAvailable {times : List Moment} (hs : s.held.hours = [])
    (hnow : s.window.Runs s.now) (hC : ∀ time ∈ times, time.toUtc? = none → C) :
    (Desk.makeHoursAvailable times).CrashesIf s b C := by
  refine watched fun _ => stepAll ?_ ?_ hC
  · exact hs
  · exact hnow

theorem makeHoursUnavailable {times : List Moment} (hs : s.held.hours = [])
    (hnow : s.window.Runs s.now) (hC : ∀ time ∈ times, time.toUtc? = none → C) :
    (Desk.makeHoursUnavailable times).CrashesIf s b C := by
  refine watched fun _ => stepAll ?_ ?_ hC
  · exact hs
  · exact hnow

/-- The calendar is shown without a crash if its hours have times in UTC. -/
theorem availableHours {first last : Moment} (hs : s.held.hours = [])
    (hb : ∀ second h, b.hours second = some h → h.time.toUtc?.isSome = true) :
    (Desk.availableHours first last).CrashesIf s b C := by
  refine watched fun _ => ?_
  by_cases hlt : last < first
  · rw [if_pos hlt]
    exact refuse
  · rw [if_neg hlt]
    have hle : first.second ≤ last.second := Moment.second_mono (Moment.not_lt.mp hlt)
    refine Meets.bind (Meets.hoursBetween ?_ hle fun l hl => .of_done (Meets.ofEnding ?_))
    · exact hs
    have hutc : ∀ hour ∈ l, hour.time.toUtc?.isSome = true := by
      intro hour hmem
      obtain ⟨seconds, -, -, rfl⟩ := hl
      obtain ⟨second, -, hh⟩ := List.mem_filterMap.mp hmem
      exact hb second hour hh
    obtain ⟨days, hdays, -⟩ := Day.group_done (ε := Failure) hutc
    rw [hdays]
    exact nofun

theorem hourAvailability {time : Moment} (hs : s.held.hours = []) :
    (Desk.hourAvailability time).CrashesIf s b C := by
  refine watched fun _ => Meets.bind (Meets.hour? ?_ (.of_done ?_))
  · exact hs
  · cases b.hours time.second with
    | none => exact pure
    | some h => exact pure

/-! ### The accounts -/

theorem creditAccount {id : String} {amount : Int} :
    (Desk.changeBalance id amount).CrashesIf s b C :=
  Meets.creditAccount (fun _ _ _ _ => nofun)
    (fun _ => nofun) fun _ _ _ => nofun

theorem createUser {id name : String} {role : Role} {balance : Int} :
    (Desk.createUser id role name balance).CrashesIf s b C := by
  refine watched fun _ => bind_ofRule fun a ha => within ?_
  exact Meets.addAccount (Account.balance_of_new ha).1 (fun _ _ => nofun)
    fun _ => nofun

theorem recordIp {id ip : String} : (Desk.recordIp id ip).CrashesIf s b C := by
  refine watched fun _ => within (Meets.recordIp ?_)
  unfold Books.recordIp
  cases b.accounts id with
  | none => exact nofun
  | some a => exact nofun

theorem currentUser {id : String} : (Desk.currentUser id).CrashesIf s b C :=
  watched fun _ => Meets.account (fun _ => nofun)
    fun _ _ => nofun

/-! ### The trainings -/

/-- A command whose transition goes by a rule crashes only in its transition. -/
theorem updateTraining {r : Ruling} {transition : Training → Act Failure Training} (hr : r.Lawful)
    (hs : s.held.trainings = [])
    (htransits : ∀ t, (transition t).Meets { s with held := s.held.withTraining r.id } b
      (b.Transits (r.rule t)))
    (h : ∀ t, b.trainings r.id = some t →
      (transition t).CrashesIf { s with held := s.held.withTraining r.id } b C) :
    (Repository.updateTraining r.id r.caller transition >>= fun _ => Pure.pure ()).CrashesIf s b
      C := by
  refine bind (Meets.updateTraining hs (fun _ => nofun)
    (fun _ _ _ _ => nofun) (fun _ _ _ _ => nofun)
    fun t ht _ _ => ?_) fun _ _ => pure
  refine Meets.mono ((htransits t).and (h t ht)) fun e b' he => ?_
  obtain ⟨htransits, hcrashes⟩ := he
  cases hrule : r.rule t with
  | error v =>
      rw [hrule] at htransits
      obtain ⟨-, f, rfl, -⟩ := htransits
      exact hcrashes
  | ok t' =>
      rw [hrule] at htransits
      obtain ⟨hkind, htrainings, hdone⟩ := htransits
      cases e with
      | refused f => exact hcrashes
      | crashed => exact hcrashes
      | done u =>
          obtain rfl := hdone u rfl
          have hyields := hr t u hrule
          exact ⟨⟨hyields.id, hyields.owner, hyields.ownerName⟩, hkind, htrainings, hcrashes⟩

theorem scheduleTraining {id owner ownerName notes : String} {time : Moment}
    (hs : s.held = Held.nothing) (hnow : s.window.Runs s.now) (hC : time.toUtc? = none → C) :
    (Desk.scheduleTraining id owner ownerName time notes).CrashesIf s b C := by
  refine watched fun _ => bind_ofRule fun t ht => ?_
  obtain rfl := Training.book_eq_ok ht
  refine bind (within (Meets.addTraining ?_ ?_ ?_)) fun _ _ => ?_
  · exact congrArg Held.trainings hs
  · exact fun _ _ => nofun
  · exact fun _ => nofun
  refine bind (within creditAccount) fun _ _ => within (scheduleHour ?_ hnow hC)
  exact congrArg Held.hours hs

theorem cancelTraining {id : String} {caller : Caller} (hs : s.held = Held.nothing)
    (hnow : s.window.Runs s.now)
    (hC : ∀ t, b.trainings id = some t → t.time.toUtc? = none → C) :
    (Desk.cancelTraining id caller).CrashesIf s b C := by
  refine watched fun _ => Meets.bind (Meets.now (.of_done ?_))
  have hhours : (s.held.withTraining id).hours = [] := congrArg Held.hours hs
  refine updateTraining (r := ⟨id, caller, Training.cancel⟩) (fun _ _ => Training.yields_of_cancel)
    (congrArg Held.trainings hs) (fun t => Meets.canceling_transits hhours) fun t ht => ?_
  refine bind_ofRule fun t' ht' => ?_
  obtain ⟨-, rfl⟩ := Training.cancel_eq_ok ht'
  refine Meets.creditOwner (fun _ _ => ?_) fun _ _ _ => nofun
  exact bind (within (cancelHour hhours hnow (hC t ht))) fun _ _ => pure

theorem rescheduleTraining {id notes : String} {newTime : Moment} {caller : Caller}
    (hs : s.held = Held.nothing) (hnow : s.window.Runs s.now)
    (hC : ∀ t, b.trainings id = some t → newTime.toUtc? = none ∨ t.time.toUtc? = none → C) :
    (Desk.rescheduleTraining id newTime notes caller).CrashesIf s b C := by
  refine watched fun _ => Meets.bind (Meets.now (.of_done ?_))
  have hhours : (s.held.withTraining id).hours = [] := congrArg Held.hours hs
  refine updateTraining (r := ⟨id, caller, _⟩) (fun _ _ => Training.yields_of_rescheduleNoted)
    (congrArg Held.trainings hs) (fun t => Meets.rescheduling_transits hhours) fun t ht => ?_
  refine bind_ofRule fun noted hnoted => bind_ofRule fun moved hmoved => ?_
  refine bind (within (moveHour hhours hnow (fun hnew => ?_) fun hold => ?_)) fun _ _ => pure
  · exact hC t ht (.inl hnew)
  · exact hC t ht (.inr hold)

theorem approveReschedule {id : String} {caller : Caller} (hs : s.held = Held.nothing)
    (hnow : s.window.Runs s.now)
    (hC : ∀ t p, b.trainings id = some t → t.proposal = some p →
      p.newTime.toUtc? = none ∨ t.time.toUtc? = none → C) :
    (Desk.approveReschedule id caller).CrashesIf s b C := by
  refine watched fun _ => ?_
  have hhours : (s.held.withTraining id).hours = [] := congrArg Held.hours hs
  refine updateTraining (r := ⟨id, caller, _⟩) (fun _ _ => Training.yields_of_approve)
    (congrArg Held.trainings hs) (fun t => Meets.approving_transits hhours) fun t ht => ?_
  refine bind_ofRule fun moved hmoved => ?_
  obtain ⟨-, p, hp, rfl⟩ := Training.approve_eq_ok hmoved
  refine bind (within (moveHour hhours hnow (fun hnew => ?_) fun hold => ?_)) fun _ _ => pure
  · exact hC t p ht hp (.inl hnew)
  · exact hC t p ht hp (.inr hold)

theorem requestReschedule {id notes : String} {newTime : Moment} {caller : Caller}
    (hs : s.held = Held.nothing) :
    (Desk.requestReschedule id newTime notes caller).CrashesIf s b C := by
  refine watched fun _ => ?_
  refine updateTraining (r := ⟨id, caller, _⟩) (fun _ _ => Training.yields_of_proposeNoted)
    (congrArg Held.trainings hs) (fun t => Meets.requesting_transits) fun t ht => ?_
  exact bind_ofRule fun _ _ => within ofRule

theorem rejectReschedule {id : String} {caller : Caller} (hs : s.held = Held.nothing) :
    (Desk.rejectReschedule id caller).CrashesIf s b C := by
  refine watched fun _ => ?_
  refine updateTraining (r := ⟨id, caller, _⟩) (fun _ _ => Training.yields_of_reject)
    (congrArg Held.trainings hs) (fun t => Meets.rejecting_transits) fun t ht => ?_
  exact within ofRule

theorem listAll (hs : s.held = Held.nothing) : Desk.allTrainings.CrashesIf s b C := by
  refine watched fun _ => Meets.allTrainings ?_ (fun _ _ _ _ => nofun)
    fun _ _ _ => nofun
  exact congrArg Held.trainings hs

theorem listOwn {caller : Caller} (hs : s.held = Held.nothing) :
    (Desk.trainingsOfCaller caller).CrashesIf s b C := by
  refine watched fun _ => Meets.trainingsOf ?_ (fun _ _ _ _ _ => nofun)
    fun _ _ _ => nofun
  exact congrArg Held.trainings hs

/-! ### The calls -/

theorem operation {act : Act Failure α} (h : act.CrashesIf s b C) :
    (Api.operation act).CrashesIf s b C := mapCause h

/-- A command that is noted when it is done. -/
theorem command {act : Act Failure Unit} {level : Level} {message : String}
    {fields : List (String × FieldValue)} (h : act.CrashesIf s b C) :
    (Api.operation act >>= fun _ => Act.note level message fields).CrashesIf s b C :=
  bind (operation h) fun _ _ => note

theorem requireThen {role : Role} {caller : Caller} {action : String} {next : Unit → Act Refusal α}
    (h : (next ()).CrashesIf s b C) : (Api.require role caller action >>= next).CrashesIf s b C :=
  Meets.requireThen (fun _ => h) fun _ => nofun

/-- What can be read is handed on. -/
theorem respondThen {e : Except Refusal α} {next : α → Act Refusal β}
    (h : ∀ a, e.toOption = some a → (next a).CrashesIf s b C) :
    (respond e >>= next).CrashesIf s b C := by
  refine Meets.bind (Meets.ofExcept ?_)
  cases e with
  | error r => exact nofun
  | ok a => exact h a rfl

/-- A call crashes only over an hour that it asks to update, at a time that has none in UTC. -/
theorem perform (call : Call) (hs : s.held = Held.nothing) (hnow : s.window.Runs s.now)
    (hb : ∀ second h, b.hours second = some h → h.time.toUtc?.isSome = true) :
    call.perform.CrashesIf s b (∃ u ∈ call.updates b, u.time.toUtc? = none) := by
  have hhours : s.held.hours = [] := congrArg Held.hours hs
  have told : ∀ {α : Type} {act : Act Refusal α} {f : α → Reply} {C : Prop},
      act.CrashesIf s b C → (act >>= fun a => Pure.pure (f a)).CrashesIf s b C :=
    fun h => bind h fun _ _ => pure
  -- An order is placed with the times that could be read, and asks for its own updates.
  have placed : ∀ {order : Desk.Order} {u : HourUpdate}, call.order? = some order →
      u ∈ order.updates b → u.time.toUtc? = none → ∃ u ∈ call.updates b, u.time.toUtc? = none := by
    intro order u horder hu hnone
    rw [Call.updates_of_order horder]
    exact ⟨u, hu, hnone⟩
  cases call with
  | availableHours r =>
      refine told (respondThen fun first _ => respondThen fun last _ => ?_)
      exact bind (operation (availableHours hhours hb)) fun _ _ => ofExcept
  | hourAvailability r =>
      refine told (respondThen fun hour _ => ?_)
      refine bind (operation (hourAvailability hhours)) fun _ _ => ?_
      exact bind ofExcept fun _ _ => pure
  | trainings caller =>
      refine told (bind (operation ?_) fun _ _ => ?_)
      · cases caller.role with
        | trainer => exact listAll hs
        | attendee => exact listOwn hs
      · exact Meets.bind (Meets.now (.of_done ofExcept))
  | currentUser caller ip =>
      have hshow : ∀ (b' : Books) (f : Account → UserResponse), (Api.operation (Desk.currentUser caller.id) >>= fun a =>
          Pure.pure (f a)).CrashesIf s b'
            (∃ u ∈ (Call.currentUser caller ip).updates b, u.time.toUtc? = none) :=
        fun _ _ => bind (operation currentUser) fun _ _ => pure
      refine told ?_
      cases ip with
      | none => exact hshow b _
      | some ip => exact bind (operation recordIp) fun _ b' => hshow b' _
  | createUser caller fresh r =>
      refine told (requireThen ?_)
      cases Role.ofLabel? r.role with
      | none => exact refuse
      | some role =>
          refine bind (operation createUser) fun _ _ => ?_
          exact bind note fun _ _ => pure
  | changeBalance caller id r => exact told (requireThen (command creditAccount))
  | makeHoursAvailable caller r =>
      refine told (requireThen (respondThen fun times htimes => command ?_))
      refine makeHoursAvailable hhours hnow fun time htime => ?_
      exact placed (congrArg (Option.map _) htimes) (List.mem_map_of_mem htime)
  | makeHoursUnavailable caller r =>
      refine told (requireThen (respondThen fun times htimes => command ?_))
      refine makeHoursUnavailable hhours hnow fun time htime => ?_
      exact placed (congrArg (Option.map _) htimes) (List.mem_map_of_mem htime)
  | createTraining caller fresh r =>
      refine told (requireThen (respondThen fun time htime => ?_))
      have hplaced := placed (congrArg (Option.map _) htime) (List.mem_singleton_self _)
      refine bind (operation (scheduleTraining hs hnow hplaced)) fun _ _ => ?_
      exact bind note fun _ _ => pure
  | cancelTraining caller id =>
      refine told (command (cancelTraining hs hnow fun t ht => ?_))
      refine placed (u := ⟨t.time, .cancelTraining⟩) rfl ?_
      rw [Desk.Order.updates, ht]
      exact List.mem_singleton_self _
  | rescheduleTraining caller id r =>
      refine told (respondThen fun time htime => command ?_)
      refine rescheduleTraining hs hnow fun t ht hnone => ?_
      have hplaced := fun u hu => placed (u := u) (congrArg (Option.map _) htime) hu
      simp only [Desk.Order.updates, ht, Option.elim_some] at hplaced
      rcases hnone with hnew | hold
      · exact hplaced _ List.mem_cons_self hnew
      · exact hplaced _ (List.mem_cons_of_mem _ List.mem_cons_self) hold
  | requestReschedule caller id r =>
      exact told (respondThen fun time htime => command (requestReschedule hs))
  | approveReschedule caller id =>
      refine told (command (approveReschedule hs hnow fun t p ht hp hnone => ?_))
      have horder : (Call.approveReschedule caller id).order? =
          some (.approveReschedule id caller) := rfl
      have hplaced := fun u hu => placed (u := u) horder hu
      simp only [Desk.Order.updates, ht, hp, Option.elim_some] at hplaced
      rcases hnone with hnew | hold
      · exact hplaced _ List.mem_cons_self hnew
      · exact hplaced _ (List.mem_cons_of_mem _ List.mem_cons_self) hold
  | rejectReschedule caller id => exact told (command (rejectReschedule hs))

end CrashesIf

end Act

/-! ### Runs -/

/-- The hours that an order asks to update lie at its own times, or at those of a stored training. -/
theorem Desk.Order.time_of_update {b : Books} {order : Order} {u : HourUpdate}
    (hu : u ∈ order.updates b) :
    u.time ∈ order.times ∨ ∃ id t, b.trainings id = some t ∧ u.time ∈ t.times := by
  have stored : ∀ {id : String} {f : Training → List HourUpdate},
      u ∈ (b.trainings id).elim [] f → ∃ t, b.trainings id = some t ∧ u ∈ f t := by
    intro id f h
    cases ht : b.trainings id with
    | none => rw [ht] at h; cases h
    | some t => exact ⟨t, rfl, by rwa [ht] at h⟩
  cases order with
  | scheduleHour time => exact .inl (List.mem_map_of_mem hu)
  | cancelHour time => exact .inl (List.mem_map_of_mem hu)
  | scheduleTraining id owner ownerName time notes => exact .inl (List.mem_map_of_mem hu)
  | makeHoursAvailable times =>
      obtain ⟨time, htime, rfl⟩ := List.mem_map.mp hu
      exact .inl htime
  | makeHoursUnavailable times =>
      obtain ⟨time, htime, rfl⟩ := List.mem_map.mp hu
      exact .inl htime
  | cancelTraining id caller =>
      obtain ⟨t, ht, hu⟩ := stored hu
      obtain rfl := List.mem_singleton.mp hu
      exact .inr ⟨id, t, ht, List.mem_cons_self⟩
  | rescheduleTraining id newTime notes caller =>
      obtain ⟨t, ht, hu⟩ := stored hu
      rcases List.mem_cons.mp hu with rfl | hu
      · exact .inl (List.mem_singleton_self _)
      · obtain rfl := List.mem_singleton.mp hu
        exact .inr ⟨id, t, ht, List.mem_cons_self⟩
  | approveReschedule id caller =>
      obtain ⟨t, ht, hu⟩ := stored hu
      refine .inr ⟨id, t, ht, ?_⟩
      cases hp : t.proposal with
      | none => rw [hp] at hu; cases hu
      | some p =>
          rw [hp] at hu
          rcases List.mem_cons.mp hu with rfl | hu
          · exact Training.mem_times.mpr (.inr ⟨p, hp, rfl⟩)
          · obtain rfl := List.mem_singleton.mp hu
            exact List.mem_cons_self
  | _ => cases hu

@[simp] theorem Books.keptTime_second (b : Books) (m : Moment) :
    (b.keptTime m).second = m.second := by
  unfold keptTime
  split
  · rfl
  · exact Moment.second_floored m

namespace Run

variable {window : BookingWindow} {watch : Watch} {history : List Turn} {w : World}

/-- The hours that a call asks to update lie in the seconds of time stamps, of its own or of the
history. -/
theorem second_of_update (h : Run window watch history w) {call : Call} {u : HourUpdate}
    (hu : u ∈ call.updates w.store.books) :
    ∃ m, (Reads history m ∨ ∃ s ∈ call.stamps, Stamp.read s = .ok m) ∧ u.time.second = m.second := by
  cases horder : call.order? with
  | none =>
      rw [Call.updates, horder] at hu
      cases hu
  | some order =>
      rw [Call.updates_of_order horder] at hu
      rcases Desk.Order.time_of_update hu with htime | ⟨id, t, ht, htime⟩
      · exact ⟨u.time, .inr (Call.times_read horder _ htime), rfl⟩
      · obtain ⟨m, hm, hkept⟩ := h.dated id t ht _ htime
        exact ⟨m, .inl hm, by rw [hkept, Books.keptTime_second]⟩

/-- **Calls crash at the end of time only**: after every run, if a call crashes, it asks to update an
hour after the end of the year `9999` of UTC, where a time stamp that was written behind UTC lies. -/
theorem crashes (h : Run window watch history w) {now : Moment} (hnow : window.Runs now)
    (call : Call) (hcrashed : (Turn.make window watch now call w).1.ending.isCrashed = true) :
    ∃ u ∈ call.updates w.store.books, Moment.lastSecond < u.time.second ∧
      ∃ m, (Reads history m ∨ ∃ s ∈ call.stamps, Stamp.read s = .ok m) ∧ m.offset < 0 ∧
        u.time.second = m.second := by
  obtain ⟨-, htimetabled, -⟩ := h.log.timetabled
  have hutc : ∀ second hour, w.store.books.hours second = some hour →
      hour.time.toUtc?.isSome = true := by
    intro second hour hh
    obtain ⟨utc, hutc, -⟩ := (htimetabled second hour hh).2
    exact Option.isSome_of_mem hutc
  have hperform := Act.CrashesIf.perform call (s := .outer now window watch) rfl hnow hutc
  obtain ⟨u, hu, hnone⟩ := (hperform w h.sound rfl).2 hcrashed
  obtain ⟨m, hm, hsecond⟩ := h.second_of_update hu
  have hread : ∃ s, Stamp.read s = .ok m := by
    rcases hm with ⟨turn, -, s, -, hread⟩ | ⟨s, -, hread⟩
    · exact ⟨s, hread⟩
    · exact ⟨s, hread⟩
  obtain ⟨s, hread⟩ := hread
  rcases Stamp.utc_of_read hread with hsome | ⟨hoffset, hlast⟩
  · rw [Moment.toUtc?_isSome_iff, ← hsecond, ← Moment.toUtc?_isSome_iff, hnone] at hsome
    cases hsome
  · exact ⟨u, hu, hsecond ▸ hlast, m, hm, hoffset, hsecond⟩

open Sample in
/-- Ann asks to move her training to the last hour of the year `9999` one hour west of Greenwich.  When
Tess approves it, the call crashes over an hour that was read from the time stamp of Ann's. -/
theorem crashes_tess :
    let played := play [.createTraining ann "1" noon,
      .requestReschedule ann "1" ⟨"9999-12-31T23:00:00-01:00", "legs"⟩]
    let call := Call.approveReschedule tess "1"
    (∀ turn ∈ played.1, turn.ending.isDone = true) ∧ BookingWindow.standard.Runs newYear ∧
      (Turn.make .standard .bare newYear call played.2).1.ending.isCrashed = true ∧
      ∃ u ∈ call.updates played.2.store.books, Moment.lastSecond < u.time.second ∧
        ∃ m, (Reads played.1 m ∨ ∃ s ∈ call.stamps, Stamp.read s = .ok m) ∧ m.offset < 0 ∧
          u.time.second = m.second := by
  intro played call
  have hdone : ∀ turn ∈ played.1, turn.ending.isDone = true := by decide +kernel
  have hnow : BookingWindow.standard.Runs newYear := by decide +kernel
  have hcrashed : (Turn.make .standard .bare newYear call played.2).1.ending.isCrashed = true := by
    decide +kernel
  have hrun : Run .standard .bare played.1 played.2 := run _
  exact ⟨hdone, hnow, hcrashed, crashes hrun hnow call hcrashed⟩

open Sample in
/-- Tess opens the last hour of the year `9999` one hour west of Greenwich, and crashes the call, in
memory and in tables.  So does Ann who books it, but she has paid by then. -/
theorem not_steady : BookingWindow.standard.Runs newYear ∧
    ∀ store ∈ [Store.memory .empty, .tables (.empty 1)],
      let played := playOn store []
      let opened := (Turn.make .standard .bare newYear
        (.makeHoursAvailable tess ⟨["9999-12-31T23:00:00-01:00"]⟩) played.2).1
      let booked := (Turn.make .standard .bare newYear
        (.createTraining ann "1" ⟨"9999-12-31T23:00:00-01:00", "legs"⟩) played.2).1
      Run .standard .bare played.1 played.2 ∧
        opened.ending.isCrashed = true ∧ booked.ending.isCrashed = true ∧
        (booked.before.books.accounts ann.id).map Account.balance = some 1 ∧
        (booked.after.books.accounts ann.id).map Account.balance = some 0 := by
  refine ⟨by decide +kernel, ?_⟩
  intro store hstore played opened booked
  have hempty : store.Empty := by
    rcases List.mem_cons.mp hstore with rfl | hstore
    · exact .memory
    · obtain rfl := List.mem_singleton.mp hstore
      exact .tables 1
  refine ⟨runOn hempty _, ?_⟩
  clear hempty
  revert store
  decide +kernel

end Run

end TrainerBooking
