import TrainerBooking.Proofs.Mirror
import TrainerBooking.Proofs.Rulings
import TrainerBooking.Proofs.Runs

/-! # Memory and tables cannot be told apart

Commands and queries that are given times to the whole second in UTC have the same answers in memory
and in tables, and leave the same hours, trainings and accounts (`Desk.serve_agrees`).  Two things may
differ: what is said about an identifier that is taken, and what becomes of a sum beyond the greatest
balance.

The desk is taken operation by operation.  For an update of a training it has to be known, too, that
its transition leaves the trainings alone (`Act.Refiles`). -/

namespace TrainerBooking

theorem Setting.Twin.spans {s s' : Setting} (ht : s.Twin s') (spans spans' : List String) :
    Setting.Twin { s with spans := spans } { s' with spans := spans' } :=
  ⟨ht.now, ht.window, ht.held⟩

theorem Setting.Twin.holding {s s' : Setting} (ht : s.Twin s') (id : String) :
    Setting.Twin { s with held := s.held.withTraining id }
      { s' with held := s'.held.withTraining id } :=
  ⟨ht.now, ht.window, congrArg (Held.withTraining id) ht.held⟩

/-! ### The calendar and the accounts -/

namespace Act.Mirrors

variable {s s' : Setting}

theorem scheduleHour {time : Moment} (ht : s.Twin s') (hs : s.held.hours = []) (hr : time.Round) :
    (Desk.scheduleHour time).Mirrors s s' :=
  watched fun spans spans' => bind (within (stepHour (ht.spans spans spans') hs hr)) fun _ => pure

theorem cancelHour {time : Moment} (ht : s.Twin s') (hs : s.held.hours = []) (hr : time.Round) :
    (Desk.cancelHour time).Mirrors s s' :=
  watched fun spans spans' => bind (within (stepHour (ht.spans spans spans') hs hr)) fun _ => pure

theorem moveHour {new old : Moment} (ht : s.Twin s') (hs : s.held.hours = []) (hnew : new.Round)
    (hold : old.Round) : (Desk.moveHour new old).Mirrors s s' :=
  bind (within (scheduleHour ht hs hnew)) fun _ => within (cancelHour ht hs hold)

theorem stepAll {step : HourStep} {slug word : String} (ht : s.Twin s') (hs : s.held.hours = [])
    {times : List Moment} (hr : ∀ time ∈ times, time.Round) :
    (Desk.stepAll step slug word times).Mirrors s s' := by
  induction times with
  | nil => exact pure
  | cons time rest ih =>
      have hfirst := hr time List.mem_cons_self
      have hrest : ∀ time ∈ rest, time.Round := fun time h => hr time (List.mem_cons_of_mem _ h)
      exact bind (within (stepHour ht hs hfirst)) fun _ => ih hrest

theorem makeHoursAvailable {times : List Moment} (ht : s.Twin s') (hs : s.held.hours = [])
    (hr : ∀ time ∈ times, time.Round) : (Desk.makeHoursAvailable times).Mirrors s s' :=
  watched fun spans spans' => stepAll (ht.spans spans spans') hs hr

theorem makeHoursUnavailable {times : List Moment} (ht : s.Twin s') (hs : s.held.hours = [])
    (hr : ∀ time ∈ times, time.Round) : (Desk.makeHoursUnavailable times).Mirrors s s' :=
  watched fun spans spans' => stepAll (ht.spans spans spans') hs hr

theorem availableHours {first last : Moment} (ht : s.Twin s') (hs : s.held.hours = []) :
    (Desk.availableHours first last).Mirrors s s' := by
  refine watched fun spans spans' => ?_
  by_cases hlt : last < first
  · rw [if_pos hlt]
    exact refuse
  · rw [if_neg hlt]
    have hle : first.second ≤ last.second := Moment.second_mono (Moment.not_lt.mp hlt)
    exact bind (hoursBetween (ht.spans spans spans') hs hle) fun hours => ofEnding

theorem hourAvailability {time : Moment} (ht : s.Twin s') (hs : s.held.hours = []) :
    (Desk.hourAvailability time).Mirrors s s' := by
  refine watched fun spans spans' => bind (hour? (ht.spans spans spans') hs) fun found => ?_
  cases found with
  | none => exact pure
  | some h => exact pure

theorem createUser {id name : String} {role : Role} {balance : Int}
    (hbalance : Column.fits balance = true) :
    (Desk.createUser id role name balance).Mirrors s s' := by
  refine watched fun spans spans' => bind_ofRule fun a ha => within ?_
  obtain ⟨hn, heq⟩ := Account.balance_of_new ha
  refine addAccount hn ?_
  rw [heq]
  exact (Column.fits_iff.mp hbalance).2

theorem creditAccount {id : String} {amount : Int} (hamount : Column.fits amount = true) :
    (Desk.changeBalance id amount).Mirrors s s' :=
  watched fun _ _ => bind (within (changeBalance hamount)) fun _ => pure

theorem recordAddress {id ip : String} : (Desk.recordIp id ip).Mirrors s s' :=
  watched fun _ _ => within recordIp

theorem currentUser {id : String} : (Desk.currentUser id).Mirrors s s' :=
  watched fun _ _ => account

end Act.Mirrors

/-! ### Transitions of trainings -/

namespace Act.Meets

variable {s : Setting} {b : Books} {t : Training}

/-- A transition refiles its training, if its rule makes round trainings only. -/
theorem refiles_of_transits {act : Act Failure Training} {answer : Except Violation Training}
    (h : act.Meets s b (b.Transits answer))
    (hrule : ∀ t', answer = .ok t' → t.Yields t' ∧ t'.Round) : act.Meets s b (Refiles t b) := by
  refine h.mono fun e b' htransits => ?_
  cases hanswer : answer with
  | error v =>
      rw [hanswer] at htransits
      obtain ⟨rfl, f, rfl, -⟩ := htransits
      exact ⟨rfl, rfl, nofun, nofun⟩
  | ok t' =>
      rw [hanswer] at htransits
      obtain ⟨hkind, htrainings, hdone⟩ := htransits
      obtain ⟨hyields, hround⟩ := hrule t' hanswer
      refine ⟨hkind, htrainings, fun u hu => ?_, fun u hu => ?_⟩
      · obtain rfl := hdone u hu
        exact ⟨hyields.id, hyields.owner, hyields.ownerName⟩
      · obtain rfl := hdone u hu
        exact hround

theorem canceling_refiles {caller : Caller} {now : Moment} (hs : s.held.hours = [])
    (hr : t.Round) : (Desk.canceling caller now t).Meets s b (Refiles t b) := by
  refine refiles_of_transits (canceling_transits hs) fun t' ht' => ⟨Training.yields_of_cancel ht', ?_⟩
  obtain ⟨-, rfl⟩ := Training.cancel_eq_ok ht'
  exact ⟨hr.time, hr.proposal⟩

theorem rescheduling_refiles {newTime now : Moment} {notes : String} (hs : s.held.hours = [])
    (hr : t.Round) (hnew : newTime.Round) :
    (Desk.rescheduling newTime notes now t).Meets s b (Refiles t b) := by
  refine refiles_of_transits (rescheduling_transits hs) fun t' ht' =>
    ⟨Training.yields_of_rescheduleNoted ht', ?_⟩
  obtain ⟨noted, hnoted, hmoved⟩ := Training.rescheduleNoted_eq_ok ht'
  obtain ⟨-, rfl⟩ := Training.updateNotes_eq_ok hnoted
  obtain rfl := Training.reschedule_eq_ok hmoved
  exact ⟨hnew, hr.proposal⟩

theorem approving_refiles {caller : Caller} (hs : s.held.hours = []) (hr : t.Round) :
    (Desk.approving caller t).Meets s b (Refiles t b) := by
  refine refiles_of_transits (approving_transits hs) fun t' ht' =>
    ⟨Training.yields_of_approve ht', ?_⟩
  obtain ⟨-, p, hp, rfl⟩ := Training.approve_eq_ok ht'
  exact ⟨hr.proposal p hp, nofun⟩

theorem requesting_refiles {newTime : Moment} {notes : String} {caller : Caller} (hr : t.Round)
    (hnew : newTime.Round) : (Desk.requesting newTime notes caller t).Meets s b (Refiles t b) := by
  refine refiles_of_transits requesting_transits fun t' ht' =>
    ⟨Training.yields_of_proposeNoted ht', ?_⟩
  obtain ⟨noted, hnoted, hproposed⟩ := Training.proposeNoted_eq_ok ht'
  obtain ⟨-, rfl⟩ := Training.updateNotes_eq_ok hnoted
  obtain rfl := Training.propose_eq_ok hproposed
  refine ⟨hr.time, fun p hp => ?_⟩
  rw [← Option.some.inj hp]
  exact hnew

theorem rejecting_refiles (hr : t.Round) : (Desk.rejecting t).Meets s b (Refiles t b) := by
  refine refiles_of_transits rejecting_transits fun t' ht' => ⟨Training.yields_of_reject ht', ?_⟩
  obtain ⟨-, rfl⟩ := Training.reject_eq_ok ht'
  exact ⟨hr.time, nofun⟩

end Act.Meets

namespace Act.Mirrors

variable {s s' : Setting} {t : Training}

theorem canceling {caller : Caller} {now : Moment} (ht : s.Twin s') (hs : s.held.hours = [])
    (hr : t.Round) : (Desk.canceling caller now t).Mirrors s s' := by
  refine bind_ofRule fun t' ht' => ?_
  obtain ⟨-, rfl⟩ := Training.cancel_eq_ok ht'
  have hrelease : ((Desk.cancelHour t.time).within "cancel-training-failed"
      "unable to cancel training" >>= fun _ => (Pure.pure { t with canceled := true } :
        Act Failure Training)).Mirrors s s' :=
    bind (within (cancelHour ht hs hr.time)) fun _ => pure
  by_cases hcredit : ({ t with canceled := true } : Training).cancelCredit caller.role now = 0
  · rw [hcredit]
    exact hrelease
  · rw [if_pos hcredit]
    have hbounds := Training.cancelCredit_bounds { t with canceled := true } caller.role now
    have hfits := Column.fits_iff.mpr ⟨by omega, Int.le_trans hbounds.2 (by decide)⟩
    exact bind (within (creditAccount hfits)) fun _ => hrelease

theorem rescheduling {newTime now : Moment} {notes : String} (ht : s.Twin s')
    (hs : s.held.hours = []) (hr : t.Round) (hnew : newTime.Round) :
    (Desk.rescheduling newTime notes now t).Mirrors s s' :=
  bind_ofRule fun _ _ => bind_ofRule fun _ _ =>
    bind (within (moveHour ht hs hnew hr.time)) fun _ => pure

theorem approving {caller : Caller} (ht : s.Twin s') (hs : s.held.hours = []) (hr : t.Round) :
    (Desk.approving caller t).Mirrors s s' := by
  refine bind_ofRule fun moved hmoved => ?_
  obtain ⟨-, p, hp, rfl⟩ := Training.approve_eq_ok hmoved
  exact bind (within (moveHour ht hs (hr.proposal p hp) hr.time)) fun _ => pure

theorem requesting {newTime : Moment} {notes : String} {caller : Caller} :
    (Desk.requesting newTime notes caller t).Mirrors s s' :=
  bind_ofRule fun _ _ => within ofRule

theorem rejecting : (Desk.rejecting t).Mirrors s s' := within ofRule

/-! ### The trainings -/

theorem scheduleTraining {id owner ownerName notes : String} {time : Moment} (ht : s.Twin s')
    (hs : s.held = Held.nothing) (hr : time.Round) :
    (Desk.scheduleTraining id owner ownerName time notes).Mirrors s s' := by
  refine watched fun spans spans' => bind_ofRule fun t hbook => ?_
  obtain rfl := Training.book_eq_ok hbook
  have htwin := ht.spans spans spans'
  have hround : Training.Round ⟨id, owner, ownerName, time, notes, false, none⟩ := ⟨hr, nofun⟩
  refine bind (within (addTraining htwin (congrArg Held.trainings hs) hround)) fun _ => ?_
  refine bind (within (creditAccount (by decide))) fun _ => within ?_
  exact scheduleHour htwin (congrArg Held.hours hs) hr

theorem cancelTraining {id : String} {caller : Caller} (ht : s.Twin s')
    (hs : s.held = Held.nothing) : (Desk.cancelTraining id caller).Mirrors s s' := by
  refine watched fun spans spans' => bind (now (ht.spans spans spans')) fun now => ?_
  have hhours : (s.held.withTraining id).hours = [] := congrArg Held.hours hs
  refine bind (updateTraining (ht.spans spans spans') (congrArg Held.trainings hs)
    (fun t hr r b hheld => ?_) fun t hr => ?_) fun _ => pure
  · exact Meets.canceling_refiles (hheld ▸ hhours) hr
  · exact canceling ((ht.spans spans spans').holding id) hhours hr

theorem rescheduleTraining {id notes : String} {newTime : Moment} {caller : Caller}
    (ht : s.Twin s') (hs : s.held = Held.nothing) (hnew : newTime.Round) :
    (Desk.rescheduleTraining id newTime notes caller).Mirrors s s' := by
  refine watched fun spans spans' => bind (now (ht.spans spans spans')) fun now => ?_
  have hhours : (s.held.withTraining id).hours = [] := congrArg Held.hours hs
  refine bind (updateTraining (ht.spans spans spans') (congrArg Held.trainings hs)
    (fun t hr r b hheld => ?_) fun t hr => ?_) fun _ => pure
  · exact Meets.rescheduling_refiles (hheld ▸ hhours) hr hnew
  · exact rescheduling ((ht.spans spans spans').holding id) hhours hr hnew

theorem requestReschedule {id notes : String} {newTime : Moment} {caller : Caller}
    (ht : s.Twin s') (hs : s.held = Held.nothing) (hnew : newTime.Round) :
    (Desk.requestReschedule id newTime notes caller).Mirrors s s' := by
  refine watched fun spans spans' => ?_
  refine bind (updateTraining (ht.spans spans spans') (congrArg Held.trainings hs)
    (fun t hr r b hheld => ?_) fun t hr => ?_) fun _ => pure
  · exact Meets.requesting_refiles hr hnew
  · exact requesting

theorem approveReschedule {id : String} {caller : Caller} (ht : s.Twin s')
    (hs : s.held = Held.nothing) : (Desk.approveReschedule id caller).Mirrors s s' := by
  refine watched fun spans spans' => ?_
  have hhours : (s.held.withTraining id).hours = [] := congrArg Held.hours hs
  refine bind (updateTraining (ht.spans spans spans') (congrArg Held.trainings hs)
    (fun t hr r b hheld => ?_) fun t hr => ?_) fun _ => pure
  · exact Meets.approving_refiles (hheld ▸ hhours) hr
  · exact approving ((ht.spans spans spans').holding id) hhours hr

theorem rejectReschedule {id : String} {caller : Caller} (ht : s.Twin s')
    (hs : s.held = Held.nothing) : (Desk.rejectReschedule id caller).Mirrors s s' := by
  refine watched fun spans spans' => ?_
  refine bind (updateTraining (ht.spans spans spans') (congrArg Held.trainings hs)
    (fun t hr r b hheld => ?_) fun t hr => ?_) fun _ => pure
  · exact Meets.rejecting_refiles hr
  · exact rejecting

theorem listAll (ht : s.Twin s') (hs : s.held = Held.nothing) :
    Desk.allTrainings.Mirrors s s' :=
  watched fun spans spans' => allTrainings (ht.spans spans spans') (congrArg Held.trainings hs)

theorem listOwn {caller : Caller} (ht : s.Twin s') (hs : s.held = Held.nothing) :
    (Desk.trainingsOfCaller caller).Mirrors s s' :=
  watched fun spans spans' => trainingsOf (ht.spans spans spans') (congrArg Held.trainings hs)

end Act.Mirrors

/-! ### Commands and queries -/

namespace Desk

/-- A command or a query, with its input. -/
inductive Order where
  | scheduleHour (time : Moment)
  | cancelHour (time : Moment)
  | makeHoursAvailable (times : List Moment)
  | makeHoursUnavailable (times : List Moment)
  | availableHours (first last : Moment)
  | hourAvailability (time : Moment)
  | scheduleTraining (id owner ownerName : String) (time : Moment) (notes : String)
  | cancelTraining (id : String) (caller : Caller)
  | rescheduleTraining (id : String) (newTime : Moment) (notes : String) (caller : Caller)
  | requestReschedule (id : String) (newTime : Moment) (notes : String) (caller : Caller)
  | approveReschedule (id : String) (caller : Caller)
  | rejectReschedule (id : String) (caller : Caller)
  | allTrainings
  | trainingsOfCaller (caller : Caller)
  | createUser (id : String) (role : Role) (name : String) (balance : Int)
  | changeBalance (id : String) (amount : Int)
  | recordIp (id ip : String)
  | currentUser (id : String)
deriving DecidableEq, Repr

/-- What an order is answered with. -/
inductive Answer where
  | nothing
  | days (days : List Day)
  | free (isFree : Bool)
  | trainings (list : List Training)
  | account (account : Account)
deriving DecidableEq, Repr

namespace Order

/-- Carries out the order. -/
def perform : Order → Act Failure Answer
  | scheduleHour time => do Desk.scheduleHour time; return .nothing
  | cancelHour time => do Desk.cancelHour time; return .nothing
  | makeHoursAvailable times => do Desk.makeHoursAvailable times; return .nothing
  | makeHoursUnavailable times => do Desk.makeHoursUnavailable times; return .nothing
  | availableHours first last => return .days (← Desk.availableHours first last)
  | hourAvailability time => return .free (← Desk.hourAvailability time)
  | scheduleTraining id owner ownerName time notes => do
    Desk.scheduleTraining id owner ownerName time notes
    return .nothing
  | cancelTraining id caller => do Desk.cancelTraining id caller; return .nothing
  | rescheduleTraining id newTime notes caller => do
    Desk.rescheduleTraining id newTime notes caller
    return .nothing
  | requestReschedule id newTime notes caller => do
    Desk.requestReschedule id newTime notes caller
    return .nothing
  | approveReschedule id caller => do Desk.approveReschedule id caller; return .nothing
  | rejectReschedule id caller => do Desk.rejectReschedule id caller; return .nothing
  | allTrainings => return .trainings (← Desk.allTrainings)
  | trainingsOfCaller caller => return .trainings (← Desk.trainingsOfCaller caller)
  | createUser id role name balance => do Desk.createUser id role name balance; return .nothing
  | changeBalance id amount => do Desk.changeBalance id amount; return .nothing
  | recordIp id ip => do Desk.recordIp id ip; return .nothing
  | currentUser id => return .account (← Desk.currentUser id)

/-- The times in the input. -/
def times : Order → List Moment
  | scheduleHour time | cancelHour time | hourAvailability time
  | scheduleTraining _ _ _ time _ => [time]
  | makeHoursAvailable times | makeHoursUnavailable times => times
  | availableHours first last => [first, last]
  | rescheduleTraining _ newTime _ _ | requestReschedule _ newTime _ _ => [newTime]
  | cancelTraining _ _ | approveReschedule _ _ | rejectReschedule _ _ | allTrainings
  | trainingsOfCaller _ | createUser _ _ _ _ | changeBalance _ _ | recordIp _ _
  | currentUser _ => []

/-- The numbers of credits in the input. -/
def credits : Order → List Int
  | createUser _ _ _ balance => [balance]
  | changeBalance _ amount => [amount]
  | _ => []

/-- Are the times whole seconds in UTC that can be written, and the numbers 64-bit ones? -/
def Fits (order : Order) : Prop :=
  (∀ time ∈ order.times, time.offset = 0 ∧ time.nanos % Moment.perSecond = 0 ∧
    time.representable = true) ∧ ∀ i ∈ order.credits, Column.fits i = true

instance (order : Order) : Decidable order.Fits := by
  unfold Fits
  infer_instance

theorem Fits.round {order : Order} (h : order.Fits) {time : Moment} (ht : time ∈ order.times) :
    time.Round :=
  Moment.round_of_whole (h.1 time ht).1 (h.1 time ht).2.1 (h.1 time ht).2.2

open Act.Mirrors in
/-- Every order mirrors. -/
theorem Fits.mirrors {order : Order} (h : order.Fits) {s s' : Setting} (ht : s.Twin s')
    (hs : s.held = Held.nothing) : order.perform.Mirrors s s' := by
  have hhours : s.held.hours = [] := congrArg Held.hours hs
  cases order with
  | scheduleHour time =>
      exact bind (Act.Mirrors.scheduleHour ht hhours (h.round List.mem_cons_self)) fun _ => pure
  | cancelHour time =>
      exact bind (Act.Mirrors.cancelHour ht hhours (h.round List.mem_cons_self)) fun _ => pure
  | makeHoursAvailable times =>
      exact bind (Act.Mirrors.makeHoursAvailable ht hhours fun _ hm => h.round hm) fun _ => pure
  | makeHoursUnavailable times =>
      exact bind (Act.Mirrors.makeHoursUnavailable ht hhours fun _ hm => h.round hm) fun _ => pure
  | availableHours first last => exact bind (Act.Mirrors.availableHours ht hhours) fun _ => pure
  | hourAvailability time => exact bind (Act.Mirrors.hourAvailability ht hhours) fun _ => pure
  | scheduleTraining id owner ownerName time notes =>
      have hr := h.round List.mem_cons_self
      exact bind (Act.Mirrors.scheduleTraining ht hs hr) fun _ => pure
  | cancelTraining id caller => exact bind (Act.Mirrors.cancelTraining ht hs) fun _ => pure
  | rescheduleTraining id newTime notes caller =>
      have hr := h.round List.mem_cons_self
      exact bind (Act.Mirrors.rescheduleTraining ht hs hr) fun _ => pure
  | requestReschedule id newTime notes caller =>
      have hr := h.round List.mem_cons_self
      exact bind (Act.Mirrors.requestReschedule ht hs hr) fun _ => pure
  | approveReschedule id caller => exact bind (Act.Mirrors.approveReschedule ht hs) fun _ => pure
  | rejectReschedule id caller => exact bind (Act.Mirrors.rejectReschedule ht hs) fun _ => pure
  | allTrainings => exact bind (listAll ht hs) fun _ => pure
  | trainingsOfCaller caller => exact bind (listOwn ht hs) fun _ => pure
  | createUser id role name balance =>
      have hbalance := h.2 balance List.mem_cons_self
      exact bind (Act.Mirrors.createUser hbalance) fun _ => pure
  | changeBalance id amount =>
      have hamount := h.2 amount List.mem_cons_self
      exact bind (creditAccount hamount) fun _ => pure
  | recordIp id ip => exact bind recordAddress fun _ => pure
  | currentUser id => exact bind Act.Mirrors.currentUser fun _ => pure

end Order

/-! ### Orders one after the other -/

/-- Carries out orders one after the other, each at its own reading of the clock: how each ends, and
the store then. -/
def serve (window : BookingWindow) (watch : Watch) :
    List (Moment × Order) → World → List (Ending Failure Answer × Store)
  | [], _ => []
  | (now, order) :: rest, w =>
    let r := order.perform (.outer now window watch) w
    (r.1, r.2.store) :: serve window watch rest r.2

end Desk

/-- Failures of the same kind, slug, operation and violated rule, of which both or none can be tried
again; only what is said about a taken identifier may differ. -/
structure Failure.Agrees (f f' : Failure) : Prop where
  kind : f'.kind = f.kind
  slug : f'.slug = f.slug
  operation : f'.operation? = f.operation?
  violation : f'.violation? = f.violation?
  retryable : f'.retryable = f.retryable
  message : f'.message = f.message ∨ f.slug = "already-exists"

theorem Failure.Alike.agrees {f f' : Failure} (h : f.Alike f') : f.Agrees f' := by
  induction h with
  | same f => exact ⟨rfl, rfl, rfl, rfl, rfl, .inl rfl⟩
  | duplicate detail detail' => exact ⟨rfl, rfl, rfl, rfl, rfl, .inr rfl⟩
  | within slug description h ih =>
      refine ⟨ih.kind, ih.slug, rfl, ih.violation, ih.retryable, ih.message.imp_left fun hm => ?_⟩
      unfold Failure.message
      rw [hm]

/-- The same answer, or failures that agree. -/
inductive Ending.Agrees {α : Type} : Ending Failure α → Ending Failure α → Prop
  | done (a : α) : Agrees (.done a) (.done a)
  | refused {f f' : Failure} (h : f.Agrees f') : Agrees (.refused f) (.refused f')
  | crashed : Agrees .crashed .crashed

theorem Ending.Alike.agrees {α : Type} {e e' : Ending Failure α} (h : e.Alike e') :
    e.Agrees e' := by
  cases h with
  | refused h => exact .refused h.agrees
  | same =>
      cases e with
      | done a => exact .done a
      | refused f => exact .refused (Failure.Alike.same f).agrees
      | crashed => exact .crashed

/-- The same hours, trainings and accounts. -/
structure Store.Same (st st' : Store) : Prop where
  hours : st'.books.hours = st.books.hours
  trainings : st'.books.trainings = st.books.trainings
  accounts : st'.books.accounts = st.books.accounts

theorem Store.Mirror.same {st st' : Store} (h : st.Mirror st') : st.Same st' :=
  ⟨h.books.hours, h.books.trainings, h.books.accounts⟩

theorem Store.mirror_empty (connections : Nat) :
    (Store.memory .empty).Mirror (.tables (.empty connections)) := by
  have hm : Empty (.memory .empty) := .memory
  have ht : Empty (.tables (.empty connections)) := .tables connections
  refine ⟨hm.sound, ht.sound, rfl, rfl, ?_, ?_, ?_, fun {id t} h => ?_, fun {id a} h => ?_,
    fun {id a} h => ?_⟩
  · funext second
    rw [hm.hours, ht.hours]
  · funext id
    rw [hm.trainings, ht.trainings]
  · funext id
    rw [hm.accounts, ht.accounts]
  · rw [hm.trainings] at h
    cases h
  · rw [hm.accounts] at h
    cases h
  · rw [hm.accounts] at h
    cases h

namespace Desk

variable {window : BookingWindow} {watch watch' : Watch}

theorem serve_mirrored (orders : List (Moment × Order)) {w w' : World}
    (hw : w.store.Mirror w'.store) (hfits : ∀ order ∈ orders, order.2.Fits)
    (hexact : ∀ r ∈ serve window watch orders w, r.1.overflows = false) :
    List.Forall₂ (fun r r' => r.1.Agrees r'.1 ∧ r.2.Same r'.2)
      (serve window watch orders w) (serve window watch' orders w') := by
  induction orders generalizing w w' with
  | nil => exact .nil
  | cons entry rest ih =>
      obtain ⟨now, order⟩ := entry
      have hfit : order.Fits := hfits (now, order) List.mem_cons_self
      have htwin : Setting.Twin (.outer now window watch) (.outer now window watch') :=
        ⟨rfl, rfl, rfl⟩
      have hover := hexact _ List.mem_cons_self
      rcases hfit.mirrors htwin rfl w w' hw with h | ⟨halike, hmirror⟩
      · rw [h] at hover
        cases hover
      · refine .cons ⟨halike.agrees, hmirror.same⟩ (ih hmirror (fun o ho => ?_) fun r hr => ?_)
        · exact hfits o (List.mem_cons_of_mem _ ho)
        · exact hexact r (List.mem_cons_of_mem _ hr)

/-- **Memory and tables agree**: from empty stores, the same orders at the same readings of the clock
end alike and leave the same books after each of them, as long as no sum overflows. -/
theorem serve_agrees (connections : Nat) (orders : List (Moment × Order)) {w w' : World}
    (hw : w.store = .memory .empty) (hw' : w'.store = .tables (.empty connections))
    (hfits : ∀ order ∈ orders, order.2.Fits)
    (hexact : ∀ r ∈ serve window watch orders w, r.1.overflows = false) :
    List.Forall₂ (fun r r' => r.1.Agrees r'.1 ∧ r.2.Same r'.2)
      (serve window watch orders w) (serve window watch' orders w') := by
  have hmirror : w.store.Mirror w'.store := by
    rw [hw, hw']
    exact Store.mirror_empty connections
  exact serve_mirrored orders hmirror hfits hexact

open Sample in
/-- An account, an hour and a training, the account and the training twice, and all is given back. -/
theorem serve_agrees_ann :
    let orders : List (Moment × Order) := [
      (newYear, .createUser ann.id .attendee ann.name 1),
      (newYear, .createUser ann.id .attendee ann.name 1),
      (newYear, .makeHoursAvailable [⟨1893585600 * Moment.perSecond, 0⟩]),
      (newYear, .scheduleTraining "1" ann.id ann.name ⟨1893585600 * Moment.perSecond, 0⟩ "legs"),
      (newYear, .scheduleTraining "1" ann.id ann.name ⟨1893585600 * Moment.perSecond, 0⟩ "legs"),
      (newYear, .cancelTraining "1" ann), (newYear, .currentUser ann.id)]
    let served := serve .standard .bare orders (world (.memory .empty))
    let served' := serve .standard .bare orders (world (.tables (.empty 1)))
    (served.map fun r => r.1.isDone) = [true, false, true, true, false, true, true] ∧
      served.map Prod.fst ≠ served'.map Prod.fst ∧
      List.Forall₂ (fun r r' => r.1.Agrees r'.1 ∧ r.2.Same r'.2) served served' := by
  refine ⟨by decide +kernel, by decide +kernel, ?_⟩
  exact serve_agrees 1 _ rfl rfl (by decide +kernel) (by decide +kernel)

end Desk

end TrainerBooking
