import TrainerBooking.Proofs.Equivalence

/-! # What calls ask of the desk

A call of the API asks the desk for one order, once its time stamps are read and its caller has the
role that it demands.

* **Placed.** `Call.order?` is the order that a call places on the calendar or on a training, and
  `Call.asked?` is the same with the orders on accounts.
* **Asking.** Whatever the order does to the books, done or not, the call does (`Act.Meets.asking`).
  Without the role a call changes nothing (`denied`), and one that asks for no order writes down
  addresses at most (`unasked`). -/

namespace TrainerBooking

namespace Api.Call

/-- The order that the call places on the calendar or on a training, once its time stamps are read. -/
def order? : Call → Option Desk.Order
  | makeHoursAvailable _ r => (readHours r.hours).toOption.map .makeHoursAvailable
  | makeHoursUnavailable _ r => (readHours r.hours).toOption.map .makeHoursUnavailable
  | createTraining caller fresh r => (readTime "time" r.time).toOption.map fun time =>
    .scheduleTraining fresh caller.id caller.name time r.notes
  | cancelTraining caller id => some (.cancelTraining id caller)
  | rescheduleTraining caller id r => (readTime "time" r.time).toOption.map fun time =>
    .rescheduleTraining id time r.notes caller
  | requestReschedule caller id r => (readTime "time" r.time).toOption.map fun time =>
    .requestReschedule id time r.notes caller
  | approveReschedule caller id => some (.approveReschedule id caller)
  | rejectReschedule caller id => some (.rejectReschedule id caller)
  | availableHours _ | hourAvailability _ | trainings _ | currentUser _ _ | createUser _ _ _
  | changeBalance _ _ _ => none

/-- The order for which the call asks: the one that it places, or one on an account. -/
def asked? : Call → Option Desk.Order
  | changeBalance _ id r => some (.changeBalance id r.amount)
  | createUser _ fresh r => (Role.ofLabel? r.role).map fun role =>
    .createUser (r.id.getD fresh) role r.name r.balance
  | call => call.order?

/-- Has the caller the role that the call demands? -/
def permits : Call → Bool
  | makeHoursAvailable caller _ | makeHoursUnavailable caller _ | createUser caller _ _
  | changeBalance caller _ _ => decide (caller.role = .trainer)
  | createTraining caller _ _ => decide (caller.role = .attendee)
  | availableHours _ | hourAvailability _ | trainings _ | cancelTraining _ _
  | rescheduleTraining _ _ _ | requestReschedule _ _ _ | approveReschedule _ _
  | rejectReschedule _ _ | currentUser _ _ => true

theorem asked?_of_order {call : Call} {order : Desk.Order} (h : call.order? = some order) :
    call.asked? = some order := by
  cases call <;> first | exact h | cases h

/-- What is asked for, but not placed, is an order on an account. -/
theorem asked?_of_none {call : Call} {order : Desk.Order} (hplaced : call.order? = none)
    (hasked : call.asked? = some order) : (∃ id amount, order = .changeBalance id amount) ∨
      ∃ id role name balance, order = .createUser id role name balance := by
  cases call with
  | changeBalance caller id r =>
      cases hasked
      exact .inl ⟨_, _, rfl⟩
  | createUser caller fresh r =>
      obtain ⟨role, -, rfl⟩ := Option.map_eq_some_iff.mp hasked
      exact .inr ⟨_, _, _, _, rfl⟩
  | _ => cases hplaced.symm.trans hasked

end Api.Call

namespace Act.Meets

open Api

variable {s : Setting} {b : Books}

theorem and {ε α : Type} {act : Act ε α} {Q R : Ending ε α → Books → Prop} (hQ : act.Meets s b Q)
    (hR : act.Meets s b R) : act.Meets s b fun e b' => Q e b' ∧ R e b' :=
  fun w hw hb => ⟨(hQ w hw hb).1, (hQ w hw hb).2, (hR w hw hb).2⟩

/-- An act does what it does, whatever is made of its value. -/
theorem answered {ε α β : Type} {act : Act ε α} {f : α → β} {R : Bool → Books → Prop}
    (h : act.Meets s b fun e b' => R e.isDone b') :
    (act >>= fun a => (Pure.pure (f a) : Act ε β)).Meets s b fun e b' => R e.isDone b' := by
  refine bind (h.mono fun e b' hq => ?_)
  cases e with
  | done a => exact pure (Q := fun e b' => R e.isDone b') hq
  | refused c => exact hq
  | crashed => exact hq

/-- What can be read is handed on. -/
theorem respondThen {α β : Type} {e : Except Refusal α} {a : α} {next : α → Act Refusal β}
    {Q : Ending Refusal β → Books → Prop} (he : e.toOption = some a)
    (h : (next a).Meets s b Q) : (respond e >>= next).Meets s b Q := by
  refine bind (ofExcept ?_)
  cases e with
  | error r => cases he
  | ok a' =>
      cases he
      exact h

/-- What cannot be read changes nothing. -/
theorem respond_unread {α β : Type} {e : Except Refusal α} {next : α → Act Refusal β}
    (he : e.toOption = none) : (respond e >>= next).Meets s b fun _ b' => b' = b := by
  refine bind (ofExcept ?_)
  cases e with
  | error r => rfl
  | ok a => cases he

/-- Callers of the role get past. -/
theorem required {α : Type} {role : Role} {caller : Caller} {action : String}
    {next : Unit → Act Refusal α} {Q : Ending Refusal α → Books → Prop}
    (hrole : decide (caller.role = role) = true) (h : (next ()).Meets s b Q) :
    (Api.require role caller action >>= next).Meets s b Q := by
  refine bind (mapCause (ofExcept ?_))
  rw [Identity.require, if_pos (of_decide_eq_true hrole)]
  exact h

/-- Callers of another role do not. -/
theorem unrequired {α : Type} {role : Role} {caller : Caller} {action : String}
    {next : Unit → Act Refusal α} (hrole : decide (caller.role = role) = false) :
    (Api.require role caller action >>= next).Meets s b fun e b' => e.isDone = false ∧ b' = b := by
  refine bind (mapCause (ofExcept ?_))
  rw [Identity.require, if_neg (of_decide_eq_false hrole)]
  exact ⟨rfl, rfl⟩

/-- An act is done, and leaves the books, as it is and does when its value is put into an answer. -/
theorem unanswered {ε α β : Type} {act : Act ε α} {f : α → β} {R : Bool → Books → Prop}
    (h : (act >>= fun a => Pure.pure (f a)).Meets s b fun e b' => R e.isDone b') :
    act.Meets s b fun e b' => R e.isDone b' := by
  intro w hw hb
  have hall := h w hw hb
  rw [bind_run] at hall
  generalize act s w = r at hall
  obtain ⟨e, w'⟩ := r
  cases e <;> exact hall

/-- **A call does what the order does for which it asks**, if the caller has the role for it. -/
theorem asking {call : Call} {order : Desk.Order} (hpermits : call.permits = true)
    (hasked : call.asked? = some order) {R : Bool → Books → Prop}
    (h : order.perform.Meets s b fun e b' => R e.isDone b') :
    call.perform.Meets s b fun e b' => R e.isDone b' := by
  cases call with
  | makeHoursAvailable caller r =>
      obtain ⟨times, htimes, rfl⟩ := Option.map_eq_some_iff.mp hasked
      exact reply (required hpermits (respondThen htimes (command (unanswered h))))
  | makeHoursUnavailable caller r =>
      obtain ⟨times, htimes, rfl⟩ := Option.map_eq_some_iff.mp hasked
      exact reply (required hpermits (respondThen htimes (command (unanswered h))))
  | createTraining caller fresh r =>
      obtain ⟨time, htime, rfl⟩ := Option.map_eq_some_iff.mp hasked
      refine reply (required hpermits (respondThen htime ?_))
      exact andThen (operated (unanswered h)) fun _ _ h' => bind (note (.of_done (pure h')))
  | rescheduleTraining caller id r =>
      obtain ⟨time, htime, rfl⟩ := Option.map_eq_some_iff.mp hasked
      exact reply (respondThen htime (command (unanswered h)))
  | requestReschedule caller id r =>
      obtain ⟨time, htime, rfl⟩ := Option.map_eq_some_iff.mp hasked
      exact reply (respondThen htime (command (unanswered h)))
  | cancelTraining caller id =>
      cases hasked
      exact reply (command (unanswered h))
  | approveReschedule caller id =>
      cases hasked
      exact reply (command (unanswered h))
  | rejectReschedule caller id =>
      cases hasked
      exact reply (command (unanswered h))
  | changeBalance caller id r =>
      cases hasked
      exact reply (required hpermits (command (unanswered h)))
  | createUser caller fresh r =>
      obtain ⟨role, hrole, rfl⟩ := Option.map_eq_some_iff.mp hasked
      refine reply (required hpermits ?_)
      rw [hrole]
      exact andThen (operated (unanswered h)) fun _ _ h' => bind (note (.of_done (pure h')))
  | _ => cases hasked

/-- A caller without the role changes nothing. -/
theorem denied {call : Call} (hpermits : call.permits = false) :
    call.perform.Meets s b fun e b' => e.isDone = false ∧ b' = b := by
  have told : ∀ {α : Type} {act : Act Refusal α} {f : α → Reply},
      (act.Meets s b fun e b' => e.isDone = false ∧ b' = b) →
        (act >>= fun a => Pure.pure (f a)).Meets s b fun e b' => e.isDone = false ∧ b' = b :=
    fun h => reply (R := fun done b' => done = false ∧ b' = b) h
  cases call with
  | makeHoursAvailable caller r => exact told (unrequired hpermits)
  | makeHoursUnavailable caller r => exact told (unrequired hpermits)
  | createTraining caller fresh r => exact told (unrequired hpermits)
  | createUser caller fresh r => exact told (unrequired hpermits)
  | changeBalance caller id r => exact told (unrequired hpermits)
  | _ => cases hpermits

theorem currentUserCall_balances (caller : Caller) (ip : Option String) :
    (Api.currentUser caller ip).Meets s b fun _ b' => b'.balance? = b.balance? := by
  have hshow : ∀ b' : Books, b'.balance? = b.balance? → ∀ f : Account → UserResponse,
      (Api.operation (Desk.currentUser caller.id) >>= fun a => Pure.pure (f a)).Meets s b'
        fun _ b'' => b''.balance? = b.balance? := by
    intro b' h f
    refine reply (R := fun _ b'' => b''.balance? = b.balance?) (operation ?_)
    exact currentUser.mono fun _ _ hsame => hsame ▸ h
  cases ip with
  | none => exact hshow b rfl _
  | some ip =>
      refine andThen (R := fun _ b' => b'.balance? = b.balance?) (operation recordIp_balances) ?_
      exact fun _ b' h => hshow b' h _

/-- A call that asks for no order writes down addresses at most. -/
theorem unasked {call : Call} (hasked : call.asked? = none) (hs : s.held = Held.nothing) :
    call.perform.Meets s b fun _ b' => b.Banked b' ∧ b'.balance? = b.balance? := by
  have hhours : s.held.hours = [] := congrArg Held.hours hs
  have told : ∀ {α : Type} {act : Act Refusal α} {f : α → Reply}, (act.Meets s b fun _ b' => b' = b) →
      (act >>= fun a => Pure.pure (f a)).Meets s b
        fun _ b' => b.Banked b' ∧ b'.balance? = b.balance? := by
    intro α act f h
    refine reply (R := fun _ b' => b.Banked b' ∧ b'.balance? = b.balance?) (h.mono ?_)
    rintro e b' rfl
    exact ⟨.refl b', rfl⟩
  cases call with
  | availableHours r => exact told (availableHoursCall_same hhours r)
  | hourAvailability r => exact told (hourAvailabilityCall_same hhours r)
  | trainings caller => exact told (trainingsCall_same hs caller)
  | currentUser caller ip =>
      exact reply (R := fun _ b' => b.Banked b' ∧ b'.balance? = b.balance?)
        ((currentUserCall_banked caller ip).and (currentUserCall_balances caller ip))
  | createUser caller fresh r =>
      have hrole := Option.map_eq_none_iff.mp hasked
      refine told (requireThen (fun _ => ?_) fun _ => rfl)
      rw [hrole]
      exact refuse rfl
  | makeHoursAvailable caller r =>
      have hunread := Option.map_eq_none_iff.mp hasked
      exact told (requireThen (fun _ => respond_unread hunread) fun _ => rfl)
  | makeHoursUnavailable caller r =>
      have hunread := Option.map_eq_none_iff.mp hasked
      exact told (requireThen (fun _ => respond_unread hunread) fun _ => rfl)
  | createTraining caller fresh r =>
      have hunread := Option.map_eq_none_iff.mp hasked
      exact told (requireThen (fun _ => respond_unread hunread) fun _ => rfl)
  | rescheduleTraining caller id r =>
      exact told (respond_unread (Option.map_eq_none_iff.mp hasked))
  | requestReschedule caller id r =>
      exact told (respond_unread (Option.map_eq_none_iff.mp hasked))
  | _ => cases hasked

/-- A call does what the order does that it places, done or not, or it is refused. -/
theorem placing {call : Call} {order : Desk.Order} (hplaced : call.order? = some order)
    {R : Bool → Books → Prop} (hrefused : R false b)
    (h : order.perform.Meets s b fun e b' => R e.isDone b') :
    call.perform.Meets s b fun e b' => R e.isDone b' := by
  cases hpermits : call.permits with
  | true => exact asking hpermits (Call.asked?_of_order hplaced) h
  | false =>
      refine (denied hpermits).mono fun e b' hdenied => ?_
      rw [hdenied.1, hdenied.2]
      exact hrefused

/-- A call that places no order changes accounts at most. -/
theorem placingNone {call : Call} (hplaced : call.order? = none) (hs : s.held = Held.nothing) :
    call.perform.Meets s b fun _ b' => b.Banked b' := by
  cases hasked : call.asked? with
  | none => exact (unasked hasked hs).mono fun _ _ h => h.1
  | some order =>
      cases hpermits : call.permits with
      | false => exact (denied hpermits).mono fun _ _ h => h.2 ▸ .refl b
      | true =>
          refine asking (R := fun _ b' => b.Banked b') hpermits hasked ?_
          -- What is asked for, but not placed, is an order on an account.
          obtain ⟨id, amount, rfl⟩ | ⟨id, role, name, balance, rfl⟩ :=
            Call.asked?_of_none hplaced hasked
          · exact answered (R := fun _ b' => b.Banked b') changeBalance_banked
          · exact answered (R := fun _ b' => b.Banked b') createUser

end Act.Meets

end TrainerBooking
