import TrainerBooking.Proofs.Rulings
import TrainerBooking.Proofs.Timetable

/-! # What becomes of the trainings in the books

Whatever is done at the desk or through the API, the trainings in the books change in two ways only:
one is added under a free identifier, or a stored one is filed anew as its ruling says.

* **Orders.** `Order.ruling?` is the ruling by which an order goes, if it is on a stored training.
  `Books.Files` lists what can become of the trainings when an order is placed.
* **Deeds.** It is the same for every deed, for a call does what the order does that it places
  (`Deed.perform_files`).  So a property of the stored trainings holds after every log if it is kept by
  what `Books.Files` lists (`Log.induction_files`). -/

namespace TrainerBooking

/-! ### Orders and trainings -/

/-- The ruling by which the order goes, if it changes a stored training. -/
def Desk.Order.ruling? (now : Moment) : Order → Option Ruling
  | cancelTraining id caller => some ⟨id, caller, Training.cancel⟩
  | rescheduleTraining id newTime notes caller =>
    some ⟨id, caller, Training.rescheduleNoted newTime notes now⟩
  | requestReschedule id newTime notes caller =>
    some ⟨id, caller, Training.proposeNoted newTime notes caller.role⟩
  | approveReschedule id caller => some ⟨id, caller, Training.approve caller.role⟩
  | rejectReschedule id caller => some ⟨id, caller, Training.reject⟩
  | _ => none

theorem Desk.Order.lawful {order : Order} {now : Moment} {r : Ruling}
    (h : order.ruling? now = some r) : r.Lawful := by
  cases order with
  | cancelTraining id caller =>
      cases h
      exact fun _ _ => Training.yields_of_cancel
  | rescheduleTraining id newTime notes caller =>
      cases h
      exact fun _ _ => Training.yields_of_rescheduleNoted
  | requestReschedule id newTime notes caller =>
      cases h
      exact fun _ _ => Training.yields_of_proposeNoted
  | approveReschedule id caller =>
      cases h
      exact fun _ _ => Training.yields_of_approve
  | rejectReschedule id caller =>
      cases h
      exact fun _ _ => Training.yields_of_reject
  | _ => cases h

namespace Books

/-- What can become of the trainings in the books when an order is placed, or none is. -/
inductive Files (now : Moment) (b : Books) : Option Desk.Order → Books → Prop
  | same (order? : Option Desk.Order) {b' : Books} (hkind : b'.inMemory = b.inMemory)
      (htrainings : b'.trainings = b.trainings) : Files now b order? b'
  | booked {id owner ownerName notes : String} {time : Moment} {t : Training} {b' : Books}
      (hbook : Training.book id owner ownerName time notes = .ok t)
      (hfree : b.trainings id = none) (hkind : b'.inMemory = b.inMemory)
      (htrainings : b'.trainings = (b.setTraining id (b.kept t)).trainings) :
      Files now b (some (.scheduleTraining id owner ownerName time notes)) b'
  | ruled {order : Desk.Order} {r : Ruling} {t t' : Training} {b' : Books}
      (hr : order.ruling? now = some r) (ht : b.trainings r.id = some t) (hread : b.Reads t)
      (hsees : r.caller.sees t = true) (hrule : r.rule t = .ok t')
      (hkind : b'.inMemory = b.inMemory)
      (htrainings : b'.trainings = (b.setTraining r.id (b.kept t')).trainings) :
      Files now b (some order) b'

variable {b b' b'' : Books} {now : Moment} {order? : Option Desk.Order}

theorem Ruled.files {order : Desk.Order} {r : Ruling} {e : Ending Failure Unit}
    (h : b.Ruled r e b') (hr : order.ruling? now = some r) : b.Files now (some order) b' := by
  cases h with
  | barred f hbar => exact .same _ rfl rfl
  | violated ht hread hsees hrule hf => exact .same _ rfl rfl
  | dropped ht hread hsees hrule hkind htrainings he => exact .same _ hkind htrainings
  | @filed t t' c ht hread hsees hrule hkind htrainings =>
      refine .ruled hr ht hread hsees hrule hkind ?_
      simp only [setTraining, htrainings]

theorem Files.inMemory (h : b.Files now order? b') : b'.inMemory = b.inMemory := by
  cases h with
  | same _ hkind htrainings => exact hkind
  | booked hbook hfree hkind htrainings => exact hkind
  | ruled hr ht hread hsees hrule hkind htrainings => exact hkind

end Books

namespace Act.Meets

variable {s : Setting} {b : Books}

/-- A booking stores what the rules make of it, or nothing. -/
theorem scheduleTraining_files {id owner ownerName notes : String} {time : Moment}
    (hs : s.held = Held.nothing) :
    (Desk.scheduleTraining id owner ownerName time notes).Meets s b fun _ b' =>
      b.Files s.now (some (.scheduleTraining id owner ownerName time notes)) b' := by
  refine watched fun _ => bind_ofRule (fun v _ => .same _ rfl rfl) fun t hbook => ?_
  have hid : t.id = id := by rw [Training.book_eq_ok hbook]
  refine bind (within (addTraining ?_ (fun _ _ => ?_) fun hfree => ?_))
  · exact congrArg Held.trainings hs
  · exact Books.Files.same _ rfl rfl
  rw [hid] at hfree
  -- Charging and booking the hour come after, and leave the trainings alone.
  have hstored : ∀ b' : Books, b'.inMemory = b.inMemory →
      b'.trainings = (b.setTraining t.id (b.kept t)).trainings →
        b.Files s.now (some (.scheduleTraining id owner ownerName time notes)) b' :=
    fun b' hkind htrainings => .booked hbook hfree hkind (hid ▸ htrainings)
  refine .of_done (bind (within (creditAccount (fun a n ha hn => .of_done ?_) (fun _ => ?_)
    fun _ _ _ => ?_)))
  · refine within (scheduleHour ?_ (fun _ _ _ => ?_) (fun _ => ?_) ?_)
    · exact congrArg Held.hours hs
    · exact hstored _ rfl rfl
    · exact hstored _ rfl rfl
    · exact hstored _ rfl rfl
  · exact hstored _ rfl rfl
  · exact hstored _ rfl rfl

theorem files_of_same {α : Type} {order? : Option Desk.Order} {act : Act Failure α}
    (h : act.Meets s b fun _ b' => b' = b) : act.Meets s b fun _ b' => b.Files s.now order? b' :=
  h.mono fun _ _ hsame => hsame ▸ .same _ rfl rfl

theorem files_of_banked {ε α : Type} {order? : Option Desk.Order} {act : Act ε α}
    (h : act.Meets s b fun _ b' => b.Banked b') : act.Meets s b fun _ b' => b.Files s.now order? b' :=
  h.mono fun _ _ hbanked => .same _ hbanked.inMemory hbanked.trainings

theorem files_of_edited {α : Type} {order? : Option Desk.Order} {act : Act Failure α}
    (h : act.Meets s b fun _ b' => b.Edited b') : act.Meets s b fun _ b' => b.Files s.now order? b' :=
  h.mono fun _ _ hedited => .same _ hedited.inMemory hedited.trainings

/-- An order that goes by a ruling ends as the ruling says, and answers nothing. -/
theorem order_ruled {order : Desk.Order} {r : Ruling} (hr : order.ruling? s.now = some r)
    (hs : s.held = Held.nothing) :
    order.perform.Meets s b fun e b' =>
      ∃ e', e = Ending.mapValue (fun _ => .nothing) e' ∧ b.Ruled r e' b' := by
  have answered : ∀ {act : Act Failure Unit}, act.Meets s b (b.Ruled r) →
      (act >>= fun _ => Pure.pure Desk.Answer.nothing).Meets s b fun e b' =>
        ∃ e', e = Ending.mapValue (fun _ => .nothing) e' ∧ b.Ruled r e' b' := by
    intro act h
    refine bind (h.mono fun e b' hruled => ?_)
    cases e with
    | done u => exact .of_done (pure ⟨.done u, rfl, hruled⟩)
    | refused f => exact ⟨.refused f, rfl, hruled⟩
    | crashed => exact ⟨.crashed, rfl, hruled⟩
  cases order with
  | cancelTraining id caller =>
      cases hr
      exact answered (cancelTraining_ruled hs)
  | rescheduleTraining id newTime notes caller =>
      cases hr
      exact answered (rescheduleTraining_ruled hs)
  | requestReschedule id newTime notes caller =>
      cases hr
      exact answered (requestReschedule_ruled hs)
  | approveReschedule id caller =>
      cases hr
      exact answered (approveReschedule_ruled hs)
  | rejectReschedule id caller =>
      cases hr
      exact answered (rejectReschedule_ruled hs)
  | _ => cases hr

theorem order_files (order : Desk.Order) (hs : s.held = Held.nothing) :
    order.perform.Meets s b fun _ b' => b.Files s.now (some order) b' := by
  have hhours : s.held.hours = [] := congrArg Held.hours hs
  have told : ∀ {α β : Type} {act : Act Failure α} {f : α → β},
      (act.Meets s b fun _ b' => b.Files s.now (some order) b') →
        (act >>= fun a => Pure.pure (f a)).Meets s b fun _ b' => b.Files s.now (some order) b' :=
    fun h => answered (R := fun _ b' => b.Files s.now (some order) b') h
  have ruled : ∀ {r : Ruling}, order.ruling? s.now = some r →
      order.perform.Meets s b fun _ b' => b.Files s.now (some order) b' := by
    intro r hr
    refine (order_ruled hr hs).mono fun e b' hruled => ?_
    obtain ⟨e', -, hruled⟩ := hruled
    exact hruled.files hr
  cases order with
  | scheduleHour time =>
      refine told (scheduleHour hhours (fun _ _ _ => ?_) (fun _ => ?_) ?_)
      · exact .same _ rfl rfl
      · exact .same _ rfl rfl
      · exact .same _ rfl rfl
  | cancelHour time =>
      exact told ((cancelHour_leaves hhours).mono fun _ _ h => .same _ h.1 h.2)
  | makeHoursAvailable times => exact told (files_of_edited (makeHoursAvailable hhours times b))
  | makeHoursUnavailable times =>
      exact told (files_of_edited (makeHoursUnavailable hhours times b))
  | availableHours first last => exact told (files_of_same (availableHours hhours first last b))
  | hourAvailability time => exact told (files_of_same (hourAvailability hhours time b))
  | scheduleTraining id owner ownerName time notes => exact told (scheduleTraining_files hs)
  | cancelTraining id caller => exact ruled rfl
  | rescheduleTraining id newTime notes caller => exact ruled rfl
  | requestReschedule id newTime notes caller => exact ruled rfl
  | approveReschedule id caller => exact ruled rfl
  | rejectReschedule id caller => exact ruled rfl
  | allTrainings => exact told (files_of_same (allTrainings_same hs))
  | trainingsOfCaller caller => exact told (files_of_same (trainingsOfCaller_same hs))
  | createUser id role name balance => exact told (files_of_banked createUser)
  | changeBalance id amount => exact told (files_of_banked changeBalance_banked)
  | recordIp id ip => exact told (files_of_banked recordIp_banked)
  | currentUser id => exact told (files_of_same currentUser)

end Act.Meets

/-- The order that the deed is, or that it places. -/
def Deed.order? : Deed → Option Desk.Order
  | order o => some o
  | call c => c.order?

theorem Deed.perform_files (deed : Deed) (window : BookingWindow) (watch : Watch) (now : Moment)
    {w : World} (hw : w.store.Sound) :
    let w' := (deed.perform (.outer now window watch) w).2
    w'.store.Sound ∧ w.store.books.Files now deed.order? w'.store.books := by
  cases deed with
  | order o => exact Act.Meets.order_files o rfl w hw rfl
  | call c =>
      cases hplaced : c.order? with
      | none =>
          rw [Deed.order?, hplaced]
          exact Act.Meets.files_of_banked (Act.Meets.placingNone hplaced rfl) w hw rfl
      | some order =>
          rw [Deed.order?, hplaced]
          exact Act.Meets.placing (R := fun _ b' => w.store.books.Files now (some order) b') hplaced
            (.same _ rfl rfl) (Act.Meets.order_files order rfl) w hw rfl

/-- What holds of empty books, and is kept by whatever a deed can do to the trainings, holds after
every log. -/
theorem Log.induction_files {window : BookingWindow} {P : List Entry → Books → Prop}
    (hstart : ∀ st : Store, st.Empty → P [] st.books)
    (hnext : ∀ log e, e.before.books.Files e.now e.deed.order? e.after.books →
      P log e.before.books → P (log ++ [e]) e.after.books)
    {log : List Entry} {w : World} (h : Log window log w) : w.store.Sound ∧ P log w.store.books := by
  induction h with
  | start h => exact ⟨h.sound, hstart _ h⟩
  | next h watch now deed ih =>
      obtain ⟨hsound, hfiles⟩ := deed.perform_files window watch now ih.1
      exact ⟨hsound, hnext _ (Entry.make window watch now deed _).1 hfiles ih.2⟩

end TrainerBooking
