import TrainerBooking.Proofs.Filings

/-! # Where the times of trainings come from

The time of a stored training, and the time to which it is proposed to move it, were each given by a
caller: with an order at the desk, or as a time stamp in a request to the API.

* **Given.** `Books.Dated` says that every time of a stored training is one of those given, as it is
  kept.  No rule makes times of its own (`Desk.Order.times_of_rule`), so this is kept by whatever an
  order does to the trainings (`Books.Files.dated`).
* **Read.** The times that a call hands on are read from its time stamps (`Call.times_read`), so in a
  run every time of a stored training was read from a time stamp of its history (`Run.dated`). -/

namespace TrainerBooking

/-! ### The times of a training -/

/-- The time of the training, and the proposed one. -/
def Training.times (t : Training) : List Moment :=
  t.time :: (t.proposal.map Proposal.newTime).toList

namespace Training

theorem mem_times {t : Training} {x : Moment} :
    x ∈ t.times ↔ x = t.time ∨ ∃ p, t.proposal = some p ∧ x = p.newTime := by
  rw [times, List.mem_cons, Option.mem_toList, Option.map_eq_some_iff]
  simp only [eq_comm]

end Training

namespace Books

theorem keptTime_congr {b b' : Books} (h : b'.inMemory = b.inMemory) (x : Moment) :
    b'.keptTime x = b.keptTime x := by rw [keptTime, h, keptTime]

/-- What is kept stays as it is when it is kept again. -/
@[simp] theorem keptTime_keptTime (b : Books) (x : Moment) :
    b.keptTime (b.keptTime x) = b.keptTime x := by
  unfold keptTime
  split
  · rfl
  · rw [Moment.floored, Moment.second_floored]
    rfl

theorem kept_time (b : Books) (t : Training) : (b.kept t).time = b.keptTime t.time := by
  unfold kept keptTime
  split <;> rfl

theorem kept_times (b : Books) (t : Training) : (b.kept t).times = t.times.map b.keptTime := by
  obtain ⟨id, owner, ownerName, time, notes, canceled, proposal⟩ := t
  unfold kept keptTime Training.times
  split <;> cases proposal <;> rfl

end Books

/-! ### Rules -/

/-- A rule dates the training that it makes as the stored one, or as the order says. -/
theorem Desk.Order.times_of_rule {order : Order} {now : Moment} {r : Ruling} {t t' : Training}
    {x : Moment} (hr : order.ruling? now = some r) (hrule : r.rule t = .ok t') (hx : x ∈ t'.times) :
    x ∈ t.times ∨ x ∈ order.times := by
  rw [Training.mem_times] at hx ⊢
  cases order with
  | cancelTraining id caller =>
      cases hr
      obtain ⟨-, rfl⟩ := Training.cancel_eq_ok hrule
      exact .inl hx
  | rescheduleTraining id newTime notes caller =>
      cases hr
      obtain ⟨noted, hnoted, hmoved⟩ := Training.rescheduleNoted_eq_ok hrule
      obtain ⟨-, rfl⟩ := Training.updateNotes_eq_ok hnoted
      obtain rfl := Training.reschedule_eq_ok hmoved
      rcases hx with rfl | hx
      · exact .inr List.mem_cons_self
      · exact .inl (.inr hx)
  | requestReschedule id newTime notes caller =>
      cases hr
      obtain ⟨noted, hnoted, hproposed⟩ := Training.proposeNoted_eq_ok hrule
      obtain ⟨-, rfl⟩ := Training.updateNotes_eq_ok hnoted
      obtain rfl := Training.propose_eq_ok hproposed
      rcases hx with rfl | ⟨p, hp, rfl⟩
      · exact .inl (.inl rfl)
      · cases hp
        exact .inr List.mem_cons_self
  | approveReschedule id caller =>
      cases hr
      obtain ⟨-, p, hp, rfl⟩ := Training.approve_eq_ok hrule
      rcases hx with rfl | ⟨q, hq, rfl⟩
      · exact .inl (.inr ⟨p, hp, rfl⟩)
      · cases hq
  | rejectReschedule id caller =>
      cases hr
      obtain ⟨-, rfl⟩ := Training.reject_eq_ok hrule
      rcases hx with rfl | ⟨q, hq, rfl⟩
      · exact .inl (.inl rfl)
      · cases hq
  | _ => cases hr

/-! ### Books -/

namespace Books

/-- Every time of a stored training is one of those given, as it is kept. -/
def Dated (given : Moment → Prop) (b : Books) : Prop :=
  ∀ id t, b.trainings id = some t → ∀ x ∈ t.times, ∃ m, given m ∧ x = b.keptTime m

variable {b b' : Books} {now : Moment} {order? : Option Desk.Order} {given given' : Moment → Prop}

theorem Dated.mono (h : b.Dated given) (hgiven : ∀ m, given m → given' m) : b.Dated given' := by
  intro id t ht x hx
  obtain ⟨m, hm, rfl⟩ := h id t ht x hx
  exact ⟨m, hgiven m hm, rfl⟩

/-- What an order does to the trainings dates them as before, or as the order says. -/
theorem Files.dated (h : b.Files now order? b') (hb : b.Dated given)
    (hnew : ∀ order, order? = some order → ∀ m ∈ order.times, given m) : b'.Dated given := by
  intro id u hu x hx
  simp only [keptTime_congr h.inMemory]
  cases h with
  | same _ hkind htrainings =>
      rw [htrainings] at hu
      exact hb id u hu x hx
  | booked hbook hfree hkind htrainings =>
      rw [htrainings, setTraining_trainings] at hu
      split at hu
      · obtain rfl := Option.some.inj hu
        obtain rfl := Training.book_eq_ok hbook
        rw [kept_times] at hx
        obtain rfl := List.mem_singleton.mp hx
        exact ⟨_, hnew _ rfl _ List.mem_cons_self, rfl⟩
      · exact hb id u hu x hx
  | @ruled order r t t' b' hr ht hread hsees hrule hkind htrainings =>
      rw [htrainings, setTraining_trainings] at hu
      split at hu
      · obtain rfl := Option.some.inj hu
        rw [kept_times] at hx
        obtain ⟨y, hy, rfl⟩ := List.mem_map.mp hx
        rcases Desk.Order.times_of_rule hr hrule hy with hy | hy
        · obtain ⟨m, hm, rfl⟩ := hb r.id t ht y hy
          exact ⟨m, hm, keptTime_keptTime b m⟩
        · exact ⟨y, hnew order rfl y hy, rfl⟩
      · exact hb id u hu x hx

end Books

/-! ### Logs and runs -/

/-- The times in the order that the deed is, or that it places. -/
def Deed.times (deed : Deed) : List Moment := deed.order?.elim [] Desk.Order.times

namespace Log

variable {window : BookingWindow} {log : List Entry} {w : World}

/-- **Every time of a stored training was given** with one of the deeds. -/
theorem dated (h : Log window log w) :
    w.store.books.Dated fun m => ∃ e ∈ log, m ∈ e.deed.times := by
  refine (induction_files (P := fun log b => b.Dated fun m => ∃ e ∈ log, m ∈ e.deed.times)
    (fun st hst id t ht => ?_) (fun log e hfiles ih => ?_) h).2
  · rw [hst.trainings] at ht
    cases ht
  · refine hfiles.dated (ih.mono fun m hm => ?_) fun order horder m hm => ?_
    · obtain ⟨e', he', hm⟩ := hm
      exact ⟨e', List.mem_append_left _ he', hm⟩
    · refine ⟨e, List.mem_append_right _ (List.mem_singleton_self e), ?_⟩
      rw [Deed.times, horder]
      exact hm

end Log

namespace Api

theorem read_of_readTime {field value : String} {m : Moment}
    (h : (readTime field value).toOption = some m) : Stamp.read value = .ok m := by
  unfold readTime at h
  split at h
  · next hread =>
      cases h
      exact hread
  · cases h

theorem read_of_readHours {values : List String} {times : List Moment}
    (h : (readHours values).toOption = some times) :
    ∀ m ∈ times, ∃ s ∈ values, Stamp.read s = .ok m := by
  unfold readHours at h
  cases hread : values.mapM (readTime "hours") with
  | error f =>
      rw [hread] at h
      cases h
  | ok read =>
      rw [hread] at h
      cases h
      intro m hm
      obtain ⟨value, hvalue, hfirst⟩ := exists_of_mem_mapM hread hm
      exact ⟨value, hvalue, read_of_readTime (congrArg _ hfirst)⟩

/-- The times that a call hands on are read from its time stamps. -/
theorem Call.times_read {call : Call} {order : Desk.Order} (h : call.order? = some order) :
    ∀ m ∈ order.times, ∃ s ∈ call.stamps, Stamp.read s = .ok m := by
  have single : ∀ {value : String} {make : Moment → Desk.Order},
      (readTime "time" value).toOption.map make = some order → (∀ m, (make m).times = [m]) →
        ∀ m ∈ order.times, ∃ s ∈ [value], Stamp.read s = .ok m := by
    intro value make hmake htimes m hm
    obtain ⟨time, htime, rfl⟩ := Option.map_eq_some_iff.mp hmake
    rw [htimes] at hm
    obtain rfl := List.mem_singleton.mp hm
    exact ⟨value, List.mem_singleton_self _, read_of_readTime htime⟩
  have many : ∀ {values : List String} {make : List Moment → Desk.Order},
      (readHours values).toOption.map make = some order → (∀ times, (make times).times = times) →
        ∀ m ∈ order.times, ∃ s ∈ values, Stamp.read s = .ok m := by
    intro values make hmake htimes m hm
    obtain ⟨times, hread, rfl⟩ := Option.map_eq_some_iff.mp hmake
    rw [htimes] at hm
    exact read_of_readHours hread m hm
  cases call with
  | makeHoursAvailable caller r => exact many h fun _ => rfl
  | makeHoursUnavailable caller r => exact many h fun _ => rfl
  | createTraining caller fresh r => exact single h fun _ => rfl
  | rescheduleTraining caller id r => exact single h fun _ => rfl
  | requestReschedule caller id r => exact single h fun _ => rfl
  | cancelTraining caller id =>
      cases h
      exact List.forall_mem_nil _
  | approveReschedule caller id =>
      cases h
      exact List.forall_mem_nil _
  | rejectReschedule caller id =>
      cases h
      exact List.forall_mem_nil _
  | _ => cases h

end Api

/-- A call that was made is a deed that was done or failed. -/
def Turn.entry (turn : Turn) : Entry :=
  ⟨turn.now, .call turn.call, turn.before, turn.ending.isDone, turn.after⟩

namespace Run

variable {window : BookingWindow} {watch : Watch} {history : List Turn} {w : World}

theorem log (h : Run window watch history w) : Log window (history.map Turn.entry) w := by
  induction h with
  | start h => exact .start h
  | next h now call ih =>
      rw [List.map_append]
      exact ih.next watch now (.call call)

/-- Was the moment read from a time stamp of the history? -/
def Reads (history : List Turn) (m : Moment) : Prop :=
  ∃ turn ∈ history, ∃ s ∈ turn.call.stamps, Stamp.read s = .ok m

/-- What was given with the deeds of the history was read from its time stamps. -/
theorem given_read {m : Moment} (h : ∃ e ∈ history.map Turn.entry, m ∈ e.deed.times) :
    Reads history m := by
  obtain ⟨e, he, hm⟩ := h
  obtain ⟨turn, hturn, rfl⟩ := List.mem_map.mp he
  cases horder : turn.call.order? with
  | none =>
      rw [Deed.times, Turn.entry, Deed.order?, horder] at hm
      cases hm
  | some order =>
      rw [Deed.times, Turn.entry, Deed.order?, horder] at hm
      exact ⟨turn, hturn, Api.Call.times_read horder m hm⟩

/-- **Every time of a stored training was read** from a time stamp of the history. -/
theorem dated (h : Run window watch history w) : w.store.books.Dated (Reads history) :=
  h.log.dated.mono fun _ hm => given_read hm

end Run

end TrainerBooking
