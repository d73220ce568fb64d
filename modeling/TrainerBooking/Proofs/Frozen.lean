import TrainerBooking.Proofs.Filings

/-! # Trainings are kept, and canceled ones are frozen

Whatever is done at the desk or through the API, from an empty store:

* **Kept.** A stored training is never removed, and keeps its identifier, its owner and the name of
  the owner (`Books.Evolves`).
* **Bounded.** Its notes are never longer than they may be.
* **Frozen.** Once it is canceled it stays as it is, and every order on it by somebody who sees it is
  refused for that reason alone, whatever else would stand against it (`Log.frozen`).

In tables a training has to be read before anything can be said against it.  A canceled one can always
be read, for it was read when it was canceled (`Books.Proper`). -/

namespace TrainerBooking

/-! ### Kept and frozen -/

namespace Books

/-- No training is lost, none is given to another, and what is canceled stays as it is. -/
def Evolves (b b' : Books) : Prop :=
  ∀ id t, b.trainings id = some t → ∃ t', b'.trainings id = some t' ∧ t'.id = t.id ∧
    t'.owner = t.owner ∧ t'.ownerName = t.ownerName ∧ (t.canceled = true → t' = t)

/-- Is the training one that the program may store: with notes that are not too long, and with times
that can be read once it is canceled? -/
structure Proper (b : Books) (t : Training) : Prop where
  notes : t.notes.length ≤ 1000
  reads : t.canceled = true → b.Reads t

variable {b b' b'' : Books} {now : Moment} {order? : Option Desk.Order}

theorem Evolves.of_trainings (h : b'.trainings = b.trainings) : b.Evolves b' := by
  intro id t ht
  rw [← h] at ht
  exact ⟨t, ht, rfl, rfl, rfl, fun _ => rfl⟩

theorem Evolves.trans (h : b.Evolves b') (h' : b'.Evolves b'') : b.Evolves b'' := by
  intro id t ht
  obtain ⟨t', ht', hid, howner, hname, hfrozen⟩ := h id t ht
  obtain ⟨t'', ht'', hid', howner', hname', hfrozen'⟩ := h' id t' ht'
  refine ⟨t'', ht'', hid'.trans hid, howner'.trans howner, hname'.trans hname, fun hc => ?_⟩
  obtain rfl := hfrozen hc
  exact hfrozen' hc

@[simp] theorem kept_ownerName (b : Books) (t : Training) :
    (b.kept t).ownerName = t.ownerName := by
  unfold kept
  split <;> rfl

@[simp] theorem kept_notes (b : Books) (t : Training) : (b.kept t).notes = t.notes := by
  unfold kept
  split <;> rfl

theorem Files.evolves (h : b.Files now order? b') : b.Evolves b' := by
  cases h with
  | same _ hkind htrainings => exact .of_trainings htrainings
  | @booked id owner ownerName notes time t b' hbook hfree hkind htrainings =>
      intro id' u hu
      have hne : id' ≠ id := by
        rintro rfl
        rw [hfree] at hu
        cases hu
      refine ⟨u, ?_, rfl, rfl, rfl, fun _ => rfl⟩
      rw [htrainings, setTraining_trainings, if_neg hne]
      exact hu
  | @ruled order r t t' b' hr ht hread hsees hrule hkind htrainings =>
      have hyields := Desk.Order.lawful hr t t' hrule
      intro id' u hu
      rw [htrainings, setTraining_trainings]
      by_cases hid : id' = r.id
      · subst hid
        obtain rfl := Option.some.inj (ht.symm.trans hu)
        refine ⟨b.kept t', if_pos rfl, ?_, ?_, ?_, fun hcanceled => ?_⟩
        · rw [kept_id, hyields.id]
        · rw [kept_owner, hyields.owner]
        · rw [kept_ownerName, hyields.ownerName]
        · rw [hyields.active] at hcanceled
          cases hcanceled
      · exact ⟨u, (if_neg hid).trans hu, rfl, rfl, rfl, fun _ => rfl⟩

theorem reads_congr (h : b'.inMemory = b.inMemory) {t : Training} (ht : b.Reads t) : b'.Reads t :=
  ht.imp_left fun hm => h.trans hm

theorem kept_reads {t : Training} (h : b.Reads t) : b.Reads (b.kept t) :=
  h.imp_right fun hr => b.kept_readable hr

/-- What is stored is proper, if it was before. -/
theorem Files.proper (h : b.Files now order? b')
    (hb : ∀ id t, b.trainings id = some t → b.Proper t) :
    ∀ id t, b'.trainings id = some t → b'.Proper t := by
  have hkind := h.inMemory
  suffices hall : ∀ id t, b'.trainings id = some t → b.Proper t from
    fun id t ht => ⟨(hall id t ht).notes, fun hc => reads_congr hkind ((hall id t ht).reads hc)⟩
  cases h with
  | same _ hkind htrainings =>
      rw [htrainings]
      exact hb
  | @booked id owner ownerName notes time t b' hbook hfree hkind htrainings =>
      intro id' u hu
      rw [htrainings, setTraining_trainings] at hu
      split at hu
      · obtain rfl := Option.some.inj hu
        have hle := Training.notes_of_book hbook
        obtain rfl := Training.book_eq_ok hbook
        refine ⟨?_, fun hcanceled => ?_⟩
        · rw [kept_notes]
          exact hle
        · rw [kept_canceled] at hcanceled
          cases hcanceled
      · exact hb id' u hu
  | @ruled order r t t' b' hr ht hread hsees hrule hkind htrainings =>
      have hyields := Desk.Order.lawful hr t t' hrule
      intro id' u hu
      rw [htrainings, setTraining_trainings] at hu
      split at hu
      · obtain rfl := Option.some.inj hu
        refine ⟨?_, fun hcanceled => kept_reads ?_⟩
        · rw [kept_notes]
          exact hyields.notes (hb r.id t ht).notes
        · rw [kept_canceled] at hcanceled
          obtain ⟨htime, hproposal⟩ := hyields.canceled hcanceled
          unfold Reads Training.Readable at hread ⊢
          rw [htime, hproposal]
          exact hread
      · exact hb id' u hu

end Books

/-- The orders on the training of an identifier, and what they are refused with once it is
canceled. -/
inductive Desk.Order.Bars (id : String) (caller : Caller) : Order → Violation → Prop
  | cancel : Bars id caller (.cancelTraining id caller) .trainingAlreadyCanceled
  | reschedule (newTime : Moment) (notes : String) :
      Bars id caller (.rescheduleTraining id newTime notes caller) .trainingCanceled
  | request (newTime : Moment) (notes : String) :
      Bars id caller (.requestReschedule id newTime notes caller) .trainingCanceled
  | approve : Bars id caller (.approveReschedule id caller) .trainingCanceled
  | reject : Bars id caller (.rejectReschedule id caller) .trainingCanceled

/-- Of a canceled training, the ruling of the order makes the violation. -/
theorem Desk.Order.Bars.ruling {id : String} {caller : Caller} {order : Order} {v : Violation}
    (h : Bars id caller order v) (now : Moment) :
    ∃ rule, order.ruling? now = some ⟨id, caller, rule⟩ ∧
      ∀ t : Training, t.canceled = true → rule t = .error v := by
  cases h with
  | cancel => exact ⟨_, rfl, fun _ => Training.cancel_canceled⟩
  | reschedule newTime notes => exact ⟨_, rfl, fun _ => Training.rescheduleNoted_canceled⟩
  | request newTime notes => exact ⟨_, rfl, fun _ => Training.proposeNoted_canceled⟩
  | approve => exact ⟨_, rfl, fun _ => Training.whileActive_canceled⟩
  | reject => exact ⟨_, rfl, fun _ => Training.whileActive_canceled⟩

/-- A command whose rule is violated is refused for that, and changes nothing. -/
theorem Books.Ruled.refused {b b' : Books} {r : Ruling} {e : Ending Failure Unit}
    {t : Training} {v : Violation} (h : b.Ruled r e b') (ht : b.trainings r.id = some t)
    (hread : b.Reads t) (hsees : r.caller.sees t = true) (hrule : r.rule t = .error v) :
    (∃ f, e = .refused f ∧ f.violation? = some v) ∧ b' = b := by
  have same : ∀ {u : Training}, b.trainings r.id = some u → t = u := fun hu =>
    Option.some.inj (ht.symm.trans hu)
  cases h with
  | barred f hbar =>
      rw [hbar t ht hread] at hsees
      cases hsees
  | @violated u v' f hu hread' hsees' hrule' hf =>
      obtain rfl := same hu
      rw [hrule] at hrule'
      cases hrule'
      exact ⟨⟨f, rfl, hf⟩, rfl⟩
  | dropped hu hread' hsees' hrule' hkind htrainings he =>
      obtain rfl := same hu
      rw [hrule] at hrule'
      cases hrule'
  | filed hu hread' hsees' hrule' hkind htrainings =>
      obtain rfl := same hu
      rw [hrule] at hrule'
      cases hrule'

namespace Log

variable {window : BookingWindow} {log : List Entry} {w : World}

theorem evolves (h : Log window log w) :
    ∀ e ∈ log, e.before.books.Evolves w.store.books ∧ e.after.books.Evolves w.store.books := by
  refine (induction_files (P := fun log b => ∀ e ∈ log, e.before.books.Evolves b ∧
    e.after.books.Evolves b) (fun _ _ => List.forall_mem_nil _) (fun log e hfiles ih => ?_) h).2
  intro e' he'
  rcases List.mem_append.mp he' with he' | he'
  · obtain ⟨hbefore, hafter⟩ := ih e' he'
    exact ⟨hbefore.trans hfiles.evolves, hafter.trans hfiles.evolves⟩
  · obtain rfl := List.mem_singleton.mp he'
    exact ⟨hfiles.evolves, .of_trainings rfl⟩

theorem proper (h : Log window log w) :
    w.store.Sound ∧ ∀ id t, w.store.books.trainings id = some t → w.store.books.Proper t := by
  refine induction_files (P := fun _ b => ∀ id t, b.trainings id = some t → b.Proper t)
    (fun st hst id t ht => ?_) (fun _ e hfiles ih => hfiles.proper ih) h
  rw [hst.trainings] at ht
  cases ht

/-- **Trainings are kept, and canceled ones are frozen**: after any orders and calls from an empty
store, done or refused, every training that was ever stored is still there, with its identifier, its
owner and the name of the owner, and as it was once it was canceled; no notes are too long; and an
order on a canceled training by its owner or a trainer is refused because it is canceled, whenever it
comes, and changes nothing in the books. -/
theorem frozen (h : Log window log w) :
    (∀ e ∈ log, e.before.books.Evolves w.store.books ∧ e.after.books.Evolves w.store.books) ∧
    (∀ id t, w.store.books.trainings id = some t → t.notes.length ≤ 1000) ∧
    ∀ id t, w.store.books.trainings id = some t → t.canceled = true →
      ∀ caller : Caller, caller.id = t.owner ∨ caller.role = .trainer →
        ∀ order v, Desk.Order.Bars id caller order v → ∀ (watch : Watch) (now : Moment),
          let (e, w') := order.perform (.outer now window watch) w
          (∃ f, e = .refused f ∧ f.violation? = some v) ∧ w'.store.books = w.store.books := by
  obtain ⟨hsound, hproper⟩ := h.proper
  refine ⟨h.evolves, fun id t ht => (hproper id t ht).notes, ?_⟩
  intro id t ht hcanceled caller hcaller order v hbars watch now
  have hsees : caller.sees t = true := by
    rw [Caller.sees, Bool.or_eq_true, decide_eq_true_eq, decide_eq_true_eq]
    exact hcaller.symm
  have hread := (hproper id t ht).reads hcanceled
  obtain ⟨rule, hruling, hrule⟩ := hbars.ruling now
  have hmeets := Act.Meets.order_ruled (s := .outer now window watch) (b := w.store.books) hruling rfl
  obtain ⟨-, e, he, hruled⟩ := hmeets w hsound rfl
  obtain ⟨⟨f, rfl, hf⟩, hsame⟩ := hruled.refused ht hread hsees (hrule t hcanceled)
  exact ⟨⟨f, he, hf⟩, hsame⟩

open Sample in
/-- Ann asks to move her training to the afternoon and cancels it.  What Tess is asked then is refused,
the approval of the proposal that was never answered as well. -/
theorem frozen_ann :
    let afternoon : Moment := ⟨1893596400 * Moment.perSecond, 0⟩
    let made := Entry.makeAll .standard .bare [
      (newYear, .order (.createUser ann.id .attendee ann.name 1)),
      (newYear, .call (.makeHoursAvailable tess ⟨[noon.time]⟩)),
      (newYear, .call (.createTraining ann "1" noon)),
      (newYear, .order (.requestReschedule "1" afternoon "arms" ann)),
      (newYear, .order (.cancelTraining "1" ann))] (world (.tables (.empty 1)))
    made.2.store.books.trainings "1" = some ⟨"1", ann.id, ann.name,
      ⟨1893585600 * Moment.perSecond, 0⟩, "arms", true, some ⟨afternoon, .attendee⟩⟩ ∧
    (∀ e ∈ made.1, e.done = true ∧ e.after.books.Evolves made.2.store.books) ∧
    ∀ order v, Desk.Order.Bars "1" tess order v → ∀ (watch : Watch) (now : Moment),
      let (e, w') := order.perform (.outer now .standard watch) made.2
      (∃ f, e = .refused f ∧ f.violation? = some v) ∧
        w'.store.books = made.2.store.books := by
  intro afternoon made
  have hstored : made.2.store.books.trainings "1" = some ⟨"1", ann.id, ann.name,
      ⟨1893585600 * Moment.perSecond, 0⟩, "arms", true, some ⟨afternoon, .attendee⟩⟩ := by
    decide +kernel
  have hdone : ∀ e ∈ made.1, e.done = true := by decide +kernel
  have hlog : Log .standard made.1 made.2 := .of_empty (.tables 1) _
  obtain ⟨hevolves, -, hbars⟩ := frozen hlog
  refine ⟨hstored, fun e he => ⟨hdone e he, (hevolves e he).2⟩, ?_⟩
  exact hbars "1" _ hstored rfl tess (.inr rfl)

end Log

end TrainerBooking
