import TrainerBooking.Proofs.Occupancy

/-! # Leftovers of failed bookings

A call that fails to create a training may still have stored it.  Such a leftover is active at an
hour that may be somebody else's, and an hour does not know whose it is: giving up the leftover
releases the hour of the other one.

* **Created.** `created` lists the trainings whose calls were done.
* **Robbing.** A turn robs a training of its hour (`Turn.Robs`) if it gives up another one that is
  active there.  The history tells whether a training was robbed since it came to its hour (`robbed`),
  and the created trainings that were not are the `holders` of their hours.
* **Secure.** Holders have their hours booked, each its own (`Run.holders_secure`).  So no other
  attendee has a call that changes these hours but by robbing the holder, and only those rob a holder
  who give up a leftover, or a training that was itself robbed (`Run.spares_and_alone`). -/

namespace TrainerBooking

/-- The training that the turn created, if it was done. -/
def Turn.created? (turn : Turn) : Option String :=
  if turn.ending.isDone then turn.call.creates? else none

/-- The trainings whose creation was done. -/
def created (history : List Turn) : List String := history.filterMap Turn.created?

/-- What is created after the turn was created before it, or by it. -/
theorem mem_created_append {history : List Turn} {turn : Turn} {id : String} :
    id ∈ created (history ++ [turn]) ↔ id ∈ created history ∨ turn.created? = some id := by
  cases h : turn.created? <;> simp [created, h, eq_comm]

theorem Turn.created?_eq_some {turn : Turn} {id : String} (h : turn.created? = some id) :
    turn.ending.isDone = true ∧ turn.call.creates? = some id := by
  unfold created? at h
  split at h
  · next hdone => exact ⟨hdone, h⟩
  · cases h

namespace Turn

/-- Does the turn give up another training at the hour of this one? -/
def Robs (turn : Turn) (id : String) : Prop :=
  turn.ending.isDone = true ∧
    ∃ gone ∈ turn.call.vacates?, gone ≠ id ∧ turn.before.books.Share gone id

instance (turn : Turn) (id : String) : Decidable (turn.Robs id) := by
  unfold Robs
  infer_instance

/-- Is the training stored at the same hour before and after the turn? -/
def Stays (turn : Turn) (id : String) : Prop :=
  ∃ t ∈ turn.before.books.trainings id, ∃ t' ∈ turn.after.books.trainings id,
    t'.time.second = t.time.second

instance (turn : Turn) (id : String) : Decidable (turn.Stays id) := by
  unfold Stays
  infer_instance

end Turn

/-- Was the training robbed of its hour, and has it been there since? -/
def robbed (id : String) (history : List Turn) : Bool :=
  history.foldl (fun lost turn => decide (turn.Robs id) || lost && decide (turn.Stays id)) false

theorem robbed_append (id : String) (history : List Turn) (turn : Turn) :
    robbed id (history ++ [turn]) =
      (decide (turn.Robs id) || robbed id history && decide (turn.Stays id)) := by
  rw [robbed, List.foldl_append]
  rfl

/-- The created trainings that were not robbed of the hours where they are. -/
def holders (history : List Turn) : List String :=
  (created history).filter fun id => !robbed id history

theorem mem_holders {history : List Turn} {id : String} :
    id ∈ holders history ↔ id ∈ created history ∧ robbed id history = false := by
  simp [holders]

/-- Who holds an hour after a turn was not robbed by it, and held the hour before it, if the hour is
the same. -/
theorem mem_holders_append {history : List Turn} {turn : Turn} {id : String}
    (h : id ∈ holders (history ++ [turn])) :
    (id ∈ created history ∨ turn.created? = some id) ∧ ¬ turn.Robs id ∧
      (turn.Stays id → robbed id history = false) := by
  obtain ⟨hcreated, hrobbed⟩ := mem_holders.mp h
  rw [robbed_append, Bool.or_eq_false_iff, decide_eq_false_iff_not] at hrobbed
  refine ⟨mem_created_append.mp hcreated, hrobbed.1, fun hstays => ?_⟩
  rw [decide_eq_true hstays, Bool.and_true] at hrobbed
  exact hrobbed.2

/-! ### Holders -/

namespace Turn

variable {turn : Turn} {earlier : List Turn} {id : String}

/-- The hour of the training is as it was, unless the caller is a trainer or the owner. -/
def Spares (turn : Turn) (id : String) : Prop :=
  ∀ caller ∈ turn.call.caller?, caller.role = .attendee →
    ∀ t ∈ turn.before.books.trainings id, t.canceled = false → caller.id ≠ t.owner →
      turn.after.books.availability? t.time.second = turn.before.books.availability? t.time.second

instance (turn : Turn) (id : String) : Decidable (turn.Spares id) := by
  unfold Spares
  infer_instance

theorem not_share_of_not_robs (h : ¬ turn.Robs id) (hdone : turn.ending.isDone = true) {gone : String}
    (hgone : turn.call.vacates? = some gone) (hne : id ≠ gone) :
    ¬ turn.before.books.Share gone id :=
  fun hshare => h ⟨hdone, gone, hgone, hne.symm, hshare⟩

theorem stays_of_occupies {s : Int} (h : turn.before.books.Occupies id s)
    (h' : turn.after.books.Occupies id s) : turn.Stays id := by
  obtain ⟨t, ht, -, hs⟩ := h
  obtain ⟨t', ht', -, hs'⟩ := h'
  exact ⟨t, ht, t', ht', hs'.trans hs.symm⟩

/-- Nobody else's call changes the hour of a secure training, unless it robs it. -/
theorem Outcome.spares {P : String → Prop} (h : turn.Outcome) (hsec : turn.before.books.Secure P)
    (hid : P id) (hclean : ¬ turn.Robs id) : turn.Spares id := by
  intro caller hcaller hrole t ht hactive howner
  have hocc : turn.before.books.Occupies id t.time.second := ⟨t, ht, hactive, rfl⟩
  have hsees : ¬ turn.call.Sees turn.before.books id := by
    rintro ⟨caller', t', hcaller', ht', hsees⟩
    obtain rfl : caller = caller' := Option.some.inj (hcaller.symm.trans hcaller')
    obtain rfl : t = t' := Option.some.inj (ht.symm.trans ht')
    rw [Caller.sees, Bool.or_eq_true, decide_eq_true_eq, decide_eq_true_eq, hrole] at hsees
    exact hsees.elim nofun howner
  have hafter := (Api.Call.Outcome.shift h).booked hsec hid hocc hsees
    fun hdone gone hgone hne => not_share_of_not_robs hclean hdone hgone hne
  have hbefore := hsec.booked hid hocc
  exact hafter.trans hbefore.symm

/-- Holders stay secure: who is not robbed either stays at an hour of its own, or comes to one that
was not booked. -/
theorem Outcome.secure (h : turn.Outcome)
    (hstored : ∀ id ∈ created earlier, (turn.before.books.trainings id).isSome)
    (hsec : turn.before.books.Secure (· ∈ holders earlier)) :
    turn.after.books.Secure (· ∈ holders (earlier ++ [turn])) := by
  have hshift := Api.Call.Outcome.shift h
  refine hshift.secure hsec (fun id hid => ?_) (fun id s hid hocc hocc' => ?_)
    (Api.Call.Outcome.retains h) fun hdone gone hgone id hid hne => ?_
  · exact (mem_holders_append hid).1.imp (hstored id) created?_eq_some
  · obtain ⟨hcreated, -, hrobbed⟩ := mem_holders_append hid
    refine mem_holders.mpr ⟨hcreated.resolve_right fun hnew => ?_,
      hrobbed (stays_of_occupies hocc hocc')⟩
    obtain ⟨hdone, hcreates⟩ := created?_eq_some hnew
    exact Books.not_occupies_of_free (hshift.created hdone hcreates).1 s hocc
  · exact not_share_of_not_robs (mem_holders_append hid).2.1 hdone hgone hne

end Turn

namespace Run

variable {window : BookingWindow} {watch : Watch} {history : List Turn} {w : World}

/-- Created trainings are stored, and holders are secure. -/
theorem holders_secure (h : Run window watch history w) :
    (∀ id ∈ created history, (w.store.books.trainings id).isSome) ∧
      w.store.books.Secure (· ∈ holders history) := by
  refine h.induction_books (P := fun history b =>
    (∀ id ∈ created history, (b.trainings id).isSome) ∧ b.Secure (· ∈ holders history))
    (fun st hst => ⟨nofun, .nobody fun _ => List.not_mem_nil⟩) fun history turn _ hturn ih => ?_
  obtain ⟨hstored, hsec⟩ := ih
  refine ⟨fun id hid => ?_, hturn.secure hstored hsec⟩
  rcases mem_created_append.mp hid with hold | hnew
  · exact (Api.Call.Outcome.retains hturn).stored (hstored id hold)
  · obtain ⟨hdone, hcreates⟩ := Turn.created?_eq_some hnew
    exact ((Api.Call.Outcome.shift hturn).created hdone hcreates).2

/-- No two holders are active at one hour. -/
theorem holders_alone (h : Run window watch history w) {id id' : String} (hid : id ∈ holders history)
    (hid' : id' ∈ holders history) (hshare : w.store.books.Share id id') : id = id' := by
  obtain ⟨s, hocc, hocc'⟩ := hshare.occupies
  exact h.holders_secure.2.alone hid hid' hocc hocc'

/-- **Holders are spared**: in every run, no other attendee has a call that changes the hour of a holder
without robbing it, what is given up by a call that robs a holder is no holder, and no two holders
are active at one hour. -/
theorem spares_and_alone (h : Run window watch history w) :
    Throughout (fun earlier turn => ∀ id ∈ holders earlier, (¬ turn.Robs id → turn.Spares id) ∧
      (turn.Robs id → ∀ gone ∈ turn.call.vacates?, gone ∉ holders earlier)) history ∧
    ∀ id ∈ holders history, ∀ id' ∈ holders history,
      w.store.books.Share id id' → id = id' := by
  refine ⟨?_, fun id hid id' hid' hshare => h.holders_alone hid hid' hshare⟩
  induction h with
  | start h => exact throughout_nil
  | @next history w h now call ih =>
      refine throughout_append.mpr ⟨ih, fun id hid => ⟨fun hclean => ?_, ?_⟩⟩
      · exact Turn.Outcome.spares (Turn.make_outcome now call h.sound).2 h.holders_secure.2 hid hclean
      · rintro ⟨-, gone', hgone', hne, hshare⟩ gone hgone hgone''
        obtain rfl : gone = gone' := Option.some.inj (Eq.trans hgone.symm hgone')
        exact hne (h.holders_alone hgone'' hid hshare)

open Sample in
/-- Bob gives up what his failed booking left at Ann's hour, which robs her, and books that hour himself;
then he holds it. -/
theorem spares_and_alone_bob :
    let played := play [.createTraining ann "1" noon, .createTraining bob "2" noon,
      .cancelTraining bob "2", .createTraining bob "3" noon]
    created played.1 = ["1", "3"] ∧ holders played.1 = ["3"] ∧
      (played.1.map fun turn => decide (turn.Robs "1")) =
        [false, false, false, false, false, true, false] ∧
      (Throughout (fun earlier turn => ∀ id ∈ holders earlier, (¬ turn.Robs id → turn.Spares id) ∧
        (turn.Robs id → ∀ gone ∈ turn.call.vacates?, gone ∉ holders earlier)) played.1 ∧
      ∀ id ∈ holders played.1, ∀ id' ∈ holders played.1,
        played.2.store.books.Share id id' → id = id') := by
  refine ⟨by decide +kernel, by decide +kernel, by decide +kernel, ?_⟩
  exact spares_and_alone (run _)

open Sample in
/-- So created trainings are not all spared, and two of them can be active at one hour. -/
theorem not_spares_and_alone :
    let played := play [.createTraining ann "1" noon, .createTraining bob "2" noon,
      .cancelTraining bob "2", .createTraining bob "3" noon]
    Run .standard .bare played.1 played.2 ∧
      ¬ Throughout (fun earlier turn => ∀ id ∈ created earlier, turn.Spares id) played.1 ∧
      ¬ ∀ id ∈ created played.1, ∀ id' ∈ created played.1,
          played.2.store.books.Share id id' → id = id' := by
  refine ⟨run _, ?_, ?_⟩ <;> decide +kernel

end Run

end TrainerBooking
