import TrainerBooking.Proofs.Bookings
import TrainerBooking.Proofs.Leftovers

/-! # Refunds

A call to cancel a training credits its owner before it releases the hour, and the credit stays where
the release fails.  For the leftover of a failed booking it may fail again and again.

* **Refunds.** A turn refunds a training (`Turn.Refunds`) if it is a call to cancel it, and the
  balance of the owner is greater afterwards.
* **Charges.** A turn charges for a training (`Turn.Charges`) if it creates it, and takes a credit
  from the owner.
* **Earned.** A created training is refunded only after a charge.  Unless it was robbed of its hour,
  the call is done and the refund is the first one but for those made while it was robbed
  (`Run.earned_or_unchanged`): a holder has its hour booked, so the release cannot fail, and a canceled
  training stays canceled. -/

namespace TrainerBooking

namespace Api.Call

/-- The training that the call cancels. -/
def cancels? : Call → Option String
  | cancelTraining _ id => some id
  | _ => none

theorem vacates?_of_cancels? {call : Call} {id : String} (h : call.cancels? = some id) :
    call.vacates? = some id := by
  cases call with
  | cancelTraining caller id' => exact h
  | _ => cases h

/-- A call to cancel a training changes nothing, or the training was active: then the call is done and
makes it canceled, or its hour was not booked. -/
theorem Outcome.canceled {now : Moment} {b b' : Books} {call : Call} {done : Bool} {id : String}
    (h : call.Outcome now b done b') (hcall : call.cancels? = some id) :
    b' = b ∨ ∃ t, b.trainings id = some t ∧ t.canceled = false ∧
      ((done = true ∧ ∃ t', b'.trainings id = some t' ∧ t'.canceled = true) ∨
        ¬ b.Booked t.time.second) := by
  cases h with
  | refused call => exact .inl rfl
  | edited done hcreates hvacates hcaller hrole h =>
      rw [vacates?_of_cancels? hcall] at hvacates
      cases hvacates
  | banked done hcreates hvacates h =>
      rw [vacates?_of_cancels? hcall] at hvacates
      cases hvacates
  | canceling h =>
      obtain rfl := Option.some.inj hcall
      cases h with
      | barred f hbar => exact .inl rfl
      | uncredited ht hsees hactive hmissing => exact .inl rfl
      | unreleased ht hsees hactive hcredit hbooked he =>
          exact .inr ⟨_, ht, hactive, .inr hbooked⟩
      | @canceled t c h ht hsees hactive hcredit hbooked hh =>
          refine .inr ⟨t, ht, hactive, .inl ⟨rfl, b.kept { t with canceled := true }, ?_, ?_⟩⟩
          · rw [Books.setTraining_trainings, if_pos rfl]
          · rw [Books.kept_canceled]
  | booking htime h => cases hcall
  | rescheduling htime h => cases hcall
  | approving h => cases hcall
  | requesting htime h => cases hcall
  | rejecting h => cases hcall

end Api.Call

namespace Turn

/-- Is the turn a call to cancel the training, and does the store show a greater balance for its
owner afterwards? -/
def Refunds (turn : Turn) (id : String) : Prop :=
  turn.call.cancels? = some id ∧ ∃ t ∈ turn.before.books.trainings id,
    ∃ a ∈ turn.before.books.accounts t.owner, ∃ a' ∈ turn.after.books.accounts t.owner,
      turn.before.books.shown a < turn.after.books.shown a'

instance (turn : Turn) (id : String) : Decidable (turn.Refunds id) := by
  unfold Refunds
  infer_instance

/-- Does the turn create the training, and take a credit from its owner?  Only a balance that is
beyond the integers of its column may stay the same. -/
def Charges (turn : Turn) (id owner : String) : Prop :=
  turn.created? = some id ∧ ∃ a ∈ turn.before.books.accounts owner,
    ∃ a' ∈ turn.after.books.accounts owner,
      turn.before.books.newBalance? a (-1) = some a'.balance ∧
        (a.balance ≤ Account.greatestBalance → a'.balance = a.balance - 1)

instance (turn : Turn) (id owner : String) : Decidable (turn.Charges id owner) := by
  unfold Charges
  infer_instance

/-- Was the owner charged for the training before the turn? -/
def Charged (turn : Turn) (earlier : List Turn) (id : String) : Prop :=
  ∀ t ∈ turn.before.books.trainings id, ∃ charge ∈ earlier, charge.Charges id t.owner

instance (turn : Turn) (earlier : List Turn) (id : String) :
    Decidable (turn.Charged earlier id) := by
  unfold Charged
  infer_instance

/-- Where the turn refunds the training, it is done, the owner was charged, and no turn before it
refunded the training, too. -/
def Earned (turn : Turn) (earlier : List Turn) (id : String) : Prop :=
  turn.Refunds id → turn.ending.isDone = true ∧ turn.Charged earlier id ∧
    ∀ other ∈ earlier, ¬ other.Refunds id

instance (turn : Turn) (earlier : List Turn) (id : String) : Decidable (turn.Earned earlier id) := by
  unfold Earned
  infer_instance

end Turn

/-- The training was refunded only while it was robbed of its hour. -/
def RefundedIfRobbed (id : String) (history : List Turn) : Prop :=
  Throughout (fun earlier turn => turn.Refunds id → robbed id earlier = true) history

/-! ### Charges -/

/-- What a call creates was not stored before, and its owner was charged. -/
theorem Api.Call.Outcome.charged {now : Moment} {b b' : Books} {call : Call} {done : Bool}
    {id : String} (h : call.Outcome now b done b') (hdone : done = true)
    (hcall : call.creates? = some id) :
    b.trainings id = none ∧ ∃ t a n, b'.trainings id = some t ∧ b.accounts t.owner = some a ∧
      b.newBalance? a (-1) = some n ∧ b'.accounts t.owner = some { a with balance := n } := by
  cases h with
  | refused call => cases hdone
  | edited done hcreates hvacates hcaller hrole h =>
      rw [hcreates] at hcall
      cases hcall
  | banked done hcreates hvacates h =>
      rw [hcreates] at hcall
      cases hcall
  | canceling h => cases hcall
  | rescheduling htime h => cases hcall
  | approving h => cases hcall
  | requesting htime h => cases hcall
  | rejecting h => cases hcall
  | @booking caller fresh r time e b' htime h =>
      obtain rfl := Option.some.inj hcall
      cases h with
      | refused f => cases hdone
      | unpaid f hfree => cases hdone
      | unbooked hfree ha hn he =>
          rw [he] at hdone
          cases hdone
      | @booked a n hour hfree ha hn hopen hh =>
          refine ⟨hfree, b.kept ⟨fresh, caller.id, caller.name, time, r.notes, false, none⟩, a, n,
            ?_, ?_, hn, ?_⟩
          · rw [Books.setHour_trainings, Books.setAccount_trainings, Books.setTraining_trainings,
              if_pos rfl]
          · rw [Books.kept_owner]
            exact ha
          · rw [Books.kept_owner, Books.setHour_accounts, Books.setAccount_accounts, if_pos rfl]

theorem Turn.Outcome.charges {turn : Turn} {id : String} (h : turn.Outcome)
    (hsound : turn.before.Sound) (hid : turn.created? = some id) :
    turn.before.books.trainings id = none ∧
      ∃ t, turn.after.books.trainings id = some t ∧ turn.Charges id t.owner := by
  obtain ⟨hdone, hcreates⟩ := created?_eq_some hid
  obtain ⟨hfree, t, a, n, ht, ha, hn, ha'⟩ := Api.Call.Outcome.charged h hdone hcreates
  refine ⟨hfree, t, ht, hid, a, ha, { a with balance := n }, ha', hn, fun hle => ?_⟩
  exact Books.newBalance?_charge (hsound.balance_nonneg ha) hle hn

/-! ### Runs -/

/-- What is known of refunds: the trainings are still stored, a created one that is active was
refunded only while it was robbed, and for each created one its owner was charged. -/
structure Books.Settled (b : Books) (history : List Turn) : Prop where
  stored : ∀ turn ∈ history, ∀ id, turn.Refunds id → (b.trainings id).isSome
  active : ∀ id ∈ created history, ∀ t ∈ b.trainings id, t.canceled = false →
    RefundedIfRobbed id history
  charged : ∀ id ∈ created history, ∀ t ∈ b.trainings id,
    ∃ charge ∈ history, charge.Charges id t.owner

theorem throughout_of_forall {P : List Turn → Turn → Prop} {history : List Turn}
    (h : ∀ turn ∈ history, ∀ earlier, P earlier turn) : Throughout P history :=
  fun _ turn hn => h turn (List.mem_of_getElem? hn) _

namespace Turn

variable {turn : Turn} {earlier : List Turn} {id : String}

theorem Refunds.stored (h : turn.Refunds id) : (turn.before.books.trainings id).isSome := by
  obtain ⟨-, t, ht, -⟩ := h
  rw [ht]
  rfl

/-- What is refunded was active, and is canceled by a call that is done, unless its hour was not
booked. -/
theorem Outcome.refunds (h : turn.Outcome) (hrefunds : turn.Refunds id) :
    ∃ t, turn.before.books.trainings id = some t ∧ t.canceled = false ∧
      ((turn.ending.isDone = true ∧
          ∃ t', turn.after.books.trainings id = some t' ∧ t'.canceled = true) ∨
        ¬ turn.before.books.Booked t.time.second) := by
  obtain ⟨hcall, t, ht, a, ha, a', ha', hlt⟩ := hrefunds
  refine (Api.Call.Outcome.canceled h hcall).resolve_left fun hsame => ?_
  rw [hsame] at ha' hlt
  obtain rfl : a = a' := Option.some.inj (ha.symm.trans ha')
  omega

/-- A holder is refunded by a call that cancels it and is done. -/
theorem Outcome.refunds_holder (h : turn.Outcome)
    (hsec : turn.before.books.Secure (· ∈ holders earlier)) (hid : id ∈ holders earlier)
    (hrefunds : turn.Refunds id) :
    turn.ending.isDone = true ∧
      ∃ t', turn.after.books.trainings id = some t' ∧ t'.canceled = true := by
  obtain ⟨t, ht, hactive, hends⟩ := h.refunds hrefunds
  exact hends.resolve_right fun hno => hno (hsec.booked hid ⟨t, ht, hactive, rfl⟩)

theorem Outcome.settled (h : turn.Outcome) (hsound : turn.before.Sound)
    (hstored : ∀ id ∈ created earlier, (turn.before.books.trainings id).isSome)
    (hsec : turn.before.books.Secure (· ∈ holders earlier))
    (hset : turn.before.books.Settled earlier) : turn.after.books.Settled (earlier ++ [turn]) := by
  have hretains := Api.Call.Outcome.retains h
  have hbefore : ∀ t ∈ earlier ++ [turn], ∀ id, t.Refunds id →
      (turn.before.books.trainings id).isSome := by
    intro t ht id hrefunds
    rcases List.mem_append.mp ht with ht | ht
    · exact hset.stored t ht id hrefunds
    · obtain rfl := List.mem_singleton.mp ht
      exact hrefunds.stored
  refine ⟨fun t ht id hrefunds => hretains.stored (hbefore t ht id hrefunds),
    fun id hid t' ht' hactive' => ?_, fun id hid t ht => ?_⟩
  · rcases mem_created_append.mp hid with hold | hnew
    · obtain ⟨t, ht⟩ := Option.isSome_iff_exists.mp (hstored id hold)
      obtain ⟨u, hu, -, hcanceled⟩ := hretains id t ht
      obtain rfl : t' = u := Option.some.inj (ht'.symm.trans hu)
      have hactive : t.canceled = false := Bool.eq_false_iff.mpr fun hc =>
        Bool.eq_false_iff.mp hactive' (hcanceled hc)
      refine throughout_append.mpr ⟨hset.active id hold t ht hactive, fun hrefunds => ?_⟩
      -- A holder that is refunded is canceled, and this one is active.
      by_contra hrobbed
      have hholds : id ∈ holders earlier := mem_holders.mpr ⟨hold, Bool.eq_false_iff.mpr hrobbed⟩
      obtain ⟨-, v, hv, hgone⟩ := h.refunds_holder hsec hholds hrefunds
      obtain rfl : t' = v := Option.some.inj (ht'.symm.trans hv)
      exact Bool.eq_false_iff.mp hactive' hgone
    · -- What is new was not stored, so it was not refunded.
      refine throughout_of_forall fun t ht _ hrefunds => ?_
      have hold := hbefore t ht id hrefunds
      rw [(h.charges hsound hnew).1] at hold
      cases hold
  · rcases mem_created_append.mp hid with hold | hnew
    · obtain ⟨u, hu⟩ := Option.isSome_iff_exists.mp (hstored id hold)
      obtain ⟨u', hu', howner, -⟩ := hretains id u hu
      obtain rfl : t = u' := Option.some.inj (ht.symm.trans hu')
      obtain ⟨charge, hcharge, hcharges⟩ := hset.charged id hold u hu
      rw [howner]
      exact ⟨charge, List.mem_append_left _ hcharge, hcharges⟩
    · obtain ⟨-, u, hu, hcharges⟩ := h.charges hsound hnew
      obtain rfl : t = u := Option.some.inj (ht.symm.trans hu)
      exact ⟨turn, List.mem_append_right _ List.mem_cons_self, hcharges⟩

/-- What may be said of a call to cancel a created training: a refund comes after a charge, and every
earlier one was made while the training was robbed; and if it is not robbed now, the call is done if
it refunds, and changes no account if it is not done. -/
structure Repays (turn : Turn) (earlier : List Turn) (id : String) : Prop where
  charged : turn.Refunds id → turn.Charged earlier id
  once : turn.Refunds id → RefundedIfRobbed id earlier
  done : robbed id earlier = false → turn.Refunds id → turn.ending.isDone = true
  unchanged : robbed id earlier = false → turn.ending.isDone = false →
    turn.after.books.accounts = turn.before.books.accounts

theorem Outcome.repays (h : turn.Outcome) (hsec : turn.before.books.Secure (· ∈ holders earlier))
    (hset : turn.before.books.Settled earlier) (hid : id ∈ created earlier)
    (hcall : turn.call.cancels? = some id) : turn.Repays earlier id where
  charged _ := hset.charged id hid
  once hrefunds := by
    obtain ⟨t, ht, hactive, -⟩ := h.refunds hrefunds
    exact hset.active id hid t ht hactive
  done hrobbed hrefunds := (h.refunds_holder hsec (mem_holders.mpr ⟨hid, hrobbed⟩) hrefunds).1
  unchanged hrobbed hnot := by
    rcases Api.Call.Outcome.canceled h hcall with hsame | ⟨t, ht, hactive, ⟨hdone, -⟩ | hno⟩
    · exact congrArg Books.accounts hsame
    · rw [hdone] at hnot
      cases hnot
    · exact absurd (hsec.booked (mem_holders.mpr ⟨hid, hrobbed⟩) ⟨t, ht, hactive, rfl⟩) hno

end Turn

namespace Run

variable {window : BookingWindow} {watch : Watch} {history : List Turn} {w : World}

theorem settled (h : Run window watch history w) : w.store.books.Settled history := by
  induction h with
  | start h =>
      refine ⟨fun id hid => ?_, fun id hid => ?_, fun id hid => ?_⟩
      · cases hid
      · cases hid
      · cases hid
  | @next history w h now call ih =>
      have hturn : (Turn.make window watch now call w).1.Outcome :=
        (Turn.make_outcome now call h.sound).2
      exact hturn.settled h.sound h.holders_secure.1 h.holders_secure.2 ih

/-- **Refunds are earned**: in every run, a call to cancel a created training refunds it only after a
charge, and, unless the training was robbed of its hour, only if the call is done and it is the first
refund but for those made while it was robbed; a call that fails then changes no account. -/
theorem earned_or_unchanged (h : Run window watch history w) :
    Throughout (fun earlier turn => ∀ id ∈ created earlier, turn.call.cancels? = some id →
      turn.Repays earlier id) history := by
  induction h with
  | start h => exact throughout_nil
  | @next history w h now call ih =>
      refine throughout_append.mpr ⟨ih, fun id hid hcall => ?_⟩
      exact Turn.Outcome.repays (Turn.make_outcome now call h.sound).2 h.holders_secure.2 h.settled
        hid hcall

open Sample in
/-- Ann books noon and one o'clock, and Bob gives up what his failed booking left at noon.  Her call to
cancel noon, of which she was robbed, refunds her and fails; the one for one o'clock is done. -/
theorem earned_or_unchanged_ann :
    let oneOClock : TrainingRequest := ⟨"2030-01-02T13:00:00Z", ""⟩
    let played := play [.makeHoursAvailable tess ⟨[oneOClock.time]⟩,
      .changeBalance tess ann.id ⟨1⟩, .createTraining ann "1" noon, .createTraining ann "3" oneOClock,
      .createTraining bob "2" noon, .cancelTraining bob "2", .cancelTraining ann "1",
      .cancelTraining ann "3"]
    holders played.1 = ["3"] ∧
      (played.1.map fun turn => (turn.ending.isDone, decide (turn.Refunds "1"),
        decide (turn.Refunds "3"))).drop 8 = [(true, false, false), (false, true, false),
          (true, false, true)] ∧
      Throughout (fun earlier turn => ∀ id ∈ created earlier, turn.call.cancels? = some id →
        turn.Repays earlier id) played.1 := by
  refine ⟨by decide +kernel, by decide +kernel, ?_⟩
  exact earned_or_unchanged (run _)

open Sample in
/-- Three refunds that were not earned.  Bob fails to book an hour that is not open, without paying,
and is refunded by each of two failed calls to cancel.  After Bob gave up what his failed booking
left at Ann's hour, she is refunded by a call that fails.  Ann books when her balance is beyond the
integers of its column, which takes nothing from it, and is refunded once it is below. -/
theorem not_earned :
    (let played := play [.createTraining bob "1" ⟨"2030-01-02T13:00:00Z", ""⟩,
      .createTraining bob "2" ⟨"2030-01-02T13:00:00Z", ""⟩,
      .cancelTraining bob "2", .cancelTraining bob "2"]
     Run .standard .bare played.1 played.2 ∧
      (played.1.map fun turn => (turn.ending.isDone, decide (turn.Refunds "2"))) =
        [(true, false), (true, false), (true, false), (false, false), (false, false),
          (false, true), (false, true)] ∧
      (¬ ∃ turn ∈ played.1, turn.Charges "2" bob.id) ∧
      ¬ Throughout (fun earlier turn => ∀ id ∈ turn.call.cancels?, turn.Earned earlier id)
        played.1) ∧
    (let played := play [.createTraining ann "1" noon, .createTraining bob "2" noon,
      .cancelTraining bob "2", .cancelTraining ann "1"]
     Run .standard .bare played.1 played.2 ∧
      ∃ turn ∈ played.1, turn.Refunds "1" ∧ turn.ending.isDone = false) ∧
    (let played := playOn (.tables (.empty 1)) [
      .changeBalance tess ann.id ⟨9223372036854775807⟩, .createTraining ann "1" noon,
      .changeBalance tess ann.id ⟨-4611686018427387904⟩, .cancelTraining ann "1"]
     Run .standard .bare played.1 played.2 ∧ (∃ turn ∈ played.1, turn.Refunds "1") ∧
      ∃ turn ∈ played.1, turn.created? = some "1" ∧
        turn.after.books.accounts ann.id = turn.before.books.accounts ann.id) := by
  refine ⟨⟨run _, ?_, ?_, ?_⟩, ⟨run _, ?_⟩, runOn (.tables 1) _, ?_, ?_⟩ <;> decide +kernel

end Run

end TrainerBooking
