import TrainerBooking.Proofs.Updates

/-! # What an attendee can touch

Whatever an attendee asks of the API, refused or not, touches nothing but what is theirs.

* **Sparing.** `Books.Spares` says that every training that was changed or made belongs to the owner,
  and that of all accounts only the balance and the address of the owner's may have changed.
* **Rebooking.** `Books.Rebooks` says that hours were booked or released at most: none was added,
  removed, opened or closed.
* **Touching.** `Books.TouchedBy` is both together.  It holds of every call by the owner in every state
  that a run of calls reaches (`Run.touched`).

The check of the role stands before what only trainers may do, and the check of sight before every
change of a stored training; an attendee sees only the trainings they own. -/

namespace TrainerBooking

theorem Caller.owner_of_sees {caller : Caller} {t : Training} (h : caller.sees t = true)
    (hrole : caller.role = .attendee) : t.owner = caller.id := by
  simp only [sees, hrole, reduceCtorEq, decide_false, Bool.false_or, decide_eq_true_eq] at h
  exact h.symm

/-! ### Hours -/

/-- The hour stays as it was, or it was booked, or released. -/
inductive Hour.Rebooked : Option Hour → Option Hour → Prop
  | same (h? : Option Hour) : Rebooked h? h?
  | booked (time : Moment) : Rebooked (some ⟨time, .available⟩) (some ⟨time, .trainingScheduled⟩)
  | released (time : Moment) : Rebooked (some ⟨time, .trainingScheduled⟩) (some ⟨time, .available⟩)

theorem Hour.Rebooked.trans {h? h₁? h₂? : Option Hour} (h : Rebooked h? h₁?)
    (h' : Rebooked h₁? h₂?) : Rebooked h? h₂? := by
  cases h with
  | same => exact h'
  | booked time =>
      cases h' with
      | same => exact .booked time
      | released => exact .same _
  | released time =>
      cases h' with
      | same => exact .released time
      | booked => exact .same _

namespace Books

variable {b b' b'' : Books}

/-- Hours were booked or released, and nothing else happened to any of them. -/
def Rebooks (b b' : Books) : Prop := ∀ second, Hour.Rebooked (b.hours second) (b'.hours second)

theorem Worked.rebooks {window : BookingWindow} {now : Moment} {us : List HourUpdate}
    (h : Worked window now b us b') (hus : ∀ u ∈ us, ¬ u.step.Edits) : b.Rebooks b' := by
  intro second
  induction h with
  | rest hhours hkind =>
      rw [hhours]
      exact .same _
  | @step b b' u us h hwrites hrest ih =>
      refine Hour.Rebooked.trans ?_ (ih fun v hv => hus v (List.mem_cons_of_mem _ hv))
      have hstep := hus u List.mem_cons_self
      rw [setHour_hours]
      split
      · next hsecond =>
          subst hsecond
          cases hwrites with
          | opened hnone hopen hcheck =>
              rw [hopen] at hstep
              exact absurd trivial hstep
          | @stepped h hold hfrom =>
              obtain ⟨time, a⟩ := h
              rw [hold]
              cases hu : u.step with
              | makeAvailable =>
                  rw [hu] at hstep
                  exact absurd trivial hstep
              | makeNotAvailable =>
                  rw [hu] at hstep
                  exact absurd trivial hstep
              | scheduleTraining =>
                  rw [hu] at hfrom
                  obtain rfl : a = .available := hfrom
                  exact .booked time
              | cancelTraining =>
                  rw [hu] at hfrom
                  obtain rfl : a = .trainingScheduled := hfrom
                  exact .released time
      · exact .same _

/-! ### Trainings and accounts -/

/-- Apart from hours, nothing has changed but what belongs to the owner. -/
structure Spares (owner : String) (b b' : Books) : Prop where
  /-- Trainings of others are left alone. -/
  foreign : ∀ id t, b.trainings id = some t → t.owner ≠ owner → b'.trainings id = some t
  /-- What is new or changed is a training of the owner. -/
  own : ∀ id t, b'.trainings id = some t → b.trainings id = some t ∨ t.owner = owner
  /-- Accounts of others are left alone. -/
  others : ∀ id, id ≠ owner → b'.accounts id = b.accounts id
  /-- The account of the owner changes in its balance and its address only. -/
  account : b'.accounts owner = b.accounts owner ∨ ∃ a balance lastIp, b.accounts owner = some a ∧
    b'.accounts owner = some { a with balance := balance, lastIp := lastIp }

/-- Nothing has changed but what belongs to the owner, and hours that were booked or released. -/
structure TouchedBy (owner : String) (b b' : Books) : Prop extends Spares owner b b' where
  hours : b.Rebooks b'

namespace Spares

variable {owner : String}

theorem of_same (htrainings : b'.trainings = b.trainings) (haccounts : b'.accounts = b.accounts) :
    Spares owner b b' := by
  refine ⟨fun id t ht _ => ?_, fun id t ht => .inl ?_, fun id _ => ?_, .inl ?_⟩
  · rw [htrainings, ht]
  · rw [← htrainings, ht]
  · rw [haccounts]
  · rw [haccounts]

theorem refl (b : Books) : Spares owner b b := of_same rfl rfl

theorem trans (h : Spares owner b b') (h' : Spares owner b' b'') : Spares owner b b'' := by
  refine ⟨fun id t ht hne => h'.foreign id t (h.foreign id t ht hne) hne, fun id t ht => ?_,
    fun id hid => (h'.others id hid).trans (h.others id hid), ?_⟩
  · rcases h'.own id t ht with hmid | howner
    · exact h.own id t hmid
    · exact .inr howner
  · rcases h.account with hsame | ⟨a, balance, lastIp, ha, hb'⟩
    · rcases h'.account with hsame' | ⟨a, balance, lastIp, ha, hb''⟩
      · exact .inl (hsame'.trans hsame)
      · exact .inr ⟨a, balance, lastIp, hsame ▸ ha, hb''⟩
    · rcases h'.account with hsame' | ⟨a', balance', lastIp', ha', hb''⟩
      · exact .inr ⟨a, balance, lastIp, ha, hsame'.trans hb'⟩
      · rw [hb'] at ha'
        obtain rfl := Option.some.inj ha'
        exact .inr ⟨a, balance', lastIp', ha, hb''⟩

/-- A training of the owner is filed where there was none, or another one of theirs. -/
theorem setTraining {id : String} {t : Training} (howner : t.owner = owner)
    (hold : ∀ t', b.trainings id = some t' → t'.owner = owner) :
    Spares owner b (b.setTraining id t) := by
  refine ⟨fun id' t' ht' hne => ?_, fun id' t' ht' => ?_, fun _ _ => rfl, .inl rfl⟩
  · rw [setTraining_trainings, if_neg]
    · exact ht'
    · rintro rfl
      exact hne (hold t' ht')
  · rw [setTraining_trainings] at ht'
    split at ht'
    · obtain rfl := Option.some.inj ht'
      exact .inr howner
    · exact .inl ht'

theorem setAccount {a : Account} (balance : Int) (lastIp : Option String)
    (ha : b.accounts owner = some a) :
    Spares owner b (b.setAccount owner { a with balance := balance, lastIp := lastIp }) := by
  refine ⟨fun _ _ ht _ => ht, fun _ _ ht => .inl ht, fun id hid => ?_, .inr ⟨a, balance, lastIp, ha, ?_⟩⟩
  · rw [setAccount_accounts, if_neg hid]
  · rw [setAccount_accounts, if_pos rfl]

theorem setHour (second : Int) (h : Hour) : Spares owner b (b.setHour second h) := of_same rfl rfl

end Spares

/-! ### The commands on trainings -/

variable {caller : Caller} {id : String} {now : Moment} {e : Ending Failure Unit}
variable {change : Training → Training → Prop}

theorem Booking.spares {t : Training} (h : b.Booking t e b') : b.Spares t.owner b' := by
  have hfile : b.trainings t.id = none → b.Spares t.owner (b.setTraining t.id (b.kept t)) := by
    intro hfree
    refine .setTraining (kept_owner b t) fun t' ht' => ?_
    rw [hfree] at ht'
    cases ht'
  cases h with
  | refused f => exact .refl b
  | unpaid f hfree => exact hfile hfree
  | @unbooked a n e hfree ha hn he => exact (hfile hfree).trans (.setAccount n a.lastIp ha)
  | @booked a n h hfree ha hn hopen hh =>
      exact ((hfile hfree).trans (.setAccount n a.lastIp ha)).trans (.setHour _ h)

theorem Credited.spares {owner : String} {credit : Int} (h : b.Credited owner credit b') :
    b.Spares owner b' := by
  cases h with
  | nothing => exact .refl b
  | @paid a credit n hcredit ha hn => exact .setAccount n a.lastIp ha

/-- Filing anew what the caller owns spares the rest. -/
theorem Spares.refile {t t' : Training} (hspares : b.Spares caller.id b')
    (ht : b.trainings id = some t) (hsees : caller.sees t = true)
    (hrole : caller.role = .attendee) (htrainings : b'.trainings = b.trainings)
    (howner : t'.owner = t.owner) : b.Spares caller.id (b'.setTraining id t') := by
  have hown := Caller.owner_of_sees hsees hrole
  refine hspares.trans (.setTraining (howner.trans hown) fun u hu => ?_)
  rw [htrainings, ht] at hu
  obtain rfl := Option.some.inj hu
  exact hown

theorem Canceling.spares (h : b.Canceling id caller now e b') (hrole : caller.role = .attendee) :
    b.Spares caller.id b' := by
  cases h with
  | barred f hbar => exact .refl b
  | uncredited ht hsees hactive hmissing => exact .refl b
  | unreleased ht hsees hactive hcredit hbooked he =>
      rw [← Caller.owner_of_sees hsees hrole]
      exact hcredit.spares
  | @canceled t c h ht hsees hactive hcredit hbooked hh =>
      have hcredited := hcredit.spares
      rw [Caller.owner_of_sees hsees hrole] at hcredited
      refine (hcredited.trans (.setHour _ h)).refile ht hsees hrole ?_ (kept_owner b _)
      exact hcredit.trainings

theorem Moving.spares (h : b.Moving id caller change e b') (hrole : caller.role = .attendee) :
    b.Spares caller.id b' := by
  cases h with
  | refused hf => exact .refl b
  | crashed => exact .refl b
  | @unreleased t t' h e ht hsees hactive hkeeps hchange hopen hh hbooked he => exact .setHour _ h
  | @moved t t' h h' ht hsees hactive hkeeps hchange hopen hh hbooked hh' =>
      refine ((Spares.setHour _ h).trans (.setHour _ h')).refile ht hsees hrole rfl ?_
      rw [kept_owner, hkeeps.owner]

theorem Amending.spares (h : b.Amending id caller change e b') (hrole : caller.role = .attendee) :
    b.Spares caller.id b' := by
  cases h with
  | refused f => exact .refl b
  | @amended t t' ht hsees hactive hkeeps htime hchange =>
      refine (Spares.refl b).refile ht hsees hrole rfl ?_
      rw [kept_owner, hkeeps.owner]

end Books

/-! ### Calls -/

namespace Act.Meets

open Api

variable {s : Setting} {b : Books} {α β : Type} {R : Bool → Books → Prop}

/-- What needs the role of a trainer is refused to an attendee. -/
theorem requireTrainer {caller : Caller} {action : String} {next : Unit → Act Refusal α}
    (hrole : caller.role = .attendee) (hrefused : R false b) :
    (Api.require .trainer caller action >>= next).Meets s b fun e b' => R e.isDone b' := by
  refine requireThen (fun htrainer => ?_) fun _ => hrefused
  rw [hrole] at htrainer
  cases htrainer

section

/-! Whether a call is done does not matter here; `R` holds of all books in which others are spared. -/

variable {owner : String} (hR : ∀ done b', b.Spares owner b' → R done b')

include hR

theorem same_spares {act : Act Refusal α} (h : act.Meets s b fun _ b' => b' = b) :
    act.Meets s b fun e b' => R e.isDone b' := by
  refine h.mono ?_
  rintro e b' rfl
  exact hR _ _ (.refl _)

theorem currentUserCall_spares {caller : Caller} (howner : caller.id = owner) (ip : Option String) :
    (Api.currentUser caller ip).Meets s b fun e b' => R e.isDone b' := by
  subst howner
  have hshow : ∀ b', b.Spares caller.id b' → ∀ f : Account → UserResponse,
      (Api.operation (Desk.currentUser caller.id) >>= fun a => Pure.pure (f a)).Meets s b'
        fun e b'' => R e.isDone b'' := by
    intro b' h f
    refine reply (operated (currentUser.mono ?_))
    rintro e b'' rfl
    exact hR _ _ h
  cases ip with
  | none => exact hshow b (.refl b) _
  | some ip =>
      have hrecord : (Desk.recordIp caller.id ip).Meets s b fun _ b' => b.Spares caller.id b' := by
        refine watched fun _ => within (recordIp ?_)
        unfold Books.recordIp
        cases ha : b.accounts caller.id with
        | none => exact .refl b
        | some a => exact .setAccount a.balance (some ip) ha
      refine bind (operation (hrecord.mono fun e b' h => ?_))
      cases e with
      | done u => exact hshow b' h _
      | refused f => exact hR _ _ h
      | crashed => exact hR _ _ h

/-- A call by an attendee changes no training and no account but their own. -/
theorem call_spares {call : Call} (hs : s.held = Held.nothing)
    (hcaller : ∀ c, call.caller? = some c → c.id = owner ∧ c.role = .attendee) :
    call.perform.Meets s b fun e b' => R e.isDone b' := by
  have hhours : s.held.hours = [] := congrArg Held.hours hs
  cases call with
  | availableHours r => exact reply (same_spares hR (availableHoursCall_same hhours r))
  | hourAvailability r => exact reply (same_spares hR (hourAvailabilityCall_same hhours r))
  | trainings caller => exact reply (same_spares hR (trainingsCall_same hs caller))
  | makeHoursAvailable caller r =>
      exact reply (requireTrainer (hcaller caller rfl).2 (hR _ _ (.refl b)))
  | makeHoursUnavailable caller r =>
      exact reply (requireTrainer (hcaller caller rfl).2 (hR _ _ (.refl b)))
  | createUser caller fresh r =>
      exact reply (requireTrainer (hcaller caller rfl).2 (hR _ _ (.refl b)))
  | changeBalance caller id r =>
      exact reply (requireTrainer (hcaller caller rfl).2 (hR _ _ (.refl b)))
  | currentUser caller ip => exact reply (currentUserCall_spares hR (hcaller caller rfl).1 ip)
  | createTraining caller fresh r =>
      obtain ⟨rfl, -⟩ := hcaller caller rfl
      refine reply (requireThen (fun _ => ?_) fun _ => hR _ _ (.refl b))
      refine readTimeThen (fun time _ => ?_) fun _ => hR _ _ (.refl b)
      refine andThen (operated ((scheduleTraining hs).mono fun _ _ h => hR _ _ h.spares)) ?_
      exact fun _ _ h => bind (note (.of_done (pure h)))
  | cancelTraining caller id =>
      obtain ⟨rfl, hrole⟩ := hcaller caller rfl
      exact reply (command ((cancelTraining hs).mono fun _ _ h => hR _ _ (h.spares hrole)))
  | rescheduleTraining caller id r =>
      obtain ⟨rfl, hrole⟩ := hcaller caller rfl
      refine reply (readTimeThen (fun time _ => ?_) fun _ => hR _ _ (.refl b))
      exact command ((rescheduleTraining hs).mono fun _ _ h => hR _ _ (h.spares hrole))
  | requestReschedule caller id r =>
      obtain ⟨rfl, hrole⟩ := hcaller caller rfl
      refine reply (readTimeThen (fun time _ => ?_) fun _ => hR _ _ (.refl b))
      exact command ((requestReschedule hs).mono fun _ _ h => hR _ _ (h.spares hrole))
  | approveReschedule caller id =>
      obtain ⟨rfl, hrole⟩ := hcaller caller rfl
      exact reply (command ((approveReschedule hs).mono fun _ _ h => hR _ _ (h.spares hrole)))
  | rejectReschedule caller id =>
      obtain ⟨rfl, hrole⟩ := hcaller caller rfl
      exact reply (command ((rejectReschedule hs).mono fun _ _ h => hR _ _ (h.spares hrole)))

end

/-- A call by an attendee books and releases hours, and does nothing else to them. -/
theorem call_rebooks {call : Call} (hs : s.held = Held.nothing)
    (hcaller : ∀ c, call.caller? = some c → c.role = .attendee)
    (hR : ∀ done b', b.Rebooks b' → R done b') :
    call.perform.Meets s b fun e b' => R e.isDone b' := by
  have hworks : (∀ step ∈ call.steps, ¬ step.Edits) →
      call.perform.Meets s b fun e b' => R e.isDone b' := by
    intro hsteps
    refine (call_works call hs).mono fun e b' h => ?_
    obtain ⟨made, hbegin, hworked, -⟩ := h
    exact hR _ _ (hworked.rebooks fun u hu => hsteps _ (Call.step_mem (hbegin.subset hu)))
  have hsame : R false b := hR _ _ fun _ => .same _
  cases call with
  | makeHoursAvailable caller r => exact reply (requireTrainer (hcaller caller rfl) hsame)
  | makeHoursUnavailable caller r => exact reply (requireTrainer (hcaller caller rfl) hsame)
  | _ => exact hworks (by simp [Call.steps, HourStep.Edits])

end Act.Meets

namespace Run

variable {window : BookingWindow} {watch : Watch} {history : List Turn} {w : World}

/-- **An attendee touches only what is theirs**: after any run of calls, whatever call is made by an
attendee next, refused or not, leaves the trainings and the accounts of all others as they were, of the
attendee's account changes the balance and the address at most, and books or releases hours at most. -/
theorem touched (h : Run window watch history w) (now : Moment) (call : Api.Call) {owner : String}
    (hcaller : ∀ c, call.caller? = some c → c.id = owner ∧ c.role = .attendee) :
    w.store.books.TouchedBy owner (Turn.make window watch now call w).2.store.books := by
  have hspares := Act.Meets.call_spares (s := .outer now window watch) (b := w.store.books)
    (R := fun _ => w.store.books.Spares owner) (fun _ _ hs => hs) rfl hcaller
  have hrebooks := Act.Meets.call_rebooks (s := .outer now window watch) (b := w.store.books)
    (R := fun _ => w.store.books.Rebooks) rfl (fun c hc => (hcaller c hc).2) fun _ _ hb => hb
  obtain ⟨-, hs⟩ := hspares w h.sound rfl
  obtain ⟨-, hb⟩ := hrebooks w h.sound rfl
  exact ⟨hs, hb⟩

open Sample in
/-- Bob may not cancel the training of Ann, whose account and hour stay as they are; Ann cancels it
herself, gets her credit back, and noon is released. -/
theorem touched_bob_ann :
    let ran := play [.createTraining ann "1" noon]
    let bobs := Turn.make .standard .bare newYear (.cancelTraining bob "1") ran.2
    let anns := Turn.make .standard .bare newYear (.cancelTraining ann "1") ran.2
    (bobs.1.ending.isDone = false ∧ ran.2.store.books.TouchedBy bob.id bobs.2.store.books) ∧
      anns.1.ending.isDone = true ∧ ran.2.store.books.TouchedBy ann.id anns.2.store.books ∧
      ran.2.store.books.hours 1893585600 ≠ anns.2.store.books.hours 1893585600 := by
  have hrun := run [.createTraining ann "1" noon]
  refine ⟨⟨by decide +kernel, ?_⟩, by decide +kernel, ?_, by decide +kernel⟩
  · refine touched hrun newYear _ fun c hc => ?_
    cases hc
    exact ⟨rfl, rfl⟩
  · refine touched hrun newYear _ fun c hc => ?_
    cases hc
    exact ⟨rfl, rfl⟩

end Run

end TrainerBooking
