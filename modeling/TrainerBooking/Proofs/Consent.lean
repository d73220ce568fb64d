import TrainerBooking.Proofs.Times

/-! # Trainings move by the rule or by consent

A stored training changes its time in two ways only: its owner or a trainer moves it while 24 hours
are left before it, or the other side approves a proposal.

* **Turns.** `Desk.Order.Turns` says once what each of the five orders on a stored training makes of
  its time and its proposal; `Books.Settles` says that a deed that is done turns the training that
  it is on, and that every other one leaves the stored trainings as they are.
* **Pending.** A request is pending if it was done, and nothing since has answered it or made
  another (`Entry.Pending`).  What is stored as the proposal of a training is the pending request,
  however many deeds lie between the two (`Books.Proposes`); both survive whatever is refused, a
  direct move and a cancellation.

So the approval of a proposal, which reads what is stored, goes by the latest request
(`Log.moved_by_rule_or_consent`). -/

namespace TrainerBooking

/-! ### What orders make of a training -/

namespace Training

variable {t t' : Training}

theorem movesFreely_of_reschedule {newTime now : Moment} (h : t.reschedule newTime now = .ok t') :
    t.movesFreely now = true := by
  obtain ⟨-, h⟩ := whileActive_eq_ok h
  split at h
  · assumption
  · cases h

theorem proposer_of_approve {role : Role} {p : Proposal} (h : t.approve role = .ok t')
    (hp : t.proposal = some p) : p.proposedBy ≠ role := by
  obtain ⟨-, h⟩ := whileActive_eq_ok h
  rw [hp] at h
  intro hrole
  simp only [hrole, if_true] at h
  cases h

end Training

/-- What an order of a caller makes of the time and the proposal of a stored training. -/
inductive Desk.Order.Turns (id : String) (caller : Caller) (now : Moment) (t : Training) :
    Order → Training → Prop
  | canceled {t' : Training} (htime : t'.time = t.time) (hproposal : t'.proposal = t.proposal) :
      Turns id caller now t (.cancelTraining id caller) t'
  | rescheduled {newTime : Moment} {notes : String} {t' : Training}
      (hfree : now.nanos + 86400000000000 ≤ t.time.nanos) (htime : t'.time = newTime)
      (hproposal : t'.proposal = t.proposal) :
      Turns id caller now t (.rescheduleTraining id newTime notes caller) t'
  | requested {newTime : Moment} {notes : String} {t' : Training} (htime : t'.time = t.time)
      (hproposal : t'.proposal = some ⟨newTime, caller.role⟩) :
      Turns id caller now t (.requestReschedule id newTime notes caller) t'
  | approved {p : Proposal} {t' : Training} (hp : t.proposal = some p)
      (hrole : p.proposedBy ≠ caller.role) (htime : t'.time = p.newTime)
      (hproposal : t'.proposal = none) : Turns id caller now t (.approveReschedule id caller) t'
  | rejected {t' : Training} (htime : t'.time = t.time) (hproposal : t'.proposal = none) :
      Turns id caller now t (.rejectReschedule id caller) t'

/-- The rule of an order makes of the training what the order turns it into. -/
theorem Desk.Order.turns_of_rule {order : Order} {now : Moment} {r : Ruling} {t t' : Training}
    (hr : order.ruling? now = some r) (hrule : r.rule t = .ok t') :
    order.Turns r.id r.caller now t t' := by
  cases order with
  | cancelTraining id caller =>
      cases hr
      obtain ⟨-, rfl⟩ := Training.cancel_eq_ok hrule
      exact .canceled rfl rfl
  | rescheduleTraining id newTime notes caller =>
      cases hr
      obtain ⟨noted, hnoted, hmoved⟩ := Training.rescheduleNoted_eq_ok hrule
      obtain ⟨-, rfl⟩ := Training.updateNotes_eq_ok hnoted
      have hfree := Training.movesFreely_of_reschedule hmoved
      obtain rfl := Training.reschedule_eq_ok hmoved
      exact .rescheduled (Training.movesFreely_iff.mp hfree) rfl rfl
  | requestReschedule id newTime notes caller =>
      cases hr
      obtain ⟨noted, hnoted, hproposed⟩ := Training.proposeNoted_eq_ok hrule
      obtain ⟨-, rfl⟩ := Training.updateNotes_eq_ok hnoted
      obtain rfl := Training.propose_eq_ok hproposed
      exact .requested rfl rfl
  | approveReschedule id caller =>
      cases hr
      obtain ⟨-, p, hp, rfl⟩ := Training.approve_eq_ok hrule
      exact .approved hp (Training.proposer_of_approve hrule hp) rfl rfl
  | rejectReschedule id caller =>
      cases hr
      obtain ⟨-, rfl⟩ := Training.reject_eq_ok hrule
      exact .rejected rfl rfl
  | _ => cases hr

namespace Books

/-- What becomes of the stored trainings by a deed that places an order, and is done or is not: the
one that the order is on is turned, or all stay as they are, and what is added has no proposal. -/
inductive Settles (now : Moment) (b : Books) (order? : Option Desk.Order) : Bool → Books → Prop
  | turned {order : Desk.Order} {id : String} {caller : Caller} {t t' : Training} {b' : Books}
      (horder : order? = some order) (ht : b.trainings id = some t)
      (hsees : caller.sees t = true) (hturns : order.Turns id caller now t t')
      (hkind : b'.inMemory = b.inMemory)
      (htrainings : b'.trainings = (b.setTraining id (b.kept t')).trainings) :
      Settles now b order? true b'
  | left {done : Bool} {b' : Books} (hkind : b'.inMemory = b.inMemory)
      (hstored : ∀ id t, b.trainings id = some t → b'.trainings id = some t)
      (hadded : ∀ id t, b.trainings id = none → b'.trainings id = some t → t.proposal = none)
      (hunruled : done = true → ∀ order, order? = some order → order.ruling? now = none) :
      Settles now b order? done b'

variable {b b' : Books} {now : Moment} {order? : Option Desk.Order} {done : Bool}

theorem Settles.of_trainings (hkind : b'.inMemory = b.inMemory)
    (htrainings : b'.trainings = b.trainings)
    (hunruled : done = true → ∀ order, order? = some order → order.ruling? now = none) :
    b.Settles now order? done b' := by
  refine .left hkind (fun id t ht => htrainings ▸ ht) (fun id t hnone ht => ?_) hunruled
  rw [htrainings, hnone] at ht
  cases ht

/-- What an order by a ruling can end with. -/
theorem Ruled.settles {order : Desk.Order} {r : Ruling} {e : Ending Failure Unit}
    (h : b.Ruled r e b') (hr : order.ruling? now = some r) :
    b.Settles now (some order) e.isDone b' := by
  cases h with
  | barred f hbar => exact .of_trainings rfl rfl nofun
  | violated ht hread hsees hrule hf => exact .of_trainings rfl rfl nofun
  | dropped ht hread hsees hrule hkind htrainings he =>
      rw [he]
      exact .of_trainings hkind htrainings nofun
  | filed ht hread hsees hrule hkind htrainings =>
      refine .turned rfl ht hsees (Desk.Order.turns_of_rule hr hrule) hkind ?_
      simp only [setTraining, htrainings]

/-- What an order without a ruling can end with. -/
theorem Files.settles {order : Desk.Order} (h : b.Files now (some order) b')
    (hr : order.ruling? now = none) : b.Settles now (some order) done b' := by
  have hunruled : done = true → ∀ o, some order = some o → o.ruling? now = none := by
    rintro - o ho
    cases ho
    exact hr
  cases h with
  | same _ hkind htrainings => exact .of_trainings hkind htrainings hunruled
  | booked hbook hfree hkind htrainings =>
      refine .left hkind (fun id t ht => ?_) (fun id t hnone ht => ?_) hunruled
      · rw [htrainings, setTraining_trainings]
        split
        · next hid =>
            rw [hid, hfree] at ht
            cases ht
        · exact ht
      · rw [htrainings, setTraining_trainings] at ht
        split at ht
        · obtain rfl := Option.some.inj ht
          obtain rfl := Training.book_eq_ok hbook
          unfold kept
          split <;> rfl
        · rw [hnone] at ht
          cases ht
  | ruled hr' ht hread hsees hrule hkind htrainings =>
      rw [hr] at hr'
      cases hr'

end Books

theorem Act.Meets.order_settles {s : Setting} {b : Books} (order : Desk.Order)
    (hs : s.held = Held.nothing) :
    order.perform.Meets s b fun e b' => b.Settles s.now (some order) e.isDone b' := by
  cases hr : order.ruling? s.now with
  | none => exact (order_files order hs).mono fun e b' hfiles => hfiles.settles hr
  | some r =>
      refine (order_ruled hr hs).mono fun e b' hruled => ?_
      obtain ⟨e', rfl, hruled⟩ := hruled
      have hdone : (e'.mapValue fun _ => Desk.Answer.nothing).isDone = e'.isDone := by
        cases e' <;> rfl
      rw [hdone]
      exact hruled.settles hr

theorem Deed.perform_settles (deed : Deed) (window : BookingWindow) (watch : Watch) (now : Moment)
    {w : World} (hw : w.store.Sound) :
    let (done, w') := deed.perform (.outer now window watch) w
    w'.store.Sound ∧ w.store.books.Settles now deed.order? done w'.store.books := by
  cases deed with
  | order o => exact Act.Meets.order_settles o rfl w hw rfl
  | call c =>
      cases hplaced : c.order? with
      | none =>
          rw [Deed.order?, hplaced]
          obtain ⟨hsound, hbanked⟩ := Act.Meets.placingNone
            (s := .outer now window watch) (b := w.store.books) hplaced rfl w hw rfl
          exact ⟨hsound, .of_trainings hbanked.inMemory hbanked.trainings fun _ _ h => by cases h⟩
      | some order =>
          rw [Deed.order?, hplaced]
          exact Act.Meets.placing
            (R := fun done b' => w.store.books.Settles now (some order) done b') hplaced
            (.of_trainings rfl rfl fun h => by cases h) (Act.Meets.order_settles order rfl) w hw rfl

/-! ### Pending requests -/

namespace Entry

/-- The deed is a request to move the training, and was done. -/
inductive Requests (id : String) (e : Entry) : Proposal → Prop
  | intro {newTime : Moment} {notes : String} {caller : Caller} (hdone : e.done = true)
      (horder : e.deed.order? = some (.requestReschedule id newTime notes caller)) :
      Requests id e ⟨newTime, caller.role⟩

/-- The deed answers a request to move the training, and was done. -/
inductive Answers (id : String) (e : Entry) : Prop
  | approved {caller : Caller} (hdone : e.done = true)
      (horder : e.deed.order? = some (.approveReschedule id caller))
  | rejected {caller : Caller} (hdone : e.done = true)
      (horder : e.deed.order? = some (.rejectReschedule id caller))

/-- The deed ends what was requested before: by an answer, or by another request. -/
def Overrides (id : String) (e : Entry) : Prop := e.Answers id ∨ ∃ p, e.Requests id p

/-- The most recent request to move the training was this one, and nobody has answered it. -/
inductive Pending (log : List Entry) (id : String) (p : Proposal) : Prop
  | intro {earlier later : List Entry} {e : Entry} (hlog : log = earlier ++ e :: later)
      (hrequest : e.Requests id p) (hlater : ∀ e' ∈ later, ¬ e'.Overrides id)

variable {id : String} {e : Entry} {p q : Proposal} {log : List Entry}

theorem Requests.unique (h : e.Requests id p) (h' : e.Requests id q) : p = q := by
  cases h with
  | intro hdone horder =>
      cases h' with
      | intro hdone' horder' =>
          cases horder.symm.trans horder'
          rfl

theorem Answers.not_requests (h : e.Answers id) : ¬ e.Requests id p := by
  rintro ⟨hdone, horder⟩
  cases h with
  | approved hdone' horder' => cases horder.symm.trans horder'
  | rejected hdone' horder' => cases horder.symm.trans horder'

theorem not_pending_nil : ¬ Pending [] id p := by
  rintro ⟨hlog, -, -⟩
  simp at hlog

/-- After one more deed, the pending request is the one that it makes, or the one before. -/
theorem pending_append_singleton :
    Pending (log ++ [e]) id p ↔ e.Requests id p ∨ (Pending log id p ∧ ¬ e.Overrides id) := by
  constructor
  · rintro @⟨earlier, later, e', hlog, hrequest, hlater⟩
    obtain rfl | ⟨later', last, rfl⟩ := List.eq_nil_or_concat later
    · obtain ⟨-, hlast⟩ := List.append_inj' hlog rfl
      cases hlast
      exact .inl hrequest
    · rw [List.concat_eq_append, ← List.cons_append, ← List.append_assoc] at hlog
      obtain ⟨hinit, hlast⟩ := List.append_inj' hlog rfl
      cases hlast
      refine .inr ⟨⟨hinit, hrequest, fun e'' he'' => ?_⟩, ?_⟩
      · exact hlater e'' (by simp [he''])
      · exact hlater e (by simp)
  · rintro (hrequest | ⟨@⟨earlier, later, e', hlog, hrequest, hlater⟩, hlast⟩)
    · exact @Pending.intro _ _ _ log [] e rfl hrequest (List.forall_mem_nil _)
    · have hlog' : log ++ [e] = earlier ++ e' :: (later ++ [e]) := by
        rw [hlog, List.append_assoc, List.cons_append]
      refine ⟨hlog', hrequest, fun e'' he'' => ?_⟩
      rcases List.mem_append.mp he'' with he'' | he''
      · exact hlater e'' he''
      · rw [List.mem_singleton.mp he'']
        exact hlast

end Entry

/-! ### What is stored as the proposal -/

namespace Books

/-- A proposal as it is kept. -/
def keptProposal (b : Books) (p : Proposal) : Proposal := ⟨b.keptTime p.newTime, p.proposedBy⟩

theorem kept_proposal (b : Books) (t : Training) :
    (b.kept t).proposal = t.proposal.map b.keptProposal := by
  unfold kept keptProposal keptTime
  cases b.inMemory with
  | true => simp
  | false => rfl

/-- The proposal that is stored with the training of an identifier. -/
def proposal? (b : Books) (id : String) : Option Proposal :=
  (b.trainings id).bind Training.proposal

/-- What is stored as the proposal for a training is the request that is pending after the log. -/
def Proposes (log : List Entry) (b : Books) (id : String) : Prop :=
  ∀ p', b.proposal? id = some p' ↔ ∃ p, Entry.Pending log id p ∧ p' = b.keptProposal p

variable {b b' : Books} {id : String} {log : List Entry} {e : Entry}

theorem keptProposal_congr (h : b'.inMemory = b.inMemory) (p : Proposal) :
    b'.keptProposal p = b.keptProposal p := by
  rw [keptProposal, keptTime_congr h, keptProposal]

theorem Proposes.left (h : b.Proposes log id) (hkind : b'.inMemory = b.inMemory)
    (hsame : b'.proposal? id = b.proposal? id) (hnot : ¬ e.Overrides id) :
    b'.Proposes (log ++ [e]) id := by
  intro p'
  simp only [hsame, h p', Entry.pending_append_singleton, keptProposal_congr hkind]
  constructor
  · rintro ⟨p, hpending, hp⟩
    exact ⟨p, .inr ⟨hpending, hnot⟩, hp⟩
  · rintro ⟨p, hrequest | ⟨hpending, -⟩, hp⟩
    · exact absurd (.inr ⟨p, hrequest⟩) hnot
    · exact ⟨p, hpending, hp⟩

theorem Proposes.requested {p : Proposal} (hrequest : e.Requests id p)
    (hstored : b'.proposal? id = some (b'.keptProposal p)) : b'.Proposes (log ++ [e]) id := by
  intro p'
  simp only [hstored, Entry.pending_append_singleton]
  constructor
  · intro hp'
    exact ⟨p, .inl hrequest, (Option.some.inj hp').symm⟩
  · rintro ⟨q, hq | ⟨-, hnot⟩, rfl⟩
    · rw [hrequest.unique hq]
    · exact absurd (.inr ⟨p, hrequest⟩) hnot

theorem Proposes.answered (hanswer : e.Answers id) (hstored : b'.proposal? id = none) :
    b'.Proposes (log ++ [e]) id := by
  intro p'
  simp only [hstored, Entry.pending_append_singleton]
  constructor
  · exact nofun
  · rintro ⟨p, hrequest | ⟨-, hnot⟩, -⟩
    · exact absurd hrequest hanswer.not_requests
    · exact absurd (.inl hanswer) hnot

/-- Times and proposals that are stored stay as they are when they are stored again. -/
theorem Dated.kept_eq {given : Moment → Prop} (h : b.Dated given) {t : Training}
    (ht : b.trainings id = some t) :
    b.keptTime t.time = t.time ∧ t.proposal.map b.keptProposal = t.proposal := by
  have hkept : ∀ x ∈ t.times, b.keptTime x = x := by
    intro x hx
    obtain ⟨m, -, rfl⟩ := h id t ht x hx
    exact keptTime_keptTime b m
  refine ⟨hkept _ (Training.mem_times.mpr (.inl rfl)), ?_⟩
  cases hp : t.proposal with
  | none => rfl
  | some p =>
      have hnew := hkept p.newTime (Training.mem_times.mpr (.inr ⟨p, hp, rfl⟩))
      rw [Option.map_some, keptProposal, hnew]

/-- Requests are overridden by orders on the training that they are about. -/
theorem overrides_of_turns {order : Desk.Order} {id' : String} {caller : Caller} {now : Moment}
    {t t' : Training} (horder : e.deed.order? = some order)
    (hturns : order.Turns id' caller now t t') (h : e.Overrides id) : id = id' := by
  obtain (⟨hdone, hanswer⟩ | ⟨hdone, hanswer⟩) | ⟨p, ⟨hdone, hrequest⟩⟩ := h
  · cases horder.symm.trans hanswer
    cases hturns
    rfl
  · cases horder.symm.trans hanswer
    cases hturns
    rfl
  · cases horder.symm.trans hrequest
    cases hturns
    rfl

/-- Requests are overridden by orders with a ruling. -/
theorem Settles.not_overrides
    (h : e.done = true → ∀ order, e.deed.order? = some order → order.ruling? e.now = none) :
    ¬ e.Overrides id := by
  rintro ((⟨hdone, horder⟩ | ⟨hdone, horder⟩) | ⟨p, ⟨hdone, horder⟩⟩)
  · cases h hdone _ horder
  · cases h hdone _ horder
  · cases h hdone _ horder

/-- One more deed keeps what is stored as proposals in step with the requests that are pending. -/
theorem Settles.proposes {given : Moment → Prop}
    (h : b.Settles e.now e.deed.order? e.done b') (hdated : b.Dated given)
    (hb : ∀ id, b.Proposes log id) (id : String) : b'.Proposes (log ++ [e]) id := by
  generalize hdone : e.done = done at h
  cases h with
  | left hkind hstored hadded hunruled =>
      refine (hb id).left hkind ?_ (Settles.not_overrides (hdone ▸ hunruled))
      unfold proposal?
      cases ht : b.trainings id with
      | some t => rw [hstored id t ht]
      | none =>
          cases ht' : b'.trainings id with
          | none => rfl
          | some t' => exact hadded id t' ht ht'
  | @turned order id' caller t t' b' horder ht hsees hturns hkind htrainings =>
      by_cases hid : id = id'
      · subst hid
        have hproposal : b'.proposal? id = t'.proposal.map b.keptProposal := by
          rw [proposal?, htrainings, setTraining_trainings, if_pos rfl, Option.bind_some,
            kept_proposal]
        have hbefore : b.proposal? id = t.proposal.map b.keptProposal := by
          rw [proposal?, ht, Option.bind_some, (hdated.kept_eq ht).2]
        have huntouched : t'.proposal = t.proposal → ¬ e.Overrides id →
            b'.Proposes (log ++ [e]) id := by
          intro hsame hnot
          refine (hb id).left hkind ?_ hnot
          rw [hproposal, hbefore, hsame]
        cases hturns with
        | canceled htime hsame =>
            refine huntouched hsame ?_
            rintro ((⟨-, h⟩ | ⟨-, h⟩) | ⟨p, ⟨-, h⟩⟩) <;> cases horder.symm.trans h
        | rescheduled hfree htime hsame =>
            refine huntouched hsame ?_
            rintro ((⟨-, h⟩ | ⟨-, h⟩) | ⟨p, ⟨-, h⟩⟩) <;> cases horder.symm.trans h
        | requested htime hnew =>
            refine .requested (.intro hdone horder) ?_
            rw [hproposal, hnew, Option.map_some, keptProposal_congr hkind]
        | approved hp hrole htime hnone =>
            refine .answered (.approved hdone horder) ?_
            rw [hproposal, hnone, Option.map_none]
        | rejected htime hnone =>
            refine .answered (.rejected hdone horder) ?_
            rw [hproposal, hnone, Option.map_none]
      · refine (hb id).left hkind ?_ fun hover => hid (overrides_of_turns horder hturns hover)
        rw [proposal?, proposal?, htrainings, setTraining_trainings, if_neg hid]

end Books

namespace Log

variable {window : BookingWindow} {log : List Entry} {w : World}

/-- **What is stored as a proposal is the pending request**, as it is kept. -/
theorem proposes (h : Log window log w) :
    w.store.Sound ∧ ∀ id, w.store.books.Proposes log id := by
  induction h with
  | start h =>
      refine ⟨h.sound, fun id p' => ?_⟩
      rw [Books.proposal?, h.trainings]
      constructor
      · exact nofun
      · rintro ⟨p, hpending, -⟩
        exact absurd hpending Entry.not_pending_nil
  | next h watch now deed ih =>
      obtain ⟨hsound, hsettles⟩ := deed.perform_settles window watch now ih.1
      refine ⟨hsound, fun id => ?_⟩
      exact Books.Settles.proposes (e := (Entry.make window watch now deed _).1) hsettles h.dated
        ih.2 id

/-- A log up to one of its entries is a log, and the entry was made in the world after it. -/
theorem split {earlier later : List Entry} {e : Entry} (h : Log window (earlier ++ e :: later) w) :
    ∃ w₀ watch now deed, Log window earlier w₀ ∧ e = (Entry.make window watch now deed w₀).1 := by
  generalize hlog : earlier ++ e :: later = log at h
  induction h generalizing later with
  | start h => simp at hlog
  | @next log w h watch now deed ih =>
      obtain rfl | ⟨later', last, rfl⟩ := List.eq_nil_or_concat later
      · obtain ⟨rfl, hlast⟩ := List.append_inj' hlog rfl
        cases hlast
        exact ⟨w, watch, now, deed, h, rfl⟩
      · rw [List.concat_eq_append, ← List.cons_append, ← List.append_assoc] at hlog
        exact ih (List.append_inj' hlog rfl).1

end Log

/-! ### Moves -/

/-- How a deed, after `earlier`, may move the training of an identifier from `t` to `t'`. -/
inductive Entry.Moves (earlier : List Entry) (e : Entry) (id : String) (t t' : Training) : Prop
  | byRule {newTime : Moment} {notes : String} {caller : Caller} (hdone : e.done = true)
      (horder : e.deed.order? = some (.rescheduleTraining id newTime notes caller))
      (hcaller : caller.id = t.owner ∨ caller.role = .trainer)
      (hfree : e.now.nanos + 86400000000000 ≤ t.time.nanos)
      (htime : t'.time = e.before.books.keptTime newTime)
  | byConsent {p : Proposal} {caller : Caller} (hdone : e.done = true)
      (horder : e.deed.order? = some (.approveReschedule id caller))
      (hcaller : caller.id = t.owner ∨ caller.role = .trainer)
      (hpending : Pending earlier id p) (hrole : caller.role ≠ p.proposedBy)
      (htime : t'.time = e.before.books.keptTime p.newTime)

/-- A deed that moves a training does so by the rule, or by the request that is pending. -/
theorem Books.Settles.moves {earlier : List Entry} {e : Entry} {id : String} {t t' : Training}
    {given : Moment → Prop} {b' : Books}
    (h : e.before.books.Settles e.now e.deed.order? e.done b')
    (hdated : e.before.books.Dated given) (hb : e.before.books.Proposes earlier id)
    (ht : e.before.books.trainings id = some t) (ht' : b'.trainings id = some t')
    (hmoved : t'.time ≠ t.time) : e.Moves earlier id t t' := by
  generalize hdone : e.done = done at h
  cases h with
  | left hkind hstored hadded hunruled =>
      rw [hstored id t ht] at ht'
      exact absurd (congrArg Training.time (Option.some.inj ht')).symm hmoved
  | @turned order id' caller u u' b' horder hu hsees hturns hkind htrainings =>
      rw [htrainings, setTraining_trainings] at ht'
      split at ht'
      · next hid =>
          subst hid
          obtain rfl := Option.some.inj (hu.symm.trans ht)
          obtain rfl := Option.some.inj ht'
          rw [kept_time] at hmoved
          have hcaller : caller.id = u.owner ∨ caller.role = .trainer := by
            rw [Caller.sees, Bool.or_eq_true, decide_eq_true_eq, decide_eq_true_eq] at hsees
            exact hsees.symm
          have hstays : u'.time ≠ u.time := by
            intro hsame
            rw [hsame, (hdated.kept_eq hu).1] at hmoved
            exact hmoved rfl
          cases hturns with
          | canceled htime hproposal => exact absurd htime hstays
          | requested htime hproposal => exact absurd htime hstays
          | rejected htime hproposal => exact absurd htime hstays
          | rescheduled hfree htime hproposal =>
              exact .byRule hdone horder hcaller hfree (by rw [kept_time, htime])
          | @approved p u' hp hrole htime hproposal =>
              -- What is stored is the pending request, so it is the one that is approved.
              have hstored : e.before.books.proposal? id = some p := by
                rw [proposal?, hu, Option.bind_some, hp]
              obtain ⟨q, hpending, rfl⟩ := (hb p).mp hstored
              refine .byConsent hdone horder hcaller hpending (Ne.symm hrole) ?_
              rw [kept_time, htime, keptProposal, keptTime_keptTime]
      · rw [ht] at ht'
        exact absurd (congrArg Training.time (Option.some.inj ht')).symm hmoved

namespace Log

variable {window : BookingWindow} {log : List Entry} {w : World}

/-- **A training moves by the rule or by consent**: after any orders and calls from an empty store,
done or refused, whenever one of them changed the time of a stored training, it was done, by the
owner or a trainer, and it either was a direct move while at least 24 hours were left, or approved,
in the other role, the request that was pending then; and what is stored as the proposal for a
training is the request that is pending, and nothing if none is. -/
theorem moved_by_rule_or_consent (h : Log window log w) :
    (∀ earlier e later, log = earlier ++ e :: later → ∀ id t t',
      e.before.books.trainings id = some t → e.after.books.trainings id = some t' →
        t'.time ≠ t.time → e.Moves earlier id t t') ∧
    ∀ id p', (w.store.books.trainings id).bind Training.proposal = some p' ↔
      ∃ p, Entry.Pending log id p ∧ p' = ⟨w.store.books.keptTime p.newTime, p.proposedBy⟩ := by
  refine ⟨?_, h.proposes.2⟩
  rintro earlier e later rfl id t t' ht ht' hmoved
  obtain ⟨w₀, watch, now, deed, hearlier, rfl⟩ := h.split
  obtain ⟨hsound, hproposes⟩ := hearlier.proposes
  obtain ⟨-, hsettles⟩ := deed.perform_settles window watch now hsound
  exact Books.Settles.moves hsettles hearlier.dated (hproposes id) ht ht' hmoved

end Log

namespace Sample

/-- One o'clock. -/
def one : Moment := ⟨1893589200 * Moment.perSecond, 0⟩

/-- Three o'clock. -/
def three : Moment := ⟨1893596400 * Moment.perSecond, 0⟩

/-- Four o'clock, as it is written an hour ahead of UTC. -/
def four : Moment := ⟨1893600000 * Moment.perSecond, 3600⟩

/-- Ann proposes three o'clock for her training at noon, and Tess proposes four instead.  Tess
cannot approve that herself, and Ann moves the training to one o'clock meanwhile. -/
def proposing : List Entry × World :=
  Entry.makeAll .standard .bare [
    (newYear, .order (.createUser ann.id .attendee ann.name 1)),
    (newYear, .order (.makeHoursAvailable [one, three, four])),
    (newYear, .call (.makeHoursAvailable tess ⟨[noon.time]⟩)),
    (newYear, .call (.createTraining ann "1" noon)),
    (newYear, .order (.requestReschedule "1" three "legs" ann)),
    (newYear, .order (.requestReschedule "1" four "legs" tess)),
    (newYear, .order (.approveReschedule "1" tess)),
    (newYear, .order (.rescheduleTraining "1" one "legs" ann))] (world (.tables (.empty 1)))

/-- Ann's training then. -/
def proposed : Training :=
  ⟨"1", ann.id, ann.name, one, "legs", false, some ⟨four.floored, .trainer⟩⟩

/-- Ann approves what Tess has proposed. -/
def approving : Deed := .order (.approveReschedule "1" ann)

end Sample

namespace Log

open Sample in
theorem moved_ann :
    proposing.1.map Entry.done = [true, true, true, true, true, true, false, true] ∧
    proposing.2.store.books.trainings "1" = some proposed ∧
    (∃ p, Entry.Pending proposing.1 "1" p ∧
      four.floored = proposing.2.store.books.keptTime p.newTime) ∧
    (Entry.make .standard .bare newYear approving proposing.2).1.Moves proposing.1 "1" proposed
      { proposed with time := four.floored, proposal := none } := by
  have hlog : Log .standard proposing.1 proposing.2 := .of_empty (.tables 1) _
  have hdone : proposing.1.map Entry.done = [true, true, true, true, true, true, false, true] := by
    decide +kernel
  have hbefore : proposing.2.store.books.trainings "1" = some proposed := by decide +kernel
  have hafter : (Entry.make .standard .bare newYear approving proposing.2).2.store.books.trainings
      "1" = some { proposed with time := four.floored, proposal := none } := by decide +kernel
  have hmoved : four.floored ≠ proposed.time := by decide
  -- None of this is to be worked out again, so the theorem is applied to anything like it.
  generalize proposing = made, approving = deed at hlog hbefore hdone hafter ⊢
  have hnext := hlog.next .bare newYear deed
  have hstored : (made.2.store.books.trainings "1").bind Training.proposal =
      some ⟨four.floored, .trainer⟩ := by
    rw [hbefore]
    rfl
  obtain ⟨p, hpending, hp⟩ := ((moved_by_rule_or_consent hlog).2 "1" _).mp hstored
  refine ⟨hdone, hbefore, ⟨p, hpending, congrArg Proposal.newTime hp⟩, ?_⟩
  exact (moved_by_rule_or_consent hnext).1 _ _ [] rfl "1" proposed _ hbefore hafter hmoved

end Log

end TrainerBooking
