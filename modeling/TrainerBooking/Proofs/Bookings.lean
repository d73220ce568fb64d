import Mathlib.Data.Set.Function
import TrainerBooking.Proofs.Occupancy

/-! # Active trainings and booked hours

As long as no booking fails half-way, the active trainings and the booked hours are the same thing
seen from two sides (`Run.bijOn_booked`).

* **Matched.** `Books.Matched` says so of the books: an occupied hour is booked, nobody shares one,
  and a booked hour is occupied.  Every shift keeps it, unless it strands a training.
* **Served.** `Books.Served` says that stored times can be read back and that owners have accounts,
  so an active training can always be canceled, as long as its credit fits into the balance, and a
  training that is moved always finds its old hour booked. -/

namespace TrainerBooking

/-! ### Matched books -/

/-- The active trainings and the booked hours correspond to each other: all active trainings are
secure, and a booked hour is occupied. -/
structure Books.Matched (b : Books) : Prop where
  secure : b.Secure fun id => ∃ s, b.Occupies id s
  occupied : ∀ {s}, b.Booked s → ∃ id, b.Occupies id s

namespace Books.Matched

variable {b : Books} {id id' : String} {s : Int}

theorem booked (hm : b.Matched) (h : b.Occupies id s) : b.Booked s := hm.secure.booked ⟨s, h⟩ h

theorem alone (hm : b.Matched) (h : b.Occupies id s) (h' : b.Occupies id' s) : id = id' :=
  hm.secure.alone ⟨s, h⟩ ⟨s, h'⟩ h h'

end Books.Matched

namespace Api.Call

variable {b b' : Books} {call : Call} {done : Bool}

/-- Who occupies an hour after the call did so before it, or was created by it, unless the call stores
a training that it does not book. -/
theorem Shift.occupied_before (h : Shift b b' call done)
    (hclean : ∀ id, call.creates? = some id → done = false →
      (b'.trainings id).isSome → (b.trainings id).isSome)
    {id : String} {s : Int} (hid : b'.Occupies id s) :
    (∃ s, b.Occupies id s) ∨ (done = true ∧ call.creates? = some id) := by
  cases h with
  | still hcreates hocc hbooked => exact .inl ⟨s, (hocc id s).mp hid⟩
  | @stranded caller fresh r second hfree hocc hbooked =>
      have hfresh : b'.Occupies fresh second := (hocc fresh second).mpr (.inr ⟨rfl, rfl⟩)
      have hstored := hclean fresh rfl rfl hfresh.stored
      rw [hfree] at hstored
      cases hstored
  | taken hfree hopen hocc hbooked =>
      rcases (hocc id s).mp hid with h | ⟨rfl, -⟩
      · exact .inl ⟨s, h⟩
      · exact .inr ⟨rfl, rfl⟩
  | vacated hcall hsees hold hocc hbooked => exact .inl ⟨s, ((hocc id s).mp hid).1⟩
  | @moved _ _ new old hcall hsees hold hopen hocc hbooked =>
      rcases (hocc id s).mp hid with ⟨h, -⟩ | ⟨rfl, -⟩
      · exact .inl ⟨s, h⟩
      · exact .inl ⟨old, hold⟩
  | blocked hcall hold hvacant hopen hocc hbooked => exact .inl ⟨s, (hocc id s).mp hid⟩

/-- In matched books, an hour that is booked after the call is occupied then. -/
theorem Shift.occupied (h : Shift b b' call done) (hm : b.Matched) {s : Int} (hs : b'.Booked s) :
    ∃ id, b'.Occupies id s := by
  cases h with
  | still hcreates hocc hbooked =>
      obtain ⟨id, hid⟩ := hm.occupied ((hbooked s).mp hs)
      exact ⟨id, (hocc id s).mpr hid⟩
  | stranded hfree hocc hbooked =>
      obtain ⟨id, hid⟩ := hm.occupied ((hbooked s).mp hs)
      exact ⟨id, (hocc id s).mpr (.inl hid)⟩
  | @taken caller id r second hfree hopen hocc hbooked =>
      rcases (hbooked s).mp hs with hs | rfl
      · obtain ⟨id', hid⟩ := hm.occupied hs
        exact ⟨id', (hocc id' s).mpr (.inl hid)⟩
      · exact ⟨id, (hocc id s).mpr (.inr ⟨rfl, rfl⟩)⟩
  | @vacated _ id second hcall hsees hold hocc hbooked =>
      obtain ⟨hs, hne⟩ := (hbooked s).mp hs
      obtain ⟨id', hid⟩ := hm.occupied hs
      refine ⟨id', (hocc id' s).mpr ⟨hid, ?_⟩⟩
      rintro rfl
      exact hne (hid.unique hold)
  | @moved _ id new old hcall hsees hold hopen hocc hbooked =>
      obtain ⟨hs | rfl, hne⟩ := (hbooked s).mp hs
      · obtain ⟨id', hid⟩ := hm.occupied hs
        refine ⟨id', (hocc id' s).mpr (.inl ⟨hid, ?_⟩)⟩
        rintro rfl
        exact hne (hid.unique hold)
      · exact ⟨id, (hocc id s).mpr (.inr ⟨rfl, rfl⟩)⟩
  | blocked hcall hold hvacant hopen hocc hbooked => exact absurd (hm.booked hold) hvacant

/-- A shift keeps the books matched, unless it stores a training that it does not book. -/
theorem Shift.matched (h : Shift b b' call done) (hm : b.Matched) (hretains : b.Retains b')
    (hclean : ∀ id, call.creates? = some id → done = false →
      (b'.trainings id).isSome → (b.trainings id).isSome) : b'.Matched := by
  refine ⟨h.secure hm.secure (fun id hid => ?_) (fun id s _ h _ => ⟨s, h⟩) hretains ?_,
    h.occupied hm⟩
  · obtain ⟨s, hid⟩ := hid
    exact (h.occupied_before hclean hid).imp_left fun ⟨s, hold⟩ => hold.stored
  · -- all active trainings are secure, so none shares its hour with one that is given up
    rintro - gone - id - hne hshare
    obtain ⟨s, hgone, hid⟩ := hshare.occupies
    exact hne (hm.alone hid hgone)

end Api.Call

/-! ### Served books -/

/-- Stored times can be read back, and the owners of trainings have accounts. -/
structure Books.Served (b : Books) : Prop where
  readable : ∀ {id t}, b.trainings id = some t → t.Readable
  owned : ∀ {id t}, b.trainings id = some t → (b.accounts t.owner).isSome

namespace Books

variable {b b' : Books}

theorem Served.mono (hs : b.Served) (ht : b'.trainings = b.trainings)
    (ha : ∀ id, (b.accounts id).isSome → (b'.accounts id).isSome) : b'.Served := by
  constructor
  · intro id t h
    rw [ht] at h
    exact hs.readable h
  · intro id t h
    rw [ht] at h
    exact ha _ (hs.owned h)

theorem Served.setTraining (hs : b.Served) (id : String) {t : Training} (hr : t.Readable)
    (ho : (b.accounts t.owner).isSome) : (b.setTraining id t).Served := by
  constructor
  · intro id' t' h
    rw [setTraining_trainings] at h
    split at h
    · rw [← Option.some.inj h]
      exact hr
    · exact hs.readable h
  · intro id' t' h
    rw [setTraining_trainings] at h
    split at h
    · rw [← Option.some.inj h]
      exact ho
    · exact hs.owned h

theorem Credited.accounts {owner : String} {credit : Int} (h : b.Credited owner credit b')
    (id : String) (hid : (b.accounts id).isSome) : (b'.accounts id).isSome := by
  cases h with
  | nothing => exact hid
  | paid hcredit ha hn =>
      rw [setAccount_accounts]
      split
      · rfl
      · exact hid

/-- A training of a served store, changed in its times only as far as they can be read. -/
theorem Served.refile (hs : b.Served) {id : String} {t t' : Training} (ht : b.trainings id = some t)
    (hkeeps : t.Keeps t') (hr : t'.Readable) : (b.setTraining id (b.kept t')).Served := by
  refine hs.setTraining id (b.kept_readable hr) ?_
  rw [kept_owner, hkeeps.owner]
  exact hs.owned ht

theorem Moving.served {id : String} {caller : Caller} {change : Training → Training → Prop}
    {e : Ending Failure Unit} (h : b.Moving id caller change e b') (hs : b.Served)
    (hchange : ∀ t t', t.Readable → change t t' → t'.Readable) : b'.Served := by
  cases h with
  | refused hf => exact hs
  | crashed => exact hs
  | unreleased => exact hs.mono rfl fun _ h => h
  | @moved t t' h h' ht hsees hactive hkeeps hch hopen hh hbooked hh' =>
      have hr := hchange t t' (hs.readable ht) hch
      exact (hs.refile ht hkeeps hr).mono rfl fun _ h => h

theorem Amending.served {id : String} {caller : Caller} {change : Training → Training → Prop}
    {e : Ending Failure Unit} (h : b.Amending id caller change e b') (hs : b.Served)
    (hchange : ∀ t t', t.Readable → change t t' → t'.Readable) : b'.Served := by
  cases h with
  | refused f => exact hs
  | @amended t t' ht hsees hactive hkeeps htime hch =>
      exact hs.refile ht hkeeps (hchange t t' (hs.readable ht) hch)

end Books

namespace Api.Call

/-- Can the time stamps of the call be told in UTC, as far as they can be read at all? -/
def Timely (call : Call) : Prop :=
  ∀ stamp ∈ call.stamps, ∀ m, Stamp.read stamp = .ok m → m.toUtc?.isSome

instance (call : Call) : Decidable call.Timely :=
  decidable_of_iff (∀ stamp ∈ call.stamps, ∀ m ∈ (Stamp.read stamp).toOption, m.toUtc?.isSome) (by
    refine forall₂_congr fun stamp _ => ?_
    cases Stamp.read stamp <;> simp [Except.toOption])

theorem Timely.inYears {call : Call} (h : call.Timely) {stamp : String} (hs : stamp ∈ call.stamps)
    {m : Moment} (hm : Stamp.read stamp = .ok m) : Moment.inYears m.second = true :=
  Moment.toUtc?_isSome_iff.mp (h stamp hs m hm)

theorem Outcome.served {now : Moment} {b b' : Books} {call : Call} {done : Bool}
    (h : call.Outcome now b done b') (hs : b.Served) (htimely : call.Timely)
    (hclean : ∀ id, call.creates? = some id → done = false →
      (b'.trainings id).isSome → (b.trainings id).isSome) : b'.Served := by
  cases h with
  | refused call => exact hs
  | edited done hcreates hvacates hcaller hrole h =>
      exact hs.mono h.trainings fun id hid => by rwa [h.accounts]
  | banked done hcreates hvacates h => exact hs.mono h.trainings h.accounts
  | @booking caller fresh r time e b' htime h =>
      have hy := htimely.inYears List.mem_cons_self htime
      cases h with
      | refused f => exact hs
      | unpaid f hfree =>
          have hstored := hclean fresh rfl rfl (by rw [Books.setTraining_trainings, if_pos rfl]; rfl)
          rw [hfree] at hstored
          cases hstored
      | unbooked hfree ha hn he =>
          have hstored := hclean fresh rfl he (by
            rw [Books.setAccount_trainings, Books.setTraining_trainings, if_pos rfl]
            rfl)
          rw [hfree] at hstored
          cases hstored
      | @booked a n hour hfree ha hn hopen hh =>
          have hr : Training.Readable ⟨fresh, caller.id, caller.name, time, r.notes, false, none⟩ :=
            ⟨hy, fun p hp => by cases hp⟩
          have hstored := hs.setTraining fresh (b.kept_readable hr) (by
            rw [Books.kept_owner, ha]
            rfl)
          exact hstored.mono rfl (Books.Banked.setAccount _ _ _).accounts
  | canceling h =>
      cases h with
      | barred f hbar => exact hs
      | uncredited ht hsees hactive hmissing => exact hs
      | unreleased ht hsees hactive hcredit hbooked he =>
          exact hs.mono hcredit.trainings hcredit.accounts
      | @canceled t c h ht hsees hactive hcredit hbooked hh =>
          have hc : (c.setHour t.time.second h).Served :=
            hs.mono hcredit.trainings hcredit.accounts
          have hr : t.Readable := hs.readable ht
          have ho : (c.accounts t.owner).isSome := hcredit.accounts _ (hs.owned ht)
          refine hc.setTraining _ (b.kept_readable hr) ?_
          rw [Books.kept_owner]
          exact ho
  | rescheduling htime h =>
      have hy := htimely.inYears List.mem_cons_self htime
      refine h.served hs fun t t' hr hchange => ?_
      subst hchange
      exact ⟨hy, hr.2⟩
  | approving h =>
      refine h.served hs fun t t' hr hchange => ?_
      obtain ⟨p, hp, rfl⟩ := hchange
      exact ⟨hr.2 p hp, nofun⟩
  | requesting htime h =>
      have hy := htimely.inYears List.mem_cons_self htime
      refine h.served hs fun t t' hr hchange => ?_
      subst hchange
      refine ⟨hr.1, fun p hp => ?_⟩
      rw [← Option.some.inj hp]
      exact hy
  | rejecting h =>
      refine h.served hs fun t t' hr hchange => ?_
      subst hchange
      exact ⟨hr.1, nofun⟩

end Api.Call

/-! ### Orderly runs -/

/-- The time stamps of the call can be told in UTC, and if the call fails to create a training, it
did not store it. -/
structure Turn.Orderly (turn : Turn) : Prop where
  timely : turn.call.Timely
  clean : ∀ id, turn.call.creates? = some id → turn.ending.isDone = false →
    (turn.after.books.trainings id).isSome → (turn.before.books.trainings id).isSome

instance (turn : Turn) : Decidable turn.Orderly :=
  decidable_of_iff (turn.call.Timely ∧ ∀ id ∈ turn.call.creates?, turn.ending.isDone = false →
    (turn.after.books.trainings id).isSome → (turn.before.books.trainings id).isSome)
    ⟨fun h => ⟨h.1, h.2⟩, fun h => ⟨h.timely, h.clean⟩⟩

namespace Run

variable {window : BookingWindow} {watch : Watch} {history : List Turn} {w : World}

theorem matched_and_served (h : Run window watch history w)
    (horderly : ∀ turn ∈ history, turn.Orderly) :
    w.store.books.Matched ∧ w.store.books.Served := by
  revert horderly
  refine h.induction_books (P := fun history b =>
    (∀ turn ∈ history, turn.Orderly) → b.Matched ∧ b.Served) (fun st hst _ => ?_)
    fun history turn _ hturn ih horderly => ?_
  · have hno : ∀ id s, ¬ st.books.Occupies id s := fun id s =>
      Books.not_occupies_of_free (hst.trainings id) s
    refine ⟨⟨.nobody fun id ⟨s, h⟩ => hno id s h, fun {s} h => ?_⟩, ?_, ?_⟩
    · rw [Books.Booked, Books.availability?, hst.hours] at h
      cases h
    · intro id t ht
      rw [hst.trainings] at ht
      cases ht
    · intro id t ht
      rw [hst.trainings] at ht
      cases ht
  · obtain ⟨hm, hs⟩ := ih fun t ht => horderly t (List.mem_append_left _ ht)
    have ho := horderly turn (List.mem_append_right _ List.mem_cons_self)
    have hshift := Api.Call.Outcome.shift hturn
    have hretains := Api.Call.Outcome.retains hturn
    exact ⟨hshift.matched hm hretains ho.clean, Api.Call.Outcome.served hturn hs ho.timely ho.clean⟩

end Run

/-! ### What orderly runs come to -/

theorem Failure.of_violation? {f : Failure} {v : Violation} (h : f.violation? = some v) :
    f.kind = v.kind ∧ f.slug = v.slug := by
  induction f with
  | rule v' =>
      obtain rfl := Option.some.inj h
      exact ⟨rfl, rfl⟩
  | missing => cases h
  | storage => cases h
  | within _ _ _ ih => exact ih h

theorem Refusal.ofFailure_overdrawn {f : Failure} {user : String} {balance change : Int}
    (h : f.violation? = some (.insufficientBalance user balance change)) :
    ofFailure f = .conflict "insufficient-balance" f.message := by
  obtain ⟨hk, hs⟩ := Failure.of_violation? h
  rw [ofFailure, hk, hs]
  rfl

/-- In matched books, a training that is not moved leaves everything as it was, for another reason
than a missing old hour. -/
theorem Books.Moving.unmoved {b b' : Books} {id : String} {caller : Caller}
    {change : Training → Training → Prop} {e : Ending Failure Unit}
    (h : b.Moving id caller change e b') (hm : b.Matched) (hdone : e.isDone = false) :
    b' = b ∧ ∀ f, e = .refused f → "cancel-original-hour-failed" ∉ f.operations := by
  cases h with
  | refused hf =>
      refine ⟨rfl, fun f he => ?_⟩
      cases he
      exact hf
  | crashed => exact ⟨rfl, fun f he => by cases he⟩
  | unreleased ht hsees hactive hkeeps hchange hopen hh hbooked he =>
      have hold := hm.booked ⟨_, ht, hactive, rfl⟩
      exact absurd ((Books.booked_schedule hh _).mpr (.inl hold)) hbooked
  | moved => cases hdone

theorem Books.Moving.released {b b' : Books} {id : String} {caller : Caller}
    {change : Training → Training → Prop} {e : Ending Failure Unit}
    (h : b.Moving id caller change e b') (hm : b.Matched) (f : Failure) (he : e = .refused f) :
    "cancel-original-hour-failed" ∉ f.operations := by
  have hdone : e.isDone = false := by rw [he]; rfl
  exact (h.unmoved hm hdone).2 f he

/-- In matched books, a call that gives up an hour either is done or leaves all hours alone. -/
theorem Api.Call.Outcome.hours {now : Moment} {b b' : Books} {call : Call} {done : Bool}
    (h : call.Outcome now b done b') (hm : b.Matched) (hcall : call.vacates?.isSome)
    (hdone : done = false) : b'.hours = b.hours := by
  cases h with
  | refused call => rfl
  | edited done hcreates hvacates hcaller hrole h =>
      rw [hvacates] at hcall
      cases hcall
  | banked done hcreates hvacates h => exact h.hours
  | booking htime h => cases hcall
  | canceling h =>
      cases h with
      | barred f hbar => rfl
      | uncredited ht hsees hactive hmissing => rfl
      | unreleased ht hsees hactive hcredit hbooked he => exact hcredit.hours
      | canceled => cases hdone
  | rescheduling htime h => rw [(h.unmoved hm hdone).1]
  | approving h => rw [(h.unmoved hm hdone).1]
  | requesting htime h => cases hcall
  | rejecting h => cases hcall

/-- In matched books, active trainings and booked hours are in bijection. -/
theorem Books.Matched.bijOn {b : Books} (hm : b.Matched) :
    Set.BijOn (fun entry : String × Training => entry.2.time.second)
      {entry | b.trainings entry.1 = some entry.2 ∧ entry.2.canceled = false}
      {s | ∃ hour, b.hours s = some hour ∧ hour.availability = .trainingScheduled} := by
  refine ⟨?_, ?_, ?_⟩
  · rintro ⟨id, t⟩ ⟨ht, hactive⟩
    exact Option.map_eq_some_iff.mp (hm.booked ⟨t, ht, hactive, rfl⟩)
  · rintro ⟨id, t⟩ ⟨ht, hactive⟩ ⟨id', t'⟩ ⟨ht', hactive'⟩ hs
    obtain rfl : id = id' := hm.alone ⟨t, ht, hactive, rfl⟩ ⟨t', ht', hactive', hs.symm⟩
    obtain rfl : t = t' := Option.some.inj (ht.symm.trans ht')
    rfl
  · rintro s ⟨h, hh, ha⟩
    have hb : b.Booked s := (Books.availability?_of_hours hh).trans (congrArg some ha)
    obtain ⟨id, t, ht, hactive, hs⟩ := hm.occupied hb
    exact ⟨(id, t), ⟨ht, hactive⟩, hs⟩

namespace Act.Meets

variable {s : Setting} {b : Books}

/-- An active training can be canceled by whoever sees it, unless the credit does not fit. -/
theorem cancelTraining_matched (hm : b.Matched) (hv : b.Served)
    (hn : ∀ {id a}, b.accounts id = some a → 0 ≤ a.balance) {id : String} {caller : Caller}
    {t : Training} (ht : b.trainings id = some t) (hactive : t.canceled = false)
    (hsees : caller.sees t = true) (hs : s.held = Held.nothing) :
    (Desk.cancelTraining id caller).Meets s b fun e _ => e = .done () ∨
      ∃ f a, e = .refused f ∧ b.accounts t.owner = some a ∧
        Account.greatestBalance < a.balance + t.cancelCredit caller.role s.now ∧
        f.violation? = some (.insufficientBalance t.owner (b.shown a)
          (t.cancelCredit caller.role s.now)) := by
  refine (cancelTraining hs).mono fun e b' h => ?_
  cases h with
  | barred f hbar =>
      have hcanceled := hbar t ht (.inr (hv.readable ht)) hsees
      rw [hactive] at hcanceled
      cases hcanceled
  | @uncredited t' f ht' hsees' hactive' hmissing =>
      obtain rfl : t = t' := Option.some.inj (ht.symm.trans ht')
      obtain ⟨a, ha, hnew, hf⟩ := hmissing (Option.isSome_iff_ne_none.mp (hv.owned ht))
      have hover := Books.overflow_of_newBalance? (hn ha) (t.cancelCredit_bounds _ _).1 hnew
      exact .inr ⟨f, a, rfl, ha, hover, hf⟩
  | @unreleased t' c e ht' hsees' hactive' hcredit hbooked he =>
      exact absurd (hm.booked ⟨t', ht', hactive', rfl⟩) hbooked
  | canceled ht' hsees' hactive' hcredit hbooked hh => exact .inl rfl

/-- The call to cancel an active training is done as well, unless the credit does not fit. -/
theorem cancelCall_matched (hm : b.Matched) (hv : b.Served)
    (hn : ∀ {id a}, b.accounts id = some a → 0 ≤ a.balance) {id : String} {caller : Caller}
    {t : Training} (ht : b.trainings id = some t) (hactive : t.canceled = false)
    (hsees : caller.sees t = true) (hs : s.held = Held.nothing) :
    (Api.Call.cancelTraining caller id).perform.Meets s b fun e _ => e = .done .nothing ∨
      ∃ a message, b.accounts t.owner = some a ∧
        Account.greatestBalance < a.balance + t.cancelCredit caller.role s.now ∧
        e = .refused (.conflict "insufficient-balance" message) := by
  refine bind (bind (operation ?_))
  refine (cancelTraining_matched hm hv hn ht hactive hsees hs).mono fun e b' h => ?_
  obtain rfl | ⟨f, a, rfl, ha, hover, hf⟩ := h
  · exact note (.of_done (pure (.inl rfl)))
  · refine .inr ⟨a, f.message, ha, hover, ?_⟩
    exact congrArg Ending.refused (Refusal.ofFailure_overdrawn hf)

theorem rescheduleTraining_matched (hm : b.Matched) {id notes : String} {newTime : Moment}
    {caller : Caller} (hs : s.held = Held.nothing) :
    (Desk.rescheduleTraining id newTime notes caller).Meets s b fun e _ =>
      ∀ f, e = .refused f → "cancel-original-hour-failed" ∉ f.operations :=
  (rescheduleTraining hs).mono fun _ _ h => h.released hm

theorem approveReschedule_matched (hm : b.Matched) {id : String} {caller : Caller}
    (hs : s.held = Held.nothing) :
    (Desk.approveReschedule id caller).Meets s b fun e _ =>
      ∀ f, e = .refused f → "cancel-original-hour-failed" ∉ f.operations :=
  (approveReschedule hs).mono fun _ _ h => h.released hm

end Act.Meets

namespace Run

variable {window : BookingWindow} {watch : Watch} {history : List Turn} {w : World}

/-- **Active trainings and booked hours** are in bijection after every orderly run.  So whoever may
cancel an active training can do so, unless the credit does not fit, and no call finds the hour that
it gives up already free. -/
theorem bijOn_booked (h : Run window watch history w) (horderly : ∀ turn ∈ history, turn.Orderly) :
    Set.BijOn (fun entry : String × Training => entry.2.time.second)
        {entry | w.store.books.trainings entry.1 = some entry.2 ∧ entry.2.canceled = false}
        {s | ∃ hour, w.store.books.hours s = some hour ∧
          hour.availability = .trainingScheduled} ∧
      (∀ now caller id t, w.store.books.trainings id = some t → t.canceled = false →
        (caller.id = t.owner ∨ caller.role = .trainer) →
        (Turn.make window watch now (.cancelTraining caller id) w).1.ending = .done .nothing ∨
          ∃ a message, w.store.books.accounts t.owner = some a ∧
            Account.greatestBalance < a.balance + t.cancelCredit caller.role now ∧
            (Turn.make window watch now (.cancelTraining caller id) w).1.ending =
              .refused (.conflict "insufficient-balance" message)) ∧
      (∀ now id newTime notes caller f,
        (Desk.rescheduleTraining id newTime notes caller (Setting.outer now window watch) w).1 =
          .refused f → "cancel-original-hour-failed" ∉ f.operations) ∧
      (∀ now id caller f,
        (Desk.approveReschedule id caller (Setting.outer now window watch) w).1 = .refused f →
          "cancel-original-hour-failed" ∉ f.operations) ∧
      ∀ now call, call.vacates?.isSome →
        (Turn.make window watch now call w).1.ending.isDone = false →
        (Turn.make window watch now call w).2.store.books.hours = w.store.books.hours := by
  obtain ⟨hm, hv⟩ := h.matched_and_served horderly
  have hsound := h.sound
  refine ⟨hm.bijOn, ?_, ?_, ?_, ?_⟩
  · intro now caller id t ht hactive hcaller
    have hsees : caller.sees t = true := by
      rw [Caller.sees, Bool.or_eq_true, decide_eq_true_eq, decide_eq_true_eq]
      exact hcaller.symm
    have hcancel := Act.Meets.cancelCall_matched (s := Setting.outer now window watch) hm hv
      (fun ha => hsound.balance_nonneg ha) ht hactive hsees rfl
    exact (hcancel w hsound rfl).2
  · intro now id newTime notes caller
    exact (Act.Meets.rescheduleTraining_matched hm rfl w hsound rfl).2
  · intro now id caller
    exact (Act.Meets.approveReschedule_matched hm rfl w hsound rfl).2
  · intro now call hcall hdone
    have hout : (Turn.make window watch now call w).1.Outcome :=
      (Turn.make_outcome now call hsound).2
    exact Api.Call.Outcome.hours hout hm hcall hdone

open Sample in
/-- Ann books noon, gives it back, and books it again. -/
theorem bijOn_booked_ann :
    let played := play [.createTraining ann "1" noon, .cancelTraining ann "1",
      .createTraining ann "2" noon]
    (∀ turn ∈ played.1, turn.Orderly) ∧ (played.1.map fun turn => turn.ending.isDone) =
        [true, true, true, true, true, true] ∧
      Set.BijOn (fun entry : String × Training => entry.2.time.second)
        {entry | played.2.store.books.trainings entry.1 = some entry.2 ∧ entry.2.canceled = false}
        {s | ∃ hour, played.2.store.books.hours s = some hour ∧
          hour.availability = .trainingScheduled} := by
  refine ⟨by decide +kernel, by decide +kernel, ?_⟩
  exact (bijOn_booked (run _) (by decide +kernel)).1

end Run

end TrainerBooking
