import TrainerBooking.Proofs.Timetable

/-! # What orders post to accounts

An order posts one amount to one account at most: an administrator's change of a balance, the charge
of a booking, or the credit of a cancellation.

* **Postings.** `Order.posting?` is the amount that an order comes to post, whether the store takes it
  or not, and `Order.opening?` the one with which it opens an account.
* **Taken.** `Books.posted?` is the balance after a posting that the store takes, and `Books.due?` what
  it should be: the exact sum, if that is a balance.  The two are the same unless the sum spills over
  the integers of a column (`posted?_eq_due?`).
* **Tallies.** `Books.Tallies` says what can become of the balances when an order is given: they stay,
  an account is opened, or the posting is taken, and refused otherwise (`Deed.perform_tallies`). -/

namespace TrainerBooking

/-- An amount for an account. -/
structure Posting where
  /-- The identifier of the account. -/
  id : String
  amount : Int
deriving DecidableEq, Repr

instance (t : Training) : Decidable t.Readable := by
  have h : t.Readable ↔ Moment.inYears t.time.second = true ∧
      ∀ p ∈ t.proposal, Moment.inYears p.newTime.second = true := Iff.rfl
  exact decidable_of_iff _ h.symm

instance (b : Books) (t : Training) : Decidable (b.Reads t) := by
  unfold Books.Reads
  infer_instance

namespace Desk.Order

/-- The amount that the order comes to post, with the clock and the books as they are when it is
given. -/
def posting? (now : Moment) (b : Books) : Order → Option Posting
  | changeBalance id amount => some ⟨id, amount⟩
  | scheduleTraining id owner ownerName time notes =>
    match Training.book id owner ownerName time notes with
    | .ok _ => if b.trainings id = none then some ⟨owner, -1⟩ else none
    | .error _ => none
  | cancelTraining id caller => (b.trainings id).bind fun t =>
    let credit := t.cancelCredit caller.role now
    if b.Reads t ∧ caller.sees t = true ∧ t.canceled = false ∧ credit ≠ 0 then
      some ⟨t.owner, credit⟩
    else none
  | _ => none

/-- The account that the order opens, and its first balance. -/
def opening? : Order → Option Posting
  | createUser id _ _ balance => some ⟨id, balance⟩
  | _ => none

end Desk.Order

namespace Books

variable (b : Books)

/-! ### The balance after a posting -/

/-- The balance after the posting as it is kept, if the store takes it. -/
def posted? (p : Posting) : Option Int := (b.accounts p.id).bind fun a => b.newBalance? a p.amount

/-- The balance after the posting as it should be, if there is the account and the exact sum is a
balance. -/
def due? (p : Posting) : Option Int := (b.balance? p.id).bind fun n =>
  if 0 ≤ n + p.amount ∧ n + p.amount ≤ Account.greatestBalance then some (n + p.amount) else none

/-- Does the posting take its account beyond the integers of the column? -/
def Spills (p : Posting) : Prop :=
  b.inMemory = false ∧ ∃ n ∈ b.balance? p.id, Account.greatestBalance < n + p.amount

instance (p : Posting) : Decidable (b.Spills p) := by
  unfold Spills
  infer_instance

/-- Is every balance a number of the column that is not negative? -/
def Solvent : Prop := ∀ id n, b.balance? id = some n → 0 ≤ n ∧ n ≤ Account.greatestBalance

variable {b} {b' : Books}

theorem balance?_eq {id : String} {a : Account} (ha : b.accounts id = some a) :
    b.balance? id = some a.balance := by rw [balance?, ha, Option.map_some]

theorem balance?_congr (h : b'.accounts = b.accounts) : b'.balance? = b.balance? := by
  funext id
  rw [balance?, h, balance?]

theorem posted?_of_account {p : Posting} {a : Account} (ha : b.accounts p.id = some a) :
    b.posted? p = b.newBalance? a p.amount := by rw [posted?, ha, Option.bind_some]

theorem posted?_of_none {p : Posting} (hnone : b.accounts p.id = none) : b.posted? p = none := by
  rw [posted?, hnone, Option.bind_none]

theorem not_spills {p : Posting} {a : Account} (h : ¬ b.Spills p) (ha : b.accounts p.id = some a)
    (hkind : b.inMemory = false) : a.balance + p.amount ≤ Account.greatestBalance :=
  Int.not_lt.mp fun hlt => h ⟨hkind, a.balance, balance?_eq ha, hlt⟩

/-- What the store makes of a balance is the exact sum, if that is a balance and does not spill. -/
theorem newBalance?_exact {a : Account} {amount : Int} (hn : 0 ≤ a.balance)
    (hle : a.balance ≤ Account.greatestBalance) (hfit : Column.fits amount = true)
    (hspill : b.inMemory = false → a.balance + amount ≤ Account.greatestBalance) :
    b.newBalance? a amount =
      if 0 ≤ a.balance + amount ∧ a.balance + amount ≤ Account.greatestBalance then
        some (a.balance + amount)
      else none := by
  unfold newBalance?
  cases hkind : b.inMemory with
  | true => rfl
  | false =>
      have hsum := hspill hkind
      have hbounds := Column.fits_iff.mp hfit
      unfold Account.greatestBalance at hle hsum
      have hold : Column.fits a.balance = true := Column.fits_iff.mpr ⟨by omega, hle⟩
      have hnew : Column.fits (a.balance + amount) = true := Column.fits_iff.mpr ⟨by omega, hsum⟩
      rw [Column.sum_of_fits hold hfit hnew, if_neg Bool.false_ne_true]
      by_cases hneg : a.balance + amount < 0
      · rw [if_pos hneg, if_neg fun h => Int.not_le.mpr hneg h.1]
      · rw [if_neg hneg, if_pos ⟨Int.not_lt.mp hneg, hsum⟩]

theorem posted?_eq_due? {p : Posting} (hb : b.Solvent) (hfit : Column.fits p.amount = true)
    (hspill : ¬ b.Spills p) : b.posted? p = b.due? p := by
  unfold due?
  cases ha : b.accounts p.id with
  | none => rw [posted?_of_none ha, balance?, ha, Option.map_none, Option.bind_none]
  | some a =>
      have hbalance := balance?_eq ha
      obtain ⟨hn, hle⟩ := hb p.id a.balance hbalance
      rw [posted?_of_account ha, hbalance, Option.bind_some]
      exact newBalance?_exact hn hle hfit (not_spills hspill ha)

theorem due?_eq_some {p : Posting} {m : Int} (h : b.due? p = some m) :
    ∃ n, b.balance? p.id = some n ∧ m = n + p.amount ∧ 0 ≤ m ∧ m ≤ Account.greatestBalance := by
  obtain ⟨n, hn, hm⟩ := Option.bind_eq_some_iff.mp h
  split at hm
  · next hrange =>
      obtain rfl := Option.some.inj hm
      exact ⟨n, hn, rfl, hrange⟩
  · cases hm

/-- How the change of a balance ends that does not spill, and the books then: exactly the amount is
added, or the change is refused and nothing happens. -/
def Answers (b : Books) (p : Posting) (e : Ending Failure Int) (b' : Books) : Prop :=
  match b.accounts p.id with
  | none => e = .refused (Repository.noAccount p.id) ∧ b' = b
  | some a =>
    if 0 ≤ a.balance + p.amount ∧ a.balance + p.amount ≤ Account.greatestBalance then
      e = .done (a.balance + p.amount) ∧
        b' = b.setAccount p.id { a with balance := a.balance + p.amount }
    else
      e = .refused (.rule (.insufficientBalance p.id a.balance p.amount)) ∧ b' = b

theorem shown_of_balance {a : Account} (hn : 0 ≤ a.balance)
    (hle : a.balance ≤ Account.greatestBalance) : b.shown a = a.balance := by
  unfold shown
  unfold Account.greatestBalance at hle
  have hfits : Column.fits a.balance = true := Column.fits_iff.mpr ⟨by omega, hle⟩
  rw [Column.read_of_fits hfits, ite_self]

theorem changeBalance_answers {p : Posting} (hb : b.Solvent) (hfit : Column.fits p.amount = true)
    (hspill : ¬ b.Spills p) :
    b.Answers p (b.changeBalance p.id p.amount).1 (b.changeBalance p.id p.amount).2 := by
  unfold Answers changeBalance
  cases ha : b.accounts p.id with
  | none => exact ⟨rfl, rfl⟩
  | some a =>
      obtain ⟨hn, hle⟩ := hb p.id a.balance (balance?_eq ha)
      have hnew := newBalance?_exact hn hle hfit (not_spills hspill ha)
      by_cases hrange : 0 ≤ a.balance + p.amount ∧ a.balance + p.amount ≤ Account.greatestBalance
      · rw [if_pos hrange] at hnew
        have hshown : b.shown { a with balance := a.balance + p.amount } = a.balance + p.amount :=
          shown_of_balance hrange.1 hrange.2
        simp only [hnew, if_pos hrange, hshown, and_self]
      · rw [if_neg hrange] at hnew
        simp only [hnew, if_neg hrange, shown_of_balance hn hle, and_self]

/-! ### Balances and orders -/

/-- What can become of the balances when an order is given, or none is: whether it is done, and the
books then.  A booking and a cancellation may fail after their posting is taken. -/
inductive Tallies (now : Moment) (b : Books) (order? : Option Desk.Order) (done : Bool) (b' : Books) :
    Prop
  | idle (hposting : order?.bind (·.posting? now b) = none)
      (hopening : done = true → order?.bind (·.opening?) = none) (hsame : b'.balance? = b.balance?)
  | opened {p : Posting} (hposting : order?.bind (·.posting? now b) = none)
      (hopening : order?.bind (·.opening?) = some p) (hdone : done = true)
      (hfree : b.balance? p.id = none) (hn : 0 ≤ p.amount)
      (hnew : b'.balance? = Function.update b.balance? p.id (some p.amount))
  | posted {p : Posting} {n : Int} (hposting : order?.bind (·.posting? now b) = some p)
      (hdone : ∀ id amount, order? = some (.changeBalance id amount) → done = true)
      (hposted : b.posted? p = some n)
      (hnew : b'.balance? = Function.update b.balance? p.id (some n))
  | unposted {p : Posting} (hposting : order?.bind (·.posting? now b) = some p)
      (hposted : b.posted? p = none) (hdone : done = false) (hsame : b'.accounts = b.accounts)

theorem Moving.accounts {id : String} {caller : Caller} {change : Training → Training → Prop}
    {e : Ending Failure Unit} (h : b.Moving id caller change e b') : b'.accounts = b.accounts := by
  cases h <;> rfl

theorem Amending.accounts {id : String} {caller : Caller} {change : Training → Training → Prop}
    {e : Ending Failure Unit} (h : b.Amending id caller change e b') :
    b'.accounts = b.accounts := by
  cases h <;> rfl

/-- A credit is posted, unless it is nothing. -/
theorem Credited.balances {owner : String} {credit : Int} (h : b.Credited owner credit b') :
    (credit = 0 ∧ b'.balance? = b.balance?) ∨ (credit ≠ 0 ∧ ∃ n, b.posted? ⟨owner, credit⟩ = some n ∧
      b'.balance? = Function.update b.balance? owner (some n)) := by
  cases h with
  | nothing => exact .inl ⟨rfl, rfl⟩
  | @paid a credit n hcredit ha hn =>
      refine .inr ⟨hcredit, n, ?_, b.balance?_setAccount owner { a with balance := n }⟩
      exact (posted?_of_account ha).trans hn

end Books

theorem Account.id_of_new {id name : String} {role : Role} {balance : Int} {a : Account}
    (h : Account.new id role name balance = .ok a) : a.id = id := by
  unfold Account.new Caller.new at h
  split at h
  · cases h
  · next c hc =>
      split at h
      · cases h
      · cases h
        split at hc
        · cases hc
        · split at hc <;> cases hc
          rfl

/-! ### The desk -/

namespace Act.Meets

variable {s : Setting} {b : Books} {α : Type}

theorem changeBalance_tallies {id : String} {amount : Int} :
    (Desk.changeBalance id amount).Meets s b fun e b' =>
      b.Tallies s.now (some (.changeBalance id amount)) e.isDone b' := by
  refine creditAccount (fun a n ha hn => ?_) (fun hnone => ?_) fun a ha hn => ?_
  · refine .posted (p := ⟨id, amount⟩) rfl (fun _ _ _ => rfl) ?_ (b.balance?_setAccount id _)
    exact (Books.posted?_of_account ha).trans hn
  · exact .unposted (p := ⟨id, amount⟩) rfl (Books.posted?_of_none hnone) rfl rfl
  · exact .unposted (p := ⟨id, amount⟩) rfl ((Books.posted?_of_account ha).trans hn) rfl rfl

theorem createUser_tallies {id name : String} {role : Role} {balance : Int} :
    (Desk.createUser id role name balance).Meets s b fun e b' =>
      b.Tallies s.now (some (.createUser id role name balance)) e.isDone b' := by
  refine watched fun _ => bind_ofRule (fun v _ => .idle rfl nofun rfl) fun a ha => ?_
  obtain ⟨hn, hbalance⟩ := Account.balance_of_new ha
  have hid : a.id = id := Account.id_of_new ha
  refine within (addAccount hn (fun _ _ => .idle rfl nofun rfl) fun hfree => ?_)
  rw [hid] at hfree ⊢
  have hnew := b.balance?_setAccount id a
  rw [hbalance] at hn hnew
  refine .opened (p := ⟨id, balance⟩) rfl rfl rfl ?_ hn hnew
  rw [Books.balance?, hfree, Option.map_none]

/-- A booking charges one credit, if the training may be stored and its identifier is free. -/
theorem scheduleTraining_tallies {id owner ownerName notes : String} {time : Moment}
    (hs : s.held = Held.nothing) :
    (Desk.scheduleTraining id owner ownerName time notes).Meets s b fun e b' =>
      b.Tallies s.now (some (.scheduleTraining id owner ownerName time notes)) e.isDone b' := by
  have hposting : ∀ t, Training.book id owner ownerName time notes = .ok t →
      Desk.Order.posting? s.now b (.scheduleTraining id owner ownerName time notes) =
        if b.trainings id = none then some ⟨owner, -1⟩ else none := by
    intro t ht
    rw [Desk.Order.posting?, ht]
  refine watched fun _ => bind_ofRule (fun v hv => ?_) fun t ht => ?_
  · refine .idle ?_ nofun rfl
    rw [Option.bind_some, Desk.Order.posting?, hv]
  have hposting := hposting t ht
  obtain rfl := Training.book_eq_ok ht
  refine bind (within (addTraining ?_ (fun _ htaken => ?_) fun hfree => ?_))
  · exact congrArg Held.trainings hs
  · rw [if_neg (Option.isSome_iff_ne_none.mp htaken)] at hposting
    exact Books.Tallies.idle hposting nofun rfl
  rw [if_pos hfree] at hposting
  -- Storing the training leaves the accounts alone, and so does booking the hour after the charge.
  refine .of_done (bind (within (creditAccount (fun a n ha hn => .of_done ?_) (fun hnone => ?_)
    fun a ha hn => ?_)))
  · have hposted : b.posted? ⟨owner, -1⟩ = some n := (Books.posted?_of_account ha).trans hn
    have htaken : ∀ {done : Bool} {b' : Books}, b'.balance? = Function.update b.balance? owner
        (some n) → b.Tallies s.now (some (.scheduleTraining id owner ownerName time notes)) done b' :=
      fun hnew => .posted (p := ⟨owner, -1⟩) hposting nofun hposted hnew
    refine within (scheduleHour ?_ (fun _ _ _ => ?_) (fun _ => ?_) ?_)
    · exact congrArg Held.hours hs
    all_goals exact htaken (b.balance?_setAccount owner { a with balance := n })
  · have hposted : b.posted? ⟨owner, -1⟩ = none := Books.posted?_of_none hnone
    exact Books.Tallies.unposted hposting hposted rfl rfl
  · have hposted : b.posted? ⟨owner, -1⟩ = none := (Books.posted?_of_account ha).trans hn
    exact Books.Tallies.unposted hposting hposted rfl rfl

/-- A cancellation credits the owner, unless it stops before that or the credit is nothing. -/
theorem cancelTraining_tallies {id : String} {caller : Caller} (hs : s.held = Held.nothing) :
    (Desk.cancelTraining id caller).Meets s b fun e b' =>
      b.Tallies s.now (some (.cancelTraining id caller)) e.isDone b' := by
  have hposting : ∀ t, b.trainings id = some t →
      Desk.Order.posting? s.now b (.cancelTraining id caller) =
        if b.Reads t ∧ caller.sees t = true ∧ t.canceled = false ∧
          t.cancelCredit caller.role s.now ≠ 0 then some ⟨t.owner, t.cancelCredit caller.role s.now⟩
        else none := by
    intro t ht
    rw [Desk.Order.posting?, ht, Option.bind_some]
  have idle : ∀ {e : Ending Failure Unit}, (∀ t, b.trainings id = some t → ¬ (b.Reads t ∧
      caller.sees t = true ∧ t.canceled = false ∧ t.cancelCredit caller.role s.now ≠ 0)) →
        b.Tallies s.now (some (.cancelTraining id caller)) e.isDone b := by
    intro e hnot
    refine .idle ?_ (fun _ => rfl) rfl
    cases ht : b.trainings id with
    | none => rw [Option.bind_some, Desk.Order.posting?, ht, Option.bind_none]
    | some t => rw [Option.bind_some, hposting t ht, if_neg (hnot t ht)]
  refine watched fun _ => bind (now (.of_done ?_))
  refine bind (updateTraining ?_ (fun hnone => ?_) (fun t f ht hread => ?_)
    (fun t ht hread hsees => ?_) fun t ht hread hsees => ?_)
  · exact congrArg Held.trainings hs
  · refine idle (e := .refused _) fun t ht => ?_
    rw [hnone] at ht
    cases ht
  · refine idle (e := .refused _) fun t' ht' hgo => ?_
    obtain rfl := Option.some.inj (ht.symm.trans ht')
    exact hread hgo.1
  · refine idle (e := .refused _) fun t' ht' hgo => ?_
    obtain rfl := Option.some.inj (ht.symm.trans ht')
    rw [hsees] at hgo
    cases hgo.2.1
  have hposting := hposting t ht
  refine bind_ofRule (fun v hv => ?_) fun t' ht' => ?_
  · refine idle (e := .refused _) fun t' ht' hgo => ?_
    obtain rfl := Option.some.inj (ht.symm.trans ht')
    rw [Training.cancel, hgo.2.2.1] at hv
    cases hv
  obtain ⟨hactive, rfl⟩ := Training.cancel_eq_ok ht'
  refine creditOwner (fun c hcredit => ?_) fun f hcredit hmissing => ?_
  · -- The hour is released after the credit, and the training filed: both leave the accounts alone.
    have htallies : ∀ {done : Bool} {b' : Books}, b'.accounts = c.accounts →
        b.Tallies s.now (some (.cancelTraining id caller)) done b' := by
      intro done b' hsame
      obtain ⟨hzero, hbalances⟩ | ⟨hne, n, hposted, hbalances⟩ := hcredit.balances
      · rw [if_neg fun h => h.2.2.2 hzero] at hposting
        exact .idle hposting (fun _ => rfl) ((Books.balance?_congr hsame).trans hbalances)
      · rw [if_pos ⟨hread, hsees, hactive, hne⟩] at hposting
        refine .posted hposting (fun _ _ hchange => ?_) hposted
          ((Books.balance?_congr hsame).trans hbalances)
        cases hchange
    refine bind (within (cancelHour ?_ (fun h _ _ => ?_) (fun v _ => ?_) fun _ => ?_))
    · exact congrArg Held.hours hs
    · refine pure ⟨⟨rfl, rfl, rfl⟩, hcredit.inMemory, hcredit.trainings, .of_done (pure ?_)⟩
      exact htallies rfl
    · exact htallies rfl
    · exact htallies rfl
  · rw [if_pos ⟨hread, hsees, hactive, hcredit⟩] at hposting
    refine Books.Tallies.unposted (p := ⟨t.owner, t.cancelCredit caller.role s.now⟩) hposting ?_ rfl rfl
    rw [Books.posted?, Option.bind_eq_none_iff]
    intro a ha
    have hsome : b.accounts t.owner ≠ none := by
      rw [ha]
      exact Option.some_ne_none a
    obtain ⟨a', ha', hnew, -⟩ := hmissing hsome
    obtain rfl := Option.some.inj (ha.symm.trans ha')
    exact hnew

/-- What an order can make of the balances. -/
theorem order_tallies (order : Desk.Order) (hs : s.held = Held.nothing) :
    order.perform.Meets s b fun e b' => b.Tallies s.now (some order) e.isDone b' := by
  have hhours : s.held.hours = [] := congrArg Held.hours hs
  have told : ∀ {α β : Type} {act : Act Failure α} {f : α → β},
      (act.Meets s b fun e b' => b.Tallies s.now (some order) e.isDone b') →
        (act >>= fun a => Pure.pure (f a)).Meets s b fun e b' =>
          b.Tallies s.now (some order) e.isDone b' :=
    fun h => answered (R := fun done b' => b.Tallies s.now (some order) done b') h
  have idle : ∀ {α β : Type} {act : Act Failure α} {f : α → β}, order.posting? s.now b = none →
      order.opening? = none → (act.Meets s b fun _ b' => b'.balance? = b.balance?) →
        (act >>= fun a => Pure.pure (f a)).Meets s b fun e b' =>
          b.Tallies s.now (some order) e.isDone b' :=
    fun hposting hopening h => told (h.mono fun _ _ hsame => .idle hposting (fun _ => hopening) hsame)
  have of_accounts : ∀ {α : Type} {act : Act Failure α} {Q : Ending Failure α → Books → Prop},
      act.Meets s b Q → (∀ e b', Q e b' → b'.accounts = b.accounts) →
        act.Meets s b fun _ b' => b'.balance? = b.balance? :=
    fun h hQ => h.mono fun e b' hq => Books.balance?_congr (hQ e b' hq)
  have of_same : ∀ {α : Type} {act : Act Failure α}, (act.Meets s b fun _ b' => b' = b) →
      act.Meets s b fun _ b' => b'.balance? = b.balance? :=
    fun h => h.mono fun _ _ hsame => hsame ▸ rfl
  cases order with
  | scheduleHour time =>
      exact idle rfl rfl (scheduleHour hhours (fun _ _ _ => rfl) (fun _ => rfl) rfl)
  | cancelHour time =>
      exact idle rfl rfl (cancelHour hhours (fun _ _ _ => rfl) (fun _ _ => rfl) fun _ => rfl)
  | makeHoursAvailable times =>
      exact idle rfl rfl (of_accounts (makeHoursAvailable hhours times b) fun _ _ h => h.accounts)
  | makeHoursUnavailable times =>
      exact idle rfl rfl (of_accounts (makeHoursUnavailable hhours times b) fun _ _ h => h.accounts)
  | availableHours first last => exact idle rfl rfl (of_same (availableHours hhours first last b))
  | hourAvailability time => exact idle rfl rfl (of_same (hourAvailability hhours time b))
  | scheduleTraining id owner ownerName time notes => exact told (scheduleTraining_tallies hs)
  | cancelTraining id caller => exact told (cancelTraining_tallies hs)
  | rescheduleTraining id newTime notes caller =>
      exact idle rfl rfl (of_accounts (rescheduleTraining hs) fun _ _ h => h.accounts)
  | requestReschedule id newTime notes caller =>
      exact idle rfl rfl (of_accounts (requestReschedule hs) fun _ _ h => h.accounts)
  | approveReschedule id caller =>
      exact idle rfl rfl (of_accounts (approveReschedule hs) fun _ _ h => h.accounts)
  | rejectReschedule id caller =>
      exact idle rfl rfl (of_accounts (rejectReschedule hs) fun _ _ h => h.accounts)
  | allTrainings => exact idle rfl rfl (of_same (allTrainings_same hs))
  | trainingsOfCaller caller => exact idle rfl rfl (of_same (trainingsOfCaller_same hs))
  | createUser id role name balance => exact told createUser_tallies
  | changeBalance id amount => exact told changeBalance_tallies
  | recordIp id ip => exact idle rfl rfl recordIp_balances
  | currentUser id => exact idle rfl rfl (of_same currentUser)

end Act.Meets

/-! ### Deeds -/

/-- The order for which the deed asks, if it may: the one that it is, or the one of a call whose
caller has the role for it. -/
def Deed.granted? : Deed → Option Desk.Order
  | order o => some o
  | call c => if c.permits then c.asked? else none

/-- A deed makes of the balances what the order makes for which it asks. -/
theorem Deed.perform_tallies (deed : Deed) (window : BookingWindow) (watch : Watch) (now : Moment)
    {w : World} (hw : w.store.Sound) :
    let (done, w') := deed.perform (.outer now window watch) w
    w'.store.Sound ∧ w.store.books.Tallies now deed.granted? done w'.store.books := by
  cases deed with
  | order o => exact Act.Meets.order_tallies o rfl w hw rfl
  | call c =>
      have idle : ∀ {done : Bool} {b' : Books}, b'.balance? = w.store.books.balance? →
          w.store.books.Tallies now none done b' := fun hsame => .idle rfl (fun _ => rfl) hsame
      cases hpermits : c.permits with
      | false =>
          have hgranted : Deed.granted? (.call c) = none := by
            rw [Deed.granted?, hpermits, if_neg Bool.false_ne_true]
          rw [hgranted]
          have hdenied := Act.Meets.denied (s := .outer now window watch) (b := w.store.books) hpermits
          obtain ⟨hsound, -, hsame⟩ := hdenied w hw rfl
          exact ⟨hsound, idle (congrArg Books.balance? hsame)⟩
      | true =>
          have hgranted : Deed.granted? (.call c) = c.asked? := by
            rw [Deed.granted?, hpermits, if_pos rfl]
          rw [hgranted]
          cases hasked : c.asked? with
          | none =>
              obtain ⟨hsound, -, hsame⟩ := Act.Meets.unasked (s := .outer now window watch) hasked rfl w hw rfl
              exact ⟨hsound, idle hsame⟩
          | some order =>
              exact Act.Meets.asking (R := fun done b' => w.store.books.Tallies now (some order) done b')
                hpermits hasked (Act.Meets.order_tallies order rfl) w hw rfl

end TrainerBooking
