import Mathlib.Data.Fin.VecNotation
import Mathlib.Data.Finset.Card
import Mathlib.Data.Fintype.Card
import TrainerBooking.Proofs.Race

/-! # One winner per hour

What a race of bookings leaves in the books, in whatever order the steps are taken.

* **Adding.** Of the commands with an identifier that is free, one gets past the first step
  (`Race.Filed`).
* **Charging.** Every command that comes to the second step takes a credit, as long as there is one
  (`Race.Charged`).
* **Booking.** Of the commands that come to the third step for an hour that is open, one books it, and
  the others are told that it is not available (`Race.Won`).

Each of the three is an invariant of its own, since a step of another kind does not touch it.  When
every command has finished they are `Race.Settled` (`Race.one_winner`). -/

namespace TrainerBooking

namespace Race

variable {ι : Type} [DecidableEq ι] {bids : ι → Bid} {race : Race ι}

/-! ### Invariants -/

variable {b₀ b b' : Books} {p : ι → Progress} {i : ι} {stage : Stage} {e : Ending Failure Unit}

/-- What is the same of the new progress of a command as of the old is the same of every command. -/
theorem same_update {α : Type} (f : Progress → α) {q : Progress} (h : f q = f (p i)) (j : ι) :
    f (Function.update p i q j) = f (p j) := by
  by_cases hj : j = i
  · rw [hj, Function.update_self, h]
  · rw [Function.update_of_ne hj]

/-- A step of one kind leaves open what the others have done. -/
theorem passed_update {other : Stage} (hi : p i = .before stage) (hne : other ≠ stage) (j : ι) :
    (Function.update p i (stage.onward e) j).passed other = (p j).passed other :=
  same_update (Progress.passed other) (by rw [Stage.passed_onward_of_ne hne, hi]) j

theorem tried_update {other : Stage} (hi : p i = .before stage) (hne : other ≠ stage) (j : ι) :
    (Function.update p i (stage.onward e) j).tried other = (p j).tried other :=
  same_update (Progress.tried other) (by rw [Stage.tried_onward_of_ne hne, hi]) j

theorem booked_update (hi : p i = .before stage) (hne : stage ≠ .book) (j : ι) :
    Function.update p i (stage.onward e) j = .booked ↔ p j = .booked := by
  refine iff_of_eq (same_update (· = .booked) (propext (iff_of_false ?_ (by rw [hi]; nofun))) j)
  cases stage <;> cases e <;> first | exact absurd rfl hne | exact nofun

theorem lost_update (hi : p i = .before stage) (hne : stage ≠ .book) (j : ι)
    (e' : Ending Failure Unit) :
    Function.update p i (stage.onward e) j = .stopped .book e' ↔ p j = .stopped .book e' := by
  refine iff_of_eq (same_update (· = .stopped .book e')
    (propext (iff_of_false ?_ (by rw [hi]; nofun))) j)
  cases stage <;> cases e <;> first | exact absurd rfl hne | exact nofun

variable (bids)

/-- The trainings are those of the beginning, and one for every command that has added its own. -/
structure Filed (b₀ b : Books) (p : ι → Progress) : Prop where
  stored : ∀ id, (b.trainings id).isSome ↔
    (b₀.trainings id).isSome ∨ ∃ i, (bids i).id = id ∧ (p i).passed .add = true
  fresh : ∀ i, (p i).passed .add = true → b₀.trainings (bids i).id = none
  alone : ∀ i j, (bids i).id = (bids j).id → (p i).passed .add = true →
    (p j).passed .add = true → i = j
  duplicate : ∀ i, (p i).tried .add = true → (p i).passed .add = false →
    (b.trainings (bids i).id).isSome

variable {bids}

namespace Filed

omit [DecidableEq ι] in
theorem congr {p' : ι → Progress} (h : Filed bids b₀ b p) (hb : b'.trainings = b.trainings)
    (hpassed : ∀ j, (p' j).passed .add = (p j).passed .add)
    (htried : ∀ j, (p' j).tried .add = (p j).tried .add) : Filed bids b₀ b' p' := by
  obtain ⟨hstored, hfresh, halone, hduplicate⟩ := h
  constructor
  · simpa only [hb, hpassed] using hstored
  · simpa only [hpassed] using hfresh
  · simpa only [hpassed] using halone
  · simpa only [hb, hpassed, htried] using hduplicate

omit [DecidableEq ι] in
theorem start (b : Books) : Filed bids b b fun _ => .before .add := by
  have hnot : (Progress.before .add).passed .add ≠ true := by decide
  refine ⟨fun id => ⟨.inl, ?_⟩, fun _ h => absurd h hnot, fun _ _ _ h => absurd h hnot,
    fun _ h => absurd h (by decide)⟩
  rintro (h | ⟨i, -, h⟩)
  · exact h
  · exact absurd h hnot

/-- A command that finds its identifier taken stops there. -/
theorem duplicated (h : Filed bids b₀ b p) (hi : p i = .before .add)
    (htaken : (b.trainings (bids i).id).isSome) :
    Filed bids b₀ b (Function.update p i (.stopped .add e)) := by
  have hpassed : ∀ j, (Function.update p i (.stopped .add e) j).passed .add = (p j).passed .add :=
    same_update (Progress.passed .add) (by rw [hi]; rfl)
  obtain ⟨hstored, hfresh, halone, hduplicate⟩ := h
  constructor
  · simpa only [hpassed] using hstored
  · simpa only [hpassed] using hfresh
  · simpa only [hpassed] using halone
  · intro j htried hnot
    by_cases hj : j = i
    · rw [hj]
      exact htaken
    · rw [Function.update_of_ne hj] at htried hnot
      exact hduplicate j htried hnot

/-- A command that finds its identifier free is the only one to add its training. -/
theorem added (h : Filed bids b₀ b p) (hfree : b.trainings (bids i).id = none) (t : Training) :
    Filed bids b₀ (b.setTraining (bids i).id t) (Function.update p i (.before .charge)) := by
  obtain ⟨hstored, hfresh, halone, hduplicate⟩ := h
  -- Nobody has added this identifier, since it is free.
  have hnew : ∀ j, (bids j).id = (bids i).id → (p j).passed .add = false := by
    intro j hid
    by_contra hpassed
    have hsome := (hstored (bids i).id).mpr (.inr ⟨j, hid, by simpa using hpassed⟩)
    rw [hfree] at hsome
    cases hsome
  have hpassed : ∀ j, (Function.update p i (.before .charge) j).passed .add = true ↔
      j = i ∨ (p j).passed .add = true := by
    intro j
    by_cases hj : j = i
    · rw [hj, Function.update_self]
      exact iff_of_true rfl (.inl rfl)
    · rw [Function.update_of_ne hj]
      exact ⟨.inr, fun h => h.resolve_left hj⟩
  refine ⟨fun id => ?_, fun j hj => ?_, fun j k hid hj hk => ?_, fun j htried hnot => ?_⟩
  · rw [Books.setTraining_trainings]
    by_cases hid : id = (bids i).id
    · rw [if_pos hid]
      exact iff_of_true rfl (.inr ⟨i, hid.symm, (hpassed i).mpr (.inl rfl)⟩)
    · rw [if_neg hid, hstored id]
      refine or_congr_right (exists_congr fun j => and_congr_right fun hj => ?_)
      rw [hpassed j]
      refine ⟨.inr, fun h => h.resolve_left ?_⟩
      rintro rfl
      exact hid hj.symm
  · rcases (hpassed j).mp hj with rfl | hj
    · by_contra hsome
      have hstill := (hstored (bids j).id).mpr (.inl (Option.isSome_iff_ne_none.mpr hsome))
      rw [hfree] at hstill
      cases hstill
    · exact hfresh j hj
  · rcases (hpassed j).mp hj with rfl | hj' <;> rcases (hpassed k).mp hk with rfl | hk'
    · rfl
    · rw [hnew k hid.symm] at hk'
      cases hk'
    · rw [hnew j hid] at hj'
      cases hj'
    · exact halone j k hid hj' hk'
  · rw [Books.setTraining_trainings]
    split
    · rfl
    · next hid =>
        have hj : j ≠ i := fun hj => hid (congrArg (fun k => (bids k).id) hj)
        rw [Function.update_of_ne hj] at htried hnot
        exact hduplicate j htried hnot

theorem add (h : Filed bids b₀ b p) (hi : p i = .before .add) (ht : (bids i).Takes b .add e b') :
    Filed bids b₀ b' (Function.update p i (Stage.add.onward e)) := by
  cases ht with
  | duplicate htaken => exact h.duplicated hi htaken
  | added hfree => exact h.added hfree _

end Filed

/-- The number of commands of an owner that have tried to charge. -/
def charges [Fintype ι] (bids : ι → Bid) (owner : String) (p : ι → Progress) : Nat :=
  (Finset.univ.filter fun i => (bids i).owner = owner ∧ (p i).tried .charge = true).card

/-- What is left of a balance of which so many credits were asked. -/
def rest (balance : Int) (asked : Nat) : Int := balance - min balance asked

theorem rest_succ (balance : Int) (asked : Nat) :
    rest balance (asked + 1) =
      if 1 ≤ rest balance asked then rest balance asked - 1 else rest balance asked := by
  unfold rest
  split <;> omega

variable (bids) in
/-- Every account has paid for the charges that were tried, as far as it could. -/
def Charged [Fintype ι] (b₀ b : Books) (p : ι → Progress) : Prop :=
  ∀ owner a, b₀.accounts owner = some a →
    b.accounts owner = some { a with balance := rest a.balance (charges bids owner p) }

/-- No account of an owner is in debt, or beyond the greatest balance. -/
def Solvent (bids : ι → Bid) (b : Books) : Prop :=
  ∀ i a, b.accounts (bids i).owner = some a → 0 ≤ a.balance ∧ a.balance ≤ Account.greatestBalance

namespace Charged

variable [Fintype ι]

omit [DecidableEq ι] in
theorem charges_congr {p p' : ι → Progress} (h : ∀ j, (p' j).tried .charge = (p j).tried .charge)
    (owner : String) : charges bids owner p' = charges bids owner p := by
  unfold charges
  simp only [h]

omit [DecidableEq ι] in
theorem congr {p' : ι → Progress} (h : Charged bids b₀ b p) (hb : b'.accounts = b.accounts)
    (htried : ∀ j, (p' j).tried .charge = (p j).tried .charge) : Charged bids b₀ b' p' := by
  intro owner a ha
  rw [hb, charges_congr htried]
  exact h owner a ha

omit [DecidableEq ι] in
theorem start (hb : ∀ owner a, b.accounts owner = some a → 0 ≤ a.balance) :
    Charged bids b b fun _ => .before .add := by
  intro owner a ha
  have hnone : charges bids owner (fun _ => .before .add) = 0 := by
    rw [charges, Finset.card_eq_zero]
    refine Finset.filter_eq_empty_iff.mpr fun i _ h => ?_
    exact absurd h.2 (by decide)
  have hn := hb owner a ha
  have hrest : rest a.balance 0 = a.balance := by
    unfold rest
    omega
  rw [hnone, hrest, ha]

/-- Of a command whose charge was just tried there is one more. -/
theorem charges_update {e : Ending Failure Unit} (hi : p i = .before .charge) (owner : String) :
    charges bids owner (Function.update p i (Stage.charge.onward e)) =
      charges bids owner p + if (bids i).owner = owner then 1 else 0 := by
  have hbefore : (p i).tried .charge = false := by rw [hi]; rfl
  unfold charges
  split
  · next howner =>
      rw [← Finset.card_insert_of_notMem (a := i)]
      · congr 1
        ext j
        by_cases hj : j = i
        · simp [hj, howner, Stage.tried_onward]
        · simp [hj]
      · simp [hbefore]
  · next howner =>
      rw [Nat.add_zero]
      congr 1
      ext j
      by_cases hj : j = i
      · simp [hj, howner]
      · simp [hj]

/-- A command charges its owner one credit, or the owner has none left. -/
theorem charge (h : Charged bids b₀ b p) (hb₀ : Solvent bids b₀) (hi : p i = .before .charge)
    (ht : (bids i).Takes b .charge e b') :
    Charged bids b₀ b' (Function.update p i (Stage.charge.onward e)) := by
  intro owner a ha
  have hnow := h owner a ha
  rw [charges_update hi]
  by_cases howner : (bids i).owner = owner
  · subst howner
    obtain ⟨hn, hle⟩ := hb₀ i a ha
    have hbalance : 0 ≤ rest a.balance (charges bids (bids i).owner p) ∧
        rest a.balance (charges bids (bids i).owner p) ≤ Account.greatestBalance := by
      unfold rest
      omega
    have hcharge := Books.newBalance?_charge_eq (b := b)
      (a := { a with balance := rest a.balance (charges bids (bids i).owner p) }) hbalance.1 hbalance.2
    rw [if_pos rfl, rest_succ]
    cases ht with
    | @unpaid f hpoor =>
        have hnone := hpoor _ hnow
        rw [hcharge] at hnone
        split at hnone
        · cases hnone
        · next hlow => rw [if_neg hlow, hnow]
    | @charged a' n ha' hn' =>
        obtain rfl := Option.some.inj (hnow.symm.trans ha')
        rw [hcharge] at hn'
        split at hn'
        · next hhigh =>
            obtain rfl := Option.some.inj hn'
            rw [if_pos hhigh, Books.setAccount_accounts, if_pos rfl]
        · cases hn'
  · rw [if_neg howner, Nat.add_zero]
    cases ht with
    | unpaid hpoor => exact hnow
    | charged ha' hn => rw [Books.setAccount_accounts, if_neg (Ne.symm howner), hnow]

end Charged

variable (bids) in
/-- An hour is as it was in the beginning, or it was open and one command has booked it. -/
structure Won (b₀ b : Books) (p : ι → Progress) : Prop where
  hours : ∀ second, (b.hours second = b₀.hours second ∧
      ∀ i, (bids i).time.second = second → p i ≠ .booked) ∨
    (b₀.availability? second = some .available ∧
      b.availability? second = some .trainingScheduled ∧
      ∃ i, (bids i).time.second = second ∧ p i = .booked)
  alone : ∀ i j, (bids i).time.second = (bids j).time.second → p i = .booked → p j = .booked → i = j
  lost : ∀ i e, p i = .stopped .book e →
    b.availability? (bids i).time.second ≠ some .available ∧
      (b₀.availability? (bids i).time.second = some .available →
        ∃ f : Failure, e = .refused f ∧ f.violation? = some .hourNotAvailable)

namespace Won

omit [DecidableEq ι] in
theorem start (b : Books) : Won bids b b fun _ => .before .add :=
  ⟨fun _ => .inl ⟨rfl, fun _ _ => nofun⟩, fun _ _ _ => nofun, fun _ _ => nofun⟩

omit [DecidableEq ι] in
theorem congr {p' : ι → Progress} (h : Won bids b₀ b p) (hb : b'.hours = b.hours)
    (hbooked : ∀ j, p' j = .booked ↔ p j = .booked)
    (hlost : ∀ j e, p' j = .stopped .book e ↔ p j = .stopped .book e) : Won bids b₀ b' p' := by
  have ha : ∀ second, b'.availability? second = b.availability? second := by
    intro second
    rw [Books.availability?, hb, Books.availability?]
  obtain ⟨hhours, halone, hstopped⟩ := h
  constructor
  · simpa only [hb, ha, hbooked, ne_eq] using hhours
  · simpa only [hbooked] using halone
  · simpa only [ha, hlost, ne_eq] using hstopped

omit [DecidableEq ι] in
/-- An hour that was open is open still, or booked. -/
theorem availability_cases (h : Won bids b₀ b p) (second : Int)
    (hopen : b₀.availability? second = some .available) :
    (b.availability? second = some .available ∧
      ∀ i, (bids i).time.second = second → p i ≠ .booked) ∨
    (b.availability? second = some .trainingScheduled ∧
      ∃ i, (bids i).time.second = second ∧ p i = .booked) := by
  rcases h.hours second with ⟨hsame, hnobody⟩ | ⟨-, hbooked, hwinner⟩
  · refine .inl ⟨?_, hnobody⟩
    rw [Books.availability?, hsame]
    exact hopen
  · exact .inr ⟨hbooked, hwinner⟩

/-- A command that finds its hour open is the only one to book it. -/
theorem win (h : Won bids b₀ b p) (hi : p i = .before .book) {hour : Hour}
    (hopen : b.availability? (bids i).time.second = some .available)
    (hbooked : hour.availability = .trainingScheduled) :
    Won bids b₀ (b.setHour (bids i).time.second hour) (Function.update p i .booked) := by
  have hother : ∀ j, j ≠ i → Function.update p i .booked j = p j := fun j hj =>
    Function.update_of_ne hj ..
  obtain ⟨hhours, halone, hlost⟩ := h
  obtain ⟨hsame, hnobody⟩ := (hhours (bids i).time.second).resolve_right <| by
    rintro ⟨-, hscheduled, -⟩
    rw [hopen] at hscheduled
    cases hscheduled
  have hfirst : b₀.availability? (bids i).time.second = some .available := by
    rw [← hopen, Books.availability?, Books.availability?, hsame]
  refine ⟨fun second => ?_, fun j k hjk hj hk => ?_, fun j e hj => ?_⟩
  · rw [Books.availability?_setHour, Books.setHour_hours]
    by_cases hsecond : second = (bids i).time.second
    · rw [if_pos hsecond, hsecond, hbooked]
      exact .inr ⟨hfirst, if_pos rfl, i, rfl, Function.update_self ..⟩
    · rw [if_neg hsecond, if_neg hsecond]
      have hne : ∀ j, (bids j).time.second = second → j ≠ i := by
        rintro j hj rfl
        exact hsecond hj.symm
      rcases hhours second with ⟨hsame, hnobody⟩ | ⟨hfirst, hscheduled, j, hj, hwon⟩
      · refine .inl ⟨hsame, fun j hj => ?_⟩
        rw [hother j (hne j hj)]
        exact hnobody j hj
      · refine .inr ⟨hfirst, hscheduled, j, hj, ?_⟩
        rw [hother j (hne j hj), hwon]
  · by_cases hji : j = i <;> by_cases hki : k = i
    · rw [hji, hki]
    · rw [hother k hki] at hk
      exact absurd hk (hnobody k (by rw [← hjk, hji]))
    · rw [hother j hji] at hj
      exact absurd hj (hnobody j (by rw [hjk, hki]))
    · rw [hother j hji] at hj
      rw [hother k hki] at hk
      exact halone j k hjk hj hk
  · have hji : j ≠ i := by
      rintro rfl
      rw [Function.update_self] at hj
      cases hj
    rw [hother j hji] at hj
    obtain ⟨hclosed, hcause⟩ := hlost j e hj
    refine ⟨?_, hcause⟩
    rw [Books.availability?_setHour]
    split
    · rw [hbooked]
      decide
    · exact hclosed

/-- A command that does not find its hour open stops there. -/
theorem lose (h : Won bids b₀ b p) (hi : p i = .before .book)
    (hclosed : b.availability? (bids i).time.second ≠ some .available)
    (hcause : b.availability? (bids i).time.second ≠ none →
      ∃ f : Failure, e = .refused f ∧ f.violation? = some .hourNotAvailable) :
    Won bids b₀ b (Function.update p i (.stopped .book e)) := by
  have hother : ∀ j, j ≠ i → Function.update p i (.stopped .book e) j = p j := fun j hj =>
    Function.update_of_ne hj ..
  have hbooked : ∀ j, Function.update p i (.stopped .book e) j = .booked ↔ p j = .booked :=
    fun j => iff_of_eq (same_update (· = .booked) (by simp [hi]) j)
  have hcases := h.availability_cases
  obtain ⟨hhours, halone, hlost⟩ := h
  constructor
  · simpa only [hbooked, ne_eq] using hhours
  · simpa only [hbooked] using halone
  · intro j e' hj
    by_cases hji : j = i
    · subst hji
      rw [Function.update_self] at hj
      cases hj
      refine ⟨hclosed, fun hfirst => hcause fun hnone => ?_⟩
      -- An hour that was open in the beginning is still there.
      rcases hcases _ hfirst with ⟨hopen, -⟩ | ⟨hscheduled, -⟩
      · rw [hopen] at hnone
        cases hnone
      · rw [hscheduled] at hnone
        cases hnone
    · rw [hother j hji] at hj
      exact hlost j e' hj

theorem book (h : Won bids b₀ b p) (hi : p i = .before .book) (ht : (bids i).Takes b .book e b') :
    Won bids b₀ b' (Function.update p i (Stage.book.onward e)) := by
  cases ht with
  | booked hopen hh => exact h.win hi hopen hh
  | @lost f a hclosed ha hf =>
      refine h.lose hi ?_ fun _ => ⟨f, rfl, hf⟩
      rw [hclosed]
      exact fun he => ha (Option.some.inj he)
  | unknown hnone he =>
      have hmissing : b.availability? (bids i).time.second = none := by
        rw [Books.availability?, hnone]
        rfl
      rw [Stage.onward_of_not_done he]
      refine h.lose hi ?_ fun hsome => absurd hmissing hsome
      rw [hmissing]
      decide

omit [DecidableEq ι] in
/-- A command that has come to book an hour that was open has booked it, or was told that it is not
available. -/
theorem booked_or_lost {race : Race ι} (h : Won bids b₀ b race.progress) {i : ι}
    (hover : (race.progress i).finished = true)
    (hopen : b₀.availability? (bids i).time.second = some .available)
    (hreached : (race.progress i).reached .book = true) :
    race.progress i = .booked ∨ ∃ f : Failure, race.progress i = .stopped .book (.refused f) ∧
      f.violation? = some .hourNotAvailable ∧
      ∃ j, (bids j).time.second = (bids i).time.second ∧ race.progress j = .booked := by
  rw [Progress.reached_of_finished hover] at hreached
  by_cases hbooked : race.progress i = .booked
  · exact .inl hbooked
  · have hnot : (race.progress i).passed .book = false := by
      rw [Bool.eq_false_iff]
      exact fun hp => hbooked (Progress.passed_book.mp hp)
    obtain ⟨e, he⟩ := Progress.stopped_of_tried hreached hnot
    obtain ⟨hclosed, hcause⟩ := h.lost i e he
    obtain ⟨f, rfl, hf⟩ := hcause hopen
    rcases h.availability_cases _ hopen with ⟨hstill, -⟩ | ⟨-, hwinner⟩
    · exact absurd hstill hclosed
    · exact .inr ⟨f, he, hf, hwinner⟩

end Won

/-! ### The outcome -/

section outcome

variable [Fintype ι]

variable (bids) in
/-- What holds while the commands race. -/
structure Fair (b₀ : Books) (race : Race ι) : Prop where
  sound : race.world.store.Sound
  filed : Filed bids b₀ race.world.store.books race.progress
  charged : Charged bids b₀ race.world.store.books race.progress
  won : Won bids b₀ race.world.store.books race.progress

/-- A step keeps all three invariants: the one of its own kind by what it does, and the others because
it does nothing to them. -/
theorem Fair.pick (h : Fair bids b₀ race) (hb₀ : Solvent bids b₀) (i : ι) {s : Setting}
    (hs : s.held = Held.nothing) : Fair bids b₀ (race.pick bids i s) := by
  obtain hfinished | ⟨stage, hp⟩ := (race.progress i).finished_or_before
  · rw [pick_finished hfinished]
    exact h
  rw [pick_before hp]
  obtain ⟨hsound, hfiled, hcharged, hwon⟩ := h
  obtain ⟨hsound', htakes⟩ := Act.Meets.takes (bids i) stage hs race.world hsound rfl
  generalize (bids i).act stage s race.world = r at hsound' htakes
  obtain ⟨e, w⟩ := r
  refine ⟨hsound', ?_, ?_, ?_⟩
  · by_cases hstage : stage = .add
    · subst hstage
      exact hfiled.add hp htakes
    · exact hfiled.congr (htakes.trainings hstage) (passed_update hp (Ne.symm hstage))
        (tried_update hp (Ne.symm hstage))
  · by_cases hstage : stage = .charge
    · subst hstage
      exact hcharged.charge hb₀ hp htakes
    · exact hcharged.congr (htakes.accounts hstage) (tried_update hp (Ne.symm hstage))
  · by_cases hstage : stage = .book
    · subst hstage
      exact hwon.book hp htakes
    · exact hwon.congr (htakes.hours hstage) (booked_update hp hstage) (lost_update hp hstage)

theorem Fair.run (h : Fair bids b₀ race) (hb₀ : Solvent bids b₀) {picks : List (ι × Setting)}
    (hpicks : ∀ p ∈ picks, p.2.held = Held.nothing) : Fair bids b₀ (run bids race picks) := by
  induction picks generalizing race with
  | nil => exact h
  | cons p rest ih =>
      have hp := hpicks p List.mem_cons_self
      exact ih (h.pick hb₀ p.1 hp) fun q hq => hpicks q (List.mem_cons_of_mem _ hq)

/-- How a race ends that began with the books `b₀`. -/
structure Settled (bids : ι → Bid) (b₀ : Books) (race : Race ι) : Prop where
  /-- Of the commands that share a free identifier, exactly one adds its training. -/
  fresh : ∀ i, b₀.trainings (bids i).id = none →
    ∃! j, (bids j).id = (bids i).id ∧ (race.progress j).passed .add = true
  /-- With an identifier that is taken none does. -/
  taken : ∀ i, (b₀.trainings (bids i).id).isSome → (race.progress i).passed .add = false
  /-- Of the commands that come to book an hour that was open, exactly one does. -/
  winner : ∀ i, b₀.availability? (bids i).time.second = some .available →
    (race.progress i).reached .book = true →
      ∃! j, (bids j).time.second = (bids i).time.second ∧ race.progress j = .booked
  /-- The others are told that the hour is not available. -/
  losers : ∀ i, b₀.availability? (bids i).time.second = some .available →
    (race.progress i).reached .book = true → race.progress i ≠ .booked →
      ∃ f : Failure, race.progress i = .stopped .book (.refused f) ∧
        f.violation? = some .hourNotAvailable
  /-- An hour that was not open is not booked. -/
  closed : ∀ i, b₀.availability? (bids i).time.second ≠ some .available →
    race.progress i ≠ .booked
  /-- An hour that was open is booked in the end exactly if a command has booked it. -/
  scheduled : ∀ second, b₀.availability? second = some .available →
    (race.world.store.books.availability? second = some .trainingScheduled ↔
      ∃ i, (bids i).time.second = second ∧ race.progress i = .booked)
  /-- An hour that nobody has booked is as it was. -/
  untouched : ∀ second, (∀ i, (bids i).time.second = second → race.progress i ≠ .booked) →
    race.world.store.books.hours second = b₀.hours second
  /-- Every owner has paid a credit for each of their commands that came to the charge, as far as
  there was one. -/
  balances : ∀ owner a, b₀.accounts owner = some a → ∃ n, 0 ≤ n ∧
    n = a.balance - min a.balance (Finset.univ.filter fun i =>
      (bids i).owner = owner ∧ (race.progress i).reached .charge = true).card ∧
    race.world.store.books.accounts owner = some { a with balance := n }

omit [DecidableEq ι] in
theorem Fair.finish (h : Fair bids b₀ race) (hover : race.Over) : Settled bids b₀ race := by
  obtain ⟨-, hfiled, hcharged, hwon⟩ := h
  constructor
  case fresh =>
    intro i hfree
    have htried : (race.progress i).tried .add = true := by
      rw [← Progress.reached_of_finished (hover i), Progress.reached_add]
    have hsome : ∃ j, (bids j).id = (bids i).id ∧ (race.progress j).passed .add = true := by
      by_cases hpassed : (race.progress i).passed .add = true
      · exact ⟨i, rfl, hpassed⟩
      · have htaken := hfiled.duplicate i htried (by simpa using hpassed)
        refine ((hfiled.stored _).mp htaken).resolve_left fun hold => ?_
        rw [hfree] at hold
        cases hold
    obtain ⟨j, hj, hpassed⟩ := hsome
    exact ⟨j, ⟨hj, hpassed⟩, fun k hk => hfiled.alone k j (hk.1.trans hj.symm) hk.2 hpassed⟩
  case taken =>
    intro i htaken
    rw [Bool.eq_false_iff]
    intro hpassed
    rw [hfiled.fresh i hpassed] at htaken
    cases htaken
  case winner =>
    intro i hopen hreached
    have hsome : ∃ j, (bids j).time.second = (bids i).time.second ∧ race.progress j = .booked := by
      rcases hwon.booked_or_lost (hover i) hopen hreached with hbooked | ⟨-, -, -, hwinner⟩
      · exact ⟨i, rfl, hbooked⟩
      · exact hwinner
    obtain ⟨j, hj, hbooked⟩ := hsome
    exact ⟨j, ⟨hj, hbooked⟩, fun k hk => hwon.alone k j (hk.1.trans hj.symm) hk.2 hbooked⟩
  case losers =>
    intro i hopen hreached hnot
    rcases hwon.booked_or_lost (hover i) hopen hreached with hbooked | ⟨f, hf, hcause, -⟩
    · exact absurd hbooked hnot
    · exact ⟨f, hf, hcause⟩
  case closed =>
    intro i hclosed hbooked
    rcases hwon.hours (bids i).time.second with ⟨-, hnobody⟩ | ⟨hopen, -⟩
    · exact hnobody i rfl hbooked
    · exact hclosed hopen
  case scheduled =>
    intro second hopen
    rcases hwon.availability_cases _ hopen with ⟨hstill, hnobody⟩ | ⟨hscheduled, hwinner⟩
    · rw [hstill]
      refine iff_of_false nofun ?_
      rintro ⟨i, hi, hbooked⟩
      exact hnobody i hi hbooked
    · exact iff_of_true hscheduled hwinner
  case untouched =>
    intro second hnobody
    rcases hwon.hours second with ⟨hsame, -⟩ | ⟨-, -, i, hi, hbooked⟩
    · exact hsame
    · exact absurd hbooked (hnobody i hi)
  case balances =>
    intro owner a ha
    have hasked : charges bids owner race.progress = (Finset.univ.filter fun i =>
        (bids i).owner = owner ∧ (race.progress i).reached .charge = true).card := by
      unfold charges
      simp only [Progress.reached_of_finished (hover _)]
    refine ⟨rest a.balance (charges bids owner race.progress), ?_, ?_, hcharged owner a ha⟩
    · unfold rest
      omega
    · rw [rest, hasked]

/-- **One winner per hour**: however the steps of the commands interleave, when all have finished, one
of those that share a free identifier has added its training, one of those that came to book an open
hour has booked it, the others were told that it is not available, and every owner has paid for each
of their commands that came to the charge, as far as they could. -/
theorem one_winner {w : World} (hw : w.store.Sound)
    (hb : ∀ i, ∀ a ∈ w.store.books.accounts (bids i).owner, a.balance ≤ Account.greatestBalance)
    {picks : List (ι × Setting)} (hpicks : ∀ p ∈ picks, p.2.held = Held.nothing)
    (hover : (run bids (start w) picks).Over) :
    Settled bids w.store.books (run bids (start w) picks) := by
  have hsolvent : Solvent bids w.store.books := fun i a ha => ⟨hw.balance_nonneg ha, hb i a ha⟩
  have hstart : Fair bids w.store.books (start w) :=
    ⟨hw, .start _, .start fun _ _ ha => hw.balance_nonneg ha, .start _⟩
  exact (hstart.run hsolvent hpicks).finish hover

end outcome

/-! ### Two races -/

section samples

open Sample

/-- A command is picked at the beginning of the year. -/
def turn {n : Nat} (i : Fin n) : Fin n × Setting := (i, .outer newYear .standard .bare)

/-- Noon on the second of January, for an owner. -/
def noonFor (id : String) (owner : Caller) : Bid :=
  ⟨id, owner.id, owner.name, ⟨1893585600 * Moment.perSecond, 0⟩, "legs"⟩

/-- Ann and Bob race for noon, and Bob tries a second time with the identifier of Ann's training: Ann
and Bob both pay, Bob books the hour, and his second command stops at once. -/
theorem one_winner_noon :
    let bids : Fin 3 → Bid := ![noonFor "1" ann, noonFor "2" bob, noonFor "1" bob]
    let w := (playOn (.tables (.empty 1)) []).2
    let picks := [turn 0, turn 1, turn 2, turn 1, turn 0, turn 1, turn 0]
    let raced := run bids (start w) picks
    (∀ i, (bids i).Valid) ∧
      [0, 1, 2].map (fun i => (raced.progress i).passed .add) = [true, true, false] ∧
      [0, 1, 2].map (fun i => (raced.progress i).passed .book) = [false, true, false] ∧
      Settled bids w.store.books raced := by
  refine ⟨by decide +kernel, by decide +kernel, by decide +kernel, ?_⟩
  have hrun := runOn (.tables 1) []
  generalize hw : (playOn (.tables (.empty 1)) []).2 = w at hrun ⊢
  refine one_winner hrun.sound ?_ (by decide +kernel) ?_
  · rw [← hw]
    decide +kernel
  · rw [← hw]
    unfold Over
    decide +kernel

/-- Without a bound on the balances, an owner need not pay: Ann's balance is beyond the integers of its
column, and her booking takes nothing from it.  Nor does she pay if her account cannot be updated.  And
an hour need not be booked by a command of the race to be booked in the end: noon was Ann's before, and
Bob's is the only command. -/
theorem not_one_winner :
    (¬ ∀ (bid : Bid) (w : World) (picks : List (Fin 1 × Setting)), bid.Valid → w.store.Sound →
      (∀ p ∈ picks, p.2.held = Held.nothing) →
      let raced := run (fun _ : Fin 1 => bid) (start w) picks
      raced.Over → raced.progress 0 = .booked →
        ∀ a, w.store.books.accounts bid.owner = some a →
          raced.world.store.books.accounts bid.owner =
            some { a with balance := a.balance - min a.balance 1 }) ∧
    (¬ ∀ (bid : Bid) (w : World) (picks : List (Fin 1 × Setting)), bid.Valid →
      (∀ p ∈ picks, p.2.held = Held.nothing) →
      let raced := run (fun _ : Fin 1 => bid) (start w) picks
      raced.Over → (raced.progress 0).reached .charge = true →
        ∀ a, w.store.books.accounts bid.owner = some a → a.balance ≤ Account.greatestBalance →
          raced.world.store.books.accounts bid.owner =
            some { a with balance := a.balance - min a.balance 1 }) ∧
    ¬ ∀ (bid : Bid) (w : World) (picks : List (Fin 1 × Setting)), bid.Valid → w.store.Sound →
      (∀ p ∈ picks, p.2.held = Held.nothing) →
      let raced := run (fun _ : Fin 1 => bid) (start w) picks
      raced.Over →
        (raced.world.store.books.availability? bid.time.second = some .trainingScheduled ↔
          raced.progress 0 = .booked) := by
  refine ⟨?_, ?_, ?_⟩
  · intro h
    have hrun := runOn (.tables 1) [.changeBalance tess ann.id ⟨9223372036854775807⟩]
    generalize hw : (playOn (.tables (.empty 1))
      [.changeBalance tess ann.id ⟨9223372036854775807⟩]).2 = w at hrun
    have hpaid := h (noonFor "1" ann) w [turn 0, turn 0, turn 0] (by decide +kernel) hrun.sound
      (by decide +kernel) (by rw [← hw]; unfold Over; decide +kernel) (by rw [← hw]; decide +kernel)
      ⟨ann.id, .attendee, ann.name, 9223372036854775808, none⟩ (by rw [← hw]; decide +kernel)
    rw [← hw] at hpaid
    revert hpaid
    decide +kernel
  · intro h
    generalize hw : (playOn (.tables { Tables.empty 1 with
      traps := [⟨.accounts, .update, some "disk I/O error"⟩] }) []).2 = w
    have hpaid := h (noonFor "1" ann) w [turn 0, turn 0, turn 0] (by decide +kernel)
      (by decide +kernel) (by rw [← hw]; unfold Over; decide +kernel) (by rw [← hw]; decide +kernel)
      ⟨ann.id, .attendee, ann.name, 1, none⟩ (by rw [← hw]; decide +kernel) (by decide)
    rw [← hw] at hpaid
    revert hpaid
    decide +kernel
  · intro h
    have hrun := Sample.run [.createTraining ann "1" noon]
    generalize hw : (play [.createTraining ann "1" noon]).2 = w at hrun
    have hbooked := h (noonFor "2" bob) w [turn 0, turn 0, turn 0] (by decide +kernel) hrun.sound
      (by decide +kernel) (by rw [← hw]; unfold Over; decide +kernel)
    rw [← hw] at hbooked
    revert hbooked
    decide +kernel

end samples

end Race

end TrainerBooking
