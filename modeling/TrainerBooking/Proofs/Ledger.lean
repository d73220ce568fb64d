import Mathlib.Algebra.Ring.Int.Defs
import TrainerBooking.Proofs.Postings

/-! # The ledger of the balances

A log is also a ledger: every entry posts an amount to an account, or opens one, or leaves the
balances alone.

* **Entries.** `Entry.posting?` and `Entry.opening?` read off an entry what its deed came to post, and
  which account it opened.  `Entry.Accounted` lists what an entry may have done to the balances.
* **Adding up.** A balance adds up (`Entry.AddsUp`) if it is what its account was opened with and all
  that was taken on it since.
* **Exact.** As long as nothing spills over the integers of a column, every balance adds up and is
  never negative, and the next change of a balance goes through exactly if the sum is a balance
  (`Log.ledger`).  In memory nothing spills.  In tables a sum that does is taken all the same, and what
  is posted to it then may be lost (`Log.not_exact`). -/

namespace TrainerBooking

/-! ### Entries -/

/-- The numbers of credits in the input of the deed. -/
def Deed.credits (deed : Deed) : List Int := deed.granted?.elim [] (·.credits)

/-- What an order posts is a number of the column, if its input is. -/
theorem Desk.Order.fits_of_posting {order : Order} {now : Moment} {b : Books} {p : Posting}
    (h : order.posting? now b = some p) (hfits : ∀ i ∈ order.credits, Column.fits i = true) :
    Column.fits p.amount = true := by
  cases order with
  | changeBalance id amount =>
      cases h
      exact hfits amount (List.mem_singleton_self _)
  | scheduleTraining id owner ownerName time notes =>
      simp only [posting?] at h
      split at h
      · split at h
        · cases h
          rfl
        · cases h
      · cases h
  | cancelTraining id caller =>
      obtain ⟨t, ht, h⟩ := Option.bind_eq_some_iff.mp h
      dsimp only at h
      split at h
      · cases h
        obtain ⟨hlow, hhigh⟩ := t.cancelCredit_bounds caller.role now
        have hfits : Column.fits (t.cancelCredit caller.role now) = true :=
          Column.fits_iff.mpr ⟨by omega, by omega⟩
        exact hfits
      · cases h
  | _ => cases h

namespace Entry

/-- The amount that the deed of the entry came to post. -/
def posting? (e : Entry) : Option Posting :=
  e.deed.granted?.bind (·.posting? e.now e.before.books)

/-- The account that the deed of the entry opened, and its first balance. -/
def opening? (e : Entry) : Option Posting :=
  if e.done then e.deed.granted?.bind (·.opening?) else none

/-- The amount that was posted to the account and had to be taken. -/
def posted (id : String) (e : Entry) : Int := e.posting?.elim 0 fun p =>
  if p.id = id ∧ (e.before.books.due? p).isSome then p.amount else 0

/-- Are the numbers in the input of the deed 64-bit ones? -/
def Fits (e : Entry) : Prop := ∀ i ∈ e.deed.credits, Column.fits i = true

instance (e : Entry) : Decidable e.Fits := by
  unfold Fits
  infer_instance

/-- Did the deed come to take an account beyond the integers of the column? -/
def Spills (e : Entry) : Prop := ∃ p ∈ e.posting?, e.before.books.Spills p

instance (e : Entry) : Decidable e.Spills := by
  unfold Spills
  infer_instance

/-- What an entry may have done to the balances: nothing, open an account, take a posting whose sum is
a balance, or fail for any other posting.  A change of a balance that is taken is done. -/
inductive Accounted (e : Entry) : Prop
  | idle (hposting : e.posting? = none) (hopening : e.opening? = none)
      (hsame : e.after.books.balance? = e.before.books.balance?)
  | opened {p : Posting} (hposting : e.posting? = none) (hopening : e.opening? = some p)
      (hfree : e.before.books.balance? p.id = none) (hn : 0 ≤ p.amount)
      (hnew : e.after.books.balance? =
        Function.update e.before.books.balance? p.id (some p.amount))
  | taken {p : Posting} {n : Int} (hposting : e.posting? = some p)
      (hdone : ∀ id amount, e.deed.granted? = some (.changeBalance id amount) → e.done = true)
      (hdue : e.before.books.due? p = some n)
      (hnew : e.after.books.balance? = Function.update e.before.books.balance? p.id (some n))
  | refused {p : Posting} (hposting : e.posting? = some p) (hdue : e.before.books.due? p = none)
      (hdone : e.done = false) (hsame : e.after.books.accounts = e.before.books.accounts)

/-- The balance is what the account was opened with, and all that was taken on it since. -/
def AddsUp (log : List Entry) (id : String) (n : Int) : Prop :=
  ∃ earlier e later opening, log = earlier ++ e :: later ∧ e.opening? = some ⟨id, opening⟩ ∧
    n = opening + (later.map (posted id)).sum

variable {e : Entry} {log : List Entry} {id : String} {n : Int}

theorem posted_of_none (h : e.posting? = none) : e.posted id = 0 := by
  rw [posted, h, Option.elim_none]

theorem posted_of_refused {p : Posting} (h : e.posting? = some p)
    (hdue : e.before.books.due? p = none) : e.posted id = 0 := by
  rw [posted, h, Option.elim_some, hdue, if_neg fun h => Bool.false_ne_true h.2]

theorem posted_of_other {p : Posting} (h : e.posting? = some p) (hid : id ≠ p.id) :
    e.posted id = 0 := by
  rw [posted, h, Option.elim_some, if_neg fun h => hid h.1.symm]

theorem posted_of_taken {p : Posting} (h : e.posting? = some p)
    (hdue : e.before.books.due? p = some n) : e.posted p.id = p.amount := by
  rw [posted, h, Option.elim_some, hdue, if_pos ⟨rfl, rfl⟩]

theorem fits_of_opening {p : Posting} (h : e.opening? = some p) (hfits : e.Fits) :
    p.amount ≤ Account.greatestBalance := by
  unfold opening? at h
  split at h
  · obtain ⟨order, horder, hopening⟩ := Option.bind_eq_some_iff.mp h
    cases order with
    | createUser id role name balance =>
        cases hopening
        refine (Column.fits_iff.mp (hfits balance ?_)).2
        rw [Deed.credits, horder]
        exact List.mem_singleton_self _
    | _ => cases hopening
  · cases h

theorem AddsUp.next (h : AddsUp log id n) (e : Entry) :
    AddsUp (log ++ [e]) id (n + e.posted id) := by
  obtain ⟨earlier, e', later, opening, rfl, hopening, rfl⟩ := h
  refine ⟨earlier, e', later ++ [e], opening, ?_, hopening, ?_⟩
  · rw [List.append_assoc, List.cons_append]
  · rw [List.map_append, List.sum_append, List.map_singleton, List.sum_singleton, Int.add_assoc]

/-- An entry that took nothing on the account leaves its balance adding up. -/
theorem AddsUp.pass (h : AddsUp log id n) (he : e.posted id = 0) : AddsUp (log ++ [e]) id n := by
  have hnext := h.next e
  rwa [he, Int.add_zero] at hnext

theorem AddsUp.opened (h : e.opening? = some ⟨id, n⟩) (log : List Entry) :
    AddsUp (log ++ [e]) id n :=
  ⟨log, e, [], n, rfl, h, (Int.add_zero n).symm⟩

/-- What a deed does to the balances is accounted for, if nothing spills. -/
theorem accounted (h : e.before.books.Tallies e.now e.deed.granted? e.done e.after.books)
    (hb : e.before.books.Solvent) (hfits : e.Fits) (hspills : ¬ e.Spills) : e.Accounted := by
  have hexact : ∀ p, e.posting? = some p → e.before.books.posted? p = e.before.books.due? p := by
    intro p hp
    refine Books.posted?_eq_due? hb ?_ fun hspill => hspills ⟨p, hp, hspill⟩
    obtain ⟨order, horder, hposting⟩ := Option.bind_eq_some_iff.mp hp
    refine Desk.Order.fits_of_posting hposting fun i hi => hfits i ?_
    rw [Deed.credits, horder]
    exact hi
  cases h with
  | idle hposting hopening hsame =>
      refine .idle hposting ?_ hsame
      unfold opening?
      split
      · next hdone => exact hopening hdone
      · rfl
  | opened hposting hopening hdone hfree hn hnew =>
      refine .opened hposting ?_ hfree hn hnew
      rw [opening?, if_pos hdone]
      exact hopening
  | posted hposting hdone hposted hnew =>
      exact .taken hposting hdone (hexact _ hposting ▸ hposted) hnew
  | unposted hposting hposted hdone hsame =>
      exact .refused hposting (hexact _ hposting ▸ hposted) hdone hsame

end Entry

/-! ### Logs -/

/-- The books are those of a ledger: every balance is a number of the column that is not negative, and
adds up. -/
structure Books.Ledgered (b : Books) (log : List Entry) : Prop where
  solvent : b.Solvent
  addsUp : ∀ id n, b.balance? id = some n → Entry.AddsUp log id n

/-- What is accounted for keeps the ledger. -/
theorem Entry.Accounted.ledgered {e : Entry} {log : List Entry} (h : e.Accounted) (hfits : e.Fits)
    (hb : e.before.books.Ledgered log) : e.after.books.Ledgered (log ++ [e]) := by
  -- It is enough to look at each balance by itself.
  suffices hall : ∀ id n, e.after.books.balance? id = some n →
      (0 ≤ n ∧ n ≤ Account.greatestBalance) ∧ AddsUp (log ++ [e]) id n from
    ⟨fun id n hn => (hall id n hn).1, fun id n hn => (hall id n hn).2⟩
  have pass : ∀ {id n}, e.before.books.balance? id = some n → e.posted id = 0 →
      (0 ≤ n ∧ n ≤ Account.greatestBalance) ∧ AddsUp (log ++ [e]) id n :=
    fun hn hposted => ⟨hb.solvent _ _ hn, (hb.addsUp _ _ hn).pass hposted⟩
  intro id n hn
  cases h with
  | idle hposting hopening hsame =>
      rw [hsame] at hn
      exact pass hn (posted_of_none hposting)
  | @opened p hposting hopening hfree hpos hnew =>
      rw [hnew, Function.update_apply] at hn
      split at hn
      · next hid =>
          subst hid
          obtain rfl := Option.some.inj hn
          exact ⟨⟨hpos, e.fits_of_opening hopening hfits⟩, .opened hopening log⟩
      · exact pass hn (posted_of_none hposting)
  | @taken p m hposting hdone hdue hnew =>
      rw [hnew, Function.update_apply] at hn
      split at hn
      · next hid =>
          subst hid
          obtain rfl := Option.some.inj hn
          obtain ⟨k, hk, rfl, hrange⟩ := Books.due?_eq_some hdue
          have hnext := (hb.addsUp p.id k hk).next e
          rw [posted_of_taken hposting hdue] at hnext
          exact ⟨hrange, hnext⟩
      · next hid => exact pass hn (posted_of_other hposting hid)
  | refused hposting hdue hdone hsame =>
      rw [Books.balance?_congr hsame] at hn
      exact pass hn (posted_of_refused hposting hdue)

namespace Log

variable {window : BookingWindow} {log : List Entry} {w : World}

/-- If nothing spills, all entries are accounted for, and the books are those of a ledger. -/
theorem ledgered (h : Log window log w) (hfits : ∀ e ∈ log, e.Fits)
    (hspills : ∀ e ∈ log, ¬ e.Spills) :
    w.store.Sound ∧ (∀ e ∈ log, e.Accounted) ∧ w.store.books.Ledgered log := by
  induction h with
  | @start w h =>
      have hnone : ∀ id n, w.store.books.balance? id ≠ some n := by
        intro id n hn
        rw [Books.balance?, h.accounts] at hn
        cases hn
      exact ⟨h.sound, List.forall_mem_nil _, fun id n hn => absurd hn (hnone id n),
        fun id n hn => absurd hn (hnone id n)⟩
  | @next log w h watch now deed ih =>
      obtain ⟨hfits, hfit⟩ := List.forall_mem_append.mp hfits
      obtain ⟨hspills, hspill⟩ := List.forall_mem_append.mp hspills
      have hfit := hfit _ (List.mem_singleton_self _)
      have hspill := hspill _ (List.mem_singleton_self _)
      obtain ⟨hsound, hlog, hledger⟩ := ih hfits hspills
      obtain ⟨hsound', htallies⟩ := deed.perform_tallies window watch now hsound
      have hnew : (Entry.make window watch now deed w).1.Accounted :=
        Entry.accounted htallies hledger.solvent hfit hspill
      refine ⟨hsound', ?_, hnew.ledgered hfit hledger⟩
      exact List.forall_mem_append.mpr ⟨hlog, List.forall_mem_singleton.mpr hnew⟩

/-- **Balances are an exact ledger** as long as nothing spills over the integers of a column: after any
orders and calls from an empty store, done or refused, every balance is a number of 64 bits that is not
negative, and what its account was opened with and the sum of all that was taken on it since; whatever
was posted was taken exactly if the sum was a balance, and changed no account otherwise; and the next
change of a balance goes through exactly if the sum is a balance, and is refused for what is missing
otherwise. -/
theorem ledger (h : Log window log w) (hfits : ∀ e ∈ log, e.Fits)
    (hspills : ∀ e ∈ log, ¬ e.Spills) :
    (∀ id n, w.store.books.balance? id = some n →
      0 ≤ n ∧ n ≤ Account.greatestBalance ∧ Entry.AddsUp log id n) ∧
    (∀ e ∈ log, e.Accounted) ∧
    ∀ p : Posting, Column.fits p.amount = true → ¬ w.store.books.Spills p → ∀ s : Setting,
      let r := Repository.changeBalance p.id p.amount s w
      w.store.books.Answers p r.1 r.2.store.books := by
  obtain ⟨hsound, hlog, hledger⟩ := h.ledgered hfits hspills
  refine ⟨fun id n hn => ?_, hlog, fun p hfit hspill s => ?_⟩
  · obtain ⟨hpos, hle⟩ := hledger.solvent id n hn
    exact ⟨hpos, hle, hledger.addsUp id n hn⟩
  · have hanswers := Books.changeBalance_answers hledger.solvent hfit hspill
    exact (Act.Meets.changeBalance (s := s) hanswers w hsound rfl).2

open Sample in
/-- Ann is credited three times, fails to be charged more than she has, books noon, and gives it back.
What is posted to her then at most makes up the greatest balance. -/
theorem ledger_ann :
    let made := Entry.makeAll .standard .bare [
      (newYear, .order (.createUser ann.id .attendee ann.name 1)),
      (newYear, .call (.makeHoursAvailable tess ⟨[noon.time]⟩)),
      (newYear, .call (.changeBalance tess ann.id ⟨3⟩)),
      (newYear, .order (.changeBalance ann.id (-5))),
      (newYear, .call (.createTraining ann "1" noon)),
      (newYear, .call (.cancelTraining ann "1"))] (world (.tables (.empty 1)))
    made.1.map (Entry.posted ann.id) = [0, 0, 3, 0, -1, 1] ∧
    made.2.store.books.balance? ann.id = some 4 ∧ Entry.AddsUp made.1 ann.id 4 ∧
    (∀ e ∈ made.1, e.Accounted) ∧
    ∀ s : Setting,
      let r := Repository.changeBalance ann.id 9223372036854775803 s made.2
      made.2.store.books.Answers ⟨ann.id, 9223372036854775803⟩ r.1 r.2.store.books := by
  intro made
  have hposted : made.1.map (Entry.posted ann.id) = [0, 0, 3, 0, -1, 1] := by decide +kernel
  have hbalance : made.2.store.books.balance? ann.id = some 4 := by decide +kernel
  have hfits : ∀ e ∈ made.1, e.Fits := by decide +kernel
  have hspills : ∀ e ∈ made.1, ¬ e.Spills := by decide +kernel
  have hspill : ¬ made.2.store.books.Spills ⟨ann.id, 9223372036854775803⟩ := by decide +kernel
  have hlog : Log .standard made.1 made.2 := .of_empty (.tables 1) _
  clear_value made
  obtain ⟨hsums, haccounted, hanswers⟩ := ledger hlog hfits hspills
  refine ⟨hposted, hbalance, (hsums ann.id 4 hbalance).2.2, haccounted, ?_⟩
  exact hanswers ⟨ann.id, 9223372036854775803⟩ (by decide) hspill

open Sample in
/-- A posting that spills is taken in tables, and what is posted to the account then is lost: Ann, who
has one credit, is given the greatest balance as well, and is none the poorer for the charge that
follows. -/
theorem not_exact :
    let made := Entry.makeAll .standard .bare [
      (newYear, .call (.createUser tess ann.id ⟨some ann.id, "attendee", ann.name, 1⟩)),
      (newYear, .call (.changeBalance tess ann.id ⟨Account.greatestBalance⟩)),
      (newYear, .call (.changeBalance tess ann.id ⟨-1⟩))] (world (.tables (.empty 1)))
    Log .standard made.1 made.2 ∧ (∀ e ∈ made.1, e.Fits ∧ e.done = true) ∧
    made.1.map (fun e => e.after.books.balance? ann.id) =
      [some 1, some (Account.greatestBalance + 1), some (Account.greatestBalance + 1)] ∧
    (∃ e ∈ made.1, ∃ p ∈ e.posting?, e.before.books.due? p = none ∧ e.done = true) ∧
    made.2.store.books.balance? ann.id ≠ some (1 + (Account.greatestBalance + -1)) := by
  intro made
  refine ⟨.of_empty (.tables 1) _, ?_, ?_, ?_, ?_⟩ <;> decide +kernel

end Log

end TrainerBooking
