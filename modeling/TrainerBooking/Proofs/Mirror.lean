import TrainerBooking.Proofs.Calendar
import TrainerBooking.Proofs.Trainings

/-! # Memory and tables side by side

The two kinds of store are used by the same acts, and an act that is given times to the whole second
in UTC ends in both alike and leaves the same in both.

* **Mirrored.** The books in tables mirror those in memory (`Books.Mirror`) if they are the same, all
  their times are whole seconds in UTC, and all their balances are 64-bit numbers.
* **Alike.** Two endings are alike (`Ending.Alike`) if they are the same, up to what is said about an
  identifier that is taken.
* **Overflow.** In memory a sum beyond the greatest balance is refused, in tables it is kept as a
  floating-point number.  This is the one way to part (`Ending.overflows`).
* **Mirrors.** `act.Mirrors s s'` runs the act in memory in one setting and in tables in the other,
  which may be watched differently, and asks that the endings are alike and the stores mirrored, or
  that there was an overflow.  As for `Meets` there is one rule for each way to put acts together, and
  one for each act on a store. -/

namespace TrainerBooking

/-! ### Whole seconds in UTC -/

/-- Is the moment a whole second, in UTC, that can be read back? -/
structure Moment.Round (m : Moment) : Prop where
  floored : m.floored = m
  inYears : Moment.inYears m.second = true

theorem Moment.round_of_whole {m : Moment} (hoffset : m.offset = 0)
    (hwhole : m.nanos % perSecond = 0) (hrep : m.representable = true) : m.Round := by
  obtain ⟨nanos, offset⟩ := m
  simp only at hoffset hwhole
  subst hoffset
  constructor
  · have hn : nanos / perSecond * perSecond = nanos := Int.ediv_mul_cancel_of_emod_eq_zero hwhole
    rw [Moment.floored, Moment.second, hn]
  · have hlocal : (⟨nanos, 0⟩ : Moment).localSecond = (⟨nanos, 0⟩ : Moment).second :=
      Int.add_zero _
    rw [representable, hlocal] at hrep
    exact hrep

/-- Are the times of the training whole seconds in UTC? -/
structure Training.Round (t : Training) : Prop where
  time : t.time.Round
  proposal : ∀ p, t.proposal = some p → p.newTime.Round

namespace Training

variable {t : Training}

theorem Round.floored (h : t.Round) : t.floored = t := by
  obtain ⟨id, owner, ownerName, time, notes, canceled, proposal⟩ := t
  unfold Training.floored
  have htime : time.floored = time := h.time.floored
  cases proposal with
  | none => simp [htime]
  | some p =>
      have hp : p.newTime.floored = p.newTime := (h.proposal p rfl).floored
      simp [htime, hp]

theorem Round.kept (h : t.Round) (b : Books) : b.kept t = t := by
  unfold Books.kept
  split
  · rfl
  · exact h.floored

theorem Round.reads (h : t.Round) (b : Books) : b.Reads t :=
  .inr ⟨h.time.inYears, fun p hp => (h.proposal p hp).inYears⟩

end Training

/-! ### Endings that are alike -/

/-- Failures that differ at most in what is said about a taken identifier. -/
inductive Failure.Alike : Failure → Failure → Prop
  | same (f : Failure) : Alike f f
  | duplicate (detail detail' : String) :
      Alike (.storage (.duplicate detail)) (.storage (.duplicate detail'))
  | within {f f' : Failure} (slug description : String) (h : Alike f f') :
      Alike (.within slug description f) (.within slug description f')

/-- Is it that a sum is beyond the greatest balance? -/
def Failure.overflows (f : Failure) : Bool :=
  match f.violation? with
  | some (.insufficientBalance _ balance change) =>
    decide (Account.greatestBalance < balance + change)
  | _ => false

namespace Ending

variable {α : Type}

/-- Endings with the same value, or with failures that are alike. -/
inductive Alike : Ending Failure α → Ending Failure α → Prop
  | same (e : Ending Failure α) : Alike e e
  | refused {f f' : Failure} (h : f.Alike f') : Alike (.refused f) (.refused f')

theorem Alike.within {e e' : Ending Failure α} (h : e.Alike e') (slug description : String) :
    (e.mapCause (Failure.within slug description)).Alike
      (e'.mapCause (Failure.within slug description)) := by
  cases h with
  | same => exact .same _
  | refused h => exact .refused (.within slug description h)

/-- Does the computation end because a sum is beyond the greatest balance? -/
def overflows : Ending Failure α → Bool
  | .refused f => f.overflows
  | .done _ | .crashed => false

theorem overflows_within (e : Ending Failure α) (slug description : String) :
    (e.mapCause (Failure.within slug description)).overflows = e.overflows := by
  cases e <;> rfl

end Ending

/-! ### Mirrored books -/

/-- The books `b'` in tables are the books `b` in memory, and could be kept in either. -/
structure Books.Mirror (b b' : Books) : Prop where
  memory : b.inMemory = true
  tables : b'.inMemory = false
  hours : b'.hours = b.hours
  trainings : b'.trainings = b.trainings
  accounts : b'.accounts = b.accounts
  round : ∀ {id t}, b.trainings id = some t → t.Round
  nonneg : ∀ {id a}, b.accounts id = some a → 0 ≤ a.balance
  bounded : ∀ {id a}, b.accounts id = some a → a.balance ≤ Account.greatestBalance

namespace Books.Mirror

variable {b b' : Books}

theorem setHour (hm : b.Mirror b') (second : Int) (h : Hour) :
    (b.setHour second h).Mirror (b'.setHour second h) := by
  refine ⟨hm.memory, hm.tables, ?_, hm.trainings, hm.accounts, hm.round, hm.nonneg, hm.bounded⟩
  unfold Books.setHour
  rw [hm.hours]

theorem setTraining (hm : b.Mirror b') (id : String) {t : Training} (ht : t.Round) :
    (b.setTraining id t).Mirror (b'.setTraining id t) := by
  refine ⟨hm.memory, hm.tables, hm.hours, ?_, hm.accounts, fun {id' t'} h => ?_, hm.nonneg,
    hm.bounded⟩
  · unfold Books.setTraining
    rw [hm.trainings]
  · rw [setTraining_trainings] at h
    split at h
    · rw [← Option.some.inj h]
      exact ht
    · exact hm.round h

theorem setAccount (hm : b.Mirror b') (id : String) {a : Account} (hn : 0 ≤ a.balance)
    (hle : a.balance ≤ Account.greatestBalance) :
    (b.setAccount id a).Mirror (b'.setAccount id a) := by
  refine ⟨hm.memory, hm.tables, hm.hours, hm.trainings, ?_, hm.round, fun {id' a'} h => ?_,
    fun {id' a'} h => ?_⟩
  · unfold Books.setAccount
    rw [hm.accounts]
  · rw [setAccount_accounts] at h
    split at h
    · rw [← Option.some.inj h]
      exact hn
    · exact hm.nonneg h
  · rw [setAccount_accounts] at h
    split at h
    · rw [← Option.some.inj h]
      exact hle
    · exact hm.bounded h

theorem fits (hm : b.Mirror b') {id : String} {a : Account} (ha : b.accounts id = some a) :
    Column.fits a.balance = true := by
  have hn := hm.nonneg ha
  have hle := hm.bounded ha
  unfold Account.greatestBalance at hle
  exact Column.fits_iff.mpr ⟨by omega, hle⟩

theorem shown (hm : b.Mirror b') {a : Account} (h : Column.fits a.balance = true) :
    b'.shown a = a.balance ∧ b.shown a = a.balance := by
  unfold Books.shown
  rw [hm.memory, hm.tables, if_pos rfl, if_neg Bool.false_ne_true]
  exact ⟨Column.read_of_fits h, rfl⟩

end Books.Mirror

/-- Two sound stores, of which the second mirrors the first. -/
structure Store.Mirror (st st' : Store) : Prop where
  sound : st.Sound
  sound' : st'.Sound
  books : st.books.Mirror st'.books

/-! ### Acts on mirrored stores -/

/-- Settings that may differ in how acts are watched. -/
structure Setting.Twin (s s' : Setting) : Prop where
  now : s'.now = s.now
  window : s'.window = s.window
  held : s'.held = s.held

namespace Act

variable {α β : Type}

/-- Run in memory and in tables, the act ends alike and keeps the stores mirrored, or there is an
overflow. -/
def Mirrors (act : Act Failure α) (s s' : Setting) : Prop :=
  ∀ w w' : World, w.store.Mirror w'.store → (act s w).1.overflows = true ∨
    ((act s w).1.Alike (act s' w').1 ∧ (act s w).2.store.Mirror (act s' w').2.store)

/-- How two endings and the books then compare. -/
def Compares (e : Ending Failure α) (c : Books) (e' : Ending Failure α) (c' : Books) : Prop :=
  e.overflows = true ∨ (e.Alike e' ∧ c.Mirror c')

namespace Mirrors

variable {s s' : Setting}

/-- What an act does to the books of either kind can be compared one after the other. -/
theorem of_meets {act : Act Failure α} (h : ∀ b b', b.Mirror b' →
    act.Meets s b fun e c => act.Meets s' b' fun e' c' => Compares e c e' c') :
    act.Mirrors s s' := by
  intro w w' hw
  obtain ⟨hs, hinner⟩ := h _ _ hw.books w hw.sound rfl
  obtain ⟨hs', hcompares⟩ := hinner w' hw.sound' rfl
  exact hcompares.imp_right fun ⟨halike, hmirror⟩ => ⟨halike, hs, hs', hmirror⟩

theorem ofEnding {e : Ending Failure α} : (Act.ofEnding e).Mirrors s s' :=
  fun _ _ hw => .inr ⟨.same e, hw⟩

theorem pure {a : α} : (Pure.pure a : Act Failure α).Mirrors s s' := ofEnding (e := .done a)

theorem refuse {f : Failure} : (Act.refuse f : Act Failure α).Mirrors s s' := ofEnding

theorem ofRule {e : Except Violation α} : (Act.ofRule e).Mirrors s s' :=
  fun _ _ hw => .inr ⟨.same _, hw⟩

theorem now (ht : s.Twin s') : (Act.now : Act Failure Moment).Mirrors s s' := by
  intro w w' hw
  rw [now_run, now_run, ht.now]
  exact .inr ⟨.same _, hw⟩

theorem bind {act : Act Failure α} {next : α → Act Failure β} (h : act.Mirrors s s')
    (hnext : ∀ a, (next a).Mirrors s s') : (act >>= next).Mirrors s s' := by
  intro w w' hw
  have hact := h w w' hw
  rw [bind_run, bind_run]
  generalize act s w = r at hact
  generalize act s' w' = r' at hact
  obtain ⟨e, v⟩ := r
  obtain ⟨e', v'⟩ := r'
  rcases hact with hover | ⟨halike, hmirror⟩
  · cases e with
    | done a => cases hover
    | crashed => cases hover
    | refused f => exact .inl hover
  · cases halike with
    | refused hf => exact .inr ⟨.refused hf, hmirror⟩
    | same =>
        cases e with
        | done a => exact hnext a v v' hmirror
        | refused f => exact .inr ⟨.same _, hmirror⟩
        | crashed => exact .inr ⟨.same _, hmirror⟩

theorem within {slug description : String} {act : Act Failure α} (h : act.Mirrors s s') :
    (act.within slug description).Mirrors s s' := by
  intro w w' hw
  exact (h w w' hw).imp (fun hover => (Ending.overflows_within _ _ _).trans hover)
    fun ⟨halike, hmirror⟩ => ⟨halike.within slug description, hmirror⟩

theorem bind_ofRule {e : Except Violation α} {next : α → Act Failure β}
    {slug description : String} (h : ∀ a, e = .ok a → (next a).Mirrors s s') :
    ((Act.ofRule e).within slug description >>= next).Mirrors s s' := by
  cases e with
  | ok a => exact h a rfl
  | error v => exact ofEnding (e := .refused (.within slug description (.rule v)))

end Mirrors

end Act

namespace Desk

variable {α : Type}

/-- The world in which an operation is carried out, after the event before it. -/
def opened (o : Operation) (s : Setting) (w : World) : World :=
  { w with journal := w.journal ++ [⟨.debug, "Executing " ++ o.noun, [], s.spans⟩] }

/-- What the watch does when an operation has ended. -/
def closing (o : Operation) (counted : Bool) : Ending Failure α → Act Failure Unit
  | .done _ => do
    if counted then Act.count (o.counter true)
    Act.note .debug (o.title ++ " executed successfully") []
  | .refused f => do
    if counted then Act.count (o.counter false)
    noteFailure o f
  | .crashed => pure ()

/-- The watch opens, and closes in the light of how the operation ended, which it does not change. -/
theorem narrated_run (o : Operation) (counted : Bool) (body : Act Failure α) (s : Setting)
    (w : World) : narrated o counted body s w =
      ((body s (opened o s w)).1,
        (closing o counted (body s (opened o s w)).1 s (body s (opened o s w)).2).2) := by
  have hopened : (Act.note .debug ("Executing " ++ o.noun) [] : Act Failure Unit) s w =
      (.done (), opened o s w) := rfl
  rw [narrated, Act.bind_run_done hopened, Act.bind_run, Act.settle]
  generalize body s (opened o s w) = r
  obtain ⟨e, v⟩ := r
  cases e with
  | crashed => rfl
  | done a => cases counted <;> rfl
  | refused f => cases counted <;> rfl

theorem closing_store (o : Operation) (counted : Bool) (e : Ending Failure α) (s : Setting)
    (w : World) : (closing o counted e s w).2.store = w.store := by
  cases e with
  | crashed => rfl
  | done a => cases counted <;> rfl
  | refused f => cases counted <;> rfl

theorem narrated_store (o : Operation) (counted : Bool) (body : Act Failure α) (s : Setting)
    (w : World) : (narrated o counted body s w).2.store = (body s (opened o s w)).2.store := by
  rw [narrated_run, closing_store]

/-- An operation runs bare, or between two events and under spans of its own. -/
theorem watched_cases (o : Operation) (body : Act Failure α) (s : Setting) :
    (s.watch = .bare ∧ watched o body s = body s) ∨
      (s.watch = .silent ∧ watched o body s = narrated o false body { s with spans := [o.span] }) ∨
      ∃ span, s.watch = .full span ∧
        watched o body s = narrated o true body { s with spans := [span, o.span] } := by
  obtain ⟨now, window, watch, spans, held⟩ := s
  cases watch with
  | bare => exact .inl ⟨rfl, rfl⟩
  | silent => exact .inr (.inl ⟨rfl, rfl⟩)
  | full span => exact .inr (.inr ⟨span, rfl, rfl⟩)

/-- An operation that is watched ends as it does otherwise, and so does the store. -/
theorem watched_run (o : Operation) (body : Act Failure α) (s : Setting) (w : World) :
    ∃ (spans : List String) (v : World), v.store = w.store ∧
      (watched o body s w).1 = (body { s with spans := spans } v).1 ∧
      (watched o body s w).2.store = (body { s with spans := spans } v).2.store := by
  have hnarrated : ∀ (counted : Bool) (s : Setting),
      (narrated o counted body s w).1 = (body s (opened o s w)).1 := by
    intro counted s
    rw [narrated_run]
  obtain ⟨-, heq⟩ | ⟨-, heq⟩ | ⟨span, -, heq⟩ := watched_cases o body s
  · exact ⟨s.spans, w, rfl, by rw [heq], by rw [heq]⟩
  · rw [heq]
    exact ⟨[o.span], opened o _ w, rfl, hnarrated false _, narrated_store o false body _ w⟩
  · rw [heq]
    exact ⟨[span, o.span], opened o _ w, rfl, hnarrated true _, narrated_store o true body _ w⟩

end Desk

namespace Act.Mirrors

variable {α : Type} {s s' : Setting}

theorem watched {o : Desk.Operation} {body : Act Failure α}
    (h : ∀ spans spans', body.Mirrors { s with spans := spans } { s' with spans := spans' }) :
    (Desk.watched o body).Mirrors s s' := by
  intro w w' hw
  obtain ⟨spans, v, hv, he, hst⟩ := Desk.watched_run o body s w
  obtain ⟨spans', v', hv', he', hst'⟩ := Desk.watched_run o body s' w'
  rw [← hv, ← hv'] at hw
  rw [he, he', hst, hst']
  exact h spans spans' v v' hw

end Act.Mirrors

/-! ### Hours -/

namespace Books.Mirror

variable {b b' : Books} {s s' : Setting}

theorem startHour (hm : b.Mirror b') (ht : s.Twin s') {time : Moment} (hr : time.Round) :
    b'.startHour time s' = b.startHour time s := by
  unfold Books.startHour
  rw [hm.hours, ht.now, ht.window]
  cases b.hours time.second with
  | some h => rfl
  | none =>
      unfold BookingWindow.newHour
      cases s.window.check time s.now with
      | refused v => rfl
      | crashed => rfl
      | done u =>
          have hkept : b'.keptTime time = b.keptTime time := by
            unfold keptTime
            rw [hm.memory, hm.tables, if_pos rfl, if_neg Bool.false_ne_true, hr.floored]
          simp only [Ending.mapValue, Ending.mapCause, hkept]

theorem listsHours (hm : b.Mirror b') {first last : Int} {l : List Hour}
    (hl : b'.ListsHours first last l) : b.ListsHours first last l := by
  unfold ListsHours at hl ⊢
  rw [hm.hours] at hl
  exact hl

/-- A step of an hour ends the same, and keeps the books mirrored. -/
theorem stepHour (hm : b.Mirror b') (ht : s.Twin s') {time : Moment} (hr : time.Round)
    (step : HourStep) : (b'.stepHour time step s').1 = (b.stepHour time step s).1 ∧
      (b.stepHour time step s).2.Mirror (b'.stepHour time step s').2 := by
  unfold Books.stepHour Books.updateHour
  rw [hm.startHour ht hr]
  cases b.startHour time s with
  | refused f => exact ⟨rfl, hm⟩
  | crashed => exact ⟨rfl, hm⟩
  | done h =>
      cases hstep : h.step step with
      | error v =>
          simp only [hstep, Ending.ofExcept, Ending.mapCause]
          exact ⟨trivial, hm⟩
      | ok h' =>
          simp only [hstep, Ending.ofExcept, Ending.mapCause, keptHour_of_step hstep]
          exact ⟨trivial, hm.setHour time.second h'⟩

end Books.Mirror

namespace Act.Mirrors

variable {s s' : Setting}

theorem stepHour {time : Moment} {step : HourStep} (ht : s.Twin s') (hs : s.held.hours = [])
    (hr : time.Round) : (Repository.updateHour time (Desk.stepping step)).Mirrors s s' := by
  have hs' : s'.held.hours = [] := by rw [ht.held, hs]
  refine of_meets fun b b' hm => ?_
  refine Meets.updateHour hs (Meets.updateHour hs' ?_)
  obtain ⟨he, hbooks⟩ := hm.stepHour ht hr step
  unfold Books.stepHour at he hbooks
  rw [he]
  exact .inr ⟨.same _, hbooks⟩

theorem hour? {time : Moment} (ht : s.Twin s') (hs : s.held.hours = []) :
    (Repository.hour? time).Mirrors s s' := by
  have hs' : s'.held.hours = [] := by rw [ht.held, hs]
  refine of_meets fun b b' hm => ?_
  refine Meets.hour? hs (Meets.hour? hs' ?_)
  rw [hm.hours]
  exact .inr ⟨.same _, hm⟩

theorem hoursBetween {first last : Moment} (ht : s.Twin s') (hs : s.held.hours = [])
    (hle : first.second ≤ last.second) : (Repository.hoursBetween first last).Mirrors s s' := by
  have hs' : s'.held.hours = [] := by rw [ht.held, hs]
  refine of_meets fun b b' hm => ?_
  refine Meets.hoursBetween hs hle fun l hl => Meets.hoursBetween hs' hle fun l' hl' => ?_
  rw [hl.unique (hm.listsHours hl')]
  exact .inr ⟨.same _, hm⟩

end Act.Mirrors

/-! ### Accounts -/

namespace Books.Mirror

variable {b b' : Books}

/-- A new balance is refused in both, or allowed in both, unless it is beyond the greatest. -/
theorem newBalance? (hm : b.Mirror b') {id : String} {a : Account} (ha : b.accounts id = some a)
    {amount : Int} (hamount : Column.fits amount = true) :
    (Account.greatestBalance < a.balance + amount ∧ b.newBalance? a amount = none) ∨
      (b.newBalance? a amount = none ∧ b'.newBalance? a amount = none) ∨
        ∃ n, 0 ≤ n ∧ n ≤ Account.greatestBalance ∧ b.newBalance? a amount = some n ∧
          b'.newBalance? a amount = some n := by
  have hn := hm.nonneg ha
  have hmin := (Column.fits_iff.mp hamount).1
  unfold Books.newBalance?
  rw [hm.memory, hm.tables, if_pos rfl, if_neg Bool.false_ne_true]
  by_cases hover : Account.greatestBalance < a.balance + amount
  · exact .inl ⟨hover, if_neg (by omega)⟩
  · have hle : a.balance + amount ≤ Account.greatestBalance := Int.not_lt.mp hover
    have hsum : Column.sum a.balance amount = a.balance + amount := by
      refine Column.sum_of_fits (hm.fits ha) hamount (Column.fits_iff.mpr ⟨by omega, hle⟩)
    rw [hsum]
    by_cases hneg : a.balance + amount < 0
    · exact .inr (.inl ⟨if_neg (by omega), if_pos hneg⟩)
    · refine .inr (.inr ⟨a.balance + amount, Int.not_lt.mp hneg, hle, ?_, if_neg hneg⟩)
      exact if_pos ⟨Int.not_lt.mp hneg, hle⟩

/-- The change of a balance compares, as long as the amount is a 64-bit number. -/
theorem changeBalance (hm : b.Mirror b') (id : String) {amount : Int}
    (hamount : Column.fits amount = true) :
    Act.Compares (b.changeBalance id amount).1 (b.changeBalance id amount).2
      (b'.changeBalance id amount).1 (b'.changeBalance id amount).2 := by
  unfold Books.changeBalance
  rw [hm.accounts]
  cases ha : b.accounts id with
  | none => exact .inr ⟨.same _, hm⟩
  | some a =>
      obtain ⟨hshown', hshown⟩ := hm.shown (hm.fits ha)
      rcases hm.newBalance? ha hamount with ⟨hover, h⟩ | ⟨h, h'⟩ | ⟨n, hn, hle, h, h'⟩
      · simp only [h, hshown]
        exact .inl (decide_eq_true hover)
      · simp only [h, h', hshown, hshown']
        exact .inr ⟨.same _, hm⟩
      · have hfits : Column.fits n = true := Column.fits_iff.mpr ⟨by omega, hle⟩
        obtain ⟨hnew', hnew⟩ := hm.shown (a := { a with balance := n }) hfits
        simp only [h, h', hnew, hnew']
        exact .inr ⟨.same _, hm.setAccount id hn hle⟩

end Books.Mirror

namespace Act.Mirrors

variable {s s' : Setting}

theorem changeBalance {id : String} {amount : Int} (hamount : Column.fits amount = true) :
    (Repository.changeBalance id amount).Mirrors s s' := by
  refine of_meets fun b b' hm => ?_
  exact Meets.changeBalance (Meets.changeBalance (hm.changeBalance id hamount))

theorem recordIp {id ip : String} : (Repository.recordIp id ip).Mirrors s s' := by
  refine of_meets fun b b' hm => ?_
  refine Meets.recordIp (Meets.recordIp ?_)
  unfold Books.recordIp
  rw [hm.accounts]
  cases ha : b.accounts id with
  | none => exact .inr ⟨.same _, hm⟩
  | some a =>
      have hn : 0 ≤ a.balance := hm.nonneg ha
      have hle : a.balance ≤ Account.greatestBalance := hm.bounded ha
      exact .inr ⟨.same _, hm.setAccount (a := a.seenFrom ip) id hn hle⟩

theorem addAccount {a : Account} (hn : 0 ≤ a.balance) (hle : a.balance ≤ Account.greatestBalance) :
    (Repository.addAccount a).Mirrors s s' := by
  refine of_meets fun b b' hm => ?_
  refine Meets.addAccount hn (fun detail htaken => ?_) fun hfree => ?_
  · refine Meets.addAccount hn (fun detail' _ => ?_) fun hfree' => ?_
    · exact .inr ⟨.refused (.duplicate detail detail'), hm⟩
    · rw [← hm.accounts, hfree'] at htaken
      cases htaken
  · refine Meets.addAccount hn (fun detail' htaken' => ?_) fun _ => ?_
    · rw [hm.accounts, hfree] at htaken'
      cases htaken'
    · exact .inr ⟨.same _, hm.setAccount a.id hn hle⟩

theorem account {id : String} : (Repository.account id).Mirrors s s' := by
  refine of_meets fun b b' hm => ?_
  refine Meets.account (fun hnone => ?_) fun a ha => ?_
  · refine Meets.account (fun _ => ?_) fun a' ha' => ?_
    · exact .inr ⟨.same _, hm⟩
    · rw [hm.accounts, hnone] at ha'
      cases ha'
  · refine Meets.account (fun hnone' => ?_) fun a' ha' => ?_
    · rw [hm.accounts, ha] at hnone'
      cases hnone'
    · rw [hm.accounts, ha] at ha'
      obtain rfl := Option.some.inj ha'
      obtain ⟨hshown', hshown⟩ := hm.shown (hm.fits ha)
      rw [hshown, hshown']
      exact .inr ⟨.same _, hm⟩

end Act.Mirrors

/-! ### Trainings -/

/-- The books after an update of a training whose transition ended like this. -/
def Books.refiled (c : Books) (id : String) : Ending Failure Training → Books
  | .done t => c.setTraining id (c.kept t)
  | .refused _ | .crashed => c

/-- The trainings that are kept, in a list, or a refusal because one of them cannot be read. -/
inductive Books.Lists (b : Books) (keep : Training → Bool) :
    Ending Failure (List Training) → Prop
  | listed {l : List Training} (hlists : b.ListsTrainings keep l) : Lists b keep (.done l)
  | unread {t : Training} (f : Failure) (hstored : b.trainings t.id = some t)
      (hunread : ¬ b.Reads t) : Lists b keep (.refused f)

namespace Books.Mirror

variable {b b' : Books}

theorem reads (hm : b.Mirror b') {id : String} {t : Training} (ht : b.trainings id = some t) :
    b.Reads t :=
  (hm.round ht).reads b

theorem reads' (hm : b.Mirror b') {id : String} {t : Training} (ht : b'.trainings id = some t) :
    b'.Reads t := by
  rw [hm.trainings] at ht
  exact (hm.round ht).reads b'

theorem listsTrainings (hm : b.Mirror b') {keep : Training → Bool} {l : List Training}
    (hl : b'.ListsTrainings keep l) : b.ListsTrainings keep l := by
  unfold ListsTrainings at hl ⊢
  rw [hm.trainings] at hl
  exact hl

end Books.Mirror

namespace Act

/-- The books differ at most in hours and accounts, and a training that the act ends with can be
filed in the place of `t`. -/
structure Refiles (t : Training) (b : Books) (e : Ending Failure Training) (c : Books) : Prop where
  inMemory : c.inMemory = b.inMemory
  trainings : c.trainings = b.trainings
  keeps : ∀ t', e = .done t' → t'.id = t.id ∧ t'.owner = t.owner ∧ t'.ownerName = t.ownerName
  round : ∀ t', e = .done t' → t'.Round

theorem Refiles.refiling {t : Training} {b c : Books} {e : Ending Failure Training}
    (h : Refiles t b e c) {id : String} {Q : Ending Failure Training → Books → Prop}
    (hQ : Q e (c.refiled id e)) : Meets.Refiling Q b id t e c := by
  cases e with
  | done t' => exact ⟨h.keeps t' rfl, h.inMemory, h.trainings, hQ⟩
  | refused f => exact hQ
  | crashed => exact hQ

theorem Compares.refiled {e e' : Ending Failure Training} {c c' : Books}
    (h : Compares e c e' c') (hr : ∀ t, e = .done t → t.Round) (id : String) :
    Compares e (c.refiled id e) e' (c'.refiled id e') := by
  refine h.imp_right fun ⟨halike, hm⟩ => ⟨halike, ?_⟩
  cases halike with
  | refused hf => exact hm
  | same =>
      cases e with
      | refused f => exact hm
      | crashed => exact hm
      | done t =>
          have hround := hr t rfl
          show (c.setTraining id (c.kept t)).Mirror (c'.setTraining id (c'.kept t))
          rw [hround.kept, hround.kept]
          exact hm.setTraining id hround

namespace Meets

variable {s : Setting} {b : Books} {id : String} {caller : Caller}
  {transition : Training → Act Failure Training} {Q : Ending Failure Training → Books → Prop}

theorem updateTraining_missing (hs : s.held.trainings = []) (hnone : b.trainings id = none)
    (hQ : Q (.refused (Repository.noTraining id)) b) :
    (Repository.updateTraining id caller transition).Meets s b Q := by
  have hno : ∀ {t}, b.trainings id ≠ some t := by
    intro t ht
    rw [hnone] at ht
    cases ht
  exact updateTraining hs (fun _ => hQ) (fun t f ht => absurd ht hno) (fun t ht => absurd ht hno)
    fun t ht => absurd ht hno

theorem updateTraining_stored (hs : s.held.trainings = []) {t : Training}
    (ht : b.trainings id = some t) (hreads : b.Reads t)
    (hunseen : caller.sees t = false → Q (.refused (.rule (.notVisible caller.id t.owner))) b)
    (hrun : caller.sees t = true →
      (transition t).Meets { s with held := s.held.withTraining id } b (Refiling Q b id t)) :
    (Repository.updateTraining id caller transition).Meets s b Q := by
  have honly : ∀ {t'}, b.trainings id = some t' → t' = t := by
    intro t' ht'
    exact Option.some.inj (ht'.symm.trans ht)
  refine updateTraining hs (fun hnone => ?_) (fun t' f ht' hunread => ?_) (fun t' ht' _ hsees => ?_)
    fun t' ht' _ hsees => ?_
  · rw [hnone] at ht
    cases ht
  · rw [honly ht'] at hunread
    exact absurd hreads hunread
  · rw [honly ht'] at hsees ⊢
    exact hunseen hsees
  · rw [honly ht'] at hsees ⊢
    exact hrun hsees

theorem allTrainings_lists (hs : s.held.trainings = []) :
    Repository.allTrainings.Meets s b fun e b' => b' = b ∧ b.Lists (fun _ => true) e :=
  allTrainings hs (fun f _ hstored hunread => ⟨rfl, .unread f.toFailure hstored hunread⟩)
    fun _ hlists _ => ⟨rfl, .listed hlists⟩

theorem trainingsOf_lists {owner : String} (hs : s.held.trainings = []) :
    (Repository.trainingsOf owner).Meets s b fun e b' =>
      b' = b ∧ b.Lists (fun t => decide (t.owner = owner) && !t.canceled) e :=
  trainingsOf hs (fun f _ hstored _ hunread => ⟨rfl, .unread f.toFailure hstored hunread⟩)
    fun _ hlists _ => ⟨rfl, .listed hlists⟩

end Meets

namespace Mirrors

variable {s s' : Setting}

theorem addTraining {t : Training} (ht : s.Twin s') (hs : s.held.trainings = []) (hr : t.Round) :
    (Repository.addTraining t).Mirrors s s' := by
  have hs' : s'.held.trainings = [] := by rw [ht.held, hs]
  refine of_meets fun b b' hm => ?_
  refine Meets.addTraining hs (fun detail htaken => ?_) fun hfree => ?_
  · refine Meets.addTraining hs' (fun detail' _ => ?_) fun hfree' => ?_
    · exact .inr ⟨.refused (.duplicate detail detail'), hm⟩
    · rw [← hm.trainings, hfree'] at htaken
      cases htaken
  · refine Meets.addTraining hs' (fun detail' htaken' => ?_) fun _ => ?_
    · rw [hm.trainings, hfree] at htaken'
      cases htaken'
    · rw [hr.kept, hr.kept]
      exact .inr ⟨.same _, hm.setTraining t.id hr⟩

/-- What is known of an act on either kind of store, and how the two compare. -/
theorem meets {α : Type} {act : Act Failure α} (h : act.Mirrors s s') {b b' : Books}
    (hm : b.Mirror b') {F F' : Ending Failure α → Books → Prop} (hF : act.Meets s b F)
    (hF' : act.Meets s' b' F') : act.Meets s b fun e c =>
      F e c ∧ act.Meets s' b' fun e' c' => F' e' c' ∧ Compares e c e' c' := by
  intro w hw hb
  obtain ⟨hs, hf⟩ := hF w hw hb
  refine ⟨hs, hf, fun w' hw' hb' => ?_⟩
  obtain ⟨hs', hf'⟩ := hF' w' hw' hb'
  subst hb hb'
  refine ⟨hs', hf', ?_⟩
  exact (h w w' ⟨hw, hw', hm⟩).imp_right fun ⟨halike, hmirror⟩ => ⟨halike, hmirror.books⟩

/-- An update mirrors if its transition does, and the transition only refiles the training. -/
theorem updateTraining {id : String} {caller : Caller}
    {transition : Training → Act Failure Training} (ht : s.Twin s') (hs : s.held.trainings = [])
    (hrefiles : ∀ t, t.Round → ∀ (r : Setting) (b : Books), r.held = s.held.withTraining id →
      (transition t).Meets r b (Refiles t b))
    (hmirrors : ∀ t, t.Round → (transition t).Mirrors { s with held := s.held.withTraining id }
      { s' with held := s'.held.withTraining id }) :
    (Repository.updateTraining id caller transition).Mirrors s s' := by
  have hs' : s'.held.trainings = [] := by rw [ht.held, hs]
  refine of_meets fun b b' hm => ?_
  cases hstored : b.trainings id with
  | none =>
      have hstored' : b'.trainings id = none := by rw [hm.trainings, hstored]
      refine Meets.updateTraining_missing hs hstored ?_
      exact Meets.updateTraining_missing hs' hstored' (.inr ⟨.same _, hm⟩)
  | some t =>
      have hstored' : b'.trainings id = some t := by rw [hm.trainings, hstored]
      have hr := hm.round hstored
      refine Meets.updateTraining_stored hs hstored (hr.reads b) (fun hunseen => ?_) fun hsees => ?_
      · refine Meets.updateTraining_stored hs' hstored' (hr.reads b') (fun _ => ?_) fun hsees' => ?_
        · exact .inr ⟨.same _, hm⟩
        · rw [hunseen] at hsees'
          cases hsees'
      · have hF := hrefiles t hr { s with held := s.held.withTraining id } b rfl
        have hF' := hrefiles t hr { s' with held := s'.held.withTraining id } b' (by rw [ht.held])
        refine ((hmirrors t hr).meets hm hF hF').mono fun e c ⟨hf, hinner⟩ => hf.refiling ?_
        refine Meets.updateTraining_stored hs' hstored' (hr.reads b') (fun hunseen => ?_) fun _ => ?_
        · rw [hsees] at hunseen
          cases hunseen
        · exact hinner.mono fun e' c' ⟨hf', hcompares⟩ =>
            hf'.refiling (hcompares.refiled hf.round id)

/-- The trainings of both stores can be read, and the list of those that are kept is unique. -/
theorem lists {act : Act Failure (List Training)} {keep : Training → Bool}
    (h : ∀ b : Books, act.Meets s b fun e b' => b' = b ∧ b.Lists keep e)
    (h' : ∀ b : Books, act.Meets s' b fun e b' => b' = b ∧ b.Lists keep e) :
    act.Mirrors s s' := by
  refine of_meets fun b b' hm => (h b).mono fun e c hlists => (h' b').mono fun e' c' hlists' => ?_
  obtain ⟨rfl, hlists⟩ := hlists
  obtain ⟨rfl, hlists'⟩ := hlists'
  cases hlists with
  | unread f hstored hunread => exact absurd (hm.reads hstored) hunread
  | listed hl =>
      cases hlists' with
      | unread f hstored hunread => exact absurd (hm.reads' hstored) hunread
      | listed hl' =>
          rw [hl.unique (hm.listsTrainings hl')]
          exact .inr ⟨.same _, hm⟩

theorem allTrainings (ht : s.Twin s') (hs : s.held.trainings = []) :
    Repository.allTrainings.Mirrors s s' :=
  lists (fun _ => Meets.allTrainings_lists hs) fun _ =>
    Meets.allTrainings_lists (by rw [ht.held, hs])

theorem trainingsOf {owner : String} (ht : s.Twin s') (hs : s.held.trainings = []) :
    (Repository.trainingsOf owner).Mirrors s s' :=
  lists (fun _ => Meets.trainingsOf_lists hs) fun _ =>
    Meets.trainingsOf_lists (by rw [ht.held, hs])

end Mirrors

end Act

end TrainerBooking
