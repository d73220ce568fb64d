import TrainerBooking.Proofs.Stamps
import TrainerBooking.Proofs.Times

/-! # The list of trainings

Who asks for the trainings gets all that he may see, or nothing at all.

* **Legible.** A training can be shown if the store can read it back, and if each of its times has a
  time stamp as it is kept (`Books.Legible`).  One training that is not legible spoils the list for
  everybody who would be shown it (`Books.Listed`).
* **In memory** times are kept as they were read, and what was read can be written: the list never
  fails.
* **In tables** times are kept in UTC, whose year need not be the one that was written.  The list never
  fails as long as every time that was read lies in the years `0` to `9999` of UTC, too
  (`Run.listing`); the two ends of that range can be passed (`Run.not_listed`). -/

namespace TrainerBooking

open Api

/-! ### What can be shown -/

/-- Is the training in the list that the caller gets? -/
def Caller.lists (caller : Caller) (t : Training) : Bool :=
  match caller.role with
  | .trainer => true
  | .attendee => decide (t.owner = caller.id) && !t.canceled

/-- Has every time of the training a time stamp? -/
def Training.Stamped (t : Training) : Prop := ∀ x ∈ t.times, x.stamp?.isSome = true

/-- Can the training be shown: read back, and written out? -/
structure Books.Legible (b : Books) (t : Training) : Prop where
  reads : b.Reads t
  stamped : t.Stamped

theorem Training.stamped_iff {t : Training} : t.Stamped ↔ t.time.stamp?.isSome = true ∧
    ∀ p, t.proposal = some p → p.newTime.stamp?.isSome = true := by
  unfold Stamped
  simp only [mem_times]
  constructor
  · intro h
    exact ⟨h _ (.inl rfl), fun p hp => h _ (.inr ⟨p, hp, rfl⟩)⟩
  · rintro ⟨htime, hproposal⟩ x (rfl | ⟨p, hp, rfl⟩)
    · exact htime
    · exact hproposal p hp

/-- A moment without a time stamp cannot be put into a response. -/
theorem Response.stamp_eq (m : Moment) :
    (m.stamp?.isSome = true ∧ ∃ text, stamp m = .ok text) ∨
      (¬ m.stamp?.isSome = true ∧ ∃ r, stamp m = .error r) := by
  unfold stamp
  cases hm : m.stamp? with
  | none => exact .inr ⟨Bool.false_ne_true, _, rfl⟩
  | some text => exact .inl ⟨rfl, text, rfl⟩

/-- A training has a response if all of its times have time stamps. -/
theorem TrainingResponse.of_cases (now : Moment) (t : Training) :
    (t.Stamped ∧ ∃ r, TrainingResponse.of now t = .ok r) ∨
      (¬ t.Stamped ∧ ∃ r, TrainingResponse.of now t = .error r) := by
  rw [Training.stamped_iff]
  unfold TrainingResponse.of
  obtain ⟨htime, text, hstamp⟩ | ⟨htime, r, hstamp⟩ := Response.stamp_eq t.time
  · rw [hstamp]
    cases hp : t.proposal with
    | none => exact .inl ⟨⟨htime, nofun⟩, _, rfl⟩
    | some p =>
        rw [Option.map_some, Response.stampOption]
        obtain ⟨hnew, text', hstamp'⟩ | ⟨hnew, r, hstamp'⟩ := Response.stamp_eq p.newTime
        · rw [hstamp']
          refine .inl ⟨⟨htime, fun q hq => ?_⟩, _, rfl⟩
          obtain rfl := Option.some.inj hq
          exact hnew
        · rw [hstamp']
          exact .inr ⟨fun h => hnew (h.2 p rfl), r, rfl⟩
  · rw [hstamp]
    exact .inr ⟨fun h => htime h.1, r, rfl⟩

/-! ### Lists -/

/-- What a caller gets who asks for the list of trainings: all of those that he may see, or, if one of
them is not legible, none. -/
inductive Books.Listed (now : Moment) (caller : Caller) (b : Books) : Ending Refusal Reply → Prop
  | shown {l : List Training} {list : List TrainingResponse}
      (hlists : b.ListsTrainings caller.lists l) (hlegible : ∀ t ∈ l, b.Legible t)
      (hresponses : List.Forall₂ (fun t r => TrainingResponse.of now t = .ok r) l list) :
      Listed now caller b (.done (.trainings list))
  | spoiled {t : Training} (r : Refusal) (ht : b.trainings t.id = some t)
      (hlists : caller.lists t = true) (hlegible : ¬ b.Legible t) : Listed now caller b (.refused r)

/-- The list is shown if every training in it is legible. -/
theorem Books.Listed.isDone_iff {now : Moment} {caller : Caller} {b : Books}
    {e : Ending Refusal Reply} (h : b.Listed now caller e) : e.isDone = true ↔
      ∀ t, b.trainings t.id = some t → caller.lists t = true → b.Legible t := by
  cases h with
  | shown hlists hlegible hresponses =>
      exact ⟨fun _ t ht hl => hlegible t ((hlists.1 t).mpr ⟨ht, hl⟩), fun _ => rfl⟩
  | spoiled r ht hlists hlegible =>
      constructor
      · intro h
        cases h
      · exact fun hall => absurd (hall _ ht hlists) hlegible

namespace Act.Meets

variable {s : Setting} {b : Books}

/-- The query for the trainings of the list is answered if all of them can be read. -/
theorem listQuery {caller : Caller} (hs : s.held = Held.nothing)
    {Q : Ending Failure (List Training) → Books → Prop}
    (hunread : ∀ f t, b.trainings t.id = some t → caller.lists t = true → ¬ b.Reads t →
      Q (.refused f) b)
    (hQ : ∀ l, b.ListsTrainings caller.lists l → (∀ t ∈ l, b.Reads t) → Q (.done l) b) :
    (match caller.role with
      | .trainer => Desk.allTrainings
      | .attendee => Desk.trainingsOfCaller caller).Meets s b Q := by
  have hheld : s.held.trainings = [] := congrArg Held.trainings hs
  cases hrole : caller.role with
  | trainer =>
      have hlists : caller.lists = fun _ => true := by
        funext t
        rw [Caller.lists, hrole]
      rw [hlists] at hunread hQ
      refine watched fun _ => allTrainings ?_ (fun f t ht hread => hunread _ t ht rfl hread) hQ
      exact hheld
  | attendee =>
      have hlists : caller.lists = fun t => decide (t.owner = caller.id) && !t.canceled := by
        funext t
        rw [Caller.lists, hrole]
      rw [hlists] at hunread hQ
      refine watched fun _ => trainingsOf ?_ (fun f t ht hl hread => hunread _ t ht hl hread) hQ
      exact hheld

/-- A call for the trainings is answered as the books say, and changes nothing. -/
theorem trainings_listed {caller : Caller} (hs : s.held = Held.nothing) :
    (Call.trainings caller).perform.Meets s b fun e b' => b' = b ∧ b.Listed s.now caller e := by
  refine bind (bind (operation (listQuery hs (fun f t ht hl hread => ?_) fun l hl hreads => ?_)))
  · exact ⟨rfl, .spoiled _ ht hl fun h => hread h.reads⟩
  refine bind (now (.of_done (ofExcept ?_)))
  cases hlist : l.mapM (TrainingResponse.of s.now) with
  | error r =>
      obtain ⟨t, ht, r', hr'⟩ := mapM_eq_error_iff.mp ⟨r, hlist⟩
      obtain ⟨-, response, hok⟩ | ⟨hstamped, -⟩ := TrainingResponse.of_cases s.now t
      · rw [hr'] at hok
        cases hok
      · obtain ⟨hstored, hlists⟩ := (hl.1 t).mp ht
        exact ⟨rfl, .spoiled r hstored hlists fun h => hstamped h.stamped⟩
  | ok list =>
      have hall := mapM_eq_ok_iff.mp hlist
      refine .of_done (pure ⟨rfl, .shown hl (fun t ht => ⟨hreads t ht, ?_⟩) hall⟩)
      obtain ⟨hstamped, -⟩ | ⟨-, r, hr⟩ := TrainingResponse.of_cases s.now t
      · exact hstamped
      · obtain ⟨r', hr'⟩ := mapM_eq_error_iff.mpr ⟨t, ht, r, hr⟩
        rw [hlist] at hr'
        cases hr'

end Act.Meets

/-! ### Runs -/

namespace Moment

/-- Has the moment a time stamp in UTC? -/
def StampedInUtc (m : Moment) : Prop := (m.toUtc?.bind stamp?).isSome = true

instance (m : Moment) : Decidable m.StampedInUtc := by
  unfold StampedInUtc
  infer_instance

theorem stampedInUtc_iff {m : Moment} :
    m.StampedInUtc ↔ ∃ utc, m.toUtc? = some utc ∧ utc.stamp?.isSome = true := by
  unfold StampedInUtc
  cases m.toUtc? <;> simp

theorem StampedInUtc.inYears {m : Moment} (h : m.StampedInUtc) : Moment.inYears m.second = true := by
  obtain ⟨utc, hutc, -⟩ := stampedInUtc_iff.mp h
  exact toUtc?_isSome_iff.mp (Option.isSome_of_mem hutc)

/-- A whole second of UTC is dated as the moment is there. -/
theorem StampedInUtc.floored {m : Moment} (h : m.StampedInUtc) : m.floored.stamp?.isSome = true := by
  obtain ⟨utc, hutc, hstamp⟩ := stampedInUtc_iff.mp h
  obtain rfl := toUtc?_eq_some hutc
  have hdate : m.floored.date = (⟨m.nanos, 0⟩ : Moment).date := by
    have hsecond : m.floored.second = (⟨m.nanos, 0⟩ : Moment).second := second_floored m
    unfold date localSecond
    rw [hsecond]
    rfl
  rw [stamp?_isSome_iff] at hstamp ⊢
  rw [hdate]
  exact hstamp

end Moment

namespace Books

variable {b : Books}

theorem Dated.legible_of_inMemory (h : b.Dated fun m => m.stamp?.isSome = true)
    (hkind : b.inMemory = true) {id : String} {t : Training} (ht : b.trainings id = some t) :
    b.Legible t := by
  refine ⟨.inl hkind, fun x hx => ?_⟩
  obtain ⟨m, hm, rfl⟩ := h id t ht x hx
  rw [keptTime, if_pos hkind]
  exact hm

theorem Dated.legible_of_utc (h : b.Dated Moment.StampedInUtc) (hkind : b.inMemory = false)
    {id : String} {t : Training} (ht : b.trainings id = some t) : b.Legible t := by
  have hall : ∀ x ∈ t.times, Moment.inYears x.second = true ∧ x.stamp?.isSome = true := by
    intro x hx
    obtain ⟨m, hm, rfl⟩ := h id t ht x hx
    rw [keptTime, hkind, if_neg Bool.false_ne_true, Moment.second_floored]
    exact ⟨hm.inYears, hm.floored⟩
  refine ⟨.inr ⟨?_, fun p hp => ?_⟩, fun x hx => (hall x hx).2⟩
  · exact (hall _ (Training.mem_times.mpr (.inl rfl))).1
  · exact (hall _ (Training.mem_times.mpr (.inr ⟨p, hp, rfl⟩))).1

end Books

namespace Run

variable {window : BookingWindow} {watch : Watch} {history : List Turn} {w : World}

/-- **The list of trainings is all or nothing**: after every run, whoever asks for it changes nothing,
and is shown all the trainings that he may see, or none if one of them is not legible.  In memory all
are legible; in tables all are if every time that was read has a time stamp in UTC, too. -/
theorem listing (h : Run window watch history w) (now : Moment) (caller : Caller) :
    let turn := (Turn.make window watch now (.trainings caller) w).1
    turn.after.books = w.store.books ∧ w.store.books.Listed now caller turn.ending ∧
      (w.store.books.inMemory = true ∨ (∀ m, Reads history m → m.StampedInUtc) →
        turn.ending.isDone = true) := by
  have hmeets : (Call.trainings caller).perform.Meets (.outer now window watch) w.store.books _ :=
    Act.Meets.trainings_listed rfl
  obtain ⟨-, hsame, hlisted⟩ := hmeets w h.sound rfl
  refine ⟨hsame, hlisted, fun hgood => hlisted.isDone_iff.mpr fun t ht _ => ?_⟩
  cases hkind : w.store.books.inMemory with
  | true =>
      have hdated := h.dated.mono fun m hm => by
        obtain ⟨turn, -, s, -, hread⟩ := hm
        exact Stamp.stamp?_of_read hread
      exact hdated.legible_of_inMemory hkind ht
  | false =>
      rw [hkind] at hgood
      have hutc := hgood.resolve_left Bool.false_ne_true
      exact (h.dated.mono hutc).legible_of_utc hkind ht

open Sample in
/-- In tables, Ann books noon and asks to move her training to three o'clock of the zone two hours
ahead of UTC.  Tess is shown the training. -/
theorem listing_ann :
    let played := playOn (.tables (.empty 1)) [.createTraining ann "1" noon,
      .requestReschedule ann "1" ⟨"2030-01-02T15:00:00+02:00", "legs"⟩]
    let listed := (Turn.make .standard .bare newYear (.trainings tess) played.2).1
    (∀ turn ∈ played.1, turn.ending.isDone = true) ∧
      listed.after.books = played.2.store.books ∧
      played.2.store.books.Listed newYear tess listed.ending ∧ listed.ending.isDone = true := by
  intro played listed
  have hdone : ∀ turn ∈ played.1, turn.ending.isDone = true := by decide +kernel
  have hutc : ∀ turn ∈ played.1, ∀ s ∈ turn.call.stamps, ∀ m ∈ (Stamp.read s).toOption,
      m.StampedInUtc := by decide +kernel
  have hrun : Run .standard .bare played.1 played.2 := runOn (.tables 1) _
  obtain ⟨hsame, hlisted, hshown⟩ := listing hrun newYear tess
  refine ⟨hdone, hsame, hlisted, hshown (.inr fun m hm => ?_)⟩
  obtain ⟨turn, hturn, s, hs, hread⟩ := hm
  refine hutc turn hturn s hs m ?_
  rw [hread]
  rfl

open Sample in
/-- Two times that spoil the list in tables, for their owner and for Tess.  Ann asks to move her training
to the last minute of the year `9999` west of Greenwich, which lies in the year `10000` of UTC and is
not read back.  She asks for a training in the first minute of the year `0` east of Greenwich, which is
refused but leaves its row; that minute lies in the year `-1` of UTC and is not written out. -/
theorem not_listed :
    (let played := playOn (.tables (.empty 1)) [.createTraining ann "1" noon,
      .requestReschedule ann "1" ⟨"9999-12-31T23:59:59-00:01", "legs"⟩]
     Run .standard .bare played.1 played.2 ∧
      (played.1.map fun turn => turn.ending.isDone) = [true, true, true, true, true] ∧
      ∀ caller ∈ [tess, ann],
        (Turn.make .standard .bare newYear (.trainings caller) played.2).1.ending.isDone = false) ∧
    (let played := playOn (.tables (.empty 1))
      [.createTraining ann "1" ⟨"0000-01-01T00:00:00+00:01", "legs"⟩]
     Run .standard .bare played.1 played.2 ∧
      (played.1.map fun turn => turn.ending.isDone) = [true, true, true, false] ∧
      ∀ caller ∈ [tess, ann],
        (Turn.make .standard .bare newYear (.trainings caller) played.2).1.ending.isDone = false) := by
  refine ⟨⟨runOn (.tables 1) _, ?_, ?_⟩, runOn (.tables 1) _, ?_, ?_⟩ <;> decide +kernel

end Run

end TrainerBooking
