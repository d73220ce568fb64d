import TrainerBooking.Proofs.Runs

/-! # Who occupies which hour

An active training **occupies** the hour of its time, and an hour is **booked** if it says so itself.
Nothing in the books ties the two together, so this module says how each call changes both
(`Call.Shift`): the properties of runs about hours and trainings rest on this alone.

* **Secure.** Some trainings are secure (`Books.Secure`) if the hours that they occupy are booked, each
  for one of them.  Those of them are secure after a call at whose hours it gives up no other training,
  and with them trainings that come to their hours by the call (`Shift.secure`). -/

namespace TrainerBooking

namespace Books

/-- Is the training of the identifier active, and is its time in this second? -/
def Occupies (b : Books) (id : String) (second : Int) : Prop :=
  ∃ t, b.trainings id = some t ∧ t.canceled = false ∧ t.time.second = second

/-- Does the hour of the second say that a training is booked? -/
def Booked (b : Books) (second : Int) : Prop :=
  b.availability? second = some .trainingScheduled

variable {b : Books}

theorem Occupies.unique {id : String} {second second' : Int} (h : b.Occupies id second)
    (h' : b.Occupies id second') : second = second' := by
  obtain ⟨t, ht, -, hs⟩ := h
  obtain ⟨t', ht', -, hs'⟩ := h'
  rw [ht] at ht'
  obtain rfl := Option.some.inj ht'
  rw [← hs, ← hs']

theorem occupies_congr {b' : Books} (h : b'.trainings = b.trainings) (id : String) (second : Int) :
    b'.Occupies id second ↔ b.Occupies id second := by
  rw [Occupies, h, Occupies]

theorem occupies_setTraining (id id' : String) (t : Training) (second : Int) :
    (b.setTraining id t).Occupies id' second ↔
      (id' = id ∧ t.canceled = false ∧ t.time.second = second) ∨
        (id' ≠ id ∧ b.Occupies id' second) := by
  unfold Occupies
  rw [setTraining_trainings]
  by_cases h : id' = id
  · simp [h]
  · simp [h]

theorem not_occupies_of_free {id : String} (h : b.trainings id = none) (second : Int) :
    ¬ b.Occupies id second := by
  rintro ⟨t, ht, -⟩
  rw [h] at ht
  cases ht

theorem occupies_added {t : Training} (hfree : b.trainings t.id = none)
    (hactive : t.canceled = false) (id : String) (second : Int) :
    (b.setTraining t.id (b.kept t)).Occupies id second ↔
      b.Occupies id second ∨ (id = t.id ∧ second = t.time.second) := by
  rw [occupies_setTraining, kept_canceled, kept_second]
  by_cases h : id = t.id
  · have hno : ¬ b.Occupies id second := by
      rw [h]
      exact not_occupies_of_free hfree second
    simp [h, hactive, h ▸ hno, eq_comm]
  · simp [h]

theorem occupies_refiled {id : String} {t : Training} (hactive : t.canceled = false)
    (id' : String) (second : Int) :
    (b.setTraining id (b.kept t)).Occupies id' second ↔
      (b.Occupies id' second ∧ id' ≠ id) ∨ (id' = id ∧ second = t.time.second) := by
  rw [occupies_setTraining, kept_canceled, kept_second, hactive]
  by_cases h : id' = id <;> simp [h, eq_comm]

theorem occupies_canceled {id : String} {t : Training} (hcanceled : t.canceled = true)
    (id' : String) (second : Int) :
    (b.setTraining id (b.kept t)).Occupies id' second ↔ b.Occupies id' second ∧ id' ≠ id := by
  rw [occupies_setTraining, kept_canceled, hcanceled]
  by_cases h : id' = id <;> simp [h]

theorem booked_schedule {second : Int} {h : Hour} (hh : h.availability = .trainingScheduled)
    (s : Int) : (b.setHour second h).Booked s ↔ b.Booked s ∨ s = second := by
  unfold Booked
  rw [availability?_setHour]
  by_cases hs : s = second <;> simp [hs, hh]

theorem booked_release {second : Int} {h : Hour} (hh : h.availability = .available) (s : Int) :
    (b.setHour second h).Booked s ↔ b.Booked s ∧ s ≠ second := by
  unfold Booked
  rw [availability?_setHour]
  by_cases hs : s = second <;> simp [hs, hh]

@[simp] theorem booked_setTraining (id : String) (t : Training) (s : Int) :
    (b.setTraining id t).Booked s ↔ b.Booked s := Iff.rfl

theorem not_booked_of_open {second : Int} (h : b.availability? second = some .available) :
    ¬ b.Booked second := by
  intro hb
  rw [Booked, h] at hb
  cases hb

end Books

namespace Api

namespace Call

/-- May the caller of the call see the training of the identifier? -/
def Sees (call : Call) (b : Books) (id : String) : Prop :=
  ∃ caller t, call.caller? = some caller ∧ b.trainings id = some t ∧ caller.sees t = true

/-- How a call changes who occupies which hour, and which hours are booked. -/
inductive Shift (b b' : Books) : Call → Bool → Prop
  | still {call : Call} {done : Bool} (hcreates : done = true → call.creates? = none)
      (hocc : ∀ id s, b'.Occupies id s ↔ b.Occupies id s)
      (hbooked : ∀ s, b'.Booked s ↔ b.Booked s) : Shift b b' call done
  | stranded {caller : Caller} {id : String} {r : TrainingRequest} {second : Int}
      (hfree : b.trainings id = none)
      (hocc : ∀ id' s, b'.Occupies id' s ↔ b.Occupies id' s ∨ (id' = id ∧ s = second))
      (hbooked : ∀ s, b'.Booked s ↔ b.Booked s) : Shift b b' (.createTraining caller id r) false
  | taken {caller : Caller} {id : String} {r : TrainingRequest} {second : Int}
      (hfree : b.trainings id = none) (hopen : ¬ b.Booked second)
      (hocc : ∀ id' s, b'.Occupies id' s ↔ b.Occupies id' s ∨ (id' = id ∧ s = second))
      (hbooked : ∀ s, b'.Booked s ↔ b.Booked s ∨ s = second) :
      Shift b b' (.createTraining caller id r) true
  | vacated {call : Call} {id : String} {second : Int} (hcall : call.vacates? = some id)
      (hsees : call.Sees b id) (hold : b.Occupies id second)
      (hocc : ∀ id' s, b'.Occupies id' s ↔ b.Occupies id' s ∧ id' ≠ id)
      (hbooked : ∀ s, b'.Booked s ↔ b.Booked s ∧ s ≠ second) : Shift b b' call true
  | moved {call : Call} {id : String} {new old : Int} (hcall : call.vacates? = some id)
      (hsees : call.Sees b id) (hold : b.Occupies id old) (hopen : ¬ b.Booked new)
      (hocc : ∀ id' s, b'.Occupies id' s ↔ (b.Occupies id' s ∧ id' ≠ id) ∨ (id' = id ∧ s = new))
      (hbooked : ∀ s, b'.Booked s ↔ (b.Booked s ∨ s = new) ∧ s ≠ old) : Shift b b' call true
  | blocked {call : Call} {id : String} {new old : Int} (hcall : call.vacates? = some id)
      (hold : b.Occupies id old) (hvacant : ¬ b.Booked old) (hopen : ¬ b.Booked new)
      (hocc : ∀ id' s, b'.Occupies id' s ↔ b.Occupies id' s)
      (hbooked : ∀ s, b'.Booked s ↔ b.Booked s ∨ s = new) : Shift b b' call false

theorem Shift.unchanged {b : Books} {call : Call} : Shift b b call false :=
  .still (fun h => absurd h Bool.false_ne_true) (fun _ _ => Iff.rfl) fun _ => Iff.rfl

end Call

end Api

open Api

theorem Books.Moving.shift {b b' : Books} {id : String} {caller : Caller}
    {change : Training → Training → Prop} {e : Ending Failure Unit}
    (h : b.Moving id caller change e b') {call : Call} (hcall : call.vacates? = some id)
    (hcaller : call.caller? = some caller) :
    Call.Shift b b' call e.isDone := by
  cases h with
  | refused hf => exact .unchanged
  | crashed => exact .unchanged
  | unreleased ht hsees hactive hkeeps hchange hopen hh hbooked he =>
      rw [he]
      have hvacant := mt (Books.booked_schedule hh _).mpr hbooked
      exact .blocked hcall ⟨_, ht, hactive, rfl⟩ (fun h => hvacant (.inl h))
        (Books.not_booked_of_open hopen) (fun _ _ => Iff.rfl) (Books.booked_schedule hh)
  | moved ht hsees hactive hkeeps hchange hopen hh hbooked hh' =>
      have hsees' : call.Sees b id := ⟨caller, _, hcaller, ht, hsees⟩
      refine .moved hcall hsees' ⟨_, ht, hactive, rfl⟩ (Books.not_booked_of_open hopen) (fun id' s => ?_)
        fun s => ?_
      · exact Books.occupies_refiled (hkeeps.canceled.trans hactive) id' s
      · rw [Books.booked_setTraining, Books.booked_release hh', Books.booked_schedule hh]

theorem Books.Amending.shift {b b' : Books} {id : String} {caller : Caller}
    {change : Training → Training → Prop} {e : Ending Failure Unit}
    (h : b.Amending id caller change e b') {call : Call} (hcall : call.creates? = none) :
    Call.Shift b b' call e.isDone := by
  cases h with
  | refused f => exact .unchanged
  | @amended t t' ht hsees hactive hkeeps htime hchange =>
      refine .still (fun _ => hcall) (fun id' s => ?_) fun _ => Iff.rfl
      rw [Books.occupies_refiled (hkeeps.canceled.trans hactive), htime]
      by_cases hid : id' = id
      · subst hid
        have hocc : b.Occupies id' t.time.second := ⟨t, ht, hactive, rfl⟩
        constructor
        · rintro (⟨-, hne⟩ | ⟨-, rfl⟩)
          · exact absurd rfl hne
          · exact hocc
        · intro h
          exact .inr ⟨rfl, h.unique hocc⟩
      · simp [hid]

namespace Api

namespace Call

theorem Outcome.shift {now : Moment} {b b' : Books} {call : Call} {done : Bool}
    (h : call.Outcome now b done b') : Shift b b' call done := by
  cases h with
  | refused call => exact .unchanged
  | edited done hcreates hvacates hcaller hrole h =>
      exact .still (fun _ => hcreates) (Books.occupies_congr h.trainings) h.booked
  | banked done hcreates hvacates h =>
      refine .still (fun _ => hcreates) (Books.occupies_congr h.trainings) fun s => ?_
      rw [Books.Booked, Books.availability?, h.hours, Books.Booked, Books.availability?]
  | booking htime h =>
      cases h with
      | refused f => exact .unchanged
      | unpaid f hfree => exact .stranded hfree (Books.occupies_added hfree rfl) fun s => Iff.rfl
      | unbooked hfree ha hn he =>
          rw [he]
          exact .stranded hfree (Books.occupies_added hfree rfl) fun s => Iff.rfl
      | booked hfree ha hn hopen hh =>
          have hno := Books.not_booked_of_open hopen
          exact .taken hfree hno (Books.occupies_added hfree rfl) (Books.booked_schedule hh)
  | canceling h =>
      cases h with
      | barred f hbar => exact .unchanged
      | uncredited ht hsees hactive hmissing => exact .unchanged
      | unreleased ht hsees hactive hcredit hbooked he =>
          rw [he]
          refine .still (fun h => absurd h Bool.false_ne_true)
            (Books.occupies_congr hcredit.trainings) fun s => ?_
          rw [Books.Booked, hcredit.availability?, Books.Booked]
      | @canceled t c h ht hsees hactive hcredit hbooked hh =>
          refine .vacated rfl ⟨_, _, rfl, ht, hsees⟩ ⟨_, ht, hactive, rfl⟩ (fun id' s => ?_) fun s => ?_
          · rw [← Books.occupies_congr hcredit.trainings,
              ← Books.kept_congr hcredit.inMemory]
            exact Books.occupies_canceled rfl id' s
          · rw [Books.booked_setTraining, Books.booked_release hh, Books.Booked,
              hcredit.availability?, Books.Booked]
  | rescheduling htime h => exact h.shift rfl rfl
  | approving h => exact h.shift rfl rfl
  | requesting htime h => exact h.shift rfl
  | rejecting h => exact h.shift rfl

end Call

end Api

/-! ### Secure trainings -/

/-- Are the two trainings active at the same hour? -/
def Books.Share (b : Books) (id id' : String) : Prop :=
  ∃ t ∈ b.trainings id, ∃ t' ∈ b.trainings id',
    t.canceled = false ∧ t'.canceled = false ∧ t.time.second = t'.time.second

instance (b : Books) (id id' : String) : Decidable (b.Share id id') := by
  unfold Books.Share
  infer_instance

/-- The trainings that satisfy `P` are stored, and the hours that they occupy are booked, each for one
of them. -/
structure Books.Secure (b : Books) (P : String → Prop) : Prop where
  stored : ∀ {id}, P id → (b.trainings id).isSome
  booked : ∀ {id s}, P id → b.Occupies id s → b.Booked s
  alone : ∀ {id id' s}, P id → P id' → b.Occupies id s → b.Occupies id' s → id = id'

namespace Books

variable {b : Books} {P : String → Prop}

theorem Occupies.stored {id : String} {s : Int} (h : b.Occupies id s) :
    (b.trainings id).isSome := by
  obtain ⟨t, ht, -⟩ := h
  rw [ht]
  rfl

theorem Occupies.share {id id' : String} {s : Int} (h : b.Occupies id s)
    (h' : b.Occupies id' s) : b.Share id id' := by
  obtain ⟨t, ht, hactive, hs⟩ := h
  obtain ⟨t', ht', hactive', hs'⟩ := h'
  exact ⟨t, ht, t', ht', hactive, hactive', hs.trans hs'.symm⟩

theorem Share.occupies {id id' : String} (h : b.Share id id') :
    ∃ s, b.Occupies id s ∧ b.Occupies id' s := by
  obtain ⟨t, ht, t', ht', hactive, hactive', hs⟩ := h
  exact ⟨t.time.second, ⟨t, ht, hactive, rfl⟩, t', ht', hactive', hs.symm⟩

theorem Secure.nobody (h : ∀ id, ¬ P id) : b.Secure P :=
  ⟨fun hid => absurd hid (h _), fun hid => absurd hid (h _), fun hid => absurd hid (h _)⟩

/-- Where one training is and another one is given up that does not share its hour, the hours are
different. -/
theorem Occupies.ne_of_not_share {id gone : String} {s old : Int} (h : b.Occupies id s)
    (hold : b.Occupies gone old) (hclean : ¬ b.Share gone id) : s ≠ old := by
  rintro rfl
  exact hclean (hold.share h)

end Books

namespace Api.Call

theorem creates?_of_vacates? {call : Call} {id : String} (h : call.vacates? = some id) :
    call.creates? = none := by
  cases call with
  | createTraining caller fresh r => cases h
  | _ => rfl

variable {b b' : Books} {P P' : String → Prop} {call : Call} {done : Bool}

/-- What a call that is done creates was not stored before, and is stored after it. -/
theorem Shift.created (h : Shift b b' call done) (hdone : done = true) {id : String}
    (hcall : call.creates? = some id) : b.trainings id = none ∧ (b'.trainings id).isSome := by
  cases h with
  | still hcreates hocc hbooked =>
      rw [hcreates hdone] at hcall
      cases hcall
  | stranded hfree hocc hbooked => cases hdone
  | @taken caller fresh r second hfree hopen hocc hbooked =>
      obtain rfl := Option.some.inj hcall
      exact ⟨hfree, ((hocc fresh second).mpr (.inr ⟨rfl, rfl⟩)).stored⟩
  | vacated hvacates hsees hold hocc hbooked =>
      rw [creates?_of_vacates? hvacates] at hcall
      cases hcall
  | moved hvacates hsees hold hopen hocc hbooked =>
      rw [creates?_of_vacates? hvacates] at hcall
      cases hcall
  | blocked hvacates hold hvacant hopen hocc hbooked => cases hdone

/-- Which of the trainings are at which hours after the call, where before it those of `P` were
secure: the hours are booked, and all but one training were there before; that one came to an hour
that was not booked. -/
theorem Shift.newcomer (h : Shift b b' call done) (hsec : b.Secure P)
    (hnew : ∀ id, P' id → (b.trainings id).isSome ∨ (done = true ∧ call.creates? = some id))
    (hstay : ∀ id s, P' id → b.Occupies id s → b'.Occupies id s → P id)
    (hclean : done = true → ∀ gone, call.vacates? = some gone → ∀ id, P' id → id ≠ gone →
      ¬ b.Share gone id) :
    ∃ newcomer : Option (String × Int), ∀ id s, P' id → b'.Occupies id s → b'.Booked s ∧
      ((P id ∧ b.Occupies id s) ∨ (newcomer = some (id, s) ∧ ¬ b.Booked s)) := by
  cases h with
  | still hcreates hocc hbooked =>
      refine ⟨none, fun id s hid h' => ?_⟩
      have h := (hocc id s).mp h'
      have hold := hstay id s hid h h'
      exact ⟨(hbooked s).mpr (hsec.booked hold h), .inl ⟨hold, h⟩⟩
  | @stranded caller fresh r second hfree hocc hbooked =>
      refine ⟨none, fun id s hid h' => ?_⟩
      have h : b.Occupies id s := by
        refine ((hocc id s).mp h').resolve_right fun ⟨hfresh, _⟩ => ?_
        have hstored := (hnew id hid).resolve_right fun ⟨hdone, _⟩ => Bool.false_ne_true hdone
        rw [hfresh, hfree] at hstored
        cases hstored
      have hold := hstay id s hid h h'
      exact ⟨(hbooked s).mpr (hsec.booked hold h), .inl ⟨hold, h⟩⟩
  | @taken caller fresh r second hfree hopen hocc hbooked =>
      refine ⟨some (fresh, second), fun id s hid h' => ?_⟩
      rcases (hocc id s).mp h' with h | ⟨rfl, rfl⟩
      · have hold := hstay id s hid h h'
        exact ⟨(hbooked s).mpr (.inl (hsec.booked hold h)), .inl ⟨hold, h⟩⟩
      · exact ⟨(hbooked s).mpr (.inr rfl), .inr ⟨rfl, hopen⟩⟩
  | @vacated _ gone second hcall hsees hgone hocc hbooked =>
      refine ⟨none, fun id s hid h' => ?_⟩
      obtain ⟨h, hne⟩ := (hocc id s).mp h'
      have hold := hstay id s hid h h'
      have hs := h.ne_of_not_share hgone (hclean rfl gone hcall id hid hne)
      exact ⟨(hbooked s).mpr ⟨hsec.booked hold h, hs⟩, .inl ⟨hold, h⟩⟩
  | @moved _ mover new old hcall hsees hmover hopen hocc hbooked =>
      refine ⟨some (mover, new), fun id s hid h' => ?_⟩
      rcases (hocc id s).mp h' with ⟨h, hne⟩ | ⟨rfl, rfl⟩
      · have hold := hstay id s hid h h'
        have hs := h.ne_of_not_share hmover (hclean rfl mover hcall id hid hne)
        exact ⟨(hbooked s).mpr ⟨.inl (hsec.booked hold h), hs⟩, .inl ⟨hold, h⟩⟩
      · -- a training that moves to the hour where it is was secure there, and the hour was not open
        have hne : s ≠ old := by
          rintro rfl
          exact hopen (hsec.booked (hstay id s hid hmover h') hmover)
        exact ⟨(hbooked s).mpr ⟨.inr rfl, hne⟩, .inr ⟨rfl, hopen⟩⟩
  | blocked hcall hblocked hvacant hopen hocc hbooked =>
      refine ⟨none, fun id s hid h' => ?_⟩
      have h := (hocc id s).mp h'
      have hold := hstay id s hid h h'
      exact ⟨(hbooked s).mpr (.inl (hsec.booked hold h)), .inl ⟨hold, h⟩⟩

/-- Trainings are secure after a call if those of them that stay at their hours were secure before,
none is new but the one that the call creates, and no other training is given up at their hours. -/
theorem Shift.secure (h : Shift b b' call done) (hsec : b.Secure P)
    (hnew : ∀ id, P' id → (b.trainings id).isSome ∨ (done = true ∧ call.creates? = some id))
    (hstay : ∀ id s, P' id → b.Occupies id s → b'.Occupies id s → P id)
    (hretains : b.Retains b')
    (hclean : done = true → ∀ gone, call.vacates? = some gone → ∀ id, P' id → id ≠ gone →
      ¬ b.Share gone id) : b'.Secure P' := by
  obtain ⟨newcomer, hwho⟩ := h.newcomer hsec hnew hstay hclean
  refine ⟨fun {id} hid => ?_, fun {id s} hid hocc => (hwho id s hid hocc).1,
    fun {id id' s} hid hid' hocc hocc' => ?_⟩
  · rcases hnew id hid with hold | ⟨hdone, hcreates⟩
    · exact hretains.stored hold
    · exact (h.created hdone hcreates).2
  · rcases (hwho id s hid hocc).2 with ⟨hid, hocc⟩ | ⟨hnew, hopen⟩
    · rcases (hwho id' s hid' hocc').2 with ⟨hid', hocc'⟩ | ⟨-, hopen⟩
      · exact hsec.alone hid hid' hocc hocc'
      · exact absurd (hsec.booked hid hocc) hopen
    · rcases (hwho id' s hid' hocc').2 with ⟨hid', hocc'⟩ | ⟨hnew', -⟩
      · exact absurd (hsec.booked hid' hocc') hopen
      · rw [hnew] at hnew'
        exact congrArg Prod.fst (Option.some.inj hnew')

/-- The hour of a secure training stays booked, unless its owner or a trainer gives it up, or another
training there is given up. -/
theorem Shift.booked (h : Shift b b' call done) (hsec : b.Secure P) {id : String} {s : Int}
    (hid : P id) (hocc : b.Occupies id s) (hsees : ¬ call.Sees b id)
    (hclean : done = true → ∀ gone, call.vacates? = some gone → id ≠ gone → ¬ b.Share gone id) :
    b'.Booked s := by
  have hb := hsec.booked hid hocc
  cases h with
  | still hcreates hocc' hbooked => exact (hbooked s).mpr hb
  | stranded hfree hocc' hbooked => exact (hbooked s).mpr hb
  | taken hfree hopen hocc' hbooked => exact (hbooked s).mpr (.inl hb)
  | @vacated _ gone second hcall hsees' hold hocc' hbooked =>
      have hne : id ≠ gone := by
        rintro rfl
        exact hsees hsees'
      have hs := hocc.ne_of_not_share hold (hclean rfl gone hcall hne)
      exact (hbooked s).mpr ⟨hb, hs⟩
  | @moved _ gone new old hcall hsees' hold hopen hocc' hbooked =>
      have hne : id ≠ gone := by
        rintro rfl
        exact hsees hsees'
      have hs := hocc.ne_of_not_share hold (hclean rfl gone hcall hne)
      exact (hbooked s).mpr ⟨.inl hb, hs⟩
  | blocked hcall hold hvacant hopen hocc' hbooked => exact (hbooked s).mpr (.inl hb)

end Api.Call

end TrainerBooking
