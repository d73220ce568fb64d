import TrainerBooking.Proofs.Accounts
import TrainerBooking.Proofs.Times

/-! # Rows and values are the same, to the whole second

A `Codec` names what keeps values as rows: the encoding, the decoding, the constraints of the table,
the times of a value and the seconds of a row.  The three tables have one each
(`TrainingRow.codec`, `HourRow.codec`, `AccountRow.codec`).

* **Lawful.** `Codec.Lawful` lists the facts about one codec that have to be looked up in its
  definitions, against what a row means (`HourRow.meaning?`, `TrainingRow.meaning?`,
  `AccountRow.meaning?`).
* **Inverse.** `Codec.Inverse` is what follows for each of them: decoding undoes encoding up to the
  fraction of a second and the offset, encoding undoes decoding, and decoding fails exactly on rows
  that are malformed or out of range, with the fault of a corrupted row. -/

namespace TrainerBooking

/-! ### Codecs -/

/-- How values of one type are kept as rows of one table. -/
structure Codec (α ρ : Type) where
  /-- The row of a value. -/
  encode : α → ρ
  /-- The value that a row holds. -/
  decode : ρ → Except DatabaseFault α
  /-- Does a row satisfy the constraints of its table? -/
  isSound : ρ → Bool
  /-- Is the value one that the constraints allow? -/
  Allowed : α → Prop
  /-- The times of a value. -/
  times : α → List Moment
  /-- The value as it is read back. -/
  kept : α → α
  /-- The seconds that a row holds. -/
  seconds : ρ → List Int
  /-- Is the row one that no value has, whatever its seconds are? -/
  Malformed : ρ → Prop
  /-- Do two rows agree in the columns that the value decides? -/
  Same : ρ → ρ → Prop

namespace Codec

variable {α ρ : Type} {c : Codec α ρ}

/-- Does one of the seconds of a row lie outside the years that can be written? -/
def OutOfRange (c : Codec α ρ) (r : ρ) : Prop := ∃ s ∈ c.seconds r, Moment.inYears s = false

/-- Encoding and decoding are inverse, and decoding fails only where it has to. -/
structure Inverse (c : Codec α ρ) : Prop where
  /-- The row of a value satisfies the constraints of the table. -/
  sound : ∀ a, c.Allowed a → c.isSound (c.encode a) = true
  /-- A value with times that can be written in UTC is read back as it is kept. -/
  decode_encode : ∀ a, (∀ m ∈ c.times a, m.toUtc?.isSome) → c.decode (c.encode a) = .ok (c.kept a)
  /-- A sound row in range is decoded, and what it holds is encoded as the same row. -/
  encode_decode : ∀ r, c.isSound r = true → (∀ s ∈ c.seconds r, Moment.inYears s = true) →
    ∃ a, c.decode r = .ok a ∧ c.Same (c.encode a) r
  /-- Decoding fails exactly on what is malformed or out of range. -/
  fails_iff : ∀ r, (∃ fault, c.decode r = .error fault) ↔ c.Malformed r ∨ c.OutOfRange r
  /-- A row that cannot be decoded is called corrupted. -/
  corrupted : ∀ r fault, c.decode r = .error fault → ∃ detail, fault = .corruptedRow detail

/-- The facts about a codec from which the rest follows; `meaning?` is what a row says if it is not
malformed, even where its seconds are out of range. -/
structure Lawful (c : Codec α ρ) (meaning? : ρ → Option α) : Prop where
  sound : ∀ a, c.Allowed a → c.isSound (c.encode a) = true
  seconds_encode : ∀ a, c.seconds (c.encode a) = (c.times a).map Moment.second
  meaning_encode : ∀ a, meaning? (c.encode a) = some (c.kept a)
  malformed_iff : ∀ r, c.Malformed r ↔ meaning? r = none
  restores : ∀ r, c.isSound r = true → ∃ a, meaning? r = some a ∧ c.Same (c.encode a) r
  decodes : ∀ r a, meaning? r = some a → (∀ s ∈ c.seconds r, Moment.inYears s = true) →
    c.decode r = .ok a
  refuses : ∀ r, c.Malformed r ∨ c.OutOfRange r →
    ∃ detail, c.decode r = .error (.corruptedRow detail)

namespace Lawful

variable {meaning? : ρ → Option α}

theorem decode_encode (h : c.Lawful meaning?) (a : α) (htimes : ∀ m ∈ c.times a, m.toUtc?.isSome) :
    c.decode (c.encode a) = .ok (c.kept a) := by
  refine h.decodes _ _ (h.meaning_encode a) ?_
  intro s hs
  rw [h.seconds_encode] at hs
  obtain ⟨m, hm, rfl⟩ := List.mem_map.mp hs
  exact Moment.toUtc?_isSome_iff.mp (htimes m hm)

/-- A row is decoded, or it is spoiled and refused as corrupted. -/
theorem decode_cases (h : c.Lawful meaning?) (r : ρ) :
    (∃ a, c.decode r = .ok a) ∨ ((c.Malformed r ∨ c.OutOfRange r) ∧
      ∃ detail, c.decode r = .error (.corruptedRow detail)) := by
  by_cases hbad : c.Malformed r ∨ c.OutOfRange r
  · exact .inr ⟨hbad, h.refuses r hbad⟩
  · obtain ⟨hformed, hrange⟩ := not_or.mp hbad
    rw [h.malformed_iff] at hformed
    obtain ⟨a, ha⟩ := Option.ne_none_iff_exists'.mp hformed
    refine .inl ⟨a, h.decodes r a ha ?_⟩
    intro s hs
    by_contra hyears
    exact hrange ⟨s, hs, Bool.eq_false_of_not_eq_true hyears⟩

/-- What a lawful codec does. -/
theorem inverse (h : c.Lawful meaning?) : c.Inverse where
  sound := h.sound
  decode_encode := h.decode_encode
  encode_decode := by
    intro r hr hyears
    obtain ⟨a, ha, hsame⟩ := h.restores r hr
    exact ⟨a, h.decodes r a ha hyears, hsame⟩
  fails_iff := by
    intro r
    constructor
    · rintro ⟨fault, hfault⟩
      obtain ⟨a, ha⟩ | ⟨hbad, -⟩ := h.decode_cases r
      · rw [ha] at hfault
        cases hfault
      · exact hbad
    · intro hbad
      obtain ⟨detail, hd⟩ := h.refuses r hbad
      exact ⟨_, hd⟩
  corrupted := by
    intro r fault hfault
    obtain ⟨a, ha⟩ | ⟨-, detail, hd⟩ := h.decode_cases r
    · rw [ha] at hfault
      cases hfault
    · rw [hd] at hfault
      exact ⟨detail, (Except.error.inj hfault).symm⟩

end Lawful

end Codec

/-! ### Columns -/

namespace Row

theorem decodeRole_ok {label : String} {role : Role} (h : Role.ofLabel? label = some role) :
    decodeRole label = .ok role := by
  rw [decodeRole, Role.parse, h]

theorem decodeRole_corrupted {label : String} (h : Role.ofLabel? label = none) :
    ∃ detail, decodeRole label = .error (.corruptedRow detail) :=
  ⟨_, by rw [decodeRole, Role.parse, h]⟩

theorem decodeAvailability_corrupted {label : String} (h : Availability.ofLabel? label = none) :
    ∃ detail, decodeAvailability label = .error (.corruptedRow detail) :=
  ⟨_, by rw [decodeAvailability, Availability.parse, h]⟩

end Row

/-! ### Hours -/

namespace HourRow

/-- How an hour is kept in the row of a number. -/
def codec (rowId : Nat) : Codec Hour HourRow where
  encode := encode rowId
  decode := decode
  isSound := isSound
  Allowed _ := True
  times h := [h.time]
  kept h := ⟨h.time.floored, h.availability⟩
  seconds r := [r.second]
  Malformed r := ∀ a : Availability, r.availability ≠ a.label
  Same r r' := r.second = r'.second ∧ r.availability = r'.availability

theorem codec_lawful (rowId : Nat) : (codec rowId).Lawful meaning? where
  sound h _ := by simp [codec, isSound, encode]
  seconds_encode h := rfl
  meaning_encode h := by simp [codec, meaning?, encode, Moment.floored]
  malformed_iff r := by
    rw [meaning?, Option.map_eq_none_iff]
    exact Availability.ofLabel?_eq_none.symm
  restores r hr := by
    obtain ⟨h, hm⟩ := meaning?_isSome hr
    obtain ⟨a, ha, rfl⟩ := Option.map_eq_some_iff.mp hm
    exact ⟨_, hm, Moment.second_mul _ _, Availability.label_of_ofLabel? ha⟩
  decodes r h hm hyears := decode_eq hm (hyears _ (List.mem_singleton.mpr rfl))
  refuses r hbad := by
    change ∃ detail, r.decode = _
    rw [decode]
    cases hyears : Moment.inYears r.second with
    | false =>
        obtain ⟨detail, hd⟩ := Row.decodeSecond_corrupted hyears
        rw [hd]
        exact ⟨detail, rfl⟩
    | true =>
        obtain hunknown | ⟨s, hs, hout⟩ := hbad
        · obtain ⟨detail, hd⟩ := Row.decodeAvailability_corrupted
            (Availability.ofLabel?_eq_none.mpr hunknown)
          rw [Row.decodeSecond_ok hyears, hd]
          exact ⟨detail, rfl⟩
        · rw [List.mem_singleton.mp hs, hyears] at hout
          cases hout

end HourRow

/-! ### Trainings -/

namespace TrainingRow

/-- Is only half of a proposal there, or is it by an unknown role? -/
def Malformed (r : TrainingRow) : Prop :=
  r.newSecond.isSome ≠ r.proposedBy.isSome ∨
    ∃ label, r.proposedBy = some label ∧ ∀ role : Role, label ≠ role.label

/-- How a training is kept. -/
def codec : Codec Training TrainingRow where
  encode := encode
  decode := decode
  isSound := isSound
  Allowed _ := True
  times := Training.times
  kept := Training.floored
  seconds r := r.second :: r.newSecond.toList
  Malformed := Malformed
  Same r r' := r = r'

/-- The training that a row stands for, if its proposal is whole and its role is known. -/
def meaning? (r : TrainingRow) : Option Training :=
  match r.newSecond, r.proposedBy with
  | none, none => some r.meaning
  | some _, some label => (Role.ofLabel? label).map fun _ => r.meaning
  | _, _ => none

theorem malformed_iff (r : TrainingRow) : r.Malformed ↔ r.meaning? = none := by
  simp only [Malformed, meaning?]
  cases r.newSecond <;> cases r.proposedBy <;> simp [Role.ofLabel?_eq_none]

theorem meaning_of_meaning? {r : TrainingRow} {t : Training} (h : r.meaning? = some t) :
    t = r.meaning := by
  unfold meaning? at h
  split at h
  · exact (Option.some.inj h).symm
  · obtain ⟨role, -, ht⟩ := Option.map_eq_some_iff.mp h
    exact ht.symm
  · cases h

theorem meaning?_encode (t : Training) : (encode t).meaning? = some t.floored := by
  rw [← meaning_encode t, meaning?]
  simp only [encode]
  cases t.proposal with
  | none => rfl
  | some p => simp

/-- A sound row has a proposal by a known role, or none at all. -/
theorem proposal_cases {r : TrainingRow} (h : r.isSound = true) :
    (r.newSecond = none ∧ r.proposedBy = none) ∨
      ∃ second role, r.newSecond = some second ∧ r.proposedBy = some (Role.label role) := by
  simp only [isSound, Bool.and_eq_true] at h
  obtain ⟨⟨hboth, hrole⟩, -⟩ := h
  cases hn : r.newSecond with
  | none =>
      cases hp : r.proposedBy with
      | none => exact .inl ⟨rfl, rfl⟩
      | some label => simp [hn, hp] at hboth
  | some second =>
      cases hp : r.proposedBy with
      | none => simp [hn, hp] at hboth
      | some label =>
          rw [hp] at hrole
          obtain ⟨role, hl⟩ := Row.exists_of_isRole hrole
          exact .inr ⟨second, role, rfl, congrArg some (Role.label_of_ofLabel? hl).symm⟩

theorem canceled_of_isSound {r : TrainingRow} (h : r.isSound = true) :
    (if Column.holds r.canceled = true then (1 : Int) else 0) = r.canceled := by
  simp only [isSound, Bool.and_eq_true, Bool.or_eq_true, beq_iff_eq] at h
  rcases h.2 with hc | hc <;> rw [hc] <;> rfl

/-- What a sound row means is written as the same row. -/
theorem encode_meaning {r : TrainingRow} (h : r.isSound = true) : encode r.meaning = r := by
  obtain ⟨id, owner, ownerName, second, notes, newSecond, proposedBy, canceled⟩ := r
  have hcanceled : (if Column.holds canceled = true then (1 : Int) else 0) = canceled :=
    canceled_of_isSound h
  obtain ⟨hn, hp⟩ | ⟨new, role, hn, hp⟩ := proposal_cases h
  all_goals
    cases hn
    cases hp
    simp only [encode, meaning, proposalMeaning, Moment.second_mul, Option.map_none,
      Option.map_some, Role.ofLabel?_label]
    exact congrArg (mk id owner ownerName second notes _ _) hcanceled

theorem decodeProposal_ok {r : TrainingRow} (h : (meaning? r).isSome)
    (hyears : ∀ s ∈ r.newSecond, Moment.inYears s = true) :
    r.decodeProposal = .ok r.proposalMeaning := by
  unfold meaning? at h
  unfold decodeProposal proposalMeaning
  cases hn : r.newSecond with
  | none =>
      cases hp : r.proposedBy with
      | none => rfl
      | some label => simp [hn, hp] at h
  | some second =>
      cases hp : r.proposedBy with
      | none => simp [hn, hp] at h
      | some label =>
          simp only [hn, hp, Option.isSome_map] at h
          obtain ⟨role, hl⟩ := Option.isSome_iff_exists.mp h
          dsimp only
          rw [Row.decodeSecond_ok (hyears second hn), Row.decodeRole_ok hl, hl]
          rfl

theorem decodeProposal_corrupted {r : TrainingRow}
    (h : meaning? r = none ∨ ∃ s ∈ r.newSecond, Moment.inYears s = false) :
    ∃ detail, r.decodeProposal = .error (.corruptedRow detail) := by
  unfold decodeProposal
  cases hn : r.newSecond with
  | none =>
      cases hp : r.proposedBy with
      | none => simp [meaning?, hn, hp] at h
      | some label => exact ⟨_, rfl⟩
  | some second =>
      cases hp : r.proposedBy with
      | none => exact ⟨_, rfl⟩
      | some label =>
          simp only [meaning?, hn, hp, Option.map_eq_none_iff, Option.mem_some_iff,
            exists_eq_left'] at h
          dsimp only
          cases hyears : Moment.inYears second with
          | false =>
              obtain ⟨detail, hd⟩ := Row.decodeSecond_corrupted hyears
              rw [hd]
              exact ⟨detail, rfl⟩
          | true =>
              obtain ⟨detail, hd⟩ := Row.decodeRole_corrupted
                (h.resolve_right fun hout => by rw [hyears] at hout; cases hout)
              rw [Row.decodeSecond_ok hyears, hd]
              exact ⟨detail, rfl⟩

theorem codec_lawful : codec.Lawful meaning? where
  sound t _ := isSound_encode t
  seconds_encode t := by
    simp only [codec, encode, Training.times, List.map_cons]
    cases t.proposal <;> rfl
  meaning_encode := meaning?_encode
  malformed_iff := malformed_iff
  restores r hr := by
    refine ⟨r.meaning, ?_, encode_meaning hr⟩
    obtain ⟨hn, hp⟩ | ⟨second, role, hn, hp⟩ := proposal_cases hr
    · rw [meaning?, hn, hp]
    · rw [meaning?, hn, hp]
      simp
  decodes r t hm hyears := by
    have hnew : r.decodeProposal = .ok r.proposalMeaning :=
      decodeProposal_ok (Option.isSome_iff_exists.mpr ⟨t, hm⟩) fun s hs =>
        hyears s (List.mem_cons_of_mem _ (Option.mem_toList.mpr hs))
    change r.decode = _
    rw [decode, hnew, Row.decodeSecond_ok (hyears _ List.mem_cons_self), meaning_of_meaning? hm]
    rfl
  refuses r hbad := by
    change ∃ detail, r.decode = _
    rw [decode]
    -- The proposal is decoded first; if it is fine, the beginning is out of range.
    by_cases hp : r.meaning? = none ∨ ∃ s ∈ r.newSecond, Moment.inYears s = false
    · obtain ⟨detail, hd⟩ := decodeProposal_corrupted hp
      rw [hd]
      exact ⟨detail, rfl⟩
    · obtain ⟨hformed, hnew⟩ := not_or.mp hp
      have hproposal : r.decodeProposal = .ok r.proposalMeaning :=
        decodeProposal_ok (Option.isSome_iff_ne_none.mpr hformed) fun s hs =>
          Bool.eq_true_of_not_eq_false fun hout => hnew ⟨s, hs, hout⟩
      have hout : Moment.inYears r.second = false := by
        obtain hmalformed | ⟨s, hs, hout⟩ := hbad
        · exact absurd ((malformed_iff r).mp hmalformed) hformed
        · obtain rfl | hs := List.mem_cons.mp hs
          · exact hout
          · exact absurd ⟨s, Option.mem_toList.mp hs, hout⟩ hnew
      obtain ⟨detail, hd⟩ := Row.decodeSecond_corrupted hout
      rw [hproposal, hd]
      exact ⟨detail, rfl⟩

end TrainingRow

/-! ### Accounts -/

namespace AccountRow

/-- How an account is kept. -/
def codec : Codec Account AccountRow where
  encode := encode
  decode := decode
  isSound := isSound
  Allowed a := 0 ≤ a.balance
  times _ := []
  kept a := a
  seconds _ := []
  Malformed r := ∀ role : Role, r.role ≠ role.label
  Same r r' := r = r'

theorem codec_lawful : codec.Lawful meaning? where
  sound a ha := by simpa [codec, isSound, hasKnownRole, hasSoundBalance, encode] using ha
  seconds_encode _ := rfl
  meaning_encode := meaning?_encode
  malformed_iff r := by
    rw [meaning?, Option.map_eq_none_iff]
    exact Role.ofLabel?_eq_none.symm
  restores r hr := by
    obtain ⟨a, hm⟩ := meaning?_isSome hr
    obtain ⟨role, hl, rfl⟩ := Option.map_eq_some_iff.mp hm
    exact ⟨_, hm, by simp [codec, encode, Role.label_of_ofLabel? hl]⟩
  decodes r a hm _ := decode_eq hm
  refuses r hbad := by
    obtain hunknown | ⟨s, hs, -⟩ := hbad
    · obtain ⟨detail, hd⟩ := Row.decodeRole_corrupted (Role.ofLabel?_eq_none.mpr hunknown)
      refine ⟨detail, ?_⟩
      change r.decode = _
      rw [decode, hd]
      rfl
    · cases hs

end AccountRow

/-! ### The three tables -/

/-- The row that the calendar makes of an hour is its encoding under the next number. -/
theorem HourTable.get?_append_encode (table : HourTable) (h : Hour) :
    (table.append h.time.second h.availability.label).rows.get? h.time.second
      = some (HourRow.encode (table.lastRowId + 1) h) := by
  rw [get?_append, if_pos rfl]
  rfl

/-- **Rows and values are the same, to the whole second.**  In each of the three tables encoding and
decoding are inverse, and exactly the rows that are malformed or out of range are refused, as
corrupted.  An account has a known role in its row whatever its balance is, and the calendar writes
hours as they are encoded. -/
theorem Row.codecs_inverse :
    TrainingRow.codec.Inverse ∧ (∀ rowId, (HourRow.codec rowId).Inverse)
      ∧ AccountRow.codec.Inverse
      ∧ (∀ a, (AccountRow.encode a).hasKnownRole = true)
      ∧ (∀ (table : HourTable) (h : Hour),
          (table.append h.time.second h.availability.label).rows.get? h.time.second
            = some (HourRow.encode (table.lastRowId + 1) h)) := by
  refine ⟨TrainingRow.codec_lawful.inverse, fun rowId => (HourRow.codec_lawful rowId).inverse,
    AccountRow.codec_lawful.inverse, fun a => ?_, HourTable.get?_append_encode⟩
  rw [AccountRow.hasKnownRole, AccountRow.encode, Row.isRole_eq, Role.ofLabel?_label]
  rfl

/-- A training half a second before 1970, written two hours ahead of UTC, with a proposal one second
and a half after it: both times are read back as the second in which they lie. -/
theorem Row.codecs_inverse_before_1970 :
    TrainingRow.decode (TrainingRow.encode
        ⟨"1", "a", "Ann", ⟨-500000000, 7200⟩, "legs", false, some ⟨⟨1500000000, 0⟩, .trainer⟩⟩)
      = .ok ⟨"1", "a", "Ann", ⟨-1000000000, 0⟩, "legs", false, some ⟨⟨1000000000, 0⟩, .trainer⟩⟩ :=
  Row.codecs_inverse.1.decode_encode _ (by decide)

end TrainerBooking
