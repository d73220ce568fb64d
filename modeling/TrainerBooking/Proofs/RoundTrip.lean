import TrainerBooking.Proofs.Stamps

/-! # Time stamps that are written are read back

The time stamp of a moment denotes that moment, if the moment lies at the beginning of a second and
its clock is whole minutes away from UTC, and less than a day (`Moment.Plain.read_of_stamp?`).

* **Numbers.** A number that is filled up with zeros is read as that number, whatever follows
  (`Stamp.digits_padded`).
* **Days.** Every day has a date (`Date.exists_dayNumber`), found from the first day of an era by going
  on from one date to the next, so the date of a day has the number of that day.
* **Stamps.** What is written part by part is read part by part, in the same order. -/

namespace TrainerBooking

/-! ### Numbers -/

namespace Text

@[simp] theorem digit?_digitChar {d : Nat} (h : d < 10) : digit? (Nat.digitChar d) = some d := by
  interval_cases d <;> rfl

/-- The decimal digits of a number, filled up with zeros to at least one digit. -/
theorem toList_padded (width n : Nat) :
    (padded width n).toList =
      List.replicate (width - (Nat.toDigits 10 n).length) '0' ++ Nat.toDigits 10 n := by
  rw [padded, String.toList_append, String.toList_ofList, Nat.toList_repr, ← String.length_toList,
    Nat.toList_repr]

/-- The last digit of a number that is filled up stands behind the other ones. -/
theorem toList_padded_succ {width n : Nat} (hwidth : 0 < width) (h : n < 10 ^ (width + 1)) :
    (padded (width + 1) n).toList = (padded width (n / 10)).toList ++ [Nat.digitChar (n % 10)] := by
  rw [toList_padded, toList_padded]
  by_cases hn : n < 10
  · rw [Nat.toDigits_of_lt_base hn, Nat.div_eq_of_lt hn, Nat.mod_eq_of_lt hn,
      Nat.toDigits_of_lt_base (by decide : 0 < 10)]
    obtain ⟨k, rfl⟩ : ∃ k, width = k + 1 := ⟨width - 1, by omega⟩
    simp [List.replicate_succ']
  · rw [Nat.toDigits_of_base_le (by decide) (by omega), List.length_append, List.length_singleton,
      Nat.add_sub_add_right, List.append_assoc]

end Text

namespace Stamp

/-- Digits are read in two goes like in one. -/
theorem digits_add (part : StampPart) (m n sofar : Nat) (cs : List Char) :
    digits part (m + n) sofar cs =
      digits part m sofar cs >>= fun r => digits part n r.1 r.2 := by
  induction m generalizing sofar cs with
  | zero => rw [Nat.zero_add]; rfl
  | succ m ih =>
      rw [Nat.succ_add]
      cases cs with
      | nil => rfl
      | cons c cs =>
          rw [digits, digits]
          cases Text.digit? c with
          | none => rfl
          | some d => exact ih _ _

/-- **A number that is filled up with zeros is read back.** -/
theorem digits_padded (part : StampPart) {width n : Nat} (hwidth : 0 < width) (h : n < 10 ^ width)
    (rest : List Char) :
    digits part width 0 ((Text.padded width n).toList ++ rest) = .ok (n, rest) := by
  induction width generalizing n rest with
  | zero => omega
  | succ width ih =>
      by_cases hzero : width = 0
      · subst hzero
        have hn : n < 10 := by omega
        rw [Text.toList_padded, Nat.toDigits_of_lt_base hn]
        simp [digits, Text.digit?_digitChar hn]
      · rw [Text.toList_padded_succ (by omega) h, List.append_assoc, digits_add,
          ih (by omega) (by rw [pow_succ] at h; omega)]
        have hd : n % 10 < 10 := Nat.mod_lt n (by decide)
        show digits part 1 (n / 10) (Nat.digitChar (n % 10) :: rest) = .ok (n, rest)
        have hn : 10 * (n / 10) + n % 10 = n := Nat.div_add_mod n 10
        simp [digits, Text.digit?_digitChar hd, hn]

end Stamp

/-! ### Days -/

namespace Date

theorem daysIn_le {year : Int} {month : Nat} : daysIn year month ≤ 31 := by
  unfold daysIn
  repeat' split
  all_goals decide

/-- The day after a date has a date. -/
theorem exists_next {d : Date} (h : d.isValid = true) :
    ∃ d' : Date, d'.isValid = true ∧ d'.dayNumber = d.dayNumber + 1 := by
  obtain ⟨year, month, day⟩ := d
  simp only [isValid, Bool.and_eq_true, decide_eq_true_eq] at h
  obtain ⟨⟨⟨hfirst, htwelve⟩, hone⟩, hday⟩ := h
  by_cases hlast : day < daysIn year month
  · refine ⟨⟨year, month, day + 1⟩, ?_, ?_⟩
    · simp only [isValid, Bool.and_eq_true, decide_eq_true_eq]
      omega
    · unfold dayNumber marchYear marchMonth
      simp only [Nat.cast_add, Nat.cast_one]
      omega
  · obtain rfl : day = daysIn year month := by omega
    by_cases hyear : month = 12
    · subst hyear
      refine ⟨⟨year + 1, 1, 1⟩, by simp [isValid, daysIn], ?_⟩
      unfold dayNumber marchYear marchMonth daysIn
      simp
      omega
    · have hpositive : 1 ≤ daysIn year (month + 1) := by
        unfold daysIn
        repeat' split
        all_goals decide
      refine ⟨⟨year, month + 1, 1⟩, ?_, ?_⟩
      · simp only [isValid, Bool.and_eq_true, decide_eq_true_eq]
        omega
      · -- From February to March another year begins, whose length depends on the leap day.
        have hleap := @isLeap_iff year
        unfold dayNumber marchYear marchMonth daysIn
        by_cases hl : isLeap year = true
        · rw [iff_true_left hl] at hleap
          interval_cases month <;> simp [hl] at hyear ⊢ <;> omega
        · rw [iff_false_left hl] at hleap
          interval_cases month <;> simp [hl] at hyear ⊢ <;> omega

/-- The first of March of a year that begins an era. -/
theorem dayNumber_era (k : Int) : dayNumber ⟨400 * k, 3, 1⟩ = 146097 * k - 719468 := by
  unfold dayNumber marchYear marchMonth
  simp
  omega

/-- **Every day has a date.** -/
theorem exists_dayNumber (n : Int) : ∃ d : Date, d.isValid = true ∧ d.dayNumber = n := by
  obtain ⟨k, hk⟩ : ∃ k : Nat, n = 146097 * ((n + 719468) / 146097) - 719468 + k := by
    refine ⟨((n + 719468) % 146097).toNat, ?_⟩
    omega
  generalize (n + 719468) / 146097 = era at hk
  induction k generalizing n with
  | zero =>
      refine ⟨⟨400 * era, 3, 1⟩, by simp [isValid, daysIn], ?_⟩
      rw [dayNumber_era, hk]
      simp
  | succ k ih =>
      obtain ⟨d, hd, hnumber⟩ := ih (n - 1) (by omega)
      obtain ⟨d', hd', hnumber'⟩ := exists_next hd
      exact ⟨d', hd', by omega⟩

theorem isValid_ofDayNumber (n : Int) : (ofDayNumber n).isValid = true := by
  obtain ⟨d, hd, rfl⟩ := exists_dayNumber n
  rw [ofDayNumber_dayNumber hd]
  exact hd

/-- **The number of the date of a day is that of the day.** -/
theorem dayNumber_ofDayNumber (n : Int) : (ofDayNumber n).dayNumber = n := by
  obtain ⟨d, hd, rfl⟩ := exists_dayNumber n
  rw [ofDayNumber_dayNumber hd]

end Date

/-! ### Stamps -/

namespace Stamp

/-- A part that is read hands on what it left. -/
theorem part_then {α β : Type} {first : Except StampFault α} {next : α → Except StampFault β}
    {a : α} {r : Except StampFault β} (h : first = .ok a) (hnext : next a = r) :
    (first >>= next) = r := by
  rw [h, ← hnext]
  rfl

/-- A check that has nothing to say hands on. -/
theorem check_then {α : Type} {bad : Prop} [Decidable bad] {f : StampFault}
    {next : PUnit → Except StampFault α} {r : Except StampFault α} (h : ¬ bad)
    (hnext : next ⟨⟩ = r) :
    (if bad then (throw f : Except StampFault PUnit) >>= next else next ⟨⟩) = r := by
  rw [if_neg h, hnext]

theorem mark_cons (c : Char) (rest : List Char) : mark c (c :: rest) = .ok rest := if_pos rfl

theorem separator_cons {c : Char} (h : c.toNat < 128) (rest : List Char) :
    separator (c :: rest) = .ok rest := if_pos h

/-- Hours and minutes behind a sign are read back. -/
theorem offset_sign {sign : Char} (hsign : sign = '+' ∨ sign = '-') {hours minutes : Nat}
    (hhours : hours ≤ 23) (hminutes : minutes ≤ 59) :
    offset (sign :: ((Text.padded 2 hours).toList ++ ':' :: (Text.padded 2 minutes).toList)) =
      .ok (if sign = '-' then -((hours : Int) * 3600 + minutes * 60)
        else hours * 3600 + minutes * 60, []) := by
  have hfirst := digits_padded .offsetHour (by decide : 0 < 2) (by omega : hours < 10 ^ 2)
    (':' :: (Text.padded 2 minutes).toList)
  have hlast := digits_padded .offsetMinute (by decide : 0 < 2) (by omega : minutes < 10 ^ 2) []
  rw [List.append_nil] at hlast
  unfold offset
  split
  · next heq =>
      obtain ⟨rfl, -⟩ := List.cons.inj heq
      simp at hsign
  · next heq =>
      obtain ⟨rfl, -⟩ := List.cons.inj heq
      simp at hsign
  · next heq =>
      obtain ⟨rfl, rfl⟩ := List.cons.inj heq
      rw [if_pos hsign]
      refine part_then hfirst (check_then (by omega) (part_then (mark_cons ':' _) ?_))
      exact part_then hlast (check_then (by omega) rfl)
  · next heq => cases heq

/-- **The offset that is written is read back**, if it is made of whole minutes. -/
theorem offset_stampOffset {o : Int} (hbounds : -86400 < o ∧ o < 86400) (hminutes : o % 60 = 0) :
    offset (Moment.stampOffset o).toList = .ok (o, []) := by
  unfold Moment.stampOffset
  by_cases hzero : o = 0
  · rw [if_pos hzero, hzero]
    rfl
  · rw [if_neg hzero]
    have hhours : o.natAbs / 3600 ≤ 23 := by omega
    have hrest : o.natAbs / 60 % 60 ≤ 59 := by omega
    by_cases hneg : o < 0
    · have hread := offset_sign (.inr rfl) hhours hrest
      have hvalue : -(((o.natAbs / 3600 : Nat) : Int) * 3600 + ((o.natAbs / 60 % 60 : Nat) : Int) * 60)
          = o := by omega
      rw [if_pos rfl, hvalue] at hread
      simpa [hneg] using hread
    · have hread := offset_sign (.inl rfl) hhours hrest
      have hvalue : ((o.natAbs / 3600 : Nat) : Int) * 3600 + ((o.natAbs / 60 % 60 : Nat) : Int) * 60
          = o := by omega
      rw [if_neg (by decide), hvalue] at hread
      simpa [hneg] using hread

/-- There is no fraction where an offset begins. -/
theorem subsecond_stampOffset (o : Int) :
    subsecond (Moment.stampOffset o).toList = .ok (0, (Moment.stampOffset o).toList) := by
  have hfirst : ∀ rest, (Moment.stampOffset o).toList ≠ '.' :: rest := by
    intro rest
    unfold Moment.stampOffset
    dsimp only
    split
    · simp
    · split <;> simp
  unfold subsecond
  split
  · next heq => exact absurd heq (hfirst _)
  · rfl

/-- Numbers in range denote the moment that they make up. -/
theorem assemble_eq {year month day hour minute second nanos : Nat} {offset : Int}
    (hdate : Date.isValid ⟨year, month, day⟩ = true) (hhour : hour < 24) (hminute : minute < 60)
    (hsecond : second < 60) :
    assemble year month day hour minute second nanos offset =
      .ok (momentAt ⟨year, month, day⟩ (hour * 3600 + minute * 60 + second) nanos offset) := by
  simp only [Date.isValid, Bool.and_eq_true, decide_eq_true_eq] at hdate
  have hleap : (second == 60) = false := by
    rw [beq_eq_false_iff_ne]
    omega
  unfold assemble
  rw [hleap]
  refine check_then (by omega) (check_then (by omega) (check_then (by omega) ?_))
  exact check_then (by omega) (check_then (Nat.not_lt.mpr (Nat.le_of_lt_succ hsecond)) rfl)

end Stamp

namespace Moment

/-- The characters of a stamp without a fraction. -/
theorem toList_stamp? {m : Moment} {s : String} (hwhole : m.subsecond = 0) (h : m.stamp? = some s) :
    s.toList =
      (Text.padded 4 m.date.year.toNat).toList ++ '-' :: ((Text.padded 2 m.date.month).toList ++
        '-' :: ((Text.padded 2 m.date.day).toList ++ 'T' :: ((Text.padded 2 m.hour).toList ++
          ':' :: ((Text.padded 2 m.minute).toList ++ ':' :: ((Text.padded 2 m.secondOfMinute).toList ++
            (stampOffset m.offset).toList))))) := by
  unfold stamp? at h
  split at h
  · cases h
  · next hyear =>
      obtain rfl := Option.some.inj h
      have hnonneg : ¬ m.date.year < 0 := fun hlt => hyear (.inl hlt)
      have hnat : m.date.year.natAbs = m.date.year.toNat := by omega
      simp [Date.text, Date.yearText, hnonneg, hnat]

/-- A moment lies on its date, at the second of its day. -/
theorem momentAt_date (m : Moment) :
    Stamp.momentAt m.date m.secondOfDay m.subsecond m.offset = m := by
  have hnumber : m.date.dayNumber = m.localSecond / 86400 := Date.dayNumber_ofDayNumber _
  have hlocal : m.date.dayNumber * 86400 + (m.secondOfDay : Int) = m.localSecond := by
    rw [hnumber, secondOfDay]
    omega
  rw [Stamp.momentAt, hlocal, localSecond, Int.add_sub_cancel, second_nonneg_subsecond]

/-- The second of the day is made of hours, minutes and seconds. -/
theorem clock_eq (m : Moment) :
    m.hour * 3600 + m.minute * 60 + m.secondOfMinute = m.secondOfDay ∧
      m.hour < 24 ∧ m.minute < 60 ∧ m.secondOfMinute < 60 := by
  unfold hour minute secondOfMinute secondOfDay
  omega

/-- The numbers in the stamp of a moment denote that moment. -/
theorem assemble_stamp {m : Moment} (hyear : 0 ≤ m.date.year) (hwhole : m.subsecond = 0) :
    Stamp.assemble m.date.year.toNat m.date.month m.date.day m.hour m.minute m.secondOfMinute 0
      m.offset = .ok m := by
  obtain ⟨hclock, hhour, hminute, hsecond⟩ := m.clock_eq
  have hcast : ((m.date.year.toNat : Nat) : Int) = m.date.year := Int.toNat_of_nonneg hyear
  have hdate : Date.isValid ⟨m.date.year.toNat, m.date.month, m.date.day⟩ = true := by
    rw [hcast]
    exact Date.isValid_ofDayNumber _
  rw [Stamp.assemble_eq hdate hhour hminute hsecond, hcast, hclock, ← hwhole]
  exact congrArg Except.ok m.momentAt_date

/-- The moment lies at the beginning of a second, on a clock that is whole minutes away from UTC, and
less than a day: it is all in its stamp. -/
structure Plain (m : Moment) : Prop where
  whole : m.subsecond = 0
  bounds : -86400 < m.offset ∧ m.offset < 86400
  minutes : m.offset % 60 = 0

/-- **The stamp of a plain moment is read back** as that moment. -/
theorem Plain.read_of_stamp? {m : Moment} (hm : m.Plain) {s : String} (h : m.stamp? = some s) :
    Stamp.read s = .ok m := by
  obtain ⟨hfirst, hlast⟩ := stamp?_isSome_iff.mp (by rw [h]; rfl)
  obtain ⟨-, hhour, hminute, hsecond⟩ := m.clock_eq
  have hdate : m.date.isValid = true := Date.isValid_ofDayNumber _
  simp only [Date.isValid, Bool.and_eq_true, decide_eq_true_eq] at hdate
  have hday : m.date.day < 10 ^ 2 := Nat.lt_of_le_of_lt (hdate.2.trans Date.daysIn_le) (by decide)
  unfold Stamp.read Stamp.readChars
  rw [toList_stamp? hm.whole h]
  refine Stamp.part_then (Stamp.digits_padded _ (by decide) (by omega) _) ?_
  refine Stamp.part_then (Stamp.mark_cons '-' _) ?_
  refine Stamp.part_then (Stamp.digits_padded _ (by decide) (by omega) _) ?_
  refine Stamp.check_then (by omega) (Stamp.part_then (Stamp.mark_cons '-' _) ?_)
  refine Stamp.part_then (Stamp.digits_padded _ (by decide) hday _) ?_
  refine Stamp.part_then (Stamp.separator_cons (by decide) _) ?_
  refine Stamp.part_then (Stamp.digits_padded _ (by decide) (by omega) _) ?_
  refine Stamp.part_then (Stamp.mark_cons ':' _) ?_
  refine Stamp.part_then (Stamp.digits_padded _ (by decide) (by omega) _) ?_
  refine Stamp.part_then (Stamp.mark_cons ':' _) ?_
  refine Stamp.part_then (Stamp.digits_padded _ (by decide) (by omega) _) ?_
  refine Stamp.part_then (Stamp.subsecond_stampOffset _) ?_
  refine Stamp.part_then (Stamp.offset_stampOffset hm.bounds hm.minutes) ?_
  exact Stamp.check_then (by simp) (assemble_stamp hfirst hm.whole)

end Moment

end TrainerBooking
