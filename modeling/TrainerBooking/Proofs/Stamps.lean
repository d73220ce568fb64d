import Mathlib.Tactic.IntervalCases
import TrainerBooking.Proofs.Books
import TrainerBooking.Time.Stamp

/-! # Dates and time stamps

What the text of a time stamp says about the moment that is read from it.

* **Dates.** A date that exists is the date of its own day number (`Date.ofDayNumber_dayNumber`).  The
  year is counted from March here, as in the calendar, so that only its last day hangs on leap years.
* **Reading.** A moment that is read has the date that is written (`Stamp.read_eq_ok`), so it lies in
  the years `0` to `9999` of its own offset (`Stamp.read_year`), and it can be written again.  In UTC
  it may lie a day before or after them (`Stamp.utc_of_read`). -/

namespace TrainerBooking

/-! ### Dates -/

namespace Date

/-- The year of an era in which a day lies, for the `q`-th four years of the `c`-th century. -/
theorem yearOfEra_eq {c q s d e : Int} (hc : 0 ≤ c ∧ c ≤ 3) (hq : 0 ≤ q ∧ q ≤ 24)
    (hs : 0 ≤ s ∧ s ≤ 3) (hd : 0 ≤ d ∧ d ≤ 365) (hleap : d = 365 → s = 3)
    (hcentury : d = 365 → q = 24 → c = 3)
    (he : e = 36524 * c + 1461 * q + 365 * s + d) :
    (e - e / 1460 + e / 36524 - e / 146096) / 365 = 100 * c + 4 * q + s := by
  have hfour : e / 1460 = 25 * c + q + (24 * c + q + 365 * s + d) / 1460 := by omega
  by_cases hlast : d = 365 ∧ q = 24
  · -- The last day of the era: the quotients by a century and by an era are one greater.
    obtain ⟨rfl, rfl⟩ := hlast
    obtain rfl := hcentury rfl rfl
    obtain rfl := hleap rfl
    subst he
    rfl
  · have hhundred : e / 36524 = c := by omega
    have hera : e / 146096 = 0 := by omega
    rw [hfour, hhundred, hera]
    omega

theorem isLeap_iff {year : Int} :
    isLeap year = true ↔ year % 4 = 0 ∧ (year % 100 ≠ 0 ∨ year % 400 = 0) := by
  simp [isLeap]

/-- The day of the year that begins in March. -/
def marchDay (d : Date) : Int := (153 * d.marchMonth + 2) / 5 + (d.day : Int) - 1

theorem marchMonth_bounds {d : Date} (h : d.isValid = true) :
    0 ≤ d.marchDay ∧ d.marchDay ≤ 365 ∧ (5 * d.marchDay + 2) / 153 = d.marchMonth ∧
      (d.marchDay = 365 → isLeap (d.marchYear + 1) = true) := by
  obtain ⟨year, month, day⟩ := d
  simp only [isValid, Bool.and_eq_true, decide_eq_true_eq] at h
  obtain ⟨⟨⟨hfirst, hlast⟩, hone⟩, hday⟩ := h
  unfold marchDay marchMonth marchYear
  by_cases hleap : isLeap year = true
  · interval_cases month <;> simp [daysIn, hleap] at hday ⊢ <;> omega
  · interval_cases month <;> simp [daysIn, hleap] at hday ⊢ <;> omega

/-- The year of an era in which a day lies, for the day `day` of the year `year`. -/
theorem yearOfEra_dayOfEra {year day e : Int} (hyear : 0 ≤ year ∧ year ≤ 399)
    (hday : 0 ≤ day ∧ day ≤ 365) (hleap : day = 365 → isLeap (year + 1) = true)
    (he : e = year * 365 + year / 4 - year / 100 + day) :
    (e - e / 1460 + e / 36524 - e / 146096) / 365 = year := by
  rw [isLeap_iff] at hleap
  have hcentury : day = 365 → year % 100 / 4 = 24 → year / 100 = 3 := by
    intro hd hq
    have hlast : year % 100 = 99 := by omega
    have hera : (year + 1) % 400 = 0 := by omega
    omega
  have hparts : 100 * (year / 100) + 4 * (year % 100 / 4) + year % 4 = year := by omega
  have h := yearOfEra_eq (c := year / 100) (q := year % 100 / 4) (s := year % 4) (d := day) (e := e)
    (by omega) (by omega) (by omega) hday (by omega) hcentury (by omega)
  rw [h, hparts]

/-- The date of the day `day` of the year `year` of an era, both counted from March. -/
theorem ofDayNumber_eq {era year day : Int} (hyear : 0 ≤ year ∧ year ≤ 399)
    (hday : 0 ≤ day ∧ day ≤ 365) (hleap : day = 365 → isLeap (year + 1) = true) :
    ofDayNumber (era * 146097 + (year * 365 + year / 4 - year / 100 + day) - 719468) =
      let month := (5 * day + 2) / 153
      let civilMonth := if month < 10 then month + 3 else month - 9
      ⟨if civilMonth ≤ 2 then year + era * 400 + 1 else year + era * 400, civilMonth.toNat,
        (day - (153 * month + 2) / 5 + 1).toNat⟩ := by
  obtain ⟨e, he⟩ : ∃ e, e = year * 365 + year / 4 - year / 100 + day := ⟨_, rfl⟩
  have hbounds : 0 ≤ e ∧ e ≤ 146096 := by omega
  have hyearOfEra := yearOfEra_dayOfEra hyear hday hleap he
  rw [← he]
  have hshift : era * 146097 + e - 719468 + 719468 = era * 146097 + e := by omega
  have hera : (era * 146097 + e) / 146097 = era := by omega
  have hrest : era * 146097 + e - era * 146097 = e := by omega
  have hdayOfYear : e - (365 * year + year / 4 - year / 100) = day := by omega
  unfold ofDayNumber
  simp only [hshift, hera, hrest, hyearOfEra, hdayOfYear]

/-- **The date of the number of a day is that date**, if there is such a date. -/
theorem ofDayNumber_dayNumber {d : Date} (h : d.isValid = true) : ofDayNumber (dayNumber d) = d := by
  obtain ⟨hzero, hlast, hmonth, hleap⟩ := marchMonth_bounds h
  obtain ⟨era, hera⟩ : ∃ era, era = d.marchYear / 400 := ⟨_, rfl⟩
  obtain ⟨year, hyear⟩ : ∃ year, year = d.marchYear - era * 400 := ⟨_, rfl⟩
  have hbounds : 0 ≤ year ∧ year ≤ 399 := by omega
  have hnumber : dayNumber d =
      era * 146097 + (year * 365 + year / 4 - year / 100 + d.marchDay) - 719468 := by
    rw [hyear, hera]
    rfl
  have hleap' : d.marchDay = 365 → isLeap (year + 1) = true := by
    intro hd
    have hmarch := hleap hd
    rw [isLeap_iff] at hmarch ⊢
    omega
  rw [hnumber, ofDayNumber_eq hbounds ⟨hzero, hlast⟩ hleap', hmonth]
  obtain ⟨civilYear, month, day⟩ := d
  simp only [isValid, Bool.and_eq_true, decide_eq_true_eq] at h
  obtain ⟨⟨⟨hfirst, htwelve⟩, hone⟩, -⟩ := h
  unfold marchYear at hera hyear
  unfold marchDay marchMonth
  by_cases hm : month ≤ 2
  · simp only [if_pos hm] at hera hyear ⊢
    have hcivil : (if (month : Int) + 9 < 10 then (month : Int) + 9 + 3 else (month : Int) + 9 - 9) =
        month := by
      rw [if_neg (by omega)]
      omega
    simp only [hcivil, mk.injEq]
    rw [if_pos (by omega)]
    refine ⟨?_, ?_, ?_⟩ <;> omega
  · simp only [if_neg hm] at hera hyear ⊢
    have hcivil : (if (month : Int) - 3 < 10 then (month : Int) - 3 + 3 else (month : Int) - 3 - 9) =
        month := by
      rw [if_pos (by omega)]
      omega
    simp only [hcivil, mk.injEq]
    rw [if_neg (by omega)]
    refine ⟨?_, ?_, ?_⟩ <;> omega

/-- The days of the years `0` to `9999` are numbered between those of the years `-9999` and `9999`. -/
theorem dayNumber_bounds {d : Date} (h : d.isValid = true) (hyear : 0 ≤ d.year ∧ d.year ≤ 9999) :
    dayNumber ⟨-9999, 1, 1⟩ < dayNumber d ∧ dayNumber d ≤ dayNumber ⟨9999, 12, 31⟩ := by
  have hfirst : dayNumber ⟨-9999, 1, 1⟩ = -4371587 := by decide
  have hlast : dayNumber ⟨9999, 12, 31⟩ = 2932896 := by decide
  rw [hfirst, hlast]
  obtain ⟨year, month, day⟩ := d
  simp only [isValid, Bool.and_eq_true, decide_eq_true_eq] at h hyear
  obtain ⟨⟨⟨hone, htwelve⟩, hday⟩, hdays⟩ := h
  have hthirtyone : day ≤ 31 := by
    unfold daysIn at hdays
    repeat' split at hdays
    all_goals omega
  unfold dayNumber marchYear marchMonth
  by_cases hm : month ≤ 2
  · simp only [if_pos hm]
    omega
  · simp only [if_neg hm]
    omega

end Date

/-! ### Reading -/

namespace Stamp

/-- What comes after a check is reached if the check has nothing to say. -/
theorem check_eq_ok {α : Type} {bad : Prop} [Decidable bad] {f : StampFault}
    {next : PUnit → Except StampFault α} {a : α}
    (h : (if bad then (throw f : Except StampFault PUnit) >>= next else next ⟨⟩) = .ok a) :
    ¬ bad ∧ next ⟨⟩ = .ok a := by
  split at h
  · cases h
  · next hgood => exact ⟨hgood, h⟩

theorem digits_lt {part : StampPart} {count sofar n : Nat} {cs rest : List Char}
    (h : digits part count sofar cs = .ok (n, rest)) : n < (sofar + 1) * 10 ^ count := by
  induction count generalizing sofar cs with
  | zero =>
      cases h
      omega
  | succ count ih =>
      cases cs with
      | nil => cases h
      | cons c cs =>
          unfold digits at h
          split at h
          · next d hd =>
              have hlt := Text.digit?_lt hd
              calc n < (10 * sofar + d + 1) * 10 ^ count := ih h
                _ ≤ (10 * (sofar + 1)) * 10 ^ count := Nat.mul_le_mul_right _ (by omega)
                _ = (sofar + 1) * 10 ^ (count + 1) := by
                  rw [Nat.mul_comm 10, Nat.mul_assoc, ← Nat.pow_succ']
          · cases h

theorem foldl_digits_lt {ds : List Nat} (hds : ∀ d ∈ ds, d < 10) (start : Nat) :
    ds.foldl (fun n d => 10 * n + d) start < (start + 1) * 10 ^ ds.length := by
  induction ds generalizing start with
  | nil =>
      rw [List.foldl_nil, List.length_nil]
      omega
  | cons d rest ih =>
      have hd := hds d List.mem_cons_self
      calc rest.foldl (fun n d => 10 * n + d) (10 * start + d)
          < (10 * start + d + 1) * 10 ^ rest.length :=
            ih (fun d hd => hds d (List.mem_cons_of_mem _ hd)) _
        _ ≤ (10 * (start + 1)) * 10 ^ rest.length := Nat.mul_le_mul_right _ (by omega)
        _ = (start + 1) * 10 ^ (rest.length + 1) := by
              rw [Nat.mul_comm 10, Nat.mul_assoc, ← Nat.pow_succ']

/-- A fraction is less than a second. -/
theorem fraction_lt {ds : List Nat} (hds : ∀ d ∈ ds, d < 10) : fraction ds < 1000000000 := by
  have hall : ∀ d ∈ (ds ++ List.replicate 9 0).take 9, d < 10 := by
    intro d hd
    rcases List.mem_append.mp (List.mem_of_mem_take hd) with hd | hd
    · exact hds d hd
    · rw [List.eq_of_mem_replicate hd]
      decide
  have hlength : ((ds ++ List.replicate 9 0).take 9).length = 9 := by
    rw [List.length_take, List.length_append, List.length_replicate]
    omega
  have h := foldl_digits_lt hall 0
  rw [hlength] at h
  exact h

theorem subsecond_lt {cs rest : List Char} {n : Nat} (h : subsecond cs = .ok (n, rest)) :
    n < 1000000000 := by
  unfold subsecond at h
  split at h
  · dsimp only at h
    split at h
    · cases h
    · cases h
      refine fraction_lt fun d hd => ?_
      obtain ⟨c, -, hc⟩ := List.mem_filterMap.mp hd
      exact Text.digit?_lt hc
  · cases h
    decide

end Stamp

/-- A second and less than a second lie in that second. -/
theorem Moment.second_add {second : Int} {nanos : Nat} (h : nanos < 1000000000) (offset : Int) :
    (⟨second * perSecond + nanos, offset⟩ : Moment).second = second := by
  show (second * perSecond + nanos) / perSecond = second
  unfold perSecond
  omega

namespace Stamp

/-- The moment `second` seconds after the beginning of a day on the clock of the offset. -/
def momentAt (date : Date) (second nanos : Nat) (offset : Int) : Moment :=
  ⟨(Date.dayNumber date * 86400 + second - offset) * Moment.perSecond + nanos, offset⟩

theorem second_momentAt {date : Date} {second nanos : Nat} {offset : Int}
    (hnanos : nanos < 1000000000) :
    (momentAt date second nanos offset).second = Date.dayNumber date * 86400 + second - offset :=
  Moment.second_add hnanos offset

theorem date_momentAt {date : Date} {second nanos : Nat} {offset : Int} (hdate : date.isValid = true)
    (hsecond : second < 86400) (hnanos : nanos < 1000000000) :
    (momentAt date second nanos offset).date = date := by
  have hdays : (Date.dayNumber date * 86400 + second : Int) / 86400 = Date.dayNumber date := by omega
  rw [Moment.date, Moment.localSecond, second_momentAt hnanos, momentAt, Int.sub_add_cancel, hdays,
    Date.ofDayNumber_dayNumber hdate]

theorem assemble_eq_ok {year month day hour minute second nanos : Nat} {offset : Int} {m : Moment}
    (hmonth : month ≠ 0) (hnanos : nanos < 1000000000)
    (h : assemble year month day hour minute second nanos offset = .ok m) :
    ∃ second' nanos', Date.isValid ⟨year, month, day⟩ = true ∧ second' < 86400 ∧
      nanos' < 1000000000 ∧ m = momentAt ⟨year, month, day⟩ second' nanos' offset := by
  unfold assemble at h
  dsimp only at h
  obtain ⟨second', nanos', hpair, hnanos'⟩ : ∃ second' nanos',
      (if (second == 60) = true then (59, 999999999) else (second, nanos)) = (second', nanos') ∧
        nanos' < 1000000000 := by
    split
    · exact ⟨59, 999999999, rfl, by decide⟩
    · exact ⟨second, nanos, rfl, hnanos⟩
  rw [hpair] at h
  obtain ⟨htwelve, h⟩ := check_eq_ok h
  obtain ⟨hday, h⟩ := check_eq_ok h
  obtain ⟨hhour, h⟩ := check_eq_ok h
  obtain ⟨hminute, h⟩ := check_eq_ok h
  obtain ⟨hsecond, h⟩ := check_eq_ok h
  obtain ⟨-, h⟩ := check_eq_ok h
  cases h
  refine ⟨hour * 3600 + minute * 60 + second', nanos', ?_, by omega, hnanos', rfl⟩
  simp only [Date.isValid, Bool.and_eq_true, decide_eq_true_eq]
  omega

/-- An offset is less than a day, in whole minutes. -/
theorem offset_lt {cs rest : List Char} {seconds : Int} (h : offset cs = .ok (seconds, rest)) :
    -86400 < seconds ∧ seconds < 86400 ∧ seconds % 60 = 0 := by
  unfold offset at h
  split at h
  · cases h
    decide
  · cases h
    decide
  · split at h
    · obtain ⟨⟨hours, cs⟩, -, h⟩ := bind_eq_ok h
      obtain ⟨hhours, h⟩ := check_eq_ok h
      obtain ⟨cs, -, h⟩ := bind_eq_ok h
      obtain ⟨⟨minutes, cs⟩, -, h⟩ := bind_eq_ok h
      obtain ⟨hminutes, h⟩ := check_eq_ok h
      cases h
      split <;> omega
    · cases h
  · cases h

/-- **What is read** is a moment of a day in the years `0` to `9999`, on a clock that is whole minutes
away from UTC, and less than a day. -/
theorem read_eq_ok {s : String} {m : Moment} (h : read s = .ok m) :
    ∃ date second nanos offset, m = momentAt date second nanos offset ∧ date.isValid = true ∧
      (0 ≤ date.year ∧ date.year ≤ 9999) ∧ second < 86400 ∧ nanos < 1000000000 ∧
      -86400 < offset ∧ offset < 86400 ∧ offset % 60 = 0 := by
  unfold read readChars at h
  obtain ⟨⟨year, cs⟩, hyear, h⟩ := bind_eq_ok h
  obtain ⟨cs, -, h⟩ := bind_eq_ok h
  obtain ⟨⟨month, cs⟩, -, h⟩ := bind_eq_ok h
  obtain ⟨hmonth, h⟩ := check_eq_ok h
  obtain ⟨cs, -, h⟩ := bind_eq_ok h
  obtain ⟨⟨day, cs⟩, -, h⟩ := bind_eq_ok h
  obtain ⟨cs, -, h⟩ := bind_eq_ok h
  obtain ⟨⟨hour, cs⟩, -, h⟩ := bind_eq_ok h
  obtain ⟨cs, -, h⟩ := bind_eq_ok h
  obtain ⟨⟨minute, cs⟩, -, h⟩ := bind_eq_ok h
  obtain ⟨cs, -, h⟩ := bind_eq_ok h
  obtain ⟨⟨second, cs⟩, -, h⟩ := bind_eq_ok h
  obtain ⟨⟨nanos, cs⟩, hnanos, h⟩ := bind_eq_ok h
  obtain ⟨⟨offset, cs⟩, hoffset, h⟩ := bind_eq_ok h
  obtain ⟨-, h⟩ := check_eq_ok h
  obtain ⟨second', nanos', hdate, hsecond', hnanos', rfl⟩ :=
    assemble_eq_ok hmonth (subsecond_lt hnanos) h
  have hlt : year < 10000 := digits_lt hyear
  refine ⟨_, second', nanos', offset, rfl, hdate, ⟨?_, ?_⟩, hsecond', hnanos', offset_lt hoffset⟩
  · exact Int.natCast_nonneg year
  · exact Int.ofNat_le.mpr (Nat.le_of_lt_succ hlt)

/-- **A moment that is read lies in the years `0` to `9999`** of its own offset. -/
theorem read_year {s : String} {m : Moment} (h : read s = .ok m) :
    0 ≤ m.date.year ∧ m.date.year ≤ 9999 := by
  obtain ⟨date, second, nanos, offset, rfl, hdate, hyear, hsecond, hnanos, -⟩ := read_eq_ok h
  rw [date_momentAt hdate hsecond hnanos]
  exact hyear

/-- **A moment that is read can be moved to UTC**, unless it is written behind UTC and lies after the
end of the year `9999` there. -/
theorem utc_of_read {s : String} {m : Moment} (h : read s = .ok m) :
    m.toUtc?.isSome = true ∨ (m.offset < 0 ∧ Moment.lastSecond < m.second) := by
  obtain ⟨date, second, nanos, offset, rfl, hdate, hyear, hsecond, hnanos, hoffset⟩ := read_eq_ok h
  obtain ⟨hfirst, hlast⟩ := Date.dayNumber_bounds hdate hyear
  rw [Moment.toUtc?_isSome_iff, second_momentAt hnanos]
  simp only [Moment.inYears, Bool.and_eq_true, decide_eq_true_eq]
  unfold Moment.firstSecond Moment.lastSecond momentAt
  dsimp only
  omega

end Stamp

/-! ### Writing -/

namespace Moment

/-- A moment has a time stamp in the years `0` to `9999` of its own offset. -/
theorem stamp?_isSome_iff {m : Moment} :
    m.stamp?.isSome = true ↔ 0 ≤ m.date.year ∧ m.date.year ≤ 9999 := by
  unfold stamp?
  split
  · next h =>
      simp only [Option.isSome_none, Bool.false_eq_true, false_iff]
      omega
  · next h =>
      simp only [Option.isSome_some, true_iff]
      omega

end Moment

/-- **What is read can be written.** -/
theorem Stamp.stamp?_of_read {s : String} {m : Moment} (h : read s = .ok m) :
    m.stamp?.isSome = true := Moment.stamp?_isSome_iff.mpr (read_year h)

end TrainerBooking
