import Mathlib.Order.Monotone.Basic
import Mathlib.Tactic.SplitIfs
import Forecast.Calendar.Date

namespace Forecast

def yearLength (year : Int) : Nat := if isLeap year then 366 else 365

theorem isLeap_iff (year : Int) :
    isLeap year = true ↔ year % 4 = 0 ∧ (year % 100 ≠ 0 ∨ year % 400 = 0) := by
  simp [isLeap]

theorem monthLength_pos (year : Int) (month : Nat) : 0 < monthLength year month := by
  rw [monthLength]
  split_ifs <;> omega

namespace Date

theorem daysBeforeYear_succ (year : Int) :
    daysBeforeYear (year + 1) = daysBeforeYear year + yearLength year := by
  unfold daysBeforeYear yearLength
  by_cases h : isLeap year = true
  · rw [if_pos h]
    rw [isLeap_iff] at h
    omega
  · rw [if_neg h]
    rw [isLeap_iff] at h
    omega

theorem daysBeforeYear_lt_succ (year : Int) : daysBeforeYear year < daysBeforeYear (year + 1) := by
  rw [daysBeforeYear_succ, yearLength]
  split <;> omega

theorem daysBeforeYear_lt_iff {a b : Int} : daysBeforeYear a < daysBeforeYear b ↔ a < b :=
  (strictMono_int_of_lt_succ daysBeforeYear_lt_succ).lt_iff_lt

theorem daysBeforeYear_mono {a b : Int} (h : a ≤ b) : daysBeforeYear a ≤ daysBeforeYear b :=
  (strictMono_int_of_lt_succ daysBeforeYear_lt_succ).monotone h

theorem daysBeforeYear_add_le (year : Int) (years : Nat) :
    daysBeforeYear year + 365 * years ≤ daysBeforeYear (year + years) := by
  induction years with
  | zero => simp
  | succ years ih =>
      have hlength : 365 ≤ yearLength (year + years) := by
        rw [yearLength]
        split <;> omega
      rw [Int.natCast_succ, ← Int.add_assoc, daysBeforeYear_succ]
      omega

theorem daysBeforeMonth_succ (year : Int) {month : Nat} (h : 1 ≤ month) :
    daysBeforeMonth year (month + 1) = daysBeforeMonth year month + monthLength year month := by
  cases month with
  | zero => omega
  | succ month => rfl

theorem daysBeforeMonth_mono (year : Int) : Monotone (daysBeforeMonth year) := by
  apply monotone_nat_of_le_succ
  intro month
  cases month with
  | zero => exact le_rfl
  | succ month => exact Nat.le_add_right _ _

theorem daysBeforeMonth_last (year : Int) : daysBeforeMonth year 13 = yearLength year := by
  by_cases h : isLeap year = true <;> simp [daysBeforeMonth, monthLength, yearLength, h]

def dayOfYear (d : Date) : Nat := daysBeforeMonth d.year d.month + (d.day - 1)

theorem number_eq (d : Date) : d.number = daysBeforeYear d.year + d.dayOfYear := by
  rw [number, dayOfYear]
  omega

theorem firstNumber_le (d : Date) : daysBeforeYear firstYear ≤ d.number := by
  have hyear := daysBeforeYear_mono d.year_mem.1
  rw [number_eq]
  omega

theorem dayOfYear_lt_month (d : Date) : d.dayOfYear < daysBeforeMonth d.year (d.month + 1) := by
  have hd := d.day_mem
  rw [dayOfYear, daysBeforeMonth_succ d.year d.month_mem.1]
  omega

theorem dayOfYear_lt (d : Date) : d.dayOfYear < yearLength d.year := by
  have hm : d.month + 1 ≤ 13 := Nat.succ_le_succ d.month_mem.2
  calc d.dayOfYear < daysBeforeMonth d.year (d.month + 1) := d.dayOfYear_lt_month
    _ ≤ daysBeforeMonth d.year 13 := daysBeforeMonth_mono d.year hm
    _ = yearLength d.year := daysBeforeMonth_last d.year

theorem number_lt_nextYear (d : Date) : d.number < daysBeforeYear (d.year + 1) := by
  have h := d.dayOfYear_lt
  rw [number_eq, daysBeforeYear_succ]
  omega

theorem number_le_lastNumber (d : Date) : d.number ≤ lastNumber := by
  have hy : d.year + 1 ≤ lastYear + 1 := Int.add_le_add_right d.year_mem.2 1
  have hn : d.number < daysBeforeYear (lastYear + 1) :=
    d.number_lt_nextYear.trans_le (daysBeforeYear_mono hy)
  exact Int.le_sub_one_of_lt hn

theorem ext_parts {d e : Date} (hy : d.year = e.year) (hm : d.month = e.month)
    (hd : d.day = e.day) : d = e := by
  cases d
  cases e
  simp_all

theorem year_eq_of_number_eq {d e : Date} (h : d.number = e.number) : d.year = e.year := by
  have hd := d.number_lt_nextYear
  have he := e.number_lt_nextYear
  rw [number_eq d] at h hd
  rw [number_eq e] at h he
  -- Each number lies between the starts of its year and of the next, and starts are increasing.
  have hde : d.year < e.year + 1 := daysBeforeYear_lt_iff.mp (by omega)
  have hed : e.year < d.year + 1 := daysBeforeYear_lt_iff.mp (by omega)
  omega

theorem year_le_of_number_le (d e : Date) (years : Nat) (h : e.number ≤ d.number + 365 * years) :
    e.year ≤ d.year + years := by
  have hd := d.number_lt_nextYear
  have hyears := daysBeforeYear_add_le (d.year + 1) years
  rw [number_eq e] at h
  have hlt : e.year < d.year + 1 + years := daysBeforeYear_lt_iff.mp (by omega)
  omega

theorem month_le_of_dayOfYear_eq {d e : Date} (hy : d.year = e.year)
    (h : d.dayOfYear = e.dayOfYear) : d.month ≤ e.month := by
  by_contra hlt
  have hstep : daysBeforeMonth e.year (e.month + 1) ≤ daysBeforeMonth d.year d.month := by
    rw [hy]
    exact daysBeforeMonth_mono e.year (by omega)
  have he := e.dayOfYear_lt_month
  rw [← h, dayOfYear] at he
  omega

theorem number_injective : Function.Injective number := by
  intro d e h
  have hy := year_eq_of_number_eq h
  have hday : d.dayOfYear = e.dayOfYear := by
    rw [number_eq, number_eq, hy] at h
    omega
  have hm : d.month = e.month :=
    Nat.le_antisymm (month_le_of_dayOfYear_eq hy hday)
      (month_le_of_dayOfYear_eq hy.symm hday.symm)
  refine ext_parts hy hm ?_
  have hd := d.day_mem
  have he := e.day_mem
  rw [dayOfYear, dayOfYear, hy, hm] at hday
  omega

theorem ofParts?_eq_some_iff {year : Int} {month day : Nat} {d : Date} :
    ofParts? year month day = some d ↔ d.year = year ∧ d.month = month ∧ d.day = day := by
  rw [ofParts?]
  constructor
  · intro h
    split at h
    · obtain rfl := Option.some.inj h
      exact ⟨rfl, rfl, rfl⟩
    · cases h
  · rintro ⟨rfl, rfl, rfl⟩
    rw [dif_pos ⟨d.year_mem, d.month_mem, d.day_mem⟩]

theorem number_of_next?_eq_some {d e : Date} (h : d.next? = some e) : e.number = d.number + 1 := by
  have hd := d.day_mem
  rw [next?] at h
  split_ifs at h with hday hmonth
  · obtain ⟨hy, hm, hd'⟩ := ofParts?_eq_some_iff.mp h
    rw [number_eq, number_eq, dayOfYear, dayOfYear, hy, hm, hd']
    omega
  · obtain ⟨hy, hm, hd'⟩ := ofParts?_eq_some_iff.mp h
    rw [number_eq, number_eq, dayOfYear, dayOfYear, hy, hm, hd',
      daysBeforeMonth_succ d.year d.month_mem.1]
    omega
  · obtain ⟨hy, hm, hd'⟩ := ofParts?_eq_some_iff.mp h
    have hlast : d.month = 12 := by have := d.month_mem; omega
    have hyear := daysBeforeMonth_last d.year
    rw [daysBeforeMonth_succ d.year (by omega)] at hyear
    rw [number_eq, number_eq, dayOfYear, dayOfYear, hy, hm, hd', daysBeforeYear_succ, hlast]
    rw [hlast] at hd hday
    simp only [daysBeforeMonth] at hyear ⊢
    omega

theorem exists_next?_of_lt {d : Date} (h : d.number < lastNumber) : ∃ e, d.next? = some e := by
  have hy := d.year_mem
  have hm := d.month_mem
  have hd := d.day_mem
  rw [next?]
  split_ifs with hday hmonth
  · exact ⟨⟨d.year, d.month, d.day + 1, hy, hm, by omega⟩, ofParts?_eq_some_iff.mpr ⟨rfl, rfl, rfl⟩⟩
  · exact ⟨⟨d.year, d.month + 1, 1, hy, by omega, le_rfl, monthLength_pos _ _⟩,
      ofParts?_eq_some_iff.mpr ⟨rfl, rfl, rfl⟩⟩
  · have hlt : d.year ≠ lastYear := by
      intro hlast
      have hyear := daysBeforeMonth_last d.year
      have hmonth : d.month = 12 := by omega
      rw [daysBeforeMonth_succ d.year (by omega)] at hyear
      rw [number_eq, dayOfYear, lastNumber, ← hlast, daysBeforeYear_succ, ← hyear, hmonth] at h
      rw [hmonth] at hd hday
      omega
    exact ⟨⟨d.year + 1, 1, 1, by omega, by omega, le_rfl, monthLength_pos _ _⟩,
      ofParts?_eq_some_iff.mpr ⟨rfl, rfl, rfl⟩⟩

theorem next?_eq_some_iff {d e : Date} : d.next? = some e ↔ e.number = d.number + 1 := by
  constructor
  · exact number_of_next?_eq_some
  · intro h
    have hlt : d.number < lastNumber := by
      have := e.number_le_lastNumber
      omega
    obtain ⟨f, hf⟩ := exists_next?_of_lt hlt
    have hfe : f = e := number_injective ((number_of_next?_eq_some hf).trans h.symm)
    rw [hf, hfe]

theorem next?_eq_none_iff {d : Date} : d.next? = none ↔ d.number = lastNumber := by
  constructor
  · intro h
    by_contra hne
    obtain ⟨e, he⟩ := exists_next?_of_lt (lt_of_le_of_ne d.number_le_lastNumber hne)
    rw [h] at he
    cases he
  · intro h
    cases hn : d.next? with
    | none => rfl
    | some e =>
        have he := number_of_next?_eq_some hn
        have := e.number_le_lastNumber
        omega

theorem daysBeforeYear_cycle (cycle year : Int) :
    daysBeforeYear (400 * cycle + year) = 146097 * cycle + daysBeforeYear year := by
  unfold daysBeforeYear
  omega

/-- Within a cycle, counting all years as leap years finds the year or the one before it. -/
theorem daysBeforeYear_estimate {rest : Int} (h : 0 ≤ rest) (h' : rest < 146097) :
    daysBeforeYear (rest / 366) ≤ rest ∧ rest < daysBeforeYear (rest / 366 + 1 + 1) := by
  unfold daysBeforeYear
  omega

theorem yearOfNumber_spec (n : Int) :
    daysBeforeYear (yearOfNumber n) ≤ n ∧ n < daysBeforeYear (yearOfNumber n + 1) := by
  obtain ⟨hlo, hhi⟩ := daysBeforeYear_estimate (Int.emod_nonneg n (by decide : (146097 : Int) ≠ 0))
    (Int.emod_lt_of_pos n (by decide))
  have hn := Int.mul_ediv_add_emod n 146097
  rw [yearOfNumber]
  split_ifs with h
  · rw [Int.add_assoc (400 * _), daysBeforeYear_cycle, daysBeforeYear_cycle]
    omega
  · rw [Int.add_assoc (400 * _), daysBeforeYear_cycle, daysBeforeYear_cycle]
    omega

theorem yearOfNumber_eq {n year : Int} (h : daysBeforeYear year ≤ n)
    (h' : n < daysBeforeYear (year + 1)) : yearOfNumber n = year := by
  obtain ⟨hs, hs'⟩ := yearOfNumber_spec n
  have hle : yearOfNumber n < year + 1 := daysBeforeYear_lt_iff.mp (hs.trans_lt h')
  have hge : year < yearOfNumber n + 1 := daysBeforeYear_lt_iff.mp (h.trans_lt hs')
  omega

theorem yearOfNumber_number (d : Date) : yearOfNumber d.number = d.year := by
  refine yearOfNumber_eq ?_ d.number_lt_nextYear
  rw [number_eq]
  omega

/-- Month and day count the days on from the start of the month where the search began. -/
theorem monthAndDay_count (year : Int) (month rest months : Nat) (h : 1 ≤ month) :
    daysBeforeMonth year (monthAndDay year month rest months).1 +
      (monthAndDay year month rest months).2 = daysBeforeMonth year month + rest + 1 := by
  induction months generalizing month rest with
  | zero => simp [monthAndDay, Nat.add_assoc]
  | succ months ih =>
      rw [monthAndDay]
      split_ifs with hr
      · simp [Nat.add_assoc]
      · rw [ih (month + 1) _ (by omega), daysBeforeMonth_succ year h]
        omega

theorem monthAndDay_day_pos (year : Int) (month rest months : Nat) :
    1 ≤ (monthAndDay year month rest months).2 := by
  induction months generalizing month rest with
  | zero => simp [monthAndDay]
  | succ months ih =>
      rw [monthAndDay]
      split_ifs with hr
      · simp
      · exact ih _ _

theorem monthAndDay_mem (year : Int) (month rest months : Nat) (h : 1 ≤ month)
    (hr : daysBeforeMonth year month + rest < daysBeforeMonth year (month + months)) :
    month ≤ (monthAndDay year month rest months).1 ∧
      (monthAndDay year month rest months).1 < month + months ∧
      (monthAndDay year month rest months).2 ≤
        monthLength year (monthAndDay year month rest months).1 := by
  induction months generalizing month rest with
  | zero => exact absurd hr (by rw [Nat.add_zero]; omega)
  | succ months ih =>
      rw [monthAndDay]
      split_ifs with hlen
      · exact ⟨le_rfl, by simp, hlen⟩
      · have hsucc := daysBeforeMonth_succ year h
        have hidx : month + 1 + months = month + (months + 1) := by omega
        obtain ⟨hlo, hhi, hday⟩ := ih (month + 1) (rest - monthLength year month) (by omega)
          (by rw [hidx, hsucc]; omega)
        exact ⟨by omega, by omega, hday⟩

theorem ofNumber?_eq (n : Int) :
    ofNumber? n = ofParts? (yearOfNumber n)
      (monthAndDay (yearOfNumber n) 1 (n - daysBeforeYear (yearOfNumber n)).toNat 12).1
      (monthAndDay (yearOfNumber n) 1 (n - daysBeforeYear (yearOfNumber n)).toNat 12).2 := rfl

theorem number_of_ofNumber?_eq_some {n : Int} {d : Date} (h : ofNumber? n = some d) :
    d.number = n := by
  rw [ofNumber?_eq] at h
  obtain ⟨hy, hm, hd⟩ := ofParts?_eq_some_iff.mp h
  have hspec := (yearOfNumber_spec n).1
  have hcount := monthAndDay_count (yearOfNumber n) 1
    (n - daysBeforeYear (yearOfNumber n)).toNat 12 le_rfl
  have hpos := d.day_mem.1
  rw [← hm, ← hd] at hcount
  rw [number_eq, dayOfYear, hy]
  simp only [daysBeforeMonth] at hcount
  omega

theorem ofNumber?_number (d : Date) : ofNumber? d.number = some d := by
  have hrest : (d.number - daysBeforeYear d.year).toNat = d.dayOfYear := by
    rw [number_eq]
    omega
  have hlt : daysBeforeMonth d.year 1 + d.dayOfYear < daysBeforeMonth d.year (1 + 12) := by
    rw [daysBeforeMonth_last]
    simpa only [daysBeforeMonth, Nat.zero_add] using d.dayOfYear_lt
  obtain ⟨hlo, hhi, hday⟩ := monthAndDay_mem d.year 1 d.dayOfYear 12 le_rfl hlt
  have hpos := monthAndDay_day_pos d.year 1 d.dayOfYear 12
  -- The parts found make a date, and the only date with this number is the given one.
  have hsome : ofNumber? d.number = some ⟨d.year, (monthAndDay d.year 1 d.dayOfYear 12).1,
      (monthAndDay d.year 1 d.dayOfYear 12).2, d.year_mem, by omega, hpos, hday⟩ := by
    rw [ofNumber?_eq, ofParts?_eq_some_iff, yearOfNumber_number, hrest]
    exact ⟨rfl, rfl, rfl⟩
  rw [hsome]
  exact congrArg some (number_injective (number_of_ofNumber?_eq_some hsome))

theorem ofNumber?_eq_some_iff {n : Int} {d : Date} : ofNumber? n = some d ↔ d.number = n := by
  constructor
  · exact number_of_ofNumber?_eq_some
  · rintro rfl
    exact ofNumber?_number d

theorem addDays?_eq_some_iff {d e : Date} {days : Int} :
    d.addDays? days = some e ↔ e.number = d.number + days :=
  ofNumber?_eq_some_iff

end Date

end Forecast
