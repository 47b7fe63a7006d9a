import Mathlib.Tactic.SplitIfs
import Forecast.Calendar.Pattern
import Forecast.Proofs.Calendar.Number

namespace Forecast

namespace Date

theorem next?_of_day_eq_monthLength {d : Date} (h : d.day = monthLength d.year d.month) :
    d.next? = monthAfter? d.year d.month := by
  have hm := d.month_mem
  rw [next?, if_neg (Nat.not_lt.mpr h.ge), monthAfter?]
  split_ifs with hlt heq heq
  · omega
  · rfl
  · rfl
  · omega

theorem previous?_of_next? {d e : Date} (h : d.next? = some e) : e.previous? = some d := by
  have hnumber := number_of_next?_eq_some h
  rw [previous?, addDays?_eq_some_iff]
  omega

theorem month_eq_of_next?_eq_none {d : Date} (h : d.next? = none) : d.month = 12 := by
  have hlast := d.number_lt_nextYear
  by_contra hne
  have hlt : d.month + 1 < 13 := by have := d.month_mem; omega
  have hnext : d.dayOfYear < daysBeforeMonth d.year 12 :=
    d.dayOfYear_lt_month.trans_le (daysBeforeMonth_mono d.year (by omega))
  have hlength := daysBeforeMonth_last d.year
  rw [daysBeforeMonth_succ d.year (by omega)] at hlength
  have hyear := daysBeforeYear_mono (Int.add_le_add_right d.year_mem.2 1)
  have hpos := monthLength_pos d.year 12
  rw [next?_eq_none_iff, number_eq, lastNumber] at h
  rw [daysBeforeYear_succ d.year] at hyear
  omega

theorem lastOfMonth_eq {year : Int} {month : Nat} (hy : firstYear ≤ year ∧ year ≤ lastYear)
    (hm : 1 ≤ month ∧ month ≤ 12) : lastOfMonth year month = monthLength year month := by
  let last : Date := ⟨year, month, monthLength year month, hy, hm, monthLength_pos year month, le_rfl⟩
  have hnext : last.next? = monthAfter? year month := next?_of_day_eq_monthLength rfl
  rw [lastOfMonth, ← hnext]
  cases h : last.next? with
  | none =>
      have hmonth : month = 12 := month_eq_of_next?_eq_none h
      rw [hmonth]
      rfl
  | some e =>
      rw [Option.bind_some, previous?_of_next? h]
      rfl

end Date

namespace DatePart

/-- The year or the month that a part asks for. -/
def Is (value : Int) : DatePart → Prop
  | .any => True
  | .exact v => value = v

/-- The day that a part asks for; the last day of a month counts as day `-1`. -/
def IsDayOf (d : Date) : DatePart → Prop
  | .any => True
  | .exact v =>
    0 < v ∧ (d.day : Int) = v ∨ v < 0 ∧ (d.day : Int) - monthLength d.year d.month - 1 = v

end DatePart

namespace DatePattern

theorem partMatches_iff {value : Int} {part : DatePart} :
    partMatches value part = true ↔ part.Is value := by
  cases part with
  | any => simp [partMatches, DatePart.Is]
  | exact v => simp [partMatches, DatePart.Is]

theorem dayMatches_iff {d : Date} {part : DatePart} (h : part ≠ .exact 0) :
    dayMatches d part = true ↔ part.IsDayOf d := by
  cases part with
  | any => simp [dayMatches, DatePart.IsDayOf]
  | exact v =>
      have hne : v ≠ 0 := fun hv => h (congrArg DatePart.exact hv)
      rw [dayMatches, DatePart.IsDayOf, Date.lastOfMonth_eq d.year_mem d.month_mem]
      split_ifs with hv
      · simp [hv, hv.le]
      · have hneg : v < 0 := by omega
        simp [hv, hneg]

theorem ofParts_eq_ok_iff {year month day : DatePart} {p : DatePattern} :
    ofParts year month day = .ok p ↔ checkYear year = .ok () ∧ checkMonth month = .ok () ∧
      checkDay day = .ok () ∧ p = .parts year month day := by
  rw [ofParts]
  cases checkYear year with
  | error e => simp [bind, Except.bind]
  | ok u =>
      cases checkMonth month with
      | error e => simp [bind, Except.bind]
      | ok u =>
          cases checkDay day with
          | error e => simp [bind, Except.bind]
          | ok u => simp [bind, Except.bind, pure, Except.pure, eq_comm]

theorem checkDay_exact_eq_ok_iff {v : Int} :
    checkDay (.exact v) = .ok () ↔ v ≠ 0 ∧ -31 ≤ v ∧ v ≤ 31 := by
  rw [checkDay]
  split_ifs with hv
  · simp [hv, pure, Except.pure]
  · simp [hv]

theorem covers_parts_iff {year month day : DatePart} {d : Date} (h : checkDay day = .ok ()) :
    covers (.parts year month day) d = true ↔ year.Is d.year ∧ month.Is d.month ∧ day.IsDayOf d := by
  have hne : day ≠ .exact 0 := by
    rintro rfl
    exact (checkDay_exact_eq_ok_iff.mp h).1 rfl
  rw [covers, Bool.and_eq_true, Bool.and_eq_true, partMatches_iff, partMatches_iff,
    dayMatches_iff hne, and_assoc]

theorem isDayOf_neg_iff {d : Date} {k : Nat} (hk : 0 < k) :
    (DatePart.exact (-k)).IsDayOf d ↔ d.day + k = monthLength d.year d.month + 1 := by
  rw [DatePart.IsDayOf]
  omega

theorem isDayOf_pos_iff {d : Date} {n : Nat} (hn : 0 < n) :
    (DatePart.exact n).IsDayOf d ↔ d.day = n := by
  rw [DatePart.IsDayOf]
  omega

theorem monthLength_le (year : Int) (month : Nat) : monthLength year month ≤ 31 := by
  rw [monthLength]
  split_ifs <;> omega

/-- A pattern covers the dates that its parts ask for and no others. In each month that it allows,
a day counted from the end is one day of that month, the same as the day counted from the start that
the length of the month makes of it, and no day if the month is too short. -/
theorem covers_exactly {year month day : DatePart} {p : DatePattern}
    (h : ofParts year month day = .ok p) :
    (∀ d, p.covers d = true ↔ year.Is d.year ∧ month.Is d.month ∧ day.IsDayOf d) ∧
      ∀ (k : Nat) (y : Int) (m : Nat), day = .exact (-k) → year.Is y → month.Is m →
        firstYear ≤ y ∧ y ≤ lastYear → 1 ≤ m ∧ m ≤ 12 →
          (k ≤ monthLength y m →
            (∃! d : Date, d.year = y ∧ d.month = m ∧ p.covers d = true) ∧
              ∃ q, ofParts year month (.exact (monthLength y m + 1 - k : Nat)) = .ok q ∧
                ∀ d : Date, d.year = y → d.month = m → q.covers d = p.covers d) ∧
          (monthLength y m < k → ∀ d : Date, d.year = y → d.month = m → p.covers d = false) := by
  obtain ⟨hyear, hmonth, hday, rfl⟩ := ofParts_eq_ok_iff.mp h
  have hcovers : ∀ d, covers (.parts year month day) d = true ↔
      year.Is d.year ∧ month.Is d.month ∧ day.IsDayOf d := fun d => covers_parts_iff hday
  refine ⟨hcovers, ?_⟩
  rintro k y m rfl hy hm hcalendar hcalendar'
  obtain ⟨hne, -, -⟩ := checkDay_exact_eq_ok_iff.mp hday
  have hpos : 0 < k := by omega
  have hmem : ∀ d : Date, d.year = y → d.month = m →
      (covers (.parts year month (.exact (-k))) d = true ↔ d.day + k = monthLength y m + 1) := by
    rintro d rfl rfl
    rw [hcovers, isDayOf_neg_iff hpos]
    exact ⟨fun hd => hd.2.2, fun hd => ⟨hy, hm, hd⟩⟩
  refine ⟨fun hk => ⟨?_, ?_⟩, ?_⟩
  · let d : Date := ⟨y, m, monthLength y m + 1 - k, hcalendar, hcalendar', by omega, by omega⟩
    have hd : d.day + k = monthLength y m + 1 := Nat.sub_add_cancel (by omega)
    refine ⟨d, ⟨rfl, rfl, (hmem d rfl rfl).mpr hd⟩, ?_⟩
    rintro e ⟨hey, hem, he⟩
    have heday := (hmem e hey hem).mp he
    exact Date.ext_parts hey hem (by omega)
  · have hle := monthLength_le y m
    have hcheck : checkDay (.exact (monthLength y m + 1 - k : Nat)) = .ok () :=
      checkDay_exact_eq_ok_iff.mpr (by omega)
    refine ⟨_, ofParts_eq_ok_iff.mpr ⟨hyear, hmonth, hcheck, rfl⟩, ?_⟩
    rintro d rfl rfl
    rw [Bool.eq_iff_iff, hmem d rfl rfl, covers_parts_iff hcheck, isDayOf_pos_iff (by omega)]
    constructor
    · rintro ⟨-, -, hd⟩
      omega
    · intro hd
      exact ⟨hy, hm, by omega⟩
  · intro hk d hdy hdm
    have hdpos := d.day_mem.1
    rw [Bool.eq_false_iff, ne_eq, hmem d hdy hdm]
    omega

theorem covers_exactly_leapFebruary :
    let p : DatePattern := .parts .any (.exact 2) (.exact (-1))
    let q : DatePattern := .parts .any (.exact 2) (.exact (-30))
    let d : Date := ⟨-4, 2, 29, by decide, by decide, by decide⟩
    (ofParts .any (.exact 2) (.exact (-1)) = .ok p ∧ p.covers d = true ∧
      ∃! e : Date, e.year = -4 ∧ e.month = 2 ∧ p.covers e = true) ∧
    ofParts .any (.exact 2) (.exact (-30)) = .ok q ∧ q.covers d = false := by
  intro p q d
  have hp : ofParts .any (.exact 2) (.exact (-1)) = .ok p := rfl
  have hq : ofParts .any (.exact 2) (.exact (-30)) = .ok q := rfl
  obtain ⟨hcovers, hlast⟩ := covers_exactly hp
  obtain ⟨hunique, -⟩ := (hlast 1 (-4) 2 rfl trivial rfl (by decide) (by decide)).1 (by decide)
  refine ⟨⟨hp, (hcovers d).mpr ⟨trivial, rfl, .inr (by decide)⟩, hunique⟩, hq, ?_⟩
  exact ((covers_exactly hq).2 30 (-4) 2 rfl trivial rfl (by decide) (by decide)).2 (by decide) d rfl rfl

end DatePattern

end Forecast
