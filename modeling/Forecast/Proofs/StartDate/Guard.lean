import Mathlib.Data.Bool.AllAny
import Forecast.Proofs.StartDate.Clock

namespace Forecast

namespace Phrase

open StartDate (maxNumber)

variable {today d e : Date} {source : List Char}

/-- A date is not so many years away from the year zero, or from today. -/
def Near (today d : Date) : Prop := d.year.natAbs < 36700 ∨ (d.year - today.year).natAbs < 36700

def Lands (Q : Date → Prop) (x : Result Error Date) : Prop := x.Satisfies Q fun _ => False

theorem Lands.mono {Q R : Date → Prop} {x : Result Error Date} (hx : Lands Q x)
    (hQ : ∀ d, Q d → R d) : Lands R x := Result.Satisfies.mono hx hQ fun _ => False.elim

theorem natAbs_number_le (h : -200000 ≤ today.year ∧ today.year ≤ 200000) :
    today.number.natAbs ≤ 73050000 := by
  have hlow : Date.daysBeforeYear (-200000) ≤ Date.daysBeforeYear today.year :=
    Date.daysBeforeYear_mono h.1
  have hhigh : Date.daysBeforeYear (today.year + 1) ≤ Date.daysBeforeYear 200001 :=
    Date.daysBeforeYear_mono (by omega)
  have hnext := today.number_lt_nextYear
  have hnumber := today.number_eq
  simp only [Date.daysBeforeYear] at *
  omega

theorem lands_move {days : Int} (h : (d.number + days).natAbs ≤ 95000000) :
    Lands (fun e => e.number = d.number + days) (Day.move d days) := by
  have hfirst : Date.daysBeforeYear firstYear ≤ -95000000 := by decide
  have hlast : 95000000 ≤ Date.lastNumber := by decide
  obtain ⟨e, he⟩ := Date.exists_number_eq (n := d.number + days) (by omega) (by omega)
  rw [Day.move, Date.addDays?_eq_some_iff.mpr he]
  exact he

theorem weekday_lt (d : Date) : d.weekday < 7 := by
  rw [Date.weekday]
  omega

theorem lands_ofWeekday (htoday : today.number.natAbs ≤ 73050000) (clock : Clock) {day : Nat}
    (hday : day < 7) (direction : Option Direction) :
    Lands (fun e => (e.number - today.number).natAbs ≤ 13)
      (Day.ofWeekday today clock day direction) := by
  have hweekday := weekday_lt today
  refine (lands_move (by omega)).bind fun d hd => ?_
  have hmove : ∀ days : Int, days.natAbs = 7 →
      Lands (fun e => (e.number - today.number).natAbs ≤ 13) (Day.move d days) := by
    intro days hdays
    exact (lands_move (by omega)).mono fun e he => by omega
  have hstay : (d.number - today.number).natAbs ≤ 13 := by omega
  split
  · split_ifs
    · exact hmove (-7) rfl
    · split
      · trivial
      · split_ifs
        · exact hmove (-7) rfl
        · exact hstay
    · exact hstay
  · split_ifs
    · exact hmove 7 rfl
    · exact hstay

theorem year_of_lastDayUpTo? {year : Int} {month day : Nat}
    (h : Day.lastDayUpTo? year month day = some d) : d.year = year := by
  induction day with
  | zero => cases h
  | succ day ih =>
      rw [Day.lastDayUpTo?] at h
      split at h
      · rename_i hparts
        obtain rfl := Option.some.inj h
        exact (Date.ofParts?_eq_some_iff.mp hparts).1
      · split_ifs at h
        exact ih h

theorem year_of_addMonths? {n : Int} (hn : n.natAbs ≤ 12 * maxNumber)
    (h : Day.addMonths? today n = some d) : (d.year - today.year).natAbs ≤ maxNumber + 1 := by
  have hmonth := today.month_mem
  have hyear : d.year = (Day.monthAfter today n).1 := year_of_lastDayUpTo? h
  rw [Day.monthAfter] at hyear
  rw [maxNumber] at hn ⊢
  split at hyear
  · simp only at hyear
    omega
  · simp only at hyear
    omega

theorem year_of_ofMonthDay? {month day : Nat} {direction : Option Direction}
    (h : Day.ofMonthDay? today month day direction = some d) :
    (d.year - today.year).natAbs ≤ 1 := by
  obtain ⟨e, he, h⟩ := Option.bind_eq_some_iff.mp h
  have hyear := (Date.ofParts?_eq_some_iff.mp he).1
  split at h
  · split_ifs at h
    · have := (Date.ofParts?_eq_some_iff.mp h).1
      omega
    · obtain rfl := Option.some.inj h
      omega
  · split_ifs at h
    · have := (Date.ofParts?_eq_some_iff.mp h).1
      omega
    · obtain rfl := Option.some.inj h
      omega
  · obtain rfl := Option.some.inj h
    omega

theorem natAbs_sub_le_of_date? {c : Clock} (hc : c.Within source maxNumber)
    (h : c.date? d = some e) : (e.number - d.number).natAbs ≤ 1551 := by
  obtain ⟨s, hs, hnumber⟩ := Clock.date?_eq_some_iff.mp h
  have hlt := Clock.seconds_lt hs
  have hoffset := hc.natAbs_offset_le
  rw [maxNumber] at hoffset
  omega

def onClock (clock : Option Clock) (d : Date) : Result Error Date :=
  match clock with
  | none => .ok d
  | some c => (c.date? d).elim (.error .badDate) .ok

theorem lands_onClock {clock : Option Clock} (hclock : ∀ c ∈ clock, c.Within source maxNumber)
    (d : Date) : Lands (fun e => (e.number - d.number).natAbs ≤ 1551) (onClock clock d) := by
  cases clock with
  | none => exact (by omega : (d.number - d.number).natAbs ≤ 1551)
  | some c => exact Result.satisfies_elim fun e he => natAbs_sub_le_of_date? (hclock c rfl) he

theorem near_of_number (h : (d.number - today.number).natAbs ≤ 365 * 36699) : Near today d := by
  have hlater := Date.year_le_of_number_le today d 36699 (by omega)
  have hearlier := Date.year_le_of_number_le d today 36699 (by omega)
  exact .inr (by omega)

/-- A year that is near by some margin is near also after the clock time is put into universal
time. -/
theorem near_of_year
    (hd : d.year.natAbs ≤ maxNumber + 1 ∨ (d.year - today.year).natAbs ≤ maxNumber + 1)
    (he : (e.number - d.number).natAbs ≤ 1551) : Near today e := by
  have hlater := Date.year_le_of_number_le d e 5 (by omega)
  have hearlier := Date.year_le_of_number_le e d 5 (by omega)
  rw [maxNumber] at hd
  rcases hd with hd | hd
  · exact .inl (by omega)
  · exact .inr (by omega)

theorem lands_resolve (htoday : -200000 ≤ today.year ∧ today.year ≤ 200000) {day : Day}
    (hday : day.Within maxNumber) {clock : Option Clock}
    (hclock : ∀ c ∈ clock, c.Within source maxNumber) :
    Lands (Near today) (day.resolve today clock) := by
  have hnumber := natAbs_number_le htoday
  have hdays : ∀ {d : Date}, (d.number - today.number).natAbs ≤ 7 * maxNumber →
      Lands (Near today) (onClock clock d) := by
    intro d hd
    rw [maxNumber] at hd
    exact (lands_onClock hclock d).mono fun e he => near_of_number (by omega)
  have hyears : ∀ {d : Date}, d.year.natAbs ≤ maxNumber + 1 ∨
      (d.year - today.year).natAbs ≤ maxNumber + 1 → Lands (Near today) (onClock clock d) :=
    fun hd => (lands_onClock hclock _).mono fun e he => near_of_year hd he
  cases day with
  | counted count measure =>
      obtain ⟨hcount, hmeasure⟩ := hday
      have hmul : ∀ {n most : Nat}, n ≤ most → (count * n).natAbs ≤ maxNumber * most := by
        intro n most hn
        rw [Int.natAbs_mul, Int.natAbs_natCast]
        exact Nat.mul_le_mul hcount hn
      cases measure with
      | seconds n =>
          have hle := hmul hmeasure
          rw [maxNumber] at hle
          exact (lands_move (by omega)).mono fun d hd => near_of_number (by omega)
      | days n =>
          have hle := hmul hmeasure
          have hle' : (count * n).natAbs ≤ 7 * maxNumber := hle.trans_eq (Nat.mul_comm _ _)
          rw [maxNumber] at hle
          exact Result.Satisfies.bind (lands_move (by omega)) fun d hd => hdays (by omega)
      | months n =>
          refine Result.satisfies_elim fun d hd => hyears (.inr (year_of_addMonths? ?_ hd))
          exact (hmul hmeasure).trans_eq (Nat.mul_comm _ _)
  | absolute year month day =>
      obtain ⟨hlow, hhigh⟩ := hday
      refine Result.satisfies_elim fun d hd => hyears (.inl ?_)
      rw [(Date.ofParts?_eq_some_iff.mp hd).1]
      omega
  | weekday wanted direction =>
      exact (lands_ofWeekday hnumber _ hday direction).bind fun d hd => hdays (hd.trans (by decide))
  | monthDay month day direction =>
      refine Result.satisfies_elim fun d hd => hyears (.inr ?_)
      exact (year_of_ofMonthDay? hd).trans (by decide)

theorem date_guarded (htoday : -200000 ≤ today.year ∧ today.year ≤ 200000)
    (h : Limited source maxNumber) :
    (Phrase.date today source).Satisfies (Near today) (Explains source) := by
  have hlands : ∀ {x : Result Error Date}, Lands (Near today) x →
      x.Satisfies (Near today) (Explains source) :=
    fun hx => Result.Satisfies.mono hx (fun _ => id) fun _ => False.elim
  refine (yields_read h source List.suffix_rfl).bind fun ((day, clock), rest) => ?_
  rintro ⟨⟨hday, hclock⟩, -⟩
  cases day with
  | some day => exact hlands (lands_resolve htoday (hday day rfl) hclock)
  | none =>
      cases clock with
      | some c =>
          refine hlands (Result.satisfies_elim fun d hd => near_of_number ?_)
          exact (natAbs_sub_le_of_date? (hclock c rfl) hd).trans (by decide)
      | none => exact near_of_number (by omega)

end Phrase

namespace StartDate

variable {today : Date} {text : List Char}

/-- An ASCII text is read to a date or to an error, and breaks off only on a point with something
behind it that is no fraction of a second; days that are counted out never leave the calendar. A date
that a phrase means is less than 36700 years away from the year zero or from today. -/
theorem ofText_guarded (hascii : ∀ c ∈ text, c.toNat < 0x80)
    (htoday : -200000 ≤ today.year ∧ today.year ≤ 200000) :
    (∀ d, ofText today text = .ok d → Written.date? (Text.trim text) = some d ∨
      d.year.natAbs < 36700 ∨ (d.year - today.year).natAbs < 36700) ∧
    ∀ why, ofText today text = .aborted why → why = .malformedFraction ∧
      ∃ rest, '.' :: rest <:+ Text.trim text ∧
        (Phrase.Token.runOf Text.isNumeric rest).1 ≠ [] ∧
        Phrase.isFraction (Phrase.Token.runOf Text.isNumeric rest).1 = false := by
  rw [ofText]
  cases hwritten : Written.date? (Text.trim text) with
  | some d => exact ⟨fun e he => .inl (congrArg some (Result.ok.inj he)), by rintro why ⟨⟩⟩
  | none =>
      dsimp only
      split_ifs with hexceeds
      · exact ⟨by rintro d ⟨⟩, by rintro why ⟨⟩⟩
      · have hlimited := limited_of_exceeds (Bool.eq_false_iff.mpr hexceeds)
        have hguarded := Phrase.date_guarded htoday hlimited
        cases hdate : Phrase.date today (Text.trim text) with
        | ok d =>
            rw [hdate] at hguarded
            refine ⟨?_, by rintro why ⟨⟩⟩
            rintro d ⟨⟩
            exact .inr hguarded
        | error e => exact ⟨by rintro d ⟨⟩, by rintro why ⟨⟩⟩
        | aborted why =>
            rw [hdate] at hguarded
            refine ⟨by rintro d ⟨⟩, ?_⟩
            rintro why ⟨⟩
            cases why with
            | splitCharacter =>
                exact absurd (fun c hc => hascii c (Text.trim_subset text hc)) hguarded
            | malformedFraction => exact ⟨rfl, hguarded⟩
            | offCalendar | capacity => exact hguarded.elim

theorem ofText_guarded_longAgo :
    ∃ d, ofText ⟨-200000, 1, 1, by decide, by decide, by decide⟩ "36600 weeks ago".toList = .ok d ∧
      (d.year.natAbs < 36700 ∨ (d.year - -200000).natAbs < 36700) := by
  have hascii : ∀ c ∈ "36600 weeks ago".toList, c.toNat < 0x80 :=
    List.all_iff_forall_prop.mp (by decide)
  have hok : ofText ⟨-200000, 1, 1, by decide, by decide, by decide⟩ "36600 weeks ago".toList =
      .ok ⟨-200702, 7, 19, by decide, by decide, by decide⟩ := by decide +kernel
  have hwritten : Written.date? (Text.trim "36600 weeks ago".toList) = none := by decide +kernel
  have hdate := (ofText_guarded hascii (by decide)).1 _ hok
  rw [hwritten] at hdate
  exact ⟨_, hok, hdate.resolve_left nofun⟩

theorem breaksOff_letterBehindPoint :
    (∀ c ∈ "8:30:20.p".toList, c.toNat < 0x80) ∧
      ofText ⟨2000, 2, 2, by decide, by decide, by decide⟩ "8:30:20.p".toList =
        .aborted .malformedFraction :=
  ⟨List.all_iff_forall_prop.mp (by decide), by decide +kernel⟩

end StartDate

end Forecast
