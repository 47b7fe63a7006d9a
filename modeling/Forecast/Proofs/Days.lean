import Forecast.Proofs.Calendar.Number
import Forecast.Run

namespace Forecast

theorem map_eq_ok_iff {ε α β : Type} {f : α → β} {x : Except ε α} {b : β} :
    x.map f = .ok b ↔ ∃ a, x = .ok a ∧ f a = b := by
  cases x with
  | error e => simp [Except.map]
  | ok a => simp [Except.map]

theorem length_of_datesAfter {start d : Date} {day n : Nat} {dates : List Date}
    (h : datesAfter start day d n = .ok dates) : dates.length = n := by
  induction n generalizing day d dates with
  | zero =>
      obtain rfl := Except.ok.inj h
      rfl
  | succ n ih =>
      rw [datesAfter] at h
      split at h
      · cases h
      · obtain ⟨rest, hrest, rfl⟩ := map_eq_ok_iff.mp h
        rw [List.length_cons, ih hrest]

theorem number_of_datesAfter {start d : Date} {day n : Nat} {dates : List Date}
    (h : datesAfter start day d n = .ok dates) (i : Nat) (hi : i < dates.length) :
    dates[i].number = d.number + (i + 1 : Nat) := by
  induction n generalizing day d dates i with
  | zero =>
      obtain rfl := Except.ok.inj h
      simp at hi
  | succ n ih =>
      rw [datesAfter] at h
      split at h
      · cases h
      · rename_i e he
        obtain ⟨rest, hrest, rfl⟩ := map_eq_ok_iff.mp h
        have hnext := Date.next?_eq_some_iff.mp he
        cases i with
        | zero => simpa using hnext
        | succ i =>
            have hrest' := ih hrest i (by simpa using hi)
            rw [List.getElem_cons_succ, hrest', hnext]
            omega

theorem datesAfter_ok (start : Date) (day : Nat) {d : Date} {n : Nat}
    (h : d.number + n ≤ Date.lastNumber) : ∃ dates, datesAfter start day d n = .ok dates := by
  induction n generalizing day d with
  | zero => exact ⟨[], rfl⟩
  | succ n ih =>
      have hlt : d.number < Date.lastNumber := by omega
      obtain ⟨e, he⟩ := Date.exists_next?_of_lt hlt
      have hnext := Date.next?_eq_some_iff.mp he
      have hle : e.number + n ≤ Date.lastNumber := by omega
      obtain ⟨rest, hrest⟩ := ih (day + 1) hle
      refine ⟨e :: rest, ?_⟩
      simp only [datesAfter, he, hrest, Except.map]

theorem length_of_datesFrom {start : Date} {n : Nat} {dates : List Date}
    (h : datesFrom start n = .ok dates) : dates.length = n := by
  cases n with
  | zero =>
      obtain rfl := Except.ok.inj h
      rfl
  | succ n =>
      obtain ⟨rest, hrest, rfl⟩ := map_eq_ok_iff.mp h
      rw [List.length_cons, length_of_datesAfter hrest]

theorem number_of_datesFrom {start : Date} {n : Nat} {dates : List Date}
    (h : datesFrom start n = .ok dates) (i : Nat) (hi : i < dates.length) :
    dates[i].number = start.number + i := by
  cases n with
  | zero =>
      obtain rfl := Except.ok.inj h
      simp at hi
  | succ n =>
      obtain ⟨rest, hrest, rfl⟩ := map_eq_ok_iff.mp h
      cases i with
      | zero => simp
      | succ i => exact number_of_datesAfter hrest i (by simpa using hi)

/-- The whole calendar is far shorter than a list of snapshots may be. -/
theorem le_maxSnapshots_of_datesFrom {start : Date} {n : Nat} {dates : List Date}
    (h : datesFrom start n = .ok dates) : n ≤ Plan.maxSnapshots := by
  obtain rfl := length_of_datesFrom h
  rcases Nat.eq_zero_or_pos dates.length with hzero | hpos
  · exact hzero.trans_le (Nat.zero_le _)
  · have hi : dates.length - 1 < dates.length := by omega
    have hlast := dates[dates.length - 1].number_le_lastNumber
    rw [number_of_datesFrom h _ hi] at hlast
    have hfirst := start.firstNumber_le
    have hcalendar : Date.lastNumber < Date.daysBeforeYear firstYear + Plan.maxSnapshots := by
      decide
    omega

theorem addDays?_of_datesFrom {start : Date} {n : Nat} {dates : List Date}
    (h : datesFrom start n = .ok dates) (i : Nat) (hi : i < dates.length) :
    start.addDays? i = some dates[i] :=
  Date.addDays?_eq_some_iff.mpr (number_of_datesFrom h i hi)

theorem datesFrom_ok {start : Date} {n : Nat}
    (h : start.number + (n - 1 : Nat) ≤ Date.lastNumber) :
    ∃ dates, datesFrom start n = .ok dates := by
  cases n with
  | zero => exact ⟨[], rfl⟩
  | succ n =>
      rw [Nat.add_sub_cancel] at h
      obtain ⟨rest, hrest⟩ := datesAfter_ok start 0 h
      refine ⟨start :: rest, ?_⟩
      simp only [datesFrom, hrest, Except.map]

theorem Date.isSome_addDays?_iff {d : Date} {i : Nat} :
    (d.addDays? i).isSome ↔ d.number + i ≤ lastNumber := by
  constructor
  · intro h
    obtain ⟨e, he⟩ := Option.isSome_iff_exists.mp h
    rw [← addDays?_eq_some_iff.mp he]
    exact e.number_le_lastNumber
  · intro h
    obtain ⟨dates, hdates⟩ := datesFrom_ok (n := i + 1) h
    have hi : i < dates.length := by rw [length_of_datesFrom hdates]; exact Nat.lt_succ_self i
    rw [addDays?_of_datesFrom hdates i hi, Option.isSome_some]

theorem Date.exists_number_eq {n : Int} (hfirst : daysBeforeYear firstYear ≤ n)
    (hlast : n ≤ lastNumber) : ∃ d : Date, d.number = n := by
  let first : Date := ⟨firstYear, 1, 1, by decide, by decide, by decide⟩
  have hnumber : first.number = daysBeforeYear firstYear := by decide
  have hadd : first.number + (n - first.number).toNat = n := by omega
  obtain ⟨d, hd⟩ := Option.isSome_iff_exists.mp
    (isSome_addDays?_iff.mpr (hadd.trans_le hlast))
  exact ⟨d, (addDays?_eq_some_iff.mp hd).trans hadd⟩

theorem map_eq_error_iff {ε α β : Type} {f : α → β} {x : Except ε α} {e : ε} :
    x.map f = .error e ↔ x = .error e := by
  cases x with
  | error e => simp [Except.map]
  | ok a => simp [Except.map]

theorem of_datesAfter_eq_error {start d : Date} {day n : Nat} {e : OutOfCalendar}
    (h : datesAfter start day d n = .error e) :
    e.start = start ∧ d.number + e.day = day + (Date.lastNumber + 1) ∧
      Date.lastNumber < d.number + n := by
  induction n generalizing day d with
  | zero => cases h
  | succ n ih =>
      rw [datesAfter] at h
      split at h
      · rename_i hnone
        obtain rfl := Except.error.inj h
        have hlast := Date.next?_eq_none_iff.mp hnone
        refine ⟨rfl, ?_, by omega⟩
        rw [hlast]
        push_cast
        omega
      · rename_i d' hd'
        have hnext := Date.next?_eq_some_iff.mp hd'
        obtain ⟨hstart, hday, hlast⟩ := ih (map_eq_error_iff.mp h)
        refine ⟨hstart, ?_, ?_⟩ <;> omega

theorem of_datesFrom_eq_error {start : Date} {n : Nat} {e : OutOfCalendar}
    (h : datesFrom start n = .error e) :
    e.start = start ∧ start.number + e.day = Date.lastNumber + 1 ∧ 0 < n ∧
      Date.lastNumber < start.number + (n - 1 : Nat) := by
  cases n with
  | zero => cases h
  | succ n =>
      obtain ⟨hstart, hday, hlast⟩ := of_datesAfter_eq_error (map_eq_error_iff.mp h)
      refine ⟨hstart, ?_, Nat.succ_pos n, hlast⟩
      omega

theorem datesFrom_add {start d : Date} {n m : Nat} {before after dates : List Date}
    (hbefore : datesFrom start n = .ok before) (hd : start.addDays? n = some d)
    (hafter : datesFrom d m = .ok after) (hdates : datesFrom start (n + m) = .ok dates) :
    dates = before ++ after := by
  have hn := length_of_datesFrom hbefore
  have hnumber := Date.addDays?_eq_some_iff.mp hd
  apply List.ext_getElem
  · rw [List.length_append, hn, length_of_datesFrom hafter, length_of_datesFrom hdates]
  · intro i hi hi'
    apply Date.number_injective
    rw [number_of_datesFrom hdates i hi, List.getElem_append]
    split_ifs with hlt
    · exact (number_of_datesFrom hbefore i hlt).symm
    · rw [number_of_datesFrom hafter, hnumber]
      omega

theorem datesFrom_of_le {start : Date} {n m : Nat} {dates : List Date} (hnm : n ≤ m)
    (h : datesFrom start m = .ok dates) : datesFrom start n = .ok (dates.take n) := by
  have hm := length_of_datesFrom h
  cases hbefore : datesFrom start n with
  | error e =>
      obtain ⟨-, -, hpos, hlast⟩ := of_datesFrom_eq_error hbefore
      have hi : n - 1 < dates.length := by omega
      have hle := Date.number_le_lastNumber dates[n - 1]
      rw [number_of_datesFrom h (n - 1) hi] at hle
      omega
  | ok before =>
      have hn := length_of_datesFrom hbefore
      refine congrArg _ (List.ext_getElem ?_ fun i hi hi' => Date.number_injective ?_)
      · rw [List.length_take, hn, hm, Nat.min_eq_left hnm]
      · rw [List.getElem_take, number_of_datesFrom hbefore, number_of_datesFrom h]

end Forecast
