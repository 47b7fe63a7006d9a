import Forecast.Proofs.Simulation

namespace Forecast

theorem snapshots_append (rules : List Rule) (values : Values) (before after : List Date) :
    snapshots rules values (before ++ after) =
      snapshots rules values before ++
        snapshots rules (before.foldl (runDay rules) values) after := by
  induction before generalizing values with
  | nil => rfl
  | cons d rest ih =>
      rw [List.cons_append, snapshots, snapshots, ih]
      rfl

theorem getElem?_snapshots {rules : List Rule} {values snap : Values} {dates : List Date} {i : Nat}
    (h : (snapshots rules values dates)[i]? = some snap) :
    ∃ before d, (values :: snapshots rules values dates)[i]? = some before ∧ dates[i]? = some d ∧
      snap = runDay rules before d := by
  induction dates generalizing values i with
  | nil => cases h
  | cons d rest ih =>
      rw [snapshots] at h ⊢
      cases i with
      | zero => exact ⟨values, d, rfl, rfl, (Option.some.inj h).symm⟩
      | succ i => exact ih h

/-- The error names the first day of a run from `start` that the calendar does not have. -/
structure OutOfCalendar.IsFirst (e : OutOfCalendar) (start : Date) : Prop where
  start_eq : e.start = start
  missing : start.addDays? e.day = none
  present : ∀ i < e.day, (start.addDays? i).isSome

theorem isFirst_of_datesFrom_eq_error {start : Date} {n : Nat} {e : OutOfCalendar}
    (h : datesFrom start n = .error e) : e.IsFirst start := by
  obtain ⟨hstart, hday, -, -⟩ := of_datesFrom_eq_error h
  refine ⟨hstart, ?_, fun i hi => ?_⟩
  · rw [← Option.not_isSome_iff_eq_none, Date.isSome_addDays?_iff]
    omega
  · rw [Date.isSome_addDays?_iff]
    omega

theorem exists_datesFrom_eq_error_iff {start : Date} {n : Nat} :
    (∃ e, datesFrom start n = .error e) ↔ 0 < n ∧ start.addDays? (n - 1 : Nat) = none := by
  rw [← Option.not_isSome_iff_eq_none, Date.isSome_addDays?_iff]
  constructor
  · rintro ⟨e, he⟩
    obtain ⟨-, -, hn, hlast⟩ := of_datesFrom_eq_error he
    exact ⟨hn, Int.not_le.mpr hlast⟩
  · rintro ⟨hn, hlast⟩
    cases h : datesFrom start n with
    | error e => exact ⟨e, rfl⟩
    | ok dates =>
        have hi : n - 1 < dates.length := by rw [length_of_datesFrom h]; omega
        refine absurd ?_ hlast
        rw [← number_of_datesFrom h (n - 1) hi]
        exact Date.number_le_lastNumber _

namespace Plan

def startingFrom (p : Plan) (values : Values) : Plan := { p with initial := values }

variable {p : Plan} {start d : Date} {n m : Nat}

theorem exists_run_add (hm : 0 < m) (h : (start.addDays? (n + m - 1 : Nat)).isSome) :
    ∃ snaps last d later, p.run start n = .ok snaps ∧ p.final start n = .ok last ∧
      start.addDays? n = some d ∧ (p.startingFrom last).run d m = .ok later ∧
        p.run start (n + m) = .ok (snaps ++ later) := by
  have hlast := Date.isSome_addDays?_iff.mp h
  obtain ⟨d, hd⟩ := Option.isSome_iff_exists.mp (Date.isSome_addDays?_iff.mpr
    (show start.number + n ≤ Date.lastNumber by omega))
  have hnumber := Date.addDays?_eq_some_iff.mp hd
  obtain ⟨before, hbefore⟩ : ∃ dates, datesFrom start n = .ok dates := datesFrom_ok (by omega)
  obtain ⟨after, hafter⟩ : ∃ dates, datesFrom d m = .ok dates := datesFrom_ok (by omega)
  obtain ⟨dates, hdates⟩ : ∃ dates, datesFrom start (n + m) = .ok dates := datesFrom_ok hlast
  refine ⟨snapshots p.rules p.initial before, before.foldl (runDay p.rules) p.initial, d,
    snapshots p.rules (before.foldl (runDay p.rules) p.initial) after, run_of_datesFrom hbefore,
    final_eq_ok_iff.mpr ⟨before, hbefore, rfl⟩, hd, run_of_datesFrom hafter, ?_⟩
  rw [run_of_datesFrom hdates, datesFrom_add hbefore hd hafter hdates, snapshots_append]

/-- Runs compose over time and fail as a whole. Going on from the last values and the day after them
gives the snapshots that a longer run has in addition, and each snapshot is what the rules make of the
one before it on the date of its day. The last values are missing just when their day is not in the
calendar, and then the first such day is named; so it is with the snapshots, as long as there can be
room for them. Where there cannot, the run breaks off before it has looked at a date. -/
theorem run_add (p : Plan) (start : Date) (n : Nat) :
    (∀ m, 0 < m → (start.addDays? (n + m - 1 : Nat)).isSome →
      ∃ snaps last d later, p.run start n = .ok snaps ∧ p.final start n = .ok last ∧
        start.addDays? n = some d ∧ (p.startingFrom last).run d m = .ok later ∧
          p.run start (n + m) = .ok (snaps ++ later)) ∧
    (∀ snaps, p.run start n = .ok snaps → ∀ (i : Nat) snap, snaps[i]? = some snap →
      ∃ before d, (p.initial :: snaps)[i]? = some before ∧ start.addDays? i = some d ∧
        snap = runDay p.rules before d) ∧
    ((∃ e, p.final start n = .error e) ↔ 0 < n ∧ start.addDays? (n - 1 : Nat) = none) ∧
    (∀ e, p.final start n = .error e → e.IsFirst start) ∧
    (∀ e, p.run start n = .error e ↔ n ≤ maxSnapshots ∧ p.final start n = .error e) ∧
    ∀ why, p.run start n = .aborted why ↔ maxSnapshots < n ∧ why = .capacity := by
  refine ⟨fun m hm h => exists_run_add hm h, ?_, ?_, fun e he => ?_, fun e => ?_,
    fun why => run_eq_aborted_iff⟩
  · intro snaps h i snap hsnap
    obtain ⟨dates, hdates, rfl⟩ := run_eq_ok_iff.mp h
    obtain ⟨before, d, hbefore, hd, heq⟩ := getElem?_snapshots hsnap
    obtain ⟨hi, rfl⟩ := List.getElem?_eq_some_iff.mp hd
    exact ⟨before, dates[i], hbefore, addDays?_of_datesFrom hdates i hi, heq⟩
  · simp only [final_eq_error_iff]
    exact exists_datesFrom_eq_error_iff
  · exact isFirst_of_datesFrom_eq_error (final_eq_error_iff.mp he)
  · rw [run_eq_error_iff, final_eq_error_iff]

def doubling (today : Date) : Plan :=
  ⟨["a"], [1.0], [], [⟨"at *-*-*", .every, .assign 0 .mul (.constant 2.0)⟩],
    Settings.default today []⟩

theorem run_add_lastDays :
    let start : Date := ⟨lastYear, 12, 30, by decide, by decide, by decide⟩
    (∃ d, start.addDays? 1 = some d ∧
      ((doubling start).startingFrom [2.0]).run d 1 = .ok [[4.0]] ∧
        (doubling start).run start (1 + 1) = .ok ([[2.0]] ++ [[4.0]])) ∧
      (doubling start).run start 3 = .error ⟨start, 2⟩ ∧
        OutOfCalendar.IsFirst ⟨start, 2⟩ start := by
  intro start
  have hsome : (start.addDays? (1 + 1 - 1 : Nat)).isSome := by decide +kernel
  obtain ⟨snaps, last, d, later, hrun, hfinal, hd, hlater, hall⟩ :=
    (run_add (doubling start) start 1).1 1 Nat.one_pos hsome
  have hsnaps : (doubling start).run start 1 = .ok [[2.0]] := by decide +kernel
  have hlast : (doubling start).final start 1 = .ok [2.0] := by decide +kernel
  have hboth : (doubling start).run start (1 + 1) = .ok [[2.0], [4.0]] := by decide +kernel
  obtain ⟨-, -, -, hfirst, herror, -⟩ := run_add (doubling start) start 3
  have hthird : (doubling start).run start 3 = .error ⟨start, 2⟩ := by decide +kernel
  obtain rfl := Result.ok.inj (hrun.symm.trans hsnaps)
  obtain rfl := Except.ok.inj (hfinal.symm.trans hlast)
  obtain rfl : later = [[4.0]] :=
    List.append_cancel_left (Result.ok.inj (hall.symm.trans hboth))
  exact ⟨⟨d, hd, hlater, hall⟩, hthird, hfirst _ ((herror _).mp hthird).2⟩

/-- On the last day of the calendar a run over more days than there can be room for breaks off, where
the last values are an error. -/
theorem run_ne_error_overlong :
    let start : Date := ⟨lastYear, 12, 31, by decide, by decide, by decide⟩
    let n := 1000000000000000000
    (0 < n ∧ start.addDays? (n - 1 : Nat) = none) ∧
      (doubling start).final start n = .error ⟨start, 1⟩ ∧
        ¬ ∃ e, (doubling start).run start n = .error e := by
  intro start n
  have hmissing : start.addDays? (n - 1 : Nat) = none := by decide +kernel
  have hfinal : (doubling start).final start n = .error ⟨start, 1⟩ := by decide +kernel
  refine ⟨⟨by decide, hmissing⟩, hfinal, fun ⟨e, he⟩ => ?_⟩
  have hroom : n ≤ maxSnapshots := (run_eq_error_iff.mp he).1
  exact absurd hroom (by decide)

end Plan

end Forecast
