import Forecast.Evaluation
import Forecast.Proofs.Script.Names
import Forecast.Proofs.Settings

namespace Forecast

open Checked

/-- A day is never zero; a negative one counts back from the end of a month. -/
structure PatternLiteral.InRange (p : PatternLiteral) : Prop where
  year : ∀ y ∈ p.year.value, 0 ≤ y
  month : ∀ m ∈ p.month.value, 1 ≤ m ∧ m ≤ 12
  day : ∀ d ∈ p.day.value, 1 ≤ d ∧ d ≤ 31 ∨ -31 ≤ d ∧ d ≤ -1

structure WellDeclared (ds : List Declaration) : Prop where
  nodup_vars : (varNames ds).Nodup
  nodup_dates : (dateNames ds).Nodup
  initial_known : ∀ before x e ps after, ds = before ++ .var x e ps :: after →
    ∀ y ∈ e.names, y.name ∈ varNames before
  action_known : ∀ before when a after, ds = before ++ .rule when a :: after →
    ∀ y ∈ a.names, y.name ∈ varNames before
  when_known : ∀ x a, .rule (.named x) a ∈ ds → x.name ∈ dateNames ds
  date_inRange : ∀ x p, .date x p ∈ ds → p.InRange
  pattern_inRange : ∀ p a, .rule (.pattern p) a ∈ ds → p.InRange
  strings : ∀ x e ps, .var x e (some ps) ∈ ds →
    ∀ p ∈ ps, p.key.name = "label" ∨ p.key.name = "color" → p.value.IsString

namespace Script

def ownStart (today : Date) (s : Script) : Date := (startOf? today (s.options.getD [])).getD today

def ownDays (s : Script) : Nat := (daysOf? (s.options.getD [])).getD Settings.defaultDays

/-- The span of days that the script itself asks for counts as soon as it sets any part of it,
also where the request replaces it. -/
structure WellFormed (r : Request) (s : Script) : Prop extends WellDeclared s.declarations where
  options : ∀ p ∈ s.options.getD [], p.Admissible r.today
  own_span : (∃ p ∈ s.options.getD [], p.key.name = "startDate" ∨ p.key.name = "duration") →
    ∀ i < s.ownDays, ∃ d, (s.ownStart r.today).addDays? i = some d
  days_le : r.days.getD s.ownDays ≤ 36600
  exists_day : ∀ i < r.days.getD s.ownDays,
    ∃ d, (r.start.getD (s.ownStart r.today)).addDays? i = some d

end Script

namespace DatePattern

theorem exists_check_iff {check : DatePart → Except Error Unit} {P : Int → Prop}
    (hany : check .any = .ok ()) (hexact : ∀ v, (∃ u, check (.exact v) = .ok u) ↔ P v)
    (hclamp : ∀ v, P (clampPart v) ↔ P v) (p : PartLiteral) :
    (∃ u, check p.part = .ok u) ↔ ∀ v ∈ p.value, P v := by
  rw [PartLiteral.part]
  cases p.value with
  | none => simp [hany]
  | some v =>
      rw [Option.elim_some, hexact, hclamp]
      simp

theorem exists_checkYear_iff (p : PartLiteral) :
    (∃ u, checkYear p.part = .ok u) ↔ ∀ y ∈ p.value, 0 ≤ y := by
  refine exists_check_iff rfl (fun y => ?_) (fun y => ?_) p
  · by_cases hy : y < 0
    · simp [checkYear, hy, throw, throwThe, MonadExceptOf.throw]
    · simp [checkYear, hy, pure, Except.pure, Int.not_lt.mp hy]
  · rw [clampPart]
    omega

theorem exists_checkMonth_iff (p : PartLiteral) :
    (∃ u, checkMonth p.part = .ok u) ↔ ∀ m ∈ p.value, 1 ≤ m ∧ m ≤ 12 := by
  refine exists_check_iff rfl (fun m => ?_) (fun m => ?_) p
  · by_cases hm : 1 ≤ m ∧ m ≤ 12
    · simp [checkMonth, hm, pure, Except.pure]
    · simp [checkMonth, hm, throw, throwThe, MonadExceptOf.throw]
  · rw [clampPart]
    omega

theorem exists_checkDay_iff (p : PartLiteral) :
    (∃ u, checkDay p.part = .ok u) ↔ ∀ d ∈ p.value, 1 ≤ d ∧ d ≤ 31 ∨ -31 ≤ d ∧ d ≤ -1 := by
  refine exists_check_iff rfl (fun d => ?_) (fun d => ?_) p
  · have hiff : (d ≠ 0 ∧ -31 ≤ d ∧ d ≤ 31) ↔ 1 ≤ d ∧ d ≤ 31 ∨ -31 ≤ d ∧ d ≤ -1 := by omega
    rw [← hiff, checkDay]
    split_ifs with hd
    · simp [hd, pure, Except.pure]
    · simp [hd]
  · rw [clampPart]
    omega

theorem exists_ofParts_iff (year month day : DatePart) :
    (∃ p, ofParts year month day = .ok p) ↔
      (∃ u, checkYear year = .ok u) ∧ (∃ u, checkMonth month = .ok u) ∧
        ∃ u, checkDay day = .ok u := by
  simp only [ofParts, exists_bind_eq_ok_iff, exists_pure_eq_ok_iff, and_true]
  simp

end DatePattern

namespace PatternLiteral

theorem exists_pattern_iff (p : PatternLiteral) : (∃ pattern, p.pattern = .ok pattern) ↔ p.InRange := by
  rw [pattern, DatePattern.exists_ofParts_iff, DatePattern.exists_checkYear_iff,
    DatePattern.exists_checkMonth_iff, DatePattern.exists_checkDay_iff]
  exact ⟨fun ⟨hy, hm, hd⟩ => ⟨hy, hm, hd⟩, fun ⟨hy, hm, hd⟩ => ⟨hy, hm, hd⟩⟩

theorem faults_resolve_eq_nil_iff (p : PatternLiteral) : p.resolve.faults = [] ↔ p.InRange := by
  rw [← exists_pattern_iff, resolve]
  cases p.pattern <;> simp

end PatternLiteral

end Forecast
