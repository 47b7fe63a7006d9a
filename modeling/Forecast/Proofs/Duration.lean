import Forecast.Proofs.Calendar.Written
import Forecast.Proofs.Settings

namespace Forecast

namespace Text

variable {bits n : Nat}

theorem fits?_of_lt (h : n < Nat.pow 2 bits) : fits? bits n = some n := if_pos h

theorem fits?_of_le (h : Nat.pow 2 bits ≤ n) : fits? bits n = none := if_neg (Nat.not_lt.mpr h)

/-- What is read so far is no more than the number in the end. -/
theorem le_ofDigitChars (digits : List Char) (n : Nat) : n ≤ Nat.ofDigitChars 10 digits n := by
  induction digits generalizing n with
  | nil => exact Nat.le_refl n
  | cons c digits ih =>
      rw [Nat.ofDigitChars_cons]
      have hstep : n ≤ 10 * n + (c.toNat - '0'.toNat) := by omega
      exact hstep.trans (ih _)

theorem addDigit?_eq (bits n : Nat) (c : Char) :
    addDigit? bits n c = fits? bits (10 * n + (c.toNat - '0'.toNat)) := by
  by_cases htens : 10 * n < Nat.pow 2 bits
  · rw [addDigit?, fits?_of_lt htens]
    rfl
  · rw [addDigit?, fits?_of_le (by omega), fits?_of_le (by omega)]
    rfl

theorem foldlM_addDigit? {digits : List Char} (h : n < Nat.pow 2 bits) :
    digits.foldlM (addDigit? bits) n = fits? bits (Nat.ofDigitChars 10 digits n) := by
  induction digits generalizing n with
  | nil => exact (fits?_of_lt h).symm
  | cons c digits ih =>
      rw [List.foldlM_cons, Nat.ofDigitChars_cons, addDigit?_eq]
      by_cases hnext : 10 * n + (c.toNat - '0'.toNat) < Nat.pow 2 bits
      · rw [fits?_of_lt hnext, ← ih hnext]
        rfl
      · have hlast := le_ofDigitChars digits (10 * n + (c.toNat - '0'.toNat))
        rw [fits?_of_le (by omega), fits?_of_le (by omega)]
        rfl

theorem digitsWithin?_eq (bits : Nat) (digits : List Char) :
    digitsWithin? bits digits = fits? bits (Nat.ofDigitChars 10 digits 0) :=
  foldlM_addDigit? (Nat.two_pow_pos bits)

end Text

namespace Duration

def units : List (Char × Nat) := [('d', 1), ('w', 7), ('m', 31), ('y', 365)]

/-- The text is a run of digits and the letter of a unit, which has so many days. Blanks may stand
before, between and after them. -/
def Spells (text digits : List Char) (unit : Nat) : Prop :=
  ∃ before between letter after, text = before ++ (digits ++ (between ++ letter :: after)) ∧
    (∀ c ∈ before ++ between ++ after, Text.isBlank c) ∧ digits ≠ [] ∧ (∀ c ∈ digits, c.isDigit) ∧
      (letter, unit) ∈ units

def daysOf (digits : List Char) (unit : Nat) : Nat := Nat.ofDigitChars 10 digits 0 * unit

variable {text digits : List Char} {letter : Char} {unit : Nat}

theorem daysOfUnit?_eq_some_iff : daysOfUnit? letter = some unit ↔ (letter, unit) ∈ units := by
  unfold daysOfUnit?
  split <;> simp_all [units, eq_comm]

theorem isAlpha_of_mem_units (h : (letter, unit) ∈ units) : letter.isAlpha ∧ 0 < unit := by
  simp only [units, List.mem_cons, Prod.mk.injEq, List.not_mem_nil, or_false] at h
  rcases h with ⟨rfl, rfl⟩ | ⟨rfl, rfl⟩ | ⟨rfl, rfl⟩ | ⟨rfl, rfl⟩ <;> decide

/-- The words are wide enough for every duration that is not too long. -/
theorem days?_eq (digits : List Char) (h : 0 < unit) : days? digits unit =
    if daysOf digits unit ≤ maxDays then some (daysOf digits unit) else none := by
  have hcount : Nat.ofDigitChars 10 digits 0 ≤ daysOf digits unit := Nat.le_mul_of_pos_right _ h
  have hmax : maxDays < Nat.pow 2 32 := by decide
  have hwords : Nat.pow 2 32 < Nat.pow 2 64 := by decide
  rw [days?, Text.digitsWithin?_eq]
  by_cases hfits : daysOf digits unit < Nat.pow 2 64
  · rw [Text.fits?_of_lt (hcount.trans_lt hfits)]
    show (Text.fits? 64 (daysOf digits unit)).bind _ = _
    rw [Text.fits?_of_lt hfits, Option.bind_some]
    by_cases hle : daysOf digits unit ≤ maxDays
    · rw [if_neg (Nat.not_lt.mpr hle), if_pos hle, Text.fits?_of_lt (hle.trans_lt hmax)]
    · rw [if_pos (Nat.not_le.mp hle), if_neg hle]
  · rw [if_neg (by omega)]
    by_cases hread : Nat.ofDigitChars 10 digits 0 < Nat.pow 2 64
    · rw [Text.fits?_of_lt hread]
      show (Text.fits? 64 (daysOf digits unit)).bind _ = _
      rw [Text.fits?_of_le (Nat.not_lt.mp hfits), Option.bind_none]
    · rw [Text.fits?_of_le (Nat.not_lt.mp hread)]
      rfl

theorem Spells.parts? (h : Spells text digits unit) : parts? text = some (digits, unit) := by
  obtain ⟨before, between, letter, after, rfl, hblank, hne, hdigits, hunit⟩ := h
  simp only [List.mem_append, or_imp, forall_and] at hblank
  obtain ⟨⟨hbefore, hbetween⟩, hafter⟩ := hblank
  have halpha := (isAlpha_of_mem_units hunit).1
  have hrest : Written.NoDigit (between ++ letter :: after) := by
    intro c hc
    cases between with
    | nil =>
        obtain rfl := Option.some.inj hc
        exact Text.isDigit_of_isAlpha halpha
    | cons e between =>
        obtain rfl := Option.some.inj hc
        exact Text.isDigit_of_isBlank (hbetween _ List.mem_cons_self)
  have hstart : Text.skipBlanks (before ++ (digits ++ (between ++ letter :: after))) =
      digits ++ (between ++ letter :: after) := by
    rw [Text.skipBlanks_append hbefore, Written.skipBlanks_digits hdigits hne]
  have hrun : (digits ++ (between ++ letter :: after)).takeWhile Char.isDigit = digits := by
    rw [List.takeWhile_append_of_pos hdigits, hrest.takeWhile, List.append_nil]
  have hletter : Text.skipBlanks (between ++ letter :: after) = letter :: after := by
    rw [Text.skipBlanks_append hbetween]
    exact Text.skipBlanks_cons_of_neg (Text.isBlank_of_isAlpha halpha) _
  have hend : Text.skipBlanks after = [] := List.dropWhile_eq_nil_iff.mpr hafter
  obtain ⟨d, run, rfl⟩ := List.exists_cons_of_ne_nil hne
  simp only [Duration.parts?, hstart, hrun, List.drop_left, hletter, hend,
    if_true, daysOfUnit?_eq_some_iff.mpr hunit, Option.map_some]

theorem exists_blanks (text : List Char) :
    ∃ gap, text = gap ++ Text.skipBlanks text ∧ ∀ c ∈ gap, Text.isBlank c :=
  ⟨text.takeWhile Text.isBlank, List.takeWhile_append_dropWhile.symm,
    fun _ => List.mem_takeWhile_imp⟩

theorem spells_of_parts? (h : Duration.parts? text = some (digits, unit)) :
    Spells text digits unit := by
  obtain ⟨before, hbefore, hblank⟩ := exists_blanks text
  rw [Duration.parts?] at h
  generalize Text.skipBlanks text = body at hbefore h
  obtain ⟨between, hbetween, hblank'⟩ :=
    exists_blanks (body.drop (body.takeWhile Char.isDigit).length)
  split at h
  · cases h
  · cases h
  · rename_i letter after hletter hne
    split_ifs at h with hend
    obtain ⟨days, hdays, heq⟩ := Option.map_eq_some_iff.mp h
    obtain ⟨rfl, rfl⟩ := Prod.mk.inj heq
    refine ⟨before, between, letter, after, ?_, ?_, hne, fun _ => List.mem_takeWhile_imp,
      daysOfUnit?_eq_some_iff.mp hdays⟩
    · have hrun := List.prefix_iff_eq_append.mp (List.takeWhile_prefix (l := body) Char.isDigit)
      rw [← hletter, ← hbetween, hrun, ← hbefore]
    · simp only [List.mem_append, or_imp, forall_and]
      exact ⟨⟨hblank, hblank'⟩, List.dropWhile_eq_nil_iff.mp hend⟩

theorem Spells.exists_iff (h : Spells text digits unit) (p : List Char → Nat → Prop) :
    (∃ digits unit, Spells text digits unit ∧ p digits unit) ↔ p digits unit := by
  constructor
  · rintro ⟨digits', unit', h', hp⟩
    obtain ⟨rfl, rfl⟩ := Prod.mk.inj (Option.some.inj (h'.parts?.symm.trans h.parts?))
    exact hp
  · exact fun hp => ⟨digits, unit, h, hp⟩

end Duration

namespace Settings

variable {text : String} {digits : List Char} {unit : Nat}

theorem duration_of_spells (h : Duration.Spells text.toList digits unit) :
    duration text = if Duration.daysOf digits unit ≤ Duration.maxDays
      then .ok (Duration.daysOf digits unit) else .error (.tooLong text) := by
  have hparts := h.parts?
  obtain ⟨-, -, letter, -, -, -, -, -, hunit⟩ := h
  simp only [duration, Duration.ofText, hparts,
    Duration.days?_eq digits (Duration.isAlpha_of_mem_units hunit).2]
  split_ifs <;> rfl

theorem duration_of_not_spells (h : ¬ ∃ digits unit, Duration.Spells text.toList digits unit) :
    duration text = .error (.duration text) := by
  have hparts : Duration.parts? text.toList = none := by
    rw [Option.eq_none_iff_forall_ne_some]
    rintro ⟨digits, unit⟩ hsome
    exact h ⟨digits, unit, Duration.spells_of_parts? hsome⟩
  simp only [duration, Duration.ofText, hparts]

/-- A duration is taken at its exact value, however many digits it has. It is accepted just when it
has the shape of a duration and comes to 36600 days at most, it is too long just when it has the
shape and comes to more, and it is malformed just when it does not have the shape. -/
theorem duration_exact (text : String) :
    (∀ n, duration text = .ok n ↔ ∃ digits unit, Duration.Spells text.toList digits unit ∧
      Nat.ofDigitChars 10 digits 0 * unit = n ∧ n ≤ 36600) ∧
    (duration text = .error (.tooLong text) ↔ ∃ digits unit,
      Duration.Spells text.toList digits unit ∧ 36600 < Nat.ofDigitChars 10 digits 0 * unit) ∧
    (duration text = .error (.duration text) ↔
      ¬ ∃ digits unit, Duration.Spells text.toList digits unit) := by
  by_cases h : ∃ digits unit, Duration.Spells text.toList digits unit
  · obtain ⟨digits, unit, hspells⟩ := h
    have hspelled : ∃ digits unit, Duration.Spells text.toList digits unit := ⟨_, _, hspells⟩
    rw [duration_of_spells hspells, Duration.daysOf, Duration.maxDays]
    refine ⟨fun n => ?_, ?_, ?_⟩
    · rw [hspells.exists_iff fun digits unit => Nat.ofDigitChars 10 digits 0 * unit = n ∧ n ≤ 36600]
      split_ifs with hle
      · rw [Except.ok.injEq]
        exact ⟨fun heq => ⟨heq, heq ▸ hle⟩, And.left⟩
      · simp only [false_iff]
        rintro ⟨rfl, hn⟩
        exact hle hn
    · rw [hspells.exists_iff fun digits unit => 36600 < Nat.ofDigitChars 10 digits 0 * unit]
      split_ifs with hle
      · simp [hle]
      · simpa using hle
    · split_ifs <;> simpa using hspelled
  · have hnone : ∀ p : List Char → Nat → Prop,
        ¬ ∃ digits unit, Duration.Spells text.toList digits unit ∧ p digits unit := by
      rintro p ⟨digits, unit, hspells, -⟩
      exact h ⟨digits, unit, hspells⟩
    simp only [duration_of_not_spells h, reduceCtorEq, hnone, h, not_false_eq_true, implies_true,
      Except.error.injEq, and_self]

example : duration " 0000000000000000000000100 y" = .ok 36500 ∧
    duration "18446744073709551617d" = .error (.tooLong "18446744073709551617d") := by
  decide +kernel

end Settings

end Forecast
