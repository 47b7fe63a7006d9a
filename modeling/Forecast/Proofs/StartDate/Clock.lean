import Forecast.Proofs.Calendar.Spelled
import Forecast.Proofs.Phrase.Day

namespace Forecast

namespace Written

variable {d : Date} {after : List Char}

theorem yearText_of_nonneg {year : Int} (h : 0 ≤ year ∧ year ≤ 9999) :
    Date.yearText year = Text.padded 4 year.natAbs := by
  rw [Date.yearText, if_neg (by omega), if_neg (by omega)]

theorem text_append (hyear : 0 ≤ d.year ∧ d.year ≤ 9999) (after : List Char) :
    d.text.toList ++ after = (Text.padded 4 d.year.natAbs).toList ++ '-' ::
      ((Text.padded 2 d.month).toList ++ '-' :: ((Text.padded 2 d.day).toList ++ after)) := by
  simp [Date.text, yearText_of_nonneg hyear]

theorem noDigit_hyphen (rest : List Char) : NoDigit ('-' :: rest) := by
  rintro c ⟨⟩
  rfl

theorem date?_text_append (hyear : 0 ≤ d.year ∧ d.year ≤ 9999) (hafter : NoDigit after)
    (hne : after ≠ []) : Written.date? (d.text.toList ++ after) = none := by
  have hread := (spells_text d).read?_append (isChain_of_mem_formats hyphenated List.mem_cons_self)
    (by rintro item ⟨⟩; exact hafter)
  have hlength := length_padded_year (n := d.year.natAbs) (by omega)
  have hfront := readYear?_append (isNumeral_padded 4 d.year.natAbs) hlength.le (noDigit_hyphen
    ((Text.padded 2 d.month).toList ++ '-' :: ((Text.padded 2 d.day).toList ++ after)))
  rw [← text_append hyear] at hfront
  cases hdate : Written.date? (d.text.toList ++ after) with
  | none => rfl
  | some e =>
      obtain ⟨format, hformat, h⟩ := (findSome?_eq_some_iff (List.Perm.refl formats)).mp hdate
      obtain ⟨fields, h, -⟩ := Option.bind_eq_some_iff.mp (date?_ofText hformat h)
      simp only [Style.ofText, hfront, Style.format, hread, hne, if_false] at h
      cases h

end Written

namespace Phrase

open Reader Written

variable {n : Nat} {v rest : List Char}

namespace Clock

variable {c : Clock} {d e : Date}

theorem seconds_lt {s : Nat} (h : c.seconds? = some s) : s < 86400 := by
  rw [seconds?] at h
  split at h
  · obtain rfl := Option.some.inj h
    omega
  · cases h

theorem date?_eq_some_iff : c.date? d = some e ↔
    ∃ s, c.seconds? = some s ∧ e.number = (86400 * d.number + s - c.offset) / 86400 := by
  rw [date?, Option.bind_eq_bind, Option.bind_eq_some_iff]
  simp only [Date.ofNumber?_eq_some_iff]

theorem date?_midnight (d : Date) : midnight.date? d = some d :=
  date?_eq_some_iff.mpr ⟨0, rfl, by simp [midnight]⟩

theorem eq_iff_of_date? {s : Nat} (hnumber : e.number = (86400 * d.number + s - c.offset) / 86400) :
    e = d ↔ 0 ≤ s - c.offset ∧ s - c.offset < 86400 := by
  constructor
  · rintro rfl
    omega
  · intro h
    exact Date.number_injective (by omega)

end Clock

theorem next_numeral (h : IsNumeral n v) (hrest : NoDigit rest) :
    Token.next (v ++ rest) = (.number n, rest) := by
  obtain ⟨c, w, rfl⟩ := List.exists_cons_of_ne_nil h.ne_nil
  have hc := h.isDigit c List.mem_cons_self
  have hw : (w ++ rest).takeWhile Char.isDigit = w := by
    rw [List.takeWhile_append_of_pos fun c hc => h.isDigit c (List.mem_cons_of_mem _ hc),
      hrest.takeWhile, List.append_nil]
  have hnull : c ≠ '\x00' := by
    rintro rfl
    cases hc
  rw [Token.next, if_neg (by simpa using hnull), List.cons_append,
    Text.skipBlanks_cons_of_neg (Text.isBlank_of_isDigit hc), Token.start, if_pos hc]
  simp only [hw, h.value, List.drop_left]

theorem next_hyphen (rest : List Char) : Token.next ('-' :: rest) = (.mark '-', rest) := by
  rw [Token.next, if_neg (by simp), Text.skipBlanks_cons_of_neg (by decide), Token.start,
    if_neg (by decide), if_neg (by decide +kernel), if_neg (by decide)]

theorem token_of_next {text rest : List Char} {t : Token} (h : Token.next text = (t, rest)) :
    token text = .ok (t, rest) := by
  rw [← h]
  rfl

theorem number_numeral (h : IsNumeral n v) (hrest : NoDigit rest) :
    number (v ++ rest) = .ok (n, rest) :=
  bind_of_ok (token_of_next (next_numeral h hrest))

theorem markOf_hyphen (rest : List Char) : markOf '-' ('-' :: rest) = .ok ((), rest) := by
  have hmark : mark ('-' :: rest) = .ok ('-', rest) := bind_of_ok (token_of_next (next_hyphen rest))
  exact bind_of_ok hmark

theorem readDay_of_number {text : List Char} (h : Token.next text = (.number n, rest)) :
    readDay text = readNumberedDay false none n rest := by
  rw [readDay_eq, bind_of_ok (token_of_next h)]
  rfl

theorem readDay_text {d : Date} (hyear : 0 ≤ d.year ∧ d.year ≤ 9999) (hrest : NoDigit rest) :
    readDay (d.text.toList ++ rest) =
      .ok ((some (.absolute d.year d.month d.day), .nothing), rest) := by
  have hy := next_numeral (isNumeral_padded 4 d.year.natAbs) (noDigit_hyphen
    ((Text.padded 2 d.month).toList ++ '-' :: ((Text.padded 2 d.day).toList ++ rest)))
  have hm := number_numeral (isNumeral_padded 2 d.month) (noDigit_hyphen
    ((Text.padded 2 d.day).toList ++ rest))
  have hd := number_numeral (isNumeral_padded 2 d.day) hrest
  have hcast : (d.year.natAbs : Int) = d.year := Int.natAbs_of_nonneg hyear.1
  rw [text_append hyear, readDay_of_number hy, readNumberedDay,
    bind_of_ok (token_of_next (next_hyphen _))]
  refine (bind_of_ok hm).trans ((bind_of_ok (markOf_hyphen _)).trans ((bind_of_ok hd).trans ?_))
  rw [hcast]
  rfl

/-- A date with a text behind it means the day on which it is the time of that text, midnight if
there is none. -/
theorem date_text {d : Date} (hyear : 0 ≤ d.year ∧ d.year ≤ 9999) (hrest : NoDigit rest)
    (today : Date) : Phrase.date today (d.text.toList ++ rest) =
      (readFreshTime rest).bind fun (clock, _) =>
        ((clock.getD .midnight).date? d).elim (.error .badDate) .ok := by
  have hparts : Date.ofParts? d.year d.month d.day = some d :=
    Date.ofParts?_eq_some_iff.mpr ⟨rfl, rfl, rfl⟩
  have hread : read (d.text.toList ++ rest) = (do
      let clock ← readFreshTime
      return (some (Day.absolute d.year d.month d.day), clock)) rest :=
    bind_of_ok (readDay_text hyear hrest)
  rw [Phrase.date, hread]
  cases hfresh : readFreshTime rest with
  | error e =>
      rw [bind_of_error hfresh]
      rfl
  | aborted why =>
      rw [bind_of_aborted hfresh]
      rfl
  | ok result =>
      obtain ⟨clock, rest'⟩ := result
      rw [bind_of_ok hfresh]
      change Day.resolve today clock (Day.absolute d.year d.month d.day) =
        ((clock.getD .midnight).date? d).elim (.error .badDate) .ok
      rw [Day.resolve, hparts]
      cases clock with
      | none => rw [Option.getD_none, Clock.date?_midnight]
      | some c => rfl

theorem exists_clock_of_date {today d e : Date} (hyear : 0 ≤ d.year ∧ d.year ≤ 9999)
    (hrest : NoDigit rest) (h : Phrase.date today (d.text.toList ++ rest) = .ok e) :
    ∃ clock rest', readFreshTime rest = .ok (clock, rest') ∧
      (clock.getD .midnight).date? d = some e := by
  rw [date_text hyear hrest] at h
  cases hfresh : readFreshTime rest with
  | error e | aborted why =>
      rw [hfresh] at h
      cases h
  | ok result =>
      obtain ⟨clock, rest'⟩ := result
      rw [hfresh] at h
      change ((clock.getD .midnight).date? d).elim _ _ = _ at h
      refine ⟨clock, rest', rfl, ?_⟩
      cases hclock : (clock.getD .midnight).date? d with
      | none =>
          rw [hclock] at h
          cases h
      | some e' =>
          rw [hclock] at h
          exact congrArg some (Result.ok.inj h)

end Phrase

namespace StartDate

theorem exceeds_mono {limit n m : Nat} (hnm : n ≤ m) {text : List Char}
    (h : exceeds limit m text = false) : exceeds limit n text = false := by
  induction text generalizing n m with
  | nil =>
      rw [exceeds, decide_eq_false_iff_not] at h ⊢
      omega
  | cons c rest ih =>
      rw [exceeds] at h ⊢
      split_ifs at h ⊢ with hc
      · exact ih (by omega) h
      · simp only [Bool.or_eq_false_iff, decide_eq_false_iff_not] at h ⊢
        exact ⟨by omega, h.2⟩

theorem foldl_takeWhile_le {limit n : Nat} {text : List Char} (h : exceeds limit n text = false) :
    (text.takeWhile Char.isDigit).foldl (fun n c => 10 * n + (c.toNat - '0'.toNat)) n ≤ limit := by
  induction text generalizing n with
  | nil =>
      rw [exceeds, decide_eq_false_iff_not] at h
      exact Nat.le_of_not_lt h
  | cons c rest ih =>
      rw [exceeds] at h
      split_ifs at h with hc
      · have hdigit : Text.digitsValue [c] + 10 * n = 10 * n + (c.toNat - '0'.toNat) := by
          rw [Text.digitsValue, List.foldl_cons, List.foldl_nil, Nat.mul_zero, Nat.zero_add,
            Nat.add_comm]
        rw [List.takeWhile_cons_of_pos hc, List.foldl_cons, ← hdigit]
        exact ih h
      · simp only [Bool.or_eq_false_iff, decide_eq_false_iff_not] at h
        rw [List.takeWhile_cons_of_neg hc]
        exact Nat.le_of_not_lt h.1

theorem exceeds_of_suffix {limit : Nat} {text rest : List Char} (h : exceeds limit 0 text = false)
    (hrest : rest <:+ text) : exceeds limit 0 rest = false := by
  induction text with
  | nil => rwa [List.suffix_nil.mp hrest]
  | cons c text ih =>
      rcases List.suffix_cons_iff.mp hrest with rfl | hrest
      · exact h
      · rw [exceeds] at h
        split_ifs at h
        · exact ih (exceeds_mono (Nat.zero_le _) h) hrest
        · exact ih (Bool.or_eq_false_iff.mp h).2 hrest

theorem limited_of_exceeds {text : List Char} (h : exceeds maxNumber 0 text = false) :
    Phrase.Limited text maxNumber :=
  ⟨by decide, fun _ hrest => foldl_takeWhile_le (exceeds_of_suffix h hrest)⟩

variable {d e today : Date}

theorem ofText_of_date?_eq_none {text : List Char} (hnone : Written.date? (Text.trim text) = none)
    (h : ofText today text = .ok e) :
    exceeds maxNumber 0 (Text.trim text) = false ∧ Phrase.date today (Text.trim text) = .ok e := by
  simp only [ofText, hnone] at h
  split_ifs at h with hexceeds
  cases hdate : Phrase.date today (Text.trim text) with
  | error e | aborted why =>
      rw [hdate] at h
      cases h
  | ok e' =>
      rw [hdate] at h
      exact ⟨Bool.eq_false_iff.mpr hexceeds, congrArg _ (Result.ok.inj h)⟩

theorem trim_dated (d : Date) (behind : List Char) :
    Text.trim (d.text.toList ++ ' ' :: behind) = d.text.toList ++ Text.trimEnd (' ' :: behind) :=
  (Written.spells_text d).trim_append List.mem_cons_self (List.forall_mem_nil _) (' ' :: behind)

theorem exists_clock_of_ofText {behind : List Char} (hyear : 0 ≤ d.year ∧ d.year ≤ 9999)
    (h : ofText today (d.text.toList ++ ' ' :: behind) = .ok e) :
    ∃ clock rest, Phrase.readFreshTime (Text.trimEnd (' ' :: behind)) = .ok (clock, rest) ∧
      (∀ c ∈ clock, c.Within (Text.trimEnd (' ' :: behind)) maxNumber) ∧
      (clock.getD .midnight).date? d = some e := by
  have htrim := trim_dated d behind
  have hprefix := Text.isPrefix_trimEnd (' ' :: behind)
  generalize Text.trimEnd (' ' :: behind) = after at *
  cases after with
  | nil =>
      have hdate := (Written.spells_text d).writtenDate? List.mem_cons_self
      rw [List.append_nil] at htrim
      simp only [ofText, htrim, hdate] at h
      obtain rfl := Result.ok.inj h
      exact ⟨none, [], rfl, by rintro c ⟨⟩, Phrase.Clock.date?_midnight d⟩
  | cons c after =>
      obtain rfl := (List.cons_prefix_cons.mp hprefix).1
      have hnodigit : Written.NoDigit (' ' :: after) := by
        rintro c ⟨⟩
        rfl
      have hnone := Written.date?_text_append hyear hnodigit (List.cons_ne_nil _ _)
      obtain ⟨hexceeds, hdate⟩ := ofText_of_date?_eq_none (htrim ▸ hnone) h
      rw [htrim] at hexceeds hdate
      obtain ⟨clock, rest, hfresh, hclock⟩ := Phrase.exists_clock_of_date hyear hnodigit hdate
      have hlimited := limited_of_exceeds (exceeds_of_suffix hexceeds (List.suffix_append _ _))
      have hwithin := Phrase.yields_readFreshTime hlimited (' ' :: after) List.suffix_rfl
      rw [hfresh] at hwithin
      exact ⟨clock, rest, hfresh, hwithin.1, hclock⟩

/-- The date is the one written just when the clock time, less its offset, falls on the same day in
universal time; so it is whenever the text behind the date has no sign. -/
theorem ofText_dated {behind : List Char} (hyear : 0 ≤ d.year ∧ d.year ≤ 9999)
    (h : ofText today (d.text.toList ++ ' ' :: behind) = .ok e) :
    (∃ clock rest s, Phrase.readFreshTime (Text.trimEnd (' ' :: behind)) = .ok (clock, rest) ∧
      (clock.getD .midnight).seconds? = some s ∧
      e.number = (86400 * d.number + s - (clock.getD .midnight).offset) / 86400 ∧
      (e = d ↔ 0 ≤ s - (clock.getD .midnight).offset ∧
        s - (clock.getD .midnight).offset < 86400)) ∧
    ('+' ∉ behind → '-' ∉ behind → e = d) := by
  obtain ⟨clock, rest, hfresh, hwithin, hdate⟩ := exists_clock_of_ofText hyear h
  obtain ⟨s, hs, hnumber⟩ := Phrase.Clock.date?_eq_some_iff.mp hdate
  have heq := Phrase.Clock.eq_iff_of_date? hnumber
  refine ⟨⟨clock, rest, s, hfresh, hs, hnumber, heq⟩, fun hplus hminus => heq.mpr ?_⟩
  have hoffset : (clock.getD .midnight).offset = 0 := by
    cases clock with
    | none => rfl
    | some c =>
        have hsubset := (Text.isPrefix_trimEnd (' ' :: behind)).subset
        by_contra hne
        rcases (hwithin c rfl).sign hne with hsign | hsign
        · exact hplus (List.mem_of_ne_of_mem (by decide) (hsubset hsign))
        · exact hminus (List.mem_of_ne_of_mem (by decide) (hsubset hsign))
  have := Phrase.Clock.seconds_lt hs
  omega

theorem ofText_dated_evening :
    ∃ e, ofText ⟨2000, 2, 2, by decide, by decide, by decide⟩
        ((⟨2024, 3, 5, by decide, by decide, by decide⟩ : Date).text.toList ++
          ' ' :: "8:30:20.5 pm".toList) = .ok e ∧
      e = ⟨2024, 3, 5, by decide, by decide, by decide⟩ := by
  have h : ofText ⟨2000, 2, 2, by decide, by decide, by decide⟩
      ((⟨2024, 3, 5, by decide, by decide, by decide⟩ : Date).text.toList ++
        ' ' :: "8:30:20.5 pm".toList) =
      .ok ⟨2024, 3, 5, by decide, by decide, by decide⟩ := by decide +kernel
  exact ⟨_, h, (ofText_dated (by decide) h).2 (by decide) (by decide)⟩

theorem not_dated_aheadOfUniversal :
    ∃ e, ofText ⟨2000, 2, 2, by decide, by decide, by decide⟩
        ((⟨2024, 3, 5, by decide, by decide, by decide⟩ : Date).text.toList ++
          ' ' :: "00:00:00 +00:01".toList) = .ok e ∧
      e ≠ ⟨2024, 3, 5, by decide, by decide, by decide⟩ :=
  ⟨⟨2024, 3, 4, by decide, by decide, by decide⟩, by decide +kernel⟩

end StartDate

end Forecast
