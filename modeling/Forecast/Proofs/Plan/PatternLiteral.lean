import Forecast.Proofs.Calendar.Pattern
import Forecast.Proofs.Plan.Unplaced
import Forecast.Proofs.Script.RoundTrip
import Forecast.Proofs.Script.WellFormed

namespace Forecast

theorem clampPart_clampPart (v : Int) : clampPart (clampPart v) = clampPart v := by
  rw [clampPart, clampPart]
  omega

theorem natAbs_clampPart_lt (v : Int) : (clampPart v).natAbs < Nat.pow 2 63 := by
  have hpow : Nat.pow 2 63 = 9223372036854775808 := rfl
  rw [hpow, clampPart]
  omega

namespace PartLiteral

variable {p : PartLiteral}

def uncut (p : PartLiteral) : DatePart := p.value.elim .any .exact

theorem is_part_iff {value : Int} (h : -2147483648 < value ∧ value < 2147483647) :
    p.part.Is value ↔ p.uncut.Is value := by
  rw [part, uncut]
  cases p.value with
  | none => rfl
  | some v =>
      simp only [Option.elim_some, DatePart.Is, clampPart]
      omega

theorem isDayOf_part_iff {d : Date} : p.part.IsDayOf d ↔ p.uncut.IsDayOf d := by
  have hday := d.day_mem
  have hlength := DatePattern.monthLength_le d.year d.month
  rw [part, uncut]
  cases p.value with
  | none => rfl
  | some v =>
      simp only [Option.elim_some, DatePart.IsDayOf, clampPart]
      omega

end PartLiteral

namespace PatternLiteral

variable {l : PatternLiteral} {p : DatePattern} {e : DatePattern.Error}

theorem eq_parts_of_pattern (h : l.pattern = .ok p) :
    p = .parts l.year.part l.month.part l.day.part :=
  (DatePattern.ofParts_eq_ok_iff.mp h).2.2.2

theorem covers_pattern_iff (h : l.pattern = .ok p) (d : Date) : p.covers d = true ↔
    l.year.uncut.Is d.year ∧ l.month.uncut.Is d.month ∧ l.day.uncut.IsDayOf d := by
  obtain ⟨-, -, hday, rfl⟩ := DatePattern.ofParts_eq_ok_iff.mp h
  have hy := d.year_mem
  have hm := d.month_mem
  rw [firstYear, lastYear] at hy
  rw [DatePattern.covers_parts_iff hday, PartLiteral.is_part_iff (by omega),
    PartLiteral.is_part_iff (by omega), PartLiteral.isDayOf_part_iff]

/-- The part that an error is about is out of range, and those before it are not. -/
inductive FirstWrong (l : PatternLiteral) : DatePattern.Error → Span → Prop
  | year {y : Int} (hy : l.year.value = some y) (hout : ¬ 0 ≤ y) :
      FirstWrong l (.negativeYear (clampPart y)) l.year.span
  | month {m : Int} (hyear : ∀ y ∈ l.year.value, 0 ≤ y) (hm : l.month.value = some m)
      (hout : ¬ (1 ≤ m ∧ m ≤ 12)) : FirstWrong l (.monthOutOfRange (clampPart m)) l.month.span
  | day {d : Int} (hyear : ∀ y ∈ l.year.value, 0 ≤ y) (hmonth : ∀ m ∈ l.month.value, 1 ≤ m ∧ m ≤ 12)
      (hd : l.day.value = some d) (hout : ¬ (1 ≤ d ∧ d ≤ 31 ∨ -31 ≤ d ∧ d ≤ -1)) :
      FirstWrong l (.dayOutOfRange (clampPart d)) l.day.span

theorem exists_of_check_eq_error {check : DatePart → Except DatePattern.Error Unit}
    {P : Int → Prop} {fault : Int → DatePattern.Error} (hany : check .any = .ok ())
    (hexact : ∀ v, check (.exact v) = .error e → ¬ P v ∧ e = fault v)
    (hclamp : ∀ v, P (clampPart v) ↔ P v) {p : PartLiteral} (h : check p.part = .error e) :
    ∃ v, p.value = some v ∧ ¬ P v ∧ e = fault (clampPart v) := by
  rw [PartLiteral.part] at h
  cases hvalue : p.value with
  | none => simp [hvalue, hany] at h
  | some v =>
      rw [hvalue, Option.elim_some] at h
      obtain ⟨hP, he⟩ := hexact _ h
      exact ⟨v, rfl, mt (hclamp v).mpr hP, he⟩

theorem exists_of_checkYear_eq_error {p : PartLiteral}
    (h : DatePattern.checkYear p.part = .error e) :
    ∃ y, p.value = some y ∧ ¬ 0 ≤ y ∧ e = .negativeYear (clampPart y) := by
  refine exists_of_check_eq_error rfl (fun v hv => ?_) (fun v => ?_) h
  · rw [DatePattern.checkYear] at hv
    split_ifs at hv with hneg
    · exact ⟨Int.not_le.mpr hneg, (Except.error.inj hv).symm⟩
    · cases hv
  · rw [clampPart]
    omega

theorem exists_of_checkMonth_eq_error {p : PartLiteral}
    (h : DatePattern.checkMonth p.part = .error e) :
    ∃ m, p.value = some m ∧ ¬ (1 ≤ m ∧ m ≤ 12) ∧ e = .monthOutOfRange (clampPart m) := by
  refine exists_of_check_eq_error rfl (fun v hv => ?_) (fun v => ?_) h
  · rw [DatePattern.checkMonth] at hv
    split_ifs at hv with hin
    · cases hv
    · exact ⟨hin, (Except.error.inj hv).symm⟩
  · rw [clampPart]
    omega

theorem exists_of_checkDay_eq_error {p : PartLiteral}
    (h : DatePattern.checkDay p.part = .error e) :
    ∃ d, p.value = some d ∧ ¬ (1 ≤ d ∧ d ≤ 31 ∨ -31 ≤ d ∧ d ≤ -1) ∧
      e = .dayOutOfRange (clampPart d) := by
  refine exists_of_check_eq_error rfl (fun v hv => ?_) (fun v => ?_) h
  · rw [DatePattern.checkDay] at hv
    split_ifs at hv with hin
    · cases hv
    · exact ⟨by omega, (Except.error.inj hv).symm⟩
  · rw [clampPart]
    omega

theorem firstWrong_of_pattern (h : l.pattern = .error e) : l.FirstWrong e (l.blamed e) := by
  rw [pattern, DatePattern.ofParts] at h
  cases hyear : DatePattern.checkYear l.year.part with
  | error e' =>
      obtain rfl : e' = e := by simpa [hyear, bind, Except.bind] using h
      obtain ⟨y, hy, hout, rfl⟩ := exists_of_checkYear_eq_error hyear
      exact .year hy hout
  | ok u =>
      have hyear' := (DatePattern.exists_checkYear_iff l.year).mp ⟨u, hyear⟩
      cases hmonth : DatePattern.checkMonth l.month.part with
      | error e' =>
          obtain rfl : e' = e := by simpa [hyear, hmonth, bind, Except.bind] using h
          obtain ⟨m, hm, hout, rfl⟩ := exists_of_checkMonth_eq_error hmonth
          exact .month hyear' hm hout
      | ok u =>
          have hmonth' := (DatePattern.exists_checkMonth_iff l.month).mp ⟨u, hmonth⟩
          cases hday : DatePattern.checkDay l.day.part with
          | error e' =>
              obtain rfl : e' = e := by simpa [hyear, hmonth, hday, bind, Except.bind] using h
              obtain ⟨d, hd, hout, rfl⟩ := exists_of_checkDay_eq_error hday
              exact .day hyear' hmonth' hd hout
          | ok u => simp [hyear, hmonth, hday, bind, Except.bind, pure, Except.pure] at h

end PatternLiteral

def DatePart.literal : DatePart → PartLiteral
  | .any => ⟨none, ⟨0, 0⟩⟩
  | .exact v => ⟨some v, ⟨0, 0⟩⟩

namespace PatternLiteral

def kept (l : PatternLiteral) : PatternLiteral :=
  ⟨l.year.part.literal, l.month.part.literal, l.day.part.literal⟩

end PatternLiteral

theorem PartLiteral.part_literal_part (p : PartLiteral) : p.part.literal.part = p.part := by
  obtain ⟨value, span⟩ := p
  cases value with
  | none => rfl
  | some v => exact congrArg DatePart.exact (clampPart_clampPart v)

theorem PartLiteral.writable_literal_part (p : PartLiteral) : p.part.literal.Writable := by
  rw [part]
  cases p.value with
  | none => rintro w ⟨⟩
  | some v =>
      intro w hw
      obtain rfl := Option.some.inj hw
      exact natAbs_clampPart_lt v

theorem DatePart.flatMap_words_literal (part : DatePart) :
    part.literal.words.flatMap Word.text = (DatePattern.partText part).toList := by
  match part with
  | .any => rfl
  | .exact (.ofNat n) =>
      have htext : DatePattern.partText (.exact (.ofNat n)) = Nat.repr n := rfl
      rw [htext, Nat.toList_repr]
      simp [literal, PartLiteral.words, Word.integer]
  | .exact (.negSucc n) =>
      have htext : DatePattern.partText (.exact (.negSucc n)) = "-" ++ Nat.repr (n + 1) := rfl
      rw [htext, String.toList_append, Nat.toList_repr]
      simp [literal, PartLiteral.words, Word.integer, Word.symbol, Symbol.chars]

namespace PatternLiteral

variable {l : PatternLiteral} {p : DatePattern}

theorem pattern_kept (l : PatternLiteral) : l.kept.pattern = l.pattern := by
  rw [pattern, pattern, kept]
  simp only [PartLiteral.part_literal_part]

theorem writable_kept (l : PatternLiteral) : l.kept.Writable :=
  ⟨l.year.writable_literal_part, l.month.writable_literal_part, l.day.writable_literal_part⟩

theorem flatMap_words_kept (h : l.pattern = .ok p) :
    l.kept.words.flatMap Word.text = p.text.toList := by
  obtain rfl := eq_parts_of_pattern h
  have htext : (DatePattern.parts l.year.part l.month.part l.day.part).text =
      DatePattern.partText l.year.part ++ "-" ++ DatePattern.partText l.month.part ++ "-" ++
        DatePattern.partText l.day.part := rfl
  rw [htext]
  simp [kept, words, DatePart.flatMap_words_literal, Word.symbol, Symbol.chars]

end PatternLiteral

namespace Piece

/-- A text whose first character makes no part of a date before it longer. -/
def EndsPart (after : List Char) : Prop := ∀ c ∈ after.head?, c.isDigit = false ∧ c ≠ '.' ∧ c ≠ '='

variable {after : List Char} {words : List Word}

theorem digitRun_append_of_endsPart {l : List Char} (hl : ∀ c ∈ l, c.isDigit)
    (hafter : EndsPart after) : digitRun (l ++ after) = l.length := by
  have hnil : after.takeWhile Char.isDigit = [] := by
    cases after with
    | nil => rfl
    | cons c after => simp [(hafter c rfl).1]
  rw [digitRun, List.takeWhile_append_of_pos hl, hnil, List.append_nil]

theorem Cuts.integer (h : Cuts after words) (hafter : EndsPart after) (n : Nat) :
    Cuts ((Word.integer n).text ++ after) (.integer n :: words) := by
  obtain ⟨c, rest, htext⟩ := List.exists_cons_of_ne_nil (@Nat.toDigits_ne_nil n 10)
  have hdigits : ∀ d ∈ c :: rest, d.isDigit := fun d hd => Text.isDigit_of_mem_toDigits (htext ▸ hd)
  obtain ⟨hc, hrest⟩ := List.forall_mem_cons.mp hdigits
  have hrun := digitRun_append_of_endsPart hrest hafter
  have htail : numberTail (rest ++ after) = rest.length := by
    rw [numberTail_of_ne_point, hrun]
    rw [hrun, List.drop_left]
    rintro fraction rfl
    exact (hafter '.' rfl).2.1 rfl
  have hword : Word.integer n = ⟨.number, c :: rest⟩ := by rw [Word.integer, htext]
  rw [hword]
  exact h.cons_word (by rw [classify_of_isDigit hc, htail])

theorem symbol?_eq_self {s : Symbol} (hs : s = .star ∨ s = .minus) {c : Char} (hc : s.chars = [c])
    (hafter : after.head? ≠ some '=') : symbol? c after = some s := by
  have halone : Symbol.ofChars? [c] = some s := by
    rw [← hc]
    rcases hs with rfl | rfl <;> rfl
  cases after with
  | nil => rw [symbol?, List.take_nil, Option.or_self, halone]
  | cons d after =>
      have hpair : Symbol.ofChars? [c, d] = none := by
        rw [Symbol.ofChars?, List.find?_eq_none]
        intro s' _ hs'
        have hchars : s'.chars = [c, d] := by simpa using hs'
        have hd : d ≠ '=' := fun hd => hafter (congrArg some hd)
        rcases hs with rfl | rfl <;> obtain rfl := List.singleton_inj.mp hc.symm <;>
          cases s' <;> simp [Symbol.chars, hd.symm] at hchars
      rw [symbol?, List.take_succ_cons, List.take_zero, hpair, Option.none_or, halone]

theorem Cuts.symbol (h : Cuts after words) (hafter : after.head? ≠ some '=') {s : Symbol}
    (hs : s = .star ∨ s = .minus) : Cuts ((Word.symbol s).text ++ after) (.symbol s :: words) := by
  obtain ⟨c, hc⟩ : ∃ c, s.chars = [c] := by rcases hs with rfl | rfl <;> exact ⟨_, rfl⟩
  have hsymbol := symbol?_eq_self hs hc hafter
  have hclass : classify c ([] ++ after) = (.token (.symbol s), ([] : List Char).length) := by
    rw [classify]
    rcases hs with rfl | rfl <;> obtain rfl := List.singleton_inj.mp hc.symm <;>
      simp [isBlank, isWordStart, hsymbol, Symbol.chars]
  have hword : Word.symbol s = ⟨.symbol s, [c]⟩ := by rw [Word.symbol, hc]
  rw [hword]
  exact h.cons_word hclass

theorem head?_integer_ne (n : Nat) (rest : List Char) :
    ((Word.integer n).text ++ rest).head? ≠ some '=' := by
  obtain ⟨c, digits, htext⟩ := List.exists_cons_of_ne_nil (@Nat.toDigits_ne_nil n 10)
  have hc : c.isDigit := Text.isDigit_of_mem_toDigits (htext ▸ List.mem_cons_self)
  have htext' : (Word.integer n).text = c :: digits := htext
  rw [htext', List.cons_append, List.head?_cons]
  rintro ⟨⟩
  cases hc

theorem head?_part_ne (p : PartLiteral) (rest : List Char) :
    (p.words.flatMap Word.text ++ rest).head? ≠ some '=' := by
  obtain ⟨value, span⟩ := p
  match value with
  | none => exact nofun
  | some (.negSucc n) => exact nofun
  | some (.ofNat n) =>
      rw [PartLiteral.words, List.flatMap_singleton]
      exact head?_integer_ne n rest

theorem Cuts.part (h : Cuts after words) (hafter : EndsPart after) (p : PartLiteral) :
    Cuts (p.words.flatMap Word.text ++ after) (p.words ++ words) := by
  obtain ⟨value, span⟩ := p
  match value with
  | none => exact h.symbol (fun heq => (hafter '=' heq).2.2 rfl) (.inl rfl)
  | some (.ofNat n) =>
      rw [PartLiteral.words, List.flatMap_singleton]
      exact h.integer hafter n
  | some (.negSucc n) =>
      rw [PartLiteral.words, List.flatMap_cons, List.flatMap_singleton, List.append_assoc]
      exact (h.integer hafter (n + 1)).symbol (head?_integer_ne _ _) (.inr rfl)

theorem Cuts.pattern (h : Cuts after words) (hafter : EndsPart after) (p : PatternLiteral) :
    Cuts (p.words.flatMap Word.text ++ after) (p.words ++ words) := by
  have hminus : ∀ rest : List Char, EndsPart ((Word.symbol .minus).text ++ rest) := by
    rintro rest c ⟨⟩
    decide
  have hday := h.part hafter p.day
  have hmonth := (hday.symbol (head?_part_ne p.day after) (.inr rfl)).part (hminus _) p.month
  have hyear := (hmonth.symbol (head?_part_ne p.month _) (.inr rfl)).part (hminus _) p.year
  simpa only [PatternLiteral.words, List.flatMap_append, List.flatMap_cons, List.append_assoc,
    List.cons_append] using hyear

end Piece

namespace PatternLiteral

variable {l : PatternLiteral} {p : DatePattern}

theorem exists_spelled_text (h : l.pattern = .ok p) :
    ∃ l' : PatternLiteral, l'.Spelled (Token.ofText p.text.toList) ∧
      Token.brokenParts p.text.toList = [] ∧ l'.pattern = .ok p := by
  have hcuts := Piece.Cuts.nil.pattern (fun c hc => nomatch hc) l.kept
  rw [List.append_nil, List.append_nil, flatMap_words_kept h] at hcuts
  obtain ⟨hwords, hbroken⟩ := hcuts.ofText
  obtain ⟨l', hspelled, heq⟩ := exists_spelled l.writable_kept hwords
  refine ⟨l', hspelled, hbroken, ?_⟩
  rw [← pattern_unplaced, heq, pattern_unplaced, pattern_kept, h]

def ReadFrom (l : PatternLiteral) (ts : List Token) : Prop :=
  ∃ v t r, ts = v ++ [t] ∧ Step.run Reading.step start v = some r ∧ r.step (some t) = .done l

def idleRule (p : DatePattern) : String := "at " ++ p.text ++ ", \x7b\x7d"

def idleScript (l : PatternLiteral) : Script := ⟨[.rule (.pattern l.kept) (.block .nil)], none⟩

theorem cuts_idleRule (h : l.pattern = .ok p) :
    Piece.Cuts (idleRule p).toList l.idleScript.words := by
  have hclose : Piece.Cuts ('}' :: ([] ++ [])) [.symbol .closeBrace] :=
    Piece.Cuts.nil.cons_word (by decide)
  have hopen : Piece.Cuts ('{' :: ([] ++ ['}'])) [.symbol .openBrace, .symbol .closeBrace] :=
    hclose.cons_word (by decide)
  have hblank : ∀ c ∈ [' '], Piece.isBlank c := List.all_eq_true.mp (by decide)
  have hspace : Piece.Cuts ([' '] ++ ['{', '}']) [.symbol .openBrace, .symbol .closeBrace] :=
    hopen.gap hblank
  have hcomma : Piece.Cuts (',' :: ([] ++ [' ', '{', '}']))
      [.symbol .comma, .symbol .openBrace, .symbol .closeBrace] :=
    hspace.cons_word (by decide)
  have hends : Piece.EndsPart [',', ' ', '{', '}'] := by
    rintro c ⟨⟩
    decide
  have hpattern := (hcomma.pattern hends l.kept).gap hblank
  have hat := hpattern.word (fun c hc => Option.some.inj hc ▸ rfl) (Word.isLexeme_keyword .atWord)
  rw [flatMap_words_kept h] at hat
  have htext : (idleRule p).toList = (Word.keyword .atWord).text ++
      ([' '] ++ (p.text.toList ++ [',', ' ', '{', '}'])) := by
    rw [idleRule, String.toList_append, String.toList_append, List.append_assoc]
    rfl
  rw [htext]
  simpa only [idleScript, Script.words, Declaration.words, When.words, Action.words, Block.words,
    inBraces, Option.elim_none, List.flatMap_cons, List.flatMap_nil, List.append_nil,
    List.nil_append] using hat

theorem ofScript_idleScript (h : l.pattern = .ok p) (today : Date) :
    (Plan.ofScript today l.idleScript).faults = [] ∧
      (Plan.ofScript today l.idleScript).value.rules = [⟨"at " ++ p.text, p, .skip⟩] := by
  have hresolve : l.kept.resolve = pure p := by rw [resolve, pattern_kept, h]
  have hrule : Plan.Draft.empty.addAll [] l.idleScript.declarations =
      pure { Plan.Draft.empty with rules := [⟨"at " ++ p.text, p, .skip⟩] } := by
    simp only [idleScript, Plan.Draft.addAll, Plan.Draft.add, Plan.Draft.addRule,
      Plan.Draft.resolveWhen, hresolve]
    rfl
  have htable : Plan.dateTable l.idleScript.declarations = [] := rfl
  have hsettings : ∀ tracked,
      (Settings.ofProperties today tracked l.idleScript.options).faults = [] := by
    refine fun tracked => (Settings.faults_ofProperties_eq_nil_iff ..).mpr ⟨?_, ?_⟩
    · exact List.forall_mem_nil _
    · rintro (h | h) <;> cases h
  rw [Plan.ofScript, htable, hrule]
  simp [hsettings]

theorem ofScript_idleRule (h : l.pattern = .ok p) (today : Date) :
    let plan := Script.ofText (idleRule p).toList >>= Plan.ofScript today
    plan.faults = [] ∧ plan.value.rules = [⟨"at " ++ p.text, p, .skip⟩] := by
  have hwritable : l.idleScript.Writable := by
    refine ⟨List.forall_mem_singleton.mpr ⟨l.writable_kept, nofun⟩, nofun⟩
  obtain ⟨hwords, hbroken⟩ := (cuts_idleRule h).ofText
  obtain ⟨s, hspelled, heq⟩ := Script.exists_spelled hwritable hwords
  obtain ⟨hfaults, hrules⟩ := ofScript_idleScript h today
  have hunplaced := (Plan.ofScript_unplaced today s).symm.trans
    ((congrArg _ heq).trans (Plan.ofScript_unplaced today l.idleScript))
  have hvalue := congrArg Checked.value hunplaced
  rw [Checked.value_unplaced, Checked.value_unplaced] at hvalue
  rw [← Checked.faults_unplaced_eq_nil_iff, ← hunplaced,
    Checked.faults_unplaced_eq_nil_iff] at hfaults
  rw [hspelled.ofText_eq hbroken]
  exact ⟨hfaults, hvalue ▸ hrules⟩

/-- A literal makes a pattern just when its parts are in range as they are written; else the fault
is about the first part that is not. The pattern covers what the literal asks for as it is written,
and its text is read without a fault and as the same pattern, by itself and in a rule. -/
theorem pattern_faithful (l : PatternLiteral) (today : Date) :
    ((∃ p, l.pattern = .ok p) ↔ l.InRange) ∧
    (∀ e, l.pattern = .error e →
      l.FirstWrong e (l.blamed e) ∧ l.resolve.faults = [⟨l.blamed e, .pattern e⟩]) ∧
    ∀ p, l.pattern = .ok p →
      (∀ d, p.covers d = true ↔
        l.year.uncut.Is d.year ∧ l.month.uncut.Is d.month ∧ l.day.uncut.IsDayOf d) ∧
      (∃ l' : PatternLiteral, l'.ReadFrom (Token.ofText p.text.toList) ∧
        Token.brokenParts p.text.toList = [] ∧ l'.resolve = ⟨p, []⟩) ∧
      let plan := Script.ofText (idleRule p).toList >>= Plan.ofScript today
      plan.faults = [] ∧ plan.value.rules = [⟨"at " ++ p.text, p, .skip⟩] := by
  refine ⟨l.exists_pattern_iff, fun e h => ⟨firstWrong_of_pattern h, ?_⟩, fun p h => ⟨?_, ?_, ?_⟩⟩
  · rw [resolve, h]
    rfl
  · exact covers_pattern_iff h
  · obtain ⟨l', hspelled, hbroken, hpattern⟩ := exists_spelled_text h
    refine ⟨l', run_pattern hspelled, hbroken, ?_⟩
    rw [resolve, hpattern]
    rfl
  · exact ofScript_idleRule h today

theorem pattern_faithful_farYears :
    let l : PatternLiteral :=
      ⟨⟨some 9223372036854775807, ⟨3, 22⟩⟩, ⟨none, ⟨23, 24⟩⟩, ⟨some (-31), ⟨25, 28⟩⟩⟩
    let p : DatePattern := .parts (.exact 2147483647) .any (.exact (-31))
    let wrong : PatternLiteral :=
      ⟨⟨some (-9223372036854775807), ⟨3, 23⟩⟩, ⟨some 13, ⟨24, 26⟩⟩, ⟨none, ⟨27, 28⟩⟩⟩
    let today : Date := ⟨2000, 2, 2, by decide, by decide, by decide⟩
    (l.pattern = .ok p ∧ p.text = "2147483647-*--31" ∧ p.covers today = false ∧
      (Script.ofText (idleRule p).toList >>= Plan.ofScript today).faults = []) ∧
    wrong.resolve.faults = [⟨⟨3, 23⟩, .pattern (.negativeYear (-2147483648))⟩] := by
  intro l p wrong today
  have hp : l.pattern = .ok p := rfl
  have hwrong : wrong.pattern = .error (.negativeYear (-2147483648)) := rfl
  obtain ⟨hcovers, -, hfaults, -⟩ := (pattern_faithful l today).2.2 p hp
  refine ⟨⟨hp, by decide, ?_, hfaults⟩, ((pattern_faithful wrong today).2.1 _ hwrong).2⟩
  rw [Bool.eq_false_iff, ne_eq, hcovers]
  intro h
  have hyear : (2000 : Int) = 9223372036854775807 := h.1
  omega

end PatternLiteral

end Forecast
