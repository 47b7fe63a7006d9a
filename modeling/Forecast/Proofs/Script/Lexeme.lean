import Mathlib.Data.List.TakeWhile
import Mathlib.Tactic.SplitIfs
import Forecast.Proofs.Script.Grammar

namespace Forecast

namespace Piece

theorem take_length_takeWhile (p : Char → Bool) (l : List Char) :
    l.take (l.takeWhile p).length = l.takeWhile p :=
  (List.prefix_iff_eq_take.mp (List.takeWhile_prefix p)).symm

theorem length_takeWhile_le (p : Char → Bool) (l : List Char) : (l.takeWhile p).length ≤ l.length :=
  (List.takeWhile_prefix p).length_le

theorem digitRun_take (l : List Char) : digitRun (l.take (digitRun l)) = digitRun l := by
  rw [digitRun, digitRun, take_length_takeWhile, List.takeWhile_idem]

theorem digitRun_le (l : List Char) : digitRun l ≤ l.length := length_takeWhile_le _ _

theorem digitRun_eq_length_iff {l : List Char} : digitRun l = l.length ↔ ∀ c ∈ l, c.isDigit := by
  rw [digitRun]
  constructor
  · intro h c hc
    have heq : l.takeWhile Char.isDigit = l := (List.takeWhile_prefix _).eq_of_length h
    rw [← heq] at hc
    exact List.mem_takeWhile_imp hc
  · intro h
    rw [List.takeWhile_eq_self_iff.mpr h]

theorem classify_eq_number {c : Char} {rest : List Char} {n : Nat}
    (h : classify c rest = (.token .number, n)) :
    c.isDigit ∧ numberTail rest = n ∨ c = '.' ∧ digitRun rest ≠ 0 ∧ digitRun rest = n := by
  rw [classify] at h
  split_ifs at h with hblank hcomment hword hdigit hpoint hquote
  · cases h
  · cases h
  · simp only [Prod.mk.injEq, Role.token.injEq, wordKind] at h
    split at h <;> simp at h
  · exact .inl ⟨hdigit, by simpa using h⟩
  · exact .inr ⟨hpoint.1, hpoint.2, by simpa using h⟩
  · split at h <;> simp at h
  · split at h <;> simp at h

theorem takeWhile_append_drop_digitRun (l : List Char) :
    l.takeWhile Char.isDigit ++ l.drop (digitRun l) = l := by
  have h := List.take_append_drop (digitRun l) l
  rwa [digitRun, take_length_takeWhile] at h

/-- After its first digit a numeral goes on with digits, and perhaps with a point and digits. -/
theorem digits_of_numberTail {rest : List Char} (h : numberTail rest = rest.length) :
    (∀ c ∈ rest, c.isDigit) ∨ ∃ whole fraction, rest = whole ++ '.' :: fraction ∧
      (∀ c ∈ whole, c.isDigit) ∧ ∀ c ∈ fraction, c.isDigit := by
  have hsplit := takeWhile_append_drop_digitRun rest
  have hdigits : ∀ c ∈ rest.takeWhile Char.isDigit, c.isDigit := fun c hc =>
    List.mem_takeWhile_imp hc
  rw [numberTail] at h
  split at h
  · rename_i fraction hdrop
    rw [hdrop] at hsplit
    refine .inr ⟨_, fraction, hsplit.symm, hdigits, ?_⟩
    rw [← digitRun_eq_length_iff]
    have hlength := congrArg List.length hsplit
    rw [List.length_append, List.length_cons] at hlength
    have hrun : digitRun rest = (rest.takeWhile Char.isDigit).length := rfl
    omega
  · exact .inl (digitRun_eq_length_iff.mp h)

theorem digitRun_take_eq_zero {l : List Char} (h : digitRun l = 0) (n : Nat) :
    digitRun (l.take n) = 0 := by
  cases l with
  | nil => simpa using h
  | cons c l =>
      by_cases hc : c.isDigit
      · simp [digitRun, List.takeWhile_cons_of_pos hc] at h
      · cases n with
        | zero => rfl
        | succ n => rw [List.take_succ_cons, digitRun, List.takeWhile_cons_of_neg hc, List.length_nil]

theorem numberTail_of_point {whole : List Char} (hw : ∀ c ∈ whole, c.isDigit)
    (fraction : List Char) :
    numberTail (whole ++ '.' :: fraction) = whole.length + 1 + digitRun fraction := by
  have hrun : digitRun (whole ++ '.' :: fraction) = whole.length := by
    rw [digitRun, List.takeWhile_append_of_pos hw, List.takeWhile_cons_of_neg (by decide),
      List.append_nil]
  simp only [numberTail, hrun, List.drop_left]

theorem numberTail_of_ne_point {rest : List Char}
    (h : ∀ fraction, rest.drop (digitRun rest) ≠ '.' :: fraction) :
    numberTail rest = digitRun rest := by
  rw [numberTail]
  split
  · rename_i fraction hdrop
    exact absurd hdrop (h fraction)
  · rfl

theorem numberTail_take (rest : List Char) :
    numberTail rest ≤ rest.length ∧ numberTail (rest.take (numberTail rest)) = numberTail rest := by
  by_cases hpoint : ∃ fraction, rest.drop (digitRun rest) = '.' :: fraction
  · obtain ⟨fraction, hdrop⟩ := hpoint
    have hsplit := takeWhile_append_drop_digitRun rest
    have hdigits : ∀ c ∈ rest.takeWhile Char.isDigit, c.isDigit := fun c hc =>
      List.mem_takeWhile_imp hc
    generalize rest.takeWhile Char.isDigit = whole at hsplit hdigits
    rw [hdrop] at hsplit
    subst hsplit
    have hle := digitRun_le fraction
    have htake : (whole ++ '.' :: fraction).take (whole.length + 1 + digitRun fraction) =
        whole ++ '.' :: fraction.take (digitRun fraction) := by
      rw [Nat.add_assoc, List.take_length_add_append, Nat.add_comm 1, List.take_succ_cons]
    rw [numberTail_of_point hdigits, htake, numberTail_of_point hdigits, digitRun_take]
    exact ⟨by simp; omega, rfl⟩
  · have hne : ∀ fraction, rest.drop (digitRun rest) ≠ '.' :: fraction :=
      fun fraction hdrop => hpoint ⟨fraction, hdrop⟩
    rw [numberTail_of_ne_point hne]
    refine ⟨digitRun_le rest, ?_⟩
    have hnil : (rest.take (digitRun rest)).drop (digitRun (rest.take (digitRun rest))) = [] := by
      rw [digitRun_take]
      simp
    rw [numberTail_of_ne_point, digitRun_take]
    intro fraction
    rw [hnil]
    exact nofun

theorem stringTail_escape {c : Char} (hc : c ≠ '\n') (rest : List Char) :
    stringTail ('\\' :: c :: rest) = ((stringTail rest).1 + 2, (stringTail rest).2) := by
  rw [stringTail]
  exact hc

theorem stringTail_cons {c : Char} (hquote : c ≠ '"') (hnewline : c ≠ '\n') (hescape : c ≠ '\\')
    (rest : List Char) : stringTail (c :: rest) = ((stringTail rest).1 + 1, (stringTail rest).2) := by
  rw [stringTail]
  · exact hquote
  · exact hnewline
  · exact fun h => absurd h hescape
  · exact fun _ h => absurd h hescape
  · exact fun _ _ h => absurd h hescape

theorem stringTail_take (rest : List Char) :
    (stringTail rest).1 ≤ rest.length ∧
      ((stringTail rest).2 = true → stringTail (rest.take (stringTail rest).1) = stringTail rest) := by
  induction rest using stringTail.induct with
  | case1 => simp [stringTail]
  | case2 rest => simp [stringTail]
  | case3 rest => simp [stringTail]
  | case4 => simp [stringTail]
  | case5 rest => simp [stringTail]
  | case6 c rest hc ih =>
      rw [stringTail_escape hc]
      refine ⟨by simpa using ih.1, fun hclosed => ?_⟩
      rw [List.take_succ_cons, List.take_succ_cons, stringTail_escape hc, ih.2 hclosed]
  | case7 c rest hquote hnewline hend hbreak hescape ih =>
      have hbackslash : c ≠ '\\' := by
        rintro rfl
        cases rest with
        | nil => exact hend rfl rfl
        | cons d rest => exact hescape d rest rfl rfl
      rw [stringTail_cons hquote hnewline hbackslash]
      refine ⟨by simpa using ih.1, fun hclosed => ?_⟩
      rw [List.take_succ_cons, stringTail_cons hquote hnewline hbackslash, ih.2 hclosed]

theorem symbol?_take {c : Char} {rest : List Char} {s : Symbol} (h : symbol? c rest = some s) :
    s.chars.length - 1 ≤ rest.length ∧ symbol? c (rest.take (s.chars.length - 1)) = some s := by
  have hchars : ∀ {mark : List Char} {s : Symbol}, Symbol.ofChars? mark = some s → s.chars = mark := by
    intro mark s hs
    simpa [Symbol.ofChars?] using List.find?_some hs
  rw [symbol?] at h
  cases htwo : Symbol.ofChars? (c :: rest.take 1) with
  | some s' =>
      rw [htwo, Option.some_or, Option.some.injEq] at h
      subst h
      rw [hchars htwo]
      cases rest with
      | nil => simpa [symbol?] using htwo
      | cons d rest =>
          simp only [List.take_succ_cons, List.take_zero] at htwo
          simp [symbol?, htwo]
  | none =>
      rw [htwo, Option.none_or] at h
      rw [hchars h]
      simp [symbol?, h]

theorem classify_take {c : Char} {rest : List Char} {kind : Token.Kind} {n : Nat}
    (h : classify c rest = (.token kind, n)) :
    n ≤ rest.length ∧ classify c (rest.take n) = (.token kind, n) := by
  have hhead : ∀ d, (rest.take n).head? = some d → rest.head? = some d := by
    intro d hd
    cases n with
    | zero => simp at hd
    | succ n =>
        cases rest with
        | nil => simp at hd
        | cons e rest => simpa using hd
  rw [classify] at h
  split_ifs at h with hblank hcomment hword hdigit hpoint hquote
  · cases h
  · cases h
  all_goals
    have hcomment' : ¬ (c = '/' ∧ (rest.take n).head? = some '/') :=
      fun hc => hcomment ⟨hc.1, hhead _ hc.2⟩
    rw [classify, if_neg hblank, if_neg hcomment']
  · obtain ⟨hkind, rfl⟩ := Prod.mk.inj h
    rw [if_pos hword, take_length_takeWhile, List.takeWhile_idem]
    exact ⟨length_takeWhile_le _ _, by rw [← hkind]⟩
  · obtain ⟨hkind, rfl⟩ := Prod.mk.inj h
    rw [if_neg hword, if_pos hdigit, (numberTail_take rest).2, hkind]
    exact ⟨(numberTail_take rest).1, rfl⟩
  · obtain ⟨hkind, rfl⟩ := Prod.mk.inj h
    rw [if_neg hword, if_neg hdigit, digitRun_take, if_pos hpoint, hkind]
    exact ⟨digitRun_le rest, rfl⟩
  · have hstring := stringTail_take rest
    rw [if_neg hword, if_neg hdigit, if_neg, if_pos hquote]
    · split at h
      · rename_i m htail
        obtain ⟨hkind, rfl⟩ := Prod.mk.inj h
        rw [htail] at hstring
        rw [hstring.2 rfl, hkind]
        exact ⟨hstring.1, rfl⟩
      · cases h
    · rintro ⟨rfl, -⟩
      cases hquote
  · split at h
    · rename_i s hs
      obtain ⟨hkind, rfl⟩ := Prod.mk.inj h
      obtain ⟨hle, hsymbol⟩ := symbol?_take hs
      rw [if_neg hword, if_neg hdigit, if_neg, if_neg hquote, hsymbol]
      · exact ⟨hle, h⟩
      · rintro ⟨hc, hrun⟩
        by_cases hzero : digitRun rest = 0
        · exact hrun (digitRun_take_eq_zero hzero _)
        · exact hpoint ⟨hc, hzero⟩
    · cases h

theorem exists_classify_of_mem_split {text : List Char} {p : Piece} (h : p ∈ split text) :
    ∃ c rest n, classify c rest = (p.role, n) ∧ p.text = c :: rest.take n := by
  induction text using split.induct with
  | case1 => simp [split] at h
  | case2 c rest role more hclass ih =>
      rw [split, hclass] at h
      rcases List.mem_cons.mp h with rfl | h
      · exact ⟨c, rest, more, hclass, rfl⟩
      · exact ih h

theorem mem_of_mem_place {offset : Nat} {ps : List Piece} {x : Span × Piece}
    (h : x ∈ place offset ps) : x.2 ∈ ps := by
  induction ps generalizing offset with
  | nil => simp [place] at h
  | cons p rest ih =>
      rw [place] at h
      rcases List.mem_cons.mp h with rfl | h
      · exact List.mem_cons_self
      · exact List.mem_cons_of_mem _ (ih h)

end Piece

namespace Decimal

theorem ofText?_of_digits {text : List Char} (hne : text ≠ []) (h : ∀ c ∈ text, c.isDigit) :
    ofText? text = some ⟨Text.digitsValue text, 0⟩ := by
  have hwhole : text.takeWhile Char.isDigit = text := List.takeWhile_eq_self_iff.mpr h
  simp [ofText?, hwhole, hne]

theorem ofText?_of_point {whole fraction : List Char} (hne : whole ++ fraction ≠ [])
    (hw : ∀ c ∈ whole, c.isDigit) (hf : ∀ c ∈ fraction, c.isDigit) :
    ofText? (whole ++ '.' :: fraction) =
      some ⟨Text.digitsValue (whole ++ fraction), fraction.length⟩ := by
  have hwhole : (whole ++ '.' :: fraction).takeWhile Char.isDigit = whole := by
    rw [List.takeWhile_append_of_pos hw, List.takeWhile_cons_of_neg (by decide), List.append_nil]
  have hall : fraction.all Char.isDigit := List.all_eq_true.mpr hf
  simp only [ofText?, hwhole, List.drop_left, hall, true_and, if_pos hne]

end Decimal

namespace Token

theorem exists_ofText?_of_isLexeme {t : Token} (h : t.IsLexeme) (ht : t.kind = .number) :
    ∃ d, Decimal.ofText? t.text.toList = some d := by
  obtain ⟨c, rest, htext, hclass⟩ := h
  rw [ht] at hclass
  rw [htext]
  rcases Piece.classify_eq_number hclass with ⟨hc, htail⟩ | ⟨rfl, hne, hrun⟩
  · rcases Piece.digits_of_numberTail htail with hdigits | ⟨whole, fraction, rfl, hw, hf⟩
    · have hall : ∀ d ∈ c :: rest, d.isDigit := List.forall_mem_cons.mpr ⟨hc, hdigits⟩
      exact ⟨_, Decimal.ofText?_of_digits (List.cons_ne_nil _ _) hall⟩
    · have hall : ∀ d ∈ c :: whole, d.isDigit := List.forall_mem_cons.mpr ⟨hc, hw⟩
      exact ⟨_, Decimal.ofText?_of_point (List.cons_ne_nil _ _) hall hf⟩
  · have hfraction := Piece.digitRun_eq_length_iff.mp hrun
    have hrest : rest ≠ [] := by
      rintro rfl
      exact hne rfl
    exact ⟨_, @Decimal.ofText?_of_point [] rest hrest (List.forall_mem_nil _) hfraction⟩

def IsUnfit (t : Token) : Prop := t.kind = .number ∧ Decimal.ofText? t.text.toList = none

theorem IsLexeme.not_isUnfit {t : Token} (h : t.IsLexeme) : ¬ t.IsUnfit := by
  rintro ⟨ht, hnone⟩
  obtain ⟨d, hd⟩ := exists_ofText?_of_isLexeme h ht
  rw [hnone] at hd
  cases hd

theorem ofText?_eq_decimal {t : Token} (h : t.IsLexeme) (ht : t.kind = .number) :
    Decimal.ofText? t.text.toList = some t.decimal := by
  obtain ⟨d, hd⟩ := exists_ofText?_of_isLexeme h ht
  rw [decimal, hd, Option.getD_some]

theorem decimal_eq_of_ofText? {t : Token} {d : Decimal} (h : Decimal.ofText? t.text.toList = some d) :
    t.decimal = d := by
  rw [decimal, h, Option.getD_some]

end Token

theorem Token.isLexeme_of_mem_ofText {text : List Char} {t : Token} (h : t ∈ ofText text) :
    t.IsLexeme := by
  obtain ⟨⟨span, p⟩, hp, ht⟩ := List.mem_filterMap.mp h
  obtain ⟨c, rest, n, hclass, htext⟩ := Piece.exists_classify_of_mem_split (Piece.mem_of_mem_place hp)
  unfold Piece.token? at ht
  split at ht
  · rename_i span' kind chars heq
    cases heq
    obtain rfl := Option.some.inj ht
    obtain ⟨hle, hclass'⟩ := Piece.classify_take hclass
    refine ⟨c, rest.take n, by simpa using htext, ?_⟩
    rw [hclass', List.length_take_of_le hle]
  · cases ht

end Forecast
