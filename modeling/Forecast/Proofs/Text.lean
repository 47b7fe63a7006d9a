import Mathlib.Data.List.TakeWhile
import Forecast.Text.Blank
import Forecast.Text.Digits

namespace Forecast.Text

variable {text gap : List Char} {c : Char}

theorem isBlank_eq_false (h : 0x21 ≤ c.toNat ∧ c.toNat ≤ 0x7E) : isBlank c = false := by
  simp only [isBlank, CodeRanges.holds, blankRanges, List.any_cons, List.any_nil, Bool.or_false,
    Bool.or_eq_false_iff, Bool.and_eq_false_iff, decide_eq_false_iff_not]
  omega

theorem toNat_of_isDigit (h : c.isDigit) : 48 ≤ c.toNat ∧ c.toNat ≤ 57 := by
  simpa [Char.isDigit, UInt32.le_iff_toNat_le] using h

theorem toNat_of_isAlpha (h : c.isAlpha) :
    65 ≤ c.toNat ∧ c.toNat ≤ 90 ∨ 97 ≤ c.toNat ∧ c.toNat ≤ 122 := by
  delta Char.isAlpha Char.isUpper Char.isLower at h
  simpa [UInt32.le_iff_toNat_le] using h

theorem isBlank_of_isDigit (h : c.isDigit) : isBlank c = false := by
  have := toNat_of_isDigit h
  exact isBlank_eq_false (by omega)

theorem isBlank_of_isAlpha (h : c.isAlpha) : isBlank c = false := by
  have := toNat_of_isAlpha h
  exact isBlank_eq_false (by omega)

theorem isDigit_of_isBlank (h : isBlank c) : c.isDigit = false := by
  cases hd : c.isDigit with
  | false => rfl
  | true => simp [isBlank_of_isDigit hd] at h

theorem isDigit_of_isAlpha (h : c.isAlpha) : c.isDigit = false := by
  cases hd : c.isDigit with
  | false => rfl
  | true =>
      have halpha := toNat_of_isAlpha h
      have hdigit := toNat_of_isDigit hd
      omega

theorem isAlpha_of_toLower (h : c.toLower.isAlpha) : c.isAlpha := by
  delta Char.toLower at h
  split at h
  · rename_i hupper
    have hc : c.isUpper := by
      delta Char.isUpper
      simpa using hupper
    exact Bool.or_eq_true_iff.mpr (.inl hc)
  · exact h

theorem skipBlanks_append (hgap : ∀ c ∈ gap, isBlank c) (text : List Char) :
    skipBlanks (gap ++ text) = skipBlanks text :=
  List.dropWhile_append_of_pos hgap

theorem skipBlanks_cons_of_neg (h : isBlank c = false) (rest : List Char) :
    skipBlanks (c :: rest) = c :: rest :=
  List.dropWhile_cons_of_neg (by simp [h])

def trimEnd (text : List Char) : List Char := (skipBlanks text.reverse).reverse

theorem trim_eq (text : List Char) : trim text = trimEnd (skipBlanks text) := rfl

theorem trimEnd_eq_nil (h : ∀ c ∈ text, isBlank c) : trimEnd text = [] := by
  rw [trimEnd, skipBlanks, List.dropWhile_eq_nil_iff.mpr fun c hc => h c (List.mem_reverse.mp hc),
    List.reverse_nil]

theorem trimEnd_append (h : isBlank c = false) (init text : List Char) :
    trimEnd (init ++ [c] ++ text) = init ++ [c] ++ trimEnd text := by
  have hinit : skipBlanks (init ++ [c]).reverse = (init ++ [c]).reverse := by
    rw [List.reverse_append, List.reverse_singleton]
    exact skipBlanks_cons_of_neg h _
  rw [trimEnd, List.reverse_append, skipBlanks, List.dropWhile_append]
  split
  · rename_i hnil
    have hnil : skipBlanks text.reverse = [] := List.isEmpty_iff.mp hnil
    rw [trimEnd, hnil, List.reverse_nil, List.append_nil]
    exact (congrArg List.reverse hinit).trans (List.reverse_reverse _)
  · rw [List.reverse_append, List.reverse_reverse]
    rfl

theorem isPrefix_trimEnd (text : List Char) : trimEnd text <+: text := by
  rw [← List.reverse_suffix, trimEnd, List.reverse_reverse]
  exact List.dropWhile_suffix _

theorem trim_subset (text : List Char) : trim text ⊆ text :=
  fun _ hc => (List.dropWhile_suffix _).subset ((isPrefix_trimEnd _).subset hc)

theorem digitsValue_append (v w : List Char) :
    digitsValue (v ++ w) = Nat.ofDigitChars 10 w (digitsValue v) :=
  List.foldl_append

theorem digitsValue_toDigits (n : Nat) : digitsValue (Nat.toDigits 10 n) = n :=
  Nat.ofDigitChars_toDigits (by decide) (by decide)

theorem isDigit_of_mem_toDigits {n : Nat} (h : c ∈ Nat.toDigits 10 n) : c.isDigit :=
  Nat.isDigit_of_mem_toDigits (by decide) (by decide) h

theorem isDigit_of_mem_leftpad {width n : Nat} (h : c ∈ (Nat.toDigits 10 n).leftpad width '0') :
    c.isDigit := by
  rcases List.mem_append.mp h with h | h
  · rw [List.eq_of_mem_replicate h]
    decide
  · exact isDigit_of_mem_toDigits h

theorem digitsValue_leftpad (width n : Nat) :
    digitsValue ((Nat.toDigits 10 n).leftpad width '0') = n := by
  have hzeros : ∀ k, digitsValue (List.replicate k '0') = 0 := fun k =>
    Nat.ofDigitChars_replicate_zero.trans (Nat.mul_zero _)
  rw [List.leftpad, digitsValue_append, hzeros]
  exact digitsValue_toDigits n

end Forecast.Text
