import Forecast.Proofs.Script.Names
import Forecast.Proofs.Text
import Forecast.Proofs.Token.Spaced

namespace Forecast

namespace Decimal

def digits (d : Decimal) : List Char := (Nat.toDigits 10 d.mantissa).leftpad (d.places + 1) '0'

def text (d : Decimal) : List Char :=
  if d.places = 0 then d.digits
  else
    let whole := d.digits.length - d.places
    d.digits.take whole ++ '.' :: d.digits.drop whole

end Decimal

def escaped : List Char → List Char
  | [] => []
  | c :: rest => if c = '"' ∨ c = '\\' then '\\' :: c :: escaped rest else c :: escaped rest

namespace Word

def keyword (k : Keyword) : Word := ⟨.keyword k, k.chars⟩

def symbol (s : Symbol) : Word := ⟨.symbol s, s.chars⟩

def name (text : String) : Word := ⟨.name, text.toList⟩

def decimal (d : Decimal) : Word := ⟨.number, d.text⟩

def integer (n : Nat) : Word := ⟨.number, Nat.toDigits 10 n⟩

def string (text : String) : Word := ⟨.string, '"' :: (escaped text.toList ++ ['"'])⟩

end Word

def Ident.word (x : Ident) : Word := .name x.name

def inParens (words : List Word) : List Word :=
  .symbol .openParen :: (words ++ [.symbol .closeParen])

def inBraces (words : List Word) : List Word :=
  .symbol .openBrace :: (words ++ [.symbol .closeBrace])

def ArithOp.level : ArithOp → Nat
  | add => 0
  | sub => 0
  | mul => 1
  | div => 1

/-- The words of a number where an operator of a level, or a minus sign, asks for an operand. -/
def NumberExpr.words (level : Nat) : NumberExpr → List Word
  | .literal value _ => [.decimal value]
  | .reference x => [x.word]
  | .negate e => .symbol .minus :: e.words 2
  | .binary op lhs rhs =>
    let words := lhs.words op.level ++ .symbol op.symbol :: rhs.words (op.level + 1)
    if op.level < level then inParens words else words

def Comparison.words (c : Comparison) : List Word :=
  c.lhs.words 0 ++ .symbol c.op.symbol :: c.rhs.words 0

def Conjunction.words : Conjunction → List Word
  | .one c => c.words
  | .and earlier c => earlier.words ++ .symbol .andAnd :: c.words

def Condition.words : Condition → List Word
  | .one c => c.words
  | .or earlier c => earlier.words ++ .symbol .orOr :: c.words

def conditionalWords (test yes no : List Word) : List Word :=
  .keyword .ifWord :: (inParens test ++ (inBraces yes ++ no))

mutual

def Action.words : Action → List Word
  | .assign x op e => x.word :: .symbol op.symbol :: e.words 0
  | .choose test yes no => conditionalWords test.words yes.words no.words
  | .block body => inBraces body.words

def Otherwise.words : Otherwise → List Word
  | .nothing => []
  | .block body => .keyword .elseWord :: inBraces body.words
  | .chain test yes no =>
    .keyword .elseWord :: conditionalWords test.words yes.words no.words

def Block.words : Block → List Word
  | .nil => []
  | .cons first rest => first.words ++ rest.words

end

def PropertyValue.words : PropertyValue → List Word
  | .string text _ => [.string text]
  | .number negative magnitude _ =>
    if negative then [.symbol .minus, .decimal magnitude] else [.decimal magnitude]
  | .name x => [x.word]

def Property.words (p : Property) : List Word := p.key.word :: .symbol .colon :: p.value.words

def propertyWords (ps : List Property) : List Word := inBraces (ps.flatMap Property.words)

def PartLiteral.words (p : PartLiteral) : List Word :=
  match p.value with
  | none => [.symbol .star]
  | some (.ofNat n) => [.integer n]
  | some (.negSucc n) => [.symbol .minus, .integer (n + 1)]

def PatternLiteral.words (p : PatternLiteral) : List Word :=
  p.year.words ++ .symbol .minus :: (p.month.words ++ .symbol .minus :: p.day.words)

def When.words : When → List Word
  | .pattern p => p.words
  | .named x => [x.word]

def Declaration.words : Declaration → List Word
  | .var x e ps =>
    .keyword .varWord :: x.word :: .symbol .assign :: (e.words 0 ++ ps.elim [] propertyWords)
  | .date x p => .keyword .dateWord :: x.word :: .symbol .assign :: p.words
  | .rule when a => .keyword .atWord :: (when.words ++ .symbol .comma :: a.words)

def Script.words (s : Script) : List Word :=
  s.declarations.flatMap Declaration.words ++
    s.options.elim [] fun ps => .keyword .optionsWord :: propertyWords ps

def Script.render (gap : Nat → List Char) (s : Script) : List Char := spread gap 0 s.words

def Ident.unplaced (x : Ident) : Ident := ⟨x.name, ⟨0, 0⟩⟩

def NumberExpr.unplaced : NumberExpr → NumberExpr
  | .literal value _ => .literal value ⟨0, 0⟩
  | .reference x => .reference x.unplaced
  | .negate e => .negate e.unplaced
  | .binary op lhs rhs => .binary op lhs.unplaced rhs.unplaced

def Comparison.unplaced (c : Comparison) : Comparison := ⟨c.op, c.lhs.unplaced, c.rhs.unplaced⟩

def Conjunction.unplaced : Conjunction → Conjunction
  | .one c => .one c.unplaced
  | .and earlier c => .and earlier.unplaced c.unplaced

def Condition.unplaced : Condition → Condition
  | .one c => .one c.unplaced
  | .or earlier c => .or earlier.unplaced c.unplaced

mutual

def Action.unplaced : Action → Action
  | .assign x op e => .assign x.unplaced op e.unplaced
  | .choose test yes no => .choose test.unplaced yes.unplaced no.unplaced
  | .block body => .block body.unplaced

def Otherwise.unplaced : Otherwise → Otherwise
  | .nothing => .nothing
  | .block body => .block body.unplaced
  | .chain test yes no => .chain test.unplaced yes.unplaced no.unplaced

def Block.unplaced : Block → Block
  | .nil => .nil
  | .cons first rest => .cons first.unplaced rest.unplaced

end

def PropertyValue.unplaced : PropertyValue → PropertyValue
  | .string text _ => .string text ⟨0, 0⟩
  | .number negative magnitude _ => .number negative magnitude ⟨0, 0⟩
  | .name x => .name x.unplaced

def Property.unplaced (p : Property) : Property := ⟨p.key.unplaced, p.value.unplaced⟩

def PartLiteral.unplaced (p : PartLiteral) : PartLiteral := ⟨p.value, ⟨0, 0⟩⟩

def PatternLiteral.unplaced (p : PatternLiteral) : PatternLiteral :=
  ⟨p.year.unplaced, p.month.unplaced, p.day.unplaced⟩

def When.unplaced : When → When
  | .pattern p => .pattern p.unplaced
  | .named x => .named x.unplaced

def Declaration.unplaced : Declaration → Declaration
  | .var x e ps => .var x.unplaced e.unplaced (ps.map (·.map Property.unplaced))
  | .date x p => .date x.unplaced p.unplaced
  | .rule when a => .rule when.unplaced a.unplaced

def Script.unplaced (s : Script) : Script :=
  ⟨s.declarations.map Declaration.unplaced, s.options.map (·.map Property.unplaced)⟩

def IsName (text : List Char) : Prop :=
  text.head?.any Piece.isWordStart ∧ text.all Piece.isWordPart ∧ Keyword.ofChars? text = none
  deriving Decidable

def Ident.Writable (x : Ident) : Prop := IsName x.name.toList
  deriving Decidable

def PropertyValue.Writable : PropertyValue → Prop
  | .string text _ => '\n' ∉ text.toList
  | .number .. => True
  | .name x => x.Writable

instance : DecidablePred PropertyValue.Writable
  | .string .. => inferInstanceAs (Decidable (_ ∉ _))
  | .number .. => inferInstanceAs (Decidable True)
  | .name x => inferInstanceAs (Decidable x.Writable)

def Property.Writable (p : Property) : Prop := p.key.Writable ∧ p.value.Writable
  deriving Decidable

def PartLiteral.Writable (p : PartLiteral) : Prop := ∀ v ∈ p.value, v.natAbs < Nat.pow 2 63
  deriving Decidable

def PatternLiteral.Writable (p : PatternLiteral) : Prop :=
  p.year.Writable ∧ p.month.Writable ∧ p.day.Writable
  deriving Decidable

def When.Writable : When → Prop
  | .pattern p => p.Writable
  | .named x => x.Writable

instance : DecidablePred When.Writable
  | .pattern p => inferInstanceAs (Decidable p.Writable)
  | .named x => inferInstanceAs (Decidable x.Writable)

def Declaration.Writable : Declaration → Prop
  | .var x e ps => x.Writable ∧ (∀ y ∈ e.names, y.Writable) ∧ ∀ p ∈ ps.getD [], p.Writable
  | .date x p => x.Writable ∧ p.Writable
  | .rule when a => when.Writable ∧ ∀ y ∈ a.names, y.Writable

instance : DecidablePred Declaration.Writable
  | .var .. => inferInstanceAs (Decidable (_ ∧ _ ∧ _))
  | .date .. => inferInstanceAs (Decidable (_ ∧ _))
  | .rule .. => inferInstanceAs (Decidable (_ ∧ _))

/-- Names are words, dates fit in 64 bits and strings stay on their line. -/
def Script.Writable (s : Script) : Prop :=
  (∀ d ∈ s.declarations, d.Writable) ∧ ∀ p ∈ s.options.getD [], p.Writable
  deriving Decidable

theorem Piece.numberTail_of_digits {text : List Char} (h : ∀ c ∈ text, c.isDigit) :
    numberTail text = text.length := by
  have hrun := digitRun_eq_length_iff.mpr h
  rw [numberTail_of_ne_point, hrun]
  intro fraction
  rw [hrun, List.drop_length]
  exact nofun

namespace Decimal

variable (d : Decimal)

theorem isDigit_of_mem_digits {c : Char} (h : c ∈ d.digits) : c.isDigit :=
  Text.isDigit_of_mem_leftpad h

theorem digitsValue_digits : Text.digitsValue d.digits = d.mantissa :=
  Text.digitsValue_leftpad (d.places + 1) d.mantissa

theorem places_lt_length_digits : d.places < d.digits.length := by
  rw [digits, List.length_leftpad]
  omega

theorem text_cases : d.places = 0 ∧ d.text = d.digits ∨
    ∃ whole fraction, d.text = whole ++ '.' :: fraction ∧ whole ++ fraction = d.digits ∧
      whole ≠ [] ∧ fraction.length = d.places := by
  have hlt := d.places_lt_length_digits
  rw [text]
  split_ifs with hplaces
  · exact .inl ⟨hplaces, rfl⟩
  · refine .inr ⟨_, _, rfl, List.take_append_drop _ _, ?_, ?_⟩
    · rw [ne_eq, ← List.length_eq_zero_iff, List.length_take]
      omega
    · rw [List.length_drop]
      omega

theorem ofText?_text : ofText? d.text = some d := by
  have hdigits : ∀ c ∈ d.digits, c.isDigit := fun c hc => d.isDigit_of_mem_digits hc
  rcases d.text_cases with ⟨hplaces, htext⟩ | ⟨whole, fraction, htext, happend, hne, hlength⟩
  · have hne : d.digits ≠ [] := List.ne_nil_of_length_pos (Nat.zero_lt_of_lt d.places_lt_length_digits)
    rw [htext, ofText?_of_digits hne hdigits, digitsValue_digits, ← hplaces]
  · rw [← happend] at hdigits
    obtain ⟨hw, hf⟩ := List.forall_mem_append.mp hdigits
    rw [htext, ofText?_of_point (List.append_ne_nil_of_left_ne_nil hne _) hw hf, happend,
      digitsValue_digits, hlength]

theorem exists_text_eq :
    ∃ c rest, d.text = c :: rest ∧ c.isDigit ∧ Piece.numberTail rest = rest.length := by
  have hdigits : ∀ c ∈ d.digits, c.isDigit := fun c hc => d.isDigit_of_mem_digits hc
  rcases d.text_cases with ⟨-, htext⟩ | ⟨whole, fraction, htext, happend, hne, -⟩
  · obtain ⟨c, rest, hrest⟩ := List.exists_cons_of_length_pos
      (Nat.zero_lt_of_lt d.places_lt_length_digits)
    rw [hrest] at hdigits
    obtain ⟨hc, hdigits⟩ := List.forall_mem_cons.mp hdigits
    exact ⟨c, rest, htext.trans hrest, hc, Piece.numberTail_of_digits hdigits⟩
  · obtain ⟨c, rest, rfl⟩ := List.exists_cons_of_ne_nil hne
    rw [← happend] at hdigits
    obtain ⟨⟨hc, hw⟩, hf⟩ := by
      simpa only [List.forall_mem_append, List.forall_mem_cons] using hdigits
    refine ⟨c, rest ++ '.' :: fraction, htext, hc, ?_⟩
    rw [Piece.numberTail_of_point hw, Piece.digitRun_eq_length_iff.mpr hf, List.length_append,
      List.length_cons]
    omega

end Decimal

namespace Piece

theorem isAlpha_of_isDigit {c : Char} (hc : c.isDigit) : c.isAlpha = false := by
  delta Char.isAlpha Char.isUpper Char.isLower
  grind [Char.isDigit]

theorem classify_of_isDigit {c : Char} (hc : c.isDigit) (rest : List Char) :
    classify c rest = (.token .number, numberTail rest) := by
  have hblank : ¬ isBlank c := fun h => by simp [isDigit_of_isBlank c h] at hc
  have hslash : ¬ (c = '/' ∧ rest.head? = some '/') := by
    rintro ⟨rfl, -⟩
    cases hc
  have hword : ¬ isWordStart c := by
    have hne : c ≠ '_' := by
      rintro rfl
      cases hc
    simp [isWordStart, isAlpha_of_isDigit hc, hne]
  rw [classify, if_neg hblank, if_neg hslash, if_neg hword, if_pos hc]

theorem classify_of_isWordStart {c : Char} (hc : isWordStart c) (rest : List Char) :
    classify c rest = (.token (wordKind (c :: rest.takeWhile isWordPart)),
      (rest.takeWhile isWordPart).length) := by
  have hblank : ¬ isBlank c := by
    intro h
    rcases eq_of_isBlank h with rfl | rfl | rfl | rfl | rfl <;> cases hc
  have hslash : ¬ (c = '/' ∧ rest.head? = some '/') := by
    rintro ⟨rfl, -⟩
    cases hc
  rw [classify, if_neg hblank, if_neg hslash, if_pos hc]

theorem classify_of_isName {c : Char} {rest : List Char} (hc : isWordStart c)
    (hrest : ∀ d ∈ rest, isWordPart d) (hword : Keyword.ofChars? (c :: rest) = none) :
    classify c rest = (.token .name, rest.length) := by
  have hall : rest.takeWhile isWordPart = rest := List.takeWhile_eq_self_iff.mpr hrest
  rw [classify_of_isWordStart hc, hall]
  simp only [wordKind, hword]

theorem classify_quote {rest : List Char} {n : Nat} (h : stringTail rest = (n, true)) :
    classify '"' rest = (.token .string, n) := by
  have hslash : ¬ ('"' = '/' ∧ rest.head? = some '/') := fun hc => absurd hc.1 (by decide)
  have hpoint : ¬ ('"' = '.' ∧ digitRun rest ≠ 0) := fun hc => absurd hc.1 (by decide)
  rw [classify, if_neg (by decide), if_neg hslash, if_neg (by decide), if_neg (by decide),
    if_neg hpoint, if_pos rfl, h]

theorem stringTail_escaped {text : List Char} (h : '\n' ∉ text) :
    stringTail (escaped text ++ ['"']) = ((escaped text).length + 1, true) := by
  induction text with
  | nil => rfl
  | cons c text ih =>
      obtain ⟨hc, htext⟩ := not_or.mp (mt List.mem_cons.mpr h)
      rw [escaped]
      split_ifs with hescape
      · rw [List.cons_append, List.cons_append, stringTail_escape (Ne.symm hc), ih htext]
        rfl
      · obtain ⟨hquote, hbackslash⟩ := not_or.mp hescape
        rw [List.cons_append, stringTail_cons hquote (Ne.symm hc) hbackslash, ih htext]
        rfl

end Piece

theorem unescape_escaped (text : List Char) : PropertyList.unescape (escaped text) = text := by
  induction text with
  | nil => rfl
  | cons c text ih =>
      rw [escaped]
      split_ifs with hescape
      · rw [PropertyList.unescape, ih]
      · obtain ⟨-, hbackslash⟩ := not_or.mp hescape
        rw [PropertyList.unescape, ih]
        · exact fun _ _ h => absurd h hbackslash
        · exact fun h => absurd h hbackslash

theorem unquote_string (text : String) :
    PropertyList.unquote (Word.string text).text = text.toList := by
  rw [Word.string, PropertyList.unquote, List.drop_succ_cons, List.drop_zero,
    List.dropLast_concat, unescape_escaped]

namespace Word

theorem isLexeme_keyword (k : Keyword) : (keyword k).IsLexeme := by
  cases k <;> exact ⟨_, _, rfl, by decide⟩

theorem isLexeme_symbol (s : Symbol) : (symbol s).IsLexeme := by
  cases s <;> exact ⟨_, _, rfl, by decide⟩

theorem isLexeme_name {text : String} (h : IsName text.toList) : (name text).IsLexeme := by
  obtain ⟨hstart, hparts, hword⟩ := h
  cases htext : text.toList with
  | nil => simp [htext] at hstart
  | cons c rest =>
      rw [htext] at hstart hparts hword
      have hrest := (List.forall_mem_cons.mp (List.all_eq_true.mp hparts)).2
      exact ⟨c, rest, htext, Piece.classify_of_isName hstart hrest hword⟩

theorem isLexeme_decimal (d : Decimal) : (decimal d).IsLexeme := by
  obtain ⟨c, rest, htext, hc, hrest⟩ := d.exists_text_eq
  refine ⟨c, rest, htext, ?_⟩
  rw [Piece.classify_of_isDigit hc, hrest]
  rfl

theorem isLexeme_integer (n : Nat) : (integer n).IsLexeme := by
  obtain ⟨c, rest, htext⟩ := List.exists_cons_of_ne_nil (@Nat.toDigits_ne_nil n 10)
  have hdigits : ∀ d ∈ c :: rest, d.isDigit := fun d hd => Text.isDigit_of_mem_toDigits (htext ▸ hd)
  obtain ⟨hc, hrest⟩ := List.forall_mem_cons.mp hdigits
  refine ⟨c, rest, htext, ?_⟩
  rw [Piece.classify_of_isDigit hc, Piece.numberTail_of_digits hrest]
  rfl

theorem isLexeme_string {text : String} (h : '\n' ∉ text.toList) : (string text).IsLexeme := by
  refine ⟨_, _, rfl, ?_⟩
  rw [Piece.classify_quote (Piece.stringTail_escaped h), List.length_append]
  rfl

end Word

section Lexemes

variable {words : List Word}

theorem isLexeme_inParens (h : ∀ w ∈ words, w.IsLexeme) : ∀ w ∈ inParens words, w.IsLexeme := by
  rw [inParens, List.forall_mem_cons, List.forall_mem_append, List.forall_mem_singleton]
  exact ⟨Word.isLexeme_symbol _, h, Word.isLexeme_symbol _⟩

theorem isLexeme_inBraces (h : ∀ w ∈ words, w.IsLexeme) : ∀ w ∈ inBraces words, w.IsLexeme := by
  rw [inBraces, List.forall_mem_cons, List.forall_mem_append, List.forall_mem_singleton]
  exact ⟨Word.isLexeme_symbol _, h, Word.isLexeme_symbol _⟩

theorem NumberExpr.isLexeme_words {e : NumberExpr} (h : ∀ x ∈ e.names, x.Writable) (level : Nat) :
    ∀ w ∈ e.words level, w.IsLexeme := by
  induction e generalizing level with
  | literal value span => exact List.forall_mem_singleton.mpr (Word.isLexeme_decimal value)
  | reference x =>
      exact List.forall_mem_singleton.mpr (Word.isLexeme_name (h x List.mem_cons_self))
  | negate e ih => exact List.forall_mem_cons.mpr ⟨Word.isLexeme_symbol _, ih h 2⟩
  | binary op lhs rhs ihl ihr =>
      obtain ⟨hl, hr⟩ := List.forall_mem_append.mp h
      have hwords : ∀ w ∈ lhs.words op.level ++ .symbol op.symbol :: rhs.words (op.level + 1),
          w.IsLexeme := by
        rw [List.forall_mem_append, List.forall_mem_cons]
        exact ⟨ihl hl _, Word.isLexeme_symbol _, ihr hr _⟩
      rw [words]
      split_ifs
      · exact isLexeme_inParens hwords
      · exact hwords

theorem Comparison.isLexeme_words {c : Comparison} (h : ∀ x ∈ c.names, x.Writable) :
    ∀ w ∈ c.words, w.IsLexeme := by
  obtain ⟨hl, hr⟩ := List.forall_mem_append.mp h
  rw [words, List.forall_mem_append, List.forall_mem_cons]
  exact ⟨NumberExpr.isLexeme_words hl 0, Word.isLexeme_symbol _, NumberExpr.isLexeme_words hr 0⟩

theorem Conjunction.isLexeme_words {c : Conjunction} (h : ∀ x ∈ c.names, x.Writable) :
    ∀ w ∈ c.words, w.IsLexeme := by
  induction c with
  | one c => exact Comparison.isLexeme_words h
  | and earlier c ih =>
      obtain ⟨hl, hr⟩ := List.forall_mem_append.mp h
      rw [words, List.forall_mem_append, List.forall_mem_cons]
      exact ⟨ih hl, Word.isLexeme_symbol _, Comparison.isLexeme_words hr⟩

theorem Condition.isLexeme_words {c : Condition} (h : ∀ x ∈ c.names, x.Writable) :
    ∀ w ∈ c.words, w.IsLexeme := by
  induction c with
  | one c => exact Conjunction.isLexeme_words h
  | or earlier c ih =>
      obtain ⟨hl, hr⟩ := List.forall_mem_append.mp h
      rw [words, List.forall_mem_append, List.forall_mem_cons]
      exact ⟨ih hl, Word.isLexeme_symbol _, Conjunction.isLexeme_words hr⟩

theorem isLexeme_conditionalWords {test yes no : List Word} (ht : ∀ w ∈ test, w.IsLexeme)
    (hy : ∀ w ∈ yes, w.IsLexeme) (hn : ∀ w ∈ no, w.IsLexeme) :
    ∀ w ∈ conditionalWords test yes no, w.IsLexeme := by
  rw [conditionalWords, List.forall_mem_cons, List.forall_mem_append, List.forall_mem_append]
  exact ⟨Word.isLexeme_keyword _, isLexeme_inParens ht, isLexeme_inBraces hy, hn⟩

mutual

theorem Action.isLexeme_words : ∀ {a : Action}, (∀ x ∈ a.names, x.Writable) →
    ∀ w ∈ a.words, w.IsLexeme
  | .assign x op e, h => by
      rw [Action.names, List.forall_mem_cons] at h
      rw [Action.words, List.forall_mem_cons, List.forall_mem_cons]
      exact ⟨Word.isLexeme_name h.1, Word.isLexeme_symbol _, NumberExpr.isLexeme_words h.2 0⟩
  | .choose test yes no, h => by
      rw [Action.names, List.forall_mem_append, List.forall_mem_append] at h
      rw [Action.words]
      exact isLexeme_conditionalWords (Condition.isLexeme_words h.1) (Block.isLexeme_words h.2.1)
        (Otherwise.isLexeme_words h.2.2)
  | .block body, h => by
      rw [Action.names] at h
      rw [Action.words]
      exact isLexeme_inBraces (Block.isLexeme_words h)

theorem Otherwise.isLexeme_words : ∀ {o : Otherwise}, (∀ x ∈ o.names, x.Writable) →
    ∀ w ∈ o.words, w.IsLexeme
  | .nothing, h => by
      rw [Otherwise.words]
      exact List.forall_mem_nil _
  | .block body, h => by
      rw [Otherwise.names] at h
      rw [Otherwise.words, List.forall_mem_cons]
      exact ⟨Word.isLexeme_keyword _, isLexeme_inBraces (Block.isLexeme_words h)⟩
  | .chain test yes no, h => by
      rw [Otherwise.names, List.forall_mem_append, List.forall_mem_append] at h
      rw [Otherwise.words, List.forall_mem_cons]
      exact ⟨Word.isLexeme_keyword _, isLexeme_conditionalWords (Condition.isLexeme_words h.1)
        (Block.isLexeme_words h.2.1) (Otherwise.isLexeme_words h.2.2)⟩

theorem Block.isLexeme_words : ∀ {b : Block}, (∀ x ∈ b.names, x.Writable) →
    ∀ w ∈ b.words, w.IsLexeme
  | .nil, h => by
      rw [Block.words]
      exact List.forall_mem_nil _
  | .cons first rest, h => by
      rw [Block.names, List.forall_mem_append] at h
      rw [Block.words, List.forall_mem_append]
      exact ⟨Action.isLexeme_words h.1, Block.isLexeme_words h.2⟩

end

theorem PropertyValue.isLexeme_words {v : PropertyValue} (h : v.Writable) :
    ∀ w ∈ v.words, w.IsLexeme := by
  cases v with
  | string text span => exact List.forall_mem_singleton.mpr (Word.isLexeme_string h)
  | name x => exact List.forall_mem_singleton.mpr (Word.isLexeme_name h)
  | number negative magnitude span =>
      have hnumber := List.forall_mem_singleton.mpr (Word.isLexeme_decimal magnitude)
      rw [words]
      split_ifs
      · exact List.forall_mem_cons.mpr ⟨Word.isLexeme_symbol _, hnumber⟩
      · exact hnumber

theorem Property.isLexeme_words {p : Property} (h : p.Writable) : ∀ w ∈ p.words, w.IsLexeme := by
  rw [words, List.forall_mem_cons, List.forall_mem_cons]
  exact ⟨Word.isLexeme_name h.1, Word.isLexeme_symbol _, PropertyValue.isLexeme_words h.2⟩

theorem isLexeme_propertyWords {ps : List Property} (h : ∀ p ∈ ps, p.Writable) :
    ∀ w ∈ propertyWords ps, w.IsLexeme := by
  refine isLexeme_inBraces fun w hw => ?_
  obtain ⟨p, hp, hw⟩ := List.mem_flatMap.mp hw
  exact Property.isLexeme_words (h p hp) w hw

theorem PartLiteral.isLexeme_words (p : PartLiteral) : ∀ w ∈ p.words, w.IsLexeme := by
  rw [words]
  split
  · exact List.forall_mem_singleton.mpr (Word.isLexeme_symbol _)
  · exact List.forall_mem_singleton.mpr (Word.isLexeme_integer _)
  · rw [List.forall_mem_cons, List.forall_mem_singleton]
    exact ⟨Word.isLexeme_symbol _, Word.isLexeme_integer _⟩

theorem PatternLiteral.isLexeme_words (p : PatternLiteral) : ∀ w ∈ p.words, w.IsLexeme := by
  simp only [words, List.forall_mem_append, List.forall_mem_cons]
  exact ⟨p.year.isLexeme_words, Word.isLexeme_symbol _, p.month.isLexeme_words,
    Word.isLexeme_symbol _, p.day.isLexeme_words⟩

theorem Declaration.isLexeme_words {d : Declaration} (h : d.Writable) :
    ∀ w ∈ d.words, w.IsLexeme := by
  cases d with
  | var x e ps =>
      obtain ⟨hx, he, hps⟩ := h
      simp only [words, List.forall_mem_append, List.forall_mem_cons]
      refine ⟨Word.isLexeme_keyword _, Word.isLexeme_name hx, Word.isLexeme_symbol _,
        NumberExpr.isLexeme_words he 0, ?_⟩
      cases ps with
      | none => exact List.forall_mem_nil _
      | some ps => exact isLexeme_propertyWords hps
  | date x p =>
      simp only [words, List.forall_mem_cons]
      exact ⟨Word.isLexeme_keyword _, Word.isLexeme_name h.1, Word.isLexeme_symbol _,
        p.isLexeme_words⟩
  | rule when a =>
      simp only [words, List.forall_mem_append, List.forall_mem_cons]
      refine ⟨Word.isLexeme_keyword _, ?_, Word.isLexeme_symbol _, Action.isLexeme_words h.2⟩
      cases when with
      | pattern p => exact p.isLexeme_words
      | named x => exact List.forall_mem_singleton.mpr (Word.isLexeme_name h.1)

theorem Script.isLexeme_words {s : Script} (h : s.Writable) : ∀ w ∈ s.words, w.IsLexeme := by
  rw [words, List.forall_mem_append]
  refine ⟨fun w hw => ?_, ?_⟩
  · obtain ⟨d, hd, hw⟩ := List.mem_flatMap.mp hw
    exact Declaration.isLexeme_words (h.1 d hd) w hw
  · have hps := h.2
    cases hoptions : s.options with
    | none => exact List.forall_mem_nil _
    | some ps =>
        rw [hoptions] at hps
        exact List.forall_mem_cons.mpr ⟨Word.isLexeme_keyword _, isLexeme_propertyWords hps⟩

end Lexemes

end Forecast
