import Forecast.Proofs.Script.Lexeme

namespace Forecast

structure Word where
  kind : Token.Kind
  text : List Char
  deriving DecidableEq

def Token.word (t : Token) : Word := ⟨t.kind, t.text.toList⟩

def Word.IsLexeme (w : Word) : Prop :=
  ∃ c rest, w.text = c :: rest ∧ Piece.classify c rest = (.token w.kind, rest.length)

namespace Piece

def Ends (after : List Char) : Prop := ∀ c ∈ after.head?, isBlank c

/-- The second text may come after a token in place of the first one: it begins with the same
character, or goes on with a blank, if at all. -/
def Follows (after after' : List Char) : Prop := after'.head? = after.head? ∨ Ends after'

variable {after after' : List Char}

theorem eq_of_isBlank {c : Char} (h : isBlank c) :
    c = ' ' ∨ c = '\t' ∨ c = '\r' ∨ c = '\n' ∨ c = '\x0c' := by
  simpa [isBlank, or_assoc] using h

theorem isWordPart_of_isBlank (c : Char) (h : isBlank c) : isWordPart c = false := by
  rcases eq_of_isBlank h with rfl | rfl | rfl | rfl | rfl <;> rfl

theorem isDigit_of_isBlank (c : Char) (h : isBlank c) : c.isDigit = false := by
  rcases eq_of_isBlank h with rfl | rfl | rfl | rfl | rfl <;> rfl

theorem takeWhile_append_of_follows {p : Char → Bool} (hp : ∀ c, isBlank c → p c = false)
    (hafter : Follows after after') {l : List Char}
    (h : ((l ++ after).takeWhile p).length = l.length) : (l ++ after').takeWhile p = l := by
  have hself : (l ++ after).takeWhile p = l :=
    (List.prefix_of_prefix_length_le (List.takeWhile_prefix p) (List.prefix_append l after)
      h.le).eq_of_length h
  have hl : ∀ c ∈ l, p c := fun c hc => List.mem_takeWhile_imp (hself.symm ▸ hc)
  rw [List.takeWhile_append_of_pos hl, List.append_right_eq_self] at hself
  rw [List.takeWhile_append_of_pos hl, List.append_right_eq_self]
  cases after' with
  | nil => exact List.takeWhile_nil
  | cons d rest' =>
      have hd : ¬ p d := by
        rcases hafter with hhead | hends
        · obtain ⟨rest, rfl⟩ := List.head?_eq_some_iff.mp hhead.symm
          exact fun hd => by simp [hd] at hself
        · simp [hp d (hends d rfl)]
      exact List.takeWhile_cons_of_neg hd

theorem digitRun_append (hafter : Follows after after') {l : List Char}
    (h : digitRun (l ++ after) = l.length) : digitRun (l ++ after') = l.length := by
  rw [digitRun, takeWhile_append_of_follows isDigit_of_isBlank hafter h]

theorem digitRun_le_numberTail (rest : List Char) : digitRun rest ≤ numberTail rest := by
  rw [numberTail]
  split <;> omega

theorem numberTail_append (hafter : Follows after after') {rest : List Char}
    (h : numberTail (rest ++ after) = rest.length) :
    numberTail (rest ++ after') = rest.length := by
  have halone : numberTail rest = rest.length := by
    have htake := (numberTail_take (rest ++ after)).2
    rwa [h, List.take_left] at htake
  rcases digits_of_numberTail halone with hdigits | ⟨whole, fraction, rfl, hw, hf⟩
  · have hsum : digitRun (rest ++ after) = rest.length + digitRun after := by
      rw [digitRun, List.takeWhile_append_of_pos hdigits, List.length_append, digitRun]
    have hle := digitRun_le_numberTail (rest ++ after)
    have hrun := digitRun_append hafter (l := rest) (by omega)
    have hpoint : ∀ fraction, after' ≠ '.' :: fraction := by
      rintro fraction rfl
      rcases hafter with hhead | hends
      · obtain ⟨rest', rfl⟩ := List.head?_eq_some_iff.mp hhead.symm
        rw [numberTail_of_point hdigits] at h
        omega
      · exact absurd (hends '.' rfl) (by decide)
    rw [numberTail_of_ne_point, hrun]
    rw [hrun, List.drop_left]
    exact hpoint
  · rw [List.append_assoc, List.cons_append, numberTail_of_point hw] at h ⊢
    rw [List.length_append, List.length_cons] at h ⊢
    rw [digitRun_append hafter (by omega)]
    omega

theorem stringTail_append (rest after : List Char) (h : (stringTail rest).2 = true) :
    stringTail (rest ++ after) = stringTail rest := by
  induction rest using stringTail.induct with
  | case1 => simp [stringTail] at h
  | case2 rest => simp [stringTail]
  | case3 rest => simp [stringTail]
  | case4 => simp [stringTail] at h
  | case5 rest => simp [stringTail]
  | case6 c rest hc ih =>
      rw [stringTail_escape hc] at h ⊢
      rw [List.cons_append, List.cons_append, stringTail_escape hc, ih h]
  | case7 c rest hquote hnewline hend hbreak hescape ih =>
      have hbackslash : c ≠ '\\' := by
        rintro rfl
        cases rest with
        | nil => exact hend rfl rfl
        | cons d rest => exact hescape d rest rfl rfl
      rw [stringTail_cons hquote hnewline hbackslash] at h ⊢
      rw [List.cons_append, stringTail_cons hquote hnewline hbackslash, ih h]

theorem ofChars?_blank (c : Char) {d : Char} (hd : isBlank d) : Symbol.ofChars? [c, d] = none := by
  rw [Symbol.ofChars?, List.find?_eq_none]
  intro s _ hs
  have hchars : s.chars = [c, d] := by simpa using hs
  rcases eq_of_isBlank hd with rfl | rfl | rfl | rfl | rfl <;>
    cases s <;> simp [Symbol.chars] at hchars

theorem symbol?_point (rest : List Char) : symbol? '.' rest = none := by
  have hnone : ∀ l, Symbol.ofChars? ('.' :: l) = none := by
    intro l
    rw [Symbol.ofChars?, List.find?_eq_none]
    intro s _ hs
    have hchars : s.chars = '.' :: l := by simpa using hs
    cases s <;> simp [Symbol.chars] at hchars
  rw [symbol?, hnone, hnone, Option.none_or]

theorem symbol?_append (hafter : Follows after after') {c : Char} {rest : List Char} {s : Symbol}
    (h : symbol? c (rest ++ after) = some s) (hlength : s.chars.length - 1 = rest.length) :
    symbol? c (rest ++ after') = some s := by
  rcases hafter with hhead | hends
  · rw [symbol?, List.take_one, List.head?_append] at h ⊢
    rwa [hhead]
  · have halone := (symbol?_take h).2
    rw [hlength, List.take_left] at halone
    cases rest with
    | cons d rest => simpa [symbol?] using halone
    | nil =>
        cases after' with
        | nil => exact halone
        | cons d after' =>
            have hd := ofChars?_blank c (hends d rfl)
            rw [symbol?] at halone ⊢
            simpa [hd] using halone

/-- What follows a token does not change it if it begins as before or with a blank. -/
theorem classify_append (hafter : Follows after after') {c : Char} {rest : List Char}
    {kind : Token.Kind} (h : classify c (rest ++ after) = (.token kind, rest.length)) :
    classify c (rest ++ after') = (.token kind, rest.length) := by
  have hhead : (rest ++ after').head? = some '/' → (rest ++ after).head? = some '/' := by
    rcases hafter with hhead | hends
    · rw [List.head?_append, List.head?_append, hhead]
      exact id
    · cases rest with
      | nil => exact fun h => absurd (hends '/' h) (by decide)
      | cons d rest => exact id
  rw [classify] at h
  split_ifs at h with hblank hcomment hword hdigit hpoint hquote
  · cases h
  · cases h
  all_goals
    have hcomment' : ¬ (c = '/' ∧ (rest ++ after').head? = some '/') :=
      fun hc => hcomment ⟨hc.1, hhead hc.2⟩
    rw [classify, if_neg hblank, if_neg hcomment']
  · obtain ⟨hkind, hlength⟩ := Prod.mk.inj h
    have hself := takeWhile_append_of_follows isWordPart_of_isBlank (.inl rfl) hlength
    rw [hself] at hkind
    rw [if_pos hword, takeWhile_append_of_follows isWordPart_of_isBlank hafter hlength]
    exact Prod.ext hkind rfl
  · obtain ⟨hkind, hlength⟩ := Prod.mk.inj h
    rw [if_neg hword, if_pos hdigit, numberTail_append hafter hlength, hkind]
  · obtain ⟨hkind, hlength⟩ := Prod.mk.inj h
    rw [hlength] at hpoint
    rw [if_neg hword, if_neg hdigit, digitRun_append hafter hlength, if_pos hpoint, hkind]
  · have hnot : ¬ (c = '.' ∧ digitRun (rest ++ after') ≠ 0) := by
      rintro ⟨rfl, -⟩
      cases hquote
    rw [if_neg hword, if_neg hdigit, if_neg hnot, if_pos hquote]
    split at h
    · rename_i n htail
      obtain ⟨hkind, rfl⟩ := Prod.mk.inj h
      have halone := (stringTail_take (rest ++ after)).2 (by rw [htail])
      rw [htail, List.take_left] at halone
      rw [stringTail_append rest after' (by rw [halone]), halone, hkind]
    · cases h
  · split at h
    · rename_i s hs
      obtain ⟨hkind, hlength⟩ := Prod.mk.inj h
      have hnot : ¬ (c = '.' ∧ digitRun (rest ++ after') ≠ 0) := by
        rintro ⟨rfl, -⟩
        rw [symbol?_point] at hs
        cases hs
      rw [if_neg hword, if_neg hdigit, if_neg hnot, if_neg hquote, symbol?_append hafter hs hlength]
      exact h
    · cases h

def word? : Piece → Option Word
  | ⟨.token kind, text⟩ => some ⟨kind, text⟩
  | _ => none

structure Cuts (text : List Char) (words : List Word) : Prop where
  words : (split text).filterMap word? = words
  unbroken : ∀ p ∈ split text, p.role ≠ .broken

theorem Cuts.nil : Cuts [] [] := by
  constructor <;> simp [split]

theorem Cuts.cons_gap {c : Char} {rest : List Char} {more : Nat} {words : List Word}
    (hclass : classify c rest = (.gap, more)) (h : Cuts (rest.drop more) words) :
    Cuts (c :: rest) words := by
  have hsplit : split (c :: rest) = ⟨.gap, c :: rest.take more⟩ :: split (rest.drop more) := by
    rw [split, hclass]
  constructor
  · rw [hsplit, ← h.words]
    rfl
  · rw [hsplit]
    exact List.forall_mem_cons.mpr ⟨by simp, h.unbroken⟩

theorem Cuts.cons_word {c : Char} {rest : List Char} {kind : Token.Kind} {words : List Word}
    (hclass : classify c (rest ++ after) = (.token kind, rest.length)) (h : Cuts after words) :
    Cuts (c :: (rest ++ after)) (⟨kind, c :: rest⟩ :: words) := by
  have hsplit : split (c :: (rest ++ after)) = ⟨.token kind, c :: rest⟩ :: split after := by
    rw [split, hclass]
    simp only [List.take_left, List.drop_left]
  constructor
  · rw [hsplit, ← h.words]
    rfl
  · rw [hsplit]
    exact List.forall_mem_cons.mpr ⟨by simp, h.unbroken⟩

theorem Cuts.gap {text : List Char} {words : List Word} (h : Cuts text words) {gap : List Char}
    (hgap : ∀ c ∈ gap, isBlank c) : Cuts (gap ++ text) words := by
  induction gap with
  | nil => exact h
  | cons c gap ih =>
      obtain ⟨hc, hgap⟩ := List.forall_mem_cons.mp hgap
      have hclass : classify c (gap ++ text) = (.gap, 0) := by rw [classify, if_pos hc]
      exact (ih hgap).cons_gap hclass

theorem Cuts.word {words : List Word} (h : Cuts after words) (hafter : Ends after) {w : Word}
    (hw : w.IsLexeme) : Cuts (w.text ++ after) (w :: words) := by
  obtain ⟨kind, text⟩ := w
  obtain ⟨c, rest, htext, hclass⟩ := hw
  obtain rfl : text = c :: rest := htext
  have halone : classify c (rest ++ []) = (.token kind, rest.length) := by
    rw [List.append_nil, hclass]
  exact h.cons_word (classify_append (.inr hafter) halone)

end Piece

def spread (gap : Nat → List Char) : Nat → List Word → List Char
  | k, [] => gap k
  | k, w :: words => gap k ++ (w.text ++ spread gap (k + 1) words)

/-- The gaps are blank, and there is one between each two of `n` words. -/
structure Separates (gap : Nat → List Char) (n : Nat) : Prop where
  blank : ∀ k, ∀ c ∈ gap k, Piece.isBlank c
  ne_nil : ∀ k, 0 < k → k < n → gap k ≠ []

theorem ends_spread {gap : Nat → List Char} {words : List Word} {k : Nat}
    (hblank : ∀ k, ∀ c ∈ gap k, Piece.isBlank c) (hne : words ≠ [] → gap k ≠ []) :
    Piece.Ends (spread gap k words) := by
  cases words with
  | nil => exact fun c hc => hblank k c (List.mem_of_mem_head? hc)
  | cons w words =>
      obtain ⟨d, rest, hd⟩ := List.exists_cons_of_ne_nil (hne (List.cons_ne_nil _ _))
      intro c hc
      rw [spread, hd, List.cons_append, List.head?_cons, Option.mem_some_iff] at hc
      exact hblank k c (by rw [hd, hc]; exact List.mem_cons_self)

theorem cuts_spread {gap : Nat → List Char} {words : List Word} {k : Nat}
    (hwords : ∀ w ∈ words, w.IsLexeme) (hblank : ∀ k, ∀ c ∈ gap k, Piece.isBlank c)
    (hne : ∀ j, k < j → j < k + words.length → gap j ≠ []) :
    Piece.Cuts (spread gap k words) words := by
  induction words generalizing k with
  | nil =>
      have h := Piece.Cuts.nil.gap (hblank k)
      rwa [List.append_nil] at h
  | cons w words ih =>
      obtain ⟨hw, hwords⟩ := List.forall_mem_cons.mp hwords
      rw [List.length_cons] at hne
      have hrest := ih (k := k + 1) hwords fun j hj hlt => hne j (by omega) (by omega)
      have hends : Piece.Ends (spread gap (k + 1) words) := by
        refine ends_spread hblank fun hnil => hne (k + 1) (by omega) ?_
        have := List.length_pos_iff.mpr hnil
        omega
      exact (hrest.word hends hw).gap (hblank k)

theorem Piece.Cuts.ofText {text : List Char} {words : List Word} (h : Cuts text words) :
    (Token.ofText text).map Token.word = words ∧ Token.brokenParts text = [] := by
  obtain ⟨hwords, hunbroken⟩ := h
  rw [Token.ofText, Token.brokenParts]
  generalize (0 : Nat) = offset
  generalize split text = ps at hwords hunbroken
  subst hwords
  induction ps generalizing offset with
  | nil => exact ⟨rfl, rfl⟩
  | cons p ps ih =>
      obtain ⟨hp, hps⟩ := List.forall_mem_cons.mp hunbroken
      obtain ⟨htokens, hbroken⟩ := ih (offset + byteLength p.text) hps
      obtain ⟨role, text⟩ := p
      cases role with
      | gap => exact ⟨htokens, hbroken⟩
      | broken => exact absurd rfl hp
      | token kind =>
          refine ⟨?_, hbroken⟩
          simp only [place, List.filterMap_cons, token?, word?, List.map_cons, Token.word]
          rw [htokens, String.toList_ofList]

theorem Token.ofText_spread {gap : Nat → List Char} {words : List Word}
    (hwords : ∀ w ∈ words, w.IsLexeme) (hgap : Separates gap words.length) :
    (ofText (spread gap 0 words)).map Token.word = words ∧
      brokenParts (spread gap 0 words) = [] := by
  refine (cuts_spread hwords hgap.blank fun j hj hlt => hgap.ne_nil j hj ?_).ofText
  omega

end Forecast
