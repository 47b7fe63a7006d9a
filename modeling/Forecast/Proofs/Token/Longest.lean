import Forecast.Proofs.Script.Rendering

namespace Forecast

namespace Piece

/-- What may stand between the quotes of a string: no quote, no newline, and after a backslash any
other character. -/
inductive StringBody : List Char → Prop
  | nil : StringBody []
  | plain {c : Char} {rest : List Char} (hquote : c ≠ '"') (hnewline : c ≠ '\n')
      (hescape : c ≠ '\\') (h : StringBody rest) : StringBody (c :: rest)
  | escaped {c : Char} {rest : List Char} (hnewline : c ≠ '\n') (h : StringBody rest) :
      StringBody ('\\' :: c :: rest)

inductive Matches : Token.Kind → List Char → Prop
  | keyword (k : Keyword) : Matches (.keyword k) k.chars
  | name {c : Char} {rest : List Char} (hc : c.isAlpha ∨ c = '_')
      (hrest : ∀ d ∈ rest, d.isAlpha ∨ d.isDigit ∨ d = '_') : Matches .name (c :: rest)
  | whole {digits : List Char} (hne : digits ≠ []) (h : ∀ d ∈ digits, d.isDigit) :
      Matches .number digits
  | point {whole fraction : List Char} (hne : whole ≠ []) (hwhole : ∀ d ∈ whole, d.isDigit)
      (hfraction : ∀ d ∈ fraction, d.isDigit) : Matches .number (whole ++ '.' :: fraction)
  | fraction {digits : List Char} (hne : digits ≠ []) (h : ∀ d ∈ digits, d.isDigit) :
      Matches .number ('.' :: digits)
  | string {body : List Char} (h : StringBody body) : Matches .string ('"' :: (body ++ ['"']))
  | symbol (s : Symbol) : Matches (.symbol s) s.chars

/-- The texts that are skipped: a run of blanks, or a comment in one line. -/
inductive Skips : List Char → Prop
  | blanks {gap : List Char} (hne : gap ≠ [])
      (h : ∀ c ∈ gap, c = ' ' ∨ c = '\t' ∨ c = '\r' ∨ c = '\n' ∨ c = '\x0c') : Skips gap
  | comment {line : List Char} (h : '\n' ∉ line) : Skips ('/' :: '/' :: line)

/-- The text is a token of its kind at the front of the rest of a text: no rule matches a longer
one, no other rule that matches it comes first, and nothing is skipped there. -/
structure IsLongest (kind : Token.Kind) (text rest : List Char) : Prop where
  starts : text <+: rest
  fits : Matches kind text
  longest : ∀ kind' text', Matches kind' text' → text' <+: rest → text'.length ≤ text.length
  first : ∀ kind', Matches kind' text → kind' = kind ∨ kind' = .name ∧ ∃ k, kind = .keyword k
  unskipped : ∀ gap, Skips gap → ¬ gap <+: rest

/-- The text is dropped from the front of the rest of a text: no rule matches anything there, and it
is one character, or a quote with as much behind it as can stand in a string. -/
structure IsDropped (text rest : List Char) : Prop where
  starts : text <+: rest
  unfit : ∀ kind text', Matches kind text' → ¬ text' <+: rest
  unskipped : ∀ gap, Skips gap → ¬ gap <+: rest
  extent : (∃ c, c ≠ '"' ∧ text = [c]) ∨ ∃ body, StringBody body ∧ text = '"' :: body ∧
    ∀ body', StringBody body' → '"' :: body' <+: rest → body'.length ≤ body.length

variable {c : Char} {rest text body : List Char} {kind : Token.Kind} {more n : Nat}

theorem StringBody.stringTail (h : StringBody body) (after : List Char) :
    Piece.stringTail (body ++ '"' :: after) = (body.length + 1, true) := by
  induction h with
  | nil => rfl
  | plain hquote hnewline hescape h ih =>
      rw [List.cons_append, stringTail_cons hquote hnewline hescape, ih]
      rfl
  | escaped hnewline h ih =>
      rw [List.cons_append, List.cons_append, stringTail_escape hnewline, ih]
      rfl

theorem StringBody.length_le (h : StringBody body) (hstarts : body <+: rest) :
    body.length ≤ (Piece.stringTail rest).1 := by
  induction h generalizing rest with
  | nil => exact Nat.zero_le _
  | plain hquote hnewline hescape h ih =>
      obtain ⟨after, rfl⟩ := hstarts
      rw [List.cons_append, stringTail_cons hquote hnewline hescape]
      exact Nat.succ_le_succ (ih (List.prefix_append _ _))
  | escaped hnewline h ih =>
      obtain ⟨after, rfl⟩ := hstarts
      rw [List.cons_append, List.cons_append, stringTail_escape hnewline]
      exact Nat.add_le_add_right (ih (List.prefix_append _ _)) 2

theorem exists_stringBody (rest : List Char) : ∃ body, StringBody body ∧
    rest.take (stringTail rest).1 = if (stringTail rest).2 then body ++ ['"'] else body := by
  induction rest using stringTail.induct with
  | case1 => exact ⟨[], .nil, rfl⟩
  | case2 rest => exact ⟨[], .nil, rfl⟩
  | case3 rest => exact ⟨[], .nil, rfl⟩
  | case4 => exact ⟨[], .nil, rfl⟩
  | case5 rest => exact ⟨[], .nil, rfl⟩
  | case6 c rest hc ih =>
      obtain ⟨body, hbody, htake⟩ := ih
      refine ⟨'\\' :: c :: body, .escaped hc hbody, ?_⟩
      rw [stringTail_escape hc, List.take_succ_cons, List.take_succ_cons, htake]
      split <;> rfl
  | case7 c rest hquote hnewline hend hbreak hescape ih =>
      have hbackslash : c ≠ '\\' := by
        rintro rfl
        cases rest with
        | nil => exact hend rfl rfl
        | cons d rest => exact hescape d rest rfl rfl
      obtain ⟨body, hbody, htake⟩ := ih
      refine ⟨c :: body, .plain hquote hnewline hbackslash hbody, ?_⟩
      rw [stringTail_cons hquote hnewline hbackslash, List.take_succ_cons, htake]
      split <;> rfl

theorem ofChars?_chars (s : Symbol) : Symbol.ofChars? s.chars = some s := by
  cases s <;> rfl

theorem chars_of_ofChars? {mark : List Char} {s : Symbol} (h : Symbol.ofChars? mark = some s) :
    s.chars = mark := by
  simpa [Symbol.ofChars?] using List.find?_some h

theorem keyword_ofChars?_chars (k : Keyword) : Keyword.ofChars? k.chars = some k := by
  cases k <;> rfl

theorem chars_of_keyword_ofChars? {word : List Char} {k : Keyword}
    (h : Keyword.ofChars? word = some k) : k.chars = word := by
  simpa [Keyword.ofChars?] using List.find?_some h

def IsMark (c : Char) : Prop := ∃ s : Symbol, c ∈ s.chars.head?

theorem IsMark.classify (h : IsMark c) (hgap : (Piece.classify c rest).1 ≠ .gap) {s : Symbol}
    (hs : symbol? c rest = some s) :
    Piece.classify c rest = (.token (.symbol s), s.chars.length - 1) := by
  have hblank : ¬ isBlank c := fun hc => hgap (by rw [Piece.classify, if_pos hc])
  have hcomment : ¬ (c = '/' ∧ rest.head? = some '/') := fun hc =>
    hgap (by rw [Piece.classify, if_neg hblank, if_pos hc])
  have hplain : isWordStart c = false ∧ c.isDigit = false ∧ c ≠ '.' ∧ c ≠ '"' := by
    obtain ⟨s, hs⟩ := h
    cases s <;> obtain rfl := Option.some.inj hs <;> decide
  obtain ⟨hword, hdigit, hpoint, hquote⟩ := hplain
  rw [Piece.classify, if_neg hblank, if_neg hcomment, if_neg (Bool.eq_false_iff.mp hword),
    if_neg (Bool.eq_false_iff.mp hdigit), if_neg (fun hc => hpoint hc.1), if_neg hquote, hs]

theorem exists_symbol? {s : Symbol} {mark : List Char} (hs : s.chars = c :: mark)
    (hstarts : mark <+: rest) :
    ∃ s', symbol? c rest = some s' ∧ mark.length ≤ s'.chars.length - 1 ∧
      (mark.length = s'.chars.length - 1 → s' = s) := by
  have hone : mark.length ≤ 1 := by
    have hlength := congrArg List.length hs
    rw [List.length_cons] at hlength
    have htwo : s.chars.length ≤ 2 := by cases s <;> decide
    omega
  have hfound : Symbol.ofChars? (c :: mark) = some s := hs ▸ ofChars?_chars s
  rw [symbol?]
  cases htwo : Symbol.ofChars? (c :: rest.take 1) with
  | some s' =>
      have hprefix : mark <+: rest.take 1 := List.prefix_take_iff.mpr ⟨hstarts, hone⟩
      have hchars := chars_of_ofChars? htwo
      refine ⟨s', rfl, ?_, fun heq => ?_⟩
      · rw [hchars]
        exact hprefix.length_le
      · rw [hchars] at heq
        rw [← hprefix.eq_of_length heq, hfound] at htwo
        exact (Option.some.inj htwo).symm
  | none =>
      -- The two characters are no symbol, so the one at hand is a single character.
      obtain rfl : mark = [] := by
        by_contra hne
        have hlength : mark.length = 1 := by
          have := List.length_pos_iff.mpr hne
          omega
        rw [← hlength, ← List.prefix_iff_eq_take.mp hstarts, hfound] at htwo
        cases htwo
      refine ⟨s, hfound, Nat.zero_le _, fun _ => rfl⟩

theorem classify_point (h : digitRun rest ≠ 0) :
    classify '.' rest = (.token .number, digitRun rest) := by
  have hslash : ¬ ('.' = '/' ∧ rest.head? = some '/') := fun hc => absurd hc.1 (by decide)
  rw [classify, if_neg (by decide), if_neg hslash, if_neg (by decide), if_neg (by decide),
    if_pos ⟨rfl, h⟩]

theorem matches_wordKind {word : List Char} (hc : isWordStart c)
    (hrest : ∀ d ∈ word, isWordPart d) : Matches (wordKind (c :: word)) (c :: word) := by
  rw [wordKind]
  split
  · rename_i k hk
    rw [← chars_of_keyword_ofChars? hk]
    exact .keyword k
  · refine .name (by simpa [isWordStart] using hc) fun d hd => ?_
    have hpart := hrest d hd
    simpa [isWordPart, Char.isAlphanum, or_assoc] using hpart

theorem matches_numeral (hc : c.isDigit) (h : numberTail rest = rest.length) :
    Matches .number (c :: rest) := by
  rcases digits_of_numberTail h with hdigits | ⟨whole, fraction, rfl, hwhole, hfraction⟩
  · exact .whole (List.cons_ne_nil _ _) (List.forall_mem_cons.mpr ⟨hc, hdigits⟩)
  · exact .point (List.cons_ne_nil c whole) (List.forall_mem_cons.mpr ⟨hc, hwhole⟩) hfraction

theorem matches_string (h : stringTail rest = (rest.length, true)) :
    Matches .string ('"' :: rest) := by
  obtain ⟨body, hbody, htake⟩ := exists_stringBody rest
  rw [h, if_pos rfl, List.take_length] at htake
  rw [htake]
  exact .string hbody

theorem matches_symbol {s : Symbol} (h : symbol? c rest = some s)
    (hlength : s.chars.length - 1 = rest.length) : Matches (.symbol s) (c :: rest) := by
  suffices hchars : s.chars = c :: rest by
    rw [← hchars]
    exact .symbol s
  rw [symbol?] at h
  cases htwo : Symbol.ofChars? (c :: rest.take 1) with
  | some s' =>
      rw [htwo] at h
      obtain rfl := Option.some.inj h
      have hchars := chars_of_ofChars? htwo
      rw [hchars] at hlength
      rw [hchars, (List.take_prefix 1 rest).eq_of_length hlength]
  | none =>
      rw [htwo, Option.none_or] at h
      have hchars := chars_of_ofChars? h
      rw [hchars] at hlength
      rw [hchars, List.length_eq_zero_iff.mp hlength.symm]

theorem matches_of_classify (h : classify c rest = (.token kind, rest.length)) :
    Matches kind (c :: rest) := by
  rw [classify] at h
  split_ifs at h with hblank hcomment hword hdigit hpoint hquote
  · cases h
  · cases h
  · obtain ⟨hkind, hlength⟩ := Prod.mk.inj h
    have hrest : rest.takeWhile isWordPart = rest :=
      (List.takeWhile_prefix _).eq_of_length hlength
    obtain rfl := Role.token.inj hkind
    rw [hrest]
    exact matches_wordKind hword (List.takeWhile_eq_self_iff.mp hrest)
  · obtain ⟨hkind, hlength⟩ := Prod.mk.inj h
    obtain rfl := Role.token.inj hkind
    exact matches_numeral hdigit hlength
  · obtain ⟨hkind, hlength⟩ := Prod.mk.inj h
    obtain rfl := Role.token.inj hkind
    obtain ⟨rfl, hne⟩ := hpoint
    refine .fraction ?_ (digitRun_eq_length_iff.mp hlength)
    rintro rfl
    exact hne rfl
  · subst hquote
    split at h
    · rename_i n htail
      obtain ⟨hkind, rfl⟩ := Prod.mk.inj h
      obtain rfl := Role.token.inj hkind
      exact matches_string htail
    · cases h
  · split at h
    · rename_i s hs
      obtain ⟨hkind, hlength⟩ := Prod.mk.inj h
      obtain rfl := Role.token.inj hkind
      exact matches_symbol hs hlength
    · cases h

/-- The piece at the front of a text is a token that goes on at least as far as a text of this kind,
and if it goes no further, it is of this kind or it is a keyword in place of a name. -/
def Covers (role : Role × Nat) (kind : Token.Kind) (n : Nat) : Prop :=
  ∃ kind' more, role = (.token kind', more) ∧ n ≤ more ∧
    (n = more → kind = kind' ∨ kind = .name ∧ ∃ k, kind' = .keyword k)

theorem prefix_takeWhile {p : Char → Bool} (h : ∀ d ∈ text, p d) (hstarts : text <+: rest) :
    text <+: rest.takeWhile p := by
  obtain ⟨after, rfl⟩ := hstarts
  rw [List.takeWhile_append_of_pos h]
  exact List.prefix_append _ _

theorem covers_word {word : List Char} (hc : isWordStart c) (hword : ∀ d ∈ word, isWordPart d)
    (hstarts : word <+: rest)
    (hkind : kind = wordKind (c :: word) ∨ kind = .name) :
    Covers (classify c rest) kind word.length := by
  have hprefix := prefix_takeWhile hword hstarts
  refine ⟨_, _, classify_of_isWordStart hc rest, hprefix.length_le, fun heq => ?_⟩
  rw [← hprefix.eq_of_length heq]
  rcases hkind with rfl | rfl
  · exact .inl rfl
  · rw [wordKind]
    split
    · rename_i k _
      exact .inr ⟨rfl, k, rfl⟩
    · exact .inl rfl

theorem covers_number (h : classify c rest = (.token .number, more)) (hle : n ≤ more) :
    Covers (classify c rest) .number n := ⟨_, _, h, hle, fun _ => .inl rfl⟩

theorem length_le_digitRun {digits : List Char} (h : ∀ d ∈ digits, d.isDigit)
    (hstarts : digits <+: rest) : digits.length ≤ digitRun rest :=
  (prefix_takeWhile h hstarts).length_le

theorem isWordPart_of_mem_chars (k : Keyword) : ∀ d ∈ k.chars, isWordPart d := by
  refine List.all_eq_true.mp ?_
  cases k <;> rfl

theorem covers_of_matches {word : List Char} (h : Matches kind (c :: word))
    (hstarts : word <+: rest) (hgap : (classify c rest).1 ≠ .gap) :
    Covers (classify c rest) kind word.length := by
  generalize htext : c :: word = text at h
  cases h with
  | keyword k =>
      refine covers_word ?_ ?_ hstarts (.inl ?_)
      · cases k <;> obtain ⟨rfl, rfl⟩ := List.cons.inj htext <;> rfl
      · exact fun d hd => isWordPart_of_mem_chars k d (htext ▸ List.mem_cons_of_mem _ hd)
      · rw [htext, wordKind, keyword_ofChars?_chars]
  | name hc hrest =>
      obtain ⟨rfl, rfl⟩ := List.cons.inj htext
      refine covers_word ?_ (fun d hd => ?_) hstarts (.inr rfl)
      · simpa [isWordStart] using hc
      · have hpart := hrest d hd
        simpa [isWordPart, Char.isAlphanum, or_assoc] using hpart
  | whole hne hdigits =>
      obtain ⟨hc, hdigits⟩ := List.forall_mem_cons.mp (htext ▸ hdigits)
      exact covers_number (classify_of_isDigit hc rest)
        ((length_le_digitRun hdigits hstarts).trans (digitRun_le_numberTail rest))
  | @point whole fraction hne hwhole hfraction =>
      obtain ⟨d, whole, rfl⟩ := List.exists_cons_of_ne_nil hne
      obtain ⟨rfl, rfl⟩ := List.cons.inj htext
      obtain ⟨hc, hwhole⟩ := List.forall_mem_cons.mp hwhole
      obtain ⟨after, rfl⟩ := hstarts
      refine covers_number (classify_of_isDigit hc _) ?_
      have hrun := length_le_digitRun hfraction (List.prefix_append fraction after)
      rw [List.append_eq, List.append_assoc, List.cons_append, numberTail_of_point hwhole,
        List.length_append, List.length_cons]
      omega
  | fraction hne hdigits =>
      obtain ⟨rfl, rfl⟩ := List.cons.inj htext
      have hle := length_le_digitRun hdigits hstarts
      have hpos := List.length_pos_iff.mpr hne
      exact covers_number (classify_point (by omega)) hle
  | string hbody =>
      obtain ⟨rfl, rfl⟩ := List.cons.inj htext
      obtain ⟨after, rfl⟩ := hstarts
      have hclass := classify_quote (hbody.stringTail after)
      rw [List.append_cons] at hclass
      refine ⟨_, _, hclass, ?_, fun _ => .inl rfl⟩
      rw [List.length_append, List.length_singleton]
  | symbol s =>
      have hmark : IsMark c := ⟨s, by rw [← htext]; rfl⟩
      obtain ⟨s', hs, hle, hfirst⟩ := exists_symbol? htext.symm hstarts
      refine ⟨_, _, hmark.classify hgap hs, hle, fun heq => .inl ?_⟩
      rw [hfirst heq]

theorem gap_of_skips {gap : List Char} (h : Skips gap) (hstarts : gap <+: c :: rest) :
    (classify c rest).1 = .gap := by
  obtain ⟨after, happend⟩ := hstarts
  cases h with
  | blanks hne hblank =>
      obtain ⟨d, gap, rfl⟩ := List.exists_cons_of_ne_nil hne
      obtain ⟨rfl, -⟩ := List.cons.inj happend
      have hd : isBlank d := by
        rcases hblank d List.mem_cons_self with rfl | rfl | rfl | rfl | rfl <;> rfl
      rw [classify, if_pos hd]
  | comment hline =>
      obtain ⟨rfl, rfl⟩ := List.cons.inj happend
      rfl

theorem isLongest_of_classify (h : classify c rest = (.token kind, more)) :
    IsLongest kind (c :: rest.take more) (c :: rest) := by
  obtain ⟨hle, htake⟩ := classify_take h
  have hlength : (rest.take more).length = more := List.length_take_of_le hle
  have hgap : (classify c rest).1 ≠ .gap := by
    rw [h]
    exact nofun
  have hcovers : ∀ kind' word, Matches kind' (c :: word) → word <+: rest → word.length ≤ more ∧
      (word.length = more → kind' = kind ∨ kind' = .name ∧ ∃ k, kind = .keyword k) := by
    intro kind' word hmatch hstarts
    obtain ⟨kind'', more', hclass, hlonger, hfirst⟩ := covers_of_matches hmatch hstarts hgap
    obtain ⟨hkind, rfl⟩ := Prod.mk.inj (h.symm.trans hclass)
    obtain rfl := Role.token.inj hkind
    exact ⟨hlonger, hfirst⟩
  constructor
  case starts => exact List.cons_prefix_cons.mpr ⟨rfl, List.take_prefix _ _⟩
  case fits =>
      refine matches_of_classify ?_
      rw [htake, hlength]
  case longest =>
      intro kind' text' hmatch hstarts
      cases text' with
      | nil => exact Nat.zero_le _
      | cons d word =>
          obtain ⟨rfl, hword⟩ := List.cons_prefix_cons.mp hstarts
          rw [List.length_cons, List.length_cons, hlength]
          exact Nat.succ_le_succ (hcovers kind' word hmatch hword).1
  case first =>
      intro kind' hmatch
      exact (hcovers kind' _ hmatch (List.take_prefix _ _)).2 hlength
  case unskipped => exact fun gap hskips hstarts => hgap (gap_of_skips hskips hstarts)

theorem ne_nil_of_matches (h : Matches kind text) : text ≠ [] := by
  cases h with
  | keyword k => cases k <;> exact List.cons_ne_nil _ _
  | name hc hrest => exact List.cons_ne_nil _ _
  | whole hne h => exact hne
  | point hne hwhole hfraction => exact List.append_ne_nil_of_left_ne_nil hne _
  | fraction hne h => exact List.cons_ne_nil _ _
  | string h => exact List.cons_ne_nil _ _
  | symbol s => cases s <;> exact List.cons_ne_nil _ _

theorem broken_cases (h : classify c rest = (.broken, more)) :
    c = '"' ∧ stringTail rest = (more, false) ∨ c ≠ '"' ∧ more = 0 := by
  rw [classify] at h
  split_ifs at h with hblank hcomment hword hdigit hpoint hquote
  · cases h
  · cases h
  · cases h
  · cases h
  · cases h
  · split at h
    · cases h
    · rename_i n htail
      obtain ⟨-, rfl⟩ := Prod.mk.inj h
      exact .inl ⟨hquote, htail⟩
  · split at h
    · cases h
    · exact .inr ⟨hquote, (Prod.mk.inj h).2.symm⟩

theorem isDropped_of_classify (h : classify c rest = (.broken, more)) :
    IsDropped (c :: rest.take more) (c :: rest) := by
  have hgap : (classify c rest).1 ≠ .gap := by
    rw [h]
    exact nofun
  constructor
  case starts => exact List.cons_prefix_cons.mpr ⟨rfl, List.take_prefix _ _⟩
  case unfit =>
      intro kind text' hmatch hstarts
      obtain ⟨d, word, rfl⟩ := List.exists_cons_of_ne_nil (ne_nil_of_matches hmatch)
      obtain ⟨rfl, hword⟩ := List.cons_prefix_cons.mp hstarts
      obtain ⟨kind', more', hclass, -, -⟩ := covers_of_matches hmatch hword hgap
      cases h.symm.trans hclass
  case unskipped => exact fun gap hskips hstarts => hgap (gap_of_skips hskips hstarts)
  case extent =>
      rcases broken_cases h with ⟨rfl, htail⟩ | ⟨hquote, rfl⟩
      · obtain ⟨body, hbody, htake⟩ := exists_stringBody rest
        rw [htail, if_neg Bool.false_ne_true] at htake
        refine .inr ⟨body, hbody, by rw [htake], fun body' hbody' hstarts => ?_⟩
        have hle := hbody'.length_le (List.cons_prefix_cons.mp hstarts).2
        have hlength := (stringTail_take rest).1
        rw [htail] at hle hlength
        rwa [← htake, List.length_take_of_le hlength]
      · exact .inl ⟨c, hquote, by rw [List.take_zero]⟩

end Piece

end Forecast
