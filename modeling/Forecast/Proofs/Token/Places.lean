import Mathlib.Data.List.Infix
import Forecast.Proofs.Script.Lexeme
import Forecast.Proofs.Source.Position

namespace Forecast

def StandsAt (source : List Char) (offset : Nat) (text : List Char) : Prop :=
  ∃ before after, source = before ++ (text ++ after) ∧ byteLength before = offset

/-- Blanks and comments. A comment goes up to the end of its line. -/
inductive IsGap : List Char → Prop
  | nil : IsGap []
  | blank {c : Char} {rest : List Char} (hc : Piece.isBlank c) (h : IsGap rest) : IsGap (c :: rest)
  | comment {line rest : List Char} (hline : '\n' ∉ line) (h : IsGap ('\n' :: rest)) :
      IsGap ('/' :: '/' :: (line ++ '\n' :: rest))

/-- The text is that of the tokens, from the first to the last, with gaps between them. -/
inductive Lays : List Token → List Char → Prop
  | last (t : Token) : Lays [t] t.text.toList
  | cons {ts : List Token} {gap text : List Char} (t : Token) (hgap : IsGap gap) (h : Lays ts text) :
      Lays (t :: ts) (t.text.toList ++ (gap ++ text))

namespace Piece

variable {c : Char} {rest : List Char} {role : Role} {more offset : Nat}

theorem split_cons (h : classify c rest = (role, more)) :
    split (c :: rest) = ⟨role, c :: rest.take more⟩ :: split (rest.drop more) := by
  rw [split, h]

theorem cons_take_append_drop (c : Char) (rest : List Char) (more : Nat) :
    c :: rest = c :: rest.take more ++ rest.drop more := by
  rw [List.cons_append, List.take_append_drop]

theorem exists_of_mem_place {text : List Char} {x : Span × Piece}
    (h : x ∈ place offset (split text)) :
    ∃ before after, text = before ++ (x.2.text ++ after) ∧ x.1.start = offset + byteLength before := by
  induction text using split.induct generalizing offset with
  | case1 => simp [split, place] at h
  | case2 c rest role more hclass ih =>
      rw [split_cons hclass, place] at h
      rcases List.mem_cons.mp h with rfl | h
      · exact ⟨[], rest.drop more, cons_take_append_drop c rest more, rfl⟩
      · obtain ⟨before, after, hrest, hstart⟩ := ih h
        refine ⟨c :: rest.take more ++ before, after, ?_, ?_⟩
        · rw [List.append_assoc, ← hrest]
          exact cons_take_append_drop c rest more
        · rw [byteLength_append, ← Nat.add_assoc, hstart]

theorem standsAt_of_mem_place {source : List Char} {x : Span × Piece}
    (h : x ∈ place 0 (split source)) : StandsAt source x.1.start x.2.text := by
  obtain ⟨before, after, hsource, hstart⟩ := exists_of_mem_place h
  rw [Nat.zero_add] at hstart
  exact ⟨before, after, hsource, hstart.symm⟩

theorem span_of_token? {x : Span × Piece} {t : Token} (h : token? x = some t) : t.span = x.1 := by
  obtain ⟨span, role, text⟩ := x
  cases role with
  | gap | broken => cases h
  | token kind =>
      obtain rfl := Option.some.inj h
      rfl

theorem pairwise_place (offset : Nat) (text : List Char) :
    (place offset (split text)).Pairwise fun x y => x.1.start < y.1.start := by
  induction text using split.induct generalizing offset with
  | case1 => simp [split, place]
  | case2 c rest role more hclass ih =>
      rw [split_cons hclass, place]
      refine .cons (fun y hy => ?_) (ih _)
      obtain ⟨before, -, -, hstart⟩ := exists_of_mem_place hy
      have hpos := c.utf8Size_pos
      dsimp only
      rw [hstart, byteLength_cons]
      omega

theorem classify_newline (rest : List Char) : classify '\n' rest = (.gap, 0) := rfl

theorem head?_drop_takeWhile (rest : List Char) (h : rest.drop (rest.takeWhile (· ≠ '\n')).length ≠ []) :
    (rest.drop (rest.takeWhile (· ≠ '\n')).length).head? = some '\n' := by
  induction rest with
  | nil => exact absurd rfl h
  | cons c rest ih =>
      by_cases hc : c = '\n'
      · simp [hc]
      · have hkeep : (c :: rest).takeWhile (· ≠ '\n') = c :: rest.takeWhile (· ≠ '\n') :=
          List.takeWhile_cons_of_pos (by simpa using hc)
        rw [hkeep, List.length_cons, List.drop_succ_cons] at h ⊢
        exact ih h

theorem gap_cases (h : classify c rest = (.gap, more)) :
    isBlank c ∧ more = 0 ∨
      c = '/' ∧ rest.head? = some '/' ∧ more = (rest.takeWhile (· ≠ '\n')).length := by
  rw [classify] at h
  split_ifs at h with hblank hcomment hword hdigit hpoint hquote
  · exact .inl ⟨hblank, (Prod.mk.inj h).2.symm⟩
  · exact .inr ⟨hcomment.1, hcomment.2, (Prod.mk.inj h).2.symm⟩
  · cases h
  · cases h
  · cases h
  · split at h <;> cases h
  · split at h <;> cases h

theorem isGap_append {gap : List Char} (h : classify c rest = (.gap, more)) (hgap : IsGap gap)
    (hne : rest.drop more ≠ []) (hhead : (rest.drop more).head? = some '\n' → gap.head? = some '\n') :
    IsGap (c :: rest.take more ++ gap) := by
  rcases gap_cases h with ⟨hblank, rfl⟩ | ⟨rfl, hslash, rfl⟩
  · exact .blank hblank hgap
  · obtain ⟨gap, rfl⟩ := List.head?_eq_some_iff.mp (hhead (head?_drop_takeWhile rest hne))
    obtain ⟨line, rfl⟩ := List.head?_eq_some_iff.mp hslash
    have hline : '\n' ∉ line.takeWhile (· ≠ '\n') := fun hmem => by
      simpa using List.mem_takeWhile_imp hmem
    rw [take_length_takeWhile, List.takeWhile_cons_of_pos (by decide)]
    exact .comment hline hgap

/-- The text, at an offset, is cut into these tokens and gaps. -/
structure CutsAt (offset : Nat) (text : List Char) (ts : List Token) : Prop where
  unbroken : (place offset (split text)).filterMap broken? = []
  tokens : (place offset (split text)).filterMap token? = ts

variable {text : List Char} {ts us vs : List Token}

theorem CutsAt.eq_nil (h : CutsAt offset [] ts) : ts = [] := by
  simpa [split, place] using h.tokens.symm

theorem CutsAt.cons_cases (h : CutsAt offset (c :: rest) ts)
    (hclass : classify c rest = (role, more)) :
    (role = .gap ∧ CutsAt (offset + byteLength (c :: rest.take more)) (rest.drop more) ts) ∨
      ∃ t us, role = .token t.kind ∧ ts = t :: us ∧ t.text.toList = c :: rest.take more ∧
        t.span.start = offset ∧
          CutsAt (offset + byteLength (c :: rest.take more)) (rest.drop more) us := by
  obtain ⟨hbroken, htokens⟩ := h
  rw [split_cons hclass, place] at hbroken htokens
  cases role with
  | gap => exact .inl ⟨rfl, hbroken, htokens⟩
  | broken => cases hbroken
  | token kind =>
      exact .inr ⟨_, _, rfl, htokens.symm, String.toList_ofList, rfl, hbroken, rfl⟩

theorem CutsAt.exists_rest (h : CutsAt offset text (us ++ ts)) :
    ∃ before after, text = before ++ after ∧ CutsAt (offset + byteLength before) after ts := by
  induction text using split.induct generalizing offset us with
  | case1 =>
      obtain rfl : us = [] := (List.append_eq_nil_iff.mp h.eq_nil).1
      exact ⟨[], [], rfl, h⟩
  | case2 c rest role more hclass ih =>
      cases us with
      | nil => exact ⟨[], c :: rest, rfl, h⟩
      | cons u us =>
          obtain ⟨us', hrest⟩ : ∃ us', CutsAt (offset + byteLength (c :: rest.take more))
              (rest.drop more) (us' ++ ts) := by
            rcases h.cons_cases hclass with ⟨-, h⟩ | ⟨t, vs, -, hts, -, -, h⟩
            · exact ⟨u :: us, h⟩
            · obtain ⟨-, rfl⟩ := List.cons.inj hts
              exact ⟨us, h⟩
          obtain ⟨before, after, hdrop, hafter⟩ := ih hrest
          refine ⟨c :: rest.take more ++ before, after, ?_, ?_⟩
          · rw [List.append_assoc, ← hdrop]
            exact cons_take_append_drop c rest more
          · rwa [byteLength_append, ← Nat.add_assoc]

theorem CutsAt.exists_lays {t : Token} (h : CutsAt offset text (t :: (ts ++ vs))) :
    ∃ gap body after, text = gap ++ (body ++ after) ∧ IsGap gap ∧ Lays (t :: ts) body ∧
      t.span.start = offset + byteLength gap ∧
        (text.head? = some '\n' → gap.head? = some '\n') := by
  -- A comment piece stops before the end of its line, which the gap after it has to begin with.
  induction text using split.induct generalizing offset t ts with
  | case1 => cases h.eq_nil
  | case2 c rest role more hclass ih =>
      have hpiece := cons_take_append_drop c rest more
      rcases h.cons_cases hclass with ⟨rfl, h⟩ | ⟨t', us, rfl, hts, htext, hstart, h⟩
      · obtain ⟨gap, body, after, hrest, hgap, hbody, hstart, hhead⟩ := ih h
        have hdrop : rest.drop more ≠ [] := by
          intro hnil
          rw [hnil] at h
          cases h.eq_nil
        refine ⟨c :: rest.take more ++ gap, body, after, ?_, ?_, hbody, ?_, id⟩
        · rw [List.append_assoc, ← hrest]
          exact hpiece
        · exact isGap_append hclass hgap hdrop hhead
        · rw [byteLength_append, ← Nat.add_assoc, hstart]
      · -- No gap is before the first token; the one after it comes from the rest of the text.
        obtain ⟨rfl, rfl⟩ := List.cons.inj hts
        have hnewline : (c :: rest).head? = some '\n' → ([] : List Char).head? = some '\n' := by
          intro hc
          rw [Option.some.inj hc, classify_newline] at hclass
          cases hclass
        cases ts with
        | nil =>
            refine ⟨[], _, rest.drop more, ?_, .nil, .last t, hstart, hnewline⟩
            rw [htext]
            exact hpiece
        | cons u ts =>
            obtain ⟨gap, body, after, hrest, hgap, hbody, -, -⟩ := ih h
            refine ⟨[], _, after, ?_, .nil, .cons t hgap hbody, hstart, hnewline⟩
            rw [htext, List.nil_append, List.append_assoc, List.append_assoc, ← hrest]
            exact hpiece

end Piece

namespace Token

variable {source : List Char} {t : Token}

theorem standsAt_of_mem (h : t ∈ ofText source) : StandsAt source t.span.start t.text.toList := by
  obtain ⟨⟨span, role, text⟩, hp, ht⟩ := List.mem_filterMap.mp h
  have hat := Piece.standsAt_of_mem_place hp
  cases role with
  | gap | broken => cases ht
  | token kind =>
      obtain rfl := Option.some.inj ht
      simpa only [String.toList_ofList] using hat

theorem standsAt_of_mem_brokenParts {span : Span} {text : String}
    (h : (span, text) ∈ brokenParts source) : StandsAt source span.start text.toList := by
  obtain ⟨⟨span', role, chars⟩, hp, ht⟩ := List.mem_filterMap.mp h
  have hat := Piece.standsAt_of_mem_place hp
  cases role with
  | gap | token kind => cases ht
  | broken =>
      obtain ⟨rfl, rfl⟩ := Prod.mk.inj (Option.some.inj ht)
      simpa only [String.toList_ofList] using hat

theorem pairwise_start (source : List Char) :
    (ofText source).Pairwise fun t u => t.span.start < u.span.start := by
  refine List.pairwise_filterMap.mpr ((Piece.pairwise_place 0 source).imp ?_)
  intro x y hstart t ht u hu
  rwa [Piece.span_of_token? ht, Piece.span_of_token? hu]

/-- Tokens that follow one another in a text without broken parts stand there, with gaps between
them, from the start of the first one on. -/
theorem exists_lays_of_infix {ts : List Token} (hbroken : brokenParts source = [])
    (h : t :: ts <:+: ofText source) :
    ∃ text, Lays (t :: ts) text ∧ StandsAt source t.span.start text := by
  obtain ⟨us, vs, huv⟩ := h
  have hcuts : Piece.CutsAt 0 source (us ++ (t :: (ts ++ vs))) :=
    ⟨hbroken, huv.symm.trans (List.append_assoc _ _ _)⟩
  obtain ⟨before, rest, rfl, hrest⟩ := hcuts.exists_rest
  obtain ⟨gap, text, after, rfl, -, htext, hstart, -⟩ := hrest.exists_lays
  refine ⟨text, htext, before ++ gap, after, (List.append_assoc _ _ _).symm, ?_⟩
  rw [hstart, byteLength_append, Nat.zero_add]

end Token

end Forecast
