import Forecast.Proofs.Token.Places
import Forecast.Proofs.Token.Spaced

namespace Forecast

namespace Piece

def gapAt : List Piece → Nat → List Char
  | [], _ => []
  | ⟨.gap, text⟩ :: ps, 0 => text ++ gapAt ps 0
  | ⟨.gap, _⟩ :: ps, k + 1 => gapAt ps (k + 1)
  | ⟨.token _, _⟩ :: _, 0 | ⟨.broken, _⟩ :: _, 0 => []
  | ⟨.token _, _⟩ :: ps, k + 1 | ⟨.broken, _⟩ :: ps, k + 1 => gapAt ps k

/-- The text starts with a gap and a word, and goes on with another text. -/
structure Begins (text gap : List Char) (w : Word) (after : List Char) : Prop where
  text_eq : text = gap ++ (w.text ++ after)
  isGap : IsGap gap
  newline : text.head? = some '\n' → gap.head? = some '\n'
  exists_classify : ∃ c rest, w.text = c :: rest ∧
    classify c (rest ++ after) = (.token w.kind, rest.length)
  gapAt_zero : gapAt (split text) 0 = gap
  gapAt_succ : ∀ k, gapAt (split text) (k + 1) = gapAt (split after) k

variable {text : List Char} {words : List Word} {w : Word}

theorem Cuts.cons_cases {c : Char} {rest : List Char} {role : Role} {more : Nat}
    (h : Cuts (c :: rest) words) (hclass : classify c rest = (role, more)) :
    (role = .gap ∧ Cuts (rest.drop more) words) ∨
      ∃ kind ws, role = .token kind ∧ words = ⟨kind, c :: rest.take more⟩ :: ws ∧
        Cuts (rest.drop more) ws := by
  obtain ⟨hwords, hunbroken⟩ := h
  rw [split_cons hclass] at hwords hunbroken
  obtain ⟨hrole, hrest⟩ := List.forall_mem_cons.mp hunbroken
  cases role with
  | gap => exact .inl ⟨rfl, hwords, hrest⟩
  | broken => exact absurd rfl hrole
  | token kind => exact .inr ⟨kind, _, rfl, hwords.symm, rfl, hrest⟩

theorem Cuts.gapAt_eq_self (h : Cuts text []) : gapAt (split text) 0 = text := by
  induction text using split.induct with
  | case1 => simp [split, gapAt]
  | case2 c rest role more hclass ih =>
      rcases h.cons_cases hclass with ⟨rfl, h⟩ | ⟨kind, ws, rfl, hws, h⟩
      · rw [split_cons hclass, gapAt, ih h]
        exact (cons_take_append_drop c rest more).symm
      · cases hws

theorem Cuts.exists_begins (h : Cuts text (w :: words)) :
    ∃ gap after, Begins text gap w after ∧ Cuts after words := by
  -- A comment piece stops before the end of its line, which the gap after it has to begin with.
  induction text using split.induct with
  | case1 => simpa [split] using h.words
  | case2 c rest role more hclass ih =>
      have hpiece := cons_take_append_drop c rest more
      rcases h.cons_cases hclass with ⟨rfl, h⟩ | ⟨kind, ws, rfl, hws, h⟩
      · obtain ⟨gap, after, hbegins, hafter⟩ := ih h
        obtain ⟨d, tail, hw, -⟩ := hbegins.exists_classify
        have hdrop : rest.drop more ≠ [] := by
          rw [hbegins.text_eq, hw]
          simp
        refine ⟨c :: rest.take more ++ gap, after, ⟨?_, ?_, id, hbegins.exists_classify, ?_, ?_⟩,
          hafter⟩
        · rw [List.append_assoc, ← hbegins.text_eq]
          exact hpiece
        · exact isGap_append hclass hbegins.isGap hdrop hbegins.newline
        · rw [split_cons hclass, gapAt, hbegins.gapAt_zero]
        · intro k
          rw [split_cons hclass, gapAt, hbegins.gapAt_succ]
      · obtain ⟨rfl, rfl⟩ := List.cons.inj hws
        have hmore := (classify_take hclass).1
        have hlength : (rest.take more).length = more := List.length_take_of_le hmore
        refine ⟨[], rest.drop more, ⟨hpiece, .nil, ?_, ⟨c, rest.take more, rfl, ?_⟩, ?_, ?_⟩, h⟩
        · intro hc
          rw [Option.some.inj hc, classify_newline] at hclass
          cases hclass
        · rw [List.take_append_drop, hlength, hclass]
        · rw [split_cons hclass, gapAt]
        · intro k
          rw [split_cons hclass, gapAt]

theorem Cuts.spread_gapAt (h : Cuts text words) {gap : Nat → List Char} {k : Nat}
    (hgap : ∀ j, gap (k + j) = gapAt (split text) j) : spread gap k words = text := by
  have hfirst : gap k = gapAt (split text) 0 := hgap 0
  induction words generalizing text k with
  | nil => rw [spread, hfirst, h.gapAt_eq_self]
  | cons w words ih =>
      obtain ⟨own, after, hbegins, hafter⟩ := h.exists_begins
      have hgaps : ∀ j, gap (k + 1 + j) = gapAt (split after) j := fun j => by
        rw [← hbegins.gapAt_succ, ← hgap, Nat.add_assoc, Nat.add_comm 1]
      have hrest : spread gap (k + 1) words = after := ih hafter hgaps (hgaps 0)
      rw [spread, hrest, hfirst, hbegins.gapAt_zero, ← hbegins.text_eq]

structure IsSpacing (gap : List Char) : Prop where
  isGap : IsGap gap
  blank : gap.head?.any isBlank

theorem IsSpacing.ends {gap : List Char} (h : IsSpacing gap) (after : List Char) :
    Ends (gap ++ after) := by
  obtain ⟨-, hblank⟩ := h
  cases gap with
  | nil => cases hblank
  | cons c gap =>
      rintro d ⟨⟩
      exact hblank

theorem Cuts.isGap_append {gap : List Char} (h : Cuts text words) (hgap : IsGap gap) :
    Cuts (gap ++ text) words := by
  induction hgap with
  | nil => exact h
  | @blank c rest hc hrest ih =>
      have hclass : classify c (rest ++ text) = (.gap, 0) := by rw [classify, if_pos hc]
      exact ih.cons_gap hclass
  | @comment line rest hline hrest ih =>
      have hkeep : ∀ c ∈ '/' :: line, decide (c ≠ '\n') := by
        rw [List.forall_mem_cons]
        exact ⟨by decide, fun c hc => decide_eq_true fun h => hline (h ▸ hc)⟩
      have hrun : ('/' :: (line ++ '\n' :: (rest ++ text))).takeWhile (· ≠ '\n') = '/' :: line := by
        rw [← List.cons_append, List.takeWhile_append_of_pos hkeep,
          List.takeWhile_cons_of_neg (by decide), List.append_nil]
      have hclass : classify '/' ('/' :: (line ++ '\n' :: (rest ++ text))) =
          (.gap, ('/' :: line).length) := by
        rw [classify, if_neg (by decide), if_pos ⟨rfl, rfl⟩, hrun]
      have hnext : Cuts (('/' :: (line ++ '\n' :: (rest ++ text))).drop ('/' :: line).length)
          words := by
        rw [← List.cons_append, List.drop_left]
        exact ih
      simpa using hnext.cons_gap hclass

/-- The words of a text with some gaps replaced are followed by the same characters as before or
by blanks. -/
theorem Cuts.follows_spread (h : Cuts text words) {gap : Nat → List Char} {k : Nat}
    (hgap : gap k = gapAt (split text) 0 ∨ IsSpacing (gap k)) :
    Follows text (spread gap k words) := by
  cases words with
  | nil =>
      rcases hgap with hgap | hgap
      · rw [spread, hgap, h.gapAt_eq_self]
        exact .inl rfl
      · have hends := hgap.ends []
        rw [List.append_nil] at hends
        exact .inr hends
  | cons w words =>
      rcases hgap with hgap | hgap
      · obtain ⟨own, after, hbegins, -⟩ := h.exists_begins
        obtain ⟨c, rest, hw, -⟩ := hbegins.exists_classify
        left
        rw [spread, hgap, hbegins.gapAt_zero, hbegins.text_eq, hw]
        simp
      · exact .inr (hgap.ends _)

theorem Cuts.respaced (h : Cuts text words) {gap : Nat → List Char} {k : Nat}
    (hgap : ∀ j ≤ words.length,
      gap (k + j) = gapAt (split text) j ∨ IsSpacing (gap (k + j))) :
    Cuts (spread gap k words) words := by
  induction words generalizing text k with
  | nil =>
      rcases hgap 0 (Nat.le_refl 0) with hgap | hgap
      · rw [Nat.add_zero, h.gapAt_eq_self] at hgap
        rwa [spread, hgap]
      · have hcuts := Cuts.nil.isGap_append hgap.isGap
        rwa [List.append_nil] at hcuts
  | cons w words ih =>
      obtain ⟨own, after, hbegins, hafter⟩ := h.exists_begins
      have hrest : ∀ j ≤ words.length, gap (k + 1 + j) = gapAt (split after) j ∨
          IsSpacing (gap (k + 1 + j)) := by
        intro j hj
        have hnext := hgap (j + 1) (Nat.succ_le_succ hj)
        rw [hbegins.gapAt_succ] at hnext
        rwa [Nat.add_assoc, Nat.add_comm 1]
      have hgap0 : IsGap (gap k) := by
        rcases hgap 0 (Nat.zero_le _) with hgap | hgap
        · rw [Nat.add_zero, hbegins.gapAt_zero] at hgap
          exact hgap ▸ hbegins.isGap
        · exact hgap.isGap
      have hfollows := hafter.follows_spread (hrest 0 (Nat.zero_le _))
      obtain ⟨c, rest, hw, hclass⟩ := hbegins.exists_classify
      have hword := (ih hafter hrest).cons_word (classify_append hfollows hclass)
      rw [← List.cons_append, ← hw] at hword
      exact hword.isGap_append hgap0

theorem Cuts.of_brokenParts (h : Token.brokenParts text = []) :
    Cuts text ((Token.ofText text).map Token.word) := by
  have hplace : ∀ offset (ps : List Piece), (place offset ps).filterMap broken? = [] →
      ps.filterMap word? = ((place offset ps).filterMap token?).map Token.word ∧
        ∀ p ∈ ps, p.role ≠ .broken := by
    intro offset ps h
    induction ps generalizing offset with
    | nil => exact ⟨rfl, List.forall_mem_nil _⟩
    | cons p ps ih =>
        obtain ⟨role, text⟩ := p
        cases role with
        | broken => cases h
        | gap =>
            obtain ⟨hwords, hunbroken⟩ := ih _ h
            exact ⟨hwords, List.forall_mem_cons.mpr ⟨nofun, hunbroken⟩⟩
        | token kind =>
            obtain ⟨hwords, hunbroken⟩ := ih _ h
            refine ⟨?_, List.forall_mem_cons.mpr ⟨nofun, hunbroken⟩⟩
            simp only [place, List.filterMap_cons, token?, word?, List.map_cons, Token.word,
              String.toList_ofList, hwords]
  exact ⟨(hplace 0 _ h).1, (hplace 0 _ h).2⟩

end Piece

namespace Token

def gap (source : List Char) (k : Nat) : List Char := Piece.gapAt (Piece.split source) k

def respace (gap : Nat → List Char) (source : List Char) : List Char :=
  spread gap 0 ((ofText source).map word)

variable {source : List Char}

theorem respace_gap (h : brokenParts source = []) : respace (gap source) source = source :=
  (Piece.Cuts.of_brokenParts h).spread_gapAt fun j => by rw [Nat.zero_add, gap]

theorem cuts_respace (h : brokenParts source = []) {gap : Nat → List Char}
    (hgap : ∀ k ≤ (ofText source).length,
      gap k = Token.gap source k ∨ Piece.IsSpacing (gap k)) :
    Piece.Cuts (respace gap source) ((ofText source).map word) := by
  refine (Piece.Cuts.of_brokenParts h).respaced fun j hj => ?_
  rw [List.length_map] at hj
  rw [Nat.zero_add]
  exact hgap j hj

end Token

end Forecast
