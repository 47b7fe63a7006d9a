import Forecast.Proofs.Source.Position

namespace Forecast

def IsBoundary (text : List Char) (offset : Nat) : Prop :=
  ∃ before after, text = before ++ after ∧ byteLength before = offset

theorem IsBoundary.le_byteLength {text : List Char} {offset : Nat} (h : IsBoundary text offset) :
    offset ≤ byteLength text := by
  obtain ⟨before, after, rfl, rfl⟩ := h
  rw [byteLength_append]
  exact Nat.le_add_right _ _

namespace Position

/-- Comes earlier: in an earlier line, or in the same line further to the left. -/
def Before (p q : Position) : Prop := p.line < q.line ∨ p.line = q.line ∧ p.column < q.column

theorem Before.trans {p q r : Position} (hpq : p.Before q) (hqr : q.Before r) : p.Before r := by
  unfold Before at *
  omega

def past (p : Position) (c : Char) : Position :=
  if c = '\n' then ⟨p.line + 1, 1⟩ else ⟨p.line, p.column + 1⟩

theorem before_past (p : Position) (c : Char) : p.Before (p.past c) := by
  by_cases hc : c = '\n'
  · rw [past, if_pos hc]
    exact .inl (Nat.lt_succ_self p.line)
  · rw [past, if_neg hc]
    exact .inr ⟨rfl, Nat.lt_succ_self p.column⟩

theorem before_foldl_past (p : Position) {w : List Char} (hw : w ≠ []) : p.Before (w.foldl past p) := by
  induction w generalizing p with
  | nil => exact absurd rfl hw
  | cons c w ih =>
      rw [List.foldl_cons]
      by_cases hnil : w = []
      · rw [hnil]
        exact before_past p c
      · exact (before_past p c).trans (ih (p.past c) hnil)

variable {text v line : List Char} {offset n : Nat}

theorem line_foldl_past (p : Position) (v : List Char) :
    (v.foldl past p).line = p.line + v.count '\n' := by
  induction v generalizing p with
  | nil => rfl
  | cons c v ih =>
      rw [List.foldl_cons, ih, past]
      by_cases hc : c = '\n'
      · rw [if_pos hc, hc, List.count_cons_self]
        exact Nat.add_right_comm _ _ _
      · rw [if_neg hc, List.count_cons_of_ne hc]

theorem foldl_past_of_endsLine (hv : EndsLine v) : v.foldl past first = ⟨v.count '\n' + 1, 1⟩ := by
  rcases List.eq_nil_or_concat v with rfl | ⟨u, c, rfl⟩
  · rfl
  · rw [List.concat_eq_append] at hv ⊢
    obtain rfl : c = '\n' := hv c (by simp)
    rw [List.foldl_append, List.foldl_cons, List.foldl_nil, past, if_pos rfl, line_foldl_past,
      List.count_append, List.count_singleton_self, first, Nat.add_comm 1]

theorem foldl_past_of_not_mem (p : Position) (hline : '\n' ∉ line) :
    line.foldl past p = ⟨p.line, p.column + line.length⟩ := by
  induction line generalizing p with
  | nil => rfl
  | cons c line ih =>
      obtain ⟨hc, hline⟩ := not_or.mp (mt List.mem_cons.mpr hline)
      rw [List.foldl_cons, ih _ hline, past, if_neg (Ne.symm hc), List.length_cons,
        Nat.add_right_comm, Nat.add_assoc]

theorem ofOffset_eq_foldl_past (before after : List Char) :
    ofOffset (before ++ after) (byteLength before) = before.foldl past first := by
  obtain ⟨v, line, rfl, hv, hline⟩ := exists_lines before
  rw [byteLength_append, List.append_assoc, ofOffset_append hv hline, List.foldl_append,
    foldl_past_of_endsLine hv, foldl_past_of_not_mem _ hline, Nat.add_comm 1]

theorem before_ofOffset {o o' : Nat} (h : IsBoundary text o) (h' : IsBoundary text o')
    (hlt : o < o') : (ofOffset text o).Before (ofOffset text o') := by
  obtain ⟨before, after, rfl, rfl⟩ := h
  obtain ⟨before', after', htext, rfl⟩ := h'
  rcases List.append_eq_append_iff.mp htext with ⟨w, rfl, -⟩ | ⟨w, rfl, -⟩
  · have hw : w ≠ [] := by
      intro hnil
      rw [hnil, List.append_nil] at hlt
      exact Nat.lt_irrefl _ hlt
    rw [ofOffset_eq_foldl_past, htext, ofOffset_eq_foldl_past, List.foldl_append]
    exact before_foldl_past _ hw
  · rw [byteLength_append] at hlt
    omega

theorem exists_of_fromLine? {rest : List Char} (h : fromLine? text n = some (offset, rest)) :
    ∃ v, text = v ++ rest ∧ EndsLine v ∧ v.count '\n' = n ∧ byteLength v = offset := by
  induction text generalizing n offset with
  | nil =>
      cases n with
      | zero =>
          obtain ⟨rfl, rfl⟩ := Prod.mk.inj (Option.some.inj h)
          exact ⟨[], rfl, nofun, rfl, rfl⟩
      | succ n => cases h
  | cons c text ih =>
      cases n with
      | zero =>
          obtain ⟨rfl, rfl⟩ := Prod.mk.inj (Option.some.inj h)
          exact ⟨[], rfl, nofun, rfl, rfl⟩
      | succ n =>
          obtain ⟨⟨start, rest'⟩, hrest, heq⟩ := Option.map_eq_some_iff.mp h
          obtain ⟨rfl, rfl⟩ := Prod.mk.inj heq
          obtain ⟨v, rfl, hv, hcount, hlength⟩ := ih hrest
          refine ⟨c :: v, rfl, ?_, ?_, ?_⟩
          · intro d hd
            cases v with
            | nil =>
                -- The line ends with this character, since no more newlines come.
                obtain rfl : c = d := Option.some.inj hd
                by_contra hc
                rw [if_neg hc] at hcount
                cases hcount
            | cons e v => exact hv d (by simpa [List.getLast?_cons] using hd)
          · by_cases hc : c = '\n'
            · rw [if_pos hc] at hcount
              rw [hc, List.count_cons_self, hcount]
            · rw [if_neg hc] at hcount
              rw [List.count_cons_of_ne hc, hcount]
          · rw [byteLength_cons, hlength, Nat.add_comm]

theorem exists_of_columnOffset? {rest : List Char} (h : columnOffset? rest n = some offset) :
    ∃ line after, rest = line ++ after ∧ '\n' ∉ line ∧ line.length = n ∧
      byteLength line = offset := by
  induction rest generalizing n offset with
  | nil =>
      cases n with
      | zero => exact ⟨[], [], rfl, List.not_mem_nil, rfl, Option.some.inj h⟩
      | succ n => cases h
  | cons c rest ih =>
      cases n with
      | zero => exact ⟨[], c :: rest, rfl, List.not_mem_nil, rfl, Option.some.inj h⟩
      | succ n =>
          rw [columnOffset?] at h
          by_cases hc : c = '\n'
          · rw [if_pos hc] at h
            cases h
          · rw [if_neg hc] at h
            obtain ⟨o, ho, rfl⟩ := Option.map_eq_some_iff.mp h
            obtain ⟨line, after, rfl, hline, rfl, rfl⟩ := ih ho
            refine ⟨c :: line, after, rfl, ?_, rfl, ?_⟩
            · exact mt List.mem_cons.mp (not_or.mpr ⟨Ne.symm hc, hline⟩)
            · rw [byteLength_cons, Nat.add_comm]

theorem of_offset?_eq_some {p : Position} (h : p.offset? text = some offset) :
    IsBoundary text offset ∧ ofOffset text offset = p := by
  obtain ⟨line | line, column | column⟩ := p
  case succ.succ =>
    obtain ⟨⟨start, rest⟩, hstart, h⟩ := Option.bind_eq_some_iff.mp h
    obtain ⟨inLine, hcolumn, h⟩ := Option.bind_eq_some_iff.mp h
    obtain rfl := Option.some.inj h
    obtain ⟨v, rfl, hv, rfl, rfl⟩ := exists_of_fromLine? hstart
    obtain ⟨w, after, rfl, hw, rfl, rfl⟩ := exists_of_columnOffset? hcolumn
    refine ⟨⟨v ++ w, after, (List.append_assoc _ _ _).symm, byteLength_append v w⟩, ?_⟩
    exact ofOffset_append hv hw after
  all_goals cases h

/-- Positions and offsets are inverse to each other. Every boundary is found again from its
position, every place that exists is the position of a boundary, and positions come in the order
of their boundaries. -/
theorem inverse_ofOffset (text : List Char) :
    (∀ o, IsBoundary text o → (ofOffset text o).offset? text = some o) ∧
    (∀ (p : Position) o, p.offset? text = some o →
      IsBoundary text o ∧ o ≤ byteLength text ∧ ofOffset text o = p) ∧
    ∀ o o', IsBoundary text o → IsBoundary text o' → o < o' →
      (ofOffset text o).Before (ofOffset text o') := by
  refine ⟨?_, ?_, fun o o' h h' hlt => before_ofOffset h h' hlt⟩
  · rintro o ⟨before, after, rfl, rfl⟩
    exact offset?_ofOffset before after
  · intro p o h
    obtain ⟨hboundary, hposition⟩ := of_offset?_eq_some h
    exact ⟨hboundary, hboundary.le_byteLength, hposition⟩

def accented : List Char := "a\n\né\n".toList

theorem inverse_ofOffset_accented :
    (ofOffset accented 5 = ⟨3, 2⟩ ∧ (⟨3, 2⟩ : Position).offset? accented = some 5) ∧
    (⟨4, 1⟩ : Position).offset? accented = some 6 ∧ ofOffset accented 6 = ⟨4, 1⟩ ∧
    (⟨3, 2⟩ : Position).Before ⟨4, 1⟩ := by
  obtain ⟨hfound, hposition, hbefore⟩ := inverse_ofOffset accented
  have hletter : IsBoundary accented 5 := ⟨"a\n\né".toList, ['\n'], rfl, by decide⟩
  have hend : (⟨4, 1⟩ : Position).offset? accented = some 6 := by decide
  obtain ⟨hboundary, -, hlast⟩ := hposition ⟨4, 1⟩ 6 hend
  have hplace : ofOffset accented 5 = ⟨3, 2⟩ := by decide
  refine ⟨⟨hplace, ?_⟩, hend, hlast, ?_⟩
  · rw [← hplace]
    exact hfound 5 hletter
  · rw [← hplace, ← hlast]
    exact hbefore 5 6 hletter hboundary (by decide)

end Position

end Forecast
