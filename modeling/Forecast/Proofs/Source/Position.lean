import Mathlib.Data.List.Induction
import Mathlib.Tactic.SplitIfs
import Forecast.Source.Position

namespace Forecast

theorem byteLength_cons (c : Char) (v : List Char) :
    byteLength (c :: v) = c.utf8Size + byteLength v := rfl

theorem byteLength_append (v w : List Char) :
    byteLength (v ++ w) = byteLength v + byteLength w := by
  induction v with
  | nil => exact (Nat.zero_add _).symm
  | cons c v ih => rw [List.cons_append, byteLength_cons, byteLength_cons, ih, Nat.add_assoc]

theorem splitBytes?_append (before after : List Char) :
    splitBytes? (before ++ after) (byteLength before) = some (before, after) := by
  induction before with
  | nil => cases after <;> rfl
  | cons c before ih =>
      have hpos := c.utf8Size_pos
      obtain ⟨n, hn⟩ := Nat.exists_eq_add_of_lt hpos
      have hlength : byteLength (c :: before) = n + byteLength before + 1 := by
        rw [byteLength_cons]
        omega
      have hrest : n + byteLength before + 1 - c.utf8Size = byteLength before := by omega
      rw [hlength, List.cons_append, splitBytes?, if_neg (by omega), hrest, ih]
      rfl

theorem slice?_append (v w after : List Char) :
    slice? (v ++ (w ++ after)) (byteLength v) (byteLength v + byteLength w) = some w := by
  have hlength : byteLength v + byteLength w - byteLength v = byteLength w := by omega
  rw [slice?, splitBytes?_append, Option.bind_eq_bind, Option.bind_some]
  dsimp only
  rw [hlength, splitBytes?_append]
  rfl

section Lines

variable {o n : Nat} {v w : List Char}

theorem laterLineStarts_append (o : Nat) (v w : List Char) :
    laterLineStarts o (v ++ w) = laterLineStarts o v ++ laterLineStarts (o + byteLength v) w := by
  induction v generalizing o with
  | nil => rfl
  | cons c v ih =>
      rw [List.cons_append, laterLineStarts, laterLineStarts, byteLength_cons, ih, ← Nat.add_assoc]
      split_ifs <;> rfl

theorem length_laterLineStarts (o : Nat) (v : List Char) :
    (laterLineStarts o v).length = v.count '\n' := by
  induction v generalizing o with
  | nil => rfl
  | cons c v ih =>
      rw [laterLineStarts]
      split_ifs with hc
      · rw [hc, List.count_cons_self, List.length_cons, ih]
      · rw [List.count_cons_of_ne hc, ih]

theorem mem_laterLineStarts (h : n ∈ laterLineStarts o v) : o < n ∧ n ≤ o + byteLength v := by
  induction v generalizing o with
  | nil => cases h
  | cons c v ih =>
      have hpos := c.utf8Size_pos
      have htail : n ∈ laterLineStarts (o + c.utf8Size) v →
          o < n ∧ n ≤ o + byteLength (c :: v) := by
        intro h
        have := ih h
        rw [byteLength_cons]
        omega
      rw [laterLineStarts] at h
      split_ifs at h
      · rcases List.mem_cons.mp h with rfl | h
        · rw [byteLength_cons]
          omega
        · exact htail h
      · exact htail h

theorem laterLineStarts_of_not_mem (o : Nat) (h : '\n' ∉ v) : laterLineStarts o v = [] := by
  rw [← List.length_eq_zero_iff, length_laterLineStarts, List.count_eq_zero]
  exact h

def EndsLine (v : List Char) : Prop := ∀ c ∈ v.getLast?, c = '\n'

theorem exists_lines (text : List Char) :
    ∃ v line, text = v ++ line ∧ EndsLine v ∧ '\n' ∉ line := by
  induction text using List.reverseRecOn with
  | nil => exact ⟨[], [], rfl, by simp [EndsLine], List.not_mem_nil⟩
  | append_singleton text c ih =>
      by_cases hc : c = '\n'
      · refine ⟨text ++ [c], [], (List.append_nil _).symm, ?_, List.not_mem_nil⟩
        simp [EndsLine, hc]
      · obtain ⟨v, line, rfl, hv, hline⟩ := ih
        refine ⟨v, line ++ [c], List.append_assoc _ _ _, hv, ?_⟩
        simp [hline, Ne.symm hc]

theorem getD_lineStarts (hv : EndsLine v) (w : List Char) :
    (lineStarts (v ++ w)).getD (v.count '\n') 0 = byteLength v := by
  rcases List.eq_nil_or_concat v with rfl | ⟨u, c, rfl⟩
  · rfl
  · rw [List.concat_eq_append] at hv ⊢
    obtain rfl : c = '\n' := hv c (by simp)
    have hcount : (u ++ ['\n']).count '\n' = (laterLineStarts 0 u).length + 1 := by
      rw [length_laterLineStarts, List.count_append, List.count_singleton_self]
    have hbreak : laterLineStarts (0 + byteLength u) ['\n'] = [byteLength (u ++ ['\n'])] := by
      rw [byteLength_append, Nat.zero_add]
      rfl
    rw [lineStarts, laterLineStarts_append, laterLineStarts_append, hbreak, hcount]
    simp [List.getD_eq_getElem?_getD]

theorem takeWhile_lineStarts (hw : '\n' ∉ w) (after : List Char) :
    (lineStarts (v ++ (w ++ after))).takeWhile (· ≤ byteLength v + byteLength w) =
      0 :: laterLineStarts 0 v := by
  have hbefore : ∀ n ∈ 0 :: laterLineStarts 0 v, decide (n ≤ byteLength v + byteLength w) = true := by
    refine List.forall_mem_cons.mpr ⟨by simp, fun n hn => ?_⟩
    have := mem_laterLineStarts hn
    rw [decide_eq_true_eq]
    omega
  have hafter : (laterLineStarts (0 + byteLength v + byteLength w) after).takeWhile
      (· ≤ byteLength v + byteLength w) = [] := by
    cases hstarts : laterLineStarts (0 + byteLength v + byteLength w) after with
    | nil => rfl
    | cons n starts =>
        have := mem_laterLineStarts (hstarts ▸ List.mem_cons_self)
        exact List.takeWhile_cons_of_neg (by rw [decide_eq_true_eq]; omega)
  rw [lineStarts, laterLineStarts_append, laterLineStarts_append, laterLineStarts_of_not_mem _ hw,
    List.nil_append, ← List.cons_append, List.takeWhile_append_of_pos hbefore, hafter,
    List.append_nil]

theorem fromLine?_append (hv : EndsLine v) (w : List Char) :
    Position.fromLine? (v ++ w) (v.count '\n') = some (byteLength v, w) := by
  induction v with
  | nil => cases w <;> rfl
  | cons c v ih =>
      have hrest : EndsLine v := by
        intro d hd
        cases v with
        | nil => cases hd
        | cons e v => exact hv d (by simpa [List.getLast?_cons] using hd)
      by_cases hc : c = '\n'
      · rw [hc, List.count_cons_self, List.cons_append, Position.fromLine?, if_pos rfl, ih hrest]
        rw [byteLength_cons, Nat.add_comm]
        rfl
      · have hmem : '\n' ∈ v := by
          cases v with
          | nil => exact absurd (hv c rfl) hc
          | cons e v =>
              have hlast := List.getLast?_eq_some_getLast (List.cons_ne_nil e v)
              exact hrest _ hlast ▸ List.getLast_mem _
        obtain ⟨n, hn⟩ := Nat.exists_eq_add_of_lt (List.count_pos_iff.mpr hmem)
        rw [Nat.zero_add] at hn
        rw [List.count_cons_of_ne hc, hn, List.cons_append, Position.fromLine?, if_neg hc, ← hn,
          ih hrest, byteLength_cons, Nat.add_comm]
        rfl

theorem columnOffset?_append (hv : '\n' ∉ v) (w : List Char) :
    Position.columnOffset? (v ++ w) v.length = some (byteLength v) := by
  induction v with
  | nil => cases w <;> rfl
  | cons c v ih =>
      obtain ⟨hc, hv⟩ := not_or.mp (mt List.mem_cons.mpr hv)
      rw [List.cons_append, List.length_cons, Position.columnOffset?, if_neg (Ne.symm hc), ih hv,
        byteLength_cons, Nat.add_comm]
      rfl

end Lines

namespace Position

theorem ofOffset_append {v line : List Char} (hv : EndsLine v) (hline : '\n' ∉ line)
    (after : List Char) :
    ofOffset (v ++ (line ++ after)) (byteLength v + byteLength line) =
      ⟨v.count '\n' + 1, line.length + 1⟩ := by
  have hmin : min (byteLength v + byteLength line) (byteLength (v ++ (line ++ after))) =
      byteLength v + byteLength line := by
    rw [byteLength_append, byteLength_append]
    omega
  have hcount : ((lineStarts (v ++ (line ++ after))).takeWhile
      (· ≤ byteLength v + byteLength line)).length - 1 = v.count '\n' := by
    rw [takeWhile_lineStarts hline, List.length_cons, length_laterLineStarts, Nat.add_sub_cancel]
  rw [ofOffset, hmin, hcount, getD_lineStarts hv, slice?_append, Option.elim_some]

/-- The position of a place between two characters, or at either end, leads back to it. -/
theorem offset?_ofOffset (before after : List Char) :
    (ofOffset (before ++ after) (byteLength before)).offset? (before ++ after) =
      some (byteLength before) := by
  obtain ⟨v, line, rfl, hv, hline⟩ := exists_lines before
  rw [byteLength_append, List.append_assoc, ofOffset_append hv hline, offset?,
    fromLine?_append hv, Option.bind_eq_bind, Option.bind_some]
  dsimp only
  rw [columnOffset?_append hline]
  rfl

end Position

end Forecast
