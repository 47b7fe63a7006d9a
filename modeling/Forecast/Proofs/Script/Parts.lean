import Forecast.Proofs.Script.Numbers

namespace Forecast

/-- The state after a step, or the part that it completes, accounts for the words read. -/
def Step.Accounts {σ α : Type} (Reads : σ → List Token → Prop) (Spelled : List Token → α → Prop)
    (w : List Token) : Step σ α → Prop
  | .more s => Reads s w
  | .done a => Spelled w a
  | .wrong _ => True

namespace PatternLiteral

theorem magnitude?_eq_some_iff {t : Token} {n : Nat} (ht : t.kind = .number) :
    magnitude? t.text.toList = some n ↔ t.IsInteger n := by
  rw [magnitude?]
  constructor
  · intro h
    split_ifs at h with htext
    obtain rfl := Option.some.inj h
    exact ⟨ht, htext.1, List.all_eq_true.mp htext.2.1, rfl, htext.2.2⟩
  · rintro ⟨-, hne, hdigits, rfl, hlt⟩
    rw [if_pos ⟨hne, List.all_eq_true.mpr hdigits, hlt⟩]

theorem run_part {w : List Token} {p : PartLiteral} (hp : p.Spelled w) (leading : Leading) :
    ∃ v t r, w = v ++ [t] ∧ Step.run Reading.step (.part leading none) v = some r ∧
      r.step (some t) = leading.complete p := by
  cases hp with
  | @wildcard t ht =>
      refine ⟨[], t, _, rfl, rfl, ?_⟩
      simp only [Reading.step, partStep, ht]
  | @plain t n ht =>
      refine ⟨[], t, _, rfl, rfl, ?_⟩
      have hn := (magnitude?_eq_some_iff ht.kind).mpr ht
      simp only [Reading.step, partStep, ht.kind, numberStep, hn]
  | @negative m t n hm ht =>
      have hstep : Reading.step (.part leading none) (some m) = .more (.part leading (some m.span)) := by
        simp only [Reading.step, partStep, hm]
      have hn := (magnitude?_eq_some_iff ht.kind).mpr ht
      refine ⟨[m], t, _, rfl, Step.run_singleton hstep, ?_⟩
      simp only [Reading.step, magnitudeStep, ht.kind, if_pos, numberStep, hn]

theorem run_leading {w : List Token} {p : PartLiteral} (hp : p.Spelled w) {leading : Leading}
    {r : Reading} (h : leading.complete p = .more r) :
    Step.run Reading.step (.part leading none) w = some r := by
  obtain ⟨v, t, r', rfl, hrun, hstep⟩ := run_part hp leading
  rw [Step.run_append_of_some hrun]
  exact Step.run_singleton (hstep.trans h)

theorem separatorStep_of_isDateSeparator {t : Token} (ht : t.IsDateSeparator) (year : PartLiteral)
    (month : Option PartLiteral) :
    separatorStep year month (some t) =
      .more (.part (month.elim (.year year) (.month year)) none) := by
  unfold separatorStep
  rcases ht with ht | ht
  · rw [Option.any_some, ht, if_pos (by decide)]
    cases month <;> rfl
  · rw [Option.any_some, ht, if_pos (by decide)]
    cases month <;> rfl

theorem run_pattern {w : List Token} {p : PatternLiteral} (hp : p.Spelled w) :
    ∃ v t r, w = v ++ [t] ∧ Step.run Reading.step start v = some r ∧ r.step (some t) = .done p := by
  cases hp with
  | @parts s t u v w year month day hy hs hm ht hd =>
      have hyear : Step.run Reading.step start u = some (.separator year none) := run_leading hy rfl
      have hmonth : Step.run Reading.step (.part (.year year) none) v =
          some (.separator year (some month)) := run_leading hm rfl
      obtain ⟨w', d, r, rfl, hday, hdone⟩ := run_part hd (.month year month)
      refine ⟨u ++ s :: (v ++ t :: w'), d, r, by simp, ?_, hdone⟩
      rw [Step.run_append_of_some hyear,
        Step.run_cons_of_more (separatorStep_of_isDateSeparator hs year none),
        Option.elim_none, Step.run_append_of_some hmonth,
        Step.run_cons_of_more (separatorStep_of_isDateSeparator ht year (some month)),
        Option.elim_some, hday]

inductive Leading.Reads : Leading → List Token → Prop
  | nothing : Reads .nothing []
  | year {s : Token} {u : List Token} {year : PartLiteral} (hy : year.Spelled u)
      (hs : s.IsDateSeparator) : Reads (.year year) (u ++ [s])
  | month {s t : Token} {u v : List Token} {year month : PartLiteral} (hy : year.Spelled u)
      (hs : s.IsDateSeparator) (hm : month.Spelled v) (ht : t.IsDateSeparator) :
      Reads (.month year month) (u ++ s :: (v ++ [t]))

inductive Reading.Reads : Reading → List Token → Prop
  | part {w : List Token} {leading : Leading} (hl : leading.Reads w) :
      Reads (.part leading none) w
  | minus {t : Token} {w : List Token} {leading : Leading} (hl : leading.Reads w)
      (ht : t.kind = .symbol .minus) : Reads (.part leading (some t.span)) (w ++ [t])
  | afterYear {u : List Token} {year : PartLiteral} (hy : year.Spelled u) :
      Reads (.separator year none) u
  | afterMonth {s : Token} {u v : List Token} {year month : PartLiteral} (hy : year.Spelled u)
      (hs : s.IsDateSeparator) (hm : month.Spelled v) :
      Reads (.separator year (some month)) (u ++ s :: v)

theorem reads_start : start.Reads [] := .part .nothing

theorem Leading.Reads.complete {leading : Leading} {v w : List Token} {p : PartLiteral}
    (hl : leading.Reads v) (hp : p.Spelled w) :
    (leading.complete p).Accounts Reading.Reads PatternLiteral.Spelled (v ++ w) := by
  cases hl with
  | nothing => exact .afterYear hp
  | year hy hs =>
      rw [List.append_assoc]
      exact Reading.Reads.afterMonth hy hs hp
  | month hy hs hm ht =>
      have hspelled := PatternLiteral.Spelled.parts hy hs hm ht hp
      simpa only [Leading.complete, Step.Accounts, List.append_assoc, List.cons_append,
        List.nil_append] using hspelled

theorem accounts_numberStep {leading : Leading} {w : List Token} {t : Token}
    (hl : leading.Reads w) (ht : t.kind = .number) :
    (numberStep leading none t).Accounts Reading.Reads PatternLiteral.Spelled (w ++ [t]) := by
  unfold numberStep
  cases h : magnitude? t.text.toList with
  | none => exact trivial
  | some n => exact hl.complete (.plain ((magnitude?_eq_some_iff ht).mp h))

theorem accounts_negativeStep {leading : Leading} {w : List Token} {m t : Token}
    (hl : leading.Reads w) (hm : m.kind = .symbol .minus) (ht : t.kind = .number) :
    (numberStep leading (some m.span) t).Accounts Reading.Reads PatternLiteral.Spelled
      (w ++ [m] ++ [t]) := by
  unfold numberStep
  cases h : magnitude? t.text.toList with
  | none => exact trivial
  | some n =>
      rw [List.append_assoc]
      exact hl.complete (.negative hm ((magnitude?_eq_some_iff ht).mp h))

theorem isDateSeparator_of_contains {t : Token} (h : separatorKinds.contains t.kind = true) :
    t.IsDateSeparator := by
  simpa [separatorKinds, Token.IsDateSeparator] using h

theorem Reading.Reads.step {r : Reading} {w : List Token} (hr : r.Reads w) (t : Token) :
    (r.step (some t)).Accounts Reading.Reads PatternLiteral.Spelled (w ++ [t]) := by
  cases hr with
  | part hl =>
      rw [Reading.step, partStep]
      split
      · rename_i ht
        exact hl.complete (.wildcard ht)
      · rename_i ht
        exact Reading.Reads.minus hl ht
      · rename_i ht
        exact accounts_numberStep hl ht
      · exact trivial
  | minus hl hm =>
      rw [Reading.step, magnitudeStep]
      split_ifs with ht
      · exact accounts_negativeStep hl hm ht
      · exact trivial
  | afterYear hy =>
      rw [Reading.step, separatorStep, Option.any_some]
      split_ifs with ht
      · exact Reading.Reads.part (.year hy (isDateSeparator_of_contains ht))
      · exact trivial
  | afterMonth hy hs hm =>
      rw [Reading.step, separatorStep, Option.any_some]
      split_ifs with ht
      · rw [List.append_assoc, List.cons_append]
        exact Reading.Reads.part (.month hy hs hm (isDateSeparator_of_contains ht))
      · exact trivial

theorem Reading.step_none (r : Reading) : ∃ kinds, r.step none = .wrong (.expected kinds) := by
  cases r with
  | part leading minus => cases minus <;> exact ⟨_, rfl⟩
  | separator year month => exact ⟨_, rfl⟩

end PatternLiteral

namespace PropertyList

theorem addNumber_of_isLexeme {done : List Property} {key : Ident} {t : Token} (minus : Option Span)
    (hw : t.IsLexeme) (ht : t.kind = .number) :
    addNumber done key minus t = .more (.entry (done ++
      [⟨key, .number minus.isSome t.decimal ((minus.getD t.span).to t.span)⟩])) := by
  rw [addNumber, Token.ofText?_eq_decimal hw ht]

theorem run_value {w : List Token} {v : PropertyValue} (hv : v.Spelled w)
    (hw : ∀ t ∈ w, t.IsLexeme) (done : List Property) (key : Ident) :
    Step.run Reading.step (.value done key) w = some (.entry (done ++ [⟨key, v⟩])) := by
  cases hv with
  | string ht | name ht =>
      apply Step.run_singleton
      simp only [Reading.step, valueStep, ht]
  | @number t ht =>
      apply Step.run_singleton
      simp only [Reading.step, valueStep, ht, addNumber_of_isLexeme none (hw t List.mem_cons_self) ht]
      rfl
  | @negative m t hm ht =>
      have hstep : Reading.step (.value done key) (some m) = .more (.magnitude done key m.span) := by
        simp only [Reading.step, valueStep, hm]
      have hlexeme := hw t (List.mem_cons_of_mem _ List.mem_cons_self)
      rw [Step.run_cons_of_more hstep]
      apply Step.run_singleton
      rw [Reading.step, magnitudeStep, if_pos ht, addNumber_of_isLexeme _ hlexeme ht]
      rfl

theorem run_contents {w : List Token} {ps : List Property} (h : Contents w ps)
    (hw : ∀ t ∈ w, t.IsLexeme) : Step.run Reading.step (.entry []) w = some (.entry ps) := by
  induction h with
  | nil => rfl
  | @separator t v ps hv ht ih =>
      rw [Step.run_append_of_some (ih (List.forall_mem_append.mp hw).1)]
      apply Step.run_singleton
      rcases ht with ht | ht <;> simp only [Reading.step, entryStep, ht]
  | @entry k c v w ps value hv hk hc hvalue ih =>
      obtain ⟨hv, -, -, hw⟩ := by simpa only [List.forall_mem_cons, List.forall_mem_append] using hw
      have hkey : Reading.step (.entry ps) (some k) = .more (.colon ps k.ident) := by
        simp only [Reading.step, entryStep, hk]
      have hcolon : Reading.step (.colon ps k.ident) (some c) = .more (.value ps k.ident) := by
        rw [Reading.step, Step.take_some_eq_more_iff]
        exact ⟨hc, rfl⟩
      rw [Step.run_append_of_some (ih hv), Step.run_cons_of_more hkey,
        Step.run_cons_of_more hcolon]
      exact run_value hvalue hw ps k.ident

theorem step_closeBrace {t : Token} (ht : t.kind = .symbol .closeBrace) (ps : List Property) :
    Reading.step (.entry ps) (some t) = .done ps := by
  simp only [Reading.step, entryStep, ht]

inductive Reading.Reads : Reading → List Token → Prop
  | opening : Reads .opening []
  | entry {l : Token} {w : List Token} {done : List Property} (hl : l.kind = .symbol .openBrace)
      (hw : Contents w done) : Reads (.entry done) (l :: w)
  | colon {l k : Token} {w : List Token} {done : List Property} (hl : l.kind = .symbol .openBrace)
      (hw : Contents w done) (hk : k.kind = .name) : Reads (.colon done k.ident) (l :: (w ++ [k]))
  | value {l k c : Token} {w : List Token} {done : List Property}
      (hl : l.kind = .symbol .openBrace) (hw : Contents w done) (hk : k.kind = .name)
      (hc : c.kind = .symbol .colon) : Reads (.value done k.ident) (l :: (w ++ [k, c]))
  | magnitude {l k c m : Token} {w : List Token} {done : List Property}
      (hl : l.kind = .symbol .openBrace) (hw : Contents w done) (hk : k.kind = .name)
      (hc : c.kind = .symbol .colon) (hm : m.kind = .symbol .minus) :
      Reads (.magnitude done k.ident m.span) (l :: (w ++ [k, c, m]))

theorem reads_value {l k c : Token} {w u : List Token} {done : List Property} {v : PropertyValue}
    (hl : l.kind = .symbol .openBrace) (hw : Contents w done) (hk : k.kind = .name)
    (hc : c.kind = .symbol .colon) (hv : v.Spelled u) :
    Reading.Reads (.entry (done ++ [⟨k.ident, v⟩])) (l :: (w ++ [k, c] ++ u)) := by
  rw [List.append_assoc]
  exact .entry hl (.entry hw hk hc hv)

theorem accounts_entryStep {l : Token} {w : List Token} {done : List Property}
    (hl : l.kind = .symbol .openBrace) (hw : Contents w done) (t : Token) :
    (entryStep done (some t)).Accounts Reading.Reads Spelled (l :: w ++ [t]) := by
  rw [entryStep]
  split
  · rename_i ht
    exact Reading.Reads.entry hl (.separator hw (.inl ht))
  · rename_i ht
    exact Reading.Reads.entry hl (.separator hw (.inr ht))
  · rename_i ht
    exact Spelled.braces hl hw ht
  · rename_i ht
    exact Reading.Reads.colon hl hw ht
  · exact trivial

theorem accounts_valueStep {l k c : Token} {w : List Token} {done : List Property}
    (hl : l.kind = .symbol .openBrace) (hw : Contents w done) (hk : k.kind = .name)
    (hc : c.kind = .symbol .colon) (t : Token) :
    (valueStep done k.ident (some t)).Accounts Reading.Reads Spelled
      (l :: (w ++ [k, c]) ++ [t]) := by
  rw [valueStep]
  split
  · rename_i ht
    exact reads_value hl hw hk hc (.string ht)
  · rename_i ht
    exact reads_value hl hw hk hc (.name ht)
  · rename_i ht
    rw [addNumber]
    split
    · rename_i d hd
      rw [← Token.decimal_eq_of_ofText? hd]
      exact reads_value hl hw hk hc (.number ht)
    · exact trivial
  · rename_i ht
    have h := Reading.Reads.magnitude hl hw hk hc ht
    simpa only [Step.Accounts, List.cons_append, List.append_assoc, List.nil_append] using h
  · exact trivial

theorem Reading.Reads.step {r : Reading} {w : List Token} (hr : r.Reads w) (t : Token) :
    (r.step (some t)).Accounts Reading.Reads Spelled (w ++ [t]) := by
  cases hr with
  | opening =>
      rw [Reading.step, Step.take]
      split_ifs with ht
      · exact Reading.Reads.entry ht .nil
      · exact trivial
  | entry hl hw => exact accounts_entryStep hl hw t
  | colon hl hw hk =>
      rw [Reading.step, Step.take]
      split_ifs with ht
      · simpa only [Step.Accounts, List.cons_append, List.append_assoc, List.nil_append] using
          Reading.Reads.value hl hw hk ht
      · exact trivial
  | value hl hw hk hc => exact accounts_valueStep hl hw hk hc t
  | magnitude hl hw hk hc hm =>
      rw [Reading.step, magnitudeStep]
      split_ifs with ht
      · rw [addNumber]
        split
        · rename_i d hd
          rw [← Token.decimal_eq_of_ofText? hd]
          have h := reads_value hl hw hk hc (.negative hm ht)
          simpa only [Step.Accounts, Option.isSome_some, Option.getD_some, List.cons_append,
            List.append_assoc, List.nil_append] using h
        · exact trivial
      · exact trivial

theorem Reading.step_none (r : Reading) : ∃ kinds, r.step none = .wrong (.expected kinds) := by
  cases r <;> exact ⟨_, rfl⟩

end PropertyList

end Forecast
