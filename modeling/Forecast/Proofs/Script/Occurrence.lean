import Mathlib.Data.List.Infix
import Forecast.Proofs.Script.Grammar
import Forecast.Proofs.Script.Names

namespace Forecast

def namesAmong (ts : List Token) : List Ident := (ts.filter (·.kind = .name)).map Token.ident

@[simp] theorem namesAmong_nil : namesAmong [] = [] := rfl

@[simp] theorem namesAmong_append (v w : List Token) :
    namesAmong (v ++ w) = namesAmong v ++ namesAmong w := by
  rw [namesAmong, List.filter_append, List.map_append, namesAmong, namesAmong]

@[simp] theorem namesAmong_cons (t : Token) (ts : List Token) :
    namesAmong (t :: ts) = if t.kind = .name then t.ident :: namesAmong ts else namesAmong ts := by
  rw [namesAmong, List.filter_cons]
  simp only [decide_eq_true_eq]
  split_ifs <;> rfl

theorem mem_namesAmong_iff {ts : List Token} {x : Ident} :
    x ∈ namesAmong ts ↔ ∃ t ∈ ts, t.kind = .name ∧ t.ident = x := by
  simp [namesAmong, and_assoc]

mutual

theorem names_of_unary {w : List Token} {e : NumberExpr} :
    NumberExpr.Unary w e → e.names = namesAmong w
  | .name ht => by
      rw [namesAmong_cons, if_pos ht]
      rfl
  | .literal ht => by simp [ht, NumberExpr.names]
  | .negate ht he => by simp [ht, NumberExpr.names, names_of_unary he]
  | .paren hl he hr => by simp [hl, hr, names_of_number he]

theorem names_of_term {w : List Token} {e : NumberExpr} :
    NumberExpr.Term w e → e.names = namesAmong w
  | .unary he => names_of_unary he
  | .binary _ hl ht hr => by
      simp [ht, NumberExpr.names, names_of_term hl,
        names_of_unary hr]

theorem names_of_number {w : List Token} {e : NumberExpr} : e.Spelled w → e.names = namesAmong w
  | .term he => names_of_term he
  | .binary _ hl ht hr => by
      simp [ht, NumberExpr.names, names_of_number hl,
        names_of_term hr]

end

theorem names_of_comparison {w : List Token} {c : Comparison} (h : c.Spelled w) :
    c.names = namesAmong w := by
  cases h with
  | compare hl ht hr =>
      simp [ht, Comparison.names, names_of_number hl,
        names_of_number hr]

theorem names_of_conjunction {w : List Token} {c : Conjunction} (h : c.Spelled w) :
    c.names = namesAmong w := by
  induction h with
  | one hc => exact names_of_comparison hc
  | and he ht hc ih =>
      simp [ht, Conjunction.names, ih, names_of_comparison hc]

theorem names_of_condition {w : List Token} {c : Condition} (h : c.Spelled w) :
    c.names = namesAmong w := by
  induction h with
  | one hc => exact names_of_conjunction hc
  | or he ht hc ih =>
      simp [ht, Condition.names, ih, names_of_conjunction hc]

theorem Block.names_snoc : ∀ (b : Block) (a : Action), (b.snoc a).names = b.names ++ a.names
  | .nil, a => by simp [snoc, names]
  | .cons first rest, a => by
      rw [snoc, names, names_snoc rest a, names, List.append_assoc]

mutual

theorem names_of_action {w : List Token} {a : Action} : a.Spelled w → a.names = namesAmong w
  | .assign hx ht he => by
      rw [Action.names, names_of_number he, namesAmong_cons, if_pos hx, namesAmong_cons,
        if_neg (by simp [ht])]
  | .choose h => by
      rw [Action.names]
      exact names_of_conditional h
  | .block hb => by
      rw [Action.names]
      exact names_of_block hb

theorem names_of_conditional {w : List Token} {test : Condition} {yes : Block} {no : Otherwise} :
    Conditional w test yes no → test.names ++ (yes.names ++ no.names) = namesAmong w
  | .branch hi hl ht hr hy hn => by
      simp [hi, hl, hr, names_of_condition ht,
        names_of_block hy, names_of_otherwise hn]

theorem names_of_otherwise {w : List Token} {no : Otherwise} : no.Spelled w → no.names = namesAmong w
  | .nothing => by
      rw [Otherwise.names]
      rfl
  | .block ht hb => by
      rw [Otherwise.names, names_of_block hb, namesAmong_cons, if_neg (by simp [ht])]
  | .chain ht h => by
      rw [Otherwise.names, names_of_conditional h, namesAmong_cons, if_neg (by simp [ht])]

theorem names_of_block {w : List Token} {body : Block} : body.Spelled w → body.names = namesAmong w
  | .braces hl hw hr => by
      simp [hl, hr, names_of_contents hw]

theorem names_of_contents {w : List Token} {body : Block} :
    Block.Contents w body → body.names = namesAmong w
  | .nil => by
      rw [Block.names]
      rfl
  | .semicolon hv ht => by
      simp [ht, names_of_contents hv]
  | .action hv ha => by
      rw [Block.names_snoc, namesAmong_append, names_of_contents hv, names_of_action ha]

end

def Declaration.idents : Declaration → List Ident
  | .var x e _ => x :: e.names
  | .date x _ => [x]
  | .rule (.pattern _) a => a.names
  | .rule (.named x) a => x :: a.names

def Declaration.pattern? : Declaration → Option PatternLiteral
  | .date _ p => some p
  | .rule (.pattern p) _ => some p
  | _ => none

def Declaration.properties : Declaration → List Property
  | .var _ _ (some ps) => ps
  | _ => []

theorem Declaration.Spelled.idents_sublist {w : List Token} {d : Declaration} (h : d.Spelled w) :
    List.Sublist d.idents (namesAmong w) := by
  cases h with
  | var hk hy ht he => simp [hk, hy, ht, idents, names_of_number he]
  | varWith hk hy ht he hps => simp [hk, hy, ht, idents, names_of_number he]
  | date hk hy ht hp => simp [hk, hy, ht, idents]
  | rule hk hd hc ha =>
      cases hd with
      | named ht => simp [hk, ht, hc, idents, names_of_action ha]
      | pattern hp => simp [hk, hc, idents, names_of_action ha]

theorem PartLiteral.Spelled.exists_cons {w : List Token} {p : PartLiteral} (h : p.Spelled w) :
    ∃ t ts, w = t :: ts ∧ p.span.start = t.span.start := by
  cases h with
  | wildcard ht => exact ⟨_, _, rfl, rfl⟩
  | plain ht => exact ⟨_, _, rfl, rfl⟩
  | negative hm ht => exact ⟨_, _, rfl, rfl⟩

theorem PropertyValue.Spelled.exists_cons {w : List Token} {v : PropertyValue} (h : v.Spelled w) :
    ∃ t ts, w = t :: ts ∧ v.span.start = t.span.start := by
  cases h with
  | string ht => exact ⟨_, _, rfl, rfl⟩
  | name ht => exact ⟨_, _, rfl, rfl⟩
  | number ht => exact ⟨_, _, rfl, rfl⟩
  | negative hm ht => exact ⟨_, _, rfl, rfl⟩

theorem PropertyList.Contents.exists_value {w : List Token} {ps : List Property}
    (h : PropertyList.Contents w ps) {p : Property} (hp : p ∈ ps) :
    ∃ v, v <:+: w ∧ p.value.Spelled v := by
  induction h with
  | nil => cases hp
  | @separator t v ps hv ht ih =>
      obtain ⟨u, hu, hvalue⟩ := ih hp
      exact ⟨u, hu.trans (List.prefix_append v [t]).isInfix, hvalue⟩
  | @entry k c v w ps value hv hk hc hw ih =>
      rcases List.mem_append.mp hp with hp | hp
      · obtain ⟨u, hu, hvalue⟩ := ih hp
        exact ⟨u, hu.trans (List.prefix_append v _).isInfix, hvalue⟩
      · obtain rfl := List.mem_singleton.mp hp
        exact ⟨w, ⟨v ++ [k, c], [], by simp⟩, hw⟩

theorem PropertyList.Spelled.exists_value {w : List Token} {ps : List Property}
    (h : PropertyList.Spelled w ps) {p : Property} (hp : p ∈ ps) :
    ∃ v, v <:+: w ∧ p.value.Spelled v := by
  cases h with
  | @braces l r w ps hl hw hr =>
      obtain ⟨v, hv, hvalue⟩ := hw.exists_value hp
      exact ⟨v, hv.trans ⟨[l], [r], rfl⟩, hvalue⟩

theorem PatternLiteral.Spelled.exists_part {w : List Token} {p : PatternLiteral}
    (h : p.Spelled w) {part : PartLiteral} (hpart : part ∈ [p.year, p.month, p.day]) :
    ∃ v, v <:+: w ∧ part.Spelled v := by
  cases h with
  | @parts s t u v w year month day hy hs hm ht hd =>
      simp only [List.mem_cons, List.not_mem_nil, or_false] at hpart
      rcases hpart with rfl | rfl | rfl
      · exact ⟨u, ⟨[], s :: (v ++ t :: w), rfl⟩, hy⟩
      · exact ⟨v, ⟨u ++ [s], t :: w, by simp⟩, hm⟩
      · exact ⟨w, ⟨u ++ s :: (v ++ [t]), [], by simp⟩, hd⟩

theorem Declaration.Spelled.exists_pattern {w : List Token} {d : Declaration} (h : d.Spelled w)
    {p : PatternLiteral} (hp : d.pattern? = some p) : ∃ v, v <:+: w ∧ p.Spelled v := by
  cases h with
  | var hk hx ht he | varWith hk hx ht he hps => cases hp
  | @date k x t w p' hk hx ht hp' =>
      obtain rfl := Option.some.inj hp
      exact ⟨w, ⟨[k, x, t], [], by simp⟩, hp'⟩
  | @rule k c v w when a hk hd hc ha =>
      cases hd with
      | named ht => cases hp
      | pattern hp' =>
          obtain rfl := Option.some.inj hp
          exact ⟨v, ⟨[k], c :: w, rfl⟩, hp'⟩

theorem Declaration.Spelled.exists_value {w : List Token} {d : Declaration} (h : d.Spelled w)
    {p : Property} (hp : p ∈ d.properties) : ∃ v, v <:+: w ∧ p.value.Spelled v := by
  cases h with
  | var hk hx ht he | date hk hx ht hp' | rule hk hd hc ha => cases hp
  | @varWith k x t v w e ps hk hx ht he hps =>
      obtain ⟨u, hu, hvalue⟩ := hps.exists_value hp
      exact ⟨u, hu.trans ⟨k :: x :: t :: v, [], by simp⟩, hvalue⟩

theorem Declarations.exists_spelled {w : List Token} {ds : List Declaration} (h : Declarations w ds)
    {d : Declaration} (hd : d ∈ ds) : ∃ v, v <:+: w ∧ d.Spelled v := by
  induction h with
  | nil => cases hd
  | @semicolon t v ds hv ht ih =>
      obtain ⟨u, hu, hspelled⟩ := ih hd
      exact ⟨u, hu.trans (List.prefix_append v [t]).isInfix, hspelled⟩
  | @declaration v w ds d' hv hd' ih =>
      rcases List.mem_append.mp hd with hd | hd
      · obtain ⟨u, hu, hspelled⟩ := ih hd
        exact ⟨u, hu.trans (List.prefix_append v w).isInfix, hspelled⟩
      · obtain rfl := List.mem_singleton.mp hd
        exact ⟨w, (List.suffix_append v w).isInfix, hd'⟩

theorem Declarations.idents_sublist {w : List Token} {ds : List Declaration}
    (h : Declarations w ds) : List.Sublist (ds.flatMap Declaration.idents) (namesAmong w) := by
  induction h with
  | nil => exact List.nil_sublist _
  | semicolon hv ht ih =>
      rw [namesAmong_append]
      exact ih.trans (List.sublist_append_left _ _)
  | declaration hv hd ih =>
      rw [namesAmong_append, List.flatMap_append, List.flatMap_singleton]
      exact ih.append hd.idents_sublist

namespace Script

variable {ts : List Token} {s : Script}

theorem Spelled.idents_sublist (h : s.Spelled ts) :
    List.Sublist (s.declarations.flatMap Declaration.idents) (namesAmong ts) := by
  cases h with
  | plain hds => exact hds.idents_sublist
  | withOptions hds hk hps hw =>
      rw [namesAmong_append]
      exact hds.idents_sublist.trans (List.sublist_append_left _ _)

theorem Spelled.exists_declaration (h : s.Spelled ts) {d : Declaration}
    (hd : d ∈ s.declarations) : ∃ v, v <:+: ts ∧ d.Spelled v := by
  cases h with
  | plain hds => exact hds.exists_spelled hd
  | @withOptions k u v w ds ps hds hk hps hw =>
      obtain ⟨v', hv, hspelled⟩ := hds.exists_spelled hd
      exact ⟨v', hv.trans (List.prefix_append u _).isInfix, hspelled⟩

theorem Spelled.exists_options (h : s.Spelled ts) {ps : List Property} (hps : s.options = some ps) :
    ∃ v, v <:+: ts ∧ PropertyList.Spelled v ps := by
  cases h with
  | plain hds => cases hps
  | @withOptions k u v w ds ps' hds hk hps' hw =>
      obtain rfl := Option.some.inj hps
      exact ⟨v, ⟨u ++ [k], w, by simp⟩, hps'⟩

end Script

end Forecast
