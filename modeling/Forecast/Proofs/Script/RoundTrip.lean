import Forecast.Proofs.Script.Complete
import Forecast.Proofs.Script.Rendering

namespace Forecast

namespace Token

variable {t : Token} {w : Word}

theorem kind_of_word (h : t.word = w) : t.kind = w.kind := congrArg Word.kind h

theorem toList_of_word (h : t.word = w) : t.text.toList = w.text := congrArg Word.text h

theorem ident_of_word {x : Ident} (h : t.word = x.word) : t.ident.unplaced = x.unplaced := by
  have htext : t.text = x.name := String.toList_injective (toList_of_word h)
  rw [ident, Ident.unplaced, Ident.unplaced, htext]

theorem decimal_of_word {d : Decimal} (h : t.word = .decimal d) : t.decimal = d := by
  apply decimal_eq_of_ofText?
  rw [toList_of_word h]
  exact d.ofText?_text

theorem isInteger_of_word {n : Nat} (h : t.word = .integer n) (hn : n < Nat.pow 2 63) :
    t.IsInteger n := by
  have htext : t.text.toList = Nat.toDigits 10 n := toList_of_word h
  refine ⟨kind_of_word h, ?_, ?_, ?_, hn⟩
  · rw [htext]
    exact Nat.toDigits_ne_nil
  · rw [htext]
    exact fun c hc => Text.isDigit_of_mem_toDigits hc
  · rw [htext, Text.digitsValue_toDigits]

end Token

section Words

variable {ts : List Token} {w first last : Word} {u v : List Word}

theorem exists_of_map_eq_infix (h : ts.map Token.word = u ++ w :: v) :
    ∃ us t vs, ts = us ++ t :: vs ∧ us.map Token.word = u ∧ t.kind = w.kind ∧
      vs.map Token.word = v := by
  obtain ⟨us, vs, rfl, hus, hvs⟩ := List.map_eq_append_iff.mp h
  obtain ⟨t, vs, rfl, ht, hvs⟩ := List.map_eq_cons_iff.mp hvs
  exact ⟨us, t, vs, rfl, hus, Token.kind_of_word ht, hvs⟩

theorem exists_of_map_eq_enclosed (h : ts.map Token.word = first :: (u ++ [last])) :
    ∃ l us r, ts = l :: (us ++ [r]) ∧ l.kind = first.kind ∧ us.map Token.word = u ∧
      r.kind = last.kind := by
  obtain ⟨l, ts, rfl, hl, hts⟩ := List.map_eq_cons_iff.mp h
  obtain ⟨us, r, rest, rfl, hus, hr, hrest⟩ := exists_of_map_eq_infix hts
  obtain rfl := List.map_eq_nil_iff.mp hrest
  exact ⟨l, us, r, rfl, Token.kind_of_word hl, hus, hr⟩

end Words

namespace NumberExpr

/-- The words spell an operand for an operator of a level, or for a minus sign. -/
def SpelledAt : Nat → List Token → NumberExpr → Prop
  | 0 => NumberExpr.Spelled
  | 1 => NumberExpr.Term
  | _ + 2 => NumberExpr.Unary

variable {u v w : List Token} {e lhs rhs : NumberExpr}

theorem Unary.spelledAt (h : Unary w e) (level : Nat) : SpelledAt level w e := by
  match level with
  | 0 => exact .term (.unary h)
  | 1 => exact .unary h
  | _ + 2 => exact h

theorem SpelledAt.mono {n : Nat} {op : ArithOp} (hn : n ≤ op.level)
    (h : SpelledAt op.level w e) : SpelledAt n w e := by
  match n with
  | 0 =>
      cases op with
      | add | sub => exact h
      | mul | div => exact .term h
  | 1 =>
      cases op with
      | add | sub => cases hn
      | mul | div => exact h
  | n + 2 => cases op <;> simp [ArithOp.level] at hn

theorem SpelledAt.binary {op : ArithOp} {t : Token} (hl : SpelledAt op.level u lhs)
    (ht : t.kind = .symbol op.symbol) (hr : SpelledAt (op.level + 1) v rhs) :
    SpelledAt op.level (u ++ t :: v) (.binary op lhs rhs) := by
  cases op with
  | add => exact Spelled.binary (.inl rfl) hl ht hr
  | sub => exact Spelled.binary (.inr rfl) hl ht hr
  | mul => exact Term.binary (.inl rfl) hl ht hr
  | div => exact Term.binary (.inr rfl) hl ht hr

theorem exists_spelledAt (e : NumberExpr) (level : Nat) {ts : List Token}
    (h : ts.map Token.word = e.words level) :
    ∃ e', SpelledAt level ts e' ∧ e'.unplaced = e.unplaced := by
  induction e generalizing level ts with
  | literal value span =>
      obtain ⟨t, rfl, ht⟩ := List.map_eq_singleton_iff.mp h
      refine ⟨.literal t.decimal t.span, (Unary.literal (Token.kind_of_word ht)).spelledAt level, ?_⟩
      rw [Token.decimal_of_word ht, unplaced, unplaced]
  | reference x =>
      obtain ⟨t, rfl, ht⟩ := List.map_eq_singleton_iff.mp h
      refine ⟨.reference t.ident, (Unary.name (Token.kind_of_word ht)).spelledAt level, ?_⟩
      rw [unplaced, unplaced, Token.ident_of_word ht]
  | negate e ih =>
      obtain ⟨t, ts, rfl, ht, hts⟩ := List.map_eq_cons_iff.mp h
      obtain ⟨e', he, heq⟩ := ih 2 hts
      refine ⟨.negate e', (Unary.negate (Token.kind_of_word ht) he).spelledAt level, ?_⟩
      rw [unplaced, unplaced, heq]
  | binary op lhs rhs ihl ihr =>
      have hop : ∀ ts : List Token,
          ts.map Token.word = lhs.words op.level ++ .symbol op.symbol :: rhs.words (op.level + 1) →
          ∃ e', SpelledAt op.level ts e' ∧ e'.unplaced = (binary op lhs rhs).unplaced := by
        intro ts h
        obtain ⟨us, t, vs, rfl, hus, ht, hvs⟩ := exists_of_map_eq_infix h
        obtain ⟨lhs', hl, hleq⟩ := ihl op.level hus
        obtain ⟨rhs', hr, hreq⟩ := ihr (op.level + 1) hvs
        refine ⟨.binary op lhs' rhs', hl.binary ht hr, ?_⟩
        rw [unplaced, unplaced, hleq, hreq]
      rw [words] at h
      split_ifs at h with hlevel
      · obtain ⟨l, us, r, rfl, hl, hus, hr⟩ := exists_of_map_eq_enclosed h
        obtain ⟨e', he, heq⟩ := hop us hus
        exact ⟨e', (Unary.paren hl (he.mono (Nat.zero_le _)) hr).spelledAt level, heq⟩
      · obtain ⟨e', he, heq⟩ := hop ts h
        exact ⟨e', he.mono (Nat.le_of_not_lt hlevel), heq⟩

theorem exists_spelled (e : NumberExpr) {ts : List Token} (h : ts.map Token.word = e.words 0) :
    ∃ e' : NumberExpr, e'.Spelled ts ∧ e'.unplaced = e.unplaced := e.exists_spelledAt 0 h

end NumberExpr

section Trees

variable {ts : List Token}

theorem Comparison.exists_spelled (c : Comparison) (h : ts.map Token.word = c.words) :
    ∃ c' : Comparison, c'.Spelled ts ∧ c'.unplaced = c.unplaced := by
  obtain ⟨us, t, vs, rfl, hus, ht, hvs⟩ := exists_of_map_eq_infix h
  obtain ⟨lhs, hl, hleq⟩ := c.lhs.exists_spelled hus
  obtain ⟨rhs, hr, hreq⟩ := c.rhs.exists_spelled hvs
  refine ⟨⟨c.op, lhs, rhs⟩, .compare hl ht hr, ?_⟩
  simp only [unplaced, hleq, hreq]

theorem Conjunction.exists_spelled (c : Conjunction) (h : ts.map Token.word = c.words) :
    ∃ c' : Conjunction, c'.Spelled ts ∧ c'.unplaced = c.unplaced := by
  induction c generalizing ts with
  | one c =>
      obtain ⟨c', hc, heq⟩ := c.exists_spelled h
      exact ⟨.one c', .one hc, by rw [unplaced, unplaced, heq]⟩
  | and earlier c ih =>
      obtain ⟨us, t, vs, rfl, hus, ht, hvs⟩ := exists_of_map_eq_infix h
      obtain ⟨earlier', he, heq⟩ := ih hus
      obtain ⟨c', hc, hceq⟩ := c.exists_spelled hvs
      exact ⟨.and earlier' c', .and he ht hc, by rw [unplaced, unplaced, heq, hceq]⟩

theorem Condition.exists_spelled (c : Condition) (h : ts.map Token.word = c.words) :
    ∃ c' : Condition, c'.Spelled ts ∧ c'.unplaced = c.unplaced := by
  induction c generalizing ts with
  | one c =>
      obtain ⟨c', hc, heq⟩ := c.exists_spelled h
      exact ⟨.one c', .one hc, by rw [unplaced, unplaced, heq]⟩
  | or earlier c ih =>
      obtain ⟨us, t, vs, rfl, hus, ht, hvs⟩ := exists_of_map_eq_infix h
      obtain ⟨earlier', he, heq⟩ := ih hus
      obtain ⟨c', hc, hceq⟩ := c.exists_spelled hvs
      exact ⟨.or earlier' c', .or he ht hc, by rw [unplaced, unplaced, heq, hceq]⟩

theorem Block.Contents.cons {w : List Token} {a : Action} (ha : a.Spelled w) :
    ∀ {v : List Token} {b : Block}, b.Contents v → Block.Contents (w ++ v) (.cons a b)
  | _, _, .nil => by
      rw [List.append_nil]
      exact Block.Contents.action .nil ha
  | _, _, .semicolon hv ht => by
      rw [← List.append_assoc]
      exact .semicolon (Block.Contents.cons ha hv) ht
  | _, _, .action hv hb => by
      rw [← List.append_assoc]
      exact Block.Contents.action (Block.Contents.cons ha hv) hb

theorem Block.exists_spelled {body : Block}
    (hbody : ∀ us : List Token, us.map Token.word = body.words →
      ∃ body' : Block, body'.Contents us ∧ body'.unplaced = body.unplaced)
    (h : ts.map Token.word = inBraces body.words) :
    ∃ body' : Block, body'.Spelled ts ∧ body'.unplaced = body.unplaced := by
  obtain ⟨l, us, r, rfl, hl, hus, hr⟩ := exists_of_map_eq_enclosed h
  obtain ⟨body', hcontents, heq⟩ := hbody us hus
  exact ⟨body', .braces hl hcontents hr, heq⟩

theorem exists_conditional (test : Condition) {yes : Block} {no : Otherwise}
    (hyes : ∀ us : List Token, us.map Token.word = yes.words →
      ∃ yes' : Block, yes'.Contents us ∧ yes'.unplaced = yes.unplaced)
    (hno : ∀ us : List Token, us.map Token.word = no.words →
      ∃ no' : Otherwise, no'.Spelled us ∧ no'.unplaced = no.unplaced)
    (h : ts.map Token.word = conditionalWords test.words yes.words no.words) :
    ∃ test' yes' no', Conditional ts test' yes' no' ∧ test'.unplaced = test.unplaced ∧
      yes'.unplaced = yes.unplaced ∧ no'.unplaced = no.unplaced := by
  obtain ⟨i, ts, rfl, hi, hts⟩ := List.map_eq_cons_iff.mp h
  obtain ⟨us, vs, rfl, hus, hvs⟩ := List.map_eq_append_iff.mp hts
  obtain ⟨vs, ws, rfl, hvs, hws⟩ := List.map_eq_append_iff.mp hvs
  obtain ⟨l, us, r, rfl, hl, hus, hr⟩ := exists_of_map_eq_enclosed hus
  obtain ⟨test', htest, hteq⟩ := test.exists_spelled hus
  obtain ⟨yes', hyes', hyeq⟩ := Block.exists_spelled hyes hvs
  obtain ⟨no', hno', hneq⟩ := hno ws hws
  have hwords : l :: (us ++ [r]) ++ (vs ++ ws) = l :: (us ++ r :: (vs ++ ws)) := by simp
  rw [hwords]
  exact ⟨test', yes', no', .branch (Token.kind_of_word hi) hl htest hr hyes' hno', hteq, hyeq, hneq⟩

mutual

theorem Action.exists_spelled : ∀ (a : Action) (ts : List Token), ts.map Token.word = a.words →
    ∃ a' : Action, a'.Spelled ts ∧ a'.unplaced = a.unplaced
  | .assign x op e, ts, h => by
      rw [Action.words] at h
      obtain ⟨y, ts, rfl, hy, hts⟩ := List.map_eq_cons_iff.mp h
      obtain ⟨t, ts, rfl, ht, hts⟩ := List.map_eq_cons_iff.mp hts
      obtain ⟨e', he, heq⟩ := e.exists_spelled hts
      refine ⟨.assign y.ident op e', .assign (Token.kind_of_word hy) (Token.kind_of_word ht) he, ?_⟩
      rw [Action.unplaced, Action.unplaced, Token.ident_of_word hy, heq]
  | .choose test yes no, ts, h => by
      rw [Action.words] at h
      obtain ⟨test', yes', no', hc, hteq, hyeq, hneq⟩ :=
        exists_conditional test (Block.exists_contents yes) (Otherwise.exists_spelled no) h
      refine ⟨.choose test' yes' no', .choose hc, ?_⟩
      rw [Action.unplaced, Action.unplaced, hteq, hyeq, hneq]
  | .block body, ts, h => by
      rw [Action.words] at h
      obtain ⟨body', hbody, heq⟩ := Block.exists_spelled (Block.exists_contents body) h
      refine ⟨.block body', .block hbody, ?_⟩
      rw [Action.unplaced, Action.unplaced, heq]

theorem Otherwise.exists_spelled : ∀ (o : Otherwise) (ts : List Token),
    ts.map Token.word = o.words → ∃ o' : Otherwise, o'.Spelled ts ∧ o'.unplaced = o.unplaced
  | .nothing, ts, h => by
      rw [Otherwise.words] at h
      obtain rfl := List.map_eq_nil_iff.mp h
      exact ⟨.nothing, .nothing, rfl⟩
  | .block body, ts, h => by
      rw [Otherwise.words] at h
      obtain ⟨t, ts, rfl, ht, hts⟩ := List.map_eq_cons_iff.mp h
      obtain ⟨body', hbody, heq⟩ := Block.exists_spelled (Block.exists_contents body) hts
      refine ⟨.block body', .block (Token.kind_of_word ht) hbody, ?_⟩
      rw [Otherwise.unplaced, Otherwise.unplaced, heq]
  | .chain test yes no, ts, h => by
      rw [Otherwise.words] at h
      obtain ⟨t, ts, rfl, ht, hts⟩ := List.map_eq_cons_iff.mp h
      obtain ⟨test', yes', no', hc, hteq, hyeq, hneq⟩ :=
        exists_conditional test (Block.exists_contents yes) (Otherwise.exists_spelled no) hts
      refine ⟨.chain test' yes' no', .chain (Token.kind_of_word ht) hc, ?_⟩
      rw [Otherwise.unplaced, Otherwise.unplaced, hteq, hyeq, hneq]

theorem Block.exists_contents : ∀ (b : Block) (ts : List Token), ts.map Token.word = b.words →
    ∃ b' : Block, b'.Contents ts ∧ b'.unplaced = b.unplaced
  | .nil, ts, h => by
      rw [Block.words] at h
      obtain rfl := List.map_eq_nil_iff.mp h
      exact ⟨.nil, .nil, rfl⟩
  | .cons first rest, ts, h => by
      rw [Block.words] at h
      obtain ⟨us, vs, rfl, hus, hvs⟩ := List.map_eq_append_iff.mp h
      obtain ⟨a, ha, haeq⟩ := Action.exists_spelled first us hus
      obtain ⟨b, hb, hbeq⟩ := Block.exists_contents rest vs hvs
      refine ⟨.cons a b, .cons ha hb, ?_⟩
      rw [Block.unplaced, Block.unplaced, haeq, hbeq]

end

theorem PropertyValue.exists_spelled (v : PropertyValue) (h : ts.map Token.word = v.words) :
    ∃ v' : PropertyValue, v'.Spelled ts ∧ v'.unplaced = v.unplaced := by
  cases v with
  | string text span =>
      obtain ⟨t, rfl, ht⟩ := List.map_eq_singleton_iff.mp h
      refine ⟨_, .string (Token.kind_of_word ht), ?_⟩
      rw [Token.toList_of_word ht, unquote_string, String.ofList_toList, unplaced, unplaced]
  | number negative magnitude span =>
      rw [words] at h
      split_ifs at h with hnegative
      · obtain ⟨m, ts, rfl, hm, hts⟩ := List.map_eq_cons_iff.mp h
        obtain ⟨t, rfl, ht⟩ := List.map_eq_singleton_iff.mp hts
        refine ⟨_, .negative (Token.kind_of_word hm) (Token.kind_of_word ht), ?_⟩
        rw [Token.decimal_of_word ht, unplaced, unplaced, hnegative]
      · obtain ⟨t, rfl, ht⟩ := List.map_eq_singleton_iff.mp h
        refine ⟨_, .number (Token.kind_of_word ht), ?_⟩
        rw [Token.decimal_of_word ht, unplaced, unplaced, Bool.eq_false_iff.mpr hnegative]
  | name x =>
      obtain ⟨t, rfl, ht⟩ := List.map_eq_singleton_iff.mp h
      refine ⟨_, .name (Token.kind_of_word ht), ?_⟩
      rw [unplaced, unplaced, Token.ident_of_word ht]

theorem PropertyList.Contents.cons {k c : Token} {v w : List Token} {value : PropertyValue}
    {ps : List Property} (hk : k.kind = .name) (hc : c.kind = .symbol .colon)
    (hw : value.Spelled w) (h : Contents v ps) :
    Contents (k :: c :: (w ++ v)) (⟨k.ident, value⟩ :: ps) := by
  induction h with
  | nil =>
      rw [List.append_nil]
      exact Contents.entry .nil hk hc hw
  | separator hv ht ih =>
      rw [← List.append_assoc]
      exact ih.separator ht
  | entry hv hk' hc' hw' ih =>
      rw [← List.append_assoc]
      exact ih.entry hk' hc' hw'

theorem exists_contents_properties (ps : List Property)
    (h : ts.map Token.word = ps.flatMap Property.words) :
    ∃ ps', PropertyList.Contents ts ps' ∧ ps'.map Property.unplaced = ps.map Property.unplaced := by
  induction ps generalizing ts with
  | nil =>
      obtain rfl := List.map_eq_nil_iff.mp h
      exact ⟨[], .nil, rfl⟩
  | cons p ps ih =>
      obtain ⟨us, vs, rfl, hus, hvs⟩ := List.map_eq_append_iff.mp h
      obtain ⟨k, us, rfl, hk, hus⟩ := List.map_eq_cons_iff.mp hus
      obtain ⟨c, us, rfl, hc, hus⟩ := List.map_eq_cons_iff.mp hus
      obtain ⟨value, hvalue, hveq⟩ := p.value.exists_spelled hus
      obtain ⟨ps', hps, hpseq⟩ := ih hvs
      refine ⟨⟨k.ident, value⟩ :: ps', .cons (Token.kind_of_word hk) (Token.kind_of_word hc) hvalue hps, ?_⟩
      rw [List.map_cons, List.map_cons, hpseq, Property.unplaced, Property.unplaced,
        Token.ident_of_word hk, hveq]

theorem exists_spelled_properties (ps : List Property) (h : ts.map Token.word = propertyWords ps) :
    ∃ ps', PropertyList.Spelled ts ps' ∧ ps'.map Property.unplaced = ps.map Property.unplaced := by
  obtain ⟨l, us, r, rfl, hl, hus, hr⟩ := exists_of_map_eq_enclosed h
  obtain ⟨ps', hps, heq⟩ := exists_contents_properties ps hus
  exact ⟨ps', .braces hl hps hr, heq⟩

theorem PartLiteral.exists_spelled {p : PartLiteral} (hp : p.Writable)
    (h : ts.map Token.word = p.words) :
    ∃ p' : PartLiteral, p'.Spelled ts ∧ p'.unplaced = p.unplaced := by
  obtain ⟨value, span⟩ := p
  match value with
  | none =>
      obtain ⟨t, rfl, ht⟩ := List.map_eq_singleton_iff.mp h
      exact ⟨_, .wildcard (Token.kind_of_word ht), rfl⟩
  | some (.ofNat n) =>
      obtain ⟨t, rfl, ht⟩ := List.map_eq_singleton_iff.mp h
      exact ⟨_, .plain (Token.isInteger_of_word ht (hp _ rfl)), rfl⟩
  | some (.negSucc n) =>
      obtain ⟨m, ts, rfl, hm, hts⟩ := List.map_eq_cons_iff.mp h
      obtain ⟨t, rfl, ht⟩ := List.map_eq_singleton_iff.mp hts
      exact ⟨_, .negative (Token.kind_of_word hm) (Token.isInteger_of_word ht (hp _ rfl)), rfl⟩

theorem PatternLiteral.exists_spelled {p : PatternLiteral} (hp : p.Writable)
    (h : ts.map Token.word = p.words) :
    ∃ p' : PatternLiteral, p'.Spelled ts ∧ p'.unplaced = p.unplaced := by
  obtain ⟨us, s, vs, rfl, hus, hs, hvs⟩ := exists_of_map_eq_infix h
  obtain ⟨vs, t, ws, rfl, hvs, ht, hws⟩ := exists_of_map_eq_infix hvs
  obtain ⟨year, hyear, hyeq⟩ := PartLiteral.exists_spelled hp.1 hus
  obtain ⟨month, hmonth, hmeq⟩ := PartLiteral.exists_spelled hp.2.1 hvs
  obtain ⟨day, hday, hdeq⟩ := PartLiteral.exists_spelled hp.2.2 hws
  refine ⟨⟨year, month, day⟩, .parts hyear (.inl hs) hmonth (.inl ht) hday, ?_⟩
  simp only [unplaced, hyeq, hmeq, hdeq]

theorem When.exists_spelled {when : When} (hw : when.Writable)
    (h : ts.map Token.word = when.words) :
    ∃ when' : When, when'.Spelled ts ∧ when'.unplaced = when.unplaced := by
  cases when with
  | pattern p =>
      obtain ⟨p', hp, heq⟩ := PatternLiteral.exists_spelled hw h
      exact ⟨.pattern p', .pattern hp, by rw [unplaced, unplaced, heq]⟩
  | named x =>
      obtain ⟨t, rfl, ht⟩ := List.map_eq_singleton_iff.mp h
      exact ⟨_, .named (Token.kind_of_word ht), by rw [unplaced, unplaced, Token.ident_of_word ht]⟩

theorem Declaration.exists_spelled {d : Declaration} (hd : d.Writable)
    (h : ts.map Token.word = d.words) :
    ∃ d' : Declaration, d'.Spelled ts ∧ d'.unplaced = d.unplaced := by
  cases d with
  | var x e ps =>
      obtain ⟨k, ts, rfl, hk, hts⟩ := List.map_eq_cons_iff.mp h
      obtain ⟨y, ts, rfl, hy, hts⟩ := List.map_eq_cons_iff.mp hts
      obtain ⟨t, ts, rfl, ht, hts⟩ := List.map_eq_cons_iff.mp hts
      obtain ⟨us, vs, rfl, hus, hvs⟩ := List.map_eq_append_iff.mp hts
      obtain ⟨e', he, heq⟩ := e.exists_spelled hus
      cases ps with
      | none =>
          obtain rfl := List.map_eq_nil_iff.mp hvs
          refine ⟨.var y.ident e' none, ?_, ?_⟩
          · rw [List.append_nil]
            exact .var (Token.kind_of_word hk) (Token.kind_of_word hy) (Token.kind_of_word ht) he
          · rw [unplaced, unplaced, Token.ident_of_word hy, heq]
      | some ps =>
          obtain ⟨ps', hps, hpseq⟩ := exists_spelled_properties ps hvs
          refine ⟨.var y.ident e' (some ps'), .varWith (Token.kind_of_word hk)
            (Token.kind_of_word hy) (Token.kind_of_word ht) he hps, ?_⟩
          rw [unplaced, unplaced, Token.ident_of_word hy, heq, Option.map_some, Option.map_some,
            hpseq]
  | date x p =>
      obtain ⟨k, ts, rfl, hk, hts⟩ := List.map_eq_cons_iff.mp h
      obtain ⟨y, ts, rfl, hy, hts⟩ := List.map_eq_cons_iff.mp hts
      obtain ⟨t, ts, rfl, ht, hts⟩ := List.map_eq_cons_iff.mp hts
      obtain ⟨p', hp, heq⟩ := PatternLiteral.exists_spelled hd.2 hts
      refine ⟨.date y.ident p', .date (Token.kind_of_word hk) (Token.kind_of_word hy)
        (Token.kind_of_word ht) hp, ?_⟩
      rw [unplaced, unplaced, Token.ident_of_word hy, heq]
  | rule when a =>
      obtain ⟨k, ts, rfl, hk, hts⟩ := List.map_eq_cons_iff.mp h
      obtain ⟨us, c, vs, rfl, hus, hc, hvs⟩ := exists_of_map_eq_infix hts
      obtain ⟨when', hwhen, hweq⟩ := When.exists_spelled hd.1 hus
      obtain ⟨a', ha, haeq⟩ := a.exists_spelled vs hvs
      refine ⟨.rule when' a', .rule (Token.kind_of_word hk) hwhen hc ha, ?_⟩
      rw [unplaced, unplaced, hweq, haeq]

theorem Declarations.cons {v w : List Token} {d : Declaration} {ds : List Declaration}
    (hd : d.Spelled w) (h : Declarations v ds) : Declarations (w ++ v) (d :: ds) := by
  induction h with
  | nil =>
      rw [List.append_nil]
      exact Declarations.declaration .nil hd
  | semicolon hv ht ih =>
      rw [← List.append_assoc]
      exact ih.semicolon ht
  | declaration hv hd' ih =>
      rw [← List.append_assoc]
      exact ih.declaration hd'

theorem exists_declarations {ds : List Declaration} (hds : ∀ d ∈ ds, d.Writable)
    (h : ts.map Token.word = ds.flatMap Declaration.words) :
    ∃ ds', Declarations ts ds' ∧ ds'.map Declaration.unplaced = ds.map Declaration.unplaced := by
  induction ds generalizing ts with
  | nil =>
      obtain rfl := List.map_eq_nil_iff.mp h
      exact ⟨[], .nil, rfl⟩
  | cons d ds ih =>
      obtain ⟨hd, hds⟩ := List.forall_mem_cons.mp hds
      obtain ⟨us, vs, rfl, hus, hvs⟩ := List.map_eq_append_iff.mp h
      obtain ⟨d', hd', hdeq⟩ := Declaration.exists_spelled hd hus
      obtain ⟨ds', hds', hdseq⟩ := ih hds hvs
      refine ⟨d' :: ds', .cons hd' hds', ?_⟩
      rw [List.map_cons, List.map_cons, hdeq, hdseq]

theorem Script.exists_spelled {s : Script} (hs : s.Writable) (h : ts.map Token.word = s.words) :
    ∃ s' : Script, s'.Spelled ts ∧ s'.unplaced = s.unplaced := by
  obtain ⟨us, vs, rfl, hus, hvs⟩ := List.map_eq_append_iff.mp h
  obtain ⟨ds, hds, hdseq⟩ := exists_declarations hs.1 hus
  cases hoptions : s.options with
  | none =>
      rw [hoptions] at hvs
      obtain rfl := List.map_eq_nil_iff.mp hvs
      refine ⟨⟨ds, none⟩, ?_, ?_⟩
      · rw [List.append_nil]
        exact .plain hds
      · simp only [unplaced, hdseq, hoptions, Option.map_none]
  | some ps =>
      rw [hoptions] at hvs
      obtain ⟨k, vs, rfl, hk, hvs⟩ := List.map_eq_cons_iff.mp hvs
      obtain ⟨ps', hps, hpseq⟩ := exists_spelled_properties ps hvs
      refine ⟨⟨ds, some ps'⟩, ?_, ?_⟩
      · have hspelled := Script.Spelled.withOptions hds (Token.kind_of_word hk) hps
          (List.forall_mem_nil _)
        rwa [List.append_nil] at hspelled
      · simp only [unplaced, hdseq, hoptions, Option.map_some, hpseq]

end Trees

theorem Script.exists_spelled_render {s : Script} (hs : s.Writable) {gap : Nat → List Char}
    (hgap : Separates gap s.words.length) :
    ∃ s' : Script, s'.Spelled (Token.ofText (s.render gap)) ∧
      Token.brokenParts (s.render gap) = [] ∧ ofText (s.render gap) = ⟨s', []⟩ ∧
        s'.unplaced = s.unplaced := by
  obtain ⟨hwords, hbroken⟩ := Token.ofText_spread (Script.isLexeme_words hs) hgap
  obtain ⟨s', hspelled, heq⟩ := Script.exists_spelled hs hwords
  exact ⟨s', hspelled, hbroken, hspelled.ofText_eq hbroken, heq⟩

/-- Reading inverts writing: the text of a script that can be written down, with any gaps between
its words, has no fault in it and gives the script again, up to its places. -/
theorem Script.ofText_render {s : Script} (hs : s.Writable) {gap : Nat → List Char}
    (hgap : Separates gap s.words.length) :
    (ofText (s.render gap)).faults = [] ∧
      (ofText (s.render gap)).value.unplaced = s.unplaced := by
  obtain ⟨s', -, -, htext, heq⟩ := Script.exists_spelled_render hs hgap
  rw [htext]
  exact ⟨rfl, heq⟩

namespace Script

def oneBlank : Nat → List Char := fun _ => [' ']

theorem separates_oneBlank (n : Nat) : Separates oneBlank n :=
  ⟨fun _ _ hc => List.mem_singleton.mp hc ▸ rfl, fun _ _ _ => List.cons_ne_nil _ _⟩

example :
    let ref (text : String) : NumberExpr := .reference ⟨text, ⟨0, 0⟩⟩
    let e : NumberExpr := .binary .sub (ref "a") (.binary .sub (.negate (ref "b")) (.literal ⟨5, 2⟩ ⟨0, 0⟩))
    render oneBlank ⟨[.var ⟨"x", ⟨0, 0⟩⟩ e none], none⟩ = " var x = a - ( - b - 0.05 ) ".toList := by
  decide +kernel

/-- Operators that lean to the right, repeated signs, a date counted from the end, quotes in a
string, and a conditional after `else`. -/
def tangled : Script :=
  let name (text : String) : Ident := ⟨text, ⟨3, 4⟩⟩
  let ref (text : String) : NumberExpr := .reference (name text)
  let number (mantissa places : Nat) : NumberExpr := .literal ⟨mantissa, places⟩ ⟨0, 1⟩
  let test : Condition := .or
    (.one (.and (.one ⟨.less, .binary .sub (ref "a") (.binary .sub (ref "b") (number 5 2)), ref "b"⟩)
      ⟨.equal, .binary .mul (.binary .add (ref "a") (number 1 0)) (.negate (.negate (ref "b"))),
        number 0 0⟩))
    (.one ⟨.greaterEqual, .negate (.binary .div (ref "a") (ref "b")), number 314 2⟩)
  ⟨[.var (name "a") (number 105 2)
      (some [⟨name "label", .string "say \"hi\" \\" ⟨0, 9⟩⟩, ⟨name "scale", .number true ⟨2, 0⟩ ⟨0, 1⟩⟩,
        ⟨name "color", .name (name "red")⟩]),
    .date (name "end") ⟨⟨none, ⟨0, 1⟩⟩, ⟨some 12, ⟨0, 1⟩⟩, ⟨some (-1), ⟨0, 2⟩⟩⟩,
    .rule (.named (name "end")) (.choose test
      (.cons (.assign (name "a") .add (ref "b")) (.cons (.block .nil) .nil))
      (.chain test .nil (.block (.cons (.assign (name "b") .set (number 0 1)) .nil))))],
    some [⟨name "duration", .string "2y" ⟨0, 4⟩⟩]⟩

theorem ofText_render_tangled :
    (ofText (tangled.render oneBlank)).faults = [] ∧
      (ofText (tangled.render oneBlank)).value.unplaced = tangled.unplaced := by
  have hs : tangled.Writable := by decide +kernel
  exact ofText_render hs (separates_oneBlank _)

end Script

end Forecast
