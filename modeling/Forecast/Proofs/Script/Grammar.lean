import Forecast.Script.Reader
import Forecast.Token.Piece

namespace Forecast

namespace Token

def IsLexeme (t : Token) : Prop :=
  ∃ c rest, t.text.toList = c :: rest ∧ Piece.classify c rest = (.token t.kind, rest.length)

def decimal (t : Token) : Decimal := (Decimal.ofText? t.text.toList).getD ⟨0, 0⟩

/-- An integer is a numeral of digits alone whose value fits in 64 bits with a sign. -/
structure IsInteger (t : Token) (n : Nat) : Prop where
  kind : t.kind = .number
  ne_nil : t.text.toList ≠ []
  digits : ∀ c ∈ t.text.toList, c.isDigit
  value : Text.digitsValue t.text.toList = n
  lt : n < Nat.pow 2 63

end Token

def ArithOp.symbol : ArithOp → Symbol
  | add => .plus
  | sub => .minus
  | mul => .star
  | div => .slash

def CompareOp.symbol : CompareOp → Symbol
  | equal => .equal
  | greater => .greater
  | less => .less
  | greaterEqual => .greaterEqual
  | lessEqual => .lessEqual

def AssignOp.symbol : AssignOp → Symbol
  | set => .assign
  | add => .plusAssign
  | sub => .minusAssign
  | mul => .starAssign
  | div => .slashAssign

mutual

inductive NumberExpr.Unary : List Token → NumberExpr → Prop
  | name {t : Token} (ht : t.kind = .name) : Unary [t] (.reference t.ident)
  | literal {t : Token} (ht : t.kind = .number) : Unary [t] (.literal t.decimal t.span)
  | negate {t : Token} {w : List Token} {e : NumberExpr} (ht : t.kind = .symbol .minus)
      (he : Unary w e) : Unary (t :: w) (.negate e)
  | paren {l r : Token} {w : List Token} {e : NumberExpr} (hl : l.kind = .symbol .openParen)
      (he : NumberExpr.Spelled w e) (hr : r.kind = .symbol .closeParen) : Unary (l :: (w ++ [r])) e

inductive NumberExpr.Term : List Token → NumberExpr → Prop
  | unary {w : List Token} {e : NumberExpr} (he : NumberExpr.Unary w e) : Term w e
  | binary {op : ArithOp} {t : Token} {v w : List Token} {lhs rhs : NumberExpr}
      (hop : op = .mul ∨ op = .div) (hl : Term v lhs) (ht : t.kind = .symbol op.symbol)
      (hr : NumberExpr.Unary w rhs) : Term (v ++ t :: w) (.binary op lhs rhs)

inductive NumberExpr.Spelled : List Token → NumberExpr → Prop
  | term {w : List Token} {e : NumberExpr} (he : NumberExpr.Term w e) : Spelled w e
  | binary {op : ArithOp} {t : Token} {v w : List Token} {lhs rhs : NumberExpr}
      (hop : op = .add ∨ op = .sub) (hl : Spelled v lhs) (ht : t.kind = .symbol op.symbol)
      (hr : NumberExpr.Term w rhs) : Spelled (v ++ t :: w) (.binary op lhs rhs)

end

inductive Comparison.Spelled : List Token → Comparison → Prop
  | compare {op : CompareOp} {t : Token} {v w : List Token} {lhs rhs : NumberExpr}
      (hl : lhs.Spelled v) (ht : t.kind = .symbol op.symbol) (hr : rhs.Spelled w) :
      Spelled (v ++ t :: w) ⟨op, lhs, rhs⟩

inductive Conjunction.Spelled : List Token → Conjunction → Prop
  | one {w : List Token} {c : Comparison} (hc : c.Spelled w) : Spelled w (.one c)
  | and {t : Token} {v w : List Token} {earlier : Conjunction} {c : Comparison}
      (he : Spelled v earlier) (ht : t.kind = .symbol .andAnd) (hc : c.Spelled w) :
      Spelled (v ++ t :: w) (.and earlier c)

inductive Condition.Spelled : List Token → Condition → Prop
  | one {w : List Token} {c : Conjunction} (hc : c.Spelled w) : Spelled w (.one c)
  | or {t : Token} {v w : List Token} {earlier : Condition} {c : Conjunction}
      (he : Spelled v earlier) (ht : t.kind = .symbol .orOr) (hc : c.Spelled w) :
      Spelled (v ++ t :: w) (.or earlier c)

mutual

inductive Action.Spelled : List Token → Action → Prop
  | assign {op : AssignOp} {x t : Token} {w : List Token} {e : NumberExpr} (hx : x.kind = .name)
      (ht : t.kind = .symbol op.symbol) (he : e.Spelled w) :
      Action.Spelled (x :: t :: w) (.assign x.ident op e)
  | choose {w : List Token} {test : Condition} {yes : Block} {no : Otherwise}
      (h : Conditional w test yes no) : Action.Spelled w (.choose test yes no)
  | block {w : List Token} {body : Block} (hb : Block.Spelled w body) :
      Action.Spelled w (.block body)

/-- A conditional, as an action or after the `else` of another one. -/
inductive Conditional : List Token → Condition → Block → Otherwise → Prop
  | branch {i l r : Token} {u v w : List Token} {test : Condition} {yes : Block} {no : Otherwise}
      (hi : i.kind = .keyword .ifWord) (hl : l.kind = .symbol .openParen) (ht : test.Spelled u)
      (hr : r.kind = .symbol .closeParen) (hy : Block.Spelled v yes) (hn : Otherwise.Spelled w no) :
      Conditional (i :: l :: (u ++ r :: (v ++ w))) test yes no

inductive Otherwise.Spelled : List Token → Otherwise → Prop
  | nothing : Otherwise.Spelled [] .nothing
  | block {t : Token} {w : List Token} {body : Block} (ht : t.kind = .keyword .elseWord)
      (hb : Block.Spelled w body) : Otherwise.Spelled (t :: w) (.block body)
  | chain {t : Token} {w : List Token} {test : Condition} {yes : Block} {no : Otherwise}
      (ht : t.kind = .keyword .elseWord) (h : Conditional w test yes no) :
      Otherwise.Spelled (t :: w) (.chain test yes no)

inductive Block.Spelled : List Token → Block → Prop
  | braces {l r : Token} {w : List Token} {body : Block} (hl : l.kind = .symbol .openBrace)
      (hw : Block.Contents w body) (hr : r.kind = .symbol .closeBrace) :
      Block.Spelled (l :: (w ++ [r])) body

inductive Block.Contents : List Token → Block → Prop
  | nil : Block.Contents [] .nil
  | semicolon {t : Token} {v : List Token} {body : Block} (hv : Block.Contents v body)
      (ht : t.kind = .symbol .semicolon) : Block.Contents (v ++ [t]) body
  | action {v w : List Token} {body : Block} {a : Action} (hv : Block.Contents v body)
      (ha : Action.Spelled w a) : Block.Contents (v ++ w) (body.snoc a)

end

inductive PropertyValue.Spelled : List Token → PropertyValue → Prop
  | string {t : Token} (ht : t.kind = .string) :
      Spelled [t] (.string (String.ofList (PropertyList.unquote t.text.toList)) t.span)
  | name {t : Token} (ht : t.kind = .name) : Spelled [t] (.name t.ident)
  | number {t : Token} (ht : t.kind = .number) : Spelled [t] (.number false t.decimal t.span)
  | negative {m t : Token} (hm : m.kind = .symbol .minus) (ht : t.kind = .number) :
      Spelled [m, t] (.number true t.decimal (m.span.to t.span))

inductive PropertyList.Contents : List Token → List Property → Prop
  | nil : Contents [] []
  | separator {t : Token} {v : List Token} {ps : List Property} (hv : Contents v ps)
      (ht : t.kind = .symbol .comma ∨ t.kind = .symbol .semicolon) : Contents (v ++ [t]) ps
  | entry {k c : Token} {v w : List Token} {ps : List Property} {value : PropertyValue}
      (hv : Contents v ps) (hk : k.kind = .name) (hc : c.kind = .symbol .colon)
      (hw : value.Spelled w) : Contents (v ++ k :: c :: w) (ps ++ [⟨k.ident, value⟩])

inductive PropertyList.Spelled : List Token → List Property → Prop
  | braces {l r : Token} {w : List Token} {ps : List Property} (hl : l.kind = .symbol .openBrace)
      (hw : PropertyList.Contents w ps) (hr : r.kind = .symbol .closeBrace) :
      Spelled (l :: (w ++ [r])) ps

inductive PartLiteral.Spelled : List Token → PartLiteral → Prop
  | wildcard {t : Token} (ht : t.kind = .symbol .star) : Spelled [t] ⟨none, t.span⟩
  | plain {t : Token} {n : Nat} (ht : t.IsInteger n) : Spelled [t] ⟨some n, t.span⟩
  | negative {m t : Token} {n : Nat} (hm : m.kind = .symbol .minus) (ht : t.IsInteger n) :
      Spelled [m, t] ⟨some (-n), m.span.to t.span⟩

def Token.IsDateSeparator (t : Token) : Prop := t.kind = .symbol .minus ∨ t.kind = .symbol .slash

inductive PatternLiteral.Spelled : List Token → PatternLiteral → Prop
  | parts {s t : Token} {u v w : List Token} {year month day : PartLiteral}
      (hy : year.Spelled u) (hs : s.IsDateSeparator) (hm : month.Spelled v)
      (ht : t.IsDateSeparator) (hd : day.Spelled w) :
      Spelled (u ++ s :: (v ++ t :: w)) ⟨year, month, day⟩

inductive When.Spelled : List Token → When → Prop
  | named {t : Token} (ht : t.kind = .name) : Spelled [t] (.named t.ident)
  | pattern {w : List Token} {p : PatternLiteral} (hp : p.Spelled w) : Spelled w (.pattern p)

inductive Declaration.Spelled : List Token → Declaration → Prop
  | var {k x t : Token} {w : List Token} {e : NumberExpr} (hk : k.kind = .keyword .varWord)
      (hx : x.kind = .name) (ht : t.kind = .symbol .assign) (he : e.Spelled w) :
      Spelled (k :: x :: t :: w) (.var x.ident e none)
  | varWith {k x t : Token} {v w : List Token} {e : NumberExpr} {ps : List Property}
      (hk : k.kind = .keyword .varWord) (hx : x.kind = .name) (ht : t.kind = .symbol .assign)
      (he : e.Spelled v) (hps : PropertyList.Spelled w ps) :
      Spelled (k :: x :: t :: (v ++ w)) (.var x.ident e (some ps))
  | date {k x t : Token} {w : List Token} {p : PatternLiteral} (hk : k.kind = .keyword .dateWord)
      (hx : x.kind = .name) (ht : t.kind = .symbol .assign) (hp : p.Spelled w) :
      Spelled (k :: x :: t :: w) (.date x.ident p)
  | rule {k c : Token} {v w : List Token} {when : When} {a : Action}
      (hk : k.kind = .keyword .atWord) (hd : when.Spelled v) (hc : c.kind = .symbol .comma)
      (ha : a.Spelled w) : Spelled (k :: (v ++ c :: w)) (.rule when a)

inductive Declarations : List Token → List Declaration → Prop
  | nil : Declarations [] []
  | semicolon {t : Token} {v : List Token} {ds : List Declaration} (hv : Declarations v ds)
      (ht : t.kind = .symbol .semicolon) : Declarations (v ++ [t]) ds
  | declaration {v w : List Token} {ds : List Declaration} {d : Declaration}
      (hv : Declarations v ds) (hd : d.Spelled w) : Declarations (v ++ w) (ds ++ [d])

/-- Which lists of tokens spell which scripts.

    program      ::=  declarations [`options` properties `;`*]
    declarations ::=  { declaration | `;` }
    declaration  ::=  `var` name `=` number [properties]  |  `date` name `=` pattern
                   |  `at` (name | pattern) `,` action
    properties   ::=  `{` { name `:` value | `,` | `;` } `}`
    value        ::=  string  |  name  |  [`-`] numeral
    pattern      ::=  part (`-` | `/`) part (`-` | `/`) part
    part         ::=  `*`  |  [`-`] integer
    action       ::=  name (`=` | `+=` | `-=` | `*=` | `/=`) number  |  conditional  |  block
    conditional  ::=  `if` `(` condition `)` block [`else` (block | conditional)]
    block        ::=  `{` { action | `;` } `}`
    condition    ::=  conjunction  |  condition `||` conjunction
    conjunction  ::=  comparison  |  conjunction `&&` comparison
    comparison   ::=  number (`==` | `>` | `<` | `>=` | `<=`) number
    number       ::=  term  |  number (`+` | `-`) term
    term         ::=  unary  |  term (`*` | `/`) unary
    unary        ::=  `-` unary  |  numeral  |  name  |  `(` number `)`
-/
inductive Script.Spelled : List Token → Script → Prop
  | plain {w : List Token} {ds : List Declaration} (hds : Declarations w ds) : Spelled w ⟨ds, none⟩
  | withOptions {k : Token} {u v w : List Token} {ds : List Declaration} {ps : List Property}
      (hds : Declarations u ds) (hk : k.kind = .keyword .optionsWord)
      (hps : PropertyList.Spelled v ps) (hw : ∀ t ∈ w, t.kind = .symbol .semicolon) :
      Spelled (u ++ k :: (v ++ w)) ⟨ds, some ps⟩

end Forecast
