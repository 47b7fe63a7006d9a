import Forecast.Proofs.Plan.Outcome
import Forecast.Proofs.Plan.Refinement
import Forecast.Proofs.Script.Blamed
import Forecast.Proofs.Script.Sound
import Forecast.Proofs.Token.Places

namespace Forecast

/-- Some tokens of the source that follow one another stand at an offset, with gaps between them. -/
def TokensStandAt (source : List Char) (offset : Nat) (ts : List Token) : Prop :=
  ts <:+: Token.ofText source ∧ ∃ text, Lays ts text ∧ StandsAt source offset text

/-- What a problem is about stands at an offset: the text that the problem tells, a part of a
pattern, or the value of a property, sign included. Where the input has ended too early, the offset
is its end. -/
def Problem.IsAt (today : Date) (source : List Char) (offset : Nat) : Problem → Prop
  | .unrecognized text => StandsAt source offset text.toList ∧
    ∃ span, (span, text) ∈ Token.brokenParts source ∧ span.start = offset
  | .mismatched none _ => offset = byteLength source
  | .mismatched (some text) _ | .extraneous text | .datePart text | .number text =>
    StandsAt source offset text.toList ∧
      ∃ t ∈ Token.ofText source, t.text = text ∧ t.span.start = offset
  | .varExists name | .varNotFound name | .dateExists name | .dateNotFound name =>
    StandsAt source offset name.toList ∧
      ∃ t ∈ Token.ofText source, t.kind = .name ∧ t.text = name ∧ t.span.start = offset
  | .pattern e => ∃ d ∈ (Script.ofText source).value.declarations, ∃ p, d.pattern? = some p ∧
    p.pattern = .error e ∧ ∃ ts, (p.blamedPart e).Spelled ts ∧ TokensStandAt source offset ts
  | .setting e => ∃ p, (Script.ofText source).value.Blames today p e ∧
    ∃ ts, p.value.Spelled ts ∧ TokensStandAt source offset ts

variable {today : Date} {source : List Char} {offset : Nat}

theorem StandsAt.exists_append {text : List Char} (h : StandsAt source offset text) :
    ∃ before after, source = before ++ after ∧ byteLength before = offset := by
  obtain ⟨before, after, hsource, hoffset⟩ := h
  exact ⟨before, text ++ after, hsource, hoffset⟩

theorem Problem.IsAt.exists_append {p : Problem} (h : p.IsAt today source offset) :
    ∃ before after, source = before ++ after ∧ byteLength before = offset := by
  cases p with
  | unrecognized text | extraneous text | datePart text | number text => exact h.1.exists_append
  | varExists name | varNotFound name | dateExists name | dateNotFound name =>
      exact h.1.exists_append
  | mismatched found expected =>
      cases found with
      | none => exact ⟨source, [], (List.append_nil source).symm, h.symm⟩
      | some text => exact h.1.exists_append
  | pattern e =>
      obtain ⟨d, -, p, -, -, ts, -, -, text, -, hat⟩ := h
      exact hat.exists_append
  | setting e =>
      obtain ⟨p, -, ts, -, -, text, -, hat⟩ := h
      exact hat.exists_append

def Problem.text? : Problem → Option String
  | .unrecognized text | .extraneous text | .datePart text | .number text => some text
  | .mismatched found _ => some (found.getD endText)
  | .varExists name | .varNotFound name | .dateExists name | .dateNotFound name => some name
  | .setting (.duration text) | .setting (.tooLong text) | .setting (.startDate text _) => some text
  | .setting (.unknownWord _ value _) => some value
  | .setting (.wrongKind key _) | .setting (.notPositive key) => some key
  | .pattern _ | .setting (.aborted _) | .setting (.pastCalendar _ _) => none

/-- One text ends with the quotation mark that the other one starts with. -/
def Encloses (front back : String) : Prop :=
  ∃ mark ∈ ['\'', '`', '"'], front.toList.getLast? = some mark ∧ back.toList.head? = some mark

instance (front back : String) : Decidable (Encloses front back) :=
  List.decidableBEx _ _

def Quotes (message text : String) : Prop :=
  ∃ front back, Encloses front back ∧ message = front ++ text ++ back

variable {message text front back : String}

theorem Encloses.prepend (h : Encloses front back) (before : String) :
    Encloses (before ++ front) back := by
  obtain ⟨mark, hmark, hfront, hback⟩ := h
  refine ⟨mark, hmark, ?_, hback⟩
  rw [String.toList_append, List.getLast?_append, hfront, Option.some_or]

theorem Encloses.quotes (h : Encloses front back) (text : String) :
    Quotes (front ++ text ++ back) text :=
  ⟨front, back, h, rfl⟩

theorem Quotes.append (h : Quotes message text) (after : String) :
    Quotes (message ++ after) text := by
  obtain ⟨front, back, ⟨mark, hmark, hfront, hback⟩, rfl⟩ := h
  refine ⟨front, back ++ after, ⟨mark, hmark, hfront, ?_⟩, String.append_assoc ..⟩
  rw [String.toList_append, List.head?_append, hback, Option.some_or]

theorem Settings.Error.quotes_message {e : Error} (h : (Problem.setting e).text? = some text) :
    Quotes e.message text := by
  cases e with
  | duration t | notPositive t =>
      obtain rfl := Option.some.inj h
      exact Encloses.quotes (by decide +kernel) t
  | startDate t reason | wrongKind t reason =>
      obtain rfl := Option.some.inj h
      exact (Encloses.quotes (by decide +kernel) t).append _
  | tooLong t =>
      obtain rfl := Option.some.inj h
      exact ((Encloses.quotes (by decide +kernel) t).append _).append _
  | unknownWord key value known =>
      obtain rfl := Option.some.inj h
      have hmarks : Encloses " \"" "\", expected one of " := by decide +kernel
      exact ((hmarks.prepend ("unknown " ++ key)).quotes value).append _
  | aborted why | pastCalendar start days => cases h

/-- A message quotes the text or the name that its problem carries. -/
theorem Problem.quotes_message {p : Problem} (h : p.text? = some text) :
    Quotes p.message text := by
  cases p with
  | unrecognized t | datePart t | number t | varExists t | varNotFound t | dateExists t
  | dateNotFound t =>
      obtain rfl := Option.some.inj h
      exact Encloses.quotes (by decide +kernel) t
  | mismatched found kinds | extraneous t =>
      obtain rfl := Option.some.inj h
      exact (Encloses.quotes (by decide +kernel) _).append _
  | pattern e => cases h
  | setting e => exact e.quotes_message h

/-- The position of a diagnostic leads to what its problem is about. -/
def Diagnostic.PointsAt (today : Date) (source : List Char) (d : Diagnostic) : Prop :=
  ∃ before after, source = before ++ after ∧ d.position.offset? source = some (byteLength before) ∧
    d.problem.IsAt today source (byteLength before)

theorem Problem.IsAt.standsAt {p : Problem} (h : p.IsAt today source offset)
    (htext : p.text? = some text) (hsetting : ∀ e, p ≠ .setting e)
    (hend : ∀ kinds, p ≠ .mismatched none kinds) : StandsAt source offset text.toList := by
  cases p with
  | unrecognized t | extraneous t | datePart t | number t | varExists t | varNotFound t
  | dateExists t | dateNotFound t =>
      obtain rfl := Option.some.inj htext
      exact h.1
  | mismatched found kinds =>
      cases found with
      | none => exact absurd rfl (hend kinds)
      | some t =>
          obtain rfl := Option.some.inj htext
          exact h.1
  | pattern e => cases htext
  | setting e => exact absurd rfl (hsetting e)

/-- The text that a message quotes is the one that its position leads to, unless the input has ended
there or a setting is wrong. -/
theorem Diagnostic.PointsAt.quotes {d : Diagnostic} (h : d.PointsAt today source)
    (htext : d.problem.text? = some text) (hsetting : ∀ e, d.problem ≠ .setting e)
    (hend : ∀ kinds, d.problem ≠ .mismatched none kinds) :
    Quotes d.message text ∧ ∃ before after, source = before ++ (text.toList ++ after) ∧
      d.position.offset? source = some (byteLength before) := by
  obtain ⟨front, rest, hfront, hoffset, hat⟩ := h
  obtain ⟨before, after, hsource, hlength⟩ := hat.standsAt htext hsetting hend
  exact ⟨Problem.quotes_message htext, before, after, hsource, hlength ▸ hoffset⟩

theorem Diagnostic.pointsAt_ofFault {f : Fault} (h : f.problem.IsAt today source f.span.start) :
    (ofFault source f).PointsAt today source := by
  obtain ⟨before, after, rfl, hstart⟩ := h.exists_append
  refine ⟨before, after, rfl, ?_, ?_⟩
  · rw [ofFault, ← hstart]
    exact Position.offset?_ofOffset before after
  · rw [hstart]
    exact h

theorem Token.exists_of_mem {t : Token} (h : t ∈ ofText source) :
    StandsAt source t.span.start t.text.toList ∧
      ∃ t' ∈ ofText source, t'.text = t.text ∧ t'.span.start = t.span.start :=
  ⟨standsAt_of_mem h, t, h, rfl, rfl⟩

theorem Blame.isAt_fault {b : Blame} (h : b.IsOn (Token.ofText source)) :
    (b.fault (byteLength source)).problem.IsAt today source
      (b.fault (byteLength source)).span.start := by
  obtain ⟨token, cause⟩ := b
  rcases h with ⟨t, ht, rfl⟩ | ⟨rfl, kinds, rfl⟩
  · cases cause <;> exact Token.exists_of_mem ht
  · rfl

theorem Script.isAt_of_mem_faults {f : Fault} (h : f ∈ (ofText source).faults) :
    f.problem.IsAt today source f.span.start := by
  rcases List.mem_append.mp h with h | h
  · obtain ⟨⟨span, text⟩, hpart, rfl⟩ := List.mem_map.mp h
    exact ⟨Token.standsAt_of_mem_brokenParts hpart, span, hpart, rfl⟩
  · obtain ⟨b, hb, rfl⟩ := List.mem_map.mp h
    exact Blame.isAt_fault (isOn_of_mem_ofTokens hb)

theorem Script.spelled_of_faults_eq_nil (h : (ofText source).faults = []) :
    Token.brokenParts source = [] ∧ Spelled (Token.ofText source) (ofText source).value := by
  obtain ⟨hbroken, hblames⟩ := List.append_eq_nil_iff.mp h
  obtain ⟨s, hs⟩ := exists_spelled_of_no_fault (List.map_eq_nil_iff.mp hblames)
  have hread := hs.ofTokens_eq fun t ht => Token.isLexeme_of_mem_ofText ht
  refine ⟨List.map_eq_nil_iff.mp hbroken, ?_⟩
  rwa [ofText, hread]

theorem Script.Spelled.exists_value {ts : List Token} {s : Script} (h : s.Spelled ts)
    {p : Property} {e : Settings.Error} (hp : s.Blames today p e) :
    ∃ v, v <:+: ts ∧ p.value.Spelled v := by
  have hoptions : p ∈ s.options.getD [] → ∃ v, v <:+: ts ∧ p.value.Spelled v := by
    intro hp
    cases hs : s.options with
    | none =>
        rw [hs] at hp
        cases hp
    | some ps =>
        rw [hs] at hp
        obtain ⟨v, hv, hps⟩ := h.exists_options hs
        obtain ⟨u, hu, hvalue⟩ := hps.exists_value hp
        exact ⟨u, hu.trans hv, hvalue⟩
  cases hp with
  | option hp _ | start hp _ _ | days hp _ _ => exact hoptions hp
  | var hd hp _ =>
      obtain ⟨v, hv, hspelled⟩ := h.exists_declaration hd
      obtain ⟨u, hu, hvalue⟩ := hspelled.exists_value hp
      exact ⟨u, hu.trans hv, hvalue⟩

theorem Script.Spelled.name_standsAt {s : Script} (h : s.Spelled (Token.ofText source))
    {d : Declaration} (hd : d ∈ s.declarations) {name : String} {span : Span}
    (hx : ⟨name, span⟩ ∈ d.idents) : StandsAt source span.start name.toList ∧
      ∃ t ∈ Token.ofText source, t.kind = .name ∧ t.text = name ∧ t.span.start = span.start := by
  have hnames := h.idents_sublist.subset (List.mem_flatMap.mpr ⟨d, hd, hx⟩)
  obtain ⟨t, ht, hkind, hident⟩ := mem_namesAmong_iff.mp hnames
  obtain ⟨rfl, rfl⟩ := Ident.mk.inj hident
  exact ⟨Token.standsAt_of_mem ht, t, ht, hkind, rfl, rfl⟩

theorem PartLiteral.Spelled.standAt {ts : List Token} {p : PartLiteral}
    (hbroken : Token.brokenParts source = []) (hts : ts <:+: Token.ofText source)
    (h : p.Spelled ts) : TokensStandAt source p.span.start ts := by
  obtain ⟨t, us, rfl, hstart⟩ := h.exists_cons
  rw [hstart]
  exact ⟨hts, Token.exists_lays_of_infix hbroken hts⟩

theorem PropertyValue.Spelled.standAt {ts : List Token} {v : PropertyValue}
    (hbroken : Token.brokenParts source = []) (hts : ts <:+: Token.ofText source)
    (h : v.Spelled ts) : TokensStandAt source v.span.start ts := by
  obtain ⟨t, us, rfl, hstart⟩ := h.exists_cons
  rw [hstart]
  exact ⟨hts, Token.exists_lays_of_infix hbroken hts⟩

theorem PatternLiteral.blamedPart_mem (p : PatternLiteral) (e : DatePattern.Error) :
    p.blamedPart e ∈ [p.year, p.month, p.day] := by
  cases e <;> simp [blamedPart]

theorem Plan.isAt_of_mem_faults (hscript : (Script.ofText source).faults = []) {f : Fault}
    (h : f ∈ (ofScript today (Script.ofText source).value).faults) :
    f.problem.IsAt today source f.span.start := by
  obtain ⟨hbroken, hspelled⟩ := Script.spelled_of_faults_eq_nil hscript
  have habout := isAbout_of_mem_ofScript h
  obtain ⟨span, problem⟩ := f
  cases problem with
  | varExists name | varNotFound name | dateExists name | dateNotFound name =>
      obtain ⟨d, hd, hx⟩ := habout
      exact hspelled.name_standsAt hd hx
  | unrecognized text | mismatched found expected | extraneous found | datePart text | number text =>
      exact habout.elim
  | pattern e =>
      obtain ⟨d, hd, p, hp, herror, rfl⟩ := habout
      obtain ⟨v, hv, hdeclared⟩ := hspelled.exists_declaration hd
      obtain ⟨w, hw, hpattern⟩ := hdeclared.exists_pattern hp
      obtain ⟨u, hu, hpart⟩ := hpattern.exists_part (p.blamedPart_mem e)
      exact ⟨d, hd, p, hp, herror, u, hpart, hpart.standAt hbroken (hu.trans (hw.trans hv))⟩
  | setting e =>
      obtain ⟨p, hp, rfl⟩ := habout
      obtain ⟨u, hu, hvalue⟩ := hspelled.exists_value hp
      exact ⟨p, hp, u, hvalue, hvalue.standAt hbroken hu⟩

namespace Plan

/-- Every diagnostic points at what it is about, except for the one on a span of days that is not
admissible in the end, which stands alone at the start of the text. -/
theorem ofText_pointsAt {r : Request} {ds : List Diagnostic} (h : ofText r source = .error ds) :
    (∃ e, ds = [⟨.first, .setting e⟩] ∧ (Script.ofText source).faults = [] ∧
      (ofScript r.today (Script.ofText source).value).faults = [] ∧
        ((ofScript r.today (Script.ofText source).value).value.override r).checkSpan = .error e) ∨
      ∀ d ∈ ds, d.PointsAt r.today source := by
  cases ofText_eq_iff.mp h with
  | misread hscript =>
      refine .inr fun d hd => ?_
      obtain ⟨f, hf, rfl⟩ := List.mem_map.mp hd
      exact Diagnostic.pointsAt_ofFault (Script.isAt_of_mem_faults hf)
  | faulty hscript hnone hplan =>
      refine .inr fun d hd => ?_
      obtain ⟨f, hf, rfl⟩ := List.mem_map.mp hd
      exact Diagnostic.pointsAt_ofFault (isAt_of_mem_faults hscript hf)
  | @outOfSpan e hscript hplan hcheck => exact .inl ⟨e, rfl, hscript, hplan, hcheck⟩

def signed : List Char := "at *-*-- // é\n40, b = 1".toList

theorem ofText_pointsAt_signed :
    ∃ ds, ds = [⟨⟨1, 8⟩, .pattern (.dayOutOfRange (-40))⟩, ⟨⟨2, 5⟩, .varNotFound "b"⟩] ∧
      ofText ⟨leapDay, none, none⟩ signed = .error ds ∧ ∀ d ∈ ds, d.PointsAt leapDay signed := by
  have hscript : (Script.ofText signed).faults = [] := by decide +kernel
  have hnone : (Script.ofText signed).value.abort? leapDay = none := by decide +kernel
  have hplan : (ofScript leapDay (Script.ofText signed).value).faults ≠ [] := by decide +kernel
  have herror : ofText ⟨leapDay, none, none⟩ signed = .error
      ((ofScript leapDay (Script.ofText signed).value).faults.map (.ofFault signed)) :=
    ofText_eq_iff.mpr (.faulty hscript hnone hplan)
  refine ⟨_, by decide +kernel, herror, ?_⟩
  rcases ofText_pointsAt herror with ⟨e, -, -, hnil, -⟩ | hpoints
  · exact absurd hnil hplan
  · exact hpoints

end Plan

end Forecast
