import Forecast.Proofs.Plan.Outcome
import Forecast.Proofs.Source.Boundary
import Forecast.Proofs.Token.Longest
import Forecast.Proofs.Token.Places

namespace Forecast

inductive Part where
  | token (t : Token)
  | broken (span : Span) (text : String)

namespace Part

def span : Part → Span
  | token t => t.span
  | broken span _ => span

def text : Part → List Char
  | token t => t.text.toList
  | broken _ text => text.toList

def token? : Part → Option Token
  | token t => some t
  | broken _ _ => none

def broken? : Part → Option (Span × String)
  | token _ => none
  | broken span text => some (span, text)

def ofPiece? : Span × Piece → Option Part
  | (_, ⟨.gap, _⟩) => none
  | (span, ⟨.token kind, text⟩) => some (token ⟨kind, String.ofList text, span⟩)
  | (span, ⟨.broken, text⟩) => some (broken span (String.ofList text))

def ofText (source : List Char) : List Part :=
  (Piece.place 0 (Piece.split source)).filterMap ofPiece?

def IsNext (rest : List Char) : Part → Prop
  | token t => Piece.IsLongest t.kind t.text.toList rest
  | broken _ text => Piece.IsDropped text.toList rest

/-- The range of the part is not empty, it is between two boundaries of the source, and the text of
the part is what the source has there. -/
structure IsSlice (source : List Char) (x : Part) : Prop where
  nonempty : x.span.start < x.span.stop
  start : IsBoundary source x.span.start
  stop : IsBoundary source x.span.stop
  slice : slice? source x.span.start x.span.stop = some x.text

end Part

/-- Blanks and comments at the end of a source, where the last comment need not end its line. -/
def IsLastGap (gap : List Char) : Prop :=
  IsGap gap ∨ ∃ before line, IsGap before ∧ '\n' ∉ line ∧ gap = before ++ '/' :: '/' :: line

/-- The rest of a source from an offset on is made of these parts, with gaps before, between and
after them. -/
inductive Tiles : Nat → List Char → List Part → Prop
  | last {offset : Nat} {gap : List Char} (hgap : IsLastGap gap) : Tiles offset gap []
  | cons {offset : Nat} {gap rest : List Char} {xs : List Part} (x : Part) (hgap : IsGap gap)
      (hnext : x.IsNext (x.text ++ rest)) (hstart : x.span.start = offset + byteLength gap)
      (hstop : x.span.stop = x.span.start + byteLength x.text) (h : Tiles x.span.stop rest xs) :
      Tiles offset (gap ++ (x.text ++ rest)) (x :: xs)

namespace Part

theorem filterMap_token?_ofText (source : List Char) :
    (ofText source).filterMap token? = Token.ofText source := by
  rw [ofText, List.filterMap_filterMap]
  congr 1
  funext ⟨span, role, text⟩
  cases role <;> rfl

theorem filterMap_broken?_ofText (source : List Char) :
    (ofText source).filterMap broken? = Token.brokenParts source := by
  rw [ofText, List.filterMap_filterMap]
  congr 1
  funext ⟨span, role, text⟩
  cases role <;> rfl

variable {x : Part} {rest : List Char}

theorem IsNext.ne_nil (h : x.IsNext rest) : x.text ≠ [] := by
  cases x with
  | token t => exact Piece.ne_nil_of_matches h.fits
  | broken span text =>
      rcases h.extent with ⟨c, -, htext⟩ | ⟨body, -, htext, -⟩
      · rw [Part.text, htext]
        exact List.cons_ne_nil _ _
      · rw [Part.text, htext]
        exact List.cons_ne_nil _ _

theorem IsNext.unskipped (h : x.IsNext rest) {gap : List Char} (hskips : Piece.Skips gap) :
    ¬ gap <+: rest := by
  cases x with
  | token t => exact Piece.IsLongest.unskipped h gap hskips
  | broken span text => exact Piece.IsDropped.unskipped h gap hskips

theorem IsNext.head?_ne_newline (h : x.IsNext (x.text ++ rest)) :
    (x.text ++ rest).head? ≠ some '\n' := by
  intro hhead
  obtain ⟨after, hafter⟩ := List.head?_eq_some_iff.mp hhead
  refine h.unskipped (Piece.Skips.blanks (List.cons_ne_nil '\n' []) ?_) ⟨after, hafter.symm⟩
  exact List.forall_mem_singleton.mpr (.inr (.inr (.inr (.inl rfl))))

end Part

namespace Piece

variable {c : Char} {rest : List Char} {role : Role} {more offset : Nat} {xs : List Part}

theorem isLastGap_of_classify (h : classify c rest = (.gap, more)) (hnil : rest.drop more = []) :
    IsLastGap (c :: rest.take more) := by
  have hrest : rest.take more = rest := by
    have := List.take_append_drop more rest
    rwa [hnil, List.append_nil] at this
  rw [hrest]
  rcases gap_cases h with ⟨hblank, rfl⟩ | ⟨rfl, hslash, rfl⟩
  · obtain rfl : rest = [] := hnil
    exact .inl (.blank hblank .nil)
  · obtain ⟨line, rfl⟩ := List.head?_eq_some_iff.mp hslash
    refine .inr ⟨[], line, .nil, fun hmem => ?_, rfl⟩
    rw [take_length_takeWhile] at hrest
    simpa using List.takeWhile_eq_self_iff.mp hrest '\n' (List.mem_cons_of_mem _ hmem)

theorem tiles_of_gap (h : classify c rest = (.gap, more))
    (htiles : Tiles (offset + byteLength (c :: rest.take more)) (rest.drop more) xs) :
    Tiles offset (c :: rest) xs := by
  by_cases hnil : rest.drop more = []
  · have hpiece := cons_take_append_drop c rest more
    rw [hnil, List.append_nil] at hpiece
    rw [hnil] at htiles
    generalize hempty : ([] : List Char) = text at htiles
    cases htiles with
    | last hgap =>
        rw [hpiece]
        exact .last (isLastGap_of_classify h hnil)
    | cons x hgap hnext hstart hstop htiles =>
        have htext := (List.append_eq_nil_iff.mp hempty.symm).2
        exact absurd (List.append_eq_nil_iff.mp htext).1 hnext.ne_nil
  · rw [cons_take_append_drop c rest more]
    generalize hafter : rest.drop more = after at htiles hnil
    have hahead : ∀ {gap}, IsGap gap → (after.head? = some '\n' → gap.head? = some '\n') →
        IsGap (c :: rest.take more ++ gap) := by
      intro gap hgap hhead
      exact isGap_append h hgap (hafter ▸ hnil) (hafter ▸ hhead)
    cases htiles with
    | last hgap =>
        rcases hgap with hgap | ⟨gap, line, hgap, hline, rfl⟩
        · exact .last (.inl (hahead hgap id))
        · rw [← List.append_assoc]
          refine .last (.inr ⟨_, line, hahead hgap fun hhead => ?_, hline, rfl⟩)
          cases gap with
          | nil => cases hhead
          | cons d gap => exact hhead
    | @cons _ gap rest' xs x hgap hnext hstart hstop htiles =>
        rw [← List.append_assoc]
        refine .cons x (hahead hgap fun hhead => ?_) hnext ?_ hstop htiles
        · cases gap with
          | nil => exact absurd hhead hnext.head?_ne_newline
          | cons d gap => exact hhead
        · rw [byteLength_append, hstart, Nat.add_assoc]

theorem tiles_of_next {x : Part} {text : List Char} (htext : x.text = text)
    (hnext : x.IsNext (text ++ rest)) (hspan : x.span = ⟨offset, offset + byteLength text⟩)
    (htiles : Tiles (offset + byteLength text) rest xs) :
    Tiles offset (text ++ rest) (x :: xs) := by
  subst htext
  refine .cons x .nil hnext ?_ ?_ ?_
  · rw [hspan]
    rfl
  · rw [hspan]
  · rwa [hspan]

theorem tiles_split (offset : Nat) (text : List Char) :
    Tiles offset text ((place offset (split text)).filterMap Part.ofPiece?) := by
  induction text using split.induct generalizing offset with
  | case1 =>
      rw [split, place]
      exact .last (.inl .nil)
  | case2 c rest role more hclass ih =>
      rw [split_cons hclass, place]
      cases role with
      | gap => exact tiles_of_gap hclass (ih _)
      | token kind =>
          have hnext := isLongest_of_classify hclass
          rw [cons_take_append_drop c rest more]
          refine tiles_of_next String.toList_ofList ?_ rfl (ih _)
          rw [← cons_take_append_drop, Part.IsNext, String.toList_ofList]
          exact hnext
      | broken =>
          have hnext := isDropped_of_classify hclass
          rw [cons_take_append_drop c rest more]
          refine tiles_of_next String.toList_ofList ?_ rfl (ih _)
          rw [← cons_take_append_drop, Part.IsNext, String.toList_ofList]
          exact hnext

end Piece

theorem byteLength_pos {text : List Char} (h : text ≠ []) : 0 < byteLength text := by
  obtain ⟨c, rest, rfl⟩ := List.exists_cons_of_ne_nil h
  exact Nat.add_pos_left c.utf8Size_pos _

namespace Tiles

variable {source text : List Char} {offset : Nat} {xs : List Part} {x : Part}

theorem exists_of_mem (h : Tiles offset text xs) (hx : x ∈ xs) :
    ∃ before after, text = before ++ (x.text ++ after) ∧ x.text ≠ [] ∧
      x.span.start = offset + byteLength before ∧
        x.span.stop = x.span.start + byteLength x.text := by
  induction h with
  | last hgap => cases hx
  | @cons offset gap rest xs y hgap hnext hstart hstop h ih =>
      rcases List.mem_cons.mp hx with rfl | hx
      · exact ⟨gap, rest, rfl, hnext.ne_nil, hstart, hstop⟩
      · obtain ⟨before, after, rfl, hne, hbefore, hlength⟩ := ih hx
        refine ⟨gap ++ (y.text ++ before), after, ?_, hne, ?_, hlength⟩
        · rw [List.append_assoc, List.append_assoc]
        · rw [hbefore, hstop, hstart, byteLength_append, byteLength_append, Nat.add_assoc,
            Nat.add_assoc]

theorem pairwise (h : Tiles offset text xs) :
    xs.Pairwise fun x y => x.span.stop ≤ y.span.start := by
  induction h with
  | last hgap => exact .nil
  | cons x hgap hnext hstart hstop h ih =>
      refine .cons (fun y hy => ?_) ih
      obtain ⟨before, -, -, -, hbefore, -⟩ := h.exists_of_mem hy
      exact hbefore ▸ Nat.le_add_right _ _

theorem isSlice (h : Tiles 0 source xs) (hx : x ∈ xs) : x.IsSlice source := by
  obtain ⟨before, after, rfl, hne, hstart, hstop⟩ := h.exists_of_mem hx
  rw [Nat.zero_add] at hstart
  have hpos := byteLength_pos hne
  constructor
  case nonempty => omega
  case start => exact ⟨before, x.text ++ after, rfl, hstart.symm⟩
  case stop =>
      refine ⟨before ++ x.text, after, (List.append_assoc _ _ _).symm, ?_⟩
      rw [byteLength_append, hstop, hstart]
  case slice =>
      rw [hstop, hstart]
      exact slice?_append before x.text after

end Tiles

namespace Token

def errors (source : List Char) : List Diagnostic :=
  (brokenParts source).map fun (span, text) =>
    ⟨Position.ofOffset source span.start, .unrecognized text⟩

theorem pairwise_errors (source : List Char) :
    (errors source).Pairwise fun d d' => d.position.Before d'.position := by
  have htiles : Tiles 0 source (Part.ofText source) := Piece.tiles_split 0 source
  rw [errors, List.pairwise_map, ← Part.filterMap_broken?_ofText, List.pairwise_filterMap]
  refine htiles.pairwise.imp_of_mem fun {x y} hx hy hstop b hb b' hb' => ?_
  cases x with
  | token t => cases hb
  | broken span text =>
      cases y with
      | token t => cases hb'
      | broken span' text' =>
          obtain rfl := Option.some.inj hb
          obtain rfl := Option.some.inj hb'
          have hslice := htiles.isSlice hx
          exact Position.before_ofOffset hslice.start (htiles.isSlice hy).start
            (Nat.lt_of_lt_of_le hslice.nonempty hstop)

end Token

theorem Blame.fault_ne_unrecognized (size : Nat) (b : Blame) (text : String) :
    (b.fault size).problem ≠ .unrecognized text := by
  obtain ⟨token | token, cause⟩ := b <;> cases cause <;> exact nofun

theorem Script.map_faults_ofText (source : List Char) :
    ∃ later, (ofText source).faults.map (Diagnostic.ofFault source) =
      Token.errors source ++ later ∧ ∀ d ∈ later, ∀ text, d.problem ≠ .unrecognized text := by
  refine ⟨((ofTokens (Token.ofText source)).2.map (Blame.fault (byteLength source))).map
    (Diagnostic.ofFault source), ?_, ?_⟩
  · rw [ofText, List.map_append, List.map_map]
    rfl
  · intro d hd text
    obtain ⟨f, hf, rfl⟩ := List.mem_map.mp hd
    obtain ⟨b, -, rfl⟩ := List.mem_map.mp hf
    exact b.fault_ne_unrecognized _ text

theorem Plan.ne_unrecognized_of_mem_faults {today : Date} {s : Script} {f : Fault}
    (h : f ∈ (ofScript today s).faults) (text : String) : f.problem ≠ .unrecognized text := by
  have habout := isAbout_of_mem_ofScript h
  obtain ⟨span, problem⟩ := f
  rintro rfl
  exact habout

theorem Plan.ofText_errors (r : Request) (source : List Char) :
    ((∃ p, ofText r source = .ok p) ∨ ∃ why, ofText r source = .aborted why) ∧
        Token.errors source = [] ∨
      ∃ later, ofText r source = .error (Token.errors source ++ later) ∧
        ∀ d ∈ later, ∀ text, d.problem ≠ .unrecognized text := by
  obtain ⟨later, hlater, hplain⟩ := Script.map_faults_ofText source
  have hnone : (Script.ofText source).faults = [] → Token.errors source = [] := by
    intro hscript
    rw [hscript, List.map_nil] at hlater
    exact (List.append_eq_nil_iff.mp hlater.symm).1
  generalize hresult : ofText r source = x
  cases ofText_eq_iff.mp hresult with
  | misread h => exact .inr ⟨later, congrArg _ hlater, hplain⟩
  | aborted h hwhy => exact .inl ⟨.inr ⟨_, rfl⟩, hnone h⟩
  | faulty h hnil hplan =>
      rw [hnone h]
      refine .inr ⟨_, rfl, fun d hd text => ?_⟩
      obtain ⟨f, hf, rfl⟩ := List.mem_map.mp hd
      exact ne_unrecognized_of_mem_faults hf text
  | outOfSpan h hplan hspan =>
      rw [hnone h]
      exact .inr ⟨_, rfl, List.forall_mem_singleton.mpr fun text => nofun⟩
  | ok h hplan hspan => exact .inl ⟨.inl ⟨_, rfl⟩, hnone h⟩

/-- Nothing of a source is lost, repeated or cut through. Its tokens and its broken parts, in the
order of the source, tile it, each being the longest text that the rules find at its place; they
are slices of the source that follow one another; and the errors at the broken parts are reported
in increasing position before all others. -/
theorem Token.tiles_source (source : List Char) :
    ∃ parts : List Part, parts.filterMap Part.token? = ofText source ∧
      parts.filterMap Part.broken? = brokenParts source ∧ Tiles 0 source parts ∧
      (∀ x ∈ parts, x.IsSlice source) ∧
      parts.Pairwise (fun x y => x.span.stop ≤ y.span.start) ∧
      (errors source).Pairwise (fun d d' => d.position.Before d'.position) ∧
      ∀ r, ((∃ p, Plan.ofText r source = .ok p) ∨ ∃ why, Plan.ofText r source = .aborted why) ∧
          errors source = [] ∨
        ∃ later, Plan.ofText r source = .error (errors source ++ later) ∧
          ∀ d ∈ later, ∀ text, d.problem ≠ .unrecognized text := by
  have htiles : Tiles 0 source (Part.ofText source) := Piece.tiles_split 0 source
  exact ⟨Part.ofText source, Part.filterMap_token?_ofText source,
    Part.filterMap_broken?_ofText source, htiles, fun _ hx => htiles.isSlice hx, htiles.pairwise,
    pairwise_errors source, fun r => Plan.ofText_errors r source⟩

/-- A string that is not closed is broken as a whole, and its escaped quote does not close it. -/
example : (Part.ofText "date1/=.8//\n\"c\\\"d".toList).map
      (fun x => (String.ofList x.text, x.span.start)) =
    [("date1", 0), ("/=", 5), (".8", 7), ("\"c\\\"d", 12)] := by decide +kernel

end Forecast
