import Forecast.Proofs.Plan.Outcome
import Forecast.Proofs.Plan.Refinement
import Forecast.Proofs.Plan.Unplaced
import Forecast.Proofs.Token.Respaced

namespace Forecast

theorem Token.unplaced_eq (t : Token) :
    t.unplaced = ⟨t.word.kind, String.ofList t.word.text, ⟨0, 0⟩⟩ := by
  rw [unplaced, word, String.ofList_toList]

theorem Token.map_unplaced_congr {ts us : List Token} (h : ts.map word = us.map word) :
    ts.map unplaced = us.map unplaced := by
  have hmap : ∀ ts : List Token, ts.map unplaced =
      (ts.map word).map fun w => ⟨w.kind, String.ofList w.text, ⟨0, 0⟩⟩ := by
    intro ts
    rw [List.map_map]
    exact List.map_congr_left fun t _ => t.unplaced_eq
  rw [hmap, hmap, h]

theorem Blame.fault_unplaced (size : Nat) (b : Blame) :
    (b.fault size).unplaced = (b.unplaced.fault 0).unplaced := by
  obtain ⟨token, cause⟩ := b
  cases token <;> cases cause <;> rfl

variable {source source' : List Char}

theorem Script.ofText_congr (hs : Token.brokenParts source = [])
    (hs' : Token.brokenParts source' = [])
    (h : (Token.ofText source').map Token.word = (Token.ofText source).map Token.word) :
    (ofText source').value.unplaced = (ofText source).value.unplaced ∧
      (ofText source').faults.map Fault.unplaced = (ofText source).faults.map Fault.unplaced := by
  have htokens := congrArg ofTokens (Token.map_unplaced_congr h)
  rw [ofTokens_unplaced, ofTokens_unplaced] at htokens
  obtain ⟨hscript, hblames⟩ := Prod.mk.inj htokens
  have hfaults : ∀ size (blames : List Blame), (blames.map (Blame.fault size)).map Fault.unplaced =
      (blames.map Blame.unplaced).map fun b => (b.fault 0).unplaced := by
    intro size blames
    rw [List.map_map, List.map_map]
    exact List.map_congr_left fun b _ => b.fault_unplaced size
  refine ⟨hscript, ?_⟩
  rw [ofText, ofText, hs, hs']
  exact (hfaults _ _).trans ((congrArg _ hblames).trans (hfaults _ _).symm)

theorem Diagnostic.map_message_ofFault (source : List Char) (fs : List Fault) :
    (fs.map (ofFault source)).map message = (fs.map Fault.unplaced).map (·.problem.message) := by
  rw [List.map_map, List.map_map]
  rfl

theorem Fault.abort?_unplaced (fs : List Fault) :
    (fs.map unplaced).findSome? (·.problem.abort?) = fs.findSome? (·.problem.abort?) := by
  rw [List.findSome?_map]
  rfl

theorem Plan.ofText_congr (r : Request)
    (h : (Script.ofText source').value.unplaced = (Script.ofText source).value.unplaced)
    (hfaults : (Script.ofText source').faults.map Fault.unplaced =
      (Script.ofText source).faults.map Fault.unplaced) :
    (ofText r source').mapError (List.map Diagnostic.message) =
      (ofText r source).mapError (List.map Diagnostic.message) := by
  have hplan : (ofScript r.today (Script.ofText source').value).unplaced =
      (ofScript r.today (Script.ofText source).value).unplaced := by
    rw [← ofScript_unplaced, ← ofScript_unplaced, h]
  obtain ⟨hvalue, hplanFaults⟩ := Checked.mk.inj hplan
  have hnil : ∀ {fs fs' : List Fault}, fs'.map Fault.unplaced = fs.map Fault.unplaced →
      (fs' = [] ↔ fs = []) := by
    intro fs fs' h
    rw [← List.map_eq_nil_iff, h, List.map_eq_nil_iff]
  have habort : (Script.ofText source').value.abort? r.today =
      (Script.ofText source).value.abort? r.today := by
    rw [← findSome?_ofScript, ← findSome?_ofScript, ← Fault.abort?_unplaced, hplanFaults,
      Fault.abort?_unplaced]
  generalize hresult : ofText r source = x
  cases ofText_eq_iff.mp hresult with
  | misread h =>
      rw [ofText_eq_iff.mpr (.misread (mt (hnil hfaults).mp h)), Result.mapError, Result.mapError,
        Diagnostic.map_message_ofFault, Diagnostic.map_message_ofFault, hfaults]
  | aborted h hwhy =>
      rw [ofText_eq_iff.mpr (.aborted ((hnil hfaults).mpr h) (habort.trans hwhy))]
  | faulty h hnone hplan =>
      rw [ofText_eq_iff.mpr (.faulty ((hnil hfaults).mpr h) (habort.trans hnone)
        (mt (hnil hplanFaults).mp hplan)), Result.mapError, Result.mapError,
        Diagnostic.map_message_ofFault, Diagnostic.map_message_ofFault, hplanFaults]
  | outOfSpan h hplan hspan =>
      rw [← hvalue] at hspan
      rw [ofText_eq_iff.mpr (.outOfSpan ((hnil hfaults).mpr h) ((hnil hplanFaults).mpr hplan) hspan)]
  | ok h hplan hspan =>
      rw [← hvalue] at hspan ⊢
      rw [ofText_eq_iff.mpr (.ok ((hnil hfaults).mpr h) ((hnil hplanFaults).mpr hplan) hspan)]

namespace Plan

/-- A text without broken parts is its tokens with its own gaps around them. Any of these gaps, also
the ones before the first token and after the last one, may be replaced by blanks and comments that
begin with a blank. -/
theorem ofText_respace (r : Request) (h : Token.brokenParts source = []) :
    Token.respace (Token.gap source) source = source ∧
      ∀ gap : Nat → List Char,
        (∀ k ≤ (Token.ofText source).length,
          gap k = Token.gap source k ∨ Piece.IsSpacing (gap k)) →
        (ofText r (Token.respace gap source)).mapError (List.map Diagnostic.message) =
          (ofText r source).mapError (List.map Diagnostic.message) := by
  refine ⟨Token.respace_gap h, fun gap hgap => ?_⟩
  obtain ⟨hwords, hbroken⟩ := (Token.cuts_respace h hgap).ofText
  obtain ⟨hscript, hfaults⟩ := Script.ofText_congr h hbroken hwords
  exact ofText_congr r hscript hfaults

def tight : List Char := "var a=1//x\nat*-*--1,a*=2".toList

def tabAndComment : List Char := "\t//é\n".toList

def loosened (k : Nat) : List Char := if k % 3 = 0 then tabAndComment else Token.gap tight k

theorem isSpacing_tabAndComment : Piece.IsSpacing tabAndComment := by
  refine ⟨.blank (by decide) ?_, by decide⟩
  exact @IsGap.comment ['é'] [] (by decide) (.blank (by decide) .nil)

theorem ofText_respace_tight :
    Token.brokenParts tight = [] ∧ (ofText ⟨leapDay, none, none⟩ tight).toOption.isSome = true ∧
      (∀ k ≤ (Token.ofText tight).length,
        loosened k = Token.gap tight k ∨ Piece.IsSpacing (loosened k)) ∧
      Token.respace loosened tight =
        "\t//é\nvar a=\t//é\n1//x\nat*\t//é\n-*-\t//é\n-1,\t//é\na*=2\t//é\n".toList ∧
      (ofText ⟨leapDay, none, none⟩ (Token.respace loosened tight)).mapError
          (List.map Diagnostic.message) =
        (ofText ⟨leapDay, none, none⟩ tight).mapError (List.map Diagnostic.message) := by
  have hbroken : Token.brokenParts tight = [] := by decide +kernel
  have hgap : ∀ k ≤ (Token.ofText tight).length,
      loosened k = Token.gap tight k ∨ Piece.IsSpacing (loosened k) := by
    intro k _
    by_cases hk : k % 3 = 0
    · rw [loosened, if_pos hk]
      exact .inr isSpacing_tabAndComment
    · exact .inl (if_neg hk)
  have hrespace := (ofText_respace ⟨leapDay, none, none⟩ hbroken).2 loosened hgap
  exact ⟨hbroken, by decide +kernel, hgap, by decide +kernel, hrespace⟩

end Plan

end Forecast
