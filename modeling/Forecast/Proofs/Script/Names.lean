import Forecast.Plan.OfScript

namespace Forecast

open Checked

def NumberExpr.names : NumberExpr → List Ident
  | .literal _ _ => []
  | .reference x => [x]
  | .negate e => e.names
  | .binary _ lhs rhs => lhs.names ++ rhs.names

def Comparison.names (c : Comparison) : List Ident := c.lhs.names ++ c.rhs.names

def Conjunction.names : Conjunction → List Ident
  | .one c => c.names
  | .and earlier c => earlier.names ++ c.names

def Condition.names : Condition → List Ident
  | .one c => c.names
  | .or earlier c => earlier.names ++ c.names

mutual

def Action.names : Action → List Ident
  | .assign x _ e => x :: e.names
  | .choose test yes no => test.names ++ (yes.names ++ no.names)
  | .block body => body.names

def Otherwise.names : Otherwise → List Ident
  | .nothing => []
  | .block body => body.names
  | .chain test yes no => test.names ++ (yes.names ++ no.names)

def Block.names : Block → List Ident
  | .nil => []
  | .cons first rest => first.names ++ rest.names

end

def varName? : Declaration → Option String
  | .var x _ _ => some x.name
  | _ => none

def dateName? : Declaration → Option String
  | .date x _ => some x.name
  | _ => none

def varNames (ds : List Declaration) : List String := ds.filterMap varName?

def dateNames (ds : List Declaration) : List String := ds.filterMap dateName?

def unknownNames (known : List String) (names : List Ident) : List Fault :=
  (names.filter (·.name ∉ known)).map fun x => ⟨x.span, .varNotFound x.name⟩

variable (known : List String)

theorem unknownNames_append (xs ys : List Ident) :
    unknownNames known (xs ++ ys) = unknownNames known xs ++ unknownNames known ys := by
  rw [unknownNames, List.filter_append, List.map_append, unknownNames, unknownNames]

theorem unknownNames_eq_nil_iff (xs : List Ident) :
    unknownNames known xs = [] ↔ ∀ x ∈ xs, x.name ∈ known := by
  simp [unknownNames]

theorem mem_unknownNames_iff {xs : List Ident} {f : Fault} :
    f ∈ unknownNames known xs ↔ ∃ x ∈ xs, x.name ∉ known ∧ f = ⟨x.span, .varNotFound x.name⟩ := by
  constructor
  · intro hf
    obtain ⟨x, hx, rfl⟩ := List.mem_map.mp hf
    obtain ⟨hx, hname⟩ := List.mem_filter.mp hx
    exact ⟨x, hx, of_decide_eq_true hname, rfl⟩
  · rintro ⟨x, hx, hname, rfl⟩
    exact List.mem_map.mpr ⟨x, List.mem_filter.mpr ⟨hx, decide_eq_true hname⟩, rfl⟩

theorem spans_unknownNames (xs : List Ident) :
    List.Sublist ((unknownNames known xs).map Fault.span) (xs.map Ident.span) := by
  rw [unknownNames, List.map_map]
  exact List.filter_sublist.map Ident.span

theorem faults_resolve_ident (x : Ident) : (x.resolve known).faults = unknownNames known [x] := by
  rw [Ident.resolve]
  split
  · rename_i slot h
    have hx : x.name ∈ known := by
      by_cases hx : x.name ∈ known
      · exact hx
      · rw [List.idxOf?_eq_none_iff.mpr hx] at h
        cases h
    simp [unknownNames, hx]
  · rename_i h
    simp [unknownNames, List.idxOf?_eq_none_iff.mp h]

theorem faults_resolve_number (e : NumberExpr) :
    (e.resolve known).faults = unknownNames known e.names := by
  induction e with
  | literal value span => rfl
  | reference x =>
      simp only [NumberExpr.resolve, faults_bind, faults_pure, List.append_nil, NumberExpr.names,
        faults_resolve_ident]
  | negate e ih =>
      simp only [NumberExpr.resolve, faults_bind, faults_pure, List.append_nil, NumberExpr.names, ih]
  | binary op lhs rhs ihl ihr =>
      simp only [NumberExpr.resolve, faults_bind, faults_pure, List.append_nil, NumberExpr.names,
        ihl, ihr, unknownNames_append]

theorem faults_resolve_comparison (c : Comparison) :
    (c.resolve known).faults = unknownNames known c.names := by
  simp only [Comparison.resolve, faults_bind, faults_pure, List.append_nil, Comparison.names,
    faults_resolve_number, unknownNames_append]

theorem faults_resolve_conjunction (c : Conjunction) :
    (c.resolve known).faults = unknownNames known c.names := by
  induction c with
  | one c => exact faults_resolve_comparison known c
  | and earlier c ih =>
      simp only [Conjunction.resolve, faults_bind, faults_pure, List.append_nil, Conjunction.names,
        ih, faults_resolve_comparison, unknownNames_append]

theorem faults_resolve_condition (c : Condition) :
    (c.resolve known).faults = unknownNames known c.names := by
  induction c with
  | one c => exact faults_resolve_conjunction known c
  | or earlier c ih =>
      simp only [Condition.resolve, faults_bind, faults_pure, List.append_nil, Condition.names,
        ih, faults_resolve_conjunction, unknownNames_append]

mutual

theorem faults_resolve_action : ∀ a : Action,
    (a.resolve known).faults = unknownNames known a.names
  | .assign x op e => by
      simp only [Action.resolve, resolveAssign, faults_bind, faults_pure, List.append_nil,
        faults_resolve_ident, faults_resolve_number, ← unknownNames_append]
      rfl
  | .choose test yes no => by
      simp only [Action.resolve, faults_bind, faults_pure, List.append_nil, Action.names,
        faults_resolve_condition, faults_resolve_block yes, faults_resolve_otherwise no,
        unknownNames_append]
  | .block body => by
      rw [Action.resolve, Action.names]
      exact faults_resolve_block body

theorem faults_resolve_otherwise : ∀ o : Otherwise,
    (o.resolve known).faults = unknownNames known o.names
  | .nothing => by rw [Otherwise.resolve, Otherwise.names]; rfl
  | .block body => by
      rw [Otherwise.resolve, Otherwise.names]
      exact faults_resolve_block body
  | .chain test yes no => by
      simp only [Otherwise.resolve, faults_bind, faults_pure, List.append_nil, Otherwise.names,
        faults_resolve_condition, faults_resolve_block yes, faults_resolve_otherwise no,
        unknownNames_append]

theorem faults_resolve_block : ∀ b : Block,
    (b.resolve known).faults = unknownNames known b.names
  | .nil => by rw [Block.resolve, Block.names]; rfl
  | .cons first rest => by
      simp only [Block.resolve, faults_bind, faults_pure, List.append_nil, Block.names,
        faults_resolve_action first, faults_resolve_block rest, unknownNames_append]

end

end Forecast
