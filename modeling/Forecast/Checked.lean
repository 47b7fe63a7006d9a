import Forecast.Problem

namespace Forecast

/-- A value with the faults found while it was made, in the order of the finding. -/
structure Checked (α : Type) where
  value : α
  faults : List Fault

namespace Checked

instance : Monad Checked where
  pure a := ⟨a, []⟩
  bind x f := ⟨(f x.value).value, x.faults ++ (f x.value).faults⟩

def report (span : Span) (problem : Problem) : Checked Unit := ⟨(), [⟨span, problem⟩]⟩

variable {α β : Type}

@[simp] theorem value_pure (a : α) : (pure a : Checked α).value = a := rfl

@[simp] theorem faults_pure (a : α) : (pure a : Checked α).faults = [] := rfl

@[simp] theorem value_bind (x : Checked α) (f : α → Checked β) :
    (x >>= f).value = (f x.value).value := rfl

@[simp] theorem faults_bind (x : Checked α) (f : α → Checked β) :
    (x >>= f).faults = x.faults ++ (f x.value).faults := rfl

@[simp] theorem faults_report (span : Span) (problem : Problem) :
    (report span problem).faults = [⟨span, problem⟩] := rfl

end Checked

end Forecast
