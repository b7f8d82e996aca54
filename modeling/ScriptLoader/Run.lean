/-! Computations that leave a trace: a value together with what happened on the way to it, in order. -/

set_option autoImplicit false
namespace ScriptLoader

structure Run (τ α : Type) where
  trace : List τ
  value : α

namespace Run
variable {τ σ α β : Type}

def mark (happening : τ) : Run τ Unit := ⟨[happening], ()⟩

def marks (happenings : List τ) : Run τ Unit := ⟨happenings, ()⟩

instance : Monad (Run τ) where
  pure value := ⟨[], value⟩
  bind run next := ⟨run.trace ++ (next run.value).trace, (next run.value).value⟩

def relabel (label : τ → σ) (run : Run τ α) : Run σ α := ⟨run.trace.map label, run.value⟩

@[simp] theorem value_pure (value : α) : (pure value : Run τ α).value = value := rfl

@[simp] theorem trace_pure (value : α) : (pure value : Run τ α).trace = [] := rfl

@[simp] theorem value_bind (run : Run τ α) (next : α → Run τ β) :
    (run >>= next).value = (next run.value).value := rfl

@[simp] theorem trace_bind (run : Run τ α) (next : α → Run τ β) :
    (run >>= next).trace = run.trace ++ (next run.value).trace := rfl

end Run
end ScriptLoader
