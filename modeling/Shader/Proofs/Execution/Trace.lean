import Mathlib

namespace Shader.Execution

open List

variable {σ σ' ε ε' : Type}

def trace (step : σ → Option (List ε × σ)) : Nat → σ → List ε
  | 0, _ => []
  | n + 1, c =>
    match step c with
    | none => []
    | some (es, c) => es ++ trace step n c

inductive Steps (step : σ → Option (List ε × σ)) : Nat → σ → List ε → σ → Prop
  | refl {c} : Steps step 0 c [] c
  | cons {n c c' c'' es es'} : step c = some (es, c') → Steps step n c' es' c'' →
    Steps step (n + 1) c (es ++ es') c''

section

variable {step : σ → Option (List ε × σ)} {n k : Nat} {c c' c'' : σ} {es es' : List ε}

theorem trace_of_none (h : step c = none) (n : Nat) : trace step n c = [] := by
  cases n <;> simp [trace, h]

theorem trace_of_some (h : step c = some (es, c')) (n : Nat) :
    trace step (n + 1) c = es ++ trace step n c' := by
  simp [trace, h]

theorem trace_isPrefix_of_le (h : k ≤ n) (c : σ) : trace step k c <+: trace step n c := by
  induction k generalizing n c
  case zero => exact nil_prefix
  case succ k hi =>
    obtain ⟨n, rfl⟩ : ∃ m, n = m + 1 := ⟨n - 1, by omega⟩
    cases hs : step c
    case none => simp [trace_of_none hs]
    case some x =>
      rw [trace_of_some hs, trace_of_some hs, prefix_append_right_inj]
      exact hi (by omega) x.2

namespace Steps

theorem one (h : step c = some (es, c')) : Steps step 1 c es c' := by
  simpa using Steps.cons h .refl

theorem trans (h : Steps step n c es c') (h' : Steps step k c' es' c'') :
    Steps step (n + k) c (es ++ es') c'' := by
  induction h
  case refl => simpa using h'
  case cons hs _ hi =>
    rw [append_assoc, Nat.add_right_comm]
    exact .cons hs (hi h')

theorem trace_eq (h : Steps step n c es c') (k : Nat) :
    trace step (n + k) c = es ++ trace step k c' := by
  induction h
  case refl => simp
  case cons hs _ hi => rw [Nat.add_right_comm, trace_of_some hs, hi, append_assoc]

end Steps
end

-- What a step of one machine did is done by one or more steps of `step'`, which emit the same
-- visible events.
def Answered (step' : σ' → Option (List ε' × σ')) (visible : ε' → Option ε) (R : σ → σ' → Prop)
    (done : Option (List ε × σ)) (c' : σ') : Prop :=
  match done with
  | none => step' c' = none
  | some (es, d) => ∃ n es' d', Steps step' (n + 1) c' es' d' ∧ es'.filterMap visible = es ∧ R d d'

namespace Answered

variable {step' : σ' → Option (List ε' × σ')} {visible : ε' → Option ε} {R : σ → σ' → Prop}
  {n : Nat} {es : List ε} {es' : List ε'} {d : σ} {c' d' : σ'}

theorem steps (hs : Steps step' n c' es' d') (hn : 0 < n) (he : es'.filterMap visible = es)
    (hr : R d d') :
    Answered step' visible R (some (es, d)) c' := by
  obtain ⟨n, rfl⟩ := Nat.exists_eq_add_one.mpr hn
  exact ⟨n, es', d', hs, he, hr⟩

theorem one (hs : step' c' = some (es', d')) (he : es'.filterMap visible = es) (hr : R d d') :
    Answered step' visible R (some (es, d)) c' :=
  steps (.one hs) Nat.one_pos he hr

end Answered

def Simulates (step : σ → Option (List ε × σ)) (step' : σ' → Option (List ε' × σ'))
    (visible : ε' → Option ε) (R : σ → σ' → Prop) : Prop :=
  ∀ c c', R c c' → Answered step' visible R (step c) c'

namespace Simulates

variable {step : σ → Option (List ε × σ)} {step' : σ' → Option (List ε' × σ')}
  {visible : ε' → Option ε} {R : σ → σ' → Prop} {c : σ} {c' : σ'}

theorem exists_trace_eq (h : Simulates step step' visible R) (hr : R c c') (k : Nat) :
    ∃ n, k ≤ n ∧ (trace step' n c').filterMap visible = trace step k c := by
  induction k generalizing c c'
  case zero => exact ⟨0, Nat.le_refl 0, rfl⟩
  case succ k hi =>
    have hs := h c c' hr
    unfold Answered at hs
    split at hs
    case h_1 hc =>
      exact ⟨k + 1, Nat.le_refl _, by rw [trace_of_none hs, trace_of_none hc, filterMap_nil]⟩
    case h_2 es d hc =>
      have ⟨n, es', d', hsteps, hes, hd⟩ := hs
      have ⟨n', hle, htrace⟩ := hi hd
      refine ⟨n + 1 + n', by omega, ?_⟩
      rw [hsteps.trace_eq, trace_of_some hc, filterMap_append, hes, htrace]

theorem trace_eq (h : Simulates step step' visible R) (hr : R c c') :
    (∀ n, ∃ k, (trace step' n c').filterMap visible <+: trace step k c)
      ∧ ∀ k, ∃ n, (trace step' n c').filterMap visible = trace step k c := by
  refine ⟨fun n => ?_, fun k => ?_⟩
  · have ⟨n', hle, htrace⟩ := h.exists_trace_eq hr n
    exact ⟨n, htrace ▸ (trace_isPrefix_of_le hle c').filterMap visible⟩
  · have ⟨n, _, htrace⟩ := h.exists_trace_eq hr k
    exact ⟨n, htrace⟩

end Simulates
end Shader.Execution
