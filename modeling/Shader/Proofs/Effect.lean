import Mathlib
import Shader.Instrument.Workspace

namespace Shader

variable {ε σ α β : Type}

def final? (e : EStateM ε σ α) (s : σ) : Option σ :=
  match e s with
  | .ok _ s' => some s'
  | .error _ _ => none

theorem final?_eq_some_iff {e : EStateM ε σ α} {s s' : σ} :
    final? e s = some s' ↔ ∃ a, e s = .ok a s' := by
  unfold final?
  cases e s <;> simp

-- From the state `s` the edit `e` ends in `done`, or it fails and leaves a state in `failed`.
def Leads (e : EStateM ε σ α) (s : σ) (done : α → σ → Prop) (failed : σ → Prop) : Prop :=
  match e s with
  | .ok a s' => done a s'
  | .error _ s' => failed s'

namespace Leads

variable {e : EStateM ε σ α} {f : α → EStateM ε σ β} {s : σ} {done done' : α → σ → Prop}
  {failed failed' : σ → Prop}

theorem ok {a : α} {s' : σ} (h : Leads e s done failed) (he : e s = .ok a s') : done a s' := by
  simpa [Leads, he] using h

theorem error {err : ε} {s' : σ} (h : Leads e s done failed) (he : e s = .error err s') :
    failed s' := by
  simpa [Leads, he] using h

theorem mono (h : Leads e s done failed) (hd : ∀ a s', done a s' → done' a s')
    (hf : ∀ s', failed s' → failed' s') : Leads e s done' failed' := by
  unfold Leads at h ⊢
  split <;> simp_all

theorem weaken (h : Leads e s done failed) (hd : ∀ a s', done a s' → done' a s') :
    Leads e s done' failed :=
  h.mono hd fun _ => id

theorem bind {done : β → σ → Prop}
    (h : Leads e s (fun a s' => Leads (f a) s' done failed) failed) :
    Leads (e >>= f) s done failed := by
  unfold Leads at h ⊢
  show match EStateM.bind e f s with | .ok a s' => done a s' | .error _ s' => failed s'
  unfold EStateM.bind
  cases he : e s <;> simp_all

theorem pure {a : α} (h : done a s) : Leads (Pure.pure a : EStateM ε σ α) s done failed :=
  h

theorem throw {err : ε} (h : failed s) :
    Leads (MonadExcept.throw err : EStateM ε σ α) s done failed :=
  h

theorem get {done : σ → σ → Prop} (h : done s s) : Leads (get : EStateM ε σ σ) s done failed :=
  h

theorem set {s' : σ} {done : PUnit → σ → Prop} (h : done ⟨⟩ s') :
    Leads (MonadStateOf.set s' : EStateM ε σ PUnit) s done failed :=
  h

theorem modify {g : σ → σ} {done : PUnit → σ → Prop} (h : done ⟨⟩ (g s)) :
    Leads (modify g : EStateM ε σ PUnit) s done failed :=
  h

theorem map {g : α → β} {done : β → σ → Prop} (h : Leads e s (fun a => done (g a)) failed) :
    Leads (g <$> e) s done failed := by
  unfold Leads at h ⊢
  show match EStateM.map g e s with | .ok a s' => done a s' | .error _ s' => failed s'
  unfold EStateM.map
  cases he : e s <;> simp_all

-- The invariant `inv` is about what is left of the list.
theorem forM {g : α → EStateM ε σ PUnit} {l : List α} (inv : List α → σ → Prop)
    (step : ∀ a rest s, inv (a :: rest) s → Leads (g a) s (fun _ => inv rest) failed)
    (h : inv l s) : Leads (l.forM g) s (fun _ => inv []) failed := by
  induction l generalizing s
  case nil => exact pure h
  case cons a rest hi => exact bind <| (step a rest s h).weaken fun _ s' h => hi h

theorem foldlM {g : β → α → EStateM ε σ β} {inv : β → σ → Prop} {l : List α} {b : β}
    (step : ∀ b, ∀ a ∈ l, ∀ s, inv b s → Leads (g b a) s inv failed)
    (h : inv b s) : Leads (l.foldlM g b) s inv failed := by
  induction l generalizing s b
  case nil => exact pure h
  case cons a rest hi =>
    refine bind <| (step b a List.mem_cons_self s h).weaken fun b' s' h => hi ?_ h
    exact fun b c hc => step b c (List.mem_cons_of_mem _ hc)

end Leads
end Shader
