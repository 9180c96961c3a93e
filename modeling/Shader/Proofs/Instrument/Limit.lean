import Shader.Proofs.Instrument.Frame
import Shader.Proofs.Instrument.Loop

namespace Shader

open List

namespace Check

variable {c : Check} {limit : Option Nat} {functions k : Nat} {wants : Statement → Prop}
  {tests : Workspace → Statement → Edit → Prop} {g g' : Progress} {visits : List Visit}

def instrumented (visits : List Visit) : List Visit :=
  visits.filter (·.next.isSome)

def afterLast (w : Workspace) (visits : List Visit) : Workspace :=
  (visits.getLast?.map Visit.after).getD w

theorem instrumented_append (visits visits' : List Visit) :
    instrumented (visits ++ visits') = instrumented visits ++ instrumented visits' :=
  filter_append ..

theorem afterLast_append (w : Workspace) (visits visits' : List Visit) :
    afterLast w (visits ++ visits') = afterLast (afterLast w visits) visits' := by
  rw [afterLast, afterLast, afterLast, getLast?_append]
  cases visits'.getLast? <;> rfl

theorem afterLast_congr {w w' : Workspace} (h : w.draft = w'.draft ∧ w.requests = w'.requests)
    (visits : List Visit) :
    (afterLast w visits).draft = (afterLast w' visits).draft
      ∧ (afterLast w visits).requests = (afterLast w' visits).requests := by
  unfold afterLast
  cases visits.getLast?
  case none => exact h
  case some => exact ⟨rfl, rfl⟩

theorem Moved.count_eq (h : c.Moved limit g visits g') :
    g'.count = g.count + (instrumented visits).length := by
  cases h
  case visited next _ _ _ _ _ _ => cases next <;> rfl
  all_goals rfl

theorem Goes.count_eq (h : c.Goes limit functions g visits g') :
    g'.count = g.count + (instrumented visits).length := by
  obtain ⟨_, h⟩ := h
  induction h
  case refl => rfl
  case cons hs _ hi =>
    rw [hi, (moved_of_turn hs).right.count_eq, instrumented_append, length_append, Nat.add_assoc]

theorem Moved.afterLast_eq (hc : c.Treats wants tests) (h : c.Moved limit g visits g') :
    g'.workspace.draft = (afterLast g.workspace (instrumented visits)).draft
      ∧ g'.workspace.requests = (afterLast g.workspace (instrumented visits)).requests := by
  cases h
  case visited w p _ b t _ _ hb ht _ _ hvisit =>
    cases (hc w p b t hb ht).ok hvisit
    case passed _ hd hr => exact ⟨hd, hr⟩
    case edited => exact ⟨rfl, rfl⟩
  all_goals exact ⟨rfl, rfl⟩

theorem turn_limited (h : (c.turn none functions g).moved? = some (visits, g')) (k : Nat) :
    (c.turn (some k) functions g).moved? = some (visits, g')
      ∨ k ≤ g.count ∧ c.turn (some k) functions g = .ended := by
  obtain ⟨hp, hm⟩ := moved_of_turn h
  cases hm
  case visited w p n b t next w' hb ht ho hl hvisit =>
    by_cases hk : n < k
    case pos => exact .inl (by simp [turn, hp.not_ge, hb, ht, ho, hk, hvisit, Turn.moved?])
    case neg => exact .inr ⟨Nat.le_of_not_lt hk, by simp [turn, hp.not_ge, hb, ht, ho, hk]⟩
  case function hb => exact .inl (by simp [turn, hp.not_ge, hb, Turn.moved?])
  case block hb hn => exact .inl (by simp [turn, hp.not_ge, hb, hn, Turn.moved?])
  case added hb ht ho => exact .inl (by simp [turn, hp.not_ge, hb, ht, ho, Turn.moved?])

theorem ended_limited (h : c.turn none functions g = .ended) (k : Nat) :
    c.turn (some k) functions g = .ended := by
  simp [turn, le_of_ended h]

theorem Moved.count_le (h : c.Moved (some k) g visits g') (hk : g.count ≤ k) : g'.count ≤ k := by
  cases h
  case visited n _ _ next _ _ _ _ hl _ =>
    have hlt : n < k := by simpa using hl
    cases next
    case none => exact hk
    case some => exact hlt
  all_goals exact hk

theorem Goes.limited (h : c.Goes none functions g visits g')
    (hends : c.turn none functions g' = .ended) (hk : g.count ≤ k) :
    ∃ visits' g'', c.Goes (some k) functions g visits' g'' ∧ c.turn (some k) functions g'' = .ended
      ∧ visits' <+: visits ∧ (g''.count = k ∨ visits' = visits) := by
  obtain ⟨_, h⟩ := h
  induction h
  case refl => exact ⟨[], _, .refl _, ended_limited hends k, nil_prefix, .inr rfl⟩
  case cons hs _ hi =>
    obtain hs' | ⟨hle, hends'⟩ := turn_limited hs k
    case inl =>
      obtain ⟨visits', g'', hgoes, hends', hprefix, hcount⟩ :=
        hi hends ((moved_of_turn hs').right.count_le hk)
      obtain ⟨turns, hgoes⟩ := hgoes
      refine ⟨_, g'', ⟨turns + 1, .cons hs' hgoes⟩, hends', (prefix_append_right_inj _).mpr hprefix,
        ?_⟩
      exact hcount.imp_right fun heq => by rw [heq]
    case inr => exact ⟨[], _, .refl _, hends', nil_prefix, .inl (hk.antisymm hle)⟩

theorem Goes.afterLast_eq (hc : c.Treats wants tests) (h : c.Goes limit functions g visits g') :
    g'.workspace.draft = (afterLast g.workspace (instrumented visits)).draft
      ∧ g'.workspace.requests = (afterLast g.workspace (instrumented visits)).requests := by
  obtain ⟨_, h⟩ := h
  induction h
  case refl => exact ⟨rfl, rfl⟩
  case cons rest hs _ hi =>
    have hcongr := afterLast_congr ((moved_of_turn hs).right.afterLast_eq hc) (instrumented rest)
    rw [instrumented_append, afterLast_append]
    exact ⟨hi.left.trans hcongr.left, hi.right.trans hcongr.right⟩

theorem Goes.count_le (h : c.Goes (some k) functions g visits g') (hk : g.count ≤ k) :
    g'.count ≤ k :=
  h.invariant (·.count ≤ k) Moved.count_le hk

variable {w w' : Workspace} {n : Nat}

theorem Finishes.length_instrumented (h : c.Finishes limit w visits n w') :
    (instrumented visits).length = n := by
  obtain ⟨p, hgoes, _⟩ := h
  simpa [start] using hgoes.count_eq.symm

theorem Finishes.limited (h : c.Finishes none w visits n w') (k : Nat) :
    ∃ visits' w'', c.Finishes (some k) w visits' (min k n) w''
      ∧ instrumented visits' = (instrumented visits).take (min k n) := by
  have hlength := h.length_instrumented
  obtain ⟨p, hgoes, hends⟩ := h
  obtain ⟨visits', ⟨w'', p', n'⟩, hgoes', hends', hprefix, hstop⟩ :=
    hgoes.limited hends (Nat.zero_le k)
  have hfinishes : c.Finishes (some k) w visits' n' w'' := ⟨p', hgoes', hends'⟩
  have hlength' := hfinishes.length_instrumented
  have hfirst : instrumented visits' <+: instrumented visits := hprefix.filter _
  have hcount : n' = min k n := by
    have hle := hfirst.length_le
    have hlimit := hgoes'.count_le (Nat.zero_le k)
    obtain hreached | rfl := hstop
    case inl =>
      dsimp only at hreached
      omega
    case inr =>
      dsimp only at hlimit
      omega
  subst hcount
  exact ⟨visits', w'', hfinishes, by rw [prefix_iff_eq_take.mp hfirst, hlength']⟩

end Check

namespace Pipeline

variable {m : Module} {s : Settings} {c : Check} {w w' : Workspace} {n : Nat}

-- If a run without a limit returns, so does the one with a limit. It instruments the statements
-- that come first, and what it leaves is what the run without a limit has right after the last of
-- these.
theorem limit_takes_first (hc : c ∈ checks m s) (hl : 0 < s.limit)
    (h : c.run (limit? { s with limit := 0 }) w = .ok n w') :
    ∃ visits visits' w'', c.Finishes (limit? { s with limit := 0 }) w visits n w'
      ∧ (Check.instrumented visits).length = n
      ∧ c.Finishes (limit? s) w visits' (min s.limit.toNat n) w''
      ∧ c.run (limit? s) w = .ok (min s.limit.toNat n) w''
      ∧ Check.instrumented visits' = (Check.instrumented visits).take (min s.limit.toNat n)
      ∧ w''.draft = (Check.afterLast w
        ((Check.instrumented visits).take (min s.limit.toNat n))).draft
      ∧ w''.requests = (Check.afterLast w
        ((Check.instrumented visits).take (min s.limit.toNat n))).requests := by
  obtain ⟨_, _, ht⟩ := checks_treat m s c hc
  have hlimit : limit? s = some s.limit.toNat := by
    have hne : s.limit ≠ 0 := by
      intro hz
      rw [hz] at hl
      cases hl
    simp [limit?, hne]
  obtain ⟨visits, hfinishes⟩ := (Check.run_eq_ok_iff ht.advances).mp h
  obtain ⟨visits', w'', hfinishes', hfirst⟩ := hfinishes.limited s.limit.toNat
  rw [← hlimit] at hfinishes'
  refine ⟨visits, visits', w'', hfinishes, hfinishes.length_instrumented, hfinishes',
    (Check.run_eq_ok_iff ht.advances).mpr ⟨visits', hfinishes'⟩, hfirst, ?_⟩
  obtain ⟨p, hgoes, _⟩ := hfinishes'
  rw [← hfirst]
  exact hgoes.afterLast_eq ht

-- A function that loads twice through a physical pointer.
def loadsTwice : List Word :=
  [0x07230203, 0x00010500, 0, 12, 0,
   0x20013, 1, 0x30021, 2, 1, 0x40015, 3, 32, 0, 0x40020, 4, 5349, 3, 0x3002E, 4, 5,
   0x50036, 1, 6, 0, 2, 0x200F8, 7, 0x4003D, 3, 8, 5, 0x4003D, 3, 9, 5, 0x100FD, 0x10038]

theorem limit_takes_first_loadsTwice :
    ∃ p w', new loadsTwice = .ok p
      ∧ let c := BufferAddress.check p.analysis
        let s : Settings := { bufferAddress := true, limit := 1 }
        let w := p.toWorkspace
        c ∈ checks p.analysis s ∧ 0 < s.limit ∧ c.run (limit? { s with limit := 0 }) w = .ok 2 w'
        ∧ ∃ visits visits' w'', c.Finishes (limit? { s with limit := 0 }) w visits 2 w'
          ∧ (Check.instrumented visits).length = 2
          ∧ c.Finishes (limit? s) w visits' (min s.limit.toNat 2) w''
          ∧ c.run (limit? s) w = .ok (min s.limit.toNat 2) w''
          ∧ Check.instrumented visits' = (Check.instrumented visits).take (min s.limit.toNat 2)
          ∧ w''.draft = (Check.afterLast w
          ((Check.instrumented visits).take (min s.limit.toNat 2))).draft
          ∧ w''.requests = (Check.afterLast w
            ((Check.instrumented visits).take (min s.limit.toNat 2))).requests := by
  have hrun : ((new loadsTwice).map fun p => decide (
      (p.step ((BufferAddress.check p.analysis).run none)).1 = .ok 2)) = .ok true := by
    decide +kernel
  obtain ⟨p, h, hcount⟩ := exists_ok_of_decide hrun
  have hc : BufferAddress.check p.analysis
      ∈ checks p.analysis { bufferAddress := true, limit := 1 } := mem_singleton_self _
  have hok := step_ok Leads.self hcount
  exact ⟨p, _, h, hc, by decide, hok, limit_takes_first hc (by decide) hok⟩

end Pipeline
end Shader
