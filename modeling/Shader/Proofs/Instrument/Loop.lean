import Shader.Proofs.Execution.Trace
import Shader.Proofs.Instrument.Visit

namespace Shader

open List

theorem Leads.self {ε σ α : Type} {e : EStateM ε σ α} {s : σ} :
    Leads e s (fun a s' => e s = .ok a s') fun s' => ∃ err, e s = .error err s' := by
  unfold Leads
  split
  case h_1 he => exact he
  case h_2 err _ he => exact ⟨err, he⟩

-- The invariant is about how many numbers are behind.
theorem Leads.foldlM_range {ε σ β : Type} {g : β → Nat → EStateM ε σ β} (inv : Nat → β → σ → Prop)
    {failed : σ → Prop} {b : β} {s : σ} {n : Nat}
    (step : ∀ b, ∀ i < n, ∀ s, inv i b s → Leads (g b i) s (inv (i + 1)) failed) (h : inv 0 b s) :
    Leads ((range n).foldlM g b) s (inv n) failed := by
  induction n
  case zero => exact .pure h
  case succ n hi =>
    rw [range_succ, foldlM_append]
    refine .bind <| (hi fun b i hlt => step b i (by omega)).weaken fun b s h => ?_
    exact .bind <| (step b n (by omega) s h).weaken fun b s h => .pure h

def Position.left (d : Draft) (p : Position) : Nat :=
  (d.functions[p.function]?).elim 0 fun f => (ahead f.blocks p.block p.index).length
    + (f.blocks.length - p.block)

theorem Check.steps_eq (bs : List Block) : steps bs = (code bs).length + bs.length := by
  induction bs
  case nil => rfl
  case cons b bs hi =>
    have hcode : (code (b :: bs)).length = b.body.length + (code bs).length := length_append
    rw [show steps (b :: bs) = b.body.length + 1 + steps bs from rfl, hi, hcode, length_cons]
    omega

theorem behind_start (bs : List Block) : behind bs 0 0 = [] := by
  cases hb : bs[0]? <;> simp [behind, code, hb]

theorem ahead_start (bs : List Block) : ahead bs 0 0 = code bs := by
  rw [code_eq bs 0 0, behind_start, nil_append]

namespace Position

variable {d : Draft} {p : Position} {b : Block} {t : Statement}

theorem left_start_le (d : Draft) (function : Nat) :
    left d ⟨function, 0, 0⟩ ≤ Check.steps ((d.functions[function]?).elim [] (·.blocks)) := by
  unfold left
  cases d.functions[function]?
  case none => simp
  case some f => simp [Check.steps_eq, ahead_start]

theorem left_block_lt (hb : d.block? p = some b) (hn : b.body[p.index]? = none) :
    left d ⟨p.function, p.block + 1, 0⟩ < p.left d := by
  obtain ⟨f, hf, hb⟩ := Option.bind_eq_some_iff.mp hb
  have ⟨hlt, _⟩ := List.getElem?_eq_some_iff.mp hb
  simp only [left, hf, Option.elim_some, ahead_block hb (getElem?_eq_none_iff.mp hn)]
  omega

theorem left_succ_lt (hb : d.block? p = some b) (ht : b.body[p.index]? = some t) :
    left d { p with index := p.index + 1 } < p.left d := by
  obtain ⟨f, hf, hb⟩ := Option.bind_eq_some_iff.mp hb
  simp only [left, hf, Option.elim_some, ahead_cons hb ht, length_cons]
  omega

theorem block?_eq_none (h : p.left d = 0) : d.block? p = none := by
  unfold Draft.block?
  cases hf : d.functions[p.function]?
  case none => rfl
  case some f =>
    simp only [left, hf, Option.elim_some] at h
    simp only [Option.bind_some, getElem?_eq_none_iff]
    omega

end Position

theorem Edit.Turns.left_lt {e : Edit} {d d' : Draft} {p : Position} {b : Block} {t : Statement}
    (h : e.Turns d p b t d') : (e.after p).left d' < p.left d := by
  obtain ⟨f, f', hf, ha, hset⟩ := h.functions
  have hlt := (List.getElem?_eq_some_iff.mp hf).1
  have hf' : d'.functions[p.function]? = some f' := by rw [hset, getElem?_set_self hlt]
  have hahead := ha.ahead_eq.length_eq
  have hblocks := ha.length_blocks
  have hb := (List.getElem?_eq_some_iff.mp ha.found).1
  simp only [Position.left, after, hf, hf', Option.elim_some, ← hahead,
    ahead_cons ha.found ha.statement, length_cons]
  omega

namespace Check

structure Progress where
  workspace : Workspace
  position  : Position
  count     : Nat

structure Visit where
  position  : Position
  statement : Statement
  next      : Option Position
  after     : Workspace

inductive Turn where
  | moved (visits : List Visit) (progress : Progress)
  | ended
  | failed (error : EditError) (left : Workspace)

def Turn.moved? : Turn → Option (List Visit × Progress)
  | .moved visits progress => some (visits, progress)
  | .ended | .failed .. => none

-- The loop over `functions` functions goes from block to block and from statement to statement. Of
-- those that came with the module it shows each one to the check, until there are as many
-- instrumented as the limit allows.
def turn (c : Check) (limit : Option Nat) (functions : Nat) (g : Progress) : Turn :=
  let p := g.position
  if functions ≤ p.function then .ended
  else
    match g.workspace.draft.block? p with
    | none => .moved [] { g with position := ⟨p.function + 1, 0, 0⟩ }
    | some b =>
      match b.body[p.index]? with
      | none => .moved [] { g with position := ⟨p.function, p.block + 1, 0⟩ }
      | some s =>
        let following := { p with index := p.index + 1 }
        if s.origin.isSome then
          if limit.all (g.count < ·) then
            match c.visit p g.workspace with
            | .ok next w => .moved [⟨p, s, next, w⟩] ⟨w, next.getD following,
                g.count + next.toList.length⟩
            | .error e w => .failed e w
          else .ended
        else .moved [] { g with position := following }

def Goes (c : Check) (limit : Option Nat) (functions : Nat) (g : Progress) (visits : List Visit)
    (g' : Progress) : Prop :=
  ∃ turns, Execution.Steps (fun g => (c.turn limit functions g).moved?) turns g visits g'

def start (w : Workspace) : Progress :=
  ⟨w, ⟨0, 0, 0⟩, 0⟩

def Finishes (c : Check) (limit : Option Nat) (w : Workspace) (visits : List Visit) (count : Nat)
    (w' : Workspace) : Prop :=
  ∃ p, c.Goes limit w.draft.functions.length (start w) visits ⟨w', p, count⟩
    ∧ c.turn limit w.draft.functions.length ⟨w', p, count⟩ = .ended

def Breaks (c : Check) (limit : Option Nat) (w : Workspace) (visits : List Visit) (e : EditError)
    (w' : Workspace) : Prop :=
  ∃ g, c.Goes limit w.draft.functions.length (start w) visits g
    ∧ c.turn limit w.draft.functions.length g = .failed e w'

inductive Moved (c : Check) (limit : Option Nat) : Progress → List Visit → Progress → Prop
  | function {w p n} : w.draft.block? p = none →
      Moved c limit ⟨w, p, n⟩ [] ⟨w, ⟨p.function + 1, 0, 0⟩, n⟩
  | block {w p n b} : w.draft.block? p = some b → b.body[p.index]? = none →
    Moved c limit ⟨w, p, n⟩ [] ⟨w, ⟨p.function, p.block + 1, 0⟩, n⟩
  | added {w p n b s} : w.draft.block? p = some b → b.body[p.index]? = some s → s.origin = none →
    Moved c limit ⟨w, p, n⟩ [] ⟨w, { p with index := p.index + 1 }, n⟩
  | visited {w p n b s next w'} : w.draft.block? p = some b → b.body[p.index]? = some s →
    s.origin.isSome →
    limit.all (n < ·) → c.visit p w = .ok next w' →
    Moved c limit ⟨w, p, n⟩ [⟨p, s, next, w'⟩]
      ⟨w', next.getD { p with index := p.index + 1 }, n + next.toList.length⟩

variable {c : Check} {limit : Option Nat} {functions count : Nat} {w w' : Workspace} {p : Position}
  {b : Block} {t : Statement} {g g' g'' : Progress} {visits visits' : List Visit}

theorem moved_of_turn (h : (c.turn limit functions g).moved? = some (visits, g')) :
    g.position.function < functions ∧ c.Moved limit g visits g' := by
  obtain ⟨w, p, count⟩ := g
  unfold turn at h
  dsimp only at h
  split at h
  case isTrue => cases h
  case isFalse hp =>
    refine ⟨Nat.lt_of_not_le hp, ?_⟩
    split at h
    case h_1 hb =>
      cases h
      exact .function hb
    case h_2 b hb =>
      split at h
      case h_1 hn =>
        cases h
        exact .block hb hn
      case h_2 s hs =>
        split at h
        case isFalse ho =>
          cases h
          exact .added hb hs (by simpa using ho)
        case isTrue ho =>
          split at h
          case isFalse => cases h
          case isTrue hl =>
            split at h
            case h_2 => cases h
            case h_1 hv =>
              cases h
              exact .visited hb hs ho hl hv

theorem le_of_ended (h : c.turn none functions g = .ended) : functions ≤ g.position.function := by
  by_contra hp
  unfold turn at h
  simp only [hp, ↓reduceIte, Option.all_none] at h
  repeat' split at h
  all_goals cases h

namespace Goes

theorem refl (g : Progress) : c.Goes limit functions g [] g :=
  ⟨0, .refl⟩

theorem step (h : c.turn limit functions g = .moved visits g')
    (h' : c.Goes limit functions g' visits' g'') :
    c.Goes limit functions g (visits ++ visits') g'' := by
  obtain ⟨turns, h'⟩ := h'
  exact ⟨turns + 1, .cons (by rw [h]; rfl) h'⟩

theorem trans (h : c.Goes limit functions g visits g')
    (h' : c.Goes limit functions g' visits' g'') :
    c.Goes limit functions g (visits ++ visits') g'' := by
  obtain ⟨turns, h⟩ := h
  obtain ⟨turns', h'⟩ := h'
  exact ⟨turns + turns', h.trans h'⟩

theorem invariant (inv : Progress → Prop)
    (step : ∀ {g visits g'}, c.Moved limit g visits g' → inv g → inv g') (hg : inv g)
    (h : c.Goes limit functions g visits g') : inv g' := by
  obtain ⟨_, h⟩ := h
  induction h
  case refl => exact hg
  case cons hs _ hi => exact hi (step (moved_of_turn hs).right hg)

theorem unique {g₁ g₂ : Progress} (h₁ : c.Goes limit functions g visits g₁)
    (h₂ : c.Goes limit functions g visits' g₂) (hn₁ : (c.turn limit functions g₁).moved? = none)
    (hn₂ : (c.turn limit functions g₂).moved? = none) :
    visits = visits' ∧ g₁ = g₂ := by
  obtain ⟨_, h₁⟩ := h₁
  obtain ⟨turns, h₂⟩ := h₂
  induction h₁ generalizing visits' turns
  case refl =>
    cases h₂
    case refl => exact ⟨rfl, rfl⟩
    case cons hs _ => cases hn₁.symm.trans hs
  case cons hs _ hi =>
    cases h₂
    case refl => cases hn₂.symm.trans hs
    case cons hs' h₂ =>
      cases hs.symm.trans hs'
      obtain ⟨rfl, rfl⟩ := hi hn₁ _ h₂
      exact ⟨rfl, rfl⟩

end Goes

theorem Finishes.unique {n : Nat} {w'' : Workspace} (h : c.Finishes limit w visits count w')
    (h' : c.Finishes limit w visits' n w'') : visits = visits' ∧ count = n ∧ w' = w'' := by
  obtain ⟨p, hp, hends⟩ := h
  obtain ⟨q, hq, hends'⟩ := h'
  obtain ⟨rfl, heq⟩ := hp.unique hq (by rw [hends]; rfl) (by rw [hends']; rfl)
  cases heq
  exact ⟨rfl, rfl, rfl⟩

theorem Finishes.not_breaks {e : EditError} {w'' : Workspace}
    (h : c.Finishes limit w visits count w') :
    ¬c.Breaks limit w visits' e w'' := by
  rintro ⟨g, hg, hfails⟩
  obtain ⟨p, hp, hends⟩ := h
  obtain ⟨_, rfl⟩ := hp.unique hg (by rw [hends]; rfl) (by rw [hfails]; rfl)
  cases hends.symm.trans hfails

def Advances (c : Check) : Prop :=
  ∀ w p b t, w.draft.block? p = some b → b.body[p.index]? = some t →
    Leads (c.visit p) w (fun next w' => (next.getD { p with index := p.index + 1 }).function
      = p.function
      ∧ (next.getD { p with index := p.index + 1 }).left w'.draft < p.left w.draft) fun _ => True

theorem Treats.advances {wants : Statement → Prop} {tests : Workspace → Statement → Edit → Prop}
    (hc : c.Treats wants tests) : c.Advances := by
  intro w p b t hb ht
  refine (hc w p b t hb ht).weaken fun next w' hv => ?_
  cases hv
  case passed _ hd _ => exact ⟨rfl, hd.symm ▸ Position.left_succ_lt hb ht⟩
  case edited e hturn _ _ _ _ => exact ⟨rfl, hturn.left_lt⟩

theorem scan_of_reached (hl : limit.all (count < ·) = false) (steps : Nat) (p : Position)
    (w : Workspace) :
    Leads (c.scan limit steps p count) w (fun n w' => n = count ∧ w' = w) fun _ => False := by
  induction steps generalizing p
  case zero => exact .pure ⟨rfl, rfl⟩
  case succ steps hi =>
    refine .bind <| .get ?_
    dsimp only
    split
    case h_1 => exact .pure ⟨rfl, rfl⟩
    case h_2 b _ =>
      split
      case h_1 => exact hi _
      case h_2 =>
        rw [if_neg (by simp [hl])]
        exact .bind <| .pure <| hi _

-- What a loop comes to from `g` on, if it is stopped before the next function.
def Stops (c : Check) (limit : Option Nat) (functions : Nat) (g : Progress) (next n : Nat)
    (w : Workspace) : Prop :=
  ∃ visits p, c.Goes limit functions g visits ⟨w, p, n⟩ ∧ (p = ⟨next, 0, 0⟩
    ∨ c.turn limit functions ⟨w, p, n⟩ = .ended ∧ limit.all (n < ·) = false)

def Fails (c : Check) (limit : Option Nat) (functions : Nat) (g : Progress) (w : Workspace) :
    Prop :=
  ∃ visits g' e, c.Goes limit functions g visits g' ∧ c.turn limit functions g' = .failed e w

section

variable {e : Instrumenting Nat} {next : Nat}

theorem Goes.leads (h : c.Goes limit functions g visits g')
    (he : Leads e w (c.Stops limit functions g' next) (c.Fails limit functions g')) :
    Leads e w (c.Stops limit functions g next) (c.Fails limit functions g) := by
  refine he.mono ?_ ?_
  · rintro n w' ⟨visits', p, h', hp⟩
    exact ⟨_, p, h.trans h', hp⟩
  · rintro w' ⟨visits', g'', e, h', hf⟩
    exact ⟨_, g'', e, h.trans h', hf⟩

theorem Goes.one (h : c.turn limit functions g = .moved visits g') :
    c.Goes limit functions g visits g' := by
  simpa using step h (.refl g')

end

theorem scan_stops (hc : c.Advances) (limit : Option Nat) (steps : Nat) (p : Position) (count : Nat)
    (hp : p.function < functions) (hs : p.left w.draft ≤ steps) :
    Leads (c.scan limit steps p count) w (c.Stops limit functions ⟨w, p, count⟩ (p.function + 1))
      (c.Fails limit functions ⟨w, p, count⟩) := by
  -- What is left of the function falls with each turn, so the steps suffice.
  induction steps generalizing p count w
  case zero =>
    have hb := Position.block?_eq_none (Nat.le_zero.mp hs)
    exact .pure ⟨[], _, .one (by simp [turn, hp.not_ge, hb]), .inl rfl⟩
  case succ steps hi =>
    refine .bind <| .get ?_
    dsimp only
    split
    case h_1 hb => exact .pure ⟨[], _, .one (by simp [turn, hp.not_ge, hb]), .inl rfl⟩
    case h_2 b hb =>
      split
      case h_1 hn =>
        have hlt := Position.left_block_lt hb hn
        have hmoved : c.turn limit functions ⟨w, p, count⟩
            = .moved [] ⟨w, ⟨p.function, p.block + 1, 0⟩, count⟩ := by
          simp [turn, hp.not_ge, hb, hn]
        exact Goes.leads (.one hmoved) (hi _ count hp (by omega))
      case h_2 t ht =>
        have hlt := Position.left_succ_lt hb ht
        by_cases ho : t.origin.isSome
        case neg =>
          rw [if_neg (by simp [ho])]
          have hmoved : c.turn limit functions ⟨w, p, count⟩
              = .moved [] ⟨w, { p with index := p.index + 1 }, count⟩ := by
            simp [turn, hp.not_ge, hb, ht, ho]
          exact .bind <| .pure <| Goes.leads (.one hmoved) (hi _ count hp (by omega))
        case pos =>
          -- At the limit the rest is passed over, without a turn for any statement.
          by_cases hl : limit.all (count < ·)
          case neg =>
            rw [if_neg (by simp [hl])]
            refine .bind <| .pure <| (scan_of_reached (by simpa using hl) _ _ w).mono ?_
              fun _ => False.elim
            rintro n w' ⟨rfl, rfl⟩
            exact ⟨[], p, .refl _, .inr ⟨by simp [turn, hp.not_ge, hb, ht, ho, hl],
              by simpa using hl⟩⟩
          case pos =>
            rw [if_pos (by simp [ho, hl])]
            refine .bind <| Leads.self.mono (fun next w' hv => ?_) fun w' ⟨e, hv⟩ => ?_
            · obtain ⟨hf, hlt⟩ := (hc w p b t hb ht).ok hv
              have hmoved : c.turn limit functions ⟨w, p, count⟩ = .moved [⟨p, t, next, w'⟩]
                  ⟨w', next.getD { p with index := p.index + 1 }, count + next.toList.length⟩ := by
                simp [turn, hp.not_ge, hb, ht, ho, hl, hv]
              have hrest := hi _ (count + next.toList.length) (by rwa [hf])
                (Nat.le_of_lt_succ (hlt.trans_le hs))
              rw [hf] at hrest
              cases next <;> exact Goes.leads (.one hmoved) hrest
            · exact ⟨[], _, e, .refl _, by simp [turn, hp.not_ge, hb, ht, ho, hl, hv]⟩

theorem run_leads_finishes (hc : c.Advances) (limit : Option Nat) (w : Workspace) :
    Leads (c.run limit) w (fun n w' => ∃ visits, c.Finishes limit w visits n w')
      fun w' => ∃ visits e, c.Breaks limit w visits e w' := by
  refine .bind <| .get ?_
  dsimp only
  have hfold : Leads ((range w.draft.functions.length).foldlM (fun count i =>
      c.runFunction limit i count) 0) w
      (c.Stops limit w.draft.functions.length (start w) w.draft.functions.length)
      (c.Fails limit w.draft.functions.length (start w)) := by
    refine Leads.foldlM_range (c.Stops limit w.draft.functions.length (start w)) ?_
      ⟨[], _, .refl _, .inl rfl⟩
    rintro n i hi w' ⟨visits, p, hg, hp⟩
    refine .bind <| .get ?_
    obtain rfl | ⟨hends, hl⟩ := hp
    · exact hg.leads (scan_stops hc limit _ _ n hi (Position.left_start_le ..))
    · refine (scan_of_reached hl _ _ w').mono ?_ fun _ => False.elim
      rintro _ _ ⟨rfl, rfl⟩
      exact ⟨visits, p, hg, .inr ⟨hends, hl⟩⟩
  refine hfold.mono ?_ ?_
  · rintro n w' ⟨visits, p, hg, hp⟩
    refine ⟨visits, p, hg, ?_⟩
    obtain rfl | ⟨hends, _⟩ := hp
    · simp [turn]
    · exact hends
  · rintro w' ⟨visits, g, e, hg, hf⟩
    exact ⟨visits, e, g, hg, hf⟩

theorem run_eq_ok_iff (hc : c.Advances) :
    c.run limit w = .ok count w' ↔ ∃ visits, c.Finishes limit w visits count w' := by
  have hrun := run_leads_finishes hc limit w
  refine ⟨hrun.ok, fun ⟨visits, h⟩ => ?_⟩
  cases heq : c.run limit w
  case ok n w'' =>
    obtain ⟨visits', h'⟩ := hrun.ok heq
    obtain ⟨_, rfl, rfl⟩ := h.unique h'
    rfl
  case error e w'' =>
    obtain ⟨visits', e, h'⟩ := hrun.error heq
    exact absurd h' h.not_breaks

end Check
end Shader
