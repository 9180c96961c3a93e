import Shader.Access.Reachable
import Shader.Proofs.Analysis.Reading
import Shader.Proofs.Draft.Layout

namespace Shader

open List

section

variable {α β : Type}

-- The functions that are closed, each by its id; `current` is the open one with what it has so far.
-- A function that starts within another one takes its place.
def bodies (op? : α → Option Op) (id : α → Id) :
    (current : Option (Id × List α)) → List α → List (Id × List α)
  | _, [] => []
  | current, a :: as =>
    if op? a = some .function then bodies op? id (some (id a, [a])) as
    else
      match current with
      | none => bodies op? id none as
      | some (function, body) =>
        if op? a = some .functionEnd then (function, body ++ [a]) :: bodies op? id none as
        else bodies op? id (some (function, body ++ [a])) as

section

variable (op? : α → Option Op) {id : α → Id} {a : α} {as : List α}

theorem bodies_start (h : op? a = some .function) (current : Option (Id × List α)) :
    bodies op? id current (a :: as) = bodies op? id (some (id a, [a])) as := by
  simp [bodies, h]

theorem bodies_outside (h : op? a ≠ some .function) :
    bodies op? id none (a :: as) = bodies op? id none as := by
  simp [bodies, h]

theorem bodies_finish (h : op? a = some .functionEnd) (x : Id × List α) :
    bodies op? id (some x) (a :: as) = (x.1, x.2 ++ [a]) :: bodies op? id none as := by
  simp [bodies, h]

theorem bodies_inside (hf : op? a ≠ some .function) (he : op? a ≠ some .functionEnd)
    (x : Id × List α) :
    bodies op? id (some x) (a :: as) = bodies op? id (some (x.1, x.2 ++ [a])) as := by
  simp [bodies, hf, he]

end

theorem bodies_map (op? : β → Option Op) (id : β → Id) (f : α → β) (current : Option (Id × List α))
    (as : List α) :
    bodies op? id (current.map fun x => (x.1, x.2.map f)) (as.map f)
      = (bodies (op? ∘ f) (id ∘ f) current as).map fun x => (x.1, x.2.map f) := by
  induction as generalizing current
  case nil => rfl
  case cons a as hi =>
    rw [map_cons]
    by_cases hf : op? (f a) = some .function
    case pos =>
      rw [bodies_start op? hf, bodies_start (op? ∘ f) hf]
      exact hi (some (id (f a), [a]))
    case neg =>
      cases current
      case none =>
        rw [Option.map_none, bodies_outside op? hf, bodies_outside (op? ∘ f) hf]
        exact hi none
      case some x =>
        by_cases he : op? (f a) = some .functionEnd
        case pos =>
          rw [Option.map_some, bodies_finish op? he, bodies_finish (op? ∘ f) he]
          simpa using hi none
        case neg =>
          rw [Option.map_some, bodies_inside op? hf he, bodies_inside (op? ∘ f) hf he]
          simpa using hi (some (x.1, x.2 ++ [a]))

theorem bodies_ranked (op? : α → Option Op) (id : α → Id) (current : Option (Id × List α))
    (as : List α) :
    bodies op? id current as
      = bodies op? id current
        (((ranked op? current.isSome as).filter (·.1 = functionRank)).map Prod.snd) := by
  induction as generalizing current
  case nil => rfl
  case cons a as hi =>
    by_cases hf : op? a = some .function
    case pos =>
      simp only [ranked, hf, beq_self_eq_true, Bool.or_true, ↓reduceIte, filter_cons_of_pos,
        decide_true, map_cons, bodies_start op? hf]
      exact hi (some (id a, [a]))
    case neg =>
      cases current
      case none =>
        have hr : ((op? a).elim .globals Op.layoutSection).rank ≠ functionRank :=
          (Section.rank_lt _).ne
        have hw : (op? a == some .function) = false := by simpa using hf
        simp only [ranked, Option.isSome_none, hw, Bool.or_self, Bool.false_and, Bool.false_eq_true,
          ↓reduceIte]
        rw [filter_cons_of_neg (by simpa using hr), bodies_outside op? hf]
        exact hi none
      case some x =>
        simp only [ranked, Option.isSome_some, Bool.true_or, ↓reduceIte, Bool.true_and,
          filter_cons_of_pos, decide_true, map_cons]
        by_cases he : op? a = some .functionEnd
        case pos =>
          rw [bodies_finish op? he, bodies_finish op? he, he, bne_self_eq_false, hi none,
            Option.isSome_none]
        case neg =>
          have hb : (op? a != some .functionEnd) = true := by simpa using he
          rw [bodies_inside op? hf he, bodies_inside op? hf he, hb]
          exact hi (some (x.1, x.2 ++ [a]))

end

def FunctionRange.body (is : List Instruction) (r : FunctionRange) : Id × List Instruction :=
  (r.id, (is.drop r.first).take (r.last + 1 - r.first))

namespace FunctionScan

variable {s s' : FunctionScan} {i : Instruction}

inductive Moves (s : FunctionScan) (i : Instruction) (s' : FunctionScan) : Prop
  | start  : i.op? = some .function → s'.current = some (i.resultId?.getD 0, i.index) →
    s'.functions = s.functions →
    Moves s i s'
  | finish : i.op? = some .functionEnd → s.current = some (function, first) → s'.current = none →
    s'.functions = s.functions.push ⟨function, first, i.index⟩ → Moves s i s'
  | stay   : i.op? ≠ some .function → (i.op? = some .functionEnd → s.current = none) →
    s'.current = s.current →
    s'.functions = s.functions → Moves s i s'

theorem moves_of_step (h : s.step i = .ok s') : s.Moves i s' := by
  unfold step at h
  split at h
  case h_1 ho =>
    obtain ⟨id, hid, h⟩ := ok_of_bind h
    cases h
    refine .start ho ?_ rfl
    have hr : i.resultId? = i.word? 2 := by
      unfold Instruction.resultId? Instruction.outcome
      rw [ho]
      rfl
    simp [hr, Instruction.word?_of_word hid]
  case h_2 ho _ =>
    obtain ⟨_, _, h⟩ := ok_of_bind h
    cases h
    exact .stay (by simp [ho]) (by simp [ho]) rfl rfl
  case h_3 ho hc =>
    cases h
    exact .finish ho hc rfl rfl
  case h_4 hf _ he =>
    cases h
    refine .stay hf (fun ho => ?_) rfl rfl
    cases hc : s.current
    case none => rfl
    case some x => exact absurd hc (he x.1 x.2 ho)

theorem bodies_of_foldlM {all is : List Instruction} (before : List Instruction)
    (hl : before ++ is = all) (hx : ∀ k (i : Instruction), all[k]? = some i → i.index = k)
    (hc : ∀ x ∈ s.current, x.2 ≤ before.length) (h : is.foldlM step s = .ok s') :
    s'.functions.toList.map (·.body all) = s.functions.toList.map (·.body all)
      ++ bodies Instruction.op? (·.resultId?.getD 0) (s.current.map fun x => (x.1, before.drop x.2))
        is := by
  induction is generalizing before s
  case nil =>
    cases h
    simp [bodies]
  case cons i is hi =>
    rw [foldlM_cons] at h
    obtain ⟨s₁, h₁, h⟩ := ok_of_bind h
    have hidx : i.index = before.length := hx before.length i (by simp [← hl])
    have hl₁ : before ++ [i] ++ is = all := by simpa using hl
    -- What is open grows by the instruction.
    have hdrop {first : Nat} (hfirst : first ≤ before.length) :
        (before ++ [i]).drop first = before.drop first ++ [i] := drop_append_of_le_length hfirst
    cases moves_of_step h₁
    case start ho hcur hfun =>
      rw [hi _ hl₁ (by simp [hcur, hidx]) h, hfun, hcur, bodies_start Instruction.op? ho]
      simp [hidx, hdrop]
    case finish function first ho hcur hcur₁ hfun =>
      have hfirst : first ≤ before.length := hc _ hcur
      have hbody : FunctionRange.body all ⟨function, first, i.index⟩
          = (function, before.drop first ++ [i]) := by
        rw [FunctionRange.body, hidx, ← hl₁, drop_append_of_le_length (by simp; omega),
          hdrop hfirst]
        rw [take_left' (by simp; omega)]
      rw [hi _ hl₁ (by simp [hcur₁]) h, hfun, hcur₁, hcur, Option.map_some,
        bodies_finish Instruction.op? ho]
      simp [hbody]
    case stay hf he hcur hfun =>
      rw [hi _ hl₁ (fun x hx => (hc x (hcur ▸ hx)).trans (by simp)) h, hfun, hcur]
      cases hs : s.current
      case none => rw [Option.map_none, Option.map_none, bodies_outside Instruction.op? hf]
      case some x =>
        have hend : i.op? ≠ some .functionEnd := fun ho => by simp [he ho] at hs
        rw [Option.map_some, Option.map_some, bodies_inside Instruction.op? hf hend,
          hdrop (hc x hs)]

end FunctionScan

namespace Outline

variable {b : Binary} {o : Outline}

theorem functionBody_eq (h : ofBinary b = .ok o)
    (hx : ∀ k (i : Instruction), b.instructions[k]? = some i → i.index = k) (id : Id) :
    o.functionBody id
      = ((bodies Instruction.op? (·.resultId?.getD 0) none b.instructions.toList).find?
        (·.1 == id)).elim [] Prod.snd := by
  obtain ⟨rfl, hc⟩ := of_ofBinary h
  obtain ⟨s, hs, hfun⟩ := hc.functions
  have hbodies := FunctionScan.bodies_of_foldlM [] rfl (by simpa using hx) (by simp) hs
  simp only [map_nil, nil_append, Option.map_none] at hbodies
  have hfind : (s.functions.toList.map (·.body o.instructions.toList)).find? (·.1 == id)
      = (s.functions.toList.find? (·.id == id)).map (·.body o.instructions.toList) := find?_map ..
  rw [← hbodies, hfind, functionBody, hfun, ← Array.find?_toList]
  cases s.functions.toList.find? (·.id == id)
  case none => rfl
  case some => simp [FunctionRange.body]

end Outline
end Shader
