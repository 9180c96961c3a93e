import Shader.Proofs.Draft.Ledger
import Shader.Proofs.Effect

namespace Shader

open List

-- What a failure leaves: nothing that was held is gone, and more may be held that is never placed.
def Spilled (base : Opening) (held : List Definition) (d : Draft) : Prop :=
  ∃ lost, Ledger base d (lost ++ held)

theorem Ledger.spilled {base : Opening} {d : Draft} {held : List Definition}
    (h : Ledger base d held) :
    Spilled base held d :=
  ⟨[], h⟩

theorem Spilled.drop {base : Opening} {d : Draft} {new held : List Definition}
    (h : Spilled base (new ++ held) d) :
    Spilled base held d := by
  obtain ⟨lost, h⟩ := h
  exact ⟨lost ++ new, by simpa using h⟩

structure Statement.IsGlobal (s : Statement) : Prop extends s.WellFormed where
  belongs : s.BelongsTo .globals
  fits    : s.Fits

namespace Draft

variable {base : Opening} {d : Draft} {held : List Definition}

-- `d'` holds `new` on top of `held`, and has the code of `d`.
structure Grown (base : Opening) (held : List Definition) (d d' : Draft) (new : List Definition) :
    Prop where
  ledger    : Ledger base d' (new ++ held)
  functions : d'.functions = d.functions

theorem Grown.statement? {d' : Draft} {new : List Definition} (h : Grown base held d d' new)
    (p : Position) : d'.statement? p = d.statement? p := by
  simp [Draft.statement?, Draft.block?, h.functions]

theorem allocate_grows (h : Ledger base d held) :
    Leads allocate d (fun id d' => Grown base held d d' [(id, none)]) (Spilled base held) := by
  refine .bind <| .get ?_
  split
  case isTrue hb => exact .bind <| .set <| .pure ⟨h.allocate hb, rfl⟩
  case isFalse => exact .throw h.spilled

theorem allocateTyped_grows (type : Id) (h : Ledger base d held) :
    Leads (allocateTyped type) d (fun id d' => Grown base held d d' [(id, some type)])
      (Spilled base held) := by
  refine .bind <| (allocate_grows h).weaken fun id d' hd => ?_
  exact .bind <| .modify <| .pure ⟨hd.ledger.setType type, hd.functions⟩

theorem addGlobal_grows {op : Op} {type : Option Id} {operands : List Word} (h : Ledger base d held)
    (hs : ∀ id, (Statement.new op type (some id) operands).IsGlobal) :
    Leads (addGlobal op type operands) d (fun _ d' => Grown base held d d' [])
      (Spilled base held) := by
  refine .bind <| (allocate_grows h).weaken fun id d' hd => ?_
  refine .bind <| .modify <| .pure ⟨?_, ?_⟩
  case refine_1 =>
    have hl := Ledger.noteType (s := .new op type (some id) operands) hd.ledger
    rw [noteType_push]
    exact hl.push (hs id).toWellFormed (hs id).belongs (hs id).fits
  case refine_2 => cases type <;> exact hd.functions

theorem findOrAddGlobal_grows {op : Op} {type : Option Id} {operands : List Word}
    (h : Ledger base d held) (hs : ∀ id, (Statement.new op type (some id) operands).IsGlobal) :
    Leads (findOrAddGlobal op type operands) d (fun _ d' => Grown base held d d' [])
      (Spilled base held) := by
  refine .bind <| .get ?_
  split
  · exact .pure ⟨h, rfl⟩
  · exact addGlobal_grows h hs

theorem findGlobal?_spec {op : Op} {type : Option Id} {operands : List Word} {id : Id}
    (h : d.findGlobal? op type operands = some id) :
    ∃ t ∈ d.globals, { t with origin := none } = Statement.new op type (some id) operands := by
  have ⟨t, ht, hid⟩ := exists_of_findSome?_eq_some h
  simp only [Option.filter_eq_some_iff, Bool.and_eq_true, beq_iff_eq] at hid
  obtain ⟨hr, ⟨⟨ho, hty⟩, hops⟩, _⟩ := hid
  exact ⟨t, ht, by simp [Statement.new, hr, ho, hty, hops]⟩

theorem addCapabilityWord_grows (w : Word) (h : Ledger base d held) :
    Grown base held d (d.addCapabilityWord w) [] := by
  unfold addCapabilityWord
  split
  · exact ⟨h, rfl⟩
  · exact ⟨h.push (s := .new .capability none none [w]) (.new rfl rfl (show _ ≤ 2 by decide)) rfl
      (show 2 < _ by decide), rfl⟩

theorem isGlobal_new {op : Op} {type : Option Id} {operands : List Word} {id : Id}
    (ht : type.isSome = op.outcome.hasType) (hr : true = op.outcome.hasResult)
    (hl : op.leastLength ≤ 2 + type.toList.length + operands.length)
    (hf : 2 + type.toList.length + operands.length < 2 ^ 16)
    (hb : (Statement.new op type (some id) operands).BelongsTo .globals) :
    (Statement.new op type (some id) operands).IsGlobal := by
  have hlen : (Statement.new op type (some id) operands).length
      = 2 + type.toList.length + operands.length := by
    simp [Statement.length, Statement.new]; omega
  exact {
    toWellFormed := .new ht hr (hlen ▸ hl)
    belongs := hb
    fits := by rwa [Statement.Fits, hlen] }

theorem typeBool_grows (h : Ledger base d held) :
    Leads typeBool d (fun _ d' => Grown base held d d' []) (Spilled base held) :=
  findOrAddGlobal_grows h fun _ =>
    isGlobal_new rfl rfl (show _ ≤ 2 by decide) (show 2 < _ by decide) rfl

theorem typeInt_grows (width : Word) (signed : Bool) (h : Ledger base d held) :
    Leads (typeInt width signed) d (fun _ d' => Grown base held d d' []) (Spilled base held) := by
  have hs (id : Id) : (Statement.new .typeInt none (some id) [width, if signed then 1
      else 0]).IsGlobal :=
    isGlobal_new rfl rfl (show _ ≤ 4 by decide) (show 4 < _ by decide) rfl
  by_cases hw : width = 64
  case pos =>
    have hc := addCapabilityWord_grows (.ofNat Capability.int64.number) h
    simp only [typeInt, hw, ↓reduceIte] at hs ⊢
    refine .bind <| .modify ?_
    exact (findOrAddGlobal_grows hc.ledger hs).weaken fun id d' hd =>
      ⟨hd.ledger, hd.functions.trans hc.functions⟩
  case neg =>
    simp only [typeInt, hw, ↓reduceIte]
    exact findOrAddGlobal_grows h hs

theorem typeWord_grows (h : Ledger base d held) :
    Leads typeWord d (fun _ d' => Grown base held d d' []) (Spilled base held) :=
  typeInt_grows 32 false h

theorem constantWord_grows (value : Word) (h : Ledger base d held) :
    Leads (constantWord value) d (fun _ d' => Grown base held d d' []) (Spilled base held) := by
  refine .bind <| (typeWord_grows h).weaken fun type d' hd => ?_
  have hs (id : Id) : (Statement.new .constant (some type) (some id) [value]).IsGlobal :=
    isGlobal_new rfl rfl (show _ ≤ 4 by decide) (show 4 < _ by decide) rfl
  exact (findOrAddGlobal_grows hd.ledger hs).weaken fun id d'' h =>
    ⟨h.ledger, h.functions.trans hd.functions⟩

theorem constantNull_grows (type : Id) (h : Ledger base d held) :
    Leads (constantNull type) d (fun _ d' => Grown base held d d' []) (Spilled base held) :=
  findOrAddGlobal_grows h fun _ =>
    isGlobal_new rfl rfl (show _ ≤ 3 by decide) (show 3 < _ by decide) rfl

theorem mergedResult_grows (target : Statement) (h : Ledger base d held) :
    Leads (mergedResult target) d (fun m d' => MergedResult.Of target m
      ∧ Grown base held d d' (m.toList.flatMap MergedResult.defines)) (Spilled base held) := by
  unfold mergedResult
  split
  case h_1 type result ht hr =>
    refine .bind <| (allocateTyped_grows type h).weaken fun moved d₁ h₁ => ?_
    refine .bind <| (constantNull_grows type h₁.ledger).mono (fun null d₂ h₂ => ?_) fun _ => .drop
    exact .pure ⟨⟨ht, hr⟩, h₂.ledger, h₂.functions.trans h₁.functions⟩
  case h_2 => exact .pure ⟨trivial, h, rfl⟩

theorem guardStatement_keeps {p : Position} {test : List Statement} {condition : Id}
    (h : Ledger base d (test.flatMap Statement.defines ++ held)) (hs : ∀ s ∈ test, s.IsCode) :
    Leads (guardStatement p test condition) d (fun _ d' => Ledger base d' held)
      (Spilled base held) := by
  refine .bind <| .get ?_
  split
  case h_2 => exact .throw h.spilled.drop
  case h_1 target ht =>
    refine .bind <| (mergedResult_grows target h).mono (fun m d₁ ⟨hm, h₁⟩ => ?_) fun _ => .drop
    refine .bind <| (allocate_grows h₁.ledger).mono (fun valid d₂ h₂ => ?_) fun _ => .drop ∘ .drop
    refine .bind <| (allocate_grows h₂.ledger).mono (fun invalid d₃ h₃ => ?_)
      fun _ => .drop ∘ .drop ∘ .drop
    refine .bind <| (allocate_grows h₃.ledger).mono (fun merge d₄ h₄ => ?_)
      fun _ => .drop ∘ .drop ∘ .drop ∘ .drop
    refine .bind <| .modify <| .pure ?_
    have hat : d₄.statement? p = some target := by
      rw [h₄.statement?, h₃.statement?, h₂.statement?, h₁.statement?, ht]
    refine Ledger.guard (h₄.ledger.perm ?_) hat hm hs
    refine perm_iff_count.mpr fun x => ?_
    simp [guardDefines, GuardLabels.defines, count_cons]
    omega

end Draft
end Shader
