import Mathlib
import Shader.Draft.Statement
import Shader.Stream.Binary

namespace Shader

open List

theorem ok_of_bind {ε α β : Type} {x : Except ε α} {f : α → Except ε β} {b : β}
    (h : x >>= f = .ok b) : ∃ a, x = .ok a ∧ f a = .ok b := by
  cases x
  case error => cases h
  case ok a => exact ⟨a, rfl, h⟩

theorem ok_of_mapError {ε ε' α : Type} {x : Except ε α} {g : ε → ε'} {a : α}
    (h : x.mapError g = .ok a) : x = .ok a := by
  cases x
  case error => simp [Except.mapError] at h
  case ok => simpa [Except.mapError] using h

theorem error_of_map {ε α β : Type} {x : Except ε α} {f : α → β} {e : ε}
    (h : x.map f = .error e) : x = .error e := by
  cases x
  case error => exact congrArg Except.error (Except.error.inj h)
  case ok => cases h

theorem exists_ok_of_decide {ε α : Type} {x : Except ε α} {p : α → Prop} [DecidablePred p]
    (h : (x.map fun a => decide (p a)) = .ok true) : ∃ a, x = .ok a ∧ p a := by
  cases x
  case error => cases h
  case ok a => exact ⟨a, rfl, of_decide_eq_true (Except.ok.inj h)⟩

theorem exists_of_mem_forall₂ {α β : Type} {R : α → β → Prop} {as : List α} {bs : List β}
    (h : Forall₂ R as bs) {b : β} (hb : b ∈ bs) : ∃ a ∈ as, R a b := by
  induction h
  case nil => simp at hb
  case cons hr _ hi =>
    obtain rfl | hb := mem_cons.mp hb
    · exact ⟨_, mem_cons_self, hr⟩
    · obtain ⟨a, ha, hr⟩ := hi hb
      exact ⟨a, mem_cons_of_mem _ ha, hr⟩

namespace Word

theorem low_ofHalves {h l : Nat} (hh : h < 2 ^ 16) (hl : l < 2 ^ 16) : (ofHalves h l).low = l := by
  rw [ofHalves, low, UInt32.toNat_ofNat_of_lt' (by simp [UInt32.size]; omega)]
  omega

theorem high_ofHalves {h l : Nat} (hh : h < 2 ^ 16) (hl : l < 2 ^ 16) :
    (ofHalves h l).high = h := by
  rw [ofHalves, high, UInt32.toNat_ofNat_of_lt' (by simp [UInt32.size]; omega)]
  omega

theorem high_lt (w : Word) : w.high < 2 ^ 16 := by
  have := w.toNat_lt
  unfold high
  omega

theorem byte_ofBytes (b₀ b₁ b₂ b₃ : UInt8) : (ofBytes b₀ b₁ b₂ b₃).bytes = [b₀, b₁, b₂, b₃] := by
  have h₀ := b₀.toNat_lt
  have h₁ := b₁.toNat_lt
  have h₂ := b₂.toNat_lt
  have h₃ := b₃.toNat_lt
  have hw : (ofBytes b₀ b₁ b₂ b₃).toNat
      = b₀.toNat + 2 ^ 8 * b₁.toNat + 2 ^ 16 * b₂.toNat + 2 ^ 24 * b₃.toNat :=
    UInt32.toNat_ofNat_of_lt' (by simp [UInt32.size]; omega)
  simp only [bytes, byte, hw, cons.injEq, and_true, ← UInt8.toNat_inj, UInt8.toNat_ofNat']
  omega

end Word

namespace Instruction

structure Framed (i : Instruction) : Prop where
  length : (i.words.headD 0).high = i.length
  pos    : 0 < i.length
  least  : i.op?.elim 1 Op.leastLength ≤ i.length

end Instruction

namespace Binary

namespace Accepted

variable {a a' : Accepted} {bound w : Word} {offset : Nat} {rest : List Word}

def next (a : Accepted) (offset : Nat) (w : Word) (rest : List Word) : Instruction :=
  ⟨a.instructions.size, offset, w :: rest.take (w.high - 1)⟩

def withInstruction (a : Accepted) (i : Instruction) : Accepted where
  instructions := a.instructions.push i
  definitions := i.resultId?.elim a.definitions (a.definitions.insert · a.instructions.size)

theorem define_eq_ok_iff {id : Id} : a.define bound id = .ok a' ↔
    (id < bound ∧ a.definitions[id]? = none)
      ∧ a' = { a with definitions := a.definitions.insert id a.instructions.size } := by
  unfold define
  split
  case isTrue h => simpa using fun hid => absurd hid (UInt32.not_lt.mpr h)
  case isFalse h =>
    split
    case h_1 hd => simp [hd]
    case h_2 hd => simp [UInt32.not_le.mp h, hd, eq_comm]

structure Accepts (a : Accepted) (bound : Word) (offset : Nat) (w : Word) (rest : List Word) :
    Prop where
  pos    : w.high ≠ 0
  fits   : w.high ≤ rest.length + 1
  least  : (Op.ofNumber? w.low).elim 1 Op.leastLength ≤ w.high
  result : ∀ id ∈ (a.next offset w rest).resultId?, id < bound ∧ a.definitions[id]? = none

theorem push_eq_ok_iff : a.push bound offset w rest = .ok a' ↔
    a.Accepts bound offset w rest ∧ a' = a.withInstruction (a.next offset w rest) := by
  by_cases h₀ : w.high = 0
  case pos =>
    simp only [push, h₀, bind, Except.bind, ↓reduceIte, reduceCtorEq, false_iff]
    exact fun h => h.left.pos h₀
  by_cases h₁ : rest.length + 1 < w.high
  case pos =>
    simp only [push, h₀, h₁, bind, Except.bind, ↓reduceIte, reduceCtorEq, false_iff]
    exact fun h => absurd h.left.fits (Nat.not_le.mpr h₁)
  by_cases h₂ : w.high < (Op.ofNumber? w.low).elim 1 Op.leastLength
  case pos =>
    simp only [push, h₀, h₁, h₂, bind, Except.bind, ↓reduceIte, reduceCtorEq, false_iff]
    exact fun h => absurd h.left.least (Nat.not_le.mpr h₂)
  have hacc : a.Accepts bound offset w rest ↔
      ∀ id ∈ (a.next offset w rest).resultId?, id < bound ∧ a.definitions[id]? = none :=
    ⟨Accepts.result, fun h => ⟨h₀, by omega, by omega, h⟩⟩
  have hnext : ⟨a.instructions.size, offset, w :: rest.take (w.high - 1)⟩ = a.next offset w rest :=
    rfl
  simp only [push, h₀, h₁, h₂, bind, Except.bind, ↓reduceIte, hacc, hnext]
  cases hr : (a.next offset w rest).resultId?
  case none => simp [pure, Except.pure, withInstruction, hr, eq_comm]
  case some id =>
    simp only [Option.mem_def, Option.some.injEq, forall_eq', withInstruction, hr, Option.elim_some]
    cases hd : a.define bound id
    case ok v =>
      obtain ⟨h, rfl⟩ := define_eq_ok_iff.mp hd
      simp [h, pure, Except.pure, eq_comm]
    case error =>
      simp only [reduceCtorEq, false_iff]
      intro h
      simp [define_eq_ok_iff.mpr ⟨h.left, rfl⟩] at hd

def ids (a : Accepted) : List Id :=
  a.instructions.toList.filterMap Instruction.resultId?

theorem ids_withInstruction (a : Accepted) (i : Instruction) :
    (a.withInstruction i).ids = a.ids ++ i.resultId?.toList := by
  cases h : i.resultId? <;> simp [ids, withInstruction, h]

theorem mem_definitions_withInstruction (a : Accepted) (i : Instruction) (id : Id) :
    id ∈ (a.withInstruction i).definitions ↔ id ∈ a.definitions ∨ id ∈ i.resultId?.toList := by
  cases h : i.resultId? <;> simp [withInstruction, h, or_comm, eq_comm (a := id)]

structure Valid (a : Accepted) (bound : Word) : Prop where
  framed : ∀ i ∈ a.instructions.toList, i.Framed
  nodup  : a.ids.Nodup
  below  : ∀ id ∈ a.ids, id < bound
  table  : ∀ id, id ∈ a.definitions ↔ id ∈ a.ids

theorem Valid.empty : Valid {} bound :=
  ⟨by simp, by simp [ids], by simp [ids], by simp [ids]⟩

theorem Accepts.framed (h : a.Accepts bound offset w rest) : (a.next offset w rest).Framed := by
  have hpos := h.pos
  have hfits := h.fits
  have hl : (a.next offset w rest).length = w.high := by
    simp [next, Instruction.length]
    omega
  exact ⟨hl.symm, hl ▸ Nat.pos_of_ne_zero hpos, hl ▸ h.least⟩

theorem Valid.withInstruction (hv : a.Valid bound) (h : a.Accepts bound offset w rest) :
    (a.withInstruction (a.next offset w rest)).Valid bound where
  framed := by
    simp only [Accepted.withInstruction, Array.toList_push, mem_append, mem_singleton]
    rintro i (hi | rfl)
    · exact hv.framed i hi
    · exact h.framed
  nodup := by
    rw [ids_withInstruction]
    cases hr : (a.next offset w rest).resultId?
    case none => simpa using hv.nodup
    case some id =>
      have hid : id ∉ a.ids := by
        rw [← hv.table, Std.TreeMap.mem_iff_isSome_getElem?, (h.result id hr).right]
        simp
      simpa [nodup_append] using ⟨hv.nodup, fun _ hc heq => hid (heq ▸ hc)⟩
  below := by
    simp only [ids_withInstruction, mem_append, Option.mem_toList]
    rintro id (hid | hid)
    · exact hv.below id hid
    · exact (h.result id hid).left
  table id := by
    rw [mem_definitions_withInstruction, ids_withInstruction, mem_append, hv.table]

end Accepted

theorem readFrom_skip (bound : Word) (offset : Nat) (a : Accepted) (skipped rest : List Word) :
    readFrom bound skipped.length offset (skipped ++ rest) a
      = readFrom bound 0 (offset + skipped.length) rest a := by
  induction skipped generalizing offset
  case nil => rfl
  case cons w skipped hi => simpa [readFrom, Nat.add_assoc, Nat.add_comm 1] using hi (offset + 1)

theorem readFrom_valid {bound : Word} {skip offset : Nat} {words : List Word} {a a' : Accepted}
    (hv : a.Valid bound) (h : readFrom bound skip offset words a = .ok a') : a'.Valid bound := by
  induction words generalizing skip offset a
  case nil => cases skip <;> cases h <;> exact hv
  case cons w rest hi =>
    cases skip
    case succ skip => exact hi hv h
    case zero =>
      have ⟨_, hp, h⟩ := ok_of_bind h
      obtain ⟨ha, rfl⟩ := Accepted.push_eq_ok_iff.mp hp
      exact hi (hv.withInstruction ha) h

def ids (b : Binary) : List Id :=
  b.instructions.toList.filterMap Instruction.resultId?

structure Valid (b : Binary) : Prop where
  framed : ∀ i ∈ b.instructions.toList, i.Framed
  nodup  : b.ids.Nodup
  below  : ∀ id ∈ b.ids, id < b.header.bound

theorem read_valid {words : List Word} {b : Binary} (h : read words = .ok b) : b.Valid := by
  simp only [read, bind, Except.bind] at h
  split at h
  case h_2 => cases h
  case h_1 header _ =>
    split at h
    case h_1 => cases h
    case h_2 a ha =>
      cases h
      have hv : a.Valid header.bound := readFrom_valid .empty ha
      exact ⟨hv.framed, hv.nodup, hv.below⟩

end Binary
end Shader
