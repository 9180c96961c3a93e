import Shader.Proofs.Stream.Framing

namespace Shader

open List

abbrev Frame := List Word

namespace Frame

variable {f : Frame}

def op? (f : Frame) : Option Op :=
  Op.ofNumber? (f.headD 0).low

def resultId? (f : Frame) : Option Id :=
  f.op?.bind fun op => if op.outcome.hasResult then f[1 + op.outcome.hasType.toNat]? else none

structure Complete (f : Frame) : Prop where
  length : (f.headD 0).high = f.length
  pos    : 1 ≤ f.length
  least  : ∀ op ∈ f.op?, op.leastLength ≤ f.length

instance : Decidable f.Complete :=
  decidable_of_iff ((f.headD 0).high = f.length ∧ 1 ≤ f.length
    ∧ ∀ op ∈ f.op?, op.leastLength ≤ f.length)
    ⟨fun ⟨hl, hp, hm⟩ => ⟨hl, hp, hm⟩, fun ⟨hl, hp, hm⟩ => ⟨hl, hp, hm⟩⟩

theorem resultId?_instruction (index offset : Nat) (f : Frame) :
    Instruction.resultId? ⟨index, offset, f⟩ = f.resultId? := by
  unfold Instruction.resultId? Instruction.outcome resultId?
  rw [show Instruction.op? ⟨index, offset, f⟩ = f.op? from rfl]
  cases f.op?
  case none => rfl
  case some op =>
    cases ho : op.outcome <;> simp [ho, Outcome.hasResult, Outcome.hasType, Instruction.word?]

theorem Complete.exists_cons (h : f.Complete) :
    ∃ w rest, f = w :: rest ∧ w.high = rest.length + 1 := by
  cases f
  case nil => exact absurd h.pos (by simp)
  case cons w rest => exact ⟨w, rest, rfl, by simpa using h.length⟩

end Frame

structure Framing (words : List Word) (frames : List Frame) : Prop where
  length   : Header.length ≤ words.length
  magic    : words[0]? = some Header.magicNumber
  reserved : ∀ version ∈ words[1]?, version.byte 0 = 0 ∧ version.byte 3 = 0
  split    : words.drop Header.length = frames.flatten
  complete : ∀ f ∈ frames, f.Complete
  below    : ∀ f ∈ frames, ∀ id ∈ f.resultId?, ∀ bound ∈ words[3]?, id < bound
  nodup    : (frames.filterMap Frame.resultId?).Nodup

namespace Binary

structure Records (b : Binary) (words : List Word) (frames : List Frame) : Prop where
  header       : b.header.words = words.take Header.length
  words        : b.words = words
  instructions : b.instructions.toList.map Instruction.words = frames
  place        : ∀ k i, b.instructions[k]? = some i →
    i.index = k ∧ i.offset = Header.length + (frames.take k).flatten.length
  definitions  : ∀ id k, b.definitions[id]? = some k ↔
    ∃ i : Instruction, b.instructions[k]? = some i ∧ i.resultId? = some id

def placed (index offset : Nat) : List Frame → List Instruction
  | [] => []
  | f :: frames => ⟨index, offset, f⟩ :: placed (index + 1) (offset + f.length) frames

theorem map_words_placed (index offset : Nat) (frames : List Frame) :
    (placed index offset frames).map Instruction.words = frames := by
  induction frames generalizing index offset
  case nil => rfl
  case cons f frames hi => simp [placed, hi]

theorem getElem?_placed (index offset k : Nat) {frames : List Frame} {i : Instruction}
    (h : (placed index offset frames)[k]? = some i) :
    i.index = index + k ∧ i.offset = offset + (frames.take k).flatten.length := by
  induction frames generalizing index offset k
  case nil => simp [placed] at h
  case cons f frames hi =>
    cases k
    case zero =>
      obtain rfl : ⟨index, offset, f⟩ = i := by simpa [placed] using h
      simp
    case succ k =>
      have ⟨hk, ho⟩ := hi (index + 1) (offset + f.length) k (by simpa [placed] using h)
      simp only [take_succ_cons, flatten_cons, length_append]
      omega

namespace Accepted

variable {a : Accepted} {bound : Word}

def Indexed (a : Accepted) : Prop :=
  ∀ id k, a.definitions[id]? = some k ↔ ∃ i : Instruction, a.instructions[k]? = some i
    ∧ i.resultId? = some id

theorem Indexed.withInstruction (h : a.Indexed) {i : Instruction}
    (hi : ∀ id ∈ i.resultId?, a.definitions[id]? = none) : (a.withInstruction i).Indexed := by
  intro id k
  have hpush : (∃ j : Instruction, (a.instructions.push i)[k]? = some j ∧ j.resultId? = some id)
      ↔ (∃ j : Instruction, a.instructions[k]? = some j ∧ j.resultId? = some id)
        ∨ k = a.instructions.size ∧ i.resultId? = some id := by
    rw [Array.getElem?_push]
    split
    case isTrue hk => simp [hk]
    case isFalse hk => simp [hk]
  rw [Accepted.withInstruction, hpush, ← h id k]
  cases hr : i.resultId?
  case none => simp
  case some r =>
    have hn := hi r hr
    by_cases heq : r = id
    case pos =>
      subst heq
      simp [hn, eq_comm]
    case neg => simp [Std.TreeMap.getElem?_insert, heq]

end Accepted

section

variable {bound : Word} {a a' : Accepted} {words : List Word} {frames : List Frame}

theorem readFrom_of_accepts {offset : Nat} {w : Word} {rest : List Word}
    (ha : a.Accepts bound offset w rest) :
    readFrom bound 0 offset (w :: rest) a
      = readFrom bound 0 (offset + w.high) (rest.drop (w.high - 1))
        (a.withInstruction (a.next offset w rest)) := by
  have hpos := ha.pos
  have hfits := ha.fits
  have hlen : (rest.take (w.high - 1)).length = w.high - 1 := by
    rw [length_take]
    omega
  have hskip := readFrom_skip bound (offset + 1) (a.withInstruction (a.next offset w rest))
    (rest.take (w.high - 1))
    (rest.drop (w.high - 1))
  rw [hlen, take_append_drop] at hskip
  simp only [readFrom, Accepted.push_eq_ok_iff.mpr ⟨ha, rfl⟩, bind, Except.bind, hskip]
  rw [show offset + 1 + (w.high - 1) = offset + w.high by omega]

theorem readFrom_cons_eq_ok_iff {offset : Nat} {w : Word} {rest : List Word} :
    readFrom bound 0 offset (w :: rest) a = .ok a' ↔ a.Accepts bound offset w rest
      ∧ readFrom bound 0 (offset + w.high) (rest.drop (w.high - 1))
        (a.withInstruction (a.next offset w rest))
        = .ok a' := by
  by_cases ha : a.Accepts bound offset w rest
  case pos => rw [readFrom_of_accepts ha, and_iff_right ha]
  case neg =>
    simp only [ha, false_and, iff_false]
    intro h
    obtain ⟨a₁, hp, _⟩ := ok_of_bind h
    exact ha (Accepted.push_eq_ok_iff.mp hp).left

theorem accepts_iff {offset : Nat} {w : Word} {rest : List Word} : a.Accepts bound offset w rest ↔
    w.high ≤ rest.length + 1 ∧ Frame.Complete (w :: rest.take (w.high - 1))
      ∧ ∀ id ∈ Frame.resultId? (w :: rest.take (w.high - 1)), id < bound
      ∧ a.definitions[id]? = none := by
  have hop : Frame.op? (w :: rest.take (w.high - 1)) = Op.ofNumber? w.low := rfl
  have hid : (a.next offset w rest).resultId? = Frame.resultId? (w :: rest.take (w.high - 1)) :=
    Frame.resultId?_instruction _ _ _
  constructor
  case mp =>
    intro h
    have hpos := h.pos
    have hfits := h.fits
    have hlen : (w :: rest.take (w.high - 1)).length = w.high := by
      rw [length_cons, length_take]
      omega
    refine ⟨hfits, ⟨hlen.symm, by omega, fun op ho => ?_⟩, hid ▸ h.result⟩
    have hl := h.least
    rw [hop] at ho
    rwa [ho, Option.elim_some, ← hlen] at hl
  case mpr =>
    rintro ⟨hfits, hc, hr⟩
    have hlen : w.high = (w :: rest.take (w.high - 1)).length := hc.length
    have hpos := hc.pos
    refine ⟨by omega, hfits, ?_, hid ▸ hr⟩
    cases ho : Op.ofNumber? w.low
    case none => exact hlen ▸ hc.pos
    case some op => exact hlen ▸ hc.least op (hop.trans ho)

structure Continues (a : Accepted) (bound : Word) (words : List Word) (frames : List Frame) :
    Prop where
  split    : words = frames.flatten
  complete : ∀ f ∈ frames, f.Complete
  below    : ∀ f ∈ frames, ∀ id ∈ f.resultId?, id < bound
  nodup    : (a.ids ++ frames.filterMap Frame.resultId?).Nodup

theorem ids_withInstruction_append (a : Accepted) (index offset : Nat) (f : Frame)
    (frames : List Frame) :
    (a.withInstruction ⟨index, offset, f⟩).ids ++ frames.filterMap Frame.resultId?
      = a.ids ++ (f :: frames).filterMap Frame.resultId? := by
  rw [Accepted.ids_withInstruction, Frame.resultId?_instruction]
  cases hr : f.resultId? <;> simp [hr]

theorem continues_of_readFrom {offset : Nat} (hv : a.Valid bound)
    (h : readFrom bound 0 offset words a = .ok a') :
    ∃ frames, Continues a bound words frames := by
  -- What follows one instruction is shorter, but it is not the tail of the list.
  induction hn : words.length using Nat.strong_induction_on generalizing words offset a
  case h n hi =>
    cases words
    case nil => exact ⟨[], rfl, by simp, by simp, by simpa using hv.nodup⟩
    case cons w rest =>
      obtain ⟨ha, hrest⟩ := readFrom_cons_eq_ok_iff.mp h
      have hlt : (rest.drop (w.high - 1)).length < n := by
        rw [← hn, length_drop, length_cons]
        omega
      obtain ⟨frames, hc⟩ := hi _ hlt (hv.withInstruction ha) hrest rfl
      obtain ⟨_, hf, hr⟩ := accepts_iff.mp ha
      refine ⟨(w :: rest.take (w.high - 1)) :: frames, ?_, ?_, ?_, ?_⟩
      · rw [flatten_cons, ← hc.split, cons_append, take_append_drop]
      · exact forall_mem_cons.mpr ⟨hf, hc.complete⟩
      · exact forall_mem_cons.mpr ⟨fun id hid => (hr id hid).left, hc.below⟩
      · have hnodup := hc.nodup
        rwa [Accepted.next, ids_withInstruction_append] at hnodup

theorem Continues.readFrom (offset : Nat) (h : Continues a bound words frames)
    (hv : a.Valid bound) :
    readFrom bound 0 offset words a
      = .ok ((placed a.instructions.size offset frames).foldl Accepted.withInstruction a) := by
  induction frames generalizing words offset a
  case nil =>
    obtain rfl : words = [] := h.split
    rfl
  case cons f frames hi =>
    obtain ⟨hf, hcomplete⟩ := forall_mem_cons.mp h.complete
    obtain ⟨hbf, hbelow⟩ := forall_mem_cons.mp h.below
    obtain ⟨w, tail, rfl, hw⟩ := hf.exists_cons
    have htake : (tail ++ frames.flatten).take (w.high - 1) = tail := take_left' (by omega)
    have hdrop : (tail ++ frames.flatten).drop (w.high - 1) = frames.flatten :=
      drop_left' (by omega)
    -- The ids of the frames are distinct from those read so far.
    have hfresh : ∀ id ∈ Frame.resultId? (w :: tail), a.definitions[id]? = none := by
      intro id hid
      have hd := (nodup_append.mp h.nodup).right.right
      refine Std.TreeMap.getElem?_eq_none fun ha => ?_
      exact hd id ((hv.table id).mp ha) id (mem_filterMap.mpr ⟨_, mem_cons_self, hid⟩) rfl
    have ha : a.Accepts bound offset w (tail ++ frames.flatten) := by
      rw [accepts_iff, htake, length_append]
      exact ⟨by omega, hf, fun id hid => ⟨hbf id hid, hfresh id hid⟩⟩
    have hnext : a.next offset w (tail ++ frames.flatten)
        = ⟨a.instructions.size, offset, w :: tail⟩ := by
      rw [Accepted.next, htake]
    have hv' := hv.withInstruction ha
    rw [hnext] at hv'
    have hc : Continues (a.withInstruction ⟨a.instructions.size, offset, w :: tail⟩) bound
        frames.flatten frames :=
      ⟨rfl, hcomplete, hbelow, by rw [ids_withInstruction_append]; exact h.nodup⟩
    have hrest := hi (offset + w.high) hc hv'
    rw [h.split, flatten_cons, cons_append]
    refine readFrom_cons_eq_ok_iff.mpr ⟨ha, ?_⟩
    rw [hnext, hdrop, hrest]
    simp [placed, hw, Accepted.withInstruction]

theorem toList_foldl_withInstruction (is : List Instruction) (a : Accepted) :
    (is.foldl Accepted.withInstruction a).instructions.toList = a.instructions.toList ++ is := by
  induction is generalizing a
  case nil => simp
  case cons i is hi => simp [hi, Accepted.withInstruction]

theorem readFrom_indexed {skip offset : Nat} (hx : a.Indexed)
    (h : readFrom bound skip offset words a = .ok a') :
    a'.Indexed := by
  induction words generalizing skip offset a
  case nil => cases skip <;> cases h <;> exact hx
  case cons w rest hi =>
    cases skip
    case succ skip => exact hi hx h
    case zero =>
      have ⟨a₁, hp, h⟩ := ok_of_bind h
      obtain ⟨ha, rfl⟩ := Accepted.push_eq_ok_iff.mp hp
      exact hi (hx.withInstruction fun id hid => (ha.result id hid).right) h

end
end Binary

theorem Word.ofBytes_byte (w : Word) : ofBytes (w.byte 0) (w.byte 1) (w.byte 2) (w.byte 3) = w := by
  have hw := w.toNat_lt
  rw [← UInt32.toNat_inj, ofBytes]
  simp only [byte, UInt8.toNat_ofNat', Nat.shiftRight_eq_div_pow]
  rw [UInt32.toNat_ofNat_of_lt' (by simp [UInt32.size]; omega)]
  omega

namespace Header

variable {words : List Word} {h : Header}

theorem word_version {v : Word} (h₀ : v.byte 0 = 0) (h₃ : v.byte 3 = 0) :
    Version.word ⟨v.byte 2, v.byte 1⟩ = v := by
  conv => rhs; rw [← v.ofBytes_byte, h₀, h₃]
  rfl

theorem words_of_read? (hr : read? words = some h) : h.words = words.take length
    ∧ length ≤ words.length ∧ words[0]? = some magicNumber
    ∧ ∀ version ∈ words[1]?, version.byte 0 = 0 ∧ version.byte 3 = 0 := by
  unfold read? at hr
  split at hr
  case h_2 => cases hr
  case h_1 magic version generator bound schema rest =>
    split at hr
    case isFalse => cases hr
    case isTrue hv =>
      obtain ⟨rfl, h₀, h₃⟩ := hv
      cases hr
      simp [Header.words, length, word_version h₀ h₃, h₀, h₃]

theorem exists_read? (hl : length ≤ words.length) (hm : words[0]? = some magicNumber)
    (hv : ∀ version ∈ words[1]?, version.byte 0 = 0 ∧ version.byte 3 = 0) :
    ∃ h, read? words = some h := by
  match words, hl with
  | magic :: version :: generator :: bound :: schema :: rest, _ =>
    obtain rfl : magic = magicNumber := by simpa using hm
    exact ⟨_, if_pos ⟨rfl, hv version rfl⟩⟩

theorem bound_of_words (hw : h.words = words.take length) : words[3]? = some h.bound := by
  have h₃ := congrArg (·[3]?) hw
  simpa [Header.words, length] using h₃.symm

end Header

namespace Binary

variable {words : List Word} {frames : List Frame} {b : Binary}

theorem framing_of_read (h : read words = .ok b) : ∃ frames, Framing words frames := by
  unfold read at h
  split at h
  case h_2 => cases h
  case h_1 header hr =>
    have ⟨a, ha, _⟩ := ok_of_bind h
    have ⟨hw, hl, hm, hv⟩ := Header.words_of_read? hr
    have ⟨frames, hc⟩ := continues_of_readFrom .empty ha
    refine ⟨frames, hl, hm, hv, hc.split, hc.complete, fun f hf id hid bound hb => ?_, hc.nodup⟩
    rw [Header.bound_of_words hw] at hb
    exact Option.some.inj hb ▸ hc.below f hf id hid

theorem records_of_framing (h : Framing words frames) :
    ∃ b, read words = .ok b ∧ b.Records words frames := by
  obtain ⟨header, hr⟩ := Header.exists_read? h.length h.magic h.reserved
  have hw := (Header.words_of_read? hr).left
  have hbound := Header.bound_of_words hw
  have hc : Continues {} header.bound (words.drop Header.length) frames :=
    ⟨h.split, h.complete, fun f hf id hid => h.below f hf id hid _ hbound, h.nodup⟩
  have hread := hc.readFrom Header.length .empty
  have hlist := toList_foldl_withInstruction (placed 0 Header.length frames) {}
  have hindexed := readFrom_indexed (by intro id k; simp) hread
  generalize (placed 0 Header.length frames).foldl Accepted.withInstruction {}
    = a at hread hlist hindexed
  refine ⟨⟨header, words, a.instructions, a.definitions⟩, ?_, hw, rfl, ?_, ?_, hindexed⟩
  · simp [read, hr, bind, Except.bind, hread, pure, Except.pure]
  · rw [hlist]
    exact map_words_placed ..
  · intro k i hk
    rw [← Array.getElem?_toList, hlist] at hk
    simpa using getElem?_placed 0 Header.length k hk

theorem records_of_read (h : read words = .ok b) : ∃ frames, b.Records words frames := by
  obtain ⟨frames, hf⟩ := framing_of_read h
  obtain ⟨b', hb', hr⟩ := records_of_framing hf
  cases h.symm.trans hb'
  exact ⟨frames, hr⟩

theorem read_iff_framing (words : List Word) :
    ((∃ b, read words = .ok b) ↔ ∃ frames, Framing words frames)
      ∧ ∀ b frames, read words = .ok b → Framing words frames → b.Records words frames := by
  refine ⟨⟨fun ⟨_, h⟩ => framing_of_read h, fun ⟨_, h⟩ => ?_⟩, fun b frames hb h => ?_⟩
  · obtain ⟨b, hb, _⟩ := records_of_framing h
    exact ⟨b, hb⟩
  · obtain ⟨b', hb', hr⟩ := records_of_framing h
    cases hb.symm.trans hb'
    exact hr

-- Two types, and an instruction with an unknown opcode.
def unknownLast : List Word :=
  [Header.magicNumber, 0x00010300, 0, 3, 0, 0x00020013, 1, 0x00030021, 2, 1, 0x0001ffff]

theorem read_iff_framing_unknownLast : ∃ b, read unknownLast = .ok b
    ∧ b.Records unknownLast [[0x00020013, 1], [0x00030021, 2, 1], [0x0001ffff]] := by
  have hids : [[0x00020013, 1], [0x00030021, 2, 1], [0x0001ffff]].filterMap Frame.resultId?
      = [1, 2] := by
    decide +kernel
  have hf : Framing unknownLast [[0x00020013, 1], [0x00030021, 2, 1], [0x0001ffff]] := by
    refine ⟨by decide, by decide, ?_, by decide, by decide +kernel, ?_, by rw [hids]; decide⟩
    · rintro version ⟨⟩
      decide
    · rintro f hf id hid bound ⟨⟩
      have hm := hids ▸ mem_filterMap.mpr ⟨f, hf, hid⟩
      simp only [mem_cons, not_mem_nil, or_false] at hm
      obtain rfl | rfl := hm <;> decide
  have ⟨b, hb⟩ := (read_iff_framing unknownLast).left.mpr ⟨_, hf⟩
  exact ⟨b, hb, (read_iff_framing unknownLast).right b _ hb hf⟩

end Binary
end Shader
