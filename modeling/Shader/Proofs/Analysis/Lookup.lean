import Shader.Proofs.Analysis.Analysed

namespace Shader

open List

section

variable {p : Nat → Bool} {k : Nat}

theorem lt_partitionPoint_go_iff {steps low high : Nat} (hp : ∀ i j, i ≤ j → p j → p i)
    (hlow : ∀ j < low, p j) (hhigh : ∀ j, high ≤ j → ¬p j) (hs : high - low ≤ steps) :
    k < partitionPoint.go p steps low high ↔ p k := by
  have hmet {low high : Nat} (hlow : ∀ j < low, p j) (hhigh : ∀ j, high ≤ j → ¬p j)
      (hle : high ≤ low) :
      k < low ↔ p k := by
    refine ⟨hlow k, fun hk => ?_⟩
    by_contra hlt
    exact hhigh k (by omega) hk
  induction steps generalizing low high
  case zero =>
    rw [partitionPoint.go]
    exact hmet hlow hhigh (by omega)
  case succ steps hi =>
    simp only [partitionPoint.go]
    split
    case isFalse => exact hmet hlow hhigh (by omega)
    case isTrue =>
      split
      case isTrue hm => exact hi (fun j hj => hp j _ (by omega) hm) hhigh (by omega)
      case isFalse hm => exact hi hlow (fun j hj hpj => hm (hp _ j hj hpj)) (by omega)

theorem lt_partitionPoint_iff {α : Type} {xs : Array α} {q : α → Prop} [DecidablePred q]
    (hq : ∀ (j k : Nat) a b, j < k → xs[j]? = some a → xs[k]? = some b → q b → q a) :
    k < partitionPoint (fun k => (xs[k]?).any (q ·)) xs.size ↔ ∃ a, xs[k]? = some a ∧ q a := by
  have hany {k : Nat} : (xs[k]?).any (q ·) = true ↔ ∃ a, xs[k]? = some a ∧ q a := by
    simp only [Option.any_eq_true, decide_eq_true_eq]
  refine (lt_partitionPoint_go_iff (fun i j hle hj => ?_) (by simp) (fun j hj => ?_)
    (by simp)).trans hany
  · obtain ⟨b, hb, hqb⟩ := hany.mp hj
    obtain hlt | rfl := Nat.lt_or_eq_of_le hle
    · have ha := Array.getElem?_eq_getElem (Nat.lt_trans hlt (Array.getElem?_eq_some_iff.mp hb).1)
      exact hany.mpr ⟨_, ha, hq i j _ b hlt ha hb hqb⟩
    · exact hj
  · rw [Array.getElem?_eq_none hj]
    simp

end

-- A function reaches from where it is opened to the next place where one is opened or closed, and
-- is closed there.
structure FunctionRange.Delimits (r : FunctionRange) (is : List Instruction) : Prop where
  lt      : r.first < r.last
  opened  : ∃ i : Instruction, is[r.first]? = some i ∧ i.op? = some .function
    ∧ i.resultId? = some r.id
  closed  : ∃ i : Instruction, is[r.last]? = some i ∧ i.op? = some .functionEnd
  between : ∀ k i, r.first < k → k < r.last → is[k]? = some i → i.op? ≠ some .function
    ∧ i.op? ≠ some .functionEnd

-- The function `x.1` was opened at `x.2`, and since then none was opened or closed.
structure StaysOpen (is : List Instruction) (x : Id × Nat) : Prop where
  opened : ∃ i : Instruction, is[x.2]? = some i ∧ i.op? = some .function ∧ i.resultId? = some x.1
  since  : ∀ k i, x.2 < k → is[k]? = some i → i.op? ≠ some .function ∧ i.op? ≠ some .functionEnd

namespace FunctionRange.Delimits

variable {r r' : FunctionRange} {is : List Instruction} {i : Instruction}

theorem last_lt (h : r.Delimits is) (h' : r'.Delimits is) (hlt : r.first < r'.first) :
    r.last < r'.first := by
  obtain ⟨i, hi, ho, _⟩ := h'.opened
  obtain ⟨e, he, hend⟩ := h.closed
  by_contra hle
  obtain hlast | hlast := Nat.lt_or_eq_of_le (Nat.not_lt.mp hle)
  · exact (h.between r'.first i hlt hlast hi).left ho
  · rw [hlast] at hi
    cases hi.symm.trans he
    cases ho.symm.trans hend

theorem eq_of_first_eq (h : r.Delimits is) (h' : r'.Delimits is) (hf : r.first = r'.first) :
    r = r' := by
  have hnot {r r' : FunctionRange} (h : r.Delimits is) (h' : r'.Delimits is)
      (hf : r.first = r'.first) :
      ¬r.last < r'.last := by
    intro hlt
    obtain ⟨e, he, hend⟩ := h.closed
    exact (h'.between r.last e (hf ▸ h.lt) hlt he).right hend
  obtain ⟨i, hi, _, hid⟩ := h.opened
  obtain ⟨i', hi', _, hid'⟩ := h'.opened
  have hlast : r.last = r'.last :=
    Nat.le_antisymm (Nat.not_lt.mp (hnot h' h hf.symm)) (Nat.not_lt.mp (hnot h h' hf))
  rw [hf] at hi
  cases hi.symm.trans hi'
  cases r
  cases r'
  simp_all

theorem apart (h : r.Delimits is) (h' : r'.Delimits is) (hne : r ≠ r') :
    r.last < r'.first ∨ r'.last < r.first := by
  obtain hlt | heq | hgt := Nat.lt_trichotomy r.first r'.first
  · exact .inl (h.last_lt h' hlt)
  · exact absurd (h.eq_of_first_eq h' heq) hne
  · exact .inr (h'.last_lt h hgt)

theorem last_lt_length (h : r.Delimits is) : r.last < is.length := by
  obtain ⟨_, hi, _⟩ := h.closed
  exact (List.getElem?_eq_some_iff.mp hi).1

theorem concat_iff : r.Delimits (is ++ [i]) ↔
    r.Delimits is ∨ r.last = is.length ∧ i.op? = some .functionEnd
      ∧ StaysOpen is (r.id, r.first) := by
  have hget {k : Nat} (hk : k < is.length) : (is ++ [i])[k]? = is[k]? := getElem?_append_left hk
  constructor
  case mp =>
    intro h
    obtain ⟨e, he, hend⟩ := h.closed
    have hle : r.last ≤ is.length := by
      have hlt := h.last_lt_length
      rw [length_append, length_singleton] at hlt
      omega
    have hlt := h.lt
    have hopened := h.opened
    rw [hget (by omega)] at hopened
    -- The range ended before, or it ends with the instruction that is appended.
    obtain hlast | hlast := Nat.lt_or_eq_of_le hle
    · refine .inl ⟨hlt, hopened, ⟨e, hget hlast ▸ he, hend⟩, fun k j hk hkl hj => ?_⟩
      exact h.between k j hk hkl ((hget (by omega)).trans hj)
    · rw [hlast, getElem?_concat_length] at he
      cases he
      refine .inr ⟨hlast, hend, hopened, fun k j hk hj => ?_⟩
      have hkl := (List.getElem?_eq_some_iff.mp hj).1
      exact h.between k j hk (by omega) ((hget hkl).trans hj)
  case mpr =>
    rintro (h | ⟨hlast, hend, hopen⟩)
    · have hl := h.last_lt_length
      have hlt := h.lt
      refine ⟨hlt, ?_, ?_, fun k j hk hkl hj =>
        h.between k j hk hkl ((hget (by omega)).symm.trans hj)⟩
      · rw [hget (by omega)]
        exact h.opened
      · rw [hget hl]
        exact h.closed
    · obtain ⟨s, hs, hop⟩ := hopen.opened
      have hlt := (List.getElem?_eq_some_iff.mp hs).1
      refine ⟨by omega, ⟨s, (hget hlt).trans hs, hop⟩, ⟨i, by simp [hlast], hend⟩,
        fun k j hk hkl hj => ?_⟩
      exact hopen.since k j hk ((hget (by omega)).symm.trans hj)

end FunctionRange.Delimits

namespace StaysOpen

variable {x : Id × Nat} {is : List Instruction} {i : Instruction}

theorem concat_iff :
    StaysOpen (is ++ [i]) x ↔ (StaysOpen is x ∧ i.op? ≠ some .function ∧ i.op? ≠ some .functionEnd)
      ∨ x.2 = is.length ∧ i.op? = some .function ∧ i.resultId? = some x.1 := by
  have hget {k : Nat} (hk : k < is.length) : (is ++ [i])[k]? = is[k]? := getElem?_append_left hk
  have hlength {k : Nat} {j : Instruction} (hj : (is ++ [i])[k]? = some j) : k ≤ is.length := by
    have hlt := (List.getElem?_eq_some_iff.mp hj).1
    rw [length_append, length_singleton] at hlt
    omega
  constructor
  case mp =>
    intro h
    obtain ⟨s, hs, hop⟩ := h.opened
    obtain hlt | heq := Nat.lt_or_eq_of_le (hlength hs)
    · refine .inl ⟨⟨⟨s, hget hlt ▸ hs, hop⟩, fun k j hk hj => ?_⟩,
        h.since is.length i hlt (by simp)⟩
      exact h.since k j hk ((hget (List.getElem?_eq_some_iff.mp hj).1).trans hj)
    · rw [heq, getElem?_concat_length] at hs
      cases hs
      exact .inr ⟨heq, hop⟩
  case mpr =>
    rintro (⟨h, hop⟩ | ⟨hx, hop⟩)
    · obtain ⟨s, hs, hopened⟩ := h.opened
      refine ⟨⟨s, (hget (List.getElem?_eq_some_iff.mp hs).1).trans hs, hopened⟩,
        fun k j hk hj => ?_⟩
      obtain hlt | heq := Nat.lt_or_eq_of_le (hlength hj)
      · exact h.since k j hk (hget hlt ▸ hj)
      · rw [heq, getElem?_concat_length] at hj
        cases hj
        exact hop
    · refine ⟨⟨i, by simp [hx], hop⟩, fun k j hk hj => ?_⟩
      have hk' := hlength hj
      omega

theorem unique {y : Id × Nat} (h : StaysOpen is x) (h' : StaysOpen is y) : x = y := by
  obtain ⟨i, hi, ho, hid⟩ := h.opened
  obtain ⟨j, hj, ho', hid'⟩ := h'.opened
  have heq : x.2 = y.2 := by
    obtain hlt | heq | hgt := Nat.lt_trichotomy x.2 y.2
    · exact absurd ho' (h.since y.2 j hlt hj).left
    · exact heq
    · exact absurd ho (h'.since x.2 i hgt hi).left
  rw [heq] at hi
  cases hi.symm.trans hj
  exact Prod.ext (Option.some.inj (hid.symm.trans hid')) heq

theorem last_lt {r : FunctionRange} (h : StaysOpen is x) (hr : r.Delimits is) : r.last < x.2 := by
  obtain ⟨e, he, hend⟩ := hr.closed
  obtain ⟨i, hi, ho, _⟩ := h.opened
  by_contra hle
  obtain hlt | heq := Nat.lt_or_eq_of_le (Nat.not_lt.mp hle)
  · exact (h.since r.last e hlt he).right hend
  · rw [heq] at hi
    cases hi.symm.trans he
    cases ho.symm.trans hend

end StaysOpen

theorem Instruction.Framed.exists_function_id {i : Instruction} (h : i.Framed)
    (ho : i.op? = some .function) :
    ∃ id, i.resultId? = some id := by
  have hr : i.resultId?.isSome = i.outcome.hasResult := h.wellFormed.left.result
  rw [Instruction.outcome, ho] at hr
  exact Option.isSome_iff_exists.mp hr

namespace FunctionScan

structure Knows (s : FunctionScan) (is : List Instruction) : Prop where
  current   : ∀ x, s.current = some x ↔ StaysOpen is x
  functions : ∀ r, r ∈ s.functions ↔ r.Delimits is
  ordered   : s.functions.toList.Pairwise (·.last < ·.first)

variable {s s' : FunctionScan} {is rest : List Instruction} {i : Instruction}

theorem Knows.empty : Knows {} [] where
  current   := fun x => ⟨by simp, fun h => by simpa using h.opened⟩
  functions := fun r => ⟨by simp, fun h => by simpa using h.opened⟩
  ordered   := by simp

theorem Knows.step (hk : s.Knows is) (hf : i.Framed) (hx : i.index = is.length)
    (h : s.step i = .ok s') :
    s'.Knows (is ++ [i]) := by
  cases moves_of_step h
  case start ho hcur hfun =>
    obtain ⟨id, hid⟩ := hf.exists_function_id ho
    refine ⟨fun x => ?_, fun r => ?_, hfun ▸ hk.ordered⟩
    · rw [hcur, hid, hx, StaysOpen.concat_iff]
      simp [ho, hid, Prod.ext_iff, eq_comm, and_comm]
    · rw [hfun, hk.functions, FunctionRange.Delimits.concat_iff]
      simp [ho]
  case finish function first ho hcur hcur' hfun =>
    have hopen : StaysOpen is (function, first) := (hk.current _).mp hcur
    refine ⟨fun x => ?_, fun r => ?_, ?_⟩
    · rw [hcur', StaysOpen.concat_iff]
      simp [ho]
    · rw [hfun, Array.mem_push, hk.functions, FunctionRange.Delimits.concat_iff, hx]
      refine or_congr_right ⟨?_, ?_⟩
      · rintro rfl
        exact ⟨rfl, ho, hopen⟩
      · rintro ⟨hlast, _, hr⟩
        cases hr.unique hopen
        cases r
        simp_all
    · rw [hfun, Array.toList_push, pairwise_append]
      refine ⟨hk.ordered, pairwise_singleton _ _, fun r hr r' hr' => ?_⟩
      rw [mem_singleton] at hr'
      subst hr'
      exact hopen.last_lt ((hk.functions r).mp (Array.mem_toList_iff.mp hr))
  -- A function end that closes nothing changes nothing either.
  case stay hfunction hend hcur hfun =>
    refine ⟨fun x => ?_, fun r => ?_, hfun ▸ hk.ordered⟩
    · rw [hcur, hk.current, StaysOpen.concat_iff]
      simp only [hfunction, ne_eq, not_false_eq_true, true_and, false_and, and_false, or_false,
        iff_self_and]
      intro hopen he
      simp [(hk.current x).mpr hopen] at hend
      exact hend he
    · rw [hfun, hk.functions, FunctionRange.Delimits.concat_iff]
      refine ⟨.inl, ?_⟩
      rintro (hr | ⟨_, he, hopen⟩)
      · exact hr
      · rw [← hk.current, hend he] at hopen
        cases hopen

theorem Knows.foldlM (hk : s.Knows is) (hf : ∀ i ∈ rest, i.Framed)
    (hx : ∀ k (i : Instruction), (is ++ rest)[k]? = some i → i.index = k)
    (h : rest.foldlM FunctionScan.step s = .ok s') : s'.Knows (is ++ rest) := by
  induction rest generalizing is s
  case nil =>
    cases h
    simpa using hk
  case cons i rest hi =>
    rw [foldlM_cons] at h
    obtain ⟨s₁, h₁, h⟩ := ok_of_bind h
    rw [forall_mem_cons] at hf
    have hk₁ := hk.step hf.left (hx is.length i (by simp)) h₁
    have hl : is ++ [i] ++ rest = is ++ i :: rest := by simp
    exact hl ▸ hi hk₁ hf.right (hl ▸ hx) h

end FunctionScan

namespace Outline

variable {o : Outline} {r r' : FunctionRange} {f : Id} {i : Instruction} {index : Nat}

theorem IsRead.mem_functions_iff (h : o.IsRead) :
    (∀ r, r ∈ o.functions ↔ r.Delimits o.instructions.toList)
      ∧ o.functions.toList.Pairwise (·.last < ·.first) := by
  obtain ⟨_, hc⟩ := of_ofBinary h.outline
  obtain ⟨s, hs, hfun⟩ := hc.functions
  have hk := FunctionScan.Knows.empty.foldlM h.indexed.framed (by simpa using h.indexed.place) hs
  rw [hfun]
  exact ⟨hk.functions, hk.ordered⟩

theorem IsRead.definition?_of_delimits (h : o.IsRead) (hr : r.Delimits o.instructions.toList) :
    o.definition? r.id = o.instructions[r.first]? := by
  obtain ⟨i, hi, _, hid⟩ := hr.opened
  rw [Array.getElem?_toList] at hi
  rw [hi, h.indexed.definition?_eq_some_iff]
  exact ⟨Array.mem_toList_iff.mpr (Array.mem_of_getElem? hi), hid⟩

theorem IsRead.eq_of_id_eq (h : o.IsRead) (hr : r.Delimits o.instructions.toList)
    (hr' : r'.Delimits o.instructions.toList) (hid : r.id = r'.id) : r = r' := by
  obtain ⟨i, hi, _, _⟩ := hr.opened
  obtain ⟨i', hi', _, _⟩ := hr'.opened
  rw [Array.getElem?_toList] at hi hi'
  have hd := h.definition?_of_delimits hr
  rw [hid, h.definition?_of_delimits hr', hi, hi'] at hd
  cases hd
  have hfirst : r.first = r'.first := (h.indexed.place _ _ hi).symm.trans (h.indexed.place _ _ hi')
  exact hr.eq_of_first_eq hr' hfirst

theorem IsRead.functionBody_of_mem (h : o.IsRead) (hr : r ∈ o.functions) :
    o.functionBody r.id = (o.instructions.extract r.first (r.last + 1)).toList := by
  have hmem := h.mem_functions_iff.left
  unfold functionBody
  split
  case h_1 r' hfind =>
    have hid : r'.id = r.id := by simpa using Array.find?_some hfind
    obtain rfl := h.eq_of_id_eq ((hmem r').mp (Array.mem_of_find?_eq_some hfind)) ((hmem r).mp hr)
      hid
    rfl
  case h_2 hfind =>
    rw [Array.find?_eq_none] at hfind
    exact absurd (hfind r hr) (by simp)

theorem functionBody_of_not_mem (hr : ∀ r ∈ o.functions, r.id ≠ f) : o.functionBody f = [] := by
  have hfind : o.functions.find? (·.id == f) = none := by simpa [Array.find?_eq_none] using hr
  rw [functionBody, hfind]

theorem IsRead.mem_functionBody_iff (h : o.IsRead) : i ∈ o.functionBody f ↔
    ∃ r ∈ o.functions, r.id = f ∧ o.instructions[i.index]? = some i ∧ r.first ≤ i.index
      ∧ i.index ≤ r.last := by
  have hextract (r : FunctionRange) : i ∈ (o.instructions.extract r.first (r.last + 1)).toList
      ↔ o.instructions[i.index]? = some i ∧ r.first ≤ i.index ∧ i.index ≤ r.last := by
    simp only [Array.mem_toList_iff, Array.mem_iff_getElem?, Array.getElem?_extract]
    constructor
    case mp =>
      rintro ⟨k, hk⟩
      split at hk
      case isFalse => cases hk
      case isTrue hlt =>
        have hplace := h.indexed.place _ _ hk
        rw [hplace]
        exact ⟨hk, by omega, by omega⟩
    case mpr =>
      rintro ⟨hi, hf, hl⟩
      have hlt := (Array.getElem?_eq_some_iff.mp hi).1
      refine ⟨i.index - r.first, ?_⟩
      rw [if_pos (by omega), Nat.add_sub_cancel' hf, hi]
  by_cases hf : ∃ r ∈ o.functions, r.id = f
  case pos =>
    obtain ⟨r, hr, rfl⟩ := hf
    rw [h.functionBody_of_mem hr, hextract]
    refine ⟨fun hi => ⟨r, hr, rfl, hi⟩, ?_⟩
    rintro ⟨r', hr', hid, hi⟩
    have hmem := h.mem_functions_iff.left
    rwa [h.eq_of_id_eq ((hmem r').mp hr') ((hmem r).mp hr) hid] at hi
  case neg =>
    rw [functionBody_of_not_mem fun r hr hid => hf ⟨r, hr, hid⟩]
    simp only [not_mem_nil, false_iff]
    rintro ⟨r, hr, hid, _⟩
    exact hf ⟨r, hr, hid⟩

-- The functions that start at `index` or before come first, and only the last of them can contain
-- it.
theorem IsRead.functionOf?_eq_some_iff (h : o.IsRead) : o.functionOf? index = some f ↔
    ∃ r ∈ o.functions, r.id = f ∧ r.first ≤ index ∧ index ≤ r.last := by
  obtain ⟨hmem, hordered⟩ := h.mem_functions_iff
  -- The ranges are in order and apart, so that only the last that starts in time can match.
  have hlt {j k : Nat} {r r' : FunctionRange} (hjk : j < k) (hj : o.functions[j]? = some r)
      (hk : o.functions[k]? = some r') : r.last < r'.first := by
    rw [← Array.getElem?_toList] at hj hk
    obtain ⟨hjl, rfl⟩ := List.getElem?_eq_some_iff.mp hj
    obtain ⟨hkl, rfl⟩ := List.getElem?_eq_some_iff.mp hk
    exact pairwise_iff_getElem.mp hordered j k hjl hkl hjk
  have hpoint {k : Nat} :
      k < partitionPoint (fun k => (o.functions[k]?).any (·.first ≤ index)) o.functions.size
      ↔ ∃ r, o.functions[k]? = some r ∧ r.first ≤ index := by
    refine lt_partitionPoint_iff fun j k r r' hjk hj hk hle => ?_
    have hr := ((hmem r).mp (Array.mem_of_getElem? hj)).lt
    have hfirst := hlt hjk hj hk
    omega
  simp only [functionOf?]
  split
  case h_1 hzero =>
    simp only [reduceCtorEq, false_iff]
    rintro ⟨r, hr, _, hle, _⟩
    obtain ⟨j, hj⟩ := Array.getElem?_of_mem hr
    have hpos := hpoint.mpr ⟨r, hj, hle⟩
    omega
  case h_2 k hk =>
    simp only [Option.map_eq_some_iff, Option.filter_eq_some_iff, decide_eq_true_eq]
    constructor
    case mp =>
      rintro ⟨r, ⟨hr, hlast⟩, hid⟩
      obtain ⟨r', hr', hle⟩ := hpoint.mp (hk ▸ Nat.lt_succ_self k)
      cases hr.symm.trans hr'
      exact ⟨r, Array.mem_of_getElem? hr, hid, hle, hlast⟩
    case mpr =>
      rintro ⟨r, hr, hid, hle, hlast⟩
      obtain ⟨j, hj⟩ := Array.getElem?_of_mem hr
      obtain ⟨r', hr', hle'⟩ := hpoint.mp (hk ▸ Nat.lt_succ_self k)
      have hjk : j ≤ k := Nat.lt_succ_iff.mp (hk ▸ hpoint.mpr ⟨r, hj, hle⟩)
      obtain hlt' | rfl := Nat.lt_or_eq_of_le hjk
      · have hfirst := hlt hlt' hj hr'
        omega
      · exact ⟨r, ⟨hj, hlast⟩, hid⟩

end Outline

namespace Binary

variable {words : List Word} {b : Binary} {i i' : Instruction} {offset : Nat}

theorem offset_lt (h : read words = .ok b) {j k : Nat} (hjk : j < k)
    (hj : b.instructions[j]? = some i) (hk : b.instructions[k]? = some i') :
    i.offset < i'.offset := by
  obtain ⟨frames, hr⟩ := records_of_read h
  have hf : frames[j]? = some i.words := by
    rw [← hr.instructions, getElem?_map, Array.getElem?_toList, hj, Option.map_some]
  have hpos : 0 < i.words.length :=
    ((read_valid h).framed i (by simpa using Array.mem_of_getElem? hj)).pos
  have hle : (frames.take (j + 1)).flatten.length ≤ (frames.take k).flatten.length :=
    ((take_prefix_take_left hjk).flatten).length_le
  rw [take_add_one, hf, Option.toList_some, flatten_append, length_append, flatten_singleton] at hle
  have ho := (hr.place j i hj).right
  have ho' := (hr.place k i' hk).right
  omega

theorem atOffset?_eq_some_iff (h : read words = .ok b) :
    b.atOffset? offset = some i ↔ i ∈ b.instructions.toList ∧ i.offset = offset := by
  have hpoint {k : Nat} : k < partitionPoint (fun k => (b.instructions[k]?).any (·.offset < offset))
      b.instructions.size
      ↔ ∃ i, b.instructions[k]? = some i ∧ i.offset < offset := by
    exact lt_partitionPoint_iff fun j k i i' hjk hj hk hlt =>
      Nat.lt_trans (offset_lt h hjk hj hk) hlt
  simp only [atOffset?, Option.filter_eq_some_iff, beq_iff_eq, Array.mem_toList_iff]
  generalize partitionPoint (fun k => (b.instructions[k]?).any (·.offset < offset))
    b.instructions.size = n at *
  refine and_congr_left fun ho => ⟨Array.mem_of_getElem?, fun hi => ?_⟩
  obtain ⟨k, hk⟩ := Array.getElem?_of_mem hi
  -- The instruction itself does not lie before the offset, but all before it do.
  have hle : n ≤ k := by
    by_contra hlt
    obtain ⟨i', hi', hlt⟩ := hpoint.mp (Nat.not_le.mp hlt)
    cases hk.symm.trans hi'
    omega
  obtain hlt | rfl := Nat.lt_or_eq_of_le hle
  · have hn := Array.getElem?_eq_getElem (Nat.lt_trans hlt (Array.getElem?_eq_some_iff.mp hk).1)
    exact absurd (hpoint.mpr ⟨_, hn, ho ▸ offset_lt h hlt hn hk⟩) (Nat.lt_irrefl n)
  · exact hk

end Binary

namespace Module

variable {words : List Word} {m : Module}

theorem lookups_scan (h : ofWords words = .ok m) :
    (∀ offset i, m.atOffset? offset = some i ↔ i ∈ m.instructions.toList ∧ i.offset = offset)
    ∧ (∀ index f, m.functionOf? index = some f ↔ ∃ i ∈ m.functionBody f, i.index = index)
    ∧ (∀ r, r ∈ m.functions ↔ r.Delimits m.instructions.toList)
    ∧ (∀ r ∈ m.functions, m.definition? r.id = m.instructions[r.first]?
      ∧ m.functionBody r.id = (m.instructions.extract r.first (r.last + 1)).toList)
    ∧ (∀ f, (∀ r ∈ m.functions, r.id ≠ f) → m.functionBody f = [])
    ∧ ∀ r ∈ m.functions, ∀ r' ∈ m.functions, r ≠ r' → r.last < r'.first ∨ r'.last < r.first := by
  have hr := (isAnalysed_of_ofWords h).toIsRead
  have hmem := hr.mem_functions_iff.left
  refine ⟨fun _ _ => Binary.atOffset?_eq_some_iff (read_of_ofWords h), fun index f => ?_,
    hmem, fun r hf => ?_, fun _ => Outline.functionBody_of_not_mem, fun r hf r' hf' => ?_⟩
  · rw [hr.functionOf?_eq_some_iff]
    constructor
    case mp =>
      rintro ⟨r, hf, hid, hfirst, hlast⟩
      have hlt := ((hmem r).mp hf).last_lt_length
      rw [Array.length_toList] at hlt
      obtain ⟨i, hi⟩ : ∃ i, m.instructions[index]? = some i :=
        ⟨_, Array.getElem?_eq_getElem (Nat.lt_of_le_of_lt hlast hlt)⟩
      obtain rfl := hr.indexed.place index i hi
      exact ⟨i, hr.mem_functionBody_iff.mpr ⟨r, hf, hid, hi, hfirst, hlast⟩, rfl⟩
    case mpr =>
      rintro ⟨i, hi, rfl⟩
      obtain ⟨r, hf, hid, _, hrange⟩ := hr.mem_functionBody_iff.mp hi
      exact ⟨r, hf, hid, hrange⟩
  · exact ⟨hr.definition?_of_delimits ((hmem r).mp hf), hr.functionBody_of_mem hf⟩
  · exact ((hmem r).mp hf).apart ((hmem r').mp hf')

-- A stray end, a function 3 within which the function 5 starts, another stray end, a function 7
-- without blocks, and a function 8 that is never closed.
def straysAndNests : List Word :=
  [Header.magicNumber, 0x00010500, 0, 9, 0, 0x10038, 0x20013, 1, 0x30021, 2, 1, 0x50036, 1, 3, 0, 2,
   0x200F8, 4, 0x50036, 1, 5, 0, 2, 0x200F8, 6, 0x100FD, 0x10038, 0x10038, 0x50036, 1, 7, 0, 2,
   0x10038, 0x50036, 1, 8, 0, 2]

theorem lookups_scan_straysAndNests : ∃ m, ofWords straysAndNests = .ok m
    ∧ m.functions = #[⟨5, 5, 8⟩, ⟨7, 10, 11⟩] ∧ (∃ i ∈ m.functionBody 5, i.index = 6)
    ∧ m.functionOf? 4 = none
    ∧ m.functionBody 3 = [] ∧ ∃ i, m.atOffset? 25 = some i ∧ i.op? = some .return := by
  have hfacts : ∃ m, ofWords straysAndNests = .ok m ∧ m.functions = #[⟨5, 5, 8⟩, ⟨7, 10, 11⟩]
      ∧ m.functionOf? 6 = some 5 ∧ m.functionOf? 4 = none
      ∧ ∃ i ∈ m.instructions.toList, i.offset = 25 ∧ i.op? = some .return :=
    exists_ok_of_decide (by decide +kernel)
  obtain ⟨m, hm, hfun, hin, hout, i, hi, hoffset, hop⟩ := hfacts
  obtain ⟨hat, hof, _, _, hnone, _⟩ := lookups_scan hm
  refine ⟨m, hm, hfun, (hof 6 5).mp hin, hout, hnone 3 ?_, i, (hat 25 i).mpr ⟨hi, hoffset⟩, hop⟩
  simp [hfun]

end Module
end Shader
