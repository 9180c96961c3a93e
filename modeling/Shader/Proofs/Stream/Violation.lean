import Shader.Proofs.Stream.Grammar

namespace Shader

open List

structure Cursor where
  bound : Word
  before : List Frame
  rest : List Word

namespace Cursor

def offset (c : Cursor) : Nat :=
  Header.length + c.before.flatten.length

def length (c : Cursor) : Nat :=
  (c.rest.headD 0).high

def opcode (c : Cursor) : Nat :=
  (c.rest.headD 0).low

def frame (c : Cursor) : Frame :=
  c.rest.take c.length

def back (c : Cursor) (k : Nat) : Cursor :=
  ⟨c.bound, c.before.take k, (c.before.drop k).flatten ++ c.rest⟩

def next (c : Cursor) : Cursor :=
  ⟨c.bound, c.before ++ [c.frame], c.rest.drop c.length⟩

end Cursor

inductive FramingRule where
  | counted | ends | least | below | unique
  deriving DecidableEq

namespace FramingRule

def inOrder : List FramingRule :=
  [.counted, .ends, .least, .below, .unique]

def earlier (r : FramingRule) : List FramingRule :=
  inOrder.takeWhile (· ≠ r)

def Holds (c : Cursor) : FramingRule → Prop
  | .counted => c.length ≠ 0
  | .ends    => c.length ≤ c.rest.length
  | .least   => ∀ op, Op.ofNumber? c.opcode = some op → op.leastLength ≤ c.length
  | .below   => ∀ id, c.frame.resultId? = some id → id < c.bound
  | .unique  => ∀ id, c.frame.resultId? = some id → id ∉ c.before.filterMap Frame.resultId?

end FramingRule

namespace Cursor

inductive Reports (c : Cursor) : FramingRule → ReadError → Prop
  | zeroLength : Reports c .counted (.framing c.before.length c.offset .zeroLength)
  | pastEnd : Reports c .ends (.framing c.before.length c.offset .pastEnd)
  | tooShort {op : Op} (ho : Op.ofNumber? c.opcode = some op) (hl : c.length < op.leastLength) :
    Reports c .least (.framing c.before.length c.offset
    (.tooShort c.opcode op.leastLength c.length))
  | outOfBounds {id : Id} (hid : c.frame.resultId? = some id) :
    Reports c .below (.idOutOfBounds id c.before.length c.bound)
  -- No instruction but `first` defined the id before.
  | duplicate {id : Id} {first : Nat} (hid : c.frame.resultId? = some id)
    (hfirst : ∀ k, c.before[k]?.bind Frame.resultId? = some id ↔ k = first) :
    Reports c .unique (.duplicateId id first c.before.length)

-- The next instruction breaks the rule that is reported and none that is checked before it.
structure Blames (c : Cursor) (r : FramingRule) (e : ReadError) : Prop where
  reports : c.Reports r e
  broken  : ¬r.Holds c
  earlier : ∀ q ∈ r.earlier, q.Holds c

-- Each instruction before is as long as its first word says and breaks no rule where it stands.
def Clean (c : Cursor) : Prop :=
  ∀ k f, c.before[k]? = some f → (c.back k).frame = f ∧ ∀ r : FramingRule, r.Holds (c.back k)

end Cursor

namespace Binary.Accepted

variable {a : Accepted} {frames : List Frame} {c : Cursor} {w : Word} {rest : List Word} {id : Id}

structure Follows (a : Accepted) (frames : List Frame) : Prop where
  words   : a.instructions.toList.map Instruction.words = frames
  indexed : a.Indexed

namespace Follows

theorem init : Follows {} [] where
  words := rfl
  indexed := by
    intro id k
    simp

variable (h : a.Follows frames)

include h

theorem size_eq : a.instructions.size = frames.length := by
  simp [← h.words]

theorem getElem?_definitions {k : Nat} :
    a.definitions[id]? = some k ↔ frames[k]?.bind Frame.resultId? = some id := by
  rw [h.indexed id k, ← h.words, getElem?_map, Array.getElem?_toList, Option.bind_map,
    Option.bind_eq_some_iff]
  refine exists_congr fun i => and_congr_right fun _ => ?_
  rw [Function.comp_apply, ← Frame.resultId?_instruction i.index i.offset]

theorem definitions_eq_none :
    a.definitions[id]? = none ↔ id ∉ frames.filterMap Frame.resultId? := by
  constructor
  case mp =>
    intro hn hm
    obtain ⟨f, hf, hid⟩ := mem_filterMap.mp hm
    obtain ⟨k, hk⟩ := mem_iff_getElem?.mp hf
    have hd := h.getElem?_definitions.mpr (Option.bind_eq_some_iff.mpr ⟨f, hk, hid⟩)
    exact absurd (hn.symm.trans hd) (by simp)
  case mpr =>
    intro hm
    refine Option.eq_none_iff_forall_ne_some.mpr fun k hd => hm ?_
    obtain ⟨f, hk, hid⟩ := Option.bind_eq_some_iff.mp (h.getElem?_definitions.mp hd)
    exact mem_filterMap.mpr ⟨f, mem_of_getElem? hk, hid⟩

end Follows

-- The words of the instruction are all there, so what is left to check is its result.
theorem blames_of_define {e : ReadError} (h : a.Follows c.before)
    (hid : c.frame.resultId? = some id) (hr : ∀ r ∈ FramingRule.below.earlier, r.Holds c)
    (hd : a.define c.bound id = .error e) : ∃ r, c.Blames r e := by
  have hs := h.size_eq
  unfold define at hd
  split at hd
  case isTrue hb =>
    cases hd
    refine ⟨.below, hs ▸ .outOfBounds hid, fun hlt => ?_, hr⟩
    exact UInt32.not_lt.mpr hb (hlt id hid)
  case isFalse hb =>
    split at hd
    case h_2 => cases hd
    case h_1 first hfirst =>
      cases hd
      have hnone : a.definitions[id]? ≠ none := by simp [hfirst]
      refine ⟨.unique, hs ▸ .duplicate hid fun k => ?_, fun hn => ?_, ?_⟩
      · rw [← h.getElem?_definitions, hfirst, Option.some.injEq, eq_comm]
      · exact hnone (h.definitions_eq_none.mpr (hn id hid))
      · rw [show FramingRule.unique.earlier = FramingRule.below.earlier ++ [.below] from rfl,
          forall_mem_append, forall_mem_singleton]
        refine ⟨hr, fun x hx => ?_⟩
        cases hid.symm.trans hx
        exact UInt32.not_le.mp hb

section

variable (hc : c.rest = w :: rest)

include hc

theorem words_next (hn : c.length ≠ 0) (offset : Nat) : (a.next offset w rest).words = c.frame := by
  have hl : c.length = w.high := by simp [Cursor.length, hc]
  obtain ⟨n, hn⟩ := Nat.exists_eq_succ_of_ne_zero hn
  simp [next, Cursor.frame, hc, hn, ← hl]

theorem resultId?_next (hn : c.length ≠ 0) (offset : Nat) :
    (a.next offset w rest).resultId? = c.frame.resultId? := by
  rw [← words_next (a := a) hc hn offset]
  exact Frame.resultId?_instruction ..

variable (h : a.Follows c.before)

include h

theorem accepts_iff_rules : a.Accepts c.bound c.offset w rest ↔ ∀ r : FramingRule, r.Holds c := by
  have hl : c.length = w.high := by simp [Cursor.length, hc]
  have ho : c.opcode = w.low := by simp [Cursor.opcode, hc]
  constructor
  case mp =>
    intro ha
    have hn : c.length ≠ 0 := hl ▸ ha.pos
    have hresult := ha.result
    rw [resultId?_next hc hn] at hresult
    intro r
    cases r
    case counted => exact hn
    case ends =>
      have := ha.fits
      simp only [FramingRule.Holds, hc, hl, length_cons]
      exact this
    case least =>
      intro op hop
      have := ha.least
      rwa [← ho, hop, ← hl] at this
    case below => exact fun id hid => (hresult id hid).left
    case unique => exact fun id hid => h.definitions_eq_none.mp (hresult id hid).right
  case mpr =>
    intro hr
    have hn : c.length ≠ 0 := hr .counted
    refine ⟨hl ▸ hn, ?_, ?_, ?_⟩
    · have := hr .ends
      simp only [FramingRule.Holds, hc, hl, length_cons] at this
      exact this
    · have := hr .least
      rw [← ho, ← hl]
      cases hop : Op.ofNumber? c.opcode
      case none => exact Nat.pos_of_ne_zero hn
      case some op => exact this op hop
    · rw [resultId?_next hc hn]
      exact fun id hid => ⟨hr .below id hid, h.definitions_eq_none.mpr (hr .unique id hid)⟩

theorem blames_of_push {e : ReadError} (hp : a.push c.bound c.offset w rest = .error e) :
    ∃ r, c.Blames r e := by
  have hl : c.length = w.high := by simp [Cursor.length, hc]
  have ho : c.opcode = w.low := by simp [Cursor.opcode, hc]
  have hs := h.size_eq
  have hall : c.rest.length = rest.length + 1 := by simp [hc]
  unfold push at hp
  -- In the order in which an instruction is checked; each case has the negations before it.
  by_cases h₀ : w.high = 0
  case pos =>
    simp only [h₀, bind, Except.bind, ↓reduceIte] at hp
    cases hp
    refine ⟨.counted, hs ▸ .zeroLength, ?_, ?_⟩
    · simp [FramingRule.Holds, hl, h₀]
    · simp [FramingRule.earlier, FramingRule.inOrder]
  by_cases h₁ : rest.length + 1 < w.high
  case pos =>
    simp only [h₀, h₁, bind, Except.bind, ↓reduceIte] at hp
    cases hp
    refine ⟨.ends, hs ▸ .pastEnd, ?_, ?_⟩
    · simpa [FramingRule.Holds, hl, hall] using h₁
    · simp [FramingRule.earlier, FramingRule.inOrder, FramingRule.Holds, hl, h₀]
  by_cases h₂ : w.high < (Op.ofNumber? w.low).elim 1 Op.leastLength
  case pos =>
    simp only [h₀, h₁, h₂, bind, Except.bind, ↓reduceIte] at hp
    cases hp
    obtain ⟨op, hop⟩ : ∃ op, Op.ofNumber? w.low = some op := by
      refine Option.ne_none_iff_exists'.mp fun hn => ?_
      rw [hn, Option.elim_none] at h₂
      omega
    rw [hop, Option.elim_some] at h₂ ⊢
    rw [← hl, ← ho] at *
    refine ⟨.least, hs ▸ .tooShort hop h₂, fun hr => Nat.not_le.mpr h₂ (hr op hop), ?_⟩
    simp [FramingRule.earlier, FramingRule.inOrder, FramingRule.Holds, h₀, hall]
    omega
  have hnext : ⟨a.instructions.size, c.offset, w :: rest.take (w.high - 1)⟩
    = a.next c.offset w rest := rfl
  simp only [h₀, h₁, h₂, bind, Except.bind, ↓reduceIte, hnext, resultId?_next hc (hl ▸ h₀)] at hp
  split at hp
  case h_2 => cases hp
  case h_1 id hid =>
    split at hp
    case h_2 => cases hp
    case h_1 hd =>
      cases hp
      have hleast : FramingRule.least.Holds c := by
        intro op hop
        rw [← ho, hop, ← hl] at h₂
        exact Nat.not_lt.mp h₂
      refine blames_of_define h hid ?_ hd
      simp [FramingRule.earlier, FramingRule.inOrder, hleast]
      simp [FramingRule.Holds, hl, h₀, hall]
      omega

theorem Follows.next (hr : ∀ r : FramingRule, r.Holds c) :
    (a.withInstruction (a.next c.offset w rest)).Follows c.next.before where
  words := by
    simp only [withInstruction, Array.toList_push, map_append, h.words, map_singleton,
      words_next hc (hr .counted), Cursor.next]
  indexed := by
    refine h.indexed.withInstruction fun id hid => ?_
    exact (((accepts_iff_rules hc h).mpr hr).result id hid).right

end

end Binary.Accepted

namespace Cursor

variable {c d : Cursor} {a : Binary.Accepted} {e e' : ReadError} {r r' : FramingRule} {k : Nat}

def whole (c : Cursor) : List Word :=
  c.before.flatten ++ c.rest

theorem whole_next (c : Cursor) : c.next.whole = c.whole := by
  simp [whole, next, frame]

theorem offset_next (h : FramingRule.ends.Holds c) : c.next.offset = c.offset + c.length := by
  have hl : c.frame.length = c.length := by
    rw [frame, length_take]
    exact Nat.min_eq_left h
  simp [offset, next, hl, Nat.add_assoc]

theorem exists_cons_of_counted (h : FramingRule.counted.Holds c) :
    ∃ w rest, c.rest = w :: rest := by
  refine exists_cons_of_ne_nil fun hn => h ?_
  rw [length, hn]
  rfl

theorem eq_next {bound : Word} {before : List Frame} {f : Frame} {rest : List Word}
    (h : frame ⟨bound, before, f ++ rest⟩ = f) :
    next ⟨bound, before, f ++ rest⟩ = ⟨bound, before ++ [f], rest⟩ := by
  have hrest := take_append_drop (length ⟨bound, before, f ++ rest⟩) (f ++ rest)
  rw [frame] at h
  rw [h, append_cancel_left_eq] at hrest
  simp only [next, frame, h, hrest]

theorem clean_concat_iff {bound : Word} {before : List Frame} {f : Frame} {rest : List Word} :
    Clean ⟨bound, before ++ [f], rest⟩ ↔ Clean ⟨bound, before, f ++ rest⟩
      ∧ frame ⟨bound, before, f ++ rest⟩ = f
      ∧ ∀ r : FramingRule, r.Holds ⟨bound, before, f ++ rest⟩ := by
  have hback (k : Nat) (hk : k ≤ before.length) :
      back ⟨bound, before ++ [f], rest⟩ k = back ⟨bound, before, f ++ rest⟩ k := by
    simp [back, take_append_of_le_length hk, drop_append_of_le_length hk]
  have hlast : back ⟨bound, before ++ [f], rest⟩ before.length = ⟨bound, before, f ++ rest⟩ := by
    simp [back]
  constructor
  case mp =>
    intro h
    refine ⟨fun k g hk => ?_, hlast ▸ h before.length f (by simp)⟩
    have hlt : k < before.length := (List.getElem?_eq_some_iff.mp hk).choose
    rw [← hback k (Nat.le_of_lt hlt)]
    exact h k g (by rwa [getElem?_append_left hlt])
  case mpr =>
    rintro ⟨h, hlast'⟩ k g hk
    rw [getElem?_append] at hk
    split at hk
    case isTrue hlt =>
      rw [hback k (Nat.le_of_lt hlt)]
      exact h k g hk
    case isFalse hge =>
      obtain ⟨hk, rfl⟩ : k - before.length = 0 ∧ f = g := by simpa [getElem?_singleton] using hk
      obtain rfl : k = before.length := by omega
      rw [hlast]
      exact hlast'

theorem Clean.next (h : c.Clean) (hr : ∀ r : FramingRule, r.Holds c) : c.next.Clean := by
  have hrest : c.frame ++ c.rest.drop c.length = c.rest := take_append_drop ..
  refine clean_concat_iff.mpr ?_
  rw [hrest]
  exact ⟨h, rfl, hr⟩

theorem Blames.rule_eq (h : c.Blames r e) (h' : c.Blames r' e') : r = r' := by
  have hnot : r' ∉ r.earlier := fun hm => h'.broken (h.earlier r' hm)
  have hnot' : r ∉ r'.earlier := fun hm => h.broken (h'.earlier r hm)
  revert hnot hnot'
  cases r <;> cases r' <;> decide

theorem Reports.unique (h : c.Reports r e) (h' : c.Reports r e') : e = e' := by
  cases h
  case zeroLength | pastEnd => cases h'; rfl
  case tooShort ho _ =>
    cases h'
    case tooShort ho' _ => cases ho.symm.trans ho'; rfl
  case outOfBounds hid =>
    cases h'
    case outOfBounds hid' => cases hid.symm.trans hid'; rfl
  case duplicate id first hid hfirst =>
    cases h'
    case duplicate id' first' hid' hfirst' =>
      cases hid.symm.trans hid'
      rw [(hfirst' first).mp ((hfirst first).mpr rfl)]

theorem Blames.unique (h : c.Blames r e) (h' : c.Blames r' e') : e = e' := by
  cases h.rule_eq h'
  exact h.reports.unique h'.reports

open Binary

theorem readFrom_next (h : a.Follows c.before) (hr : ∀ r : FramingRule, r.Holds c) :
    ∃ a' : Accepted,
      a'.Follows c.next.before
        ∧ readFrom c.bound 0 c.offset c.rest a = readFrom c.next.bound 0 c.next.offset
          c.next.rest a' := by
  obtain ⟨w, rest, hc⟩ := exists_cons_of_counted (hr .counted)
  have ha := (Accepted.accepts_iff_rules hc h).mpr hr
  have hl : c.length = w.high := by simp [length, hc]
  obtain ⟨n, hn⟩ := Nat.exists_eq_succ_of_ne_zero ha.pos
  refine ⟨_, h.next hc hr, ?_⟩
  rw [hc, readFrom_of_accepts ha, offset_next (hr .ends), hl, next, hl, hc, hn]
  rfl

theorem readFrom_of_blames (h : a.Follows c.before) (hc : c.rest ≠ []) (hb : c.Blames r e) :
    readFrom c.bound 0 c.offset c.rest a = .error e := by
  obtain ⟨w, rest, hc⟩ := exists_cons_of_ne_nil hc
  rw [hc, readFrom]
  cases hp : a.push c.bound c.offset w rest
  case ok a' =>
    obtain ⟨ha, _⟩ := Accepted.push_eq_ok_iff.mp hp
    exact absurd ((Accepted.accepts_iff_rules hc h).mp ha r) hb.broken
  case error e' =>
    obtain ⟨r', hb'⟩ := Accepted.blames_of_push hc h hp
    rw [hb.unique hb']
    rfl

theorem blames_of_readFrom (h : a.Follows c.before) (hclean : c.Clean)
    (he : readFrom c.bound 0 c.offset c.rest a = .error e) :
    ∃ (d : Cursor) (r : FramingRule), d.bound = c.bound ∧ d.whole = c.whole ∧ d.rest ≠ [] ∧ d.Clean
      ∧ d.Blames r e := by
  induction hn : c.rest.length using Nat.strong_induction_on generalizing c a
  case h n hi =>
    by_cases hr : ∀ r : FramingRule, r.Holds c
    case pos =>
      obtain ⟨a', h', heq⟩ := readFrom_next h hr
      have hlt : c.next.rest.length < n := by
        have hpos : c.length ≠ 0 := hr .counted
        have hends : c.length ≤ c.rest.length := hr .ends
        rw [← hn, next, length_drop]
        omega
      obtain ⟨d, r, hd, hwhole, hd'⟩ := hi _ hlt h' (hclean.next hr) (heq.symm.trans he) rfl
      exact ⟨d, r, hd, hwhole.trans c.whole_next, hd'⟩
    case neg =>
      cases hc : c.rest
      case nil =>
        rw [hc, readFrom] at he
        cases he
      case cons w rest =>
        rw [hc, readFrom] at he
        cases hp : a.push c.bound c.offset w rest
        case ok a' =>
          obtain ⟨ha, _⟩ := Accepted.push_eq_ok_iff.mp hp
          exact absurd ((Accepted.accepts_iff_rules hc h).mp ha) hr
        case error e' =>
          rw [hp] at he
          cases he
          obtain ⟨r, hb⟩ := Accepted.blames_of_push hc h hp
          exact ⟨c, r, rfl, rfl, by simp [hc], hclean, hb⟩

theorem reaches_of_clean {bound : Word} {before : List Frame} {rest : List Word}
    (h : Clean ⟨bound, before, rest⟩) :
    ∃ a : Accepted, a.Follows before ∧ readFrom bound 0 Header.length (before.flatten ++ rest) {}
      = readFrom bound 0 (offset ⟨bound, before, rest⟩) rest a := by
  induction before using reverseRecOn generalizing rest
  case nil => exact ⟨{}, .init, rfl⟩
  case append_singleton before f hi =>
    obtain ⟨hclean, hframe, hr⟩ := clean_concat_iff.mp h
    obtain ⟨a, ha, heq⟩ := hi hclean
    obtain ⟨a', ha', heq'⟩ := readFrom_next ha hr
    rw [eq_next hframe] at ha' heq'
    refine ⟨a', ha', ?_⟩
    rw [flatten_append, flatten_singleton, append_assoc, heq, heq']

end Cursor

namespace Binary

theorem read_error_iff_blames {words : List Word} {header : Header}
    (hh : Header.read? words = some header) (e : ReadError) :
    read words = .error e ↔ ∃ (c : Cursor) (r : FramingRule), c.bound = header.bound
      ∧ words.drop Header.length = c.before.flatten ++ c.rest ∧ c.rest ≠ [] ∧ c.Clean
      ∧ c.Blames r e := by
  have hread : read words = .error e
      ↔ readFrom header.bound 0 Header.length (words.drop Header.length) {} = .error e := by
    simp only [read, hh, bind, Except.bind]
    cases readFrom header.bound 0 Header.length (words.drop Header.length) {}
      <;> simp [pure, Except.pure]
  rw [hread]
  constructor
  case mp =>
    intro he
    have hstart : Cursor.Clean ⟨header.bound, [], words.drop Header.length⟩ := fun k f hk => by
      simp at hk
    obtain ⟨c, r, hb, hwhole, hc⟩ :=
      Cursor.blames_of_readFrom (c := ⟨header.bound, [], words.drop Header.length⟩)
      .init hstart he
    exact ⟨c, r, hb, hwhole.symm, hc⟩
  case mpr =>
    rintro ⟨c, r, hb, hwhole, hne, hclean, hblames⟩
    obtain ⟨a, ha, heq⟩ := Cursor.reaches_of_clean hclean
    rw [hwhole, ← hb, heq]
    exact Cursor.readFrom_of_blames ha hne hblames

-- A type that is declared as another was, before an instruction without a length.
def declaredAgain : List Word :=
  [Header.magicNumber, 0x00010300, 0, 3, 0, 0x00020013, 1, 0x00030021, 2, 1, 0x00040015, 1, 32, 0,
    0x0000ffff]

theorem read_error_iff_blames_declaredAgain : ∃ header, Header.read? declaredAgain = some header
    ∧ ∃ (c : Cursor) (r : FramingRule), c.bound = header.bound
      ∧ declaredAgain.drop Header.length = c.before.flatten ++ c.rest ∧ c.rest ≠ [] ∧ c.Clean
      ∧ c.Blames r (.duplicateId 1 0 2) := by
  obtain ⟨header, hh⟩ : ∃ header, Header.read? declaredAgain = some header := ⟨_, rfl⟩
  have he : read declaredAgain = .error (.duplicateId 1 0 2) := by
    have : (read declaredAgain).map (fun _ => ()) = .error (.duplicateId 1 0 2) := by decide +kernel
    cases h : read declaredAgain <;> simp_all [Except.map]
  exact ⟨header, hh, (read_error_iff_blames hh _).mp he⟩

end Binary
end Shader
