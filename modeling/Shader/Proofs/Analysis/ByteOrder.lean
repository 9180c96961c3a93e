import Shader.Proofs.Draft.Stable

namespace Shader

open List

namespace Word

theorem bytes_swapBytes (w : Word) : w.swapBytes.bytes = w.bytes.reverse :=
  byte_ofBytes ..

@[simp]
theorem swapBytes_swapBytes (w : Word) : w.swapBytes.swapBytes = w := by
  have hb := w.bytes_swapBytes
  simp only [bytes, reverse_cons, reverse_nil, nil_append, cons_append, cons.injEq, and_true] at hb
  obtain ⟨h₀, h₁, h₂, h₃⟩ := hb
  rw [swapBytes, h₀, h₁, h₂, h₃, ofBytes_byte]

theorem map_swapBytes_map_swapBytes (words : List Word) :
    (words.map swapBytes).map swapBytes = words := by
  simp [Function.comp_def]

end Word

namespace Header

variable {words : List Word}

theorem head?_of_read? {h : Header} (hr : read? words = some h) :
    words.head? = some magicNumber := by
  rw [head?_eq_getElem?]
  exact (words_of_read? hr).right.right.left

theorem head?_map_swapBytes_eq_iff {w : Word} :
    (words.map Word.swapBytes).head? = some w ↔ words.head? = some w.swapBytes := by
  cases words
  case nil => simp
  case cons v words =>
    simp only [map_cons, head?_cons, Option.some.injEq]
    constructor
    case mp => exact fun h => by rw [← h, Word.swapBytes_swapBytes]
    case mpr => exact fun h => by rw [h, Word.swapBytes_swapBytes]

theorem nativeOrder_map_swapBytes
    (h : words.head? = some magicNumber ∨ words.head? = some magicNumber.swapBytes) :
    nativeOrder (words.map Word.swapBytes) = nativeOrder words := by
  cases h
  case inl h =>
    have hs : (words.map Word.swapBytes).head? = some magicNumber.swapBytes := by
      rw [head?_map_swapBytes_eq_iff, Word.swapBytes_swapBytes, h]
    rw [nativeOrder_of_head? h, nativeOrder, if_pos hs, Word.map_swapBytes_map_swapBytes]
  case inr h =>
    rw [nativeOrder_of_head? (head?_map_swapBytes_eq_iff.mpr h), nativeOrder, if_pos h]

end Header

namespace Binary

variable {words : List Word}

theorem read_of_head? (h : words.head? ≠ some Header.magicNumber) :
    read words = .error .header := by
  unfold read
  split
  case h_1 hr => exact absurd (Header.head?_of_read? hr) h
  case h_2 => rfl

theorem ofWords_error (h : words.head? ≠ some Header.magicNumber)
    (hs : words.head? ≠ some Header.magicNumber.swapBytes) : ofWords words = .error .header := by
  rw [ofWords, Header.nativeOrder, if_neg hs, read_of_head? h]

theorem ofWords_map_swapBytes (words : List Word) :
    ofWords (words.map Word.swapBytes) = ofWords words := by
  by_cases h : words.head? = some Header.magicNumber
    ∨ words.head? = some Header.magicNumber.swapBytes
  case pos => rw [ofWords, Header.nativeOrder_map_swapBytes h, ofWords]
  case neg =>
    obtain ⟨hn, hs⟩ := not_or.mp h
    rw [ofWords_error hn hs, ofWords_error]
    · rwa [ne_eq, Header.head?_map_swapBytes_eq_iff]
    · rwa [ne_eq, Header.head?_map_swapBytes_eq_iff, Word.swapBytes_swapBytes]

theorem wordsOfBytes?_bytes (words : List Word) :
    wordsOfBytes? (words.flatMap Word.bytes) = some words := by
  induction words
  case nil => rfl
  case cons w words hi =>
    rw [flatMap_cons]
    simp only [Word.bytes, cons_append, nil_append, wordsOfBytes?, hi, Option.map_some,
      Word.ofBytes_byte]

theorem wordsOfBytes?_eq_none_iff {bytes : List UInt8} :
    wordsOfBytes? bytes = none ↔ bytes.length % 4 ≠ 0 := by
  fun_induction wordsOfBytes? bytes
  case case1 hi => simp [hi, Nat.add_assoc]
  case case2 => simp
  case case3 bytes hfour hnil =>
    match bytes with
    | [] => exact absurd rfl hnil
    | [_] | [_, _] | [_, _, _] => simp
    | _ :: _ :: _ :: _ :: _ => exact absurd rfl (hfour _ _ _ _ _)

theorem ofBytes_bytes (words : List Word) : ofBytes (words.flatMap Word.bytes) = ofWords words := by
  simp [ofBytes, wordsOfBytes?_bytes]

theorem push_ne_partialWord (a : Accepted) (bound w : Word) (offset : Nat) (rest : List Word)
    (index word : Nat) :
    a.push bound offset w rest ≠ .error (.framing index word .partialWord) := by
  unfold Accepted.push
  by_cases h₀ : w.high = 0
  case pos => simp [h₀, bind, Except.bind]
  by_cases h₁ : rest.length + 1 < w.high
  case pos => simp [h₀, h₁, bind, Except.bind]
  by_cases h₂ : w.high < (Op.ofNumber? w.low).elim 1 Op.leastLength
  case pos => simp [h₀, h₁, h₂, bind, Except.bind]
  simp only [h₀, h₁, h₂, bind, Except.bind, ↓reduceIte]
  split
  case h_2 => simp [pure, Except.pure]
  case h_1 id _ =>
    unfold Accepted.define
    by_cases hb : bound ≤ id
    case pos => simp [hb]
    case neg => cases a.definitions[id]? <;> simp [hb, pure, Except.pure]

theorem readFrom_ne_partialWord {bound : Word} {skip offset : Nat} {words : List Word}
    {a : Accepted} (index word : Nat) :
    readFrom bound skip offset words a ≠ .error (.framing index word .partialWord) := by
  induction words generalizing skip offset a
  case nil => cases skip <;> simp [readFrom]
  case cons w rest hi =>
    cases skip
    case succ => exact hi
    case zero =>
      have hp := push_ne_partialWord a bound w offset rest index word
      rw [readFrom]
      cases ha : a.push bound offset w rest
      case error e => exact fun h => hp (ha.trans (by cases h; rfl))
      case ok a' => exact hi

theorem read_ne_partialWord (words : List Word) (index word : Nat) :
    read words ≠ .error (.framing index word .partialWord) := by
  unfold read
  split
  case h_2 => simp
  case h_1 header _ =>
    have hr : readFrom header.bound 0 Header.length (words.drop Header.length) {}
        ≠ .error (.framing index word .partialWord) := readFrom_ne_partialWord index word
    cases ha : readFrom header.bound 0 Header.length (words.drop Header.length) {}
    case error e => exact fun h => hr (ha.trans (by cases h; rfl))
    case ok a => simp [bind, Except.bind, pure, Except.pure]

theorem ofBytes_eq_partialWord_iff {bytes : List UInt8} :
    ofBytes bytes = .error (.framing 0 (bytes.length / 4) .partialWord) ↔ bytes.length % 4 ≠ 0 := by
  rw [← wordsOfBytes?_eq_none_iff, ofBytes]
  cases wordsOfBytes? bytes
  case none => simp
  case some words =>
    simpa [ofWords] using read_ne_partialWord (Header.nativeOrder words) 0 (bytes.length / 4)

end Binary

namespace Module

variable {words : List Word} {m : Module}

theorem words_of_ofWords (h : ofWords words = .ok m) : m.words = Header.nativeOrder words := by
  obtain ⟨frames, hr⟩ := Binary.records_of_read (read_of_ofWords h)
  exact hr.words

theorem head?_words_of_ofWords (h : ofWords words = .ok m) :
    m.words.head? = some Header.magicNumber := by
  by_contra hne
  have hr := read_of_ofWords h
  rw [← words_of_ofWords h, Binary.read_of_head? hne] at hr
  cases hr

theorem ofWords_words (h : ofWords words = .ok m) : ofWords m.words = .ok m := by
  have hb : Binary.ofWords m.words = Binary.ofWords words := by
    rw [Binary.ofWords_of_head? (head?_words_of_ofWords h), words_of_ofWords h, Binary.ofWords]
  rw [ofWords, hb]
  exact h

theorem ofBytes_bytes (words : List Word) : ofBytes (words.flatMap Word.bytes) = ofWords words := by
  rw [ofBytes, Binary.ofBytes_bytes, ofWords]

theorem ofWords_map_swapBytes (words : List Word) :
    ofWords (words.map Word.swapBytes) = ofWords words := by
  rw [ofWords, Binary.ofWords_map_swapBytes, ofWords]

theorem ofBytes_bytes_reverse (words : List Word) :
    ofBytes (words.flatMap (·.bytes.reverse)) = ofWords words := by
  have hb : words.flatMap (·.bytes.reverse) = (words.map Word.swapBytes).flatMap Word.bytes := by
    simp only [flatMap_map, Word.bytes_swapBytes]
  rw [hb, ofBytes_bytes, ofWords_map_swapBytes]

theorem ofBytes_eq_partialWord_iff {bytes : List UInt8} :
    ofBytes bytes = .error (.refused (.framing 0 (bytes.length / 4) .partialWord))
      ↔ bytes.length % 4 ≠ 0 := by
  rw [← Binary.ofBytes_eq_partialWord_iff, ofBytes, analyse]
  cases Binary.ofBytes bytes
  case error e => simp [Except.mapError, bind, Except.bind]
  case ok b => cases hm : ofBinary b <;> simp [Except.mapError, bind, Except.bind, hm]

theorem ofWords_either_order (words : List Word) (bytes : List UInt8) :
    ofWords (words.map Word.swapBytes) = ofWords words
      ∧ ofBytes (words.flatMap Word.bytes) = ofWords words
      ∧ ofBytes (words.flatMap (·.bytes.reverse)) = ofWords words
      ∧ (ofBytes bytes = .error (.refused (.framing 0 (bytes.length / 4) .partialWord))
        ↔ bytes.length % 4 ≠ 0)
      ∧ ∀ m, ofWords words = .ok m →
        m.words.head? = some Header.magicNumber
          ∧ (m.words = words ∨ m.words = words.map Word.swapBytes)
          ∧ ofWords m.words = .ok m := by
  refine ⟨ofWords_map_swapBytes words, ofBytes_bytes words, ofBytes_bytes_reverse words,
    ofBytes_eq_partialWord_iff, ?_⟩
  intro m hm
  refine ⟨head?_words_of_ofWords hm, ?_, ofWords_words hm⟩
  rw [words_of_ofWords hm, Header.nativeOrder]
  split
  case isTrue => exact .inr rfl
  case isFalse => exact .inl rfl

theorem ofWords_either_order_unknownLast :
    ∃ m, ofWords (Binary.unknownLast.map Word.swapBytes) = .ok m
      ∧ ofBytes (Binary.unknownLast.flatMap (·.bytes.reverse)) = .ok m
      ∧ m.words = Binary.unknownLast ∧ ofWords m.words = .ok m := by
  obtain ⟨m, hm, hw⟩ : ∃ m, ofWords Binary.unknownLast = .ok m ∧ m.words = Binary.unknownLast :=
    exists_ok_of_decide (by decide +kernel)
  obtain ⟨hs, _, hb, _, hr⟩ := ofWords_either_order Binary.unknownLast []
  exact ⟨m, hs.trans hm, hb.trans hm, hw, (hr m hm).right.right⟩

end Module
end Shader
