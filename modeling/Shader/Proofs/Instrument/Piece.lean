import Shader.Proofs.Draft.Definition

namespace Shader

open List

-- Two lists whose elements are related by `R` before place `i` and by `S` there, and are the same
-- after it.
structure Cut {α : Type} (R S : α → α → Prop) (i : Nat) (l l' : List α) : Prop where
  length : l'.length = l.length
  before : ∀ n a a', n < i → l[n]? = some a → l'[n]? = some a' → R a a'
  here   : ∀ a a', l[i]? = some a → l'[i]? = some a' → S a a'
  after  : ∀ n, i < n → l'[n]? = l[n]?

namespace Cut

variable {α : Type} {R R' S S' : α → α → Prop} {i : Nat} {l l' : List α}

theorem start (hS : ∀ a, S a a) (l : List α) : Cut R S 0 l l where
  length := rfl
  before n _ _ hn := absurd hn (Nat.not_lt_zero n)
  here a a' h h' := by
    cases h.symm.trans h'
    exact hS a
  after _ _ := rfl

theorem next (h : Cut R S i l l') (hR : ∀ a a', l'[i]? = some a' → S a a' → R a a')
    (hS : ∀ a, S' a a) : Cut R S' (i + 1) l l' where
  length := h.length
  before n a a' hn ha ha' := by
    obtain hn | rfl := Nat.lt_succ_iff_lt_or_eq.mp hn
    · exact h.before n a a' hn ha ha'
    · exact hR a a' ha' (h.here a a' ha ha')
  here a a' ha ha' := by
    rw [h.after _ (Nat.lt_succ_self i), ha] at ha'
    cases ha'
    exact hS a
  after n hn := h.after n (Nat.lt_of_succ_lt hn)

theorem mono (h : Cut R S i l l') (hR : ∀ a a', R a a' → R' a a')
    (hS : ∀ a a', l'[i]? = some a' → S a a' → S' a a') : Cut R' S' i l l' where
  length := h.length
  before n a a' hn ha ha' := hR a a' (h.before n a a' hn ha ha')
  here a a' ha ha' := hS a a' ha' (h.here a a' ha ha')
  after := h.after

theorem set {a' c : α} (h : Cut R S i l l') (ha' : l'[i]? = some a') (hS : ∀ a, S a a' → S' a c) :
    Cut R S' i l (l'.set i c) where
  length := by rw [length_set, h.length]
  before n a b hn ha hb := by
    rw [getElem?_set_ne hn.ne'] at hb
    exact h.before n a b hn ha hb
  here a b ha hb := by
    rw [getElem?_set_self (List.getElem?_eq_some_iff.mp ha').1] at hb
    cases hb
    exact hS a (h.here a a' ha ha')
  after n hn := by rw [getElem?_set_ne hn.ne, h.after n hn]

theorem finish (h : Cut R S i l l') (hi : l'.length ≤ i) : Forall₂ R l l' := by
  refine forall₂_iff_get.mpr ⟨h.length.symm, fun n hn hn' => ?_⟩
  exact h.before n _ _ (by omega) (getElem?_eq_getElem hn) (getElem?_eq_getElem hn')

end Cut

-- What becomes of one statement: the statement as it is now, and what is put before it.
structure Piece where
  inserted  : List Statement
  statement : Statement

def Piece.code (x : Piece) : List Statement :=
  x.inserted ++ [x.statement]

def Pieces (R : Statement → Piece → Prop) (body body' : List Statement) : Prop :=
  ∃ pieces, Forall₂ R body pieces ∧ body' = pieces.flatMap Piece.code

-- As `Pieces`, up to place `i` of what comes out.
def PiecesTo (R : Statement → Piece → Prop) (i : Nat) (body body' : List Statement) : Prop :=
  ∃ done done' rest, body = done ++ rest ∧ body' = done' ++ rest ∧ done'.length = i
    ∧ Pieces R done done'

section

variable {R R' : Statement → Piece → Prop} {i : Nat} {body body' : List Statement} {t : Statement}
  {x : Piece}

theorem Pieces.mono (h : Pieces R body body') (hR : ∀ s x, R s x → R' s x) :
    Pieces R' body body' := by
  obtain ⟨pieces, hp, rfl⟩ := h
  exact ⟨pieces, hp.imp hR, rfl⟩

namespace PiecesTo

theorem start (R : Statement → Piece → Prop) (body : List Statement) : PiecesTo R 0 body body :=
  ⟨[], [], body, rfl, rfl, rfl, [], .nil, rfl⟩

theorem mono (h : PiecesTo R i body body') (hR : ∀ s x, R s x → R' s x) :
    PiecesTo R' i body body' := by
  obtain ⟨done, done', rest, hb, hb', hi, hp⟩ := h
  exact ⟨done, done', rest, hb, hb', hi, hp.mono hR⟩

theorem next (h : PiecesTo R i body body') (ht : body'[i]? = some t) (hx : R t x) :
    PiecesTo R (i + x.code.length) body (body'.take i ++ x.code ++ body'.drop (i + 1)) := by
  obtain ⟨done, done', rest, rfl, rfl, rfl, pieces, hp, hdone⟩ := h
  rw [getElem?_append_right (Nat.le_refl _), Nat.sub_self] at ht
  cases rest
  case nil => cases ht
  case cons t' rest =>
    cases ht
    refine ⟨done ++ [t], done' ++ x.code, rest, by simp, by simp, length_append, pieces ++ [x], ?_,
      by simp [hdone]⟩
    exact rel_append hp (.cons hx .nil)

theorem finish (h : PiecesTo R i body body') (hn : body'[i]? = none) : Pieces R body body' := by
  obtain ⟨done, done', rest, rfl, rfl, rfl, hp⟩ := h
  have hrest : rest = [] := by simpa using hn
  simpa [hrest] using hp

end PiecesTo
end

structure Block.Reworked (R : Statement → Piece → Prop) (b b' : Block) : Prop where
  label : b'.label = b.label
  body  : Pieces R b.body b'.body

structure FunctionDraft.Reworked (R : Statement → Piece → Prop) (f f' : FunctionDraft) : Prop where
  rest   : f' = { f with blocks := f'.blocks }
  blocks : Forall₂ (Block.Reworked R) f.blocks f'.blocks

structure Block.ReworkedTo (R : Statement → Piece → Prop) (index : Nat) (b b' : Block) : Prop where
  label : b'.label = b.label
  body  : PiecesTo R index b.body b'.body

structure FunctionDraft.ReworkedTo (R : Statement → Piece → Prop) (block index : Nat)
    (f f' : FunctionDraft) : Prop where
  rest   : f' = { f with blocks := f'.blocks }
  blocks : Cut (Block.Reworked R) (Block.ReworkedTo R index) block f.blocks f'.blocks

section

variable {R R' : Statement → Piece → Prop} {block index : Nat} {b b' : Block} {f f' : FunctionDraft}

theorem Block.ReworkedTo.start (R : Statement → Piece → Prop) (b : Block) : b.ReworkedTo R 0 b :=
  ⟨rfl, .start R b.body⟩

theorem FunctionDraft.ReworkedTo.start (R : Statement → Piece → Prop) (f : FunctionDraft) :
    f.ReworkedTo R 0 0 f :=
  ⟨rfl, .start (.start R) f.blocks⟩

variable (hR : ∀ s x, R s x → R' s x)

include hR

theorem Block.Reworked.mono (h : b.Reworked R b') : b.Reworked R' b' :=
  ⟨h.label, h.body.mono hR⟩

theorem Block.ReworkedTo.mono (h : b.ReworkedTo R index b') : b.ReworkedTo R' index b' :=
  ⟨h.label, h.body.mono hR⟩

theorem FunctionDraft.Reworked.mono (h : f.Reworked R f') : f.Reworked R' f' :=
  ⟨h.rest, h.blocks.imp fun _ _ => Block.Reworked.mono hR⟩

theorem FunctionDraft.ReworkedTo.mono (h : f.ReworkedTo R block index f') :
    f.ReworkedTo R' block index f' :=
  ⟨h.rest, Cut.mono h.blocks (fun _ _ => Block.Reworked.mono hR) fun _ _ _ =>
    Block.ReworkedTo.mono hR⟩

end

namespace Draft

variable {R R' : Statement → Piece → Prop} {d d' d'' : Draft} {p : Position} {b : Block}
  {t : Statement} {x : Piece}

def Splices (d : Draft) (p : Position) (b : Block) (x : Piece) (d' : Draft) : Prop :=
  ∃ f, d.functions[p.function]? = some f ∧ f.blocks[p.block]? = some b
    ∧ d'.functions = d.functions.set p.function { f with
      blocks := f.blocks.set p.block ⟨b.label, b.body.take p.index ++ x.code
      ++ b.body.drop (p.index + 1)⟩ }

theorem splices_self (hb : d.block? p = some b) (ht : b.body[p.index]? = some t) :
    d.Splices p b ⟨[], t⟩ d := by
  obtain ⟨f, hf, hb⟩ := Option.bind_eq_some_iff.mp hb
  have hbody : b.body.take p.index ++ Piece.code ⟨[], t⟩ ++ b.body.drop (p.index + 1) = b.body := by
    rw [append_assoc, Piece.code, nil_append, singleton_append, ← drop_eq_cons_of_getElem? ht,
      take_append_drop]
  have hset {α : Type} {l : List α} {i : Nat} {a : α} (h : l[i]? = some a) : l.set i a = l := by
    obtain ⟨hi, rfl⟩ := List.getElem?_eq_some_iff.mp h
    exact set_getElem_self hi
  refine ⟨f, hf, hb, ?_⟩
  rw [hbody, hset hb, hset hf]

def ReworkedTo (R : Statement → Piece → Prop) (p : Position) (d d' : Draft) : Prop :=
  Cut (FunctionDraft.Reworked R) (FunctionDraft.ReworkedTo R p.block p.index) p.function d.functions
    d'.functions

namespace ReworkedTo

theorem start (R : Statement → Piece → Prop) (d : Draft) : ReworkedTo R ⟨0, 0, 0⟩ d d :=
  Cut.start (.start R) d.functions

theorem mono (h : ReworkedTo R p d d') (hR : ∀ s x, R s x → R' s x) : ReworkedTo R' p d d' :=
  Cut.mono h (fun _ _ => .mono hR) fun _ _ _ => .mono hR

theorem leave (h : ReworkedTo R p d d') (hn : d'.block? p = none) :
    ReworkedTo R ⟨p.function + 1, 0, 0⟩ d d' := by
  refine Cut.next h (fun f f' hf hto => ⟨hto.rest, hto.blocks.finish ?_⟩) (.start R)
  simpa [block?, hf] using hn

theorem leaveBlock (h : ReworkedTo R p d d') (hb : d'.block? p = some b)
    (hn : b.body[p.index]? = none) :
    ReworkedTo R ⟨p.function, p.block + 1, 0⟩ d d' := by
  refine Cut.mono h (fun _ _ h => h) fun f f' hf hto => ⟨hto.rest, ?_⟩
  refine hto.blocks.next (fun c c' hc hto => ⟨hto.label, hto.body.finish ?_⟩) (.start R)
  have hc' : c' = b := by simpa [block?, hf, hc] using hb
  rwa [hc']

theorem splice (h : ReworkedTo R p d d') (ht : b.body[p.index]? = some t) (hx : R t x)
    (hs : d'.Splices p b x d'') :
    ReworkedTo R { p with index := p.index + x.code.length } d d'' := by
  obtain ⟨f', hf', hb, hset⟩ := hs
  unfold ReworkedTo
  rw [hset]
  refine Cut.set h hf' fun f hto => ⟨by rw [hto.rest], ?_⟩
  exact hto.blocks.set hb fun c hto => ⟨hto.label, hto.body.next ht hx⟩

theorem finish (h : ReworkedTo R p d d') (hp : d'.functions.length ≤ p.function) :
    Forall₂ (FunctionDraft.Reworked R) d.functions d'.functions :=
  Cut.finish h hp

end ReworkedTo
end Draft
end Shader
