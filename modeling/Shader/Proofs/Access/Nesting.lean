import Shader.Proofs.Access.Finds
import Shader.Proofs.Access.Walk

namespace Shader

open List Relation

-- A call that has not returned: a walk with the ids it has met and the points ahead of it, or a
-- parameter with the arguments that are still to be walked.
inductive Call where
  | walk (visited : Std.TreeSet Id) (stack : List WalkPoint)
  | parameter (p : WalkPoint) (rest : List Id)

namespace Call

def isWalk : Call → Bool
  | walk .. => true
  | parameter .. => false

def depth (calls : List Call) : Nat :=
  calls.countP isWalk

variable (calls : List Call)

@[simp]
theorem depth_walk (visited : Std.TreeSet Id) (stack : List WalkPoint) :
    depth (walk visited stack :: calls) = depth calls + 1 :=
  countP_cons_of_pos rfl

@[simp]
theorem depth_parameter (p : WalkPoint) (rest : List Id) :
    depth (parameter p rest :: calls) = depth calls :=
  countP_cons_of_neg (by simp [isWalk])

end Call

structure Recursion where
  calls : List Call
  walk : Walk

namespace Outline

-- A walk calls for the parameter `p`. A parameter that is active or finished returns at once.
def enter (o : Outline) (p : WalkPoint) (calls : List Call) (w : Walk) : Recursion :=
  if w.finished.contains p then ⟨calls, w⟩
  else if w.active.contains p.id then ⟨calls, w.fail⟩
  else
    let arguments := o.argumentsOf p.id
    let w := if arguments.isEmpty then w.fail else w
    ⟨.parameter p arguments :: calls, { w with active := p.id :: w.active }⟩

def proceed (o : Outline) : Recursion → Checked Recursion
  | ⟨[], w⟩ => return ⟨[], w⟩
  | ⟨.walk _ [] :: calls, w⟩ => return ⟨calls, w⟩
  | ⟨.walk visited (p :: stack) :: calls, w⟩ =>
    if visited.contains p.id then return ⟨.walk visited stack :: calls, w⟩
    else if o.opOf? p.id = some .functionParameter then
      return o.enter p (.walk (visited.insert p.id) stack :: calls) w
    else do
      let ahead ← o.walkOn p
      return ⟨.walk (visited.insert p.id) (ahead ++ stack) :: calls,
        ← o.visit (fun w _ => return w) w p⟩
  | ⟨.parameter p (a :: rest) :: calls, w⟩ =>
    return ⟨.walk ∅ [⟨a, p.branch, p.index⟩] :: .parameter p rest :: calls, w⟩
  | ⟨.parameter p [] :: calls, w⟩ =>
    return ⟨calls, { w with active := w.active.erase p.id, finished := p :: w.finished }⟩

-- One step, after which at most `limit` walks are under way.
def Proceeds (o : Outline) (limit : Nat) (r r' : Recursion) : Prop :=
  o.proceed r = .ok r' ∧ Call.depth r'.calls ≤ limit

-- From `r` the recursion comes back to `calls` with the same parameters active, and `run` gives the
-- state that it has then if it is allowed to nest `least` walks or more.
def Returns (o : Outline) (limit least : Nat) (r : Recursion) (calls : List Call) (active : List Id)
    (run : Nat → Checked Walk) : Prop :=
  ∃ w, ReflTransGen (o.Proceeds limit) r ⟨calls, w⟩ ∧ w.active = active
    ∧ ∀ nesting ≥ least, run nesting = .ok w

def inactive (o : Outline) (active : List Id) : Finset Id :=
  o.parameterIds.filter (· ∉ active)

variable {o : Outline} {limit least k : Nat} {r r' : Recursion} {calls calls' : List Call}
  {active : List Id} {run : Nat → Checked Walk} {w : Walk} {p : WalkPoint} {a : Id}

theorem IsRead.card_inactive_cons (h : o.IsRead) (ho : o.opOf? a = some .functionParameter)
    (ha : a ∉ active) :
    (o.inactive (a :: active)).card + 1 = (o.inactive active).card := by
  have herase : o.inactive (a :: active) = (o.inactive active).erase a := by
    ext b
    simp only [inactive, mem_cons, not_or, Finset.mem_filter, Finset.mem_erase]
    tauto
  have hmem : a ∈ o.inactive active := Finset.mem_filter.mpr ⟨h.mem_parameterIds ho, ha⟩
  rw [herase, Finset.card_erase_add_one hmem]

theorem depth_enter : Call.depth (o.enter p calls w).calls = Call.depth calls := by
  simp only [enter]
  split
  case isTrue => rfl
  case isFalse =>
    split
    case isTrue => rfl
    case isFalse => exact Call.depth_parameter ..

namespace Returns

theorem rest (hr : ∀ nesting ≥ least, run nesting = .ok w) :
    o.Returns limit least ⟨calls, w⟩ calls w.active run :=
  ⟨w, .refl, rfl, hr⟩

theorem step (hs : o.proceed r = .ok r') (hl : Call.depth r'.calls ≤ limit)
    (h : o.Returns limit least r' calls active run) : o.Returns limit least r calls active run := by
  obtain ⟨w, hw, hrest⟩ := h
  exact ⟨w, hw.head ⟨hs, hl⟩, hrest⟩

theorem bind {next : Walk → Nat → Checked Walk} (h : o.Returns limit least r calls active run)
    (hn : ∀ w, w.active = active → o.Returns limit least ⟨calls, w⟩ calls' active (next w)) :
    o.Returns limit least r calls' active fun nesting => run nesting >>= (next · nesting) := by
  obtain ⟨w, hw, ha, hr⟩ := h
  obtain ⟨w', hw', ha', hr'⟩ := hn w ha
  refine ⟨w', hw.trans hw', ha', fun nesting hle => ?_⟩
  simp only [hr nesting hle]
  exact hr' nesting hle

end Returns

theorem exists_visit (ho : o.opOf? p.id ≠ some .functionParameter) (w : Walk) :
    ∃ w', w'.active = w.active ∧ ∀ walk, o.visit walk w p = .ok w' := by
  unfold visit
  split
  case h_1 => exact ⟨w.fail, rfl, fun _ => rfl⟩
  case h_2 op hop =>
    split
    case h_1 => exact ⟨w.record p, Walk.active_record, fun _ => rfl⟩
    case h_2 => exact absurd hop ho
    case h_8 =>
      split
      case isTrue => exact ⟨w, rfl, fun _ => rfl⟩
      case isFalse => exact ⟨w.fail, rfl, fun _ => rfl⟩
    all_goals exact ⟨w, rfl, fun _ => rfl⟩

theorem visit_parameter (ho : o.opOf? p.id = some .functionParameter)
    (walk : Walk → WalkPoint → Checked Walk) (w : Walk) :
    o.visit walk w p = o.visitParameter walk w p := by
  simp only [visit, ho]

variable (hwalk : ∀ (calls : List Call) (w : Walk) (p : WalkPoint), (o.inactive w.active).card < k →
  o.Returns (Call.depth calls + (o.inactive w.active).card + 1) ((o.inactive w.active).card + 1)
    ⟨.walk ∅ [p] :: calls, w⟩ calls w.active (o.walk · w p))

include hwalk

theorem arguments_return (calls : List Call) (args : List Id)
    (hk : (o.inactive w.active).card + 1 = k) :
    o.Returns (Call.depth calls + k) k ⟨.parameter p args :: calls, w⟩
      (.parameter p [] :: calls) w.active
      fun nesting => args.foldlM (fun w a => o.walk nesting w ⟨a, p.branch, p.index⟩) w := by
  induction args generalizing w
  case nil => exact .rest fun _ _ => rfl
  case cons a rest hi =>
    have hnested := hwalk (.parameter p rest :: calls) w ⟨a, p.branch, p.index⟩ (by omega)
    rw [Nat.add_assoc, hk, Call.depth_parameter] at hnested
    refine .step rfl ?_ (hnested.bind fun w' hw' => ?_)
    · simp only [Call.depth_walk, Call.depth_parameter]
      omega
    · rw [← hw'] at hk ⊢
      exact hi hk

theorem entered_returns (h : o.IsRead) (ho : o.opOf? p.id = some .functionParameter)
    (ha : p.id ∉ w.active) (hk : (o.inactive w.active).card = k) (calls : List Call)
    (args : List Id) :
    o.Returns (Call.depth calls + k) k ⟨.parameter p args :: calls,
      { w with active := p.id :: w.active }⟩ calls
      w.active fun nesting => do
        let left ← args.foldlM (fun w a => o.walk nesting w ⟨a, p.branch, p.index⟩)
          { w with active := p.id :: w.active }
        return { left with active := left.active.erase p.id, finished := p :: left.finished } := by
  obtain ⟨left, hleft, hactive, hrun⟩ := arguments_return (p := p)
    (w := { w with active := p.id :: w.active }) hwalk calls args
    ((h.card_inactive_cons ho ha).trans hk)
  refine ⟨_, hleft.tail ⟨rfl, Nat.le_add_right _ _⟩, ?_, fun nesting hle => ?_⟩
  · show left.active.erase p.id = w.active
    rw [hactive]
    exact erase_cons_head _ _
  · simp only [hrun nesting hle]
    rfl

theorem parameter_returns (h : o.IsRead) (ho : o.opOf? p.id = some .functionParameter)
    (hk : (o.inactive w.active).card = k) (calls : List Call) :
    o.Returns (Call.depth calls + k) k (o.enter p calls w) calls w.active
      fun nesting => o.visitParameter (o.walk nesting) w p := by
  simp only [enter, visitParameter]
  split
  case isTrue => exact .rest fun _ _ => rfl
  case isFalse =>
    split
    case isTrue => exact .rest fun _ _ => rfl
    case isFalse ha =>
      rw [contains_iff_mem] at ha
      -- Without arguments the walk fails, and is otherwise the same.
      split
      case isTrue => exact entered_returns (w := w.fail) hwalk h ho ha hk calls (o.argumentsOf p.id)
      case isFalse => exact entered_returns hwalk h ho ha hk calls (o.argumentsOf p.id)

theorem loop_returns (h : o.IsRead) {visited : Std.TreeSet Id} {stack items : List WalkPoint}
    (hi : Trail.InTurn WalkPoint.id (fun p => (o.walkOn p).toOption.getD []) visited stack items)
    (hk : (o.inactive w.active).card = k) (calls : List Call) :
    o.Returns (Call.depth calls + k + 1) k ⟨.walk visited stack :: calls, w⟩ calls w.active
      fun nesting => items.foldlM (o.visit (o.walk nesting)) w := by
  induction hi generalizing w
  case done => exact .step rfl (by simp only; omega) (.rest fun _ _ => rfl)
  case skip hv _ hi =>
    refine .step ?_ (by simp) (hi hk)
    simp only [proceed, hv, ↓reduceIte]
    rfl
  case meet visited p stack items hv _ hi =>
    obtain ⟨ahead, hp⟩ := walkOn_succeeds h.indexed.framed p
    simp only [hp, Except.toOption, Option.getD_some] at hi
    simp only [foldlM_cons]
    by_cases ho : o.opOf? p.id = some .functionParameter
    case pos =>
      -- A parameter has no operands to go on to, so the stack below it is kept.
      have hnil : ahead = [] := by
        refine eq_nil_iff_forall_not_mem.mpr fun q hq => ?_
        obtain ⟨_, hk⟩ := (mem_walkOn hp).mp hq
        exact not_operand_of_parameter ho hk.operand
      have hparameter := parameter_returns hwalk h ho hk
        (.walk (visited.insert p.id) stack :: calls)
      rw [Call.depth_walk, Nat.add_right_comm] at hparameter
      simp only [visit_parameter ho]
      refine .step ?_ ?_ (hparameter.bind fun w' hw' => ?_)
      · simp only [proceed, hv, ho, ↓reduceIte]
        rfl
      · simp only [depth_enter, Call.depth_walk]
        omega
      · rw [hnil, nil_append] at hi
        rw [← hw'] at hk ⊢
        exact hi hk
    case neg =>
      obtain ⟨w', hw', hvisit⟩ := exists_visit ho w
      rw [← hw'] at hk ⊢
      simp only [hvisit]
      refine .step ?_ (by simp) (hi hk)
      simp only [proceed, hv, ho, ↓reduceIte, hp, hvisit]
      rfl

omit hwalk

theorem walk_returns (h : o.IsRead) (calls : List Call) (w : Walk) (p : WalkPoint) :
    o.Returns (Call.depth calls + (o.inactive w.active).card + 1) ((o.inactive w.active).card + 1)
      ⟨.walk ∅ [p] :: calls, w⟩ calls w.active (o.walk · w p) := by
  induction hk : (o.inactive w.active).card using Nat.strong_induction_on generalizing calls w p
  case h k hi =>
    have hturn := search_inTurn h.mem_keys_of_walkOn o.card_keys_le p
    obtain ⟨points, hp⟩ := checkedSearch_succeeds (walkOn_succeeds h.indexed.framed)
      o.definitions.size p
    rw [← of_checkedSearch hp] at hturn
    obtain ⟨w', hw', hactive, hrun⟩ :=
      loop_returns (fun _ _ _ hlt => hi _ hlt _ _ _ rfl) h hturn hk calls
    refine ⟨w', hw', hactive, fun nesting hle => ?_⟩
    obtain ⟨nested, rfl⟩ : ∃ nested, nesting = nested + 1 := ⟨nesting - 1, by omega⟩
    simp only [walk, hp]
    exact hrun nested (by omega)

theorem isRead_of_ofWords {words : List Word} {b : Binary} (hb : Binary.ofWords words = .ok b)
    (ho : ofBinary b = .ok o) : o.IsRead := by
  obtain ⟨rfl, _⟩ := of_ofBinary ho
  exact ⟨Binary.read_valid hb, Binary.indexed_of_read hb, ho⟩

-- Walks end, from every point and in every state, with no more than one walk for each parameter
-- under way besides the first; and `walk` gives what they end with. Whatever else is under way,
-- walks and parameters that are entered return and leave the active parameters as they were.
theorem walk_terminates {words : List Word} {b : Binary} (hb : Binary.ofWords words = .ok b)
    (ho : ofBinary b = .ok o) :
    (∀ w p, ∃ w', ReflTransGen (o.Proceeds (o.parameterIds.card + 1)) ⟨[.walk ∅ [p]], w⟩ ⟨[], w'⟩
      ∧ w'.active = w.active ∧ ∀ more, o.walk (o.parameterCount + 1 + more) w p = .ok w')
    ∧ (∀ calls w p, ∃ w', ReflTransGen
      (o.Proceeds (Call.depth calls + (o.inactive w.active).card + 1))
      ⟨.walk ∅ [p] :: calls, w⟩ ⟨calls, w'⟩ ∧ w'.active = w.active)
    ∧ ∀ calls w p, o.opOf? p.id = some .functionParameter →
      ∃ w', ReflTransGen (o.Proceeds (Call.depth calls + (o.inactive w.active).card))
        (o.enter p calls w) ⟨calls, w'⟩
        ∧ w'.active = w.active := by
  have h := isRead_of_ofWords hb ho
  have hcard (w : Walk) : (o.inactive w.active).card ≤ o.parameterIds.card :=
    Finset.card_filter_le _ _
  have hcount := o.card_parameterIds_le
  refine ⟨fun w p => ?_, fun calls w p => ?_, fun calls w p hp => ?_⟩
  · obtain ⟨w', hw', hactive, hrun⟩ := walk_returns h [] w p
    have hle := hcard w
    refine ⟨w', ReflTransGen.mono (fun r r' hr => ⟨hr.left, hr.right.trans ?_⟩) _ _ hw', hactive,
      fun more => hrun _ (by omega)⟩
    simpa [Call.depth] using hle
  · obtain ⟨w', hw', hactive, _⟩ := walk_returns h calls w p
    exact ⟨w', hw', hactive⟩
  · obtain ⟨w', hw', hactive, _⟩ :=
      parameter_returns (fun calls w p _ => walk_returns h calls w p) h hp rfl calls
    exact ⟨w', hw', hactive⟩

-- The functions 4 and 8 call each other, 8 also calls itself, and all pass on what they are passed.
-- The function 13 passes the variable 3.
def passesAround : List Word :=
  [Header.magicNumber, 0x00010500, 0, 18, 0, 0x20013, 1, 0x40020, 2, 0, 1, 0x4003B, 2, 3, 0,
   0x40053, 1, 17, 17, 0x50036, 1, 4, 0, 1, 0x30037, 2, 5, 0x200F8, 6, 0x50039, 1, 7, 8, 5, 0x4003D,
   1, 14, 5, 0x100FD, 0x10038,
   0x50036, 1, 8, 0, 1, 0x30037, 2, 9, 0x200F8, 10, 0x50039, 1, 11, 4, 9, 0x50039, 1, 12, 8, 9,
   0x100FD, 0x10038,
   0x50036, 1, 13, 0, 1, 0x200F8, 15, 0x50039, 1, 16, 4, 3, 0x100FD, 0x10038]

theorem walk_terminates_passesAround :
    ∃ b o, Binary.ofWords passesAround = .ok b ∧ ofBinary b = .ok o
      ∧ o.opOf? 9 = some .functionParameter
      ∧ (∃ w, ReflTransGen (o.Proceeds 3) ⟨[.walk ∅ [⟨14, .image, none⟩]], {}⟩ ⟨[], w⟩
        ∧ w.active = []
        ∧ w.image.found = [3] ∧ w.valid = false)
      ∧ ∃ w, ReflTransGen (o.Proceeds 1) (o.enter ⟨9, .image, none⟩ [] { active := [5] }) ⟨[], w⟩
      ∧ w.active = [5] := by
  obtain ⟨b, hb, hread⟩ : ∃ b, Binary.ofWords passesAround = .ok b
      ∧ ((ofBinary b).map fun o => decide
      (o.opOf? 9 = some .functionParameter ∧ o.parameterIds.card = 2 ∧ o.parameterCount = 2
        ∧ (o.inactive [5]).card = 1 ∧ ((o.walk 3 {} ⟨14, .image, none⟩).map fun w =>
          decide (w.image.found = [3] ∧ w.valid = false)) = .ok true)) = .ok true :=
    exists_ok_of_decide (by decide +kernel)
  obtain ⟨o, ho, hp, hids, hcount, hinactive, hwalk⟩ := exists_ok_of_decide hread
  obtain ⟨found, hwalk, hfound⟩ := exists_ok_of_decide hwalk
  obtain ⟨hends, _, hreturns⟩ := walk_terminates hb ho
  obtain ⟨w, hw, hactive, hrun⟩ := hends {} ⟨14, .image, none⟩
  obtain ⟨w', hw', hactive'⟩ := hreturns [] { active := [5] } ⟨9, .image, none⟩ hp
  have hsame := hrun 0
  rw [hcount, hwalk] at hsame
  cases hsame
  rw [hids] at hw
  simp only [hinactive, Call.depth, countP_nil, Nat.zero_add] at hw'
  exact ⟨b, o, hb, ho, hp, ⟨_, hw, hactive, hfound⟩, w', hw', hactive'⟩

end Outline
end Shader
