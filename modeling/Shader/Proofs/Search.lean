import Mathlib
import Shader.Search

namespace Shader

open List Relation

namespace Trail

variable {α : Type} {key : α → Id} {next : α → List α} {start : α} {stack : List α} {t : Trail α}

theorem mem_keys_add {a : α} {k : Id} : k ∈ (t.add key a).keys ↔ k = key a ∨ k ∈ t.keys := by
  rw [add, Std.TreeSet.mem_insert, Std.LawfulEqCmp.compare_eq_iff_eq, eq_comm]

theorem items_add (t : Trail α) (a : α) : (t.add key a).items = a :: t.items :=
  rfl

-- What is true of a search from `start` that has met `t` and has not looked at `stack` yet.
structure Explores (key : α → Id) (next : α → List α) (start : α) (stack : List α) (t : Trail α) :
    Prop where
  keys    : ∀ k, k ∈ t.keys ↔ ∃ a ∈ t.items, key a = k
  reached : ∀ a, a ∈ t.items ∨ a ∈ stack → ReflTransGen (fun a b => b ∈ next a) start a
  start   : key start ∈ t.keys ∨ start ∈ stack
  closed  : ∀ a ∈ t.items, ∀ b ∈ next a, key b ∈ t.keys ∨ b ∈ stack

namespace Explores

theorem init (key : α → Id) (next : α → List α) (start : α) :
    Explores key next start [start] {} where
  keys    := by simp
  reached := by simp [ReflTransGen.refl]
  start   := by simp
  closed  := by simp

theorem skip {a : α} (h : Explores key next start (a :: stack) t) (ha : key a ∈ t.keys) :
    Explores key next start stack t where
  keys    := h.keys
  reached := fun b hb => h.reached b (hb.imp_right (mem_cons_of_mem a))
  start   := by
    obtain hs | hs := h.start
    · exact .inl hs
    · obtain rfl | hs := mem_cons.mp hs
      · exact .inl ha
      · exact .inr hs
  closed  := by
    intro b hb c hc
    obtain hk | hs := h.closed b hb c hc
    · exact .inl hk
    · obtain rfl | hs := mem_cons.mp hs
      · exact .inl ha
      · exact .inr hs

theorem meet {a : α} (h : Explores key next start (a :: stack) t) :
    Explores key next start (next a ++ stack) (t.add key a) where
  keys    := by
    intro k
    rw [mem_keys_add, h.keys, items_add, eq_comm]
    simp only [mem_cons, exists_eq_or_imp]
  reached := by
    intro b hb
    simp only [items_add, mem_cons, mem_append] at hb
    have hreach := h.reached a (.inr mem_cons_self)
    obtain (rfl | hb) | hb | hb := hb
    · exact hreach
    · exact h.reached b (.inl hb)
    · exact hreach.tail hb
    · exact h.reached b (.inr (mem_cons_of_mem a hb))
  start   := by
    simp only [mem_keys_add, mem_append]
    obtain hs | hs := h.start
    · exact .inl (.inr hs)
    · obtain rfl | hs := mem_cons.mp hs
      · exact .inl (.inl rfl)
      · exact .inr (.inr hs)
  closed  := by
    simp only [items_add, mem_cons, mem_append, forall_eq_or_imp]
    refine ⟨fun b hb => .inr (.inl hb), fun b hb c hc => ?_⟩
    have hadd : key c ∈ (t.add key a).keys ↔ key c = key a ∨ key c ∈ t.keys := mem_keys_add
    obtain hk | hs := h.closed b hb c hc
    · exact .inl (hadd.mpr (.inr hk))
    · obtain rfl | hs := mem_cons.mp hs
      · exact .inl (hadd.mpr (.inl rfl))
      · exact .inr (.inr hs)

theorem advance (h : Explores key next start stack t) :
    Explores key next start (Trail.advance key next stack t).2
      (Trail.advance key next stack t).1 := by
  fun_induction Trail.advance key next stack t
  case case1 => exact h
  case case2 a stack t ha hi => exact hi (h.skip (Std.TreeSet.contains_iff_mem.mp ha))
  case case3 a stack t _ hn hi =>
    have hm := h.meet
    rw [hn] at hm
    exact hi hm
  case case4 => exact h.meet

end Explores

theorem keys_advance (key : α → Id) (next : α → List α) (stack : List α) (t : Trail α) :
    ∀ k ∈ t.keys, k ∈ (advance key next stack t).1.keys := by
  fun_induction advance key next stack t
  case case1 => exact fun _ hk => hk
  case case2 hi => exact hi
  case case3 hi => exact fun k hk => hi k (mem_keys_add.mpr (.inr hk))
  case case4 => exact fun k hk => mem_keys_add.mpr (.inr hk)

structure Distinct (key : α → Id) (t : Trail α) : Prop where
  nodup : (t.items.map key).Nodup
  keys  : ∀ a ∈ t.items, key a ∈ t.keys

namespace Distinct

theorem empty : Distinct key {} :=
  ⟨by simp, by simp⟩

theorem add (h : t.Distinct key) {a : α} (ha : key a ∉ t.keys) : (t.add key a).Distinct key where
  nodup := by
    rw [items_add, map_cons, nodup_cons, mem_map]
    exact ⟨fun ⟨b, hb, hkey⟩ => ha (hkey ▸ h.keys b hb), h.nodup⟩
  keys  := by
    intro b hb
    obtain rfl | hb := mem_cons.mp hb
    · exact mem_keys_add.mpr (.inl rfl)
    · exact mem_keys_add.mpr (.inr (h.keys b hb))

theorem advance (h : t.Distinct key) (next : α → List α) (stack : List α) :
    (Trail.advance key next stack t).1.Distinct key := by
  have hnot {a : α} {t : Trail α} (ha : ¬t.keys.contains (key a)) : key a ∉ t.keys :=
    fun hm => ha (Std.TreeSet.contains_iff_mem.mpr hm)
  fun_induction Trail.advance key next stack t
  case case1 => exact h
  case case2 hi => exact hi h
  case case3 ha _ hi => exact hi (h.add (hnot ha))
  case case4 ha _ => exact h.add (hnot ha)

theorem follow (h : t.Distinct key) (next : α → List α) (rounds : Nat) (stack : List α) :
    (Trail.follow key next rounds stack t).Distinct key := by
  induction rounds generalizing stack t
  case zero => exact h
  case succ rounds hi =>
    have ha := h.advance next stack
    unfold Trail.follow
    split
    case h_1 heq =>
      rw [heq] at ha
      exact ha
    case h_2 heq =>
      rw [heq] at ha
      exact hi ha _

end Distinct

theorem advance_progress {keys : Finset Id} (hkeys : ∀ a, next a ≠ [] → key a ∈ keys)
    (h : (advance key next stack t).2 ≠ []) :
    ∃ k ∈ keys, k ∉ t.keys ∧ k ∈ (advance key next stack t).1.keys := by
  fun_induction advance key next stack t
  case case1 => exact absurd rfl h
  case case2 hi => exact hi h
  case case3 hi =>
    obtain ⟨k, hk, hold, hnew⟩ := hi h
    exact ⟨k, hk, fun hm => hold (mem_keys_add.mpr (.inr hm)), hnew⟩
  case case4 a stack t ha hn =>
    exact ⟨key a, hkeys a hn, fun hm => ha (Std.TreeSet.contains_iff_mem.mpr hm),
      mem_keys_add.mpr (.inl rfl)⟩

theorem card_advance_lt {keys : Finset Id} (hkeys : ∀ a, next a ≠ [] → key a ∈ keys)
    (h : (advance key next stack t).2 ≠ []) :
    (keys.filter (· ∉ (advance key next stack t).1.keys)).card
      < (keys.filter (· ∉ t.keys)).card := by
  obtain ⟨k, hk, hold, hnew⟩ := advance_progress hkeys h
  refine Finset.card_lt_card (Finset.ssubset_iff_of_subset (fun k hk => ?_) |>.mpr ⟨k, ?_, ?_⟩)
  · simp only [Finset.mem_filter] at hk ⊢
    exact ⟨hk.left, fun hm => hk.right (keys_advance key next stack t k hm)⟩
  · simp [hk, hold]
  · simp [hnew]

-- There are at least as many rounds as keys that lead on and were not met, so the search ends.
theorem follow_spec {keys : Finset Id} (hkeys : ∀ a, next a ≠ [] → key a ∈ keys) {rounds : Nat}
    (hr : (keys.filter (· ∉ t.keys)).card < rounds) (h : Explores key next start stack t) :
    Explores key next start [] (follow key next rounds stack t)
      ∧ ∀ more, follow key next (rounds + more) stack t = follow key next rounds stack t := by
  induction rounds generalizing stack t
  case zero => omega
  case succ rounds hi =>
    have ha := h.advance
    have hcard := @card_advance_lt _ _ _ stack t keys hkeys
    simp only [follow, Nat.add_right_comm rounds 1]
    split
    case h_1 t' heq =>
      rw [heq] at ha
      exact ⟨ha, fun _ => rfl⟩
    case h_2 t' stack' hn heq =>
      rw [heq] at ha hcard
      exact hi (Nat.lt_of_lt_of_le (hcard hn) (Nat.lt_succ_iff.mp hr)) ha

-- The items that are met in turn: always the top of the stack, unless its key was met before.
inductive InTurn (key : α → Id) (next : α → List α) :
    (visited : Std.TreeSet Id) → (stack items : List α) → Prop
  | done {visited} : InTurn key next visited [] []
  | skip {visited a stack items} : visited.contains (key a) → InTurn key next visited stack items →
    InTurn key next visited (a :: stack) items
  | meet {visited a stack items} : ¬visited.contains (key a) →
    InTurn key next (visited.insert (key a)) (next a ++ stack) items →
    InTurn key next visited (a :: stack) (a :: items)

theorem InTurn.advance {items : List α}

    (h : InTurn key next (Trail.advance key next stack t).1.keys (Trail.advance key next stack t).2
      items) :
    ∃ met, (Trail.advance key next stack t).1.items = met.reverse ++ t.items
      ∧ InTurn key next t.keys stack (met ++ items) := by
  fun_induction Trail.advance key next stack t
  case case1 => exact ⟨[], rfl, h⟩
  case case2 ha hi =>
    obtain ⟨met, heq, hmet⟩ := hi h
    exact ⟨met, heq, .skip ha hmet⟩
  case case3 a stack t ha hn hi =>
    obtain ⟨met, heq, hmet⟩ := hi h
    refine ⟨a :: met, by simp [heq, items_add], .meet ha ?_⟩
    rwa [hn, nil_append]
  case case4 a stack t ha _ => exact ⟨[a], rfl, .meet ha h⟩

theorem inTurn_follow {keys : Finset Id} (hkeys : ∀ a, next a ≠ [] → key a ∈ keys) (stack : List α)
    {rounds : Nat} (hr : (keys.filter (· ∉ t.keys)).card < rounds) :
    ∃ items, (follow key next rounds stack t).items = reverse items ++ t.items
      ∧ InTurn key next t.keys stack items := by
  induction rounds generalizing stack t
  case zero => omega
  case succ rounds hi =>
    have hcard := @card_advance_lt _ _ _ stack t keys hkeys
    have hadvance {items : List α} := @InTurn.advance α key next stack t items
    rw [follow]
    split
    case h_1 t' heq =>
      rw [heq] at hadvance
      obtain ⟨met, heq, hmet⟩ := hadvance .done
      exact ⟨met, heq, by simpa using hmet⟩
    case h_2 t' stack' hn heq =>
      rw [heq] at hcard hadvance
      have hr' : (keys.filter (· ∉ t'.keys)).card < rounds :=
        Nat.lt_of_lt_of_le (hcard hn) (Nat.lt_succ_iff.mp hr)
      obtain ⟨items, hitems, hrest⟩ := hi stack' hr'
      obtain ⟨met, hfirst, hmet⟩ := hadvance hrest
      have hfirst : t'.items = met.reverse ++ t.items := hfirst
      exact ⟨met ++ items, by simp [hitems, hfirst], hmet⟩

end Trail

section

variable {α : Type} {key : α → Id} {next : α → List α} {keys : Finset Id}
  (hkeys : ∀ a, next a ≠ [] → key a ∈ keys) {n : Nat} (hn : keys.card ≤ n) (start : α)

include hkeys hn

theorem search_explores :
    ∃ t : Trail α, t.Explores key next start [] ∧ search key next n start = t.items.reverse
      ∧ ∀ more, search key next (n + more) start = t.items.reverse := by
  have hr : (keys.filter (· ∉ ({} : Trail α).keys)).card < n + 1 :=
    Nat.lt_succ_of_le ((Finset.card_filter_le _ _).trans hn)
  obtain ⟨he, hmore⟩ := Trail.follow_spec hkeys hr (.init key next start)
  refine ⟨_, he, rfl, fun more => ?_⟩
  rw [search, Nat.add_right_comm, hmore]

theorem search_inTurn : Trail.InTurn key next ∅ [start] (search key next n start) := by
  have hr : (keys.filter (· ∉ ({} : Trail α).keys)).card < n + 1 :=
    Nat.lt_succ_of_le ((Finset.card_filter_le _ _).trans hn)
  obtain ⟨items, heq, hitems⟩ := Trail.inTurn_follow hkeys [start] hr
  rw [search, heq, reverse_append, reverse_reverse]
  simpa using hitems

theorem search_stable (more : Nat) :
    search key next (n + more) start = search key next n start := by
  obtain ⟨t, _, heq, hmore⟩ := search_explores hkeys hn start
  rw [hmore, heq]

theorem reaches_of_mem_search {a : α} (h : a ∈ search key next n start) :
    ReflTransGen (fun a b => b ∈ next a) start a := by
  obtain ⟨t, he, heq, _⟩ := search_explores hkeys hn start
  exact he.reached a (.inl (mem_reverse.mp (heq ▸ h)))

theorem exists_mem_search (hnext : ∀ a b, key a = key b → ∀ c ∈ next a, ∃ d ∈ next b, key d = key c)
    {a : α} (h : ReflTransGen (fun a b => b ∈ next a) start a) :
    ∃ b ∈ search key next n start, key b = key a := by
  obtain ⟨t, he, heq, _⟩ := search_explores hkeys hn start
  simp only [heq, mem_reverse, ← he.keys]
  induction h
  case refl => exact he.start.resolve_right not_mem_nil
  case tail b c _ hc hi =>
    obtain ⟨b', hb, hkey⟩ := (he.keys _).mp hi
    obtain ⟨d, hd, hkey⟩ := hnext b b' hkey.symm c hc
    exact hkey ▸ (he.closed b' hb d hd).resolve_right not_mem_nil

theorem mem_search_iff (hinj : ∀ a b, ReflTransGen (fun a b => b ∈ next a) start a →
    ReflTransGen (fun a b => b ∈ next a) start b → key a = key b → a = b) {a : α} :
    a ∈ search key next n start ↔ ReflTransGen (fun a b => b ∈ next a) start a := by
  refine ⟨reaches_of_mem_search hkeys hn start, fun h => ?_⟩
  obtain ⟨t, he, heq, _⟩ := search_explores hkeys hn start
  rw [heq, mem_reverse]
  -- Whatever was met under the key of `b` is `b`.
  have hmet {b : α} (hb : ReflTransGen (fun a b => b ∈ next a) start b) (hk : key b ∈ t.keys) :
      b ∈ t.items := by
    obtain ⟨c, hc, hkey⟩ := (he.keys _).mp hk
    exact hinj c b (he.reached c (.inl hc)) hb hkey ▸ hc
  induction h
  case refl => exact hmet .refl (he.start.resolve_right not_mem_nil)
  case tail b c hb hc hi =>
    exact hmet (hb.tail hc) ((he.closed b hi c hc).resolve_right not_mem_nil)

end

theorem nodup_search {α : Type} (key : α → Id) (next : α → List α) (n : Nat) (start : α) :
    ((search key next n start).map key).Nodup := by
  rw [search, map_reverse, nodup_reverse]
  exact (Trail.Distinct.empty.follow next (n + 1) [start]).nodup

theorem mem_search_id_iff {next : Id → List Id} {keys : Finset Id}
    (hkeys : ∀ a, next a ≠ [] → a ∈ keys) {n : Nat} (hn : keys.card ≤ n) {start a : Id} :
    a ∈ search id next n start ↔ ReflTransGen (fun a b => b ∈ next a) start a :=
  mem_search_iff hkeys hn start fun _ _ _ _ h => h

end Shader
