import DDFramework.Library.Machine
import DDFramework.Verification.IntrusiveList.RangeFor
import Mathlib.Data.List.Nodup

/-! # Intrusive lists as sequences

Every list is a sequence of nodes, each node is in at most one of them, and the operations
act on the sequences. -/

namespace DDFramework.IntrusiveList

variable {H N : Type*}

open Classical in
/-- The operations on one sequence of nodes for each list. -/
noncomputable def sequencePerform [DecidableEq H] [DecidableEq N] (S : H → List N) :
    Action H N → Option (H → List N)
  | .pushBack list node =>
    if ∀ l, node ∉ S l then some (Function.update S list (S list ++ [node])) else none
  | .popFront list =>
    if S list = [] then none else some (Function.update S list (S list).tail)
  | .popBack list =>
    if S list = [] then none else some (Function.update S list (S list).dropLast)
  | .remove node => some (fun l => (S l).erase node)

/-- The rings of the lists are the sequences, and the other nodes are detached. -/
structure Represents (L : Links (H ⊕ N)) (S : H → List N) : Prop where
  coherent : L.Coherent
  ring : ∀ l, L.Ring (.inl l) ((S l).map .inr)
  detached : ∀ x, (∀ l, x ∉ S l) → L.next (.inr x) = .inr x

theorem detached_represents : Represents (Links.detached (H ⊕ N)) (fun _ => []) where
  coherent := Links.detached_coherent
  ring _ := Links.ring_nil.mpr rfl
  detached _ _ := rfl

namespace Represents

variable {L : Links (H ⊕ N)} {S : H → List N} {l l' : H} {x : N}

theorem nodup (h : Represents L S) (l : H) : (S l).Nodup :=
  List.Nodup.of_map _ (List.nodup_cons.mp (h.ring l).nodup).2

/-- A node is in one list at most. -/
theorem list_unique (h : Represents L S) (hx : x ∈ S l) (hx' : x ∈ S l') : l = l' := by
  by_contra hne
  have hhead : (.inl l' : H ⊕ N) ∉ .inl l :: (S l).map .inr := by simp [Ne.symm hne]
  have hdisjoint := (h.ring l).disjoint h.coherent (h.ring l') hhead
  exact hdisjoint (a := .inr x) (by simpa using hx) (by simpa using hx')

theorem detached_iff (h : Represents L S) : L.next (.inr x) = .inr x ↔ ∀ l, x ∉ S l := by
  refine ⟨fun hx l hm => ?_, h.detached x⟩
  exact (h.ring l).next_ne_of_mem (List.mem_map_of_mem hm) hx

theorem popFront_fst [DecidableEq H] [DecidableEq N] (h : Represents L S) {xs : List N}
    (hS : S l = x :: xs) : (L.popFront (.inl l)).1 = .inr x := by
  have hring := h.ring l
  rw [hS] at hring
  exact hring.next_head

theorem popBack_fst [DecidableEq H] [DecidableEq N] (h : Represents L S) {xs : List N}
    (hS : S l = xs ++ [x]) : (L.popBack (.inl l)).1 = .inr x := by
  have hring := h.ring l
  rw [hS, List.map_append, List.map_singleton] at hring
  exact h.coherent.next_eq_iff.mp (Links.path_append.mp hring.path).2

/-! ### The operations -/

variable [DecidableEq H] [DecidableEq N]

theorem erase_middle {xs ys zs : List N} (hn : xs.Nodup) (hxs : xs = ys ++ x :: zs) :
    xs.erase x = ys ++ zs := by
  subst xs
  have hx : x ∉ ys := fun hm => List.disjoint_of_nodup_append hn hm (by simp)
  rw [List.erase_append_right _ hx, List.erase_cons_head]

theorem remove (h : Represents L S) (x : N) :
    Represents (L.unlink (.inr x)) (fun l => (S l).erase x) where
  coherent := h.coherent.unlink _
  ring l := by
    have hring := h.ring l
    by_cases hx : x ∈ S l
    · obtain ⟨ys, zs, hS⟩ := List.append_of_mem hx
      rw [erase_middle (h.nodup l) hS, List.map_append]
      rw [hS, List.map_append, List.map_cons] at hring
      exact hring.unlink_middle h.coherent
    · rw [List.erase_of_not_mem hx]
      exact hring.unlink_of_notMem h.coherent (by simpa using hx)
  detached y hy := by
    by_cases hyx : y = x
    · rw [hyx, Links.unlink_next_self]
    · refine Links.unlink_next_of_next_eq h.coherent (h.detached y fun l hm => hy l ?_)
      exact (List.mem_erase_of_ne hyx).mpr hm

/-- Removing a node of a list leaves the other lists alone. -/
theorem erase_eq_update (h : Represents L S) (hx : x ∈ S l) :
    (fun l => (S l).erase x) = Function.update S l ((S l).erase x) := by
  funext k
  by_cases hk : k = l
  · simp [hk]
  · rw [Function.update_of_ne hk, List.erase_of_not_mem]
    exact fun hm => hk (h.list_unique hm hx)

theorem popFront (h : Represents L S) (hne : S l ≠ []) :
    Represents (L.popFront (.inl l)).2 (Function.update S l (S l).tail) := by
  obtain ⟨x, xs, hS⟩ := List.exists_cons_of_ne_nil hne
  have herase := h.erase_eq_update (x := x) (l := l) (by simp [hS])
  have htail : (S l).erase x = (S l).tail := by simp [hS]
  rw [htail] at herase
  rw [← herase]
  have hunlink : (L.popFront (.inl l)).2 = L.unlink (L.popFront (.inl l)).1 := rfl
  rw [hunlink, h.popFront_fst hS]
  exact h.remove x

theorem popBack (h : Represents L S) (hne : S l ≠ []) :
    Represents (L.popBack (.inl l)).2 (Function.update S l (S l).dropLast) := by
  obtain ⟨xs, x, hS⟩ := (List.eq_nil_or_concat' (S l)).resolve_left hne
  have herase := h.erase_eq_update (x := x) (l := l) (by simp [hS])
  have hlast : (S l).erase x = (S l).dropLast := by
    rw [erase_middle (h.nodup l) hS, hS]
    simp
  rw [hlast] at herase
  rw [← herase]
  have hunlink : (L.popBack (.inl l)).2 = L.unlink (L.popBack (.inl l)).1 := rfl
  rw [hunlink, h.popBack_fst hS]
  exact h.remove x

/-- Linking a detached node at the head or at an element of a list changes this list only. -/
theorem linkAt (h : Represents L S) (hx : ∀ l, x ∉ S l) {head : H ⊕ N} {zs : List N}
    (hhead : head ∈ (.inl l :: (S l).map .inr : List (H ⊕ N)))
    (hring : (L.pushBack head (.inr x)).Ring (.inl l) (zs.map .inr))
    (hzs : ∀ y, y ∈ zs ↔ y = x ∨ y ∈ S l) :
    Represents (L.pushBack head (.inr x)) (Function.update S l zs) where
  coherent := h.coherent.pushBack _ _
  ring k := by
    by_cases hk : k = l
    · subst k
      rwa [Function.update_self]
    · rw [Function.update_of_ne hk]
      have hother : (.inl l : H ⊕ N) ∉ .inl k :: (S k).map .inr := by simp [Ne.symm hk]
      have hdisjoint := (h.ring k).disjoint h.coherent (h.ring l) hother
      exact (h.ring k).pushBack_of_notMem h.coherent (fun hm => hdisjoint hm hhead)
        (by simpa using hx k)
  detached y hy := by
    have hold : y ≠ x ∧ ∀ k, y ∉ S k := by
      have hl := hy l
      rw [Function.update_self, hzs, not_or] at hl
      refine ⟨hl.1, fun k => ?_⟩
      by_cases hk : k = l
      · exact hk ▸ hl.2
      · simpa [Function.update_of_ne hk] using hy k
    have hne : head ≠ .inr y := by
      rintro rfl
      exact hold.2 l (by simpa using hhead)
    exact Links.pushBack_next_of_next_eq h.coherent (h.detached y hold.2) hne
      (by simpa using hold.1.symm)

theorem pushBack (h : Represents L S) (hx : ∀ l, x ∉ S l) :
    Represents (L.pushBack (.inl l) (.inr x)) (Function.update S l (S l ++ [x])) := by
  refine h.linkAt hx List.mem_cons_self ?_ fun y => by simp [or_comm]
  rw [List.map_append]
  exact (h.ring l).pushBack h.coherent (h.detached x hx) (by simpa using hx l)

theorem perform (h : Represents L S) (a : Action H N) :
    Option.Rel Represents (perform L a) (sequencePerform S a) := by
  have hempty : ∀ l, L.isEmpty (.inl l) = true ↔ S l = [] := by
    intro l
    rw [(h.ring l).isEmpty_eq, List.isEmpty_iff, List.map_eq_nil_iff]
  cases a with
  | pushBack l x =>
      by_cases hx : ∀ l, x ∉ S l
      · have hlinked : ¬ L.isLinked (.inr x) = true := by
          rw [Links.isLinked_iff, not_not]
          exact h.detached x hx
        simp only [IntrusiveList.perform, sequencePerform, if_neg hlinked, if_pos hx]
        exact .some (h.pushBack hx)
      · have hlinked : L.isLinked (.inr x) = true := by
          rwa [Links.isLinked_iff, ne_eq, h.detached_iff]
        simp only [IntrusiveList.perform, sequencePerform, if_pos hlinked, if_neg hx]
        exact .none
  | popFront l =>
      simp only [IntrusiveList.perform, sequencePerform, hempty]
      by_cases hS : S l = []
      · simp only [if_pos hS]
        exact .none
      · simp only [if_neg hS]
        exact .some (h.popFront hS)
  | popBack l =>
      simp only [IntrusiveList.perform, sequencePerform, hempty]
      by_cases hS : S l = []
      · simp only [if_pos hS]
        exact .none
      · simp only [if_neg hS]
        exact .some (h.popBack hS)
  | remove x => exact .some (h.remove x)

/-! ### What a program sees of the lists -/

/-- A loop whose body leaves the nodes of its list alone visits the sequence in order and
stops. -/
theorem rangeFor_eq_foldl (h : Represents L S) {σ : Type*} {links : σ → Links (H ⊕ N)}
    {body : H ⊕ N → σ → σ} {s : σ} {fuel : ℕ} (hs : links s = L) (hfuel : (S l).length < fuel)
    (hbody : ∀ x ∈ S l, ∀ t, ∀ y ∈ (.inl l :: (S l).map .inr : List (H ⊕ N)),
      (links (body (.inr x) t)).next y = (links t).next y ∧
      (links (body (.inr x) t)).prev y = (links t).prev y) :
    rangeFor links (.inl l) (fun e t => .ok (.next (body e t))) fuel s =
      .ok ((S l).foldl (fun t x => body (.inr x) t) s) := by
  let Kept (t : σ) : Prop := ∀ y ∈ (.inl l :: (S l).map .inr : List (H ⊕ N)),
    (links t).next y = L.next y ∧ (links t).prev y = L.prev y
  have hvisit : ∀ (xs : List N) (t : σ), visit (fun e t => .ok (.next (body e t)))
      (xs.map .inr) .ok t = .ok (xs.foldl (fun t x => body (.inr x) t) t) := by
    intro xs
    induction xs with
    | nil => exact fun _ => rfl
    | cons x xs ih => exact fun t => ih (body (.inr x) t)
  rw [← hvisit]
  refine rangeFor_keeping Kept ?_ ?_ (by simpa using hfuel) ?_ (fun y _ => by simp [hs])
  · intro t ht y hy
    have hmem := (h.ring l).next_mem_iff h.coherent y
    have hnext := hmem.mpr (List.mem_cons_of_mem _ hy)
    rw [(ht y (List.mem_cons_of_mem _ hy)).1, (ht _ hnext).2, h.coherent.prev_next]
  · intro t ht
    exact ⟨(h.ring l).path.congr (fun y hy => (ht y hy).1), (h.ring l).nodup⟩
  · intro e he t t' ht hnext y hy
    obtain ⟨x, hx, rfl⟩ := List.mem_map.mp he
    cases hnext
    have hkept := hbody x hx t y hy
    exact ⟨hkept.1.trans (ht y hy).1, hkept.2.trans (ht y hy).2⟩

end Represents

/-- The lists behave as the sequences: what the queries, the pops and the loops give. -/
structure BehavesAs [DecidableEq H] [DecidableEq N] (L : Links (H ⊕ N)) (S : H → List N) :
    Prop where
  nodup : ∀ l, (S l).Nodup
  list_unique : ∀ l l' x, x ∈ S l → x ∈ S l' → l = l'
  isEmpty : ∀ l, L.isEmpty (.inl l) = true ↔ S l = []
  isLinked : ∀ x, L.isLinked (.inr x) = true ↔ ∃ l, x ∈ S l
  removed : ∀ x, (L.remove (.inr x)).isLinked (.inr x) = false
  popFront : ∀ l x xs, S l = x :: xs → (L.popFront (.inl l)).1 = .inr x
  popBack : ∀ l x xs, S l = xs ++ [x] → (L.popBack (.inl l)).1 = .inr x
  rangeFor : ∀ (σ : Type) (links : σ → Links (H ⊕ N)) (body : H ⊕ N → σ → σ) (s : σ) (l : H)
    (fuel : ℕ), links s = L → (S l).length < fuel →
    (∀ x ∈ S l, ∀ t, ∀ y ∈ (.inl l :: (S l).map .inr : List (H ⊕ N)),
      (links (body (.inr x) t)).next y = (links t).next y ∧
      (links (body (.inr x) t)).prev y = (links t).prev y) →
    rangeFor links (.inl l) (fun e t => .ok (.next (body e t))) fuel s =
      .ok ((S l).foldl (fun t x => body (.inr x) t) s)

variable [DecidableEq H] [DecidableEq N]

theorem Represents.behavesAs {L : Links (H ⊕ N)} {S : H → List N} (h : Represents L S) :
    BehavesAs L S where
  nodup := h.nodup
  list_unique _ _ _ := h.list_unique
  isEmpty l := by rw [(h.ring l).isEmpty_eq, List.isEmpty_iff, List.map_eq_nil_iff]
  isLinked x := by
    rw [Links.isLinked_iff, ne_eq, h.detached_iff]
    push Not
    rfl
  removed x := Links.isLinked_eq_false_iff.mpr (Links.unlink_next_self L _)
  popFront _ _ _ := h.popFront_fst
  popBack _ _ _ := h.popBack_fst
  rangeFor _ _ _ _ _ _ hs hfuel hbody := h.rangeFor_eq_foldl hs hfuel hbody

/-- Every sequence of operations from constructed lists and nodes can be performed on the
links exactly when it can be performed on the sequences, and then the lists behave as the
sequences that result. -/
theorem run_behavesAs (as : List (Action H N)) :
    Option.Rel BehavesAs (Machine.run perform (Links.detached (H ⊕ N)) as)
      (Machine.run sequencePerform (fun _ => []) as) := by
  have hrun := Machine.run_rel (fun L S a h => Represents.perform h a)
    (detached_represents (H := H) (N := N)) as
  generalize Machine.run perform (Links.detached (H ⊕ N)) as = o at hrun ⊢
  generalize Machine.run sequencePerform (fun _ => []) as = o' at hrun ⊢
  cases hrun with
  | none => exact .none
  | some h => exact .some h.behavesAs

end DDFramework.IntrusiveList
