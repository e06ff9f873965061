import DDFramework.Model.IntrusiveList

/-! # Node operations on rings

On coherent links `Unlink` and `LinkNext` each exchange two successors. -/

namespace DDFramework.Links

variable {α : Type*} [DecidableEq α]

theorem unlink_eq_splice {L : Links α} (hc : L.Coherent) (x : α) :
    L.unlink x = L.splice (L.prev x) x := by
  have hp := hc.prev_next
  have hn := hc.next_prev
  apply Links.mk.injEq _ _ _ _ |>.mpr
  constructor
  · funext y
    simp only [setNext_next, setNext_prev, setPrev_next, Function.update,
      eq_rec_constant, dite_eq_ite]
    split_ifs <;> grind
  · funext y
    simp only [setNext_next, setNext_prev, setPrev_prev, Function.update,
      eq_rec_constant, dite_eq_ite]
    split_ifs <;> grind

theorem pushBack_eq_splice {L : Links α} (hc : L.Coherent) (list x : α) :
    L.pushBack list x = L.splice (L.prev list) (L.prev x) := by
  have hp := hc.prev_next
  have hn := hc.next_prev
  apply Links.mk.injEq _ _ _ _ |>.mpr
  constructor
  · funext y
    simp only [setNext_next, setNext_prev, setPrev_next, setPrev_prev, Function.update,
      eq_rec_constant, dite_eq_ite]
    split_ifs <;> grind
  · funext y
    simp only [setNext_prev, setPrev_prev, Function.update,
      eq_rec_constant, dite_eq_ite]
    split_ifs <;> grind

theorem Coherent.unlink {L : Links α} (hc : L.Coherent) (x : α) : (L.unlink x).Coherent := by
  rw [unlink_eq_splice hc]
  exact hc.splice _ _

theorem Coherent.pushBack {L : Links α} (hc : L.Coherent) (list x : α) :
    (L.pushBack list x).Coherent := by
  rw [pushBack_eq_splice hc]
  exact hc.splice _ _

/-- Constructing a detached node again changes nothing. -/
theorem construct_of_detached {L : Links α} {x : α} (hn : L.next x = x) (hp : L.prev x = x) :
    L.construct x = L := by
  apply Links.mk.injEq _ _ _ _ |>.mpr
  constructor
  · exact Function.update_eq_self_iff.mpr hn.symm
  · exact Function.update_eq_self_iff.mpr hp.symm

/-- Constructors leave detached nodes detached. -/
theorem foldl_construct_of_detached (xs : List α) {L : Links α} {x : α} (hn : L.next x = x)
    (hp : L.prev x = x) : (xs.foldl construct L).next x = x ∧ (xs.foldl construct L).prev x = x := by
  induction xs generalizing L with
  | nil => exact ⟨hn, hp⟩
  | cons y ys ih =>
      by_cases hy : x = y
      · subst hy
        exact ih (Function.update_self _ _ _) (Function.update_self _ _ _)
      · exact ih ((Function.update_of_ne hy _ _).trans hn) ((Function.update_of_ne hy _ _).trans hp)

/-- Every constructed node is detached. -/
theorem foldl_construct_of_mem (L : Links α) {xs : List α} {x : α} (hx : x ∈ xs) :
    (xs.foldl construct L).next x = x ∧ (xs.foldl construct L).prev x = x := by
  induction xs generalizing L with
  | nil => cases hx
  | cons y ys ih =>
      rcases List.mem_cons.mp hx with rfl | hm
      · exact foldl_construct_of_detached ys (Function.update_self _ _ _)
          (Function.update_self _ _ _)
      · exact ih (L.construct y) hm

/-! ### Linked nodes and empty lists -/

theorem isLinked_eq_false_iff {L : Links α} {x : α} : L.isLinked x = false ↔ L.next x = x := by
  rw [isLinked, decide_eq_false_iff_not, not_not]
  exact eq_comm

theorem isEmpty_iff {L : Links α} {list : α} : L.isEmpty list = true ↔ L.next list = list := by
  rw [isEmpty, Bool.not_eq_true']
  exact isLinked_eq_false_iff

theorem Ring.isEmpty_eq {L : Links α} {list : α} {xs : List α} (hr : L.Ring list xs) :
    L.isEmpty list = xs.isEmpty := by
  rw [Bool.eq_iff_iff, isEmpty_iff, hr.next_eq_head_iff, List.isEmpty_iff]

theorem isLinked_iff {L : Links α} {x : α} : L.isLinked x = true ↔ L.next x ≠ x := by
  rw [isLinked, decide_eq_true_iff]
  exact ne_comm

/-! ### `Unlink` -/

@[simp] theorem unlink_next_self (L : Links α) (x : α) : (L.unlink x).next x = x := by
  simp [unlink]

theorem Ring.unlink_of_notMem {L : Links α} (hc : L.Coherent) {list x : α} {xs : List α}
    (hr : L.Ring list xs) (hx : x ∉ list :: xs) : (L.unlink x).Ring list xs := by
  rw [unlink_eq_splice hc]
  exact hr.splice_of_notMem (fun hm => hx ((hr.prev_mem_iff hc x).mp hm)) hx

theorem Ring.unlink_middle {L : Links α} (hc : L.Coherent) {list x : α} {xs ys : List α}
    (hr : L.Ring list (xs ++ x :: ys)) : (L.unlink x).Ring list (xs ++ ys) := by
  rw [unlink_eq_splice hc]
  exact hr.splice_remove hc

theorem Ring.unlink_front {L : Links α} (hc : L.Coherent) {list x : α} {xs : List α}
    (hr : L.Ring list (x :: xs)) : (L.unlink x).Ring list xs := by
  have hr' : L.Ring list ([] ++ x :: xs) := hr
  exact hr'.unlink_middle hc

theorem Ring.unlink {L : Links α} (hc : L.Coherent) {list x : α} {xs : List α}
    (hr : L.Ring list xs) (hx : x ≠ list) : (L.unlink x).Ring list (xs.erase x) := by
  by_cases hm : x ∈ xs
  · obtain ⟨ys, zs, rfl⟩ := List.append_of_mem hm
    have hn : x ∉ ys := by
      intro hy
      have hnodup := (List.nodup_cons.mp hr.nodup).2
      exact List.disjoint_of_nodup_append hnodup hy (by simp)
    rw [List.erase_append_right _ hn]
    simpa using hr.unlink_middle hc
  · rw [List.erase_of_not_mem hm]
    exact hr.unlink_of_notMem hc (by simp [hx, hm])

/-- A detached node stays detached, whichever node is unlinked. -/
theorem unlink_next_of_next_eq {L : Links α} (hc : L.Coherent) {x y : α} (hy : L.next y = y) :
    (L.unlink x).next y = y := by
  by_cases he : x = y
  · simp [he]
  · exact ring_nil.mp ((ring_nil.mpr hy).unlink_of_notMem hc (by simpa using he))

/-! ### `PushBack` -/

theorem Ring.pushBack_of_notMem {L : Links α} (hc : L.Coherent) {list list' x : α} {xs : List α}
    (hr : L.Ring list xs) (hl : list' ∉ list :: xs) (hx : x ∉ list :: xs) :
    (L.pushBack list' x).Ring list xs := by
  rw [pushBack_eq_splice hc]
  exact hr.splice_of_notMem (fun hm => hl ((hr.prev_mem_iff hc list').mp hm))
    (fun hm => hx ((hr.prev_mem_iff hc x).mp hm))

/-- Pushing a node that is linked elsewhere brings its whole ring along. -/
theorem Ring.pushBack_ring {L : Links α} (hc : L.Coherent) {list x : α} {xs ys : List α}
    (hr : L.Ring list xs) (hx : L.Ring x ys) (hd : (list :: xs).Disjoint (x :: ys)) :
    (L.pushBack list x).Ring list (xs ++ x :: ys) := by
  rw [pushBack_eq_splice hc]
  exact hr.splice_merge hc hx hd

theorem Ring.pushBack {L : Links α} (hc : L.Coherent) {list x : α} {xs : List α}
    (hr : L.Ring list xs) (hx : L.next x = x) (hn : x ∉ list :: xs) :
    (L.pushBack list x).Ring list (xs ++ [x]) := by
  apply hr.pushBack_ring hc (ring_nil.mpr hx)
  intro y hy hxy
  rw [List.mem_singleton] at hxy
  exact hn (hxy ▸ hy)

theorem pushBack_next_of_next_eq {L : Links α} (hc : L.Coherent) {list x y : α}
    (hy : L.next y = y) (hl : list ≠ y) (hx : x ≠ y) : (L.pushBack list x).next y = y :=
  ring_nil.mp ((ring_nil.mpr hy).pushBack_of_notMem hc (by simpa using hl) (by simpa using hx))

/-- A detached node is linked after it has been pushed to a list. -/
theorem pushBack_next_self {L : Links α} (hc : L.Coherent) {list x : α} (hx : L.next x = x) :
    (L.pushBack list x).next x = list := by
  have hprev : L.prev x = x := hc.next_eq_iff.mp hx
  rw [pushBack_eq_splice hc, hprev, splice_next_right, hc.next_prev]

/-- Pushing a detached node unlinks no other node. -/
theorem pushBack_next_ne {L : Links α} (hc : L.Coherent) {list x y : α} (hx : L.next x = x)
    (hyx : y ≠ x) (hy : L.next y ≠ y) : (L.pushBack list x).next y ≠ y := by
  have hprev : L.prev x = x := hc.next_eq_iff.mp hx
  rw [pushBack_eq_splice hc, hprev]
  by_cases hl : y = L.prev list
  · rw [hl, splice_next_left, hx, ← hl]
    exact hyx.symm
  · rwa [splice_next_of_ne _ hl hyx]

/-! ### Linking a node twice -/

theorem linkNext_next (L : Links α) {link node : α} (hne : link ≠ node) :
    (L.linkNext link node).next =
      Function.update (Function.update L.next (L.prev node) link) (L.prev link) node := by
  simp only [linkNext, setPrev_next, setNext_next, setNext_prev, setPrev_prev,
    Function.update_of_ne hne]

theorem linkNext_prev (L : Links α) (link node : α) :
    (L.linkNext link node).prev =
      Function.update (Function.update L.prev node (L.prev link)) link (L.prev node) := rfl

/-- Pushing a detached node of `S` to a list outside of `S` changes no other node of `S`. -/
theorem pushBack_of_notMem {L : Links α} {list node : α} {S : Set α} (hn : L.next node = node)
    (hp : L.prev node = node) (hnode : node ∈ S) (hnext : (L.pushBack list node).next node ∉ S)
    (hprev : (L.pushBack list node).prev node ∉ S) {y : α} (hy : y ∈ S) (hne : y ≠ node) :
    (L.pushBack list node).next y = L.next y ∧ (L.pushBack list node).prev y = L.prev y := by
  rw [pushBack] at *
  have hlist : list ≠ node := by
    rintro rfl
    rw [linkNext_prev, Function.update_self, hp] at hprev
    exact hprev hnode
  rw [linkNext_next L hlist, hp] at *
  rw [linkNext_prev, hp] at *
  have hlast : L.prev list ≠ node := by
    intro he
    rw [he, Function.update_self] at hnext
    exact hnext hnode
  rw [Function.update_of_ne hlast.symm, Function.update_self] at hnext
  rw [Function.update_of_ne hlist.symm, Function.update_self] at hprev
  have hother : ∀ x, x ∉ S → y ≠ x := by
    rintro x hx rfl
    exact hx hy
  constructor
  · rw [Function.update_of_ne (hother _ hprev), Function.update_of_ne hne]
  · rw [Function.update_of_ne (hother _ hnext), Function.update_of_ne hne]

/-- Linking before the successor is linking at the node itself. -/
theorem linkPrev_eq_linkNext {L : Links α} {link node : α} (hnext : L.prev (L.next link) = link)
    (hne : L.next link ≠ node) : L.linkPrev (L.next link) node = L.linkNext link node := by
  simp only [linkPrev, linkNext, setNext_prev, setPrev_prev, Function.update_of_ne hne, hnext]

/-- Linking a detached node before the successor of `link` and then linking it again next to
`link` leaves the node detached. -/
theorem linkNext_linkPrev {L : Links α} {link node : α} (hnext : L.prev (L.next link) = link)
    (hprev : L.next (L.prev link) = link) (hself : L.next node = node)
    (hself' : L.prev node = node) (hne : link ≠ node) :
    (L.linkPrev (L.next link) node).linkNext link node = L := by
  have hafter : L.next link ≠ node := by
    intro he
    rw [he, hself'] at hnext
    exact hne hnext.symm
  have hbefore : L.prev link ≠ node := by
    intro he
    rw [he, hself] at hprev
    exact hne hprev.symm
  rw [linkPrev_eq_linkNext hnext hafter]
  have hnode : (L.linkNext link node).prev node = L.prev link := by
    rw [linkNext_prev, Function.update_of_ne hne.symm, Function.update_self]
  have hlink : (L.linkNext link node).prev link = node := by
    rw [linkNext_prev, Function.update_self, hself']
  apply Links.mk.injEq _ _ _ _ |>.mpr
  constructor
  · funext y
    change ((L.linkNext link node).linkNext link node).next y = L.next y
    rw [linkNext_next _ hne, hnode, hlink, linkNext_next L hne, hself']
    by_cases hy : y = node
    · rw [hy, Function.update_self, hself]
    · rw [Function.update_of_ne hy]
      by_cases hy' : y = L.prev link
      · rw [hy', Function.update_self, hprev]
      · rw [Function.update_of_ne hy', Function.update_of_ne hy', Function.update_of_ne hy]
  · funext y
    change ((L.linkNext link node).linkNext link node).prev y = L.prev y
    rw [linkNext_prev, hnode, hlink, linkNext_prev, hself']
    by_cases hy : y = link
    · rw [hy, Function.update_self]
    · rw [Function.update_of_ne hy]
      by_cases hy' : y = node
      · rw [hy', Function.update_self, hself']
      · rw [Function.update_of_ne hy', Function.update_of_ne hy, Function.update_of_ne hy']

end DDFramework.Links
