import Mathlib.Data.List.Nodup
import Mathlib.Logic.Function.Basic

/-! # Circular doubly linked lists

A memory of nodes with a successor and a predecessor field. Exchanging two
successors is the one primitive: it appends a detached node to a ring, and it
detaches a node from its ring. -/

namespace DDFramework

/-- The successor and predecessor fields of every node. -/
structure Links (α : Type*) where
  next : α → α
  prev : α → α

namespace Links

variable {α : Type*}

/-- The two fields are inverse to each other. -/
structure Coherent (L : Links α) : Prop where
  prev_next : ∀ a, L.prev (L.next a) = a
  next_prev : ∀ a, L.next (L.prev a) = a

theorem Coherent.next_inj {L : Links α} (h : L.Coherent) {a b : α} (he : L.next a = L.next b) :
    a = b := by
  rw [← h.prev_next a, he, h.prev_next]

theorem Coherent.next_eq_iff {L : Links α} (h : L.Coherent) {a b : α} :
    L.next a = b ↔ L.prev b = a := by
  constructor
  · rintro rfl
    exact h.prev_next a
  · rintro rfl
    exact h.next_prev b

/-- The memory in which every node is detached. -/
def detached (α : Type*) : Links α := ⟨id, id⟩

theorem detached_coherent : (detached α).Coherent := ⟨fun _ => rfl, fun _ => rfl⟩

/-! ## Paths and rings -/

/-- Following successors from `a` visits exactly `xs` before reaching `b`. -/
def Path (L : Links α) : α → List α → α → Prop
  | a, [], b => L.next a = b
  | a, x :: xs, b => L.next a = x ∧ Path L x xs b

@[simp] theorem path_nil {L : Links α} {a b : α} : L.Path a [] b ↔ L.next a = b := Iff.rfl

@[simp] theorem path_cons {L : Links α} {a b x : α} {xs : List α} :
    L.Path a (x :: xs) b ↔ L.next a = x ∧ L.Path x xs b := Iff.rfl

theorem path_append {L : Links α} {a b y : α} {xs ys : List α} :
    L.Path a (xs ++ y :: ys) b ↔ L.Path a xs y ∧ L.Path y ys b := by
  induction xs generalizing a with
  | nil => simp
  | cons x xs ih => simp [ih, and_assoc]

/-- A path only depends on the successors of the nodes it leaves. -/
theorem Path.congr {L M : Links α} {a b : α} {xs : List α} (h : L.Path a xs b)
    (he : ∀ y ∈ a :: xs, M.next y = L.next y) : M.Path a xs b := by
  induction xs generalizing a with
  | nil => simpa [he a (by simp)] using h
  | cons x xs ih =>
      obtain ⟨hx, ht⟩ := h
      refine ⟨by rw [he a (by simp), hx], ih ht ?_⟩
      intro y hy
      exact he y (List.mem_cons_of_mem a hy)

/-- Redirecting the last successor of a path changes only its target. -/
theorem Path.retarget {L M : Links α} {a b c : α} {xs : List α} (h : L.Path a xs b)
    (hn : (a :: xs).Nodup) (hlast : ∀ y, L.next y = b → M.next y = c)
    (he : ∀ y ∈ a :: xs, L.next y ≠ b → M.next y = L.next y) (hb : b ∉ xs) :
    M.Path a xs c := by
  induction xs generalizing a with
  | nil => exact hlast a h
  | cons x xs ih =>
      obtain ⟨hx, ht⟩ := h
      have hxb : L.next a ≠ b := by
        rw [hx]
        rintro rfl
        simp at hb
      refine ⟨by rw [he a (by simp) hxb, hx], ?_⟩
      apply ih ht (List.nodup_cons.mp hn).2
      · intro y hy hyb
        exact he y (List.mem_cons_of_mem a hy) hyb
      · exact fun hm => hb (List.mem_cons_of_mem x hm)

/-- The nodes after the head `h` are `xs`, in order, each once. -/
structure Ring (L : Links α) (h : α) (xs : List α) : Prop where
  path : L.Path h xs h
  nodup : (h :: xs).Nodup

@[simp] theorem ring_nil {L : Links α} {h : α} : L.Ring h [] ↔ L.next h = h :=
  ⟨fun hr => hr.path, fun hn => ⟨hn, by simp⟩⟩

theorem Ring.next_head {L : Links α} {h x : α} {xs : List α} (hr : L.Ring h (x :: xs)) :
    L.next h = x := hr.path.1

theorem Ring.head_notMem {L : Links α} {h : α} {xs : List α} (hr : L.Ring h xs) : h ∉ xs :=
  (List.nodup_cons.mp hr.nodup).1

theorem Ring.front_notMem {L : Links α} {h x : α} {xs : List α} (hr : L.Ring h (x :: xs)) :
    x ∉ h :: xs := by
  have hn := (List.Perm.swap x h xs).nodup hr.nodup
  exact (List.nodup_cons.mp hn).1

theorem Ring.next_ne_head {L : Links α} {h x : α} {xs : List α} (hr : L.Ring h (x :: xs)) :
    L.next h ≠ h := by
  rw [hr.next_head]
  rintro rfl
  exact hr.head_notMem (by simp)

/-- A head is self-linked exactly when its ring is empty. -/
theorem Ring.next_eq_head_iff {L : Links α} {h : α} {xs : List α} (hr : L.Ring h xs) :
    L.next h = h ↔ xs = [] := by
  cases xs with
  | nil => simpa using hr
  | cons x xs => simpa using hr.next_ne_head

theorem Path.next_mem {L : Links α} {a b : α} {xs : List α} (h : L.Path a xs b) :
    ∀ y ∈ a :: xs, L.next y ∈ xs ++ [b] := by
  induction xs generalizing a with
  | nil =>
      intro y hy
      simp only [List.mem_singleton] at hy
      subst y
      simp [h.symm]
  | cons x xs ih =>
      intro y hy
      rcases List.mem_cons.mp hy with rfl | hy
      · simp [h.1]
      · exact List.mem_cons_of_mem x (ih h.2 y hy)

theorem Path.exists_next_eq {L : Links α} {a b : α} {xs : List α} (h : L.Path a xs b) :
    ∀ z ∈ xs ++ [b], ∃ y ∈ a :: xs, L.next y = z := by
  induction xs generalizing a with
  | nil =>
      intro z hz
      simp only [List.nil_append, List.mem_singleton] at hz
      subst z
      exact ⟨a, by simp, h⟩
  | cons x xs ih =>
      intro z hz
      rcases List.mem_cons.mp hz with rfl | hz
      · exact ⟨a, by simp, h.1⟩
      · obtain ⟨y, hy, he⟩ := ih h.2 z hz
        exact ⟨y, List.mem_cons_of_mem a hy, he⟩

/-- Predecessors stay in the ring of their node. -/
theorem Ring.prev_mem_iff {L : Links α} {h : α} {xs : List α} (hc : L.Coherent)
    (hr : L.Ring h xs) (y : α) : L.prev y ∈ h :: xs ↔ y ∈ h :: xs := by
  have hmem : ∀ z, z ∈ xs ++ [h] ↔ z ∈ h :: xs := by
    intro z
    simp [or_comm]
  constructor
  · intro hm
    have hn := hr.path.next_mem _ hm
    rw [hc.next_prev] at hn
    exact (hmem y).mp hn
  · intro hm
    obtain ⟨z, hz, he⟩ := hr.path.exists_next_eq y ((hmem y).mpr hm)
    rwa [hc.next_eq_iff.mp he]

theorem Ring.next_mem_iff {L : Links α} {h : α} {xs : List α} (hc : L.Coherent)
    (hr : L.Ring h xs) (y : α) : L.next y ∈ h :: xs ↔ y ∈ h :: xs := by
  rw [← hr.prev_mem_iff hc (L.next y), hc.prev_next]

/-- A ring contains all the nodes of a path or none. -/
theorem Ring.path_mem_iff {L : Links α} {h a b : α} {xs ys : List α} (hc : L.Coherent)
    (hr : L.Ring h xs) (hp : L.Path a ys b) : ∀ y ∈ a :: ys, y ∈ h :: xs ↔ a ∈ h :: xs := by
  induction ys generalizing a with
  | nil =>
      intro y hy
      rw [List.mem_singleton.mp hy]
  | cons z ys ih =>
      intro y hy
      rcases List.mem_cons.mp hy with rfl | hy
      · exact Iff.rfl
      · rw [ih hp.2 y hy, ← hp.1, hr.next_mem_iff hc]

/-- Two rings are disjoint if the head of one is not in the other. -/
theorem Ring.disjoint {L : Links α} {h k : α} {xs ys : List α} (hc : L.Coherent)
    (hx : L.Ring h xs) (hy : L.Ring k ys) (hk : k ∉ h :: xs) : (h :: xs).Disjoint (k :: ys) :=
  fun z hz hz' => hk ((hx.path_mem_iff hc hy.path z hz').mp hz)

theorem Path.unique {L : Links α} {a b : α} {xs ys : List α} (hx : L.Path a xs b)
    (hy : L.Path a ys b) (hbx : b ∉ xs) (hby : b ∉ ys) : xs = ys := by
  induction xs generalizing a ys with
  | nil =>
      cases ys with
      | nil => rfl
      | cons y ys => exact (hby (by simp [← hy.1, hx.symm])).elim
  | cons x xs ih =>
      cases ys with
      | nil => exact (hbx (by simp [← hx.1, hy.symm])).elim
      | cons y ys =>
          obtain rfl : x = y := hx.1.symm.trans hy.1
          rw [ih hx.2 hy.2 (fun hm => hbx (by simp [hm])) (fun hm => hby (by simp [hm]))]

/-- Rings with a common head are equal. -/
theorem Ring.unique {L : Links α} {h : α} {xs ys : List α} (hx : L.Ring h xs)
    (hy : L.Ring h ys) : xs = ys :=
  hx.path.unique hy.path hx.head_notMem hy.head_notMem

/-- The elements of a ring are linked. -/
theorem Ring.next_ne_of_mem {L : Links α} {h x : α} {xs : List α} (hr : L.Ring h xs)
    (hx : x ∈ xs) : L.next x ≠ x := by
  obtain ⟨ys, zs, rfl⟩ := List.append_of_mem hx
  have hmem := (path_append.mp hr.path).2.next_mem x (by simp)
  have hn : (h :: ys ++ x :: zs).Nodup := hr.nodup
  rw [List.nodup_middle] at hn
  intro he
  rw [he] at hmem
  exact (List.nodup_cons.mp hn).1 (by simp at hmem ⊢; tauto)

/-- The predecessor of an element is another node of the ring. -/
theorem Ring.prev_mem_middle {L : Links α} (hc : L.Coherent) {list x : α} {xs ys : List α}
    (hr : L.Ring list (xs ++ x :: ys)) : L.prev x ∈ list :: (xs ++ ys) := by
  have hmem : L.prev x ∈ list :: (xs ++ x :: ys) := (hr.prev_mem_iff hc x).mpr (by simp)
  have hne : L.prev x ≠ x := by
    intro he
    exact hr.next_ne_of_mem (by simp) (hc.next_eq_iff.mpr he)
  simp only [List.mem_cons, List.mem_append] at hmem ⊢
  tauto

/-- Every node of a ring is the head of the same ring. -/
theorem Ring.rotate {L : Links α} {h k : α} {xs ys : List α} (hr : L.Ring h (xs ++ k :: ys)) :
    L.Ring k (ys ++ h :: xs) := by
  obtain ⟨hxs, hys⟩ := path_append.mp hr.path
  refine ⟨path_append.mpr ⟨hys, hxs⟩, ?_⟩
  have hperm : (h :: xs ++ k :: ys).Perm (k :: ys ++ h :: xs) := List.perm_append_comm
  exact hperm.nodup hr.nodup

/-- No other node has a detached node as a neighbour. -/
theorem Coherent.next_ne_of_detached {L : Links α} (hc : L.Coherent) {x y : α}
    (hy : L.next y = y) (hx : x ≠ y) : L.next x ≠ y :=
  fun he => hx (hc.next_inj (he.trans hy.symm))

theorem Coherent.prev_ne_of_detached {L : Links α} (hc : L.Coherent) {x y : α}
    (hy : L.next y = y) (hx : x ≠ y) : L.prev x ≠ y := by
  intro he
  have hn := hc.next_prev x
  rw [he, hy] at hn
  exact hx hn.symm

/-! ## Exchanging two successors -/

variable [DecidableEq α]

def setNext (L : Links α) (a b : α) : Links α := { L with next := Function.update L.next a b }

def setPrev (L : Links α) (a b : α) : Links α := { L with prev := Function.update L.prev a b }

@[simp] theorem setNext_prev (L : Links α) (a b : α) : (L.setNext a b).prev = L.prev := rfl

@[simp] theorem setPrev_next (L : Links α) (a b : α) : (L.setPrev a b).next = L.next := rfl

@[simp] theorem setNext_next (L : Links α) (a b : α) :
    (L.setNext a b).next = Function.update L.next a b := rfl

@[simp] theorem setPrev_prev (L : Links α) (a b : α) :
    (L.setPrev a b).prev = Function.update L.prev a b := rfl

/-- The successors of `a` and `b` change places. -/
def splice (L : Links α) (a b : α) : Links α where
  next y := if y = a then L.next b else if y = b then L.next a else L.next y
  prev y := if y = L.next b then a else if y = L.next a then b else L.prev y

theorem Coherent.splice {L : Links α} (h : L.Coherent) (a b : α) : (L.splice a b).Coherent := by
  have hp := h.prev_next
  have hn := h.next_prev
  constructor
  · intro y
    simp only [Links.splice]
    split_ifs <;> grind
  · intro y
    simp only [Links.splice]
    split_ifs <;> grind

@[simp] theorem splice_next_left (L : Links α) (a b : α) : (L.splice a b).next a = L.next b := by
  simp [splice]

theorem splice_next_right (L : Links α) (a b : α) : (L.splice a b).next b = L.next a := by
  by_cases h : b = a
  · simp [splice, h]
  · simp [splice, h]

theorem splice_next_of_ne (L : Links α) {a b y : α} (ha : y ≠ a) (hb : y ≠ b) :
    (L.splice a b).next y = L.next y := by
  simp [splice, ha, hb]

theorem splice_self {L : Links α} (hc : L.Coherent) (a : α) : L.splice a a = L := by
  apply Links.mk.injEq _ _ _ _ |>.mpr
  constructor
  · funext y
    by_cases h : y = a <;> simp [h]
  · funext y
    by_cases h : y = L.next a
    · simp [h, hc.prev_next]
    · simp [h]

/-- Rings that contain neither end of the exchange keep their nodes. -/
theorem Ring.splice_of_notMem {L : Links α} {h a b : α} {xs : List α} (hr : L.Ring h xs)
    (ha : a ∉ h :: xs) (hb : b ∉ h :: xs) : (L.splice a b).Ring h xs := by
  refine ⟨hr.path.congr ?_, hr.nodup⟩
  intro y hy
  exact L.splice_next_of_ne (fun he => ha (he ▸ hy)) (fun he => hb (he ▸ hy))

/-- Exchanging the last successors of two disjoint rings inserts the second ring,
its head included, at the end of the first. -/
theorem Ring.splice_merge {L : Links α} (hc : L.Coherent) {h k : α} {xs ys : List α}
    (hx : L.Ring h xs) (hy : L.Ring k ys) (hd : (h :: xs).Disjoint (k :: ys)) :
    (L.splice (L.prev h) (L.prev k)).Ring h (xs ++ k :: ys) := by
  have hph : L.prev h ∈ h :: xs := (hx.prev_mem_iff hc h).mpr (by simp)
  have hpk : L.prev k ∈ k :: ys := (hy.prev_mem_iff hc k).mpr (by simp)
  refine ⟨path_append.mpr ⟨?_, ?_⟩, ?_⟩
  · apply hx.path.retarget hx.nodup _ _ hx.head_notMem
    · intro y he
      rw [hc.next_eq_iff.mp he, splice_next_left, hc.next_prev]
    · intro y hm hne
      apply splice_next_of_ne
      · rintro rfl
        exact hne (hc.next_prev h)
      · rintro rfl
        exact hd hm hpk
  · apply hy.path.retarget hy.nodup _ _ hy.head_notMem
    · intro y he
      rw [hc.next_eq_iff.mp he, splice_next_right, hc.next_prev]
    · intro y hm hne
      apply splice_next_of_ne
      · rintro rfl
        exact hd hph hm
      · rintro rfl
        exact hne (hc.next_prev k)
  · exact List.nodup_append'.mpr ⟨hx.nodup, hy.nodup, hd⟩

/-- Exchanging the successors of a node and of its predecessor removes the node. -/
theorem Ring.splice_remove {L : Links α} (hc : L.Coherent) {h x : α} {xs ys : List α}
    (hr : L.Ring h (xs ++ x :: ys)) : (L.splice (L.prev x) x).Ring h (xs ++ ys) := by
  obtain ⟨hxs, hys⟩ := path_append.mp hr.path
  have hn := hr.nodup
  have hsub : (h :: (xs ++ ys)).Nodup := by
    apply List.Nodup.sublist _ hn
    exact ((List.Sublist.refl ys).cons x).append_left (h :: xs)
  have hpre : (h :: xs).Nodup := by
    apply List.Nodup.sublist _ hn
    exact List.sublist_append_left (h :: xs) (x :: ys)
  have hnot : ∀ y ∈ h :: (xs ++ ys), y ≠ x := by
    intro y hy he
    subst y
    have hp : (h :: xs ++ x :: ys).Nodup := hn
    rw [List.nodup_middle] at hp
    exact (List.nodup_cons.mp hp).1 (by simpa using hy)
  have hfront : ∀ {c}, (L.splice (L.prev x) x).next (L.prev x) = c →
      (L.splice (L.prev x) x).Path h xs c := by
    intro c hcx
    apply hxs.retarget hpre
    · intro y he
      rw [← hc.next_eq_iff.mp he]
      exact hcx
    · intro y hm hne
      apply splice_next_of_ne
      · rintro rfl
        exact hne (hc.next_prev x)
      · exact hnot y (by simpa using Or.imp_right Or.inl (List.mem_cons.mp hm))
    · intro hm
      exact hnot x (by simp [hm]) rfl
  refine ⟨?_, hsub⟩
  cases ys with
  | nil => simpa using hfront (by simpa using hys)
  | cons y ys =>
      refine path_append.mpr ⟨hfront (by simpa using hys.1), hys.2.congr ?_⟩
      intro z hz
      have hzx : z ≠ x := hnot z (by simp at hz ⊢; tauto)
      apply splice_next_of_ne _ _ hzx
      rintro rfl
      have hp : (h :: xs ++ x :: y :: ys).Nodup := hn
      have hmem : L.prev x ∈ h :: xs := by
        obtain ⟨w, hw, he⟩ := hxs.exists_next_eq x (by simp)
        rwa [hc.next_eq_iff.mp he]
      exact List.disjoint_of_nodup_append hp hmem (List.mem_cons_of_mem x hz)

end Links

end DDFramework
