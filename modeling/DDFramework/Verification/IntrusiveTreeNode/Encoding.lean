import DDFramework.Library.Computation
import DDFramework.Library.Forest
import DDFramework.Library.Segment
import DDFramework.Model.IntrusiveTreeNode

/-! # The links of a forest

Each sequence of siblings is a segment of the links with a null at its end. What stands before
its first node depends on the parent: the last child, or nothing for a root. -/

namespace DDFramework

namespace Forest

variable {ν : Type*}

/-- What the first of the siblings has as its predecessor. -/
def headPrev (F : Forest ν) (x : ν) : Option ν :=
  if (F.parent x).isSome then (F.siblings x).getLast? else none

/-- The links are those of the forest. -/
structure Encodes (F : Forest ν) (L : TreeLinks ν) : Prop where
  parent : L.parent = F.parent
  child : ∀ p, L.child p = (F.children p).head?
  chain : ∀ x, Segment L.siblingNext L.siblingPrev (F.headPrev x) (F.siblings x) none

theorem discrete_encodes : (discrete ν).Encodes (.constructed ν) where
  parent := rfl
  child _ := rfl
  chain _ := ⟨rfl, rfl, trivial⟩

end Forest

namespace TreeLinks

open Forest

variable {ν : Type*} {F : Forest ν} {L L' : TreeLinks ν} {x : ν} {pre post : List ν}

/-! ### The place of a node -/

/-- The sequence of `x` in the links. -/
structure Stands (F : Forest ν) (L : TreeLinks ν) (x : ν) (pre post : List ν) : Prop where
  siblings : F.siblings x = pre ++ x :: post
  nodup : (pre ++ x :: post).Nodup
  before : Segment L.siblingNext L.siblingPrev (F.headPrev x) pre (some x)
  prev : L.siblingPrev x = pre.getLast?.or (F.headPrev x)
  next : L.siblingNext x = post.head?
  after : Segment L.siblingNext L.siblingPrev (some x) post none

theorem exists_stands (h : F.Encodes L) (x : ν) : ∃ pre post, Stands F L x pre post := by
  obtain ⟨pre, post, hx⟩ := List.append_of_mem (F.mem_siblings x)
  have hchain := h.chain x
  rw [hx] at hchain
  obtain ⟨hbefore, hprev, hnext, hafter⟩ := segment_append.mp hchain
  refine ⟨pre, post, hx, hx ▸ F.nodup_siblings x, hbefore, hprev, ?_, hafter⟩
  rw [hnext, Option.or_none]

namespace Stands

theorem notMem (h : Stands F L x pre post) : x ∉ pre ∧ x ∉ post := by
  have hn := List.nodup_middle.mp h.nodup
  rw [List.nodup_cons, List.mem_append, not_or] at hn
  exact hn.1

theorem disjoint (h : Stands F L x pre post) : pre.Disjoint post := by
  intro y hpre hpost
  exact List.disjoint_of_nodup_append h.nodup hpre (List.mem_cons_of_mem x hpost)

theorem child_eq (h : Stands F L x pre post) (hF : F.Encodes L) {p : ν}
    (hp : L.parent x = some p) : L.child p = (pre ++ x :: post).head? := by
  rw [hF.child, ← F.siblings_child x p (hF.parent ▸ hp), h.siblings]

end Stands

/-! ### `DetachSubTree` -/

variable [DecidableEq ν]

/-- The links after `x` has been taken out of its sequence, before its own fields are reset. -/
structure TakenOut (L : TreeLinks ν) (x : ν) (pre post : List ν) (L' : TreeLinks ν) :
    Prop where
  parent : L'.parent = L.parent
  child : ∀ p, L'.child p = if L.parent x = some p then (pre ++ post).head? else L.child p
  next : L'.siblingNext x = none
  others : ∀ y, y ∉ pre ++ x :: post →
    L'.siblingNext y = L.siblingNext y ∧ L'.siblingPrev y = L.siblingPrev y
  rest : Segment L'.siblingNext L'.siblingPrev
    (if (L.parent x).isSome then (pre ++ post).getLast? else none) (pre ++ post) none

theorem detachFirst_takenOut (hF : F.Encodes L) (h : Stands F L x [] post) {p : ν}
    (hp : L.parent x = some p) : TakenOut L x [] post (L.detachFirst x p) := by
  have hhead : F.headPrev x = (x :: post).getLast? := by
    rw [headPrev, ← hF.parent, hp, h.siblings]
    rfl
  have hprev : L.siblingPrev x = (x :: post).getLast? := by
    rw [h.prev, hhead]
    rfl
  cases post with
  | nil =>
      have hnext : L.siblingNext x = none := h.next
      refine ⟨?_, ?_, ?_, ?_, trivial⟩
      · simp [detachFirst, hnext]
      · intro q
        by_cases hq : p = q
        · simp [detachFirst, hnext, hp, hq]
        · simp [detachFirst, hnext, hp, hq, Ne.symm hq]
      · simp [detachFirst, hnext]
      · simp [detachFirst, hnext]
  | cons q post =>
      have hnext : L.siblingNext x = some q := h.next
      obtain ⟨-, hxpost⟩ := h.notMem
      have hxq : x ≠ q := fun he => hxpost (by simp [he])
      have hrest := h.after.setPrev_head (List.nodup_cons.mp h.nodup).2 (L.siblingPrev x)
      refine ⟨?_, ?_, ?_, ?_, ?_⟩
      · simp [detachFirst, hnext]
      · intro r
        by_cases hr : p = r
        · simp [detachFirst, hnext, hp, hr]
        · simp [detachFirst, hnext, hp, hr, Ne.symm hr]
      · simp [detachFirst, hnext]
      · intro y hy
        have hyx : y ≠ x := fun he => hy (by simp [he])
        have hyq : y ≠ q := fun he => hy (by simp [he])
        simp [detachFirst, hnext, hyx, hyq]
      · have hlast : L.siblingPrev x = (q :: post).getLast? := by
          rw [hprev, List.getLast?_cons_cons]
        simp only [hp, Option.isSome_some, if_true, List.nil_append]
        rw [← hlast]
        refine hrest.congr fun y hy => ⟨?_, ?_⟩
        · have hyx : y ≠ x := fun he => hxpost (he ▸ hy)
          simp [detachFirst, hnext, hyx]
        · simp [detachFirst, hnext]

/-- The first of several roots. -/
theorem detachOther_takenOut_root (hF : F.Encodes L) (h : Stands F L x [] post)
    (hp : L.parent x = none) : ∃ L', L.detachOther x = .ok L' ∧ TakenOut L x [] post L' := by
  have hprev : L.siblingPrev x = none := by
    rw [h.prev, headPrev, ← hF.parent, hp]
    rfl
  have hnext := h.next
  cases post with
  | nil =>
      refine ⟨L, ?_, rfl, fun p => by simp [hp], hnext, fun y _ => ⟨rfl, rfl⟩, trivial⟩
      rw [List.head?_nil] at hnext
      simp [detachOther, hprev, hnext, hp]
  | cons q post =>
      rw [List.head?_cons] at hnext
      obtain ⟨-, hxpost⟩ := h.notMem
      refine ⟨(L.setSiblingPrev q none).setSiblingNext x none, ?_, rfl, fun p => by simp [hp],
        by simp, ?_, ?_⟩
      · simp [detachOther, hprev, hnext]
      · intro y hy
        have hyx : y ≠ x := fun he => hy (by simp [he])
        have hyq : y ≠ q := fun he => hy (by simp [he])
        simp [hyx, hyq]
      · simp only [hp, Option.isSome_none, Bool.false_eq_true, if_false, List.nil_append]
        have hrest := h.after.setPrev_head (List.nodup_cons.mp h.nodup).2 none
        refine hrest.congr fun y hy => ⟨?_, rfl⟩
        have hyx : y ≠ x := fun he => hxpost (he ▸ hy)
        simp [hyx]

/-- The last of the siblings. -/
theorem detachOther_takenOut_last {l : ν} (hF : F.Encodes L) (h : Stands F L x pre [])
    (hl : pre.getLast? = some l) :
    ∃ L', L.detachOther x = .ok L' ∧ TakenOut L x pre [] L' := by
  have hprev : L.siblingPrev x = some l := by
    rw [h.prev, hl]
    rfl
  have hnext : L.siblingNext x = none := h.next
  have hn : pre.Nodup := h.nodup.of_append_left
  have hlmem : l ∈ pre := List.mem_of_getLast? hl
  have hlx : x ≠ l := fun he => h.notMem.1 (he ▸ hlmem)
  have hrest := h.before.setNext_last hl hn none
  cases hp : L.parent x with
  | none =>
      have hhead : F.headPrev x = none := by
        rw [headPrev, ← hF.parent, hp]
        rfl
      refine ⟨L.setSiblingNext l none, ?_, rfl, fun p => by simp [hp], by simp [hlx, hnext], ?_, ?_⟩
      · simp [detachOther, hprev, hnext, hlx, hp]
      · intro y hy
        have hyl : y ≠ l := fun he => hy (by simp [he, hlmem])
        simp [hyl]
      · rw [hhead] at hrest
        simpa [hp] using hrest
  | some p =>
      cases pre with
      | nil => cases hlmem
      | cons c pre =>
          have hchild : L.child p = some c := h.child_eq hF hp
          refine ⟨(L.setSiblingNext l none).setSiblingPrev c (some l), ?_, rfl, ?_,
            by simp [hlx, hnext], ?_, ?_⟩
          · simp [detachOther, hprev, hnext, hlx, hp, hchild, deref]
          · intro q
            by_cases hq : p = q
            · simp [hp, ← hq, hchild]
            · simp [hp, hq]
          · intro y hy
            have hyl : y ≠ l := fun he => hy (List.mem_append_left _ (he ▸ hlmem))
            have hyc : y ≠ c := fun he => hy (by simp [he])
            simp [hyl, hyc]
          · have hfirst := hrest.setPrev_head hn (some l)
            simpa [hp, hl] using hfirst

/-- A node between two siblings. -/
theorem detachOther_takenOut_middle {l q : ν} {post : List ν} (hF : F.Encodes L)
    (h : Stands F L x pre (q :: post)) (hl : pre.getLast? = some l) :
    ∃ L', L.detachOther x = .ok L' ∧ TakenOut L x pre (q :: post) L' := by
  have hprev : L.siblingPrev x = some l := by
    rw [h.prev, hl]
    rfl
  have hnext : L.siblingNext x = some q := h.next
  have hn : pre.Nodup := h.nodup.of_append_left
  have hlmem : l ∈ pre := List.mem_of_getLast? hl
  obtain ⟨hxpre, hxpost⟩ := h.notMem
  have hlx : x ≠ l := fun he => hxpre (he ▸ hlmem)
  have hdisjoint := h.disjoint
  refine ⟨((L.setSiblingNext l (some q)).setSiblingPrev q (some l)).setSiblingNext x none, ?_, rfl,
    ?_, by simp, ?_, ?_⟩
  · simp [detachOther, hprev, hnext, hlx]
  · intro p
    by_cases hp : L.parent x = some p
    · simp only [hp, if_true]
      cases pre with
      | nil => cases hlmem
      | cons c pre => exact h.child_eq hF hp
    · simp [hp]
  · intro y hy
    have hyx : y ≠ x := fun he => hy (by simp [he])
    have hyl : y ≠ l := fun he => hy (List.mem_append_left _ (he ▸ hlmem))
    have hyq : y ≠ q := fun he => hy (by simp [he])
    simp [hyx, hyl, hyq]
  · have hhead : (if (L.parent x).isSome then (pre ++ q :: post).getLast? else none) =
        F.headPrev x := by
      rw [headPrev, ← hF.parent, h.siblings]
      simp [List.getLast?_append]
    rw [hhead]
    refine segment_append.mpr ⟨?_, ?_⟩
    · refine (h.before.setNext_last hl hn (some q)).congr fun y hy => ⟨?_, ?_⟩
      · have hyx : y ≠ x := fun he => hxpre (he ▸ hy)
        simp [hyx]
      · have hyq : y ≠ q := fun he => hdisjoint hy (by simp [he])
        simp [hyq]
    · rw [hl]
      refine (h.after.setPrev_head (List.nodup_cons.mp h.nodup.of_append_right).2
        (some l)).congr fun y hy => ⟨?_, rfl⟩
      have hyx : y ≠ x := fun he => hxpost (he ▸ hy)
      have hyl : y ≠ l := fun he => hdisjoint hlmem (he ▸ hy)
      simp [hyx, hyl]

theorem exists_takenOut (hF : F.Encodes L) (h : Stands F L x pre post) :
    ∃ L', L.detachSubTree x = .ok ((L'.setSiblingPrev x none).setParent x none) ∧
      TakenOut L x pre post L' := by
  cases hl : pre.getLast? with
  | some l =>
      have hpre : pre ≠ [] := by
        rintro rfl
        cases hl
      have hother : ∃ L', L.detachOther x = .ok L' ∧ TakenOut L x pre post L' := by
        cases post with
        | nil => exact detachOther_takenOut_last hF h hl
        | cons q post => exact detachOther_takenOut_middle hF h hl
      obtain ⟨L', hL', htaken⟩ := hother
      refine ⟨L', ?_, htaken⟩
      unfold detachSubTree
      cases hp : L.parent x with
      | none => simp [hL']
      | some p =>
          have hfirst : L.child p ≠ some x := by
            rw [h.child_eq hF hp]
            cases pre with
            | nil => exact (hpre rfl).elim
            | cons c pre =>
                intro he
                cases he
                exact h.notMem.1 List.mem_cons_self
          simp [hfirst, hL']
  | none =>
      obtain rfl : pre = [] := List.getLast?_eq_none_iff.mp hl
      unfold detachSubTree
      cases hp : L.parent x with
      | none =>
          obtain ⟨L', hL', htaken⟩ := detachOther_takenOut_root hF h hp
          exact ⟨L', by simp [hL'], htaken⟩
      | some p =>
          have hfirst : L.child p = some x := h.child_eq hF hp
          exact ⟨L.detachFirst x p, by simp [hfirst], detachFirst_takenOut hF h hp⟩

theorem erase_siblings (h : Stands F L x pre post) :
    (F.siblings x).erase x = pre ++ post := by
  rw [h.siblings, List.erase_append_right _ h.notMem.1, List.erase_cons_head]

/-- `DetachSubTree` makes the subtree a tree of its own. -/
theorem detachSubTree_encodes (hF : F.Encodes L) (x : ν) :
    ∃ L', L.detachSubTree x = .ok L' ∧ (F.detach x).Encodes L' := by
  obtain ⟨pre, post, h⟩ := exists_stands hF x
  obtain ⟨L', hL', htaken⟩ := exists_takenOut hF h
  refine ⟨_, hL', ?_, ?_, ?_⟩
  · simp [detach, htaken.parent, hF.parent]
  · intro p
    have hchild := htaken.child p
    by_cases hp : L.parent x = some p
    · rw [if_pos hp, ← erase_siblings h, F.siblings_child x p (hF.parent ▸ hp)] at hchild
      exact hchild
    · have hnot : x ∉ F.children p := by
        rwa [F.mem_children, ← hF.parent]
      rw [if_neg hp, hF.child] at hchild
      simpa [detach, List.erase_of_not_mem hnot] using hchild
  · intro y
    by_cases hy : y = x
    · subst y
      have hself : (F.detach x).headPrev x = none := by simp [headPrev, detach]
      rw [hself, F.detach_siblings_self]
      exact ⟨by simp, by simp [htaken.next], trivial⟩
    · have hparent : (F.detach x).parent y = F.parent y := by simp [detach, hy]
      have hsiblings : (F.detach x).siblings y = (F.siblings y).erase x := by simp [detach, hy]
      by_cases hmem : y ∈ F.siblings x
      · have hrest := htaken.rest
        rw [hF.parent, ← parent_eq_of_mem hmem, ← erase_siblings h, ← F.siblings_eq x y hmem,
          ← hsiblings, ← hparent] at hrest
        refine hrest.congr fun z hz => ⟨rfl, ?_⟩
        have hzx : z ≠ x := by
          rintro rfl
          rw [hsiblings] at hz
          exact (F.nodup_siblings y).not_mem_erase hz
        simp [hzx]
      · have hxy : x ∉ F.siblings y := fun hm => hmem (mem_siblings_comm hm)
        have hchain := hF.chain y
        rw [headPrev, hparent, hsiblings, List.erase_of_not_mem hxy]
        refine hchain.congr fun z hz => ?_
        have hzx : z ≠ x := fun he => hxy (he ▸ hz)
        have hz' : z ∉ pre ++ x :: post := by
          rw [← h.siblings]
          exact fun hm => disjoint_siblings hmem hm hz
        simpa [hzx] using htaken.others z hz'

end TreeLinks

end DDFramework
