import DDFramework.Library.RoseTree
import DDFramework.Model.Heap
import DDFramework.Verification.ExpHeap.Search
import DDFramework.Verification.IntrusiveList.RangeFor

/-! # The tree of heaps

The child lists make a tree of the heaps, and `PushBackChild` appends a heap to the children of
another one. -/

namespace DDFramework.HeapMemory

open RoseTree

variable {m : HeapMemory} {t : RoseTree UIntPtr}

@[simp] theorem heapOfNode_childListNode (heap : UIntPtr) :
    heapOfNode (childListNode heap) = heap :=
  BitVec.add_sub_cancel heap childListNodeOffset

theorem childList_inj {heap other : UIntPtr} : childList heap = childList other ↔ heap = other := by
  rw [childList, childList]
  bv_omega

/-- The child list of every heap of the tree holds its children, in order. -/
structure Represents (m : HeapMemory) (t : RoseTree UIntPtr) : Prop where
  coherent : m.links.Coherent
  ring : ∀ k d, AtLevel k t d →
    m.links.Ring (childList d.value) (d.children.map fun c => childListNode c.value)

namespace Represents

theorem of_mem (h : m.Represents t) {c : RoseTree UIntPtr} (hc : c ∈ t.children) :
    m.Represents c where
  coherent := h.coherent
  ring k d hd := h.ring (k + 1) d (.child hc hd)

theorem ring_root (h : m.Represents t) :
    m.links.Ring (childList t.value) (t.children.map fun c => childListNode c.value) :=
  h.ring 0 t (.root t)

theorem isEmpty_eq (h : m.Represents t) :
    m.links.isEmpty (childList t.value) = t.children.isEmpty := by
  rw [h.ring_root.isEmpty_eq, List.isEmpty_map]

/-- A loop over the children of the root that leaves the links alone. -/
theorem rangeFor_children {σ : Type*} (h : m.Represents t)
    (body : UIntPtr → σ → Except Fault (LoopExit σ)) (s : σ) :
    rangeFor (fun _ => m.links) (childList t.value) body ExpHeap.addressCount s =
      visit body (t.children.map fun c => childListNode c.value) .ok s :=
  rangeFor_eq_visit (fun _ => True) h.coherent h.ring_root
    (ExpHeap.ring_length_lt h.ring_root) (fun _ _ _ _ _ _ => ⟨rfl, trivial⟩) trivial

end Represents

/-! ### `PushBackChild` -/

/-- A heap in no child list, without children, whose node is not a list head of the tree. -/
structure Unlinked (m : HeapMemory) (t : RoseTree UIntPtr) (child : UIntPtr) : Prop where
  node : m.links.next (childListNode child) = childListNode child
  list : m.links.next (childList child) = childList child
  node_ne : ∀ k d, AtLevel k t d → childListNode child ≠ childList d.value
  list_ne : ∀ k d, AtLevel k t d → childList child ≠ childList d.value

theorem childListNode_ne_childList (child : UIntPtr) :
    childListNode child ≠ childList child := by
  simp only [childListNode, childListNodeOffset, childList]
  bv_omega

/-- The new heap becomes the last child of its parent, and no other child list changes. -/
theorem Represents.pushBackChild (h : m.Represents t) {parent child : UIntPtr} {k : ℕ}
    {p : RoseTree UIntPtr} (hp : AtLevel k t p) (hparent : p.value = parent)
    (hchild : m.Unlinked t child)
    (hhead : ∀ j d, AtLevel j t d → ∀ c ∈ d.children, childListNode c.value ≠ childList parent) :
    (m.pushBackChild parent child).Represents (push parent (node child []) t) := by
  refine ⟨h.coherent.pushBack _ _, ?_⟩
  intro j d hd
  rcases atLevel_push hd with ⟨d', hd', rfl⟩ | ⟨i, hnew⟩
  · have hring := h.ring j d' hd'
    have hnode : childListNode child ∉
        childList d'.value :: d'.children.map fun c => childListNode c.value := by
      intro hm
      rcases List.mem_cons.mp hm with he | hm
      · exact hchild.node_ne j d' hd' he
      · exact hring.next_ne_of_mem hm hchild.node
    have hvalues : (d'.children.map (push parent (node child []))).map
        (fun c => childListNode c.value) = d'.children.map fun c => childListNode c.value := by
      simp
    rw [push_value, push_children, List.map_append, hvalues]
    by_cases he : d'.value = parent
    · rw [if_pos he, he]
      rw [he] at hring hnode
      exact hring.pushBack h.coherent hchild.node hnode
    · rw [if_neg he, List.map_nil, List.append_nil]
      refine hring.pushBack_of_notMem h.coherent ?_ hnode
      intro hm
      rcases List.mem_cons.mp hm with hlist | hm
      · exact he (childList_inj.mp hlist).symm
      · obtain ⟨c, hc, hc'⟩ := List.mem_map.mp hm
        exact hhead j d' hd' c hc hc'
  · cases hnew with
    | root =>
        refine Links.ring_nil.mpr (Links.pushBack_next_of_next_eq h.coherent hchild.list ?_ ?_)
        · exact hparent ▸ (hchild.list_ne k p hp).symm
        · exact childListNode_ne_childList child
    | child hc _ => cases hc

/-- A heap without children. -/
theorem represents_leaf (hc : m.links.Coherent) {heap : UIntPtr}
    (hlist : m.links.next (childList heap) = childList heap) : m.Represents (node heap []) where
  coherent := hc
  ring k d hd := by
    cases hd with
    | root => exact Links.ring_nil.mpr hlist
    | child hmem _ => cases hmem

/-- A heap with one child, for runs on fixed inputs. -/
theorem exists_parent_and_child (objects : UIntPtr → HeapObject) :
    ∃ m : HeapMemory, m.objects = objects ∧ m.Represents (node 0x10000 [node 0x20000 []]) := by
  let unlinked : HeapMemory := ⟨fun _ => ⟨0, 0, 0⟩, .detached UIntPtr, objects⟩
  have hroot : unlinked.Represents (node 0x10000 []) :=
    represents_leaf Links.detached_coherent rfl
  refine ⟨unlinked.pushBackChild 0x10000 0x20000, rfl,
    hroot.pushBackChild (.root _) rfl ⟨rfl, rfl, ?_, ?_⟩ ?_⟩
  · intro k d hd
    cases hd with
    | root => decide
    | child hmem _ => cases hmem
  · intro k d hd
    cases hd with
    | root => decide
    | child hmem _ => cases hmem
  · intro k d hd c hc
    cases hd with
    | root => cases hc
    | child hmem _ => cases hmem

end DDFramework.HeapMemory
