import DDFramework.Verification.Heap.Tree

/-! # Searches in the tree of heaps

`FindHeapFromAddress` descends to the first child around the address as long as there is one.
`FindHeapByName` finds the first match below the root in preorder, and the root last. -/

namespace DDFramework.HeapMemory

open RoseTree

variable {m : HeapMemory} {t : RoseTree UIntPtr} {fuel : ℕ}

/-! ### By address -/

/-- The addresses of a heap. -/
def range (m : HeapMemory) (heap : UIntPtr) : Set UIntPtr :=
  {address | (m.objects heap).startAddress ≤ address ∧ address < (m.objects heap).endAddress}

theorem isAddressInHeap_iff {heap address : UIntPtr} :
    m.isAddressInHeap heap address = true ↔ address ∈ m.range heap := by
  rw [isAddressInHeap, Bool.and_eq_true, decide_eq_true_eq, decide_eq_true_eq]
  rfl

theorem findHeapFromAddress_succ (h : m.Represents t) {address : UIntPtr}
    (hin : m.isAddressInHeap t.value address = true) :
    m.findHeapFromAddress (fuel + 1) t.value address =
      match t.children.find? fun c => m.isAddressInHeap c.value address with
      | none => .ok (some t.value)
      | some c => m.findHeapFromAddress fuel c.value address := by
  rw [findHeapFromAddress, if_neg (by rw [hin]; decide), h.rangeFor_children]
  rw [visit_find? (p := fun node => m.isAddressInHeap (heapOfNode node) address)
    (f := fun node => m.findHeapFromAddress fuel (heapOfNode node) address) (fun _ => rfl),
    List.find?_map]
  simp only [Function.comp_def, heapOfNode_childListNode]
  cases t.children.find? fun c => m.isAddressInHeap c.value address with
  | none => rfl
  | some c =>
      dsimp only [Option.map_some]
      rw [heapOfNode_childListNode]

/-- The search returns where the descent ends. -/
theorem findHeapFromAddress_of_descent {address : UIntPtr} {k : ℕ} {u : RoseTree UIntPtr}
    (hdescent : Descent (fun heap => m.isAddressInHeap heap address) k t u) (h : m.Represents t)
    (hin : m.isAddressInHeap t.value address = true) (hfuel : t.depth ≤ fuel) :
    m.findHeapFromAddress fuel t.value address = .ok (some u.value) := by
  induction hdescent generalizing fuel with
  | @stay t hnone =>
      obtain ⟨fuel, rfl⟩ := Nat.exists_eq_add_one_of_ne_zero (t.depth_pos.trans_le hfuel).ne'
      have hfind : t.children.find? (fun c => m.isAddressInHeap c.value address) = none :=
        List.find?_eq_none.mpr hnone
      rw [findHeapFromAddress_succ h hin, hfind]
  | @step k t c u first _ ih =>
      obtain ⟨fuel, rfl⟩ := Nat.exists_eq_add_one_of_ne_zero (t.depth_pos.trans_le hfuel).ne'
      have hc := List.mem_of_find?_eq_some first
      have hdepth : c.depth ≤ fuel := by
        cases t
        exact Nat.le_of_lt_succ ((depth_lt_of_mem hc).trans_le hfuel)
      rw [findHeapFromAddress_succ h hin, first]
      exact ih (h.of_mem hc) (by simpa using List.find?_some first) hdepth

/-- The search ends. It returns null for an address outside of the root's range, and otherwise
the heap at the end of the descent, which is the deepest one around the address if the ranges
are nested. -/
theorem findHeapFromAddress_spec (h : m.Represents t) (address : UIntPtr)
    (hfuel : t.depth ≤ fuel) :
    (m.findHeapFromAddress fuel t.value address = .ok none ↔ address ∉ m.range t.value) ∧
    (address ∈ m.range t.value → ∃ k u,
      Descent (fun heap => m.isAddressInHeap heap address) k t u ∧ AtLevel k t u ∧
      m.findHeapFromAddress fuel t.value address = .ok (some u.value) ∧
      address ∈ m.range u.value ∧ (∀ c ∈ u.children, address ∉ m.range c.value) ∧
      (t.Nested m.range → ∀ j d, AtLevel j t d → address ∈ m.range d.value →
        j ≤ k ∧ (j = k → d = u))) := by
  obtain ⟨k, u, hdescent⟩ := exists_descent (fun heap => m.isAddressInHeap heap address) t
  have hfound := fun hin => findHeapFromAddress_of_descent hdescent h hin hfuel
  constructor
  · constructor
    · intro hnull hin
      rw [hfound (isAddressInHeap_iff.mpr hin)] at hnull
      cases hnull
    · intro hout
      obtain ⟨fuel, rfl⟩ := Nat.exists_eq_add_one_of_ne_zero (t.depth_pos.trans_le hfuel).ne'
      rw [← isAddressInHeap_iff, Bool.not_eq_true] at hout
      rw [findHeapFromAddress, if_pos hout]
  · intro hin
    have hin' := isAddressInHeap_iff.mpr hin
    refine ⟨k, u, hdescent, hdescent.atLevel, hfound hin',
      isAddressInHeap_iff.mp (hdescent.value_of_value hin'), ?_,
      fun hnested j d hd hx => hdescent.deepest (fun _ => isAddressInHeap_iff) hnested hd hx⟩
    intro c hc hx
    exact hdescent.children_not c hc (isAddressInHeap_iff.mpr hx)

/-- An address in the child. -/
theorem findHeapFromAddress_child : ∃ m : HeapMemory, ∃ heap,
    m.Represents (node 0x10000 [node 0x20000 []]) ∧
      m.findHeapFromAddress 2 0x10000 0x20100 = .ok (some heap) ∧ 0x20100 ∈ m.range heap := by
  obtain ⟨m, hobjects, hm⟩ := exists_parent_and_child fun heap =>
    ⟨heap + 0x98, if heap = 0x10000 then 0x50000 else 0x30000, 0, ⟨[], by simp⟩, .firstFit⟩
  have hdepth : (node (0x10000 : UIntPtr) [node 0x20000 []]).depth ≤ 2 := le_rfl
  have hin : (0x20100 : UIntPtr) ∈ m.range 0x10000 := by
    rw [range, hobjects]
    decide
  obtain ⟨k, u, -, -, hfound, hrange, -⟩ :=
    (findHeapFromAddress_spec hm 0x20100 hdepth).2 hin
  exact ⟨m, u.value, hm, hfound, hrange⟩

/-! ### By name -/

theorem strcmpChars_eq_zero_iff {s t : List CChar} (hs : 0 ∉ s) (ht : 0 ∉ t) :
    strcmpChars s t = 0 ↔ s = t := by
  have hne : ∀ {c : CChar} {cs : List CChar}, 0 ∉ c :: cs → (c.toNat : ℤ) ≠ 0 := by
    intro c cs hc he
    have hzero : c = 0 := BitVec.eq_of_toNat_eq (by exact_mod_cast he)
    exact hc (by simp [hzero])
  induction s generalizing t with
  | nil =>
      cases t with
      | nil => simp [strcmpChars]
      | cons d ds => simpa [strcmpChars] using hne ht
  | cons c cs ih =>
      cases t with
      | nil => simpa [strcmpChars] using hne hs
      | cons d ds =>
          rw [strcmpChars]
          by_cases hcd : c = d
          · subst hcd
            have hcs : 0 ∉ cs := fun hm => hs (List.mem_cons_of_mem c hm)
            have hds : 0 ∉ ds := fun hm => ht (List.mem_cons_of_mem c hm)
            rw [if_pos rfl]
            exact (ih hcs hds).trans ⟨congrArg (c :: ·), fun he => (List.cons.inj he).2⟩
          · rw [if_neg hcd, sub_eq_zero, List.cons.injEq]
            refine iff_of_false ?_ (fun he => hcd he.1)
            intro he
            exact hcd (BitVec.eq_of_toNat_eq (by exact_mod_cast he))

theorem strcmp_eq_zero_iff {s t : CString} : strcmp s t = 0 ↔ s = t := by
  rw [strcmp, strcmpChars_eq_zero_iff s.property t.property, Subtype.ext_iff]

/-- The test on a heap's name. -/
def hasName (m : HeapMemory) (heapName : CString) (heap : UIntPtr) : Bool :=
  (m.objects heap).name = heapName

/-- One iteration of the search by name. -/
def findByNameBody (m : HeapMemory) (heapName : CString) (fuel : ℕ) (node : UIntPtr)
    (s : Option UIntPtr) : Except Fault (LoopExit (Option UIntPtr)) :=
  let heap := heapOfNode node
  let result := strcmp (m.objects heap).name heapName
  if result = 0 then .ok (.stop (some heap))
  else if m.links.isEmpty (childList heap) = false then do
    let candidate ← m.findHeapByNameImpl heapName fuel heap
    if candidate.isSome then .ok (.stop candidate) else .ok (.next s)
  else .ok (.next s)

/-- An iteration searches the child and all that is below it. -/
theorem findByNameBody_eq {heapName : CString} {c : RoseTree UIntPtr} (hc : m.Represents c)
    (hbelow : m.findHeapByNameImpl heapName fuel c.value =
      .ok (c.descendants.find? (m.hasName heapName))) (s : Option UIntPtr) :
    m.findByNameBody heapName fuel (childListNode c.value) s =
      match c.preorder.find? (m.hasName heapName) with
      | some heap => .ok (.stop (some heap))
      | none => .ok (.next s) := by
  rw [findByNameBody, heapOfNode_childListNode, preorder_eq]
  by_cases hname : m.hasName heapName c.value = true
  · rw [List.find?_cons_of_pos hname]
    exact if_pos (strcmp_eq_zero_iff.mpr (of_decide_eq_true hname))
  · rw [List.find?_cons_of_neg hname]
    have hresult : strcmp (m.objects c.value).name heapName ≠ 0 := fun he =>
      hname (decide_eq_true (strcmp_eq_zero_iff.mp he))
    rw [if_neg hresult, hbelow, hc.isEmpty_eq, ok_bind]
    cases hfind : c.descendants.find? (m.hasName heapName) with
    | none => split <;> rfl
    | some candidate =>
        -- a heap with descendants has children
        have hchildren : c.children.isEmpty = false := by
          cases c with
          | node b us =>
              cases us with
              | nil => cases hfind
              | cons u us => rfl
        rw [if_pos hchildren]
        rfl

/-- The search below a heap is a search through its descendants in preorder. -/
theorem findHeapByNameImpl_eq (h : m.Represents t) (heapName : CString)
    (hfuel : t.depth ≤ fuel) :
    m.findHeapByNameImpl heapName fuel t.value =
      .ok (t.descendants.find? (m.hasName heapName)) := by
  induction t generalizing fuel with
  | node a ts ih =>
      obtain ⟨fuel, rfl⟩ := Nat.exists_eq_add_one_of_ne_zero
        ((node a ts).depth_pos.trans_le hfuel).ne'
      have hall : ∀ c ∈ ts, ∀ s, m.findByNameBody heapName fuel (childListNode c.value) s =
          match c.preorder.find? (m.hasName heapName) with
          | some heap => .ok (.stop (some heap))
          | none => .ok (.next s) := by
        intro c hc s
        have hbelow := ih c hc (h.of_mem hc)
          (Nat.le_of_lt_succ ((depth_lt_of_mem hc).trans_le hfuel))
        exact findByNameBody_eq (h.of_mem hc) hbelow s
      rw [findHeapByNameImpl, h.rangeFor_children, children_node, descendants_node]
      change visit (m.findByNameBody heapName fuel) _ _ _ = _
      clear ih h hfuel
      induction ts with
      | nil => rfl
      | cons c cs ihs =>
          have hrest := ihs fun d hd => hall d (List.mem_cons_of_mem c hd)
          have hstep := hall c List.mem_cons_self none
          rw [List.map_cons, preorder.preorders, List.find?_append]
          cases hfind : c.preorder.find? (m.hasName heapName) with
          | some heap =>
              rw [hfind] at hstep
              exact visit_stop hstep
          | none =>
              rw [hfind] at hstep
              rw [visit_next hstep, hrest, Option.none_or]

theorem findHeapByName_eq (h : m.Represents t) (heapName : CString) (hfuel : t.depth ≤ fuel) :
    m.findHeapByName fuel t.value heapName =
      .ok ((t.descendants.find? (m.hasName heapName)).or
        (if (m.objects t.value).name = heapName then some t.value else none)) := by
  rw [findHeapByName, findHeapByNameImpl_eq h heapName hfuel, ok_bind]
  cases t.descendants.find? (m.hasName heapName) with
  | some heap => rfl
  | none =>
      rw [Option.none_or]
      by_cases hroot : (m.objects t.value).name = heapName
      · rw [if_pos ⟨rfl, strcmp_eq_zero_iff.mpr hroot.symm⟩, if_pos hroot]
        rfl
      · rw [if_neg (fun hand => hroot (strcmp_eq_zero_iff.mp hand.2).symm), if_neg hroot]
        rfl

/-- The search by name ends with the first heap below the root that has the name, in preorder,
and with the root only if there is none. -/
theorem findHeapByName_spec (h : m.Represents t) (heapName : CString) (hfuel : t.depth ≤ fuel) :
    m.findHeapByName fuel t.value heapName =
      .ok ((t.descendants.find? fun heap => (m.objects heap).name = heapName).or
        (if (m.objects t.value).name = heapName then some t.value else none)) ∧
    ((∃ heap, m.findHeapByName fuel t.value heapName = .ok (some heap)) ↔
      ∃ heap ∈ t.preorder, (m.objects heap).name = heapName) := by
  refine ⟨findHeapByName_eq h heapName hfuel, ?_⟩
  rw [findHeapByName_eq h heapName hfuel, preorder_eq]
  cases hfind : t.descendants.find? (m.hasName heapName) with
  | some heap =>
      refine iff_of_true ⟨heap, rfl⟩ ⟨heap, ?_, ?_⟩
      · exact List.mem_cons_of_mem _ (List.mem_of_find?_eq_some hfind)
      · have hname : m.hasName heapName heap = true := List.find?_some hfind
        exact of_decide_eq_true hname
  | none =>
      have hnone : ∀ heap ∈ t.descendants, (m.objects heap).name ≠ heapName := by
        intro heap hm he
        exact List.find?_eq_none.mp hfind heap hm (decide_eq_true he)
      rw [Option.none_or]
      split
      · next hroot => exact iff_of_true ⟨t.value, rfl⟩ ⟨t.value, List.mem_cons_self, hroot⟩
      · next hroot =>
        refine iff_of_false (fun ⟨heap, he⟩ => by cases he) ?_
        rintro ⟨heap, hm, he⟩
        rcases List.mem_cons.mp hm with rfl | hm
        · exact hroot he
        · exact hnone heap hm he

/-- The name of parent and child finds the child. -/
theorem findHeapByName_repeated : ∃ m : HeapMemory,
    m.Represents (node 0x10000 [node 0x20000 []]) ∧ (m.objects 0x10000).name.val = [0x61] ∧
      m.findHeapByName 2 0x10000 ⟨[0x61], by decide⟩ = .ok (some 0x20000) := by
  obtain ⟨m, hobjects, hm⟩ := exists_parent_and_child fun _ =>
    ⟨0, 0, 0, ⟨[0x61], by decide⟩, .firstFit⟩
  have hdepth : (node (0x10000 : UIntPtr) [node 0x20000 []]).depth ≤ 2 := le_rfl
  refine ⟨m, hm, by rw [hobjects], ?_⟩
  refine (findHeapByName_spec hm ⟨[0x61], by decide⟩ hdepth).1.trans ?_
  rw [hobjects]
  rfl

end DDFramework.HeapMemory
