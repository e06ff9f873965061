import DDFramework.Verification.ExpHeap.Maximum

/-! # The range of a heap

A heap over `[address, address + size)` begins with its own object, and its free block ends where
the memory ends. Both constructors count `size` from behind the object, so the end address is
too high by the size of the object, and `AdjustHeap` finds no block that ends there. -/

namespace DDFramework.HeapMemory

open ExpHeap

variable {m m' : HeapMemory} {this : UIntPtr} {size : BitVec 64}

/-! ### Creation -/

/-- The size of a child heap: what its parent reports as its maximum if no size is given. -/
def childSize (m : HeapMemory) (parentHeap : UIntPtr) (size : BitVec 64) :
    Except Fault (BitVec 64) :=
  if size = 0 then
    (m.expHeap parentHeap).getMaximumAllocatableSize (minimumAllocationGranularity.setWidth 32)
  else .ok size

theorem childSize_bind {α : Type} (m : HeapMemory) (parentHeap : UIntPtr) (size : BitVec 64)
    (f : BitVec 64 → Except Fault α) :
    (m.childSize parentHeap size >>= f) =
      if size = 0 then
        (m.expHeap parentHeap).getMaximumAllocatableSize
          (minimumAllocationGranularity.setWidth 32) >>= f
      else .ok size >>= f := by
  rw [childSize]
  split <;> rfl

/-- A heap over `[this, this + size)`, as either `TryCreate` leaves it. -/
inductive Created : HeapMemory → UIntPtr → BitVec 64 → Prop where
  | root {m m' : HeapMemory} {this : UIntPtr} {size : BitVec 64} {name : CString}
      (region : this.toNat + size.toNat ≤ 2 ^ 64) (ne_zero : this ≠ 0)
      (create : m.tryCreateAt this size name = (this, m')) : Created m' this size
  | child {m m' : HeapMemory} {this currentThreadHeap parentHeap : UIntPtr}
      {size requested : BitVec 64} {alignment : BitVec 32} {name : CString}
      (region : this.toNat + size.toNat ≤ 2 ^ 64) (ne_zero : this ≠ 0)
      (create : m.tryCreateIn currentThreadHeap requested alignment name parentHeap =
        .ok (this, m'))
      (parent_ne_zero : (if parentHeap = 0 then currentThreadHeap else parentHeap) ≠ 0)
      (sized : m.childSize (if parentHeap = 0 then currentThreadHeap else parentHeap) requested =
        .ok size) : Created m' this size

/-- The neighbours of a child on the list of its parent are outside of its memory. -/
def KeepsApart (m : HeapMemory) (this : UIntPtr) (size : BitVec 64) : Prop :=
  (m.objects this).parentHeap ≠ 0 →
    ∀ node ∈ [m.links.next (childListNode this), m.links.prev (childListNode this)],
      node.toNat ∉ Set.Ico this.toNat (this.toNat + size.toNat)

/-- What both `TryCreate` do at the address of the new heap. -/
def fill (m : HeapMemory) (this : UIntPtr) (name : CString) (parentHeap : UIntPtr)
    (size : BitVec 64) : HeapMemory :=
  (m.construct this name parentHeap this size).addFirstBlock this size

theorem tryCreateIn_eq {currentThreadHeap parentHeap : UIntPtr} {requested : BitVec 64}
    {alignment : BitVec 32} {name : CString} (hne : this ≠ 0)
    (h : m.tryCreateIn currentThreadHeap requested alignment name parentHeap = .ok (this, m'))
    (hsize : m.childSize (if parentHeap = 0 then currentThreadHeap else parentHeap) requested =
      .ok size) :
    minimumHeapSize ≤ size ∧ ∃ parent : HeapMemory,
      m' = (parent.fill this name (if parentHeap = 0 then currentThreadHeap else parentHeap)
        size).pushBackChild (if parentHeap = 0 then currentThreadHeap else parentHeap) this := by
  dsimp only [tryCreateIn] at h
  generalize (if parentHeap = 0 then currentThreadHeap else parentHeap) = p at h hsize ⊢
  rw [← childSize_bind, hsize, ok_bind] at h
  split at h
  · cases h
    exact absurd rfl hne
  · next hmin =>
    refine ⟨BitVec.not_lt.mp hmin, ?_⟩
    cases hallocate : (m.expHeap p).tryAllocate size alignment with
    | error fault =>
        rw [hallocate] at h
        cases h
    | ok r =>
        rw [hallocate, ok_bind] at h
        split at h
        · cases h
          exact absurd rfl hne
        · cases h
          exact ⟨m.withExpHeap r.2, rfl⟩

/-! ### A heap that no call has changed -/

/-- The addresses in the object of a new heap. -/
structure Sized (m : HeapMemory) (this : UIntPtr) (size : BitVec 64) : Prop where
  size_ge : minimumHeapSize ≤ size
  startAddress : (m.objects this).startAddress = this + heapObjectSize
  endAddress : (m.objects this).endAddress = this + heapObjectSize + size

/-- The one free block of a new heap. -/
structure Filled (m : HeapMemory) (this : UIntPtr) (size : BitVec 64) : Prop
    extends Sized m this size where
  freeBlocks : (m.expHeap this).FreeBlocks [this + heapObjectSize]
  last : m.links.prev (m.expHeap this).freeBlockList = getListNode (this + heapObjectSize)
  blockSize : (m.memory (this + heapObjectSize)).blockSize =
    size - (heapObjectSize + blockHeaderSize)

/-- The links of a new heap: its own node is in no list, and its free list has one node. -/
structure FilledLinks (L : Links UIntPtr) (this : UIntPtr) : Prop where
  next_node : L.next (childListNode this) = childListNode this
  prev_node : L.prev (childListNode this) = childListNode this
  next_list : L.next (this + 112) = getListNode (this + heapObjectSize)
  next_first : L.next (getListNode (this + heapObjectSize)) = this + 112
  prev_list : L.prev (this + 112) = getListNode (this + heapObjectSize)

/-- The nodes that the constructors of a new heap and of its first block reset. -/
def newNodes (this : UIntPtr) : List UIntPtr :=
  [childListNode this, childList this, disposerList this, this + 112, this + 128,
    getListNode (this + heapObjectSize)]

theorem fill_links (m : HeapMemory) (this : UIntPtr) (name : CString) (parentHeap : UIntPtr)
    (size : BitVec 64) : (m.fill this name parentHeap size).links =
      ((newNodes this).foldl Links.construct m.links).pushBack (this + 112)
        (getListNode (this + heapObjectSize)) := rfl

theorem filledLinks (m : HeapMemory) (this : UIntPtr) (name : CString) (parentHeap : UIntPtr)
    (size : BitVec 64) : FilledLinks (m.fill this name parentHeap size).links this := by
  have hfirst : this + 112 ≠ getListNode (this + heapObjectSize) :=
    (firstNode_ne_freeBlockList this).symm
  have hlist : childListNode this ≠ this + 112 := by
    simp only [childListNode, childListNodeOffset]
    bv_omega
  have hnode : childListNode this ≠ getListNode (this + heapObjectSize) := by
    simp only [childListNode, childListNodeOffset, getListNode, heapObjectSize, expListNodeOffset]
    bv_omega
  have hself : ∀ x ∈ newNodes this, ((newNodes this).foldl Links.construct m.links).next x = x ∧
      ((newNodes this).foldl Links.construct m.links).prev x = x :=
    fun x hx => Links.foldl_construct_of_mem m.links hx
  rw [fill_links]
  generalize (newNodes this).foldl Links.construct m.links = L at hself
  obtain ⟨hn, hp⟩ := hself (childListNode this) (by simp [newNodes])
  obtain ⟨-, hlast⟩ := hself (this + 112) (by simp [newNodes])
  obtain ⟨-, hprev⟩ := hself (getListNode (this + heapObjectSize)) (by simp [newNodes])
  have hnext := Links.linkNext_next L hfirst
  rw [hprev, hlast] at hnext
  have hprevs := Links.linkNext_prev L (this + 112) (getListNode (this + heapObjectSize))
  rw [hprev, hlast] at hprevs
  constructor
  · rw [Links.pushBack, hnext, Function.update_of_ne hlist, Function.update_of_ne hnode, hn]
  · rw [Links.pushBack, hprevs, Function.update_of_ne hlist, Function.update_of_ne hnode, hp]
  · rw [Links.pushBack, hnext, Function.update_self]
  · rw [Links.pushBack, hnext, Function.update_of_ne hfirst.symm, Function.update_self]
  · rw [Links.pushBack, hprevs, Function.update_self]

theorem FilledLinks.freeBlocks (h : FilledLinks m.links this) :
    (m.expHeap this).FreeBlocks [this + heapObjectSize] := by
  refine ⟨⟨h.next_list, h.next_first⟩, ?_⟩
  have hne : (m.expHeap this).freeBlockList ≠ getListNode (this + heapObjectSize) :=
    (firstNode_ne_freeBlockList this).symm
  simpa using hne

theorem filled_fill (m : HeapMemory) (this : UIntPtr) (name : CString) (parentHeap : UIntPtr)
    (hsize : minimumHeapSize ≤ size) : (m.fill this name parentHeap size).Filled this size := by
  have hlinks := filledLinks m this name parentHeap size
  refine ⟨⟨hsize, ?_, ?_⟩, hlinks.freeBlocks, hlinks.prev_list, ?_⟩
  · simp [fill, construct, addFirstBlock, withExpHeap]
  · simp [fill, construct, addFirstBlock, withExpHeap]
  · simp [fill, construct, addFirstBlock, withExpHeap]

/-- `PushBackChild` writes to no other node of the new heap. -/
theorem Filled.pushBackChild {parentHeap : UIntPtr} (h : m.Filled this size)
    (hnode : m.links.next (childListNode this) = childListNode this)
    (hnode' : m.links.prev (childListNode this) = childListNode this)
    (hregion : this.toNat + size.toNat ≤ 2 ^ 64)
    (houtside : ∀ node ∈ [(m.pushBackChild parentHeap this).links.next (childListNode this),
        (m.pushBackChild parentHeap this).links.prev (childListNode this)],
      node.toNat ∉ Set.Ico this.toNat (this.toNat + size.toNat)) :
    (m.pushBackChild parentHeap this).Filled this size := by
  have hleast : (188 : ℕ) ≤ size.toNat := BitVec.le_def.mp h.size_ge
  let S : Set UIntPtr := {node | node.toNat ∈ Set.Ico this.toNat (this.toNat + size.toNat)}
  have hmem : ∀ offset : BitVec 64, offset.toNat < 188 → this + offset ∈ S := by
    intro offset hlt
    have hadd : (this + offset).toNat = this.toNat + offset.toNat := by bv_omega
    exact ⟨by omega, by omega⟩
  have hkeeps : ∀ offset : BitVec 64, offset.toNat < 188 → offset ≠ childListNodeOffset →
      (m.pushBackChild parentHeap this).links.next (this + offset) = m.links.next (this + offset) ∧
        (m.pushBackChild parentHeap this).links.prev (this + offset) =
          m.links.prev (this + offset) := by
    intro offset hlt hne
    exact Links.pushBack_of_notMem hnode hnode' (hmem _ (by decide))
      (houtside _ List.mem_cons_self) (houtside _ (List.mem_cons_of_mem _ List.mem_cons_self))
      (hmem offset hlt) (by simpa [childListNode] using hne)
  obtain ⟨hnext, hlast⟩ := hkeeps 112 (by decide) (by decide)
  obtain ⟨hfirst, -⟩ := hkeeps (heapObjectSize + expListNodeOffset) (by decide) (by decide)
  rw [← BitVec.add_assoc] at hfirst
  have hring := h.freeBlocks
  refine ⟨⟨h.size_ge, h.startAddress, h.endAddress⟩, ⟨⟨?_, ?_⟩, hring.nodup⟩, ?_, h.blockSize⟩
  · exact hnext.trans hring.path.1
  · exact hfirst.trans hring.path.2
  · exact hlast.trans h.last

/-- Both `TryCreate` fill the heap, and a child is then pushed to the list of its parent. -/
theorem Created.eq_fill (h : Created m this size) : ∃ m₀ : HeapMemory, ∃ name parentHeap,
    minimumHeapSize ≤ size ∧
      (m = m₀.fill this name parentHeap size ∨
        parentHeap ≠ 0 ∧ m = (m₀.fill this name parentHeap size).pushBackChild parentHeap this) := by
  cases h with
  | @root m₀ _ _ _ name region ne_zero create =>
      rw [tryCreateAt] at create
      split at create
      · cases create
        exact absurd rfl ne_zero
      · next hguard =>
        cases create
        exact ⟨m₀, name, 0, BitVec.not_lt.mp fun hlt => hguard (Or.inr hlt), Or.inl rfl⟩
  | @child _ _ _ _ _ _ _ _ name region ne_zero create parent_ne_zero sized =>
      obtain ⟨hsize, parent, rfl⟩ := tryCreateIn_eq ne_zero create sized
      exact ⟨parent, name, _, hsize, Or.inr ⟨parent_ne_zero, rfl⟩⟩

theorem Created.region (h : Created m this size) : this.toNat + size.toNat ≤ 2 ^ 64 := by
  cases h with
  | root region => exact region
  | child region => exact region

theorem Created.sized (h : Created m this size) : m.Sized this size := by
  obtain ⟨m₀, name, parentHeap, hsize, rfl | ⟨-, rfl⟩⟩ := h.eq_fill
  · exact (filled_fill m₀ this name parentHeap hsize).toSized
  · obtain ⟨hle, hstart, hend⟩ := (filled_fill m₀ this name parentHeap hsize).toSized
    exact ⟨hle, hstart, hend⟩

theorem Created.filled (h : Created m this size) (hapart : m.KeepsApart this size) :
    m.Filled this size := by
  have hregion := h.region
  obtain ⟨m₀, name, parentHeap, hsize, rfl | ⟨hparent, rfl⟩⟩ := h.eq_fill
  · exact filled_fill m₀ this name parentHeap hsize
  · have hlinks := filledLinks m₀ this name parentHeap size
    refine (filled_fill m₀ this name parentHeap hsize).pushBackChild hlinks.next_node
      hlinks.prev_node hregion (hapart ?_)
    simpa [pushBackChild, fill, construct, addFirstBlock, withExpHeap] using hparent

/-! ### What the range should be -/

/-- The addresses of the heap are those behind its object. -/
def RangeExact (m : HeapMemory) (this : UIntPtr) (size : BitVec 64) : Prop :=
  ∀ address, m.isAddressInHeap this address = true ↔
    this.toNat + heapObjectSize.toNat ≤ address.toNat ∧ address.toNat < this.toNat + size.toNat

/-- The total size is the number of these addresses. -/
def TotalExact (m : HeapMemory) (this : UIntPtr) (size : BitVec 64) : Prop :=
  (m.getTotalSize this).toNat + heapObjectSize.toNat = size.toNat

/-- The parent's allocation of the heap ends where the heap ends, and all addresses of the heap
are in it. -/
structure Held (m : HeapMemory) (this : UIntPtr) : Prop where
  exact : (m.memory (this - blockHeaderSize)).blockSize = (m.objects this).endAddress - this
  inside : ∀ address, m.isAddressInHeap this address = true → address.toNat ∈
    Set.Ico this.toNat (this.toNat + (m.memory (this - blockHeaderSize)).blockSize.toNat)

/-- The effect of removing a free block that ends at the end of the heap. -/
structure Trimmed (m m' : HeapMemory) (this : UIntPtr) (free : List UIntPtr) (block : UIntPtr) :
    Prop where
  freeBlocks : (m'.expHeap this).FreeBlocks (free.erase block)
  endAddress : (m'.objects this).endAddress = block
  held : (m.objects this).parentHeap ≠ 0 → m'.Held this

/-- `AdjustHeap` of a heap that ends at `stop` removes the free block that ends there, and changes
nothing if there is none. -/
structure Trims (m : HeapMemory) (this : UIntPtr) (stop : ℕ) : Prop where
  keeps : ∀ free, (m.expHeap this).FreeBlocks free →
    (∀ block ∈ free, (m.expHeap this).extentEnd block ≠ stop) →
      m.adjustHeap this = .ok (⟨(m.objects this).endAddress, 0⟩, m)
  removes : ∀ free, (m.expHeap this).FreeBlocks free → ∀ block ∈ free,
    (m.expHeap this).extentEnd block = stop → ∃ m',
      m.adjustHeap this = .ok (⟨block, blockHeaderSize + (m.memory block).blockSize⟩, m') ∧
        m.Trimmed m' this free block

/-- The memories that calls of a new heap's users lead to, with the live allocations and the end
of the heap. -/
inductive Reached (m : HeapMemory) (this : UIntPtr) (size : BitVec 64) :
    HeapMemory → List UIntPtr → ℕ → Prop where
  | created : Reached m this size m [] (this.toNat + size.toNat)
  | called {m' : HeapMemory} {live : List UIntPtr} {stop : ℕ} {result : BitVec 64}
      {s : HeapSystem} (c : HeapCall) (reached : Reached m this size m' live stop)
      (admits : HeapSystem.Admits ⟨m'.expHeap this, live⟩ c)
      (call : HeapSystem.call ⟨m'.expHeap this, live⟩ c = .ok (result, s)) :
      Reached m this size (m'.withExpHeap s.heap) s.live stop
  | adjusted {m' m'' : HeapMemory} {live : List UIntPtr} {stop : ℕ} {range : MemoryRange}
      (reached : Reached m this size m' live stop)
      (call : m'.adjustHeap this = .ok (range, m'')) :
      Reached m this size m'' live (stop - range.size.toNat)

/-- The ranges of a created heap are as they should be, and stay so. -/
structure Consistent (m : HeapMemory) (this : UIntPtr) (size : BitVec 64) : Prop where
  range : m.RangeExact this size
  total : m.TotalExact this size
  trims : ∀ m' live stop, Reached m this size m' live stop → m'.Trims this stop

/-! ### What it is -/

theorem Sized.getTotalSize (h : m.Sized this size) : m.getTotalSize this = size := by
  rw [HeapMemory.getTotalSize, h.startAddress, h.endAddress, BitVec.add_comm _ size,
    BitVec.add_sub_cancel]

/-- The range reaches beyond the memory of the heap, or it wraps and is empty. -/
theorem Sized.not_rangeExact (h : m.Sized this size)
    (hregion : this.toNat + size.toNat ≤ 2 ^ 64) : ¬ m.RangeExact this size := by
  intro hrange
  have hleast : (188 : ℕ) ≤ size.toNat := BitVec.le_def.mp h.size_ge
  have hobject : heapObjectSize.toNat = 152 := rfl
  have hin : ∀ address : UIntPtr, m.isAddressInHeap this address = true ↔
      this + heapObjectSize ≤ address ∧ address < this + heapObjectSize + size := by
    intro address
    rw [isAddressInHeap, h.startAddress, h.endAddress, Bool.and_eq_true, decide_eq_true_eq,
      decide_eq_true_eq]
  have hstart : (this + heapObjectSize).toNat = this.toNat + 152 := by
    rw [BitVec.toNat_add, hobject]
    omega
  -- the start is an address of the heap, so the end address has not wrapped
  have hfirst := (hin _).mp ((hrange (this + heapObjectSize)).mpr ⟨by omega, by omega⟩)
  have hend : (this + heapObjectSize + size).toNat = this.toNat + 152 + size.toNat := by
    have hlt := BitVec.lt_def.mp hfirst.2
    rw [BitVec.toNat_add (this + heapObjectSize), hstart] at hlt ⊢
    omega
  have hlast : (this + size).toNat = this.toNat + size.toNat := by
    rw [BitVec.toNat_add]
    have hbound := (this + heapObjectSize + size).isLt
    omega
  have hbehind := (hrange (this + size)).mp ((hin _).mpr
    ⟨BitVec.le_def.mpr (by omega), BitVec.lt_def.mpr (by omega)⟩)
  omega

theorem Sized.not_totalExact (h : m.Sized this size) : ¬ m.TotalExact this size := by
  rw [TotalExact, h.getTotalSize]
  exact fun he => absurd he (Nat.ne_of_gt (Nat.lt_add_of_pos_right (by decide)))

/-- `AdjustHeap` changes nothing if the last free block does not end at the end address. -/
theorem adjustHeap_of_last_ne {block : UIntPtr}
    (hlast : m.links.prev (m.expHeap this).freeBlockList = getListNode block)
    (hne : (m.expHeap this).freeBlockEnd block ≠ (m.objects this).endAddress) :
    m.adjustHeap this = .ok (⟨(m.objects this).endAddress, 0⟩, m) := by
  rw [adjustHeap, hlast, getParent_getListNode]
  simp only [if_pos hne, ite_self]
  rfl

/-- The free block of a new heap ends at the end of its memory. -/
theorem Filled.extentEnd_eq (h : m.Filled this size)
    (hregion : this.toNat + size.toNat ≤ 2 ^ 64) :
    (m.expHeap this).extentEnd (this + heapObjectSize) = this.toNat + size.toNat := by
  have hleast : (188 : ℕ) ≤ size.toNat := BitVec.le_def.mp h.size_ge
  have hblock : ((m.expHeap this).memory (this + heapObjectSize)).blockSize =
      size - (heapObjectSize + blockHeaderSize) := h.blockSize
  rw [extentEnd, hblock]
  simp only [heapObjectSize, blockHeaderSize]
  bv_omega

theorem Filled.not_trims (h : m.Filled this size)
    (hregion : this.toNat + size.toNat ≤ 2 ^ 64) :
    ¬ m.Trims this (this.toNat + size.toNat) := by
  intro htrims
  have hleast : (188 : ℕ) ≤ size.toNat := BitVec.le_def.mp h.size_ge
  obtain ⟨m', hadjust, -⟩ := htrims.removes _ h.freeBlocks _ List.mem_cons_self
    (h.extentEnd_eq hregion)
  have hne : (m.expHeap this).freeBlockEnd (this + heapObjectSize) ≠
      (m.objects this).endAddress := by
    have hblock : ((m.expHeap this).memory (this + heapObjectSize)).blockSize =
        size - (heapObjectSize + blockHeaderSize) := h.blockSize
    rw [freeBlockEnd, hblock, h.endAddress]
    simp only [heapObjectSize, blockHeaderSize]
    bv_omega
  rw [adjustHeap_of_last_ne h.last hne, h.blockSize] at hadjust
  have hsize : (0 : BitVec 64) = blockHeaderSize + (size - (heapObjectSize + blockHeaderSize)) :=
    congrArg (fun r => r.1.size) (Except.ok.inj hadjust)
  simp only [heapObjectSize, blockHeaderSize] at hsize
  bv_omega

/-- No created heap has the range or the total size that its memory calls for, and none trims its
free block at the end. -/
theorem created_not_consistent (h : Created m this size) :
    ¬ m.RangeExact this size ∧ ¬ m.TotalExact this size ∧
      (m.KeepsApart this size →
        ¬ ∀ m' live stop, Reached m this size m' live stop → m'.Trims this stop) := by
  refine ⟨h.sized.not_rangeExact h.region, h.sized.not_totalExact, ?_⟩
  intro hapart htrims
  exact (h.filled hapart).not_trims h.region (htrims m [] _ .created)

/-- A heap over 4096 bytes. -/
def rootMemory : HeapMemory :=
  (HeapMemory.mk (fun _ => ⟨0, 0, 0⟩) (.detached UIntPtr) fun _ =>
    ⟨0, 0, 0, ⟨[], by decide⟩, .firstFit⟩).fill 0x10000 ⟨[], by decide⟩ 0 4096

theorem created_rootMemory : Created rootMemory 0x10000 4096 :=
  .root (by decide) (by decide) rfl

/-- A first-fit heap with one free block, as a parent. -/
def parentMemory : HeapMemory where
  memory := Function.update (fun _ => ⟨0, 0, 0⟩) 0x10098 ⟨freeMagic, 0, 3912⟩
  links :=
    let neighbour := fun node =>
      if node = 0x10070 then 0x100a8 else if node = 0x100a8 then 0x10070 else node
    ⟨neighbour, neighbour⟩
  objects := fun _ => ⟨0x10098, 0x11098, 0, ⟨[], by decide⟩, .firstFit⟩

/-- The parent hands out its only block for a child that is larger than itself. -/
theorem exists_created_child : ∃ m, Created m 0x100b8 8192 ∧ m.KeepsApart 0x100b8 8192 := by
  have hrun : (parentMemory.tryCreateIn 0 8192 4 ⟨[], by decide⟩ 0x10000).toOption.any (fun r =>
      r.1 = 0x100b8 ∧ r.2.links.next (childListNode 0x100b8) = 0x10030 ∧
        r.2.links.prev (childListNode 0x100b8) = 0x10030) = true := by decide +kernel
  obtain ⟨⟨this, m⟩, hcreate, hchecks⟩ := (Option.any_eq_true _ _).mp hrun
  obtain ⟨rfl, hnext, hprev⟩ := of_decide_eq_true hchecks
  have hcall : parentMemory.tryCreateIn 0 8192 4 ⟨[], by decide⟩ 0x10000 = .ok (0x100b8, m) :=
    toOption_eq_some.mp hcreate
  refine ⟨m, .child (by decide) (by decide) hcall (by decide) (if_neg (by decide)), ?_⟩
  intro _ node hm hin
  rw [hnext, hprev] at hm
  have hnode : node = 0x10030 := by simpa using hm
  exact absurd (hnode ▸ hin.1) (by decide)

theorem keepsApart_rootMemory : rootMemory.KeepsApart 0x10000 4096 :=
  fun hparent => absurd rfl hparent

/-- A root and a child. -/
theorem created_not_consistent_root_and_child :
    (¬ rootMemory.RangeExact 0x10000 4096 ∧ ¬ rootMemory.TotalExact 0x10000 4096 ∧
      ¬ ∀ m live stop, Reached rootMemory 0x10000 4096 m live stop → m.Trims 0x10000 stop) ∧
    ∃ m, Created m 0x100b8 8192 ∧ ¬ m.RangeExact 0x100b8 8192 ∧
      ¬ ∀ m' live stop, Reached m 0x100b8 8192 m' live stop → m'.Trims 0x100b8 stop := by
  obtain ⟨hrange, htotal, htrims⟩ := created_not_consistent created_rootMemory
  obtain ⟨m, hchild, hapart⟩ := exists_created_child
  obtain ⟨hrange', -, htrims'⟩ := created_not_consistent hchild
  exact ⟨⟨hrange, htotal, htrims keepsApart_rootMemory⟩, m, hchild, hrange', htrims' hapart⟩

/-- The heap over `[0x10000, 0x11000)` claims the address behind it, reports 4096 bytes and
trims nothing, although its free block ends at `0x11000`. -/
theorem rootMemory_not_consistent : Created rootMemory 0x10000 4096 ∧
    rootMemory.isAddressInHeap 0x10000 0x11000 = true ∧
    rootMemory.getTotalSize 0x10000 = 4096 ∧
    rootMemory.adjustHeap 0x10000 = .ok (⟨0x11098, 0⟩, rootMemory) ∧
    (rootMemory.expHeap 0x10000).extentEnd 0x10098 = 0x11000 ∧
    ¬ rootMemory.Consistent 0x10000 4096 := by
  have hfilled := created_rootMemory.filled keepsApart_rootMemory
  have hregion := created_rootMemory.region
  refine ⟨created_rootMemory, by decide, hfilled.getTotalSize, ?_, hfilled.extentEnd_eq hregion, ?_⟩
  · exact adjustHeap_of_last_ne hfilled.last (by decide)
  · exact fun h => hfilled.not_rangeExact hregion h.range

end DDFramework.HeapMemory
