import DDFramework.Library.SlotStack
import DDFramework.Model.FixedObjectAllocator

/-! # Slots of a `FixedObjectAllocator`

The clients allocate objects, write to the objects they have, and give them back. The free
slots stay a chain of links whatever the clients write. -/

namespace DDFramework.FixedObjectAllocator

variable {count : ℕ}

theorem construct_next {i : ℕ} (hi : i + 1 < count) :
    (construct count).next i = some (i + 1) := if_pos hi

/-- The constructor links each slot to the one after it. -/
theorem chain_construct {k : ℕ} (hk : k < count) :
    Chain some (construct count).next none (some k) (List.range' k (count - k)) := by
  obtain ⟨m, rfl⟩ : ∃ m, count = k + m + 1 := ⟨count - k - 1, by omega⟩
  have hchain := chain_range' m k (fun i _ hi => construct_next (by omega : i + 1 < k + m + 1))
  have hlast : (construct (k + m + 1)).next (k + m) = none := if_neg (by omega)
  rw [hlast] at hchain
  rw [show k + m + 1 - k = m + 1 by omega]
  exact hchain

/-! ### Clients -/

/-- An allocator, and the slots of the objects that its clients have. -/
structure Use (count : ℕ) where
  allocator : FixedObjectAllocator count
  live : List ℕ

namespace Use

/-- `constructed` and `word` are what the object leaves where the link was. -/
inductive Step where
  | allocate (constructed : Option ℕ)
  | free (slot : ℕ)
  | write (slot : ℕ) (word : Option ℕ)

def start (count : ℕ) : Use count := ⟨construct count, []⟩

/-- Clients free and write only objects that they have. -/
def next (u : Use count) : Step → Option (Use count)
  | .allocate constructed =>
    match u.allocator.allocate with
    | (none, a) => some { u with allocator := a }
    | (some slot, a) => some ⟨a.writeObject slot constructed, slot :: u.live⟩
  | .free slot =>
    if slot ∈ u.live then some ⟨u.allocator.freeUnasserted slot, u.live.erase slot⟩ else none
  | .write slot word =>
    if slot ∈ u.live then some { u with allocator := u.allocator.writeObject slot word }
    else none

variable {u u' : Use count}

/-- The chain of links holds the slots that are not live. -/
def Chained (u : Use count) (free : List ℕ) : Prop :=
  Chain some u.allocator.next none u.allocator.freeList free ∧
    SlotStack.Partitions ⟨free, u.live⟩ (List.range count)

theorem chained_start (hcount : 0 < count) : (start count).Chained (List.range count) := by
  constructor
  · rw [List.range_eq_range']
    exact chain_construct hcount
  · exact List.Perm.of_eq (List.append_nil _)

namespace Chained

variable {free : List ℕ} {slot : ℕ} {word : Option ℕ}

theorem notMem_free (h : u.Chained free) (hslot : slot ∈ u.live) : slot ∉ free :=
  fun hfree => ((h.2.mem_free_iff List.nodup_range).mp hfree).2 hslot

theorem allocate_of_nil (h : u.Chained []) : u.allocator.allocate = (none, u.allocator) := by
  have hnone : u.allocator.freeList = none := h.1
  simp only [allocate, hnone]

theorem allocate_of_cons (h : u.Chained (slot :: free)) :
    u.allocator.allocate =
      (some slot, { u.allocator with freeList := u.allocator.next slot }) := by
  have hsome : u.allocator.freeList = some slot := h.1.1
  simp only [allocate, hsome]

theorem construct (h : u.Chained (slot :: free)) :
    Chained (⟨writeObject { u.allocator with freeList := u.allocator.next slot } slot word,
      slot :: u.live⟩ : Use count) free := by
  have hnot : slot ∉ free := (List.nodup_cons.mp (h.2.free_nodup List.nodup_range)).1
  exact ⟨h.1.2.update hnot, h.2.pop⟩

theorem giveBack (h : u.Chained free) (hslot : slot ∈ u.live) :
    Chained (⟨u.allocator.freeUnasserted slot, u.live.erase slot⟩ : Use count) (slot :: free) :=
  ⟨h.1.push (h.notMem_free hslot), h.2.push hslot⟩

theorem write (h : u.Chained free) (hslot : slot ∈ u.live) :
    Chained { u with allocator := u.allocator.writeObject slot word } free :=
  ⟨h.1.update (h.notMem_free hslot), h.2⟩

/-- Whatever the clients do, the links of the free slots stay what they were. -/
theorem step (h : u.Chained free) {s : Step} (hs : u.next s = some u') :
    ∃ free', u'.Chained free' := by
  cases s with
  | allocate constructed =>
      cases free with
      | nil =>
          simp only [next, h.allocate_of_nil] at hs
          cases hs
          exact ⟨[], h⟩
      | cons slot free =>
          simp only [next, h.allocate_of_cons] at hs
          cases hs
          exact ⟨free, h.construct⟩
  | free slot =>
      rw [next, Option.ite_none_right_eq_some] at hs
      obtain ⟨hslot, hs⟩ := hs
      cases hs
      exact ⟨slot :: free, h.giveBack hslot⟩
  | write slot word =>
      rw [next, Option.ite_none_right_eq_some] at hs
      obtain ⟨hslot, hs⟩ := hs
      cases hs
      exact ⟨free, h.write hslot⟩

end Chained

theorem exists_chained (hcount : 0 < count) (h : Machine.Reaches next (start count) u) :
    ∃ free, u.Chained free := by
  induction h with
  | start => exact ⟨List.range count, chained_start hcount⟩
  | step _ _ htaken ih =>
      obtain ⟨free, hfree⟩ := ih
      exact hfree.step htaken

/-- In every state, the chain holds each slot that is not live once; an allocation returns a
slot that is not live, and null when every slot is live. -/
theorem reaches_slots (hcount : 0 < count) (h : Machine.Reaches next (start count) u) :
    (∃ free, Chain some u.allocator.next none u.allocator.freeList free ∧ free.Nodup ∧
      ∀ slot, slot ∈ free ↔ slot < count ∧ slot ∉ u.live) ∧
    (∀ slot a, u.allocator.allocate = (some slot, a) → slot < count ∧ slot ∉ u.live) ∧
    u.live.Nodup ∧ (u.allocator.allocate.1 = none ↔ u.live.length = count) := by
  obtain ⟨free, hchain, hpart⟩ := exists_chained hcount h
  have hmem : ∀ slot, slot ∈ free ↔ slot < count ∧ slot ∉ u.live := by
    intro slot
    rw [← List.mem_range]
    exact hpart.mem_free_iff List.nodup_range
  refine ⟨⟨free, hchain, hpart.free_nodup List.nodup_range, hmem⟩, ?_,
    hpart.live_nodup List.nodup_range, ?_⟩
  · intro slot a ha
    cases free with
    | nil =>
        rw [Chained.allocate_of_nil ⟨hchain, hpart⟩] at ha
        cases ha
    | cons first free =>
        rw [Chained.allocate_of_cons ⟨hchain, hpart⟩] at ha
        cases ha
        exact (hmem slot).mp List.mem_cons_self
  · have hall : free = [] ↔ u.live.length = count := by simpa using hpart.free_eq_nil_iff
    rw [← hall]
    cases free with
    | nil => simp [Chained.allocate_of_nil ⟨hchain, hpart⟩]
    | cons first free => simp [Chained.allocate_of_cons ⟨hchain, hpart⟩]

theorem reaches_slots_of_two :
    ∃ u : Use 2, u.live = [0] ∧ u.allocator.allocate.1 = some 1 ∧ 1 < 2 ∧ 1 ∉ u.live := by
  have hrun : Machine.run next (start 2)
      [.allocate (some 7), .allocate none, .write 1 (some 9), .free 1] =
        some ⟨⟨some 1, Function.update (Function.update (Function.update (Function.update
          (construct 2).next 0 (some 7)) 1 none) 1 (some 9)) 1 none⟩, [0]⟩ := rfl
  obtain ⟨-, hresult, -⟩ := reaches_slots (by decide) (.of_run hrun)
  exact ⟨_, rfl, rfl, hresult 1 _ rfl⟩

/-! ### The assertion of `Free` -/

theorem slot_lt_of_mem_live (hcount : 0 < count) (h : Machine.Reaches next (start count) u)
    {slot : ℕ} (hslot : slot ∈ u.live) : slot < count := by
  obtain ⟨free, -, hpart⟩ := exists_chained hcount h
  exact List.mem_range.mp (hpart.mem_iff.mp (List.mem_append_right _ hslot))

/-- A live object can be freed exactly when it is not the first one of the array. -/
theorem reaches_free_iff (hcount : 0 < count) (h : Machine.Reaches next (start count) u)
    {slot : ℕ} (hslot : slot ∈ u.live) :
    (∃ a, u.allocator.free slot = .ok a) ↔ slot ≠ 0 := by
  have hlt := slot_lt_of_mem_live hcount h hslot
  rw [free]
  constructor
  · rintro ⟨a, ha⟩ rfl
    simp at ha
  · intro hne
    rw [if_pos ⟨Nat.pos_of_ne_zero hne, hlt⟩]
    exact ⟨_, rfl⟩

/-- Two objects are allocated, and the second one can be freed. -/
theorem reaches_free_iff_of_two :
    ∃ u : Use 2, Machine.Reaches next (start 2) u ∧ u.live = [1, 0] ∧
      ∃ a, u.allocator.free 1 = .ok a := by
  have hrun : Machine.run next (start 2) [.allocate none, .allocate none] =
      some ⟨⟨none, Function.update (Function.update (construct 2).next 0 none) 1 none⟩, [1, 0]⟩ :=
    rfl
  have hreach := Machine.Reaches.of_run hrun
  exact ⟨_, hreach, rfl, (reaches_free_iff (by decide) hreach (by decide)).mpr (by decide)⟩

/-- The first object that is allocated cannot be freed. -/
theorem first_slot_free_aborts :
    ∃ u : Use 1, Machine.Reaches next (start 1) u ∧ 0 ∈ u.live ∧
      u.allocator.free 0 = .error .assertFailed := by
  have hrun : Machine.run next (start 1) [.allocate none] =
      some ⟨⟨none, Function.update (construct 1).next 0 none⟩, [0]⟩ := rfl
  exact ⟨_, Machine.Reaches.of_run hrun, by decide, rfl⟩

end Use

end DDFramework.FixedObjectAllocator
