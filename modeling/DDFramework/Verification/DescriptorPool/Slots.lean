import DDFramework.Library.Machine
import DDFramework.Model.DescriptorPool
import Mathlib.Data.List.Perm.Subperm
import Mathlib.Data.List.Range

/-! # Slots of a `DescriptorPool`

A slot that is not the latest one goes to the stack, from which nothing is ever taken. So the
pool loses it, and all other slots below the mark are in use. -/

namespace DDFramework.DescriptorSlotPool

open Vulkan

/-! ### Clients -/

/-- A pool, and the slots that its clients have. -/
structure Use where
  pool : DescriptorSlotPool
  live : List DescriptorSlot

namespace Use

/-- Clients give back only slots that they have. -/
def Allows (u : Use) : Call → Prop
  | .registerTexture _ | .registerSampler _ => True
  | .unregisterResourceBySlot slot _ => slot ∈ u.live

instance (u : Use) : ∀ call, Decidable (u.Allows call)
  | .registerTexture _ => .isTrue trivial
  | .registerSampler _ => .isTrue trivial
  | .unregisterResourceBySlot slot _ => inferInstanceAs (Decidable (slot ∈ u.live))

/-- The slots in use after a call that handed out `result`. -/
def liveAfter (live : List DescriptorSlot) (call : Call) (result : Option DescriptorSlot) :
    List DescriptorSlot :=
  match call, result with
  | .unregisterResourceBySlot slot _, _ => live.erase slot
  | _, some slot => slot :: live
  | _, none => live

def next (u : Use) (call : Call) : Option Use :=
  if u.Allows call then
    match u.pool.perform call with
    | .error _ => none
    | .ok (result, pool) => some ⟨pool, liveAfter u.live call result⟩
  else none

variable {u u' : Use} {max : BitVec 32} {lost : List DescriptorSlot} {slot : DescriptorSlot}

/-- The slots below the mark are in use or lost, and each lost slot made the stack one element
larger on paper. -/
structure Consistent (u : Use) (max : BitVec 32) (lost : List DescriptorSlot) : Prop where
  count : u.pool.freeIdStackCount = 0
  maxIds : u.pool.maxSlotIds = max
  mark_le : u.pool.textureIdCount.toNat ≤ max.toNat
  nodup : (lost ++ u.live).Nodup
  lt_mark : ∀ slot ∈ lost ++ u.live, slot.toNat < u.pool.textureIdCount.toNat
  size : u.pool.freeIdStackSize.toNat = 64 + lost.length
  stack : u.pool.freeIdStack.length = 64

/-- Different words below a bound are no more than the bound. -/
theorem length_le_of_nodup {slots : List DescriptorSlot} {n : ℕ} (h : slots.Nodup)
    (hlt : ∀ slot ∈ slots, slot.toNat < n) : slots.length ≤ n := by
  have hnodup : (slots.map BitVec.toNat).Nodup := h.map fun _ _ => BitVec.eq_of_toNat_eq
  have hsubset : slots.map BitVec.toNat ⊆ List.range n := by
    intro i hi
    obtain ⟨slot, hslot, rfl⟩ := List.mem_map.mp hi
    exact List.mem_range.mpr (hlt slot hslot)
  simpa using (hnodup.subperm hsubset).length_le

namespace Consistent

theorem length_lost_le (h : u.Consistent max lost) : lost.length ≤ max.toNat := by
  have hlost := length_le_of_nodup h.nodup.of_append_left
    fun slot hslot => h.lt_mark slot (List.mem_append_left _ hslot)
  exact hlost.trans h.mark_le

/-- The new slot is the mark: the stack counts as empty. -/
theorem getNewDescriptorId_eq (h : u.Consistent max lost) :
    u.pool.getNewDescriptorId =
      if u.pool.textureIdCount = max then .error .assertFailed
      else .ok (u.pool.textureIdCount,
        { u.pool with textureIdCount := u.pool.textureIdCount + 1 }) := by
  simp only [getNewDescriptorId, h.count, ne_eq, not_true_eq_false, if_false, h.maxIds]

/-- A new slot is in range and nobody has it, and the mark moves past it. -/
theorem getNewDescriptorId (h : u.Consistent max lost) {p : DescriptorSlotPool}
    (hcall : u.pool.getNewDescriptorId = .ok (slot, p)) :
    slot.toNat < max.toNat ∧ slot ∉ u.live ∧ Consistent ⟨p, slot :: u.live⟩ max lost := by
  rw [h.getNewDescriptorId_eq] at hcall
  split at hcall
  · cases hcall
  · rename_i hne
    cases hcall
    have hmark := h.mark_le
    have hlt : u.pool.textureIdCount.toNat < max.toNat := by
      refine lt_of_le_of_ne hmark fun he => hne (BitVec.eq_of_toNat_eq he)
    have hnext : (u.pool.textureIdCount + 1).toNat = u.pool.textureIdCount.toNat + 1 :=
      BitVec.toNat_add_of_lt (lt_of_le_of_lt hlt max.isLt)
    have hnew : u.pool.textureIdCount ∉ lost ++ u.live := fun hm => lt_irrefl _ (h.lt_mark _ hm)
    refine ⟨hlt, fun hm => hnew (List.mem_append_right _ hm), h.count, h.maxIds, ?_, ?_, ?_, h.size,
      h.stack⟩
    · exact hnext.trans_le hlt
    · exact List.perm_middle.nodup_iff.mpr (List.nodup_cons.mpr ⟨hnew, h.nodup⟩)
    · intro slot hslot
      rw [hnext]
      rcases List.mem_cons.mp (List.perm_middle.mem_iff.mp hslot) with rfl | hslot
      · exact Nat.lt_succ_self _
      · exact Nat.lt_succ_of_lt (h.lt_mark slot hslot)

/-- The latest slot comes back, and the mark moves down to it. -/
theorem lowerMark (h : u.Consistent max lost) (hslot : slot ∈ u.live)
    (hlatest : u.pool.textureIdCount - 1 = slot) :
    Consistent ⟨{ u.pool with textureIdCount := u.pool.textureIdCount - 1 },
      u.live.erase slot⟩ max lost := by
  have hlt := h.lt_mark slot (List.mem_append_right _ hslot)
  have hone : (1 : BitVec 32).toNat = 1 := rfl
  have hmark : slot.toNat = u.pool.textureIdCount.toNat - 1 := by
    have hbound := u.pool.textureIdCount.isLt
    rw [← hlatest, BitVec.toNat_sub, hone]
    omega
  have hperm : (lost ++ u.live).Perm (slot :: (lost ++ u.live.erase slot)) :=
    ((List.perm_cons_erase hslot).append_left lost).trans List.perm_middle
  have hnodup := List.nodup_cons.mp (hperm.nodup_iff.mp h.nodup)
  have hle := h.mark_le
  refine ⟨h.count, h.maxIds, ?_, hnodup.2, ?_, h.size, h.stack⟩
  · rw [hlatest]
    change slot.toNat ≤ max.toNat
    omega
  · intro other hother
    have hlt' := h.lt_mark other (hperm.mem_iff.mpr (List.mem_cons_of_mem _ hother))
    have hne : other.toNat ≠ slot.toNat :=
      fun he => hnodup.1 (BitVec.eq_of_toNat_eq he ▸ hother)
    rw [hlatest]
    change other.toNat < slot.toNat
    omega

/-- Any other slot is written to the bottom of the stack and lost. -/
theorem lose (h : u.Consistent max lost) (hmax : max.toNat < 2 ^ 31) (hslot : slot ∈ u.live)
    (contents : ℕ → BitVec 32) :
    Consistent ⟨{ u.pool with
      freeIdStack := { u.pool.freeIdStack with contents := contents }
      freeIdStackSize := u.pool.freeIdStackSize + 1 }, u.live.erase slot⟩ max (slot :: lost) := by
  have hperm : (lost ++ u.live).Perm (slot :: (lost ++ u.live.erase slot)) :=
    ((List.perm_cons_erase hslot).append_left lost).trans List.perm_middle
  refine ⟨h.count, h.maxIds, h.mark_le, hperm.nodup_iff.mp h.nodup, ?_, ?_, h.stack⟩
  · exact fun other hother => h.lt_mark other (hperm.mem_iff.mpr hother)
  · have hsize := h.size
    have hlost := h.length_lost_le
    have hone : (1 : BitVec 32).toNat = 1 := rfl
    rw [BitVec.toNat_add_of_lt (by omega), hone, hsize]
    rfl

/-- The stack is never full, and a slot that is not the latest one goes to its bottom. -/
theorem unregisterResourceBySlot_of_ne (h : u.Consistent max lost)
    (hne : u.pool.textureIdCount - 1 ≠ slot) (memory : Option (ℕ → BitVec 32)) :
    u.pool.unregisterResourceBySlot slot memory = .ok { u.pool with
      freeIdStack := { u.pool.freeIdStack with
        contents := Function.update u.pool.freeIdStack.contents u.pool.freeIdStackCount.toNat slot }
      freeIdStackSize := u.pool.freeIdStackSize + 1 } := by
  have hsize : u.pool.freeIdStackSize ≠ u.pool.freeIdStackCount := by
    intro he
    have hzero := congrArg BitVec.toNat (he.trans h.count)
    rw [h.size] at hzero
    simp at hzero
  have hwrite : u.pool.freeIdStackCount.toNat < u.pool.freeIdStack.length := by
    rw [h.count, h.stack]
    decide
  rw [DescriptorSlotPool.unregisterResourceBySlot, if_neg hne, resizeFreeList, if_neg hsize,
    ok_bind, FreeIdStack.write, if_pos hwrite, ok_bind]

/-- Giving back a slot always works. -/
theorem unregisterResourceBySlot (h : u.Consistent max lost) (hmax : max.toNat < 2 ^ 31)
    (hslot : slot ∈ u.live) (memory : Option (ℕ → BitVec 32)) :
    ∃ p lost', u.pool.unregisterResourceBySlot slot memory = .ok p ∧
      Consistent ⟨p, u.live.erase slot⟩ max lost' := by
  by_cases hlatest : u.pool.textureIdCount - 1 = slot
  · exact ⟨_, lost, if_pos hlatest, h.lowerMark hslot hlatest⟩
  · exact ⟨_, slot :: lost, h.unregisterResourceBySlot_of_ne hlatest memory, h.lose hmax hslot _⟩

end Consistent

/-- A call registers a new slot, or gives one back. -/
theorem perform_cases {p p' : DescriptorSlotPool} {call : Call} {result : Option DescriptorSlot}
    (h : p.perform call = .ok (result, p')) :
    (∃ slot, result = some slot ∧ p.getNewDescriptorId = .ok (slot, p') ∧
      ∀ live, liveAfter live call result = slot :: live) ∨
    ∃ slot memory, call = .unregisterResourceBySlot slot memory ∧ result = none ∧
      p.unregisterResourceBySlot slot memory = .ok p' := by
  cases call with
  | registerTexture imageView =>
      obtain ⟨⟨slot, write, q⟩, hcall, hq⟩ := bind_eq_ok_iff.mp h
      cases hq
      unfold registerTexture at hcall
      split at hcall
      · obtain ⟨⟨newId, r⟩, hnew, hr⟩ := bind_eq_ok_iff.mp hcall
        cases hr
        exact .inl ⟨_, rfl, hnew, fun _ => rfl⟩
      · cases hcall
  | registerSampler sampler =>
      obtain ⟨⟨slot, write, q⟩, hcall, hq⟩ := bind_eq_ok_iff.mp h
      cases hq
      unfold registerSampler at hcall
      split at hcall
      · obtain ⟨⟨newId, r⟩, hnew, hr⟩ := bind_eq_ok_iff.mp hcall
        cases hr
        exact .inl ⟨_, rfl, hnew, fun _ => rfl⟩
      · cases hcall
  | unregisterResourceBySlot slot memory =>
      obtain ⟨q, hcall, hq⟩ := bind_eq_ok_iff.mp h
      cases hq
      exact .inr ⟨slot, memory, rfl, rfl, hcall⟩

theorem Consistent.step (h : u.Consistent max lost) (hmax : max.toNat < 2 ^ 31) {call : Call}
    (hstep : u.next call = some u') : ∃ lost', u'.Consistent max lost' := by
  rw [next, Option.ite_none_right_eq_some] at hstep
  obtain ⟨hallow, hstep⟩ := hstep
  cases hcall : u.pool.perform call with
  | error fault => simp [hcall] at hstep
  | ok value =>
      obtain ⟨result, p⟩ := value
      simp only [hcall, Option.some.injEq] at hstep
      subst hstep
      rcases perform_cases hcall with ⟨slot, -, hnew, hlive⟩ | ⟨slot, memory, rfl, rfl, hunregister⟩
      · rw [hlive]
        exact ⟨lost, (h.getNewDescriptorId hnew).2.2⟩
      · obtain ⟨q, lost', hq, hconsistent⟩ := h.unregisterResourceBySlot hmax hallow memory
        cases hq.symm.trans hunregister
        exact ⟨lost', hconsistent⟩

/-- What can stop an allowed call is an assertion. -/
theorem Consistent.perform_ne_outOfBounds (h : u.Consistent max lost) (hmax : max.toNat < 2 ^ 31)
    {call : Call} (hallow : u.Allows call) : u.pool.perform call ≠ .error .outOfBounds := by
  cases call with
  | registerTexture imageView =>
      simp only [perform, registerTexture, h.getNewDescriptorId_eq]
      split_ifs <;> simp
  | registerSampler sampler =>
      simp only [perform, registerSampler, h.getNewDescriptorId_eq]
      split_ifs <;> simp
  | unregisterResourceBySlot slot memory =>
      obtain ⟨p, lost', hp, -⟩ := h.unregisterResourceBySlot hmax hallow memory
      simp [perform, hp]

variable {p p' : DescriptorSlotPool} {descriptorType : Word} {descriptorSet : Handle}
  {memory : Option (ℕ → BitVec 32)}

theorem consistent_initializePool (hcount : p.freeIdStackCount = 0)
    (h : p.initializePool descriptorType max descriptorSet memory = .ok p') :
    Consistent ⟨p', []⟩ max [] := by
  unfold initializePool at h
  split at h
  · obtain ⟨stack, hstack, h⟩ := bind_eq_ok_iff.mp h
    cases h
    cases memory with
    | none => cases hstack
    | some contents =>
        cases hstack
        exact ⟨hcount, rfl, Nat.zero_le _, List.nodup_nil, by simp, rfl, rfl⟩
  · cases h

/-- After any calls, a slot that is handed out is below the size of the pool and not in use, and
no call accesses the stack outside its allocation. -/
theorem reaches_descriptorSlots (hcount : p.freeIdStackCount = 0) (hmax : max.toNat < 2 ^ 31)
    (hinit : p.initializePool descriptorType max descriptorSet memory = .ok p')
    (h : Machine.Reaches next ⟨p', []⟩ u) :
    (∀ call slot q, u.pool.perform call = .ok (some slot, q) →
      slot.toNat < max.toNat ∧ slot ∉ u.live) ∧
    ∀ call, u.Allows call → u.pool.perform call ≠ .error .outOfBounds := by
  obtain ⟨lost, hconsistent⟩ : ∃ lost, u.Consistent max lost := by
    induction h with
    | start => exact ⟨[], consistent_initializePool hcount hinit⟩
    | step _ _ htaken ih =>
        obtain ⟨lost, hconsistent⟩ := ih
        exact hconsistent.step hmax htaken
  refine ⟨?_, fun call hallow => hconsistent.perform_ne_outOfBounds hmax hallow⟩
  intro call slot q hcall
  rcases perform_cases hcall with ⟨slot', hslot, hnew, -⟩ | ⟨_, _, _, hnone, _⟩
  · cases hslot
    have hspec := hconsistent.getNewDescriptorId hnew
    exact ⟨hspec.1, hspec.2.1⟩
  · cases hnone

/-- A pool of four slots, by its mark, the size of its stack and what the stack holds. -/
def poolOfFour (mark stackSize : BitVec 32) (contents : ℕ → BitVec 32) : DescriptorSlotPool :=
  ⟨⟨0, descriptorTypeSampler⟩, 4, mark, stackSize, 0, ⟨64, contents⟩⟩

/-- Slot 0 is lost when it comes back before slot 1. -/
theorem reaches_descriptorSlots_of_lost :
    ∃ u : Use, u.live = [1] ∧
      (∃ q, u.pool.perform (.registerSampler 7) = .ok (some 2, q)) ∧
      (2 : BitVec 32).toNat < (4 : BitVec 32).toNat ∧ 2 ∉ u.live := by
  have hinit : initializePool ⟨⟨0, 0⟩, 0, 0, 0, 0, ⟨0, fun _ => 0⟩⟩ descriptorTypeSampler 4 0
      (some fun _ => 0) = .ok (poolOfFour 0 64 fun _ => 0) := rfl
  have hfirst : next ⟨poolOfFour 0 64 fun _ => 0, []⟩ (.registerSampler 5) =
      some ⟨poolOfFour 1 64 fun _ => 0, [0]⟩ := rfl
  have hsecond : next ⟨poolOfFour 1 64 fun _ => 0, [0]⟩ (.registerSampler 6) =
      some ⟨poolOfFour 2 64 fun _ => 0, [1, 0]⟩ := rfl
  have hback : next ⟨poolOfFour 2 64 fun _ => 0, [1, 0]⟩ (.unregisterResourceBySlot 0 none) =
      some ⟨poolOfFour 2 65 (Function.update (fun _ => 0) 0 0), [1]⟩ := rfl
  have hthird : (poolOfFour 2 65 (Function.update (fun _ => 0) 0 0)).perform (.registerSampler 7) =
      .ok (some 2, poolOfFour 3 65 (Function.update (fun _ => 0) 0 0)) := rfl
  have hreach : Machine.Reaches next ⟨poolOfFour 0 64 fun _ => 0, []⟩
      ⟨poolOfFour 2 65 (Function.update (fun _ => 0) 0 0), [1]⟩ :=
    .step (.step (.step .start trivial hfirst) trivial hsecond) trivial hback
  have hslots := reaches_descriptorSlots rfl (by decide) hinit hreach
  exact ⟨_, rfl, ⟨_, hthird⟩, hslots.1 _ 2 _ hthird⟩

end Use

end DDFramework.DescriptorSlotPool
