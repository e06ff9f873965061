import DDFramework.Verification.DescriptorPool.Slots

/-! # Leaks of a `DescriptorPool`

The pool runs out of slots early exactly when a slot other than the latest one was given back. -/

namespace DDFramework.DescriptorSlotPool

open Vulkan

/-- The calls that register a resource. -/
def Call.IsRegister : Call → Prop
  | .registerTexture _ | .registerSampler _ => True
  | .unregisterResourceBySlot _ _ => False

/-- The calls that register a resource of the kind that the pool is for. -/
def Registers (p : DescriptorSlotPool) : Call → Prop
  | .registerTexture _ => p.poolType = descriptorTypeSampledImage
  | .registerSampler _ => p.poolType = descriptorTypeSampler
  | .unregisterResourceBySlot _ _ => False

theorem Registers.isRegister {p : DescriptorSlotPool} {call : Call} (h : p.Registers call) :
    call.IsRegister := by
  cases call with
  | registerTexture => trivial
  | registerSampler => trivial
  | unregisterResourceBySlot => exact h

/-- What is left of a registration is the choice of the slot. -/
theorem perform_of_registers {p : DescriptorSlotPool} {call : Call} (h : p.Registers call) :
    p.perform call = p.getNewDescriptorId >>= fun r => .ok (some r.1, r.2) := by
  cases call with
  | registerTexture imageView =>
      have htype : p.poolType = descriptorTypeSampledImage := h
      rw [perform, registerTexture, if_pos htype]
      cases p.getNewDescriptorId <;> rfl
  | registerSampler sampler =>
      have htype : p.poolType = descriptorTypeSampler := h
      rw [perform, registerSampler, if_pos htype]
      cases p.getNewDescriptorId <;> rfl
  | unregisterResourceBySlot => exact h.elim

namespace Use

/-- The slot that is given back is the latest one. -/
def GivesBackLatest (u : Use) : Call → Prop
  | .registerTexture _ | .registerSampler _ => True
  | .unregisterResourceBySlot slot _ => slot = u.pool.textureIdCount - 1

/-- While not all slots are in use, a resource can be registered. -/
def RegistersWhileFree (max : BitVec 32) (u : Use) : Prop :=
  u.live.length < max.toNat → ∀ call, u.pool.Registers call →
    ∃ slot q, u.pool.perform call = .ok (some slot, q)

variable {u u' : Use} {max : BitVec 32} {lost : List DescriptorSlot} {call : Call}
  {calls : List Call}

theorem next_of_registers {slot : DescriptorSlot} {p : DescriptorSlotPool}
    (hcall : u.pool.Registers call) (hnew : u.pool.getNewDescriptorId = .ok (slot, p)) :
    next u call = some ⟨p, slot :: u.live⟩ := by
  have hperform := perform_of_registers hcall
  rw [hnew, ok_bind] at hperform
  cases call with
  | registerTexture => simp [next, Allows, hperform, liveAfter]
  | registerSampler => simp [next, Allows, hperform, liveAfter]
  | unregisterResourceBySlot => exact hcall.elim

/-- The slots below the mark are those that are in use and the lost ones. -/
structure Accounted (u : Use) (max : BitVec 32) (lost : List DescriptorSlot) : Prop
    extends u.Consistent max lost where
  length : (lost ++ u.live).length = u.pool.textureIdCount.toNat
  poolType : u.pool.poolType = descriptorTypeSampledImage ∨
    u.pool.poolType = descriptorTypeSampler

namespace Accounted

/-! ### Registrations -/

theorem perform_registers (h : u.Accounted max lost) (hcall : u.pool.Registers call) :
    u.pool.perform call =
      if u.pool.textureIdCount = max then .error .assertFailed
      else .ok (some u.pool.textureIdCount,
        { u.pool with textureIdCount := u.pool.textureIdCount + 1 }) := by
  rw [perform_of_registers hcall, h.getNewDescriptorId_eq]
  split <;> rfl

theorem exists_registers (h : u.Accounted max lost) : ∃ call, u.pool.Registers call := by
  rcases h.poolType with htype | htype
  · exact ⟨.registerTexture 0, htype⟩
  · exact ⟨.registerSampler 0, htype⟩

/-- The registrations fail early exactly when slots are lost. -/
theorem registersWhileFree_iff (h : u.Accounted max lost) :
    u.RegistersWhileFree max ↔ (u.pool.textureIdCount = max → lost = []) := by
  have hlength := h.length
  rw [List.length_append] at hlength
  constructor
  · intro hregisters hfull
    by_contra hlost
    have hpos := List.length_pos_iff.mpr hlost
    rw [hfull] at hlength
    obtain ⟨call, hcall⟩ := h.exists_registers
    obtain ⟨slot, q, hok⟩ := hregisters (by omega) call hcall
    rw [h.perform_registers hcall, if_pos hfull] at hok
    cases hok
  · intro hlost hlive call hcall
    have hroom : u.pool.textureIdCount ≠ max := by
      intro hfull
      rw [hlost hfull, hfull, List.length_nil] at hlength
      omega
    rw [h.perform_registers hcall, if_neg hroom]
    exact ⟨_, _, rfl⟩

theorem register {slot : DescriptorSlot} {p : DescriptorSlotPool} (h : u.Accounted max lost)
    (hcall : u.pool.getNewDescriptorId = .ok (slot, p)) :
    Accounted ⟨p, slot :: u.live⟩ max lost := by
  have hconsistent := (h.getNewDescriptorId hcall).2.2
  have hroom := (h.getNewDescriptorId hcall).1
  rw [h.getNewDescriptorId_eq] at hcall
  split at hcall
  · cases hcall
  · cases hcall
    refine ⟨hconsistent, ?_, h.poolType⟩
    have hnext : (u.pool.textureIdCount + 1).toNat = u.pool.textureIdCount.toNat + 1 :=
      BitVec.toNat_add_of_lt (lt_of_le_of_lt hroom max.isLt)
    have hlength := h.length
    rw [hnext, ← hlength]
    simp only [List.length_append, List.length_cons]
    omega

/-- The pool can be filled up, and what is lost stays lost. -/
theorem exists_full (h : u.Accounted max lost) : ∃ more u', (∀ c ∈ more, c.IsRegister) ∧
    Machine.run next u more = some u' ∧ u'.Accounted max lost ∧
      u'.pool.textureIdCount = max := by
  obtain ⟨room, hroom⟩ := Nat.exists_eq_add_of_le h.mark_le
  induction room generalizing u with
  | zero => exact ⟨[], u, by simp, rfl, h, (BitVec.eq_of_toNat_eq hroom).symm⟩
  | succ room ih =>
      obtain ⟨call, hcall⟩ := h.exists_registers
      have hne : u.pool.textureIdCount ≠ max := by
        intro hfull
        rw [hfull] at hroom
        omega
      have hnew := h.getNewDescriptorId_eq
      rw [if_neg hne] at hnew
      have hmark : (u.pool.textureIdCount + 1).toNat = u.pool.textureIdCount.toNat + 1 :=
        BitVec.toNat_add_of_lt (lt_of_le_of_lt (by change _ + 1 ≤ _; omega) max.isLt)
      obtain ⟨more, u', hmore, hrun, hu', hfull⟩ := ih (h.register hnew) (by
        change max.toNat = (u.pool.textureIdCount + 1).toNat + room
        omega)
      refine ⟨call :: more, u', List.forall_mem_cons.mpr ⟨hcall.isRegister, hmore⟩, ?_, hu', hfull⟩
      rw [Machine.run_cons, next_of_registers hcall hnew]
      exact hrun

/-! ### Slots that are given back -/

theorem lowerMark {slot : DescriptorSlot} (h : u.Accounted max lost) (hslot : slot ∈ u.live)
    (hlatest : u.pool.textureIdCount - 1 = slot) :
    Accounted ⟨{ u.pool with textureIdCount := u.pool.textureIdCount - 1 },
      u.live.erase slot⟩ max lost := by
  refine ⟨h.toConsistent.lowerMark hslot hlatest, ?_, h.poolType⟩
  have hlength := h.length
  have hpos := List.length_pos_of_mem hslot
  rw [List.length_append] at hlength ⊢
  rw [List.length_erase_of_mem hslot]
  change _ = (u.pool.textureIdCount - 1).toNat
  have hbound := u.pool.textureIdCount.isLt
  rw [BitVec.toNat_sub, show (1 : BitVec 32).toNat = 1 from rfl]
  omega

theorem lose {slot : DescriptorSlot} (h : u.Accounted max lost) (hmax : max.toNat < 2 ^ 31)
    (hslot : slot ∈ u.live) (contents : ℕ → BitVec 32) :
    Accounted ⟨{ u.pool with
      freeIdStack := { u.pool.freeIdStack with contents := contents }
      freeIdStackSize := u.pool.freeIdStackSize + 1 }, u.live.erase slot⟩ max (slot :: lost) := by
  refine ⟨h.toConsistent.lose hmax hslot contents, ?_, h.poolType⟩
  have hlength := h.length
  have hpos := List.length_pos_of_mem hslot
  rw [List.length_append] at hlength ⊢
  rw [List.length_erase_of_mem hslot, List.length_cons]
  change _ = u.pool.textureIdCount.toNat
  omega

/-- One call loses a slot exactly if it gives back another slot than the latest one. -/
theorem step (h : u.Accounted max lost) (hmax : max.toNat < 2 ^ 31)
    (hstep : next u call = some u') :
    ∃ lost', u'.Accounted max lost' ∧ (lost' = [] ↔ lost = [] ∧ u.GivesBackLatest call) := by
  rw [next, Option.ite_none_right_eq_some] at hstep
  obtain ⟨hallow, hstep⟩ := hstep
  cases hcall : u.pool.perform call with
  | error fault => simp [hcall] at hstep
  | ok value =>
      obtain ⟨result, p⟩ := value
      simp only [hcall, Option.some.injEq] at hstep
      subst hstep
      rcases perform_cases hcall with ⟨slot, -, hnew, hlive⟩ | ⟨slot, memory, rfl, rfl, hback⟩
      · rw [hlive]
        have hlatest : u.GivesBackLatest call := by
          cases call with
          | registerTexture => trivial
          | registerSampler => trivial
          | unregisterResourceBySlot slot' memory =>
              have hnil := hlive []
              simp [liveAfter] at hnil
        exact ⟨lost, h.register hnew, by simp [hlatest]⟩
      · by_cases hlatest : u.pool.textureIdCount - 1 = slot
        · rw [DescriptorSlotPool.unregisterResourceBySlot, if_pos hlatest] at hback
          cases hback
          have hgives : u.GivesBackLatest (.unregisterResourceBySlot slot memory) := hlatest.symm
          exact ⟨lost, h.lowerMark hallow hlatest, by simp [hgives]⟩
        · rw [h.unregisterResourceBySlot_of_ne hlatest] at hback
          cases hback
          have hgives : ¬ u.GivesBackLatest (.unregisterResourceBySlot slot memory) :=
            fun hslot => hlatest hslot.symm
          exact ⟨slot :: lost, h.lose hmax hallow _, by simp [hgives]⟩

end Accounted

/-! ### Runs -/

variable {p p' : DescriptorSlotPool} {descriptorType : Word} {descriptorSet : Handle}
  {memory : Option (ℕ → BitVec 32)} {start : Use}

theorem accounted_initializePool (hcount : p.freeIdStackCount = 0)
    (h : p.initializePool descriptorType max descriptorSet memory = .ok p') :
    Accounted ⟨p', []⟩ max [] := by
  have hconsistent := consistent_initializePool hcount h
  unfold initializePool at h
  split at h
  next htype =>
    obtain ⟨stack, -, h⟩ := bind_eq_ok_iff.mp h
    cases h
    exact ⟨hconsistent, rfl, htype⟩
  next => cases h

/-- Nothing is lost in a run exactly when only latest slots are given back. -/
theorem Accounted.run (h : start.Accounted max []) (hmax : max.toNat < 2 ^ 31)
    (hrun : Machine.run next start calls = some u) :
    ∃ lost, u.Accounted max lost ∧
      (lost = [] ↔ Machine.EveryStep next GivesBackLatest start calls) := by
  induction calls using List.reverseRecOn generalizing u with
  | nil =>
      cases hrun
      exact ⟨[], h, by simp [Machine.everyStep_nil]⟩
  | append_singleton calls call ih =>
      obtain ⟨t, ht, htaken⟩ := Machine.run_concat_eq_some.mp hrun
      obtain ⟨lost, haccounted, hlost⟩ := ih ht
      obtain ⟨lost', haccounted', hlost'⟩ := haccounted.step hmax htaken
      refine ⟨lost', haccounted', ?_⟩
      rw [hlost', hlost, Machine.everyStep_concat ht htaken]

theorem givesBackLatest_of_isRegister (u : Use) (h : call.IsRegister) : u.GivesBackLatest call := by
  cases call with
  | registerTexture => trivial
  | registerSampler => trivial
  | unregisterResourceBySlot => exact h.elim

theorem everyStep_of_isRegister (h : ∀ c ∈ calls, c.IsRegister) (u : Use) :
    Machine.EveryStep next GivesBackLatest u calls := by
  intro before c t t' hbefore _ _
  exact givesBackLatest_of_isRegister t (h c (hbefore.subset (by simp)))

/-- After a run, and after any registrations that follow it, the registrations succeed while
slots are free exactly when the run gave back latest slots only. -/
theorem reaches_registers_iff (hcount : p.freeIdStackCount = 0) (hmax : max.toNat < 2 ^ 31)
    (hinit : p.initializePool descriptorType max descriptorSet memory = .ok p')
    (hrun : Machine.run next ⟨p', []⟩ calls = some u) :
    (∀ more u', (∀ c ∈ more, c.IsRegister) → Machine.run next u more = some u' →
      u'.RegistersWhileFree max) ↔ Machine.EveryStep next GivesBackLatest ⟨p', []⟩ calls := by
  obtain ⟨lost, haccounted, hlost⟩ := (accounted_initializePool hcount hinit).run hmax hrun
  rw [← hlost]
  constructor
  · intro h
    obtain ⟨more, u', hmore, hrun', hu', hfull⟩ := haccounted.exists_full
    exact hu'.registersWhileFree_iff.mp (h more u' hmore hrun') hfull
  · rintro rfl more u' hmore hrun'
    obtain ⟨lost', hu', hlost'⟩ := haccounted.run hmax hrun'
    exact hu'.registersWhileFree_iff.mpr fun _ => hlost'.mpr (everyStep_of_isRegister hmore u)

/-- A pool of two slots right after `Initialize`. -/
def poolOfTwo : DescriptorSlotPool :=
  ⟨⟨0, descriptorTypeSampler⟩, 2, 0, 64, 0, ⟨64, fun _ => 0⟩⟩

theorem initializePool_poolOfTwo : initializePool ⟨⟨0, 0⟩, 0, 0, 0, 0, ⟨0, fun _ => 0⟩⟩
    descriptorTypeSampler 2 0 (some fun _ => 0) = .ok poolOfTwo := rfl

/-- The slots of two registrations come back in the opposite order. -/
theorem reaches_registers_iff_poolOfTwo :
    ∃ u, Machine.run next ⟨poolOfTwo, []⟩ [.registerSampler 5, .registerSampler 6,
      .unregisterResourceBySlot 1 none, .unregisterResourceBySlot 0 none] = some u ∧
      u.RegistersWhileFree 2 := by
  let calls : List Call := [.registerSampler 5, .registerSampler 6,
    .unregisterResourceBySlot 1 none, .unregisterResourceBySlot 0 none]
  obtain ⟨u, hrun⟩ : ∃ u, Machine.run next ⟨poolOfTwo, []⟩ calls = some u := ⟨_, rfl⟩
  refine ⟨u, hrun, ?_⟩
  refine (reaches_registers_iff rfl (by decide) initializePool_poolOfTwo hrun).mpr ?_
    [] u (by simp) rfl
  have htwo : Machine.EveryStep next GivesBackLatest ⟨poolOfTwo, []⟩
      [.registerSampler 5, .registerSampler 6] :=
    everyStep_of_isRegister (by simp [Call.IsRegister]) _
  have hthree : Machine.EveryStep next GivesBackLatest ⟨poolOfTwo, []⟩
      ([.registerSampler 5, .registerSampler 6] ++ [.unregisterResourceBySlot 1 none]) := by
    refine (Machine.everyStep_concat rfl rfl).mpr ⟨htwo, ?_⟩
    exact rfl
  have hfour : Machine.EveryStep next GivesBackLatest ⟨poolOfTwo, []⟩
      ([.registerSampler 5, .registerSampler 6, .unregisterResourceBySlot 1 none] ++
        [.unregisterResourceBySlot 0 none]) := by
    refine (Machine.everyStep_concat rfl rfl).mpr ⟨hthree, ?_⟩
    exact rfl
  exact hfour

/-- Slot 0 comes back while slot 1 is the latest one, and the pool has no slot left. -/
theorem freed_slot_is_not_registered :
    ∃ u, Machine.run next ⟨poolOfTwo, []⟩ [.registerSampler 5, .registerSampler 6,
      .unregisterResourceBySlot 0 none] = some u ∧ u.live = [1] ∧
      u.pool.Registers (.registerSampler 7) ∧
      u.pool.perform (.registerSampler 7) = .error .assertFailed :=
  ⟨_, rfl, rfl, rfl, rfl⟩

end Use

end DDFramework.DescriptorSlotPool
