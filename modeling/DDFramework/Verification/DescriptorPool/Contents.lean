import DDFramework.Verification.DescriptorPool.Slots

/-! # What the descriptors hold

Any number of pools, each with a descriptor set of its own, and the descriptors that their calls
write. A slot in use holds what was registered for it. -/

namespace DDFramework.DescriptorSlotPool

open Vulkan

/-- The place of the descriptor that is written: set, binding and array element. -/
def WriteDescriptorSet.place (w : WriteDescriptorSet) : Handle × Word × DescriptorSlot :=
  (w.dstSet, w.dstBinding, w.dstArrayElement)

/-- A shader that reads the descriptor finds the image view or the sampler. -/
structure WriteDescriptorSet.Shows (w : WriteDescriptorSet) (poolType : Word) (handle : Handle) :
    Prop where
  descriptorType : w.descriptorType = poolType
  image : poolType = descriptorTypeSampledImage →
    w.imageView = handle ∧ w.imageLayout = imageLayoutGeneral
  sampler : poolType = descriptorTypeSampler → w.sampler = handle

/-- The pools with their clients, and the descriptors of all sets. -/
structure Tables (ι : Type*) where
  pool : ι → DescriptorSlotPool
  /-- The slots in use, each with the image view or the sampler registered for it. -/
  live : ι → List (DescriptorSlot × Handle)
  descriptors : Handle × Word × DescriptorSlot → Option WriteDescriptorSet

namespace Tables

variable {ι : Type*} [DecidableEq ι]

def setPool (t : Tables ι) (i : ι) (p : DescriptorSlotPool)
    (live : List (DescriptorSlot × Handle)) : Tables ι :=
  { t with pool := Function.update t.pool i p, live := Function.update t.live i live }

/-- `vkUpdateDescriptorSets`. -/
def write (t : Tables ι) (w : WriteDescriptorSet) : Tables ι :=
  { t with descriptors := Function.update t.descriptors w.place (some w) }

/-- The end of a call that registers a resource. -/
def registered (t : Tables ι) (i : ι) (handle : Handle) :
    Except Fault (DescriptorSlot × WriteDescriptorSet × DescriptorSlotPool) → Option (Tables ι)
  | .error _ => none
  | .ok (slot, w, p) => some ((t.setPool i p ((slot, handle) :: t.live i)).write w)

/-- A call on the pool `i`. Clients give back only slots that they have. -/
def next (t : Tables ι) : ι × Call → Option (Tables ι)
  | (i, .registerTexture imageView) =>
      t.registered i imageView ((t.pool i).registerTexture imageView)
  | (i, .registerSampler sampler) => t.registered i sampler ((t.pool i).registerSampler sampler)
  | (i, .unregisterResourceBySlot slot memory) =>
      if slot ∈ (t.live i).map Prod.fst then
        match (t.pool i).unregisterResourceBySlot slot memory with
        | .error _ => none
        | .ok p => some (t.setPool i p ((t.live i).filter fun entry => entry.1 != slot))
      else none

variable {t t' : Tables ι} {max : ι → BitVec 32} {i : ι} {slot : DescriptorSlot} {handle : Handle}
  {p : DescriptorSlotPool} {w : WriteDescriptorSet}

/-- The pool as its clients see it. -/
def use (t : Tables ι) (i : ι) : Use := ⟨t.pool i, (t.live i).map Prod.fst⟩

/-- The slots in use hold what was registered for them. -/
def Filled (t : Tables ι) (i : ι) : Prop :=
  ∀ slot handle, (slot, handle) ∈ t.live i →
    ∃ w, t.descriptors ((t.pool i).descriptorSet, 0, slot) = some w ∧
      w.Shows (t.pool i).poolType handle

structure Sound (max : ι → BitVec 32) (t : Tables ι) : Prop where
  consistent : ∀ i, ∃ lost, (t.use i).Consistent (max i) lost
  sets : Function.Injective fun i => (t.pool i).descriptorSet
  filled : ∀ i, t.Filled i

/-! ### What a call keeps -/

theorem getNewDescriptorId_keeps {p p' : DescriptorSlotPool}
    (h : p.getNewDescriptorId = .ok (slot, p')) : p'.toDescriptorPool = p.toDescriptorPool := by
  unfold getNewDescriptorId at h
  split at h
  · obtain ⟨s, -, h⟩ := bind_eq_ok_iff.mp h
    cases h
    rfl
  · split at h
    · cases h
    · cases h
      rfl

theorem registerTexture_eq_ok {imageView : Handle} {p p' : DescriptorSlotPool}
    (h : p.registerTexture imageView = .ok (slot, w, p')) :
    p.getNewDescriptorId = .ok (slot, p') ∧ w.place = (p.descriptorSet, 0, slot) ∧
      w.Shows p.poolType imageView := by
  unfold registerTexture at h
  split at h
  next htype =>
    obtain ⟨⟨newId, q⟩, hnew, h⟩ := bind_eq_ok_iff.mp h
    cases h
    have hset := congrArg DescriptorPool.descriptorSet (getNewDescriptorId_keeps hnew)
    refine ⟨hnew, congrArg (·, 0, slot) hset, htype.symm, fun _ => ⟨rfl, rfl⟩, ?_⟩
    intro hsampler
    exact absurd (htype.symm.trans hsampler) (by decide)
  next => cases h

theorem registerSampler_eq_ok {sampler : Handle} {p p' : DescriptorSlotPool}
    (h : p.registerSampler sampler = .ok (slot, w, p')) :
    p.getNewDescriptorId = .ok (slot, p') ∧ w.place = (p.descriptorSet, 0, slot) ∧
      w.Shows p.poolType sampler := by
  unfold registerSampler at h
  split at h
  next htype =>
    obtain ⟨⟨newId, q⟩, hnew, h⟩ := bind_eq_ok_iff.mp h
    cases h
    have hset := congrArg DescriptorPool.descriptorSet (getNewDescriptorId_keeps hnew)
    refine ⟨hnew, congrArg (·, 0, slot) hset, htype.symm, ?_, fun _ => rfl⟩
    intro himage
    exact absurd (htype.symm.trans himage) (by decide)
  next => cases h

theorem unregisterResourceBySlot_keeps {p p' : DescriptorSlotPool} {memory : Option (ℕ → BitVec 32)}
    (h : p.unregisterResourceBySlot slot memory = .ok p') :
    p'.toDescriptorPool = p.toDescriptorPool := by
  unfold unregisterResourceBySlot at h
  split at h
  · cases h
    rfl
  · obtain ⟨q, hq, h⟩ := bind_eq_ok_iff.mp h
    obtain ⟨stack, -, h⟩ := bind_eq_ok_iff.mp h
    cases h
    unfold resizeFreeList at hq
    split at hq
    · obtain ⟨new, -, hq⟩ := bind_eq_ok_iff.mp hq
      obtain ⟨copied, -, hq⟩ := bind_eq_ok_iff.mp hq
      cases hq
      rfl
    · cases hq
      rfl

/-! ### Calls -/

/-- Another pool writes to another set. -/
theorem Filled.registered_of_ne {j : ι} {live : List (DescriptorSlot × Handle)} (h : t.Filled j)
    (hj : j ≠ i) (hset : w.dstSet ≠ (t.pool j).descriptorSet) :
    ((t.setPool i p live).write w).Filled j := by
  intro slot handle hmem
  simp only [write, setPool, Function.update_of_ne hj] at hmem ⊢
  obtain ⟨v, hv, hshows⟩ := h slot handle hmem
  refine ⟨v, ?_, hshows⟩
  rw [Function.update_of_ne ?_]
  · exact hv
  · exact fun heq => hset (congrArg Prod.fst heq).symm

/-- The slots in use before keep their descriptors, as the new slot is none of them. -/
theorem Filled.registered (h : t.Filled i)
    (hpool : p.toDescriptorPool = (t.pool i).toDescriptorPool)
    (hfresh : slot ∉ (t.live i).map Prod.fst)
    (hplace : w.place = ((t.pool i).descriptorSet, 0, slot))
    (hshows : w.Shows (t.pool i).poolType handle) :
    ((t.setPool i p ((slot, handle) :: t.live i)).write w).Filled i := by
  intro other held hmem
  simp only [write, setPool, Function.update_self, hpool, hplace] at hmem ⊢
  rcases List.mem_cons.mp hmem with hnew | hold
  · cases hnew
    exact ⟨w, Function.update_self .., hshows⟩
  · obtain ⟨v, hv, hheld⟩ := h other held hold
    refine ⟨v, ?_, hheld⟩
    rw [Function.update_of_ne ?_]
    · exact hv
    · intro heq
      have hslot : other = slot := congrArg (fun place => place.2.2) heq
      exact hfresh (hslot ▸ List.mem_map_of_mem hold)

theorem sets_setPool (live : List (DescriptorSlot × Handle))
    (h : Function.Injective fun i => (t.pool i).descriptorSet)
    (hpool : p.toDescriptorPool = (t.pool i).toDescriptorPool) :
    Function.Injective fun j => ((t.setPool i p live).pool j).descriptorSet := by
  have hsame : (fun j => ((t.setPool i p live).pool j).descriptorSet) =
      fun j => (t.pool j).descriptorSet := by
    funext j
    by_cases hj : j = i
    · simp only [setPool, hj, Function.update_self, hpool]
    · simp only [setPool, Function.update_of_ne hj]
  rw [hsame]
  exact h

theorem Sound.registered (h : Sound max t)
    (hnew : (t.pool i).getNewDescriptorId = .ok (slot, p))
    (hplace : w.place = ((t.pool i).descriptorSet, 0, slot))
    (hshows : w.Shows (t.pool i).poolType handle) :
    Sound max ((t.setPool i p ((slot, handle) :: t.live i)).write w) := by
  have hpool := getNewDescriptorId_keeps hnew
  obtain ⟨lost, hconsistent⟩ := h.consistent i
  have hslot := hconsistent.getNewDescriptorId hnew
  refine ⟨fun j => ?_, sets_setPool ((slot, handle) :: t.live i) h.sets hpool, fun j => ?_⟩
  · by_cases hj : j = i
    · refine ⟨lost, ?_⟩
      rw [hj]
      simp only [use, write, setPool, Function.update_self]
      exact hslot.2.2
    · simp only [use, write, setPool, Function.update_of_ne hj]
      exact h.consistent j
  · by_cases hj : j = i
    · rw [hj]
      exact (h.filled i).registered hpool hslot.2.1 hplace hshows
    · refine (h.filled j).registered_of_ne hj ?_
      intro hset
      have hown : w.dstSet = (t.pool i).descriptorSet := congrArg Prod.fst hplace
      exact hj (h.sets (hset.symm.trans hown))

theorem map_fst_filter {live : List (DescriptorSlot × Handle)} (h : (live.map Prod.fst).Nodup) :
    (live.filter fun entry => entry.1 != slot).map Prod.fst = (live.map Prod.fst).erase slot := by
  rw [h.erase_eq_filter, List.filter_map]
  rfl

theorem Sound.unregistered {memory : Option (ℕ → BitVec 32)} (h : Sound max t)
    (hmax : (max i).toNat < 2 ^ 31) (hslot : slot ∈ (t.live i).map Prod.fst)
    (hcall : (t.pool i).unregisterResourceBySlot slot memory = .ok p) :
    Sound max (t.setPool i p ((t.live i).filter fun entry => entry.1 != slot)) := by
  have hpool := unregisterResourceBySlot_keeps hcall
  obtain ⟨lost, hconsistent⟩ := h.consistent i
  obtain ⟨q, lost', hq, hafter⟩ := hconsistent.unregisterResourceBySlot hmax hslot memory
  cases hq.symm.trans hcall
  have hnodup : ((t.live i).map Prod.fst).Nodup := hconsistent.nodup.of_append_right
  refine ⟨fun j => ?_, sets_setPool _ h.sets hpool, fun j => ?_⟩
  · by_cases hj : j = i
    · refine ⟨lost', ?_⟩
      rw [hj]
      simp only [use, setPool, Function.update_self, map_fst_filter hnodup]
      exact hafter
    · simp only [use, setPool, Function.update_of_ne hj]
      exact h.consistent j
  · intro other held hmem
    by_cases hj : j = i
    · rw [hj] at hmem ⊢
      simp only [setPool, Function.update_self, hpool] at hmem ⊢
      exact h.filled i other held (List.mem_of_mem_filter hmem)
    · simp only [setPool, Function.update_of_ne hj] at hmem ⊢
      exact h.filled j other held hmem

theorem Sound.next (h : Sound max t) (hmax : ∀ i, (max i).toNat < 2 ^ 31) {a : ι × Call}
    (hstep : t.next a = some t') : Sound max t' := by
  obtain ⟨i, call⟩ := a
  cases call with
  | registerTexture imageView =>
      cases hcall : (t.pool i).registerTexture imageView with
      | error fault => simp only [Tables.next, hcall, Tables.registered, reduceCtorEq] at hstep
      | ok result =>
          simp only [Tables.next, hcall, Tables.registered, Option.some.injEq] at hstep
          obtain ⟨hnew, hplace, hshows⟩ := registerTexture_eq_ok hcall
          exact hstep ▸ h.registered hnew hplace hshows
  | registerSampler sampler =>
      cases hcall : (t.pool i).registerSampler sampler with
      | error fault => simp only [Tables.next, hcall, Tables.registered, reduceCtorEq] at hstep
      | ok result =>
          simp only [Tables.next, hcall, Tables.registered, Option.some.injEq] at hstep
          obtain ⟨hnew, hplace, hshows⟩ := registerSampler_eq_ok hcall
          exact hstep ▸ h.registered hnew hplace hshows
  | unregisterResourceBySlot slot memory =>
      simp only [Tables.next, Option.ite_none_right_eq_some] at hstep
      obtain ⟨hslot, hstep⟩ := hstep
      cases hcall : (t.pool i).unregisterResourceBySlot slot memory with
      | error fault => simp only [hcall, reduceCtorEq] at hstep
      | ok p =>
          simp only [hcall, Option.some.injEq] at hstep
          exact hstep ▸ h.unregistered (hmax i) hslot hcall

/-! ### Runs -/

/-- All pools have just been initialized, each for its own number of slots. -/
structure Initialized (max : ι → BitVec 32) (t : Tables ι) : Prop where
  pool : ∀ i, ∃ p descriptorType descriptorSet memory, p.freeIdStackCount = 0 ∧
    initializePool p descriptorType (max i) descriptorSet memory = .ok (t.pool i)
  sets : Function.Injective fun i => (t.pool i).descriptorSet
  live : ∀ i, t.live i = []

omit [DecidableEq ι] in
theorem Initialized.sound (h : Initialized max t) : Sound max t where
  consistent i := by
    obtain ⟨p, descriptorType, descriptorSet, memory, hcount, hinit⟩ := h.pool i
    refine ⟨[], ?_⟩
    rw [use, h.live]
    exact Use.consistent_initializePool hcount hinit
  sets := h.sets
  filled i := by
    intro slot handle hmem
    rw [h.live] at hmem
    cases hmem

/-- After any calls on any pools, the descriptor of every slot in use shows the image view or the
sampler that was registered for it. -/
theorem reaches_filled (hinit : Initialized max t) (hmax : ∀ i, (max i).toNat < 2 ^ 31)
    (h : Machine.Reaches next t t') (i : ι) : t'.Filled i := by
  have hsound : Sound max t' := h.invariant hinit.sound fun hs _ htaken => hs.next hmax htaken
  exact hsound.filled i

/-- A pool of 32 textures and a pool of 16 samplers. -/
def twoPools : Tables Bool where
  pool sampler :=
    ⟨⟨if sampler then 11 else 10, if sampler then descriptorTypeSampler else
      descriptorTypeSampledImage⟩, if sampler then 16 else 32, 0, 64, 0, ⟨64, fun _ => 0⟩⟩
  live _ := []
  descriptors _ := none

/-- The slot of the first texture is given back. -/
def twoPoolsCalls : List (Bool × Call) :=
  [(false, .registerTexture 5), (true, .registerSampler 6), (false, .registerTexture 7),
    (false, .unregisterResourceBySlot 0 none)]

theorem reaches_filled_twoPools :
    ∃ t, Machine.run next twoPools twoPoolsCalls = some t ∧ t.live false = [(1, 7)] ∧
      t.Filled false ∧ t.Filled true := by
  have hinit : Initialized (fun sampler => if sampler then 16 else 32) twoPools := by
    refine ⟨fun i => ?_, ?_, fun _ => rfl⟩
    · refine ⟨⟨⟨0, 0⟩, 0, 0, 0, 0, ⟨0, fun _ => 0⟩⟩, if i then descriptorTypeSampler else
        descriptorTypeSampledImage, if i then 11 else 10, some fun _ => 0, rfl, ?_⟩
      cases i with
      | false => rfl
      | true => rfl
    · intro i j h
      cases i with
      | false =>
          cases j with
          | false => rfl
          | true => exact absurd h (by decide)
      | true =>
          cases j with
          | false => exact absurd h (by decide)
          | true => rfl
  obtain ⟨t, hrun⟩ : ∃ t, Machine.run next twoPools twoPoolsCalls = some t := ⟨_, rfl⟩
  have hlive : some (t.live false) = some [(1, 7)] := congrArg (Option.map (live · false)) hrun.symm
  refine ⟨t, hrun, Option.some.inj hlive, ?_, ?_⟩
  · exact reaches_filled hinit (by decide) (.of_run hrun) false
  · exact reaches_filled hinit (by decide) (.of_run hrun) true

end Tables

end DDFramework.DescriptorSlotPool
