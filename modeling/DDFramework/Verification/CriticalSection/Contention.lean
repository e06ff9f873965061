import DDFramework.Verification.CriticalSection.MutualExclusion
import DDFramework.Verification.CriticalSection.WaitRings
import DDFramework.Verification.Scheduler.LockHandover

/-! # Contention on one critical section

What each place in `Enter` and `Leave` may rely on, when the window of a contender,
between its look at the word and its queueing, is not hit by a `Leave`. -/

namespace DDFramework

namespace UserScheduler

/-! ### The lock calls when their checks pass -/

theorem sameHandles_waitBehind (s : UserScheduler) (f o : FiberId) (lock : Address)
    (tag : BitVec 32) : SameHandles s (s.waitBehind f o lock tag) := by
  refine ⟨rfl, fun g => ?_⟩
  by_cases hg : g = f
  · simp [hg, waitBehind]
  · rw [waitBehind_fibers_of_ne hg]

theorem arbitrateLockImpl_of_owner {s : UserScheduler} {f o : FiberId} {handle : UKernHandle}
    {lock : Address} (hlock : lock ≠ 0)
    (howner : s.getFiberByHandle handle = .ok (some o)) (hne : o ≠ f)
    (hword : s.words lock = handle ||| hasChildWaitersBit) (tag : BitVec 32) :
    s.arbitrateLockImpl f handle lock tag =
      .ok (.switches resultSuccess, s.waitBehind f o lock tag) := by
  unfold arbitrateLockImpl
  rw [if_neg hlock, howner, ok_bind]
  simp only [if_neg hne, hword, ne_eq, not_true_eq_false, if_false]
  rfl

theorem sameHandles_grantTo (s : UserScheduler) (w : FiberId) (lock : Address) :
    SameHandles s (s.grantTo w lock) := by
  refine ⟨by simp, fun g => ?_⟩
  by_cases hg : g = w
  · simp [hg, grantTo_fibers, grantedRecord, endedRecord]
  · rw [grantTo_fibers_of_ne hg]

theorem arbitrateUnlockImpl_of_waiter {s : UserScheduler} {fuel : ℕ} {f w : FiberId}
    {lock : Address} (hlock : lock ≠ 0) (hfuel : 0 < fuel) (hc : s.links.Coherent)
    (hring : s.links.Ring (.fiberWaitList f) [.waitListNode w])
    (howner : (s.fibers f).ukernFiberHandle = withoutWaiters (s.words lock))
    (haddress : (s.fibers w).lockAddress = lock)
    (hobject : (s.fibers w).waitableObject ≠ none) :
    s.arbitrateUnlockImpl fuel f lock = .ok (resultSuccess, s.grantTo w lock) := by
  have hempty : s.links.isEmpty (.fiberWaitList f) = false := by
    rw [hring.isEmpty_eq]
    rfl
  unfold arbitrateUnlockImpl
  rw [if_neg hlock, hempty, if_neg (by simp), if_neg (by simpa [withoutWaiters] using howner),
    releaseLockWaitListUnsafe_of_waiter hlock hfuel hc hring haddress hobject]
  rfl

end UserScheduler

namespace SectionSystem

open UserScheduler

/-! ### Annotations -/

section Annotations

variable (lock : Address) (owner : Option FiberId) (ws : List FiberId) (f : FiberId)
  (held : Address → Bool)

/-- The fiber is in `Enter` and not queued. -/
structure Contends (l : Address) : Prop where
  onLock : l = lock
  holdsNothing : ∀ l', held l' = false
  notQueued : f ∉ ws
  notOwner : owner ≠ some f

/-- The fiber is in `Leave` and the section is still its own. -/
structure Leaves (l : Address) : Prop where
  onLock : l = lock
  holdsNothing : ∀ l', held l' = false
  notQueued : f ∉ ws
  isOwner : owner = some f

/-- The fiber is queued behind the owner. -/
structure Waits (r : FiberLocalStorage) : Prop where
  queued : f ∈ ws
  notOwner : owner ≠ some f
  state : r.fiberState = .waiting
  object : r.waitableObject ≠ none
  address : r.lockAddress = lock
  tag : r.waitTag = r.ukernFiberHandle

/-- The fiber has been given the section and has not returned from `Enter` yet. -/
structure Granted (r : FiberLocalStorage) : Prop where
  notQueued : f ∉ ws
  isOwner : owner = some f
  state : r.fiberState ≠ .waiting
  result : r.lastResult = resultSuccess

/-- What holds of a fiber at its place, for the word, the owner and the queue of the
section. -/
def Annotation (word : BitVec 32) (r : FiberLocalStorage) : SectionPc → Prop
  | .outside => f ∉ ws ∧ ∀ l, held l = true ↔ l = lock ∧ owner = some f
  | .entering l => Contends lock owner ws f held l
  | .marking l _ => Contends lock owner ws f held l
  | .locking l otherWaiter => Contends lock owner ws f held l ∧
      word = withoutWaiters otherWaiter ||| hasChildWaitersBit
  | .blocked l => l = lock ∧ (∀ l', held l' = false) ∧
      (Waits lock owner ws f r ∨ Granted owner ws f r)
  | .clearing l => Leaves lock owner ws f held l
  | .unlocking l => Leaves lock owner ws f held l ∧ ws ≠ []

end Annotations

variable {lock : Address} {owner owner' : Option FiberId} {ws ws' : List FiberId} {f g : FiberId}
  {held : Address → Bool} {word word' : BitVec 32} {r : FiberLocalStorage} {pc : SectionPc}

/-- A queued fiber waits in `ArbitrateLockImpl`. -/
theorem Annotation.waits (h : Annotation lock owner ws f held word r pc) (hf : f ∈ ws) :
    pc = .blocked lock ∧ (∀ l, held l = false) ∧ Waits lock owner ws f r := by
  cases pc with
  | outside => exact (h.1 hf).elim
  | entering l => exact (h.notQueued hf).elim
  | marking l otherWaiter => exact (h.notQueued hf).elim
  | locking l otherWaiter => exact (h.1.notQueued hf).elim
  | clearing l => exact (h.notQueued hf).elim
  | unlocking l => exact (h.1.notQueued hf).elim
  | blocked l =>
      obtain ⟨hl, hheld, hwaits | hgranted⟩ := h
      · exact ⟨by rw [hl], hheld, hwaits⟩
      · exact (hgranted.notQueued hf).elim

/-- The steps of other fibers do not disturb an annotation if they keep the fiber's part
in the ownership and in the queue, and the word for those who will name the owner. -/
theorem Annotation.frame (h : Annotation lock owner ws f held word r pc)
    (howner : owner = some f ↔ owner' = some f) (hqueue : f ∈ ws ↔ f ∈ ws')
    (hwaiters : owner = some f → ws ≠ [] → ws' ≠ [])
    (hword : ∀ l otherWaiter, pc = .locking l otherWaiter →
      word = withoutWaiters otherWaiter ||| hasChildWaitersBit → word' = word) :
    Annotation lock owner' ws' f held word' r pc := by
  have hcontends : ∀ l, Contends lock owner ws f held l → Contends lock owner' ws' f held l :=
    fun l h => ⟨h.onLock, h.holdsNothing, hqueue.not.mp h.notQueued, howner.not.mp h.notOwner⟩
  have hleaves : ∀ l, Leaves lock owner ws f held l → Leaves lock owner' ws' f held l :=
    fun l h => ⟨h.onLock, h.holdsNothing, hqueue.not.mp h.notQueued, howner.mp h.isOwner⟩
  cases pc with
  | outside => exact ⟨hqueue.not.mp h.1, fun l => (h.2 l).trans (and_congr_right' howner)⟩
  | entering l => exact hcontends l h
  | marking l otherWaiter => exact hcontends l h
  | locking l otherWaiter =>
      refine ⟨hcontends l h.1, ?_⟩
      rw [hword l otherWaiter rfl h.2]
      exact h.2
  | clearing l => exact hleaves l h
  | unlocking l => exact ⟨hleaves l h.1, hwaiters h.1.isOwner h.2⟩
  | blocked l =>
      obtain ⟨hl, hheld, hwaits | hgranted⟩ := h
      · exact ⟨hl, hheld, Or.inl ⟨hqueue.mp hwaits.queued, howner.not.mp hwaits.notOwner,
          hwaits.state, hwaits.object, hwaits.address, hwaits.tag⟩⟩
      · exact ⟨hl, hheld, Or.inr ⟨hqueue.not.mp hgranted.notQueued, howner.mp hgranted.isOwner,
          hgranted.state, hgranted.result⟩⟩

/-- The invariant: `owner` is the fiber the word names, `ws` are the waiters behind it. -/
structure Contended (lock : Address) (c : SectionSystem) (owner : Option FiberId)
    (ws : List FiberId) : Prop where
  notNull : lock ≠ 0
  place : ∀ f, Annotation lock owner ws f (c.held f) (c.scheduler.words lock)
    (c.scheduler.fibers f) (c.pc f)
  registered : ∀ f, c.pc f ≠ .outside ∨ (∃ l, c.held f l = true) → c.Registered f
  word : (owner = none ∧ c.scheduler.words lock = 0) ∨
    ∃ o, owner = some o ∧ c.Registered o ∧ withoutWaiters (c.scheduler.words lock) = c.tag o
  marked : ws ≠ [] → hasWaiters (c.scheduler.words lock) = true
  unowned : owner = none → ws = []
  rings : WaitRings c.scheduler.links owner ws

variable {c c' : SectionSystem}

theorem Contended.unowned_of_zero (h : Contended lock c owner ws)
    (hzero : c.scheduler.words lock = 0) : owner = none := by
  rcases h.word with ⟨hnone, -⟩ | ⟨o, -, ho, hword⟩
  · exact hnone
  · rw [hzero, withoutWaiters_zero] at hword
    exact (ho.tag_ne_zero hword.symm).elim

theorem Contended.owned_of_ne_zero (h : Contended lock c owner ws)
    (hword : c.scheduler.words lock ≠ 0) :
    ∃ o, owner = some o ∧ c.Registered o ∧ withoutWaiters (c.scheduler.words lock) = c.tag o := by
  rcases h.word with ⟨-, hzero⟩ | howned
  · exact (hword hzero).elim
  · exact howned

theorem Contended.word_of_owner (h : Contended lock c (some f) ws) :
    withoutWaiters (c.scheduler.words lock) = c.tag f := by
  rcases h.word with ⟨hnone, -⟩ | ⟨o, ho, -, hname⟩
  · cases hnone
  · obtain rfl : f = o := by simpa using ho
    exact hname

/-- Fibers stay registered in a step of the registered fiber `f`. -/
theorem Contended.registered_step (h : Contended lock c owner ws) (hf : c.Registered f)
    (hsame : SameHandles c.scheduler c'.scheduler) (hpc : ∀ g, g ≠ f → c'.pc g = c.pc g)
    (hheld : ∀ g, g ≠ f → c'.held g = c.held g) :
    ∀ g, c'.pc g ≠ .outside ∨ (∃ l, c'.held g l = true) → c'.Registered g := by
  intro g hg
  apply Registered.congr hsame
  by_cases he : g = f
  · exact he ▸ hf
  · rw [hpc g he, hheld g he] at hg
    exact h.registered g hg

/-! ### The steps of `Enter` -/

/-- A fiber moves to a place whose annotation holds. -/
theorem Contended.setPc (h : Contended lock c owner ws) (hf : c.Registered f)
    (hplace : Annotation lock owner ws f (c.held f) (c.scheduler.words lock)
      (c.scheduler.fibers f) pc) : Contended lock (c.setPc f pc) owner ws := by
  refine ⟨h.notNull, fun g => ?_, ?_, h.word, h.marked, h.unowned, h.rings⟩
  · by_cases he : g = f
    · simpa [he] using hplace
    · simpa [he] using h.place g
  · exact h.registered_step hf (.refl _) (by simp +contextual) (by simp +contextual)

theorem Contended.acquire (h : Contended lock c owner ws) (hf : c.Registered f)
    (hzero : c.scheduler.words lock = 0) (hheld : ∀ l, c.held f l = false) :
    Contended lock (((c.setWord lock (c.tag f)).setHeld f lock true).setPc f .outside)
      (some f) [] := by
  obtain rfl := h.unowned_of_zero hzero
  obtain rfl := h.unowned rfl
  refine ⟨h.notNull, fun g => ?_, ?_, Or.inr ⟨f, rfl, hf, ?_⟩, by simp, by simp,
    h.rings.changeOwner (some f)⟩
  · by_cases he : g = f
    · subst g
      rw [setPc_pc, Function.update_self]
      refine ⟨by simp, fun l => ?_⟩
      by_cases hl : l = lock
      · simp [hl]
      · simp [hl, hheld l]
    · have hplace : Annotation lock (some f) [] g (c.held g) (c.tag f) (c.scheduler.fibers g)
          (c.pc g) := by
        apply (h.place g).frame (by simp [Ne.symm he]) Iff.rfl (by simp)
        intro l otherWaiter _ hword
        rw [hzero] at hword
        exact (or_bit_ne_zero _ hword.symm).elim
      simpa [he] using hplace
  · exact h.registered_step hf ⟨rfl, fun _ => rfl⟩ (by simp +contextual) (by simp +contextual)
  · simpa using hf.withoutWaiters_tag

/-- Setting the bit of an owned section disturbs nobody. -/
theorem Contended.mark (h : Contended lock c owner ws) (hword : c.scheduler.words lock ≠ 0) :
    Contended lock (c.setWord lock (c.scheduler.words lock ||| hasChildWaitersBit)) owner ws := by
  refine ⟨h.notNull, fun g => ?_, h.registered, Or.inr ?_, fun _ => ?_, h.unowned, h.rings⟩
  · have hplace : Annotation lock owner ws g (c.held g)
        (c.scheduler.words lock ||| hasChildWaitersBit) (c.scheduler.fibers g) (c.pc g) := by
      apply (h.place g).frame Iff.rfl Iff.rfl (fun _ hws => hws)
      intro l otherWaiter _ hlocking
      rw [hlocking, or_bit_or_bit]
    simpa using hplace
  · obtain ⟨o, ho, hreg, hname⟩ := h.owned_of_ne_zero hword
    refine ⟨o, ho, hreg, ?_⟩
    simpa using hname
  · simp

/-- A contender whose word is still there finds the owner and joins its queue. -/
theorem Contended.arbitrateLock (h : Contended lock c owner ws) {otherWaiter : BitVec 32}
    (hpc : c.pc f = .locking lock otherWaiter) (hentered : ¬ c.FirstSwitch f) :
    ∃ c', c.arbitrateLock f lock otherWaiter = .ok c' ∧ Contended lock c' owner (ws ++ [f]) := by
  have hf := h.registered f (Or.inl (by simp [hpc]))
  have hplace := h.place f
  rw [hpc] at hplace
  obtain ⟨hcontends, hword⟩ := hplace
  obtain ⟨o, rfl, ho, hname⟩ := h.owned_of_ne_zero (by rw [hword]; exact or_bit_ne_zero _)
  have hhandle : withoutWaiters otherWaiter = c.tag o := by
    rw [← hname, hword, withoutWaiters_or, withoutWaiters_idem]
  have hne : o ≠ f := by simpa using hcontends.notOwner
  have hcall := arbitrateLockImpl_of_owner h.notNull ho hne (by rw [hword, hhandle]) (c.tag f)
  have hsame := sameHandles_waitBehind c.scheduler f o lock (c.tag f)
  have hswitch : ({ c with scheduler := c.scheduler.waitBehind f o lock (c.tag f) } :
      SectionSystem).switchToScheduler f =
        { c with scheduler := c.scheduler.waitBehind f o lock (c.tag f) } := by
    refine if_neg fun hfirst => hentered ⟨?_, hfirst.2⟩
    simpa [waitBehind] using hfirst.1
  refine ⟨({ c with scheduler := c.scheduler.waitBehind f o lock (c.tag f) } :
    SectionSystem).setPc f (.blocked lock), ?_, h.notNull, fun g => ?_, ?_,
    Or.inr ⟨o, rfl, ho.congr hsame, ?_⟩, fun _ => ?_, by simp, ?_⟩
  · rw [SectionSystem.arbitrateLock, hhandle, hcall, ok_bind]
    dsimp only
    rw [hswitch]
  · by_cases hg : g = f
    · subst g
      rw [setPc_pc, Function.update_self]
      refine ⟨rfl, hcontends.holdsNothing, Or.inl ⟨by simp, hcontends.notOwner, ?_, ?_, ?_, ?_⟩⟩
      · simp [waitBehind]
      · simp [waitBehind]
      · simp [waitBehind]
      · simp [waitBehind, tag]
    · have hkept : Annotation lock (some o) (ws ++ [f]) g (c.held g) (c.scheduler.words lock)
          (c.scheduler.fibers g) (c.pc g) :=
        (h.place g).frame Iff.rfl (by simp [hg]) (by simp) (fun _ _ _ _ => rfl)
      simpa [hg, waitBehind_fibers_of_ne hg] using hkept
  · exact h.registered_step hf hsame (by simp +contextual) (by simp)
  · exact hname.trans (hsame.handle o).symm
  · change hasWaiters (c.scheduler.words lock) = true
    rw [hword, hasWaiters_or]
  · have hlist : Node.suspendedList.IsSchedulerList := trivial
    exact ((h.rings.enqueue hcontends.notQueued).unlink_scheduler f).push_scheduler hlist f

/-- A fiber that has been given the section returns from `Enter`. -/
theorem Contended.returnFromLock (h : Contended lock c owner ws) (hpc : c.pc f = .blocked lock)
    (hruns : c.Runs f) :
    ∃ c', c.returnFromLock f lock = .ok c' ∧ Contended lock c' owner ws := by
  have hf := h.registered f (Or.inl (by simp [hpc]))
  have hplace := h.place f
  rw [hpc] at hplace
  obtain ⟨-, hheld, hwaits | hgranted⟩ := hplace
  · have hstate : (c.scheduler.fibers f).fiberState = .running := hruns
    rw [hwaits.state] at hstate
    cases hstate
  · obtain rfl := hgranted.isOwner
    have hname := h.word_of_owner
    refine ⟨(c.setHeld f lock true).setPc f .outside, ?_, ?_⟩
    · simp [SectionSystem.returnFromLock, hgranted.result, hname]
    · refine ⟨h.notNull, fun g => ?_, ?_, h.word, h.marked, h.unowned, h.rings⟩
      · by_cases he : g = f
        · subst g
          rw [setPc_pc, Function.update_self]
          refine ⟨hgranted.notQueued, fun l => ?_⟩
          by_cases hl : l = lock
          · simp [hl]
          · simp [hl, hheld l]
        · simpa [he] using h.place g
      · exact h.registered_step hf (.refl _) (by simp +contextual) (by simp +contextual)

/-! ### The steps of `Leave` -/

theorem Contended.leave (h : Contended lock c owner ws) {l : Address} (hpc : c.pc f = .outside)
    (hheld : c.held f l = true)
    (hwaiters : hasWaiters (c.scheduler.words l) = true →
      c.scheduler.links.isEmpty (.fiberWaitList f) = false) :
    Contended lock (c.leave f l) owner ws := by
  have hf := h.registered f (Or.inr ⟨l, hheld⟩)
  have hplace := h.place f
  rw [hpc] at hplace
  obtain ⟨hqueue, hiff⟩ := hplace
  obtain ⟨rfl, rfl⟩ := (hiff l).mp hheld
  have hnothing : ∀ l', Function.update (c.held f) l false l' = false := by
    intro l'
    by_cases hl : l' = l
    · simp [hl]
    · have hnot := (hiff l').not.mpr (by simp [hl])
      simpa [hl] using hnot
  have hfield : ∀ pc, Annotation l (some f) ws f (Function.update (c.held f) l false)
        (c.scheduler.words l) (c.scheduler.fibers f) pc → pc ≠ .outside →
      Contended l ((c.setHeld f l false).setPc f pc) (some f) ws := by
    intro pc hannotation hne
    refine ⟨h.notNull, fun g => ?_, ?_, h.word, h.marked, h.unowned, h.rings⟩
    · by_cases he : g = f
      · simpa [he] using hannotation
      · simpa [he] using h.place g
    · exact h.registered_step hf (.refl _) (by simp +contextual) (by simp +contextual)
  have hleaves : Leaves l (some f) ws f (Function.update (c.held f) l false) l :=
    ⟨rfl, hnothing, hqueue, rfl⟩
  simp only [SectionSystem.leave]
  split
  · rename_i hbit
    apply hfield (.unlocking l) ⟨hleaves, ?_⟩ (by simp)
    rintro rfl
    have hring := (h.rings.ring f).isEmpty_eq
    rw [hwaiters hbit] at hring
    simp at hring
  · exact hfield (.clearing l) hleaves (by simp)

theorem Contended.exchange (h : Contended lock c owner ws) (hpc : c.pc f = .clearing lock)
    (hbit : hasWaiters (c.scheduler.words lock) = false) :
    Contended lock (c.exchange f lock) none [] := by
  have hplace := h.place f
  rw [hpc] at hplace
  obtain rfl : ws = [] := by
    by_contra hws
    have hmarked := h.marked hws
    rw [hbit] at hmarked
    cases hmarked
  refine ⟨h.notNull, fun g => ?_, fun g hg => ?_, Or.inl ⟨rfl, by simp [SectionSystem.exchange]⟩,
    by simp, fun _ => rfl, h.rings.changeOwner none⟩
  · by_cases he : g = f
    · subst g
      simp only [SectionSystem.exchange, setPc_pc, Function.update_self]
      exact ⟨by simp, fun l => by simp [hplace.holdsNothing l]⟩
    · have hkept : Annotation lock none [] g (c.held g) 0 (c.scheduler.fibers g) (c.pc g) := by
        apply (h.place g).frame _ Iff.rfl (by simp)
        · intro l otherWaiter _ hlocking
          rw [hlocking, hasWaiters_or] at hbit
          cases hbit
        · simp [hplace.isOwner, Ne.symm he]
      simpa [SectionSystem.exchange, he] using hkept
  · have hpc' : c.pc g ≠ .outside ∨ ∃ l, c.held g l = true := by
      by_cases he : g = f
      · simp [he, hpc]
      · simpa [SectionSystem.exchange, he] using hg
    exact h.registered g hpc'

/-- The unlock with one waiter, while nobody is about to name the old owner. -/
theorem Contended.arbitrateUnlock (h : Contended lock c owner ws) {fuel : ℕ} (hfuel : 0 < fuel)
    (hpc : c.pc f = .unlocking lock) (hlocking : ∀ g l otherWaiter, c.pc g ≠ .locking l otherWaiter)
    (hone : c.scheduler.links.next (c.scheduler.links.next (.fiberWaitList f)) =
      .fiberWaitList f) :
    ∃ c' w, c.arbitrateUnlock fuel f lock = .ok c' ∧ Contended lock c' (some w) [] := by
  have hf := h.registered f (Or.inl (by simp [hpc]))
  have hplace := h.place f
  rw [hpc] at hplace
  obtain ⟨hleaves, hwaiters⟩ := hplace
  obtain rfl := hleaves.isOwner
  have hring := h.rings.ring f
  rw [waitersOf_owner] at hring
  obtain ⟨w, rfl⟩ := h.rings.eq_singleton hwaiters hone
  obtain ⟨hwpc, hwheld, hwaits⟩ := (h.place w).waits (by simp)
  have hne : w ≠ f := by
    rintro rfl
    exact hleaves.notQueued (by simp)
  have hcall := arbitrateUnlockImpl_of_waiter h.notNull hfuel h.rings.coherent hring
    h.word_of_owner.symm hwaits.address hwaits.object
  have hw := h.registered w (Or.inl (by simp [hwpc]))
  have hsame := sameHandles_grantTo c.scheduler w lock
  have hword : (c.scheduler.grantTo w lock).words lock = c.tag w := by
    simp [hwaits.tag, tag]
  refine ⟨{ c with scheduler := c.scheduler.grantTo w lock }.setPc f .outside, w, ?_, h.notNull,
    fun g => ?_, ?_, Or.inr ⟨w, rfl, hw.congr hsame, ?_⟩, by simp, by simp, ?_⟩
  · rw [SectionSystem.arbitrateUnlock, hcall]
    rfl
  · by_cases hg : g = f
    · subst g
      rw [setPc_pc, Function.update_self]
      exact ⟨by simp, fun l => by simp [hleaves.holdsNothing l, hne]⟩
    · rw [setPc_pc, Function.update_of_ne hg]
      by_cases hgw : g = w
      · subst g
        change Annotation lock (some w) [] w (c.held w) _ _ (c.pc w)
        rw [hwpc]
        refine ⟨rfl, hwheld, Or.inr ⟨by simp, rfl, ?_, ?_⟩⟩
        · simp only [setPc_scheduler, grantTo_fibers, Function.update_self]
          exact homeState_ne_waiting _
        · simp [grantTo_fibers, grantedRecord, endedRecord]
      · have hkept : Annotation lock (some w) [] g (c.held g)
            ((c.scheduler.grantTo w lock).words lock) (c.scheduler.fibers g) (c.pc g) := by
          apply (h.place g).frame
          · simp [Ne.symm hg, Ne.symm hgw]
          · simp [hgw]
          · intro ho
            exact absurd ho (by simp [Ne.symm hg])
          · intro l otherWaiter he
            exact (hlocking g l otherWaiter he).elim
        simpa [grantTo_fibers_of_ne hgw] using hkept
  · exact h.registered_step hf hsame (by simp +contextual) (by simp)
  · have hgranted : withoutWaiters ((c.scheduler.grantTo w lock).words lock) = c.tag w := by
      rw [hword, hw.withoutWaiters_tag]
    exact hgranted.trans (hsame.handle w).symm
  · change WaitRings (c.scheduler.grantTo w lock).links (some w) []
    rw [grantTo_links]
    exact ((h.rings.dequeue.changeOwner (some w)).unlink_scheduler w).pushHome_scheduler
      (fun list => homeList_isSchedulerList) w

/-! ### Runs -/

/-- The step does not fall between a contender's look at the word and its queueing, it does not
queue the main fiber before the scheduler of core 0 has run, and it unlocks for one waiter at
most. -/
def Undisturbed (c : SectionSystem) : SectionAction → Prop
  | .enter f lock => c.held f lock = false
  | .leave f lock => hasWaiters (c.scheduler.words lock) = true →
      c.scheduler.links.isEmpty (.fiberWaitList f) = false
  | .advance f =>
    match c.pc f with
    | .marking lock _ => c.scheduler.words lock ≠ 0
    | .locking _ _ => ¬ c.FirstSwitch f
    | .clearing lock => hasWaiters (c.scheduler.words lock) = false
    | .unlocking _ => (∀ g l otherWaiter, c.pc g ≠ .locking l otherWaiter) ∧
        c.scheduler.links.next (c.scheduler.links.next (.fiberWaitList f)) = .fiberWaitList f
    | _ => True
  | _ => True

theorem Contended.compareExchange (h : Contended lock c owner ws) (hpc : c.pc f = .entering lock) :
    ∃ owner' ws', Contended lock (c.compareExchange f lock) owner' ws' := by
  have hf := h.registered f (Or.inl (by simp [hpc]))
  have hplace := h.place f
  rw [hpc] at hplace
  have hcontends : Contends lock owner ws f (c.held f) lock := hplace
  simp only [SectionSystem.compareExchange]
  split
  · rename_i hzero
    exact ⟨_, _, h.acquire hf hzero hcontends.holdsNothing⟩
  · split
    · rename_i hbit
      exact ⟨_, _, h.setPc hf ⟨hcontends, (withoutWaiters_or_bit hbit).symm⟩⟩
    · exact ⟨_, _, h.setPc hf hcontends⟩

theorem Contended.interlockedOr (h : Contended lock c owner ws) {otherWaiter : BitVec 32}
    (hpc : c.pc f = .marking lock otherWaiter) (hword : c.scheduler.words lock ≠ 0) :
    Contended lock (c.interlockedOr f lock otherWaiter) owner ws := by
  have hf := h.registered f (Or.inl (by simp [hpc]))
  have hplace := h.place f
  rw [hpc] at hplace
  have hcontends : Contends lock owner ws f (c.held f) lock := hplace
  simp only [SectionSystem.interlockedOr]
  split
  · exact (h.mark hword).setPc hf hcontends
  · rename_i hsame
    refine (h.mark hword).setPc hf ⟨hcontends, ?_⟩
    rw [setWord_scheduler_words, Function.update_self, withoutWaiters_or_eq, not_not.mp hsame]

/-- An undisturbed step of a running fiber succeeds and keeps the invariant. -/
theorem Contended.advance (h : Contended lock c owner ws) {fuel : ℕ} (hfuel : 0 < fuel)
    (hruns : c.Runs f) (hallow : c.Undisturbed (.advance f)) :
    ∃ c' owner' ws', c.advance fuel f = .ok c' ∧ Contended lock c' owner' ws' := by
  have hplace := h.place f
  simp only [Undisturbed] at hallow
  unfold SectionSystem.advance
  cases hpc : c.pc f with
  | outside => exact ⟨c, owner, ws, rfl, h⟩
  | entering l =>
      rw [hpc] at hplace
      obtain rfl := hplace.onLock
      obtain ⟨owner', ws', h'⟩ := h.compareExchange hpc
      exact ⟨_, owner', ws', rfl, h'⟩
  | marking l otherWaiter =>
      rw [hpc] at hplace
      obtain rfl := hplace.onLock
      simp only [hpc] at hallow
      exact ⟨_, owner, ws, rfl, h.interlockedOr hpc hallow⟩
  | locking l otherWaiter =>
      rw [hpc] at hplace
      obtain rfl := hplace.1.onLock
      simp only [hpc] at hallow
      obtain ⟨c', hcall, h'⟩ := h.arbitrateLock hpc hallow
      exact ⟨c', _, _, hcall, h'⟩
  | blocked l =>
      rw [hpc] at hplace
      obtain rfl := hplace.1
      obtain ⟨c', hcall, h'⟩ := h.returnFromLock hpc hruns
      exact ⟨c', _, _, hcall, h'⟩
  | clearing l =>
      rw [hpc] at hplace
      obtain rfl := hplace.onLock
      simp only [hpc] at hallow
      exact ⟨_, _, _, rfl, h.exchange hpc hallow⟩
  | unlocking l =>
      rw [hpc] at hplace
      obtain rfl := hplace.1.onLock
      simp only [hpc] at hallow
      obtain ⟨c', w, hcall, h'⟩ := h.arbitrateUnlock hfuel hpc hallow.1 hallow.2
      exact ⟨c', _, _, hcall, h'⟩

theorem Contended.dispatch (h : Contended lock c owner ws) {s : UserScheduler} {core : ℕ}
    (hstate : (c.scheduler.fibers f).fiberState = .scheduled)
    (hcall : c.scheduler.dispatch f core = .ok s) :
    Contended lock { c with scheduler := s } owner ws := by
  obtain ⟨hwords, hsame⟩ := dispatch_sameHandles hcall
  obtain rfl : s = (c.scheduler.modifyFiber f fun r =>
      { r with fiberState := .running, currentCore := core }).unlink (.schedulerListNode f) := by
    simp only [UserScheduler.dispatch] at hcall
    split at hcall
    · cases hcall
      rfl
    · cases hcall
  refine ⟨h.notNull, fun g => ?_, fun g hg => (h.registered g hg).congr hsame, ?_, h.marked,
    h.unowned, h.rings.unlink_scheduler f⟩
  · by_cases he : g = f
    · subst g
      have hplace := h.place f
      cases hpc : c.pc f with
      | blocked l =>
          rw [hpc] at hplace
          obtain ⟨hl, hheld, hwaits | hgranted⟩ := hplace
          · rw [hwaits.state] at hstate
            cases hstate
          · exact ⟨hl, hheld, Or.inr ⟨hgranted.notQueued, hgranted.isOwner, by simp,
              by simpa using hgranted.result⟩⟩
      | _ =>
          rw [hpc] at hplace
          exact hplace
    · simpa [he] using h.place g
  · rcases h.word with hnone | ⟨o, ho, hreg, hname⟩
    · exact Or.inl hnone
    · exact Or.inr ⟨o, ho, hreg.congr hsame, hname.trans (hsame.handle o).symm⟩

theorem Contended.perform (h : Contended lock c owner ws) {fuel : ℕ} (hfuel : 0 < fuel)
    {a : SectionAction} (henabled : c.Enabled (fun l => l = lock) a) (hallow : c.Undisturbed a)
    (hcall : c.perform fuel a = .ok c') : ∃ owner' ws', Contended lock c' owner' ws' := by
  cases a with
  | enter f l =>
      obtain ⟨hf, -, hpc, rfl⟩ := henabled
      have hheld : c.held f l = false := hallow
      have hplace := h.place f
      rw [hpc] at hplace
      obtain ⟨hqueue, hiff⟩ := hplace
      have hnot : owner ≠ some f := by
        intro ho
        rw [(hiff l).mpr ⟨rfl, ho⟩] at hheld
        cases hheld
      have hnothing : ∀ l', c.held f l' = false := by
        intro l'
        have hno := (hiff l').not.mpr (by simp [hnot])
        simpa using hno
      cases hcall
      exact ⟨owner, ws, h.setPc hf ⟨rfl, hnothing, hqueue, hnot⟩⟩
  | tryEnter f l =>
      obtain ⟨hf, -, hpc, rfl⟩ := henabled
      cases hcall
      simp only [SectionSystem.tryEnter]
      split
      · rename_i hzero
        have hplace := h.place f
        rw [hpc] at hplace
        have hnothing : ∀ l', c.held f l' = false := by
          intro l'
          have hno := (hplace.2 l').not.mpr (by simp [h.unowned_of_zero hzero])
          simpa using hno
        have hsame : ((c.setWord l (c.tag f)).setHeld f l true).setPc f .outside =
            (c.setWord l (c.tag f)).setHeld f l true := by
          have hupdate : Function.update c.pc f .outside = c.pc := by
            rw [← hpc, Function.update_eq_self]
          simp only [SectionSystem.setPc, setHeld_pc, setWord_pc, hupdate]
          rfl
        exact ⟨_, _, hsame ▸ h.acquire hf hzero hnothing⟩
      · exact ⟨owner, ws, h⟩
  | leave f l =>
      cases hcall
      exact ⟨owner, ws, h.leave henabled.2.1 henabled.2.2 hallow⟩
  | advance f =>
      obtain ⟨c₁, owner', ws', hcall', h'⟩ := h.advance hfuel henabled.1 hallow
      have he : c₁ = c' := by
        rw [SectionSystem.perform, hcall'] at hcall
        cases hcall
        rfl
      exact ⟨owner', ws', he ▸ h'⟩
  | dispatch f core =>
      obtain ⟨s, hs, hcall⟩ := bind_eq_ok_iff.mp hcall
      cases hcall
      exact ⟨owner, ws, h.dispatch henabled hs⟩

theorem startAt_contended {s : UserScheduler} (h : Start (fun l => l = lock) s)
    (mainFiber : FiberId) (mainEntered : Bool) :
    Contended lock (startAt s mainFiber mainEntered) none [] := by
  refine ⟨fun he => h.not_null he.symm, fun f => ?_, by simp [startAt],
    Or.inl ⟨rfl, h.unlocked lock rfl⟩, by simp, fun _ => rfl, h.coherent, fun g => ?_,
    fun g _ => h.waitNode g⟩
  · exact ⟨by simp, by simp [startAt]⟩
  · rw [waitersOf_nil]
    exact Links.ring_nil.mpr (h.waitList g)

theorem Reachable.contended {fuel : ℕ} (hfuel : 0 < fuel) {s : UserScheduler}
    (h : Reachable fuel (fun l => l = lock) s Undisturbed c) :
    ∃ owner ws, Contended lock c owner ws := by
  induction h with
  | start start => exact ⟨none, [], startAt_contended start _ _⟩
  | step _ enabled allow perform ih =>
      obtain ⟨owner, ws, h⟩ := ih
      exact h.perform hfuel enabled allow perform

/-- In an undisturbed run every lock call of `Enter` and `Leave` succeeds. -/
theorem reachable_lock_calls_succeed {fuel : ℕ} (hfuel : 0 < fuel) {s : UserScheduler}
    (h : Reachable fuel (fun l => l = lock) s Undisturbed c)
    (henabled : c.Enabled (fun l => l = lock) (.advance f))
    (hallow : c.Undisturbed (.advance f)) : ∃ c', c.perform fuel (.advance f) = .ok c' := by
  obtain ⟨owner, ws, hc⟩ := h.contended hfuel
  obtain ⟨c', -, -, hcall, -⟩ := hc.advance hfuel henabled.1 hallow
  exact ⟨c', hcall⟩

/-- Fiber 0 holds the section and fiber 1 has seen and marked its word. -/
theorem reachable_lock_calls_succeed_contender :
    ∃ c, Reachable 8 (fun l => l = 16) runningFibers Undisturbed c ∧
      c.pc 1 = .locking 16 0x8000 ∧ ∃ c', c.perform 8 (.advance 1) = .ok c' := by
  have h : Reachable 8 (fun l => l = 16) runningFibers Undisturbed (startAt runningFibers 0 false) :=
    .start (runningFibers_start (by decide))
  have h := h.step (a := .enter 0 16) ⟨rfl, rfl, rfl, rfl⟩ rfl rfl
  have h := h.step (a := .advance 0) ⟨rfl, by decide⟩ trivial rfl
  have h := h.step (a := .enter 1 16) ⟨rfl, rfl, rfl, rfl⟩ rfl rfl
  have h := h.step (a := .advance 1) ⟨rfl, by decide⟩ trivial rfl
  have hword : (0x8000 : BitVec 32) ≠ 0 := by decide
  have h := h.step (a := .advance 1) ⟨rfl, by decide⟩ hword rfl
  refine ⟨_, h, rfl, reachable_lock_calls_succeed (by decide) h ⟨rfl, by decide⟩ ?_⟩
  rintro ⟨hcore, -⟩
  cases hcore

/-- Fiber 0 leaves while fiber 1 stands between its mark and its queueing. -/
def leaveBeforeQueueing : List SectionAction :=
  [.enter 0 16, .advance 0, .enter 1 16, .advance 1, .advance 1, .leave 0 16]

theorem reachable_lock_call_aborts :
    ∃ c, Reachable 8 (fun l => l = 16) runningFibers (fun _ _ => True) c ∧
      c.Enabled (fun l => l = 16) (.advance 0) ∧
      c.perform 8 (.advance 0) = .error (.abort resultRequiresLock) := by
  have hrun : (run 8 (fun l => l = 16) (fun _ _ => True) (startAt runningFibers 0 false)
      leaveBeforeQueueing).any (fun c => decide (c.Enabled (fun l => l = 16) (.advance 0)) &&
        match c.perform 8 (.advance 0) with
        | .error fault => decide (fault = .abort resultRequiresLock)
        | .ok _ => false) = true := by
    decide +kernel
  obtain ⟨c, hc, hfails⟩ := (Option.any_eq_true _ _).mp hrun
  rw [Bool.and_eq_true, decide_eq_true_iff] at hfails
  refine ⟨c, (Reachable.start (runningFibers_start (by decide))).run hc, hfails.1, ?_⟩
  cases hcall : c.perform 8 (.advance 0) with
  | error fault => simpa [hcall] using hfails.2
  | ok c' => simp [hcall] at hfails

end SectionSystem

end DDFramework
