import DDFramework.Verification.CriticalSection.WaitersBit
import DDFramework.Verification.Scheduler.WakeCalls

/-! # Mutual exclusion of critical sections

The word of a section names its owner. `ArbitrateUnlockImpl` hands over the lock that
the first waiter of the caller waits for, which need not be the lock it was called on. -/

namespace DDFramework

namespace UserScheduler

/-! ### What the lock calls leave unchanged -/

/-- Handles and the handle table are the same. -/
structure SameHandles (s t : UserScheduler) : Prop where
  table : t.handleTable = s.handleTable
  handle : ∀ g, (t.fibers g).ukernFiberHandle = (s.fibers g).ukernFiberHandle

theorem SameHandles.refl (s : UserScheduler) : SameHandles s s := ⟨rfl, fun _ => rfl⟩

theorem SameHandles.trans {s t u : UserScheduler} (h : SameHandles s t) (h' : SameHandles t u) :
    SameHandles s u :=
  ⟨h'.table.trans h.table, fun g => (h'.handle g).trans (h.handle g)⟩

theorem sameHandles_modifyFiber (s : UserScheduler) (f : FiberId)
    {g : FiberLocalStorage → FiberLocalStorage}
    (h : (g (s.fibers f)).ukernFiberHandle = (s.fibers f).ukernFiberHandle) :
    SameHandles s (s.modifyFiber f g) := by
  refine ⟨rfl, fun k => ?_⟩
  by_cases hk : k = f
  · simp [hk, h]
  · simp [hk]

theorem sameHandles_endFiberWaitImpl (s : UserScheduler) (f : FiberId) (result : Result) :
    SameHandles s (s.endFiberWaitImpl f result) := by
  refine ⟨by simp, fun k => ?_⟩
  by_cases hk : k = f
  · rw [hk, endFiberWaitImpl_fibers_self]
    rfl
  · rw [endFiberWaitImpl_fibers_of_ne s hk]

theorem dispatch_sameHandles {s t : UserScheduler} {f : FiberId} {core : ℕ}
    (h : s.dispatch f core = .ok t) : t.words = s.words ∧ SameHandles s t := by
  simp only [dispatch] at h
  split at h
  · cases h
    refine ⟨rfl, rfl, fun g => ?_⟩
    by_cases hg : g = f
    · simp [hg]
    · simp [hg]
  · cases h

theorem sameHandles_addToSchedulerUnsafe (s : UserScheduler) (f : FiberId) :
    SameHandles s (s.addToSchedulerUnsafe f) := by
  refine ⟨by simp, fun g => ?_⟩
  rw [addToSchedulerUnsafe_fibers]
  by_cases hg : g = f
  · simp [hg]
  · simp [hg]

theorem arbitrateLockImpl_eq_ok {s t : UserScheduler} {f : FiberId} {handle : UKernHandle}
    {lock : Address} {tag : BitVec 32} {exit : CallExit}
    (h : s.arbitrateLockImpl f handle lock tag = .ok (exit, t)) :
    t.words = s.words ∧ SameHandles s t := by
  unfold arbitrateLockImpl at h
  split at h
  · cases h
    exact ⟨rfl, .refl s⟩
  · obtain ⟨fiber, -, h⟩ := bind_eq_ok_iff.mp h
    split at h
    · cases h
      exact ⟨rfl, .refl s⟩
    · split at h
      · cases h
        exact ⟨rfl, .refl s⟩
      · split at h
        · cases h
          exact ⟨rfl, .refl s⟩
        · cases h
          refine ⟨rfl, rfl, fun g => ?_⟩
          by_cases hg : g = f
          · simp [hg]
          · simp [hg]

/-- The lock of the first waiter is handed over. -/
theorem releaseLockWaitListUnsafe_eq_ok {s t : UserScheduler} {fuel : ℕ} {f : FiberId}
    (h : s.releaseLockWaitListUnsafe fuel f = .ok t) :
    ∃ w value, s.links.next (.fiberWaitList f) = .waitListNode w ∧
      t.words = Function.update s.words (s.fibers w).lockAddress value ∧ SameHandles s t := by
  unfold releaseLockWaitListUnsafe at h
  split at h
  · cases h
  · obtain ⟨w, hw, h⟩ := bind_eq_ok_iff.mp h
    obtain ⟨s₁, hwrite, h⟩ := bind_eq_ok_iff.mp h
    obtain ⟨-, rfl⟩ := writeWord_eq_ok hwrite
    obtain ⟨s₂, htransfer, h⟩ := bind_eq_ok_iff.mp h
    obtain ⟨s₃, hend, h⟩ := bind_eq_ok_iff.mp h
    obtain ⟨-, rfl⟩ := endWait_eq_ok hend
    cases h
    have hfront : s.links.next (.fiberWaitList f) = .waitListNode w := by
      cases hnode : s.links.next (.fiberWaitList f) <;>
        simp_all [waitNodeParent, Links.popFront]
    have hkept := transferWaitList_preserves (P := fun u => SameHandles s u ∧
        ∃ value, u.words = Function.update s.words (s.fibers w).lockAddress value)
      (fun _ _ h => ⟨⟨h.1.table, h.1.handle⟩, h.2⟩) ?_ htransfer
    · obtain ⟨hhandles, value, hwords⟩ := hkept
      refine ⟨w, value, hfront, by simpa using hwords, ?_⟩
      exact (hhandles.trans (sameHandles_endFiberWaitImpl s₂ w _)).trans
        (sameHandles_modifyFiber _ w rfl)
    · refine ⟨⟨rfl, fun g => ?_⟩, _, rfl⟩
      by_cases hg : g = w
      · simp [hg]
      · simp [hg]

theorem arbitrateUnlockImpl_eq_ok {s t : UserScheduler} {fuel : ℕ} {f : FiberId}
    {lock : Address} (h : s.arbitrateUnlockImpl fuel f lock = .ok (resultSuccess, t)) :
    ∃ w value, s.links.next (.fiberWaitList f) = .waitListNode w ∧
      t.words = Function.update s.words (s.fibers w).lockAddress value ∧ SameHandles s t := by
  unfold arbitrateUnlockImpl at h
  split at h
  · simp only [Except.ok.injEq, Prod.mk.injEq] at h
    exact (declareResult_ukern_ne_success _ h.1).elim
  · split at h
    · simp only [Except.ok.injEq, Prod.mk.injEq] at h
      exact (declareResult_ukern_ne_success _ h.1).elim
    · split at h
      · simp only [Except.ok.injEq, Prod.mk.injEq] at h
        exact (declareResult_ukern_ne_success _ h.1).elim
      · obtain ⟨u, hu, h⟩ := bind_eq_ok_iff.mp h
        cases h
        exact releaseLockWaitListUnsafe_eq_ok hu

end UserScheduler

namespace SectionSystem

open UserScheduler

variable {c c' : SectionSystem} {f g : FiberId} {lock : Address}

/-! ### Registered fibers -/

@[simp] theorem setPc_tag (c : SectionSystem) (f : FiberId) (pc : SectionPc) :
    (c.setPc f pc).tag = c.tag := rfl

@[simp] theorem setWord_tag (c : SectionSystem) (lock : Address) (value : BitVec 32) :
    (c.setWord lock value).tag = c.tag := rfl

@[simp] theorem setHeld_tag (c : SectionSystem) (f : FiberId) (lock : Address) (held : Bool) :
    (c.setHeld f lock held).tag = c.tag := rfl

theorem Registered.congr (h : SameHandles c.scheduler c'.scheduler) (hf : c.Registered f) :
    c'.Registered f := by
  unfold Registered tag getFiberByHandle at hf ⊢
  rwa [h.table, h.handle]

theorem Registered.tag_ne_zero (h : c.Registered f) : c.tag f ≠ 0 :=
  (HandleTable.accepted_handle h).1

theorem Registered.withoutWaiters_tag (h : c.Registered f) :
    withoutWaiters (c.tag f) = c.tag f :=
  withoutWaiters_of_not_hasWaiters (HandleTable.accepted_handle h).2

/-- Registered fibers with the same handle are the same. -/
theorem Registered.eq_of_tag_eq (hf : c.Registered f) (hg : c.Registered g)
    (he : c.tag f = c.tag g) : f = g := by
  unfold Registered at hf hg
  rw [he, hg, Except.ok.injEq, Option.some.injEq] at hf
  exact hf.symm

/-! ### Ownership -/

/-- The fiber holds the section, or is in `Leave` and has not given it away yet. -/
def Owns (c : SectionSystem) (f : FiberId) (lock : Address) : Prop :=
  c.held f lock = true ∨ c.pc f = .clearing lock ∨ c.pc f = .unlocking lock

/-- The word of an owned section names the owner. -/
structure Owned (c : SectionSystem) : Prop where
  word : ∀ f lock, c.Owns f lock → withoutWaiters (c.scheduler.words lock) = c.tag f
  registered : ∀ f, c.pc f ≠ .outside ∨ (∃ lock, c.held f lock = true) → c.Registered f
  leaving : ∀ f lock, c.pc f = .clearing lock ∨ c.pc f = .unlocking lock →
    c.held f lock = false

theorem Owned.registered_owner (h : Owned c) (hf : c.Owns f lock) : c.Registered f := by
  apply h.registered f
  rcases hf with hheld | hpc | hpc
  · exact Or.inr ⟨lock, hheld⟩
  · simp [hpc]
  · simp [hpc]

theorem Owned.unique (h : Owned c) (hf : c.Owns f lock) (hg : c.Owns g lock) : f = g :=
  (h.registered_owner hf).eq_of_tag_eq (h.registered_owner hg)
    ((h.word f lock hf).symm.trans (h.word g lock hg))

/-- Nobody owns a section whose word is zero. -/
theorem Owned.not_owns_of_zero (h : Owned c) (hzero : c.scheduler.words lock = 0) :
    ¬ c.Owns g lock := by
  intro hg
  have hword := h.word g lock hg
  rw [hzero, withoutWaiters_zero] at hword
  exact (h.registered_owner hg).tag_ne_zero hword.symm

/-- A step of one fiber keeps the invariant if every owner after it was one before, with
the word as it was, or is named by the new word. -/
theorem Owned.step (h : Owned c) (hsame : SameHandles c.scheduler c'.scheduler)
    (hword : ∀ g lock, c'.Owns g lock →
      (c.Owns g lock ∧ withoutWaiters (c'.scheduler.words lock) =
        withoutWaiters (c.scheduler.words lock)) ∨
      withoutWaiters (c'.scheduler.words lock) = c.tag g)
    (hactive : ∀ g, c'.pc g ≠ .outside ∨ (∃ lock, c'.held g lock = true) → c.Registered g)
    (hleaving : ∀ g lock, c'.pc g = .clearing lock ∨ c'.pc g = .unlocking lock →
      c'.held g lock = false) : Owned c' := by
  refine ⟨?_, fun g hg => (hactive g hg).congr hsame, hleaving⟩
  intro g lock hg
  have htag : c'.tag g = c.tag g := hsame.handle g
  rw [htag]
  rcases hword g lock hg with ⟨hold, he⟩ | he
  · rw [he]
    exact h.word g lock hold
  · exact he

/-- A step of one fiber that leaves the scheduler as it is. -/
theorem Owned.fiberStep (h : Owned c) (hf : c.Registered f) (hscheduler : c'.scheduler = c.scheduler)
    (hpc : ∀ g, g ≠ f → c'.pc g = c.pc g) (hheld : ∀ g, g ≠ f → c'.held g = c.held g)
    (howns : ∀ lock, c'.Owns f lock →
      c.Owns f lock ∨ withoutWaiters (c.scheduler.words lock) = c.tag f)
    (hleaving : ∀ lock, c'.pc f = .clearing lock ∨ c'.pc f = .unlocking lock →
      c'.held f lock = false) : Owned c' := by
  refine h.step (hscheduler ▸ .refl _) ?_ ?_ ?_
  · intro g lock hg
    rw [hscheduler]
    by_cases he : g = f
    · subst g
      exact (howns lock hg).imp (fun hold => ⟨hold, rfl⟩) id
    · unfold Owns at hg
      rw [hpc g he, hheld g he] at hg
      exact Or.inl ⟨hg, rfl⟩
  · intro g hg
    by_cases he : g = f
    · exact he ▸ hf
    · rw [hpc g he, hheld g he] at hg
      exact h.registered g hg
  · intro g lock hg
    by_cases he : g = f
    · subst g
      exact hleaving lock hg
    · rw [hpc g he] at hg
      rw [hheld g he]
      exact h.leaving g lock hg

/-! ### The steps of one fiber -/

/-- The fiber is in `Leave`. -/
def InLeave : SectionPc → Prop
  | .clearing _ => True
  | .unlocking _ => True
  | _ => False

/-- A fiber that is not in `Leave` owns what it holds. -/
theorem owns_iff_held (h : ¬ InLeave (c.pc f)) : c.Owns f lock ↔ c.held f lock = true := by
  unfold Owns
  constructor
  · rintro (hheld | hpc | hpc)
    · exact hheld
    · exact (h (by rw [hpc]; trivial)).elim
    · exact (h (by rw [hpc]; trivial)).elim
  · exact Or.inl

theorem Owned.setPc (h : Owned c) (hf : c.Registered f) {pc : SectionPc} (hpc : ¬ InLeave pc) :
    Owned (c.setPc f pc) := by
  refine h.fiberStep hf rfl (fun g he => by simp [he]) (fun _ _ => rfl) ?_ ?_
  · intro lock hg
    have hself : ¬ InLeave ((c.setPc f pc).pc f) := by simpa using hpc
    exact Or.inl (Or.inl ((owns_iff_held hself).mp hg))
  · intro lock hg
    rcases hg with hg | hg
    · rw [setPc_pc, Function.update_self] at hg
      exact (hpc (by rw [hg]; trivial)).elim
    · rw [setPc_pc, Function.update_self] at hg
      exact (hpc (by rw [hg]; trivial)).elim

/-- The scheduler may change anything but handles and the owner parts of the words. -/
theorem Owned.setScheduler (h : Owned c) {s : UserScheduler} (hsame : SameHandles c.scheduler s)
    (hwords : ∀ lock, withoutWaiters (s.words lock) = withoutWaiters (c.scheduler.words lock)) :
    Owned { c with scheduler := s } :=
  h.step hsame (fun _ lock hg => Or.inl ⟨hg, hwords lock⟩) h.registered h.leaving

/-- A fiber outside of `Leave` that the word names may hold the section. -/
theorem Owned.hold (h : Owned c) (hf : c.Registered f) (hpc : ¬ InLeave (c.pc f))
    (hword : withoutWaiters (c.scheduler.words lock) = c.tag f) :
    Owned (c.setHeld f lock true) := by
  refine h.fiberStep hf rfl (fun _ _ => rfl) (fun g he => by simp [he]) ?_ ?_
  · intro lock' hg
    have hself : ¬ InLeave ((c.setHeld f lock true).pc f) := hpc
    have hheld := (owns_iff_held hself).mp hg
    by_cases hl : lock' = lock
    · exact Or.inr (hl ▸ hword)
    · exact Or.inl (Or.inl (by simpa [hl] using hheld))
  · intro lock' hg
    rcases hg with hg | hg
    · exact (hpc (by rw [show c.pc f = _ from hg]; trivial)).elim
    · exact (hpc (by rw [show c.pc f = _ from hg]; trivial)).elim

/-- A fiber takes a section whose word is zero. -/
theorem Owned.acquire (h : Owned c) (hf : c.Registered f) (hpc : ¬ InLeave (c.pc f))
    (hzero : c.scheduler.words lock = 0) :
    Owned ((c.setWord lock (c.tag f)).setHeld f lock true) := by
  have hwrite : Owned (c.setWord lock (c.tag f)) := by
    refine h.step ⟨rfl, fun _ => rfl⟩ ?_ h.registered h.leaving
    intro g lock' hg
    have hl : lock' ≠ lock := by
      rintro rfl
      exact h.not_owns_of_zero hzero hg
    exact Or.inl ⟨hg, by simp [hl]⟩
  apply hwrite.hold hf hpc
  simpa using hf.withoutWaiters_tag

/-- The owner gives a section away: its word may get any value. -/
theorem Owned.release (h : Owned c) (hf : c.pc f = .clearing lock ∨ c.pc f = .unlocking lock)
    {s : UserScheduler} {value : BitVec 32} (hsame : SameHandles c.scheduler s)
    (hwords : s.words = Function.update c.scheduler.words lock value) :
    Owned ({ c with scheduler := s }.setPc f .outside) := by
  have howner : c.Owns f lock := Or.inr hf
  refine h.step hsame ?_ ?_ ?_
  · intro g lock' hg
    have hold : c.Owns g lock' ∧ lock' ≠ lock := by
      by_cases he : g = f
      · subst g
        have hself : ¬ InLeave (({ c with scheduler := s }.setPc f .outside).pc f) := by
          simp [InLeave]
        have hheld : c.held f lock' = true := (owns_iff_held hself).mp hg
        refine ⟨Or.inl hheld, ?_⟩
        rintro rfl
        simp [h.leaving f lock' hf] at hheld
      · have hg' : c.Owns g lock' := by simpa [Owns, he] using hg
        refine ⟨hg', ?_⟩
        rintro rfl
        exact he (h.unique hg' howner)
    exact Or.inl ⟨hold.1, by simp [hwords, hold.2]⟩
  · intro g hg
    by_cases he : g = f
    · exact he ▸ h.registered_owner howner
    · exact h.registered g (by simpa [he] using hg)
  · intro g lock' hg
    by_cases he : g = f
    · simp [he] at hg
    · exact h.leaving g lock' (by simpa [he] using hg)

theorem Owned.leave (h : Owned c) (hheld : c.held f lock = true) :
    Owned (c.leave f lock) := by
  have hf : c.Registered f := h.registered f (Or.inr ⟨lock, hheld⟩)
  have hfield : ∃ pc, (pc = .clearing lock ∨ pc = .unlocking lock) ∧
      c.leave f lock = (c.setHeld f lock false).setPc f pc := by
    simp only [SectionSystem.leave]
    split
    · exact ⟨_, Or.inr rfl, rfl⟩
    · exact ⟨_, Or.inl rfl, rfl⟩
  obtain ⟨pc, hleave, he⟩ := hfield
  rw [he]
  refine h.fiberStep hf rfl (fun g he => by simp [he]) (fun g he => by simp [he]) ?_ ?_
  · intro lock' hg
    by_cases hl : lock' = lock
    · exact Or.inl (Or.inl (hl ▸ hheld))
    · have hpc' : pc ≠ .clearing lock' ∧ pc ≠ .unlocking lock' := by
        rcases hleave with rfl | rfl <;> simp [Ne.symm hl]
      exact Or.inl (Or.inl (by simpa [Owns, hl, hpc'] using hg))
  · intro lock' hg
    obtain rfl : lock' = lock := by
      rcases hleave with rfl | rfl <;> simpa [eq_comm] using hg
    simp

theorem Owned.compareExchange (h : Owned c) (hf : c.Registered f) (hpc : ¬ InLeave (c.pc f)) :
    Owned (c.compareExchange f lock) := by
  simp only [SectionSystem.compareExchange]
  split
  · rename_i hzero
    exact (h.acquire hf hpc hzero).setPc hf (by simp [InLeave])
  · split
    · exact h.setPc hf (by simp [InLeave])
    · exact h.setPc hf (by simp [InLeave])

theorem Owned.interlockedOr (h : Owned c) (hf : c.Registered f) (otherWaiter : BitVec 32) :
    Owned (c.interlockedOr f lock otherWaiter) := by
  have hor : Owned (c.setWord lock (c.scheduler.words lock ||| hasChildWaitersBit)) := by
    refine h.setScheduler ⟨rfl, fun _ => rfl⟩ ?_
    intro lock'
    by_cases hl : lock' = lock
    · simp [hl]
    · simp [hl]
  simp only [SectionSystem.interlockedOr]
  split
  · exact hor.setPc hf (by simp [InLeave])
  · exact hor.setPc hf (by simp [InLeave])

/-- The lock that an unlock by `f` hands over: the one its first waiter waits for. -/
def handedOver (c : SectionSystem) (f : FiberId) : Option Address :=
  match c.scheduler.links.next (.fiberWaitList f) with
  | .waitListNode w => some (c.scheduler.fibers w).lockAddress
  | _ => none

/-- Before a fiber calls `ArbitrateUnlockImpl`, the first fiber on its `wait_list`, if
there is one, waits for the section of the call. -/
def HandsOver (c : SectionSystem) : SectionAction → Prop
  | .advance f => ∀ lock, c.pc f = .unlocking lock → ∀ other ∈ c.handedOver f, other = lock
  | _ => True

/-- The first switch on core 0 changes the main fiber's state and lists only. -/
theorem Owned.switchToScheduler (h : Owned c) (f : FiberId) : Owned (c.switchToScheduler f) := by
  rw [SectionSystem.switchToScheduler]
  split
  · exact h.step (sameHandles_addToSchedulerUnsafe c.scheduler c.mainFiber)
      (fun _ lock hg => Or.inl ⟨hg, by simp⟩) h.registered h.leaving
  · exact h

theorem switchToScheduler_sameHandles (c : SectionSystem) (f : FiberId) :
    SameHandles c.scheduler (c.switchToScheduler f).scheduler := by
  rw [SectionSystem.switchToScheduler]
  split
  · exact sameHandles_addToSchedulerUnsafe c.scheduler c.mainFiber
  · exact .refl c.scheduler

theorem Owned.advance (h : Owned c) {fuel : ℕ} (hpc : c.pc f ≠ .outside)
    (hallow : c.HandsOver (.advance f)) (hcall : c.advance fuel f = .ok c') : Owned c' := by
  have hf := h.registered f (Or.inl hpc)
  unfold SectionSystem.advance at hcall
  cases hat : c.pc f with
  | outside => exact (hpc hat).elim
  | entering lock =>
      simp only [hat, Except.ok.injEq] at hcall
      exact hcall ▸ h.compareExchange hf (by simp [hat, InLeave])
  | marking lock otherWaiter =>
      simp only [hat, Except.ok.injEq] at hcall
      exact hcall ▸ h.interlockedOr hf otherWaiter
  | locking lock otherWaiter =>
      simp only [hat, arbitrateLock] at hcall
      obtain ⟨⟨exit, s⟩, hs, hcall⟩ := bind_eq_ok_iff.mp hcall
      obtain ⟨hwords, hsame⟩ := arbitrateLockImpl_eq_ok hs
      cases exit with
      | returns result => cases hcall
      | switches result =>
          cases hcall
          have hset : Owned { c with scheduler := s } := h.setScheduler hsame fun _ => by rw [hwords]
          exact (hset.switchToScheduler f).setPc
            ((hf.congr hsame).congr (switchToScheduler_sameHandles _ f)) (by simp [InLeave])
  | blocked lock =>
      simp only [hat, returnFromLock] at hcall
      split at hcall
      · cases hcall
      · split at hcall
        · rename_i hword
          cases hcall
          exact (h.hold hf (by simp [hat, InLeave]) hword).setPc hf (by simp [InLeave])
        · cases hcall
          exact h.setPc hf (by simp [InLeave])
  | clearing lock =>
      simp only [hat, Except.ok.injEq] at hcall
      exact hcall ▸ h.release (Or.inl hat) ⟨rfl, fun _ => rfl⟩ rfl
  | unlocking lock =>
      simp only [hat, arbitrateUnlock] at hcall
      obtain ⟨⟨result, s⟩, hs, hcall⟩ := bind_eq_ok_iff.mp hcall
      split at hcall
      · cases hcall
      · rename_i hresult
        cases hcall
        obtain rfl : result = resultSuccess := not_not.mp hresult
        obtain ⟨w, value, hfront, hwords, hsame⟩ := arbitrateUnlockImpl_eq_ok hs
        -- the one place where another section than the caller's may change its owner
        have hlock : (c.scheduler.fibers w).lockAddress = lock :=
          hallow lock hat _ (by simp [handedOver, hfront])
        rw [hlock] at hwords
        exact h.release (Or.inr hat) hsame hwords

theorem Owned.perform {sections : Address → Prop} {fuel : ℕ} {a : SectionAction} (h : Owned c)
    (henabled : c.Enabled sections a) (hallow : c.HandsOver a)
    (hcall : c.perform fuel a = .ok c') : Owned c' := by
  cases a with
  | enter f lock =>
      cases hcall
      exact h.setPc henabled.1 (by simp [InLeave])
  | tryEnter f lock =>
      obtain ⟨hf, -, hpc, -⟩ := henabled
      cases hcall
      simp only [SectionSystem.tryEnter]
      split
      · rename_i hzero
        exact h.acquire hf (by simp [hpc, InLeave]) hzero
      · exact h
  | leave f lock =>
      cases hcall
      exact h.leave henabled.2.2
  | advance f => exact h.advance henabled.2 hallow hcall
  | dispatch f core =>
      obtain ⟨s, hs, hcall⟩ := bind_eq_ok_iff.mp hcall
      cases hcall
      obtain ⟨hwords, hsame⟩ := dispatch_sameHandles hs
      exact h.setScheduler hsame fun _ => by rw [hwords]

/-! ### Runs -/

/-- No section is held by two fibers. -/
def MutuallyExclusive (c : SectionSystem) : Prop :=
  ∀ f g lock, c.held f lock = true → c.held g lock = true → f = g

theorem Reachable.owned {fuel : ℕ} {sections : Address → Prop} {s : UserScheduler}
    (h : Reachable fuel sections s HandsOver c) : Owned c := by
  induction h with
  | start _ => exact ⟨by simp [Owns, startAt], by simp [startAt], by simp [startAt]⟩
  | step _ enabled allow perform ih => exact ih.perform enabled allow perform

/-- As long as every unlock hands over the section it was called on, critical sections
exclude each other. -/
theorem reachable_mutuallyExclusive {fuel : ℕ} {sections : Address → Prop} {s : UserScheduler}
    (h : Reachable fuel sections s HandsOver c) : MutuallyExclusive c :=
  fun _ _ _ hf hg => h.owned.unique (Or.inl hf) (Or.inl hg)

/-! ### Schedules -/

instance (sections : Address → Prop) [DecidablePred sections] (c : SectionSystem) :
    (a : SectionAction) → Decidable (c.Enabled sections a)
  | .enter f lock => inferInstanceAs (Decidable (
      c.scheduler.getFiberByHandle (c.tag f) = .ok (some f) ∧
      (c.scheduler.fibers f).fiberState = .running ∧ c.pc f = .outside ∧ sections lock))
  | .tryEnter f lock => inferInstanceAs (Decidable (
      c.scheduler.getFiberByHandle (c.tag f) = .ok (some f) ∧
      (c.scheduler.fibers f).fiberState = .running ∧ c.pc f = .outside ∧ sections lock))
  | .leave f lock => inferInstanceAs (Decidable (
      (c.scheduler.fibers f).fiberState = .running ∧ c.pc f = .outside ∧
      c.held f lock = true))
  | .advance f => inferInstanceAs (Decidable (
      (c.scheduler.fibers f).fiberState = .running ∧ c.pc f ≠ .outside))
  | .dispatch f _ => inferInstanceAs (Decidable (
      (c.scheduler.fibers f).fiberState = .scheduled))

/-- The section that the next step of the fiber unlocks. -/
def unlocks (c : SectionSystem) (f : FiberId) : Option Address :=
  match c.pc f with
  | .unlocking lock => some lock
  | _ => none

theorem unlocks_eq_some : c.unlocks f = some lock ↔ c.pc f = .unlocking lock := by
  unfold unlocks
  cases c.pc f with
  | unlocking lock' => simp
  | _ => simp

instance (c : SectionSystem) : (a : SectionAction) → Decidable (c.HandsOver a)
  | .advance f => decidable_of_iff
      (∀ lock ∈ c.unlocks f, ∀ other ∈ c.handedOver f, other = lock)
      (by simp only [HandsOver, Option.mem_def, unlocks_eq_some])
  | .enter _ _ => isTrue trivial
  | .tryEnter _ _ => isTrue trivial
  | .leave _ _ => isTrue trivial
  | .dispatch _ _ => isTrue trivial

/-- Performs the actions in order, as long as each is enabled and allowed and does not
fail. -/
def run (fuel : ℕ) (sections : Address → Prop) [DecidablePred sections]
    (allowed : SectionSystem → SectionAction → Prop) [∀ c a, Decidable (allowed c a)]
    (c : SectionSystem) : List SectionAction → Option SectionSystem
  | [] => some c
  | a :: as =>
    if c.Enabled sections a ∧ allowed c a then
      match c.perform fuel a with
      | .ok c => run fuel sections allowed c as
      | .error _ => none
    else none

theorem Reachable.run {fuel : ℕ} {sections : Address → Prop} [DecidablePred sections]
    {allowed : SectionSystem → SectionAction → Prop} [∀ c a, Decidable (allowed c a)]
    {s : UserScheduler} {as : List SectionAction} (h : Reachable fuel sections s allowed c)
    (hrun : run fuel sections allowed c as = some c') : Reachable fuel sections s allowed c' := by
  induction as generalizing c with
  | nil =>
      cases hrun
      exact h
  | cons a as ih =>
      simp only [SectionSystem.run] at hrun
      split at hrun
      · rename_i henabled
        cases hcall : c.perform fuel a with
        | error fault =>
            rw [hcall] at hrun
            cases hrun
        | ok c₁ =>
            rw [hcall] at hrun
            exact ih (h.step henabled.1 henabled.2 hcall) hrun
      · cases hrun

/-- Every fiber runs on a core of its own, and has its slot number in its handle. -/
def runningFibers : UserScheduler where
  fibers f := { UserScheduler.zeroFiber with
    priority := 2
    currentCore := f
    ukernFiberHandle := BitVec.ofNat 32 (0x8000 + f)
    activityLevel := activityLevelSchedulable
    fiberState := .running }
  links := Links.detached Node
  words _ := 0
  handleTable := ⟨fun _ => 1, fun i => some i, 0, 256, 2⟩
  userFiberLocalAllocator := ⟨none, fun _ => none⟩
  coreMask := 7
  coreCount := 3
  activeCores := 3
  runnableFibers := 0

theorem runningFibers_start {sections : Address → Prop} (h : ¬ sections 0) :
    Start sections runningFibers :=
  ⟨Links.detached_coherent, fun _ => rfl, fun _ => rfl, fun _ _ => rfl, h⟩

/-- Fiber 0 holds the sections 16 and 32. Fiber 1 is queued for 16, fiber 2 has set the
waiters bit of 32, and then fiber 0 leaves 32. -/
def leaveOfAnotherSection : List SectionAction :=
  [.enter 0 16, .advance 0, .enter 0 32, .advance 0,
    .enter 1 16, .advance 1, .advance 1, .advance 1,
    .enter 2 32, .advance 2, .advance 2,
    .leave 0 32, .advance 0, .dispatch 1 1, .advance 1]

theorem reachable_two_holders : ∃ c, Reachable 8 (fun lock => lock = 16 ∨ lock = 32)
    runningFibers (fun _ _ => True) c ∧ ¬ MutuallyExclusive c := by
  have hrun : (run 8 (fun lock => lock = 16 ∨ lock = 32) (fun _ _ => True)
      (startAt runningFibers 0 false) leaveOfAnotherSection).any
        (fun c => c.held 0 16 && c.held 1 16) = true := by
    decide +kernel
  obtain ⟨c, hc, hheld⟩ := (Option.any_eq_true _ _).mp hrun
  refine ⟨c, (Reachable.start (runningFibers_start (by decide))).run hc, ?_⟩
  intro h
  simp only [Bool.and_eq_true] at hheld
  exact absurd (h 0 1 16 hheld.1 hheld.2) (by decide)

/-- Fiber 0 hands the section over to fiber 1, which has waited for it. -/
def contendedHandOver : List SectionAction :=
  [.enter 0 16, .advance 0, .enter 1 16, .advance 1, .advance 1, .advance 1,
    .leave 0 16, .advance 0, .dispatch 1 1, .advance 1]

theorem reachable_mutuallyExclusive_handOver :
    ∃ c, Reachable 8 (fun lock => lock = 16) runningFibers HandsOver c ∧
      c.held 1 16 = true ∧ MutuallyExclusive c := by
  have hrun : (run 8 (fun lock => lock = 16) HandsOver (startAt runningFibers 0 false)
      contendedHandOver).any (fun c => c.held 1 16) = true := by
    decide +kernel
  obtain ⟨c, hc, hheld⟩ := (Option.any_eq_true _ _).mp hrun
  have hreach := (Reachable.start (runningFibers_start (by decide))).run hc
  exact ⟨c, hreach, hheld, reachable_mutuallyExclusive hreach⟩

end SectionSystem

end DDFramework
