import Mathlib.Algebra.BigOperators.Group.Finset.Basic
import Mathlib.Data.Fintype.BigOperators
import Mathlib.Data.Multiset.OrderedMonoid
import DDFramework.Library.Machine
import DDFramework.Verification.DeviceObjects.Lifetimes

/-! # The objects of a whole run

No call destroys an object twice exactly if no memory pool is finalised that was relocated in an
earlier life and not in this one. What is there besides what the program holds is exactly what
its calls have left. -/

namespace DDFramework.DeviceObjects

open ObjectTable Machine

variable {ι : Type} [DecidableEq ι] {s s' : Layer ι} {i : ι} {call : Call}
  {calls : List (ι × Call)} {left : Objects}

/-! ### One step -/

theorem Layer.next_eq_some (h : s.next (i, call) = some s') :
    call.allowedIn (s.lives i).phase = true ∧ ∃ m, (s.objects i).perform call = some m ∧
      s' = { table := ((m.run s.table).run).2
             objects := Function.update s.objects i ((m.run s.table).run).1
             lives := Function.update s.lives i ((s.lives i).after (s.objects i) call) } := by
  rw [Layer.next, Option.ite_none_right_eq_some] at h
  obtain ⟨hallowed, h⟩ := h
  obtain ⟨m, hperform, h⟩ := Option.map_eq_some_iff.mp h
  exact ⟨hallowed, m, hperform, h.symm⟩

/-- What the call leaves. -/
def Layer.loss (s : Layer ι) (call : ι × Call) : Objects :=
  (s.objects call.1).loss (s.lives call.1) call.2

/-- All objects are accounted for: they are held by one of the program's, or lost. -/
structure Layer.Accounts [Fintype ι] (s : Layer ι) (left : Objects) : Prop where
  wellFormed : s.table.WellFormed
  sound : s.table.sound = true
  live : s.table.live = ∑ i, (s.objects i).held (s.lives i) + left
  consistent : ∀ i, (s.objects i).Consistent (s.lives i)
  stale : ∀ i, ∀ o ∈ (s.objects i).stale (s.lives i), s.table.Dead o

variable [Fintype ι]

omit [DecidableEq ι] in
theorem Layer.Accounts.start {objects : ι → Object} (h : ∀ i, (objects i).Zeroed) :
    (Layer.start objects).Accounts 0 where
  wellFormed := empty_wellFormed
  sound := rfl
  live := by
    have hheld : ∀ i ∈ Finset.univ, (objects i).held Life.start = 0 := fun i _ => by
      rw [Object.held, if_neg (by decide), if_neg (by decide), add_zero]
    change 0 = ∑ i, (objects i).held Life.start + 0
    rw [Finset.sum_eq_zero hheld, add_zero]
  consistent i := Object.Consistent.zeroed (h i)
  stale i o ho := by
    change o ∈ (objects i).stale Life.start at ho
    cases hobject : objects i with
    | memoryPool pool =>
        rw [hobject, Object.stale, if_neg (by simp [Life.start])] at ho
        exact absurd ho (Multiset.notMem_zero o)
    | _ =>
        rw [hobject] at ho
        exact absurd ho (Multiset.notMem_zero o)

/-- A safe call keeps the accounts. -/
theorem Layer.Accounts.next (h : s.Accounts left) (htaken : s.next (i, call) = some s')
    (hsafe : (s.lives i).FinalizesSafely call) : s'.Accounts (left + s.loss (i, call)) := by
  obtain ⟨hallowed, m, hperform, rfl⟩ := Layer.next_eq_some htaken
  have hothers : ∀ j ∈ Finset.univ.erase i,
      Object.held (Function.update s.lives i ((s.lives i).after (s.objects i) call) j)
        (Function.update s.objects i ((m.run s.table).run).1 j) =
      (s.objects j).held (s.lives j) := by
    intro j hj
    rw [Function.update_of_ne (Finset.ne_of_mem_erase hj),
      Function.update_of_ne (Finset.ne_of_mem_erase hj)]
  have hsplit := Finset.add_sum_erase Finset.univ
    (fun j => (s.objects j).held (s.lives j)) (Finset.mem_univ i)
  have hlive : s.table.live = (s.objects i).held (s.lives i) +
      (∑ j ∈ Finset.univ.erase i, (s.objects j).held (s.lives j) + left) := by
    rw [h.live, ← hsplit, add_assoc]
  obtain ⟨q, hafter, hout⟩ := Object.perform_triple (h.consistent i) hperform hallowed hsafe
    s.table _ h.wellFormed hlive
  refine ⟨hout.wellFormed, hout.sound.trans h.sound, ?_, fun j => ?_, fun j o ho => ?_⟩
  · have hsplit' := Finset.add_sum_erase Finset.univ (fun j =>
      Object.held (Function.update s.lives i ((s.lives i).after (s.objects i) call) j)
        (Function.update s.objects i ((m.run s.table).run).1 j)) (Finset.mem_univ i)
    simp only [Function.update_self] at hsplit'
    rw [Finset.sum_congr rfl hothers] at hsplit'
    rw [hout.live, hafter.accounts, ← hsplit', Layer.loss]
    abel
  · by_cases hj : j = i
    · subst hj
      simp only [Function.update_self]
      exact hafter.consistent
    · simp only [Function.update_of_ne hj]
      exact h.consistent j
  · by_cases hj : j = i
    · subst hj
      simp only [Function.update_self] at ho
      rcases hafter.stale o ho with hstale | ⟨hheld, hgone⟩
      · exact hout.dead o (h.stale j o hstale)
      · exact hout.dead_of_not_mem h.wellFormed hlive hheld hgone
    · simp only [Function.update_of_ne hj] at ho
      exact hout.dead o (h.stale j o ho)

/-- The third of the objects that `Finalize` destroys is gone already. -/
theorem MemoryPool.finalize_not_sound {pool : MemoryPool} {t : ObjectTable ObjectKind}
    (himport : pool.isImport = false) (hdead : t.Dead (.buffer, pool.vkStagingHostBuffer))
    (hne : pool.vkStagingHostBuffer ≠ 0) : ((pool.finalize.run t).run).2.sound = false := by
  let t₁ := ((destroy ObjectKind.buffer pool.vkStagingDeviceBuffer).run t).run.2
  let t₂ := ((destroy ObjectKind.deviceMemory pool.vkMemory).run t₁).run.2
  let t₃ := ((destroy ObjectKind.buffer pool.vkStagingHostBuffer).run t₂).run.2
  have hdead₂ : t₂.Dead (.buffer, pool.vkStagingHostBuffer) := hdead.destroy.destroy
  have hsound₃ : t₃.sound = false := not_sound_destroy_dead hdead₂ hne
  have hlast : ((pool.finalize.run t).run).2 =
      ((destroy ObjectKind.deviceMemory pool.vkStagingMemory).run t₃).run.2 := by
    rw [MemoryPool.finalize, if_neg (by simp [himport])]
    rfl
  cases hsound : ((pool.finalize.run t).run).2.sound with
  | false => rfl
  | true =>
      rw [hlast] at hsound
      exact absurd (sound_of_destroy hsound) (by simp [hsound₃])

/-- A call that is not safe destroys the host buffer of an earlier life. -/
theorem Layer.Accounts.not_sound (h : s.Accounts left) (htaken : s.next (i, call) = some s')
    (hdouble : ¬ (s.lives i).FinalizesSafely call) : s'.table.sound = false := by
  obtain ⟨-, m, hperform, rfl⟩ := Layer.next_eq_some htaken
  have hcall : call = .finalize ∧ (s.lives i).relocatedBefore = true ∧
      (s.lives i).relocated = false ∧ (s.lives i).everImported = false := by
    simpa [Life.FinalizesSafely, not_or] using hdouble
  obtain ⟨rfl, hbefore, hrelocated, hever⟩ := hcall
  have hconsistent := h.consistent i
  have hstale := h.stale i
  cases hobject : s.objects i with
  | memoryPool pool =>
      rw [hobject] at hperform hconsistent hstale
      cases hperform
      have hpool := hconsistent.pool pool rfl
      rw [Object.stale, if_pos ⟨hever, hbefore, hrelocated⟩] at hstale
      exact MemoryPool.finalize_not_sound (hpool.isImport.trans hever)
        (hstale _ (Multiset.mem_singleton_self _)) (hpool.vkStagingHostBuffer_ne (Or.inr hbefore))
  | _ =>
      rw [hobject] at hconsistent
      exact absurd (hconsistent.others rfl).2.1 (by simp [hbefore])

/-! ### Runs -/

/-- No finalisation where the host buffer is that of an earlier life. -/
def Layer.FinalizesSafely (s : Layer ι) (call : ι × Call) : Prop :=
  (s.lives call.1).FinalizesSafely call.2

theorem Layer.Accounts.reachable {objects : ι → Object} (h : ∀ i, (objects i).Zeroed)
    (hreach : Reachable Layer.next Layer.FinalizesSafely (Layer.start objects) s) :
    ∃ left, s.Accounts left :=
  hreach.invariant (P := fun s => ∃ left, s.Accounts left) ⟨0, Layer.Accounts.start h⟩
    fun ⟨_, haccounts⟩ hsafe htaken => ⟨_, haccounts.next htaken hsafe⟩

/-- Every object that a call destroys is there, all through a run, exactly if no memory pool is
finalised that was relocated in an earlier life and not in this one. A pool that was ever imported
destroys nothing. -/
theorem Layer.always_sound_iff {objects : ι → Object} (h : ∀ i, (objects i).Zeroed)
    (calls : List (ι × Call)) :
    Always Layer.next (fun s => s.table.sound = true) (Layer.start objects) calls ↔
      EveryStep Layer.next Layer.FinalizesSafely (Layer.start objects) calls := by
  refine always_iff_everyStep (P := fun s : Layer ι => s.table.sound = true) rfl ?_ calls
  intro s s' call hreach _ htaken
  obtain ⟨left, haccounts⟩ := Layer.Accounts.reachable h hreach
  constructor
  · intro hsound
    by_contra hdouble
    have hnot := haccounts.not_sound htaken hdouble
    exact absurd hsound (by simp [hnot])
  · exact fun hsafe => (haccounts.next htaken hsafe).sound

omit [Fintype ι] [DecidableEq ι] in
theorem Layer.always_sound_iff_relocatedOnce :
    ¬ Always Layer.next (fun s => s.table.sound = true)
      (Layer.start fun _ : Unit => .memoryPool MemoryPool.zero)
      [((), .initializeMemoryPool ⟨4096, 1⟩ 0), ((), .relocate), ((), .finalize),
        ((), .initializeMemoryPool ⟨4096, 1⟩ 1), ((), .finalize)] := by
  intro hsound
  have hevery := (Layer.always_sound_iff (fun _ => .memoryPool) _).mp hsound
  have hsafe := hevery [((), .initializeMemoryPool ⟨4096, 1⟩ 0), ((), .relocate), ((), .finalize),
    ((), .initializeMemoryPool ⟨4096, 1⟩ 1)] ((), .finalize) _ _ (List.prefix_refl _) rfl rfl
  exact absurd (hsafe rfl (by decide)) (by decide)

/-- The objects that the calls of a run leave. -/
def Layer.lost (s : Layer ι) : List (ι × Call) → Objects
  | [] => 0
  | call :: calls =>
    match s.next call with
    | none => 0
    | some s' => s.loss call + s'.lost calls

omit [Fintype ι] in
theorem Layer.lost_concat {t : Layer ι} {call : ι × Call} (hrun : run Layer.next s calls = some t)
    (htaken : t.next call = some s') : s.lost (calls ++ [call]) = s.lost calls + t.loss call := by
  induction calls generalizing s with
  | nil =>
      cases hrun
      simp only [List.nil_append, Layer.lost, htaken, add_zero, zero_add]
  | cons head calls ih =>
      rw [run_cons, Option.bind_eq_some_iff] at hrun
      obtain ⟨u, hu, hrun⟩ := hrun
      simp only [List.cons_append, Layer.lost, hu, ih hrun, add_assoc]

theorem Layer.Accounts.run {objects : ι → Object} (h : ∀ i, (objects i).Zeroed)
    (hsafe : EveryStep Layer.next Layer.FinalizesSafely (Layer.start objects) calls)
    (hrun : run Layer.next (Layer.start objects) calls = some s) :
    s.Accounts ((Layer.start objects).lost calls) := by
  refine run_invariant (I := fun calls s =>
    EveryStep Layer.next Layer.FinalizesSafely (Layer.start objects) calls →
      s.Accounts ((Layer.start objects).lost calls)) (fun _ => Layer.Accounts.start h) ?_ hrun hsafe
  intro calls call t t' hrun ih htaken hsafe
  rw [Layer.lost_concat hrun htaken]
  exact (ih hsafe.of_append).next htaken
    (hsafe calls call t t' (List.prefix_refl _) hrun htaken)

/-- A call that leaves nothing: it finalises no display buffer, and of what was ever imported only
what holds nothing. -/
def Layer.LeavesNothing (s : Layer ι) (call : ι × Call) : Prop :=
  call.2 = .finalize → (s.objects call.1).isDisplayBuffer = false ∧
    ((s.lives call.1).everImported = true →
      (s.lives call.1).phase = .imported ∧ (s.lives call.1).relocated = false)

theorem Object.Consistent.handles_ne_zero {object : Object} {life : Life}
    (h : object.Consistent life) (hphase : life.phase = .initialized)
    (hever : life.everImported = true) : object.handles ≠ 0 := by
  cases object with
  | memoryPool pool =>
      intro hzero
      have hmemory := owned_eq_zero_iff.mp (add_eq_zero.mp hzero).1
      exact (h.pool pool rfl).vkMemory_ne hphase hmemory
  | texture t => exact fun hzero => (h.others rfl).2.2.2 hphase (owned_eq_zero_iff.mp hzero)
  | displayBuffer d => exact absurd (h.others rfl).2.2.1 (by simp [hever])
  | _ => exact absurd (h.others rfl).2.2 (by simp [Object.Flags, hever])

theorem Object.Consistent.staging_ne_zero {object : Object} {life : Life}
    (h : object.Consistent life) (hrelocated : life.relocated = true) : object.staging ≠ 0 := by
  cases object with
  | memoryPool pool =>
      intro hzero
      have hhost := owned_eq_zero_iff.mp (add_eq_zero.mp hzero).1
      exact (h.pool pool rfl).vkStagingHostBuffer_ne (Or.inl hrelocated) hhost
  | _ => exact absurd (h.others rfl).1 (by simp [hrelocated])

theorem Object.Consistent.held_eq_zero_iff {object : Object} {life : Life}
    (h : object.Consistent life) (hup : life.phase ≠ .down) (hever : life.everImported = true) :
    object.held life = 0 ↔ life.phase = .imported ∧ life.relocated = false := by
  constructor
  · intro hzero
    obtain ⟨hhandles, hstaging⟩ := add_eq_zero.mp hzero
    constructor
    · cases hphase : life.phase with
      | down => exact absurd hphase hup
      | initialized =>
          rw [if_pos hphase] at hhandles
          exact absurd hhandles (h.handles_ne_zero hphase hever)
      | imported => rfl
    · cases hrelocated : life.relocated with
      | false => rfl
      | true =>
          rw [if_pos hrelocated] at hstaging
          exact absurd hstaging (h.staging_ne_zero hrelocated)
  · rintro ⟨hphase, hrelocated⟩
    rw [Object.held, if_neg (by simp [hphase]), if_neg (by simp [hrelocated]), add_zero]

theorem Object.Consistent.loss_displayBuffer_ne_zero {object : Object} {life : Life}
    (h : object.Consistent life) (hup : life.phase ≠ .down)
    (hdisplay : object.isDisplayBuffer = true) : object.loss life .finalize ≠ 0 := by
  cases object with
  | displayBuffer d =>
      obtain ⟨hever, -, hready⟩ := (h.others rfl).2.2
      have hphase := h.phase_eq hup hever
      exact fun hzero => (hready hphase).swapchain (owned_eq_zero_iff.mp hzero)
  | _ => cases hdisplay

theorem Layer.Accounts.loss_eq_zero_iff (h : s.Accounts left)
    (htaken : s.next (i, call) = some s') : s.loss (i, call) = 0 ↔ s.LeavesNothing (i, call) := by
  obtain ⟨hallowed, -⟩ := Layer.next_eq_some htaken
  have hconsistent := h.consistent i
  cases call with
  | finalize =>
      have hup : (s.lives i).phase ≠ .down := by simpa [Call.allowedIn] using hallowed
      cases hobject : (s.objects i).isDisplayBuffer with
      | true =>
          refine iff_of_false ?_ fun hleaves => absurd hobject (by simp [(hleaves rfl).1])
          exact hconsistent.loss_displayBuffer_ne_zero hup hobject
      | false =>
          rw [Layer.loss, Object.loss_finalize hobject]
          cases hever : (s.lives i).everImported with
          | false =>
              rw [if_neg (by simp)]
              exact iff_of_true rfl fun _ => ⟨hobject, fun h => absurd h (by simp [hever])⟩
          | true =>
              rw [if_pos rfl, hconsistent.held_eq_zero_iff hup hever]
              exact ⟨fun hzero _ => ⟨hobject, fun _ => hzero⟩, fun hleaves => (hleaves rfl).2 hever⟩
  | _ => exact iff_of_true rfl fun hfinalize => by cases hfinalize

theorem Layer.lost_eq_zero_iff {objects : ι → Object} (h : ∀ i, (objects i).Zeroed)
    (hsafe : EveryStep Layer.next Layer.FinalizesSafely (Layer.start objects) calls)
    (hrun : run Layer.next (Layer.start objects) calls = some s) :
    (Layer.start objects).lost calls = 0 ↔
      EveryStep Layer.next Layer.LeavesNothing (Layer.start objects) calls := by
  induction calls using List.reverseRecOn generalizing s with
  | nil => exact iff_of_true rfl everyStep_nil
  | append_singleton calls call ih =>
      obtain ⟨t, ht, htaken⟩ := run_concat_eq_some.mp hrun
      have haccounts := Layer.Accounts.run h hsafe.of_append ht
      rw [Layer.lost_concat ht htaken, add_eq_zero, everyStep_concat ht htaken,
        ih hsafe.of_append ht, haccounts.loss_eq_zero_iff htaken]

/-- After a run without an object that is destroyed twice the device has exactly the objects that
the program holds and those that its calls have left; these are none exactly if no display buffer
and nothing of its own that was ever imported is finalised. -/
theorem Layer.run_accounts {objects : ι → Object} (h : ∀ i, (objects i).Zeroed)
    (hsafe : EveryStep Layer.next Layer.FinalizesSafely (Layer.start objects) calls)
    (hrun : run Layer.next (Layer.start objects) calls = some s) :
    s.table.live.Nodup ∧
    s.table.live = ∑ i, (s.objects i).held (s.lives i) + (Layer.start objects).lost calls ∧
    ((Layer.start objects).lost calls = 0 ↔
      EveryStep Layer.next Layer.LeavesNothing (Layer.start objects) calls) := by
  have haccounts := Layer.Accounts.run h hsafe hrun
  exact ⟨haccounts.wellFormed.nodup, haccounts.live, Layer.lost_eq_zero_iff h hsafe hrun⟩

omit [Fintype ι] [DecidableEq ι] in
theorem Layer.run_accounts_importedTexture :
    let first := Layer.start fun _ : Unit => .texture Texture.zero
    let calls : List (Unit × Call) :=
      [((), .importImage 9), ((), .finalize), ((), .initializeObject), ((), .finalize)]
    first.lost calls ≠ 0 ∧ ∃ s, run Layer.next first calls = some s ∧
      s.table.live = ∑ i, (s.objects i).held (s.lives i) + first.lost calls := by
  intro first calls
  have hsafe : EveryStep Layer.next Layer.FinalizesSafely first calls := by
    have hconcat (calls : List (Unit × Call)) (call : Unit × Call) {t t' : Layer Unit} :=
      @everyStep_concat _ _ Layer.next Layer.FinalizesSafely first t t' calls call
    have himport := (hconcat [] ((), .importImage 9) rfl rfl).mpr ⟨everyStep_nil, nofun⟩
    have hleft := (hconcat _ ((), .finalize) rfl rfl).mpr ⟨himport, fun _ _ => Or.inr rfl⟩
    have hown := (hconcat _ ((), .initializeObject) rfl rfl).mpr ⟨hleft, nofun⟩
    exact (hconcat _ ((), .finalize) rfl rfl).mpr ⟨hown, fun _ _ => Or.inr rfl⟩
  obtain ⟨-, hlive, hlost⟩ := Layer.run_accounts (fun _ => .texture) hsafe rfl
  refine ⟨fun hnone => ?_, _, rfl, hlive⟩
  have hleaves := hlost.mp hnone [((), .importImage 9), ((), .finalize), ((), .initializeObject)]
    ((), .finalize) _ _ (List.prefix_refl _) rfl rfl
  exact absurd ((hleaves rfl).2 rfl).1 (by decide)

end DDFramework.DeviceObjects
