import DDFramework.Verification.Scheduler.Priority
import Mathlib.Data.List.Perm.Subperm

/-! # Bounded overtaking

While a fiber waits on its run list, fibers enter the list only behind it. The passes that could
dispatch it then dispatch fibers of higher priorities or, each at most once, the fibers that are
before it on its list. -/

namespace DDFramework

open UserScheduler SchedulerSystem

/-! ### The elements before an element -/

/-- The elements before the first occurrence of `a`. -/
def before {α : Type*} [DecidableEq α] (as : List α) (a : α) : List α :=
  as.take (as.idxOf a)

section Before

variable {α : Type*} [DecidableEq α] {as bs : List α} {a b : α}

theorem before_append_cons (h : a ∉ as) : before (as ++ a :: bs) a = as := by
  rw [before, List.idxOf_append_of_notMem h, List.idxOf_cons_self, Nat.add_zero,
    List.take_left]

theorem before_append (h : a ∈ as) : before (as ++ bs) a = before as a := by
  obtain ⟨front, back, rfl, hfront⟩ := List.eq_append_cons_of_mem h
  rw [List.append_assoc, List.cons_append, before_append_cons hfront, before_append_cons hfront]

theorem before_sublist_before (h : bs.Sublist as) (hnodup : as.Nodup) (ha : a ∈ bs) :
    (before bs a).Sublist (before as a) := by
  obtain ⟨front, back, rfl, hfront⟩ := List.eq_append_cons_of_mem ha
  obtain ⟨as₁, as₂, rfl, hleft, hright⟩ := List.append_sublist_iff.mp h
  obtain ⟨front₂, back₂, rfl, hfront₂⟩ :=
    List.eq_append_cons_of_mem (hright.subset List.mem_cons_self)
  have hnot : a ∉ as₁ ++ front₂ := by
    rw [List.mem_append, not_or]
    exact ⟨fun hmem => (List.nodup_append.mp hnodup).2.2 a hmem a (by simp) rfl, hfront₂⟩
  rw [before_append_cons hfront, ← List.append_assoc, before_append_cons hnot]
  exact hleft.trans (List.sublist_append_left ..)

/-- An element with a smaller key is before `a`. -/
theorem mem_before_of_lt {key : α → ℕ} (h : as.Pairwise fun b c => key b < key c) (ha : a ∈ as)
    (hb : b ∈ as) (hlt : key b < key a) : b ∈ before as a := by
  obtain ⟨front, back, rfl, hfront⟩ := List.eq_append_cons_of_mem ha
  rw [before_append_cons hfront]
  rcases List.mem_append.mp hb with hb | hb
  · exact hb
  · rcases List.mem_cons.mp hb with rfl | hb
    · exact absurd hlt (Nat.lt_irrefl _)
    · have hgt := List.rel_of_pairwise_cons (List.pairwise_append.mp h).2.1 hb
      exact absurd hlt (Nat.lt_asymm hgt)

end Before

namespace TimedSystem

variable {t t' : TimedSystem} {l : RunList} {f g : FiberId} {fs fs' : List FiberId} {e : ℕ}
  {call : SchedulerCall} {calls : List SchedulerCall}

/-- The fiber is on the run list, and it has entered it in the step `e`. -/
structure WaitsSince (l : RunList) (e : ℕ) (g : FiberId) (t : TimedSystem) : Prop where
  listed : t.system.listOf g = some (.runList l)
  entered : t.enteredAt g = e

/-- The fibers on the run list. -/
abbrev Queue (t : TimedSystem) (l : RunList) (fs : List FiberId) : Prop :=
  t.system.scheduler.links.Ring (.runList l) (fs.map .schedulerListNode)

/-- If the call is a pass at which the fiber may run, what the pass dispatches, and its
priority. -/
def chance (t : TimedSystem) (g : FiberId) : SchedulerCall → Option (Option (FiberId × ℤ))
  | .pass core tick =>
      if t.system.scheduler.Eligible core tick g then
        match t.system.scheduler.schedulerPass passFuel core tick with
        | .ok (_, some f) => some (some (f, (t.system.scheduler.fibers f).priority))
        | _ => some none
      else none
  | _ => none

/-- The passes of a run at which the fiber may run. -/
def chances (t : TimedSystem) (g : FiberId) : List SchedulerCall → List (Option (FiberId × ℤ))
  | [] => []
  | call :: calls =>
      match t.next call with
      | some t' => (t.chance g call).toList ++ t'.chances g calls
      | none => []

/-! ### One step -/

theorem Timely.mem_queue (h : Timely t) (hq : t.Queue l fs) (f : FiberId) :
    f ∈ fs ↔ t.system.listOf f = some (.runList l) :=
  h.placed.filed.mem_ring_iff (Node.isSchedulerList_runList l) hq f

theorem Timely.exists_queue (h : Timely t) (l : RunList) : ∃ fs, t.Queue l fs := by
  obtain ⟨fs, hq, -⟩ := h.placed.filed.ring (.runList l) (Node.isSchedulerList_runList l)
  exact ⟨fs, hq⟩

theorem Timely.nodup_queue (h : Timely t) (hq : t.Queue l fs) : fs.Nodup :=
  (h.ordered l fs hq).1.imp fun hlt => ne_of_apply_ne t.enteredAt hlt.ne

/-- Nobody gets before a fiber that waits. -/
theorem Timely.before_sublist (h : Timely t) (hnext : t.next call = some t')
    (hwaits : WaitsSince l e g t) (hwaits' : WaitsSince l e g t') (hq : t.Queue l fs)
    (hq' : t'.Queue l fs') : (before fs' g).Sublist (before fs g) := by
  obtain ⟨c, hcall, rfl⟩ := Option.map_eq_some_iff.mp hnext
  obtain ⟨kept, new, hkept, -, hnew, hring⟩ := h.placed.moves hcall l fs hq
  have heq : fs' = kept ++ new :=
    List.map_injective_iff.mpr @Node.schedulerListNode.inj (hq'.unique hring)
  have hmem : g ∈ fs := (h.mem_queue hq g).mpr hwaits.listed
  have hmem' : g ∈ kept ++ new :=
    heq ▸ ((h.next hnext).mem_queue hq' g).mpr hwaits'.listed
  -- `g` has not entered in this step, or the time of its entry would be that of the step
  have hstays : g ∈ kept := by
    refine (List.mem_append.mp hmem').resolve_right fun hgnew => ?_
    have hentering : t.system.entering call c = some g := Option.mem_toList.mp (hnew.subset hgnew)
    have hpast := (h.ordered l fs hq).2 g hmem
    have hnow := hwaits'.entered
    simp only [hentering, stamp, Function.update_self] at hnow
    rw [hwaits.entered, ← hnow] at hpast
    exact Nat.lt_irrefl _ hpast
  rw [heq, before_append hstays]
  exact before_sublist_before hkept (h.nodup_queue hq) hstays

/-- The fiber that a pass dispatches runs, and is on no list. -/
theorem Timely.not_mem_of_dispatch (h : Timely t) {core : ℕ} {tick : BitVec 64}
    {s : UserScheduler} (hnext : t.next (.pass core tick) = some t')
    (hpass : t.system.scheduler.schedulerPass passFuel core tick = .ok (s, some f))
    (hq' : t'.Queue l fs') : f ∉ fs' := by
  obtain ⟨c, hcall, ht'⟩ := Option.map_eq_some_iff.mp hnext
  have hcontext : t'.system.contexts core = .running f := by
    have hc := (perform_pass.mp hcall).2
    simp only [SchedulerSystem.pass, hpass, ok_bind] at hc
    cases hc
    rw [← ht']
    exact Function.update_self ..
  have htimely := h.next hnext
  obtain ⟨hlive, hstate, -⟩ := (htimely.placed.running core f).mp hcontext
  rw [htimely.mem_queue hq', listOf_of_live hlive, recordList_of_running hstate]
  exact nofun

/-- A fiber that is dispatched while `g` may run has a higher priority, or is before it. -/
theorem Timely.chance_eq (h : Timely t) (hnext : t.next call = some t')
    (hwaits : WaitsSince l e g t) (hwaits' : WaitsSince l e g t') (hq : t.Queue l fs)
    (hq' : t'.Queue l fs') {o : Option (FiberId × ℤ)} (hchance : t.chance g call = some o) :
    ∃ f priority, o = some (f, priority) ∧ (storedPriority l < priority ∨
      priority = storedPriority l ∧ f ∈ before fs g ∧ f ∉ fs') := by
  cases call with
  | pass core tick =>
      simp only [chance] at hchance
      split_ifs at hchance with heligible
      obtain ⟨c, hcall, -⟩ := Option.map_eq_some_iff.mp hnext
      have hscheduling := (perform_pass.mp hcall).1.2
      have hg := live_of_listOf hwaits.listed
      split at hchance
      next s f hpass =>
        cases hchance
        refine ⟨f, _, rfl, ?_⟩
        have hgone := h.not_mem_of_dispatch hnext hpass hq'
        have hne : g ≠ f := by
          rintro rfl
          exact hgone (((h.next hnext).mem_queue hq' g).mpr hwaits'.listed)
        have hpriority := priority_of_listOf hwaits.listed
        obtain ⟨hf, hfeligible, hprecedes⟩ := h.dispatched hpass
        rcases hprecedes g hg hne heligible with hhigher | ⟨hsame, hearlier⟩
        · exact Or.inl (hpriority ▸ hhigher)
        · refine Or.inr ⟨hsame.symm.trans hpriority, ?_, hgone⟩
          have hlist : t.system.listOf f = t.system.listOf g := by
            rw [listOf_of_live hf, listOf_of_live hg, recordList, recordList,
              hfeligible.scheduled, heligible.scheduled, hsame]
          refine mem_before_of_lt (h.ordered l fs hq).1 ((h.mem_queue hq g).mpr hwaits.listed)
            ((h.mem_queue hq f).mpr (hlist.trans hwaits.listed)) hearlier
      next hnone =>
        exact absurd heligible (h.not_dispatched hscheduling (fun s f => hnone s f) g hg)
  | _ => cases hchance

/-! ### Runs -/

theorem Timely.chances_eq (h : Timely t) (hq : t.Queue l fs)
    (hwaits : Machine.Always TimedSystem.next (WaitsSince l e g) t calls) :
    ∃ overtakers : List (FiberId × ℤ), t.chances g calls = overtakers.map some ∧
      (∀ o ∈ overtakers, storedPriority l ≤ o.2) ∧
      ((overtakers.filter (·.2 = storedPriority l)).map Prod.fst).Subperm (before fs g) := by
  induction calls generalizing t fs with
  | nil => exact ⟨[], rfl, nofun, List.nil_subperm⟩
  | cons call calls ih =>
      cases hnext : t.next call with
      | none => exact ⟨[], by simp [chances, hnext], nofun, List.nil_subperm⟩
      | some t' =>
          have htimely := h.next hnext
          have hrest := hwaits.tail hnext
          obtain ⟨fs', hq'⟩ := htimely.exists_queue l
          obtain ⟨overtakers, hchances, hpriority, hbefore⟩ := ih htimely hq' hrest
          have hshrinks := h.before_sublist hnext hwaits.head hrest.head hq hq'
          cases hchance : t.chance g call with
          | none =>
              refine ⟨overtakers, by simp [chances, hnext, hchance, hchances], hpriority, ?_⟩
              exact hbefore.trans hshrinks.subperm
          | some o =>
              obtain ⟨f, priority, rfl, hf⟩ :=
                h.chance_eq hnext hwaits.head hrest.head hq hq' hchance
              refine ⟨(f, priority) :: overtakers, by simp [chances, hnext, hchance, hchances],
                ?_, ?_⟩
              · refine List.forall_mem_cons.mpr ⟨?_, hpriority⟩
                rcases hf with hhigher | ⟨hsame, -⟩
                · exact hhigher.le
                · exact hsame.ge
              · rcases hf with hhigher | ⟨rfl, hmem, hgone⟩
                · rw [List.filter_cons_of_neg (by simpa using hhigher.ne')]
                  exact hbefore.trans hshrinks.subperm
                · rw [List.filter_cons_of_pos (by simp), List.map_cons]
                  refine List.cons_subperm_of_not_mem_of_mem (fun hagain => ?_) hmem
                    (hbefore.trans hshrinks.subperm)
                  exact hgone (List.mem_of_mem_take (hbefore.subset hagain))

/-- As long as a fiber waits, the passes at which it may run each dispatch another fiber, of its
priority or a higher one. Those of its priority have been before it on its list, and each is
dispatched once; so without fibers of higher priorities there are no more such passes than its
place on the list. -/
theorem reaches_bounded_overtaking {start : SchedulerSystem} {words : Address → BitVec 32}
    {coreMask : BitVec 64} (hstart : initialSystem words coreMask = .ok start)
    (h : Machine.Reaches next (begin start) t) (hq : t.Queue l fs)
    (hwaits : Machine.Always next (WaitsSince l e g) t calls) :
    ∃ overtakers : List (FiberId × ℤ), t.chances g calls = overtakers.map some ∧
      (∀ o ∈ overtakers, storedPriority l ≤ o.2) ∧
      ((overtakers.filter (·.2 = storedPriority l)).map Prod.fst).Subperm (before fs g) ∧
      overtakers.length ≤ fs.idxOf g + overtakers.countP (storedPriority l < ·.2) := by
  obtain ⟨overtakers, hchances, hpriority, hbefore⟩ :=
    (timely_of_reaches hstart h).chances_eq hq hwaits
  refine ⟨overtakers, hchances, hpriority, hbefore, ?_⟩
  have hsame : overtakers.countP (·.2 = storedPriority l) ≤ fs.idxOf g := by
    have hle := hbefore.length_le
    rw [List.length_map, ← List.countP_eq_length_filter] at hle
    exact hle.trans (List.length_take_le ..)
  have hhigher : overtakers.countP (fun o => ¬ decide (o.2 = storedPriority l) = true) =
      overtakers.countP (storedPriority l < ·.2) := by
    refine List.countP_congr fun o ho => ?_
    simpa using (hpriority o ho).lt_iff_ne'.symm
  rw [List.length_eq_countP_add_countP (·.2 = storedPriority l), hhigher]
  exact Nat.add_le_add_right hsame _

/-- The main fiber has yielded behind a fiber of its priority, and one of a higher priority is
dispatched first. -/
theorem reaches_bounded_overtaking_yield : ∃ start t fs,
    initialSystem (fun _ => 0) 1 = .ok start ∧ Machine.Reaches next (begin start) t ∧
    t.Queue .normal fs ∧
    t.chances 0 [.pass 0 1, .exitFiber 0, .pass 0 1] = [some (2, 3), some (1, 2)] ∧
    1 ∈ before fs 0 := by
  have hrun : ((initialSystem (fun _ => 0) 1).toOption.bind fun c =>
      Machine.run next (begin c) [.createThread 1 1 0 0, .createThread 1 1 1 0, .setActivity 1 1,
        .setActivity 2 1, .sleepThread 0 0]).any (fun t =>
          decide (t.chances 0 [.pass 0 1, .exitFiber 0, .pass 0 1] = [some (2, 3), some (1, 2)]) &&
          [.pass 0 1, .exitFiber 0, .pass 0 1].inits.all fun bs => (Machine.run next t bs).all
            fun u => decide (u.system.listOf 0 = some (.runList .normal)) &&
              decide (u.enteredAt 0 = 4)) = true := by
    decide +kernel
  obtain ⟨t, ht, hmain⟩ := (Option.any_eq_true _ _).mp hrun
  obtain ⟨start, hstart, hrun⟩ := Option.bind_eq_some_iff.mp ht
  rw [toOption_eq_some] at hstart
  rw [Bool.and_eq_true, decide_eq_true_eq, List.all_eq_true] at hmain
  obtain ⟨hchances, hinits⟩ := hmain
  have hwaits : Machine.Always next (WaitsSince .normal 4 0) t
      [.pass 0 1, .exitFiber 0, .pass 0 1] := by
    intro bs u hbs hu
    have hstate := hinits bs ((List.mem_inits ..).mpr hbs)
    simp only [hu, Option.all_some, Bool.and_eq_true, decide_eq_true_eq] at hstate
    exact ⟨hstate.1, hstate.2⟩
  have hreach := Machine.Reaches.of_run hrun
  obtain ⟨fs, hq⟩ := (timely_of_reaches hstart hreach).exists_queue .normal
  obtain ⟨overtakers, hmap, -, hbefore, -⟩ := reaches_bounded_overtaking hstart hreach hq hwaits
  have hovertakers : overtakers = [(2, 3), (1, 2)] := by
    refine List.map_injective_iff.mpr (Option.some_injective _) ?_
    rw [← hmap, hchances]
    rfl
  rw [hovertakers] at hbefore
  exact ⟨start, t, fs, hstart, hreach, hq, hchances, hbefore.subset (by decide)⟩

end TimedSystem

end DDFramework
