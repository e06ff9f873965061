import Mathlib.Data.List.Basic
import Mathlib.Data.List.Infix

/-! # Machines with labelled steps

A machine takes the step `a` in a state `s` when `next s a` is a state. Its runs are
lists of labels. -/

namespace DDFramework

namespace Machine

variable {σ α : Type*} {next : σ → α → Option σ}

/-- The state after a run; `none` when one of its steps cannot be taken. -/
def run (next : σ → α → Option σ) (s : σ) (as : List α) : Option σ :=
  as.foldlM next s

@[simp] theorem run_nil (s : σ) : run next s [] = some s := rfl

@[simp] theorem run_cons (s : σ) (a : α) (as : List α) :
    run next s (a :: as) = (next s a).bind (fun s' => run next s' as) := rfl

theorem run_append (s : σ) (as bs : List α) :
    run next s (as ++ bs) = (run next s as).bind (fun s' => run next s' bs) := by
  simp [run]

theorem run_concat_eq_some {s s' : σ} {as : List α} {a : α} :
    run next s (as ++ [a]) = some s' ↔ ∃ t, run next s as = some t ∧ next t a = some s' := by
  simp [run_append, Option.bind_eq_some_iff]

theorem run_prefix_eq_some {s s' : σ} {as bs : List α} (hinitial : as <+: bs)
    (h : run next s bs = some s') : ∃ t, run next s as = some t := by
  obtain ⟨cs, rfl⟩ := hinitial
  rw [run_append, Option.bind_eq_some_iff] at h
  obtain ⟨t, ht, -⟩ := h
  exact ⟨t, ht⟩

/-- What holds of the empty history at the start and what every step of a run keeps holds of the
history and the state of every run. -/
theorem run_invariant {s s' : σ} {as : List α} {I : List α → σ → Prop} (hstart : I [] s)
    (hstep : ∀ {as : List α} {a : α} {t t' : σ}, run next s as = some t → I as t →
      next t a = some t' → I (as ++ [a]) t')
    (h : run next s as = some s') : I as s' := by
  induction as using List.reverseRecOn generalizing s' with
  | nil =>
      rw [run_nil, Option.some.injEq] at h
      exact h ▸ hstart
  | append_singleton as a ih =>
      obtain ⟨t, ht, hs⟩ := run_concat_eq_some.mp h
      exact hstep ht (ih ht) hs

/-- Machines that can take the same steps from related states, into related states, have
the same runs. -/
theorem run_rel {τ : Type*} {next' : τ → α → Option τ} {R : σ → τ → Prop}
    (hstep : ∀ s t a, R s t → Option.Rel R (next s a) (next' t a)) {s : σ} {t : τ} (h : R s t)
    (as : List α) : Option.Rel R (run next s as) (run next' t as) := by
  induction as generalizing s t with
  | nil => exact .some h
  | cons a as ih =>
      have hrel := hstep s t a h
      rw [run_cons, run_cons]
      generalize next s a = o, next' t a = o' at hrel ⊢
      cases hrel with
      | none => exact .none
      | some h' => exact ih h'

/-- The states of the runs whose steps are `allowed` where they are taken. -/
inductive Reachable (next : σ → α → Option σ) (allowed : σ → α → Prop) (start : σ) : σ → Prop
  | start : Reachable next allowed start start
  | step {s s' : σ} {a : α} (reachable : Reachable next allowed start s) (allow : allowed s a)
      (taken : next s a = some s') : Reachable next allowed start s'

variable {start : σ} {allowed : σ → α → Prop} {P : σ → Prop}

/-- What holds at the start and what every allowed step keeps holds in every state. -/
theorem Reachable.invariant {s : σ} (h : Reachable next allowed start s) (hstart : P start)
    (hstep : ∀ {s s' : σ} {a : α}, P s → allowed s a → next s a = some s' → P s') : P s := by
  induction h with
  | start => exact hstart
  | step _ hallow htaken ih => exact hstep ih hallow htaken

theorem Reachable.mono {allowed' : σ → α → Prop} {s : σ} (h : Reachable next allowed start s)
    (hle : ∀ s a, allowed s a → allowed' s a) : Reachable next allowed' start s := by
  induction h with
  | start => exact .start
  | step _ hallow htaken ih => exact .step ih (hle _ _ hallow) htaken

/-- Every state of every run. -/
abbrev Reaches (next : σ → α → Option σ) (start : σ) : σ → Prop :=
  Reachable next (fun _ _ => True) start

theorem Reaches.of_run {s : σ} {as : List α} (h : run next start as = some s) :
    Reaches next start s :=
  run_invariant (I := fun _ s => Reaches next start s) .start
    (fun _ ih htaken => .step ih trivial htaken) h

/-- A run that takes only allowed steps, as a computation. -/
theorem Reachable.of_run [∀ s a, Decidable (allowed s a)] {s : σ} {as : List α}
    (h : run (fun s a => if allowed s a then next s a else none) start as = some s) :
    Reachable next allowed start s := by
  refine run_invariant (I := fun _ s => Reachable next allowed start s) .start ?_ h
  intro as a t t' _ ih htaken
  rw [Option.ite_none_right_eq_some] at htaken
  exact .step ih htaken.1 htaken.2

/-! ### Properties along a run -/

/-- `P` holds in every state of the run. -/
def Always (next : σ → α → Option σ) (P : σ → Prop) (s : σ) (as : List α) : Prop :=
  ∀ bs t, bs <+: as → run next s bs = some t → P t

/-- `C` holds wherever the run takes a step. -/
def EveryStep (next : σ → α → Option σ) (C : σ → α → Prop) (s : σ) (as : List α) : Prop :=
  ∀ bs a t t', bs ++ [a] <+: as → run next s bs = some t → next t a = some t' → C t a

theorem Always.of_append {s : σ} {as : List α} {a : α}
    (h : Always next P s (as ++ [a])) : Always next P s as :=
  fun bs t hbs => h bs t (hbs.trans (List.prefix_append as [a]))

theorem Always.head {s : σ} {as : List α} (h : Always next P s as) : P s :=
  h [] s List.nil_prefix rfl

theorem Always.tail {s s' : σ} {a : α} {as : List α} (h : Always next P s (a :: as))
    (htaken : next s a = some s') : Always next P s' as := by
  intro bs t hbs hrun
  refine h (a :: bs) t (List.cons_prefix_cons.mpr ⟨rfl, hbs⟩) ?_
  rw [run_cons, htaken]
  exact hrun

theorem EveryStep.of_append {C : σ → α → Prop} {s : σ} {as : List α} {a : α}
    (h : EveryStep next C s (as ++ [a])) : EveryStep next C s as :=
  fun bs b t t' hbs => h bs b t t' (hbs.trans (List.prefix_append as [a]))

/-- A run meets `C` everywhere exactly if it does so up to its last step and there. -/
theorem everyStep_concat {C : σ → α → Prop} {s t t' : σ} {as : List α} {a : α}
    (hrun : run next s as = some t) (htaken : next t a = some t') :
    EveryStep next C s (as ++ [a]) ↔ EveryStep next C s as ∧ C t a := by
  constructor
  · intro h
    exact ⟨h.of_append, h as a t t' (List.prefix_refl _) hrun htaken⟩
  · rintro ⟨h, hlast⟩ bs b u u' hbs hu hu'
    rcases List.prefix_concat_iff.mp hbs with heq | hbs
    · obtain ⟨rfl, hlabel⟩ := List.append_inj' heq rfl
      cases hlabel
      cases hrun.symm.trans hu
      exact hlast
    · exact h bs b u u' hbs hu hu'

theorem everyStep_nil {C : σ → α → Prop} {s : σ} : EveryStep next C s [] := by
  intro bs a t t' hbs
  simp at hbs

/-- A run whose steps all meet `C` stays in the states that such steps reach. -/
theorem EveryStep.reachable {C : σ → α → Prop} {s : σ} {as : List α}
    (h : EveryStep next C start as) (hrun : run next start as = some s) :
    Reachable next C start s := by
  refine run_invariant (I := fun as s => EveryStep next C start as → Reachable next C start s)
    (fun _ => .start) ?_ hrun h
  intro as a t t' ht ih htaken hevery
  exact .step (ih hevery.of_append) (hevery as a t t' (List.prefix_refl _) ht htaken) htaken

theorem always_of_everyStep {C : σ → α → Prop} {as : List α}
    (hP : ∀ s, Reachable next C start s → P s) (h : EveryStep next C start as) :
    Always next P start as := by
  intro bs t hbs hrun
  refine hP t (EveryStep.reachable ?_ hrun)
  exact fun cs a u u' hcs => h cs a u u' (hcs.trans hbs)

/-- When a step of the kind `D` leads from a good state to a good state exactly if it meets
`C`, the good runs with such steps are the runs that meet `C`. -/
theorem always_iff_everyStep_of {C D : σ → α → Prop} (hstart : P start)
    (hstep : ∀ {s s' : σ} {a : α}, Reachable next (fun s a => D s a ∧ C s a) start s → P s →
      D s a → next s a = some s' → (P s' ↔ C s a)) (as : List α) (hD : EveryStep next D start as) :
    Always next P start as ↔ EveryStep next C start as := by
  have hgood : ∀ s, Reachable next (fun s a => D s a ∧ C s a) start s → P s := by
    intro s hs
    induction hs with
    | start => exact hstart
    | step hreach hallow htaken ih => exact (hstep hreach ih hallow.1 htaken).mpr hallow.2
  constructor
  · intro h
    induction as using List.reverseRecOn with
    | nil => exact everyStep_nil
    | append_singleton as a ih =>
        intro bs b t t' hbs hrun htaken
        have hmet := ih hD.of_append h.of_append
        have hP' : P t' := h _ t' hbs (run_concat_eq_some.mpr ⟨t, hrun, htaken⟩)
        have hinitial : bs <+: as := by
          rcases List.prefix_concat_iff.mp hbs with heq | hbs
          · exact List.append_inj_left' heq rfl ▸ List.prefix_refl bs
          · exact (List.prefix_append bs [b]).trans hbs
        have hreach : Reachable next (fun s a => D s a ∧ C s a) start t := by
          refine EveryStep.reachable (fun cs c u u' hcs hu hu' => ⟨?_, ?_⟩) hrun
          · exact hD.of_append cs c u u' (hcs.trans hinitial) hu hu'
          · exact hmet cs c u u' (hcs.trans hinitial) hu hu'
        exact (hstep hreach (hgood t hreach) (hD bs b t t' hbs hrun htaken) htaken).mp hP'
  · intro h
    exact always_of_everyStep hgood fun bs a t t' hbs hrun htaken =>
      ⟨hD bs a t t' hbs hrun htaken, h bs a t t' hbs hrun htaken⟩

/-- When a step leads from a good state to a good state exactly if it meets `C`, the good
runs are the runs that meet `C`. -/
theorem always_iff_everyStep {C : σ → α → Prop} (hstart : P start)
    (hstep : ∀ {s s' : σ} {a : α}, Reachable next C start s → P s → next s a = some s' →
      (P s' ↔ C s a)) (as : List α) :
    Always next P start as ↔ EveryStep next C start as :=
  always_iff_everyStep_of (D := fun _ _ => True) hstart
    (fun hreach hP _ htaken => hstep (hreach.mono fun _ _ h => h.2) hP htaken) as
    fun _ _ _ _ _ _ _ => trivial

end Machine

end DDFramework
