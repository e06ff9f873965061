import Mathlib.Data.List.Induction

/-! # Traces

A trace is a list of events, the first one first, so it grows at its end. -/

namespace DDFramework

namespace Trace

variable {ε : Type*} {t : List ε}

/-- `Q` relates every event to the events before it. -/
def Everywhere (Q : List ε → ε → Prop) (t : List ε) : Prop :=
  ∀ before e after, t = before ++ e :: after → Q before e

variable {Q : List ε → ε → Prop}

@[simp] theorem everywhere_nil : Everywhere Q [] := by
  intro before e after h
  simp at h

@[simp] theorem everywhere_concat {e : ε} :
    Everywhere Q (t ++ [e]) ↔ Everywhere Q t ∧ Q t e := by
  constructor
  · intro h
    constructor
    · intro before x after ht
      exact h before x (after ++ [e]) (by simp [ht])
    · exact h t e [] rfl
  · intro h before x after ht
    induction after using List.reverseRecOn with
    | nil =>
        have heq := List.append_inj' ht rfl
        rw [← heq.1, List.head_eq_of_cons_eq heq.2.symm]
        exact h.2
    | append_singleton after y _ =>
        refine h.1 before x after ?_
        rw [← List.cons_append, ← List.append_assoc] at ht
        exact (List.append_inj' ht rfl).1

/-- Some `start` has happened, judged by the events before it, and no `stop` after it. -/
def SinceWhen (stop : ε → Prop) (start : List ε → ε → Prop) (t : List ε) : Prop :=
  ∃ before e after, t = before ++ e :: after ∧ start before e ∧ ∀ x ∈ after, ¬ stop x

@[simp] theorem sinceWhen_nil {stop : ε → Prop} {start : List ε → ε → Prop} :
    ¬ SinceWhen stop start [] := by
  rintro ⟨before, e, after, h, -⟩
  simp at h

@[simp] theorem sinceWhen_concat {stop : ε → Prop} {start : List ε → ε → Prop} {e : ε} :
    SinceWhen stop start (t ++ [e]) ↔ start t e ∨ SinceWhen stop start t ∧ ¬ stop e := by
  constructor
  · rintro ⟨before, x, after, ht, hstart, hstop⟩
    induction after using List.reverseRecOn with
    | nil =>
        obtain ⟨rfl, heq⟩ := List.append_inj' ht rfl
        exact .inl (List.head_eq_of_cons_eq heq ▸ hstart)
    | append_singleton after y _ =>
        rw [← List.cons_append, ← List.append_assoc] at ht
        have heq := List.append_inj' ht rfl
        refine .inr ⟨⟨before, x, after, heq.1, hstart, fun z hz => hstop z (by simp [hz])⟩, ?_⟩
        rw [List.head_eq_of_cons_eq heq.2]
        exact hstop y (by simp)
  · rintro (hstart | ⟨⟨before, x, after, ht, hstart, hstop⟩, he⟩)
    · exact ⟨t, e, [], rfl, hstart, by simp⟩
    · refine ⟨before, x, after ++ [e], by simp [ht], hstart, fun y hy => ?_⟩
      rcases List.mem_append.mp hy with hy | hy
      · exact hstop y hy
      · exact List.mem_singleton.mp hy ▸ he

/-- Some `start` has happened, and no `stop` after the last one. -/
def Since (stop start : ε → Prop) (t : List ε) : Prop :=
  ∃ before e after, t = before ++ e :: after ∧ start e ∧ ∀ x ∈ after, ¬ stop x

variable {stop start : ε → Prop}

theorem since_iff_sinceWhen : Since stop start t ↔ SinceWhen stop (fun _ => start) t := Iff.rfl

@[simp] theorem since_nil : ¬ Since stop start [] := by
  rw [since_iff_sinceWhen]
  exact sinceWhen_nil

@[simp] theorem since_concat {e : ε} :
    Since stop start (t ++ [e]) ↔ start e ∨ Since stop start t ∧ ¬ stop e := by
  rw [since_iff_sinceWhen, since_iff_sinceWhen]
  exact sinceWhen_concat

/-- A `start` is one since the last `stop`, or it was one at some `stop`. -/
theorem since_or_since_at_stop {a : ε} (ha : a ∈ t) (hstart : start a) :
    Since stop start t ∨
      ∃ before x, before ++ [x] <+: t ∧ stop x ∧ Since stop start before := by
  induction t using List.reverseRecOn with
  | nil => simp at ha
  | append_singleton t e ih =>
      rw [since_concat]
      rcases List.mem_append.mp ha with ha | ha
      · rcases ih ha with hsince | ⟨before, x, hx, hstop, hsince⟩
        · by_cases he : stop e
          · exact .inr ⟨t, e, List.prefix_refl _, he, hsince⟩
          · exact .inl (.inr ⟨hsince, he⟩)
        · exact .inr ⟨before, x, hx.trans (List.prefix_append t [e]), hstop, hsince⟩
      · exact .inl (.inl (List.mem_singleton.mp ha ▸ hstart))

end Trace

end DDFramework
