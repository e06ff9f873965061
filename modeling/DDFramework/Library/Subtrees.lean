import DDFramework.Library.Forest

/-! # Taking subtrees apart

A subtree is taken apart when each of its nodes becomes a single root. The nodes that are
reached by first children alone are the whole subtree when no node has two children. -/

namespace DDFramework

namespace Forest

variable {α : Type*} {F : Forest α} {x y z p : α}

/-! ### Nodes below a node -/

theorem Below.of_parent (h : F.Below y x) (hne : y ≠ x) (hp : F.parent y = some p) :
    F.Below p x := by
  rcases Relation.ReflTransGen.cases_head h with he | ⟨q, hq, hbelow⟩
  · exact (hne he).elim
  · rw [hp, Option.some.injEq] at hq
    exact hq ▸ hbelow

theorem Below.parent_ne_none (h : F.Below y x) (hne : y ≠ x) : F.parent y ≠ none := by
  rcases Relation.ReflTransGen.cases_head h with he | ⟨q, hq, -⟩
  · exact (hne he).elim
  · simp [hq]

theorem Below.child (h : F.Below p x) (hy : y ∈ F.children p) : F.Below y x :=
  Relation.ReflTransGen.head ((F.mem_children y p).mp hy) h

/-- The node above a subtree is not in it. -/
theorem notMem_children_of_below (h : F.Below p x) : x ∉ F.children p := by
  intro hx
  exact F.acyclic x (Relation.TransGen.head' ((F.mem_children x p).mp hx) h)

/-- A sibling of a node outside the subtree is the root of the subtree or outside as well. -/
theorem eq_of_mem_siblings_of_below (hy : ¬ F.Below y x) (hz : z ∈ F.siblings y)
    (hbelow : F.Below z x) : z = x := by
  by_contra hne
  cases hp : F.parent z with
  | none => exact hbelow.parent_ne_none hne hp
  | some p =>
      have hyp : F.parent y = some p := (parent_eq_of_mem hz).symm.trans hp
      exact hy (Relation.ReflTransGen.head hyp (hbelow.of_parent hne hp))

theorem detach_below_iff [DecidableEq α] : (F.detach x).Below y x ↔ F.Below y x := by
  refine ⟨Below.of_detach, fun h => ?_⟩
  induction h using Relation.ReflTransGen.head_induction_on with
  | refl => exact .refl
  | @head y p hp _ ih =>
      by_cases hy : y = x
      · rw [hy]
        exact .refl
      · exact ih.head (by simp [detach, hy, hp])

/-! ### Taking apart -/

open Classical in
/-- Each node of the subtree of `x` becomes a single root. -/
noncomputable def takeApart [DecidableEq α] (F : Forest α) (x : α) : Forest α where
  parent y := if F.Below y x then none else F.parent y
  children p := if F.Below p x then [] else (F.children p).erase x
  siblings y := if F.Below y x then [y] else (F.siblings y).erase x
  mem_children := by
    intro y p
    by_cases hp : F.Below p x
    · by_cases hy : F.Below y x
      · simp [hp, hy]
      · simp only [hp, hy, if_true, if_false, List.not_mem_nil, false_iff]
        exact fun hparent => hy (hp.head hparent)
    · rw [if_neg hp, (F.nodup_children p).mem_erase_iff, F.mem_children]
      by_cases hy : F.Below y x
      · simp only [hy, if_true, reduceCtorEq, iff_false]
        exact fun h => hp (hy.of_parent h.1 h.2)
      · have hne : y ≠ x := fun he => hy (he ▸ .refl)
        simp [hy, hne]
  mem_siblings := by
    intro y
    by_cases hy : F.Below y x
    · simp [hy]
    · rw [if_neg hy, (F.nodup_siblings y).mem_erase_iff]
      exact ⟨fun he => hy (he ▸ .refl), F.mem_siblings y⟩
  nodup_siblings := by
    intro y
    by_cases hy : F.Below y x
    · simp [hy]
    · rw [if_neg hy]
      exact (F.nodup_siblings y).erase x
  siblings_eq := by
    intro y z hz
    by_cases hy : F.Below y x
    · rw [if_pos hy, List.mem_singleton] at hz
      rw [hz]
    · rw [if_neg hy, (F.nodup_siblings y).mem_erase_iff] at hz
      have hz' : ¬ F.Below z x := fun hb => hz.1 (eq_of_mem_siblings_of_below hy hz.2 hb)
      rw [if_neg hy, if_neg hz', F.siblings_eq y z hz.2]
  siblings_child := by
    intro y p hp
    by_cases hy : F.Below y x
    · simp [hy] at hp
    · rw [if_neg hy] at hp
      have hp' : ¬ F.Below p x := fun hb => hy (hb.head hp)
      rw [if_neg hy, if_neg hp', F.siblings_child y p hp]
  acyclic := by
    intro y hy
    refine F.acyclic y (Relation.TransGen.mono ?_ _ _ hy)
    intro z p hz
    by_cases hb : F.Below z x
    · simp [hb] at hz
    · rwa [if_neg hb] at hz

/-! ### First children -/

/-- `y` is the first child of `p`. -/
def FirstChild (F : Forest α) (y p : α) : Prop := (F.children p).head? = some y

/-- Going down by first children from `x` reaches `y`. -/
def FirstBelow (F : Forest α) (y x : α) : Prop := Relation.ReflTransGen F.FirstChild y x

theorem FirstChild.parent (h : F.FirstChild y p) : F.parent y = some p :=
  (F.mem_children y p).mp (List.mem_of_mem_head? h)

theorem FirstBelow.below (h : F.FirstBelow y x) : F.Below y x :=
  Relation.ReflTransGen.mono (fun _ _ => FirstChild.parent) _ _ h

/-- The first child leads to what is below the node, the node itself excepted. -/
theorem firstBelow_iff {c : α} (h : F.FirstChild c x) :
    F.FirstBelow y x ↔ y = x ∨ F.FirstBelow y c := by
  constructor
  · intro hy
    rcases Relation.ReflTransGen.cases_tail hy with he | ⟨d, hd, hfirst⟩
    · exact .inl he.symm
    · have hcd : c = d := Option.some.inj (h.symm.trans hfirst)
      exact .inr (hcd ▸ hd)
  · rintro (rfl | hy)
    · exact .refl
    · exact hy.tail h

theorem FirstChild.not_firstBelow {c : α} (h : F.FirstChild c x) : ¬ F.FirstBelow x c :=
  fun hx => F.acyclic x (Relation.TransGen.tail' hx.below h.parent)

/-- What first children reach below a node is the first child and what they reach below it. -/
theorem FirstChild.eq_or_firstBelow_iff {c : α} (h : F.FirstChild c x) :
    (y = c ∨ y ≠ c ∧ F.FirstBelow y c) ↔ y ≠ x ∧ F.FirstBelow y x := by
  have hne : F.FirstBelow y c → y ≠ x := fun hy he => h.not_firstBelow (he ▸ hy)
  rw [firstBelow_iff h]
  constructor
  · rintro (rfl | hy)
    · exact ⟨hne .refl, .inr .refl⟩
    · exact ⟨hne hy.2, .inr hy.2⟩
  · rintro ⟨hyx, he | hy⟩
    · exact (hyx he).elim
    · by_cases hyc : y = c
      · exact .inl hyc
      · exact .inr ⟨hyc, hy⟩

theorem firstBelow_of_children_eq_nil (h : F.children x = []) : F.FirstBelow y x ↔ y = x := by
  refine ⟨fun hy => ?_, fun he => he ▸ .refl⟩
  rcases Relation.ReflTransGen.cases_tail hy with he | ⟨d, -, hfirst⟩
  · exact he.symm
  · simp [FirstChild, h] at hfirst

theorem FirstBelow.firstChild (h : F.FirstBelow y x) (hne : y ≠ x) (hp : F.parent y = some p) :
    F.FirstChild y p := by
  rcases Relation.ReflTransGen.cases_head h with he | ⟨q, hfirst, -⟩
  · exact (hne he).elim
  · have hparent := hfirst.parent
    rw [hp, Option.some.injEq] at hparent
    exact hparent ▸ hfirst

/-- Below a node, first children do not reach its second child. -/
theorem notFirstBelow_of_children_eq {c : α} {cs : List α} (h : F.children p = c :: cs)
    (hp : F.Below p x) (hy : y ∈ cs) : ¬ F.FirstBelow y x := by
  intro hbelow
  have hmem : y ∈ F.children p := by simp [h, hy]
  have hne : y ≠ x := fun he => notMem_children_of_below hp (he ▸ hmem)
  have hfirst := hbelow.firstChild hne ((F.mem_children y p).mp hmem)
  rw [FirstChild, h, List.head?_cons, Option.some.injEq] at hfirst
  have hn := h ▸ F.nodup_children p
  exact (List.nodup_cons.mp hn).1 (hfirst ▸ hy)

/-- First children reach the whole subtree exactly when no node of it has two children. -/
theorem forall_firstBelow_iff :
    (∀ y, F.Below y x → F.FirstBelow y x) ↔ ∀ y, F.Below y x → (F.children y).length ≤ 1 := by
  constructor
  · intro h y hy
    match hc : F.children y with
    | [] => simp
    | [_] => simp
    | c :: d :: cs =>
        have hd : d ∈ F.children y := by simp [hc]
        exact (notFirstBelow_of_children_eq hc hy List.mem_cons_self (h d (hy.child hd))).elim
  · intro h y hy
    induction hy using Relation.ReflTransGen.head_induction_on with
    | refl => exact .refl
    | @head y p hp hbelow ih =>
        refine ih.head ?_
        have hmem := (F.mem_children y p).mpr hp
        have hlength := h p hbelow
        match hc : F.children p with
        | [] => simp [hc] at hmem
        | [c] =>
            rw [hc, List.mem_singleton] at hmem
            rw [FirstChild, hc, hmem]
            rfl
        | c :: d :: cs => simp [hc] at hlength

end Forest

end DDFramework
