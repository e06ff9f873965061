import DDFramework.Library.Subtrees
import DDFramework.Verification.IntrusiveTreeNode.Refinement

/-! # `DetachAll`

The loop that clears the children of a node always clears its first child, so one round does
the work and the others do nothing. The nodes that are cleared are those that first children
lead to. -/

namespace DDFramework

namespace TreeLinks

open Forest

variable {ν : Type*} {F : Forest ν} {L M : TreeLinks ν} {S : ν → Prop} {n c this : ν}

open Classical in
/-- A field of the nodes after those of `S` have been cleared. -/
noncomputable def clearedField (S : ν → Prop) (field : ν → Option ν) (y : ν) : Option ν :=
  if S y then none else field y

theorem clearedField_of_mem {field : ν → Option ν} {y : ν} (h : S y) :
    clearedField S field y = none := if_pos h

theorem clearedField_of_not {field : ν → Option ν} {y : ν} (h : ¬ S y) :
    clearedField S field y = field y := if_neg h

@[simps] noncomputable def clearedOn (L : TreeLinks ν) (S : ν → Prop) : TreeLinks ν where
  parent := clearedField S L.parent
  child := clearedField S L.child
  siblingNext := clearedField S L.siblingNext
  siblingPrev := clearedField S L.siblingPrev

theorem clearedOn_congr {T : ν → Prop} (h : ∀ y, S y ↔ T y) : L.clearedOn S = L.clearedOn T := by
  obtain rfl : S = T := funext fun y => propext (h y)
  rfl

theorem clearedOn_none (h : ∀ y, ¬ S y) : L.clearedOn S = L := by
  have hfield : ∀ field : ν → Option ν, clearedField S field = field :=
    fun field => funext fun y => clearedField_of_not (h y)
  simp only [clearedOn, hfield]

variable [DecidableEq ν]

theorem update_clearedField (field : ν → Option ν) (x : ν) :
    Function.update (clearedField S field) x none = clearedField (fun y => y = x ∨ S y) field := by
  funext y
  by_cases hy : y = x
  · rw [hy, Function.update_self, clearedField_of_mem (.inl rfl)]
  · rw [Function.update_of_ne hy]
    by_cases hS : S y
    · rw [clearedField_of_mem hS, clearedField_of_mem (.inr hS)]
    · rw [clearedField_of_not hS, clearedField_of_not (by simp [hy, hS])]

theorem clear_clearedOn (L : TreeLinks ν) (S : ν → Prop) (x : ν) :
    (L.clearedOn S).clear x = L.clearedOn fun y => y = x ∨ S y := by
  simp only [clear, clearedOn, setParent, setChild, setSiblingNext, setSiblingPrev,
    update_clearedField]

/-! ### The loop -/

/-- A round on a cleared first child does nothing. -/
theorem clearChildren_idle (hchild : M.child this = some c) (hclear : M.clear c = M)
    {zs : List ν} {a : Option ν} (hzs : Segment M.siblingNext M.siblingPrev a zs none) {fuel : ℕ}
    (hfuel : zs.length < fuel) : clearChildren fuel M this zs.head? = .ok M := by
  have hnone : M.child c = none := by
    rw [← hclear]
    simp [clear]
  induction zs generalizing a fuel with
  | nil =>
      obtain ⟨fuel, rfl⟩ := Nat.exists_eq_add_one_of_ne_zero (Nat.ne_of_gt hfuel)
      rfl
  | cons z zs ih =>
      rw [List.length_cons] at hfuel
      obtain ⟨fuel, rfl⟩ :=
        Nat.exists_eq_add_one_of_ne_zero (Nat.ne_of_gt (Nat.zero_lt_of_lt hfuel))
      have hrest : zs.length < fuel := by omega
      have hinner : clearChildren fuel M c none = .ok M := by
        obtain ⟨fuel, rfl⟩ :=
          Nat.exists_eq_add_one_of_ne_zero (Nat.ne_of_gt (Nat.zero_lt_of_lt hrest))
        rfl
      have hnext : M.siblingNext z = zs.head? := by simpa using hzs.2.1
      simp only [List.head?_cons, clearChildren, hchild, deref, ok_bind, hnone, hinner, hclear,
        hnext]
      exact ih hzs.2.2 hrest

/-- The first round clears all of it, and the others find nothing to clear. -/
theorem clearChildren_cons (hF : F.Encodes L) {cs : List ν} (hc : F.children this = c :: cs)
    {fuel : ℕ} (hfuel : cs.length < fuel)
    (hinner : clearChildren fuel L c (L.child c) =
      .ok (L.clearedOn fun y => y ≠ c ∧ F.FirstBelow y c)) :
    clearChildren (fuel + 1) L this (L.child this) =
      .ok (L.clearedOn fun y => y ≠ this ∧ F.FirstBelow y this) := by
  obtain ⟨hchild, -, hchain⟩ := first_child hF hc
  have hfirst : F.FirstChild c this := by
    rw [FirstChild, hc]
    rfl
  have hcleared : (L.clearedOn fun y => y ≠ c ∧ F.FirstBelow y c).clear c =
      L.clearedOn fun y => y ≠ this ∧ F.FirstBelow y this := by
    rw [clear_clearedOn]
    exact clearedOn_congr fun y => hfirst.eq_or_firstBelow_iff
  have hstill : (L.clearedOn fun y => y ≠ c ∧ F.FirstBelow y c).child this = some c := by
    rw [clearedOn_child, clearedField_of_not fun h => hfirst.not_firstBelow h.2, hchild]
  have hnext : L.siblingNext c = cs.head? := by simpa using hchain.2.1
  rw [hchild, clearChildren]
  simp only [hchild, deref, ok_bind, hinner, hstill, hcleared, hnext]
  -- `this` keeps its first child
  refine clearChildren_idle (c := c) (a := some c) ?_ ?_ ?_ hfuel
  · rw [clearedOn_child, clearedField_of_not fun h => h.1 rfl, hchild]
  · rw [clear_clearedOn]
    refine clearedOn_congr fun y => or_iff_right_of_imp ?_
    rintro rfl
    exact hfirst.eq_or_firstBelow_iff.mp (.inl rfl)
  · refine hchain.2.2.congr fun z hz => ?_
    have hnot : ¬ (z ≠ this ∧ F.FirstBelow z this) :=
      fun h => notFirstBelow_of_children_eq hc .refl hz h.2
    exact ⟨clearedField_of_not (S := fun y => y ≠ this ∧ F.FirstBelow y this) hnot,
      clearedField_of_not (S := fun y => y ≠ this ∧ F.FirstBelow y this) hnot⟩

omit [DecidableEq ν] in
/-- The node and the nodes above it are above its children. -/
theorem transGen_of_mem_children {seen : List ν}
    (hseen : ∀ y ∈ seen, Relation.TransGen (fun z p => F.parent z = some p) this y) {z y : ν}
    (hz : z ∈ F.children this) (hy : y ∈ this :: seen) :
    Relation.TransGen (fun z p => F.parent z = some p) z y := by
  have hup : Relation.ReflTransGen (fun z p => F.parent z = some p) this y := by
    rcases List.mem_cons.mp hy with rfl | hy
    · exact .refl
    · exact (hseen y hy).to_reflTransGen
  exact .head' ((F.mem_children z this).mp hz) hup

/-- The loop clears the nodes that first children lead to. -/
theorem clearChildren_eq [Fintype ν] (hF : F.Encodes L) {fuel : ℕ} {seen : List ν}
    (hseen : ∀ y ∈ seen, Relation.TransGen (fun z p => F.parent z = some p) this y)
    (hn : seen.Nodup) (hfuel : Fintype.card ν ≤ seen.length + fuel) :
    clearChildren fuel L this (L.child this) =
      .ok (L.clearedOn fun y => y ≠ this ∧ F.FirstBelow y this) := by
  have hthis : this ∉ seen := fun hm => F.acyclic this (hseen this hm)
  have hnodup : (this :: seen).Nodup := List.nodup_cons.mpr ⟨hthis, hn⟩
  induction fuel generalizing this seen with
  | zero =>
      have hlength := hnodup.length_le_card
      rw [List.length_cons] at hlength
      omega
  | succ fuel ih =>
      cases hc : F.children this with
      | nil =>
          have hchild : L.child this = none := by
            rw [hF.child, hc]
            rfl
          rw [hchild, clearChildren, clearedOn_none]
          intro y hy
          exact hy.1 ((firstBelow_of_children_eq_nil hc).mp hy.2)
      | cons c cs =>
          have hbelow : ∀ z ∈ c :: cs, ∀ y ∈ this :: seen,
              Relation.TransGen (fun z p => F.parent z = some p) z y :=
            fun z hz y hy => transGen_of_mem_children hseen (hc ▸ hz) hy
          have hdisjoint : (c :: cs).Disjoint (this :: seen) :=
            fun z hz hy => F.acyclic z (hbelow z hz z hy)
          have hlength : (c :: cs).length + (this :: seen).length ≤ Fintype.card ν := by
            rw [← List.length_append]
            exact (List.nodup_append'.mpr
              ⟨hc ▸ F.nodup_children this, hnodup, hdisjoint⟩).length_le_card
          simp only [List.length_cons] at hlength
          have hc' := hdisjoint List.mem_cons_self
          refine clearChildren_cons hF hc (by omega) ?_
          exact ih (hbelow c List.mem_cons_self) hnodup (by rw [List.length_cons]; omega) hc'
            (List.nodup_cons.mpr ⟨hc', hnodup⟩)

/-- `DetachAll` takes the subtree out and clears the nodes that first children lead to. -/
theorem detachAll_eq [Fintype ν] {fuel : ℕ} (hfuel : Fintype.card ν ≤ fuel) (hF : F.Encodes L)
    (n : ν) : ∃ L₁, L.detachSubTree n = .ok L₁ ∧ (F.detach n).Encodes L₁ ∧
      L.detachAll fuel n = .ok (L₁.clearedOn fun y => (F.detach n).FirstBelow y n) := by
  obtain ⟨L₁, hL₁, hF₁⟩ := detachSubTree_encodes hF n
  have hnone : ∀ y ∈ ([] : List ν),
      Relation.TransGen (fun z p => (F.detach n).parent z = some p) n y := nofun
  have hclear := clearChildren_eq hF₁ hnone List.nodup_nil (by simpa using hfuel)
  refine ⟨L₁, hL₁, hF₁, ?_⟩
  rw [detachAll, hL₁, ok_bind, clearChildrenRecursive, hclear, ok_bind, clear_clearedOn]
  refine congrArg Except.ok (clearedOn_congr fun y => ?_)
  constructor
  · rintro (rfl | h)
    · exact .refl
    · exact h.2
  · intro h
    by_cases hy : y = n
    · exact .inl hy
    · exact .inr ⟨hy, h⟩

/-- The subtree is taken apart when all of it has been cleared. -/
theorem takeApart_encodes_iff {L₁ : TreeLinks ν} (hF₁ : (F.detach n).Encodes L₁)
    (hS : ∀ y, S y → F.Below y n) (hn : S n) :
    (F.takeApart n).Encodes (L₁.clearedOn S) ↔ ∀ y, F.Below y n → S y := by
  have hparent : ∀ y, y ≠ n → L₁.parent y = F.parent y := by
    intro y hy
    rw [hF₁.parent]
    exact Function.update_of_ne hy _ _
  constructor
  · intro h y hy
    by_contra hnot
    have hne : y ≠ n := fun he => hnot (he ▸ hn)
    have hnone := congrFun h.parent y
    rw [clearedOn_parent, clearedField_of_not hnot, hparent y hne] at hnone
    exact hy.parent_ne_none hne (hnone.trans (if_pos hy))
  · intro h
    have hnot : ∀ y, ¬ F.Below y n → ¬ S y := fun y hy hSy => hy (hS y hSy)
    have hne : ∀ y, ¬ F.Below y n → y ≠ n := fun y hy he => hy (he ▸ .refl)
    refine ⟨?_, ?_, ?_⟩
    · funext y
      by_cases hy : F.Below y n
      · exact (clearedField_of_mem (h y hy)).trans (if_pos hy).symm
      · rw [clearedOn_parent, clearedField_of_not (hnot y hy), hparent y (hne y hy)]
        exact (if_neg hy).symm
    · intro p
      by_cases hp : F.Below p n
      · rw [clearedOn_child, clearedField_of_mem (h p hp)]
        simp [takeApart, hp]
      · rw [clearedOn_child, clearedField_of_not (hnot p hp), hF₁.child]
        simp [takeApart, detach, hp]
    · intro y
      by_cases hy : F.Below y n
      · have hhead : (F.takeApart n).headPrev y = none := by simp [headPrev, takeApart, hy]
        have hsiblings : (F.takeApart n).siblings y = [y] := if_pos hy
        rw [hhead, hsiblings]
        exact ⟨clearedField_of_mem (h y hy), clearedField_of_mem (h y hy), trivial⟩
      · have hsiblings : (F.takeApart n).siblings y = (F.siblings y).erase n := if_neg hy
        have hdetached : (F.detach n).siblings y = (F.siblings y).erase n := if_neg (hne y hy)
        have hup : (F.takeApart n).parent y = (F.detach n).parent y := by
          simp [takeApart, detach, hy, hne y hy]
        rw [headPrev, hup, hsiblings, ← hdetached]
        refine (hF₁.chain y).congr fun z hz => ?_
        rw [hdetached, (F.nodup_siblings y).mem_erase_iff] at hz
        have hz' : ¬ F.Below z n := fun hb => hz.1 (eq_of_mem_siblings_of_below hy hz.2 hb)
        exact ⟨clearedField_of_not (hnot z hz'), clearedField_of_not (hnot z hz')⟩

/-- `DetachAll` returns, and it takes the subtree of `n` apart exactly when no node of it has more
than one child. -/
theorem detachAll_takeApart_iff [Fintype ν] {fuel : ℕ} (hfuel : Fintype.card ν ≤ fuel)
    (hF : F.Encodes L) (n : ν) :
    (∃ L', L.detachAll fuel n = .ok L') ∧
    ((∃ L', L.detachAll fuel n = .ok L' ∧ (F.takeApart n).Encodes L') ↔
      ∀ y, F.Below y n → (F.children y).length ≤ 1) := by
  obtain ⟨L₁, -, hF₁, hall⟩ := detachAll_eq hfuel hF n
  refine ⟨⟨_, hall⟩, ?_⟩
  have hS : ∀ y, (F.detach n).FirstBelow y n → F.Below y n :=
    fun y hy => detach_below_iff.mp hy.below
  have hencodes := takeApart_encodes_iff hF₁ hS .refl
  have hchildren : ∀ y, F.Below y n → (F.detach n).children y = F.children y :=
    fun y hy => List.erase_of_not_mem (notMem_children_of_below hy)
  have hfirst := forall_firstBelow_iff (F := F.detach n) (x := n)
  simp only [detach_below_iff] at hfirst
  rw [hall]
  constructor
  · rintro ⟨L', hL', h⟩ y hy
    cases hL'
    rw [← hchildren y hy]
    exact hfirst.mp (hencodes.mp h) y hy
  · intro h
    refine ⟨_, rfl, hencodes.mpr (hfirst.mpr fun y hy => ?_)⟩
    rw [hchildren y hy]
    exact h y hy

omit [DecidableEq ν] in
theorem not_below_of_root {x y : ν} (hx : F.parent x = none) (hne : x ≠ y) : ¬ F.Below x y :=
  fun h => h.parent_ne_none hne hx

/-- Node 1 is the only child of node 0. -/
theorem detachAll_takeApart_iff_chain :
    ∃ (L L' : TreeLinks (Fin 2)) (F : Forest (Fin 2)), L.child 0 = some 1 ∧
      L.detachAll 2 0 = .ok L' ∧ (F.takeApart 0).Encodes L' := by
  have h : ¬ (discrete (Fin 2)).Below 0 1 := not_below_of_root rfl (by decide)
  obtain ⟨L, hL, hF⟩ := pushBackChild_encodes discrete_encodes h
  have hcard : Fintype.card (Fin 2) ≤ 2 := by decide
  have hlength : ∀ y, (((discrete (Fin 2)).appendChild 0 1 h).children y).length ≤ 1
    | 0 => le_rfl
    | 1 => Nat.zero_le 1
  obtain ⟨L', hL', hencodes⟩ := (detachAll_takeApart_iff hcard hF 0).2.mpr fun y _ => hlength y
  cases hL
  exact ⟨_, L', _, rfl, hL', hencodes⟩

/-- Nodes 1 and 2 are the children of node 0, and node 2 is not cleared. -/
theorem detachAll_second_child :
    ∃ (L L' : TreeLinks (Fin 3)) (F : Forest (Fin 3)), F.Encodes L ∧ F.children 0 = [1, 2] ∧
      L.detachAll 3 0 = .ok L' ∧ L'.parent 2 = some 0 ∧ L'.siblingPrev 2 = some 1 ∧
      ¬ (F.takeApart 0).Encodes L' := by
  have h₁ : ¬ (discrete (Fin 3)).Below 0 1 := not_below_of_root rfl (by decide)
  obtain ⟨L₁, hL₁, hF₁⟩ := pushBackChild_encodes discrete_encodes h₁
  have h₂ : ¬ ((discrete (Fin 3)).appendChild 0 1 h₁).Below 0 2 :=
    not_below_of_root rfl (by decide)
  obtain ⟨L₂, hL₂, hF₂⟩ := pushBackChild_encodes hF₁ h₂
  cases hL₁
  cases hL₂
  refine ⟨_, _, _, hF₂, rfl, rfl, rfl, rfl, fun h => ?_⟩
  have hbelow : (((discrete (Fin 3)).appendChild 0 1 h₁).appendChild 0 2 h₂).Below 2 0 :=
    .single rfl
  have hnone : some (0 : Fin 3) = none := (congrFun h.parent 2).trans (if_pos hbelow)
  cases hnone

end TreeLinks

end DDFramework
