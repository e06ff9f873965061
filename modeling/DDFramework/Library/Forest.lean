import Mathlib.Data.List.Nodup
import Mathlib.Data.List.Perm.Basic
import Mathlib.Logic.Function.Basic
import Mathlib.Logic.Relation

/-! # Ordered forests

Every node stands in one sequence of siblings. The sequence is the list of children of a node,
or a sequence of roots. Subtrees are moved by taking their root out of its sequence and
inserting it into another one. -/

namespace DDFramework

/-- A path in a relation with one more edge uses that edge or not. -/
theorem transGen_or_of_edge {α : Type*} {r r' : α → α → Prop} {a b : α}
    (hr : ∀ {c d}, r' c d → r c d ∨ (c = a ∧ d = b)) {c d : α} (h : Relation.TransGen r' c d) :
    Relation.TransGen r c d ∨ (Relation.ReflTransGen r c a ∧ Relation.ReflTransGen r b d) := by
  induction h with
  | single h =>
      rcases hr h with h | ⟨rfl, rfl⟩
      · exact Or.inl (.single h)
      · exact Or.inr ⟨.refl, .refl⟩
  | tail _ h ih =>
      rcases hr h with h | ⟨rfl, rfl⟩
      · rcases ih with ih | ⟨hca, hbd⟩
        · exact Or.inl (ih.tail h)
        · exact Or.inr ⟨hca, hbd.tail h⟩
      · rcases ih with ih | ⟨hca, -⟩
        · exact Or.inr ⟨ih.to_reflTransGen, .refl⟩
        · exact Or.inr ⟨hca, .refl⟩

structure Forest (α : Type*) where
  parent : α → Option α
  children : α → List α
  /-- The sequence in which a node stands. -/
  siblings : α → List α
  mem_children : ∀ x p, x ∈ children p ↔ parent x = some p
  mem_siblings : ∀ x, x ∈ siblings x
  nodup_siblings : ∀ x, (siblings x).Nodup
  siblings_eq : ∀ x y, y ∈ siblings x → siblings y = siblings x
  siblings_child : ∀ x p, parent x = some p → siblings x = children p
  acyclic : ∀ x, ¬ Relation.TransGen (fun y p => parent y = some p) x x

namespace Forest

variable {α : Type*}

/-- Going up from `x` reaches `y`. -/
def Below (F : Forest α) (x y : α) : Prop :=
  Relation.ReflTransGen (fun z p => F.parent z = some p) x y

/-- The forest of single roots. -/
def discrete (α : Type*) : Forest α where
  parent _ := none
  children _ := []
  siblings x := [x]
  mem_children := by simp
  mem_siblings := by simp
  nodup_siblings := by simp
  siblings_eq := by simp
  siblings_child := by simp
  acyclic := by
    intro x h
    cases h with
    | single h => cases h
    | tail _ h => cases h

variable {F : Forest α}

theorem nodup_children (F : Forest α) (p : α) : (F.children p).Nodup := by
  cases hp : F.children p with
  | nil => exact List.nodup_nil
  | cons x xs =>
      have hx : F.parent x = some p := (F.mem_children x p).mp (by simp [hp])
      rw [← hp, ← F.siblings_child x p hx]
      exact F.nodup_siblings x

theorem mem_siblings_comm {x y : α} (h : y ∈ F.siblings x) : x ∈ F.siblings y := by
  rw [F.siblings_eq x y h]
  exact F.mem_siblings x

/-- Siblings have the same parent. -/
theorem parent_eq_of_mem {x y : α} (h : y ∈ F.siblings x) : F.parent y = F.parent x := by
  have hle : ∀ {x y p}, y ∈ F.siblings x → F.parent x = some p → F.parent y = some p := by
    intro x y p h hx
    rw [F.siblings_child x p hx] at h
    exact (F.mem_children y p).mp h
  cases hx : F.parent x with
  | some p => exact hle h hx
  | none =>
      cases hy : F.parent y with
      | none => rfl
      | some p => exact hx ▸ (hle (mem_siblings_comm h) hy).symm

/-- Sequences of siblings are equal or disjoint. -/
theorem disjoint_siblings {x y : α} (h : y ∉ F.siblings x) :
    (F.siblings x).Disjoint (F.siblings y) := by
  intro z hx hy
  apply h
  rw [← F.siblings_eq x z hx, F.siblings_eq y z hy]
  exact F.mem_siblings y

/-! ### Sequences that a subtree can be inserted into -/

/-- The single root `x` can be inserted into the sequence `xs`, the children of `owner` if there
is one. The result is the sequence `ys`. -/
structure Insertion (F : Forest α) (x : α) (owner : Option α) (xs ys : List α) : Prop where
  parent_none : F.parent x = none
  siblings_self : F.siblings x = [x]
  notMem : x ∉ xs
  siblings_eq : ∀ y ∈ xs, F.siblings y = xs
  parent_eq : ∀ y ∈ xs, F.parent y = owner
  children_eq : ∀ p, owner = some p → F.children p = xs
  notBelow : ∀ p, owner = some p → ¬ F.Below p x
  perm : ys.Perm (x :: xs)

namespace Insertion

variable {x : α} {owner : Option α} {xs ys : List α}

theorem mem_iff (h : F.Insertion x owner xs ys) {y : α} : y ∈ ys ↔ y = x ∨ y ∈ xs := by
  rw [h.perm.mem_iff, List.mem_cons]

theorem nodup (h : F.Insertion x owner xs ys) : ys.Nodup := by
  rw [h.perm.nodup_iff, List.nodup_cons]
  refine ⟨h.notMem, ?_⟩
  cases hxs : xs with
  | nil => exact List.nodup_nil
  | cons y zs =>
      have hy : y ∈ xs := by simp [hxs]
      rw [← hxs, ← h.siblings_eq y hy]
      exact F.nodup_siblings y

/-- Other sequences are disjoint from the new one. -/
theorem notMem_of_mem_siblings (h : F.Insertion x owner xs ys) {y z : α} (hy : y ∉ ys)
    (hz : z ∈ F.siblings y) : z ∉ ys := by
  intro hm
  apply hy
  rcases h.mem_iff.mp hm with rfl | hm
  · have hyz := mem_siblings_comm hz
    rw [h.siblings_self, List.mem_singleton] at hyz
    exact hyz ▸ h.mem_iff.mpr (Or.inl rfl)
  · have hyz := mem_siblings_comm hz
    rw [h.siblings_eq z hm] at hyz
    exact h.mem_iff.mpr (Or.inr hyz)

end Insertion

variable [DecidableEq α]

/-! ### Taking a subtree out -/

/-- The subtree of `x` becomes a tree of its own. -/
def detach (F : Forest α) (x : α) : Forest α where
  parent := Function.update F.parent x none
  children p := (F.children p).erase x
  siblings y := if y = x then [x] else (F.siblings y).erase x
  mem_children := by
    intro y p
    rw [(F.nodup_children p).mem_erase_iff]
    by_cases h : y = x
    · simp [h]
    · simp [h, F.mem_children]
  mem_siblings := by
    intro y
    by_cases h : y = x
    · simp [h]
    · rw [if_neg h, (F.nodup_siblings y).mem_erase_iff]
      exact ⟨h, F.mem_siblings y⟩
  nodup_siblings := by
    intro y
    by_cases h : y = x
    · simp [h]
    · rw [if_neg h]
      exact (F.nodup_siblings y).erase x
  siblings_eq := by
    intro y z hz
    by_cases h : y = x
    · rw [if_pos h, List.mem_singleton] at hz
      rw [if_pos h, if_pos hz]
    · rw [if_neg h, (F.nodup_siblings y).mem_erase_iff] at hz
      rw [if_neg h, if_neg hz.1, F.siblings_eq y z hz.2]
  siblings_child := by
    intro y p hy
    have h : y ≠ x := by
      rintro rfl
      simp at hy
    rw [Function.update_of_ne h] at hy
    rw [if_neg h, F.siblings_child y p hy]
  acyclic := by
    intro y hy
    refine F.acyclic y (Relation.TransGen.mono ?_ _ _ hy)
    intro z p hz
    by_cases h : z = x
    · simp [h] at hz
    · rwa [Function.update_of_ne h] at hz

theorem detach_parent_self (F : Forest α) (x : α) : (F.detach x).parent x = none := by
  simp [detach]

theorem detach_siblings_self (F : Forest α) (x : α) : (F.detach x).siblings x = [x] := by
  simp [detach]

/-- Nothing new is below another node. -/
theorem Below.of_detach {x y z : α} (h : (F.detach x).Below y z) : F.Below y z := by
  refine Relation.ReflTransGen.mono ?_ _ _ h
  intro u p hu
  by_cases hux : u = x
  · simp [detach, hux] at hu
  · simpa [detach, Function.update_of_ne hux] using hu

/-! ### Inserting a subtree -/

/-- The subtree of `x` gets its place in the sequence `ys`. -/
def insert (F : Forest α) {x : α} {owner : Option α} {xs ys : List α}
    (h : F.Insertion x owner xs ys) : Forest α where
  parent := Function.update F.parent x owner
  children p := if owner = some p then ys else F.children p
  siblings y := if y ∈ ys then ys else F.siblings y
  mem_children := by
    intro y p
    by_cases hp : owner = some p
    · rw [if_pos hp, h.mem_iff]
      by_cases hy : y = x
      · simp [hy, hp]
      · rw [Function.update_of_ne hy, ← F.mem_children, h.children_eq p hp]
        simp [hy]
    · rw [if_neg hp, F.mem_children]
      by_cases hy : y = x
      · simp [hy, h.parent_none, hp]
      · rw [Function.update_of_ne hy]
  mem_siblings := by
    intro y
    by_cases hy : y ∈ ys
    · rwa [if_pos hy]
    · rw [if_neg hy]
      exact F.mem_siblings y
  nodup_siblings := by
    intro y
    by_cases hy : y ∈ ys
    · rw [if_pos hy]
      exact h.nodup
    · rw [if_neg hy]
      exact F.nodup_siblings y
  siblings_eq := by
    intro y z hz
    by_cases hy : y ∈ ys
    · rw [if_pos hy] at hz ⊢
      rw [if_pos hz]
    · rw [if_neg hy] at hz ⊢
      rw [if_neg (h.notMem_of_mem_siblings hy hz), F.siblings_eq y z hz]
  siblings_child := by
    intro y p hparent
    by_cases hy : y = x
    · rw [hy, Function.update_self] at hparent
      rw [if_pos hparent, hy, if_pos (h.mem_iff.mpr (Or.inl rfl))]
    · rw [Function.update_of_ne hy] at hparent
      by_cases hp : owner = some p
      · have hmem : y ∈ xs := by
          rw [← h.children_eq p hp]
          exact (F.mem_children y p).mpr hparent
        rw [if_pos hp, if_pos (h.mem_iff.mpr (Or.inr hmem))]
      · have hnot : y ∉ ys := by
          intro hm
          rcases h.mem_iff.mp hm with he | hm
          · exact hy he
          · exact hp ((h.parent_eq y hm).symm.trans hparent)
        rw [if_neg hp, if_neg hnot, F.siblings_child y p hparent]
  acyclic := by
    intro y hy
    cases howner : owner with
    | none =>
        rw [howner] at hy
        refine F.acyclic y (Relation.TransGen.mono ?_ _ _ hy)
        intro z q hz
        by_cases hzx : z = x
        · simp [hzx] at hz
        · rwa [Function.update_of_ne hzx] at hz
    | some p =>
        have hedge : ∀ {z q}, Function.update F.parent x owner z = some q →
            F.parent z = some q ∨ (z = x ∧ q = p) := by
          intro z q hz
          by_cases hzx : z = x
          · rw [hzx, Function.update_self, howner, Option.some.injEq] at hz
            exact Or.inr ⟨hzx, hz.symm⟩
          · rw [Function.update_of_ne hzx] at hz
            exact Or.inl hz
        -- a cycle through the new edge would go up from the owner to the subtree
        rcases transGen_or_of_edge hedge hy with hy | ⟨hyx, hpy⟩
        · exact F.acyclic y hy
        · exact h.notBelow p howner (hpy.trans hyx)

section Insert

variable {x y : α} {owner : Option α} {xs ys : List α}

theorem insert_parent (h : F.Insertion x owner xs ys) :
    (F.insert h).parent = Function.update F.parent x owner := rfl

theorem insert_children (h : F.Insertion x owner xs ys) (p : α) :
    (F.insert h).children p = if owner = some p then ys else F.children p := rfl

/-- All the nodes of the new sequence have the owner as their parent. -/
theorem insert_parent_of_mem (h : F.Insertion x owner xs ys) (hy : y ∈ ys) :
    (F.insert h).parent y = owner := by
  rw [insert_parent]
  by_cases hyx : y = x
  · rw [hyx, Function.update_self]
  · rw [Function.update_of_ne hyx]
    exact h.parent_eq y ((h.mem_iff.mp hy).resolve_left hyx)

theorem insert_parent_of_notMem (h : F.Insertion x owner xs ys) (hy : y ∉ ys) :
    (F.insert h).parent y = F.parent y :=
  Function.update_of_ne (fun he => hy (h.mem_iff.mpr (Or.inl he))) _ _

theorem insert_siblings_of_mem (h : F.Insertion x owner xs ys) (hy : y ∈ ys) :
    (F.insert h).siblings y = ys := if_pos hy

theorem insert_siblings_of_notMem (h : F.Insertion x owner xs ys) (hy : y ∉ ys) :
    (F.insert h).siblings y = F.siblings y := if_neg hy

end Insert

/-! ### Moving a subtree -/

/-- `x` can be inserted into the sequence of a node that is not below it, once it has been taken
out of its own. -/
theorem insertion_children (F : Forest α) {r x : α} (h : ¬ F.Below r x) {ys : List α}
    (hperm : ys.Perm (x :: (F.detach x).children r)) :
    (F.detach x).Insertion x (some r) ((F.detach x).children r) ys where
  parent_none := F.detach_parent_self x
  siblings_self := F.detach_siblings_self x
  notMem := (F.nodup_children r).not_mem_erase
  siblings_eq := by
    intro y hy
    exact (F.detach x).siblings_child y r (((F.detach x).mem_children y r).mp hy)
  parent_eq y hy := ((F.detach x).mem_children y r).mp hy
  children_eq := by
    intro p hp
    cases hp
    rfl
  notBelow := by
    intro p hp hbelow
    cases hp
    exact h hbelow.of_detach
  perm := hperm

theorem insertion_siblings (F : Forest α) {r x : α} (h : ¬ F.Below r x) {ys : List α}
    (hperm : ys.Perm (x :: (F.detach x).siblings r)) :
    (F.detach x).Insertion x ((F.detach x).parent r) ((F.detach x).siblings r) ys where
  parent_none := F.detach_parent_self x
  siblings_self := F.detach_siblings_self x
  notMem := by
    intro hm
    have hr := mem_siblings_comm hm
    rw [F.detach_siblings_self, List.mem_singleton] at hr
    exact h (hr ▸ .refl)
  siblings_eq y hy := (F.detach x).siblings_eq r y hy
  parent_eq y hy := parent_eq_of_mem hy
  children_eq p hp := ((F.detach x).siblings_child r p hp).symm
  notBelow := by
    intro p hp hbelow
    exact h (Below.of_detach (hbelow.head hp))
  perm := hperm

/-- The subtree of `x` becomes the last child of `r`. -/
def appendChild (F : Forest α) (r x : α) (h : ¬ F.Below r x) : Forest α :=
  (F.detach x).insert (F.insertion_children h (List.perm_append_singleton x _))

/-- The subtree of `x` becomes the first child of `r`. -/
def prependChild (F : Forest α) (r x : α) (h : ¬ F.Below r x) : Forest α :=
  (F.detach x).insert (F.insertion_children h (List.Perm.refl _))

/-- The subtree of `x` becomes the last sibling of `r`. -/
def appendSibling (F : Forest α) (r x : α) (h : ¬ F.Below r x) : Forest α :=
  (F.detach x).insert (F.insertion_siblings h (List.perm_append_singleton x _))

/-- The subtree of `x` has moved into the sequence `ys`, which are the children of `owner` if
there is one. Every other sequence has lost `x` at most. -/
structure Moved (F G : Forest α) (x : α) (owner : Option α) (ys : List α) : Prop where
  parent : G.parent = Function.update F.parent x owner
  sequence : ∀ y ∈ ys, G.siblings y = ys
  children : ∀ p, G.children p = if owner = some p then ys else (F.children p).erase x
  others : ∀ y, y ∉ ys → G.siblings y = (F.siblings y).erase x

theorem moved_detach (F : Forest α) (x : α) : Moved F (F.detach x) x none [x] where
  parent := rfl
  sequence := by
    intro y hy
    rw [List.mem_singleton.mp hy]
    exact F.detach_siblings_self x
  children _ := rfl
  others y hy := if_neg (fun he => hy (by simp [he]))

theorem moved_insert {x : α} {owner : Option α} {xs ys : List α}
    (h : (F.detach x).Insertion x owner xs ys) : Moved F ((F.detach x).insert h) x owner ys where
  parent := Function.update_idem _ _ _
  sequence y hy := insert_siblings_of_mem h hy
  children _ := rfl
  others := by
    intro y hy
    rw [insert_siblings_of_notMem h hy]
    exact if_neg (fun he => hy (h.mem_iff.mpr (Or.inl he)))

theorem moved_appendChild {r x : α} (h : ¬ F.Below r x) :
    Moved F (F.appendChild r x h) x (some r) ((F.children r).erase x ++ [x]) :=
  moved_insert _

theorem moved_prependChild {r x : α} (h : ¬ F.Below r x) :
    Moved F (F.prependChild r x h) x (some r) (x :: (F.children r).erase x) :=
  moved_insert _

theorem moved_appendSibling {r x : α} (h : ¬ F.Below r x) :
    Moved F (F.appendSibling r x h) x (F.parent r) ((F.siblings r).erase x ++ [x]) := by
  have hr : r ≠ x := by
    rintro rfl
    exact h .refl
  have hparent : (F.detach x).parent r = F.parent r := Function.update_of_ne hr _ _
  have hsiblings : (F.detach x).siblings r = (F.siblings r).erase x := if_neg hr
  rw [← hparent, ← hsiblings]
  exact moved_insert _

end Forest

end DDFramework
