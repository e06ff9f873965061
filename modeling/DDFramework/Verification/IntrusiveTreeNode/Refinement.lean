import DDFramework.Verification.IntrusiveTreeNode.Encoding
import Mathlib.Data.Fintype.Card

/-! # Calls on the nodes of a forest

Each insertion takes the subtree out of its sequence and links it into another one. -/

namespace DDFramework

namespace Forest

variable {ν : Type*} [DecidableEq ν] {F : Forest ν} {L L' : TreeLinks ν} {x : ν}
  {owner : Option ν} {xs ys : List ν}

/-- The new sequence is linked and nothing else changes. -/
theorem Encodes.insert (hF : F.Encodes L) (h : F.Insertion x owner xs ys)
    (hparent : L'.parent = Function.update L.parent x owner)
    (hchild : ∀ p, L'.child p = if owner = some p then ys.head? else L.child p)
    (hothers : ∀ y, y ∉ ys →
      L'.siblingNext y = L.siblingNext y ∧ L'.siblingPrev y = L.siblingPrev y)
    (hchain : Segment L'.siblingNext L'.siblingPrev (if owner.isSome then ys.getLast? else none)
      ys none) : (F.insert h).Encodes L' where
  parent := by rw [hparent, hF.parent, insert_parent]
  child := by
    intro p
    rw [hchild, hF.child, insert_children]
    split <;> rfl
  chain := by
    intro y
    by_cases hy : y ∈ ys
    · rw [headPrev, insert_siblings_of_mem h hy, insert_parent_of_mem h hy]
      exact hchain
    · rw [headPrev, insert_siblings_of_notMem h hy, insert_parent_of_notMem h hy]
      exact (hF.chain y).congr fun z hz => hothers z (h.notMem_of_mem_siblings hy hz)

end Forest

namespace TreeLinks

open Forest

variable {ν : Type*} {F : Forest ν} {L L' : TreeLinks ν} {r x : ν}

/-- A single root has no neighbours. -/
theorem siblingNext_of_single (hF : F.Encodes L) (hx : F.siblings x = [x]) :
    L.siblingNext x = none := by
  have hchain := hF.chain x
  rw [hx] at hchain
  exact hchain.2.1

/-- The first child and what it refers to. -/
theorem first_child (hF : F.Encodes L) {p c : ν} {cs : List ν} (hc : F.children p = c :: cs) :
    L.child p = some c ∧ L.siblingPrev c = (c :: cs).getLast? ∧
      Segment L.siblingNext L.siblingPrev (c :: cs).getLast? (c :: cs) none := by
  have hparent : F.parent c = some p := (F.mem_children c p).mp (by simp [hc])
  have hchain := hF.chain c
  rw [headPrev, hparent, F.siblings_child c p hparent, hc] at hchain
  exact ⟨by rw [hF.child, hc]; rfl, hchain.1, hchain⟩

variable [DecidableEq ν]

/-! ### New sequences -/

section Sequences

variable {next prev : ν → Option ν} {a : Option ν} {xs : List ν}

/-- A node is linked after the last one. -/
theorem segment_concat {e : ν} (h : Segment next prev a xs none) (hn : xs.Nodup)
    (he : xs.getLast? = some e) (hx : x ∉ xs) (hnext : next x = none) :
    Segment (Function.update next e (some x)) (Function.update prev x (some e)) a (xs ++ [x])
      none := by
  have hex : x ≠ e := fun hxe => hx (hxe ▸ List.mem_of_getLast? he)
  refine segment_append.mpr ⟨?_, ?_, ?_, trivial⟩
  · refine (h.setNext_last he hn (some x)).congr fun y hy => ⟨rfl, ?_⟩
    exact Function.update_of_ne (fun hyx : y = x => hx (hyx ▸ hy)) _ _
  · simp [he]
  · simp [Function.update_of_ne hex, hnext]

/-- A node is linked before the first one. -/
theorem segment_prepend {c : ν} (h : Segment next prev a (c :: xs) none) (hn : (c :: xs).Nodup)
    (hx : x ∉ c :: xs) (b : Option ν) :
    Segment (Function.update next x (some c))
      (Function.update (Function.update prev x b) c (some x)) b (x :: c :: xs) none := by
  have hxc : x ≠ c := fun he => hx (by simp [he])
  refine ⟨by simp [Function.update_of_ne hxc], by simp, ?_⟩
  refine (h.setPrev_head hn (some x)).congr fun y hy => ?_
  have hyx : y ≠ x := fun he => hx (he ▸ hy)
  by_cases hyc : y = c
  · simp [hyc, Ne.symm hxc]
  · simp [hyx, hyc]

end Sequences

/-! ### `PushBackChild` and `PushFrontChild` -/

/-- The only child of a node refers to itself. -/
theorem encodes_onlyChild (hF : F.Encodes L) {ys : List ν} (hchildren : F.children r = [])
    (h : F.Insertion x (some r) (F.children r) ys) :
    (F.insert h).Encodes (((L.setChild r (some x)).setParent x (some r)).setSiblingPrev x
      (some x)) := by
  have hys : ys = [x] := by
    have hperm := h.perm
    rw [hchildren] at hperm
    exact List.perm_singleton.mp hperm
  subst ys
  refine hF.insert h rfl ?_ ?_ ?_
  · intro p
    by_cases hp : r = p
    · simp [hp]
    · simp [hp, Ne.symm hp]
  · intro y hy
    have hyx : y ≠ x := fun he => hy (by simp [he])
    simp [hyx]
  · exact ⟨by simp, by simp [siblingNext_of_single hF h.siblings_self], trivial⟩

/-- A last child is linked after the previous one, and the first child refers to it. -/
theorem encodes_lastChild (hF : F.Encodes L) {owner : Option ν} {c e p : ν} {xs cs : List ν}
    (h : F.Insertion x owner xs (xs ++ [x])) (howner : owner = some p)
    (hc : F.children p = c :: cs) (he : (c :: cs).getLast? = some e)
    (hparent : L'.parent = Function.update L.parent x (some p)) (hchild : L'.child = L.child)
    (hnext : L'.siblingNext = Function.update L.siblingNext e (some x))
    (hprev : L'.siblingPrev =
      Function.update (Function.update L.siblingPrev x (some e)) c (some x)) :
    (F.insert h).Encodes L' := by
  obtain rfl : xs = c :: cs := (h.children_eq p howner).symm.trans hc
  subst owner
  obtain ⟨hfirst, -, hchain⟩ := first_child hF hc
  have hn : (c :: cs).Nodup := hc ▸ F.nodup_children p
  have hemem : e ∈ c :: cs := List.mem_of_getLast? he
  refine hF.insert h hparent ?_ ?_ ?_
  · intro q
    by_cases hq : p = q
    · simp [hchild, ← hq, hfirst]
    · simp [hchild, hq]
  · intro y hy
    rw [List.mem_append, not_or, List.mem_singleton] at hy
    have hye : y ≠ e := fun heq => hy.1 (heq ▸ hemem)
    have hyc : y ≠ c := fun heq => hy.1 (by simp [heq])
    simp [hnext, hprev, hye, hyc, hy.2]
  · have hconcat := segment_concat hchain hn he h.notMem (siblingNext_of_single hF h.siblings_self)
    have hlast : (c :: cs ++ [x]).getLast? = some x := List.getLast?_concat
    rw [hnext, hprev, Option.isSome_some, if_pos rfl, hlast]
    exact hconcat.setPrev_head h.nodup (some x)

/-- A last root is linked after the previous one. -/
theorem encodes_lastRoot (hF : F.Encodes L) {owner : Option ν} {e : ν} {xs : List ν}
    (h : F.Insertion x owner xs (xs ++ [x])) (howner : owner = none)
    (he : xs.getLast? = some e)
    (hparent : L'.parent = Function.update L.parent x none) (hchild : L'.child = L.child)
    (hnext : L'.siblingNext = Function.update L.siblingNext e (some x))
    (hprev : L'.siblingPrev = Function.update L.siblingPrev x (some e)) :
    (F.insert h).Encodes L' := by
  subst owner
  have hemem : e ∈ xs := List.mem_of_getLast? he
  have hsiblings := h.siblings_eq e hemem
  refine hF.insert h hparent ?_ ?_ ?_
  · simp [hchild]
  · intro y hy
    rw [List.mem_append, not_or, List.mem_singleton] at hy
    have hye : y ≠ e := fun heq => hy.1 (heq ▸ hemem)
    simp [hnext, hprev, hye, hy.2]
  · have hchain := hF.chain e
    rw [headPrev, h.parent_eq e hemem, hsiblings] at hchain
    rw [hnext, hprev]
    exact segment_concat hchain (hsiblings ▸ F.nodup_siblings e) he h.notMem
      (siblingNext_of_single hF h.siblings_self)

omit [DecidableEq ν] in
theorem exists_last_child (hF : F.Encodes L) {c : ν} {cs : List ν}
    (hc : F.children r = c :: cs) :
    ∃ e, (c :: cs).getLast? = some e ∧ L.siblingPrev c = some e ∧ L.parent e = some r := by
  obtain ⟨-, hprev, -⟩ := first_child hF hc
  obtain ⟨e, he⟩ : ∃ e, (c :: cs).getLast? = some e := by simp [List.getLast?_cons]
  refine ⟨e, he, hprev.trans he, ?_⟩
  rw [hF.parent, ← F.mem_children, hc]
  exact List.mem_of_getLast? he

theorem pushBackChild_encodes (hF : F.Encodes L) (h : ¬ F.Below r x) :
    ∃ L', L.pushBackChild r x = .ok L' ∧ (F.appendChild r x h).Encodes L' := by
  obtain ⟨L₁, hL₁, hF₁⟩ := detachSubTree_encodes hF x
  have hins := F.insertion_children h (List.perm_append_singleton x ((F.detach x).children r))
  unfold pushBackChild
  rw [hL₁, ok_bind]
  cases hc : (F.detach x).children r with
  | nil =>
      have hnone : L₁.child r = none := by rw [hF₁.child, hc]; rfl
      rw [hnone]
      exact ⟨_, rfl, encodes_onlyChild hF₁ hc hins⟩
  | cons c cs =>
      obtain ⟨hfirst, -, -⟩ := first_child hF₁ hc
      obtain ⟨e, he, hprev, hparent⟩ := exists_last_child hF₁ hc
      simp only [hfirst, hprev, deref, ok_bind]
      exact ⟨_, rfl, encodes_lastChild hF₁ hins rfl hc he (by simp [hparent]) rfl rfl rfl⟩

theorem pushFrontChild_encodes (hF : F.Encodes L) (h : ¬ F.Below r x) :
    ∃ L', L.pushFrontChild r x = .ok L' ∧ (F.prependChild r x h).Encodes L' := by
  obtain ⟨L₁, hL₁, hF₁⟩ := detachSubTree_encodes hF x
  have hins := F.insertion_children h (List.Perm.refl (x :: (F.detach x).children r))
  unfold pushFrontChild
  rw [hL₁, ok_bind]
  cases hc : (F.detach x).children r with
  | nil =>
      have hnone : L₁.child r = none := by rw [hF₁.child, hc]; rfl
      rw [hnone]
      exact ⟨_, rfl, encodes_onlyChild hF₁ hc hins⟩
  | cons c cs =>
      obtain ⟨hfirst, hprev, hchain⟩ := first_child hF₁ hc
      have hn : (c :: cs).Nodup := hc ▸ (F.detach x).nodup_children r
      have hx : x ∉ c :: cs := hc ▸ hins.notMem
      simp only [hfirst]
      refine ⟨_, rfl, hF₁.insert hins rfl ?_ ?_ ?_⟩
      · intro p
        by_cases hp : r = p
        · simp [hp]
        · simp [hp, Ne.symm hp]
      · intro y hy
        rw [hc, List.mem_cons, not_or] at hy
        have hyc : y ≠ c := fun he => hy.2 (by simp [he])
        simp [hy.1, hyc]
      · have hlast : (x :: c :: cs).getLast? = L₁.siblingPrev c := by
          rw [List.getLast?_cons_cons, hprev]
        rw [hc, Option.isSome_some, if_pos rfl, hlast]
        exact segment_prepend hchain hn hx (L₁.siblingPrev c)

/-! ### `PushBackSibling` -/

omit [DecidableEq ν] in
/-- The walk along the siblings ends at the last one. -/
theorem siblingListEnd_eq {fuel : ℕ} {post : List ν} {a : Option ν}
    (h : Segment L.siblingNext L.siblingPrev a (x :: post) none) (hfuel : post.length < fuel) :
    ∃ e, L.siblingListEnd fuel x = .ok e ∧ (x :: post).getLast? = some e := by
  induction post generalizing x fuel a with
  | nil =>
      obtain ⟨fuel, rfl⟩ := Nat.exists_eq_add_one_of_ne_zero (Nat.ne_of_gt hfuel)
      have hnext : L.siblingNext x = none := h.2.1
      exact ⟨x, by rw [siblingListEnd, hnext], rfl⟩
  | cons y post ih =>
      rw [List.length_cons] at hfuel
      obtain ⟨fuel, rfl⟩ := Nat.exists_eq_add_one_of_ne_zero (Nat.ne_of_gt (Nat.zero_lt_of_lt hfuel))
      have hnext : L.siblingNext x = some y := h.2.1
      have hrest : post.length < fuel := by omega
      obtain ⟨e, he, hlast⟩ := ih h.2.2 hrest
      exact ⟨e, by rw [siblingListEnd, hnext]; exact he, by rwa [List.getLast?_cons_cons]⟩

omit [DecidableEq ν] in
theorem length_siblings_le [Fintype ν] (F : Forest ν) (x : ν) :
    (F.siblings x).length ≤ Fintype.card ν :=
  (F.nodup_siblings x).length_le_card

theorem pushBackSibling_encodes [Fintype ν] {fuel : ℕ} (hfuel : Fintype.card ν ≤ fuel)
    (hF : F.Encodes L) (h : ¬ F.Below r x) :
    ∃ L', L.pushBackSibling fuel r x = .ok L' ∧ (F.appendSibling r x h).Encodes L' := by
  obtain ⟨L₁, hL₁, hF₁⟩ := detachSubTree_encodes hF x
  have hins := F.insertion_siblings h (List.perm_append_singleton x ((F.detach x).siblings r))
  unfold pushBackSibling
  rw [hL₁, ok_bind]
  cases hp : (F.detach x).parent r with
  | none =>
      obtain ⟨pre, post, hr⟩ := exists_stands hF₁ r
      have hlength := length_siblings_le (F.detach x) r
      rw [hr.siblings, List.length_append, List.length_cons] at hlength
      have hpost : post.length < fuel := by omega
      obtain ⟨e, he, hlast⟩ := siblingListEnd_eq ⟨hr.prev, by simp [hr.next], hr.after⟩ hpost
      have hend : ((F.detach x).siblings r).getLast? = some e := by
        rw [hr.siblings, List.getLast?_append, hlast]
        rfl
      have hparent : L₁.parent e = none := by
        rw [hF₁.parent, parent_eq_of_mem (List.mem_of_getLast? hend), hp]
      rw [hF₁.parent, hp]
      simp only [he, ok_bind]
      exact ⟨_, rfl, encodes_lastRoot hF₁ hins hp hend (by simp [linkSibling, hparent]) rfl rfl rfl⟩
  | some p =>
      have hmem : r ∈ (F.detach x).children p := ((F.detach x).mem_children r p).mpr hp
      rw [hF₁.parent, hp]
      cases hc : (F.detach x).children p with
      | nil =>
          rw [hc] at hmem
          cases hmem
      | cons c cs =>
          obtain ⟨hfirst, -, -⟩ := first_child hF₁ hc
          obtain ⟨e, he, hprev, hparent⟩ := exists_last_child hF₁ hc
          have hxc : x ≠ c := by
            rintro rfl
            have hx := hins.notMem
            rw [(F.detach x).siblings_child r p hp, hc] at hx
            exact hx List.mem_cons_self
          simp only [hfirst, hprev, deref, ok_bind]
          refine ⟨_, rfl, encodes_lastChild hF₁ hins hp hc he (by simp [linkSibling, hparent]) rfl
            rfl ?_⟩
          simp [linkSibling, Function.update_comm hxc]

/-! ### All calls -/

/-- The node that a call inserts is neither the receiver nor above it. -/
def Call.Allowed (F : Forest ν) : Call ν → Prop
  | .pushBackChild this newChild => ¬ F.Below this newChild
  | .pushFrontChild this newChild => ¬ F.Below this newChild
  | .pushBackSibling this newSibling => ¬ F.Below this newSibling
  | .detachSubTree _ => True

/-- What a call does to the forest. -/
def Call.apply (F : Forest ν) : (call : Call ν) → call.Allowed F → Forest ν
  | .pushBackChild this newChild, h => F.appendChild this newChild h
  | .pushFrontChild this newChild, h => F.prependChild this newChild h
  | .pushBackSibling this newSibling, h => F.appendSibling this newSibling h
  | .detachSubTree this, _ => F.detach this

/-- How a call moves a subtree: it appends, prepends, appends to the siblings, or removes. -/
def Call.Moves (F G : Forest ν) : Call ν → Prop
  | .pushBackChild this newChild =>
    Moved F G newChild (some this) ((F.children this).erase newChild ++ [newChild])
  | .pushFrontChild this newChild =>
    Moved F G newChild (some this) (newChild :: (F.children this).erase newChild)
  | .pushBackSibling this newSibling =>
    Moved F G newSibling (F.parent this) ((F.siblings this).erase newSibling ++ [newSibling])
  | .detachSubTree this => Moved F G this none [this]

theorem Call.moves_apply (call : Call ν) (h : call.Allowed F) :
    call.Moves F (call.apply F h) := by
  cases call with
  | pushBackChild this newChild => exact moved_appendChild h
  | pushFrontChild this newChild => exact moved_prependChild h
  | pushBackSibling this newSibling => exact moved_appendSibling h
  | detachSubTree this => exact F.moved_detach this

theorem perform_encodes [Fintype ν] {fuel : ℕ} (hfuel : Fintype.card ν ≤ fuel)
    (hF : F.Encodes L) (call : Call ν) (h : call.Allowed F) :
    ∃ L', L.perform fuel call = .ok L' ∧ (call.apply F h).Encodes L' := by
  cases call with
  | pushBackChild this newChild => exact pushBackChild_encodes hF h
  | pushFrontChild this newChild => exact pushFrontChild_encodes hF h
  | pushBackSibling this newSibling => exact pushBackSibling_encodes hfuel hF h
  | detachSubTree this => exact detachSubTree_encodes hF this

/-- The links and the forest after a sequence of allowed calls on constructed nodes. -/
inductive Runs (fuel : ℕ) : TreeLinks ν → Forest ν → Prop where
  | start : Runs fuel (constructed ν) (discrete ν)
  | call {L L' : TreeLinks ν} {F : Forest ν} (h : Runs fuel L F) {call : Call ν}
      (hallowed : call.Allowed F) (hperform : L.perform fuel call = .ok L') :
      Runs fuel L' (call.apply F hallowed)

theorem Runs.encodes [Fintype ν] {fuel : ℕ} (hfuel : Fintype.card ν ≤ fuel)
    (h : Runs fuel L F) : F.Encodes L := by
  induction h with
  | start => exact discrete_encodes
  | call _ hallowed hperform ih =>
      obtain ⟨L', hL', hencodes⟩ := perform_encodes hfuel ih _ hallowed
      rw [hperform, Except.ok.injEq] at hL'
      exact hL' ▸ hencodes

omit [DecidableEq ν] in
/-- Going up from a node ends at a root. The nodes that were left are all different, since none
is above itself. -/
theorem findRoot_eq [Fintype ν] (hF : F.Encodes L) {fuel : ℕ} {seen : List ν}
    (hseen : ∀ y ∈ seen, Relation.TransGen (fun z p => F.parent z = some p) y x)
    (hn : seen.Nodup) (hfuel : Fintype.card ν ≤ seen.length + fuel) :
    ∃ root, L.findRoot fuel x = .ok root ∧ L.parent root = none ∧ F.Below x root := by
  have hx : x ∉ seen := fun hm => F.acyclic x (hseen x hm)
  have hnodup : (x :: seen).Nodup := List.nodup_cons.mpr ⟨hx, hn⟩
  induction fuel generalizing x seen with
  | zero =>
      have hlength := hnodup.length_le_card
      rw [List.length_cons] at hlength
      omega
  | succ fuel ih =>
      cases hp : L.parent x with
      | none => exact ⟨x, by rw [findRoot, hp], hp, .refl⟩
      | some p =>
          have hup : F.parent x = some p := hF.parent ▸ hp
          have hseen' : ∀ y ∈ x :: seen,
              Relation.TransGen (fun z p => F.parent z = some p) y p := by
            intro y hy
            rcases List.mem_cons.mp hy with rfl | hy
            · exact .single hup
            · exact (hseen y hy).tail hup
          have hpseen : p ∉ x :: seen := fun hm => F.acyclic p (hseen' p hm)
          obtain ⟨root, hroot, hnone, hbelow⟩ := ih hseen' hnodup
            (by rw [List.length_cons]; omega) hpseen (List.nodup_cons.mpr ⟨hpseen, hnodup⟩)
          exact ⟨root, by rw [findRoot, hp]; exact hroot, hnone, hbelow.head hup⟩

/-- The links always encode the forest that the calls make, every allowed call returns and moves
one subtree, and `FindRoot` finds the root above a node. -/
theorem runs_encode_forest [Fintype ν] {fuel : ℕ} (hfuel : Fintype.card ν ≤ fuel)
    (h : Runs fuel L F) :
    F.Encodes L ∧
    (∀ (call : Call ν) (hallowed : call.Allowed F),
      call.Moves F (call.apply F hallowed) ∧
        ∃ L', L.perform fuel call = .ok L' ∧ (call.apply F hallowed).Encodes L') ∧
    ∀ x, ∃ root, L.findRoot fuel x = .ok root ∧ L.parent root = none ∧ F.Below x root := by
  have hF := h.encodes hfuel
  refine ⟨hF, fun call hallowed => ⟨call.moves_apply hallowed, ?_⟩, fun x => ?_⟩
  · exact perform_encodes hfuel hF call hallowed
  · have hnone : ∀ y ∈ ([] : List ν),
        Relation.TransGen (fun z p => F.parent z = some p) y x := nofun
    exact findRoot_eq hF hnone List.nodup_nil (by simpa using hfuel)

theorem discrete_not_below {x y : Fin 3} (h : x ≠ y) : ¬ (discrete (Fin 3)).Below x y := by
  intro hbelow
  rcases Relation.ReflTransGen.cases_head hbelow with he | ⟨p, hp, -⟩
  · exact h he
  · cases hp

/-- Node 2 becomes a child of node 0. -/
theorem runs_encode_forest_three :
    ∃ (L : TreeLinks (Fin 3)) (F : Forest (Fin 3)), Runs 3 L F ∧ F.Encodes L ∧
      L.child 0 = some 2 ∧ F.children 0 = [2] ∧ ∃ root, L.findRoot 3 2 = .ok root := by
  have hallowed : (Call.pushBackChild (0 : Fin 3) 2).Allowed (discrete (Fin 3)) :=
    discrete_not_below (by decide)
  have hruns : Runs 3 _ _ := Runs.call .start hallowed rfl
  obtain ⟨hencodes, -, hroot⟩ := runs_encode_forest (by decide) hruns
  obtain ⟨root, hroot, -⟩ := hroot 2
  exact ⟨_, _, hruns, hencodes, rfl, rfl, root, hroot⟩

end TreeLinks

end DDFramework
