import Mathlib.Data.Multiset.AddSub
import Mathlib.Algebra.BigOperators.Group.Multiset.Basic
import Mathlib.Tactic.Basic

/-! # Objects and their owners

A table gives every new object a name that it has not given before. A triple says which objects a
computation owns before and after it, whatever the other objects are. -/

namespace DDFramework

/-- The objects of the kinds `κ` by their names. The table is sound as long as nothing has been
destroyed that was not there. -/
structure ObjectTable (κ : Type) where
  created : ℕ
  live : Multiset (κ × ℕ)
  sound : Bool

namespace ObjectTable

variable {κ α β : Type}

def empty : ObjectTable κ := ⟨0, 0, true⟩

def create (kind : κ) : StateM (ObjectTable κ) ℕ :=
  modifyGet fun t => (t.created + 1,
    { t with created := t.created + 1, live := (kind, t.created + 1) ::ₘ t.live })

/-- The name 0 is that of no object. -/
def destroy [DecidableEq κ] (kind : κ) (name : ℕ) : StateM (ObjectTable κ) Unit :=
  modify fun t =>
    if name = 0 then t
    else { t with live := t.live.erase (kind, name),
                  sound := t.sound && decide ((kind, name) ∈ t.live) }

/-- The object of a variable that may hold the name 0. -/
def owned (kind : κ) (name : ℕ) : Multiset (κ × ℕ) := if name = 0 then 0 else {(kind, name)}

@[simp] theorem owned_zero (kind : κ) : owned kind 0 = 0 := rfl

theorem owned_of_ne {kind : κ} {name : ℕ} (h : name ≠ 0) : owned kind name = {(kind, name)} :=
  if_neg h

theorem owned_eq_zero_iff {kind : κ} {name : ℕ} : owned kind name = 0 ↔ name = 0 := by
  rw [owned]
  split
  next h => simp [h]
  next h => simp [h]

structure WellFormed (t : ObjectTable κ) : Prop where
  nodup : t.live.Nodup
  named : ∀ o ∈ t.live, 0 < o.2 ∧ o.2 ≤ t.created

/-- An object that has been destroyed. -/
structure Dead (t : ObjectTable κ) (o : κ × ℕ) : Prop where
  named : o.2 ≤ t.created
  not_live : o ∉ t.live

/-- What a computation leaves of a table in which it does not own the `rest`. -/
structure Outcome (t : ObjectTable κ) (after rest : Multiset (κ × ℕ)) (t' : ObjectTable κ) :
    Prop where
  live : t'.live = after + rest
  wellFormed : t'.WellFormed
  sound : t'.sound = t.sound
  created_le : t.created ≤ t'.created
  dead : ∀ o, t.Dead o → t'.Dead o

def Triple (pre : Multiset (κ × ℕ)) (m : StateM (ObjectTable κ) α)
    (post : α → Multiset (κ × ℕ) → Prop) : Prop :=
  ∀ t rest, t.WellFormed → t.live = pre + rest →
    ∃ after, post (m.run t).run.1 after ∧ t.Outcome after rest (m.run t).run.2

variable {pre others : Multiset (κ × ℕ)} {m : StateM (ObjectTable κ) α}
  {f : α → StateM (ObjectTable κ) β} {mid : α → Multiset (κ × ℕ) → Prop}
  {post : β → Multiset (κ × ℕ) → Prop} {kind : κ} {name : ℕ} {t t' t'' : ObjectTable κ}
  {after rest : Multiset (κ × ℕ)}

/-! ### Tables -/

theorem empty_wellFormed : (empty : ObjectTable κ).WellFormed where
  nodup := Multiset.nodup_zero
  named := by simp [empty]

theorem Outcome.trans {after' : Multiset (κ × ℕ)} (h : t.Outcome after rest t')
    (h' : t'.Outcome after' rest t'') : t.Outcome after' rest t'' where
  live := h'.live
  wellFormed := h'.wellFormed
  sound := h'.sound.trans h.sound
  created_le := h.created_le.trans h'.created_le
  dead o ho := h'.dead o (h.dead o ho)

theorem run_create : ((create kind).run t).run = (t.created + 1,
    { t with created := t.created + 1, live := (kind, t.created + 1) ::ₘ t.live }) := rfl

theorem run_destroy [DecidableEq κ] : ((destroy kind name).run t).run.2 = if name = 0 then t
    else { t with live := t.live.erase (kind, name),
                  sound := t.sound && decide ((kind, name) ∈ t.live) } := rfl

/-- Nothing makes a table sound again. -/
theorem sound_of_destroy [DecidableEq κ]
    (h : ((destroy kind name).run t).run.2.sound = true) :
    t.sound = true := by
  rw [run_destroy] at h
  split at h
  · exact h
  · exact (Bool.and_eq_true_iff.mp h).1

theorem not_sound_destroy_dead [DecidableEq κ] (h : t.Dead (kind, name)) (hname : name ≠ 0) :
    ((destroy kind name).run t).run.2.sound = false := by
  rw [run_destroy, if_neg hname]
  simp [h.not_live]

theorem Dead.destroy [DecidableEq κ] {o : κ × ℕ} (h : t.Dead o) :
    ((destroy kind name).run t).run.2.Dead o := by
  rw [run_destroy]
  split
  · exact h
  · exact ⟨h.named, fun hmem => h.not_live (Multiset.mem_of_mem_erase hmem)⟩

/-- An object that the computation has not kept is gone. -/
theorem Outcome.dead_of_not_mem (h : t.Outcome after rest t') (hwell : t.WellFormed)
    (hlive : t.live = pre + rest) {o : κ × ℕ} (ho : o ∈ pre) (hafter : o ∉ after) :
    t'.Dead o := by
  have hmem : o ∈ t.live := hlive ▸ Multiset.mem_add.mpr (Or.inl ho)
  have hrest : o ∉ rest := by
    have hnodup := hwell.nodup
    rw [hlive, Multiset.nodup_add] at hnodup
    exact fun hr => Multiset.disjoint_left.mp hnodup.2.2 ho hr
  refine ⟨((hwell.named o hmem).2).trans h.created_le, ?_⟩
  rw [h.live, Multiset.mem_add]
  exact not_or.mpr ⟨hafter, hrest⟩

/-! ### The rules -/

theorem Triple.pure {a : α} (h : mid a pre) : Triple pre (pure a) mid := by
  intro t rest hwell hlive
  exact ⟨pre, h, hlive, hwell, rfl, Nat.le_refl _, fun _ ho => ho⟩

theorem Triple.weaken {mid' : α → Multiset (κ × ℕ) → Prop} (h : Triple pre m mid)
    (himp : ∀ a q, mid a q → mid' a q) : Triple pre m mid' := by
  intro t rest hwell hlive
  obtain ⟨after, hpost, hout⟩ := h t rest hwell hlive
  exact ⟨after, himp _ _ hpost, hout⟩

/-- A computation leaves alone what it does not own. -/
theorem Triple.frame (h : Triple pre m mid) :
    Triple (pre + others) m (fun a q => ∃ own, mid a own ∧ q = own + others) := by
  intro t rest hwell hlive
  obtain ⟨after, hpost, hout⟩ := h t (others + rest) hwell (by rw [hlive, add_assoc])
  refine ⟨after + others, ⟨after, hpost, rfl⟩, ?_, hout.wellFormed, hout.sound, hout.created_le,
    hout.dead⟩
  rw [hout.live, add_assoc]

theorem Triple.bind (h : Triple pre m mid) (hf : ∀ a q, mid a q → Triple q (f a) post) :
    Triple pre (m >>= f) post := by
  intro t rest hwell hlive
  obtain ⟨q, hmid, hout⟩ := h t rest hwell hlive
  obtain ⟨after, hpost, hout'⟩ := hf _ q hmid _ rest hout.wellFormed hout.live
  exact ⟨after, hpost, hout.trans hout'⟩

/-- A computation that owns a part of the objects is called. -/
theorem Triple.call (h : Triple pre m mid)
    (hf : ∀ a q, mid a q → Triple (q + others) (f a) post) :
    Triple (pre + others) (m >>= f) post := by
  refine h.frame.bind fun a q hq => ?_
  obtain ⟨own, hmid, rfl⟩ := hq
  exact hf a own hmid

theorem Triple.create : Triple 0 (create kind) (fun n q => n ≠ 0 ∧ q = owned kind n) := by
  intro t rest hwell hlive
  rw [zero_add] at hlive
  have hnew : ∀ o ∈ t.live, o.2 ≠ t.created + 1 := by
    intro o ho heq
    have hle := (hwell.named o ho).2
    omega
  refine ⟨_, ⟨Nat.succ_ne_zero _, rfl⟩, ?_, ⟨?_, ?_⟩, rfl, Nat.le_succ _, ?_⟩
  · rw [run_create, owned_of_ne (Nat.succ_ne_zero _), hlive]
    rfl
  · refine Multiset.nodup_cons.mpr ⟨fun hmem => hnew _ hmem rfl, hwell.nodup⟩
  · intro o ho
    rcases Multiset.mem_cons.mp ho with rfl | ho
    · exact ⟨Nat.succ_pos _, Nat.le_refl _⟩
    · exact ⟨(hwell.named o ho).1, ((hwell.named o ho).2).trans (Nat.le_succ _)⟩
  · intro o ho
    refine ⟨ho.named.trans (Nat.le_succ _), fun hmem => ?_⟩
    rcases Multiset.mem_cons.mp hmem with heq | hmem
    · have hle := ho.named
      rw [heq] at hle
      exact absurd hle (Nat.not_succ_le_self _)
    · exact ho.not_live hmem

theorem Triple.destroy [DecidableEq κ] :
    Triple (owned kind name) (destroy kind name) (fun _ q => q = 0) := by
  intro t rest hwell hlive
  refine ⟨0, rfl, ?_⟩
  have hdead : ∀ o, t.Dead o → ((ObjectTable.destroy kind name).run t).run.2.Dead o :=
    fun _ ho => ho.destroy
  rw [run_destroy] at hdead ⊢
  by_cases hname : name = 0
  · rw [if_pos hname]
    rw [hname, owned_zero] at hlive
    exact ⟨hlive, hwell, rfl, Nat.le_refl _, fun _ ho => ho⟩
  · rw [if_neg hname] at hdead ⊢
    rw [owned_of_ne hname] at hlive
    have herase : t.live.erase (kind, name) = rest := by
      rw [hlive, Multiset.singleton_add, Multiset.erase_cons_head]
    constructor
    · rw [herase, zero_add]
    · exact ⟨hwell.nodup.erase _, fun o ho => hwell.named o (Multiset.mem_of_mem_erase ho)⟩
    · have hmem : (kind, name) ∈ t.live := by
        rw [hlive]
        exact Multiset.mem_add.mpr (Or.inl (Multiset.mem_singleton_self _))
      simp [hmem]
    · exact Nat.le_refl _
    · exact hdead

theorem Triple.create_bind {f : ℕ → StateM (ObjectTable κ) β}
    (hf : ∀ n, n ≠ 0 → Triple (owned kind n + pre) (f n) post) :
    Triple pre (ObjectTable.create kind >>= f) post := by
  rw [← zero_add pre]
  refine Triple.create.call fun n q hq => ?_
  rw [hq.2]
  exact hf n hq.1

theorem Triple.destroy_bind [DecidableEq κ] {f : Unit → StateM (ObjectTable κ) β}
    (hf : Triple pre (f ()) post) :
    Triple (owned kind name + pre) (ObjectTable.destroy kind name >>= f) post := by
  refine Triple.destroy.call fun _ q hq => ?_
  rw [hq, zero_add]
  exact hf

theorem Triple.map {f : α → β} (h : Triple pre m mid) (hf : ∀ a q, mid a q → post (f a) q) :
    Triple pre (f <$> m) post := by
  rw [map_eq_pure_bind]
  exact h.bind fun a q hq => Triple.pure (hf a q hq)

/-- A loop over variables each of which owns its own objects. -/
theorem Triple.mapM {f : α → StateM (ObjectTable κ) β} {held : α → Multiset (κ × ℕ)}
    {after : β → Multiset (κ × ℕ)} {valid : β → Prop} (as : List α)
    (h : ∀ a ∈ as, Triple (held a) (f a) (fun b q => valid b ∧ q = after b)) :
    Triple (as.map held).sum (as.mapM f)
      (fun bs q => (∀ b ∈ bs, valid b) ∧ q = (bs.map after).sum) := by
  induction as with
  | nil => exact Triple.pure ⟨nofun, rfl⟩
  | cons a as ih =>
      rw [List.mapM_cons, List.map_cons, List.sum_cons]
      refine (h a List.mem_cons_self).call fun b q hb => ?_
      rw [add_comm]
      refine (ih fun a' ha' => h a' (List.mem_cons_of_mem a ha')).call fun bs q' hbs => ?_
      refine Triple.pure ⟨?_, ?_⟩
      · exact List.forall_mem_cons.mpr ⟨hb.1, hbs.1⟩
      · rw [hb.2, hbs.2, List.map_cons, List.sum_cons, add_comm]

end ObjectTable

end DDFramework
