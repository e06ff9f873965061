import DDFramework.Library.Registry
import DDFramework.Model.ResourceManager
import DDFramework.Verification.Heap.Searches
import DDFramework.Verification.IntrusiveList.Sequences
import DDFramework.Verification.PathUtil.Splitting

/-! # Searches in the lists of the managers

After any calls, a manager finds the matching factory or device that has been in its list for the
longest time. -/

namespace DDFramework

open Registry IntrusiveList

/-! ### Comparisons -/

theorem cString_cons (c : CChar) (cs : List CChar) :
    cString (c :: cs) = if c = 0 then [] else c :: cString cs := by
  simp only [cString, List.takeWhile_cons]
  split
  next hc => simpa using hc
  next hc => simpa using hc

/-- Characters that differ are not equal as numbers. -/
theorem toNat_sub_toNat_ne_zero {c d : CChar} (h : c ≠ d) : (c.toNat - d.toNat : ℤ) ≠ 0 := by
  rw [sub_ne_zero, Int.ofNat_inj.ne, ne_eq, BitVec.toNat_inj]
  exact h

theorem strncmpFrom_eq_zero_iff {cs ds : List CChar} {n i : ℕ} (hcs : cs.length = i + n)
    (hds : ds.length = i + n) :
    ∃ r, strncmpFrom (listSource cs) (listSource ds) n i = .ok r ∧
      (r = 0 ↔ cString (cs.drop i) = cString (ds.drop i)) := by
  induction n generalizing i with
  | zero =>
      rw [Nat.add_zero] at hcs hds
      refine ⟨0, rfl, iff_of_true rfl ?_⟩
      rw [List.drop_of_length_le (Nat.le_of_eq hcs), List.drop_of_length_le (Nat.le_of_eq hds)]
  | succ n ih =>
      have hc : i < cs.length := by omega
      have hd : i < ds.length := by omega
      obtain ⟨r, hr, hiff⟩ := ih (i := i + 1) (by omega) (by omega)
      simp only [strncmpFrom, listSource_of_lt hc, listSource_of_lt hd, ok_bind,
        List.drop_eq_getElem_cons hc, List.drop_eq_getElem_cons hd, cString_cons, hr]
      generalize cs[i] = c, ds[i] = d
      by_cases hne : c = d
      · subst d
        rw [if_neg (not_not_intro rfl)]
        by_cases hzero : c = 0
        · exact ⟨0, if_pos hzero, iff_of_true rfl (by rw [if_pos hzero, if_pos hzero])⟩
        · exact ⟨r, if_neg hzero, by rw [if_neg hzero, if_neg hzero, hiff, List.cons_inj_right]⟩
      · refine ⟨_, if_pos hne, iff_of_false (toNat_sub_toNat_ne_zero hne) ?_⟩
        by_cases hzero : c = 0
        · rw [if_pos hzero, if_neg fun h => hne (hzero.trans h.symm)]
          exact (List.cons_ne_nil _ _).symm
        · rw [if_neg hzero]
          split
          · exact List.cons_ne_nil _ _
          · exact fun heq => hne (List.cons.inj heq).1

/-- The comparison of two strings in arrays of the given size stays inside them. -/
theorem strncmp_read {size : BufferSize} (s t : FixedString size) :
    ∃ r, strncmp s.read t.read size.val = .ok r ∧ (r = 0 ↔ s.text = t.text) := by
  have hs : s.stringArray.length = 0 + size.val := by rw [s.stringArray_length, Nat.zero_add]
  have ht : t.stringArray.length = 0 + size.val := by rw [t.stringArray_length, Nat.zero_add]
  exact strncmpFrom_eq_zero_iff hs ht

namespace Res

variable {N : Type} [DecidableEq N]

/-! ### The list of a manager -/

/-- The list holds the live entries. -/
structure Holds (L : Links (Unit ⊕ N)) (calls : List (Registry.Call N)) (entries : List N) :
    Prop where
  represents : Represents L (fun _ => entries)
  lists : Lists calls entries
  length_le : entries.length ≤ calls.length

variable {L : Links (Unit ⊕ N)} {calls : List (Registry.Call N)} {entries : List N} {entry : N}

omit [DecidableEq N] in
theorem holds_nil : Holds (Links.detached (Unit ⊕ N)) [] [] where
  represents := detached_represents
  lists := Lists.nil
  length_le := Nat.le_refl 0

theorem Holds.isLinked_iff (h : Holds L calls entries) :
    L.isLinked (.inr entry) = true ↔ entry ∈ entries := by
  rw [Links.isLinked_iff, ne_eq, h.represents.detached_iff]
  simp

theorem Holds.add (h : Holds L calls entries) (hfresh : entry ∉ entries) :
    Holds (L.pushBack (.inl ()) (.inr entry)) (calls ++ [.add entry]) (entries ++ [entry]) where
  represents := by
    have hpushed := h.represents.pushBack (l := ()) (x := entry) fun _ => hfresh
    have hupdate : Function.update (fun _ : Unit => entries) () (entries ++ [entry]) =
        fun _ => entries ++ [entry] := Function.update_eq_const_of_subsingleton ..
    exact hupdate ▸ hpushed
  lists := h.lists.add hfresh
  length_le := by simpa using h.length_le

theorem Holds.remove (h : Holds L calls entries) :
    Holds (L.unlink (.inr entry)) (calls ++ [.remove entry]) (entries.erase entry) where
  represents := h.represents.remove entry
  lists := h.lists.remove (h.represents.nodup ())
  length_le := by
    have hle := List.length_erase_le (a := entry) (l := entries)
    have hlength := h.length_le
    rw [List.length_append]
    omega

/-- A loop that leaves the list at the first entry with a property. -/
theorem Holds.rangeFor_find? (h : Holds L calls entries) {fuel : ℕ} (hfuel : calls.length < fuel)
    {body : Unit ⊕ N → Option N → Except Fault (LoopExit (Option N))} {p : N → Bool}
    (hbody : ∀ x ∈ entries, ∀ found, body (.inr x) found =
      if p x then .ok (.stop (some x)) else .ok (.next found)) :
    rangeFor (fun _ => L) (.inl ()) body fuel none = .ok (entries.find? p) := by
  have hlength : (entries.map Sum.inr : List (Unit ⊕ N)).length < fuel := by
    rw [List.length_map]
    exact Nat.lt_of_le_of_lt h.length_le hfuel
  rw [rangeFor_eq_visit (fun _ => True) h.represents.coherent (h.represents.ring ()) hlength
    (fun _ _ _ _ _ _ => ⟨rfl, trivial⟩) trivial]
  clear hlength
  have hvisit : ∀ xs : List N, (∀ x ∈ xs, x ∈ entries) →
      visit body (xs.map .inr) .ok none = .ok (xs.find? p) := by
    intro xs hxs
    induction xs with
    | nil => rfl
    | cons x xs ih =>
        have hx := hbody x (hxs x List.mem_cons_self) none
        by_cases hp : p x = true
        · rw [if_pos hp] at hx
          rw [List.map_cons, visit_stop hx, List.find?_cons_of_pos hp]
        · rw [if_neg hp] at hx
          rw [List.map_cons, visit_next hx, List.find?_cons_of_neg hp]
          exact ih fun y hy => hxs y (List.mem_cons_of_mem x hy)
  exact hvisit entries fun _ hx => hx

/-! ### Devices -/

namespace FileDeviceManager

/-- A device is added while it is in no list. -/
def next (m : FileDeviceManager N) (fileDevice : N) : Option (FileDeviceManager N) :=
  if m.links.isLinked (.inr fileDevice) then none
  else (m.addFileDevice (some fileDevice)).toOption

variable {m m' : FileDeviceManager N} {added : List N}

theorem next_holds {fileDevice : N} (h : Holds m.links calls entries)
    (hstep : m.next fileDevice = some m') :
    Holds m'.links (calls ++ [.add fileDevice]) (entries ++ [fileDevice]) := by
  rw [next, Option.ite_none_left_eq_some, h.isLinked_iff] at hstep
  obtain ⟨hfresh, hadd⟩ := hstep
  cases hadd
  exact h.add hfresh

theorem run_holds (h : Machine.run next ⟨Links.detached (Unit ⊕ N)⟩ added = some m) :
    ∃ entries, Holds m.links (added.map Registry.Call.add) entries := by
  refine Machine.run_invariant
    (I := fun as t => ∃ entries, Holds t.links (as.map Registry.Call.add) entries)
    ⟨[], holds_nil⟩ ?_ h
  rintro as a t t' - ⟨entries, hholds⟩ hstep
  rw [List.map_append]
  exact ⟨entries ++ [a], next_holds hholds hstep⟩

/-- The device found is the one that was added first of those with the name. -/
theorem getFileDeviceByName_runs {σ : Type} (devices : N → FileDeviceBase σ)
    (h : Machine.run next ⟨Links.detached (Unit ⊕ N)⟩ added = some m) {fuel : ℕ}
    (hfuel : added.length < fuel) (name : FixedString maxDrive) :
    ∃ found, m.getFileDeviceByName devices fuel name.read = .ok found ∧ ∀ device,
      found = some device ↔ Earliest (added.map Registry.Call.add)
        (fun d => (devices d).deviceName.text = name.text) device := by
  obtain ⟨entries, hholds⟩ := run_holds h
  refine ⟨entries.find? fun d => decide ((devices d).deviceName.text = name.text), ?_, ?_⟩
  · refine hholds.rangeFor_find? (by rwa [List.length_map]) fun d _ found => ?_
    obtain ⟨r, hr, hiff⟩ := strncmp_read (devices d).deviceName name
    simp only [hr, ok_bind, hiff, decide_eq_true_eq]
  · intro device
    simpa using hholds.lists.find?_eq_some_iff (fun d =>
      decide ((devices d).deviceName.text = name.text)) device

end FileDeviceManager

/-! ### Factories -/

namespace ResourceFactoryManager

variable {D R σ : Type} (objects : ResourceObjects D N R σ)

/-- A factory is registered while it is in no list. -/
def next (m : ResourceFactoryManager N) : Registry.Call N → Option (ResourceFactoryManager N)
  | .add factory =>
    if m.links.isLinked (.inr factory) then none
    else (m.registerResourceFactory objects factory).toOption
  | .remove factory => some (m.removeResourceFactory factory)

variable {objects} {m m' : ResourceFactoryManager N}

/-- The factories in the list have an extension. -/
def Named (objects : ResourceObjects D N R σ) (entries : List N) : Prop :=
  ∀ factory ∈ entries, (objects.factories factory).fileExtension.isSome

theorem next_holds {call : Registry.Call N} (h : Holds m.links calls entries)
    (hnamed : Named objects entries) (hstep : m.next objects call = some m') :
    ∃ entries', Holds m'.links (calls ++ [call]) entries' ∧ Named objects entries' := by
  cases call with
  | add factory =>
      rw [next, Option.ite_none_left_eq_some, h.isLinked_iff, toOption_eq_some,
        registerResourceFactory] at hstep
      obtain ⟨hfresh, hregister⟩ := hstep
      split at hregister
      next hextension =>
        cases hregister
        refine ⟨entries ++ [factory], h.add hfresh, fun f hf => ?_⟩
        rcases List.mem_append.mp hf with hold | hnew
        · exact hnamed f hold
        · exact List.mem_singleton.mp hnew ▸ hextension
      next => cases hregister
  | remove factory =>
      cases hstep
      exact ⟨entries.erase factory, h.remove, fun f hf => hnamed f (List.mem_of_mem_erase hf)⟩

theorem run_holds
    (h : Machine.run (next objects) ⟨Links.detached (Unit ⊕ N)⟩ calls = some m) :
    ∃ entries, Holds m.links calls entries ∧ Named objects entries := by
  refine Machine.run_invariant
    (I := fun as t => ∃ entries, Holds t.links as entries ∧ Named objects entries)
    ⟨[], holds_nil, by simp [Named]⟩ ?_ h
  rintro as a t t' - ⟨entries, hholds, hnamed⟩ hstep
  exact next_holds hholds hnamed hstep

/-- After any calls, the factory found is the one that was registered first of those that are
registered for the extension, and there is none only if no factory is. -/
theorem findResourceFactory_runs
    (h : Machine.run (next objects) ⟨Links.detached (Unit ⊕ N)⟩ calls = some m) {fuel : ℕ}
    (hfuel : calls.length < fuel) (extension : CString) :
    ∃ found, m.findResourceFactory objects fuel extension = .ok found ∧
      (∀ factory, found = some factory ↔ Earliest calls
        (fun f => (objects.factories f).fileExtension = some extension) factory) ∧
      (found = none ↔ ∀ factory i, LiveSince calls factory i →
        (objects.factories factory).fileExtension ≠ some extension) := by
  obtain ⟨entries, hholds, hnamed⟩ := run_holds h
  refine ⟨entries.find? fun f => decide ((objects.factories f).fileExtension = some extension),
    ?_, ?_, ?_⟩
  · refine hholds.rangeFor_find? hfuel fun f hf found => ?_
    obtain ⟨own, hown⟩ := Option.isSome_iff_exists.mp (hnamed f hf)
    simp only [hown, HeapMemory.strcmp_eq_zero_iff, Option.some.injEq, decide_eq_true_eq]
  · intro factory
    simpa using hholds.lists.find?_eq_some_iff (fun f =>
      decide ((objects.factories f).fileExtension = some extension)) factory
  · simpa using hholds.lists.find?_eq_none_iff (fun f =>
      decide ((objects.factories f).fileExtension = some extension))

/-- Two factories for the extension `a`, and a device without a name. -/
def sameExtension : ResourceObjects Unit Bool Unit (List (BitVec 32)) where
  devices _ :=
    ⟨FixedString.zeroed maxDrive,
      fun context s => .ok (resultSuccess, { context with fileSize := 7 }, s)⟩
  factories _ := ⟨some ⟨[0x61], by decide⟩, fun _ _ s => (some (), s), 4⟩
  resources _ := ⟨fun _ _ fileSize s => fileSize :: s⟩

/-- The factory that was registered first is removed. -/
theorem findResourceFactory_runs_sameExtension :
    ∃ m, Machine.run (next sameExtension) ⟨Links.detached (Unit ⊕ Bool)⟩
        [.add true, .add false, .remove true] = some m ∧
      m.findResourceFactory sameExtension 4 ⟨[0x61], by decide⟩ = .ok (some false) ∧
      Earliest [.add true, .add false, .remove true]
        (fun f => (sameExtension.factories f).fileExtension = some ⟨[0x61], by decide⟩) false := by
  obtain ⟨m, hm⟩ : ∃ m, Machine.run (next sameExtension) ⟨Links.detached (Unit ⊕ Bool)⟩
      [.add true, .add false, .remove true] = some m := ⟨_, rfl⟩
  obtain ⟨found, hfound, hearliest, -⟩ :=
    findResourceFactory_runs hm (by decide : 3 < 4) ⟨[0x61], by decide⟩
  have hcall : m.findResourceFactory sameExtension 4 ⟨[0x61], by decide⟩ = .ok (some false) := by
    cases hm
    rfl
  cases hcall.symm.trans hfound
  exact ⟨m, hm, hcall, (hearliest false).mp rfl⟩

end ResourceFactoryManager

end Res

end DDFramework
