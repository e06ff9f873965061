import DDFramework.Library.Computation
import DDFramework.Model.HidThread

/-! # The search for the input devices

The loop compares the count of the last list it got with the size of its memory. It ends without a
list at all if every call so far has failed and the size has come to the first count. -/

namespace DDFramework.HidThread

variable {first : List RawInputDevice} {attached : ℕ → List RawInputDevice} {k m : ℕ}

/-! ### The counts at each call -/

/-- The greatest number of devices before the call. -/
def capacity (attached : ℕ → List RawInputDevice) : ℕ → ℕ
  | 0 => 0
  | k + 1 => max (capacity attached k) (attached k).length

/-- The number of devices that the last successful call found. -/
def found (first : List RawInputDevice) (attached : ℕ → List RawInputDevice) : ℕ → ℕ
  | 0 => first.length
  | k + 1 =>
    if (attached k).length ≤ capacity attached k then (attached k).length
    else found first attached k

/-- More devices are there at every call, and in the end as many as at the first one. -/
def Climbs (first : List RawInputDevice) (attached : ℕ → List RawInputDevice) : Prop :=
  ∃ k, 0 < (attached 0).length ∧ (∀ j < k, (attached j).length < (attached (j + 1)).length) ∧
    (attached k).length = first.length

/-- At some call there are as many devices as there were at most before. -/
def Settles (first : List RawInputDevice) (attached : ℕ → List RawInputDevice) : Prop :=
  first = [] ∨ ∃ k, (attached k).length = capacity attached k

/-- All calls before this one have failed. -/
def AllFailed (attached : ℕ → List RawInputDevice) (k : ℕ) : Prop :=
  ∀ j < k, capacity attached j < (attached j).length

theorem AllFailed.capacity_succ (h : AllFailed attached (k + 1)) :
    capacity attached (k + 1) = (attached k).length :=
  Nat.max_eq_right (Nat.le_of_lt (h k (Nat.lt_succ_self k)))

theorem AllFailed.mono (h : AllFailed attached m) (hle : k ≤ m) : AllFailed attached k :=
  fun j hj => h j (Nat.lt_of_lt_of_le hj hle)

theorem AllFailed.succ (h : AllFailed attached k)
    (hfail : capacity attached k < (attached k).length) : AllFailed attached (k + 1) := by
  intro j hj
  rcases Nat.lt_succ_iff_lt_or_eq.mp hj with hj | rfl
  · exact h j hj
  · exact hfail

theorem AllFailed.found_eq (h : AllFailed attached k) : found first attached k = first.length := by
  induction k with
  | zero => rfl
  | succ k ih =>
      rw [found, if_neg (Nat.not_le.mpr (h k (Nat.lt_succ_self k)))]
      exact ih (h.mono (Nat.le_succ k))

/-- The calls all fail as long as more devices are there every time. -/
theorem allFailed_succ_iff : AllFailed attached (k + 1) ↔
    0 < (attached 0).length ∧ ∀ j < k, (attached j).length < (attached (j + 1)).length := by
  induction k with
  | zero => simp [AllFailed, capacity]
  | succ k ih =>
      constructor
      · intro h
        have hk := h.mono (Nat.le_succ (k + 1))
        refine ⟨(ih.mp hk).1, fun j hj => ?_⟩
        rcases Nat.lt_succ_iff_lt_or_eq.mp hj with hj | rfl
        · exact (ih.mp hk).2 j hj
        · exact hk.capacity_succ ▸ h (j + 1) (Nat.lt_succ_self _)
      · rintro ⟨hpos, hclimb⟩
        have hk : AllFailed attached (k + 1) :=
          ih.mpr ⟨hpos, fun j hj => hclimb j (Nat.lt_succ_of_lt hj)⟩
        exact hk.succ (hk.capacity_succ ▸ hclimb k (Nat.lt_succ_self k))

theorem climbs_iff : Climbs first attached ↔
    ∃ k, AllFailed attached (k + 1) ∧ (attached k).length = first.length := by
  simp only [Climbs, allFailed_succ_iff, and_assoc]

theorem allFailed_or_found_le (first : List RawInputDevice) (attached : ℕ → List RawInputDevice)
    (k : ℕ) : AllFailed attached k ∨ found first attached k ≤ capacity attached k := by
  induction k with
  | zero => exact Or.inl nofun
  | succ k ih =>
      rw [found, capacity]
      split
      next hle => exact Or.inr (Nat.le_max_right _ _)
      next hlt =>
        refine ih.imp (fun h => h.succ (Nat.not_le.mp hlt)) fun hfound => ?_
        exact Nat.le_trans hfound (Nat.le_max_left _ _)

/-- A failed call ends the loop only if no call has succeeded. -/
theorem allFailed_of_end (hfail : capacity attached k < (attached k).length)
    (hend : found first attached (k + 1) = capacity attached (k + 1)) :
    AllFailed attached (k + 1) := by
  rw [found, if_neg (Nat.not_le.mpr hfail), capacity, Nat.max_eq_right (Nat.le_of_lt hfail)] at hend
  rcases allFailed_or_found_le first attached k with h | h
  · exact h.succ hfail
  · omega

/-- A successful call ends the loop if it fills the list. -/
theorem end_iff_of_success (hle : (attached k).length ≤ capacity attached k) :
    found first attached (k + 1) = capacity attached (k + 1) ↔
      (attached k).length = capacity attached k := by
  rw [found, if_pos hle, capacity, Nat.max_eq_left hle]

/-! ### The loop -/

/-- What the loop knows before the call. -/
structure Query.At (q : Query) (first : List RawInputDevice) (attached : ℕ → List RawInputDevice)
    (k : ℕ) : Prop where
  deviceCount : q.deviceCount.toNat = found first attached k
  secondCount : q.secondCount.toNat = capacity attached k
  capacity_le : capacity attached k ≤ q.deviceList.length
  unwritten : AllFailed attached k → ∀ e ∈ q.deviceList, e = none
  written : ∀ j, k = j + 1 → (attached j).length ≤ capacity attached j →
    (attached j).map some <+: q.deviceList

/-- The counts are `s32` numbers. -/
def Countable (first : List RawInputDevice) (attached : ℕ → List RawInputDevice) : Prop :=
  first.length < 2 ^ 31 ∧ ∀ k, (attached k).length < 2 ^ 31

theorem toNat_count {n : ℕ} (h : n < 2 ^ 31) : (BitVec.ofNat 32 n).toNat = n := by
  rw [BitVec.toNat_ofNat]
  exact Nat.mod_eq_of_lt (by omega)

theorem Query.At.start (h : Countable first attached) :
    (⟨BitVec.ofNat 32 first.length, 0, mallocList (BitVec.ofNat 32 first.length)⟩ : Query).At
      first attached 0 where
  deviceCount := toNat_count h.1
  secondCount := rfl
  capacity_le := Nat.zero_le _
  unwritten _ e he := List.eq_of_mem_replicate he
  written j hj := by cases hj

theorem Query.At.fetch {q : Query} (h : q.At first attached k) (hcount : Countable first attached) :
    (q.fetch (attached k)).At first attached (k + 1) := by
  have hk := toNat_count (hcount.2 k)
  by_cases hle : (attached k).length ≤ capacity attached k
  · have hcapacity : capacity attached (k + 1) = capacity attached k := Nat.max_eq_left hle
    have hlength := Nat.le_trans hle h.capacity_le
    have hresult : BitVec.ofNat 32 (attached k).length ≠ -1 := by
      intro heq
      have hlt := hcount.2 k
      have hmax : (BitVec.ofNat 32 (attached k).length).toNat = 2 ^ 32 - 1 := heq ▸ rfl
      omega
    have hfetch : q.fetch (attached k) = ⟨BitVec.ofNat 32 (attached k).length, q.secondCount,
        overwrite q.deviceList 0 ((attached k).map some)⟩ := by
      simp only [Query.fetch, getRawInputDeviceList, h.secondCount, if_pos hle, if_neg hresult]
    rw [hfetch]
    constructor
    · rw [found, if_pos hle]
      exact hk
    · rw [hcapacity]
      exact h.secondCount
    · rw [hcapacity, length_overwrite (by simpa using hlength)]
      exact h.capacity_le
    · exact fun hall => absurd (hall k (Nat.lt_succ_self k)) (Nat.not_lt.mpr hle)
    · intro j hj _
      cases hj
      simp [overwrite]
  · have hlt := Nat.not_le.mp hle
    have hcapacity : capacity attached (k + 1) = (attached k).length :=
      Nat.max_eq_right (Nat.le_of_lt hlt)
    have hfetch : q.fetch (attached k) = ⟨q.deviceCount, BitVec.ofNat 32 (attached k).length,
        mallocList (BitVec.ofNat 32 (attached k).length)⟩ := by
      simp only [Query.fetch, getRawInputDeviceList, h.secondCount, if_neg hle, if_pos]
    rw [hfetch]
    constructor
    · rw [found, if_neg hle]
      exact h.deviceCount
    · rw [hcapacity]
      exact hk
    · rw [hcapacity, mallocList, List.length_replicate, hk]
    · exact fun _ e he => List.eq_of_mem_replicate he
    · intro j hj hsuccess
      cases hj
      exact absurd hsuccess hle

theorem Query.At.settled_iff {q : Query} (h : q.At first attached k) :
    q.deviceCount = q.secondCount ↔ found first attached k = capacity attached k := by
  rw [← BitVec.toNat_inj, h.deviceCount, h.secondCount]

/-- The loop ends at the first call at which the counts agree. -/
theorem queryLoop_ends (hcount : Countable first attached) {fuel : ℕ} {q q' : Query}
    (h : q.At first attached k) (hloop : queryLoop attached fuel k q = .ok q') :
    ∃ m, q'.At first attached m ∧ found first attached m = capacity attached m ∧
      ∀ j, k ≤ j → j < m → found first attached j ≠ capacity attached j := by
  induction fuel generalizing k q with
  | zero => cases hloop
  | succ fuel ih =>
      rw [queryLoop] at hloop
      split at hloop
      next hend =>
        cases hloop
        exact ⟨k, h, h.settled_iff.mp hend, fun j hk hj => absurd hk (Nat.not_le.mpr hj)⟩
      next hgoes =>
        obtain ⟨m, hm, hend, hbefore⟩ := ih (h.fetch hcount) hloop
        refine ⟨m, hm, hend, fun j hk hj => ?_⟩
        rcases Nat.eq_or_lt_of_le hk with rfl | hlt
        · exact fun heq => hgoes (h.settled_iff.mpr heq)
        · exact hbefore j hlt hj

theorem queryLoop_returns (hcount : Countable first attached) {n : ℕ} {q : Query}
    (h : q.At first attached k)
    (hend : found first attached (k + n) = capacity attached (k + n)) :
    ∃ q', queryLoop attached (n + 1) k q = .ok q' := by
  induction n generalizing k q with
  | zero => exact ⟨q, by rw [queryLoop, if_pos (h.settled_iff.mpr hend)]⟩
  | succ n ih =>
      rw [queryLoop]
      split
      · exact ⟨q, rfl⟩
      · rw [← Nat.add_assoc, Nat.add_right_comm] at hend
        exact ih (h.fetch hcount) hend

/-- The search ends exactly if some call finds as many devices as there were at most before, or no
call has succeeded when the first count comes back. -/
theorem queryDevices_returns_iff (hcount : Countable first attached) :
    (∃ fuel q, queryDevices first attached fuel = .ok q) ↔
      Settles first attached ∨ Climbs first attached := by
  constructor
  · rintro ⟨fuel, q, hquery⟩
    obtain ⟨m, -, hend, -⟩ := queryLoop_ends hcount (Query.At.start hcount) hquery
    cases m with
    | zero => exact Or.inl (Or.inl (List.length_eq_zero_iff.mp hend))
    | succ k =>
        rcases Nat.lt_or_ge (capacity attached k) (attached k).length with hfail | hsuccess
        · have hall := allFailed_of_end hfail hend
          rw [hall.found_eq, hall.capacity_succ] at hend
          exact Or.inr (climbs_iff.mpr ⟨k, hall, hend.symm⟩)
        · exact Or.inl (Or.inr ⟨k, (end_iff_of_success hsuccess).mp hend⟩)
  · intro h
    have hend : ∃ m, found first attached m = capacity attached m := by
      rcases h with (hnil | ⟨k, hk⟩) | hclimbs
      · exact ⟨0, by rw [found, hnil]; rfl⟩
      · exact ⟨k + 1, (end_iff_of_success (Nat.le_of_eq hk)).mpr hk⟩
      · obtain ⟨k, hall, hk⟩ := climbs_iff.mp hclimbs
        exact ⟨k + 1, by rw [hall.found_eq, hall.capacity_succ, hk]⟩
    obtain ⟨m, hm⟩ := hend
    obtain ⟨q, hq⟩ := queryLoop_returns (n := m) hcount (Query.At.start hcount)
      (by rwa [Nat.zero_add])
    exact ⟨m + 1, q, hq⟩

/-! ### The devices in the list -/

variable {getInfo : GetRawInputDeviceInfo} {devices : List RawInputDevice} {handles : Handles}
  {deviceList : DeviceList} {i : ℕ}

/-- A call that fails leaves the `info` as it is. -/
def KeepsInfo (getInfo : GetRawInputDeviceInfo) : Prop :=
  ∀ device, (getInfo device).1 = -1 → (getInfo device).2 = RidDeviceInfo.zero

/-- The check asks for a failure, and after a failure the type is that of a mouse. -/
theorem checkRealKeyboard_eq_false (h : KeepsInfo getInfo) (keyboard : BitVec 64) :
    checkRealKeyboard getInfo keyboard = false := by
  by_cases hresult : (getInfo keyboard).1 = -1
  · have htype : (getInfo keyboard).2.dwType ≠ rimTypeKeyboard := by
      rw [h keyboard hresult]
      decide
    exact if_pos (Or.inr (Or.inr htype))
  · exact if_pos (Or.inl hresult)

/-- The device at the index is a mouse, and the later ones are not. -/
def IsLastMouse (devices : List RawInputDevice) (i : ℕ) : Prop :=
  (∃ device, devices[i]? = some device ∧ device.dwType = rimTypeMouse) ∧
    ∀ j device, i < j → devices[j]? = some device → device.dwType ≠ rimTypeMouse

/-- The handles after the devices, the first of which is at the index. -/
def Handles.visitFrom (getInfo : GetRawInputDeviceInfo) :
    ℕ → Handles → List RawInputDevice → Handles
  | _, handles, [] => handles
  | i, handles, device :: devices =>
    visitFrom getInfo (i + 1) (handles.visit getInfo i device) devices

theorem findDevicesFrom_written (h : devices.map some <+: deviceList.drop i) :
    findDevicesFrom getInfo deviceList devices.length i handles =
      .ok (handles.visitFrom getInfo i devices) := by
  induction devices generalizing i handles with
  | nil => rfl
  | cons device devices ih =>
      obtain ⟨rest, hrest⟩ := h
      have hread : deviceList[i]? = some (some device) := by
        have hhead := congrArg (·[0]?) hrest
        simpa using hhead.symm
      have htail : devices.map some <+: deviceList.drop (i + 1) := by
        refine ⟨rest, ?_⟩
        have hdrop := congrArg (List.drop 1) hrest
        simpa [List.drop_drop, Nat.add_comm] using hdrop
      simp only [List.length_cons, findDevicesFrom, readDevice, hread, ok_bind]
      exact ih htail

theorem findDevicesFrom_unwritten {n : ℕ} (hnone : ∀ e ∈ deviceList, e = none) (hn : n ≠ 0)
    (hi : i < deviceList.length) :
    findDevicesFrom getInfo deviceList n i handles = .error .unwritten := by
  obtain ⟨n, rfl⟩ := Nat.exists_eq_succ_of_ne_zero hn
  have hread : deviceList[i]? = some none := by
    rw [List.getElem?_eq_getElem hi, hnone _ (List.getElem_mem hi)]
  simp only [findDevicesFrom, readDevice, hread, error_bind]

theorem visitFrom_concat (device : RawInputDevice) :
    handles.visitFrom getInfo i (devices ++ [device]) =
      (handles.visitFrom getInfo i devices).visit getInfo (i + devices.length) device := by
  induction devices generalizing i handles with
  | nil => rfl
  | cons head devices ih =>
      rw [List.cons_append, Handles.visitFrom, ih, Handles.visitFrom, List.length_cons,
        Nat.add_assoc, Nat.add_comm 1]

theorem visit_keyboard (h : KeepsInfo getInfo) (device : RawInputDevice) :
    (handles.visit getInfo i device).keyboard = handles.keyboard := by
  have hcheck := checkRealKeyboard_eq_false h device.hDevice
  simp only [Handles.visit, hcheck, Bool.false_eq_true, and_false, if_false]
  split <;> rfl

theorem visit_mouse (device : RawInputDevice) : (handles.visit getInfo i device).mouse =
    if device.dwType = rimTypeMouse then some i else handles.mouse := by
  simp only [Handles.visit]
  split
  · rfl
  · split <;> rfl

/-- What the handles are after all the devices: no keyboard, and the last mouse. -/
theorem visitFrom_spec (h : KeepsInfo getInfo) (devices : List RawInputDevice) :
    (Handles.visitFrom getInfo 0 ⟨none, none⟩ devices).keyboard = none ∧
      ∀ i, (Handles.visitFrom getInfo 0 ⟨none, none⟩ devices).mouse = some i ↔
        IsLastMouse devices i := by
  induction devices using List.reverseRecOn with
  | nil => exact ⟨rfl, fun i => by simp [Handles.visitFrom, IsLastMouse]⟩
  | append_singleton devices device ih =>
      rw [visitFrom_concat, visit_keyboard h, visit_mouse, Nat.zero_add]
      refine ⟨ih.1, fun i => ?_⟩
      have hlast : (devices ++ [device])[devices.length]? = some device := by simp
      have hbefore : ∀ j < devices.length, (devices ++ [device])[j]? = devices[j]? :=
        fun j hj => List.getElem?_append_left hj
      have hafter : ∀ j d, (devices ++ [device])[j]? = some d → j ≤ devices.length := by
        intro j d hj
        have hlt := (List.getElem?_eq_some_iff.mp hj).1
        rw [List.length_append, List.length_singleton] at hlt
        omega
      split
      next hmouse =>
        rw [Option.some.injEq]
        constructor
        · rintro rfl
          refine ⟨⟨device, hlast, hmouse⟩, fun j d hj hd => ?_⟩
          exact absurd (hafter j d hd) (Nat.not_le.mpr hj)
        · rintro ⟨⟨d, hd, -⟩, hnone⟩
          rcases Nat.eq_or_lt_of_le (hafter i d hd) with heq | hlt
          · exact heq.symm
          · exact absurd hmouse (hnone _ device hlt hlast)
      next hmouse =>
        rw [ih.2 i]
        constructor
        · rintro ⟨⟨d, hd, htype⟩, hnone⟩
          have hi := (List.getElem?_eq_some_iff.mp hd).1
          refine ⟨⟨d, by rwa [hbefore i hi], htype⟩, fun j e hj he => ?_⟩
          rcases Nat.eq_or_lt_of_le (hafter j e he) with rfl | hlt
          · cases hlast.symm.trans he
            exact hmouse
          · exact hnone j e hj (by rwa [← hbefore j hlt])
        · rintro ⟨⟨d, hd, htype⟩, hnone⟩
          rcases Nat.eq_or_lt_of_le (hafter i d hd) with rfl | hlt
          · cases hlast.symm.trans hd
            exact absurd htype hmouse
          · refine ⟨⟨d, by rwa [← hbefore i hlt], htype⟩, fun j e hj he => ?_⟩
            have hj' := (List.getElem?_eq_some_iff.mp he).1
            exact hnone j e hj (by rwa [hbefore j hj'])

/-! ### The whole search -/

/-- The devices of one call are found as they were, without a keyboard and with the last mouse. -/
def FindsDevices (getInfo : GetRawInputDeviceInfo) (attached : ℕ → List RawInputDevice)
    (q : Query) : Prop :=
  ∃ devices handles, (devices = [] ∨ ∃ k, devices = attached k) ∧
    q.deviceCount.toNat = devices.length ∧ q.findDevices getInfo = .ok handles ∧
    handles.keyboard = none ∧ ∀ i, handles.mouse = some i ↔ IsLastMouse devices i

theorem findsDevices_of_prefix (h : KeepsInfo getInfo) {q : Query}
    (hsource : devices = [] ∨ ∃ k, devices = attached k)
    (hlength : q.deviceCount.toNat = devices.length)
    (hwritten : devices.map some <+: q.deviceList) : FindsDevices getInfo attached q := by
  have hspec := visitFrom_spec h devices
  refine ⟨devices, _, hsource, hlength, ?_, hspec⟩
  rw [Query.findDevices, hlength]
  exact findDevicesFrom_written (by rwa [List.drop_zero])

/-- The search ends exactly if some call finds as many devices as there were at most before, or no
call has succeeded when the first count comes back. In the second case, which is that of a count
that does not change, the elements of the list are read without having been written; in the first
the last mouse of the list is found, and never a keyboard. -/
theorem findDevices_runs (hcount : Countable first attached) (hinfo : KeepsInfo getInfo) :
    ((∃ fuel q, queryDevices first attached fuel = .ok q) ↔
      Settles first attached ∨ Climbs first attached) ∧
    ∀ fuel q, queryDevices first attached fuel = .ok q →
      (Climbs first attached → q.findDevices getInfo = .error .unwritten) ∧
      (¬ Climbs first attached → FindsDevices getInfo attached q) := by
  refine ⟨queryDevices_returns_iff hcount, fun fuel q hquery => ?_⟩
  obtain ⟨m, hm, hend, hbefore⟩ := queryLoop_ends hcount (Query.At.start hcount) hquery
  have hlength := hm.deviceCount
  cases m with
  | zero =>
      refine ⟨fun hclimbs => ?_, fun _ => ?_⟩
      · obtain ⟨k, hall, hk⟩ := climbs_iff.mp hclimbs
        have hpos := hall k (Nat.lt_succ_self k)
        rw [found, capacity] at hend
        omega
      · exact findsDevices_of_prefix hinfo (Or.inl rfl) (hlength.trans hend) List.nil_prefix
  | succ k =>
      rcases Nat.lt_or_ge (capacity attached k) (attached k).length with hfail | hsuccess
      · have hall := allFailed_of_end hfail hend
        have hclimbs : Climbs first attached := by
          rw [hall.found_eq, hall.capacity_succ] at hend
          exact climbs_iff.mpr ⟨k, hall, hend.symm⟩
        refine ⟨fun _ => ?_, fun hnot => absurd hclimbs hnot⟩
        have hcapacity := hm.capacity_le
        rw [hall.capacity_succ] at hcapacity
        refine findDevicesFrom_unwritten (hm.unwritten hall) ?_ (by omega)
        rw [hlength, hend, hall.capacity_succ]
        omega
      · refine ⟨fun hclimbs => ?_, fun _ => ?_⟩
        · obtain ⟨n, hall, hn⟩ := climbs_iff.mp hclimbs
          -- the loop ends at the call after `n` at the latest, and all calls up to there fail
          have hle : k + 1 ≤ n + 1 := by
            refine Nat.le_of_not_lt fun hlt => hbefore (n + 1) (Nat.zero_le _) hlt ?_
            rw [hall.found_eq, hall.capacity_succ, hn]
          exact absurd (hall k hle) (Nat.not_lt.mpr hsuccess)
        · rw [found, if_pos hsuccess] at hlength
          exact findsDevices_of_prefix hinfo (Or.inr ⟨k, rfl⟩) hlength
            (hm.written k rfl hsuccess)

theorem findDevices_runs_mouseAndKeyboard :
    let mouse : RawInputDevice := ⟨1, rimTypeMouse⟩
    let keyboard : RawInputDevice := ⟨2, rimTypeKeyboard⟩
    let getInfo : GetRawInputDeviceInfo := fun _ => (32, ⟨rimTypeKeyboard, 101⟩)
    -- both stay attached, or the keyboard goes before the first list
    (∀ fuel q, queryDevices [mouse, keyboard] (fun _ => [mouse, keyboard]) fuel = .ok q →
      q.findDevices getInfo = .error .unwritten) ∧
    ∃ fuel q, queryDevices [mouse, keyboard] (fun _ => [mouse]) fuel = .ok q ∧
      FindsDevices getInfo (fun _ => [mouse]) q := by
  intro mouse keyboard getInfo
  have hinfo : KeepsInfo getInfo := fun _ h => absurd h (by decide)
  have htwo : Countable [mouse, keyboard] fun _ => [mouse, keyboard] :=
    ⟨by decide, fun _ => Nat.lt_of_le_of_lt (Nat.le_refl 2) (by decide)⟩
  have hone : Countable [mouse, keyboard] fun _ => [mouse] :=
    ⟨by decide, fun _ => Nat.lt_of_le_of_lt (Nat.le_refl 1) (by decide)⟩
  have hclimbs : Climbs [mouse, keyboard] fun _ => [mouse, keyboard] := ⟨0, by decide, nofun, rfl⟩
  refine ⟨fun fuel q hq => ((findDevices_runs htwo hinfo).2 fuel q hq).1 hclimbs, ?_⟩
  obtain ⟨fuel, q, hq⟩ := (findDevices_runs hone hinfo).1.mpr (Or.inl (Or.inr ⟨1, rfl⟩))
  refine ⟨fuel, q, hq, ((findDevices_runs hone hinfo).2 fuel q hq).2 ?_⟩
  rintro ⟨k, -, -, hk⟩
  cases hk

end DDFramework.HidThread
