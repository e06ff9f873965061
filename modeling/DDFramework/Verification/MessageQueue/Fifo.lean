import DDFramework.Library.CircularBuffer
import DDFramework.Library.Computation
import DDFramework.Library.FifoQueue
import DDFramework.Model.MessageQueue
import Mathlib.Data.List.Infix

/-! # The message queue is a bounded queue

The pending messages are a window of the buffer that starts at the current message. -/

namespace DDFramework.MessageQueue

/-! ### Signed comparison of small numbers -/

theorem toInt_eq_toNat {a : BitVec 32} (ha : a.toNat < 2147483648) : a.toInt = a.toNat :=
  BitVec.toInt_eq_toNat_of_lt (by omega)

theorem sle_iff {a b : BitVec 32} (ha : a.toNat < 2147483648) (hb : b.toNat < 2147483648) :
    a.sle b = true ↔ a.toNat ≤ b.toNat := by
  rw [BitVec.sle_iff_toInt_le, toInt_eq_toNat ha, toInt_eq_toNat hb, Int.ofNat_le]

/-- The index computation of the code, on numbers below the capacity. -/
theorem toNat_wrap {a capacity : BitVec 32} (hcapacity : capacity.toNat ≤ 1073741824)
    (ha : a.toNat < 2147483648) :
    (if capacity.sle a then a - capacity else a).toNat = wrap capacity.toNat a.toNat := by
  have hle := sle_iff (a := capacity) (b := a) (by omega) ha
  by_cases h : capacity.toNat ≤ a.toNat
  · rw [if_pos (hle.mpr h), wrap, if_pos h, BitVec.toNat_sub_of_le h]
  · rw [if_neg (fun he => h (hle.mp he)), wrap, if_neg h]

theorem toNat_add_of_lt {a b : BitVec 32} (h : a.toNat + b.toNat < 4294967296) :
    (a + b).toNat = a.toNat + b.toNat := by
  rw [BitVec.toNat_add, Nat.mod_eq_of_lt h]

/-! ### The queue and its messages -/

/-- The queue holds the messages `xs`, the oldest one first. -/
structure Holds (q : MessageQueue) (xs : List (BitVec 64)) : Prop where
  capacity_le : q.maxMessages.toNat ≤ 1073741824
  length : q.messageBuffer.length = q.maxMessages.toNat
  pending : q.pendingMessages.toNat = xs.length
  window : Window q.messageBuffer q.currentMessage.toNat xs

variable {q : MessageQueue} {xs : List (BitVec 64)} {x : BitVec 64}

theorem initialized_holds {buffer : List (BitVec 64)} {max : BitVec 32} (hpos : 0 < max.toNat)
    (hle : max.toNat ≤ 1073741824) (hbuffer : buffer.length = max.toNat) :
    Holds (initialized buffer max) [] where
  capacity_le := hle
  length := hbuffer
  pending := rfl
  window := Window.nil (by simpa [initialized, hbuffer] using hpos)

namespace Holds

theorem length_le (h : Holds q xs) : xs.length ≤ q.maxMessages.toNat := h.length ▸ h.window.length_le

theorem current_lt (h : Holds q xs) : q.currentMessage.toNat < q.maxMessages.toNat :=
  h.length ▸ h.window.start_lt

theorem waitForMessage_iff (h : Holds q xs) : q.waitForMessage = true ↔ xs = [] := by
  rw [waitForMessage, beq_iff_eq, ← BitVec.toNat_inj, h.pending, ← List.length_eq_zero_iff]
  rfl

theorem waitForMessageClear_iff (h : Holds q xs) :
    q.waitForMessageClear = true ↔ xs.length = q.maxMessages.toNat := by
  have hcapacity := h.capacity_le
  have hlength := h.length_le
  rw [waitForMessageClear, sle_iff (by omega) (by rw [h.pending]; omega), h.pending]
  exact ⟨fun hle => Nat.le_antisymm hlength hle, Nat.le_of_eq ∘ Eq.symm⟩

/-- The index of `SendMessageImpl` is the cell after the window. -/
theorem send_index (h : Holds q xs) :
    (if q.maxMessages.sle (q.pendingMessages + q.currentMessage) then
        q.pendingMessages + q.currentMessage - q.maxMessages
      else q.pendingMessages + q.currentMessage).toNat =
    wrap q.messageBuffer.length (q.currentMessage.toNat + xs.length) := by
  have hcapacity := h.capacity_le
  have hlength := h.length_le
  have hcurrent := h.current_lt
  have hpending := h.pending
  have hadd := toNat_add_of_lt (a := q.pendingMessages) (b := q.currentMessage) (by omega)
  rw [toNat_wrap hcapacity (by omega), hadd, h.pending, h.length, Nat.add_comm]

theorem sendMessageImpl (h : Holds q xs) (hlt : xs.length < q.maxMessages.toNat)
    (message : BitVec 64) :
    ∃ q', q.sendMessageImpl message = .ok q' ∧ Holds q' (xs ++ [message]) ∧
      q'.maxMessages = q.maxMessages := by
  have hcapacity := h.capacity_le
  have hcurrent := h.current_lt
  have hindex := h.send_index
  have hwrap : wrap q.messageBuffer.length (q.currentMessage.toNat + xs.length) <
      q.messageBuffer.length := wrap_lt (by rw [h.length]; omega)
  have hbound := h.length
  simp only [MessageQueue.sendMessageImpl, store]
  generalize (if q.maxMessages.sle (q.pendingMessages + q.currentMessage) then
    q.pendingMessages + q.currentMessage - q.maxMessages
    else q.pendingMessages + q.currentMessage) = index at hindex ⊢
  have hsmall : index.toNat < 2147483648 := by omega
  rw [if_pos ⟨by rw [toInt_eq_toNat hsmall]; omega, by omega⟩]
  refine ⟨_, rfl, ⟨hcapacity, ?_, ?_, ?_⟩, rfl⟩
  · simpa using h.length
  · have hpending := h.pending
    simp only [List.length_append, List.length_singleton]
    rw [toNat_add_of_lt (by rw [hpending]; simp; omega), hpending]
    rfl
  · rw [hindex]
    exact h.window.concat (by omega) message

theorem recieveMessageImpl (h : Holds q (x :: xs)) :
    ∃ q', q.recieveMessageImpl = .ok (x, q') ∧ Holds q' xs ∧ q'.maxMessages = q.maxMessages := by
  have hcapacity := h.capacity_le
  have hcurrent := h.current_lt
  have hload : q.load q.currentMessage = .ok x := by
    rw [load, toInt_eq_toNat (by omega), if_pos (by omega), h.window.head]
  simp only [MessageQueue.recieveMessageImpl, hload, ok_bind]
  refine ⟨_, rfl, ⟨hcapacity, h.length, ?_, ?_⟩, rfl⟩
  · have hpending := h.pending
    rw [List.length_cons] at hpending
    rw [BitVec.toNat_sub_of_le (by rw [BitVec.le_def, hpending]; simp), hpending]
    rfl
  · have hadd := toNat_add_of_lt (a := q.currentMessage) (b := 1#32) (by simp; omega)
    have hone : (1#32).toNat = 1 := rfl
    have hwrap := toNat_wrap (a := q.currentMessage + 1#32) hcapacity (by omega)
    have hsub : q.currentMessage + 1#32 -
        (if q.maxMessages.sle (q.currentMessage + 1#32) then q.maxMessages else 0#32) =
        if q.maxMessages.sle (q.currentMessage + 1#32) then
          q.currentMessage + 1#32 - q.maxMessages else q.currentMessage + 1#32 := by
      split
      · rfl
      · exact BitVec.sub_zero _
    rw [hsub, hwrap, hadd, hone, ← h.length]
    exact h.window.tail

/-! ### The calls -/

theorem sendMessage_full (h : Holds q xs) (hfull : xs.length = q.maxMessages.toNat)
    (message : BitVec 64) : q.sendMessage message = .ok (false, q) := by
  rw [sendMessage, if_pos (h.waitForMessageClear_iff.mpr hfull)]

theorem sendMessage_room (h : Holds q xs) (hfull : xs.length ≠ q.maxMessages.toNat)
    (message : BitVec 64) :
    ∃ q', q.sendMessage message = .ok (true, q') ∧ Holds q' (xs ++ [message]) ∧
      q'.maxMessages = q.maxMessages := by
  obtain ⟨q', hq, hholds, hmax⟩ := h.sendMessageImpl (lt_of_le_of_ne h.length_le hfull) message
  refine ⟨q', ?_, hholds, hmax⟩
  rw [sendMessage, if_neg (fun he => hfull (h.waitForMessageClear_iff.mp he)), hq, ok_bind]

theorem receiveMessage_empty (h : Holds q []) : q.receiveMessage = .ok (none, q) := by
  rw [receiveMessage, if_pos (h.waitForMessage_iff.mpr rfl)]

theorem receiveMessage_some (h : Holds q (x :: xs)) :
    ∃ q', q.receiveMessage = .ok (some x, q') ∧ Holds q' xs ∧ q'.maxMessages = q.maxMessages := by
  obtain ⟨q', hq, hholds, hmax⟩ := h.recieveMessageImpl
  refine ⟨q', ?_, hholds, hmax⟩
  rw [receiveMessage, if_neg (fun he => List.cons_ne_nil x xs (h.waitForMessage_iff.mp he)), hq,
    ok_bind]

end Holds

theorem trySendMessage_eq (q : MessageQueue) (message : BitVec 64) :
    q.trySendMessage message = q.sendMessage message := rfl

theorem tryReceiveMessage_eq (q : MessageQueue) : q.tryReceiveMessage = q.receiveMessage := rfl

/-! ### A queue in the order of the messages -/

theorem Holds.of_sendMessage (h : Holds q xs) {message : BitVec 64} {q' : MessageQueue}
    (hsend : q.sendMessage message = .ok (true, q')) : Holds q' (xs ++ [message]) := by
  by_cases hfull : xs.length = q.maxMessages.toNat
  · rw [h.sendMessage_full hfull] at hsend
    cases hsend
  · obtain ⟨r, hr, hholds, -⟩ := h.sendMessage_room hfull message
    rw [hr] at hsend
    cases hsend
    exact hholds

theorem Holds.of_receiveMessage (h : Holds q xs) {message : BitVec 64} {q' : MessageQueue}
    (hreceive : q.receiveMessage = .ok (some message, q')) :
    xs = message :: xs.tail ∧ Holds q' xs.tail := by
  cases xs with
  | nil =>
      rw [h.receiveMessage_empty] at hreceive
      cases hreceive
  | cons x xs =>
      obtain ⟨r, hr, hholds, -⟩ := h.receiveMessage_some
      rw [hr] at hreceive
      cases hreceive
      exact ⟨rfl, hholds⟩

/-- A queue with the messages it holds. -/
abbrev Filled := { p : MessageQueue × List (BitVec 64) // Holds p.1 p.2 }

def Filled.send (p : Filled) (message : BitVec 64) : Option Filled :=
  match hsend : p.1.1.sendMessage message with
  | .ok (true, q) => some ⟨(q, p.1.2 ++ [message]), p.2.of_sendMessage hsend⟩
  | _ => none

def Filled.receive (p : Filled) : Option (BitVec 64 × Filled) :=
  match hreceive : p.1.1.receiveMessage with
  | .ok (some message, q) => some (message, ⟨(q, p.1.2.tail), (p.2.of_receiveMessage hreceive).2⟩)
  | _ => none

theorem Filled.contents_send {p p' : Filled} {message : BitVec 64}
    (h : p.send message = some p') : p'.1.2 = p.1.2 ++ [message] := by
  unfold Filled.send at h
  split at h
  · cases h
    rfl
  · cases h

theorem Filled.receive_eq_none {p : Filled} : p.receive = none ↔ p.1.2 = [] := by
  obtain ⟨⟨q, xs⟩, h⟩ := p
  unfold Filled.receive
  cases xs with
  | nil =>
      have hempty := h.receiveMessage_empty
      split
      · next hreceive =>
        rw [hempty] at hreceive
        cases hreceive
      · simp
  | cons x xs =>
      obtain ⟨r, hr, -⟩ := h.receiveMessage_some
      split
      · simp
      · next hother => exact (hother x r hr).elim

theorem Filled.contents_receive {p p' : Filled} {message : BitVec 64}
    (h : p.receive = some (message, p')) : p.1.2 = message :: p'.1.2 := by
  unfold Filled.receive at h
  split at h
  · next hreceive =>
    cases h
    exact (p.2.of_receiveMessage hreceive).1
  · cases h

/-- The queue that `Initialize` makes keeps the order of the messages. -/
def fifoQueue (buffer : List (BitVec 64)) (max : BitVec 32) (hpos : 0 < max.toNat)
    (hle : max.toNat ≤ 1073741824) (hbuffer : buffer.length = max.toNat) :
    FifoQueue Filled (BitVec 64) where
  empty := ⟨(initialized buffer max, []), initialized_holds hpos hle hbuffer⟩
  send := Filled.send
  receive := Filled.receive
  contents p := p.1.2
  contents_empty := rfl
  contents_send := Filled.contents_send
  receive_eq_none := Filled.receive_eq_none
  contents_receive := Filled.contents_receive

/-! ### Runs of any number of threads -/

namespace System

variable {ι : Type*} {s : System ι} {max : BitVec 32}

/-- The messages that are accepted and not received are in the queue. -/
structure Queued (max : BitVec 32) (s : System ι) (xs : List (BitVec 64)) : Prop where
  holds : Holds s.queue xs
  capacity : s.queue.maxMessages = max
  logs : s.accepted = s.received ++ xs

theorem Queued.trySend (h : Queued max s xs) (message : BitVec 64) :
    ∃ s' xs', s.trySend message = .ok s' ∧ Queued max s' xs' := by
  by_cases hfull : xs.length = s.queue.maxMessages.toNat
  · rw [System.trySend, trySendMessage_eq, h.holds.sendMessage_full hfull]
    exact ⟨_, xs, rfl, h.holds, h.capacity, h.logs⟩
  · obtain ⟨q, hq, hholds, hmax⟩ := h.holds.sendMessage_room hfull message
    rw [System.trySend, trySendMessage_eq, hq]
    exact ⟨_, _, rfl, hholds, hmax.trans h.capacity, by simp [h.logs]⟩

theorem Queued.tryReceive (h : Queued max s xs) :
    ∃ s' xs', s.tryReceive = .ok s' ∧ Queued max s' xs' := by
  cases xs with
  | nil =>
      rw [System.tryReceive, tryReceiveMessage_eq, h.holds.receiveMessage_empty]
      exact ⟨_, [], rfl, h.holds, h.capacity, h.logs⟩
  | cons x xs =>
      obtain ⟨q, hq, hholds, hmax⟩ := h.holds.receiveMessage_some
      rw [System.tryReceive, tryReceiveMessage_eq, hq]
      exact ⟨_, _, rfl, hholds, hmax.trans h.capacity, by simp [h.logs]⟩

/-- What a program sees of the queue. The buffer has one cell for each of the `max` messages,
and an access outside of it would be a fault. -/
structure BoundedFifo (max : BitVec 32) (s : System ι) : Prop where
  received_prefix : s.received <+: s.accepted
  pending : s.queue.pendingMessages.toInt = s.accepted.length - s.received.length
  pending_nonneg : 0 ≤ s.queue.pendingMessages.toInt
  pending_le : s.queue.pendingMessages.toInt ≤ max.toInt
  buffer : s.queue.messageBuffer.length = max.toInt
  trySend : ∀ message, ∃ sent q, s.queue.trySendMessage message = .ok (sent, q) ∧
    (sent = false ↔ s.queue.pendingMessages.toInt = max.toInt)
  tryReceive : ∃ message q, s.queue.tryReceiveMessage = .ok (message, q) ∧
    (message = none ↔ s.queue.pendingMessages.toInt = 0)

theorem Queued.boundedFifo (h : Queued max s xs) : BoundedFifo max s := by
  have hcapacity := h.holds.capacity_le
  have hlength := h.holds.length_le
  have hpending := h.holds.pending
  have hbuffer := h.holds.length
  rw [h.capacity] at hcapacity hlength hbuffer
  have hint : s.queue.pendingMessages.toInt = xs.length := by
    rw [toInt_eq_toNat (by omega), hpending]
  have hmax : max.toInt = max.toNat := toInt_eq_toNat (by omega)
  refine ⟨?_, ?_, ?_, ?_, ?_, ?_, ?_⟩
  · exact h.logs ▸ List.prefix_append _ _
  · rw [hint, h.logs, List.length_append]
    omega
  · omega
  · omega
  · omega
  · intro message
    rw [trySendMessage_eq, hint, hmax]
    by_cases hfull : xs.length = s.queue.maxMessages.toNat
    · refine ⟨false, _, h.holds.sendMessage_full hfull message, iff_of_true rfl ?_⟩
      rw [hfull, h.capacity]
    · obtain ⟨q, hq, -⟩ := h.holds.sendMessage_room hfull message
      refine ⟨true, q, hq, iff_of_false (by decide) fun he => hfull ?_⟩
      rw [h.capacity]
      exact Int.ofNat_inj.mp he
  · rw [tryReceiveMessage_eq, hint]
    cases xs with
    | nil => exact ⟨none, _, h.holds.receiveMessage_empty, iff_of_true rfl rfl⟩
    | cons x xs =>
        obtain ⟨q, hq, -⟩ := h.holds.receiveMessage_some
        refine ⟨some x, q, hq, iff_of_false nofun fun he => ?_⟩
        simp only [List.length_cons] at he
        omega

variable [DecidableEq ι]

theorem Queued.send (h : Queued max s xs) (i : ι) (message : BitVec 64) :
    ∃ s' xs', s.send i message = .ok s' ∧ Queued max s' xs' := by
  by_cases hfull : xs.length = s.queue.maxMessages.toNat
  · rw [System.send, h.holds.sendMessage_full hfull]
    exact ⟨_, xs, rfl, h.holds, h.capacity, h.logs⟩
  · obtain ⟨q, hq, hholds, hmax⟩ := h.holds.sendMessage_room hfull message
    rw [System.send, hq]
    exact ⟨_, _, rfl, hholds, hmax.trans h.capacity, by simp [h.logs]⟩

theorem Queued.receive (h : Queued max s xs) (i : ι) :
    ∃ s' xs', s.receive i = .ok s' ∧ Queued max s' xs' := by
  cases xs with
  | nil =>
      rw [System.receive, h.holds.receiveMessage_empty]
      exact ⟨_, [], rfl, h.holds, h.capacity, h.logs⟩
  | cons x xs =>
      obtain ⟨q, hq, hholds, hmax⟩ := h.holds.receiveMessage_some
      rw [System.receive, hq]
      exact ⟨_, _, rfl, hholds, hmax.trans h.capacity, by simp [h.logs]⟩

theorem Queued.perform {a : Action ι} {r : Except Fault (System ι)} (h : Queued max s xs)
    (hperform : s.perform a = some r) : ∃ s' xs', r = .ok s' ∧ Queued max s' xs' := by
  cases a with
  | send i message =>
      simp only [System.perform, Option.ite_none_right_eq_some, Option.some.injEq] at hperform
      exact hperform.2 ▸ h.send i message
  | trySend i message =>
      simp only [System.perform, Option.ite_none_right_eq_some, Option.some.injEq] at hperform
      exact hperform.2 ▸ h.trySend message
  | receive i =>
      simp only [System.perform, Option.ite_none_right_eq_some, Option.some.injEq] at hperform
      exact hperform.2 ▸ h.receive i
  | tryReceive i =>
      simp only [System.perform, Option.ite_none_right_eq_some, Option.some.injEq] at hperform
      exact hperform.2 ▸ h.tryReceive
  | wake i =>
      cases hcaller : s.caller i with
      | idle => simp [System.perform, hcaller] at hperform
      | sending message =>
          simp only [System.perform, hcaller, Option.some.injEq] at hperform
          exact hperform ▸ h.send i message
      | receiving =>
          simp only [System.perform, hcaller, Option.some.injEq] at hperform
          exact hperform ▸ h.receive i

theorem reaches_queued {buffer : List (BitVec 64)} (hpos : 0 < max.toNat)
    (hle : max.toNat ≤ 1073741824) (hbuffer : buffer.length = max.toNat)
    {r : Except Fault (System ι)} (h : Machine.Reaches next (.ok (start buffer max)) r) :
    ∃ s xs, r = .ok s ∧ Queued max s xs := by
  refine h.invariant (P := fun r => ∃ s xs, r = .ok s ∧ Queued max s xs) ?_ ?_
  · exact ⟨_, [], rfl, initialized_holds hpos hle hbuffer, rfl, rfl⟩
  · rintro _ r' a ⟨s, xs, rfl, hs⟩ _ hnext
    exact hs.perform hnext

/-- Every state that any number of threads reaches is a bounded queue, and none is a fault. -/
theorem messageQueue_boundedFifo {buffer : List (BitVec 64)} (hpos : 0 < max.toInt)
    (hle : max.toInt ≤ 1073741824) (hbuffer : buffer.length = max.toInt)
    {r : Except Fault (System ι)} (h : Machine.Reaches next (.ok (start buffer max)) r) :
    ∃ s, r = .ok s ∧ BoundedFifo max s := by
  have hmsb : max.toInt = max.toNat := by
    rw [BitVec.toInt_eq_toNat_cond] at hpos ⊢
    split
    · rfl
    · have hlt := max.isLt
      omega
  rw [hmsb] at hpos hle hbuffer
  obtain ⟨s, xs, rfl, hs⟩ := reaches_queued (by omega) (by omega) (by omega) h
  exact ⟨s, rfl, hs.boundedFifo⟩

/-- Four messages go through a queue for two; thread 1 has to wait for the fourth. -/
theorem messageQueue_boundedFifo_wrapped : ∃ s : System (Fin 2),
    Machine.Reaches next (.ok (start [0, 0] 2#32)) (.ok s) ∧ s.accepted = [5, 6, 7, 8] ∧
    s.received = [5, 6, 7] ∧ s.caller 1 = .idle ∧ BoundedFifo 2#32 s := by
  let as : List (Action (Fin 2)) := [.receive 1, .send 0 5, .wake 1, .trySend 0 6, .send 0 7,
    .send 1 8, .tryReceive 0, .wake 1, .receive 0]
  have hrun : (Machine.run next (.ok (start [0, 0] 2#32)) as).any (fun r =>
      match r with
      | .ok s => s.accepted = [5, 6, 7, 8] ∧ s.received = [5, 6, 7] ∧ s.caller 1 = .idle
      | .error _ => False) = true := by decide +kernel
  obtain ⟨r, hr, hstate⟩ := (Option.any_eq_true _ _).mp hrun
  have hreach := Machine.Reaches.of_run hr
  obtain ⟨s, rfl, hs⟩ := messageQueue_boundedFifo (by decide) (by decide) (by decide) hreach
  simp only [decide_eq_true_eq] at hstate
  exact ⟨s, hreach, hstate.1, hstate.2.1, hstate.2.2, hs⟩

end System

end DDFramework.MessageQueue
