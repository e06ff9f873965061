import DDFramework.Model.ThreadBase
import DDFramework.Verification.MessageQueue.Fifo

/-! # Messages and the end of `ThreadBase::Run`

The loop compares the values it makes up with the exit message as well. Where none of them is
the exit message, the messages before the first exit message are delivered, in order. -/

namespace DDFramework.ThreadBase

variable {Q : Type*} {fifo : FifoQueue Q (BitVec 64)} {runMode : ThreadRunMode}
  {exitMessage : BitVec 64}

namespace System

variable {s s' : System Q}

/-- The messages of the queue with which `ThreadCalc` has been called. -/
def delivered (s : System Q) : List (BitVec 64) :=
  (s.calcs.filter fun call => call.origin == .queue).map Calc.message

/-- The messages that precede the first exit message. -/
def due (exitMessage : BitVec 64) (s : System Q) : List (BitVec 64) :=
  s.sent.takeWhile fun message => message != exitMessage

/-- What `Run` promises about the messages put into the queue. -/
structure Delivers (fifo : FifoQueue Q (BitVec 64)) (runMode : ThreadRunMode)
    (exitMessage : BitVec 64) (s : System Q) : Prop where
  /-- Each message once, in order, and none after the exit message. -/
  inOrder : s.delivered <+: s.due exitMessage
  /-- Without further messages the thread gets to the last message that is due. -/
  complete : ∃ n t, Machine.run (next fifo runMode exitMessage) s (List.replicate n .advance) =
    some t ∧ t.delivered = s.due exitMessage ∧ (exitMessage ∈ s.sent → t.phase = .returned)
  /-- The exit message has been taken out of the queue. -/
  exits : s.phase = .returned →
    s.sent = s.delivered ++ exitMessage :: fifo.contents s.messageQueue
  onlyMessages : runMode = .waitForMessage → ∀ call ∈ s.calcs, call.origin = .queue

/-- No value that `Run` makes up is the exit message. -/
def Unambiguous (runMode : ThreadRunMode) (exitMessage : BitVec 64) : Prop :=
  runMode = .waitForMessage ∨ exitMessage ≠ 0 ∧ exitMessage ≠ -1

/-! ### Where the messages are -/

/-- The message that the thread has taken and not delivered. -/
def inHand (exitMessage : BitVec 64) : Phase → List (BitVec 64)
  | .receiving => []
  | .testing message .queue => [message]
  | .testing _ .idle => []
  | .returned => [exitMessage]

structure OnTheWay (fifo : FifoQueue Q (BitVec 64)) (runMode : ThreadRunMode)
    (exitMessage : BitVec 64) (s : System Q) : Prop where
  noExit : exitMessage ∉ s.delivered
  sent : s.sent = s.delivered ++ inHand exitMessage s.phase ++ fifo.contents s.messageQueue
  idle : ∀ message, s.phase = .testing message .idle →
    runMode = .looping ∧ message ≠ exitMessage
  onlyMessages : runMode = .waitForMessage → ∀ call ∈ s.calcs, call.origin = .queue

theorem delivered_concat {s : System Q} {call : Calc} (phase : Phase) :
    { s with phase := phase, calcs := s.calcs ++ [call] }.delivered =
      s.delivered ++ if call.origin = .queue then [call.message] else [] := by
  cases h : call.origin with
  | queue => simp [delivered, h]
  | idle => simp [delivered, h]

namespace OnTheWay

theorem send (h : OnTheWay fifo runMode exitMessage s) {message : BitVec 64} {q : Q}
    (hsend : fifo.send s.messageQueue message = some q) :
    OnTheWay fifo runMode exitMessage
      { s with messageQueue := q, sent := s.sent ++ [message] } where
  noExit := h.noExit
  sent := by
    rw [fifo.contents_send hsend, ← List.append_assoc, h.sent]
    rfl
  idle := h.idle
  onlyMessages := h.onlyMessages

theorem receive_some (h : OnTheWay fifo runMode exitMessage s) (hphase : s.phase = .receiving)
    {message : BitVec 64} {q : Q} (hreceive : fifo.receive s.messageQueue = some (message, q)) :
    OnTheWay fifo runMode exitMessage
      { s with messageQueue := q, phase := .testing message .queue } where
  noExit := h.noExit
  sent := by
    rw [h.sent, hphase, fifo.contents_receive hreceive]
    simp [delivered, inHand]
  idle := fun _ he => nomatch he
  onlyMessages := h.onlyMessages

theorem receive_none (h : OnTheWay fifo .looping exitMessage s) (hphase : s.phase = .receiving)
    (hexit : exitMessage ≠ 0) :
    OnTheWay fifo .looping exitMessage { s with phase := .testing 0 .idle } where
  noExit := h.noExit
  sent := by
    rw [h.sent, hphase]
    rfl
  idle := by
    rintro _ ⟨⟩
    exact ⟨rfl, hexit.symm⟩
  onlyMessages := fun he => nomatch he

theorem calc_queue (h : OnTheWay fifo runMode exitMessage s) {message : BitVec 64}
    (hphase : s.phase = .testing message .queue) (hne : message ≠ exitMessage) :
    OnTheWay fifo runMode exitMessage
      { s with phase := .receiving, calcs := s.calcs ++ [⟨message, .queue⟩] } where
  noExit := by
    rw [delivered_concat, if_pos rfl, List.mem_append, List.mem_singleton, not_or]
    exact ⟨h.noExit, hne.symm⟩
  sent := by
    rw [delivered_concat, if_pos rfl]
    simp [h.sent, hphase, inHand]
  idle := fun _ he => nomatch he
  onlyMessages := by
    intro hmode call hcall
    rw [List.mem_append, List.mem_singleton] at hcall
    rcases hcall with hcall | rfl
    · exact h.onlyMessages hmode call hcall
    · rfl

theorem calc_idle (h : OnTheWay fifo runMode exitMessage s) {message : BitVec 64}
    (hphase : s.phase = .testing message .idle) :
    OnTheWay fifo runMode exitMessage
      { s with phase := .receiving, calcs := s.calcs ++ [⟨message, .idle⟩] } where
  noExit := by
    rw [delivered_concat, if_neg nofun, List.append_nil]
    exact h.noExit
  sent := by
    rw [delivered_concat, if_neg nofun]
    simp [h.sent, hphase, inHand]
  idle := fun _ he => nomatch he
  onlyMessages := by
    intro hmode
    have hlooping := (h.idle message hphase).1
    rw [hmode] at hlooping
    cases hlooping

theorem exit (h : OnTheWay fifo runMode exitMessage s)
    (hphase : s.phase = .testing exitMessage .queue) :
    OnTheWay fifo runMode exitMessage { s with phase := .returned } where
  noExit := h.noExit
  sent := by
    rw [h.sent, hphase]
    rfl
  idle := fun _ he => nomatch he
  onlyMessages := h.onlyMessages

/-- A step of the thread keeps the account of the messages. -/
theorem advance (hgood : Unambiguous runMode exitMessage)
    (h : OnTheWay fifo runMode exitMessage s)
    (hnext : s.advance fifo runMode exitMessage = some s') :
    OnTheWay fifo runMode exitMessage s' := by
  cases hphase : s.phase with
  | receiving =>
      simp only [System.advance, hphase, System.receive] at hnext
      cases hreceive : fifo.receive s.messageQueue with
      | some pair =>
          obtain ⟨message, q⟩ := pair
          rw [hreceive] at hnext
          cases hnext
          exact h.receive_some hphase hreceive
      | none =>
          rw [hreceive] at hnext
          cases runMode with
          | waitForMessage => cases hnext
          | looping =>
              cases hnext
              exact h.receive_none hphase (hgood.resolve_left nofun).1
  | testing message origin =>
      simp only [System.advance, hphase] at hnext
      split at hnext
      · next hne =>
        cases hnext
        cases origin with
        | queue => exact h.calc_queue hphase hne
        | idle => exact h.calc_idle hphase
      · next heq =>
        cases hnext
        rw [not_not.mp heq] at hphase
        cases origin with
        | queue => exact h.exit hphase
        | idle => exact ((h.idle _ hphase).2 rfl).elim
  | returned =>
      simp only [System.advance, hphase] at hnext
      cases hnext

theorem next (hgood : Unambiguous runMode exitMessage) (h : OnTheWay fifo runMode exitMessage s)
    {a : Action} (hnext : s.next fifo runMode exitMessage a = some s') :
    OnTheWay fifo runMode exitMessage s' := by
  cases a with
  | send message =>
      obtain ⟨q, hsend, rfl⟩ := Option.map_eq_some_iff.mp hnext
      exact h.send hsend
  | advance => exact h.advance hgood hnext

end OnTheWay

theorem start_onTheWay (hgood : Unambiguous runMode exitMessage) :
    OnTheWay fifo runMode exitMessage (start fifo runMode) where
  noExit := by simp [delivered, start]
  sent := by
    cases runMode with
    | waitForMessage => simp [delivered, start, inHand, fifo.contents_empty]
    | looping => simp [delivered, start, inHand, fifo.contents_empty]
  idle := by
    intro message hphase
    cases runMode with
    | waitForMessage => cases hphase
    | looping =>
        cases hphase
        exact ⟨rfl, (hgood.resolve_left nofun).2.symm⟩
  onlyMessages := by simp [start]

/-! ### The thread on its own -/

theorem next_receive (runMode : ThreadRunMode) (exitMessage : BitVec 64) {message : BitVec 64}
    {q : Q} (hphase : s.phase = .receiving)
    (hreceive : fifo.receive s.messageQueue = some (message, q)) :
    s.next fifo runMode exitMessage .advance =
      some { s with messageQueue := q, phase := .testing message .queue } := by
  simp [System.next, System.advance, hphase, System.receive, hreceive]

theorem next_calc {message : BitVec 64} {origin : Origin}
    (hphase : s.phase = .testing message origin) (hne : message ≠ exitMessage) :
    s.next fifo runMode exitMessage .advance =
      some { s with phase := .receiving, calcs := s.calcs ++ [⟨message, origin⟩] } := by
  simp [System.next, System.advance, hphase, hne]

theorem next_exit {origin : Origin} (hphase : s.phase = .testing exitMessage origin) :
    s.next fifo runMode exitMessage .advance = some { s with phase := .returned } := by
  simp [System.next, System.advance, hphase]

/-- The thread that is about to receive gets to the last message that is due. -/
theorem exists_run_of_receiving (runMode : ThreadRunMode) (exitMessage : BitVec 64)
    (ms : List (BitVec 64)) {s : System Q} (hphase : s.phase = .receiving)
    (hcontents : fifo.contents s.messageQueue = ms) :
    ∃ n t, Machine.run (next fifo runMode exitMessage) s (List.replicate n .advance) = some t ∧
      t.delivered = s.delivered ++ ms.takeWhile (fun message => message != exitMessage) ∧
      (exitMessage ∈ ms → t.phase = .returned) := by
  induction ms generalizing s with
  | nil => exact ⟨0, s, rfl, by simp, nofun⟩
  | cons message ms ih =>
      obtain ⟨q, hreceive, hrest⟩ := fifo.exists_receive hcontents
      have hreceived := next_receive runMode exitMessage hphase hreceive
      by_cases hexit : message = exitMessage
      · refine ⟨2, { s with messageQueue := q, phase := .returned }, ?_, ?_, fun _ => rfl⟩
        · rw [List.replicate_succ, List.replicate_one, Machine.run_cons, hreceived,
            Option.bind_some, Machine.run_cons, next_exit (by rw [hexit]), Option.bind_some,
            Machine.run_nil]
        · simp [hexit, delivered]
      · let s' : System Q := { s with
          messageQueue := q, phase := .receiving, calcs := s.calcs ++ [⟨message, .queue⟩] }
        have htested : System.next fifo runMode exitMessage
            { s with messageQueue := q, phase := .testing message .queue } .advance = some s' :=
          next_calc rfl hexit
        obtain ⟨n, t, hrun, hdelivered, hreturned⟩ := ih (s := s') rfl hrest
        refine ⟨n + 2, t, ?_, ?_, ?_⟩
        · rw [List.replicate_succ, List.replicate_succ, Machine.run_cons, hreceived,
            Option.bind_some, Machine.run_cons, htested, Option.bind_some, hrun]
        · have hs' : s'.delivered = s.delivered ++ [message] := by
            simp [s', delivered]
          rw [hdelivered, hs', List.takeWhile_cons_of_pos (by simpa using hexit)]
          simp
        · intro hmem
          exact hreturned ((List.mem_cons.mp hmem).resolve_left (Ne.symm hexit))

/-- Before its test the thread has one message more to deliver. -/
theorem exists_run_of_testing (runMode : ThreadRunMode) {message : BitVec 64} {origin : Origin}
    (hphase : s.phase = .testing message origin)
    (hexit : message = exitMessage → origin = .queue) :
    ∃ n t, Machine.run (next fifo runMode exitMessage) s (List.replicate n .advance) = some t ∧
      t.delivered = s.delivered ++
        (inHand exitMessage s.phase ++ fifo.contents s.messageQueue).takeWhile
          (fun message => message != exitMessage) ∧
      (exitMessage ∈ inHand exitMessage s.phase ++ fifo.contents s.messageQueue →
        t.phase = .returned) := by
  by_cases heq : message = exitMessage
  · subst message
    obtain rfl := hexit rfl
    refine ⟨1, { s with phase := .returned }, ?_, ?_, fun _ => rfl⟩
    · rw [List.replicate_one, Machine.run_cons, next_exit hphase, Option.bind_some, Machine.run_nil]
    · simp [hphase, inHand, delivered]
  · let s' : System Q := { s with
      phase := .receiving, calcs := s.calcs ++ [⟨message, origin⟩] }
    have htested : s.next fifo runMode exitMessage .advance = some s' := next_calc hphase heq
    have hs' : s'.delivered = s.delivered ++ inHand exitMessage s.phase := by
      cases origin with
      | queue => simp [s', delivered, hphase, inHand]
      | idle => simp [s', delivered, hphase, inHand]
    have hhand : ∀ m ∈ inHand exitMessage s.phase, m ≠ exitMessage := by
      cases origin with
      | queue => simpa [hphase, inHand] using heq
      | idle => simp [hphase, inHand]
    obtain ⟨n, t, hrun, hdelivered, hreturned⟩ :=
      exists_run_of_receiving runMode exitMessage _ (s := s') rfl rfl
    refine ⟨n + 1, t, ?_, ?_, ?_⟩
    · rw [List.replicate_succ, Machine.run_cons, htested, Option.bind_some, hrun]
    · rw [hdelivered, hs', List.takeWhile_append_of_pos (by simpa using hhand), List.append_assoc]
    · intro hmem
      refine hreturned ((List.mem_append.mp hmem).resolve_left fun hin => ?_)
      exact hhand exitMessage hin rfl

/-! ### All runs -/

theorem OnTheWay.delivers (h : OnTheWay fifo runMode exitMessage s) :
    Delivers fifo runMode exitMessage s := by
  have hpending : ∀ m ∈ s.delivered, (m != exitMessage) = true := by
    intro m hm
    simp only [bne_iff_ne, ne_eq]
    rintro rfl
    exact h.noExit hm
  have hdue : s.due exitMessage = s.delivered ++
      (inHand exitMessage s.phase ++ fifo.contents s.messageQueue).takeWhile
        (fun message => message != exitMessage) := by
    rw [due, h.sent, List.append_assoc, List.takeWhile_append_of_pos hpending]
  have hmem : exitMessage ∈ s.sent →
      exitMessage ∈ inHand exitMessage s.phase ++ fifo.contents s.messageQueue := by
    intro hm
    rw [h.sent, List.append_assoc] at hm
    exact (List.mem_append.mp hm).resolve_left h.noExit
  refine ⟨?_, ?_, ?_, h.onlyMessages⟩
  · rw [hdue]
    exact List.prefix_append _ _
  · cases hphase : s.phase with
    | receiving =>
        obtain ⟨n, t, hrun, hdelivered, hreturned⟩ :=
          exists_run_of_receiving runMode exitMessage _ hphase rfl
        rw [hphase] at hdue hmem
        exact ⟨n, t, hrun, hdelivered.trans hdue.symm, fun hm => hreturned (hmem hm)⟩
    | testing message origin =>
        have hexit : message = exitMessage → origin = .queue := by
          rintro rfl
          cases origin with
          | queue => rfl
          | idle => exact ((h.idle message hphase).2 rfl).elim
        obtain ⟨n, t, hrun, hdelivered, hreturned⟩ :=
          exists_run_of_testing runMode hphase hexit
        exact ⟨n, t, hrun, hdelivered.trans hdue.symm, fun hm => hreturned (hmem hm)⟩
    | returned =>
        refine ⟨0, s, rfl, ?_, fun _ => hphase⟩
        rw [hdue, hphase]
        simp [inHand]
  · intro hphase
    rw [h.sent, hphase, List.append_assoc]
    rfl

theorem reaches_delivers (hgood : Unambiguous runMode exitMessage)
    (h : Machine.Reaches (next fifo runMode exitMessage) (start fifo runMode) s) :
    Delivers fifo runMode exitMessage s := by
  have honTheWay : OnTheWay fifo runMode exitMessage s :=
    h.invariant (start_onTheWay hgood) fun hs _ hnext => hs.next hgood hnext
  exact honTheWay.delivers

/-- An idle value that is the exit message ends the loop. -/
theorem reaches_returned (fifo : FifoQueue Q (BitVec 64)) (hbad : ¬ Unambiguous runMode exitMessage) :
    ∃ s, Machine.Reaches (next fifo runMode exitMessage) (start fifo runMode) s ∧
      s.phase = .returned ∧ s.sent = [] := by
  simp only [Unambiguous, not_or, not_and_or, not_not] at hbad
  obtain ⟨hmode, hexit⟩ := hbad
  obtain rfl : runMode = .looping := by
    cases runMode with
    | waitForMessage => exact (hmode rfl).elim
    | looping => rfl
  let s : System Q := start fifo .looping
  rcases hexit with rfl | rfl
  · -- the first poll finds nothing
    have hnone : fifo.receive s.messageQueue = none := fifo.receive_of_empty fifo.contents_empty
    let s₁ : System Q := { s with phase := .receiving, calcs := [⟨-1, .idle⟩] }
    let s₂ : System Q := { s₁ with phase := .testing 0 .idle }
    have h₁ : s.next fifo .looping 0 .advance = some s₁ := next_calc rfl (by decide)
    have h₂ : s₁.next fifo .looping 0 .advance = some s₂ := by
      simp [System.next, System.advance, System.receive, s₁, s₂, hnone]
    exact ⟨_, .step (.step (.step .start trivial h₁) trivial h₂) trivial (next_exit rfl), rfl, rfl⟩
  · exact ⟨_, .step .start trivial (next_exit rfl), rfl, rfl⟩

/-- Every run delivers the messages exactly when no value that the loop makes up can be the exit
message. -/
theorem run_delivers_iff (fifo : FifoQueue Q (BitVec 64)) (runMode : ThreadRunMode)
    (exitMessage : BitVec 64) :
    (∀ s, Machine.Reaches (next fifo runMode exitMessage) (start fifo runMode) s →
      Delivers fifo runMode exitMessage s) ↔
    runMode = .waitForMessage ∨ exitMessage ≠ 0 ∧ exitMessage ≠ -1 := by
  constructor
  · intro h
    by_contra hbad
    obtain ⟨s, hreach, hreturned, hsent⟩ := reaches_returned fifo hbad
    have hexits := (h s hreach).exits hreturned
    rw [hsent] at hexits
    simp at hexits
  · exact fun hgood s h => reaches_delivers hgood h

/-- A looping thread with the exit message 0 returns although no message was sent. -/
theorem run_returns_without_exit :
    let fifo := MessageQueue.fifoQueue [0] 1#32 (by decide) (by decide) (by decide)
    ∃ s, Machine.Reaches (next fifo .looping 0) (start fifo .looping) s ∧ s.phase = .returned ∧
      s.sent = [] ∧ ¬ Delivers fifo .looping 0 s := by
  intro fifo
  have hbad : ¬ Unambiguous .looping 0 := by simp [Unambiguous]
  obtain ⟨s, hreach, hreturned, hsent⟩ := reaches_returned fifo hbad
  refine ⟨s, hreach, hreturned, hsent, fun h => ?_⟩
  have hexits := h.exits hreturned
  rw [hsent] at hexits
  simp at hexits

/-- The thread with the queue of its own class. -/
theorem reaches_delivers_messageQueue {buffer : List (BitVec 64)} {max : BitVec 32}
    (hpos : 0 < max.toNat) (hle : max.toNat ≤ 1073741824) (hbuffer : buffer.length = max.toNat)
    (hgood : Unambiguous runMode exitMessage) {s : System MessageQueue.Filled} :
    let fifo := MessageQueue.fifoQueue buffer max hpos hle hbuffer
    Machine.Reaches (next fifo runMode exitMessage) (start fifo runMode) s →
      Delivers fifo runMode exitMessage s :=
  reaches_delivers hgood

end System

end DDFramework.ThreadBase
