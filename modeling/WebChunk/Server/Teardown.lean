import WebChunk.Server.WriterQueue

/-!
# Teardown of the websocket handler

Only the writer takes messages out of `wQ`, and the loop that fills it is the one that hears
of the writer's end. From then on the loop can go back to its select only while `wQ` has
places left for what it is about to send.
-/

namespace WebChunk.Server

open WebChunk.Go WebChunk.Semantics

/-- How many messages the loop sends before it is back at its select or has left it. -/
def ClientLoop.pending : ClientLoop → Nat
  | .pinging | .relaying | .disconnecting => 1
  | .notifying => 2
  | _ => 0

/-- The loop is at its select, or goes back to it. -/
def ClientLoop.selects : ClientLoop → Bool
  | .selecting | .pinging | .relaying => true
  | _ => false

/-- The writer takes no further message. -/
def AsyncWriter.stopped : AsyncWriter → Bool
  | .failing | .returned => true
  | _ => false

/-- How many reports the writer still sends, at most. -/
def AsyncWriter.reports : AsyncWriter → Nat
  | .returned => 0
  | _ => 1

/-- How many reports the reader still sends, at most. -/
def AsyncReader.reports : AsyncReader → Nat
  | .returned => 0
  | _ => 1

namespace WsState

/-- There is place for `n` more messages in `wQ`. -/
def places (s : WsState) (n : Nat) : Bool := decide (s.wQ.buffer.length + n ≤ s.wQ.capacity)

/-- The writer is to write a close message. -/
def closeOnItsWay (s : WsState) : Prop := .close ∈ s.wQ.buffer ∨ s.writer = .writing .close

/-- A step of the loop or of the writer that needs nothing from outside: no client, no event,
no rendered tile, and no failure of the network. -/
def ownStep (s : WsState) : WsAction → Bool
  | .takeError | .send | .storeFlag | .closeQueue | .hangUp | .finish => true
  | .writerTake | .writerReport => true
  | .write fails => fails == !s.connected
  | _ => false

/-- Without help from outside the handler can still return. -/
def CanFinish (s : WsState) : Prop :=
  wsClientHandler.CanReach (fun s action => s.ownStep action = true)
    (fun s => s.loop = .returned) s

end WsState

/-- Once the writer has returned, or the loop has left, the handler can finish. A process that
has panicked is another matter. -/
def TearsDown (s : WsState) : Prop :=
  s.panicked = false → s.writer = .returned ∨ s.loop = .waiting → s.CanFinish

/-- After the writer has stopped, the loop enters a case only if `wQ` has places for its
messages, and a tile requestor takes none of the places that the loop needs. A write fails
only while there are places for what the loop is sending. An event can be marshalled while
the writer goes on. -/
def leavesPlaces (s : WsState) : WsAction → Bool
  | .ping => !s.writer.stopped || s.places 1
  | .event marshals => if s.writer.stopped then !marshals || s.places 1 else marshals
  | .exit => !s.writer.stopped || s.places 2
  | .write fails => !fails || s.places s.loop.pending
  | .requestorSend _ =>
      !s.writer.stopped || s.loop.pending == 0 || s.places (s.loop.pending + 1)
  | _ => true

/-- What a send of the loop leaves to be sent; the close message is its last one. -/
theorem pending_of_message {loop after : ClientLoop} {m : MsgType}
    (message : loop.message = some (m, after)) :
    loop.pending = after.pending + 1 ∧ (after.selects = true → loop.selects = true) ∧
      (m = .close ∧ after = .waiting ∨ m ≠ .close ∧ after.beforeClose = true) := by
  cases loop with
  | pinging | relaying =>
      cases message
      exact ⟨rfl, fun _ => rfl, .inr ⟨nofun, rfl⟩⟩
  | notifying =>
      cases message
      exact ⟨rfl, nofun, .inr ⟨nofun, rfl⟩⟩
  | disconnecting =>
      cases message
      exact ⟨rfl, nofun, .inl ⟨rfl, rfl⟩⟩
  | _ => cases message

/-- Tile requestors send no close message. -/
theorem requestor_message_ne_close {r : Option TileRequestor} {m : MsgType}
    (message : r.bind TileRequestor.message = some m) : m ≠ .close := by
  obtain ⟨r, _, sends⟩ := Option.bind_eq_some_iff.mp message
  cases r <;> cases sends <;> exact nofun

/-- Past its last close or message the loop sends nothing more. -/
theorem quiet_of_not_beforeClose {loop : ClientLoop} (late : loop.beforeClose = false) :
    loop.pending = 0 ∧ loop.selects = false := by
  cases loop <;> first | exact ⟨rfl, rfl⟩ | cases late

/-- What the loop needs to come to its end, and the writer to come to its own. -/
structure Prepared (s : WsState) : Prop where
  capacity : 2 ≤ s.eQ.capacity
  unclosed : s.eQ.closed = false
  reports : s.eQ.buffer.length + s.writer.reports + s.reader.reports ≤ 2
  bounded : s.wQ.buffer.length ≤ s.wQ.capacity
  isOpen : s.loop.beforeClose = true → s.wQ.closed = false
  room : s.writer.stopped = true → s.wQ.buffer.length + s.loop.pending ≤ s.wQ.capacity
  ending : s.loop = .hangingUp ∨ s.loop = .waiting →
    s.writer.stopped = true ∨ s.wQ.closed = true ∨ s.closeOnItsWay
  last : s.closeOnItsWay → s.loop = .waiting ∨ s.loop = .returned
  reported : s.writer = .returned → s.loop.selects = true → s.eQ.buffer ≠ []

namespace Prepared

variable {s next : WsState} {action : WsAction}

theorem initial (wQ rQ eQ : Nat) (capacity : 2 ≤ eQ) : Prepared (.initial wQ rQ eQ) where
  capacity := capacity
  unclosed := rfl
  reports := Nat.le_refl 2
  bounded := Nat.zero_le _
  isOpen _ := rfl
  room := nofun
  ending := by rintro (same | same) <;> cases same
  last := by rintro (same | same) <;> cases same
  reported := nofun

/-- The loop has not left its select, so no close message is on its way. -/
theorem no_close (prepared : Prepared s) (early : s.loop.beforeClose = true) :
    ¬ s.closeOnItsWay := by
  intro onItsWay
  rcases prepared.last onItsWay with same | same <;> rw [same] at early <;> cases early

/-- The loop leaves its select for another place. -/
theorem enters (prepared : Prepared s) (selecting : s.loop = .selecting) (phase : ClientLoop)
    (room : s.writer.stopped = true → s.wQ.buffer.length + phase.pending ≤ s.wQ.capacity)
    (ending : phase = .hangingUp ∨ phase = .waiting → s.writer.stopped = true) :
    Prepared { s with loop := phase } := by
  have early : s.loop.beforeClose = true := by rw [selecting]; rfl
  exact { prepared with
    isOpen := fun _ => prepared.isOpen early
    room := room
    ending := fun left => .inl (ending left)
    last := fun onItsWay => absurd onItsWay (prepared.no_close early)
    reported := fun gone _ => prepared.reported gone (by rw [selecting]; rfl) }

/-- The queue is closed, or a close message is on its way: the loop sends nothing more. -/
theorem quiet (prepared : Prepared s) (late : s.wQ.closed = true ∨ s.closeOnItsWay) :
    s.loop.pending = 0 ∧ s.loop.selects = false := by
  refine quiet_of_not_beforeClose (Bool.eq_false_iff.mpr fun early => ?_)
  rcases late with closed | onItsWay
  · cases (prepared.isOpen early).symm.trans closed
  · exact prepared.no_close early onItsWay

/-- The writer returns after its last message. -/
theorem writerReturns (prepared : Prepared s) (late : s.wQ.closed = true ∨ s.closeOnItsWay) :
    Prepared { s with writer := .returned } := by
  obtain ⟨silent, away⟩ := prepared.quiet late
  have reports := prepared.reports
  exact { prepared with
    reports := by
      simp only [AsyncWriter.reports]
      omega
    room := fun _ => by rw [silent]; exact prepared.bounded
    ending := fun _ => .inl rfl
    last := fun onItsWay => prepared.last (onItsWay.imp_right nofun)
    reported := fun _ back => by cases away.symm.trans back }

/-- The step lemma. -/
theorem preserved (prepared : Prepared s) (leaves : leavesPlaces s action = true)
    (transition : wsStep s action = some next) (live : next.panicked = false) :
    Prepared next := by
  obtain ⟨_, transition⟩ := wsTransition_of_step transition
  have bounded := prepared.bounded
  have reports := prepared.reports
  have room := prepared.room
  cases transition with
  | pings selecting =>
      refine prepared.enters selecting .pinging (fun stopped => ?_) (by simp)
      simpa [leavesPlaces, stopped, WsState.places, ClientLoop.pending] using leaves
  | relays selecting =>
      refine prepared.enters selecting .relaying (fun stopped => ?_) (by simp)
      simpa [leavesPlaces, stopped, WsState.places, ClientLoop.pending] using leaves
  | breaks selecting =>
      refine prepared.enters selecting .waiting (fun _ => bounded) fun _ => ?_
      simpa [leavesPlaces] using leaves
  | notifies selecting =>
      refine prepared.enters selecting .notifying (fun stopped => ?_) (by simp)
      simpa [leavesPlaces, stopped, WsState.places, ClientLoop.pending] using leaves
  | takesError selecting received =>
      obtain ⟨front, closed⟩ := Chan.receive_received received
      rw [front, List.length_cons] at reports
      exact { prepared.enters selecting .storing (fun _ => bounded) (by simp) with
        capacity := (Chan.receive_capacity received).symm ▸ prepared.capacity
        unclosed := closed.trans prepared.unclosed
        reports := by dsimp only; omega
        reported := nofun }
  | @takesMessage m rQ selecting received =>
      obtain ⟨tiles, requestors, same⟩ := handle_frame { s with rQ := rQ } m
      rw [same]
      exact { prepared with reports := reports }
  | @pushesDirect m pushing selecting direct =>
      obtain ⟨tiles, requestors, same⟩ := handle_frame { s with reader := .reading } m
      rw [pushing] at reports
      rw [same]
      exact { prepared with reports := reports }
  | @sends m after wQ message sent =>
      obtain ⟨early, _⟩ := beforeClose_of_message message
      obtain ⟨less, selects, closes⟩ := pending_of_message message
      have fits := Chan.sent_bounded sent
      obtain ⟨isOpen, rfl⟩ := Chan.send_sent sent
      exact { prepared with
        bounded := fits
        isOpen := fun _ => isOpen
        room := fun stopped => by
          have room := room stopped
          simp only [List.length_append, List.length_singleton]
          omega
        ending := fun left => by
          rcases closes with ⟨rfl, rfl⟩ | ⟨_, goesOn⟩
          · exact .inr (.inr (.inl (by simp)))
          · rcases left with rfl | rfl <;> cases goesOn
        last := fun onItsWay => by
          rcases closes with ⟨_, rfl⟩ | ⟨other, _⟩
          · exact .inl rfl
          · refine absurd (onItsWay.imp_left fun member => ?_) (prepared.no_close early)
            simpa [other.symm] using member
        reported := fun gone back => prepared.reported gone (selects back) }
  | sendsDirect message receiving direct =>
      obtain ⟨early, _⟩ := beforeClose_of_message message
      obtain ⟨_, _, closes⟩ := pending_of_message message
      rw [receiving] at reports
      exact { prepared with
        reports := reports
        isOpen := fun _ => prepared.isOpen early
        room := nofun
        ending := fun left => by
          rcases closes with ⟨rfl, rfl⟩ | ⟨_, goesOn⟩
          · exact .inr (.inr (.inr rfl))
          · rcases left with rfl | rfl <;> cases goesOn
        last := fun onItsWay => by
          rcases closes with ⟨_, rfl⟩ | ⟨other, _⟩
          · exact .inl rfl
          · rcases onItsWay with member | writing
            · exact absurd (.inl member) (prepared.no_close early)
            · cases writing
              exact absurd rfl other
        reported := nofun }
  | storesFlag storing =>
      have early : s.loop.beforeClose = true := by rw [storing]; rfl
      exact { prepared with
        isOpen := fun _ => prepared.isOpen early
        room := fun _ => bounded
        ending := by simp
        last := fun onItsWay => absurd onItsWay (prepared.no_close early)
        reported := nofun }
  | closes closing isOpen =>
      have early : s.loop.beforeClose = true := by rw [closing]; rfl
      exact { prepared with
        isOpen := nofun
        room := fun _ => bounded
        ending := fun _ => .inr (.inl rfl)
        last := fun onItsWay => absurd onItsWay (prepared.no_close early)
        reported := nofun }
  | hangsUp hangingUp =>
      exact { prepared with
        isOpen := nofun
        room := fun _ => bounded
        ending := fun _ => prepared.ending (.inl hangingUp)
        last := fun _ => .inl rfl
        reported := nofun }
  | finishes waiting returned =>
      exact { prepared with
        isOpen := nofun
        room := fun _ => bounded
        ending := by simp
        last := fun _ => .inr rfl
        reported := nofun }
  | writerTakes receiving received =>
      obtain ⟨front, closed⟩ := Chan.receive_received received
      have taken : ∀ {wQ : Chan MsgType} {m : MsgType}, s.wQ.buffer = m :: wQ.buffer →
          (s.closeOnItsWay ↔ .close ∈ wQ.buffer ∨ AsyncWriter.writing m = .writing .close) := by
        intro wQ m front
        simp [WsState.closeOnItsWay, front, receiving, or_comm, eq_comm]
      rw [receiving] at reports
      exact { prepared with
        reports := reports
        bounded := Chan.received_bounded received bounded
        isOpen := fun early => closed.trans (prepared.isOpen early)
        room := nofun
        ending := fun left => by
          rcases prepared.ending left with stopped | isClosed | onItsWay
          · rw [receiving] at stopped
            cases stopped
          · exact .inr (.inl (closed.trans isClosed))
          · exact .inr (.inr ((taken front).mp onItsWay))
        last := fun onItsWay => prepared.last ((taken front).mpr onItsWay)
        reported := nofun }
  | writerEnds _ drained =>
      exact prepared.writerReturns (.inl (Chan.receive_drained drained))
  | writeFails writing =>
      rw [writing] at reports
      exact { prepared with
        reports := reports
        room := fun _ => by simpa [leavesPlaces, WsState.places] using leaves
        ending := fun _ => .inl rfl
        last := fun onItsWay => prepared.last (onItsWay.imp_right nofun)
        reported := nofun }
  | writesClose writing _ => exact { prepared.writerReturns (.inr (.inr writing)) with }
  | writes writing other connected =>
      rw [writing] at reports
      exact { prepared with
        reports := reports
        room := nofun
        ending := fun left => by
          rcases prepared.ending left with stopped | isClosed | member | same
          · rw [writing] at stopped
            cases stopped
          · exact .inr (.inl isClosed)
          · exact .inr (.inr (.inl member))
          · cases writing.symm.trans same
            exact absurd rfl other
        last := fun onItsWay => prepared.last (onItsWay.imp_right nofun)
        reported := nofun }
  | writerReports failing sent =>
      obtain ⟨_, rfl⟩ := Chan.send_sent sent
      have room := room (by rw [failing]; rfl)
      rw [failing] at reports
      exact { prepared with
        reports := by
          simp only [List.length_append, List.length_singleton]
          exact reports
        room := fun _ => room
        ending := fun _ => .inl rfl
        last := fun onItsWay => prepared.last (onItsWay.imp_right nofun)
        reported := fun _ _ => List.concat_ne_nil _ _ }
  | writerReportsDirect failing selecting direct =>
      have early : s.loop.beforeClose = true := by rw [selecting]; rfl
      rw [failing] at reports
      exact { prepared with
        reports := Nat.le_trans (by simp [AsyncWriter.reports]) reports
        isOpen := fun _ => prepared.isOpen early
        room := fun _ => bounded
        ending := fun _ => .inl rfl
        last := fun onItsWay =>
          absurd (onItsWay.imp_right nofun) (prepared.no_close early)
        reported := nofun }
  | @reads result reading =>
      rw [reading] at reports
      exact { prepared with reports := by cases result <;> exact reports }
  | pushes pushing sent =>
      rw [pushing] at reports
      exact { prepared with reports := reports }
  | readerReports reporting sent =>
      obtain ⟨_, rfl⟩ := Chan.send_sent sent
      rw [reporting] at reports
      exact { prepared with
        reports := by
          simp only [List.length_append, List.length_singleton]
          exact Nat.le_trans (by simp [AsyncReader.reports]; omega) reports
        reported := fun _ _ => List.concat_ne_nil _ _ }
  | readerReportsDirect reporting selecting direct =>
      rw [reporting] at reports
      exact { prepared.enters selecting .storing (fun _ => bounded) (by simp) with
        reports := Nat.le_trans (by simp [AsyncReader.reports]) reports
        reported := nofun }
  | renders _ | checks _ => exact { prepared with reports := reports }
  | requestorSends message sent =>
      have other := requestor_message_ne_close message
      have fits := Chan.sent_bounded sent
      obtain ⟨isOpen, rfl⟩ := Chan.send_sent sent
      simp only [List.length_append, List.length_singleton] at fits
      have before : ∀ {m : MsgType}, m ≠ .close →
          (.close ∈ s.wQ.buffer ++ [m] ↔ .close ∈ s.wQ.buffer) := fun other => by
        simp [other.symm]
      exact { prepared with
        bounded := by
          rw [WsState.setRequestor, List.length_append, List.length_singleton]
          exact fits
        room := fun stopped => by
          have room := room stopped
          have leaves : s.loop.pending = 0 ∨ s.wQ.buffer.length + (s.loop.pending + 1) ≤
              s.wQ.capacity := by
            have stopped : s.writer.stopped = true := stopped
            simpa [leavesPlaces, stopped, WsState.places] using leaves
          change (s.wQ.buffer ++ [_]).length + s.loop.pending ≤ s.wQ.capacity
          rw [List.length_append, List.length_singleton]
          omega
        ending := fun left => by
          rcases prepared.ending left with stopped | isClosed | member | writing
          · exact .inl stopped
          · exact .inr (.inl isClosed)
          · exact .inr (.inr (.inl ((before other).mpr member)))
          · exact .inr (.inr (.inr writing))
        last := fun onItsWay => prepared.last (onItsWay.imp_left (before other).mp) }
  | requestorSendsDirect message receiving direct =>
      have other := requestor_message_ne_close message
      rw [receiving] at reports
      exact { prepared with
        reports := reports
        room := nofun
        ending := fun left => by
          rcases prepared.ending left with stopped | isClosed | member | writing
          · rw [receiving] at stopped
            cases stopped
          · exact .inr (.inl isClosed)
          · exact .inr (.inr (.inl member))
          · cases receiving.symm.trans writing
        last := fun onItsWay => prepared.last (onItsWay.imp_right fun writing => by
          cases writing
          exact absurd rfl other)
        reported := nofun }
  | sendPanics _ _ | closePanics _ _ | requestorPanics _ _ => cases live

end Prepared

/-- The steps that the loop has yet to take to its end. -/
def ClientLoop.weight : ClientLoop → Nat
  | .returned => 0
  | .waiting => 1
  | .hangingUp | .disconnecting => 2
  | .closing | .notifying => 3
  | .storing => 4
  | .selecting => 5
  | .pinging | .relaying => 6

/-- The steps that the loop and the writer have yet to take: two for a message in `wQ`. -/
def WsState.weight (s : WsState) : Nat :=
  s.loop.weight +
    match s.writer with
    | .returned => 0
    | .failing => 1
    | .receiving => 2 * s.wQ.buffer.length + 2
    | .writing _ => 2 * s.wQ.buffer.length + 3

/-- The handler is prepared, and the writer has returned or the loop has left. -/
structure Finishing (s : WsState) : Prop where
  live : s.panicked = false
  prepared : Prepared s
  ended : s.writer = .returned ∨ s.loop = .waiting ∨ s.loop = .returned

namespace Finishing

variable {s : WsState}

/-- A step of its own that makes the handler lighter. -/
theorem step {next : WsState} (finishing : Finishing s) (action : WsAction)
    (own : s.ownStep action = true) (leaves : leavesPlaces s action = true)
    (transition : wsStep s action = some next) (live : next.panicked = false)
    (ended : next.writer = .returned ∨ next.loop = .waiting ∨ next.loop = .returned)
    (lighter : next.weight < s.weight) :
    ∃ action next, s.ownStep action = true ∧ wsStep s action = some next ∧ Finishing next ∧
      next.weight < s.weight :=
  ⟨action, next, own, transition,
    ⟨live, finishing.prepared.preserved leaves transition live, ended⟩, lighter⟩

/-- In `wg.Wait`, the writer works off `wQ` until it is closed, the close message is written
or a write fails. -/
theorem progress_waiting (finishing : Finishing s) (waiting : s.loop = .waiting) :
    ∃ action next, s.ownStep action = true ∧ wsStep s action = some next ∧ Finishing next ∧
      next.weight < s.weight := by
  have live := finishing.live
  have prepared := finishing.prepared
  cases writer : s.writer with
  | returned =>
      have transition : wsStep s .finish = some { s with loop := .returned } := by
        simp [wsStep, live, WsState.finish, waiting, writer]
      refine finishing.step .finish rfl rfl transition live (.inl writer) ?_
      simp [WsState.weight, ClientLoop.weight, waiting, writer]
  | failing =>
      have reports := prepared.reports
      have capacity := prepared.capacity
      have hasPlace : s.eQ.buffer.length < s.eQ.capacity := by
        rw [writer] at reports
        simp only [AsyncWriter.reports] at reports
        omega
      have sent : s.eQ.send .error = .sent { s.eQ with buffer := s.eQ.buffer ++ [.error] } := by
        simp [Chan.send, prepared.unclosed, hasPlace]
      have transition : wsStep s .writerReport = some { s with
          eQ := { s.eQ with buffer := s.eQ.buffer ++ [.error] }, writer := .returned } := by
        simp [wsStep, live, WsState.writerReport, writer, sent]
      refine finishing.step .writerReport rfl rfl transition live (.inl rfl) ?_
      simp [WsState.weight, writer]
  | writing m =>
      cases connected : s.connected with
      | true =>
          by_cases isClose : m = .close
          · have transition : wsStep s (.write false) =
                some { s with connected := false, writer := .returned } := by
              simp [wsStep, live, WsState.write, writer, connected, isClose]
            refine finishing.step (.write false) ?_ rfl transition live (.inl rfl) ?_
            · simp [WsState.ownStep, connected]
            · simp [WsState.weight, writer]
          · have transition : wsStep s (.write false) = some { s with writer := .receiving } := by
              simp [wsStep, live, WsState.write, writer, connected, isClose]
            refine finishing.step (.write false) ?_ rfl transition live (.inr (.inl waiting)) ?_
            · simp [WsState.ownStep, connected]
            · simp [WsState.weight, writer]
      | false =>
          have transition : wsStep s (.write true) = some { s with writer := .failing } := by
            simp [wsStep, live, WsState.write, writer]
          refine finishing.step (.write true) ?_ ?_ transition live (.inr (.inl waiting)) ?_
          · simp [WsState.ownStep, connected]
          · simpa [leavesPlaces, WsState.places, waiting, ClientLoop.pending] using prepared.bounded
          · simp [WsState.weight, writer]
  | receiving =>
      cases front : s.wQ.buffer with
      | cons m rest =>
          have transition : wsStep s .writerTake = some { s with
              wQ := { s.wQ with buffer := rest }, writer := .writing m } := by
            simp [wsStep, live, WsState.writerTake, Chan.receive, writer, front]
          refine finishing.step .writerTake rfl rfl transition live (.inr (.inl waiting)) ?_
          simp [WsState.weight, writer, front]
          omega
      | nil =>
          have closed : s.wQ.closed = true := by
            rcases prepared.ending (.inr waiting) with stopped | closed | member | writing
            · rw [writer] at stopped
              cases stopped
            · exact closed
            · rw [front] at member
              cases member
            · cases writer.symm.trans writing
          have transition : wsStep s .writerTake = some { s with writer := .returned } := by
            simp [wsStep, live, WsState.writerTake, Chan.receive, writer, front, closed]
          refine finishing.step .writerTake rfl rfl transition live (.inl rfl) ?_
          simp [WsState.weight, writer]

/-- After the writer has returned, `wQ` has place for what the loop still sends, and its
report brings the loop out of its select. -/
theorem progress_returned (finishing : Finishing s) (returned : s.writer = .returned)
    (unfinished : s.loop ≠ .returned) :
    ∃ action next, s.ownStep action = true ∧ wsStep s action = some next ∧ Finishing next ∧
      next.weight < s.weight := by
  have live := finishing.live
  have prepared := finishing.prepared
  have room := prepared.room (by rw [returned]; rfl)
  -- A message of the loop goes into the queue, whatever its case is.
  have sends : ∀ {m : MsgType} {after : ClientLoop}, s.loop.message = some (m, after) →
      after.weight < s.loop.weight →
      ∃ action next, s.ownStep action = true ∧ wsStep s action = some next ∧ Finishing next ∧
        next.weight < s.weight := by
    intro m after message lighter
    have isOpen := prepared.isOpen (beforeClose_of_message message).1
    have less := (pending_of_message message).1
    have hasPlace : s.wQ.buffer.length < s.wQ.capacity := by omega
    have sent : s.wQ.send m = .sent { s.wQ with buffer := s.wQ.buffer ++ [m] } := by
      simp [Chan.send, isOpen, hasPlace]
    have transition : wsStep s .send = some { s with
        wQ := { s.wQ with buffer := s.wQ.buffer ++ [m] }, loop := after } := by
      simp [wsStep, live, WsState.send, message, sent]
    refine finishing.step .send rfl rfl transition live (.inl returned) ?_
    simpa [WsState.weight, returned] using lighter
  cases loop : s.loop with
  | selecting =>
      obtain ⟨err, rest, front⟩ := List.exists_cons_of_ne_nil
        (prepared.reported returned (by rw [loop]; rfl))
      have transition : wsStep s .takeError = some { s with
          eQ := { s.eQ with buffer := rest }, loop := .storing } := by
        simp [wsStep, live, WsState.takeError, Chan.receive, loop, front]
      refine finishing.step .takeError rfl rfl transition live (.inl returned) ?_
      simp [WsState.weight, ClientLoop.weight, loop, returned]
  | pinging | relaying | notifying | disconnecting =>
      exact sends (by rw [loop]; rfl) (by rw [loop]; decide)
  | storing =>
      have transition : wsStep s .storeFlag =
          some { s with wQdidClose := true, loop := .closing } := by
        simp [wsStep, live, WsState.storeFlag, loop]
      refine finishing.step .storeFlag rfl rfl transition live (.inl returned) ?_
      simp [WsState.weight, ClientLoop.weight, loop, returned]
  | closing =>
      have isOpen := prepared.isOpen (by rw [loop]; rfl)
      have transition : wsStep s .closeQueue =
          some { s with wQ := s.wQ.close, loop := .hangingUp } := by
        simp [wsStep, live, WsState.closeQueue, loop, isOpen]
      refine finishing.step .closeQueue rfl rfl transition live (.inl returned) ?_
      simp [WsState.weight, ClientLoop.weight, loop, returned]
  | hangingUp =>
      have transition : wsStep s .hangUp =
          some { s with connected := false, loop := .waiting } := by
        simp [wsStep, live, WsState.hangUp, loop]
      refine finishing.step .hangUp rfl rfl transition live (.inl returned) ?_
      simp [WsState.weight, ClientLoop.weight, loop, returned]
  | waiting => exact finishing.progress_waiting loop
  | returned => exact absurd loop unfinished

theorem progress (finishing : Finishing s) (unfinished : s.loop ≠ .returned) :
    ∃ action next, s.ownStep action = true ∧ wsStep s action = some next ∧ Finishing next ∧
      next.weight < s.weight := by
  rcases finishing.ended with returned | waiting | finished
  · exact finishing.progress_returned returned unfinished
  · exact finishing.progress_waiting waiting
  · exact absurd finished unfinished

end Finishing

/-- What is prepared tears down. -/
theorem Prepared.tearsDown {s : WsState} (prepared : s.panicked = false → Prepared s) :
    TearsDown s := by
  intro live ended
  have finishing : Finishing s := ⟨live, prepared live, ended.imp_right .inl⟩
  exact Machine.canReach_of_progress WsState.weight Finishing.progress finishing

/-- With two places in `eQ`, a run whose steps all leave places in `wQ` never gets stuck. -/
theorem tearsDown_of_leavesPlaces (wQ rQ eQ : Nat) (capacity : 2 ≤ eQ) (actions : List WsAction)
    (steps : wsClientHandler.StepsOnly (fun s action => leavesPlaces s action = true)
      (.initial wQ rQ eQ) actions) :
    wsClientHandler.ReachesOnly TearsDown (.initial wQ rQ eQ) actions := by
  have preserved : ∀ {s : WsState} {action : WsAction} {next : WsState},
      (s.panicked = false → Prepared s) → leavesPlaces s action = true →
      wsClientHandler.step s action = some next → next.panicked = false → Prepared next :=
    fun prepared leaves transition live =>
      (prepared (wsTransition_of_step transition).1).preserved leaves transition live
  exact steps.reachesOnly Prepared.tearsDown preserved fun _ => .initial wQ rQ eQ capacity

/-- The loop is at a send, and nobody will take anything out of the full queue. -/
structure Jammed (s : WsState) : Prop where
  pinging : s.loop = .pinging
  stopped : s.writer.stopped = true
  isOpen : s.wQ.closed = false
  full : s.wQ.capacity ≤ s.wQ.buffer.length

/-- The step lemma. -/
theorem Jammed.preserved {s next : WsState} {action : WsAction} (jammed : Jammed s)
    (transition : wsClientHandler.step s action = some next) : Jammed next := by
  obtain ⟨_, transition⟩ := wsTransition_of_step transition
  have full : ∀ {m : MsgType} {after : Chan MsgType}, s.wQ.send m ≠ .sent after := by
    intro m after sent
    cases (Chan.send_blocked_iff.mpr ⟨jammed.isOpen, jammed.full⟩).symm.trans sent
  have pinging := jammed.pinging
  have stopped := jammed.stopped
  have notSelecting : s.loop ≠ .selecting := by rw [pinging]; exact nofun
  cases transition with
  | pings here | relays here | breaks here | notifies here | takesError here _
  | takesMessage here _ | pushesDirect _ here _ | writerReportsDirect _ here _
  | readerReportsDirect _ here _ => exact absurd here notSelecting
  | storesFlag here | closes here _ | closePanics here _ | hangsUp here | finishes here _ =>
      cases pinging.symm.trans here
  | sends _ sent | requestorSends _ sent => exact absurd sent full
  | sendPanics _ closed | requestorPanics _ closed => cases jammed.isOpen.symm.trans closed
  | sendsDirect _ here _ | writerTakes here _ | writerEnds here _ | writeFails here
  | writesClose here _ | writes here _ _ | requestorSendsDirect _ here _ =>
      rw [here] at stopped
      cases stopped
  | writerReports _ _ => exact { jammed with stopped := rfl }
  | reads _ | pushes _ _ | readerReports _ _ | renders _ | checks _ =>
      exact { jammed with stopped := stopped }

/-- A state out of which the loop never returns is not torn down. -/
theorem not_tearsDown_of_stuck {s : WsState} {stuck : WsState → Prop}
    (preserved : ∀ {s action next}, stuck s → wsClientHandler.step s action = some next →
      stuck next)
    (unfinished : ∀ {s}, stuck s → s.loop ≠ .returned) (holds : stuck s)
    (live : s.panicked = false) (ended : s.writer = .returned ∨ s.loop = .waiting) :
    ¬ TearsDown s := by
  intro tearsDown
  obtain ⟨rest, later, run, _, returned⟩ := tearsDown live ended
  exact unfinished (run.always preserved holds) returned

/-- The writer is at the first message while `n` more fill the queue. -/
def fillQueue (n : Nat) : List WsAction :=
  [.ping, .send, .writerTake] ++ (List.replicate n [WsAction.ping, .send]).flatten

/-- The write fails while the loop waits for a place in the full queue: the writer returns, its
report stays in `eQ`, and the loop never leaves its send. -/
theorem full_queue_jams : ∃ (actions : List WsAction) (final : WsState),
    wsClientHandler.Runs (.initial 32 32 2) actions final ∧ ¬ TearsDown final := by
  refine ⟨fillQueue 32 ++ [.ping, .write true, .writerReport], _,
    Machine.runs_exec_get (by decide), not_tearsDown_of_stuck Jammed.preserved ?_
      (⟨by decide, by decide, by decide, by decide⟩ : Jammed _) (by decide) (.inl (by decide))⟩
  intro s jammed returned
  cases jammed.pinging.symm.trans returned

/-- A write fails, and the loop has places for two more pings before it takes the error. -/
theorem tearsDown_failedWrite : wsClientHandler.ReachesOnly TearsDown (.initial 32 32 2)
    [.ping, .send, .writerTake, .ping, .send, .write true, .writerReport, .ping, .send,
      .takeError, .storeFlag, .closeQueue, .hangUp, .finish] :=
  tearsDown_of_leavesPlaces 32 32 2 (by decide) _ (Machine.stepsOnly_of_checkSteps (by decide))

/-- The loop waits for a writer whose report finds no place in `eQ`. -/
structure Orphaned (s : WsState) : Prop where
  waiting : s.loop = .waiting
  failing : s.writer = .failing
  isOpen : s.eQ.closed = false
  full : s.eQ.capacity ≤ s.eQ.buffer.length

/-- The step lemma. -/
theorem Orphaned.preserved {s next : WsState} {action : WsAction} (orphaned : Orphaned s)
    (transition : wsClientHandler.step s action = some next) : Orphaned next := by
  obtain ⟨_, transition⟩ := wsTransition_of_step transition
  have full : ∀ {err : Report} {after : Chan Report}, s.eQ.send err ≠ .sent after := by
    intro err after sent
    cases (Chan.send_blocked_iff.mpr ⟨orphaned.isOpen, orphaned.full⟩).symm.trans sent
  have waiting := orphaned.waiting
  have failing := orphaned.failing
  cases transition with
  | pings here | relays here | breaks here | notifies here | takesError here _
  | takesMessage here _ | pushesDirect _ here _ | writerReportsDirect _ here _
  | readerReportsDirect _ here _ | storesFlag here | closes here _ | closePanics here _
  | hangsUp here => cases waiting.symm.trans here
  | sends message _ | sendPanics message _ | sendsDirect message _ _ =>
      rw [waiting] at message
      cases message
  | finishes _ here | writerTakes here _ | writerEnds here _ | writeFails here
  | writesClose here _ | writes here _ _ | requestorSendsDirect _ here _ =>
      cases failing.symm.trans here
  | writerReports _ sent | readerReports _ sent => exact absurd sent full
  | reads _ | pushes _ _ | renders _ | checks _ | requestorSends _ _ | requestorPanics _ _ =>
      exact { orphaned with waiting := waiting }

/-- The server shuts down while the client is gone. -/
def shutDownUnwritten : List WsAction := [.exit, .send, .send, .writerTake, .write true]

/-- With fewer than two places in `eQ` the handler can get stuck although `wQ` has places: the
reader's report, or nothing at all, takes the place that the writer needs. -/
theorem two_places_needed (eQ : Nat) (few : eQ < 2) : ∃ (actions : List WsAction)
    (final : WsState), wsClientHandler.Runs (.initial 32 32 eQ) actions final ∧
      wsClientHandler.StepsOnly (fun s action => leavesPlaces s action = true)
        (.initial 32 32 eQ) actions ∧ ¬ TearsDown final := by
  have unfinished : ∀ {s : WsState}, Orphaned s → s.loop ≠ .returned := by
    intro s orphaned returned
    cases orphaned.waiting.symm.trans returned
  match eQ, few with
  | 0, _ =>
      exact ⟨shutDownUnwritten, _, Machine.runs_exec_get (by decide),
        Machine.stepsOnly_of_checkSteps (by decide),
        not_tearsDown_of_stuck Orphaned.preserved unfinished
          (⟨by decide, by decide, by decide, by decide⟩ : Orphaned _) (by decide)
          (.inr (by decide))⟩
  | 1, _ =>
      exact ⟨[.read .fails, .readerReport] ++ shutDownUnwritten, _,
        Machine.runs_exec_get (by decide), Machine.stepsOnly_of_checkSteps (by decide),
        not_tearsDown_of_stuck Orphaned.preserved unfinished
          (⟨by decide, by decide, by decide, by decide⟩ : Orphaned _) (by decide)
          (.inr (by decide))⟩

end WebChunk.Server
