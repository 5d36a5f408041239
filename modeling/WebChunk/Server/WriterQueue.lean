import WebChunk.Server.WebSocket

/-!
# Sends on the writer queue

The client loop closes `wQ` when an error has arrived. A tile requestor that has passed the
flag, or whose render fails, sends to `wQ` whatever has happened to it meanwhile.
-/

namespace WebChunk.Server

open WebChunk.Go WebChunk.Semantics WebChunk.ImageCache

namespace WsState

/-- A tile requestor is at one of its sends. -/
def requestorSends (s : WsState) : Bool := s.requestors.any fun r => r.message.isSome

/-- The client loop or a tile requestor is at a send to `wQ`. -/
def sends (s : WsState) : Bool := s.loop.message.isSome || s.requestorSends

end WsState

/-- Nobody has sent on the closed queue, and nobody is about to. -/
structure QueueSafe (s : WsState) : Prop where
  live : s.panicked = false
  unsent : s.wQ.closed = true → s.sends = false

theorem QueueSafe.requestors {s : WsState} (safe : QueueSafe s) (closed : s.wQ.closed = true) :
    s.requestorSends = false :=
  (Bool.or_eq_false_iff.mp (safe.unsent closed)).2

/-- The queue is closed only while no tile requestor is at a send, and no render fails
afterwards. -/
def sparesQueue (s : WsState) : WsAction → Bool
  | .closeQueue => !s.requestorSends
  | .render _ fails => !(fails && s.wQ.closed)
  | _ => true

/-- The phases of the loop before it has closed the queue in its error case, or has left. -/
def ClientLoop.beforeClose : ClientLoop → Bool
  | .hangingUp | .waiting | .returned => false
  | _ => true

/-- The flag is set before the queue is closed, and the loop is at its end then. -/
structure QueueFlagged (s : WsState) : Prop where
  live : s.panicked = false
  unsent : s.wQ.closed = true → s.requestorSends = false
  isOpen : s.loop.beforeClose = true → s.wQ.closed = false
  flagged : s.wQ.closed = true ∨ s.loop = .closing → s.wQdidClose = true

/-- A message of the client touches only the tiles and their requestors. -/
theorem handle_frame (s : WsState) (m : ClientMessage) :
    ∃ (tiles : List ImageLocation) (requestors : List TileRequestor),
      s.handle m = { s with subbedTiles := tiles, requestors := requestors } := by
  cases m <;> exact ⟨_, _, rfl⟩

/-- The loop sends only before it closes the queue, and does not close it next. -/
theorem beforeClose_of_message {loop after : ClientLoop} {m : MsgType}
    (message : loop.message = some (m, after)) : loop.beforeClose = true ∧ after ≠ .closing := by
  cases loop with
  | pinging | relaying | notifying | disconnecting =>
      cases message
      exact ⟨rfl, nofun⟩
  | _ => cases message

/-- A requestor at a send is found among them. -/
theorem requestorSends_of_message {s : WsState} {i : Nat} {m : MsgType}
    (message : (s.requestors[i]?).bind TileRequestor.message = some m) :
    s.requestorSends = true := by
  obtain ⟨r, found, sends⟩ := Option.bind_eq_some_iff.mp message
  exact List.any_eq_true.mpr ⟨r, List.mem_of_getElem? found, by simp [sends]⟩

/-- No requestor is at a send after one of them has moved to a place without one. -/
theorem requestorSends_setRequestor {s : WsState} {i : Nat} {r : TileRequestor}
    (unsent : s.requestorSends = false) (quiet : r.message = none) :
    (s.setRequestor i r).requestorSends = false := by
  rw [WsState.requestorSends, List.any_eq_false] at unsent ⊢
  intro other member
  rcases List.mem_or_eq_of_mem_set member with old | rfl
  · exact unsent other old
  · simp [quiet]

namespace QueueFlagged

variable {s next : WsState} {action : WsAction}

theorem initial (wQ rQ eQ : Nat) : QueueFlagged (.initial wQ rQ eQ) :=
  ⟨rfl, nofun, fun _ => rfl, fun closed => by rcases closed with closed | closed <;> cases closed⟩

theorem queueSafe (flagged : QueueFlagged s) : QueueSafe s := by
  refine ⟨flagged.live, fun closed => ?_⟩
  rw [WsState.sends, flagged.unsent closed, Bool.or_false, Option.isSome_eq_false_iff,
    Option.isNone_iff_eq_none]
  cases message : s.loop.message with
  | none => rfl
  | some sent =>
      have isOpen := flagged.isOpen (beforeClose_of_message message).1
      cases isOpen.symm.trans closed

/-- The loop moves on without closing the queue. -/
theorem moves (flagged : QueueFlagged s) (selecting : s.loop.beforeClose = true)
    (live : next.panicked = s.panicked) (same : next.wQ.closed = s.wQ.closed)
    (loop : next.loop ≠ .closing) : QueueFlagged next := by
  have isOpen := same.trans (flagged.isOpen selecting)
  refine ⟨live.trans flagged.live, fun closed => ?_, fun _ => isOpen, fun closed => ?_⟩
  · cases isOpen.symm.trans closed
  · rcases closed with closed | closing
    · cases isOpen.symm.trans closed
    · exact absurd closing loop

/-- A goroutine other than the loop moves on, and no requestor comes to a send. -/
theorem keeps (flagged : QueueFlagged s) (live : next.panicked = s.panicked)
    (same : next.wQ.closed = s.wQ.closed) (loop : next.loop = s.loop)
    (flag : next.wQdidClose = s.wQdidClose)
    (unsent : s.wQ.closed = true → next.requestorSends = false) : QueueFlagged next := by
  refine ⟨live.trans flagged.live, fun closed => unsent (same ▸ closed), ?_, ?_⟩
  · rw [loop, same]
    exact flagged.isOpen
  · rw [loop, same, flag]
    exact flagged.flagged

/-- The step lemma. -/
theorem preserved (flagged : QueueFlagged s) (spares : sparesQueue s action = true)
    (transition : wsStep s action = some next) : QueueFlagged next := by
  obtain ⟨_, transition⟩ := wsTransition_of_step transition
  cases transition with
  | pings selecting | relays selecting | breaks selecting | notifies selecting
  | takesError selecting _ =>
      exact flagged.moves (by rw [selecting]; rfl) rfl rfl nofun
  | writerReportsDirect _ selecting _ | readerReportsDirect _ selecting _ =>
      exact flagged.moves (by rw [selecting]; rfl) rfl rfl nofun
  | @takesMessage m rQ selecting received =>
      obtain ⟨tiles, requestors, same⟩ := handle_frame { s with rQ := rQ } m
      rw [same]
      exact flagged.moves (by rw [selecting]; rfl) rfl rfl (by simp [selecting])
  | @pushesDirect m pushing selecting direct =>
      obtain ⟨tiles, requestors, same⟩ := handle_frame { s with reader := .reading } m
      rw [same]
      exact flagged.moves (by rw [selecting]; rfl) rfl rfl (by simp [selecting])
  | sends message sent =>
      obtain ⟨early, elsewhere⟩ := beforeClose_of_message message
      obtain ⟨_, rfl⟩ := Chan.send_sent sent
      exact flagged.moves early rfl rfl elsewhere
  | sendPanics message closed =>
      have isOpen := flagged.isOpen (beforeClose_of_message message).1
      cases isOpen.symm.trans closed
  | sendsDirect message receiving direct =>
      obtain ⟨early, elsewhere⟩ := beforeClose_of_message message
      exact flagged.moves early rfl rfl elsewhere
  | storesFlag storing =>
      have isOpen := flagged.isOpen (by rw [storing]; rfl)
      exact ⟨flagged.live, flagged.unsent, fun _ => isOpen, fun _ => rfl⟩
  | closes closing isOpen =>
      have unsent : s.requestorSends = false := by simpa [sparesQueue] using spares
      exact ⟨flagged.live, fun _ => unsent, nofun, fun _ => flagged.flagged (.inr closing)⟩
  | closePanics closing closed =>
      have isOpen := flagged.isOpen (by rw [closing]; rfl)
      cases isOpen.symm.trans closed
  | hangsUp _ | finishes _ _ =>
      refine ⟨flagged.live, flagged.unsent, nofun, fun closed => ?_⟩
      rcases closed with closed | closing
      · exact flagged.flagged (.inl closed)
      · cases closing
  | writerTakes receiving received =>
      exact flagged.keeps rfl (Chan.receive_received received).2 rfl rfl flagged.unsent
  | writerEnds _ _ | writeFails _ | writesClose _ _ | writes _ _ _ | writerReports _ _ | reads _
  | pushes _ _ | readerReports _ _ => exact flagged.keeps rfl rfl rfl rfl flagged.unsent
  | @renders i fails found =>
      refine flagged.keeps rfl rfl rfl rfl fun closed => ?_
      have works : fails = false := by simpa [sparesQueue, closed] using spares
      exact requestorSends_setRequestor (flagged.unsent closed) (by simp [works]; rfl)
  | checks found =>
      refine flagged.keeps rfl rfl rfl rfl fun closed => ?_
      have flag := flagged.flagged (.inl closed)
      exact requestorSends_setRequestor (flagged.unsent closed) (by simp [flag]; rfl)
  | requestorSends message sent =>
      obtain ⟨isOpen, rfl⟩ := Chan.send_sent sent
      exact flagged.keeps rfl rfl rfl rfl fun closed => by cases isOpen.symm.trans closed
  | requestorPanics message closed =>
      have unsent := flagged.unsent closed
      cases (requestorSends_of_message message).symm.trans unsent
  | requestorSendsDirect message receiving direct =>
      have isOpen := (Chan.direct_iff.mp direct).1
      exact flagged.keeps rfl rfl rfl rfl fun closed => by cases isOpen.symm.trans closed

/-- The queue is closed under a send, or somebody comes to a send of the closed queue. -/
theorem breaks (spoils : ¬ sparesQueue s action = true)
    (transition : wsStep s action = some next) : ¬ QueueSafe next := by
  obtain ⟨_, transition⟩ := wsTransition_of_step transition
  intro safe
  cases transition with
  | closes closing isOpen =>
      have spoiled : s.requestorSends = true := by simpa [sparesQueue] using spoils
      cases spoiled.symm.trans (safe.requestors rfl)
  | closePanics _ _ => cases safe.live
  | @renders i fails found =>
      have spoiled : fails = true ∧ s.wQ.closed = true := by simpa [sparesQueue] using spoils
      obtain ⟨rfl, closed⟩ := spoiled
      have inside := (List.getElem?_eq_some_iff.mp found).1
      have sends : (s.setRequestor i .sendingError).requestorSends = true :=
        List.any_eq_true.mpr ⟨.sendingError, List.mem_set inside _, rfl⟩
      cases sends.symm.trans (safe.requestors closed)
  | _ => exact spoils rfl

end QueueFlagged

/-- For all capacities, nobody sends on the closed queue in exactly the runs that close it
while no tile requestor is at a send, and in which no render fails afterwards. -/
theorem queueSafe_iff (wQ rQ eQ : Nat) (actions : List WsAction) (final : WsState)
    (run : wsClientHandler.Runs (.initial wQ rQ eQ) actions final) :
    wsClientHandler.ReachesOnly QueueSafe (.initial wQ rQ eQ) actions ↔
      wsClientHandler.StepsOnly (fun s action => sparesQueue s action = true)
        (.initial wQ rQ eQ) actions :=
  run.reachesOnly_iff QueueFlagged.queueSafe QueueFlagged.preserved
    (fun _ => QueueFlagged.breaks) (.initial wQ rQ eQ)

/-- The tile that a client subscribes to in the examples. -/
def someTile : ImageLocation := ⟨"world", "overworld", "terrain", 0, 0, 0⟩

/-- The client subscribes to a tile and leaves. -/
def subscribeAndLeave : List WsAction :=
  [.read (.message (.tileSubscribe someTile)), .readerPush, .takeMessage, .read .close,
    .readerReport, .takeError, .storeFlag, .closeQueue, .hangUp]

/-- The render of the tile fails after the queue was closed. -/
theorem failed_render_panics : ∃ (actions : List WsAction) (final : WsState),
    wsClientHandler.Runs (.initial 32 32 2) actions final ∧ ¬ QueueSafe final ∧
      final.panicked = true := by
  refine ⟨subscribeAndLeave ++ [.render 0 true, .requestorSend 0], _,
    Machine.runs_exec_get (by decide), fun safe => ?_, ?_⟩
  · cases safe.live
  · decide

/-- The render of the tile succeeds after the queue was closed. -/
theorem queueSafe_subscribeAndLeave : wsClientHandler.ReachesOnly QueueSafe (.initial 32 32 2)
    (subscribeAndLeave ++ [.render 0 false, .check 0, .writerTake, .finish]) :=
  (queueSafe_iff 32 32 2 (subscribeAndLeave ++ [.render 0 false, .check 0, .writerTake, .finish]) _
    (Machine.runs_exec_get (by decide))).mpr (Machine.stepsOnly_of_checkSteps (by decide))

end WebChunk.Server
