import Mathlib.Data.List.Dedup
import WebChunk.Semantics.History
import WebChunk.Server.WriterQueue

/-!
# What the client's messages do

The client loop takes the messages of the page one by one. What it is subscribed to afterwards and
which tiles it has asked for depend on the messages alone, whatever the other goroutines of the
handler do in between.
-/

namespace WebChunk.Server

open WebChunk.Go WebChunk.Semantics WebChunk.ImageCache

/-- `subbedTiles` after a message. -/
def subscribed (tiles : List ImageLocation) : ClientMessage → List ImageLocation
  | .tileSubscribe loc => tiles.insert loc
  | .tileUnsubscribe loc => tiles.erase loc
  | .resubWorldDimension World Dimension =>
      (tiles.map fun k => { k with World := World, Dimension := Dimension }).dedup
  | .other => tiles

/-- The locations that a message starts an `asyncTileRequestor` with. -/
def requested (tiles : List ImageLocation) : ClientMessage → List ImageLocation
  | .tileSubscribe loc => [loc]
  | .resubWorldDimension World Dimension =>
      tiles.map fun k => { k with World := World, Dimension := Dimension }
  | .tileUnsubscribe _ | .other => []

/-- The locations that a sequence of messages starts an `asyncTileRequestor` with. -/
def requestedBy (tiles : List ImageLocation) : List ClientMessage → List ImageLocation
  | [] => []
  | m :: rest => requested tiles m ++ requestedBy (subscribed tiles m) rest

theorem requestedBy_append (tiles : List ImageLocation) (earlier later : List ClientMessage) :
    requestedBy tiles (earlier ++ later) =
      requestedBy tiles earlier ++ requestedBy (earlier.foldl subscribed tiles) later := by
  induction earlier generalizing tiles with
  | nil => rfl
  | cons m rest inductionHypothesis =>
      rw [List.cons_append, requestedBy, requestedBy, List.foldl_cons, inductionHypothesis,
        List.append_assoc]

theorem requestedBy_concat (tiles : List ImageLocation) (earlier : List ClientMessage)
    (m : ClientMessage) :
    requestedBy tiles (earlier ++ [m]) =
      requestedBy tiles earlier ++ requested (earlier.foldl subscribed tiles) m := by
  rw [requestedBy_append, requestedBy, requestedBy, List.append_nil]

/-- No tile is subscribed to twice. -/
theorem subscribed_nodup {tiles : List ImageLocation} (nodup : tiles.Nodup) (m : ClientMessage) :
    (subscribed tiles m).Nodup := by
  cases m with
  | tileSubscribe loc => exact List.Nodup.insert nodup
  | tileUnsubscribe loc => exact nodup.erase loc
  | resubWorldDimension World Dimension => exact List.nodup_dedup _
  | other => exact nodup

theorem foldl_subscribed_nodup {tiles : List ImageLocation} (nodup : tiles.Nodup)
    (messages : List ClientMessage) : (messages.foldl subscribed tiles).Nodup := by
  induction messages generalizing tiles with
  | nil => exact nodup
  | cons m rest inductionHypothesis => exact inductionHypothesis (subscribed_nodup nodup m)

/-- The client loop handles a message in one go. -/
theorem WsState.handle_eq (s : WsState) (m : ClientMessage) :
    s.handle m = { s with
      subbedTiles := subscribed s.subbedTiles m
      requestors := s.requestors ++ (requested s.subbedTiles m).map asyncTileRequestor } := by
  cases m with
  | tileSubscribe loc => rfl
  | resubWorldDimension World Dimension => rfl
  | tileUnsubscribe loc | other =>
      rw [requested, List.map_nil, List.append_nil]
      rfl

/-- The message that the reader is about to hand over. -/
def AsyncReader.held : AsyncReader → List ClientMessage
  | .pushing m => [m]
  | _ => []

/-- The messages that a step reads from the connection. -/
def readMessages (_ : WsState) (action : WsAction) (_ : WsState) : List ClientMessage :=
  match action with
  | .read (.message m) => [m]
  | _ => []

/-- The messages read so far are those handled and those on the way to the loop. -/
structure HandledInOrder (past : List ClientMessage) (s : WsState) : Prop where
  handled : ∃ handled, past = handled ++ (s.rQ.buffer ++ s.reader.held) ∧
    s.subbedTiles = handled.foldl subscribed [] ∧
    s.requestors.length = (requestedBy [] handled).length

namespace HandledInOrder

variable {past : List ClientMessage} {s next : WsState} {action : WsAction}

/-- A step that neither reads nor handles a message. -/
theorem keeps (order : HandledInOrder past s) (queue : next.rQ.buffer = s.rQ.buffer)
    (reader : next.reader.held = s.reader.held) (tiles : next.subbedTiles = s.subbedTiles)
    (requestors : next.requestors.length = s.requestors.length) : HandledInOrder past next := by
  obtain ⟨handled, whole, subbed, started⟩ := order.handled
  refine ⟨handled, ?_, tiles.trans subbed, requestors.trans started⟩
  rw [queue, reader, whole]

/-- The oldest message on the way is handled. -/
theorem handles {m : ClientMessage} {rest : List ClientMessage} (order : HandledInOrder past s)
    (oldest : s.rQ.buffer ++ s.reader.held = m :: rest)
    (left : next.rQ.buffer ++ next.reader.held = rest)
    (tiles : next.subbedTiles = s.subbedTiles)
    (requestors : next.requestors.length = s.requestors.length) :
    HandledInOrder past (next.handle m) := by
  obtain ⟨handled, whole, subbed, started⟩ := order.handled
  refine ⟨handled ++ [m], ?_, ?_, ?_⟩
  · rw [WsState.handle_eq]
    dsimp only
    rw [whole, oldest, left, List.append_assoc, List.singleton_append]
  · rw [WsState.handle_eq, List.foldl_append, ← subbed, tiles]
    rfl
  · rw [WsState.handle_eq, requestedBy_concat, ← subbed, List.length_append, List.length_append,
      List.length_map, ← started, ← requestors, tiles]

/-- A step that reads nothing. -/
theorem quiet (order : HandledInOrder past next) : HandledInOrder (past ++ []) next := by
  rwa [List.append_nil]

/-- What one step reads is put behind what was read before. -/
theorem step (order : HandledInOrder past s) (transition : wsStep s action = some next) :
    HandledInOrder (past ++ readMessages s action next) next := by
  obtain ⟨_, branch⟩ := wsTransition_of_step transition
  cases branch with
  | takesMessage selecting received =>
      obtain ⟨rest, queue, rfl⟩ := Chan.receive_takes received
      exact quiet (order.handles (by rw [queue]; rfl) rfl rfl rfl)
  | @pushesDirect m pushing selecting direct =>
      have waiting : s.rQ.buffer = [] := (Chan.direct_iff.mp direct).2
      have oldest : s.rQ.buffer ++ s.reader.held = [m] := by
        rw [waiting, pushing]
        rfl
      exact quiet (order.handles oldest (by rw [waiting]; rfl) rfl rfl)
  | pushes pushing sent =>
      obtain ⟨handled, whole, subbed, started⟩ := order.handled
      refine HandledInOrder.quiet ⟨handled, ?_, subbed, started⟩
      rw [whole, (Chan.send_sent sent).2, pushing]
      exact congrArg (handled ++ ·) (List.append_nil _).symm
  | @reads result reading =>
      obtain ⟨handled, whole, subbed, started⟩ := order.handled
      rw [reading, show AsyncReader.reading.held = [] from rfl, List.append_nil] at whole
      refine ⟨handled, ?_, subbed, started⟩
      rw [whole, List.append_assoc]
      cases result <;> rfl
  | readerReports reporting sent =>
      exact quiet (order.keeps rfl (by rw [reporting]; rfl) rfl rfl)
  | readerReportsDirect reporting selecting direct =>
      exact quiet (order.keeps rfl (by rw [reporting]; rfl) rfl rfl)
  | renders found => exact quiet (order.keeps rfl rfl rfl (List.length_set ..))
  | checks found => exact quiet (order.keeps rfl rfl rfl (List.length_set ..))
  | requestorSends message sent => exact quiet (order.keeps rfl rfl rfl (List.length_set ..))
  | requestorSendsDirect message receiving direct =>
      exact quiet (order.keeps rfl rfl rfl (List.length_set ..))
  | _ => exact quiet (order.keeps rfl rfl rfl rfl)

end HandledInOrder

/-- Whatever happens in the handler, the tiles that it holds and the requestors that it has started
are those of a first part of the messages read, taken in their order; the others wait in `rQ` or
with the reader. -/
theorem messagesHandledInOrder {wQ rQ eQ : Nat} {actions : List WsAction} {s : WsState}
    (run : wsClientHandler.Runs (.initial wQ rQ eQ) actions s) :
    ∃ handled,
      wsClientHandler.history readMessages (.initial wQ rQ eQ) actions =
        handled ++ (s.rQ.buffer ++ s.reader.held) ∧
      s.subbedTiles = handled.foldl subscribed [] ∧
      s.requestors.length = (requestedBy [] handled).length := by
  have start : HandledInOrder [] (.initial wQ rQ eQ) := ⟨[], rfl, rfl, rfl⟩
  exact (run.history HandledInOrder HandledInOrder.step start).handled

/-- Two subscriptions and a change of the selection, the last message still in the queue. -/
theorem messagesHandledInOrder_sample :
    let loc : ImageLocation := ⟨"a", "b", "c", 0, 1, 2⟩
    let actions : List WsAction :=
      [.read (.message (.tileSubscribe loc)), .readerPush, .read (.message (.tileSubscribe loc)),
        .takeMessage, .readerPush, .takeMessage,
        .read (.message (.resubWorldDimension "w" "d")), .readerPush]
    ∃ s, wsClientHandler.exec (.initial 32 32 2) actions = some s ∧
      ∃ handled,
        wsClientHandler.history readMessages (.initial 32 32 2) actions =
          handled ++ (s.rQ.buffer ++ s.reader.held) ∧
        s.subbedTiles = handled.foldl subscribed [] ∧
        s.requestors.length = (requestedBy [] handled).length :=
  ⟨_, rfl, messagesHandledInOrder (Machine.runs_of_exec rfl)⟩

end WebChunk.Server
