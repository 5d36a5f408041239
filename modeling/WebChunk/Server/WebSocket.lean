import WebChunk.Go.Channel
import WebChunk.ImageCache.Geometry
import WebChunk.Semantics.Machine
import WebChunk.Semantics.Processes

/-!
# The websocket handler

`wsClientHandler` runs a client loop, `asyncWriter` and `asyncReader` over three channels,
and starts an `asyncTileRequestor` for every tile that the client asks for. `wg` waits for
the writer only: the reader is started in a goroutine of its own. The capacities of the
channels are parameters. What a message says is left out, as nobody here looks at it.
-/

namespace WebChunk.Server

open WebChunk.Go WebChunk.Semantics WebChunk.ImageCache

/-- The `msgType` of a `wsmessage` in `wQ`. -/
inductive MsgType where
  | ping
  | text
  | binary
  | close
  deriving DecidableEq

/-- A message of the client as the loop decodes it; `other` is one that it only logs. -/
inductive ClientMessage where
  | tileSubscribe (loc : ImageLocation)
  | tileUnsubscribe (loc : ImageLocation)
  | resubWorldDimension (World Dimension : String)
  | other
  deriving DecidableEq

/-- What goes into `eQ`: nil, or an error. -/
inductive Report where
  | nil
  | error
  deriving DecidableEq

/-- Where the client loop is: at its select; at a send of its ticker case, its event case or,
twice, its exit case; before one of the three calls in its error case; in `wg.Wait`; or
returned. -/
inductive ClientLoop where
  | selecting
  | pinging
  | relaying
  | notifying
  | disconnecting
  | storing
  | closing
  | hangingUp
  | waiting
  | returned
  deriving DecidableEq

/-- `asyncWriter`; `failing` is its send to `e`. -/
inductive AsyncWriter where
  | receiving
  | writing (m : MsgType)
  | failing
  | returned
  deriving DecidableEq

/-- `asyncReader`, with its sends to `q` and to `e`. -/
inductive AsyncReader where
  | reading
  | pushing (m : ClientMessage)
  | reporting (err : Report)
  | returned
  deriving DecidableEq

/-- `asyncTileRequestor`, with the send of an error and that of a tile. -/
inductive TileRequestor where
  | rendering
  | sendingError
  | checking
  | sendingTile
  | returned
  deriving DecidableEq

/-- What `c.ReadMessage` returns. -/
inductive ReadMessage where
  | message (m : ClientMessage)
  | pingOrPong
  | close
  | fails

/-- The variables of `wsClientHandler` and its goroutines. `connected` is lost when somebody
here closes the connection. -/
structure WsState where
  wQ : Chan MsgType
  eQ : Chan Report
  rQ : Chan ClientMessage
  wQdidClose : Bool
  loop : ClientLoop
  writer : AsyncWriter
  reader : AsyncReader
  requestors : List TileRequestor
  subbedTiles : List ImageLocation
  connected : Bool
  panicked : Bool

/-- The handler at its first select, with channels of these capacities. -/
def WsState.initial (wQ rQ eQ : Nat) : WsState where
  wQ := .make wQ
  eQ := .make eQ
  rQ := .make rQ
  wQdidClose := false
  loop := .selecting
  writer := .receiving
  reader := .reading
  requestors := []
  subbedTiles := []
  connected := true
  panicked := false

/-- The message that the loop is about to send, and where it goes from there. -/
def ClientLoop.message : ClientLoop → Option (MsgType × ClientLoop)
  | .pinging => some (.ping, .selecting)
  | .relaying => some (.text, .selecting)
  | .notifying => some (.text, .disconnecting)
  | .disconnecting => some (.close, .waiting)
  | _ => none

/-- The message that a tile requestor is about to send. -/
def TileRequestor.message : TileRequestor → Option MsgType
  | .sendingError => some .text
  | .sendingTile => some .binary
  | _ => none

/-- `go asyncTileRequestor(loc)`. -/
def asyncTileRequestor (loc : ImageLocation) : TileRequestor :=
  if loc.Dimension = "" ∨ loc.World = "" then .returned else .rendering

/-- What `asyncReader` does with what it has read. -/
def ReadMessage.after : ReadMessage → AsyncReader
  | .message m => .pushing m
  | .pingOrPong => .reading
  | .close => .reporting .nil
  | .fails => .reporting .error

namespace WsState

/-- A send on a closed channel. Nobody recovers, and the process ends. -/
def panic (s : WsState) : WsState := { s with panicked := true }

def setRequestor (s : WsState) (i : Nat) (requestor : TileRequestor) : WsState :=
  { s with requestors := s.requestors.set i requestor }

/-- `case m := <-rQ`: the switch on the action of the message. -/
def handle (s : WsState) : ClientMessage → WsState
  | .tileSubscribe loc =>
      { s with
        subbedTiles := s.subbedTiles.insert loc
        requestors := s.requestors ++ [asyncTileRequestor loc] }
  | .tileUnsubscribe loc => { s with subbedTiles := s.subbedTiles.erase loc }
  | .resubWorldDimension World Dimension =>
      let moved := s.subbedTiles.map fun k => { k with World := World, Dimension := Dimension }
      { s with
        subbedTiles := moved.dedup
        requestors := s.requestors ++ moved.map asyncTileRequestor }
  | .other => s

/-! ### The client loop -/

/-- One of the cases of the select that go on to a send. -/
def enter (s : WsState) (phase : ClientLoop) : Option WsState :=
  match s.loop with
  | .selecting => some { s with loop := phase }
  | _ => none

/-- `case err := <-eQ`. -/
def takeError (s : WsState) : Option WsState :=
  match s.loop, s.eQ.receive with
  | .selecting, .received _ eQ => some { s with eQ := eQ, loop := .storing }
  | _, _ => none

/-- `case m := <-rQ`. -/
def takeMessage (s : WsState) : Option WsState :=
  match s.loop, s.rQ.receive with
  | .selecting, .received m rQ => some ({ s with rQ := rQ }.handle m)
  | _, _ => none

/-- A send of the loop to `wQ`. -/
def send (s : WsState) : Option WsState :=
  match s.loop.message with
  | some (m, after) =>
      match s.wQ.send m with
      | .sent wQ => some { s with wQ := wQ, loop := after }
      | .panics => some s.panic
      | .blocked => none
  | none => none

/-- The same send, straight to the waiting writer. -/
def sendDirect (s : WsState) : Option WsState :=
  match s.loop.message, s.writer with
  | some (m, after), .receiving =>
      if s.wQ.direct then some { s with loop := after, writer := .writing m } else none
  | _, _ => none

/-- `wQdidClose.Store(true)`. -/
def storeFlag (s : WsState) : Option WsState :=
  match s.loop with
  | .storing => some { s with wQdidClose := true, loop := .closing }
  | _ => none

/-- `close(wQ)`. -/
def closeQueue (s : WsState) : Option WsState :=
  match s.loop with
  | .closing =>
      if s.wQ.closed then some s.panic
      else some { s with wQ := s.wQ.close, loop := .hangingUp }
  | _ => none

/-- `c.Close()` of the loop, which then breaks. -/
def hangUp (s : WsState) : Option WsState :=
  match s.loop with
  | .hangingUp => some { s with connected := false, loop := .waiting }
  | _ => none

/-- `wg.Wait()` is over: the writer has returned. -/
def finish (s : WsState) : Option WsState :=
  match s.loop, s.writer with
  | .waiting, .returned => some { s with loop := .returned }
  | _, _ => none

/-! ### `asyncWriter` -/

/-- `for m := range q`. -/
def writerTake (s : WsState) : Option WsState :=
  match s.writer with
  | .receiving =>
      match s.wQ.receive with
      | .received m wQ => some { s with wQ := wQ, writer := .writing m }
      | .drained => some { s with writer := .returned }
      | .blocked => none
  | _ => none

/-- `c.WriteMessage`, which cannot succeed once the connection is closed. -/
def write (s : WsState) (fails : Bool) : Option WsState :=
  match s.writer with
  | .writing m =>
      if fails then some { s with writer := .failing }
      else if s.connected then
        if m = .close then some { s with connected := false, writer := .returned }
        else some { s with writer := .receiving }
      else none
  | _ => none

/-- `e <- err` of the writer. -/
def writerReport (s : WsState) : Option WsState :=
  match s.writer, s.eQ.send .error with
  | .failing, .sent eQ => some { s with eQ := eQ, writer := .returned }
  | _, _ => none

/-- The same send, straight to the select of the loop. -/
def writerReportDirect (s : WsState) : Option WsState :=
  match s.writer, s.loop with
  | .failing, .selecting =>
      if s.eQ.direct then some { s with writer := .returned, loop := .storing } else none
  | _, _ => none

/-! ### `asyncReader` -/

/-- `c.ReadMessage` returns. -/
def read (s : WsState) (result : ReadMessage) : Option WsState :=
  match s.reader with
  | .reading => some { s with reader := result.after }
  | _ => none

/-- `q <- wsmessage{...}`. -/
def readerPush (s : WsState) : Option WsState :=
  match s.reader with
  | .pushing m =>
      match s.rQ.send m with
      | .sent rQ => some { s with rQ := rQ, reader := .reading }
      | _ => none
  | _ => none

/-- The same send, straight to the select of the loop. -/
def readerPushDirect (s : WsState) : Option WsState :=
  match s.reader, s.loop with
  | .pushing m, .selecting =>
      if s.rQ.direct then some ({ s with reader := .reading }.handle m) else none
  | _, _ => none

/-- `e <- nil` and `e <- err` of the reader. -/
def readerReport (s : WsState) : Option WsState :=
  match s.reader with
  | .reporting err =>
      match s.eQ.send err with
      | .sent eQ => some { s with eQ := eQ, reader := .returned }
      | _ => none
  | _ => none

/-- The same send, straight to the select of the loop. -/
def readerReportDirect (s : WsState) : Option WsState :=
  match s.reader, s.loop with
  | .reporting _, .selecting =>
      if s.eQ.direct then some { s with reader := .returned, loop := .storing } else none
  | _, _ => none

/-! ### `asyncTileRequestor` -/

/-- `imageGetSync` returns. -/
def render (s : WsState) (i : Nat) (fails : Bool) : Option WsState :=
  match s.requestors[i]? with
  | some .rendering => some (s.setRequestor i (if fails then .sendingError else .checking))
  | _ => none

/-- `if !wQdidClose.Load()`. -/
def check (s : WsState) (i : Nat) : Option WsState :=
  match s.requestors[i]? with
  | some .checking => some (s.setRequestor i (if s.wQdidClose then .returned else .sendingTile))
  | _ => none

/-- One of the two sends of a requestor to `wQ`. -/
def requestorSend (s : WsState) (i : Nat) : Option WsState :=
  match (s.requestors[i]?).bind TileRequestor.message with
  | some m =>
      match s.wQ.send m with
      | .sent wQ => some ({ s with wQ := wQ }.setRequestor i .returned)
      | .panics => some s.panic
      | .blocked => none
  | none => none

/-- The same send, straight to the waiting writer. -/
def requestorSendDirect (s : WsState) (i : Nat) : Option WsState :=
  match (s.requestors[i]?).bind TileRequestor.message, s.writer with
  | some m, .receiving =>
      if s.wQ.direct then some ({ s with writer := .writing m }.setRequestor i .returned) else none
  | _, _ => none

end WsState

/-- The next communication of one goroutine. -/
inductive WsAction where
  | ping
  | event (marshals : Bool)
  | exit
  | takeError
  | takeMessage
  | send
  | sendDirect
  | storeFlag
  | closeQueue
  | hangUp
  | finish
  | writerTake
  | write (fails : Bool)
  | writerReport
  | writerReportDirect
  | read (result : ReadMessage)
  | readerPush
  | readerPushDirect
  | readerReport
  | readerReportDirect
  | render (i : Nat) (fails : Bool)
  | check (i : Nat)
  | requestorSend (i : Nat)
  | requestorSendDirect (i : Nat)

/-- The step of the handler and its goroutines. An event that cannot be marshalled breaks the
loop. -/
def wsStep (s : WsState) (action : WsAction) : Option WsState :=
  if s.panicked then none
  else
    match action with
    | .ping => s.enter .pinging
    | .event marshals => s.enter (if marshals then .relaying else .waiting)
    | .exit => s.enter .notifying
    | .takeError => s.takeError
    | .takeMessage => s.takeMessage
    | .send => s.send
    | .sendDirect => s.sendDirect
    | .storeFlag => s.storeFlag
    | .closeQueue => s.closeQueue
    | .hangUp => s.hangUp
    | .finish => s.finish
    | .writerTake => s.writerTake
    | .write fails => s.write fails
    | .writerReport => s.writerReport
    | .writerReportDirect => s.writerReportDirect
    | .read result => s.read result
    | .readerPush => s.readerPush
    | .readerPushDirect => s.readerPushDirect
    | .readerReport => s.readerReport
    | .readerReportDirect => s.readerReportDirect
    | .render i fails => s.render i fails
    | .check i => s.check i
    | .requestorSend i => s.requestorSend i
    | .requestorSendDirect i => s.requestorSendDirect i

/-- The websocket handler. -/
def wsClientHandler : Machine WsState WsAction := ⟨wsStep⟩

/-- The branches of `wsStep`. -/
inductive WsTransition (s : WsState) : WsAction → WsState → Prop where
  | pings (selecting : s.loop = .selecting) :
      WsTransition s .ping { s with loop := .pinging }
  | relays (selecting : s.loop = .selecting) :
      WsTransition s (.event true) { s with loop := .relaying }
  | breaks (selecting : s.loop = .selecting) :
      WsTransition s (.event false) { s with loop := .waiting }
  | notifies (selecting : s.loop = .selecting) :
      WsTransition s .exit { s with loop := .notifying }
  | takesError {err : Report} {eQ : Chan Report} (selecting : s.loop = .selecting)
      (received : s.eQ.receive = .received err eQ) :
      WsTransition s .takeError { s with eQ := eQ, loop := .storing }
  | takesMessage {m : ClientMessage} {rQ : Chan ClientMessage} (selecting : s.loop = .selecting)
      (received : s.rQ.receive = .received m rQ) :
      WsTransition s .takeMessage ({ s with rQ := rQ }.handle m)
  | sends {m : MsgType} {after : ClientLoop} {wQ : Chan MsgType}
      (message : s.loop.message = some (m, after)) (sent : s.wQ.send m = .sent wQ) :
      WsTransition s .send { s with wQ := wQ, loop := after }
  | sendPanics {m : MsgType} {after : ClientLoop} (message : s.loop.message = some (m, after))
      (closed : s.wQ.closed = true) : WsTransition s .send s.panic
  | sendsDirect {m : MsgType} {after : ClientLoop} (message : s.loop.message = some (m, after))
      (receiving : s.writer = .receiving) (direct : s.wQ.direct = true) :
      WsTransition s .sendDirect { s with loop := after, writer := .writing m }
  | storesFlag (storing : s.loop = .storing) :
      WsTransition s .storeFlag { s with wQdidClose := true, loop := .closing }
  | closes (closing : s.loop = .closing) (isOpen : s.wQ.closed = false) :
      WsTransition s .closeQueue { s with wQ := s.wQ.close, loop := .hangingUp }
  | closePanics (closing : s.loop = .closing) (closed : s.wQ.closed = true) :
      WsTransition s .closeQueue s.panic
  | hangsUp (hangingUp : s.loop = .hangingUp) :
      WsTransition s .hangUp { s with connected := false, loop := .waiting }
  | finishes (waiting : s.loop = .waiting) (returned : s.writer = .returned) :
      WsTransition s .finish { s with loop := .returned }
  | writerTakes {m : MsgType} {wQ : Chan MsgType} (receiving : s.writer = .receiving)
      (received : s.wQ.receive = .received m wQ) :
      WsTransition s .writerTake { s with wQ := wQ, writer := .writing m }
  | writerEnds (receiving : s.writer = .receiving) (drained : s.wQ.receive = .drained) :
      WsTransition s .writerTake { s with writer := .returned }
  | writeFails {m : MsgType} (writing : s.writer = .writing m) :
      WsTransition s (.write true) { s with writer := .failing }
  | writesClose (writing : s.writer = .writing .close) (connected : s.connected = true) :
      WsTransition s (.write false) { s with connected := false, writer := .returned }
  | writes {m : MsgType} (writing : s.writer = .writing m) (other : m ≠ .close)
      (connected : s.connected = true) :
      WsTransition s (.write false) { s with writer := .receiving }
  | writerReports {eQ : Chan Report} (failing : s.writer = .failing)
      (sent : s.eQ.send .error = .sent eQ) :
      WsTransition s .writerReport { s with eQ := eQ, writer := .returned }
  | writerReportsDirect (failing : s.writer = .failing) (selecting : s.loop = .selecting)
      (direct : s.eQ.direct = true) :
      WsTransition s .writerReportDirect { s with writer := .returned, loop := .storing }
  | reads {result : ReadMessage} (reading : s.reader = .reading) :
      WsTransition s (.read result) { s with reader := result.after }
  | pushes {m : ClientMessage} {rQ : Chan ClientMessage} (pushing : s.reader = .pushing m)
      (sent : s.rQ.send m = .sent rQ) :
      WsTransition s .readerPush { s with rQ := rQ, reader := .reading }
  | pushesDirect {m : ClientMessage} (pushing : s.reader = .pushing m)
      (selecting : s.loop = .selecting) (direct : s.rQ.direct = true) :
      WsTransition s .readerPushDirect ({ s with reader := .reading }.handle m)
  | readerReports {err : Report} {eQ : Chan Report} (reporting : s.reader = .reporting err)
      (sent : s.eQ.send err = .sent eQ) :
      WsTransition s .readerReport { s with eQ := eQ, reader := .returned }
  | readerReportsDirect {err : Report} (reporting : s.reader = .reporting err)
      (selecting : s.loop = .selecting) (direct : s.eQ.direct = true) :
      WsTransition s .readerReportDirect { s with reader := .returned, loop := .storing }
  | renders {i : Nat} {fails : Bool} (found : s.requestors[i]? = some .rendering) :
      WsTransition s (.render i fails)
        (s.setRequestor i (if fails then .sendingError else .checking))
  | checks {i : Nat} (found : s.requestors[i]? = some .checking) :
      WsTransition s (.check i)
        (s.setRequestor i (if s.wQdidClose then .returned else .sendingTile))
  | requestorSends {i : Nat} {m : MsgType} {wQ : Chan MsgType}
      (message : (s.requestors[i]?).bind TileRequestor.message = some m)
      (sent : s.wQ.send m = .sent wQ) :
      WsTransition s (.requestorSend i) ({ s with wQ := wQ }.setRequestor i .returned)
  | requestorPanics {i : Nat} {m : MsgType}
      (message : (s.requestors[i]?).bind TileRequestor.message = some m)
      (closed : s.wQ.closed = true) : WsTransition s (.requestorSend i) s.panic
  | requestorSendsDirect {i : Nat} {m : MsgType}
      (message : (s.requestors[i]?).bind TileRequestor.message = some m)
      (receiving : s.writer = .receiving) (direct : s.wQ.direct = true) :
      WsTransition s (.requestorSendDirect i)
        ({ s with writer := .writing m }.setRequestor i .returned)

/-- Inversion of `wsStep`. -/
theorem wsTransition_of_step {s next : WsState} {action : WsAction}
    (transition : wsStep s action = some next) :
    s.panicked = false ∧ WsTransition s action next := by
  unfold wsStep at transition
  split at transition
  · cases transition
  · rename_i live
    refine ⟨by simpa using live, ?_⟩
    cases action with
    | ping =>
        simp only [WsState.enter] at transition
        split at transition <;> cases transition
        exact .pings ‹_›
    | event marshals =>
        simp only [WsState.enter] at transition
        split at transition <;> cases transition
        cases marshals
        · exact .breaks ‹_›
        · exact .relays ‹_›
    | exit =>
        simp only [WsState.enter] at transition
        split at transition <;> cases transition
        exact .notifies ‹_›
    | takeError =>
        simp only [WsState.takeError] at transition
        split at transition <;> cases transition
        exact .takesError ‹_› ‹_›
    | takeMessage =>
        simp only [WsState.takeMessage] at transition
        split at transition <;> cases transition
        exact .takesMessage ‹_› ‹_›
    | send =>
        simp only [WsState.send] at transition
        split at transition
        · split at transition <;> cases transition
          · exact .sends ‹_› ‹_›
          · exact .sendPanics ‹_› (Chan.send_panics_iff.mp ‹_›)
        · cases transition
    | sendDirect =>
        simp only [WsState.sendDirect] at transition
        split at transition
        · split at transition <;> cases transition
          exact .sendsDirect ‹_› ‹_› ‹_›
        · cases transition
    | storeFlag =>
        simp only [WsState.storeFlag] at transition
        split at transition <;> cases transition
        exact .storesFlag ‹_›
    | closeQueue =>
        simp only [WsState.closeQueue] at transition
        split at transition
        · split at transition <;> cases transition
          · exact .closePanics ‹_› ‹_›
          · exact .closes ‹_› (Bool.eq_false_iff.mpr ‹_›)
        · cases transition
    | hangUp =>
        simp only [WsState.hangUp] at transition
        split at transition <;> cases transition
        exact .hangsUp ‹_›
    | finish =>
        simp only [WsState.finish] at transition
        split at transition <;> cases transition
        exact .finishes ‹_› ‹_›
    | writerTake =>
        simp only [WsState.writerTake] at transition
        split at transition
        · split at transition <;> cases transition
          · exact .writerTakes ‹_› ‹_›
          · exact .writerEnds ‹_› ‹_›
        · cases transition
    | write fails =>
        simp only [WsState.write] at transition
        split at transition
        · split at transition
          · rename_i failed
            cases failed
            cases transition
            exact .writeFails ‹_›
          · rename_i worked
            obtain rfl : fails = false := by simpa using worked
            split at transition
            · split at transition <;> cases transition
              · rename_i isClose
                subst isClose
                exact .writesClose ‹_› ‹_›
              · exact .writes ‹_› ‹_› ‹_›
            · cases transition
        · cases transition
    | writerReport =>
        simp only [WsState.writerReport] at transition
        split at transition <;> cases transition
        exact .writerReports ‹_› ‹_›
    | writerReportDirect =>
        simp only [WsState.writerReportDirect] at transition
        split at transition
        · split at transition <;> cases transition
          exact .writerReportsDirect ‹_› ‹_› ‹_›
        · cases transition
    | read result =>
        simp only [WsState.read] at transition
        split at transition <;> cases transition
        exact .reads ‹_›
    | readerPush =>
        simp only [WsState.readerPush] at transition
        split at transition
        · split at transition <;> cases transition
          exact .pushes ‹_› ‹_›
        · cases transition
    | readerPushDirect =>
        simp only [WsState.readerPushDirect] at transition
        split at transition
        · split at transition <;> cases transition
          exact .pushesDirect ‹_› ‹_› ‹_›
        · cases transition
    | readerReport =>
        simp only [WsState.readerReport] at transition
        split at transition
        · split at transition <;> cases transition
          exact .readerReports ‹_› ‹_›
        · cases transition
    | readerReportDirect =>
        simp only [WsState.readerReportDirect] at transition
        split at transition
        · split at transition <;> cases transition
          exact .readerReportsDirect ‹_› ‹_› ‹_›
        · cases transition
    | render i fails =>
        simp only [WsState.render] at transition
        split at transition <;> cases transition
        exact .renders ‹_›
    | check i =>
        simp only [WsState.check] at transition
        split at transition <;> cases transition
        exact .checks ‹_›
    | requestorSend i =>
        simp only [WsState.requestorSend] at transition
        split at transition
        · split at transition <;> cases transition
          · exact .requestorSends ‹_› ‹_›
          · exact .requestorPanics ‹_› (Chan.send_panics_iff.mp ‹_›)
        · cases transition
    | requestorSendDirect i =>
        simp only [WsState.requestorSendDirect] at transition
        split at transition
        · split at transition <;> cases transition
          exact .requestorSendsDirect ‹_› ‹_› ‹_›
        · cases transition

end WebChunk.Server
