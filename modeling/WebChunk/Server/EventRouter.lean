import Mathlib.Data.Finset.Erase
import WebChunk.Go.Channel
import WebChunk.Go.Map
import WebChunk.Semantics.Machine
import WebChunk.Semantics.Processes

/-!
# The event router

`mapEventRouter.Run` relays every event to the channels of the connected websocket
clients. A client announces its channel through one channel of the router and takes
it back through another, so the router may hear of the two in either order. The
channel of a client is named by the client's number.
-/

namespace WebChunk.Server

open WebChunk.Go WebChunk.Semantics

/-- `mapEvent`. -/
structure MapEvent (Payload : Type) where
  Action : String
  Data : Payload

/-- Where `Run` is: at its select, in one of its two loops over `clients` with the
clients it has yet to visit, or returned. -/
inductive RunPhase (Payload : Type) where
  | selecting
  | relaying (e : MapEvent Payload) (left : Finset Nat)
  | closing (left : Finset Nat)
  | returned

/-- Where a websocket handler is: in `Connect`, between its two calls, in `Disconnect`,
or past it. -/
inductive ClientPhase where
  | connecting
  | connected
  | disconnecting
  | gone
  deriving DecidableEq

/-- A websocket handler and the channel that its call of `Connect` made. -/
structure Client (Payload : Type) where
  c : Chan (MapEvent Payload)
  phase : ClientPhase

/-- The run-time panics around the router; each ends the process. The last one is that
of a handler which sends to its own channel. -/
inductive RouterPanic where
  | sendOnClosed
  | closeOfClosed
  | clientSendOnClosed
  deriving DecidableEq

/-- `mapEventRouter`, the variables of `Run` and the handlers. -/
structure RouterState (Payload : Type) where
  connect : Chan Nat
  disconnect : Chan Nat
  events : Chan (MapEvent Payload)
  exitchan : Chan Unit
  run : RunPhase Payload
  clients : Map Nat Bool
  handlers : List (Client Payload)
  panicked : Option RouterPanic

variable {Payload : Type}

/-- `newMapEventRouter`, with `Run` at its first select. -/
def newMapEventRouter : RouterState Payload where
  connect := .make 16
  disconnect := .make 16
  events := .make 256
  exitchan := .make 1
  run := .selecting
  clients := .empty
  handlers := []
  panicked := none

/-- The loop that relays an event, once these clients are left. -/
def RunPhase.relayLeft (e : MapEvent Payload) (left : Finset Nat) : RunPhase Payload :=
  if left = ∅ then .selecting else .relaying e left

/-- The loop after the exit case, once these clients are left. -/
def RunPhase.closeLeft (left : Finset Nat) : RunPhase Payload :=
  if left = ∅ then .returned else .closing left

namespace RouterState

def panic (s : RouterState Payload) (p : RouterPanic) : RouterState Payload :=
  { s with panicked := some p }

def setChannel (s : RouterState Payload) (c : Nat) (ch : Chan (MapEvent Payload)) :
    RouterState Payload :=
  { s with handlers := s.handlers.modify c fun h => { h with c := ch } }

def setPhase (s : RouterState Payload) (c : Nat) (phase : ClientPhase) : RouterState Payload :=
  { s with handlers := s.handlers.modify c fun h => { h with phase := phase } }

/-! ### The clients -/

/-- `make(chan mapEvent, 256)` of a new call of `Connect`. -/
def dial (s : RouterState Payload) : RouterState Payload :=
  { s with handlers := s.handlers ++ [⟨.make 256, .connecting⟩] }

/-- `router.connect <- c`, after which `Connect` returns. -/
def Connect (s : RouterState Payload) (c : Nat) : Option (RouterState Payload) :=
  match s.handlers[c]? with
  | some ⟨_, .connecting⟩ =>
      match s.connect.send c with
      | .sent connect => some ({ s with connect := connect }.setPhase c .connected)
      | _ => none
  | _ => none

/-- A send of a connected handler to its own channel. -/
def clientSend (s : RouterState Payload) (c : Nat) (e : MapEvent Payload) :
    Option (RouterState Payload) :=
  match s.handlers[c]? with
  | some ⟨ch, .connected⟩ =>
      match ch.send e with
      | .blocked => none
      | .panics => some (s.panic .clientSendOnClosed)
      | .sent ch => some (s.setChannel c ch)
  | _ => none

/-- A connected handler takes an event. -/
def clientReceive (s : RouterState Payload) (c : Nat) : Option (RouterState Payload) :=
  match s.handlers[c]? with
  | some ⟨ch, .connected⟩ =>
      match ch.receive with
      | .received _ ch => some (s.setChannel c ch)
      | _ => none
  | _ => none

/-- The call of `Disconnect`. -/
def leave (s : RouterState Payload) (c : Nat) : Option (RouterState Payload) :=
  match s.handlers[c]? with
  | some ⟨_, .connected⟩ => some (s.setPhase c .disconnecting)
  | _ => none

/-- `router.disconnect <- c`, after which `Disconnect` returns. -/
def Disconnect (s : RouterState Payload) (c : Nat) : Option (RouterState Payload) :=
  match s.handlers[c]? with
  | some ⟨_, .disconnecting⟩ =>
      match s.disconnect.send c with
      | .sent disconnect => some ({ s with disconnect := disconnect }.setPhase c .gone)
      | _ => none
  | _ => none

/-- `router.events <- e` of some goroutine. -/
def Broadcast (s : RouterState Payload) (e : MapEvent Payload) : Option (RouterState Payload) :=
  match s.events.send e with
  | .sent events => some { s with events := events }
  | _ => none

/-- The value that the stop function of the routine sends. -/
def stop (s : RouterState Payload) : Option (RouterState Payload) :=
  match s.exitchan.send () with
  | .sent exitchan => some { s with exitchan := exitchan }
  | _ => none

/-! ### The cases of `Run` -/

/-- `case <-exitchan`. -/
def takeExit (s : RouterState Payload) : Option (RouterState Payload) :=
  match s.run, s.exitchan.receive with
  | .selecting, .received _ exitchan =>
      some { s with exitchan := exitchan, run := .closeLeft s.clients.keys }
  | _, _ => none

/-- `case c := <-router.connect`. -/
def takeConnect (s : RouterState Payload) : Option (RouterState Payload) :=
  match s.run, s.connect.receive with
  | .selecting, .received c connect =>
      some { s with connect := connect, clients := s.clients.set c true }
  | _, _ => none

/-- `case c := <-router.disconnect`: the channel is closed whether it is known or not. -/
def takeDisconnect (s : RouterState Payload) : Option (RouterState Payload) :=
  match s.run, s.disconnect.receive with
  | .selecting, .received c disconnect =>
      match s.handlers[c]? with
      | none => none
      | some h =>
          let s := { s with disconnect := disconnect, clients := s.clients.delete c }
          if h.c.closed then some (s.panic .closeOfClosed) else some (s.setChannel c h.c.close)
  | _, _ => none

/-- `case e := <-router.events`. -/
def takeEvent (s : RouterState Payload) : Option (RouterState Payload) :=
  match s.run, s.events.receive with
  | .selecting, .received e events =>
      some { s with events := events, run := .relayLeft e s.clients.keys }
  | _, _ => none

/-- One iteration of the loop that relays an event: a full channel drops it. -/
def relay (s : RouterState Payload) (c : Nat) : Option (RouterState Payload) :=
  match s.run, s.handlers[c]? with
  | .relaying e left, some h =>
      if c ∈ left then
        let after := { s with run := .relayLeft e (left.erase c) }
        match h.c.send e with
        | .blocked => some after
        | .panics => some (s.panic .sendOnClosed)
        | .sent ch => some (after.setChannel c ch)
      else none
  | _, _ => none

/-- One iteration of the loop after the exit case. -/
def closeNext (s : RouterState Payload) (c : Nat) : Option (RouterState Payload) :=
  match s.run, s.handlers[c]? with
  | .closing left, some h =>
      if c ∈ left then
        if h.c.closed then some (s.panic .closeOfClosed)
        else some ({ s with run := .closeLeft (left.erase c) }.setChannel c h.c.close)
      else none
  | _, _ => none

end RouterState

/-- The next communication of one goroutine. -/
inductive RouterAction (Payload : Type) where
  | dial
  | Connect (c : Nat)
  | clientSend (c : Nat) (e : MapEvent Payload)
  | clientReceive (c : Nat)
  | leave (c : Nat)
  | Disconnect (c : Nat)
  | Broadcast (e : MapEvent Payload)
  | stop
  | takeExit
  | takeConnect
  | takeDisconnect
  | takeEvent
  | relay (c : Nat)
  | closeNext (c : Nat)

/-- The step of the router and its clients. A panic ends the process. -/
def routerStep (s : RouterState Payload) (action : RouterAction Payload) :
    Option (RouterState Payload) :=
  if s.panicked.isSome then none
  else
    match action with
    | .dial => some s.dial
    | .Connect c => s.Connect c
    | .clientSend c e => s.clientSend c e
    | .clientReceive c => s.clientReceive c
    | .leave c => s.leave c
    | .Disconnect c => s.Disconnect c
    | .Broadcast e => s.Broadcast e
    | .stop => s.stop
    | .takeExit => s.takeExit
    | .takeConnect => s.takeConnect
    | .takeDisconnect => s.takeDisconnect
    | .takeEvent => s.takeEvent
    | .relay c => s.relay c
    | .closeNext c => s.closeNext c

/-- The event router with its clients. -/
def eventRouter : Machine (RouterState Payload) (RouterAction Payload) := ⟨routerStep⟩

end WebChunk.Server
