import WebChunk.Go.Channel
import WebChunk.Proxy.PacketProcessor
import WebChunk.Semantics.Machine

/-!
# A player's session

`AcceptPlayer` starts the packet processor, a closer and a reader on each side, and writes
itself what the others push to `connQueue`. Any read and any write may fail at any time, or
succeed although the connection was closed meanwhile: what was received is buffered.
`queue.ChannelQueue` is taken to be a channel. The server reader and the packet processor push
to it, and the closer closes it without asking them.
-/

namespace WebChunk.Proxy

open WebChunk.Go WebChunk.Semantics

/-- The error of a read or a write. -/
inductive NetError where
  | deadlineExceeded
  | other
  deriving DecidableEq

/-- What is pushed to `connQueue`. -/
inductive Outgoing where
  | packet (p : Packet)
  | actionBar (text : String)

/-- The closer: at its select, before `SetDeadline` and `c.Conn.Close`, before
`connQueue.Close`, or returned. -/
inductive Closer where
  | selecting
  | disconnecting
  | closing
  | returned
  deriving DecidableEq

/-- The client reader; a chat packet is relayed in a branch of its own. -/
inductive ClientReader where
  | reading
  | relaying (chat : Bool)
  | reporting
  | returned
  deriving DecidableEq

/-- The server reader; `closing` is its last statement, past `wg.Done`. -/
inductive ServerReader where
  | reading
  | collecting (p : Packet)
  | pushing (p : Packet)
  | reporting
  | closing
  | returned

/-- The goroutine of `packetAcceptor`. -/
inductive PacketProcessor where
  | receiving
  | processing (p : Packet)
  | pushing
  | returned

/-- `AcceptPlayer` itself, from its loop over `connQueue` on. -/
inductive WriteLoop where
  | pulling
  | writing (pack : Outgoing)
  | reporting
  | waiting
  | returned

/-- The run-time panics of a session; each ends the process. -/
inductive SessionPanic where
  | pushOnClosed
  | indexOutOfRange
  deriving DecidableEq

/-- The channels of a session and its goroutines. -/
structure Session where
  acceptorChannel : Chan Packet
  connQueue : Chan Outgoing
  closeChannel : Chan Unit
  closer : Closer
  client : ClientReader
  server : ServerReader
  processor : PacketProcessor
  acceptor : Acceptor
  writer : WriteLoop
  panicked : Option SessionPanic

/-- The session after its goroutines were started. -/
def Session.initial : Session where
  acceptorChannel := .make 2048
  connQueue := .make 20
  closeChannel := .make 5
  closer := .selecting
  client := .reading
  server := .reading
  processor := .receiving
  acceptor := .initial
  writer := .pulling
  panicked := none

/-- The packet is one of `collectPackets`. -/
def Packet.collected : Packet → Bool
  | .other => false
  | _ => true

/-- What the client reader does after its loop: an exceeded deadline is not reported. -/
def ClientReader.leave : NetError → ClientReader
  | .deadlineExceeded => .returned
  | .other => .reporting

/-- What the server reader does after its loop. -/
def ServerReader.leave : NetError → ServerReader
  | .deadlineExceeded => .closing
  | .other => .reporting

/-- What the server reader does with a packet: one of `collectPackets` goes to the processor
first. -/
def ServerReader.relay (p : Packet) : ServerReader :=
  if p.collected then .collecting p else .pushing p

namespace Session

def panic (s : Session) (p : SessionPanic) : Session := { s with panicked := some p }

/-! ### The closer -/

/-- `case <-closeChannel`. -/
def takeClose (s : Session) : Option Session :=
  match s.closer, s.closeChannel.receive with
  | .selecting, .received _ closeChannel =>
      some { s with closeChannel := closeChannel, closer := .disconnecting }
  | _, _ => none

/-- `case <-p.Ctx.Done()`. -/
def contextDone (s : Session) : Option Session :=
  match s.closer with
  | .selecting => some { s with closer := .disconnecting }
  | _ => none

/-- `conn.Socket.SetDeadline` and `c.Conn.Close`. -/
def disconnect (s : Session) : Option Session :=
  match s.closer with
  | .disconnecting => some { s with closer := .closing }
  | _ => none

/-- `connQueue.Close()`. -/
def closeQueue (s : Session) : Option Session :=
  match s.closer with
  | .closing => some { s with connQueue := s.connQueue.close, closer := .returned }
  | _ => none

/-! ### The client reader -/

/-- `conn.ReadPacket`, of a chat packet or another one. -/
def clientRead (s : Session) (result : Except NetError Bool) : Option Session :=
  match s.client with
  | .reading =>
      match result with
      | .ok chat => some { s with client := .relaying chat }
      | .error err => some { s with client := .leave err }
  | _ => none

/-- `c.Conn.WritePacket`. The error of a chat packet is assigned to a variable of the branch,
and only logged. -/
def clientWrite (s : Session) (err : Option NetError) : Option Session :=
  match s.client with
  | .relaying chat =>
      match chat, err with
      | false, some err => some { s with client := .leave err }
      | _, _ => some { s with client := .reading }
  | _ => none

/-- `closeChannel <- 0` of the client reader. -/
def clientReport (s : Session) : Option Session :=
  match s.client, s.closeChannel.send () with
  | .reporting, .sent closeChannel =>
      some { s with closeChannel := closeChannel, client := .returned }
  | _, _ => none

/-! ### The server reader -/

/-- `c.Conn.ReadPacket`. -/
def serverRead (s : Session) (result : Except NetError Packet) : Option Session :=
  match s.server with
  | .reading =>
      match result with
      | .ok pack => some { s with server := .relay pack }
      | .error err => some { s with server := .leave err }
  | _ => none

/-- `acceptorChannel <- pack`. -/
def collect (s : Session) : Option Session :=
  match s.server with
  | .collecting pack =>
      match s.acceptorChannel.send pack with
      | .sent acceptorChannel =>
          some { s with acceptorChannel := acceptorChannel, server := .pushing pack }
      | _ => none
  | _ => none

/-- `connQueue.Push(pack)`. -/
def serverPush (s : Session) : Option Session :=
  match s.server with
  | .pushing pack =>
      match s.connQueue.send (.packet pack) with
      | .sent connQueue => some { s with connQueue := connQueue, server := .reading }
      | .panics => some (s.panic .pushOnClosed)
      | .blocked => none
  | _ => none

/-- `closeChannel <- 0` of the server reader. -/
def serverReport (s : Session) : Option Session :=
  match s.server, s.closeChannel.send () with
  | .reporting, .sent closeChannel =>
      some { s with closeChannel := closeChannel, server := .closing }
  | _, _ => none

/-- `close(acceptorChannel)`. -/
def closeAcceptor (s : Session) : Option Session :=
  match s.server with
  | .closing => some { s with acceptorChannel := s.acceptorChannel.close, server := .returned }
  | _ => none

/-! ### The packet processor -/

/-- `for p := range recv`. -/
def processorTake (s : Session) : Option Session :=
  match s.processor, s.acceptorChannel.receive with
  | .receiving, .received p acceptorChannel =>
      some { s with acceptorChannel := acceptorChannel, processor := .processing p }
  | _, _ => none

/-- The switch of `packetAcceptor`. -/
def process (cl : ClientInfo) (s : Session) : Option Session :=
  match s.processor with
  | .processing p =>
      let (acceptor, pushes) := s.acceptor.handle cl p
      if acceptor.panicked then some (s.panic .indexOutOfRange)
      else
        some { s with
          acceptor := acceptor
          processor := if pushes then .pushing else .receiving }
  | _ => none

/-- `conn.Push` at the end of the loop body. -/
def processorPush (s : Session) : Option Session :=
  match s.processor with
  | .pushing =>
      match s.connQueue.send (.actionBar s.acceptor.text) with
      | .sent connQueue =>
          some { s with
            connQueue := connQueue
            acceptor := s.acceptor.push
            processor := .receiving }
      | .panics => some (s.panic .pushOnClosed)
      | .blocked => none
  | _ => none

/-- The end of the loop over the packets, and the loop that flushes the cache. -/
def flush (cl : ClientInfo) (s : Session) (order : List CachePos) : Option Session :=
  match s.processor, s.acceptorChannel.receive with
  | .receiving, .drained =>
      some { s with
        acceptor := order.foldl (Acceptor.flushNext cl) s.acceptor
        processor := .returned }
  | _, _ => none

/-! ### The write loop -/

/-- `connQueue.Pull()`. -/
def pull (s : Session) : Option Session :=
  match s.writer with
  | .pulling =>
      match s.connQueue.receive with
      | .received pack connQueue => some { s with connQueue := connQueue, writer := .writing pack }
      | .drained => some { s with writer := .waiting }
      | .blocked => none
  | _ => none

/-- `conn.WritePacket`. -/
def write (s : Session) (err : Option NetError) : Option Session :=
  match s.writer with
  | .writing _ =>
      match err with
      | none => some { s with writer := .pulling }
      | some .deadlineExceeded => some { s with writer := .waiting }
      | some .other => some { s with writer := .reporting }
  | _ => none

/-- `closeChannel <- 0` of the write loop. -/
def writerReport (s : Session) : Option Session :=
  match s.writer, s.closeChannel.send () with
  | .reporting, .sent closeChannel =>
      some { s with closeChannel := closeChannel, writer := .pulling }
  | _, _ => none

/-- The server reader has called `wg.Done`. -/
def serverDone (s : Session) : Bool :=
  match s.server with
  | .closing | .returned => true
  | _ => false

/-- `wg.Wait()` is over, and `closeChannel` is closed. -/
def finish (s : Session) : Option Session :=
  match s.writer, s.processor, s.closer, s.client with
  | .waiting, .returned, .returned, .returned =>
      if s.serverDone then
        some { s with closeChannel := s.closeChannel.close, writer := .returned }
      else none
  | _, _, _, _ => none

end Session

/-- The next communication of one goroutine. -/
inductive SessionAction where
  | takeClose
  | contextDone
  | disconnect
  | closeQueue
  | clientRead (result : Except NetError Bool)
  | clientWrite (err : Option NetError)
  | clientReport
  | serverRead (result : Except NetError Packet)
  | collect
  | serverPush
  | serverReport
  | closeAcceptor
  | processorTake
  | process
  | processorPush
  | flush (order : List CachePos)
  | pull
  | write (err : Option NetError)
  | writerReport
  | finish

/-- The step of a session. A panic ends the process. -/
def sessionStep (cl : ClientInfo) (s : Session) (action : SessionAction) : Option Session :=
  if s.panicked.isSome then none
  else
    match action with
    | .takeClose => s.takeClose
    | .contextDone => s.contextDone
    | .disconnect => s.disconnect
    | .closeQueue => s.closeQueue
    | .clientRead result => s.clientRead result
    | .clientWrite err => s.clientWrite err
    | .clientReport => s.clientReport
    | .serverRead result => s.serverRead result
    | .collect => s.collect
    | .serverPush => s.serverPush
    | .serverReport => s.serverReport
    | .closeAcceptor => s.closeAcceptor
    | .processorTake => s.processorTake
    | .process => s.process cl
    | .processorPush => s.processorPush
    | .flush order => s.flush cl order
    | .pull => s.pull
    | .write err => s.write err
    | .writerReport => s.writerReport
    | .finish => s.finish

/-- The session of a player. -/
def AcceptPlayer (cl : ClientInfo) : Machine Session SessionAction := ⟨sessionStep cl⟩

end WebChunk.Proxy
