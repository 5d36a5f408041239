import WebChunk.Proxy.Labels
import WebChunk.Proxy.Session
import WebChunk.Semantics.History

/-!
# What a session relays and what it sniffs

Every packet that the server reader has read is on one way to the player, and every packet of
`collectPackets` on another way to the processor. Whatever the goroutines do, the two ways keep
their order, and the processor of a session does what `packetAcceptor` does with the packets alone.
-/

namespace WebChunk.Proxy

open WebChunk.Go WebChunk.Semantics

/-! ### What a step shows -/

/-- The packet that the server reader has read in this step. -/
def packetsRead (_ : Session) (action : SessionAction) (_ : Session) : List Packet :=
  match action with
  | .serverRead (.ok pack) => [pack]
  | _ => []

/-- What is written to the player in this step, with the error of the write. -/
def writes (s : Session) (action : SessionAction) (_ : Session) :
    List (Outgoing × Option NetError) :=
  match action, s.writer with
  | .write err, .writing pack => [(pack, err)]
  | _, _ => []

def Outgoing.packet? : Outgoing → Option Packet
  | .packet p => some p
  | .actionBar _ => none

def Outgoing.text? : Outgoing → Option String
  | .packet _ => none
  | .actionBar text => some text

/-! ### What is on its way -/

/-- The packet that the server reader has yet to push. -/
def ServerReader.unpushed : ServerReader → List Packet
  | .collecting p | .pushing p => [p]
  | _ => []

/-- The packet that the server reader has yet to send to the processor. -/
def ServerReader.uncollected : ServerReader → List Packet
  | .collecting p => [p]
  | _ => []

/-- What the write loop has yet to write. -/
def WriteLoop.unwritten : WriteLoop → List Outgoing
  | .writing pack => [pack]
  | _ => []

/-- The write loop is not over. -/
def WriteLoop.running : WriteLoop → Bool
  | .waiting | .returned => false
  | _ => true

namespace Session

/-- What was pushed and is not written. -/
def outgoing (s : Session) : List Outgoing := s.writer.unwritten ++ s.connQueue.buffer

/-- What was read for the processor and is not taken. -/
def backlog (s : Session) : List Packet := s.acceptorChannel.buffer ++ s.server.uncollected

end Session

/-- The goroutines of the two ways and their channels are as they were. -/
structure OtherGoroutine (s next : Session) : Prop where
  server : next.server = s.server
  processor : next.processor = s.processor
  acceptor : next.acceptor = s.acceptor
  acceptorChannel : next.acceptorChannel = s.acceptorChannel
  connQueue : next.connQueue.buffer = s.connQueue.buffer
  writer : next.writer = s.writer
  panicked : next.panicked = s.panicked

/-- What a step does to the goroutines of the two ways. -/
inductive RelayStep (cl : ClientInfo) (s : Session) : SessionAction → Session → Prop where
  | reads (pack : Packet) (reading : s.server = .reading) :
      RelayStep cl s (.serverRead (.ok pack)) { s with server := .relay pack }
  | fails (err : NetError) (reading : s.server = .reading) :
      RelayStep cl s (.serverRead (.error err)) { s with server := .leave err }
  | collects (pack : Packet) (acceptorChannel : Chan Packet) (held : s.server = .collecting pack)
      (sent : s.acceptorChannel.send pack = .sent acceptorChannel) :
      RelayStep cl s .collect
        { s with acceptorChannel := acceptorChannel, server := .pushing pack }
  | pushes (pack : Packet) (connQueue : Chan Outgoing) (held : s.server = .pushing pack)
      (sent : s.connQueue.send (.packet pack) = .sent connQueue) :
      RelayStep cl s .serverPush { s with connQueue := connQueue, server := .reading }
  | pushPanics (action : SessionAction) (quiet : action = .serverPush ∨ action = .processorPush) :
      RelayStep cl s action (s.panic .pushOnClosed)
  | reports (closeChannel : Chan Unit) (reporting : s.server = .reporting) :
      RelayStep cl s .serverReport { s with closeChannel := closeChannel, server := .closing }
  | closes (closing : s.server = .closing) :
      RelayStep cl s .closeAcceptor
        { s with acceptorChannel := s.acceptorChannel.close, server := .returned }
  | takes (p : Packet) (acceptorChannel : Chan Packet) (receiving : s.processor = .receiving)
      (received : s.acceptorChannel.receive = .received p acceptorChannel) :
      RelayStep cl s .processorTake
        { s with acceptorChannel := acceptorChannel, processor := .processing p }
  | processPanics (p : Packet) (processing : s.processor = .processing p)
      (panics : (s.acceptor.handle cl p).1.panicked = true) :
      RelayStep cl s .process (s.panic .indexOutOfRange)
  | processes (p : Packet) (processing : s.processor = .processing p)
      (lives : (s.acceptor.handle cl p).1.panicked = false) :
      RelayStep cl s .process { s with
        acceptor := (s.acceptor.handle cl p).1
        processor := if (s.acceptor.handle cl p).2 then .pushing else .receiving }
  | pushesText (connQueue : Chan Outgoing) (pushing : s.processor = .pushing)
      (sent : s.connQueue.send (.actionBar s.acceptor.text) = .sent connQueue) :
      RelayStep cl s .processorPush
        { s with connQueue := connQueue, acceptor := s.acceptor.push, processor := .receiving }
  | flushes (order : List CachePos) (receiving : s.processor = .receiving)
      (drained : s.acceptorChannel.receive = .drained) :
      RelayStep cl s (.flush order) { s with
        acceptor := order.foldl (Acceptor.flushNext cl) s.acceptor
        processor := .returned }
  | pulls (pack : Outgoing) (connQueue : Chan Outgoing) (pulling : s.writer = .pulling)
      (received : s.connQueue.receive = .received pack connQueue) :
      RelayStep cl s .pull { s with connQueue := connQueue, writer := .writing pack }
  | endsPulling (pulling : s.writer = .pulling) :
      RelayStep cl s .pull { s with writer := .waiting }
  | writes (pack : Outgoing) (err : Option NetError) (writer : WriteLoop)
      (writing : s.writer = .writing pack) (done : writer.unwritten = [])
      (ends : err = some .deadlineExceeded → writer = .waiting) :
      RelayStep cl s (.write err) { s with writer := writer }
  | writerReports (closeChannel : Chan Unit) (reporting : s.writer = .reporting) :
      RelayStep cl s .writerReport { s with closeChannel := closeChannel, writer := .pulling }
  | finishes (waiting : s.writer = .waiting) :
      RelayStep cl s .finish
        { s with closeChannel := s.closeChannel.close, writer := .returned }
  | elsewhere (action : SessionAction) (next : Session)
      (reads : packetsRead s action next = []) (writes : writes s action next = [])
      (same : OtherGoroutine s next) : RelayStep cl s action next

variable {cl : ClientInfo} {s next : Session} {action : SessionAction}

/-- Every step is one of these. -/
theorem relayStep_of_step (transition : sessionStep cl s action = some next) :
    s.panicked = none ∧ RelayStep cl s action next := by
  unfold sessionStep at transition
  split at transition
  · cases transition
  rename_i running
  refine ⟨by simpa using running, ?_⟩
  cases action with
  | takeClose =>
      simp only [Session.takeClose] at transition
      split at transition <;> cases transition
      exact .elsewhere _ _ rfl rfl ⟨rfl, rfl, rfl, rfl, rfl, rfl, rfl⟩
  | contextDone =>
      simp only [Session.contextDone] at transition
      split at transition <;> cases transition
      exact .elsewhere _ _ rfl rfl ⟨rfl, rfl, rfl, rfl, rfl, rfl, rfl⟩
  | disconnect =>
      simp only [Session.disconnect] at transition
      split at transition <;> cases transition
      exact .elsewhere _ _ rfl rfl ⟨rfl, rfl, rfl, rfl, rfl, rfl, rfl⟩
  | closeQueue =>
      simp only [Session.closeQueue] at transition
      split at transition <;> cases transition
      exact .elsewhere _ _ rfl rfl ⟨rfl, rfl, rfl, rfl, rfl, rfl, rfl⟩
  | clientRead result =>
      simp only [Session.clientRead] at transition
      split at transition
      · split at transition <;> cases transition <;>
          exact .elsewhere _ _ rfl rfl ⟨rfl, rfl, rfl, rfl, rfl, rfl, rfl⟩
      · cases transition
  | clientWrite err =>
      simp only [Session.clientWrite] at transition
      split at transition
      · split at transition <;> cases transition <;>
          exact .elsewhere _ _ rfl rfl ⟨rfl, rfl, rfl, rfl, rfl, rfl, rfl⟩
      · cases transition
  | clientReport =>
      simp only [Session.clientReport] at transition
      split at transition <;> cases transition
      exact .elsewhere _ _ rfl rfl ⟨rfl, rfl, rfl, rfl, rfl, rfl, rfl⟩
  | serverRead result =>
      simp only [Session.serverRead] at transition
      split at transition
      · rename_i reading
        split at transition <;> cases transition
        · exact .reads _ reading
        · exact .fails _ reading
      · cases transition
  | collect =>
      simp only [Session.collect] at transition
      split at transition
      · rename_i held
        split at transition <;> cases transition
        exact .collects _ _ held ‹_›
      · cases transition
  | serverPush =>
      simp only [Session.serverPush] at transition
      split at transition
      · rename_i held
        split at transition <;> cases transition
        · exact .pushes _ _ held ‹_›
        · exact .pushPanics _ (.inl rfl)
      · cases transition
  | serverReport =>
      simp only [Session.serverReport] at transition
      split at transition <;> cases transition
      exact .reports _ ‹_›
  | closeAcceptor =>
      simp only [Session.closeAcceptor] at transition
      split at transition <;> cases transition
      exact .closes ‹_›
  | processorTake =>
      simp only [Session.processorTake] at transition
      split at transition <;> cases transition
      exact .takes _ _ ‹_› ‹_›
  | process =>
      simp only [Session.process] at transition
      split at transition
      · rename_i processing
        split at transition <;> cases transition
        · exact .processPanics _ processing ‹_›
        · exact .processes _ processing (Bool.eq_false_iff.mpr ‹_›)
      · cases transition
  | processorPush =>
      simp only [Session.processorPush] at transition
      split at transition
      · rename_i pushing
        split at transition <;> cases transition
        · exact .pushesText _ pushing ‹_›
        · exact .pushPanics _ (.inr rfl)
      · cases transition
  | flush order =>
      simp only [Session.flush] at transition
      split at transition <;> cases transition
      exact .flushes _ ‹_› ‹_›
  | pull =>
      simp only [Session.pull] at transition
      split at transition
      · rename_i pulling
        split at transition <;> cases transition
        · exact .pulls _ _ pulling ‹_›
        · exact .endsPulling pulling
      · cases transition
  | write err =>
      simp only [Session.write] at transition
      split at transition
      · rename_i pack writing
        split at transition <;> cases transition
        · exact .writes pack _ _ writing rfl fun other => by cases other
        · exact .writes pack _ _ writing rfl fun _ => rfl
        · exact .writes pack _ _ writing rfl fun other => by cases other
      · cases transition
  | writerReport =>
      simp only [Session.writerReport] at transition
      split at transition <;> cases transition
      exact .writerReports _ ‹_›
  | finish =>
      simp only [Session.finish] at transition
      split at transition
      · rename_i waiting _ _ _
        split at transition <;> cases transition
        exact .finishes waiting
      · cases transition

/-! ### What the cases of the processor leave alone -/

namespace Acceptor

/-- The cases of the switch push nothing. -/
theorem handle_pushed (cl : ClientInfo) (s : Acceptor) (p : Packet) :
    (s.handle cl p).1.pushed = s.pushed := by
  cases p <;> simp only [handle, levelChunkWithLight, blockEntityData, forgetLevelChunk, respawn,
    login] <;> (repeat' split) <;> rfl

theorem flushNext_pushed (cl : ClientInfo) (s : Acceptor) (i : CachePos) :
    (s.flushNext cl i).pushed = s.pushed := by
  unfold flushNext
  split <;> rfl

theorem foldl_flushNext_pushed (cl : ClientInfo) (order : List CachePos) (s : Acceptor) :
    (order.foldl (flushNext cl) s).pushed = s.pushed := by
  induction order generalizing s with
  | nil => rfl
  | cons i rest inductionHypothesis =>
      rw [List.foldl_cons, inductionHypothesis, flushNext_pushed]

end Acceptor

/-! ### The way to the player -/

theorem ServerReader.unpushed_relay (pack : Packet) :
    (ServerReader.relay pack).unpushed = [pack] := by
  unfold ServerReader.relay
  split <;> rfl

/-- Every packet that was read and every text of the processor was written, is on its way to the
write loop, or is held by the server reader, in the order in which they came. -/
structure Relayed (read : List Packet) (written : List (Outgoing × Option NetError))
    (s : Session) : Prop where
  packets : read =
    (written.map Prod.fst ++ s.outgoing).filterMap Outgoing.packet? ++ s.server.unpushed
  texts : s.acceptor.pushed = (written.map Prod.fst ++ s.outgoing).filterMap Outgoing.text?
  running : s.writer.running = true → ∀ w ∈ written, w.2 ≠ some .deadlineExceeded
  ended : ∀ w ∈ written.dropLast, w.2 ≠ some .deadlineExceeded

namespace Relayed

variable {read : List Packet} {written : List (Outgoing × Option NetError)}

/-- A step that takes nothing in and writes nothing. -/
theorem quiet (relayed : Relayed read written s) (outgoing : next.outgoing = s.outgoing)
    (unpushed : next.server.unpushed = s.server.unpushed)
    (pushed : next.acceptor.pushed = s.acceptor.pushed)
    (running : next.writer.running = true → s.writer.running = true) :
    Relayed (read ++ []) (written ++ []) next := by
  rw [List.append_nil, List.append_nil]
  refine ⟨?_, ?_, fun here => relayed.running (running here), relayed.ended⟩
  · rw [outgoing, unpushed]
    exact relayed.packets
  · rw [outgoing, pushed]
    exact relayed.texts

/-- One of the two who push does so. -/
theorem sends (relayed : Relayed read written s) (pack : Outgoing)
    (buffer : next.connQueue.buffer = s.connQueue.buffer ++ [pack])
    (writer : next.writer = s.writer)
    (unpushed : s.server.unpushed = pack.packet?.toList ++ next.server.unpushed)
    (pushed : next.acceptor.pushed = s.acceptor.pushed ++ pack.text?.toList) :
    Relayed (read ++ []) (written ++ []) next := by
  have outgoing : written.map Prod.fst ++ next.outgoing =
      written.map Prod.fst ++ s.outgoing ++ [pack] := by
    simp only [Session.outgoing, buffer, writer, List.append_assoc]
  rw [List.append_nil, List.append_nil]
  refine ⟨?_, ?_, writer ▸ relayed.running, relayed.ended⟩
  · rw [outgoing, List.filterMap_append, List.append_assoc, relayed.packets, unpushed]
    cases pack <;> rfl
  · rw [outgoing, List.filterMap_append, pushed, relayed.texts]
    cases pack <;> rfl

/-- The step lemma. -/
theorem preserved (relayed : Relayed read written s)
    (transition : sessionStep cl s action = some next) :
    Relayed (read ++ packetsRead s action next) (written ++ writes s action next) next := by
  obtain ⟨-, step⟩ := relayStep_of_step transition
  cases step with
  | reads pack reading =>
      have before := relayed.packets
      rw [reading] at before
      show Relayed (read ++ [pack]) (written ++ []) _
      rw [List.append_nil]
      refine ⟨?_, relayed.texts, relayed.running, relayed.ended⟩
      rw [before, ServerReader.unpushed_relay]
      exact congrArg (· ++ [pack]) (List.append_nil _)
  | fails err reading =>
      refine relayed.quiet rfl ?_ rfl id
      rw [reading]
      cases err <;> rfl
  | collects pack acceptorChannel held sent =>
      refine relayed.quiet rfl ?_ rfl id
      rw [held]
      rfl
  | pushes pack connQueue held sent =>
      obtain ⟨-, rfl⟩ := Chan.send_sent sent
      refine relayed.sends (.packet pack) rfl rfl ?_ (List.append_nil _).symm
      rw [held]
      rfl
  | pushPanics action quiet =>
      rcases quiet with rfl | rfl <;> exact relayed.quiet rfl rfl rfl id
  | reports closeChannel reporting =>
      refine relayed.quiet rfl ?_ rfl id
      rw [reporting]
      rfl
  | closes closing =>
      refine relayed.quiet rfl ?_ rfl id
      rw [closing]
      rfl
  | takes p acceptorChannel receiving received => exact relayed.quiet rfl rfl rfl id
  | processPanics p processing panics => exact relayed.quiet rfl rfl rfl id
  | processes p processing lives =>
      exact relayed.quiet rfl rfl (Acceptor.handle_pushed cl s.acceptor p) id
  | pushesText connQueue pushing sent =>
      obtain ⟨-, rfl⟩ := Chan.send_sent sent
      exact relayed.sends (.actionBar s.acceptor.text) rfl rfl rfl rfl
  | flushes order receiving drained =>
      exact relayed.quiet rfl rfl (Acceptor.foldl_flushNext_pushed cl order s.acceptor) id
  | pulls pack connQueue pulling received =>
      refine relayed.quiet ?_ rfl rfl fun _ => by rw [pulling]; rfl
      rw [Session.outgoing, Session.outgoing, pulling, (Chan.receive_received received).1]
      rfl
  | endsPulling pulling =>
      refine relayed.quiet ?_ rfl rfl fun here => by cases here
      rw [Session.outgoing, Session.outgoing, pulling]
      rfl
  | writes pack err writer writing done ends =>
      have shown : Proxy.writes s (.write err) { s with writer := writer } = [(pack, err)] := by
        simp only [Proxy.writes, writing]
      have running : s.writer.running = true := by rw [writing]; rfl
      have moved : (written ++ [(pack, err)]).map Prod.fst ++
          Session.outgoing { s with writer := writer } = written.map Prod.fst ++ s.outgoing := by
        rw [List.map_append, List.append_assoc, Session.outgoing, Session.outgoing, done, writing]
        rfl
      rw [shown]
      show Relayed (read ++ []) _ _
      rw [List.append_nil]
      refine ⟨?_, ?_, fun here w member => ?_, ?_⟩
      · rw [moved]
        exact relayed.packets
      · rw [moved]
        exact relayed.texts
      · rcases List.mem_append.mp member with earlier | last
        · exact relayed.running running w earlier
        · rw [List.mem_singleton.mp last]
          intro late
          rw [ends late] at here
          cases here
      · rw [List.dropLast_concat]
        exact relayed.running running
  | writerReports closeChannel reporting =>
      refine relayed.quiet ?_ rfl rfl fun _ => by rw [reporting]; rfl
      rw [Session.outgoing, Session.outgoing, reporting]
      rfl
  | finishes waiting =>
      refine relayed.quiet ?_ rfl rfl fun here => by cases here
      rw [Session.outgoing, Session.outgoing, waiting]
      rfl
  | elsewhere _ _ reads writes same =>
      rw [reads, writes]
      refine relayed.quiet ?_ ?_ ?_ ?_
      · rw [Session.outgoing, Session.outgoing, same.writer, same.connQueue]
      · rw [same.server]
      · rw [same.acceptor]
      · rw [same.writer]
        exact id

end Relayed

/-- Whatever the goroutines do, no packet of the server and no text of the processor is lost on its
way to the player, doubled or overtaken by another of its kind, and nothing is written after a
write that has exceeded the deadline. -/
theorem packetsRelayedInOrder {cl : ClientInfo} {actions : List SessionAction} {final : Session}
    (run : (AcceptPlayer cl).Runs .initial actions final) :
    let read := (AcceptPlayer cl).history packetsRead .initial actions
    let written := (AcceptPlayer cl).history writes .initial actions
    let onTheWay := written.map Prod.fst ++ final.outgoing
    read = onTheWay.filterMap Outgoing.packet? ++ final.server.unpushed ∧
      final.acceptor.pushed = onTheWay.filterMap Outgoing.text? ∧
      ∀ w ∈ written.dropLast, w.2 ≠ some .deadlineExceeded := by
  have relayed : Relayed _ _ final :=
    run.histories Relayed Relayed.preserved
      ⟨rfl, rfl, fun _ _ member => absurd member List.not_mem_nil,
        fun _ member => absurd member List.not_mem_nil⟩
  exact ⟨relayed.packets, relayed.texts, relayed.ended⟩

/-- A player with a block registry of one state. -/
def sniffedPlayer : ClientInfo := ⟨"player", "localhost", 1⟩

/-- The player logs in, receives a chunk and leaves; the processor is one packet behind, and comes
to it before the queue is closed. -/
def loginAndLeave : List SessionAction :=
  [.serverRead (.ok (.login (some ⟨some overworldOnly, "minecraft:overworld",
      "minecraft:overworld"⟩))), .collect, .serverPush,
    .serverRead (.ok (.levelChunkWithLight (some (⟨0, 0⟩, ⟨[], []⟩)))), .collect, .processorTake,
    .process, .processorPush, .serverPush, .pull, .write none, .pull, .write none,
    .serverRead (.error .other), .serverReport, .closeAcceptor, .takeClose, .processorTake,
    .process, .processorPush, .flush [], .disconnect, .pull, .write (some .deadlineExceeded),
    .closeQueue]

def afterLeaving : Session :=
  ((AcceptPlayer sniffedPlayer).exec .initial loginAndLeave).get rfl

theorem packetsRelayedInOrder_sample :
    let read := (AcceptPlayer sniffedPlayer).history packetsRead .initial loginAndLeave
    let written := (AcceptPlayer sniffedPlayer).history writes .initial loginAndLeave
    let onTheWay := written.map Prod.fst ++ afterLeaving.outgoing
    read = onTheWay.filterMap Outgoing.packet? ++ afterLeaving.server.unpushed ∧
      afterLeaving.acceptor.pushed = onTheWay.filterMap Outgoing.text? ∧
      ∀ w ∈ written.dropLast, w.2 ≠ some .deadlineExceeded :=
  packetsRelayedInOrder (Machine.runs_exec_get rfl)

/-! ### The way to the processor -/

theorem received_snoc (cl : ClientInfo) (packets : List Packet) (p : Packet) :
    received cl (packets ++ [p]) = (received cl packets).accept cl p :=
  List.foldl_concat ..

/-- How far the processor has come with the packets that it has taken. -/
inductive Progress (cl : ClientInfo) (s : Session) : List Packet → Prop where
  | between (taken : List Packet) (receiving : s.processor = .receiving)
      (same : s.acceptor = received cl taken) : Progress cl s taken
  | working (earlier : List Packet) (p : Packet) (processing : s.processor = .processing p)
      (same : s.acceptor = received cl earlier) : Progress cl s (earlier ++ [p])
  | pushing (earlier : List Packet) (p : Packet) (pushing : s.processor = .pushing)
      (lives : (received cl earlier).panicked = false)
      (handled : (received cl earlier).handle cl p = (s.acceptor, true)) :
      Progress cl s (earlier ++ [p])
  | ended (taken : List Packet) (returned : s.processor = .returned)
      (same : s.acceptor = received cl taken) (closed : s.acceptorChannel.closed = true)
      (drained : s.acceptorChannel.buffer = []) : Progress cl s taken

/-- The processor has taken the packets that were read for it, in their order, up to a backlog. -/
structure Sniffed (cl : ClientInfo) (read : List Packet) (s : Session) : Prop where
  taken : ∃ taken, read.filter Packet.collected = taken ++ s.backlog ∧ Progress cl s taken
  live : s.acceptor.panicked = false
  closed : s.acceptorChannel.closed = true → s.server = .returned
  capacity : s.acceptorChannel.capacity = 2048
  bounded : s.acceptorChannel.buffer.length ≤ 2048
  panicked : s.panicked = some .indexOutOfRange →
    ∃ p, s.processor = .processing p ∧ (s.acceptor.handle cl p).1.panicked = true

theorem Progress.stays {taken : List Packet} (progress : Progress cl s taken)
    (processor : next.processor = s.processor) (acceptor : next.acceptor = s.acceptor)
    (channel : s.acceptorChannel.closed = true → next.acceptorChannel = s.acceptorChannel) :
    Progress cl next taken := by
  cases progress with
  | between _ receiving same =>
      exact .between _ (processor.trans receiving) (acceptor.trans same)
  | working earlier p processing same =>
      exact .working _ _ (processor.trans processing) (acceptor.trans same)
  | pushing earlier p pushing lives handled =>
      exact .pushing _ _ (processor.trans pushing) lives (handled.trans (by rw [acceptor]))
  | ended _ returned same closed drained =>
      have unchanged := channel closed
      exact .ended _ (processor.trans returned) (acceptor.trans same) (unchanged ▸ closed)
        (unchanged ▸ drained)

namespace Progress

variable {taken : List Packet} (progress : Progress cl s taken)
include progress

theorem acceptor_of_receiving (receiving : s.processor = .receiving) :
    s.acceptor = received cl taken := by
  cases progress with
  | between _ _ same => exact same
  | working _ _ here _ | pushing _ _ here _ _ | ended _ here _ _ _ =>
      cases receiving.symm.trans here

theorem acceptor_of_processing {p : Packet} (processing : s.processor = .processing p) :
    ∃ earlier, taken = earlier ++ [p] ∧ s.acceptor = received cl earlier := by
  cases progress with
  | working earlier _ here same =>
      cases processing.symm.trans here
      exact ⟨earlier, rfl, same⟩
  | between _ here _ | pushing _ _ here _ _ | ended _ here _ _ _ =>
      cases processing.symm.trans here

theorem handled_of_pushing (pushing : s.processor = .pushing) :
    ∃ earlier p, taken = earlier ++ [p] ∧ (received cl earlier).panicked = false ∧
      (received cl earlier).handle cl p = (s.acceptor, true) := by
  cases progress with
  | pushing earlier p _ lives handled => exact ⟨earlier, p, rfl, lives, handled⟩
  | between _ here _ | working _ _ here _ | ended _ here _ _ _ => cases pushing.symm.trans here

end Progress

/-- An iteration that is not cut short by a panic. -/
theorem Acceptor.accept_eq (cl : ClientInfo) (p : Packet) {s : Acceptor}
    (live : s.panicked = false) :
    s.accept cl p = if (s.handle cl p).2 then (s.handle cl p).1.push else (s.handle cl p).1 := by
  simp only [accept, live, Bool.false_eq_true, if_false]
  split <;> rename_i handled <;> rw [handled] <;> rfl

theorem ServerReader.uncollected_relay (pack : Packet) :
    (ServerReader.relay pack).uncollected = [pack].filter Packet.collected := by
  unfold ServerReader.relay
  cases collected : pack.collected <;> simp [collected, ServerReader.uncollected]

namespace Sniffed

variable {read : List Packet}

/-- A step at which the processor and its channel stay as they are. -/
theorem quiet (sniffed : Sniffed cl read s) (channel : next.acceptorChannel = s.acceptorChannel)
    (uncollected : next.server.uncollected = s.server.uncollected)
    (processor : next.processor = s.processor) (acceptor : next.acceptor = s.acceptor)
    (server : s.server = .returned → next.server = .returned)
    (panicked : next.panicked ≠ some .indexOutOfRange) : Sniffed cl (read ++ []) next := by
  rw [List.append_nil]
  obtain ⟨taken, whole, progress⟩ := sniffed.taken
  have backlog : next.backlog = s.backlog := by
    rw [Session.backlog, Session.backlog, channel, uncollected]
  refine ⟨⟨taken, whole.trans (by rw [backlog]), ?_⟩, acceptor ▸ sniffed.live, ?_,
    channel ▸ sniffed.capacity, channel ▸ sniffed.bounded, fun here => absurd here panicked⟩
  · exact progress.stays processor acceptor fun _ => channel
  · rw [channel]
    exact fun closed => server (sniffed.closed closed)

/-- The step lemma. -/
theorem preserved (sniffed : Sniffed cl read s)
    (transition : sessionStep cl s action = some next) :
    Sniffed cl (read ++ packetsRead s action next) next := by
  obtain ⟨running, step⟩ := relayStep_of_step transition
  have unharmed : s.panicked ≠ some .indexOutOfRange := by
    rw [running]
    exact (Option.some_ne_none _).symm
  obtain ⟨taken, whole, progress⟩ := sniffed.taken
  cases step with
  | reads pack reading =>
      have backlog : Session.backlog { s with server := .relay pack } =
          s.backlog ++ [pack].filter Packet.collected := by
        rw [Session.backlog, Session.backlog, reading, ServerReader.uncollected_relay,
          List.append_assoc]
        rfl
      refine ⟨⟨taken, ?_, progress.stays rfl rfl fun _ => rfl⟩, sniffed.live, fun closed => ?_,
        sniffed.capacity, sniffed.bounded, fun here => absurd here unharmed⟩
      · rw [backlog, ← List.append_assoc, ← whole, List.filter_append]
        rfl
      · cases reading.symm.trans (sniffed.closed closed)
  | fails err reading =>
      refine sniffed.quiet rfl ?_ rfl rfl (fun here => ?_) unharmed
      · rw [reading]
        cases err <;> rfl
      · rw [reading] at here
        cases here
  | collects pack acceptorChannel held sent =>
      have bounded := Chan.sent_bounded sent
      obtain ⟨isOpen, rfl⟩ := Chan.send_sent sent
      rw [show packetsRead s .collect _ = [] from rfl, List.append_nil]
      refine ⟨⟨taken, whole.trans ?_, progress.stays rfl rfl fun closed => ?_⟩, sniffed.live,
        fun closed => ?_, sniffed.capacity, sniffed.capacity ▸ bounded,
        fun here => absurd here unharmed⟩
      · rw [Session.backlog, Session.backlog, held]
        exact congrArg (taken ++ ·) (List.append_nil _).symm
      · cases isOpen.symm.trans closed
      · cases isOpen.symm.trans closed
  | pushes pack connQueue held sent =>
      refine sniffed.quiet rfl ?_ rfl rfl (fun here => ?_) unharmed
      · rw [held]
        rfl
      · rw [held] at here
        cases here
  | pushPanics action quiet =>
      have shown : packetsRead s action (s.panic .pushOnClosed) = [] := by
        rcases quiet with rfl | rfl <;> rfl
      rw [shown]
      exact sniffed.quiet rfl rfl rfl rfl id fun here => by cases here
  | reports closeChannel reporting =>
      refine sniffed.quiet rfl ?_ rfl rfl (fun here => ?_) unharmed
      · rw [reporting]
        rfl
      · rw [reporting] at here
        cases here
  | closes closing =>
      rw [show packetsRead s .closeAcceptor _ = [] from rfl, List.append_nil]
      refine ⟨⟨taken, whole.trans ?_, progress.stays rfl rfl fun closed => ?_⟩, sniffed.live,
        fun _ => rfl, sniffed.capacity, sniffed.bounded, fun here => absurd here unharmed⟩
      · rw [Session.backlog, Session.backlog, closing]
        rfl
      · cases closing.symm.trans (sniffed.closed closed)
  | takes p acceptorChannel receiving received =>
      obtain ⟨rest, buffer, rfl⟩ := Chan.receive_takes received
      have bounded := sniffed.bounded
      rw [buffer, List.length_cons] at bounded
      rw [show packetsRead s .processorTake _ = [] from rfl, List.append_nil]
      refine ⟨⟨taken ++ [p], whole.trans ?_, ?_⟩, sniffed.live, sniffed.closed, sniffed.capacity,
        Nat.le_of_succ_le bounded, fun here => absurd here unharmed⟩
      · rw [Session.backlog, Session.backlog, buffer, List.append_assoc]
        rfl
      · exact .working _ _ rfl (progress.acceptor_of_receiving receiving)
  | processPanics p processing panics =>
      rw [show packetsRead s .process _ = [] from rfl, List.append_nil]
      exact ⟨⟨taken, whole, progress.stays rfl rfl fun _ => rfl⟩, sniffed.live, sniffed.closed,
        sniffed.capacity, sniffed.bounded, fun _ => ⟨p, processing, panics⟩⟩
  | processes p processing lives =>
      obtain ⟨earlier, rfl, same⟩ := progress.acceptor_of_processing processing
      rw [show packetsRead s .process _ = [] from rfl, List.append_nil]
      refine ⟨⟨_, whole, ?_⟩, lives, sniffed.closed, sniffed.capacity, sniffed.bounded,
        fun here => absurd here unharmed⟩
      have before : (received cl earlier).panicked = false := same ▸ sniffed.live
      cases pushes : (s.acceptor.handle cl p).2 with
      | true =>
          refine .pushing _ _ rfl before ?_
          rw [← same, ← pushes]
      | false =>
          refine .between _ rfl ?_
          rw [received_snoc, Acceptor.accept_eq cl p before, ← same, pushes]
          rfl
  | pushesText connQueue pushing sent =>
      obtain ⟨earlier, p, rfl, before, handled⟩ := progress.handled_of_pushing pushing
      rw [show packetsRead s .processorPush _ = [] from rfl, List.append_nil]
      refine ⟨⟨_, whole, .between _ rfl ?_⟩, sniffed.live, sniffed.closed, sniffed.capacity,
        sniffed.bounded, fun here => absurd here unharmed⟩
      rw [received_snoc, Acceptor.accept_eq cl p before, handled]
      rfl
  | flushes order receiving drained =>
      have same := progress.acceptor_of_receiving receiving
      have cached : s.acceptor.c = .empty := same ▸ (tracks_received cl taken).cached
      rw [show packetsRead s (.flush order) _ = [] from rfl, List.append_nil,
        foldl_flushNext cached]
      exact ⟨⟨taken, whole, .ended _ rfl same (Chan.receive_drained drained)
        (Chan.buffer_drained drained)⟩, sniffed.live, sniffed.closed, sniffed.capacity,
        sniffed.bounded, fun here => absurd here unharmed⟩
  | pulls pack connQueue pulling received => exact sniffed.quiet rfl rfl rfl rfl id unharmed
  | endsPulling pulling => exact sniffed.quiet rfl rfl rfl rfl id unharmed
  | writes pack err writer writing done ends => exact sniffed.quiet rfl rfl rfl rfl id unharmed
  | writerReports closeChannel reporting => exact sniffed.quiet rfl rfl rfl rfl id unharmed
  | finishes waiting => exact sniffed.quiet rfl rfl rfl rfl id unharmed
  | elsewhere _ _ reads writes same =>
      rw [reads]
      refine sniffed.quiet same.acceptorChannel ?_ same.processor same.acceptor ?_ ?_
      · rw [same.server]
      · rw [same.server]
        exact id
      · rw [same.panicked]
        exact unharmed

/-- The backlog is bounded by the capacity of the channel. -/
theorem backlog_le (sniffed : Sniffed cl read s) : s.backlog.length ≤ 2049 := by
  have uncollected : s.server.uncollected.length ≤ 1 := by
    cases s.server <;> simp [ServerReader.uncollected]
  have bounded := sniffed.bounded
  rw [Session.backlog, List.length_append]
  omega

/-- Once the processor has returned, nothing is left that was read for it. -/
theorem of_returned (sniffed : Sniffed cl read s) (returned : s.processor = .returned) :
    s.acceptor = received cl (read.filter Packet.collected) := by
  obtain ⟨taken, whole, progress⟩ := sniffed.taken
  cases progress with
  | between _ here _ | working _ _ here _ | pushing _ _ here _ _ =>
      cases returned.symm.trans here
  | ended _ _ same closed drained =>
      rw [whole, Session.backlog, drained, sniffed.closed closed, same]
      exact congrArg (received cl) (List.append_nil taken).symm

end Sniffed

/-- Whatever the goroutines do, the processor sends what it would send if it were given the packets
that were read for it alone, of which it is 2050 at most behind. It panics only on a packet on
which it would panic then, and once it has returned it has missed none. -/
theorem sessionSniffsInOrder {cl : ClientInfo} {actions : List SessionAction} {final : Session}
    (run : (AcceptPlayer cl).Runs .initial actions final) :
    let collected := ((AcceptPlayer cl).history packetsRead .initial actions).filter
      Packet.collected
    ∃ done, done <+: collected ∧ collected.length ≤ done.length + 2050 ∧
      final.acceptor.SaveChannel = (received cl done).SaveChannel ∧
      (final.processor = .returned →
        ∀ order, final.acceptor = packetAcceptor cl collected order) ∧
      (final.panicked = some .indexOutOfRange →
        ∃ p, done ++ [p] <+: collected ∧ (received cl (done ++ [p])).panicked = true) := by
  intro collected
  have sniffed : Sniffed cl _ final := run.history (Sniffed cl) Sniffed.preserved
    { taken := ⟨[], rfl, .between _ rfl rfl⟩
      live := rfl
      closed := fun closed => by cases closed
      capacity := rfl
      bounded := Nat.zero_le _
      panicked := fun panicked => by cases panicked }
  have backlog := sniffed.backlog_le
  obtain ⟨taken, whole, progress⟩ := sniffed.taken
  have returned : final.processor = .returned →
      ∀ order, final.acceptor = packetAcceptor cl collected order := by
    intro here order
    rw [packetAcceptor_eq]
    exact sniffed.of_returned here
  have partOf : taken <+: collected := ⟨_, whole.symm⟩
  have measured : collected.length = taken.length + final.backlog.length := by
    rw [← List.length_append]
    exact congrArg List.length whole
  cases progress with
  | between _ receiving same =>
      refine ⟨taken, partOf, by omega, by rw [same], returned, fun panicked => ?_⟩
      obtain ⟨p, processing, _⟩ := sniffed.panicked panicked
      cases receiving.symm.trans processing
  | working earlier p processing same =>
      rw [List.length_append, List.length_singleton] at measured
      refine ⟨earlier, (List.prefix_append _ _).trans partOf, by omega, by rw [same], returned,
        fun panicked => ⟨p, partOf, ?_⟩⟩
      obtain ⟨p', processing', panics⟩ := sniffed.panicked panicked
      cases processing.symm.trans processing'
      rw [received_snoc, Acceptor.accept_eq cl p (same ▸ sniffed.live), ← same]
      split <;> exact panics
  | pushing earlier p pushing lives handled =>
      refine ⟨_, partOf, by omega, ?_, returned, fun panicked => ?_⟩
      · rw [received_snoc, Acceptor.accept_eq cl p lives, handled]
        rfl
      · obtain ⟨p, processing, _⟩ := sniffed.panicked panicked
        cases pushing.symm.trans processing
  | ended _ here same closed drained =>
      refine ⟨taken, partOf, by omega, by rw [same], returned, fun panicked => ?_⟩
      obtain ⟨p, processing, _⟩ := sniffed.panicked panicked
      cases here.symm.trans processing

theorem sessionSniffsInOrder_sample :
    let collected := ((AcceptPlayer sniffedPlayer).history packetsRead .initial
      loginAndLeave).filter Packet.collected
    ∃ done, done <+: collected ∧ collected.length ≤ done.length + 2050 ∧
      afterLeaving.acceptor.SaveChannel = (received sniffedPlayer done).SaveChannel ∧
      (afterLeaving.processor = .returned →
        ∀ order, afterLeaving.acceptor = packetAcceptor sniffedPlayer collected order) ∧
      (afterLeaving.panicked = some .indexOutOfRange →
        ∃ p, done ++ [p] <+: collected ∧
          (received sniffedPlayer (done ++ [p])).panicked = true) :=
  sessionSniffsInOrder (Machine.runs_exec_get rfl)

end WebChunk.Proxy
