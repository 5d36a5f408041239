import WebChunk.Proxy.Session

/-!
# Pushes to the queue of a session

The closer closes `connQueue` when a read or a write has failed or the server shuts down. The
server reader may have a packet in hand then, and the packet processor a backlog.
-/

namespace WebChunk.Proxy

open WebChunk.Go WebChunk.Semantics

/-- The server reader is at its push. -/
def ServerReader.pushes : ServerReader → Bool
  | .pushing _ => true
  | _ => false

/-- The packet processor is at its push. -/
def PacketProcessor.pushes : PacketProcessor → Bool
  | .pushing => true
  | _ => false

namespace Session

/-- One of the two is at its push. -/
def pushes (s : Session) : Bool := s.server.pushes || s.processor.pushes

/-- The packet that the processor has in hand is one after which it pushes. -/
def pushesNext (cl : ClientInfo) (s : Session) : Bool :=
  match s.processor with
  | .processing p => !(s.acceptor.handle cl p).1.panicked && (s.acceptor.handle cl p).2
  | _ => false

end Session

/-- Nobody has pushed to the closed queue, and nobody is about to. -/
structure PushSafe (s : Session) : Prop where
  live : s.panicked ≠ some .pushOnClosed
  unpushed : s.connQueue.closed = true → s.pushes = false

/-- The queue is closed while neither of the two is at its push. Afterwards the server reader
comes to no push, by reading a packet that is not collected or by passing a collected one on,
and the processor finishes no packet after which it pushes. -/
def sparesConnQueue (cl : ClientInfo) (s : Session) : SessionAction → Bool
  | .closeQueue => !s.pushes
  | .serverRead (.ok pack) => pack.collected || !s.connQueue.closed
  | .collect => !s.connQueue.closed
  | .process => !s.pushesNext cl || !s.connQueue.closed
  | _ => true

/-- What a step does to the queue and to the two who push to it. -/
inductive PushStep (cl : ClientInfo) (s : Session) (action : SessionAction) (next : Session) :
    Prop where
  | closes (spares : sparesConnQueue cl s action = !s.pushes)
      (closed : next.connQueue.closed = true) (stay : next.pushes = s.pushes)
      (live : next.panicked = none)
  | arrives (spares : sparesConnQueue cl s action = !s.connQueue.closed)
      (same : next.connQueue.closed = s.connQueue.closed) (pushes : next.pushes = true)
      (live : next.panicked = none)
  | panics (spares : sparesConnQueue cl s action = true) (pushes : s.pushes = true)
      (closed : s.connQueue.closed = true)
  | elsewhere (spares : sparesConnQueue cl s action = true)
      (same : next.connQueue.closed = s.connQueue.closed)
      (stay : s.pushes = false → next.pushes = false) (live : next.panicked ≠ some .pushOnClosed)

variable {cl : ClientInfo} {s next : Session} {action : SessionAction}

/-- The server reader moves to a place that is not its push. -/
theorem unpushed_server (server : next.server.pushes = false) (same : next.processor = s.processor)
    (unpushed : s.pushes = false) : next.pushes = false := by
  rw [Session.pushes, server, same]
  exact (Bool.or_eq_false_iff.mp unpushed).2

/-- The packet processor moves to a place that is not its push. -/
theorem unpushed_processor (processor : next.processor.pushes = false)
    (same : next.server = s.server) (unpushed : s.pushes = false) : next.pushes = false := by
  rw [Session.pushes, processor, same, Bool.or_false]
  exact (Bool.or_eq_false_iff.mp unpushed).1

/-- Every step is one of these. -/
theorem pushStep_of_step (transition : sessionStep cl s action = some next) :
    PushStep cl s action next := by
  unfold sessionStep at transition
  split at transition
  · cases transition
  · rename_i running
    have live : s.panicked = none := by simpa using running
    have unhurt : s.panicked ≠ some .pushOnClosed := by rw [live]; exact nofun
    cases action with
    | takeClose =>
        simp only [Session.takeClose] at transition
        split at transition <;> cases transition
        exact .elsewhere rfl rfl id unhurt
    | contextDone =>
        simp only [Session.contextDone] at transition
        split at transition <;> cases transition
        exact .elsewhere rfl rfl id unhurt
    | disconnect =>
        simp only [Session.disconnect] at transition
        split at transition <;> cases transition
        exact .elsewhere rfl rfl id unhurt
    | closeQueue =>
        simp only [Session.closeQueue] at transition
        split at transition <;> cases transition
        exact .closes rfl rfl rfl live
    | clientRead result =>
        simp only [Session.clientRead] at transition
        split at transition
        · split at transition <;> cases transition <;> exact .elsewhere rfl rfl id unhurt
        · cases transition
    | clientWrite err =>
        simp only [Session.clientWrite] at transition
        split at transition
        · split at transition <;> cases transition <;> exact .elsewhere rfl rfl id unhurt
        · cases transition
    | clientReport =>
        simp only [Session.clientReport] at transition
        split at transition <;> cases transition
        exact .elsewhere rfl rfl id unhurt
    | serverRead result =>
        simp only [Session.serverRead] at transition
        split at transition
        · split at transition <;> cases transition
          · rename_i pack
            cases collected : pack.collected with
            | true =>
                refine .elsewhere (by simp [sparesConnQueue, collected]) rfl ?_ unhurt
                refine unpushed_server ?_ rfl
                simp [ServerReader.relay, collected, ServerReader.pushes]
            | false =>
                refine .arrives (by simp [sparesConnQueue, collected]) rfl ?_ live
                simp [Session.pushes, ServerReader.relay, collected, ServerReader.pushes]
          · rename_i err
            exact .elsewhere rfl rfl (unpushed_server (by cases err <;> rfl) rfl) unhurt
        · cases transition
    | collect =>
        simp only [Session.collect] at transition
        split at transition
        · split at transition <;> cases transition
          exact .arrives rfl rfl rfl live
        · cases transition
    | serverPush =>
        simp only [Session.serverPush] at transition
        split at transition
        · rename_i pack pushing
          split at transition <;> cases transition
          · rename_i sent
            obtain ⟨_, rfl⟩ := Chan.send_sent sent
            exact .elsewhere rfl rfl (unpushed_server rfl rfl) unhurt
          · rename_i panics
            exact .panics rfl (by simp [Session.pushes, pushing, ServerReader.pushes])
              (Chan.send_panics_iff.mp panics)
        · cases transition
    | serverReport =>
        simp only [Session.serverReport] at transition
        split at transition <;> cases transition
        exact .elsewhere rfl rfl (unpushed_server rfl rfl) unhurt
    | closeAcceptor =>
        simp only [Session.closeAcceptor] at transition
        split at transition <;> cases transition
        exact .elsewhere rfl rfl (unpushed_server rfl rfl) unhurt
    | processorTake =>
        simp only [Session.processorTake] at transition
        split at transition <;> cases transition
        exact .elsewhere rfl rfl (unpushed_processor rfl rfl) unhurt
    | process =>
        simp only [Session.process] at transition
        split at transition
        · rename_i p processing
          split at transition <;> cases transition
          · rename_i panicked
            refine .elsewhere ?_ rfl id (by simp [Session.panic])
            simp [sparesConnQueue, Session.pushesNext, processing, panicked]
          · rename_i unharmed
            cases pushes : (s.acceptor.handle cl p).2 with
            | true =>
                refine .arrives ?_ rfl (by simp [Session.pushes, PacketProcessor.pushes]) live
                simp [sparesConnQueue, Session.pushesNext, processing, unharmed, pushes]
            | false =>
                refine .elsewhere ?_ rfl (unpushed_processor rfl rfl) unhurt
                simp [sparesConnQueue, Session.pushesNext, processing, pushes]
        · cases transition
    | processorPush =>
        simp only [Session.processorPush] at transition
        split at transition
        · rename_i pushing
          split at transition <;> cases transition
          · rename_i sent
            obtain ⟨_, rfl⟩ := Chan.send_sent sent
            exact .elsewhere rfl rfl (unpushed_processor rfl rfl) unhurt
          · rename_i panics
            exact .panics rfl (by simp [Session.pushes, pushing, PacketProcessor.pushes])
              (Chan.send_panics_iff.mp panics)
        · cases transition
    | flush order =>
        simp only [Session.flush] at transition
        split at transition <;> cases transition
        exact .elsewhere rfl rfl (unpushed_processor rfl rfl) unhurt
    | pull =>
        simp only [Session.pull] at transition
        split at transition
        · split at transition <;> cases transition
          · rename_i received
            exact .elsewhere rfl (Chan.receive_received received).2 id unhurt
          · exact .elsewhere rfl rfl id unhurt
        · cases transition
    | write err =>
        simp only [Session.write] at transition
        split at transition
        · split at transition <;> cases transition <;> exact .elsewhere rfl rfl id unhurt
        · cases transition
    | writerReport =>
        simp only [Session.writerReport] at transition
        split at transition <;> cases transition
        exact .elsewhere rfl rfl id unhurt
    | finish =>
        simp only [Session.finish] at transition
        split at transition
        · split at transition <;> cases transition
          exact .elsewhere rfl rfl id unhurt
        · cases transition

namespace PushSafe

/-- The step lemma. -/
theorem preserved (safe : PushSafe s) (spares : sparesConnQueue cl s action = true)
    (transition : sessionStep cl s action = some next) : PushSafe next := by
  cases pushStep_of_step transition with
  | closes condition closed stay live =>
      rw [condition] at spares
      exact ⟨by rw [live]; exact nofun, fun _ => stay.trans (by simpa using spares)⟩
  | arrives condition same pushes live =>
      rw [condition, ← same] at spares
      exact ⟨by rw [live]; exact nofun, fun closed => by simp [closed] at spares⟩
  | panics _ pushes closed => cases pushes.symm.trans (safe.unpushed closed)
  | elsewhere _ same stay live =>
      exact ⟨live, fun closed => stay (safe.unpushed (same.symm.trans closed))⟩

/-- The queue is closed under a push, or one of the two comes to a push of the closed queue. -/
theorem breaks (spoils : ¬ sparesConnQueue cl s action = true)
    (transition : sessionStep cl s action = some next) : ¬ PushSafe next := by
  intro safe
  cases pushStep_of_step transition with
  | closes condition closed stay _ =>
      rw [condition, ← stay, safe.unpushed closed] at spoils
      exact spoils rfl
  | arrives condition same pushes _ =>
      have closed : next.connQueue.closed = true := by
        rw [same]
        simpa [condition] using spoils
      cases pushes.symm.trans (safe.unpushed closed)
  | panics spares _ _ | elsewhere spares _ _ _ => exact spoils spares

end PushSafe

/-- Nobody pushes to the closed queue in exactly the runs that close it while nobody is at a
push, and in which nobody comes to one afterwards. -/
theorem pushSafe_iff (cl : ClientInfo) (actions : List SessionAction) (final : Session)
    (run : (AcceptPlayer cl).Runs .initial actions final) :
    (AcceptPlayer cl).ReachesOnly PushSafe .initial actions ↔
      (AcceptPlayer cl).StepsOnly (fun s action => sparesConnQueue cl s action = true)
        .initial actions :=
  run.reachesOnly_iff id PushSafe.preserved (fun _ => PushSafe.breaks) ⟨nofun, nofun⟩

/-- A player's session with a block registry of one state. -/
def somePlayer : ClientInfo := ⟨"player", "localhost", 1⟩

/-- A packet of the server arrives while the closer runs, and is pushed to the closed queue. -/
theorem packet_after_close_panics : ∃ (cl : ClientInfo) (actions : List SessionAction)
    (final : Session), (AcceptPlayer cl).Runs .initial actions final ∧ ¬ PushSafe final := by
  refine ⟨somePlayer, [.clientRead (.error .other), .clientReport, .takeClose,
    .serverRead (.ok .other), .disconnect, .closeQueue, .serverPush], _,
    Machine.runs_exec_get (by decide), fun safe => safe.live ?_⟩
  decide

/-- The player leaves while the processor has a login in its backlog, which it cannot read. -/
def leaveWithBacklog : List SessionAction :=
  [.serverRead (.ok (.login none)), .collect, .serverPush, .clientRead (.error .other),
    .clientReport, .takeClose, .disconnect, .closeQueue, .serverRead (.error .deadlineExceeded),
    .processorTake, .process, .closeAcceptor, .flush [], .pull, .write (some .deadlineExceeded),
    .finish]

theorem pushSafe_leaveWithBacklog :
    (AcceptPlayer somePlayer).ReachesOnly PushSafe .initial leaveWithBacklog :=
  (pushSafe_iff somePlayer leaveWithBacklog _ (Machine.runs_exec_get (by decide))).mpr
    (Machine.stepsOnly_of_checkSteps (by decide))

end WebChunk.Proxy
