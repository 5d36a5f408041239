import WebChunk.Go.Channel
import WebChunk.Semantics.Machine
import WebChunk.Semantics.Processes

/-!
# Shutting down the web server

`startBackgroundRoutine` makes one exit channel for the web server, and its stop function
sends one value to it. `runWeb` receives from this channel, and so does every websocket
handler. `main` calls the stop function, which waits for `runWeb`, and then waits for the
handlers.
-/

namespace WebChunk.Server

open WebChunk.Go WebChunk.Semantics

/-- Where `main` is: in the stop function before its send, at its `wg.Wait`, at
`wsClients.Wait`, or past it. -/
inductive MainPhase where
  | stopping
  | waitingWeb
  | waitingClients
  | past
  deriving DecidableEq

/-- Where `runWeb` is. A `Shutdown` that fails ends the process and has no step here. -/
inductive WebPhase where
  | receiving
  | shuttingDown
  | returned
  deriving DecidableEq

/-- Where a `wsClientHandler` is: in `clientLoop`, past it, or past `wsClients.Done`. -/
inductive HandlerPhase where
  | looping
  | leaving
  | done
  deriving DecidableEq

/-- A websocket handler; `atStop` says that it was connected when the stop function was
called. -/
structure Handler where
  phase : HandlerPhase
  atStop : Bool

structure ShutdownState where
  exitchan : Chan Unit
  main : MainPhase
  web : WebPhase
  handlers : List Handler
  /-- The clients that may still connect. -/
  outside : Nat

/-- The stop function is called while `connected` handlers are in their loops. Without a
listen address `runWeb` has returned, and there are no handlers. -/
def stopCalled (listen_addr : String) (connected outside : Nat) : ShutdownState :=
  if listen_addr = "" then ⟨.make 1, .stopping, .returned, [], 0⟩
  else ⟨.make 1, .stopping, .receiving, List.replicate connected ⟨.looping, true⟩, outside⟩

namespace ShutdownState

def setHandler (s : ShutdownState) (i : Nat) (phase : HandlerPhase) : ShutdownState :=
  { s with handlers := s.handlers.modify i fun h => { h with phase := phase } }

/-- `closechan <- struct{}{}`. -/
def send (s : ShutdownState) : Option ShutdownState :=
  match s.main, s.exitchan.send () with
  | .stopping, .sent exitchan => some { s with exitchan := exitchan, main := .waitingWeb }
  | _, _ => none

/-- `wg.Wait` of the stop function. -/
def joinWeb (s : ShutdownState) : Option ShutdownState :=
  if s.main = .waitingWeb ∧ s.web = .returned then some { s with main := .waitingClients } else none

/-- `wsClients.Wait`. -/
def joinClients (s : ShutdownState) : Option ShutdownState :=
  if s.main = .waitingClients ∧ s.handlers.all (·.phase = .done) then some { s with main := .past }
  else none

/-- `<-exitchan` of `runWeb`. -/
def webReceive (s : ShutdownState) : Option ShutdownState :=
  match s.web, s.exitchan.receive with
  | .receiving, .received _ exitchan => some { s with exitchan := exitchan, web := .shuttingDown }
  | _, _ => none

/-- `websrv.Shutdown` returns, and `runWeb` with it. -/
def webReturn (s : ShutdownState) : Option ShutdownState :=
  if s.web = .shuttingDown then some { s with web := .returned } else none

/-- A client connects; the server listens until it shuts down. -/
def connect (s : ShutdownState) : Option ShutdownState :=
  match s.web, s.outside with
  | .receiving, rest + 1 =>
      some { s with handlers := s.handlers ++ [⟨.looping, false⟩], outside := rest }
  | _, _ => none

/-- `case <-exitchan` of a handler. -/
def handlerReceive (s : ShutdownState) (i : Nat) : Option ShutdownState :=
  match s.handlers[i]?, s.exitchan.receive with
  | some ⟨.looping, _⟩, .received _ exitchan =>
      some ({ s with exitchan := exitchan }.setHandler i .leaving)
  | _, _ => none

/-- A handler leaves its loop because its client did. -/
def leave (s : ShutdownState) (i : Nat) : Option ShutdownState :=
  match s.handlers[i]? with
  | some ⟨.looping, _⟩ => some (s.setHandler i .leaving)
  | _ => none

/-- `wsClients.Done` of a handler past its loop. -/
def finish (s : ShutdownState) (i : Nat) : Option ShutdownState :=
  match s.handlers[i]? with
  | some ⟨.leaving, _⟩ => some (s.setHandler i .done)
  | _ => none

end ShutdownState

inductive ShutdownAction where
  | send
  | joinWeb
  | joinClients
  | webReceive
  | webReturn
  | connect
  | handlerReceive (i : Nat)
  | leave (i : Nat)
  | finish (i : Nat)

def shutdownStep (s : ShutdownState) : ShutdownAction → Option ShutdownState
  | .send => s.send
  | .joinWeb => s.joinWeb
  | .joinClients => s.joinClients
  | .webReceive => s.webReceive
  | .webReturn => s.webReturn
  | .connect => s.connect
  | .handlerReceive i => s.handlerReceive i
  | .leave i => s.leave i
  | .finish i => s.finish i

/-- The shutdown of the web server. -/
def shutdown : Machine ShutdownState ShutdownAction := ⟨shutdownStep⟩

/-- Once the value was sent, the exit channel is not empty while `runWeb`, or a handler
that was connected when the stop function was called, still waits to receive from it. -/
def ReachesListeners (s : ShutdownState) : Prop :=
  s.main ≠ .stopping → s.exitchan.buffer = [] →
    s.web ≠ .receiving ∧ ∀ h ∈ s.handlers, h.atStop = true → h.phase ≠ .looping

/-- `main` can get past the stop function and `wsClients.Wait`. -/
def CanFinish (s : ShutdownState) : Prop :=
  ∃ actions final, shutdown.Runs s actions final ∧ final.main = .past

/-! ### Without handlers -/

/-- The states of a shutdown that no handler takes part in. -/
inductive Alone : ShutdownState → Prop where
  | stopping (web : WebPhase) (listening : web ≠ .shuttingDown) :
      Alone ⟨.make 1, .stopping, web, [], 0⟩
  | sent (main : MainPhase) (web : WebPhase) (after : main ≠ .stopping)
      (joined : main = .waitingWeb ∨ web = .returned) (listening : web ≠ .shuttingDown) :
      Alone ⟨⟨[()], 1, false⟩, main, web, [], 0⟩
  | received (main : MainPhase) (web : WebPhase) (after : main ≠ .stopping)
      (joined : main = .waitingWeb ∨ web = .returned) (notified : web ≠ .receiving) :
      Alone ⟨.make 1, main, web, [], 0⟩

namespace Alone

variable {s next : ShutdownState}

theorem reachesListeners (alone : Alone s) : ReachesListeners s := by
  intro sent empty
  cases alone with
  | stopping _ _ => exact absurd rfl sent
  | sent _ _ _ _ _ => cases empty
  | received _ _ _ _ notified => exact ⟨notified, by simp⟩

/-- The step lemma of a shutdown without handlers. -/
theorem preserved (alone : Alone s) {action : ShutdownAction}
    (transition : shutdownStep s action = some next) : Alone next := by
  cases action with
  | send =>
      cases alone with
      | stopping web listening =>
          cases transition
          exact .sent .waitingWeb web (by decide) (.inl rfl) listening
      | sent main _ after _ _ | received main _ after _ _ =>
          cases main <;> first | exact absurd rfl after | cases transition
  | joinWeb =>
      simp only [shutdownStep, ShutdownState.joinWeb, Option.ite_none_right_eq_some,
        Option.some.injEq] at transition
      obtain ⟨⟨waiting, returned⟩, rfl⟩ := transition
      cases alone with
      | stopping _ _ => cases waiting
      | sent _ _ _ _ _ => exact .sent _ _ (by decide) (.inr returned) (by simp_all)
      | received _ _ _ _ notified => exact .received _ _ (by decide) (.inr returned) notified
  | joinClients =>
      simp only [shutdownStep, ShutdownState.joinClients, Option.ite_none_right_eq_some,
        Option.some.injEq] at transition
      obtain ⟨⟨waiting, _⟩, rfl⟩ := transition
      cases alone with
      | stopping _ _ => cases waiting
      | sent _ _ _ joined listening =>
          exact .sent _ _ (by decide) (.inr (joined.resolve_left (by simp_all))) listening
      | received _ _ _ joined notified =>
          exact .received _ _ (by decide) (.inr (joined.resolve_left (by simp_all))) notified
  | webReceive =>
      cases alone with
      | stopping web _ => cases web <;> cases transition
      | sent main web after joined _ =>
          cases web with
          | receiving =>
              cases transition
              exact .received main .shuttingDown after (joined.imp id (by simp)) (by decide)
          | shuttingDown | returned => cases transition
      | received _ web _ _ _ => cases web <;> cases transition
  | webReturn =>
      simp only [shutdownStep, ShutdownState.webReturn, Option.ite_none_right_eq_some,
        Option.some.injEq] at transition
      obtain ⟨shuttingDown, rfl⟩ := transition
      cases alone with
      | stopping _ listening | sent _ _ _ _ listening => exact absurd shuttingDown listening
      | received main _ after _ _ => exact .received main .returned after (.inr rfl) (by decide)
  | connect =>
      cases alone with
      | stopping web _ | sent _ web _ _ _ | received _ web _ _ _ => cases web <;> cases transition
  | handlerReceive _ | leave _ | finish _ =>
      cases alone with
      | stopping _ _ | sent _ _ _ _ _ | received _ _ _ _ _ => cases transition

/-- Without handlers nothing keeps `main` from going on. -/
theorem canFinish (alone : Alone s) : CanFinish s := by
  -- The steps that are left, from each place of `main` and `runWeb`.
  have finishes : ∀ actions : List ShutdownAction,
      (shutdown.exec s actions).any (·.main = .past) = true → CanFinish s := by
    intro actions past
    obtain ⟨final, executed, there⟩ := (Option.any_eq_true _ _).mp past
    exact ⟨actions, final, Machine.runs_of_exec executed, of_decide_eq_true there⟩
  cases alone with
  | stopping web listening =>
      cases web with
      | receiving => exact finishes [.send, .webReceive, .webReturn, .joinWeb, .joinClients] rfl
      | shuttingDown => exact absurd rfl listening
      | returned => exact finishes [.send, .joinWeb, .joinClients] rfl
  | sent main web after joined listening =>
      cases main <;> cases web <;> simp at after joined listening
      · exact finishes [.webReceive, .webReturn, .joinWeb, .joinClients] rfl
      · exact finishes [.joinWeb, .joinClients] rfl
      · exact finishes [.joinClients] rfl
      · exact finishes [] rfl
  | received main web after joined notified =>
      cases main <;> cases web <;> simp at after joined notified
      · exact finishes [.webReturn, .joinWeb, .joinClients] rfl
      · exact finishes [.joinWeb, .joinClients] rfl
      · exact finishes [.joinClients] rfl
      · exact finishes [] rfl

end Alone

/-! ### With handlers -/

/-- Once there is a handler, or a client that may still connect, some run loses the value:
a handler takes it while `runWeb` still waits. -/
theorem value_lost {listen_addr : String} {connected outside : Nat} (listening : listen_addr ≠ "")
    (handlers : ¬ (connected = 0 ∧ outside = 0)) : ∃ actions final,
      shutdown.Runs (stopCalled listen_addr connected outside) actions final ∧
        ¬ ReachesListeners final := by
  have stranded : ∀ handlers left,
      ¬ ReachesListeners ⟨.make 1, .waitingWeb, .receiving, handlers, left⟩ :=
    fun handlers left reaches => (reaches (by simp) rfl).1 rfl
  rw [stopCalled, if_neg listening]
  cases connected with
  | succ others =>
      exact ⟨[.send, .handlerReceive 0], _, Machine.runs_of_exec rfl, stranded _ outside⟩
  | zero =>
      cases outside with
      | zero => exact absurd ⟨rfl, rfl⟩ handlers
      | succ rest =>
          exact ⟨[.send, .connect, .handlerReceive 0], _, Machine.runs_of_exec rfl,
            stranded _ rest⟩

/-- The value reaches `runWeb` and every handler in every run, and `main` can always go on,
exactly when no handler is connected and no client connects after the stop function was
called. -/
theorem shutdownReachesListeners_iff (listen_addr : String) (connected outside : Nat) :
    (∀ actions final, shutdown.Runs (stopCalled listen_addr connected outside) actions final →
      ReachesListeners final ∧ CanFinish final) ↔
    listen_addr = "" ∨ connected = 0 ∧ outside = 0 := by
  constructor
  · intro reaches
    by_contra handlers
    rw [not_or] at handlers
    obtain ⟨actions, final, run, lost⟩ := value_lost handlers.1 handlers.2
    exact lost (reaches actions final run).1
  · intro unshared actions final run
    have alone : Alone (stopCalled listen_addr connected outside) := by
      unfold stopCalled
      split
      · exact .stopping .returned (by decide)
      · rename_i listening
        obtain ⟨rfl, rfl⟩ := unshared.resolve_left listening
        exact .stopping .receiving (by decide)
    have reached : Alone final :=
      run.always (fun before transition => before.preserved transition) alone
    exact ⟨reached.reachesListeners, reached.canFinish⟩

/-- With one handler the stop function is stuck if the handler takes the value. If `runWeb` does,
as long as the handler's client stays nothing goes on any more. -/
theorem handler_takes_exit_value :
    (∃ final, shutdown.Runs (stopCalled "0.0.0.0:3002" 1 0) [.send, .handlerReceive 0] final ∧
      ¬ ReachesListeners final) ∧
    ∃ final, shutdown.Runs (stopCalled "0.0.0.0:3002" 1 0)
        [.send, .webReceive, .webReturn, .joinWeb] final ∧
      ¬ ReachesListeners final ∧
      ∀ action next, shutdownStep final action = some next → action = .leave 0 := by
  refine ⟨⟨_, Machine.runs_exec_get (by decide), fun reaches => ?_⟩,
    ⟨_, Machine.runs_exec_get (by decide), fun reaches => ?_, fun action next taken => ?_⟩⟩
  · exact (reaches (by decide) rfl).1 rfl
  · exact (reaches (by decide) rfl).2 _ List.mem_cons_self rfl rfl
  · cases action with
    | leave i =>
        cases i with
        | zero => rfl
        | succ i => cases taken
    | handlerReceive i | finish i => cases i <;> cases taken
    | _ => cases taken

end WebChunk.Server
