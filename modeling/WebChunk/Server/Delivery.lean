import WebChunk.Semantics.History
import WebChunk.Server.RouterSafety

/-!
# Delivery of events

What `Run` puts into the channel of a client, compared with the events that are broadcast and
those it takes while the client is connected. Every client has a history of its own, into which
the moves of the others do not enter.
-/

namespace WebChunk.Server

open WebChunk.Go WebChunk.Semantics

variable {Payload : Type}

namespace RouterState

/-- The buffer of a client's channel. -/
def bufferOf (s : RouterState Payload) (c : Nat) : List (MapEvent Payload) :=
  (s.handlers[c]?).elim [] fun h => h.c.buffer

/-- The event that `Run` has taken and has yet to offer to a client. -/
def pending (s : RouterState Payload) (c : Nat) : List (MapEvent Payload) :=
  match s.run with
  | .relaying e left => if c ∈ left then [e] else []
  | _ => []

end RouterState

/-! ### What the steps show -/

/-- The communications of `Run`. -/
def RouterAction.ofRun : RouterAction Payload → Bool
  | .takeExit | .takeConnect | .takeDisconnect | .takeEvent | .relay _ | .closeNext _ => true
  | _ => false

/-- The events that are broadcast. -/
def broadcastIn (_ : RouterState Payload) (action : RouterAction Payload)
    (_ : RouterState Payload) : List (MapEvent Payload) :=
  match action with
  | .Broadcast e => [e]
  | _ => []

/-- The events that `Run` takes. -/
def takenIn (s : RouterState Payload) (action : RouterAction Payload) (_ : RouterState Payload) :
    List (MapEvent Payload) :=
  match action with
  | .takeEvent => s.events.buffer.take 1
  | _ => []

/-- The connects of a client that `Run` processes, and its disconnects. -/
def turnIn (c : Nat) (s : RouterState Payload) (action : RouterAction Payload)
    (_ : RouterState Payload) : List Bool :=
  match action with
  | .takeConnect => if s.connect.buffer.head? = some c then [true] else []
  | .takeDisconnect => if s.disconnect.buffer.head? = some c then [false] else []
  | _ => []

/-- The events that `Run` takes while a client is in its map. -/
def takenForIn (c : Nat) (s : RouterState Payload) (action : RouterAction Payload)
    (next : RouterState Payload) : List (MapEvent Payload) :=
  if c ∈ s.clients.keys then takenIn s action next else []

/-- The events that `Run` offers to a client, and whether its buffer has room then. -/
def offeredIn (c : Nat) (s : RouterState Payload) (action : RouterAction Payload)
    (_ : RouterState Payload) : List (MapEvent Payload × Bool) :=
  match action with
  | .relay other =>
      if other = c then
        match s.run, s.handlers[c]? with
        | .relaying e _, some h =>
            if h.c.closed then [] else [(e, decide (h.c.buffer.length < h.c.capacity))]
        | _, _ => []
      else []
  | _ => []

/-- What `Run` adds to the buffer of a client. -/
def putIn (c : Nat) (s : RouterState Payload) (action : RouterAction Payload)
    (next : RouterState Payload) : List (MapEvent Payload) :=
  if action.ofRun then (next.bufferOf c).drop (s.bufferOf c).length else []

/-- The events that a client takes. -/
def receivedIn (c : Nat) (s : RouterState Payload) (action : RouterAction Payload)
    (_ : RouterState Payload) : List (MapEvent Payload) :=
  match action with
  | .clientReceive other => if other = c then (s.bufferOf c).take 1 else []
  | _ => []

/-- All but what other clients do with their own channels. -/
def RouterAction.concerns (c : Nat) : RouterAction Payload → Bool
  | .clientSend other _ | .clientReceive other => other == c
  | _ => true

variable {s next : RouterState Payload} {action : RouterAction Payload}

/-! ### Offers -/

theorem bufferOf_setChannel {c : Nat} {h : Client Payload} (found : s.handlers[c]? = some h)
    (ch : Chan (MapEvent Payload)) (other : Nat) :
    (s.setChannel c ch).bufferOf other = if other = c then ch.buffer else s.bufferOf other := by
  simp only [RouterState.bufferOf, RouterState.setChannel, List.getElem?_modify]
  by_cases same : c = other
  · subst same
    simp [found]
  · simp [same, Ne.symm same]

/-- Inversion of the loop that relays an event, with the room that it finds. -/
theorem relay_cases {c : Nat} (transition : routerStep s (.relay c) = some next) :
    ∃ e left h, s.run = .relaying e left ∧ c ∈ left ∧ s.handlers[c]? = some h ∧
      (h.c.closed = true ∧ next = s.panic .sendOnClosed ∨
        h.c.closed = false ∧ h.c.buffer.length < h.c.capacity ∧
          next = ({ s with run := .relayLeft e (left.erase c) }.setChannel c
            { h.c with buffer := h.c.buffer ++ [e] }) ∨
        h.c.closed = false ∧ ¬ h.c.buffer.length < h.c.capacity ∧
          next = { s with run := .relayLeft e (left.erase c) }) := by
  have taken := transition
  rw [routerStep] at taken
  split at taken
  · cases taken
  simp only [RouterState.relay] at taken
  split at taken
  · rename_i e left h relaying found
    split at taken
    · rename_i member
      refine ⟨e, left, h, relaying, member, found, ?_⟩
      cases sent : h.c.send e with
      | blocked =>
          obtain ⟨isOpen, noRoom⟩ := Chan.send_blocked_iff.mp sent
          rw [sent] at taken
          exact .inr (.inr ⟨isOpen, by omega, (Option.some.inj taken).symm⟩)
      | panics =>
          rw [sent] at taken
          exact .inl ⟨Chan.send_panics_iff.mp sent, (Option.some.inj taken).symm⟩
      | sent ch =>
          have bound := Chan.sent_bounded sent
          obtain ⟨isOpen, rfl⟩ := Chan.send_sent sent
          rw [sent] at taken
          rw [List.length_append, List.length_singleton] at bound
          exact .inr (.inl ⟨isOpen, bound, (Option.some.inj taken).symm⟩)
    · cases taken
  · cases taken

/-- Besides its offers `Run` leaves the buffers as they are. -/
theorem bufferOf_ofRun (c : Nat) (transition : routerStep s action = some next)
    (ofRun : action.ofRun = true) (noRelay : ∀ other, action ≠ .relay other) :
    next.bufferOf c = s.bufferOf c := by
  have closed : ∀ {t : RouterState Payload} {other : Nat} {h : Client Payload},
      t.handlers[other]? = some h → (t.setChannel other h.c.close).bufferOf c = t.bufferOf c := by
    intro t other h found
    rw [bufferOf_setChannel found]
    split
    · rename_i same
      subst same
      simp [RouterState.bufferOf, found]
    · rfl
  cases (routerTransition_of_step transition).2 with
  | exits | enters | dropPanics | takesEvent | closePanics => rfl
  | drops _ _ found _ => exact closed found
  | closes _ _ found _ => exact closed found
  | relays => exact absurd rfl (noRelay _)
  | relayDrops => exact absurd rfl (noRelay _)
  | relayPanics => exact absurd rfl (noRelay _)
  | _ => cases ofRun

/-- `Run` puts an event into a channel exactly when it offers it and there is room. -/
theorem putIn_eq (c : Nat) (transition : routerStep s action = some next) :
    putIn c s action next = ((offeredIn c s action next).filter Prod.snd).map Prod.fst := by
  by_cases relay : ∃ other, action = .relay other
  · obtain ⟨other, rfl⟩ := relay
    obtain ⟨e, left, h, relaying, -, found, taken⟩ := relay_cases transition
    have buffers := fun ch => bufferOf_setChannel
      (s := { s with run := .relayLeft e (left.erase other) }) (c := other) (h := h) found ch c
    rw [putIn, if_pos (show (RouterAction.relay other : RouterAction Payload).ofRun = true from rfl)]
    by_cases same : other = c
    · subst same
      have before : s.bufferOf other = h.c.buffer := by rw [RouterState.bufferOf, found]; rfl
      have offer : offeredIn other s (.relay other) next =
          if h.c.closed then [] else [(e, decide (h.c.buffer.length < h.c.capacity))] := by
        simp [offeredIn, relaying, found]
      rw [offer, before]
      rcases taken with ⟨isClosed, rfl⟩ | ⟨isOpen, room, rfl⟩ | ⟨isOpen, noRoom, rfl⟩
      · rw [if_pos isClosed, show (s.panic .sendOnClosed).bufferOf other = _ from before]
        exact List.drop_length
      · rw [buffers, if_pos rfl, if_neg (by simp [isOpen])]
        simp [room]
      · rw [if_neg (by simp [isOpen])]
        simp only [decide_eq_false noRoom]
        rw [show RouterState.bufferOf { s with run := .relayLeft e (left.erase other) } other = _
          from before]
        exact List.drop_length
    · have nothing : offeredIn c s (.relay other) next = [] := if_neg same
      rw [nothing, List.filter_nil, List.map_nil]
      rcases taken with ⟨_, rfl⟩ | ⟨_, _, rfl⟩ | ⟨_, _, rfl⟩
      · exact List.drop_length
      · rw [buffers, if_neg (Ne.symm same)]
        exact List.drop_length
      · exact List.drop_length
  · have noRelay : ∀ other, action ≠ .relay other := fun other same => relay ⟨other, same⟩
    have nothing : offeredIn c s action next = [] := by
      cases action <;> first | rfl | exact absurd rfl (noRelay _)
    rw [nothing, List.filter_nil, List.map_nil, putIn]
    split
    · rename_i ofRun
      rw [bufferOf_ofRun c transition ofRun noRelay, List.drop_length]
    · rfl

/-! ### Histories of a run -/

theorem pending_relayLeft (s : RouterState Payload) (e : MapEvent Payload) (left : Finset Nat)
    (c : Nat) :
    ({ s with run := .relayLeft e left } : RouterState Payload).pending c =
      if c ∈ left then [e] else [] := by
  unfold RouterState.pending RunPhase.relayLeft
  by_cases none_ : left = ∅
  · simp [none_]
  · rw [if_neg none_]

theorem pending_closeLeft (s : RouterState Payload) (left : Finset Nat) (c : Nat) :
    ({ s with run := .closeLeft left } : RouterState Payload).pending c = [] := by
  unfold RouterState.pending RunPhase.closeLeft
  by_cases none_ : left = ∅
  · simp [none_]
  · rw [if_neg none_]

variable {actions : List (RouterAction Payload)} {final : RouterState Payload}

/-- What was broadcast was taken or waits. -/
theorem broadcast_eq (run : eventRouter.Runs newMapEventRouter actions final) :
    eventRouter.history broadcastIn newMapEventRouter actions =
      eventRouter.history takenIn newMapEventRouter actions ++ final.events.buffer := by
  refine run.histories (fun sent taken s => sent = taken ++ s.events.buffer) ?_ rfl
  intro past pastTaken s action next holds transition
  have unchanged : next.events = s.events → past ++ [] = pastTaken ++ [] ++ next.events.buffer := by
    intro same
    rw [List.append_nil, List.append_nil, same, holds]
  cases (routerTransition_of_step transition).2 with
  | broadcasts sent =>
      obtain ⟨-, rfl⟩ := Chan.send_sent sent
      simp [broadcastIn, takenIn, holds]
  | takesEvent _ received =>
      have front := (Chan.receive_received received).1
      simp [broadcastIn, takenIn, holds, front]
  | _ => exact unchanged rfl

/-- `Run` has the clients whose connect it has processed, and no disconnect since. -/
theorem mem_clients_iff (run : eventRouter.Runs newMapEventRouter actions final) (c : Nat) :
    c ∈ final.clients.keys ↔
      (eventRouter.history (turnIn c) newMapEventRouter actions).getLast? = some true := by
  refine run.history (fun turns s => c ∈ s.clients.keys ↔ turns.getLast? = some true) ?_
    (by simp [newMapEventRouter, Map.empty])
  intro past s action next holds transition
  have unchanged : next.clients = s.clients →
      (c ∈ next.clients.keys ↔ (past ++ []).getLast? = some true) := by
    intro same
    rw [List.append_nil, same, holds]
  have removed : ∀ {other : Nat} {disconnect : Chan Nat},
      s.disconnect.receive = .received other disconnect →
      (c ∈ (s.clients.delete other).keys ↔
        (past ++ turnIn c s .takeDisconnect next).getLast? = some true) := by
    intro other disconnect received
    have front := (Chan.receive_received received).1
    by_cases same : other = c
    · simp [turnIn, front, same, Map.delete]
    · simp [turnIn, front, same, Ne.symm same, Map.delete, holds]
  cases (routerTransition_of_step transition).2 with
  | @enters other connect _ received =>
      have front := (Chan.receive_received received).1
      by_cases same : other = c
      · simp [turnIn, front, same, Map.set]
      · simp [turnIn, front, same, Ne.symm same, Map.set, holds]
  | drops _ received _ _ => exact removed received
  | dropPanics _ received _ _ => exact removed received
  | _ => exact unchanged rfl

/-- The events that `Run` takes for a client it offers to it, all but the one at hand. -/
theorem takenFor_eq (run : eventRouter.Runs newMapEventRouter actions final) (c : Nat) :
    eventRouter.history (takenForIn c) newMapEventRouter actions =
      (eventRouter.history (offeredIn c) newMapEventRouter actions).map Prod.fst ++
        final.pending c := by
  refine run.histories (fun taken offered s => taken = offered.map Prod.fst ++ s.pending c) ?_ rfl
  intro past pastOffered s action next holds transition
  -- Outside the loop nothing is taken or offered.
  have unchanged : takenForIn c s action next = [] → offeredIn c s action next = [] →
      next.pending c = s.pending c → past ++ takenForIn c s action next =
        (pastOffered ++ offeredIn c s action next).map Prod.fst ++ next.pending c := by
    intro taken offered same
    rw [taken, offered, List.append_nil, List.append_nil, same, holds]
  have idle : takenIn s action next = [] → takenForIn c s action next = [] := fun none_ => by
    rw [takenForIn, none_, ite_self]
  by_cases relay : ∃ other, action = .relay other
  · obtain ⟨other, rfl⟩ := relay
    obtain ⟨e, left, h, relaying, member, found, taken⟩ := relay_cases transition
    have before : s.pending c = if c ∈ left then [e] else [] := by
      rw [RouterState.pending, relaying]
    have after : next = s.panic .sendOnClosed ∧ h.c.closed = true ∨
        h.c.closed = false ∧ next.pending c = if c ∈ left.erase other then [e] else [] := by
      rcases taken with ⟨isClosed, rfl⟩ | ⟨isOpen, _, rfl⟩ | ⟨isOpen, _, rfl⟩
      · exact .inl ⟨rfl, isClosed⟩
      · exact .inr ⟨isOpen, pending_relayLeft s e (left.erase other) c⟩
      · exact .inr ⟨isOpen, pending_relayLeft s e (left.erase other) c⟩
    by_cases same : other = c
    · subst same
      rcases after with ⟨rfl, isClosed⟩ | ⟨isOpen, after⟩
      · exact unchanged (idle rfl) (by simp [offeredIn, relaying, found, isClosed]) rfl
      · have offered : (offeredIn other s (.relay other) next).map Prod.fst = [e] := by
          simp [offeredIn, relaying, found, isOpen]
        rw [idle rfl, List.append_nil, List.map_append, offered, after, holds, before,
          if_pos member, if_neg (by simp), List.append_nil]
    · refine unchanged (idle rfl) (if_neg same) ?_
      rcases after with ⟨rfl, -⟩ | ⟨-, after⟩
      · rfl
      · rw [after, before]
        simp [Ne.symm same]
  · have noOffer : offeredIn c s action next = [] := by
      cases action <;> first | rfl | exact absurd ⟨_, rfl⟩ relay
    cases (routerTransition_of_step transition).2 with
    | @takesEvent e events selecting received =>
        have front := (Chan.receive_received received).1
        have before : s.pending c = [] := by rw [RouterState.pending, selecting]
        have after := pending_relayLeft { s with events := events } e s.clients.keys c
        rw [noOffer, List.append_nil, after, holds, before, List.append_nil, takenForIn, takenIn,
          front]
        rfl
    | exits selecting _ =>
        have before : s.pending c = [] := by rw [RouterState.pending, selecting]
        exact unchanged (idle rfl) noOffer ((pending_closeLeft s s.clients.keys c).trans before.symm)
    | @closes other left h closing _ _ _ =>
        have before : s.pending c = [] := by rw [RouterState.pending, closing]
        exact unchanged (idle rfl) noOffer
          ((pending_closeLeft s (left.erase other) c).trans before.symm)
    | relays => exact absurd ⟨_, rfl⟩ relay
    | relayDrops => exact absurd ⟨_, rfl⟩ relay
    | relayPanics => exact absurd ⟨_, rfl⟩ relay
    | _ => exact unchanged (idle rfl) noOffer rfl

/-- `Run` puts into the channel of a client what it offers while there is room. -/
theorem put_eq (run : eventRouter.Runs newMapEventRouter actions final) (c : Nat) :
    eventRouter.history (putIn c) newMapEventRouter actions =
      ((eventRouter.history (offeredIn c) newMapEventRouter actions).filter Prod.snd).map
        Prod.fst := by
  refine run.histories (fun put offered _ => put = (offered.filter Prod.snd).map Prod.fst) ?_ rfl
  intro past pastOffered s action next holds transition
  rw [putIn_eq c transition, holds, List.filter_append, List.map_append]

theorem takenFor_sublist (run : eventRouter.Runs newMapEventRouter actions final) (c : Nat) :
    (eventRouter.history (takenForIn c) newMapEventRouter actions).Sublist
      (eventRouter.history takenIn newMapEventRouter actions) := by
  refine run.histories (fun takenFor taken _ => takenFor.Sublist taken) ?_ (List.Sublist.refl _)
  intro past pastTaken s action next holds _
  refine holds.append ?_
  rw [takenForIn]
  split
  · exact List.Sublist.refl _
  · exact List.nil_sublist _

/-! ### `Run` is not held up -/

/-- The channels that `Run` knows of were made, and its loop has clients left. -/
structure ChannelsMade (s : RouterState Payload) : Prop where
  announced : ∀ c ∈ s.connect.buffer, c < s.handlers.length
  listed : ∀ c ∈ s.clients.keys, c < s.handlers.length
  relayed : ∀ e left, s.run = .relaying e left →
    left.Nonempty ∧ ∀ c ∈ left, c < s.handlers.length

namespace ChannelsMade

theorem relayLeft_relaying {e e' : MapEvent Payload} {left left' : Finset Nat}
    (relaying : RunPhase.relayLeft e left = .relaying e' left') : left = left' ∧ left.Nonempty := by
  unfold RunPhase.relayLeft at relaying
  split at relaying
  · cases relaying
  · rename_i some_
    cases relaying
    exact ⟨rfl, Finset.nonempty_iff_ne_empty.mpr some_⟩

theorem closeLeft_ne_relaying (left left' : Finset Nat) (e : MapEvent Payload) :
    RunPhase.closeLeft left ≠ .relaying e left' := by
  unfold RunPhase.closeLeft
  split <;> nofun

/-- Handlers are added, and what `Run` knows becomes no more. -/
theorem keeps (made : ChannelsMade s) (longer : s.handlers.length ≤ next.handlers.length)
    (connect : next.connect.buffer = s.connect.buffer)
    (clients : next.clients.keys ⊆ s.clients.keys)
    (run : ∀ e left, next.run = .relaying e left → left.Nonempty ∧
      (s.run = .relaying e left ∨ left ⊆ s.clients.keys ∨
        ∃ before, s.run = .relaying e before ∧ left ⊆ before)) : ChannelsMade next where
  announced c member := lt_of_lt_of_le (made.announced c (connect ▸ member)) longer
  listed c member := lt_of_lt_of_le (made.listed c (clients member)) longer
  relayed e left relaying := by
    obtain ⟨some_, same | inMap | ⟨before, same, inside⟩⟩ := run e left relaying
    · exact ⟨some_, fun c member => lt_of_lt_of_le ((made.relayed e left same).2 c member) longer⟩
    · exact ⟨some_, fun c member => lt_of_lt_of_le (made.listed c (inMap member)) longer⟩
    · exact ⟨some_, fun c member =>
        lt_of_lt_of_le ((made.relayed e before same).2 c (inside member)) longer⟩

theorem preserved (made : ChannelsMade s) (transition : RouterTransition s action next) :
    ChannelsMade next := by
  have channels : ∀ (t : RouterState Payload) (c : Nat) (ch : Chan (MapEvent Payload)),
      t.handlers.length ≤ (t.setChannel c ch).handlers.length := fun t c ch => by
    simp [RouterState.setChannel]
  have phases : ∀ (t : RouterState Payload) (c : Nat) (phase : ClientPhase),
      t.handlers.length ≤ (t.setPhase c phase).handlers.length := fun t c phase => by
    simp [RouterState.setPhase]
  have still : ∀ e left, s.run = .relaying e left → left.Nonempty ∧
      (s.run = .relaying e left ∨ left ⊆ s.clients.keys ∨
        ∃ before, s.run = .relaying e before ∧ left ⊆ before) :=
    fun e left relaying => ⟨(made.relayed e left relaying).1, .inl relaying⟩
  have closing : ∀ (left : Finset Nat) e left', RunPhase.closeLeft left = .relaying e left' →
      left'.Nonempty ∧ (s.run = .relaying e left' ∨ left' ⊆ s.clients.keys ∨
        ∃ before, s.run = .relaying e before ∧ left' ⊆ before) :=
    fun left e left' same => absurd same (closeLeft_ne_relaying left left' e)
  have relaying : ∀ {e left} (c : Nat), s.run = .relaying e left → ∀ e' left',
      RunPhase.relayLeft e (left.erase c) = .relaying e' left' → left'.Nonempty ∧
        (s.run = .relaying e' left' ∨ left' ⊆ s.clients.keys ∨
          ∃ before, s.run = .relaying e' before ∧ left' ⊆ before) := by
    intro e left c before e' left' same
    obtain ⟨rfl, some_⟩ := relayLeft_relaying same
    rw [RunPhase.relayLeft, if_neg some_.ne_empty] at same
    cases same
    exact ⟨some_, .inr (.inr ⟨left, before, Finset.erase_subset c left⟩)⟩
  cases transition with
  | dials => exact made.keeps (by simp [RouterState.dial]) rfl subset_rfl still
  | @connects c h connect found _ sent =>
      obtain ⟨-, rfl⟩ := Chan.send_sent sent
      have there : c < s.handlers.length := (List.getElem?_eq_some_iff.mp found).1
      have longer := phases { s with connect := { s.connect with buffer := s.connect.buffer ++ [c] } }
        c .connected
      exact
        { announced := fun other member => by
            rcases List.mem_append.mp member with old | new
            · exact lt_of_lt_of_le (made.announced other old) longer
            · rw [List.mem_singleton.mp new]
              exact lt_of_lt_of_le there longer
          listed := fun other member => lt_of_lt_of_le (made.listed other member) longer
          relayed := fun e left same =>
            ⟨(made.relayed e left same).1, fun other member =>
              lt_of_lt_of_le ((made.relayed e left same).2 other member) longer⟩ }
  | clientPanics => exact made.keeps le_rfl rfl subset_rfl still
  | clientSends => exact made.keeps (channels _ _ _) rfl subset_rfl still
  | clientReceives => exact made.keeps (channels _ _ _) rfl subset_rfl still
  | leaves => exact made.keeps (phases _ _ _) rfl subset_rfl still
  | disconnects => exact made.keeps (phases { s with disconnect := _ } _ _) rfl subset_rfl still
  | broadcasts => exact made.keeps le_rfl rfl subset_rfl still
  | stops => exact made.keeps le_rfl rfl subset_rfl still
  | exits => exact made.keeps le_rfl rfl subset_rfl (closing _)
  | enters selecting received =>
      have front := (Chan.receive_received received).1
      exact
        { announced := fun other member =>
            made.announced other (front ▸ List.mem_cons_of_mem _ member)
          listed := fun other member => by
            rcases Finset.mem_insert.mp member with rfl | old
            · exact made.announced other (front ▸ List.mem_cons_self)
            · exact made.listed other old
          relayed := fun e left same => made.relayed e left same }
  | drops =>
      exact made.keeps (channels { s with disconnect := _, clients := _ } _ _) rfl
        (Finset.filter_subset _ _) still
  | dropPanics => exact made.keeps le_rfl rfl (Finset.filter_subset _ _) still
  | @takesEvent e events selecting _ =>
      refine made.keeps le_rfl rfl subset_rfl fun e' left same => ?_
      obtain ⟨rfl, some_⟩ := relayLeft_relaying same
      exact ⟨some_, .inr (.inl subset_rfl)⟩
  | relays before =>
      exact made.keeps (channels { s with run := _ } _ _) rfl subset_rfl (relaying _ before)
  | relayDrops before => exact made.keeps le_rfl rfl subset_rfl (relaying _ before)
  | relayPanics => exact made.keeps le_rfl rfl subset_rfl still
  | closes => exact made.keeps (channels { s with run := _ } _ _) rfl subset_rfl (closing _)
  | closePanics => exact made.keeps le_rfl rfl subset_rfl still

theorem initial : ChannelsMade (newMapEventRouter : RouterState Payload) where
  announced _ member := by cases member
  listed _ member := by simp [newMapEventRouter, Map.empty] at member
  relayed _ _ relaying := by cases relaying

/-- In the loop that relays an event every client that is left can be visited at once. -/
theorem relay_isSome (made : ChannelsMade s) (live : s.panicked = none) {e : MapEvent Payload}
    {left : Finset Nat} (relaying : s.run = .relaying e left) {c : Nat} (member : c ∈ left) :
    (routerStep s (.relay c)).isSome := by
  have there := (made.relayed e left relaying).2 c member
  rw [routerStep, if_neg (by simp [live])]
  simp only [RouterState.relay, relaying, List.getElem?_eq_getElem there, if_pos member]
  split <;> rfl

end ChannelsMade

/-! ### The others -/

/-- A channel without what it buffers, if it is another client's. -/
def hush (c i : Nat) (ch : Chan (MapEvent Payload)) : Chan (MapEvent Payload) :=
  if i = c then ch else { ch with buffer := [] }

@[simp] theorem hush_self (c : Nat) (ch : Chan (MapEvent Payload)) : hush c c ch = ch := if_pos rfl

@[simp] theorem hush_closed (c i : Nat) (ch : Chan (MapEvent Payload)) :
    (hush c i ch).closed = ch.closed := by
  unfold hush
  split <;> rfl

@[simp] theorem hush_hush (c i : Nat) (ch : Chan (MapEvent Payload)) :
    hush c i (hush c i ch) = hush c i ch := by
  unfold hush
  split <;> rfl

theorem hush_close (c i : Nat) (ch : Chan (MapEvent Payload)) :
    hush c i (hush c i ch).close = hush c i ch.close := by
  by_cases own : i = c <;> simp [hush, own, Chan.close]

/-- Another client's channel changes unseen. -/
theorem hush_of_ne {c i : Nat} (different : i ≠ c) {ch ch' : Chan (MapEvent Payload)}
    (capacity : ch'.capacity = ch.capacity) (closed : ch'.closed = ch.closed) :
    hush c i ch' = hush c i ch := by
  rw [hush, hush, if_neg different, if_neg different, capacity, closed]

namespace RouterState

/-- All but the buffers of the other clients. -/
def seenBy (c : Nat) (s : RouterState Payload) : RouterState Payload :=
  { s with handlers := s.handlers.mapIdx fun i h => ⟨hush c i h.c, h.phase⟩ }

theorem getElem?_seenBy (c : Nat) (s : RouterState Payload) (i : Nat) :
    (s.seenBy c).handlers[i]? = (s.handlers[i]?).map fun h => ⟨hush c i h.c, h.phase⟩ :=
  List.getElem?_mapIdx

theorem bufferOf_seenBy (c : Nat) (s : RouterState Payload) :
    (s.seenBy c).bufferOf c = s.bufferOf c := by
  rw [bufferOf, getElem?_seenBy, bufferOf]
  cases s.handlers[c]? <;> simp

@[simp] theorem seenBy_seenBy (c : Nat) (s : RouterState Payload) :
    (s.seenBy c).seenBy c = s.seenBy c := by
  simp only [seenBy, List.mapIdx_mapIdx, Function.comp_def, hush_hush]

theorem dial_seenBy (c : Nat) (s : RouterState Payload) :
    (s.seenBy c).dial.seenBy c = s.dial.seenBy c := by
  simp only [dial, seenBy, List.mapIdx_append, List.mapIdx_mapIdx, List.length_mapIdx,
    Function.comp_def, hush_hush]

theorem setPhase_seenBy (c : Nat) (s : RouterState Payload) (i : Nat) (phase : ClientPhase) :
    ((s.seenBy c).setPhase i phase).seenBy c = (s.setPhase i phase).seenBy c := by
  have handlers : ((s.seenBy c).setPhase i phase).handlers.mapIdx
      (fun i h => (⟨hush c i h.c, h.phase⟩ : Client Payload)) =
      (s.setPhase i phase).handlers.mapIdx fun i h => ⟨hush c i h.c, h.phase⟩ := by
    refine List.ext_getElem? fun j => ?_
    simp only [setPhase, List.getElem?_mapIdx, List.getElem?_modify, getElem?_seenBy]
    cases s.handlers[j]? <;> by_cases here : i = j <;> simp [here]
  exact congrArg (fun handlers => { s with handlers := handlers }) handlers

theorem setChannel_seenBy {c i : Nat} (s : RouterState Payload) {ch ch' : Chan (MapEvent Payload)}
    (same : hush c i ch' = hush c i ch) :
    ((s.seenBy c).setChannel i ch').seenBy c = (s.setChannel i ch).seenBy c := by
  have handlers : ((s.seenBy c).setChannel i ch').handlers.mapIdx
      (fun i h => (⟨hush c i h.c, h.phase⟩ : Client Payload)) =
      (s.setChannel i ch).handlers.mapIdx fun i h => ⟨hush c i h.c, h.phase⟩ := by
    refine List.ext_getElem? fun j => ?_
    simp only [setChannel, List.getElem?_mapIdx, List.getElem?_modify, getElem?_seenBy]
    by_cases here : i = j
    · subst here
      cases s.handlers[i]? <;> simp [same]
    · cases s.handlers[j]? <;> simp [here]
  exact congrArg (fun handlers => { s with handlers := handlers }) handlers

/-- Putting a channel back as it is. -/
theorem setChannel_same {s : RouterState Payload} {i : Nat} {h : Client Payload}
    (found : s.handlers[i]? = some h) : s.setChannel i h.c = s := by
  have handlers : (s.setChannel i h.c).handlers = s.handlers := by
    refine List.ext_getElem? fun j => ?_
    rw [setChannel, List.getElem?_modify]
    by_cases here : i = j
    · subst here
      simp [found]
    · simp [here]
  exact congrArg (fun handlers => { s with handlers := handlers }) handlers

end RouterState

/-- The send of an event with its channel afterwards, a full channel being left as it is. -/
theorem send_hush (c i : Nat) (ch : Chan (MapEvent Payload)) (e : MapEvent Payload) :
    ch.send e = .panics ∧ (hush c i ch).send e = .panics ∨
      ∃ after after', hush c i after' = hush c i after ∧
        (ch.send e = .sent after ∨ ch.send e = .blocked ∧ after = ch) ∧
        ((hush c i ch).send e = .sent after' ∨
          (hush c i ch).send e = .blocked ∧ after' = hush c i ch) := by
  by_cases isClosed : ch.closed = true
  · exact .inl ⟨Chan.send_panics_iff.mpr isClosed, Chan.send_panics_iff.mpr (by simpa using isClosed)⟩
  have notClosed : ch.closed = false := by simpa using isClosed
  have outcome : ∀ ch : Chan (MapEvent Payload), ch.closed = false → ∃ after,
      after.capacity = ch.capacity ∧ after.closed = ch.closed ∧
        (ch.send e = .sent after ∨ ch.send e = .blocked ∧ after = ch) := by
    intro ch notClosed
    cases sent : ch.send e with
    | panics =>
        rw [Chan.send_panics_iff, notClosed] at sent
        cases sent
    | blocked => exact ⟨ch, rfl, rfl, .inr ⟨rfl, rfl⟩⟩
    | sent after =>
        have shape := (Chan.send_sent sent).2
        exact ⟨after, by rw [shape], by rw [shape], .inl rfl⟩
  obtain ⟨after, capacity, closed, here⟩ := outcome ch notClosed
  by_cases own : i = c
  · subst own
    exact .inr ⟨after, after, rfl, here, by rwa [hush_self]⟩
  · obtain ⟨after', capacity', closed', there⟩ := outcome (hush c i ch) (by simpa using notClosed)
    refine .inr ⟨after, after', hush_of_ne own ?_ ?_, here, there⟩
    · rw [capacity', capacity, hush, if_neg own]
    · rw [closed', closed, hush_closed]

/-- A state left alone may be seen once or twice. -/
theorem some_seenBy (c : Nat) (s : RouterState Payload) :
    (some (s.seenBy c)).map (RouterState.seenBy c) = (some s).map (RouterState.seenBy c) :=
  congrArg some (s.seenBy_seenBy c)

theorem takeDisconnect_seenBy (c : Nat) (s : RouterState Payload) :
    (s.seenBy c).takeDisconnect.map (RouterState.seenBy c) =
      s.takeDisconnect.map (RouterState.seenBy c) := by
  simp only [RouterState.takeDisconnect]
  rw [show (s.seenBy c).run = s.run from rfl,
    show (s.seenBy c).disconnect = s.disconnect from rfl]
  split
  · rename_i i disconnect selecting received
    let later : RouterState Payload :=
      { s with disconnect := disconnect, clients := s.clients.delete i }
    simp only [RouterState.getElem?_seenBy]
    cases s.handlers[i]? with
    | none => rfl
    | some h =>
        simp only [Option.map_some, hush_closed]
        split
        · exact some_seenBy c (later.panic .closeOfClosed)
        · exact congrArg some (RouterState.setChannel_seenBy later (hush_close c i h.c))
  · rfl

theorem relay_seenBy (c : Nat) (s : RouterState Payload) (i : Nat) :
    ((s.seenBy c).relay i).map (RouterState.seenBy c) =
      (s.relay i).map (RouterState.seenBy c) := by
  simp only [RouterState.relay, RouterState.getElem?_seenBy]
  rw [show (s.seenBy c).run = s.run from rfl]
  cases s.run with
  | relaying e left =>
      cases found : s.handlers[i]? with
      | none => rfl
      | some h =>
          dsimp only [Option.map_some]
          split
          · let later : RouterState Payload := { s with run := .relayLeft e (left.erase i) }
            have hushed : (later.seenBy c).handlers[i]? = some ⟨hush c i h.c, h.phase⟩ := by
              rw [RouterState.getElem?_seenBy]
              exact congrArg _ found
            rcases send_hush c i h.c e with ⟨here, there⟩ | ⟨after, after', same, here, there⟩
            · rw [here, there]
              exact some_seenBy c (s.panic .sendOnClosed)
            · -- A full channel may as well be put back as it is.
              have mine : later.setChannel i h.c = later :=
                RouterState.setChannel_same (s := later) found
              have seen := RouterState.setChannel_same hushed
              have alike := congrArg some (RouterState.setChannel_seenBy later same)
              rcases here with here | ⟨here, rfl⟩ <;> rcases there with there | ⟨there, rfl⟩ <;>
                rw [here, there]
              · exact alike
              · rw [seen] at alike
                exact alike
              · rw [mine] at alike
                exact alike
              · rw [mine, seen] at alike
                exact alike
          · rfl
  | _ => rfl

theorem closeNext_seenBy (c : Nat) (s : RouterState Payload) (i : Nat) :
    ((s.seenBy c).closeNext i).map (RouterState.seenBy c) =
      (s.closeNext i).map (RouterState.seenBy c) := by
  simp only [RouterState.closeNext, RouterState.getElem?_seenBy]
  rw [show (s.seenBy c).run = s.run from rfl]
  cases s.run with
  | closing left =>
      cases s.handlers[i]? with
      | none => rfl
      | some h =>
          simp only [Option.map_some, hush_closed]
          split
          · split
            · exact some_seenBy c (s.panic .closeOfClosed)
            · exact congrArg some (RouterState.setChannel_seenBy
                { s with run := .closeLeft (left.erase i) } (hush_close c i h.c))
          · rfl
  | _ => rfl

/-- What concerns a client is the same without the buffers of the others. -/
theorem step_seenBy (c : Nat) (s : RouterState Payload) {action : RouterAction Payload}
    (concerns : action.concerns c = true) :
    (routerStep (s.seenBy c) action).map (RouterState.seenBy c) =
      (routerStep s action).map (RouterState.seenBy c) := by
  unfold routerStep
  rw [show (s.seenBy c).panicked = s.panicked from rfl]
  split
  · rfl
  have own : ∀ {i}, (i == c) = true → i = c := fun same => by simpa using same
  cases action with
  | dial => exact congrArg some (s.dial_seenBy c)
  | Connect i =>
      simp only [RouterState.Connect, RouterState.getElem?_seenBy]
      rcases s.handlers[i]? with _ | ⟨ch, _ | _ | _ | _⟩
      · rfl
      · dsimp only [Option.map_some, RouterState.seenBy]
        cases s.connect.send i with
        | sent connect =>
            exact congrArg some (RouterState.setPhase_seenBy c { s with connect := connect } i _)
        | _ => rfl
      all_goals rfl
  | clientSend i e =>
      obtain rfl := own concerns
      simp only [RouterState.clientSend, RouterState.getElem?_seenBy]
      rcases s.handlers[i]? with _ | ⟨ch, _ | _ | _ | _⟩
      · rfl
      · rfl
      · dsimp only [Option.map_some]
        rw [hush_self]
        cases ch.send e with
        | blocked => rfl
        | panics => exact some_seenBy i (s.panic .clientSendOnClosed)
        | sent after => exact congrArg some (RouterState.setChannel_seenBy s rfl)
      all_goals rfl
  | clientReceive i =>
      obtain rfl := own concerns
      simp only [RouterState.clientReceive, RouterState.getElem?_seenBy]
      rcases s.handlers[i]? with _ | ⟨ch, _ | _ | _ | _⟩
      · rfl
      · rfl
      · dsimp only [Option.map_some]
        rw [hush_self]
        cases ch.receive with
        | received e after => exact congrArg some (RouterState.setChannel_seenBy s rfl)
        | _ => rfl
      all_goals rfl
  | leave i =>
      simp only [RouterState.leave, RouterState.getElem?_seenBy]
      rcases s.handlers[i]? with _ | ⟨ch, _ | _ | _ | _⟩
      · rfl
      · rfl
      · exact congrArg some (RouterState.setPhase_seenBy c s i _)
      all_goals rfl
  | Disconnect i =>
      simp only [RouterState.Disconnect, RouterState.getElem?_seenBy]
      rcases s.handlers[i]? with _ | ⟨ch, _ | _ | _ | _⟩
      · rfl
      · rfl
      · rfl
      · dsimp only [Option.map_some, RouterState.seenBy]
        cases s.disconnect.send i with
        | sent disconnect =>
            exact congrArg some
              (RouterState.setPhase_seenBy c { s with disconnect := disconnect } i _)
        | _ => rfl
      · rfl
  | Broadcast e =>
      simp only [RouterState.Broadcast, RouterState.seenBy]
      cases s.events.send e with
      | sent events => exact some_seenBy c { s with events := events }
      | _ => rfl
  | stop =>
      simp only [RouterState.stop, RouterState.seenBy]
      cases s.exitchan.send () with
      | sent exitchan => exact some_seenBy c { s with exitchan := exitchan }
      | _ => rfl
  | takeExit =>
      simp only [RouterState.takeExit, RouterState.seenBy]
      split
      · rename_i exitchan _ _
        exact some_seenBy c { s with exitchan := exitchan, run := .closeLeft s.clients.keys }
      · rfl
  | takeConnect =>
      simp only [RouterState.takeConnect, RouterState.seenBy]
      split
      · exact some_seenBy c { s with connect := _, clients := _ }
      · rfl
  | takeDisconnect => exact takeDisconnect_seenBy c s
  | takeEvent =>
      simp only [RouterState.takeEvent, RouterState.seenBy]
      split
      · rename_i e events _ _
        exact some_seenBy c { s with events := events, run := .relayLeft e s.clients.keys }
      · rfl
  | relay i => exact relay_seenBy c s i
  | closeNext i => exact closeNext_seenBy c s i

/-- Whatever other clients do with their own channels is left unseen, if it does not panic. -/
theorem seenBy_of_others {c : Nat} (others : action.concerns c = false)
    (transition : routerStep s action = some next) (live : next.panicked = none) :
    next.seenBy c = s.seenBy c := by
  have unseen : ∀ {i : Nat} {h : Client Payload} {ch : Chan (MapEvent Payload)},
      s.handlers[i]? = some h → hush c i ch = hush c i h.c →
      (s.setChannel i ch).seenBy c = s.seenBy c := by
    intro i h ch found same
    have hushed : (s.seenBy c).handlers[i]? = some ⟨hush c i h.c, h.phase⟩ := by
      rw [RouterState.getElem?_seenBy, found]
      rfl
    have blank : hush c i (hush c i h.c) = hush c i ch := by rw [hush_hush, same]
    rw [← RouterState.setChannel_seenBy s blank, RouterState.setChannel_same hushed,
      RouterState.seenBy_seenBy]
  cases (routerTransition_of_step transition).2 with
  | clientPanics => cases live
  | @clientSends i e h ch found sent =>
      have different : i ≠ c := by simpa [RouterAction.concerns] using others
      have shape := (Chan.send_sent sent).2
      exact unseen found (hush_of_ne different (by rw [shape]) (by rw [shape]))
  | @clientReceives i h e ch found received =>
      have different : i ≠ c := by simpa [RouterAction.concerns] using others
      exact unseen found (hush_of_ne different (Chan.receive_capacity received)
        (Chan.receive_received received).2)
  | _ => cases others

/-- States that a client cannot tell apart, as long as the process lives. -/
def AlikeFor (c : Nat) (s twin : RouterState Payload) : Prop :=
  s.panicked = none → s.seenBy c = twin.seenBy c

/-- What a client gets and takes. -/
def gotIn (c : Nat) (s : RouterState Payload) (action : RouterAction Payload)
    (next : RouterState Payload) : List (MapEvent Payload ⊕ MapEvent Payload) :=
  (putIn c s action next).map .inl ++ (receivedIn c s action next).map .inr

/-- The moves of the others make no difference to what a client gets and takes. -/
theorem got_eq (run : eventRouter.Runs newMapEventRouter actions final) (c : Nat) :
    ∃ alone, eventRouter.Runs newMapEventRouter (actions.filter (RouterAction.concerns c)) alone ∧
      eventRouter.history (gotIn c) newMapEventRouter actions =
        eventRouter.history (gotIn c) newMapEventRouter
          (actions.filter (RouterAction.concerns c)) := by
  have omits : ∀ {s : RouterState Payload} {action next twin}, AlikeFor c s twin →
      RouterAction.concerns c action = false → eventRouter.step s action = some next →
      AlikeFor c next twin ∧ gotIn c s action next = [] := by
    intro s action next twin similar others transition
    have live := (routerTransition_of_step transition).1
    refine ⟨fun still => (seenBy_of_others others transition still).trans (similar live), ?_⟩
    cases action with
    | clientSend i e => rfl
    | clientReceive i =>
        have different : i ≠ c := by simpa [RouterAction.concerns] using others
        simp [gotIn, putIn, RouterAction.ofRun, receivedIn, different]
    | _ => cases others
  have keeps : ∀ {s : RouterState Payload} {action next twin}, AlikeFor c s twin →
      RouterAction.concerns c action = true → eventRouter.step s action = some next →
      ∃ nextTwin, eventRouter.step twin action = some nextTwin ∧ AlikeFor c next nextTwin ∧
        gotIn c s action next = gotIn c twin action nextTwin := by
    intro s action next twin similar concerns transition
    have same := similar (routerTransition_of_step transition).1
    have stepped := step_seenBy c s concerns
    rw [same, step_seenBy c twin concerns, show routerStep s action = some next from transition,
      Option.map_some] at stepped
    obtain ⟨nextTwin, taken, after⟩ := Option.map_eq_some_iff.mp stepped
    have buffer : s.bufferOf c = twin.bufferOf c := by
      rw [← RouterState.bufferOf_seenBy, same, RouterState.bufferOf_seenBy]
    have bufferNext : next.bufferOf c = nextTwin.bufferOf c := by
      rw [← RouterState.bufferOf_seenBy, ← after, RouterState.bufferOf_seenBy]
    have received : receivedIn c s action next = receivedIn c twin action nextTwin := by
      cases action <;> first | rfl | simp only [receivedIn, buffer]
    exact ⟨nextTwin, taken, fun _ => after.symm, by rw [gotIn, gotIn, putIn, putIn, buffer,
      bufferNext, received]⟩
  obtain ⟨alone, taken, -, same⟩ := run.filter (AlikeFor c) omits keeps fun _ => rfl
  exact ⟨alone, taken, same⟩

/-! ### Delivery -/

/-- What the router does for its clients in a run. -/
structure Delivers (actions : List (RouterAction Payload)) (final : RouterState Payload) :
    Prop where
  /-- Events are taken in the order in which they are broadcast. -/
  inOrder : eventRouter.history broadcastIn newMapEventRouter actions =
    eventRouter.history takenIn newMapEventRouter actions ++ final.events.buffer
  /-- The map has the clients between their connect and their disconnect. -/
  connected : ∀ c, c ∈ final.clients.keys ↔
    (eventRouter.history (turnIn c) newMapEventRouter actions).getLast? = some true
  /-- Each event taken for a client is offered to it once, but for the one at hand. -/
  offered : ∀ c, eventRouter.history (takenForIn c) newMapEventRouter actions =
    (eventRouter.history (offeredIn c) newMapEventRouter actions).map Prod.fst ++ final.pending c
  /-- The client gets the offers that its buffer has room for. -/
  got : ∀ c, eventRouter.history (putIn c) newMapEventRouter actions =
    ((eventRouter.history (offeredIn c) newMapEventRouter actions).filter Prod.snd).map Prod.fst
  /-- No event comes twice or out of order. -/
  once : ∀ c, (eventRouter.history (putIn c) newMapEventRouter actions).Sublist
    (eventRouter.history broadcastIn newMapEventRouter actions)
  /-- The loop that relays an event can always go on with any client that is left. -/
  notBlocked : ∀ e left, final.panicked = none → final.run = .relaying e left →
    left.Nonempty ∧ ∀ c ∈ left, (routerStep final (.relay c)).isSome
  /-- In a run that differs in what the others do with their channels a client gets and takes the
  same. -/
  apart : ∀ c otherActions otherFinal,
    eventRouter.Runs newMapEventRouter otherActions otherFinal →
    otherActions.filter (RouterAction.concerns c) = actions.filter (RouterAction.concerns c) →
    eventRouter.history (gotIn c) newMapEventRouter otherActions =
      eventRouter.history (gotIn c) newMapEventRouter actions

/-- Every run delivers. -/
theorem eventRouter_delivers (actions : List (RouterAction Payload)) (final : RouterState Payload)
    (run : eventRouter.Runs newMapEventRouter actions final) : Delivers actions final where
  inOrder := broadcast_eq run
  connected := mem_clients_iff run
  offered := takenFor_eq run
  got := put_eq run
  once c := by
    have offers := takenFor_eq run c
    have taken := takenFor_sublist run c
    rw [offers] at taken
    rw [put_eq run c, broadcast_eq run]
    exact ((List.filter_sublist.map Prod.fst).trans (List.sublist_append_left _ _)).trans
      (taken.trans (List.sublist_append_left _ _))
  notBlocked e left live relaying := by
    have made : ChannelsMade final := run.always
      (fun before transition => before.preserved (routerTransition_of_step transition).2)
      ChannelsMade.initial
    exact ⟨(made.relayed e left relaying).1, fun c member => made.relay_isSome live relaying member⟩
  apart c otherActions otherFinal otherRun same := by
    obtain ⟨_, _, mine⟩ := got_eq run c
    obtain ⟨_, _, others⟩ := got_eq otherRun c
    rw [mine, others, same]

/-- A client that comes after the first event. -/
def lateClient : List (RouterAction Unit) :=
  [.dial, .Connect 0, .takeConnect, .Broadcast ⟨"updateLayers", ()⟩, .takeEvent, .relay 0, .dial,
    .Connect 1, .takeConnect, .Broadcast ⟨"message", ()⟩, .takeEvent, .relay 1, .relay 0,
    .clientReceive 0]

theorem eventRouter_delivers_lateClient : ∃ final : RouterState Unit,
    eventRouter.Runs newMapEventRouter lateClient final ∧ Delivers lateClient final ∧
      (eventRouter.history (putIn 0) newMapEventRouter lateClient).map MapEvent.Action =
        ["updateLayers", "message"] ∧
      (eventRouter.history (putIn 1) newMapEventRouter lateClient).map MapEvent.Action =
        ["message"] := by
  have executes : (eventRouter.exec newMapEventRouter lateClient).isSome := by decide
  have run := Machine.runs_exec_get executes
  exact ⟨_, run, eventRouter_delivers lateClient _ run, by decide, by decide⟩

end WebChunk.Server
