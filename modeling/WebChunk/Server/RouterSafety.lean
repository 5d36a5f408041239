import WebChunk.Server.EventRouter

/-!
# Channel safety of the event router

As long as `Run` hears of a client's connection before it hears that the client has
left, it has the client's channel in its map from then until it closes it, and it closes
it once.
-/

namespace WebChunk.Server

open WebChunk.Go WebChunk.Semantics

variable {Payload : Type}

/-- `Run` has neither sent on a closed channel nor closed one twice. -/
def RunSafe (s : RouterState Payload) : Prop :=
  s.panicked ≠ some .sendOnClosed ∧ s.panicked ≠ some .closeOfClosed

/-- A channel is taken from `disconnect` only when it does not wait in `connect`. -/
def hearsInOrder (s : RouterState Payload) : RouterAction Payload → Bool
  | .takeDisconnect =>
      match s.disconnect.buffer with
      | c :: _ => !s.connect.buffer.contains c
      | [] => true
  | _ => true

/-- The branches of `routerStep`. -/
inductive RouterTransition (s : RouterState Payload) :
    RouterAction Payload → RouterState Payload → Prop where
  | dials : RouterTransition s .dial s.dial
  | connects {c : Nat} {h : Client Payload} {connect : Chan Nat}
      (found : s.handlers[c]? = some h) (connecting : h.phase = .connecting)
      (sent : s.connect.send c = .sent connect) :
      RouterTransition s (.Connect c) ({ s with connect := connect }.setPhase c .connected)
  | clientPanics {c : Nat} {e : MapEvent Payload} {h : Client Payload}
      (found : s.handlers[c]? = some h) (isClosed : h.c.closed = true) :
      RouterTransition s (.clientSend c e) (s.panic .clientSendOnClosed)
  | clientSends {c : Nat} {e : MapEvent Payload} {h : Client Payload} {ch : Chan (MapEvent Payload)}
      (found : s.handlers[c]? = some h) (sent : h.c.send e = .sent ch) :
      RouterTransition s (.clientSend c e) (s.setChannel c ch)
  | clientReceives {c : Nat} {h : Client Payload} {e : MapEvent Payload}
      {ch : Chan (MapEvent Payload)} (found : s.handlers[c]? = some h)
      (received : h.c.receive = .received e ch) :
      RouterTransition s (.clientReceive c) (s.setChannel c ch)
  | leaves {c : Nat} {h : Client Payload} (found : s.handlers[c]? = some h)
      (connected : h.phase = .connected) :
      RouterTransition s (.leave c) (s.setPhase c .disconnecting)
  | disconnects {c : Nat} {h : Client Payload} {disconnect : Chan Nat}
      (found : s.handlers[c]? = some h) (disconnecting : h.phase = .disconnecting)
      (sent : s.disconnect.send c = .sent disconnect) :
      RouterTransition s (.Disconnect c) ({ s with disconnect := disconnect }.setPhase c .gone)
  | broadcasts {e : MapEvent Payload} {events : Chan (MapEvent Payload)}
      (sent : s.events.send e = .sent events) :
      RouterTransition s (.Broadcast e) { s with events := events }
  | stops {exitchan : Chan Unit} (sent : s.exitchan.send () = .sent exitchan) :
      RouterTransition s .stop { s with exitchan := exitchan }
  | exits {u : Unit} {exitchan : Chan Unit} (selecting : s.run = .selecting)
      (received : s.exitchan.receive = .received u exitchan) :
      RouterTransition s .takeExit { s with exitchan := exitchan, run := .closeLeft s.clients.keys }
  | enters {c : Nat} {connect : Chan Nat} (selecting : s.run = .selecting)
      (received : s.connect.receive = .received c connect) :
      RouterTransition s .takeConnect
        { s with connect := connect, clients := s.clients.set c true }
  | drops {c : Nat} {disconnect : Chan Nat} {h : Client Payload} (selecting : s.run = .selecting)
      (received : s.disconnect.receive = .received c disconnect)
      (found : s.handlers[c]? = some h) (isOpen : h.c.closed = false) :
      RouterTransition s .takeDisconnect
        ({ s with disconnect := disconnect, clients := s.clients.delete c }.setChannel c h.c.close)
  | dropPanics {c : Nat} {disconnect : Chan Nat} {h : Client Payload}
      (selecting : s.run = .selecting)
      (received : s.disconnect.receive = .received c disconnect)
      (found : s.handlers[c]? = some h) (isClosed : h.c.closed = true) :
      RouterTransition s .takeDisconnect
        ({ s with disconnect := disconnect, clients := s.clients.delete c }.panic .closeOfClosed)
  | takesEvent {e : MapEvent Payload} {events : Chan (MapEvent Payload)}
      (selecting : s.run = .selecting) (received : s.events.receive = .received e events) :
      RouterTransition s .takeEvent
        { s with events := events, run := .relayLeft e s.clients.keys }
  | relays {c : Nat} {e : MapEvent Payload} {left : Finset Nat} {h : Client Payload}
      {ch : Chan (MapEvent Payload)} (relaying : s.run = .relaying e left) (member : c ∈ left)
      (found : s.handlers[c]? = some h) (sent : h.c.send e = .sent ch) :
      RouterTransition s (.relay c)
        ({ s with run := .relayLeft e (left.erase c) }.setChannel c ch)
  | relayDrops {c : Nat} {e : MapEvent Payload} {left : Finset Nat} {h : Client Payload}
      (relaying : s.run = .relaying e left) (member : c ∈ left)
      (found : s.handlers[c]? = some h) :
      RouterTransition s (.relay c) { s with run := .relayLeft e (left.erase c) }
  | relayPanics {c : Nat} {e : MapEvent Payload} {left : Finset Nat} {h : Client Payload}
      (relaying : s.run = .relaying e left) (member : c ∈ left)
      (found : s.handlers[c]? = some h) (isClosed : h.c.closed = true) :
      RouterTransition s (.relay c) (s.panic .sendOnClosed)
  | closes {c : Nat} {left : Finset Nat} {h : Client Payload} (closing : s.run = .closing left)
      (member : c ∈ left) (found : s.handlers[c]? = some h) (isOpen : h.c.closed = false) :
      RouterTransition s (.closeNext c)
        ({ s with run := .closeLeft (left.erase c) }.setChannel c h.c.close)
  | closePanics {c : Nat} {left : Finset Nat} {h : Client Payload} (closing : s.run = .closing left)
      (member : c ∈ left) (found : s.handlers[c]? = some h) (isClosed : h.c.closed = true) :
      RouterTransition s (.closeNext c) (s.panic .closeOfClosed)

variable {s next : RouterState Payload} {action : RouterAction Payload}

/-- Inversion of `routerStep`: it takes one of the branches, in a live process. -/
theorem routerTransition_of_step (transition : routerStep s action = some next) :
    s.panicked = none ∧ RouterTransition s action next := by
  unfold routerStep at transition
  split at transition
  · cases transition
  rename_i live
  refine ⟨by simpa using live, ?_⟩
  cases action with
  | dial =>
      cases transition
      exact .dials
  | Connect c =>
      simp only [RouterState.Connect] at transition
      split at transition
      · split at transition <;> cases transition
        exact .connects (by assumption) rfl (by assumption)
      · cases transition
  | clientSend c e =>
      simp only [RouterState.clientSend] at transition
      split at transition
      · rename_i ch found
        split at transition <;> cases transition
        · exact .clientPanics found (Chan.send_panics_iff.mp (by assumption))
        · exact .clientSends found (by assumption)
      · cases transition
  | clientReceive c =>
      simp only [RouterState.clientReceive] at transition
      split at transition
      · split at transition <;> cases transition
        exact .clientReceives (by assumption) (by assumption)
      · cases transition
  | leave c =>
      simp only [RouterState.leave] at transition
      split at transition <;> cases transition
      exact .leaves (by assumption) rfl
  | Disconnect c =>
      simp only [RouterState.Disconnect] at transition
      split at transition
      · split at transition <;> cases transition
        exact .disconnects (by assumption) rfl (by assumption)
      · cases transition
  | Broadcast e =>
      simp only [RouterState.Broadcast] at transition
      split at transition <;> cases transition
      exact .broadcasts (by assumption)
  | stop =>
      simp only [RouterState.stop] at transition
      split at transition <;> cases transition
      exact .stops (by assumption)
  | takeExit =>
      simp only [RouterState.takeExit] at transition
      split at transition <;> cases transition
      exact .exits (by assumption) (by assumption)
  | takeConnect =>
      simp only [RouterState.takeConnect] at transition
      split at transition <;> cases transition
      exact .enters (by assumption) (by assumption)
  | takeDisconnect =>
      simp only [RouterState.takeDisconnect] at transition
      split at transition
      · rename_i selecting received
        split at transition
        · cases transition
        · rename_i found
          split at transition <;> cases transition
          · exact .dropPanics selecting received found (by assumption)
          · exact .drops selecting received found (by simp_all)
      · cases transition
  | takeEvent =>
      simp only [RouterState.takeEvent] at transition
      split at transition <;> cases transition
      exact .takesEvent (by assumption) (by assumption)
  | relay c =>
      simp only [RouterState.relay] at transition
      split at transition
      · rename_i relaying found
        split at transition
        · rename_i member
          split at transition <;> cases transition
          · exact .relayDrops relaying member found
          · exact .relayPanics relaying member found (Chan.send_panics_iff.mp (by assumption))
          · exact .relays relaying member found (by assumption)
        · cases transition
      · cases transition
  | closeNext c =>
      simp only [RouterState.closeNext] at transition
      split at transition
      · rename_i closing found
        split at transition
        · rename_i member
          split at transition <;> cases transition
          · exact .closePanics closing member found (by assumption)
          · exact .closes closing member found (by simp_all)
        · cases transition
      · cases transition

/-- The channels that `Run` may still send on or close. -/
def RunPhase.uses (clients : Map Nat Bool) : RunPhase Payload → Finset Nat
  | .selecting | .relaying _ _ => clients.keys
  | .closing left => left
  | .returned => ∅

/-- The clients that `Run` visits are in its map. -/
def RunPhase.within (clients : Map Nat Bool) : RunPhase Payload → Prop
  | .relaying _ left | .closing left => left ⊆ clients.keys
  | _ => True

@[simp] theorem uses_relayLeft (clients : Map Nat Bool) (e : MapEvent Payload)
    (left : Finset Nat) : (RunPhase.relayLeft e left).uses clients = clients.keys := by
  unfold RunPhase.relayLeft
  split <;> rfl

theorem within_relayLeft {clients : Map Nat Bool} {e : MapEvent Payload} {left : Finset Nat}
    (inside : left ⊆ clients.keys) : (RunPhase.relayLeft e left).within clients := by
  unfold RunPhase.relayLeft
  split
  · trivial
  · exact inside

@[simp] theorem uses_closeLeft (clients : Map Nat Bool) (left : Finset Nat) :
    (RunPhase.closeLeft left : RunPhase Payload).uses clients = left := by
  unfold RunPhase.closeLeft
  split
  · rename_i empty
    exact empty.symm
  · rfl

theorem within_closeLeft {clients : Map Nat Bool} {left : Finset Nat}
    (inside : left ⊆ clients.keys) :
    (RunPhase.closeLeft left : RunPhase Payload).within clients := by
  unfold RunPhase.closeLeft
  split
  · trivial
  · exact inside

namespace RouterState

/-- The client has called `Connect`, and `Run` has not heard that it left. -/
def listed (s : RouterState Payload) (c : Nat) : Prop :=
  c ∈ s.connect.buffer ∨ c ∈ s.clients.keys

def phaseOf (s : RouterState Payload) (c : Nat) : Option ClientPhase :=
  (s.handlers[c]?).map Client.phase

def hasOpenChannel (s : RouterState Payload) (c : Nat) : Prop :=
  ∃ h, s.handlers[c]? = some h ∧ h.c.closed = false

@[simp] theorem phaseOf_setChannel (s : RouterState Payload) (c other : Nat)
    (ch : Chan (MapEvent Payload)) : (s.setChannel c ch).phaseOf other = s.phaseOf other := by
  simp only [phaseOf, setChannel, List.getElem?_modify]
  split <;> simp [Function.comp_def]

theorem phaseOf_setPhase {c : Nat} {h : Client Payload} (found : s.handlers[c]? = some h)
    (phase : ClientPhase) (other : Nat) :
    (s.setPhase c phase).phaseOf other = if other = c then some phase else s.phaseOf other := by
  simp only [phaseOf, setPhase, List.getElem?_modify]
  by_cases same : c = other
  · subst same
    simp [found]
  · simp [same, Ne.symm same]

@[simp] theorem hasOpenChannel_setPhase (s : RouterState Payload) (c other : Nat)
    (phase : ClientPhase) : (s.setPhase c phase).hasOpenChannel other ↔ s.hasOpenChannel other := by
  simp only [hasOpenChannel, setPhase, List.getElem?_modify]
  cases s.handlers[other]? with
  | none => simp
  | some h => by_cases same : c = other <;> simp [same]

/-- A channel that is not closed by the change stays open. -/
theorem hasOpenChannel.setChannel {c other : Nat} {ch : Chan (MapEvent Payload)}
    (isOpen : s.hasOpenChannel other) (keeps : other = c → ch.closed = false) :
    (s.setChannel c ch).hasOpenChannel other := by
  obtain ⟨h, found, openBefore⟩ := isOpen
  by_cases same : c = other
  · exact ⟨{ h with c := ch }, by simp [RouterState.setChannel, same, found], keeps same.symm⟩
  · exact ⟨h, by simp [RouterState.setChannel, same, found], openBefore⟩

/-- The channels of the others are left alone. -/
theorem hasOpenChannel.setChannel_of_ne {c other : Nat} {ch : Chan (MapEvent Payload)}
    (isOpen : s.hasOpenChannel other) (different : other ≠ c) :
    (s.setChannel c ch).hasOpenChannel other :=
  isOpen.setChannel fun same => absurd same different

end RouterState

/-- What holds as long as `Run` hears of the clients in order. A client that has called
`Connect` is announced or in the map until `Run` hears that it has left. -/
structure RouterKept (s : RouterState Payload) : Prop where
  safe : RunSafe s
  once : s.connect.buffer.Nodup
  fresh : ∀ c ∈ s.connect.buffer, c ∉ s.clients.keys
  called : ∀ c, s.listed c → ∃ phase, s.phaseOf c = some phase ∧ phase ≠ .connecting
  known : ∀ c, s.phaseOf c = some .connected ∨ s.phaseOf c = some .disconnecting → s.listed c
  fresher : ∀ c, s.phaseOf c = some .connecting → s.hasOpenChannel c
  leftOnce : s.disconnect.buffer.Nodup
  left : ∀ c ∈ s.disconnect.buffer, s.listed c ∧ s.phaseOf c = some .gone
  within : s.run.within s.clients
  isOpen : ∀ c, c ∈ s.connect.buffer ∨ c ∈ s.run.uses s.clients → s.hasOpenChannel c

namespace RouterKept

/-- A handler's channel takes or yields an event. -/
theorem setChannel (kept : RouterKept s) {c : Nat} {ch : Chan (MapEvent Payload)}
    (isOpen : s.hasOpenChannel c → ch.closed = false) : RouterKept (s.setChannel c ch) where
  safe := kept.safe
  once := kept.once
  fresh := kept.fresh
  called other listed := by
    rw [RouterState.phaseOf_setChannel]
    exact kept.called other listed
  known other phase := by
    rw [RouterState.phaseOf_setChannel] at phase
    exact kept.known other phase
  fresher other phase := by
    rw [RouterState.phaseOf_setChannel] at phase
    exact (kept.fresher other phase).setChannel fun same => isOpen (same ▸ kept.fresher other phase)
  leftOnce := kept.leftOnce
  left other member := by
    rw [RouterState.phaseOf_setChannel]
    exact kept.left other member
  within := kept.within
  isOpen other used :=
    (kept.isOpen other used).setChannel fun same => isOpen (same ▸ kept.isOpen other used)

/-- A new handler has made its channel. -/
theorem dials (kept : RouterKept s) : RouterKept s.dial := by
  have older : ∀ c phase, s.phaseOf c = some phase → s.dial.phaseOf c = some phase := by
    intro c phase known
    obtain ⟨h, found, rfl⟩ := Option.map_eq_some_iff.mp known
    exact congrArg (Option.map Client.phase) (getElem?_concat_of_some found)
  have newer : ∀ c phase, s.dial.phaseOf c = some phase →
      s.phaseOf c = some phase ∨ phase = .connecting ∧ s.dial.hasOpenChannel c := by
    intro c phase known
    obtain ⟨h, found, rfl⟩ := Option.map_eq_some_iff.mp known
    rcases getElem?_concat_some found with old | ⟨_, rfl⟩
    · exact .inl (by simp [RouterState.phaseOf, old])
    · exact .inr ⟨rfl, _, found, rfl⟩
  have stillOpen : ∀ c, s.hasOpenChannel c → s.dial.hasOpenChannel c := by
    rintro c ⟨h, found, isOpen⟩
    exact ⟨h, getElem?_concat_of_some found, isOpen⟩
  exact
    { kept with
      called := fun c listed => by
        obtain ⟨phase, known, called⟩ := kept.called c listed
        exact ⟨phase, older c phase known, called⟩
      known := fun c known => by
        rcases known with known | known <;> rcases newer c _ known with old | ⟨new, _⟩
        · exact kept.known c (.inl old)
        · cases new
        · exact kept.known c (.inr old)
        · cases new
      fresher := fun c known => by
        rcases newer c _ known with old | ⟨_, isOpen⟩
        · exact stillOpen c (kept.fresher c old)
        · exact isOpen
      left := fun c member =>
        ⟨(kept.left c member).1, older c _ (kept.left c member).2⟩
      isOpen := fun c used => stillOpen c (kept.isOpen c used) }

/-- Whoever was listed has called `Connect` also after a client has moved on. -/
theorem called_of_moved (kept : RouterKept s) {c : Nat} {phase : ClientPhase}
    (phases : ∀ other, next.phaseOf other = if other = c then some phase else s.phaseOf other)
    (moved : phase ≠ .connecting) {other : Nat} (listed : s.listed other) :
    ∃ phase, next.phaseOf other = some phase ∧ phase ≠ .connecting := by
  rw [phases]
  split
  · exact ⟨phase, rfl, moved⟩
  · exact kept.called other listed

/-- A client that moves on leaves the channels of new handlers open. -/
theorem fresher_of_moved (kept : RouterKept s) {c : Nat} {phase : ClientPhase}
    (phases : ∀ other, next.phaseOf other = if other = c then some phase else s.phaseOf other)
    (moved : phase ≠ .connecting)
    (channels : ∀ other, next.hasOpenChannel other ↔ s.hasOpenChannel other) {other : Nat}
    (known : next.phaseOf other = some .connecting) : next.hasOpenChannel other := by
  rw [phases] at known
  split at known
  · exact absurd (Option.some.inj known) moved
  · exact (channels other).mpr (kept.fresher other known)

/-- The client's channel goes into `connect`. -/
theorem connects (kept : RouterKept s) {c : Nat} {h : Client Payload} {connect : Chan Nat}
    (found : s.handlers[c]? = some h) (connecting : h.phase = .connecting)
    (sent : s.connect.send c = .sent connect) :
    RouterKept ({ s with connect := connect }.setPhase c .connected) := by
  obtain ⟨_, rfl⟩ := Chan.send_sent sent
  have phase : s.phaseOf c = some .connecting := by simp [RouterState.phaseOf, found, connecting]
  have unlisted : ¬ s.listed c := by
    intro listed
    obtain ⟨_, known, notConnecting⟩ := kept.called c listed
    cases phase.symm.trans known
    exact notConnecting rfl
  let later : RouterState Payload :=
    { s with connect := { s.connect with buffer := s.connect.buffer ++ [c] } }
  have phases : ∀ other, (later.setPhase c .connected).phaseOf other =
      if other = c then some .connected else s.phaseOf other :=
    RouterState.phaseOf_setPhase (s := later) found .connected
  have listed : ∀ other, (later.setPhase c .connected).listed other ↔
      s.listed other ∨ other = c := by
    intro other
    simp only [RouterState.listed, RouterState.setPhase, later, List.mem_append,
      List.mem_singleton]
    tauto
  have channels : ∀ other, (later.setPhase c .connected).hasOpenChannel other ↔
      s.hasOpenChannel other :=
    fun other => RouterState.hasOpenChannel_setPhase later c other .connected
  exact
    { kept with
      once := List.nodup_append.mpr ⟨kept.once, List.nodup_singleton c,
        fun other member _ same => by
        rintro rfl
        exact unlisted (.inl (List.mem_singleton.mp same ▸ member))⟩
      fresh := fun other member => by
        rcases List.mem_append.mp member with old | new
        · exact kept.fresh other old
        · rw [List.mem_singleton.mp new]
          exact fun inMap => unlisted (.inr inMap)
      called := fun other later => by
        rcases (listed other).mp later with before | rfl
        · exact kept.called_of_moved phases (by simp) before
        · exact ⟨.connected, by rw [phases, if_pos rfl], by simp⟩
      known := fun other known => by
        rw [phases] at known
        rw [listed]
        split at known
        · exact .inr (by assumption)
        · exact .inl (kept.known other known)
      fresher := fun other known => kept.fresher_of_moved phases (by simp) channels known
      left := fun other member => by
        obtain ⟨before, gone⟩ := kept.left other member
        have different : other ≠ c := fun same => unlisted (same ▸ before)
        rw [listed, phases, if_neg different]
        exact ⟨.inl before, gone⟩
      isOpen := fun other used => by
        rw [channels]
        rcases used with queued | used
        · rcases List.mem_append.mp queued with old | new
          · exact kept.isOpen other (.inl old)
          · rw [List.mem_singleton.mp new]
            exact kept.fresher c phase
        · exact kept.isOpen other (.inr used) }

/-- A client calls `Disconnect`. -/
theorem leaves (kept : RouterKept s) {c : Nat} {h : Client Payload}
    (found : s.handlers[c]? = some h) (connected : h.phase = .connected) :
    RouterKept (s.setPhase c .disconnecting) := by
  have phase : s.phaseOf c = some .connected := by simp [RouterState.phaseOf, found, connected]
  have phases := RouterState.phaseOf_setPhase found .disconnecting
  have channels := fun other => RouterState.hasOpenChannel_setPhase s c other .disconnecting
  exact
    { kept with
      called := fun other listed => kept.called_of_moved phases (by simp) listed
      known := fun other known => by
        rw [phases] at known
        split at known
        · rename_i same
          exact same ▸ kept.known c (.inl phase)
        · exact kept.known other known
      fresher := fun other known => kept.fresher_of_moved phases (by simp) channels known
      left := fun other member => by
        obtain ⟨listed, gone⟩ := kept.left other member
        have different : other ≠ c := by
          rintro rfl
          cases phase.symm.trans gone
        rw [phases, if_neg different]
        exact ⟨listed, gone⟩
      isOpen := fun other used => (channels other).mpr (kept.isOpen other used) }

/-- The client's channel goes into `disconnect`. -/
theorem disconnects (kept : RouterKept s) {c : Nat} {h : Client Payload} {disconnect : Chan Nat}
    (found : s.handlers[c]? = some h) (disconnecting : h.phase = .disconnecting)
    (sent : s.disconnect.send c = .sent disconnect) :
    RouterKept ({ s with disconnect := disconnect }.setPhase c .gone) := by
  obtain ⟨_, rfl⟩ := Chan.send_sent sent
  have phase : s.phaseOf c = some .disconnecting := by
    simp [RouterState.phaseOf, found, disconnecting]
  have absent : c ∉ s.disconnect.buffer := by
    intro member
    cases phase.symm.trans (kept.left c member).2
  let later : RouterState Payload :=
    { s with disconnect := { s.disconnect with buffer := s.disconnect.buffer ++ [c] } }
  have phases : ∀ other, (later.setPhase c .gone).phaseOf other =
      if other = c then some .gone else s.phaseOf other :=
    RouterState.phaseOf_setPhase (s := later) found .gone
  have channels : ∀ other, (later.setPhase c .gone).hasOpenChannel other ↔
      s.hasOpenChannel other :=
    fun other => RouterState.hasOpenChannel_setPhase later c other .gone
  exact
    { kept with
      called := fun other listed => kept.called_of_moved phases (by simp) listed
      known := fun other known => by
        rw [phases] at known
        split at known
        · simp at known
        · exact kept.known other known
      fresher := fun other known => kept.fresher_of_moved phases (by simp) channels known
      leftOnce := List.nodup_append.mpr ⟨kept.leftOnce, List.nodup_singleton c,
        fun other member _ same => by
          rintro rfl
          exact absent (List.mem_singleton.mp same ▸ member)⟩
      left := fun other member => by
        rw [phases]
        rcases List.mem_append.mp member with old | new
        · obtain ⟨listed, gone⟩ := kept.left other old
          refine ⟨listed, ?_⟩
          split
          · rfl
          · exact gone
        · rw [List.mem_singleton.mp new, if_pos rfl]
          exact ⟨kept.known c (.inr phase), rfl⟩
      isOpen := fun other used => (channels other).mpr (kept.isOpen other used) }

/-- `Run` hears of a client. -/
theorem enters (kept : RouterKept s) {c : Nat} {connect : Chan Nat}
    (selecting : s.run = .selecting) (received : s.connect.receive = .received c connect) :
    RouterKept { s with connect := connect, clients := s.clients.set c true } := by
  have front := (Chan.receive_received received).1
  have once := kept.once
  rw [front, List.nodup_cons] at once
  have inMap : ∀ other,
      other ∈ (s.clients.set c true).keys ↔ other = c ∨ other ∈ s.clients.keys := by
    intro other
    simp [Map.set]
  have listed : ∀ other, RouterState.listed
      { s with connect := connect, clients := s.clients.set c true } other ↔ s.listed other := by
    intro other
    simp only [RouterState.listed, inMap, front, List.mem_cons]
    tauto
  exact
    { kept with
      once := once.2
      fresh := fun other member => by
        rw [inMap]
        rintro (rfl | old)
        · exact once.1 member
        · exact kept.fresh other (front ▸ List.mem_cons_of_mem _ member) old
      called := fun other later => kept.called other ((listed other).mp later)
      known := fun other known => (listed other).mpr (kept.known other known)
      left := fun other member =>
        ⟨(listed other).mpr (kept.left other member).1, (kept.left other member).2⟩
      within := by
        rw [selecting]
        trivial
      isOpen := fun other used => by
        rw [selecting] at used
        have known : other ∈ s.connect.buffer ∨ other ∈ s.clients.keys := by
          rw [front, List.mem_cons]
          rcases used with queued | used
          · exact .inl (.inr queued)
          · rcases (inMap other).mp used with same | old
            · exact .inl (.inl same)
            · exact .inr old
        exact kept.isOpen other (by rw [selecting]; exact known) }

/-- `Run` hears that a client has left, which it knows. -/
theorem drops (kept : RouterKept s) {c : Nat} {disconnect : Chan Nat} {ch : Chan (MapEvent Payload)}
    (selecting : s.run = .selecting) (received : s.disconnect.receive = .received c disconnect)
    (inOrder : c ∉ s.connect.buffer) :
    RouterKept ({ s with
      disconnect := disconnect, clients := s.clients.delete c }.setChannel c ch) := by
  have front := (Chan.receive_received received).1
  have once := kept.leftOnce
  rw [front, List.nodup_cons] at once
  have gone : s.phaseOf c = some .gone :=
    (kept.left c (front ▸ List.mem_cons_self)).2
  let later : RouterState Payload :=
    { s with disconnect := disconnect, clients := s.clients.delete c }
  have inMap : ∀ other, other ∈ (s.clients.delete c).keys ↔ other ∈ s.clients.keys ∧ other ≠ c := by
    intro other
    simp [Map.delete]
  have listed : ∀ other, s.listed other → other ≠ c → (later.setChannel c ch).listed other :=
    fun other before different => before.imp id fun old => (inMap other).mpr ⟨old, different⟩
  have phases : ∀ other, (later.setChannel c ch).phaseOf other = s.phaseOf other :=
    fun other => RouterState.phaseOf_setChannel later c other ch
  have channels : ∀ other, s.hasOpenChannel other → other ≠ c →
      (later.setChannel c ch).hasOpenChannel other :=
    fun other isOpen different =>
      RouterState.hasOpenChannel.setChannel_of_ne (s := later) isOpen different
  exact
    { kept with
      fresh := fun other member used => kept.fresh other member ((inMap other).mp used).1
      called := fun other after => by
        rw [phases]
        exact kept.called other (after.imp id fun used => ((inMap other).mp used).1)
      known := fun other known => by
        rw [phases] at known
        refine listed other (kept.known other known) ?_
        rintro rfl
        simp [gone] at known
      fresher := fun other known => by
        rw [phases] at known
        refine channels other (kept.fresher other known) ?_
        rintro rfl
        simp [gone] at known
      leftOnce := once.2
      left := fun other member => by
        obtain ⟨before, otherGone⟩ := kept.left other (front ▸ List.mem_cons_of_mem _ member)
        have different : other ≠ c := fun same => once.1 (same ▸ member)
        rw [phases]
        exact ⟨listed other before different, otherGone⟩
      within := by
        change s.run.within _
        rw [selecting]
        trivial
      isOpen := fun other used => by
        rcases used with queued | used
        · exact channels other (kept.isOpen other (.inl queued)) fun same =>
            inOrder (same ▸ queued)
        · change other ∈ s.run.uses (s.clients.delete c) at used
          rw [selecting] at used
          obtain ⟨old, different⟩ := (inMap other).mp used
          exact channels other (kept.isOpen other (.inr (by rw [selecting]; exact old))) different }

/-- `Run` goes on with other clients to visit. -/
theorem visits (kept : RouterKept s) {run : RunPhase Payload} (within : run.within s.clients)
    (uses : run.uses s.clients ⊆ s.run.uses s.clients) : RouterKept { s with run := run } :=
  { kept with
    within := within
    isOpen := fun c used => kept.isOpen c (used.imp id fun used => uses used) }

/-- One client less to relay an event to. -/
theorem relayNext (kept : RouterKept s) {e : MapEvent Payload} {left : Finset Nat}
    (relaying : s.run = .relaying e left) (c : Nat) :
    RouterKept { s with run := .relayLeft e (left.erase c) } := by
  have inside : left ⊆ s.clients.keys := by
    have within := kept.within
    rwa [relaying] at within
  refine kept.visits (within_relayLeft ((Finset.erase_subset c left).trans inside)) ?_
  rw [uses_relayLeft, relaying]
  exact Finset.Subset.refl _

/-- `Run` closes the channel of a client that it has yet to visit. -/
theorem closes (kept : RouterKept s) {c : Nat} {left : Finset Nat} {ch : Chan (MapEvent Payload)}
    (closing : s.run = .closing left) (member : c ∈ left) :
    RouterKept ({ s with run := .closeLeft (left.erase c) }.setChannel c ch) := by
  have inside : left ⊆ s.clients.keys := by
    have within := kept.within
    rwa [closing] at within
  let later : RouterState Payload := { s with run := .closeLeft (left.erase c) }
  have phases : ∀ other, (later.setChannel c ch).phaseOf other = s.phaseOf other :=
    fun other => RouterState.phaseOf_setChannel later c other ch
  have channels : ∀ other, s.hasOpenChannel other → other ≠ c →
      (later.setChannel c ch).hasOpenChannel other :=
    fun other isOpen different =>
      RouterState.hasOpenChannel.setChannel_of_ne (s := later) isOpen different
  have called : ∃ phase, s.phaseOf c = some phase ∧ phase ≠ .connecting :=
    kept.called c (.inr (inside member))
  exact
    { kept with
      called := fun other listed => by
        rw [phases]
        exact kept.called other listed
      known := fun other known => kept.known other (by rwa [phases] at known)
      fresher := fun other known => by
        rw [phases] at known
        refine channels other (kept.fresher other known) ?_
        rintro rfl
        obtain ⟨phase, same, notConnecting⟩ := called
        exact notConnecting (Option.some.inj (same.symm.trans known))
      left := fun other member => by
        rw [phases]
        exact kept.left other member
      within := within_closeLeft ((Finset.erase_subset c left).trans inside)
      isOpen := fun other used => by
        rcases used with queued | used
        · refine channels other (kept.isOpen other (.inl queued)) ?_
          rintro rfl
          exact kept.fresh other queued (inside member)
        · change other ∈ (RunPhase.closeLeft (left.erase c)).uses s.clients at used
          rw [uses_closeLeft, Finset.mem_erase] at used
          refine channels other (kept.isOpen other (.inr ?_)) used.1
          rw [closing]
          exact used.2 }

/-- A channel that `Run` may still use is open, so it does not panic. -/
theorem notClosed (kept : RouterKept s) {c : Nat} {h : Client Payload}
    (found : s.handlers[c]? = some h) (used : c ∈ s.run.uses s.clients) : h.c.closed = false := by
  obtain ⟨_, same, isOpen⟩ := kept.isOpen c (.inr used)
  cases found.symm.trans same
  exact isOpen

/-- The step lemma of the router. -/
theorem preserved (kept : RouterKept s) (inOrder : hearsInOrder s action = true)
    (transition : RouterTransition s action next) : RouterKept next := by
  cases transition with
  | dials => exact kept.dials
  | connects found connecting sent => exact kept.connects found connecting sent
  | clientPanics _ _ =>
      exact { kept with safe := ⟨by simp [RouterState.panic], by simp [RouterState.panic]⟩ }
  | clientSends _ sent =>
      obtain ⟨isOpen, rfl⟩ := Chan.send_sent sent
      exact kept.setChannel fun _ => isOpen
  | clientReceives found received =>
      refine kept.setChannel fun isOpen => ?_
      obtain ⟨_, same, openBefore⟩ := isOpen
      cases found.symm.trans same
      exact (Chan.receive_received received).2.trans openBefore
  | leaves found connected => exact kept.leaves found connected
  | disconnects found disconnecting sent => exact kept.disconnects found disconnecting sent
  | broadcasts _ => exact { kept with }
  | stops _ => exact { kept with }
  | exits selecting _ =>
      have visited := kept.visits (within_closeLeft (Finset.Subset.refl s.clients.keys)) (by
        rw [uses_closeLeft, selecting]
        exact Finset.Subset.refl _)
      exact { visited with }
  | enters selecting received => exact kept.enters selecting received
  | drops selecting received found isOpen =>
      have front := (Chan.receive_received received).1
      simp only [hearsInOrder, front, Bool.not_eq_true', List.contains_eq_mem,
        decide_eq_false_iff_not] at inOrder
      exact kept.drops selecting received inOrder
  | @dropPanics c disconnect h selecting received found isClosed =>
      have front := (Chan.receive_received received).1
      simp only [hearsInOrder, front, Bool.not_eq_true', List.contains_eq_mem,
        decide_eq_false_iff_not] at inOrder
      -- What is not announced any more is in the map, where every channel is open.
      have inMap := (kept.left c (front ▸ List.mem_cons_self)).1.resolve_left inOrder
      have isOpen := kept.notClosed found (by rw [selecting]; exact inMap)
      rw [isOpen] at isClosed
      cases isClosed
  | @takesEvent e events selecting _ =>
      have visited := kept.visits (within_relayLeft (e := e) (Finset.Subset.refl _)) (by
        rw [uses_relayLeft, selecting]
        exact Finset.Subset.refl _)
      exact { visited with }
  | @relays c e left h ch relaying member _ sent =>
      obtain ⟨isOpen, rfl⟩ := Chan.send_sent sent
      exact (kept.relayNext relaying c).setChannel fun _ => isOpen
  | @relayDrops c _ _ _ relaying _ _ => exact kept.relayNext relaying c
  | @relayPanics c e left h relaying member found isClosed =>
      have within := kept.within
      rw [relaying] at within
      have isOpen := kept.notClosed found (by rw [relaying]; exact within member)
      rw [isOpen] at isClosed
      cases isClosed
  | closes closing member _ _ => exact kept.closes closing member
  | closePanics closing member found isClosed =>
      have isOpen := kept.notClosed found (by rw [closing]; exact member)
      rw [isOpen] at isClosed
      cases isClosed

end RouterKept

/-- In every run in which `Run` takes no channel from `disconnect` while it still waits in
`connect`, it neither sends on a closed channel nor closes one twice. -/
theorem eventRouterSafe (actions : List (RouterAction Payload))
    (inOrder : eventRouter.StepsOnly (fun s action => hearsInOrder s action = true)
      newMapEventRouter actions) :
    eventRouter.ReachesOnly RunSafe (newMapEventRouter : RouterState Payload) actions := by
  refine inOrder.reachesOnly RouterKept.safe ?_ ?_
  · intro s action next kept inOrder transition
    exact kept.preserved inOrder (routerTransition_of_step transition).2
  · constructor <;>
      simp [newMapEventRouter, RunSafe, RouterState.listed, RouterState.phaseOf, RunPhase.within,
        RunPhase.uses, Map.empty]

/-- A client that leaves at once: `Run` hears of it first from `disconnect`, then from
`connect`, and then relays an event. -/
def leftAtOnce : List (RouterAction Unit) :=
  [.dial, .Connect 0, .leave 0, .Disconnect 0, .takeDisconnect, .takeConnect,
    .Broadcast ⟨"updateLayers", ()⟩, .takeEvent, .relay 0]

/-- `Run` sends on the channel that it has closed. -/
theorem send_after_disconnect : ∃ (actions : List (RouterAction Unit)) (final : RouterState Unit),
    eventRouter.Runs newMapEventRouter actions final ∧ ¬ RunSafe final := by
  refine ⟨leftAtOnce, _, Machine.runs_exec_get (by decide), fun safe => ?_⟩
  exact absurd safe.1 (by decide)

/-- The client stays until `Run` has heard of it; it gets the event and its channel is
closed once. -/
def leftLater : List (RouterAction Unit) :=
  [.dial, .Connect 0, .takeConnect, .Broadcast ⟨"updateLayers", ()⟩, .takeEvent, .relay 0,
    .clientReceive 0, .leave 0, .Disconnect 0, .takeDisconnect, .stop, .takeExit]

theorem eventRouterSafe_leftLater :
    eventRouter.ReachesOnly RunSafe (newMapEventRouter : RouterState Unit) leftLater :=
  eventRouterSafe leftLater (Machine.stepsOnly_of_checkSteps (by decide))

end WebChunk.Server
