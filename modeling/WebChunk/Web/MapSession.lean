import WebChunk.Web.MapPage

/-!
# A page and its client loop

The page, the client loop of the server, the tile requestors that it has started, and the messages
between them. Both directions deliver in order: the socket, `rQ` and `wQ` are one queue each.
Requestors end in any order.
-/

namespace WebChunk.Web

open WebChunk.ImageCache WebChunk.Server WebChunk.Semantics

/-- What `imageGetSync` gives a requestor. -/
inductive Rendering where
  | picture
  | nothing
  | error
  deriving DecidableEq

/-- What a requestor sends. -/
def Rendering.reply (loc : ImageLocation) : Rendering → ServerMessage
  | .picture => .update loc true
  | .nothing => .update loc false
  | .error => .failure loc

/-- The location that a message of a requestor is about. -/
def ServerMessage.about : ServerMessage → Option ImageLocation
  | .update loc _ | .failure loc => some loc
  | .updateLayers _ | .updateWorldsAndDims _ => none

/-- The locations that a requestor does not give up at once. -/
def named (loc : ImageLocation) : Bool := asyncTileRequestor loc = .rendering

/-- The page, the client loop and what is between them. `events` is what the loop has not relayed
yet, and `rendering` are the locations of the requestors that have not sent their message. -/
structure MapSession where
  page : Page
  events : List ServerMessage
  toServer : List ClientMessage
  subbedTiles : List ImageLocation
  rendering : List ImageLocation
  toPage : List ServerMessage

inductive SessionAction where
  | act (event : Page.PageEvent)
  | relay
  | handle
  | render (i : Nat) (result : Rendering)
  | listen

namespace MapSession

/-- A fresh connection: the handler has put two events into the channel of its client. -/
def connected (layers : List String) (worlds : List (String × List String))
    (search : Option (String × String)) : MapSession where
  page := .blank search
  events := [.updateLayers layers, .updateWorldsAndDims worlds]
  toServer := []
  subbedTiles := []
  rendering := []
  toPage := []

/-- What the page has done and sent. -/
def speak (s : MapSession) (done : Page × List ClientMessage) : MapSession :=
  { s with page := done.1, toServer := s.toServer ++ done.2 }

/-- The client loop relays an event. -/
def relay (s : MapSession) : Option MapSession :=
  match s.events with
  | [] => none
  | m :: rest => some { s with events := rest, toPage := s.toPage ++ [m] }

/-- The client loop takes a message. -/
def handle (s : MapSession) : Option MapSession :=
  match s.toServer with
  | [] => none
  | m :: rest => some { s with
      toServer := rest
      subbedTiles := subscribed s.subbedTiles m
      rendering := s.rendering ++ (requested s.subbedTiles m).filter named }

/-- A requestor sends its message. -/
def render (s : MapSession) (i : Nat) (result : Rendering) : Option MapSession :=
  match s.rendering[i]? with
  | none => none
  | some loc => some { s with
      rendering := s.rendering.eraseIdx i
      toPage := s.toPage ++ [result.reply loc] }

/-- The page takes a message. -/
def listen (s : MapSession) : Option MapSession :=
  match s.toPage with
  | [] => none
  | m :: rest => some ({ s with toPage := rest }.speak (s.page.listen m))

end MapSession

def sessionStep (s : MapSession) : SessionAction → Option MapSession
  | .act event => (s.page.act event).map s.speak
  | .relay => s.relay
  | .handle => s.handle
  | .render i result => s.render i result
  | .listen => s.listen

/-- A page that is connected to the server. -/
def mapSession : Machine MapSession SessionAction := ⟨sessionStep⟩

/-- The branches of `sessionStep`. -/
inductive SessionTransition (s : MapSession) : SessionAction → MapSession → Prop where
  | acts {event : Page.PageEvent} {done : Page × List ClientMessage}
      (acted : s.page.act event = some done) : SessionTransition s (.act event) (s.speak done)
  | relays {m : ServerMessage} {rest : List ServerMessage} (oldest : s.events = m :: rest) :
      SessionTransition s .relay { s with events := rest, toPage := s.toPage ++ [m] }
  | handles {m : ClientMessage} {rest : List ClientMessage} (oldest : s.toServer = m :: rest) :
      SessionTransition s .handle { s with
        toServer := rest
        subbedTiles := subscribed s.subbedTiles m
        rendering := s.rendering ++ (requested s.subbedTiles m).filter named }
  | renders {i : Nat} {result : Rendering} {loc : ImageLocation}
      (found : s.rendering[i]? = some loc) :
      SessionTransition s (.render i result) { s with
        rendering := s.rendering.eraseIdx i
        toPage := s.toPage ++ [result.reply loc] }
  | listens {m : ServerMessage} {rest : List ServerMessage} (oldest : s.toPage = m :: rest) :
      SessionTransition s .listen ({ s with toPage := rest }.speak (s.page.listen m))

/-- Inversion of `sessionStep`. -/
theorem sessionTransition_of_step {s next : MapSession} {action : SessionAction}
    (transition : sessionStep s action = some next) : SessionTransition s action next := by
  cases action with
  | act event =>
      obtain ⟨done, acted, rfl⟩ := Option.map_eq_some_iff.mp transition
      exact .acts acted
  | relay =>
      simp only [sessionStep, MapSession.relay] at transition
      split at transition <;> cases transition
      exact .relays ‹_›
  | handle =>
      simp only [sessionStep, MapSession.handle] at transition
      split at transition <;> cases transition
      exact .handles ‹_›
  | render i result =>
      simp only [sessionStep, MapSession.render] at transition
      split at transition <;> cases transition
      exact .renders ‹_›
  | listen =>
      simp only [sessionStep, MapSession.listen] at transition
      split at transition <;> cases transition
      exact .listens ‹_›

/-! ### What the page says -/

/-- What the page does to its tiles and selectors, and what it tells the server. -/
inductive Spoken (p : Page) : Page → List ClientMessage → Prop where
  | subscribes {tile : Tile} (layer : tile.layerName ∈ p.layers) (fresh : tile ∉ p.mounted) :
      Spoken p { p with
        tiles := Function.update p.tiles tile.key (some ⟨none⟩)
        mounted := p.mounted ++ [tile] } [.tileSubscribe (tile.data p.selection)]
  | unsubscribes {tile : Tile} (held : tile ∈ p.mounted) :
      Spoken p { p with mounted := p.mounted.erase tile }
        [.tileUnsubscribe (tile.data p.selection)]
  | reselects {p' : Page} (mounted : p'.mounted = p.mounted) (tiles : p'.tiles = p.tiles) :
      Spoken p p' [.resubWorldDimension p'.wSelector p'.dSelector]
  | keeps {p' : Page} (mounted : p'.mounted = p.mounted) (tiles : p'.tiles = p.tiles)
      (selection : p'.selection = p.selection) : Spoken p p' []

/-- All names of a list of worlds read back. -/
def AllReadBack (worlds : List (String × List String)) : Prop :=
  ∀ entry ∈ worlds, ReadsBack entry.1 ∧ ∀ dimension ∈ entry.2, ReadsBack dimension

instance (worlds : List (String × List String)) : Decidable (AllReadBack worlds) :=
  inferInstanceAs (Decidable (∀ entry ∈ worlds, _ ∧ ∀ _ ∈ _, _))

theorem mem_of_lookup {worlds : List (String × List String)} {name : String} {dims : List String}
    (found : worlds.lookup name = some dims) : (name, dims) ∈ worlds := by
  obtain ⟨before, after, whole, _⟩ := List.lookup_eq_some_iff.mp found
  rw [whole]
  simp

/-- A name that reads back is selected when it is set. -/
theorem select_eq {names : List String} {name : String} (member : name ∈ names)
    (reads : ReadsBack name) : select names name = name :=
  if_pos (List.mem_map.mpr ⟨name, member, reads⟩)

namespace Page

variable {p p' : Page} {ms : List ClientMessage}

/-- Before the list of worlds the selectors have no options that change anything; afterwards the
name of an option is a key of `worlds`. -/
theorem act_spoken {event : PageEvent} (readBack : AllReadBack p.worlds)
    (done : p.act event = some (p', ms)) :
    Spoken p p' ms ∧ p'.worlds = p.worlds ∧ p'.layers = p.layers ∧
      (p.worlds = [] → p'.wSelector = p.wSelector) := by
  cases event with
  | createTile tile =>
      simp only [act, createTile] at done
      split at done
      · rename_i condition
        cases done
        exact ⟨.subscribes condition.1 condition.2, rfl, rfl, fun _ => rfl⟩
      · cases done
  | handleUnload tile =>
      simp only [act, handleUnload] at done
      split at done
      · rename_i held
        cases done
        exact ⟨.unsubscribes held, rfl, rfl, fun _ => rfl⟩
      · cases done
  | changeDimension value =>
      simp only [act, changeDimension] at done
      split at done
      · cases done
        exact ⟨.reselects rfl rfl, rfl, rfl, fun _ => rfl⟩
      · cases done
  | changeWorld value =>
      simp only [act, changeWorld] at done
      split at done
      · rename_i option
        obtain ⟨name, member, rfl⟩ := List.mem_map.mp option
        obtain ⟨⟨name, dims⟩, entry, rfl⟩ := List.mem_map.mp member
        rw [show optionText name = name from (readBack _ entry).1] at done
        split at done
        · rename_i missing
          have other := List.lookup_eq_none_iff.mp missing (name, dims) entry
          simp at other
        · cases done
          refine ⟨.reselects rfl rfl, rfl, rfl, fun none => ?_⟩
          rw [none] at entry
          cases entry
      · cases done

/-- The list of worlds arrives while no world is selected. -/
theorem listen_worlds {worlds : List (String × List String)} (readBack : AllReadBack worlds)
    (unselected : p.wSelector = "") :
    Spoken p (p.listen (.updateWorldsAndDims worlds)).1
        (p.listen (.updateWorldsAndDims worlds)).2 ∧
      (p.listen (.updateWorldsAndDims worlds)).1.worlds = worlds := by
  unfold listen
  dsimp only
  split
  · refine ⟨.keeps rfl rfl ?_, rfl⟩
    rw [selection, selection, unselected]
  · rename_i nw nd dims link
    simp only [linked, Option.bind_eq_bind, Option.bind_eq_some_iff] at link
    obtain ⟨⟨world, dimension⟩, _, found, known, choice⟩ := link
    split at choice
    · rename_i member
      cases choice
      have entry := mem_of_lookup known
      have world : select (worlds.map Prod.fst) _ = _ :=
        select_eq (List.mem_map_of_mem entry) (readBack _ entry).1
      have dimension : select dims _ = _ := select_eq member ((readBack _ entry).2 _ member)
      refine ⟨?_, rfl⟩
      rw [world, dimension]
      exact .reselects rfl rfl
    · cases choice

end Page

/-! ### What the server makes of it -/

theorem Tile.data_inj {tile tile' : Tile} {selected : Selection}
    (same : tile.data selected = tile'.data selected) : tile = tile' := by
  cases tile
  cases tile'
  simp only [Tile.data, ImageLocation.mk.injEq, true_and] at same
  obtain ⟨rfl, zooms, rfl, rfl⟩ := same
  congr 1
  omega

/-- A list of subscriptions has the tiles that the page holds, at its selection. -/
structure Follows (tiles : List ImageLocation) (p : Page) : Prop where
  nodup : tiles.Nodup
  mounted : p.mounted.Nodup
  same : ∀ loc, loc ∈ tiles ↔ ∃ tile ∈ p.mounted, tile.data p.selection = loc

/-- The server ends up with the tiles of the page when it has heard what the page has said. -/
theorem Follows.spoken {tiles : List ImageLocation} {p p' : Page} {ms : List ClientMessage}
    (follows : Follows tiles p) (spoken : Spoken p p' ms) :
    Follows (ms.foldl subscribed tiles) p' := by
  cases spoken with
  | @subscribes tile layer fresh =>
      refine ⟨foldl_subscribed_nodup follows.nodup _, ?_, fun loc => ?_⟩
      · refine List.nodup_append.mpr ⟨follows.mounted, List.nodup_singleton _, ?_⟩
        rintro old member _ (_ | ⟨_, ⟨⟩⟩) rfl
        exact fresh member
      · have inserted : loc ∈ tiles.insert (tile.data p.selection) ↔
            loc = tile.data p.selection ∨ loc ∈ tiles := List.mem_insert_iff
        simp only [List.foldl_cons, List.foldl_nil, subscribed, inserted, follows.same,
          List.mem_append, List.mem_singleton, or_and_right, exists_or, exists_eq_left]
        rw [or_comm, eq_comm]
        rfl
  | @unsubscribes tile held =>
      refine ⟨foldl_subscribed_nodup follows.nodup _, follows.mounted.erase tile, fun loc => ?_⟩
      simp only [List.foldl_cons, List.foldl_nil, subscribed, follows.nodup.mem_erase_iff,
        follows.mounted.mem_erase_iff, follows.same]
      constructor
      · rintro ⟨other, tile', member, rfl⟩
        exact ⟨tile', ⟨fun same => other (same ▸ rfl), member⟩, rfl⟩
      · rintro ⟨tile', ⟨other, member⟩, rfl⟩
        exact ⟨fun same => other (Tile.data_inj same), tile', member, rfl⟩
  | reselects mounted =>
      refine ⟨foldl_subscribed_nodup follows.nodup _, mounted ▸ follows.mounted, fun loc => ?_⟩
      simp only [List.foldl_cons, List.foldl_nil, subscribed, List.mem_dedup, List.mem_map,
        follows.same, mounted]
      constructor
      · rintro ⟨_, ⟨tile, member, rfl⟩, rfl⟩
        exact ⟨tile, member, rfl⟩
      · rintro ⟨tile, member, rfl⟩
        exact ⟨_, ⟨tile, member, rfl⟩, rfl⟩
  | keeps mounted _ selection =>
      refine ⟨follows.nodup, mounted ▸ follows.mounted, fun loc => ?_⟩
      rw [mounted, selection]
      exact follows.same loc

/-! ### Runs -/

theorem Rendering.reply_about (result : Rendering) (loc : ImageLocation) :
    (result.reply loc).about = some loc := by
  cases result <;> rfl

/-- The messages for the page that no requestor has sent. -/
def MapSession.greeting (s : MapSession) : List ServerMessage :=
  (s.toPage ++ s.events).filter fun m => m.about.isNone

/-- How much of the greeting is still to come: the page has no layers before it has the first
message and no worlds before it has the second. -/
inductive Stage (worlds : List (String × List String)) (p : Page) : List ServerMessage → Prop where
  | fresh {names : List String} (layers : p.layers = []) (mounted : p.mounted = [])
      (unlisted : p.worlds = []) (unselected : p.wSelector = "") :
      Stage worlds p [.updateLayers names, .updateWorldsAndDims worlds]
  | layered (unlisted : p.worlds = []) (unselected : p.wSelector = "") :
      Stage worlds p [.updateWorldsAndDims worlds]
  | greeted (listed : p.worlds = worlds) : Stage worlds p []

/-- A reply touches the images of the page only, and is not answered. -/
theorem Page.listen_reply (p : Page) {m : ServerMessage} {loc : ImageLocation}
    (reply : m.about = some loc) :
    (p.listen m).2 = [] ∧ ∃ tiles, (p.listen m).1 = { p with tiles := tiles } := by
  cases m with
  | update loc picture =>
      unfold listen
      dsimp only
      split <;> exact ⟨rfl, _, rfl⟩
  | failure loc => exact ⟨rfl, _, rfl⟩
  | updateLayers names | updateWorldsAndDims worlds => cases reply

/-- What the page knows at a stage of the greeting is kept by what it does itself. -/
theorem Stage.act {worlds : List (String × List String)} (readBack : AllReadBack worlds)
    {p p' : Page} {greeting : List ServerMessage} (stage : Stage worlds p greeting)
    {event : Page.PageEvent} {ms : List ClientMessage} (done : p.act event = some (p', ms)) :
    Spoken p p' ms ∧ Stage worlds p' greeting := by
  have none : AllReadBack [] := nofun
  have known : AllReadBack p.worlds := by
    cases stage with
    | fresh _ _ unlisted | layered unlisted => exact unlisted ▸ none
    | greeted listed => exact listed ▸ readBack
  obtain ⟨spoken, sameWorlds, sameLayers, sameSelector⟩ := Page.act_spoken known done
  refine ⟨spoken, ?_⟩
  cases stage with
  | fresh layers mounted unlisted unselected =>
      refine .fresh (sameLayers.trans layers) ?_ (sameWorlds.trans unlisted)
        ((sameSelector unlisted).trans unselected)
      cases spoken with
      | subscribes layer => rw [layers] at layer; cases layer
      | unsubscribes held => rw [mounted] at held; cases held
      | reselects same | keeps same => exact same.trans mounted
  | layered unlisted unselected =>
      exact .layered (sameWorlds.trans unlisted) ((sameSelector unlisted).trans unselected)
  | greeted listed => exact .greeted (sameWorlds.trans listed)

/-- What a message is to the page: a reply, or one of the greeting that comes when the page is
ready for it. -/
inductive Listened (p : Page) : ServerMessage → Prop where
  | reply {m : ServerMessage} {loc : ImageLocation} (about : m.about = some loc) : Listened p m
  | greets {names : List String} (mounted : p.mounted = []) : Listened p (.updateLayers names)
  | learns {worlds : List (String × List String)} (unselected : p.wSelector = "")
      (spoken : Spoken p (p.listen (.updateWorldsAndDims worlds)).1
        (p.listen (.updateWorldsAndDims worlds)).2) : Listened p (.updateWorldsAndDims worlds)

/-- The events that are left to be relayed belong to the greeting. -/
structure Greeted (worlds : List (String × List String)) (s : MapSession) : Prop where
  stage : Stage worlds s.page s.greeting
  events : ∀ m ∈ s.events, m.about = none

namespace Greeted

variable {worlds : List (String × List String)} {s next : MapSession}

theorem connected (layers : List String) (search : Option (String × String)) :
    Greeted worlds (.connected layers worlds search) where
  stage := .fresh rfl rfl rfl rfl
  events m member := by
    rcases List.mem_cons.mp member with rfl | member
    · rfl
    · rw [List.mem_singleton.mp member]
      rfl

/-- The oldest message to the page, and the stage behind it. -/
theorem listened (readBack : AllReadBack worlds) (greeted : Greeted worlds s)
    {m : ServerMessage} {rest : List ServerMessage} (oldest : s.toPage = m :: rest) :
    Listened s.page m ∧
      Stage worlds (s.page.listen m).1 ((rest ++ s.events).filter fun m => m.about.isNone) := by
  obtain ⟨stage, -⟩ := greeted
  rw [MapSession.greeting, oldest, List.cons_append] at stage
  cases reply : m.about with
  | some loc =>
      rw [List.filter_cons_of_neg (by simp [reply])] at stage
      refine ⟨.reply reply, ?_⟩
      obtain ⟨-, tiles, same⟩ := s.page.listen_reply reply
      rw [same]
      generalize (rest ++ s.events).filter _ = greeting at stage
      cases stage with
      | fresh layers mounted unlisted unselected =>
          exact .fresh layers mounted unlisted unselected
      | layered unlisted unselected => exact .layered unlisted unselected
      | greeted listed => exact .greeted listed
  | none =>
      rw [List.filter_cons_of_pos (by simp [reply])] at stage
      generalize (rest ++ s.events).filter _ = greeting at stage ⊢
      cases stage with
      | fresh layers mounted unlisted unselected =>
          exact ⟨.greets mounted, .layered unlisted unselected⟩
      | layered unlisted unselected =>
          obtain ⟨spoken, listed⟩ := s.page.listen_worlds readBack unselected
          exact ⟨.learns unselected spoken, .greeted listed⟩

theorem step (readBack : AllReadBack worlds) {action : SessionAction}
    (greeted : Greeted worlds s) (transition : sessionStep s action = some next) :
    Greeted worlds next := by
  obtain ⟨stage, events⟩ := greeted
  cases sessionTransition_of_step transition with
  | acts acted => exact ⟨(stage.act readBack acted).2, events⟩
  | @relays m rest oldest =>
      rw [oldest] at events
      refine ⟨?_, fun m member => events m (List.mem_cons_of_mem _ member)⟩
      rwa [MapSession.greeting, List.append_assoc, List.singleton_append, ← oldest]
  | handles oldest => exact ⟨stage, events⟩
  | @renders i result loc found =>
      refine ⟨?_, events⟩
      rw [MapSession.greeting] at stage
      simpa [MapSession.greeting, result.reply_about loc] using stage
  | listens oldest => exact ⟨(listened readBack ⟨stage, events⟩ oldest).2, events⟩

end Greeted

/-- What is on its way to the server makes its tiles those of the page. -/
structure InStep (worlds : List (String × List String)) (s : MapSession) : Prop where
  greeted : Greeted worlds s
  follows : Follows (s.toServer.foldl subscribed s.subbedTiles) s.page

namespace InStep

variable {worlds : List (String × List String)} {s next : MapSession}

theorem connected (layers : List String) (search : Option (String × String)) :
    InStep worlds (.connected layers worlds search) where
  greeted := .connected layers search
  follows := ⟨.nil, .nil, fun _ => ⟨nofun, nofun⟩⟩

/-- What the page says reaches the server behind what it has said before. -/
theorem speaks {p : Page} {ms : List ClientMessage}
    (follows : Follows (s.toServer.foldl subscribed s.subbedTiles) s.page)
    (spoken : Spoken s.page p ms) :
    Follows ((s.toServer ++ ms).foldl subscribed s.subbedTiles) p := by
  rw [List.foldl_append]
  exact follows.spoken spoken

theorem step (readBack : AllReadBack worlds) {action : SessionAction} (inStep : InStep worlds s)
    (transition : sessionStep s action = some next) : InStep worlds next := by
  refine ⟨inStep.greeted.step readBack transition, ?_⟩
  have follows := inStep.follows
  cases sessionTransition_of_step transition with
  | acts acted => exact speaks follows (inStep.greeted.stage.act readBack acted).1
  | relays oldest => exact follows
  | handles oldest =>
      rw [oldest] at follows
      exact follows
  | renders found => exact follows
  | listens oldest =>
      cases (inStep.greeted.listened readBack oldest).1 with
      | reply about =>
          obtain ⟨silent, tiles, same⟩ := s.page.listen_reply about
          rw [MapSession.speak, silent, same, List.append_nil]
          exact ⟨follows.nodup, follows.mounted, follows.same⟩
      | greets mounted =>
          rw [MapSession.speak, show (s.page.listen (.updateLayers _)).2 = [] from rfl,
            List.append_nil]
          exact ⟨follows.nodup, follows.mounted, follows.same⟩
      | learns _ spoken => exact speaks follows spoken

end InStep

/-- Whatever Leaflet and the user do and however requests, renderings and answers overlap: once the
messages of the page that are on their way have been handled, the server is subscribed to exactly
the tiles that the page holds, in the world and the dimension that it has selected. -/
theorem serverFollowsPage {layers : List String} {worlds : List (String × List String)}
    (readBack : AllReadBack worlds) {search : Option (String × String)}
    {actions : List SessionAction} {s : MapSession}
    (run : mapSession.Runs (.connected layers worlds search) actions s) :
    (s.toServer.foldl subscribed s.subbedTiles).Perm s.page.view := by
  have follows := (run.always (InStep.step readBack) (InStep.connected layers search)).follows
  have distinct : s.page.view.Nodup :=
    follows.mounted.map fun _ _ same => Tile.data_inj same
  refine (List.perm_ext_iff_of_nodup follows.nodup distinct).mpr fun loc => ?_
  rw [follows.same, Page.view, List.mem_map]

/-- A world with two dimensions. -/
def sampleWorlds : List (String × List String) := [("constantiam.net", ["overworld", "the_nether"])]

def sampleTile : Tile := ⟨"terrain", 3, -2, 6⟩

/-- A tile is created before the list of worlds is there; then a world and a dimension are picked. -/
def sampleSession : List SessionAction :=
  [.relay, .listen, .act (.createTile sampleTile), .relay, .handle, .listen,
    .act (.changeWorld "constantiam.net"), .handle, .act (.changeDimension "overworld"), .handle]

def sampleStart : MapSession := .connected ["terrain"] sampleWorlds none

def sampleEnd : MapSession := (mapSession.exec sampleStart sampleSession).get (by decide)

theorem serverFollowsPage_sample :
    (sampleEnd.toServer.foldl subscribed sampleEnd.subbedTiles).Perm sampleEnd.page.view :=
  serverFollowsPage (by decide : AllReadBack sampleWorlds)
    (Machine.runs_exec_get (by decide) : mapSession.Runs sampleStart sampleSession sampleEnd)

end WebChunk.Web
