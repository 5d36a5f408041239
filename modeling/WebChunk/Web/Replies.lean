import Mathlib.Data.List.Perm.Basic
import WebChunk.Semantics.History
import WebChunk.Web.MapSession

/-!
# Replies to the page

What the page has asked for is in a message on its way to the server, with a requestor, or in a
reply on its way back. Each step moves it on, so that every request gets one reply; what the tiles
of the page show in the end depends on the order of the replies.
-/

namespace WebChunk.Web

open WebChunk.ImageCache WebChunk.Server WebChunk.Semantics

/-- The tiles of the server once it has handled what is on its way to it. -/
def MapSession.expected (s : MapSession) : List ImageLocation :=
  s.toServer.foldl subscribed s.subbedTiles

/-- The locations whose replies have not reached the page. -/
def MapSession.outstanding (s : MapSession) : List ImageLocation :=
  (requestedBy s.subbedTiles s.toServer).filter named ++
    (s.rendering ++ s.toPage.filterMap ServerMessage.about)

/-- The messages that the page sends in a step. -/
def said (s : MapSession) (action : SessionAction) (_ : MapSession) : List ClientMessage :=
  match action with
  | .act event => (s.page.act event).elim [] Prod.snd
  | .listen => s.toPage.head?.elim [] fun m => (s.page.listen m).2
  | .relay | .handle | .render _ _ => []

/-- The location of the reply that the page takes in a step. -/
def replied (s : MapSession) (action : SessionAction) (_ : MapSession) : List ImageLocation :=
  match action with
  | .listen => (s.toPage.head?.bind ServerMessage.about).toList
  | .act _ | .relay | .handle | .render _ _ => []

/-- The client loop relays no replies. -/
def MapSession.RelaysGreeting (s : MapSession) : Prop := ∀ m ∈ s.events, m.about = none

namespace MapSession

variable {s next : MapSession} {action : SessionAction}

theorem expected_speak (s : MapSession) (done : Page × List ClientMessage) :
    (s.speak done).expected = done.2.foldl subscribed s.expected := by
  rw [expected, speak, List.foldl_append]
  rfl

/-- What the page asks for is outstanding from then on. -/
theorem outstanding_speak (s : MapSession) (done : Page × List ClientMessage) :
    (s.speak done).outstanding.Perm
      (s.outstanding ++ (requestedBy s.expected done.2).filter named) := by
  rw [outstanding, speak, requestedBy_append, List.filter_append, outstanding, List.append_assoc,
    List.append_assoc]
  exact (List.perm_append_comm).append_left _

/-- What one step does to the tiles that the server ends up with and to the requests: the page adds
those of its messages and takes away the one that is replied to. -/
theorem accounts (greeting : s.RelaysGreeting) (transition : sessionStep s action = some next) :
    next.RelaysGreeting ∧ next.expected = (said s action next).foldl subscribed s.expected ∧
      (replied s action next ++ next.outstanding).Perm
        (s.outstanding ++ (requestedBy s.expected (said s action next)).filter named) := by
  cases sessionTransition_of_step transition with
  | @acts event done acted =>
      rw [said, acted]
      exact ⟨greeting, s.expected_speak done, s.outstanding_speak done⟩
  | @relays m rest oldest =>
      rw [RelaysGreeting, oldest] at greeting
      have noReply := greeting m (List.mem_cons_self ..)
      refine ⟨fun m member => greeting m (List.mem_cons_of_mem _ member), rfl, ?_⟩
      simp [said, replied, requestedBy, outstanding, List.filterMap_append, noReply]
  | @handles m rest oldest =>
      refine ⟨greeting, by rw [expected, expected, oldest]; rfl, ?_⟩
      simp only [said, replied, requestedBy, outstanding, oldest, List.filter_append,
        List.filter_nil, List.append_nil, List.nil_append]
      rw [List.perm_iff_count]
      intro loc
      simp only [List.count_append]
      omega
  | @renders i result loc found =>
      refine ⟨greeting, rfl, ?_⟩
      obtain ⟨inside, here⟩ := List.getElem?_eq_some_iff.mp found
      have moved : s.rendering.Perm (loc :: s.rendering.eraseIdx i) := by
        have taken := List.getElem_cons_eraseIdx_perm inside
        rw [here] at taken
        exact taken.symm
      simp only [said, replied, requestedBy, outstanding, List.filterMap_append,
        List.filterMap_cons, result.reply_about loc, List.filterMap_nil, List.filter_nil,
        List.append_nil, List.nil_append]
      refine List.Perm.append_left _ ?_
      rw [List.perm_iff_count] at moved ⊢
      intro other
      have count := moved other
      simp only [List.count_append, List.count_cons, List.count_nil] at count ⊢
      omega
  | @listens m rest oldest =>
      have asked := ({ s with toPage := rest } : MapSession).outstanding_speak (s.page.listen m)
      refine ⟨greeting, ?_, ?_⟩
      · rw [said, oldest]
        exact expected_speak _ (s.page.listen m)
      · rw [said, replied, oldest]
        refine (asked.append_left _).trans ?_
        simp only [List.head?_cons, Option.bind_some, Option.elim_some, outstanding, oldest]
        rw [List.perm_iff_count]
        intro loc
        cases reply : m.about with
        | none =>
            simp only [List.filterMap_cons, reply, List.count_append, Option.toList_none,
              List.count_nil, expected]
            omega
        | some about =>
            simp only [List.filterMap_cons, reply, List.count_append, Option.toList_some,
              List.count_cons, List.count_nil, expected]
            omega

end MapSession

/-! ### Every request is replied to once -/

/-- The messages said and the replies taken so far, against the state. -/
structure Accounted (spoken : List ClientMessage) (heard : List ImageLocation)
    (s : MapSession) : Prop where
  greeting : s.RelaysGreeting
  expected : spoken.foldl subscribed [] = s.expected
  requests : ((requestedBy [] spoken).filter named).Perm (heard ++ s.outstanding)

theorem Accounted.step {spoken : List ClientMessage} {heard : List ImageLocation}
    {s next : MapSession} {action : SessionAction} (accounted : Accounted spoken heard s)
    (transition : sessionStep s action = some next) :
    Accounted (spoken ++ said s action next) (heard ++ replied s action next) next := by
  obtain ⟨greeting, expected, requests⟩ := s.accounts accounted.greeting transition
  refine ⟨greeting, ?_, ?_⟩
  · rw [List.foldl_append, accounted.expected, expected]
  · rw [requestedBy_append, accounted.expected, List.filter_append, List.append_assoc]
    refine (accounted.requests.append_right _).trans ?_
    rw [List.append_assoc]
    exact requests.symm.append_left heard

theorem connected_greeting (layers : List String) (worlds : List (String × List String))
    (search : Option (String × String)) :
    (MapSession.connected layers worlds search).RelaysGreeting := by
  intro m member
  rcases List.mem_cons.mp member with rfl | member
  · rfl
  · rw [List.mem_singleton.mp member]
    rfl

/-- The requests that the page has made for locations with a world and a dimension, with their
multiplicities, are the replies that it has taken and those that are still outstanding: none is
lost, none is made up and none comes twice. -/
theorem everyRequestRepliedOnce {layers : List String} {worlds : List (String × List String)}
    {search : Option (String × String)} {actions : List SessionAction} {s : MapSession}
    (run : mapSession.Runs (.connected layers worlds search) actions s) :
    ((requestedBy [] (mapSession.history said (.connected layers worlds search) actions)).filter
        named).Perm
      (mapSession.history replied (.connected layers worlds search) actions ++ s.outstanding) := by
  have start : Accounted [] [] (.connected layers worlds search) :=
    ⟨connected_greeting layers worlds search, rfl, .nil⟩
  exact (run.histories Accounted Accounted.step start).requests

theorem everyRequestRepliedOnce_sample :
    ((requestedBy [] (mapSession.history said sampleStart sampleSession)).filter named).Perm
      (mapSession.history replied sampleStart sampleSession ++ sampleEnd.outstanding) :=
  everyRequestRepliedOnce
    (Machine.runs_exec_get (by decide) : mapSession.Runs sampleStart sampleSession sampleEnd)

/-! ### Every tile is served -/

/-- What concerns the tiles of the page: one is created at a location, all of them change their
location, or a reply comes. -/
inductive Note where
  | created (loc : ImageLocation)
  | reselected
  | replied (loc : ImageLocation)

/-- What a message of the page is about. -/
def noteOf : ClientMessage → Option Note
  | .tileSubscribe loc => some (.created loc)
  | .resubWorldDimension _ _ => some .reselected
  | .tileUnsubscribe _ | .other => none

/-- The notes of a step. -/
def notes (s : MapSession) (action : SessionAction) (next : MapSession) : List Note :=
  (replied s action next).map .replied ++ (said s action next).filterMap noteOf

/-- The locations that were replied to since a tile was created there, or since the selection was
last changed. -/
def served (locs : List ImageLocation) : Note → List ImageLocation
  | .created loc => locs.filter (· ≠ loc)
  | .reselected => []
  | .replied loc => loc :: locs

/-- Every tile of the page has been replied to, or will be. -/
structure Served (worlds : List (String × List String)) (past : List Note)
    (s : MapSession) : Prop where
  inStep : InStep worlds s
  tiles : ∀ tile ∈ s.page.mounted, named (tile.data s.page.selection) = true →
    tile.data s.page.selection ∈ past.foldl served [] ∨
      tile.data s.page.selection ∈ s.outstanding

/-- What the page says about a tile makes the server ask for it. -/
theorem requested_of_spoken {tiles : List ImageLocation} {p p' : Page} {ms : List ClientMessage}
    (follows : Follows tiles p) (spoken : Spoken p p' ms) {tile : Tile}
    (member : tile ∈ p'.mounted) :
    tile.data p'.selection ∈ requestedBy tiles ms ∨
      tile ∈ p.mounted ∧ tile.data p'.selection = tile.data p.selection ∧
        ∀ locs, tile.data p.selection ∈ locs →
          tile.data p.selection ∈ (ms.filterMap noteOf).foldl served locs := by
  cases spoken with
  | @subscribes created layer fresh =>
      rcases List.mem_append.mp member with old | new
      · refine .inr ⟨old, rfl, fun locs there => ?_⟩
        refine List.mem_filter.mpr ⟨there, decide_eq_true fun same => ?_⟩
        exact fresh (Tile.data_inj same ▸ old)
      · rw [List.mem_singleton.mp new]
        exact .inl (List.mem_cons_self ..)
  | unsubscribes held =>
      exact .inr ⟨List.mem_of_mem_erase member, rfl, fun _ there => there⟩
  | reselects mounted =>
      rw [mounted] at member
      refine .inl ?_
      simp only [requestedBy, requested, List.append_nil, List.mem_map]
      exact ⟨_, (follows.same _).mpr ⟨tile, member, rfl⟩, rfl⟩
  | keeps mounted _ selection =>
      rw [mounted] at member
      exact .inr ⟨member, by rw [selection], fun _ there => there⟩

namespace Served

variable {worlds : List (String × List String)} {past : List Note} {s next : MapSession}
  {action : SessionAction}

/-- What was outstanding has come, or still is. -/
theorem outstanding_step (inStep : InStep worlds s)
    (transition : sessionStep s action = some next) {loc : ImageLocation}
    (there : loc ∈ s.outstanding ∨ loc ∈ requestedBy s.expected (said s action next))
    (known : named loc = true) : loc ∈ replied s action next ∨ loc ∈ next.outstanding := by
  obtain ⟨-, -, requests⟩ := s.accounts inStep.greeted.events transition
  refine List.mem_append.mp (requests.mem_iff.mpr (List.mem_append.mpr ?_))
  exact there.imp_right fun asked => List.mem_filter.mpr ⟨asked, known⟩

theorem mem_replied {locs : List ImageLocation} {loc : ImageLocation} (replies : List ImageLocation)
    (there : loc ∈ locs ∨ loc ∈ replies) : loc ∈ (replies.map Note.replied).foldl served locs := by
  induction replies generalizing locs with
  | nil => exact there.resolve_right nofun
  | cons first rest inductionHypothesis =>
      refine inductionHypothesis ?_
      rcases there with old | new
      · exact .inl (List.mem_cons_of_mem _ old)
      · rcases List.mem_cons.mp new with rfl | later
        · exact .inl (List.mem_cons_self ..)
        · exact .inr later

/-- In a step the page says what it does to its tiles, or it takes a reply or nothing at all. -/
theorem spoken_step (readBack : AllReadBack worlds) (inStep : InStep worlds s)
    (transition : sessionStep s action = some next) :
    Spoken s.page next.page (said s action next) ∧ replied s action next = [] ∨
      next.page.mounted = s.page.mounted ∧ next.page.selection = s.page.selection ∧
        said s action next = [] := by
  cases sessionTransition_of_step transition with
  | @acts event done acted =>
      rw [said, acted]
      exact .inl ⟨(inStep.greeted.stage.act readBack acted).1, rfl⟩
  | relays | handles | renders => exact .inr ⟨rfl, rfl, rfl⟩
  | @listens m rest oldest =>
      rw [said, replied, oldest]
      cases (inStep.greeted.listened readBack oldest).1 with
      | reply about =>
          obtain ⟨silent, tiles, same⟩ := s.page.listen_reply about
          rw [MapSession.speak, same]
          exact .inr ⟨rfl, rfl, silent⟩
      | greets mounted => exact .inr ⟨rfl, rfl, rfl⟩
      | learns _ spoken => exact .inl ⟨spoken, rfl⟩

theorem step (readBack : AllReadBack worlds) (holds : Served worlds past s)
    (transition : sessionStep s action = some next) :
    Served worlds (past ++ notes s action next) next := by
  have inStep := holds.inStep
  refine ⟨inStep.step readBack transition, fun tile member known => ?_⟩
  rw [List.foldl_append, notes, List.foldl_append]
  rcases spoken_step readBack inStep transition with ⟨spoken, quiet⟩ | ⟨mounted, selection, silent⟩
  · rw [quiet, List.map_nil, List.foldl_nil]
    have later {loc : ImageLocation} (there : loc ∈ s.outstanding ∨
        loc ∈ requestedBy s.expected (said s action next)) (known : named loc = true) :
        loc ∈ next.outstanding := by
      rcases outstanding_step inStep transition there known with now | later
      · rw [quiet] at now
        cases now
      · exact later
    rcases requested_of_spoken inStep.follows spoken member with asked | ⟨old, same, kept⟩
    · exact .inr (later (.inr asked) known)
    · rw [same] at known ⊢
      rcases holds.tiles tile old known with there | waiting
      · exact .inl (kept _ there)
      · exact .inr (later (.inl waiting) known)
  · rw [silent, List.filterMap_nil, List.foldl_nil]
    rw [mounted] at member
    rw [selection] at known ⊢
    rcases holds.tiles tile member known with there | waiting
    · exact .inl (mem_replied _ (.inl there))
    · exact (outstanding_step inStep transition (.inl waiting) known).imp_left fun now =>
        mem_replied _ (.inr now)

end Served

/-- Every tile that the page holds is replied to: its request or the reply is on the way, or a reply
for the selected world and dimension has come since the tile was created and since the selection
was last changed. -/
theorem everyTileServed {layers : List String} {worlds : List (String × List String)}
    (readBack : AllReadBack worlds) {search : Option (String × String)}
    {actions : List SessionAction} {s : MapSession}
    (run : mapSession.Runs (.connected layers worlds search) actions s) :
    ∀ tile ∈ s.page.mounted, s.page.dSelector ≠ "" → s.page.wSelector ≠ "" →
      tile.data s.page.selection ∈
          (mapSession.history notes (.connected layers worlds search) actions).foldl served [] ∨
        tile.data s.page.selection ∈ s.outstanding := by
  intro tile member dimension world
  have start : Served worlds [] (.connected layers worlds search) :=
    ⟨.connected layers search, fun _ member => by cases member⟩
  refine (run.history (Served worlds) (Served.step readBack) start).tiles tile member ?_
  refine decide_eq_true (if_neg ?_)
  rintro (same | same)
  · exact dimension same
  · exact world same

theorem everyTileServed_sample :
    sampleTile.data sampleEnd.page.selection ∈
        (mapSession.history notes sampleStart sampleSession).foldl served [] ∨
      sampleTile.data sampleEnd.page.selection ∈ sampleEnd.outstanding :=
  everyTileServed (by decide : AllReadBack sampleWorlds)
    (Machine.runs_exec_get (by decide) : mapSession.Runs sampleStart sampleSession sampleEnd)
    sampleTile (by decide) (by decide) (by decide)

/-! ### What the tiles show -/

/-- The numbers of a tile fit into the message that answers for it. -/
def Tile.Fits (tile : Tile) : Prop :=
  (-2 ^ 31 ≤ tile.x ∧ tile.x < 2 ^ 31) ∧ (-2 ^ 31 ≤ tile.y ∧ tile.y < 2 ^ 31) ∧
    0 ≤ maxZoomBack - tile.z ∧ maxZoomBack - tile.z < 256

instance (tile : Tile) : Decidable tile.Fits := inferInstanceAs (Decidable (_ ∧ _))

/-- A reply finds the image of its tile. -/
theorem Tile.Fits.keyOf_data {tile : Tile} (fits : tile.Fits) (selected : Selection) :
    keyOf (tile.data selected) = tile.key := by
  obtain ⟨x, y, s⟩ := fits
  rw [keyOf, Tile.data, Tile.key]
  dsimp only
  congr 1
  · exact Int.bmod_eq_of_le (by omega) (by omega)
  · exact Int.bmod_eq_of_le (by omega) (by omega)
  · exact Int.emod_eq_of_lt s.1 s.2

theorem Tile.key_inj {tile tile' : Tile} (same : tile.key = tile'.key) : tile = tile' := by
  cases tile
  cases tile'
  simp only [Tile.key, Key.mk.injEq] at same
  obtain ⟨rfl, rfl, rfl, zooms⟩ := same
  congr 1
  omega

/-- The user changes the selection when no reply is outstanding, and every tile can be rendered. -/
def patient (s : MapSession) : SessionAction → Bool
  | .act (.createTile tile) => decide tile.Fits
  | .act (.changeWorld _) | .act (.changeDimension _) => s.outstanding.isEmpty
  | .render _ result => decide (result = .picture)
  | .act (.handleUnload _) | .relay | .handle | .listen => true

/-- The replies to come are pictures of the selected world and dimension, and a tile shows its
picture if it does not wait for it. -/
structure Shows (s : MapSession) : Prop where
  own : ∀ loc ∈ s.outstanding,
    named loc = true ∧ ∃ tile : Tile, tile.Fits ∧ tile.data s.page.selection = loc
  pictures : ∀ m ∈ s.toPage, ∀ loc, m.about = some loc → m = .update loc true
  known : ∀ tile ∈ s.page.mounted, tile.Fits ∧ s.page.tiles tile.key ≠ none
  shown : ∀ tile ∈ s.page.mounted, named (tile.data s.page.selection) = true →
    s.page.tiles tile.key = some ⟨some (tile.data s.page.selection)⟩ ∨
      tile.data s.page.selection ∈ s.outstanding

/-- The page asks only for tiles that it holds. -/
theorem requested_mounted {tiles : List ImageLocation} {p p' : Page} {ms : List ClientMessage}
    (follows : Follows tiles p) (spoken : Spoken p p' ms) {loc : ImageLocation}
    (asked : loc ∈ requestedBy tiles ms) :
    ∃ tile ∈ p'.mounted, tile.data p'.selection = loc := by
  cases spoken with
  | @subscribes created layer fresh =>
      rw [List.mem_singleton.mp asked]
      exact ⟨created, List.mem_append_right _ (List.mem_singleton_self _), rfl⟩
  | unsubscribes held => cases asked
  | reselects mounted =>
      simp only [requestedBy, requested, List.append_nil, List.mem_map] at asked
      obtain ⟨old, there, rfl⟩ := asked
      obtain ⟨tile, member, rfl⟩ := (follows.same old).mp there
      exact ⟨tile, mounted ▸ member, rfl⟩
  | keeps => cases asked

/-- The image of a tile is kept; a tile that is created has an image of its own. -/
theorem tiles_of_spoken {p p' : Page} {ms : List ClientMessage} (spoken : Spoken p p' ms) :
    (∀ tile ∈ p.mounted, p'.tiles tile.key = p.tiles tile.key) ∧
      ∀ tile ∈ p'.mounted, tile ∈ p.mounted ∨ p'.tiles tile.key ≠ none := by
  cases spoken with
  | @subscribes created layer fresh =>
      constructor
      · intro tile member
        refine Function.update_of_ne (fun same => fresh ?_) _ _
        exact Tile.key_inj same ▸ member
      · intro tile member
        refine (List.mem_append.mp member).imp_right fun new => ?_
        rw [List.mem_singleton.mp new]
        dsimp only
        rw [Function.update_self]
        exact nofun
  | unsubscribes held =>
      exact ⟨fun _ _ => rfl, fun tile member => .inl (List.mem_of_mem_erase member)⟩
  | reselects mounted tiles | keeps mounted tiles =>
      exact ⟨fun _ _ => by rw [tiles], fun tile member => .inl (mounted ▸ member)⟩

namespace Shows

variable {s : MapSession}

/-- Without a world nothing is asked for. -/
theorem idle (shows : Shows s) (unselected : s.page.wSelector = "") : s.outstanding = [] := by
  refine List.eq_nil_iff_forall_not_mem.mpr fun loc member => ?_
  obtain ⟨known, tile, -, rfl⟩ := shows.own loc member
  have given : ¬ (_ ∨ _) := fun nothing => by
    rw [named, asyncTileRequestor, if_pos nothing] at known
    cases known
  exact given (.inr unselected)

/-- The page says something while nothing is outstanding for another selection. -/
theorem speaks (shows : Shows s) (follows : Follows s.expected s.page) {p : Page}
    {ms : List ClientMessage} (spoken : Spoken s.page p ms)
    (fits : ∀ tile ∈ p.mounted, tile ∉ s.page.mounted → tile.Fits)
    (same : s.outstanding ≠ [] → p.selection = s.page.selection) : Shows (s.speak (p, ms)) := by
  have asks := s.outstanding_speak (p, ms)
  obtain ⟨kept, present⟩ := tiles_of_spoken spoken
  have allFit : ∀ tile ∈ p.mounted, tile.Fits := fun tile member => by
    by_cases old : tile ∈ s.page.mounted
    · exact (shows.known tile old).1
    · exact fits tile member old
  refine ⟨fun loc member => ?_, shows.pictures, fun tile member => ?_, fun tile member known => ?_⟩
  · rcases List.mem_append.mp (asks.mem_iff.mp member) with old | new
    · have selection := same (List.ne_nil_of_mem old)
      obtain ⟨known, tile, fit, rfl⟩ := shows.own loc old
      exact ⟨known, tile, fit, congrArg tile.data selection⟩
    · obtain ⟨asked, known⟩ := List.mem_filter.mp new
      obtain ⟨tile, held, rfl⟩ := requested_mounted follows spoken asked
      exact ⟨known, tile, allFit tile held, rfl⟩
  · refine ⟨allFit tile member, ?_⟩
    rcases present tile member with old | new
    · exact (kept tile old).symm ▸ (shows.known tile old).2
    · exact new
  · rcases requested_of_spoken follows spoken member with asked | ⟨old, selection, -⟩
    · refine .inr (asks.mem_iff.mpr (List.mem_append_right _ ?_))
      exact List.mem_filter.mpr ⟨asked, known⟩
    · show p.tiles tile.key = some ⟨some (tile.data p.selection)⟩ ∨ tile.data p.selection ∈ _
      replace known : named (tile.data p.selection) = true := known
      rw [selection] at known ⊢
      rcases shows.shown tile old known with there | waiting
      · exact .inl ((kept tile old).trans there)
      · exact .inr (asks.mem_iff.mpr (List.mem_append_left _ waiting))

/-- Nothing that the tiles depend on has changed. -/
theorem keeps (shows : Shows s) {next : MapSession} (page : next.page = s.page)
    (outstanding : ∀ loc, loc ∈ next.outstanding ↔ loc ∈ s.outstanding)
    (pictures : ∀ m ∈ next.toPage, ∀ loc, m.about = some loc → m = .update loc true) :
    Shows next := by
  refine ⟨fun loc member => ?_, pictures, page ▸ shows.known, fun tile member known => ?_⟩
  · rw [page]
    exact shows.own loc ((outstanding loc).mp member)
  · rw [page] at member known ⊢
    rw [outstanding]
    exact shows.shown tile member known

/-- A picture comes: the tile of its location shows it, if the page has such a tile. -/
theorem hears (shows : Shows s) {m : ServerMessage} {rest : List ServerMessage}
    {loc : ImageLocation} (oldest : s.toPage = m :: rest) (reply : m.about = some loc)
    (left : s.outstanding.Perm (loc :: ({ s with toPage := rest } : MapSession).outstanding)) :
    Shows ({ s with toPage := rest }.speak (s.page.listen m)) := by
  have picture : m = .update loc true :=
    shows.pictures m (oldest ▸ List.mem_cons_self ..) loc reply
  subst picture
  obtain ⟨known, tile, fits, rfl⟩ := shows.own loc (left.mem_iff.mpr (List.mem_cons_self ..))
  have key : keyOf (tile.data s.page.selection) = tile.key := fits.keyOf_data _
  obtain ⟨silent, tiles, page⟩ := s.page.listen_reply reply
  have others : ∀ other : Tile, other ≠ tile → tiles other.key = s.page.tiles other.key := by
    intro other distinct
    have listened := congrArg (fun p => p.tiles other.key) page
    dsimp only [Page.listen] at listened
    rw [key] at listened
    split at listened
    · rw [← listened]
      exact Function.update_of_ne (fun same => distinct (Tile.key_inj same)) _ _
    · exact listened.symm
  have own : s.page.tiles tile.key ≠ none →
      tiles tile.key = some ⟨some (tile.data s.page.selection)⟩ := by
    intro there
    have listened := congrArg (fun p => p.tiles tile.key) page
    dsimp only [Page.listen] at listened
    rw [key] at listened
    split at listened
    · rw [← listened]
      exact Function.update_self ..
    · rename_i nothing
      obtain ⟨image, found⟩ := Option.ne_none_iff_exists'.mp there
      exact (nothing image found rfl).elim
  rw [MapSession.speak, silent, page, List.append_nil]
  refine ⟨fun loc member => ?_, fun m member => ?_, fun other member => ?_,
    fun other member known => ?_⟩
  · exact shows.own loc (left.mem_iff.mpr (List.mem_cons_of_mem _ member))
  · exact shows.pictures m (oldest ▸ List.mem_cons_of_mem _ member)
  · obtain ⟨fit, there⟩ := shows.known other member
    refine ⟨fit, ?_⟩
    by_cases same : other = tile
    · subst same
      dsimp only
      rw [own there]
      exact Option.some_ne_none _
    · show tiles other.key ≠ none
      rw [others other same]
      exact there
  · by_cases same : other = tile
    · subst same
      exact .inl (own (shows.known other member).2)
    · refine (shows.shown other member known).imp (fun there => ?_) fun waiting => ?_
      · exact (others other same).trans there
      · refine (List.mem_cons.mp (left.mem_iff.mp waiting)).resolve_left fun alike => ?_
        exact same (Tile.data_inj alike)

end Shows

/-- The server follows the page, and the page shows what it has got. -/
structure Settled (worlds : List (String × List String)) (s : MapSession) : Prop where
  inStep : InStep worlds s
  shows : Shows s

/-- A tile that the page creates is one that is allowed, and the selection changes only by a
`change` of a selector. -/
theorem act_patient {s : MapSession} {event : Page.PageEvent}
    {done : Page × List ClientMessage} (permitted : patient s (.act event) = true)
    (acted : s.page.act event = some done) :
    (∀ tile ∈ done.1.mounted, tile ∉ s.page.mounted → tile.Fits) ∧
      (s.outstanding ≠ [] → done.1.selection = s.page.selection) := by
  cases event with
  | createTile tile =>
      simp only [Page.act, Page.createTile] at acted
      split at acted <;> cases acted
      refine ⟨fun other member fresh => ?_, fun _ => rfl⟩
      rcases List.mem_append.mp member with old | new
      · exact absurd old fresh
      · exact List.mem_singleton.mp new ▸ of_decide_eq_true permitted
  | handleUnload tile =>
      simp only [Page.act, Page.handleUnload] at acted
      split at acted <;> cases acted
      exact ⟨fun other member fresh => absurd (List.mem_of_mem_erase member) fresh, fun _ => rfl⟩
  | changeWorld value =>
      refine ⟨fun other member fresh => absurd ?_ fresh,
        fun busy => absurd (List.isEmpty_iff.mp permitted) busy⟩
      simp only [Page.act, Page.changeWorld] at acted
      split at acted
      · split at acted <;> cases acted <;> exact member
      · cases acted
  | changeDimension value =>
      refine ⟨fun other member fresh => absurd ?_ fresh,
        fun busy => absurd (List.isEmpty_iff.mp permitted) busy⟩
      simp only [Page.act, Page.changeDimension] at acted
      split at acted <;> cases acted
      exact member

/-- The list of worlds leaves the tiles to Leaflet. -/
theorem Page.listen_worlds_mounted (p : Page) (worlds : List (String × List String)) :
    (p.listen (.updateWorldsAndDims worlds)).1.mounted = p.mounted := by
  unfold listen
  dsimp only
  split <;> rfl

theorem Settled.step {worlds : List (String × List String)} (readBack : AllReadBack worlds)
    {s next : MapSession} {action : SessionAction} (settled : Settled worlds s)
    (permitted : patient s action = true) (transition : sessionStep s action = some next) :
    Settled worlds next := by
  obtain ⟨inStep, shows⟩ := settled
  refine ⟨inStep.step readBack transition, ?_⟩
  obtain ⟨-, -, requests⟩ := s.accounts inStep.greeted.events transition
  cases sessionTransition_of_step transition with
  | @acts event done acted =>
      obtain ⟨fits, same⟩ := act_patient permitted acted
      exact shows.speaks inStep.follows (inStep.greeted.stage.act readBack acted).1 fits same
  | @relays m rest oldest =>
      have greeting := inStep.greeted.events
      refine shows.keeps rfl (fun loc => ?_) fun other member loc about => ?_
      · simpa [said, replied, requestedBy] using requests.mem_iff (a := loc)
      · rcases List.mem_append.mp member with old | new
        · exact shows.pictures other old loc about
        · rw [List.mem_singleton.mp new, greeting m (oldest ▸ List.mem_cons_self ..)] at about
          cases about
  | handles oldest =>
      refine shows.keeps rfl (fun loc => ?_) shows.pictures
      simpa [said, replied, requestedBy] using requests.mem_iff (a := loc)
  | @renders i result loc found =>
      refine shows.keeps rfl (fun loc => ?_) fun other member about same => ?_
      · simpa [said, replied, requestedBy] using requests.mem_iff (a := loc)
      · rcases List.mem_append.mp member with old | new
        · exact shows.pictures other old about same
        · rw [List.mem_singleton.mp new] at same ⊢
          rw [show result = .picture from of_decide_eq_true permitted] at same ⊢
          cases same
          rfl
  | @listens m rest oldest =>
      have quiet : m.about = none → Shows { s with toPage := rest } := fun noReply => by
        refine shows.keeps rfl (fun loc => ?_) fun other member => ?_
        · simp [MapSession.outstanding, oldest, noReply]
        · exact shows.pictures other (oldest ▸ List.mem_cons_of_mem _ member)
      cases (inStep.greeted.listened readBack oldest).1 with
      | @reply _ loc about =>
          refine shows.hears oldest about ?_
          simp only [MapSession.outstanding, oldest, List.filterMap_cons, about]
          rw [← List.append_assoc, ← List.append_assoc]
          exact List.perm_middle
      | greets mounted =>
          have before := quiet rfl
          have nobody : ∀ tile, tile ∉ s.page.mounted := fun tile member => by
            rw [mounted] at member
            cases member
          rw [MapSession.speak, show (s.page.listen (.updateLayers _)).2 = [] from rfl,
            List.append_nil]
          exact ⟨before.own, before.pictures, fun tile member => absurd member (nobody tile),
            fun tile member => absurd member (nobody tile)⟩
      | @learns listed unselected spoken =>
          have before := quiet rfl
          have follows : Follows ({ s with toPage := rest } : MapSession).expected s.page :=
            inStep.follows
          refine before.speaks follows spoken (fun tile member fresh => ?_) fun busy => ?_
          · refine absurd ?_ fresh
            rw [← s.page.listen_worlds_mounted listed]
            exact member
          · exact absurd (before.idle unselected) busy

/-- For a user who changes the selection only when nothing is outstanding: a tile of the page shows
the picture of its place in the selected world and dimension, or waits for it; so that all tiles
show their own pictures whenever nothing is outstanding. -/
theorem tilesShowSelection {layers : List String} {worlds : List (String × List String)}
    (readBack : AllReadBack worlds) {search : Option (String × String)}
    {actions : List SessionAction} {s : MapSession}
    (run : mapSession.Runs (.connected layers worlds search) actions s)
    (steps : mapSession.StepsOnly (fun s action => patient s action = true)
      (.connected layers worlds search) actions) :
    ∀ tile ∈ s.page.mounted, s.page.dSelector ≠ "" → s.page.wSelector ≠ "" →
      s.page.tiles tile.key = some ⟨some (tile.data s.page.selection)⟩ ∨
        tile.data s.page.selection ∈ s.outstanding := by
  intro tile member dimension world
  have start : Settled worlds (.connected layers worlds search) :=
    ⟨.connected layers search, fun _ member => (by cases member), fun _ member => (by cases member),
      fun _ member => (by cases member), fun _ member => (by cases member)⟩
  have settled := run.invariant (Settled.step readBack) steps start
  refine settled.shows.shown tile member (decide_eq_true (if_neg ?_))
  rintro (same | same)
  · exact dimension same
  · exact world same

/-- The sample with its picture. -/
def sampleShown : List SessionAction := sampleSession ++ [.render 0 .picture, .listen]

def sampleShownEnd : MapSession := (mapSession.exec sampleStart sampleShown).get (by decide)

theorem tilesShowSelection_sample :
    sampleShownEnd.page.tiles sampleTile.key =
        some ⟨some (sampleTile.data sampleShownEnd.page.selection)⟩ ∨
      sampleTile.data sampleShownEnd.page.selection ∈ sampleShownEnd.outstanding :=
  tilesShowSelection (by decide : AllReadBack sampleWorlds)
    (Machine.runs_exec_get (by decide) : mapSession.Runs sampleStart sampleShown sampleShownEnd)
    (Machine.stepsOnly_of_checkSteps (by decide)) sampleTile (by decide) (by decide) (by decide)

/-- An impatient user picks the other dimension while the first picture is rendered, which comes
last and stays. -/
example :
    ∃ s, mapSession.exec sampleStart (sampleSession ++ [.act (.changeDimension "the_nether"),
        .handle, .render 1 .picture, .render 0 .picture, .listen, .listen]) = some s ∧
      s.outstanding = [] ∧ s.page.dSelector = "the_nether" ∧
      s.page.tiles sampleTile.key =
        some ⟨some (sampleTile.data ⟨"constantiam.net", "overworld"⟩)⟩ :=
  ⟨_, rfl, by decide, by decide, by decide⟩

end WebChunk.Web
