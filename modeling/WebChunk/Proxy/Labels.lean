import Mathlib.Data.List.Basic
import WebChunk.Proxy.PacketProcessor

/-!
# The labels of sniffed chunks

A login or respawn packet names a dimension type and a world. The registry of a login
describes dimension types, and the processor looks the world up among them.
-/

namespace WebChunk.Proxy

open WebChunk.Go

/-- The dimension type and the world that a packet names. -/
def Packet.names : Packet → Option (String × String)
  | .respawn content => content
  | .login content => content.map fun login => (login.dim, login.dimName)
  | _ => none

def Packet.login? : Packet → Option Login
  | .login content => content
  | _ => none

def Packet.chunk? : Packet → Option (ChunkPos × Chunk)
  | .levelChunkWithLight content => content
  | _ => none

/-- The entries that the loop over the registry of a login takes up, in order. -/
def Packet.dimensions : Packet → List (String × LoadedDim)
  | .login (some content) =>
      match content.dimCodec.bind registryValue with
      | some dims => dims.filterMap dimension
      | none => []
  | _ => []

/-- The dimension type and the world that were named last. -/
def latestNames (packets : List Packet) : Option (String × String) :=
  (packets.filterMap Packet.names).getLast?

def latestLogin (packets : List Packet) : Option Login :=
  (packets.filterMap Packet.login?).getLast?

/-- The world that was named last. -/
def world (packets : List Packet) : String := ((latestNames packets).map Prod.snd).getD ""

/-- The last registry entry of this name, in all logins so far. -/
def registered (packets : List Packet) (name : String) : Option LoadedDim :=
  (packets.flatMap Packet.dimensions).reverse.lookup name

/-- The dimension type registry of the login has an entry of this name, with this lower end
and height. -/
def Login.HasDimensionType (login : Login) (t : String) (minY height : Int) : Prop :=
  ∃ cod dims dd de, login.dimCodec = some cod ∧ registryValue cod = some dims ∧
    .compound dd ∈ dims ∧ dd.lookup "name" = some (.string t) ∧
    dd.lookup "element" = some (.compound de) ∧ de.lookup "min_y" = some (.int minY) ∧
    de.lookup "height" = some (.int height)

/-- After these packets the player is in the world `n` of the dimension type `t`, for which the
registry of the latest login has this lower end and height. -/
structure Labelled (packets : List Packet) (t n : String) (minY height : Int) : Prop where
  named : latestNames packets = some (t, n)
  entry : ∃ login, latestLogin packets = some login ∧ login.HasDimensionType t minY height

/-- No chunk is lost or mislabelled. The chunks that are sent are chunks that were received, in
their order and each at most once; and a chunk that is received in a world of a known type is
sent, with the name of the world and the height of the type. -/
structure EveryChunkSniffed (cl : ClientInfo) (packets : List Packet) (order : List CachePos) :
    Prop where
  inOrder : ((packetAcceptor cl packets order).SaveChannel.map fun k => (k.Pos, k.Data)).Sublist
    (packets.filterMap Packet.chunk?)
  sent : ∀ before pos cc after, packets = before ++ .levelChunkWithLight (some (pos, cc)) :: after →
    ∀ t n minY height, Labelled before t n minY height →
      (received cl (before ++ [.levelChunkWithLight (some (pos, cc))])).SaveChannel =
        (received cl before).SaveChannel ++ [⟨cl.name, cl.dest, n, minY, height, pos, cc⟩]

/-- The processor comes as far as the blocks of a chunk that is received now. -/
def reachesBlocks (packets : List Packet) : Prop :=
  world packets ≠ "" ∧ (registered packets (world packets)).isSome

/-- Some chunk had a block state outside `block.StateList`. -/
def UnknownState (cl : ClientInfo) (packets : List Packet) : Prop :=
  ∃ before pos cc after, packets = before ++ .levelChunkWithLight (some (pos, cc)) :: after ∧
    reachesBlocks before ∧ cc.known cl = false

/-- Wherever a chunk is received, its world is itself the name of a registry entry, the last of
which has the height of the world's type, and no block state has been unknown. -/
def WorldsRegistered (cl : ClientInfo) (packets : List Packet) : Prop :=
  ∀ before pos cc after, packets = before ++ .levelChunkWithLight (some (pos, cc)) :: after →
    ∀ t n minY height, Labelled before t n minY height →
      n ≠ "" ∧ (∃ dim, registered before n = some dim ∧ dim.minY = minY ∧ dim.height = height) ∧
        ¬ UnknownState cl (before ++ [.levelChunkWithLight (some (pos, cc))])

/-! ### The history of a packet more -/

variable {cl : ClientInfo} {packets : List Packet} {p : Packet} {s : Acceptor}

theorem latestNames_snoc (packets : List Packet) (p : Packet) :
    latestNames (packets ++ [p]) = p.names.or (latestNames packets) := by
  cases names : p.names <;> simp [latestNames, names]

theorem world_snoc (packets : List Packet) (p : Packet) :
    world (packets ++ [p]) = (p.names.map Prod.snd).getD (world packets) := by
  rw [world, latestNames_snoc]
  cases p.names <;> rfl

theorem registered_snoc (packets : List Packet) (p : Packet) (name : String) :
    registered (packets ++ [p]) name =
      (p.dimensions.reverse.lookup name).or (registered packets name) := by
  rw [registered, List.flatMap_append, List.reverse_append, List.lookup_append]
  simp [registered]

/-- An unknown state is found at the last packet, or was found before. -/
theorem unknownState_snoc : UnknownState cl (packets ++ [p]) ↔ UnknownState cl packets ∨
    ∃ pos cc, p = .levelChunkWithLight (some (pos, cc)) ∧ reachesBlocks packets ∧
      cc.known cl = false := by
  constructor
  · rintro ⟨before, pos, cc, after, whole, reaches, unknown⟩
    rcases List.eq_nil_or_concat after with rfl | ⟨others, last, rfl⟩
    · obtain ⟨rfl, same⟩ := List.append_inj' whole rfl
      cases same
      exact .inr ⟨pos, cc, rfl, reaches, unknown⟩
    · rw [List.concat_eq_append, ← List.cons_append, ← List.append_assoc] at whole
      obtain ⟨same, _⟩ := List.append_inj' whole rfl
      exact .inl ⟨before, pos, cc, others, same, reaches, unknown⟩
  · rintro (⟨before, pos, cc, after, rfl, reaches, unknown⟩ | ⟨pos, cc, rfl, reaches, unknown⟩)
    · exact ⟨before, pos, cc, after ++ [p], by simp, reaches, unknown⟩
    · exact ⟨packets, pos, cc, [], rfl, reaches, unknown⟩

/-- The loop over the registry leaves under a name the last entry that it has taken up. -/
theorem get_foldl_loadDim (dims : List Value) (loadedDims : Map String LoadedDim) (name : String) :
    (dims.foldl Acceptor.loadDim loadedDims).get name =
      ((dims.filterMap dimension).reverse.lookup name).or (loadedDims.get name) := by
  induction dims generalizing loadedDims with
  | nil => rfl
  | cons element rest inductionHypothesis =>
      rw [List.foldl_cons, inductionHypothesis]
      cases entry : dimension element with
      | none => simp [Acceptor.loadDim, entry]
      | some found =>
          obtain ⟨dimname, dim⟩ := found
          have stored : (Acceptor.loadDim loadedDims element).get name =
              (if name = dimname then some dim else none).or (loadedDims.get name) := by
            simp only [Acceptor.loadDim, entry, Map.get_set]
            split <;> rfl
          rw [stored, List.filterMap_cons, entry, List.reverse_cons, List.lookup_append,
            Option.or_assoc]
          congr 2
          by_cases same : name = dimname
          · rw [if_pos same, same, List.lookup_cons_self]
          · rw [if_neg same, List.lookup_cons, beq_eq_false_iff_ne.mpr same]
            rfl

/-- An iteration that is not cut short by a panic is the case of the packet, up to the text that
is pushed. -/
theorem accept_frame (cl : ClientInfo) (p : Packet) (live : s.panicked = false) : ∃ pushed,
    s.accept cl p = { (s.handle cl p).1 with pushed := pushed } := by
  simp only [Acceptor.accept, live, Bool.false_eq_true, if_false]
  split
  · rename_i after equation
    rw [equation]
    exact ⟨_, rfl⟩
  · rename_i after equation
    rw [equation]
    exact ⟨_, rfl⟩

/-- What the processor knows after these packets. -/
structure Tracks (cl : ClientInfo) (packets : List Packet) (s : Acceptor) : Prop where
  cached : s.c = .empty
  panicked : s.panicked = true ↔ UnknownState cl packets
  world : s.panicked = false → s.currentDim = world packets
  dims : s.panicked = false → ∀ name, s.loadedDims.get name = registered packets name
  inOrder : (s.SaveChannel.map fun k => (k.Pos, k.Data)).Sublist (packets.filterMap Packet.chunk?)

namespace Tracks

theorem initial (cl : ClientInfo) : Tracks cl [] .initial where
  cached := rfl
  panicked := by simp [Acceptor.initial, UnknownState]
  world _ := rfl
  dims _ name := rfl
  inOrder := List.Sublist.refl _

/-- The chunks that were received before are received chunks. -/
theorem sublist_snoc (tracks : Tracks cl packets s) (p : Packet) :
    (s.SaveChannel.map fun k => (k.Pos, k.Data)).Sublist
      ((packets ++ [p]).filterMap Packet.chunk?) := by
  rw [List.filterMap_append]
  exact tracks.inOrder.trans (List.sublist_append_left _ _)

/-- Nothing is sent and no state is unknown; the world and the dimension types are known. -/
theorem follows (tracks : Tracks cl packets s) {next : Acceptor} (cached : next.c = s.c)
    (saved : next.SaveChannel = s.SaveChannel) (panicked : next.panicked = s.panicked)
    (known : ∀ pos cc, p = .levelChunkWithLight (some (pos, cc)) → reachesBlocks packets →
      cc.known cl = true)
    (named : s.panicked = false → next.currentDim = WebChunk.Proxy.world (packets ++ [p]))
    (loaded : s.panicked = false → ∀ name,
      next.loadedDims.get name = registered (packets ++ [p]) name) :
    Tracks cl (packets ++ [p]) next where
  cached := cached.trans tracks.cached
  panicked := by
    rw [panicked, tracks.panicked, unknownState_snoc]
    refine ⟨.inl, fun unknown => unknown.elim id ?_⟩
    rintro ⟨pos, cc, same, reaches, unknown⟩
    cases unknown.symm.trans (known pos cc same reaches)
  world live := named (panicked ▸ live)
  dims live := loaded (panicked ▸ live)
  inOrder := saved ▸ tracks.sublist_snoc p

/-- A packet that names nothing changes nothing. -/
theorem ignores (tracks : Tracks cl packets s) (pushed : List String) (names : p.names = none)
    (dimensions : p.dimensions = [])
    (known : ∀ pos cc, p = .levelChunkWithLight (some (pos, cc)) → reachesBlocks packets →
      cc.known cl = true) : Tracks cl (packets ++ [p]) { s with pushed := pushed } := by
  refine tracks.follows rfl rfl rfl known (fun live => ?_) fun live name => ?_
  · rw [world_snoc, names]
    exact tracks.world live
  · rw [registered_snoc, dimensions]
    exact tracks.dims live name

/-- A panic is the end. -/
theorem stays (tracks : Tracks cl packets s) (panicked : s.panicked = true) :
    Tracks cl (packets ++ [p]) s where
  cached := tracks.cached
  panicked :=
    ⟨fun _ => unknownState_snoc.mpr (.inl (tracks.panicked.mp panicked)), fun _ => panicked⟩
  world live := by cases panicked.symm.trans live
  dims live := by cases panicked.symm.trans live
  inOrder := tracks.sublist_snoc p

theorem reachesBlocks_iff (tracks : Tracks cl packets s) (live : s.panicked = false) :
    reachesBlocks packets ↔ s.currentDim ≠ "" ∧ (s.loadedDims.get s.currentDim).isSome := by
  rw [reachesBlocks, tracks.world live, tracks.dims live]

/-- The step lemma. -/
theorem accept (tracks : Tracks cl packets s) (p : Packet) :
    Tracks cl (packets ++ [p]) (s.accept cl p) := by
  cases live : s.panicked with
  | true =>
      rw [Acceptor.accept, live, if_pos rfl]
      exact tracks.stays live
  | false =>
      obtain ⟨pushed, same⟩ := accept_frame cl p live
      have empty : ∀ i, s.c.get i = none := fun i => by rw [tracks.cached, Map.get_empty]
      have reaches := tracks.reachesBlocks_iff live
      rw [same]
      cases p with
      | levelChunkWithLight content =>
          simp only [Acceptor.handle, Acceptor.levelChunkWithLight]
          split
          · rename_i nameless
            exact tracks.ignores pushed rfl rfl
              fun _ _ _ here => absurd nameless (reaches.mp here).1
          · rename_i named
            split
            · rename_i absent
              exact tracks.ignores pushed rfl rfl
                fun _ _ _ here => by simp [reaches, absent] at here
            · rename_i dim stored
              split
              · exact tracks.ignores pushed rfl rfl nofun
              · rename_i cpos cc
                split
                · rename_i known
                  refine { tracks.ignores pushed rfl rfl (fun _ _ same _ => ?_) with inOrder := ?_ }
                  · cases same
                    exact known
                  · rw [List.filterMap_append, Acceptor.save, List.map_append]
                    exact tracks.inOrder.append (List.Sublist.refl _)
                · rename_i unknown
                  have here : reachesBlocks packets := reaches.mpr ⟨named, by simp [stored]⟩
                  exact {
                    cached := tracks.cached
                    panicked := ⟨fun _ => unknownState_snoc.mpr
                      (.inr ⟨cpos, cc, rfl, here, Bool.eq_false_iff.mpr unknown⟩), fun _ => rfl⟩
                    world := nofun
                    dims := nofun
                    inOrder := tracks.sublist_snoc _ }
      | blockEntityData content =>
          have unchanged : (s.handle cl (.blockEntityData content)).1 = s := by
            simp only [Acceptor.handle, Acceptor.blockEntityData, empty]
            split
            · rfl
            · split
              · rfl
              · split <;> rfl
          rw [unchanged]
          exact tracks.ignores pushed rfl rfl nofun
      | forgetLevelChunk content =>
          have unchanged : (s.handle cl (.forgetLevelChunk content)).1 = s := by
            simp only [Acceptor.handle, Acceptor.forgetLevelChunk, empty]
            split
            · rfl
            · split <;> rfl
          rw [unchanged]
          exact tracks.ignores pushed rfl rfl nofun
      | respawn content =>
          cases content with
          | none => exact tracks.ignores pushed rfl rfl nofun
          | some content =>
              refine tracks.follows rfl rfl rfl nofun (fun _ => ?_) fun _ name => ?_
              · rw [world_snoc]
                rfl
              · rw [registered_snoc]
                exact tracks.dims live name
      | login content =>
          cases content with
          | none => exact tracks.ignores pushed rfl rfl nofun
          | some content =>
              simp only [Acceptor.handle, Acceptor.login]
              split
              · rename_i unread
                refine tracks.follows rfl rfl rfl nofun (fun _ => ?_) fun _ name => ?_
                · rw [world_snoc]
                  rfl
                · rw [registered_snoc, Packet.dimensions, unread]
                  exact tracks.dims live name
              · rename_i dims read
                refine tracks.follows rfl rfl rfl nofun (fun _ => ?_) fun _ name => ?_
                · rw [world_snoc]
                  rfl
                · rw [registered_snoc, Packet.dimensions, read, get_foldl_loadDim,
                    tracks.dims live]
      | other => exact tracks.ignores pushed rfl rfl nofun

end Tracks

/-- The run lemma. -/
theorem tracks_received (cl : ClientInfo) (packets : List Packet) :
    Tracks cl packets (received cl packets) := by
  induction packets using List.reverseRecOn with
  | nil => exact .initial cl
  | append_singleton packets p inductionHypothesis =>
      rw [received, List.foldl_append]
      exact inductionHypothesis.accept p

/-- Flushing the empty cache sends nothing. -/
theorem foldl_flushNext (cached : s.c = .empty) (order : List CachePos) :
    order.foldl (Acceptor.flushNext cl) s = s := by
  induction order with
  | nil => rfl
  | cons i rest inductionHypothesis =>
      rw [List.foldl_cons]
      have unchanged : s.flushNext cl i = s := by simp [Acceptor.flushNext, cached]
      rw [unchanged, inductionHypothesis]

theorem packetAcceptor_eq (cl : ClientInfo) (packets : List Packet) (order : List CachePos) :
    packetAcceptor cl packets order = received cl packets := by
  rw [packetAcceptor, foldl_flushNext (tracks_received cl packets).cached, ite_self]

/-- Exactly when a chunk packet puts a given value into `SaveChannel`. -/
theorem saveChannel_accept_chunk (cl : ClientInfo) (s : Acceptor) (pos : ChunkPos) (cc : Chunk)
    (k : ProxiedChunk) :
    (s.accept cl (.levelChunkWithLight (some (pos, cc)))).SaveChannel = s.SaveChannel ++ [k] ↔
      s.panicked = false ∧ s.currentDim ≠ "" ∧ ∃ dim, s.loadedDims.get s.currentDim = some dim ∧
        cc.known cl = true ∧ s.proxied cl dim pos cc = k := by
  have unsent : s.SaveChannel ≠ s.SaveChannel ++ [k] := by simp
  cases live : s.panicked with
  | true => simp [Acceptor.accept, live]
  | false =>
      obtain ⟨pushed, same⟩ := accept_frame cl (.levelChunkWithLight (some (pos, cc))) live
      rw [same]
      simp only [Acceptor.handle, Acceptor.levelChunkWithLight]
      split
      · rename_i nameless
        simp [nameless]
      · rename_i named
        split
        · rename_i absent
          simp [absent]
        · rename_i dim stored
          split
          · rename_i known
            simp [Acceptor.save, named, stored, known]
          · rename_i unknown
            simp [unknown]

/-- One chunk is sent with the label of its world's type exactly if the world is registered
with the type's height. -/
theorem sniffed_iff (cl : ClientInfo) {before : List Packet} {t n : String} {minY height : Int}
    (labelled : Labelled before t n minY height) (pos : ChunkPos) (cc : Chunk) :
    (received cl (before ++ [.levelChunkWithLight (some (pos, cc))])).SaveChannel =
        (received cl before).SaveChannel ++ [⟨cl.name, cl.dest, n, minY, height, pos, cc⟩] ↔
      n ≠ "" ∧ (∃ dim, registered before n = some dim ∧ dim.minY = minY ∧ dim.height = height) ∧
        ¬ UnknownState cl (before ++ [.levelChunkWithLight (some (pos, cc))]) := by
  have tracks := tracks_received cl before
  have named : world before = n := by rw [world, labelled.named]; rfl
  have step : received cl (before ++ [.levelChunkWithLight (some (pos, cc))]) =
      (received cl before).accept cl (.levelChunkWithLight (some (pos, cc))) := by
    rw [received, List.foldl_append]
    rfl
  rw [step, saveChannel_accept_chunk, unknownState_snoc, ← tracks.panicked]
  constructor
  · rintro ⟨live, nonempty, dim, stored, known, same⟩
    have here : (received cl before).currentDim = n := (tracks.world live).trans named
    rw [here] at nonempty stored
    rw [tracks.dims live] at stored
    cases same
    refine ⟨nonempty, ⟨dim, stored, rfl, rfl⟩, ?_⟩
    rintro (panicked | ⟨_, _, same, _, unknown⟩)
    · cases live.symm.trans panicked
    · cases same
      cases known.symm.trans unknown
  · rintro ⟨nonempty, ⟨dim, stored, rfl, rfl⟩, known⟩
    rw [not_or] at known
    have live : (received cl before).panicked = false := Bool.eq_false_iff.mpr known.1
    have here : (received cl before).currentDim = n := (tracks.world live).trans named
    refine ⟨live, by rwa [here], dim, by rw [here, tracks.dims live, stored], ?_, ?_⟩
    · by_contra unknown
      refine known.2 ⟨pos, cc, rfl, ?_, Bool.eq_false_iff.mpr unknown⟩
      rw [reachesBlocks, named, stored]
      exact ⟨nonempty, rfl⟩
    · rw [Acceptor.proxied, here]

/-- No chunk is lost or mislabelled exactly if every chunk is received in a world that is itself
registered, with the height of its type. -/
theorem everyChunkSniffed_iff (cl : ClientInfo) (packets : List Packet) (order : List CachePos) :
    EveryChunkSniffed cl packets order ↔ WorldsRegistered cl packets := by
  constructor
  · intro sniffed before pos cc after whole t n minY height labelled
    exact (sniffed_iff cl labelled pos cc).mp
      (sniffed.sent before pos cc after whole t n minY height labelled)
  · intro worlds
    constructor
    · rw [packetAcceptor_eq]
      exact (tracks_received cl packets).inOrder
    · intro before pos cc after whole t n minY height labelled
      exact (sniffed_iff cl labelled pos cc).mpr
        (worlds before pos cc after whole t n minY height labelled)

/-- A registry with the one entry `minecraft:overworld`. -/
def overworldOnly : List (String × Value) :=
  [("minecraft:dimension_type", .compound [("value", .list [.compound
    [("name", .string "minecraft:overworld"), ("id", .int 0),
      ("element", .compound [("min_y", .int (-64)), ("height", .int 384)])]])])]

/-- The player logs in to a world of that type which has a name of its own, and receives a
chunk. -/
def lobby : List Packet :=
  [.login (some ⟨some overworldOnly, "minecraft:overworld", "minecraft:lobby"⟩),
    .levelChunkWithLight (some (⟨0, 0⟩, ⟨[], []⟩))]

/-- The chunk is dropped. -/
theorem lobby_chunk_lost : ∃ (cl : ClientInfo) (packets : List Packet) (order : List CachePos),
    ¬ EveryChunkSniffed cl packets order ∧ (packetAcceptor cl packets order).SaveChannel = [] := by
  refine ⟨⟨"player", "localhost", 1⟩, lobby, [], fun sniffed => ?_, rfl⟩
  have labelled : Labelled (lobby.take 1) "minecraft:overworld" "minecraft:lobby" (-64) 384 :=
    ⟨rfl, _, rfl, _, _, _, _, rfl, rfl, List.mem_singleton_self _, rfl, rfl, rfl, rfl⟩
  have sent := sniffed.sent (lobby.take 1) ⟨0, 0⟩ ⟨[], []⟩ [] rfl _ _ _ _ labelled
  exact absurd (congrArg List.length sent) (by decide)

end WebChunk.Proxy
