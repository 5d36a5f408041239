import WebChunk.Storages.Ingest

/-!
# Do the ingest paths agree?

Both paths should store the same chunk once under the same key, whichever storage they
choose and whether the world and the dimension are there. The range loops of the two
paths may meet the storages in different orders.
-/

namespace WebChunk.Storages

open WebChunk.Go WebChunk.Render

variable {St Chunk Level : Type}

/-! ### Lookups -/

/-- The three outcomes of `GetWorldStorage`. -/
inductive LookupResult (storages : Map String (Storage St)) (st : St) (wname : String)
    (order : List String) :
    Option SWorld × Option (ChunkStorage St) × Option StorageError → Prop where
  | found {name : String} {s : ChunkStorage St} {w : SWorld} (member : name ∈ order)
      (driver : driverOf storages name = some s) (known : s.GetWorld st wname = (some w, none)) :
      LookupResult storages st wname order (some w, some s, none)
  | failed (err : StorageError) : LookupResult storages st wname order (none, none, some err)
  | nowhere (unknown : ∀ name ∈ order, ∀ s, driverOf storages name = some s →
      s.GetWorld st wname = (none, none)) :
      LookupResult storages st wname order (none, none, none)

theorem lookupResult (storages : Map String (Storage St)) (st : St) (wname : String)
    (order : List String) :
    LookupResult storages st wname order (GetWorldStorage storages st wname order) := by
  induction order with
  | nil => exact .nowhere fun name member => by cases member
  | cons name rest inductionHypothesis =>
      -- A storage that is passed over does not know the world.
      have later : (∀ s, driverOf storages name = some s → s.GetWorld st wname = (none, none)) →
          LookupResult storages st wname (name :: rest)
            (GetWorldStorage storages st wname rest) := by
        intro here
        generalize GetWorldStorage storages st wname rest = result at inductionHypothesis
        cases inductionHypothesis with
        | found member driver known => exact .found (List.mem_cons_of_mem _ member) driver known
        | failed err => exact .failed err
        | nowhere unknown =>
            refine .nowhere fun other member => ?_
            rcases List.mem_cons.mp member with rfl | member
            · exact here
            · exact unknown other member
      unfold GetWorldStorage
      split
      · rename_i noDriver
        exact later fun s driver => by rw [noDriver] at driver; cases driver
      · rename_i s driver
        split
        · exact .failed _
        · exact .found List.mem_cons_self driver (by assumption)
        · rename_i unknown
          exact later fun other same => by rw [driver] at same; cases same; exact unknown

/-- Whether there is a capable storage does not depend on the order. -/
theorem findCapableStorage_isSome {storages : Map String (Storage St)} {pref : String}
    (first second : storages.RangeOrder)
    (found : (findCapableStorage storages pref first.order).isSome) :
    (findCapableStorage storages pref second.order).isSome := by
  unfold findCapableStorage at found ⊢
  split
  · rename_i p named
    rw [named] at found
    exact found
  · rename_i unnamed
    rw [unnamed] at found
    obtain ⟨name, member, there⟩ := List.findSome?_isSome_iff.mp found
    have listed : name ∈ second.order :=
      (second.mem_order name).mpr ((first.mem_order name).mp member)
    exact List.findSome?_isSome_iff.mpr ⟨name, listed, there⟩

/-! ### The HTTP handler -/

/-- Status 200. -/
def Response.success : Response → Bool
  | .answered code _ => code == 200
  | .picture _ => true
  | .panicked => false

/-- The storage that the handler stores into, and the state after its world was created
where this is necessary. -/
def apiTarget (storages : Map String (Storage St)) (pref : String) (lookup fallback : List String)
    (wname : String) (st : St) : Option (ChunkStorage St × St) :=
  match GetWorldStorage storages st wname lookup with
  | (_, some s, _) => some (s, st)
  | (_, none, _) =>
      (findCapableStorage storages pref fallback).map fun s =>
        (s, (s.AddWorld st ⟨wname, wname, ""⟩).2)

/-- The handler finds the storage, or gives up without one. -/
theorem apiWorldStorage_spec {storages : Map String (Storage St)} {pref wname place : String}
    {lookup fallback : List String} {x after : Session St}
    {outcome : Except Response (ChunkStorage St)}
    (searched : apiWorldStorage storages pref lookup fallback wname place x = (outcome, after))
    (succeeded : after.Succeeded) :
    after.stored = x.stored ∧
      (∀ s, outcome = .ok s →
        apiTarget storages pref lookup fallback wname x.st = some (s, after.st)) ∧
      ∀ response, outcome = .error response →
        apiTarget storages pref lookup fallback wname x.st = none ∧ response.success = false := by
  have result := lookupResult storages x.st wname lookup
  unfold apiWorldStorage Session.getWorldStorage at searched
  unfold apiTarget
  generalize GetWorldStorage storages x.st wname lookup = found at result searched ⊢
  cases result with
  | found _ _ _ =>
      cases searched
      simp [DriverCall.stored]
  | failed err =>
      cases searched
      simp [DriverCall.succeeded] at succeeded
  | nowhere _ =>
      dsimp only at searched ⊢
      split at searched
      · rename_i nothing
        cases searched
        simp [nothing, DriverCall.stored, Response.success]
      · rename_i s fallen
        obtain ⟨err, st, added, same⟩ := (x.log (.getWorldStorage wname none none)).addWorld_eq s
          ⟨wname, wname, ""⟩
        rw [Session.log_st] at added
        rw [same] at searched
        cases err with
        | some err =>
            cases searched
            simp [DriverCall.succeeded] at succeeded
        | none =>
            cases searched
            simp [fallen, added, DriverCall.stored]

/-- The handler goes on if the dimension is there, and gives up if it is not. -/
theorem apiDimension_spec {s : ChunkStorage St} {wname dname : String} {x after : Session St}
    {outcome : Option Response} (checked : apiDimension s wname dname x = (outcome, after))
    (succeeded : after.Succeeded) :
    x.Succeeded ∧ after.stored = x.stored ∧
      (outcome = none → (s.GetDimension x.st wname dname).1.isSome) ∧
      ∀ response, outcome = some response →
        (s.GetDimension x.st wname dname).1 = none ∧ response.success = false := by
  unfold apiDimension Session.getDimension at checked
  generalize s.GetDimension x.st wname dname = found at checked ⊢
  obtain ⟨dim, err⟩ := found
  cases err with
  | some err =>
      cases checked
      obtain ⟨before, asked, _⟩ := (Session.succeeded_log _ _).mp succeeded
      rcases asked with noError | ⟨_, missing⟩
      · cases noError
      · have noDim : dim = none := missing
        simp [before, noDim, DriverCall.stored, Response.success]
  | none =>
      cases dim with
      | some dim =>
          cases checked
          obtain ⟨before, _⟩ := (Session.succeeded_log _ _).mp succeeded
          simp [before, DriverCall.stored]
      | none =>
          obtain ⟨err, st, same⟩ := (x.log (.getDimension wname dname none none)).addDimension_eq s
            wname ⟨dname, wname⟩
          dsimp only at checked
          rw [same] at checked
          cases err with
          | some err =>
              cases checked
              simp [DriverCall.succeeded] at succeeded
          | none =>
              cases checked
              simp only [Session.succeeded_log, Session.succeeded_with_st] at succeeded
              simp [succeeded.1.1, DriverCall.stored, Response.success]

/-- A painter that is handed a pointer panics, so only a request without the header is
answered with success. -/
theorem apiPaint_success {request : SubmitRequest} {place : String} :
    (apiPaint request place).success = true ↔ request.drawTTYPE = "" := by
  unfold apiPaint
  split
  · rename_i plain
    simp [plain, Response.success]
  · rename_i painted
    have refused : ∀ name provider, (if request.drawTTYPE = "default" then defaultProvider
        else (providerOf request.drawTTYPE).map fun provider => (request.drawTTYPE, provider)) =
          some (name, provider) → provider.painter ≠ .chunkPointer := by
      intro name provider found
      split at found
      · cases found
        decide
      · obtain ⟨other, known, same⟩ := Option.map_eq_some_iff.mp found
        cases same
        exact painter_ne_chunkPointer known
    dsimp only
    split
    · simp [painted, Response.success]
    · rename_i name provider found
      rw [if_neg (refused name provider found)]
      simp [painted, Response.success]

/-- The chunk `col` was stored exactly once under its key. -/
def StoresOnce (formats : Formats Chunk Level) (col : Chunk) (wname dname : String)
    (x : Session St) : Prop :=
  ∃ dat, x.stored = [⟨wname, dname, formats.XPos col, formats.ZPos col, dat⟩] ∧
    formats.ConvFlexibleNBTtoSave dat = .ok col

/-- The handler stores the chunk and answers success exactly when no picture is asked for,
a storage is found, and it has the dimension. -/
theorem apiStores_iff {formats : Formats Chunk Level} {storages : Map String (Storage St)}
    {pref : String} {lookup fallback : List String} {request : SubmitRequest} {body : Bytes}
    {col : Chunk} {st : St} (read : request.body = .ok body)
    (parsed : formats.ConvFlexibleNBTtoSave body = .ok col)
    (succeeded : (apiAddChunkHandler formats storages pref lookup fallback request
      ⟨st, []⟩).2.Succeeded) :
    (apiAddChunkHandler formats storages pref lookup fallback request ⟨st, []⟩).1.success = true ∧
        StoresOnce formats col request.world request.dim
          (apiAddChunkHandler formats storages pref lookup fallback request ⟨st, []⟩).2 ↔
      request.drawTTYPE = "" ∧ ∃ s st',
        apiTarget storages pref lookup fallback request.world st = some (s, st') ∧
          (s.GetDimension st' request.world request.dim).1.isSome := by
  unfold apiAddChunkHandler at succeeded ⊢
  simp only [read, parsed] at succeeded ⊢
  generalize toString (formats.XPos col) ++ ":" ++ toString (formats.ZPos col) = place
    at succeeded ⊢
  cases searched : apiWorldStorage storages pref lookup fallback request.world place ⟨st, []⟩ with
  | mk outcome x =>
  rw [searched] at succeeded
  cases outcome with
  | error response =>
      obtain ⟨noTarget, refused⟩ := (apiWorldStorage_spec searched succeeded).2.2 response rfl
      simp [noTarget, refused]
  | ok s =>
      dsimp only at succeeded ⊢
      cases checked : apiDimension s request.world request.dim x with
      | mk outcome after =>
      rw [checked] at succeeded
      cases outcome with
      | some response =>
          obtain ⟨before, _, _, givesUp⟩ := apiDimension_spec checked succeeded
          obtain ⟨missing, refused⟩ := givesUp response rfl
          have target := (apiWorldStorage_spec searched before).2.1 s rfl
          simp [target, missing, refused]
      | none =>
          obtain ⟨err, last, same⟩ := after.addChunkRaw_eq s request.world request.dim
            (formats.XPos col) (formats.ZPos col) body
          dsimp only at succeeded ⊢
          rw [same] at succeeded ⊢
          cases err with
          | some err => simp [DriverCall.succeeded] at succeeded
          | none =>
              simp only [Session.succeeded_log, Session.succeeded_with_st] at succeeded
              obtain ⟨before, unchanged, goesOn, _⟩ := apiDimension_spec checked succeeded.1
              obtain ⟨empty, finds, _⟩ := apiWorldStorage_spec searched before
              have target := finds s rfl
              have there := goesOn rfl
              have stored : after.stored = [] := unchanged.trans empty
              simp [StoresOnce, apiPaint_success, target, there, stored, parsed, DriverCall.stored]

/-! ### The consumer -/

/-- The consumer finds the storage, or drops the chunk without one. -/
theorem consumerWorldStorage_spec {storages : Map String (Storage St)} {pref server : String}
    {lookup fallback : List String} {x after : Session St}
    {outcome : Option (SWorld × ChunkStorage St)}
    (searched : consumerWorldStorage storages pref lookup fallback server x = (outcome, after))
    (succeeded : after.Succeeded) :
    after.stored = x.stored ∧
      (∀ w s, outcome = some (w, s) → w.Name = server) ∧
      (outcome = none → (∀ name ∈ lookup, ∀ s, driverOf storages name = some s →
          s.GetWorld x.st server = (none, none)) ∧
        findCapableStorage storages pref fallback = none) := by
  have result := lookupResult storages x.st server lookup
  unfold consumerWorldStorage Session.getWorldStorage at searched
  generalize GetWorldStorage storages x.st server lookup = found at result searched
  cases result with
  | @found _ s w _ _ _ =>
      cases searched
      obtain ⟨_, _, named⟩ := (Session.succeeded_log _ _).mp succeeded
      refine ⟨by simp [DriverCall.stored], fun w' s' same => ?_, fun nothing => by cases nothing⟩
      cases same
      exact named w rfl
  | failed err =>
      cases searched
      simp [DriverCall.succeeded] at succeeded
  | nowhere unknown =>
      dsimp only at searched
      split at searched
      · rename_i nothing
        cases searched
        exact ⟨by simp [DriverCall.stored], fun w s same => (by cases same),
          fun _ => ⟨unknown, nothing⟩⟩
      · rename_i s fallen
        obtain ⟨err, st, _, same⟩ := (x.log (.getWorldStorage server none none)).addWorld_eq s
          ⟨server, "", server⟩
        rw [same] at searched
        cases err with
        | some err =>
            cases searched
            simp [DriverCall.succeeded] at succeeded
        | none =>
            cases searched
            refine ⟨by simp [DriverCall.stored], fun w s same => ?_, fun nothing => by cases nothing⟩
            cases same
            rfl

/-- The consumer always comes to the dimension. -/
theorem consumerDimension_spec {s : ChunkStorage St} {w : SWorld} {dname : String}
    {x after : Session St} {outcome : Option SDim}
    (checked : consumerDimension s w dname x = (outcome, after)) (succeeded : after.Succeeded) :
    x.Succeeded ∧ after.stored = x.stored ∧
      ∃ d, outcome = some d ∧ d.Name = dname ∧ d.World = w.Name := by
  unfold consumerDimension Session.getDimension at checked
  generalize s.GetDimension x.st w.Name dname = found at checked
  obtain ⟨dim, err⟩ := found
  dsimp only at checked
  split at checked
  · rename_i failed
    cases checked
    obtain ⟨_, asked, _⟩ := (Session.succeeded_log _ _).mp succeeded
    rcases asked with noError | ⟨noDim, _⟩
    · exact absurd noError failed.1
    · exact absurd noDim failed.2
  · cases dim with
    | some d =>
        cases checked
        obtain ⟨before, _, named⟩ := (Session.succeeded_log _ _).mp succeeded
        exact ⟨before, by simp [DriverCall.stored], d, rfl, named d rfl⟩
    | none =>
        obtain ⟨failure, st, same⟩ := (x.log (.getDimension w.Name dname none err)).addDimension_eq s
          w.Name ⟨dname, w.Name⟩
        dsimp only at checked
        rw [same] at checked
        cases failure with
        | some failure =>
            cases checked
            simp [DriverCall.succeeded] at succeeded
        | none =>
            cases checked
            simp only [Session.succeeded_log, Session.succeeded_with_st] at succeeded
            exact ⟨succeeded.1.1, by simp [DriverCall.stored], _, rfl, rfl, rfl⟩

/-- The consumer stores the chunk once, below the trimmed name of its dimension, unless
no storage is found. -/
theorem chunkConsumer_spec {formats : Formats Chunk Level} {storages : Map String (Storage St)}
    {pref : String} {lookup fallback : List String} {r : ProxiedChunk Level} {bytes : Bytes} {st : St}
    (named : r.Server ≠ "" ∧ r.Dimension ≠ "")
    (marshalled : formats.marshal r.Pos r.DimensionLowestY r.Data = .ok bytes)
    (succeeded : (chunkConsumer formats storages pref lookup fallback r ⟨st, []⟩).Succeeded) :
    (chunkConsumer formats storages pref lookup fallback r ⟨st, []⟩).stored =
        [⟨r.Server, TrimPrefix r.Dimension "minecraft:", r.Pos.1, r.Pos.2, bytes⟩] ∨
      (∀ name ∈ lookup, ∀ s, driverOf storages name = some s →
          s.GetWorld st r.Server = (none, none)) ∧
        findCapableStorage storages pref fallback = none := by
  unfold chunkConsumer at succeeded ⊢
  rw [if_neg (by simp [named])] at succeeded ⊢
  dsimp only at succeeded ⊢
  cases searched : consumerWorldStorage storages pref lookup fallback r.Server ⟨st, []⟩ with
  | mk outcome x =>
  rw [searched] at succeeded
  cases outcome with
  | none => exact .inr ((consumerWorldStorage_spec searched succeeded).2.2 rfl)
  | some target =>
      obtain ⟨w, s⟩ := target
      left
      dsimp only at succeeded ⊢
      cases checked : consumerDimension s w (TrimPrefix r.Dimension "minecraft:") x with
      | mk outcome after =>
      rw [checked] at succeeded
      simp only [marshalled] at succeeded ⊢
      have reached : after.Succeeded := by
        cases outcome with
        | none => exact succeeded
        | some d =>
            dsimp only at succeeded
            split at succeeded
            · exact succeeded
            · exact Session.succeeded_before_addChunkRaw succeeded
      obtain ⟨before, unchanged, d, rfl, dname, dworld⟩ := consumerDimension_spec checked reached
      obtain ⟨empty, wname, _⟩ := consumerWorldStorage_spec searched before
      have stored : after.stored = [] := unchanged.trans empty
      dsimp only at succeeded ⊢
      rw [if_neg (not_not.mpr dworld)] at succeeded ⊢
      obtain ⟨err, last, same⟩ := after.addChunkRaw_eq s w.Name d.Name r.Pos.1 r.Pos.2 bytes
      rw [same] at succeeded ⊢
      cases err with
      | some err => simp [DriverCall.succeeded] at succeeded
      | none => simp [stored, wname w s rfl, dname, DriverCall.stored]

/-! ### Both paths -/

/-- The request and the chunk from the proxy carry the same chunk of the same dimension. -/
structure SameChunk (formats : Formats Chunk Level) (col : Chunk) (request : SubmitRequest)
    (r : ProxiedChunk Level) : Prop where
  world : r.Server = request.world
  dim : r.Dimension = request.dim
  pos : r.Pos = (formats.XPos col, formats.ZPos col)
  submitted : ∃ body, request.body = .ok body ∧ formats.ConvFlexibleNBTtoSave body = .ok col
  proxied : ∃ bytes, formats.marshal r.Pos r.DimensionLowestY r.Data = .ok bytes ∧
    formats.ConvFlexibleNBTtoSave bytes = .ok col

/-- Both paths store the chunk exactly once under its key, and the handler answers success.
The lists are the orders in which the range loops meet the storages. -/
def PathsAgree (formats : Formats Chunk Level) (storages : Map String (Storage St)) (pref : String)
    (apiLookup apiFallback lookup fallback : List String) (request : SubmitRequest)
    (r : ProxiedChunk Level) (col : Chunk) (st : St) : Prop :=
  let answer := apiAddChunkHandler formats storages pref apiLookup apiFallback request ⟨st, []⟩
  let consumed := chunkConsumer formats storages pref lookup fallback r ⟨st, []⟩
  (answer.1.success = true ∧ StoresOnce formats col request.world request.dim answer.2) ∧
    StoresOnce formats col request.world request.dim consumed

/-- Where the handler finds a storage, the consumer finds one. -/
theorem consumer_finds_storage {storages : Map String (Storage St)} {pref wname : String}
    {apiLookup apiFallback lookup fallback : storages.RangeOrder} {st : St}
    {target : ChunkStorage St × St}
    (found : apiTarget storages pref apiLookup.order apiFallback.order wname st = some target) :
    ¬ ((∀ name ∈ lookup.order, ∀ s, driverOf storages name = some s →
        s.GetWorld st wname = (none, none)) ∧
      findCapableStorage storages pref fallback.order = none) := by
  rintro ⟨unknown, nothing⟩
  have result := lookupResult storages st wname apiLookup.order
  unfold apiTarget at found
  generalize GetWorldStorage storages st wname apiLookup.order = lookedUp at result found
  cases result with
  | @found name s w member driver known =>
      have listed : name ∈ lookup.order :=
        (lookup.mem_order name).mpr ((apiLookup.mem_order name).mp member)
      have absent := unknown name listed s driver
      rw [known] at absent
      cases absent
  | failed _ | nowhere _ =>
      obtain ⟨s, fallen, _⟩ := Option.map_eq_some_iff.mp found
      have capable := findCapableStorage_isSome apiFallback fallback (by rw [fallen]; rfl)
      rw [nothing] at capable
      cases capable

/-- If all driver calls succeed, both paths store the chunk once under its key and the
handler answers success exactly when no picture is asked for, the dimension has no
namespace to trim, a storage is found, and it has the dimension. -/
theorem ingestPathsAgree_iff (formats : Formats Chunk Level) (storages : Map String (Storage St))
    (pref : String) (apiLookup apiFallback lookup fallback : storages.RangeOrder)
    (request : SubmitRequest) (r : ProxiedChunk Level) (col : Chunk) (st : St)
    (same : SameChunk formats col request r) (named : request.world ≠ "" ∧ request.dim ≠ "")
    (apiSucceeds : (apiAddChunkHandler formats storages pref apiLookup.order apiFallback.order
      request ⟨st, []⟩).2.Succeeded)
    (consumerSucceeds : (chunkConsumer formats storages pref lookup.order fallback.order r
      ⟨st, []⟩).Succeeded) :
    PathsAgree formats storages pref apiLookup.order apiFallback.order lookup.order fallback.order
        request r col st ↔
      (request.drawTTYPE = "" ∧ ∃ s st',
        apiTarget storages pref apiLookup.order apiFallback.order request.world st =
            some (s, st') ∧
          (s.GetDimension st' request.world request.dim).1.isSome) ∧
        TrimPrefix request.dim "minecraft:" = request.dim := by
  obtain ⟨body, read, parsed⟩ := same.submitted
  obtain ⟨bytes, marshalled, back⟩ := same.proxied
  unfold PathsAgree
  dsimp only
  rw [apiStores_iff read parsed apiSucceeds]
  refine and_congr_right fun ⟨_, s, st', target, _⟩ => ?_
  have consumed := chunkConsumer_spec (by rw [same.world, same.dim]; exact named) marshalled
    consumerSucceeds
  rw [same.world, same.dim, same.pos] at consumed
  rcases consumed with stored | lost
  · unfold StoresOnce
    rw [stored]
    simp [back]
  · exact absurd lost (consumer_finds_storage target)

/-- What the driver of a concrete run keeps. -/
structure Shelf where
  worlds : List SWorld := []
  dims : List SDim := []

/-- A driver that can do everything and never fails. -/
def shelfStorage : ChunkStorage Shelf where
  kind := .postgres
  GetAbilities := ⟨true, true⟩
  GetWorld shelf wname := (shelf.worlds.find? fun w => w.Name == wname, none)
  AddWorld shelf w := (none, { shelf with worlds := w :: shelf.worlds })
  GetDimension shelf wname dname :=
    (shelf.dims.find? fun d => d.World == wname && d.Name == dname, none)
  AddDimension shelf _ d := (none, { shelf with dims := d :: shelf.dims })
  AddChunkRaw shelf _ _ _ _ _ := (none, shelf)
  GetChunksRegion _ _ _ _ _ _ _ := .ok (.ok [])
  GetChunksCountRegion _ _ _ _ _ _ _ := .ok (.ok [])
  region_panics _ _ _ _ _ _ _ := iff_of_false (not_panics_ok _) id
  count_panics _ _ _ _ _ _ _ := iff_of_false (not_panics_ok _) id

def sampleStorages : Map String (Storage Shelf) := Map.empty.set "main" ⟨some shelfStorage⟩

def sampleOrder : sampleStorages.RangeOrder where
  order := ["main"]
  nodup := by decide
  mem_order key := by simp [sampleStorages, Map.set, Map.empty]

/-- The serialized form of a chunk at the origin. -/
def sampleFormats : Formats Unit Unit where
  ConvFlexibleNBTtoSave _ := .ok ()
  XPos _ := 0
  ZPos _ := 0
  marshal _ _ _ := .ok [1]

def sampleRequest : SubmitRequest where
  world := "world"
  dim := "overworld"
  body := .ok [0]

def sampleChunk : ProxiedChunk Unit := ⟨"world", "overworld", 0, (0, 0), ()⟩

/-- The first chunk of a new world: the handler creates the world and the dimension, and
answers with an error instead of storing the chunk. -/
theorem first_chunk_not_stored : ∃ (pref : String) (st : Shelf),
    SameChunk sampleFormats () sampleRequest sampleChunk ∧
      driverOf sampleStorages "main" = some shelfStorage ∧
      (apiAddChunkHandler sampleFormats sampleStorages pref sampleOrder.order sampleOrder.order
        sampleRequest ⟨st, []⟩).2.Succeeded ∧
      (chunkConsumer sampleFormats sampleStorages pref sampleOrder.order sampleOrder.order
        sampleChunk ⟨st, []⟩).Succeeded ∧
      ¬ PathsAgree sampleFormats sampleStorages pref sampleOrder.order sampleOrder.order
        sampleOrder.order sampleOrder.order sampleRequest sampleChunk () st := by
  refine ⟨"", {}, ⟨rfl, rfl, rfl, ⟨[0], rfl, rfl⟩, ⟨[1], rfl, rfl⟩⟩, rfl, ?_, ?_, ?_⟩
  · have calls : (apiAddChunkHandler sampleFormats sampleStorages "" sampleOrder.order
        sampleOrder.order sampleRequest ⟨{}, []⟩).2.calls =
        [.getWorldStorage "world" none none, .addWorld ⟨"world", "world", ""⟩ none,
          .getDimension "world" "overworld" none none,
          .addDimension "world" ⟨"overworld", "world"⟩ none] := rfl
    simp [Session.Succeeded, calls, DriverCall.succeeded]
  · have calls : (chunkConsumer sampleFormats sampleStorages "" sampleOrder.order
        sampleOrder.order sampleChunk ⟨{}, []⟩).calls =
        [.getWorldStorage "world" none none, .addWorld ⟨"world", "", "world"⟩ none,
          .getDimension "world" "overworld" none none,
          .addDimension "world" ⟨"overworld", "world"⟩ none,
          .addChunkRaw "world" "overworld" 0 0 [1] none] := rfl
    simp [Session.Succeeded, calls, DriverCall.succeeded]
  · rintro ⟨⟨success, _⟩, _⟩
    exact absurd success (by decide)

/-- A chunk of a world and a dimension that are there is stored by both paths. -/
theorem pathsAgree_knownDimension :
    PathsAgree sampleFormats sampleStorages "" sampleOrder.order sampleOrder.order
      sampleOrder.order sampleOrder.order sampleRequest sampleChunk ()
      ⟨[⟨"world", "", ""⟩], [⟨"overworld", "world"⟩]⟩ := by
  refine (ingestPathsAgree_iff sampleFormats sampleStorages "" sampleOrder sampleOrder sampleOrder
    sampleOrder sampleRequest sampleChunk () ⟨[⟨"world", "", ""⟩], [⟨"overworld", "world"⟩]⟩
    ⟨rfl, rfl, rfl, ⟨[0], rfl, rfl⟩, ⟨[1], rfl, rfl⟩⟩ (by decide) ?_ ?_).mpr
    ⟨⟨rfl, shelfStorage, _, rfl, rfl⟩, by decide⟩
  · have calls : (apiAddChunkHandler sampleFormats sampleStorages "" sampleOrder.order
        sampleOrder.order sampleRequest
        ⟨⟨[⟨"world", "", ""⟩], [⟨"overworld", "world"⟩]⟩, []⟩).2.calls =
        [.getWorldStorage "world" (some ⟨"world", "", ""⟩) none,
          .getDimension "world" "overworld" (some ⟨"overworld", "world"⟩) none,
          .addChunkRaw "world" "overworld" 0 0 [0] none] := rfl
    simp [Session.Succeeded, calls, DriverCall.succeeded]
  · have calls : (chunkConsumer sampleFormats sampleStorages "" sampleOrder.order
        sampleOrder.order sampleChunk
        ⟨⟨[⟨"world", "", ""⟩], [⟨"overworld", "world"⟩]⟩, []⟩).calls =
        [.getWorldStorage "world" (some ⟨"world", "", ""⟩) none,
          .getDimension "world" "overworld" (some ⟨"overworld", "world"⟩) none,
          .addChunkRaw "world" "overworld" 0 0 [1] none] := rfl
    simp [Session.Succeeded, calls, DriverCall.succeeded]

end WebChunk.Storages
