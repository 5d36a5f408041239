import WebChunk.Render.TerrainTypes

/-!
# The two ingest paths

`apiAddChunkHandler` stores a chunk that was posted over HTTP, `chunkConsumer` one that
the proxy has seen. Both look for the storage of the world, fall back to a capable one,
create what is missing and store the chunk. Converting a chunk to its serialized form
and back is a parameter.
-/

namespace WebChunk.Storages

open WebChunk.Go WebChunk.Render

/-- A request to `/api/v1/submit/chunk/{world}/{dim}`. -/
structure SubmitRequest where
  world : String
  dim : String
  body : Except String Bytes
  drawTTYPE : String := ""

/-- What the handler does with the response: a status code with a text, a picture after
status 200, or a panic. -/
inductive Response where
  | answered (code : Nat) (content : String)
  | picture (ttype : String)
  | panicked

/-- `proxy.ProxiedChunk`. -/
structure ProxiedChunk (Level : Type) where
  Server : String
  Dimension : String
  DimensionLowestY : Int
  Pos : Int × Int
  Data : Level

/-- The conversions of chunks; `marshal` is what `chunkConsumer` makes of `Pos`,
`DimensionLowestY` and `Data`, from `level.ChunkToSave` to the compressed stream. -/
structure Formats (Chunk Level : Type) where
  ConvFlexibleNBTtoSave : Bytes → Except String Chunk
  XPos : Chunk → Int
  ZPos : Chunk → Int
  marshal : Int × Int → Int → Level → Except String Bytes

/-- `strings.TrimPrefix`. -/
def TrimPrefix (s leading : String) : String :=
  if leading.toList.isPrefixOf s.toList then String.ofList (s.toList.drop leading.length) else s

variable {St Chunk Level : Type}

/-! ### The HTTP handler -/

/-- The storage of the world, as the handler finds or creates it; `place` is the position
of the chunk. -/
def apiWorldStorage (storages : Map String (Storage St)) (pref : String)
    (lookup fallback : List String) (wname place : String) (x : Session St) :
    Except Response (ChunkStorage St) × Session St :=
  let world : SWorld := ⟨wname, wname, ""⟩
  match x.getWorldStorage storages wname lookup with
  | ((_, _, some err), x) => (.error (.answered 500 ("Error checking world: " ++ err.text)), x)
  | ((_, none, none), x) =>
      match findCapableStorage storages pref fallback with
      | none =>
          (.error (.answered 404 ("Failed to find storage that has world [" ++ wname ++
            "], named [" ++ pref ++ "] or has ability to add chunks, chunk [" ++ place ++
            "] is LOST.")), x)
      | some s =>
          match x.addWorld s world with
          | (some err, x) =>
              (.error (.answered 500 ("Error creating world in fallback storage: " ++ err.text)), x)
          | (none, x) => (.ok s, x)
  | ((none, some s, none), x) =>
      match x.addWorld s world with
      | (some err, x) => (.error (.answered 500 ("Error creating world: " ++ err.text)), x)
      | (none, x) => (.ok s, x)
  | ((some _, some s, none), x) => (.ok s, x)

/-- The dimension; `dim` is still nil after it was created. -/
def apiDimension (s : ChunkStorage St) (wname dname : String) (x : Session St) :
    Option Response × Session St :=
  match x.getDimension s wname dname with
  | ((_, some err), x) => (some (.answered 500 ("Error checking dim: " ++ err.text)), x)
  | ((some _, none), x) => (none, x)
  | ((none, none), x) =>
      match x.addDimension s wname ⟨dname, wname⟩ with
      | (some err, x) => (some (.answered 500 ("Error creating dim: " ++ err.text)), x)
      | (none, x) => (some (.answered 500 "Tried to create dim but got nil"), x)

/-- The answer after the chunk was stored. The painter is handed a pointer. -/
def apiPaint (request : SubmitRequest) (place : String) : Response :=
  if request.drawTTYPE = "" then
    .answered 200 ("Chunk " ++ place ++ " of " ++ request.world ++ ":" ++ request.dim ++
      " submitted. Thank you for your contribution!\n")
  else
    let found :=
      if request.drawTTYPE = "default" then defaultProvider
      else (providerOf request.drawTTYPE).map fun provider => (request.drawTTYPE, provider)
    match found with
    | none => .answered 400 "Requested terrain type not found!"
    | some (name, provider) =>
        if provider.painter = .chunkPointer then .picture name else .panicked

/-- `apiAddChunkHandler`. -/
def apiAddChunkHandler (formats : Formats Chunk Level) (storages : Map String (Storage St))
    (pref : String) (lookup fallback : List String) (request : SubmitRequest) (x : Session St) :
    Response × Session St :=
  match request.body with
  | .error err => (.answered 400 ("Error reading request: " ++ err), x)
  | .ok body =>
      match formats.ConvFlexibleNBTtoSave body with
      | .error err => (.answered 400 ("Error parsing chunk data: " ++ err), x)
      | .ok col =>
          let place := toString (formats.XPos col) ++ ":" ++ toString (formats.ZPos col)
          match apiWorldStorage storages pref lookup fallback request.world place x with
          | (.error response, x) => (response, x)
          | (.ok s, x) =>
              match apiDimension s request.world request.dim x with
              | (some response, x) => (response, x)
              | (none, x) =>
                  match x.addChunkRaw s request.world request.dim (formats.XPos col)
                      (formats.ZPos col) body with
                  | (some err, x) =>
                      (.answered 500 ("Failed to add chunk to storage: " ++ err.text), x)
                  | (none, x) => (apiPaint request place, x)

/-! ### The consumer of proxied chunks -/

/-- The world and its storage, as `chunkConsumer` finds or creates them. -/
def consumerWorldStorage (storages : Map String (Storage St)) (pref : String)
    (lookup fallback : List String) (server : String) (x : Session St) :
    Option (SWorld × ChunkStorage St) × Session St :=
  match x.getWorldStorage storages server lookup with
  | ((_, _, some _), x) => (none, x)
  | ((some w, some s, none), x) => (some (w, s), x)
  | (_, x) =>
      match findCapableStorage storages pref fallback with
      | none => (none, x)
      | some s =>
          let w : SWorld := ⟨server, "", server⟩
          match x.addWorld s w with
          | (some _, x) => (none, x)
          | (none, x) => (some (w, s), x)

def consumerDimension (s : ChunkStorage St) (w : SWorld) (dname : String) (x : Session St) :
    Option SDim × Session St :=
  match x.getDimension s w.Name dname with
  | ((d, err), x) =>
      if err ≠ none ∧ err ≠ some .noDim then (none, x)
      else
        match d with
        | some d => (some d, x)
        | none =>
            let d : SDim := ⟨dname, w.Name⟩
            match x.addDimension s w.Name d with
            | (some _, x) => (none, x)
            | (none, x) => (some d, x)

/-- What `chunkConsumer` does with one chunk from its channel, up to the rendering. -/
def chunkConsumer (formats : Formats Chunk Level) (storages : Map String (Storage St))
    (pref : String) (lookup fallback : List String) (r : ProxiedChunk Level) (x : Session St) :
    Session St :=
  if r.Dimension = "" ∨ r.Server = "" then x
  else
    let r := { r with Dimension := TrimPrefix r.Dimension "minecraft:" }
    match consumerWorldStorage storages pref lookup fallback r.Server x with
    | (none, x) => x
    | (some (w, s), x) =>
        match consumerDimension s w r.Dimension x with
        | (none, x) => x
        | (some d, x) =>
            if d.World ≠ w.Name then x
            else
              match formats.marshal r.Pos r.DimensionLowestY r.Data with
              | .error _ => x
              | .ok chunkBytes => (x.addChunkRaw s w.Name d.Name r.Pos.1 r.Pos.2 chunkBytes).2

end WebChunk.Storages
