import WebChunk.ImageCache.Picture
import WebChunk.Render.TerrainTypes

/-!
# Rendering a tile

`imageGetSync` asks the image cache for the picture of a location and renders it if the
cache has none. The location comes unchecked from the client. The result `.error` says why
a call does not return, which is a run-time panic unless it waits for a storage.
-/

namespace WebChunk.Render

open WebChunk.Go WebChunk.ImageCache WebChunk.Storages

variable {St : Type}

/-- The map of the fetched chunks; data of another type are left out, and of two chunks at
one place the later one stays. -/
def bunchOf (unsortedBunch : List ChunkData) : Map (Int × Int) SaveChunk :=
  unsortedBunch.foldl (fun bunch v =>
    match v.Data with
    | .chunk c => bunch.set (v.X, v.Z) c
    | _ => bunch) .empty

/-- A chunk with what the map holds around it. -/
def withContext (bunch : Map (Int × Int) SaveChunk) (k : Int × Int) (v : SaveChunk) :
    ContextedChunkData where
  center := v
  top := bunch.get (k.1, wrap (k.2 - 1))
  bottom := bunch.get (k.1, wrap (k.2 + 1))
  left := bunch.get (wrap (k.1 - 1), k.2)
  right := bunch.get (wrap (k.1 + 1), k.2)

/-- The orders in which range loops may meet the chunks of a map. -/
abbrev BunchOrder := ∀ bunch : Map (Int × Int) SaveChunk, bunch.RangeOrder

/-- `getChunksRegionWithContext`: the chunks are fetched with a margin of one, and those in
the margin are context only. -/
def getChunksRegionWithContext (bunchOrder : BunchOrder) (cs : ChunkStorage St) (st : St)
    (wname dname : String) (cx0 cz0 cx1 cz1 : Int) :
    Except Stop (Except StorageError (List ChunkData)) :=
  match cs.GetChunksRegion st wname dname (wrap (cx0 - 1)) (wrap (cz0 - 1)) (wrap (cx1 + 1))
      (wrap (cz1 + 1)) with
  | .error stop => .error stop
  | .ok (.error err) => .ok (.error err)
  | .ok (.ok unsortedBunch) =>
      let bunch := bunchOf unsortedBunch
      .ok (.ok ((bunchOrder bunch).order.filterMap fun k =>
        if k.1 < cx0 ∨ k.1 ≥ cx1 ∨ k.2 < cz0 ∨ k.2 ≥ cz1 then none
        else (bunch.get k).map fun v => ⟨k.1, k.2, .contextedChunkData (withContext bunch k v)⟩))

/-- A call of the getter that a provider made of a storage. -/
def DataProvider.fetch (getter : DataProvider) (bunchOrder : BunchOrder) (s : ChunkStorage St)
    (st : St) (wname dname : String) (cx0 cz0 cx1 cz1 : Int) :
    Except Stop (Except StorageError (List ChunkData)) :=
  match getter with
  | .chunksRegion => s.GetChunksRegion st wname dname cx0 cz0 cx1 cz1
  | .chunksCountRegion => s.GetChunksCountRegion st wname dname cx0 cz0 cx1 cz1
  | .chunksRegionWithContext =>
      getChunksRegionWithContext bunchOrder s st wname dname cx0 cz0 cx1 cz1

/-- Making the getter takes a method of the storage at once, but for the getter with
context, which takes it when it is called. -/
def DataProvider.takesMethod : DataProvider → Bool
  | .chunksRegion | .chunksCountRegion => true
  | .chunksRegionWithContext => false

/-- What the renderer draws with: the painter, without a picture where it returns nil or
panics, since its panics are recovered, `resize.Resize` to a square, and the order of the
chunks that are fetched with context. -/
structure Painting where
  painter : Provider → Datum → Option RGBA
  resize : Int → RGBA → RGBA
  bunchOrder : BunchOrder

/-- A call of the painter, which asserts the type of its datum. -/
def Painting.paint (painting : Painting) (provider : Provider) (d : Datum) : Option RGBA :=
  if d.type = provider.painter then painting.painter provider d else none

/-- The chunks on one side of the tile. -/
def tileScale (S : Int) : Int := if S > 0 then shiftLeft 2 (S - 1).toNat else 1

/-- The side of the picture. -/
def tileImagesize (scale : Int) : Int := if wrap (scale * 16) > 512 then 512 else wrap (scale * 16)

/-- The body of the loop over the chunks. -/
def drawChunkData (painting : Painting) (provider : Provider) (imagescale offsetx offsety : Int)
    (img : RGBA) (c : ChunkData) : RGBA :=
  match painting.paint provider c.Data with
  | none => img
  | some chunk =>
      let x := wrap (wrap (c.X - offsetx) * imagescale)
      let y := wrap (wrap (c.Z - offsety) * imagescale)
      img.drawOver (.ofCorners x y (wrap (x + imagescale)) (wrap (y + imagescale)))
        (painting.resize imagescale chunk)

/-- `renderTile`. -/
def renderTile (painting : Painting) (storages : Map String (Storage St)) (st : St)
    (order : List String) (loc : ImageLocation) :
    Except Stop (Except StorageError (Option RGBA)) :=
  match providerOf loc.Variant with
  | none => .ok (.ok none)
  | some provider =>
      match GetWorldStorage storages st loc.World order with
      | (_, _, some _) => .ok (.ok none)
      | (_, s, none) =>
          if s.isNone ∧ provider.getter.takesMethod then .error .nilStorage
          else
            let scale := tileScale loc.S
            let imagesize := tileImagesize scale
            if imagesize < 0 then .error .hugeRectangle
            else if scale = 0 then .error .divisionByZero
            else
              let img : RGBA := .new imagesize.toNat imagesize.toNat
              let imagescale := imagesize.tdiv scale
              let offsetx := wrap (loc.X * scale)
              let offsety := wrap (loc.Z * scale)
              match s with
              | none => .error .nilStorage
              | some s =>
                  match provider.getter.fetch painting.bunchOrder s st loc.World loc.Dimension
                      offsetx offsety (wrap (offsetx + scale)) (wrap (offsety + scale)) with
                  | .error stop => .error stop
                  | .ok (.error err) => .ok (.error err)
                  | .ok (.ok []) => .ok (.ok none)
                  | .ok (.ok cc) =>
                      let drawn :=
                        cc.foldl (drawChunkData painting provider imagescale offsetx offsety) img
                      .ok (.ok (some drawn))

/-- The picture that the cache answers a get with. A get that has to wait is answered from
what the read of its tile brings, which is `late`. -/
def imageCacheGetBlockingLoc (p : Processor) (late : Option RGBA) (loc : ImageLocation)
    (now : Int) : Except Stop (Option RGBA) :=
  match p.processTask { loc := loc } now with
  | none => .error .indexOutOfRange
  | some next =>
      match next.answers.drop p.answers.length with
      | a :: _ => .ok a.image.img
      | [] => .ok late

/-- `imageCacheSaveLoc`, down to the processing of the set by the cache. -/
def imageCacheSaveLoc (p : Processor) (img : RGBA) (loc : ImageLocation) (now : Int) :
    Except Stop Unit :=
  match p.processTask { loc := loc, img := some img } now with
  | none => .error .indexOutOfRange
  | some _ => .ok ()

/-- `imageGetSync`; `p` and `later` are the states in which the cache processes the get
and the set. -/
def imageGetSync (painting : Painting) (storages : Map String (Storage St)) (st : St)
    (order : List String) (p later : Processor) (late : Option RGBA) (now : Int)
    (loc : ImageLocation) (ignoreCache : Bool) :
    Except Stop (Except StorageError (Option RGBA)) := do
  let cached ← if ignoreCache then .ok none else imageCacheGetBlockingLoc p late loc now
  match cached with
  | some i => return .ok (some i)
  | none =>
      match ← renderTile painting storages st order loc with
      | .error err => return .error err
      | .ok none => return .ok none
      | .ok (some img) =>
          imageCacheSaveLoc later img loc now
          return .ok (some img)

end WebChunk.Render
