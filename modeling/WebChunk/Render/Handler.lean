import WebChunk.Go.Strconv
import WebChunk.Render.Cropping
import WebChunk.Render.Safety

/-!
# The tile handler

`tileRouterHandler` renders a tile for a client over HTTP. It repeats `renderTile`, with a
check for a client that is gone before every chunk, and what it has drawn by then goes into
the cache.
-/

namespace WebChunk.Render

open WebChunk.Go WebChunk.ImageCache WebChunk.Storages

/-- What a handler does that is seen outside, in this order. -/
inductive Effect where
  | plainmsg (msg : String)
  | writeHeader (status : Nat)
  | image (format : String) (img : RGBA)
  | imageCacheSave (loc : ImageLocation) (img : RGBA)

/-- A request: the variables of its route, the value of `cached` in its query, and its header
`Cache-Control`. -/
structure TileRequest where
  world : String
  dim : String
  ttype : String
  format : String
  cx : String
  cz : String
  cs : String
  cached : Option String
  cacheControl : String

/-- The results of `tilingParams`. -/
structure TilingParams where
  wname : String
  dname : String
  fname : String
  cx : Int := 0
  cz : Int := 0
  cs : Int := 0

/-- `tilingParams`. A bad encoding is reported, but it is not an error. -/
def tilingParams (r : TileRequest) : List Effect × Except NumError TilingParams :=
  if r.format ≠ "jpeg" ∧ r.format ≠ "png" then
    ([.plainmsg "Bad encoding"],
      .ok { wname := r.world, dname := r.dim, fname := r.format })
  else
    match ParseInt r.cx 32 with
    | .error err => ([.plainmsg ("Bad cx id: " ++ err.Error)], .error err)
    | .ok cx =>
        match ParseInt r.cz 32 with
        | .error err => ([.plainmsg ("Bad cz id: " ++ err.Error)], .error err)
        | .ok cz =>
            match ParseInt r.cs 32 with
            | .error err => ([.plainmsg ("Bad s id: " ++ err.Error)], .error err)
            | .ok cs => ([], .ok ⟨r.world, r.dim, r.format, cx, cz, cs⟩)

/-- `writeImage`. -/
def writeImage (format : String) (img : RGBA) : List Effect :=
  if format = "jpeg" ∨ format = "png" then [.image format img] else []

/-- The context is canceled at the check before the chunk with this number; `gone` is the
number of chunks drawn when the client disconnects. -/
def canceled (gone : Option Nat) (i : Nat) : Bool := gone.any (· ≤ i)

/-- The loop over the chunks, from the chunk with number `i` on. -/
def drawUntilCanceled (draw : RGBA → ChunkData → RGBA) (gone : Option Nat) :
    Nat → List ChunkData → RGBA → RGBA
  | _, [], img => img
  | i, c :: cc, img =>
      if canceled gone i then img else drawUntilCanceled draw gone (i + 1) cc (draw img c)

variable {St : Type}

/-- `scaleImageryHandler`, with the getter that the provider makes of the storage. -/
def scaleImageryHandler (painting : Painting) (provider : Provider) (s : Option (ChunkStorage St))
    (st : St) (r : TileRequest) (gone : Option Nat) :
    List Effect × Except Stop (Option RGBA) :=
  match tilingParams r with
  | (said, .error _) => (said, .ok none)
  | (said, .ok t) =>
      let scale := tileScale t.cs
      let imagesize := tileImagesize scale
      if imagesize < 0 then (said, .error .hugeRectangle)
      else if scale = 0 then (said, .error .divisionByZero)
      else
        let img : RGBA := .new imagesize.toNat imagesize.toNat
        let imagescale := imagesize.tdiv scale
        let offsetx := wrap (t.cx * scale)
        let offsety := wrap (t.cz * scale)
        match s with
        | none => (said, .error .nilStorage)
        | some s =>
            match provider.getter.fetch painting.bunchOrder s st t.wname t.dname offsetx offsety
                (wrap (offsetx + scale)) (wrap (offsety + scale)) with
            | .error stop => (said, .error stop)
            | .ok (.error err) =>
                (said ++ [.plainmsg ("Error getting chunk data: " ++ err.text)], .ok none)
            | .ok (.ok []) => (said ++ [.writeHeader 204], .ok none)
            | .ok (.ok cc) =>
                let draw := drawChunkData painting provider imagescale offsetx offsety
                (said, .ok (some (drawUntilCanceled draw gone 0 cc img)))

/-- What a handler did, and why it did not return, if it did not. -/
structure Handled where
  effects : List Effect
  stop : Option Stop := none

/-- The location of the tile that is asked for. -/
def TileRequest.loc (r : TileRequest) (t : TilingParams) : ImageLocation where
  World := t.wname
  Dimension := t.dname
  Variant := r.ttype
  S := t.cs
  X := t.cx
  Z := t.cz

/-- The query does not forbid an answer from the cache. -/
def TileRequest.mayBeCached (r : TileRequest) : Prop := r.cached = none ∨ r.cached = some "true"

instance (r : TileRequest) : Decidable r.mayBeCached := inferInstanceAs (Decidable (_ ∨ _))

/-- `tileRouterHandler`; `p` is the state in which the cache processes the get, and `late`
what the read of the tile brings if it has to wait. -/
def tileRouterHandler (painting : Painting) (storages : Map String (Storage St)) (st : St)
    (order : List String) (p : Processor) (late : Option RGBA) (now : Int) (r : TileRequest)
    (gone : Option Nat) : Handled :=
  match tilingParams r with
  | (said, .error _) => ⟨said, none⟩
  | (said, .ok t) =>
      match if r.mayBeCached then imageCacheGetBlockingLoc p late (r.loc t) now else .ok none with
      | .error stop => ⟨said, some stop⟩
      | .ok (some img) => ⟨said ++ [.writeHeader 200, .image "png" img], none⟩
      | .ok none =>
          match GetWorldStorage storages st t.wname order with
          | (_, _, some _) => ⟨said, none⟩
          | (_, s, none) =>
              match providerOf r.ttype with
              | none => ⟨said ++ [.writeHeader 400], none⟩
              | some provider =>
                  if s.isNone ∧ provider.getter.takesMethod then ⟨said, some .nilStorage⟩
                  else
                    match scaleImageryHandler painting provider s st r gone with
                    | (drew, .error stop) => ⟨said ++ drew, some stop⟩
                    | (drew, .ok none) => ⟨said ++ drew, none⟩
                    | (drew, .ok (some img)) =>
                        let first : List Effect :=
                          if r.cacheControl ≠ "no-store" then [.imageCacheSave (r.loc t) img]
                          else []
                        ⟨said ++ drew ++ first ++ [.writeHeader 200] ++ writeImage t.fname img ++
                          [.imageCacheSave (r.loc t) img], none⟩

/-! ### What is asked for -/

/-- The numbers in a route have 32 bits. -/
theorem tilingParams_bounds {r : TileRequest} {said : List Effect} {t : TilingParams}
    (params : tilingParams r = (said, .ok t)) :
    (-2 ^ 31 ≤ t.cx ∧ t.cx < 2 ^ 31) ∧ (-2 ^ 31 ≤ t.cz ∧ t.cz < 2 ^ 31) ∧
      (-2 ^ 31 ≤ t.cs ∧ t.cs < 2 ^ 31) := by
  unfold tilingParams at params
  split at params
  · cases params
    dsimp only
    omega
  · split at params
    · cases params
    · rename_i readX
      split at params
      · cases params
      · rename_i readZ
        split at params
        · cases params
        · rename_i readS
          cases params
          exact ⟨parseInt_bounds readX, parseInt_bounds readZ, parseInt_bounds readS⟩

/-- The first chunk of a tile that is asked for. -/
theorem start_bounds {c : Int} {n : Nat} (bounds : -2 ^ 31 ≤ c ∧ c < 2 ^ 31) (small : n ≤ 5) :
    -2 ^ 36 ≤ c * (2 ^ n : Nat) ∧ c * (2 ^ n : Nat) ≤ 2 ^ 36 := by
  interval_cases n <;> omega

/-- No request asks for a tile whose storage tile, with its margin, leaves the `int` range. -/
theorem tilingParams_fits (getter : DataProvider) {r : TileRequest} {said : List Effect}
    {t : TilingParams} (params : tilingParams r = (said, .ok t)) (lower : 0 ≤ t.cs)
    (upper : t.cs ≤ StorageLevel) :
    ∃ tile, getStorageLevelLoc (r.loc t) = some tile ∧
      getter.fits ⟨tile.X * 32, tile.Z * 32, tile.X * 32 + 32, tile.Z * 32 + 32⟩ := by
  obtain ⟨x, z, -⟩ := tilingParams_bounds params
  obtain ⟨pow, -⟩ := index_powarr lower upper
  have small : t.cs.toNat ≤ 5 := by
    unfold StorageLevel at upper
    omega
  have startX := start_bounds x small
  have startZ := start_bounds z small
  refine ⟨_, by
    simp only [getStorageLevelLoc, TileRequest.loc, pow, AT, Option.bind_eq_bind, Option.bind_some]
    rfl, ?_⟩
  dsimp only
  rw [storageStart, storageStart, wrap_of_fits (by omega) (by omega),
    wrap_of_fits (by omega) (by omega)]
  cases getter with
  | chunksRegion | chunksCountRegion => constructor <;> dsimp only <;> omega
  | chunksRegionWithContext => refine ⟨?_, ?_, ?_, ?_⟩ <;> dsimp only <;> omega

/-! ### What is drawn -/

/-- The chunks drawn before the client is gone, and those left over. -/
def drawn (gone : Option Nat) (cc : List ChunkData) : List ChunkData :=
  match gone with
  | none => cc
  | some k => cc.take k

def leftOver (gone : Option Nat) (cc : List ChunkData) : List ChunkData :=
  match gone with
  | none => []
  | some k => cc.drop k

theorem drawn_append_leftOver (gone : Option Nat) (cc : List ChunkData) :
    drawn gone cc ++ leftOver gone cc = cc := by
  cases gone with
  | none => exact List.append_nil cc
  | some k => exact List.take_append_drop k cc

/-- The loop stops at the first check that finds the client gone. -/
theorem drawUntilCanceled_eq (draw : RGBA → ChunkData → RGBA) (gone : Option Nat) (i : Nat)
    (cc : List ChunkData) (img : RGBA) :
    drawUntilCanceled draw gone i cc img = (drawn (gone.map (· - i)) cc).foldl draw img := by
  induction cc generalizing i img with
  | nil => cases gone <;> simp [drawUntilCanceled, drawn]
  | cons c cc inductionHypothesis =>
      unfold drawUntilCanceled
      cases gone with
      | none => simp [canceled, inductionHypothesis, drawn]
      | some k =>
          by_cases finished : k ≤ i
          · simp [canceled, drawn, finished]
          · obtain ⟨left, more⟩ : ∃ left, k - i = left + 1 := ⟨k - i - 1, by omega⟩
            have fewer : k - (i + 1) = left := by omega
            simp [canceled, drawn, finished, inductionHypothesis, more, fewer]

/-- One iteration of the loop over the chunks of a tile. -/
def drawTile (painting : Painting) (provider : Provider) (loc : ImageLocation) :
    RGBA → ChunkData → RGBA :=
  drawChunkData painting provider ((tileImagesize (tileScale loc.S)).tdiv (tileScale loc.S))
    (wrap (loc.X * tileScale loc.S)) (wrap (loc.Z * tileScale loc.S))

/-- The picture of a tile with these chunks drawn. -/
def pictureOf (painting : Painting) (provider : Provider) (loc : ImageLocation)
    (cc : List ChunkData) : RGBA :=
  cc.foldl (drawTile painting provider loc)
    (.new (tileImagesize (tileScale loc.S)).toNat (tileImagesize (tileScale loc.S)).toNat)

/-- The chunks that the provider fetches for a tile. -/
def fetchTile (painting : Painting) (provider : Provider) (s : ChunkStorage St) (st : St)
    (loc : ImageLocation) : Except Stop (Except StorageError (List ChunkData)) :=
  provider.getter.fetch painting.bunchOrder s st loc.World loc.Dimension
    (wrap (loc.X * tileScale loc.S)) (wrap (loc.Z * tileScale loc.S))
    (wrap (wrap (loc.X * tileScale loc.S) + tileScale loc.S))
    (wrap (wrap (loc.Z * tileScale loc.S) + tileScale loc.S))

/-- A tile whose pictures are neither too large nor divided by zero. -/
def drawable (loc : ImageLocation) : Prop := loc.S ≤ 63 ∧ loc.S ≠ 59

theorem drawable_iff (loc : ImageLocation) :
    drawable loc ↔ ¬ tileImagesize (tileScale loc.S) < 0 ∧ tileScale loc.S ≠ 0 := by
  rw [drawable, tileImagesize_neg, Ne, Ne, tileScale_eq_zero]
  omega

/-- What `scaleImageryHandler` draws. -/
theorem scaleImageryHandler_some (painting : Painting) (provider : Provider)
    (s : Option (ChunkStorage St)) (st : St) {r : TileRequest} (gone : Option Nat)
    {said : List Effect} {t : TilingParams} (params : tilingParams r = (said, .ok t)) (img : RGBA) :
    (scaleImageryHandler painting provider s st r gone).2 = .ok (some img) ↔
      ∃ storage cc, s = some storage ∧ drawable (r.loc t) ∧
        fetchTile painting provider storage st (r.loc t) = .ok (.ok cc) ∧ cc ≠ [] ∧
        img = pictureOf painting provider (r.loc t) (drawn gone cc) := by
  unfold scaleImageryHandler
  rw [params]
  dsimp only
  by_cases huge : tileImagesize (tileScale t.cs) < 0
  · rw [if_pos huge]
    have never : ¬ drawable (r.loc t) := fun can => ((drawable_iff _).mp can).1 huge
    simp [never]
  rw [if_neg huge]
  by_cases lost : tileScale t.cs = 0
  · rw [if_pos lost]
    have never : ¬ drawable (r.loc t) := fun can => ((drawable_iff _).mp can).2 lost
    simp [never]
  rw [if_neg lost]
  have can : drawable (r.loc t) := (drawable_iff _).mpr ⟨huge, lost⟩
  cases s with
  | none => simp
  | some storage =>
      dsimp only
      change (match fetchTile painting provider storage st (r.loc t) with
        | .error stop => _
        | .ok (.error err) => _
        | .ok (.ok []) => _
        | .ok (.ok cc) => _ : List Effect × Except Stop (Option RGBA)).2 = _ ↔ _
      rcases fetched : fetchTile painting provider storage st (r.loc t) with stop | err | cc
      · simp [fetched]
      · simp [fetched]
      · cases cc with
        | nil => simp [fetched]
        | cons c rest =>
            change Except.ok (some (drawUntilCanceled (drawTile painting provider (r.loc t))
              gone 0 (c :: rest) _)) = _ ↔ _
            rw [drawUntilCanceled_eq]
            simp only [Except.ok.injEq, Option.some.injEq, Nat.sub_zero, Option.map_id']
            constructor
            · rintro rfl
              exact ⟨storage, c :: rest, rfl, can, fetched, by simp, rfl⟩
            · rintro ⟨other, cc, rfl, -, again, -, same⟩
              obtain rfl := Except.ok.inj (Except.ok.inj (fetched.symm.trans again))
              exact same.symm

/-- Messages only: nothing is saved while the parameters are read. -/
theorem tilingParams_quiet (r : TileRequest) (loc : ImageLocation) (img : RGBA) :
    .imageCacheSave loc img ∉ (tilingParams r).1 := by
  unfold tilingParams
  split
  · simp
  · split
    · simp
    · split
      · simp
      · split <;> simp

/-- Nothing is saved while a picture is written. -/
theorem writeImage_quiet (format : String) (picture : RGBA) (loc : ImageLocation) (img : RGBA) :
    .imageCacheSave loc img ∉ writeImage format picture := by
  unfold writeImage
  split <;> simp

/-- Nothing is saved while a tile is drawn. -/
theorem scaleImageryHandler_quiet (painting : Painting) (provider : Provider)
    (s : Option (ChunkStorage St)) (st : St) (r : TileRequest) (gone : Option Nat)
    (loc : ImageLocation) (img : RGBA) :
    .imageCacheSave loc img ∉ (scaleImageryHandler painting provider s st r gone).1 := by
  have quiet := tilingParams_quiet r loc img
  unfold scaleImageryHandler
  split
  · rename_i said err same
    rw [same] at quiet
    exact quiet
  · rename_i said t same
    rw [same] at quiet
    dsimp only at quiet ⊢
    split_ifs
    · exact quiet
    · exact quiet
    · split
      · exact quiet
      · split <;> simp [quiet]

/-! ### One pixel -/

/-- The square of a chunk in the picture of a tile. -/
def squareOf (loc : ImageLocation) (c : ChunkData) : Rect :=
  let imagescale := (tileImagesize (tileScale loc.S)).tdiv (tileScale loc.S)
  let x := wrap (wrap (c.X - wrap (loc.X * tileScale loc.S)) * imagescale)
  let y := wrap (wrap (c.Z - wrap (loc.Z * tileScale loc.S)) * imagescale)
  .ofCorners x y (wrap (x + imagescale)) (wrap (y + imagescale))

/-- The colour that the picture of a chunk has at a pixel of a tile, if the chunk has a picture and
the pixel is in its square. -/
def colorAt (painting : Painting) (provider : Provider) (loc : ImageLocation) (x y : Int)
    (c : ChunkData) : Option Color :=
  (painting.paint provider c.Data).bind fun chunk =>
    let picture :=
      painting.resize ((tileImagesize (tileScale loc.S)).tdiv (tileScale loc.S)) chunk
    let px := x - (squareOf loc c).x0
    let py := y - (squareOf loc c).y0
    if (squareOf loc c).contains x y ∧ picture.rect.contains px py then some (picture.pix px py)
    else none

/-- The colours that chunks have at a pixel, in the order in which they are drawn. -/
def colorsAt (painting : Painting) (provider : Provider) (loc : ImageLocation)
    (cc : List ChunkData) (x y : Int) : List Color :=
  cc.filterMap (colorAt painting provider loc x y)

/-- Painting these colours over a pixel leaves it as it is: they are transparent, or the pixel has
been painted before and keeps its colour. -/
def Repaints (before after : List Color) : Prop :=
  (∀ c ∈ after, c = .blank) ∨
    (∃ c ∈ before, c ≠ .blank) ∧
      after.foldl Color.over (before.foldl Color.over .blank) = before.foldl Color.over .blank

theorem foldl_over_eq_blank_iff {colors : List Color} {below : Color} :
    colors.foldl Color.over below = .blank ↔ below = .blank ∧ ∀ c ∈ colors, c = .blank := by
  induction colors generalizing below with
  | nil => simp
  | cons c rest inductionHypothesis =>
      rw [List.foldl_cons, inductionHypothesis, Color.over_eq_blank_iff]
      simp [and_assoc]

theorem foldl_over_of_blank {colors : List Color} (blank : ∀ c ∈ colors, c = .blank)
    (below : Color) : colors.foldl Color.over below = below := by
  induction colors with
  | nil => rfl
  | cons c rest inductionHypothesis =>
      rw [List.foldl_cons, blank c List.mem_cons_self, Color.over_blank]
      exact inductionHypothesis fun d later => blank d (List.mem_cons_of_mem _ later)

/-- A blank pixel keeps its colour under transparent colours only. -/
theorem repaints_iff {before after : List Color} : Repaints before after ↔
    after.foldl Color.over (before.foldl Color.over .blank) = before.foldl Color.over .blank := by
  constructor
  · rintro (blank | ⟨-, same⟩)
    · exact foldl_over_of_blank blank _
    · exact same
  · intro same
    by_cases painted : ∃ c ∈ before, c ≠ .blank
    · exact .inr ⟨painted, same⟩
    · push Not at painted
      rw [foldl_over_of_blank painted, foldl_over_eq_blank_iff] at same
      exact .inl same.2

variable {painting : Painting} {provider : Provider} {loc : ImageLocation}

/-- A chunk is drawn over the pixels that it has a colour for. -/
theorem drawTile_pix {img : RGBA} {x y : Int} (inside : img.rect.contains x y) (c : ChunkData) :
    (drawTile painting provider loc img c).pix x y =
      (colorAt painting provider loc x y c).toList.foldl Color.over (img.pix x y) := by
  unfold drawTile drawChunkData colorAt
  cases painting.paint provider c.Data with
  | none => rfl
  | some chunk =>
      rw [Option.bind_some]
      dsimp only
      split
      · rename_i covered
        exact if_pos ⟨inside, covered⟩
      · rename_i elsewhere
        exact if_neg fun covered => elsewhere covered.2

theorem foldl_drawTile_pix {img : RGBA} {x y : Int} (inside : img.rect.contains x y)
    (cc : List ChunkData) :
    (cc.foldl (drawTile painting provider loc) img).pix x y =
      (colorsAt painting provider loc cc x y).foldl Color.over (img.pix x y) := by
  induction cc generalizing img with
  | nil => rfl
  | cons c rest inductionHypothesis =>
      have size : (drawTile painting provider loc img c).rect = img.rect :=
        drawChunkData_size _ img c
      rw [List.foldl_cons, inductionHypothesis (size ▸ inside), drawTile_pix inside,
        ← List.foldl_append]
      congr 1
      unfold colorsAt
      rw [List.filterMap_cons]
      cases colorAt painting provider loc x y c <;> rfl

/-- Chunks leave a picture as it is where they leave each of its pixels. -/
theorem foldl_drawTile_eq_iff (painted left : List ChunkData) (fits : drawable loc) :
    left.foldl (drawTile painting provider loc) (pictureOf painting provider loc painted) =
        pictureOf painting provider loc painted ↔
      ∀ x y, 0 ≤ x → x < tileImagesize (tileScale loc.S) → 0 ≤ y →
        y < tileImagesize (tileScale loc.S) →
        Repaints (colorsAt painting provider loc painted x y)
          (colorsAt painting provider loc left x y) := by
  have side := ((drawable_iff loc).mp fits).1
  have size : (pictureOf painting provider loc painted).rect = _ := foldl_size _ _ _ _ _ painted _
  have inside (x y : Int) : (pictureOf painting provider loc painted).rect.contains x y ↔
      0 ≤ x ∧ x < tileImagesize (tileScale loc.S) ∧ 0 ≤ y ∧
        y < tileImagesize (tileScale loc.S) := by
    rw [size, RGBA.rect_new]
    unfold Rect.contains
    dsimp only
    rw [Int.toNat_of_nonneg (Int.not_lt.mp side)]
  have pixel {x y : Int} (there : (pictureOf painting provider loc painted).rect.contains x y) :
      (left.foldl (drawTile painting provider loc)
          (pictureOf painting provider loc painted)).pix x y =
        (pictureOf painting provider loc painted).pix x y ↔
      Repaints (colorsAt painting provider loc painted x y)
        (colorsAt painting provider loc left x y) := by
    have blank : (pictureOf painting provider loc painted).pix x y =
        (colorsAt painting provider loc painted x y).foldl Color.over .blank :=
      foldl_drawTile_pix (size ▸ there) painted
    rw [foldl_drawTile_pix there, blank, repaints_iff]
  have whole := foldl_size painting provider (wrap (loc.X * tileScale loc.S))
    (wrap (loc.Z * tileScale loc.S))
    ((tileImagesize (tileScale loc.S)).tdiv (tileScale loc.S)) left
    (pictureOf painting provider loc painted)
  constructor
  · intro same x y left right top bottom
    exact (pixel ((inside x y).mpr ⟨left, right, top, bottom⟩)).mp (by rw [same])
  · intro repaints
    refine RGBA.ext (Int.ofNat.inj (congrArg Rect.x1 whole)) (Int.ofNat.inj (congrArg Rect.y1 whole))
      fun x y => ?_
    by_cases there : (pictureOf painting provider loc painted).rect.contains x y
    · obtain ⟨left, right, top, bottom⟩ := (inside x y).mp there
      exact (pixel there).mpr (repaints x y left right top bottom)
    · rw [RGBA.pix_of_not_contains there]
      exact RGBA.pix_of_not_contains (whole ▸ there)

/-! ### What is saved -/

section Handler

variable {painting : Painting} {storages : Map String (Storage St)} {st : St}
  {order : List String} {p : Processor} {late : Option RGBA} {now : Int} {r : TileRequest}
  {gone : Option Nat}

/-- The request gets as far as the drawing of its tile: it is not answered with a message or
from the cache, and there are chunks. -/
structure Drawing (painting : Painting) (storages : Map String (Storage St)) (st : St)
    (order : List String) (p : Processor) (late : Option RGBA) (now : Int) (r : TileRequest)
    (loc : ImageLocation) (provider : Provider) (cc : List ChunkData) : Prop where
  params : ∃ said t, tilingParams r = (said, .ok t) ∧ loc = r.loc t
  uncached :
    (if r.mayBeCached then imageCacheGetBlockingLoc p late loc now else .ok none) = .ok none
  provided : providerOf loc.Variant = some provider
  fits : drawable loc
  fetched : ∃ w s, GetWorldStorage storages st loc.World order = (w, some s, none) ∧
    fetchTile painting provider s st loc = .ok (.ok cc)
  chunks : cc ≠ []

/-- What `renderTile` draws then. -/
theorem Drawing.renderTile_eq {loc : ImageLocation} {provider : Provider} {cc : List ChunkData}
    (drawing : Drawing painting storages st order p late now r loc provider cc) :
    renderTile painting storages st order loc =
      .ok (.ok (some (pictureOf painting provider loc cc))) := by
  obtain ⟨w, s, found, fetched⟩ := drawing.fetched
  obtain ⟨small, nonzero⟩ := (drawable_iff loc).mp drawing.fits
  unfold renderTile
  rw [drawing.provided, found]
  dsimp only
  rw [if_neg (by simp), if_neg small, if_neg nonzero]
  change (match fetchTile painting provider s st loc with
    | .error stop => _
    | .ok (.error err) => _
    | .ok (.ok []) => _
    | .ok (.ok cc) => _ : Except Stop (Except StorageError (Option RGBA))) = _
  rw [fetched]
  cases cc with
  | nil => exact absurd rfl drawing.chunks
  | cons c rest => rfl

/-- The parameters of a request that gets so far. -/
theorem Drawing.loc_eq {loc : ImageLocation} {provider : Provider} {cc : List ChunkData}
    (drawing : Drawing painting storages st order p late now r loc provider cc)
    {said : List Effect} {t : TilingParams} (params : tilingParams r = (said, .ok t)) :
    loc = r.loc t := by
  obtain ⟨said, t, same, located⟩ := drawing.params
  rw [params] at same
  cases same
  exact located

/-- A drawing gets past the lookups as the handler does, and then it is drawn. -/
theorem drawing_iff {said : List Effect} {t : TilingParams} {w : Option SWorld}
    {s : Option (ChunkStorage St)} {provider : Provider}
    (params : tilingParams r = (said, .ok t))
    (uncached : (if r.mayBeCached then imageCacheGetBlockingLoc p late (r.loc t) now
      else .ok none) = .ok none)
    (provided : providerOf r.ttype = some provider)
    (found : GetWorldStorage storages st t.wname order = (w, s, none))
    {loc : ImageLocation} {img : RGBA} :
    (∃ provider cc, Drawing painting storages st order p late now r loc provider cc ∧
        img = pictureOf painting provider loc (drawn gone cc)) ↔
      loc = r.loc t ∧
        (scaleImageryHandler painting provider s st r gone).2 = .ok (some img) := by
  rw [scaleImageryHandler_some painting provider s st gone params img]
  constructor
  · rintro ⟨other, cc, drawing, shown⟩
    obtain rfl := drawing.loc_eq params
    obtain rfl := Option.some.inj (provided.symm.trans drawing.provided)
    obtain ⟨_, storage, again, fetched⟩ := drawing.fetched
    cases found.symm.trans again
    exact ⟨rfl, storage, cc, rfl, drawing.fits, fetched, drawing.chunks, shown⟩
  · rintro ⟨rfl, storage, cc, rfl, fits, fetched, chunks, shown⟩
    exact ⟨provider, cc, ⟨⟨said, t, params, rfl⟩, uncached, provided, fits,
      ⟨w, storage, found, fetched⟩, chunks⟩, shown⟩

/-- The handler saves exactly what is drawn before the client is gone. -/
theorem mem_effects_iff {loc : ImageLocation} {img : RGBA} :
    .imageCacheSave loc img ∈
        (tileRouterHandler painting storages st order p late now r gone).effects ↔
      ∃ provider cc, Drawing painting storages st order p late now r loc provider cc ∧
        img = pictureOf painting provider loc (drawn gone cc) := by
  have quiet := tilingParams_quiet r loc img
  unfold tileRouterHandler
  rcases params : tilingParams r with ⟨said, result⟩
  rw [params] at quiet
  cases result with
  | error err =>
      refine ⟨fun member => absurd member quiet, ?_⟩
      rintro ⟨provider, cc, drawing, -⟩
      obtain ⟨_, _, same, -⟩ := drawing.params
      rw [params] at same
      cases same
  | ok t =>
      have located : ∀ {provider : Provider} {cc : List ChunkData},
          Drawing painting storages st order p late now r loc provider cc → loc = r.loc t :=
        fun drawing => drawing.loc_eq params
      dsimp only
      split
      · rename_i stop answered
        refine ⟨fun member => absurd member quiet, ?_⟩
        rintro ⟨provider, cc, drawing, -⟩
        rw [← located drawing, drawing.uncached] at answered
        cases answered
      · rename_i picture answered
        refine ⟨fun member => by simp [quiet] at member, ?_⟩
        rintro ⟨provider, cc, drawing, -⟩
        rw [← located drawing, drawing.uncached] at answered
        cases answered
      · rename_i uncached
        rcases found : GetWorldStorage storages st t.wname order with ⟨w, s, err⟩
        cases err with
        | some err =>
            refine ⟨fun member => absurd member quiet, ?_⟩
            rintro ⟨provider, cc, drawing, -⟩
            obtain ⟨_, _, other, -⟩ := drawing.fetched
            rw [located drawing] at other
            cases found.symm.trans other
        | none =>
            dsimp only
            cases provided : providerOf r.ttype with
            | none =>
                refine ⟨fun member => by simp [quiet] at member, ?_⟩
                rintro ⟨provider, cc, drawing, -⟩
                have other := drawing.provided
                rw [located drawing] at other
                cases provided.symm.trans other
            | some provider =>
                dsimp only
                have draws := scaleImageryHandler_some painting provider s st gone params img
                have silent := scaleImageryHandler_quiet painting provider s st r gone loc img
                rw [drawing_iff params uncached provided found]
                split
                · rename_i missing
                  refine ⟨fun member => absurd member quiet, ?_⟩
                  rintro ⟨-, result⟩
                  obtain ⟨storage, _, there, -⟩ := draws.mp result
                  rw [there] at missing
                  simp at missing
                · generalize scaleImageryHandler painting provider s st r gone = handled at silent ⊢
                  obtain ⟨drew, result⟩ := handled
                  cases result with
                  | error stop => simp [quiet, silent]
                  | ok picture =>
                      cases picture with
                      | none => simp [quiet, silent]
                      | some picture =>
                          have written := writeImage_quiet t.fname picture loc img
                          dsimp only
                          split <;> simp [quiet, silent, written, eq_comm]

end Handler

end WebChunk.Render
