import WebChunk.Render.Context

/-!
# Cropping agrees with rendering

Up to the storage level a tile shows sixteen pixels for each side of a chunk, so the
pictures of all these tiles are windows into one map of the whole plane. The window of a
small tile lies inside that of its storage tile, and this is where `copyFragmentRGBA` cuts.
-/

namespace WebChunk.Render

open WebChunk.Go WebChunk.ImageCache WebChunk.Storages

/-! ### The map of the plane -/

/-- The pixels of a chunk that is drawn on a blank square. -/
def cell (painting : Painting) (provider : Provider) (d : Option Datum) (x y : Int) : Color :=
  match d.bind (painting.paint provider) with
  | none => .blank
  | some chunk =>
      if (painting.resize 16 chunk).rect.contains x y then
        Color.blank.over ((painting.resize 16 chunk).pix x y)
      else .blank

/-- The pixels of the plane, sixteen to the side of a chunk. -/
def mapPixel (painting : Painting) (provider : Provider) (content : Int × Int → Option Datum)
    (x y : Int) : Color :=
  cell painting provider (content (x / 16, y / 16)) (x % 16) (y % 16)

/-- The square of the plane with a corner at `(x0, y0)`. -/
def window (pixel : Int → Int → Color) (side : Nat) (x0 y0 : Int) : RGBA where
  dx := side
  dy := side
  pix x y := if (Rect.mk 0 0 side side).contains x y then pixel (x0 + x) (y0 + y) else .blank
  outside _ _ out := if_neg out

/-- A window inside a window. -/
theorem draw_window (pixel : Int → Int → Color) {side whole : Nat} {x0 y0 spx spy : Int}
    (left : 0 ≤ spx) (top : 0 ≤ spy) (right : spx + side ≤ whole) (bottom : spy + side ≤ whole) :
    (RGBA.new side side).draw (RGBA.new side side).rect (window pixel whole x0 y0) spx spy =
      window pixel side (x0 + spx) (y0 + spy) := by
  refine RGBA.ext rfl rfl fun x y => ?_
  rw [RGBA.draw_new_pix]
  change (if (Rect.mk 0 0 (side : Int) side).contains x y then _ else _) = ite _ _ _
  by_cases inside : (Rect.mk 0 0 (side : Int) side).contains x y
  · rw [if_pos inside, if_pos inside]
    obtain ⟨x0le, xlt, y0le, ylt⟩ := inside
    dsimp only at x0le xlt y0le ylt
    have there : (Rect.mk 0 0 (whole : Int) whole).contains (x + spx) (y + spy) := by
      refine ⟨?_, ?_, ?_, ?_⟩ <;> dsimp only <;> omega
    change (if (Rect.mk 0 0 (whole : Int) whole).contains (x + spx) (y + spy) then _ else _) = _
    rw [if_pos there]
    congr 1 <;> omega
  · rw [if_neg inside, if_neg inside]

/-- A window without a chunk is blank. -/
theorem window_blank {painting : Painting} {provider : Provider}
    {content : Int × Int → Option Datum} {scale : Nat} {ox oz : Int}
    (empty : ∀ x z, (Rect.mk ox oz (ox + scale) (oz + scale)).contains x z →
      content (x, z) = none) :
    window (mapPixel painting provider content) (scale * 16) (ox * 16) (oz * 16) =
      .new (scale * 16) (scale * 16) := by
  refine RGBA.ext rfl rfl fun x y => ?_
  change ite _ _ _ = Color.blank
  split
  · rename_i inside
    obtain ⟨x0le, xlt, y0le, ylt⟩ := inside
    dsimp only at x0le xlt y0le ylt
    have absent : content ((ox * 16 + x) / 16, (oz * 16 + y) / 16) = none := by
      refine empty _ _ ⟨?_, ?_, ?_, ?_⟩ <;> dsimp only <;> omega
    rw [mapPixel, absent]
    rfl
  · rfl

/-! ### The drawing loop -/

section Loop

variable {painting : Painting} {provider : Provider} {content : Int × Int → Option Datum}
  {scale : Nat} {ox oz : Int}

/-- The rectangle of chunks of a tile. -/
abbrev chunkRect (ox oz : Int) (scale : Nat) : Rect := ⟨ox, oz, ox + scale, oz + scale⟩

/-- The coordinates of the tile's chunks are in the `int` range, and it has few of them. -/
structure Drawable (ox oz : Int) (scale : Nat) : Prop where
  few : scale ≤ 32
  left : -2 ^ 63 ≤ ox
  right : ox + scale ≤ 2 ^ 63
  top : -2 ^ 63 ≤ oz
  bottom : oz + scale ≤ 2 ^ 63

theorem drawChunkData_size (imagescale : Int) (img : RGBA) (c : ChunkData) :
    (drawChunkData painting provider imagescale ox oz img c).rect = img.rect := by
  unfold drawChunkData
  split <;> rfl

/-- The square that a chunk is drawn to. -/
theorem ofCorners_place {c : ChunkData} (drawable : Drawable ox oz scale)
    (inside : (chunkRect ox oz scale).contains c.X c.Z) :
    Rect.ofCorners (wrap (wrap (c.X - ox) * 16)) (wrap (wrap (c.Z - oz) * 16))
        (wrap (wrap (wrap (c.X - ox) * 16) + 16)) (wrap (wrap (wrap (c.Z - oz) * 16) + 16)) =
      ⟨(c.X - ox) * 16, (c.Z - oz) * 16, (c.X - ox) * 16 + 16, (c.Z - oz) * 16 + 16⟩ := by
  obtain ⟨few, left, right, top, bottom⟩ := drawable
  obtain ⟨lowX, highX, lowZ, highZ⟩ := inside
  dsimp only at lowX highX lowZ highZ
  have placed : ∀ d : Int, 0 ≤ d → d < scale →
      wrap (wrap d * 16) = d * 16 ∧ wrap (d * 16 + 16) = d * 16 + 16 := by
    intro d _ _
    have same : wrap d = d := wrap_of_fits (by omega) (by omega)
    rw [same]
    exact ⟨wrap_of_fits (by omega) (by omega), wrap_of_fits (by omega) (by omega)⟩
  obtain ⟨x, xEnd⟩ := placed (c.X - ox) (by omega) (by omega)
  obtain ⟨z, zEnd⟩ := placed (c.Z - oz) (by omega) (by omega)
  rw [x, z, xEnd, zEnd, Rect.ofCorners]
  congr 1 <;> omega

/-- A chunk elsewhere leaves a pixel as it is. -/
theorem drawChunkData_elsewhere {img : RGBA} {c : ChunkData} {x y : Int}
    (drawable : Drawable ox oz scale) (inside : (chunkRect ox oz scale).contains c.X c.Z)
    (elsewhere : (c.X, c.Z) ≠ (ox + x / 16, oz + y / 16)) :
    (drawChunkData painting provider 16 ox oz img c).pix x y = img.pix x y := by
  unfold drawChunkData
  split
  · rfl
  · dsimp only
    rw [ofCorners_place drawable inside]
    refine if_neg fun drawn => elsewhere ?_
    obtain ⟨-, ⟨left, right, top, bottom⟩, -⟩ := drawn
    dsimp only at left right top bottom
    rw [Prod.mk.injEq]
    omega

/-- A chunk is drawn to its own blank pixels. -/
theorem drawChunkData_there {img : RGBA} {c : ChunkData} {x y : Int}
    (drawable : Drawable ox oz scale) (inside : (chunkRect ox oz scale).contains c.X c.Z)
    (there : (c.X, c.Z) = (ox + x / 16, oz + y / 16)) (shown : img.rect.contains x y)
    (blank : img.pix x y = .blank) :
    (drawChunkData painting provider 16 ox oz img c).pix x y =
      cell painting provider (some c.Data) (x % 16) (y % 16) := by
  rw [Prod.mk.injEq] at there
  unfold drawChunkData cell
  rw [Option.bind_some]
  cases painting.paint provider c.Data with
  | none => exact blank
  | some chunk =>
      dsimp only
      rw [ofCorners_place drawable inside]
      have atX : x - (c.X - ox) * 16 = x % 16 := by omega
      have atY : y - (c.Z - oz) * 16 = y % 16 := by omega
      have square : (Rect.mk ((c.X - ox) * 16) ((c.Z - oz) * 16) ((c.X - ox) * 16 + 16)
          ((c.Z - oz) * 16 + 16)).contains x y := by
        refine ⟨?_, ?_, ?_, ?_⟩ <;> dsimp only <;> omega
      simp only [RGBA.drawOver, atX, atY, blank, shown, square, true_and]

/-- The loop over other chunks leaves a pixel as it is. -/
theorem foldl_elsewhere {l : List ChunkData} {img : RGBA} {x y : Int}
    (drawable : Drawable ox oz scale)
    (inside : ∀ c ∈ l, (chunkRect ox oz scale).contains c.X c.Z)
    (elsewhere : (ox + x / 16, oz + y / 16) ∉ l.map fun c => (c.X, c.Z)) :
    (l.foldl (drawChunkData painting provider 16 ox oz) img).pix x y = img.pix x y := by
  induction l generalizing img with
  | nil => rfl
  | cons c rest inductionHypothesis =>
      rw [List.map_cons, List.mem_cons, not_or] at elsewhere
      rw [List.foldl_cons,
        inductionHypothesis (fun d later => inside d (List.mem_cons_of_mem _ later)) elsewhere.2,
        drawChunkData_elsewhere drawable (inside c List.mem_cons_self) (Ne.symm elsewhere.1)]

/-- The loop draws the chunk that a pixel belongs to. -/
theorem foldl_there {l : List ChunkData} {img : RGBA} {x y : Int}
    (drawable : Drawable ox oz scale)
    (inside : ∀ c ∈ l, (chunkRect ox oz scale).contains c.X c.Z)
    (once : (l.map fun c => (c.X, c.Z)).Nodup) {d : Datum}
    (listed : ⟨ox + x / 16, oz + y / 16, d⟩ ∈ l) (shown : img.rect.contains x y)
    (blank : img.pix x y = .blank) :
    (l.foldl (drawChunkData painting provider 16 ox oz) img).pix x y =
      cell painting provider (some d) (x % 16) (y % 16) := by
  induction l generalizing img with
  | nil => cases listed
  | cons c rest inductionHypothesis =>
      rw [List.map_cons, List.nodup_cons] at once
      have first := inside c List.mem_cons_self
      have others : ∀ c ∈ rest, (chunkRect ox oz scale).contains c.X c.Z :=
        fun e later => inside e (List.mem_cons_of_mem _ later)
      rw [List.foldl_cons]
      rcases List.mem_cons.mp listed with rfl | later
      · rw [foldl_elsewhere drawable others once.1]
        exact drawChunkData_there drawable first rfl shown blank
      · have elsewhere : (c.X, c.Z) ≠ (ox + x / 16, oz + y / 16) := by
          intro same
          refine once.1 (same ▸ ?_)
          exact List.mem_map.mpr ⟨_, later, rfl⟩
        refine inductionHypothesis others once.2 later ?_ ?_
        · rw [drawChunkData_size]
          exact shown
        · rw [drawChunkData_elsewhere drawable first elsewhere]
          exact blank

theorem foldl_size (painting : Painting) (provider : Provider) (ox oz imagescale : Int)
    (l : List ChunkData) (img : RGBA) :
    (l.foldl (drawChunkData painting provider imagescale ox oz) img).rect = img.rect := by
  induction l generalizing img with
  | nil => rfl
  | cons c rest inductionHypothesis =>
      rw [List.foldl_cons, inductionHypothesis, drawChunkData_size]

/-- The loop over the chunks of a tile draws a window of the map. -/
theorem foldl_drawChunkData {l : List ChunkData} (drawable : Drawable ox oz scale)
    (lists : Lists content (chunkRect ox oz scale) l) :
    l.foldl (drawChunkData painting provider 16 ox oz) (.new (scale * 16) (scale * 16)) =
      window (mapPixel painting provider content) (scale * 16) (ox * 16) (oz * 16) := by
  have inside : ∀ c ∈ l, (chunkRect ox oz scale).contains c.X c.Z :=
    fun c listed => ((lists.mem c).mp listed).1
  have size := foldl_size painting provider ox oz 16 l (.new (scale * 16) (scale * 16))
  refine RGBA.ext (Int.ofNat.inj (congrArg Rect.x1 size)) (Int.ofNat.inj (congrArg Rect.y1 size))
    fun x y => ?_
  change _ = ite _ _ _
  by_cases shown : (Rect.mk 0 0 ((scale * 16 : Nat) : Int) (scale * 16 : Nat)).contains x y
  · rw [if_pos shown, mapPixel]
    have placed : (ox * 16 + x) / 16 = ox + x / 16 ∧ (oz * 16 + y) / 16 = oz + y / 16 ∧
        (ox * 16 + x) % 16 = x % 16 ∧ (oz * 16 + y) % 16 = y % 16 := by omega
    rw [placed.1, placed.2.1, placed.2.2.1, placed.2.2.2]
    obtain ⟨x0le, xlt, y0le, ylt⟩ := id shown
    dsimp only at x0le xlt y0le ylt
    have there : (chunkRect ox oz scale).contains (ox + x / 16) (oz + y / 16) := by
      refine ⟨?_, ?_, ?_, ?_⟩ <;> dsimp only <;> omega
    cases stored : content (ox + x / 16, oz + y / 16) with
    | some d =>
        have listed : ⟨ox + x / 16, oz + y / 16, d⟩ ∈ l := (lists.mem _).mpr ⟨there, stored⟩
        exact foldl_there drawable inside lists.once listed shown rfl
    | none =>
        rw [foldl_elsewhere drawable inside]
        · rfl
        · intro listed
          obtain ⟨c, member, same⟩ := List.mem_map.mp listed
          have found := ((lists.mem c).mp member).2
          rw [same, stored] at found
          cases found
  · rw [if_neg shown]
    refine RGBA.pix_of_not_contains ?_
    rw [size]
    exact shown

end Loop

/-! ### What the providers fetch -/

variable {St : Type}

/-- The storage has this content for a getter: for the one with context the stored chunks
are what it builds the content from. -/
def Provides (getter : DataProvider) (s : ChunkStorage St) (st : St) (wname dname : String)
    (content : Int × Int → Option Datum) : Prop :=
  match getter with
  | .chunksRegion => Serves (s.GetChunksRegion st wname dname) content
  | .chunksCountRegion => Serves (s.GetChunksCountRegion st wname dname) content
  | .chunksRegionWithContext => ∃ stored, content = asContextedData stored ∧
      Serves (s.GetChunksRegion st wname dname) (asData stored)

/-- The rectangle, with the margin that the getter adds, does not leave the `int` range. -/
def DataProvider.fits (getter : DataProvider) (r : Rect) : Prop :=
  match getter with
  | .chunksRegion | .chunksCountRegion => r.x1 < 2 ^ 63 ∧ r.y1 < 2 ^ 63
  | .chunksRegionWithContext => marginFits r

/-- A getter of the storage lists what is stored, and no chunk where the rectangle wraps. -/
theorem serves_spec
    {getter : Int → Int → Int → Int → Except Stop (Except StorageError (List ChunkData))}
    {content : Int × Int → Option Datum} (serves : Serves getter content) {ox oz : Int}
    {scale : Nat} (positive : 0 < scale) (drawable : Drawable ox oz scale) :
    (ox + scale < 2 ^ 63 ∧ oz + scale < 2 ^ 63 →
      ∃ l, getter ox oz (wrap (ox + scale)) (wrap (oz + scale)) = .ok (.ok l) ∧
        Lists content (chunkRect ox oz scale) l) ∧
    (¬ (ox + scale < 2 ^ 63 ∧ oz + scale < 2 ^ 63) →
      ∀ l, getter ox oz (wrap (ox + scale)) (wrap (oz + scale)) = .ok (.ok l) → l = []) := by
  obtain ⟨few, left, right, top, bottom⟩ := drawable
  constructor
  · rintro ⟨insideX, insideZ⟩
    rw [wrap_of_fits (by omega) insideX, wrap_of_fits (by omega) insideZ]
    refine serves.lists _ _ _ _ ?_
    constructor <;> dsimp only <;> omega
  · intro outside
    refine serves.wrapped _ _ _ _ ?_
    have last : wrap (2 ^ 63) = -2 ^ 63 := by decide
    by_cases insideX : ox + scale < 2 ^ 63
    · rw [show oz + scale = 2 ^ 63 by omega, last]
      omega
    · rw [show ox + scale = 2 ^ 63 by omega, last]
      omega

/-- Of a side whose margin wraps, the corners are further apart than an `int` holds. -/
theorem margin_wraps {low : Int} {scale : Nat} (few : scale ≤ 32) (lower : -2 ^ 63 ≤ low)
    (upper : low + scale ≤ 2 ^ 63) (outside : ¬ (-2 ^ 63 < low ∧ low + scale < 2 ^ 63 - 1)) :
    wrap (low - 1) - wrap (wrap (low + scale) + 1) ≥ 2 ^ 63 := by
  have first : low = -2 ^ 63 ∨ low + scale = 2 ^ 63 - 1 ∨ low + scale = 2 ^ 63 := by omega
  rcases first with first | last | past
  · have inner : wrap (low + scale) = low + scale := wrap_of_fits (by omega) (by omega)
    rw [inner, first, show wrap (-2 ^ 63 - 1) = 2 ^ 63 - 1 by decide,
      wrap_of_fits (by omega) (by omega)]
    omega
  · rw [wrap_of_fits (by omega) (by omega), last,
      show wrap (wrap (2 ^ 63 - 1) + 1) = -2 ^ 63 by decide]
    omega
  · rw [wrap_of_fits (by omega) (by omega), past,
      show wrap (wrap (2 ^ 63) + 1) = -2 ^ 63 + 1 by decide]
    omega

/-- A getter lists the content of a rectangle, and no chunk where the rectangle wraps. -/
theorem fetch_spec {getter : DataProvider} {s : ChunkStorage St} {st : St}
    {wname dname : String} {content : Int × Int → Option Datum}
    (provides : Provides getter s st wname dname content) (bunchOrder : BunchOrder)
    {ox oz : Int} {scale : Nat} (positive : 0 < scale) (drawable : Drawable ox oz scale) :
    (getter.fits (chunkRect ox oz scale) →
      ∃ l, getter.fetch bunchOrder s st wname dname ox oz (wrap (ox + scale))
          (wrap (oz + scale)) = .ok (.ok l) ∧ Lists content (chunkRect ox oz scale) l) ∧
    (¬ getter.fits (chunkRect ox oz scale) →
      ∀ l, getter.fetch bunchOrder s st wname dname ox oz (wrap (ox + scale))
        (wrap (oz + scale)) = .ok (.ok l) → l = []) := by
  cases getter with
  | chunksRegion | chunksCountRegion => exact serves_spec provides positive drawable
  | chunksRegionWithContext =>
      obtain ⟨stored, rfl, serves⟩ := provides
      obtain ⟨few, left, right, top, bottom⟩ := drawable
      constructor
      · intro fits
        obtain ⟨_, _, highX, highZ⟩ := id fits
        dsimp only at highX highZ
        rw [wrap_of_fits (by omega) (by omega), wrap_of_fits (by omega) (by omega)]
        exact getChunksRegionWithContext_lists bunchOrder serves (by omega) (by omega) fits
      · intro outside l answer
        have apart : wrap (ox - 1) - wrap (wrap (ox + scale) + 1) ≥ 2 ^ 63 ∨
            wrap (oz - 1) - wrap (wrap (oz + scale) + 1) ≥ 2 ^ 63 := by
          by_cases insideX : -2 ^ 63 < ox ∧ ox + scale < 2 ^ 63 - 1
          · refine .inr (margin_wraps few top bottom fun insideZ => outside ?_)
            exact ⟨insideX.1, insideZ.1, insideX.2, insideZ.2⟩
          · exact .inl (margin_wraps few left right insideX)
        -- Nothing is fetched, so that nothing is in the map either.
        change getChunksRegionWithContext bunchOrder s st wname dname ox oz (wrap (ox + scale))
          (wrap (oz + scale)) = _ at answer
        rcases fetched : s.GetChunksRegion st wname dname (wrap (ox - 1)) (wrap (oz - 1))
          (wrap (wrap (ox + scale) + 1)) (wrap (wrap (oz + scale) + 1)) with stop | err | unsorted
        · rw [getChunksRegionWithContext, fetched] at answer
          cases answer
        · rw [getChunksRegionWithContext, fetched] at answer
          cases answer
        · rw [getChunksRegionWithContext_eq bunchOrder fetched,
            serves.wrapped _ _ _ _ apart unsorted fetched] at answer
          cases answer
          refine List.eq_nil_iff_forall_not_mem.mpr fun d member => ?_
          have found := (mem_contexted.mp member).2
          cases found

/-! ### The two pictures -/

/-- The first chunk of a tile, in one coordinate. -/
abbrev tileStart (c : Int) (scale : Nat) : Int := wrap (c * scale)

/-- Up to the storage level a tile starts at a multiple of its side. -/
theorem tileStart_spec (c : Int) {n : Nat} (small : n ≤ 5) :
    tileStart c (2 ^ n) % (2 ^ n : Nat) = 0 ∧ -2 ^ 63 ≤ tileStart c (2 ^ n) ∧
      tileStart c (2 ^ n) + (2 ^ n : Nat) ≤ 2 ^ 63 := by
  unfold tileStart
  rw [wrap, Int.bmod_def]
  interval_cases n <;> split <;> omega

theorem tileStart_drawable (x z : Int) {n : Nat} (small : n ≤ 5) :
    Drawable (tileStart x (2 ^ n)) (tileStart z (2 ^ n)) (2 ^ n) where
  few := by interval_cases n <;> decide
  left := (tileStart_spec x small).2.1
  right := (tileStart_spec x small).2.2
  top := (tileStart_spec z small).2.1
  bottom := (tileStart_spec z small).2.2

/-- The sizes that `renderTile` computes. -/
theorem tile_sizes {n : Nat} (small : n ≤ 5) :
    tileScale n = (2 ^ n : Nat) ∧ tileImagesize (2 ^ n : Nat) = (2 ^ n * 16 : Nat) ∧
      ((2 ^ n * 16 : Nat) : Int).tdiv (2 ^ n : Nat) = 16 := by
  interval_cases n <;> decide

/-- The chunks of a tile at scale `n`. -/
abbrev tileRect (loc : ImageLocation) (n : Nat) : Rect :=
  chunkRect (tileStart loc.X (2 ^ n)) (tileStart loc.Z (2 ^ n)) (2 ^ n)

/-- The picture of a tile is drawn from what is fetched for its rectangle of chunks; there is none
where the rectangle wraps. -/
theorem renderTile_spec (painting : Painting) (loc : ImageLocation) (n : Nat)
    {storages : Map String (Storage St)} {st : St} {order : List String} {provider : Provider}
    {w : Option SWorld} {s : ChunkStorage St} {content : Int × Int → Option Datum}
    (provided : providerOf loc.Variant = some provider)
    (found : GetWorldStorage storages st loc.World order = (w, some s, none))
    (provides : Provides provider.getter s st loc.World loc.Dimension content)
    (scale : loc.S = n) (small : n ≤ 5) :
    (provider.getter.fits (tileRect loc n) →
      ∃ l, renderTile painting storages st order loc = .ok (.ok (if l = [] then none else
          some (l.foldl (drawChunkData painting provider 16 (tileStart loc.X (2 ^ n))
            (tileStart loc.Z (2 ^ n))) (.new (2 ^ n * 16) (2 ^ n * 16))))) ∧
        Lists content (tileRect loc n) l) ∧
    (¬ provider.getter.fits (tileRect loc n) →
      ∀ picture, renderTile painting storages st order loc ≠ .ok (.ok (some picture))) := by
  obtain ⟨tileScaleEq, imagesizeEq, imagescaleEq⟩ := tile_sizes small
  obtain ⟨inside, wrapped⟩ := fetch_spec provides painting.bunchOrder
    (Nat.two_pow_pos n) (tileStart_drawable loc.X loc.Z small)
  unfold renderTile
  rw [provided, found]
  dsimp only
  rw [if_neg (by simp), scale, tileScaleEq, imagesizeEq, if_neg (by omega), if_neg (by positivity),
    imagescaleEq]
  constructor
  · intro fits
    obtain ⟨l, fetched, lists⟩ := inside fits
    refine ⟨l, ?_, lists⟩
    rw [fetched]
    cases l with
    | nil => rfl
    | cons c rest => rfl
  · intro outside picture rendered
    split at rendered
    · cases rendered
    · cases rendered
    · cases rendered
    · rename_i cc nonempty fetched
      exact nonempty (wrapped outside cc fetched)

/-- The storage tile starts at the multiple of its side below the start of the tile. -/
theorem nativeStart (c : Int) {n : Nat} (small : n ≤ 5) :
    tileStart (tileStart c (2 ^ n) >>> (5 : Nat)) (2 ^ 5) =
      tileStart c (2 ^ n) - tileStart c (2 ^ n) % 32 := by
  obtain ⟨_, lower, upper⟩ := tileStart_spec c small
  have positive := Nat.two_pow_pos n
  generalize tileStart c (2 ^ n) = start at lower upper
  change wrap (start >>> (5 : Nat) * 32) = start - start % 32
  rw [storageStart, wrap_of_fits (by omega) (by omega)]

/-- A tile lies in its storage tile. -/
theorem start_inside (c : Int) {n : Nat} (small : n ≤ 5) :
    tileStart c (2 ^ n) % 32 + (2 ^ n : Nat) ≤ 32 := by
  have aligned := (tileStart_spec c small).1
  interval_cases n <;> omega

/-- Where the storage tile and its margin do not wrap, neither do those of the tile. -/
theorem fits_inside {getter : DataProvider} {ox oz : Int} {scale : Nat}
    (insideX : ox % 32 + scale ≤ 32) (insideZ : oz % 32 + scale ≤ 32)
    (fits : getter.fits (chunkRect (ox - ox % 32) (oz - oz % 32) 32)) :
    getter.fits (chunkRect ox oz scale) := by
  cases getter with
  | chunksRegion | chunksCountRegion =>
      obtain ⟨right, bottom⟩ := fits
      dsimp only at right bottom
      constructor <;> dsimp only <;> omega
  | chunksRegionWithContext =>
      obtain ⟨left, top, right, bottom⟩ := fits
      dsimp only at left top right bottom
      refine ⟨?_, ?_, ?_, ?_⟩ <;> dsimp only <;> omega

/-- A chunk of a tile is one of its storage tile. -/
theorem contains_native {ox oz x z : Int} {scale : Nat} (insideX : ox % 32 + scale ≤ 32)
    (insideZ : oz % 32 + scale ≤ 32) (inside : (chunkRect ox oz scale).contains x z) :
    (chunkRect (ox - ox % 32) (oz - oz % 32) 32).contains x z := by
  obtain ⟨left, right, top, bottom⟩ := inside
  dsimp only at left right top bottom
  refine ⟨?_, ?_, ?_, ?_⟩ <;> dsimp only <;> omega

/-- The storage tile of a tile at scale `n`. -/
abbrev nativeTile (loc : ImageLocation) (n : Nat) : ImageLocation :=
  { loc with
    S := StorageLevel
    X := tileStart loc.X (2 ^ n) >>> (5 : Nat)
    Z := tileStart loc.Z (2 ^ n) >>> (5 : Nat) }

/-- What is drawn, or blank where nothing is. -/
theorem getD_drawn (painting : Painting) (provider : Provider)
    {content : Int × Int → Option Datum} {ox oz : Int} {scale : Nat} {l : List ChunkData}
    (drawable : Drawable ox oz scale) (lists : Lists content (chunkRect ox oz scale) l) :
    (if l = [] then none else some (l.foldl (drawChunkData painting provider 16 ox oz)
        (.new (scale * 16) (scale * 16)))).getD (.new (scale * 16) (scale * 16)) =
      window (mapPixel painting provider content) (scale * 16) (ox * 16) (oz * 16) := by
  split
  · rename_i empty
    exact (window_blank (lists.eq_nil_iff.mp empty)).symm
  · exact foldl_drawChunkData drawable lists

/-- The fragment that is cut out of the window of the storage tile. -/
theorem copyFragmentRGBA_window (pixel : Int → Int → Color) {loc : ImageLocation} {n : Nat}
    (small : n ≤ 5) (pow : index powarr loc.S = some (2 ^ n))
    (side : index powarr16 loc.S = some (2 ^ n * 16)) :
    copyFragmentRGBA (window pixel (32 * 16)
        ((tileStart loc.X (2 ^ n) - tileStart loc.X (2 ^ n) % 32) * 16)
        ((tileStart loc.Z (2 ^ n) - tileStart loc.Z (2 ^ n) % 32) * 16)) loc =
      some (window pixel (2 ^ n * 16) (tileStart loc.X (2 ^ n) * 16)
        (tileStart loc.Z (2 ^ n) * 16)) := by
  have insideX := start_inside loc.X small
  have insideZ := start_inside loc.Z small
  simp only [copyFragmentRGBA, pow, side, Option.bind_eq_bind, Option.bind_some, IN]
  change some ((RGBA.new _ _).draw (RGBA.new _ _).rect _ (tileStart loc.X (2 ^ n) % 32 * 16)
    (tileStart loc.Z (2 ^ n) % 32 * 16)) = some _
  rw [draw_window pixel (by omega) (by omega) (by omega) (by omega)]
  congr 2 <;> omega

/-- The fragment of a storage tile is the picture of the tile that it shows, and blank where
the tile has none. Where there is no picture of the storage tile, and its rectangle of chunks
does not wrap, there is none of the tile either; where the rectangle wraps, there is no picture to
cut from. The orders in which the two renders meet the chunks may differ. -/
theorem cropAgreesWithRender (painting : Painting) (directOrder : BunchOrder)
    (storages : Map String (Storage St)) (st : St) (order : List String) (loc : ImageLocation)
    (provider : Provider) (provided : providerOf loc.Variant = some provider)
    (w : Option SWorld) (s : ChunkStorage St)
    (found : GetWorldStorage storages st loc.World order = (w, some s, none))
    (content : Int × Int → Option Datum)
    (provides : Provides provider.getter s st loc.World loc.Dimension content)
    (lower : 0 ≤ loc.S) (upper : loc.S ≤ StorageLevel) :
    ∃ tile, getStorageLevelLoc loc = some tile ∧
      (provider.getter.fits ⟨tile.X * 32, tile.Z * 32, tile.X * 32 + 32, tile.Z * 32 + 32⟩ →
        ∃ native direct, renderTile painting storages st order tile = .ok (.ok native) ∧
          renderTile { painting with bunchOrder := directOrder } storages st order loc =
            .ok (.ok direct) ∧
          (∀ picture, native = some picture → copyFragmentRGBA picture loc =
            some (direct.getD (.new (2 ^ loc.S.toNat * 16) (2 ^ loc.S.toNat * 16)))) ∧
          (native = none → direct = none)) ∧
      (¬ provider.getter.fits
          ⟨tile.X * 32, tile.Z * 32, tile.X * 32 + 32, tile.Z * 32 + 32⟩ →
        ∀ picture, renderTile painting storages st order tile ≠ .ok (.ok (some picture))) := by
  obtain ⟨n, scale⟩ := Int.eq_ofNat_of_zero_le lower
  have small : n ≤ 5 := by
    unfold StorageLevel at upper
    omega
  obtain ⟨pow, side⟩ := index_powarr lower upper
  rw [show loc.S.toNat = n by omega] at pow side ⊢
  have located : getStorageLevelLoc loc = some (nativeTile loc n) := by
    simp only [getStorageLevelLoc, pow, AT, Option.bind_eq_bind, Option.bind_some]
    rfl
  obtain ⟨nativeDrawn, nativeWrapped⟩ :=
    renderTile_spec painting (nativeTile loc n) 5 provided found provides rfl le_rfl
  obtain ⟨directDrawn, -⟩ :=
    renderTile_spec { painting with bunchOrder := directOrder } loc n provided found provides scale
      small
  have startX := nativeStart loc.X small
  have startZ := nativeStart loc.Z small
  have native : tileRect (nativeTile loc n) 5 =
      chunkRect (tileStart loc.X (2 ^ n) - tileStart loc.X (2 ^ n) % 32)
        (tileStart loc.Z (2 ^ n) - tileStart loc.Z (2 ^ n) % 32) 32 := by
    rw [tileRect, startX, startZ]
    rfl
  have whole : Rect.mk ((nativeTile loc n).X * 32) ((nativeTile loc n).Z * 32)
      ((nativeTile loc n).X * 32 + 32) ((nativeTile loc n).Z * 32 + 32) =
      tileRect (nativeTile loc n) 5 := by
    rw [native, storageStart (tileStart loc.X (2 ^ n)), storageStart (tileStart loc.Z (2 ^ n))]
    rfl
  refine ⟨nativeTile loc n, located, ?_⟩
  rw [whole]
  refine ⟨fun fits => ?_, nativeWrapped⟩
  have fitsDirect : provider.getter.fits (tileRect loc n) :=
    fits_inside (start_inside loc.X small) (start_inside loc.Z small) (native ▸ fits)
  obtain ⟨ln, nativeEq, nativeLists⟩ := nativeDrawn fits
  obtain ⟨ld, directEq, directLists⟩ := directDrawn fitsDirect
  refine ⟨_, _, nativeEq, directEq, ?_, ?_⟩
  · intro picture drawn
    have window := getD_drawn painting provider
      (tileStart_drawable (nativeTile loc n).X (nativeTile loc n).Z (n := 5) le_rfl) nativeLists
    rw [drawn, startX, startZ, Option.getD_some] at window
    rw [window]
    exact (copyFragmentRGBA_window _ small pow side).trans (congrArg some
      (getD_drawn painting provider (tileStart_drawable loc.X loc.Z small) directLists).symm)
  · intro missing
    have empty : ln = [] := by
      by_contra stored
      rw [if_neg stored] at missing
      cases missing
    refine if_pos (directLists.eq_nil_iff.mpr fun x z inside => ?_)
    refine nativeLists.eq_nil_iff.mp empty x z ?_
    rw [native]
    exact contains_native (start_inside loc.X small) (start_inside loc.Z small) inside

/-- A painter of white chunks, in the size that they are drawn in. -/
noncomputable def whitePainting : Painting where
  painter _ _ := some (window (fun _ _ => ⟨255, 255, 255, 255⟩) 16 0 0)
  resize _ img := img
  bunchOrder := Map.someOrder

/-- One storage with one chunk. -/
def oneChunk (x z : Int) : Map String (Storage Unit) :=
  Map.empty.set "storage" ⟨some (holding [(x, z)] ⟨[]⟩)⟩

/-- A chunk with negative coordinates, at the smallest scale. -/
theorem cropAgreesWithRender_negative : ∃ tile native direct,
    getStorageLevelLoc ⟨"world", "overworld", "terrain", 0, -1, -40⟩ = some tile ∧
      renderTile whitePainting (oneChunk (-1) (-40)) () ["storage"] tile = .ok (.ok native) ∧
      renderTile whitePainting (oneChunk (-1) (-40)) () ["storage"]
        ⟨"world", "overworld", "terrain", 0, -1, -40⟩ = .ok (.ok direct) ∧
      ∀ picture, native = some picture → copyFragmentRGBA picture
        ⟨"world", "overworld", "terrain", 0, -1, -40⟩ = some (direct.getD (.new 16 16)) := by
  obtain ⟨tile, located, drawn, -⟩ :=
    cropAgreesWithRender whitePainting Map.someOrder (oneChunk (-1) (-40)) () ["storage"]
      ⟨"world", "overworld", "terrain", 0, -1, -40⟩ ⟨.chunksRegion, .chunk⟩ rfl
      (some ⟨"world", "", ""⟩) (holding [(-1, -40)] ⟨[]⟩) rfl
      (asData (held [(-1, -40)] ⟨[]⟩)) (holding_serves (by decide) _ _ _ _) (by decide) (by decide)
  have same : getStorageLevelLoc ⟨"world", "overworld", "terrain", 0, -1, -40⟩ =
      some ⟨"world", "overworld", "terrain", 5, -1, -2⟩ := by decide
  cases located.symm.trans same
  obtain ⟨native, direct, nativeDrawn, directDrawn, cut, -⟩ := drawn ⟨by decide, by decide⟩
  exact ⟨_, native, direct, located, nativeDrawn, directDrawn, cut⟩

/-- At the end of the `int` range the rectangle of the storage tile wraps: there is no
picture to cut from, although the tile has one. -/
theorem no_storage_tile_at_int_end : ∃ tile direct,
    Provides .chunksRegion (holding [(2 ^ 63 - 32, 0)] ⟨[]⟩) () "world" "overworld"
        (asData (held [(2 ^ 63 - 32, 0)] ⟨[]⟩)) ∧
      getStorageLevelLoc ⟨"world", "overworld", "terrain", 0, 2 ^ 63 - 32, 0⟩ = some tile ∧
      renderTile whitePainting (oneChunk (2 ^ 63 - 32) 0) () ["storage"] tile = .ok (.ok none) ∧
      renderTile whitePainting (oneChunk (2 ^ 63 - 32) 0) () ["storage"]
        ⟨"world", "overworld", "terrain", 0, 2 ^ 63 - 32, 0⟩ = .ok (.ok (some direct)) ∧
      direct.pix 0 0 = ⟨255, 255, 255, 255⟩ :=
  ⟨_, _, holding_serves (by decide) _ _ _ _, rfl, rfl, rfl, by decide⟩

end WebChunk.Render
