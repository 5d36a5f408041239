import WebChunk.Render.Tile

/-!
# Which locations crash the server

`imageGetSync` passes the scale of a location to a table, to a shift and to a division, its
world to a lookup that may find no storage, and its rectangle of chunks to a driver that may make
a channel of that size. Each of them excludes some locations.
-/

namespace WebChunk.Render

open WebChunk.Go WebChunk.ImageCache WebChunk.Storages

/-! ### The scale -/

/-- Below the width of an `int` nothing is shifted out. -/
theorem tileScale_eq_zero {S : Int} : tileScale S = 0 ↔ 64 ≤ S := by
  unfold tileScale
  split
  · rename_i positive
    obtain ⟨n, rfl⟩ : ∃ n : Nat, S = n + 1 := ⟨(S - 1).toNat, by omega⟩
    rw [show ((n : Int) + 1 - 1).toNat = n by omega]
    by_cases small : n < 63
    · have shifted : shiftLeft 2 n ≠ 0 := by
        interval_cases n <;> decide
      simp only [shifted, false_iff]
      omega
    · have lost : shiftLeft 2 n = 0 := by
        unfold shiftLeft
        split
        · have last : n = 63 := by omega
          subst last
          decide
        · rfl
      simp only [lost, true_iff]
      omega
  · simp only [one_ne_zero, false_iff]
    omega

/-- The size of the picture overflows to a negative number at one scale only. -/
theorem tileImagesize_neg {S : Int} : tileImagesize (tileScale S) < 0 ↔ S = 59 := by
  by_cases inside : 1 ≤ S ∧ S ≤ 63
  · obtain ⟨lower, upper⟩ := inside
    interval_cases S <;> decide
  · have scale : tileScale S = 1 ∨ tileScale S = 0 := by
      by_cases large : 64 ≤ S
      · exact .inr (tileScale_eq_zero.mpr large)
      · refine .inl (if_neg ?_)
        omega
    have notNegative : ¬ tileImagesize (tileScale S) < 0 := by
      rcases scale with one | zero
      · rw [one]
        decide
      · rw [zero]
        decide
    simp only [notNegative, false_iff]
    omega

/-! ### The cache and the renderer -/

variable {St : Type}

/-- The cache answers a get with a picture, given what the read brings if it has to wait. -/
def hasPicture (p : Processor) (late : Option RGBA) (loc : ImageLocation) : Bool :=
  match tileOf loc with
  | none => false
  | some tile =>
      match p.cache.get tile with
      | none => late.isSome
      | some l =>
          if loc.S < StorageLevel ∧ l.imageUnloaded = true then late.isSome else l.img.isSome

/-- The call of the driver that a getter makes for a rectangle panics. -/
def DataProvider.panics (getter : DataProvider) (s : ChunkStorage St) (st : St)
    (wname dname : String) (cx0 cz0 cx1 cz1 : Int) : Prop :=
  match getter with
  | .chunksRegion => s.kind.regionPanics st cx0 cz0 cx1 cz1
  | .chunksCountRegion => s.kind.countPanics st wname dname cx0 cz0 cx1 cz1
  | .chunksRegionWithContext =>
      s.kind.regionPanics st (wrap (cx0 - 1)) (wrap (cz0 - 1)) (wrap (cx1 + 1)) (wrap (cz1 + 1))

/-- The driver's call for the chunks of a tile panics. -/
def tilePanics (getter : DataProvider) (s : ChunkStorage St) (st : St) (loc : ImageLocation) :
    Prop :=
  getter.panics s st loc.World loc.Dimension
    (wrap (loc.X * tileScale loc.S)) (wrap (loc.Z * tileScale loc.S))
    (wrap (wrap (loc.X * tileScale loc.S) + tileScale loc.S))
    (wrap (wrap (loc.Z * tileScale loc.S) + tileScale loc.S))

/-- Rendering does not panic: the terrain type is unknown, the lookup fails, or it finds a
storage, the scale is one of those that can be drawn, and the driver can be asked for the
rectangle of chunks. -/
def renders (storages : Map String (Storage St)) (st : St) (order : List String)
    (loc : ImageLocation) : Prop :=
  providerOf loc.Variant = none ∨
    (GetWorldStorage storages st loc.World order).2.2.isSome ∨
    ∃ s, (GetWorldStorage storages st loc.World order).2.1 = some s ∧ loc.S ≤ 63 ∧ loc.S ≠ 59 ∧
      ∀ provider, providerOf loc.Variant = some provider → ¬ tilePanics provider.getter s st loc

/-- A getter panics where the call of the driver does. -/
theorem DataProvider.fetch_panics_iff (getter : DataProvider) (bunchOrder : BunchOrder)
    (s : ChunkStorage St) (st : St) (wname dname : String) (cx0 cz0 cx1 cz1 : Int) :
    Panics (getter.fetch bunchOrder s st wname dname cx0 cz0 cx1 cz1) ↔
      getter.panics s st wname dname cx0 cz0 cx1 cz1 := by
  cases getter with
  | chunksRegion => exact s.region_panics st wname dname cx0 cz0 cx1 cz1
  | chunksCountRegion => exact s.count_panics st wname dname cx0 cz0 cx1 cz1
  | chunksRegionWithContext =>
      refine Iff.trans ?_ (s.region_panics st wname dname (wrap (cx0 - 1)) (wrap (cz0 - 1))
        (wrap (cx1 + 1)) (wrap (cz1 + 1)))
      unfold DataProvider.fetch getChunksRegionWithContext
      rcases s.GetChunksRegion st wname dname (wrap (cx0 - 1)) (wrap (cz0 - 1)) (wrap (cx1 + 1))
        (wrap (cz1 + 1)) with stop | err | unsortedBunch
      · simp only [panics_error]
      · simp only [not_panics_ok]
      · simp only [not_panics_ok]

/-- From the smallest scale on the cache answers. -/
theorem imageCacheGetBlockingLoc_spec (p : Processor) (late : Option RGBA) (now : Int)
    {loc : ImageLocation} (lower : 0 ≤ loc.S) :
    ∃ picture, imageCacheGetBlockingLoc p late loc now = .ok picture ∧
      picture.isSome = hasPicture p late loc := by
  have answered : (p.processTask { loc := loc } now).isSome :=
    processImageGet_isSome.mpr lower
  obtain ⟨next, processed⟩ := Option.isSome_iff_exists.mp answered
  unfold imageCacheGetBlockingLoc hasPicture
  rw [processed]
  cases taskStep_of_processTask processed with
  | tooLarge _ large =>
      have outside : tileOf loc = none := tileOf_large large
      simp [outside, Processor.answer]
  | @nativeHit l _ native hit =>
      have inside : tileOf loc = some loc := tileOf_native native
      have stored : p.cache.get loc = some l := hit
      have notSmaller : ¬ loc.S < StorageLevel := native.not_lt
      simp [inside, stored, notSmaller, Processor.answer, copyCachedImage]
  | nativeMiss _ native miss =>
      have inside : tileOf loc = some loc := tileOf_native native
      have absent : p.cache.get loc = none := miss
      simp [inside, absent, Processor.read, Processor.wait]
  | @smallerWaits tile l _ smaller found hit unloaded =>
      have inside : tileOf loc = some tile := (tileOf_smaller smaller).trans found
      have below : loc.S < StorageLevel := smaller
      simp [inside, hit, unloaded, below, Processor.wait]
  | @smallerHit tile l image _ smaller found hit loaded copy =>
      have inside : tileOf loc = some tile := (tileOf_smaller smaller).trans found
      have cut : image.img = l.img.map fun whole => crop whole loc :=
        img_of_answerFrom smaller.le (by rw [answerFrom, if_neg smaller.ne]; exact copy)
      simp [inside, hit, loaded, cut, Processor.answer]
  | @smallerMiss tile _ smaller found miss =>
      have inside : tileOf loc = some tile := (tileOf_smaller smaller).trans found
      simp [inside, miss, Processor.read, Processor.wait]
  | setIgnored isSet _ | setHit isSet _ _ | setMiss isSet _ _ _ => cases isSet

theorem imageCacheGetBlockingLoc_negative (p : Processor) (late : Option RGBA) (now : Int)
    {loc : ImageLocation} (negative : loc.S < 0) :
    imageCacheGetBlockingLoc p late loc now = .error .indexOutOfRange := by
  have panics : p.processTask { loc := loc } now = none := by
    rw [← Option.not_isSome_iff_eq_none]
    exact fun answered => Int.not_le.mpr negative (processImageGet_isSome.mp answered)
  rw [imageCacheGetBlockingLoc, panics]

theorem renderTile_panics_iff (painting : Painting) {storages : Map String (Storage St)} {st : St}
    {order : List String} {loc : ImageLocation} :
    Panics (renderTile painting storages st order loc) ↔ ¬ renders storages st order loc := by
  unfold renderTile renders
  cases providerOf loc.Variant with
  | none => simp only [true_or, not_true, not_panics_ok]
  | some provider =>
      generalize GetWorldStorage storages st loc.World order = found
      obtain ⟨w, s, err⟩ := found
      cases err with
      | some err => simp only [Option.isSome_some, true_or, or_true, not_true, not_panics_ok]
      | none =>
          dsimp only
          cases s with
          | none =>
              -- Whether the getter is made or called, there is no storage behind it.
              refine iff_of_true ?_ (by simp)
              split_ifs <;> simp
          | some s =>
              rw [if_neg (by simp)]
              by_cases huge : loc.S = 59
              · rw [if_pos (tileImagesize_neg.mpr huge)]
                simp [huge]
              · rw [if_neg (mt tileImagesize_neg.mp huge)]
                by_cases lost : 64 ≤ loc.S
                · simp [tileScale_eq_zero.mpr lost, Int.not_le.mpr (show 63 < loc.S by omega)]
                · rw [if_neg (mt tileScale_eq_zero.mp lost)]
                  have drawable : loc.S ≤ 63 := by omega
                  have fetches := provider.getter.fetch_panics_iff painting.bunchOrder s st
                    loc.World loc.Dimension (wrap (loc.X * tileScale loc.S))
                    (wrap (loc.Z * tileScale loc.S))
                    (wrap (wrap (loc.X * tileScale loc.S) + tileScale loc.S))
                    (wrap (wrap (loc.Z * tileScale loc.S) + tileScale loc.S))
                  change _ ↔ tilePanics provider.getter s st loc at fetches
                  simp only [reduceCtorEq, Option.isSome_none, Bool.false_eq_true, false_or,
                    Option.some.injEq, exists_eq_left', forall_eq', drawable, ne_eq, huge,
                    not_false_eq_true, true_and, not_not]
                  rw [← fetches]
                  split
                  · rename_i stop fetched
                    rw [fetched, panics_error, panics_error]
                  all_goals
                    rename_i fetched
                    simp only [fetched, not_panics_ok]

/-- A set of a rendered picture does not panic. -/
theorem imageCacheSaveLoc_ok (p : Processor) (img : RGBA) (loc : ImageLocation) (now : Int) :
    imageCacheSaveLoc p img loc now = .ok () := by
  obtain ⟨next, processed⟩ := Option.isSome_iff_exists.mp
    (processImageSet_isSome p { loc := loc, img := some img } img now)
  have same : p.processTask { loc := loc, img := some img } now = some next := processed
  rw [imageCacheSaveLoc, same]

/-- What happens after the cache has answered. -/
theorem imageGetSync_cached {painting : Painting} {storages : Map String (Storage St)} {st : St}
    {order : List String} {p later : Processor} {late picture : Option RGBA} {now : Int}
    {loc : ImageLocation} (cached : imageCacheGetBlockingLoc p late loc now = .ok picture) :
    ¬ Panics (imageGetSync painting storages st order p later late now loc false) ↔
      picture.isSome = true ∨ renders storages st order loc := by
  rw [← not_not (a := renders storages st order loc), ← renderTile_panics_iff painting]
  unfold imageGetSync
  simp only [Bool.false_eq_true, if_false, cached, bind, Except.bind]
  cases picture with
  | some i => simp [pure, Except.pure]
  | none =>
      rcases renderTile painting storages st order loc with stop | err | drawn
      · simp
      · simp [pure, Except.pure]
      · cases drawn with
        | none => simp [pure, Except.pure]
        | some img => simp [imageCacheSaveLoc_ok, pure, Except.pure]

/-- The filesystem driver cannot make the channel for the chunks of a wide tile. -/
theorem wide_tile_crashes (painting : Painting) {storages : Map String (Storage St)} {st : St}
    {order : List String} {s : ChunkStorage St} {limit countLimit : Nat} {isOpen : St → Bool}
    {hasFile : St → RegionStore.RegionLocator → Bool}
    (kind : s.kind = .filesystem limit countLimit isOpen hasFile) (small : limit < 2 ^ 62)
    {loc : ImageLocation} (scale : loc.S = 31) (x : loc.X = 0) (z : loc.Z = 0)
    (variant : loc.Variant = "terrain")
    (found : (GetWorldStorage storages st loc.World order).2.1 = some s)
    (noError : (GetWorldStorage storages st loc.World order).2.2 = none) :
    Panics (renderTile painting storages st order loc) := by
  rw [renderTile_panics_iff]
  rintro (unknown | failed | ⟨other, same, -, -, fetches⟩)
  · rw [variant] at unknown
    cases unknown
  · rw [noError] at failed
    cases failed
  · obtain rfl := Option.some.inj (found.symm.trans same)
    refine fetches ⟨.chunksRegion, .chunk⟩ (by rw [variant]; rfl) ?_
    have count : rectCount 0 0 (2 ^ 31) (2 ^ 31) = 2 ^ 62 := by decide
    have corner : wrap (wrap (0 * tileScale 31) + tileScale 31) = 2 ^ 31 := by decide
    have start : wrap (0 * tileScale 31) = 0 := by decide
    unfold tilePanics
    rw [scale, x, z, corner, start]
    unfold DataProvider.panics DriverKind.regionPanics
    rw [kind]
    refine .inl ?_
    rw [count, Chan.makeSize, if_neg]
    omega

end WebChunk.Render
