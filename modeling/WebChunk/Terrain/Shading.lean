import WebChunk.Terrain.Heightmap
import WebChunk.Terrain.Picture

/-!
# Shading

`drawChunkShading` darkens a column by how much the columns to the north and to the east of it
are higher. The columns of a neighbour chunk that is absent are taken to have the height -1.
-/

namespace WebChunk.Terrain

open WebChunk.Go WebChunk.Semantics

variable (lib : Library)

/-- `ContextedChunkData`; a nil pointer is `none`. -/
structure ContextedChunkData where
  center : Chunk
  top : Option Chunk
  bottom : Option Chunk
  left : Option Chunk
  right : Option Chunk

/-- `hr` of the loop, for the heightmaps of the center and of the right neighbour. -/
def rightHeight (hmc : List Int) (hmr : Option (List Int)) (i : Nat) : Int :=
  if i % 16 = 15 then
    match hmr with
    | some hmr => hmr.getD (i - 15) 0
    | none => -1
  else hmc.getD (i + 1) 0

/-- `ht` of the loop. -/
def topHeight (hmc : List Int) (hmt : Option (List Int)) (i : Nat) : Int :=
  if i < 16 then
    match hmt with
    | some hmt => hmt.getD (16 * 15 + i) 0
    | none => -1
  else hmc.getD (i - 16) 0

/-- `d` of the loop. -/
def shadeDepth (hc ht hr : Int) : Int :=
  let d : Int := 0
  let d := if ht > hc then d + (ht - hc) * 16 else d
  let d := if hr > hc then d + (hr - hc) * 16 else d
  if d > 64 then 64 else d

/-- The body of the loop of `drawChunkShading`. -/
def shadingStep (hmc : List Int) (hmr hmt : Option (List Int)) (img : RGBA) (i : Nat) : RGBA :=
  let img := if i % 16 = 15 ∧ hmr = none then
    setPixel img i ⟨255, 0, 0, 255⟩ else img
  let img := if i < 16 ∧ hmt = none then
    setPixel img i ⟨0, 255, 0, 255⟩ else img
  let d := shadeDepth (hmc.getD i 0) (topHeight hmc hmt i) (rightHeight hmc hmr i)
  setPixel img i ⟨0, 0, 0, .ofNat (d % 256).toNat⟩

def drawChunkShading (chunkContext : ContextedChunkData) : RGBA :=
  let hmc := genHeightmap lib chunkContext.center
  let hmr := chunkContext.right.map (genHeightmap lib)
  let hmt := chunkContext.top.map (genHeightmap lib)
  (List.range (16 * 16)).foldl (shadingStep hmc hmr hmt) (filled ⟨0, 0, 0, 0⟩)

/-! ### The shading of a world -/

/-- The heights of the columns of one chunk of a world. -/
def heightsOf (h : Int → Int → Int) (X Z : Int) : List Int :=
  (List.range 256).map fun i => h (16 * X + (i % 16 : Nat)) (16 * Z + (i / 16 : Nat))

/-- The chunks that are present have the heights of a world, the center at `(X, Z)`. -/
structure Surrounds (h : Int → Int → Int) (X Z : Int) (chunkContext : ContextedChunkData) :
    Prop where
  center : genHeightmap lib chunkContext.center = heightsOf h X Z
  right : ∀ chunk, chunkContext.right = some chunk → genHeightmap lib chunk = heightsOf h (X + 1) Z
  top : ∀ chunk, chunkContext.top = some chunk → genHeightmap lib chunk = heightsOf h X (Z - 1)

/-- What a higher neighbour column at the north adds, if its chunk is there. -/
def topTerm (h : Int → Int → Int) (X Z : Int) (chunkContext : ContextedChunkData) (x z : Nat) :
    Int :=
  if z = 0 ∧ chunkContext.top.isNone then 0
  else 16 * max 0 (h (16 * X + x) (16 * Z + z - 1) - h (16 * X + x) (16 * Z + z))

/-- What a higher neighbour column at the east adds, if its chunk is there. -/
def rightTerm (h : Int → Int → Int) (X Z : Int) (chunkContext : ContextedChunkData) (x z : Nat) :
    Int :=
  if x = 15 ∧ chunkContext.right.isNone then 0
  else 16 * max 0 (h (16 * X + x + 1) (16 * Z + z) - h (16 * X + x) (16 * Z + z))

/-- Every column is shaded by its two neighbour columns in the world. -/
def Seamless (h : Int → Int → Int) (X Z : Int) (chunkContext : ContextedChunkData) (img : RGBA) :
    Prop :=
  ∀ x z : Nat, x < 16 → z < 16 → img.pix x z =
    ⟨0, 0, 0, .ofNat (min 64 (topTerm h X Z chunkContext x z +
      rightTerm h X Z chunkContext x z)).toNat⟩

/-! ### The loop -/

theorem acts_shadingStep (hmc : List Int) (hmr hmt : Option (List Int)) {here : Nat}
    (inside : here < 256) :
    Acts Square pixel (fun img => shadingStep hmc hmr hmt img here) fun i part =>
      if i = here then ⟨0, 0, 0, .ofNat (shadeDepth (hmc.getD i 0) (topHeight hmc hmt i)
        (rightHeight hmc hmr i) % 256).toNat⟩ else part := by
  -- Whatever was painted before for an absent neighbour is painted over.
  have marked : ∀ (absent : Prop) [Decidable absent] (c : Color),
      Acts Square pixel (fun img => if absent then
        setPixel img here c else img) fun i part =>
          if i = here then if absent then c else part else part := by
    intro absent _ c
    by_cases holds : absent
    · simpa [holds] using acts_setPixel inside c
    · simpa [holds] using (Acts.skip : Acts Square pixel _ _)
  have red := marked (here % 16 = 15 ∧ hmr = none) ⟨255, 0, 0, 255⟩
  have green := marked (here < 16 ∧ hmt = none) ⟨0, 255, 0, 255⟩
  have last := acts_setPixel inside ⟨0, 0, 0, .ofNat (shadeDepth (hmc.getD here 0)
    (topHeight hmc hmt here) (rightHeight hmc hmr here) % 256).toNat⟩
  refine ⟨fun square => last.kept (green.kept (red.kept square)), fun img square i => ?_⟩
  refine (last.part _ (green.kept (red.kept square)) i).trans ?_
  by_cases same : i = here
  · subst same
    rw [if_pos rfl, if_pos rfl]
  · rw [if_neg same, if_neg same, green.part _ (red.kept square) i, if_neg same,
      red.part img square i, if_neg same]

theorem pixel_drawChunkShading (chunkContext : ContextedChunkData) {i : Nat} (inside : i < 256) :
    pixel (drawChunkShading lib chunkContext) i =
      ⟨0, 0, 0, .ofNat (shadeDepth ((genHeightmap lib chunkContext.center).getD i 0)
        (topHeight (genHeightmap lib chunkContext.center)
          (chunkContext.top.map (genHeightmap lib)) i)
        (rightHeight (genHeightmap lib chunkContext.center)
          (chunkContext.right.map (genHeightmap lib)) i) % 256).toNat⟩ := by
  have loop := Acts.places (List.nodup_range (n := 16 * 16)) fun here member =>
    acts_shadingStep (genHeightmap lib chunkContext.center)
      (chunkContext.right.map (genHeightmap lib)) (chunkContext.top.map (genHeightmap lib))
      (List.mem_range.mp member)
  refine (loop.part _ (square_filled ⟨0, 0, 0, 0⟩) i).trans ?_
  rw [if_pos (List.mem_range.mpr inside)]

/-! ### The neighbours of a column -/

theorem getD_heightsOf (h : Int → Int → Int) (X Z : Int) {x z : Nat} (hx : x < 16) (hz : z < 16) :
    (heightsOf h X Z).getD (16 * z + x) 0 = h (16 * X + x) (16 * Z + z) := by
  have column : (16 * z + x) % 16 = x := by omega
  have row : (16 * z + x) / 16 = z := by omega
  have inside : 16 * z + x < 256 := by omega
  rw [heightsOf, List.getD_eq_getElem?_getD, List.getElem?_map, List.getElem?_range inside,
    Option.map_some, Option.getD_some, column, row]

variable {lib} {h : Int → Int → Int} {X Z : Int} {chunkContext : ContextedChunkData}

theorem topHeight_eq (surrounds : Surrounds lib h X Z chunkContext) {x z : Nat} (hx : x < 16)
    (hz : z < 16) :
    topHeight (genHeightmap lib chunkContext.center) (chunkContext.top.map (genHeightmap lib))
        (16 * z + x) =
      if z = 0 ∧ chunkContext.top.isNone then -1 else h (16 * X + x) (16 * Z + z - 1) := by
  unfold topHeight
  by_cases edge : z = 0
  · subst edge
    rw [if_pos (by omega)]
    cases found : chunkContext.top with
    | none => rfl
    | some chunk =>
        have there := getD_heightsOf h X (Z - 1) hx (show 15 < 16 by decide)
        rw [Option.map_some, surrounds.top chunk found]
        simp only [Nat.mul_zero, Nat.zero_add, Option.isNone_some, Bool.false_eq_true, and_false,
          if_false]
        rw [there]
        congr 1
        omega
  · have above := getD_heightsOf h X Z hx (show z - 1 < 16 by omega)
    have place : 16 * (z - 1) + x = 16 * z + x - 16 := by omega
    rw [if_neg (by omega), if_neg fun absent => edge absent.1, surrounds.center, ← place, above]
    congr 1
    omega

theorem rightHeight_eq (surrounds : Surrounds lib h X Z chunkContext) {x z : Nat} (hx : x < 16)
    (hz : z < 16) :
    rightHeight (genHeightmap lib chunkContext.center)
        (chunkContext.right.map (genHeightmap lib)) (16 * z + x) =
      if x = 15 ∧ chunkContext.right.isNone then -1 else h (16 * X + x + 1) (16 * Z + z) := by
  unfold rightHeight
  by_cases edge : x = 15
  · subst edge
    rw [if_pos (by omega)]
    cases found : chunkContext.right with
    | none => rfl
    | some chunk =>
        have there := getD_heightsOf h (X + 1) Z (show 0 < 16 by decide) hz
        rw [Option.map_some, surrounds.right chunk found]
        simp only [Option.isNone_some, Bool.false_eq_true, and_false, if_false,
          Nat.add_sub_cancel]
        rw [Nat.add_zero] at there
        rw [there]
        congr 1
        omega
  · have beside := getD_heightsOf h X Z (show x + 1 < 16 by omega) hz
    rw [if_neg (by omega), if_neg fun absent => edge absent.1, surrounds.center, Nat.add_assoc,
      beside]
    congr 1
    omega

theorem shadeDepth_eq (hc ht hr : Int) :
    shadeDepth hc ht hr = min 64 (16 * max 0 (ht - hc) + 16 * max 0 (hr - hc)) := by
  unfold shadeDepth
  dsimp only
  split <;> split <;> split <;> omega

/-- The pixel of a column, whose absent neighbours count as columns of the height -1. -/
theorem pix_drawChunkShading (surrounds : Surrounds lib h X Z chunkContext) {x z : Nat}
    (hx : x < 16) (hz : z < 16) :
    (drawChunkShading lib chunkContext).pix x z =
      ⟨0, 0, 0, .ofNat (shadeDepth (h (16 * X + x) (16 * Z + z))
        (if z = 0 ∧ chunkContext.top.isNone then -1 else h (16 * X + x) (16 * Z + z - 1))
        (if x = 15 ∧ chunkContext.right.isNone then -1
          else h (16 * X + x + 1) (16 * Z + z)) % 256).toNat⟩ := by
  have column : (16 * z + x) % 16 = x := by omega
  have row : (16 * z + x) / 16 = z := by omega
  have painted := pixel_drawChunkShading lib chunkContext (show 16 * z + x < 256 by omega)
  rw [topHeight_eq surrounds hx hz, rightHeight_eq surrounds hx hz, surrounds.center,
    getD_heightsOf h X Z hx hz, pixel, column, row] at painted
  exact painted

/-- Taking an absent neighbour to have the height -1 makes no difference if the column is not
below it or is as dark as it can be. -/
theorem shade_eq_iff (noTop noRight : Prop) [Decidable noTop] [Decidable noRight]
    (hc ht hr : Int) :
    min 64 (16 * max 0 ((if noTop then -1 else ht) - hc) +
        16 * max 0 ((if noRight then -1 else hr) - hc)) =
        min 64 ((if noTop then 0 else 16 * max 0 (ht - hc)) +
          (if noRight then 0 else 16 * max 0 (hr - hc))) ↔
      (noTop ∨ noRight → -1 ≤ hc ∨ 64 ≤ (if noTop then 0 else 16 * max 0 (ht - hc)) +
        (if noRight then 0 else 16 * max 0 (hr - hc))) := by
  by_cases top : noTop
  · by_cases right : noRight
    · simp only [top, right, if_true, or_self, forall_const]
      omega
    · simp only [top, right, if_true, if_false, or_false, forall_const]
      omega
  · by_cases right : noRight
    · simp only [top, right, if_true, if_false, or_true, forall_const]
      omega
    · simp only [top, right, if_false, or_self, false_imp_iff]

/-- Small numbers are different bytes. -/
theorem ofNat_toNat_inj {a b : Int} (ha : 0 ≤ a ∧ a ≤ 64) (hb : 0 ≤ b ∧ b ≤ 64) :
    UInt8.ofNat (a % 256).toNat = UInt8.ofNat b.toNat ↔ a = b := by
  constructor
  · intro same
    have values := congrArg UInt8.toNat same
    rw [UInt8.toNat_ofNat', UInt8.toNat_ofNat'] at values
    omega
  · rintro rfl
    rw [Int.emod_eq_of_lt ha.1 (by omega)]

variable (lib)

/-- Shading is seamless exactly when no column at an absent neighbour chunk is below -1, unless
its other neighbour makes it as dark as it can be. -/
theorem drawChunkShading_seamless_iff (h : Int → Int → Int) (X Z : Int)
    (chunkContext : ContextedChunkData) (surrounds : Surrounds lib h X Z chunkContext) :
    Seamless h X Z chunkContext (drawChunkShading lib chunkContext) ↔
      ∀ x z : Nat, x < 16 → z < 16 →
        (z = 0 ∧ chunkContext.top.isNone ∨ x = 15 ∧ chunkContext.right.isNone) →
          -1 ≤ h (16 * X + x) (16 * Z + z) ∨
            64 ≤ topTerm h X Z chunkContext x z + rightTerm h X Z chunkContext x z := by
  refine forall₂_congr fun x z => forall₂_congr fun hx hz => ?_
  rw [pix_drawChunkShading surrounds hx hz, shadeDepth_eq]
  simp only [Color.mk.injEq, true_and]
  rw [ofNat_toNat_inj (by omega) (by unfold topTerm rightTerm; split <;> split <;> omega)]
  exact shade_eq_iff _ _ _ _ _

/-- A world that has the heights of one chunk. -/
def worldOf (chunk : Chunk) (x z : Int) : Int :=
  (genHeightmap lib chunk).getD (16 * z.toNat + x.toNat) 0

theorem surrounds_alone (chunk : Chunk) :
    Surrounds lib (worldOf lib chunk) 0 0 ⟨chunk, none, none, none, none⟩ := by
  refine ⟨?_, fun _ absent => (nomatch absent), fun _ absent => (nomatch absent)⟩
  refine List.ext_getElem (by simp [heightsOf, genHeightmap_eq]) fun i inList inWorld => ?_
  have place : 16 * (16 * 0 + ((i / 16 : Nat) : Int)).toNat +
      (16 * 0 + ((i % 16 : Nat) : Int)).toNat = i := by omega
  simp only [heightsOf, List.getElem_map, List.getElem_range, worldOf, place]
  rw [List.getD_eq_getElem?_getD, List.getElem?_eq_getElem inList, Option.getD_some]

/-- A chunk without neighbours. -/
theorem drawChunkShading_seamless_sample :
    Seamless (worldOf sampleLibrary sampleChunk) 0 0 ⟨sampleChunk, none, none, none, none⟩
        (drawChunkShading sampleLibrary ⟨sampleChunk, none, none, none, none⟩) ↔
      ∀ x z : Nat, x < 16 → z < 16 → (z = 0 ∧ (none : Option Chunk).isNone ∨
        x = 15 ∧ (none : Option Chunk).isNone) →
          -1 ≤ worldOf sampleLibrary sampleChunk (16 * 0 + x) (16 * 0 + z) ∨
            64 ≤ topTerm (worldOf sampleLibrary sampleChunk) 0 0
                ⟨sampleChunk, none, none, none, none⟩ x z +
              rightTerm (worldOf sampleLibrary sampleChunk) 0 0
                ⟨sampleChunk, none, none, none, none⟩ x z :=
  drawChunkShading_seamless_iff sampleLibrary (worldOf sampleLibrary sampleChunk) 0 0 _
    (surrounds_alone sampleLibrary sampleChunk)

/-- One block of stone at the height -16, in the corner column. -/
def deepChunk : Chunk :=
  ⟨[⟨-1, [⟨"minecraft:air", none⟩, ⟨"minecraft:stone", none⟩], [0x1000000000000000]⟩]⟩

/-- The corner column has no neighbour that is there, and is as dark as it can be. -/
theorem deep_corner_is_dark :
    ∃ h, Surrounds sampleLibrary h 0 0 ⟨deepChunk, none, none, none, none⟩ ∧
      h 15 0 = -16 ∧
      pixel (drawChunkShading sampleLibrary ⟨deepChunk, none, none, none, none⟩) 15 =
        ⟨0, 0, 0, 64⟩ ∧
      ¬ Seamless h 0 0 ⟨deepChunk, none, none, none, none⟩
        (drawChunkShading sampleLibrary ⟨deepChunk, none, none, none, none⟩) := by
  have surrounds := surrounds_alone sampleLibrary deepChunk
  have deep : worldOf sampleLibrary deepChunk 15 0 = -16 := by
    have top : surface sampleLibrary (column (prepareSectionBlockIDs sampleLibrary) 15
        (sortedSections sampleLibrary deepChunk)) = some (-16) := by decide
    unfold worldOf
    rw [genHeightmap_eq, List.getD_eq_getElem?_getD, List.getElem?_map,
      List.getElem?_range (by decide), Option.map_some, Option.getD_some]
    exact congrArg (fun h => h.getD 0) top
  have corner : 16 * 0 + ((15 : Nat) : Int) = 15 ∧ 16 * 0 + ((0 : Nat) : Int) = 0 := by decide
  have depth : shadeDepth (-16) (-1) (-1) = 64 := by decide
  have place : ∀ img, pixel img 15 = img.pix (15 : Nat) (0 : Nat) := fun _ => rfl
  have byte : UInt8.ofNat ((64 : Int) % 256).toNat = 64 := by decide
  have dark : pixel (drawChunkShading sampleLibrary ⟨deepChunk, none, none, none, none⟩) 15 =
      ⟨0, 0, 0, 64⟩ := by
    have painted := pix_drawChunkShading surrounds (show 15 < 16 by decide) (show 0 < 16 by decide)
    rw [corner.1, corner.2, deep, if_pos ⟨rfl, rfl⟩, if_pos ⟨rfl, rfl⟩, depth, byte,
      ← place] at painted
    exact painted
  refine ⟨_, surrounds, deep, dark, fun seamless => ?_⟩
  have claimed := seamless 15 0 (by decide) (by decide)
  rw [topTerm, rightTerm, if_pos ⟨rfl, rfl⟩, if_pos ⟨rfl, rfl⟩, ← place, dark] at claimed
  have alpha : (64 : UInt8) = 0 := congrArg Color.a claimed
  exact absurd alpha (by decide)

end WebChunk.Terrain
