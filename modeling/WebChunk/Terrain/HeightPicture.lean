import WebChunk.Terrain.Heightmap
import WebChunk.Terrain.Picture

/-!
# The picture of the heightmap

`drawChunkHeightmap` makes the scan of `genHeightmap` on the picture itself: a column is done
when its pixel has another color than the picture was filled with.
-/

namespace WebChunk.Terrain

open WebChunk.Go WebChunk.Semantics

variable (lib : Library)

/-- The color that the picture is filled with. -/
def defaultColor : Color := ⟨0, 0, 0, 255⟩

/-- The color of a height; the conversion to `uint8` keeps its last byte. -/
def heightColor (h : Int) : Color :=
  let absy := UInt8.ofNat (h % 256).toNat
  ⟨absy, absy, 255, 255⟩

/-- The body of the innermost loop of `drawChunkHeightmap`. -/
def layerStep (img : RGBA) (s : Section) (states : Nat → StateID) (y : Nat) (layerImg : RGBA)
    (i : Nat) : RGBA :=
  if pixel img i ≠ defaultColor then layerImg
  else if isAirState lib (states (y * 16 * 16 + i)) then layerImg
  else setPixel layerImg i (heightColor (s.Y.toInt * 16 + y))

/-- One layer of blocks. -/
def layerRow (s : Section) (states : Nat → StateID) (img : RGBA) (y : Nat) : RGBA :=
  let layerImg := (downFrom 256).foldl (layerStep lib img s states y) (RGBA.new 16 16)
  img.drawOver (.ofCorners 0 0 16 16) layerImg

def drawChunkHeightmap (chunk : Chunk) : RGBA :=
  eachSection (prepareSectionBlockstates lib)
    (fun img s states => (downFrom 16).foldl (layerRow lib s states) img)
    (filled defaultColor) (sortedSections lib chunk)

/-! ### The scan -/

/-- What one block makes of the pixel of its column. -/
def pixelHere (part : Color) (b : Int × StateID) : Color :=
  if part ≠ defaultColor then part else if isAirState lib b.2 then part else heightColor b.1

theorem acts_layerStep (img : RGBA) (s : Section) (states : Nat → StateID) (y : Nat) {here : Nat}
    (inside : here < 256) :
    Acts Square pixel (fun layer => layerStep lib img s states y layer here) fun i part =>
      if i = here then
        if pixel img i ≠ defaultColor ∨ isAirState lib (states (y * 16 * 16 + i)) = true then part
        else heightColor (s.Y.toInt * 16 + y)
      else part := by
  have painted := acts_setPixel inside (heightColor (s.Y.toInt * 16 + y))
  unfold layerStep
  split
  · rename_i done
    refine ⟨fun square => square, fun layer _ i => ?_⟩
    by_cases same : i = here
    · subst same
      rw [if_pos rfl, if_pos (.inl done)]
    · rw [if_neg same]
  · rename_i open_
    split
    · rename_i air
      refine ⟨fun square => square, fun layer _ i => ?_⟩
      by_cases same : i = here
      · subst same
        rw [if_pos rfl, if_pos (.inr air)]
      · rw [if_neg same]
    · rename_i solid
      refine ⟨painted.kept, fun layer square i => (painted.part layer square i).trans ?_⟩
      by_cases same : i = here
      · subst same
        rw [if_pos rfl, if_pos rfl, if_neg (not_or.mpr ⟨open_, solid⟩)]
      · rw [if_neg same, if_neg same]

theorem acts_layerRow (s : Section) (states : Nat → StateID) (y : Nat) :
    Acts Square pixel (fun img => layerRow lib s states img y) fun i part =>
      if i < 256 then pixelHere lib part (s.Y.toInt * 16 + y, states (y * 16 * 16 + i))
      else part := by
  have layer := fun img => acts_row fun here inside => acts_layerStep lib img s states y inside
  have drawn := fun img => acts_drawOver ((layer img).kept square_new)
  refine ⟨fun {img} square => (drawn img).kept square, fun img square i => ?_⟩
  refine ((drawn img).part img square i).trans ?_
  rw [(layer img).part _ square_new i]
  by_cases inside : i < 256
  · simp only [if_pos inside, pixel_new, pixelHere]
    by_cases done : pixel img i ≠ defaultColor
    · rw [if_pos (.inl done), if_pos done, Color.over_blank]
    · rw [if_neg done]
      by_cases air : isAirState lib (states (y * 16 * 16 + i)) = true
      · rw [if_pos (.inr air), if_pos air, Color.over_blank]
      · rw [if_neg (not_or.mpr ⟨done, air⟩), if_neg air]
        exact Color.over_opaque _ _ _ _
  · simp only [if_neg inside]

/-- The color of a height is none that the picture is filled with. -/
theorem heightColor_ne (h : Int) : heightColor h ≠ defaultColor := by
  intro same
  have blue : (255 : UInt8) = 0 := congrArg Color.b same
  exact absurd blue (by decide)

theorem foldl_pixelHere (blocks : List (Int × StateID)) :
    blocks.foldl (pixelHere lib) defaultColor =
      ((surface lib blocks).map heightColor).getD defaultColor :=
  foldl_surface lib heightColor (fun b air => by simp [pixelHere, air])
    (fun b solid => by simp [pixelHere, solid])
    (fun h b => by rw [pixelHere, if_pos (heightColor_ne h)]) blocks

theorem square_drawChunkHeightmap (chunk : Chunk) : Square (drawChunkHeightmap lib chunk) :=
  (acts_eachSection _ (acts_layerRow lib) (sortedSections lib chunk)).kept
    (square_filled defaultColor)

/-- The pixel of a column has the color of the height of its first block that is not air. -/
theorem pixel_drawChunkHeightmap (chunk : Chunk) {i : Nat} (inside : i < 256) :
    pixel (drawChunkHeightmap lib chunk) i =
      ((surface lib (column (prepareSectionBlockstates lib) i
        (sortedSections lib chunk))).map heightColor).getD defaultColor := by
  have scan := acts_eachSection (prepareSectionBlockstates lib) (acts_layerRow lib)
    (sortedSections lib chunk)
  have scanned := scan.part _ (square_filled defaultColor) i
  rw [if_pos inside, pixel_filled defaultColor inside, foldl_pixelHere] at scanned
  exact scanned

theorem shows_drawChunkHeightmap (chunk : Chunk) :
    Shows (drawChunkHeightmap lib chunk) defaultColor fun i =>
      (surface lib (column (prepareSectionBlockstates lib) i
        (sortedSections lib chunk))).map heightColor where
  square := square_drawChunkHeightmap lib chunk
  column _ inside := pixel_drawChunkHeightmap lib chunk inside
  apart i x found := by
    obtain ⟨h, -, rfl⟩ := Option.map_eq_some_iff.mp found
    exact heightColor_ne h

/-! ### The picture and the heightmap -/

/-- Whether a state is air depends on the name of its block alone. -/
def AirByName : Prop :=
  ∀ name b data b', blockOf lib name = some b → lib.Unmarshal data b = .ok b' →
    isAirState lib (lib.ToStateID b') = isAirState lib (lib.ToStateID b)

/-- A container reads an index from the data and looks it up in its palette, or reads the state
itself from the data. -/
def ReadsIndices : Prop :=
  ∀ (n : Nat) (data : List UInt64) (palette palette' : List StateID),
    palette.length = palette'.length → ∀ j,
      (∃ (k : Nat) (here : k < palette.length) (here' : k < palette'.length),
        lib.NewStatesPaletteContainerWithData n data palette j = palette[k] ∧
          lib.NewStatesPaletteContainerWithData n data palette' j = palette'[k]) ∨
        lib.NewStatesPaletteContainerWithData n data palette j =
          lib.NewStatesPaletteContainerWithData n data palette' j

theorem forall₂_of_mapM {f : BlockState → Option StateID} {palette : List BlockState}
    {states : List StateID} (mapped : palette.mapM f = some states) :
    List.Forall₂ (fun v state => f v = some state) palette states := by
  induction palette generalizing states with
  | nil =>
      cases mapped
      exact .nil
  | cons v rest inductionHypothesis =>
      rw [List.mapM_cons] at mapped
      obtain ⟨state, here, mapped⟩ := Option.bind_eq_some_iff.mp mapped
      obtain ⟨others, later, mapped⟩ := Option.bind_eq_some_iff.mp mapped
      cases mapped
      exact .cons here (inductionHypothesis later)

variable {lib}

theorem isAirState_of_entry (airByName : AirByName lib) {v : BlockState} {state id : StateID}
    (asState : blockState lib v = some state) (asID : blockID lib v = some id) :
    isAirState lib state = isAirState lib id := by
  unfold blockState at asState
  unfold blockID at asID
  split at asState
  · cases asState
  · rename_i b named
    rw [named, Option.map_some] at asID
    cases asID
    split at asState
    · cases asState
      rfl
    · split at asState
      · cases asState
      · rename_i b' read
        cases asState
        exact airByName _ _ _ b' named read

/-- Both decoders see air at the same blocks of a section. -/
theorem isAirState_of_section (airByName : AirByName lib) (reads : ReadsIndices lib) {s : Section}
    {states ids : Nat → StateID} (asStates : prepareSectionBlockstates lib s = some states)
    (asIDs : prepareSectionBlockIDs lib s = some ids) (j : Nat) :
    isAirState lib (states j) = isAirState lib (ids j) := by
  obtain ⟨palette, mapped, rfl⟩ := Option.map_eq_some_iff.mp asStates
  obtain ⟨palette', mapped', rfl⟩ := Option.map_eq_some_iff.mp asIDs
  have entries := forall₂_of_mapM mapped
  have entries' := forall₂_of_mapM mapped'
  have lengths : palette.length = palette'.length :=
    entries.length_eq.symm.trans entries'.length_eq
  rcases reads (16 * 16 * 16) s.Data palette palette' lengths j with
    ⟨k, here, here', same, same'⟩ | same
  · have inPalette : k < s.Palette.length := by rwa [entries.length_eq]
    rw [same, same']
    exact isAirState_of_entry airByName (entries.get inPalette here) (entries'.get inPalette here')
  · rw [same]

/-- Columns with the same heights and the same air have the same surface. -/
theorem surface_congr {blocks blocks' : List (Int × StateID)}
    (alike : List.Forall₂ (fun a b => a.1 = b.1 ∧ isAirState lib a.2 = isAirState lib b.2)
      blocks blocks') : surface lib blocks = surface lib blocks' := by
  induction alike with
  | nil => rfl
  | @cons a b rest rest' here _ inductionHypothesis =>
      obtain ⟨height, air⟩ := here
      unfold surface at inductionHypothesis ⊢
      rw [List.find?_cons, List.find?_cons, air]
      cases isAirState lib b.2 with
      | true => exact inductionHypothesis
      | false => exact congrArg some height

theorem surface_blockstates (airByName : AirByName lib) (reads : ReadsIndices lib)
    {sections : List Section} (resolved : ∀ s ∈ sections,
      (prepareSectionBlockstates lib s).isSome ∧ (prepareSectionBlockIDs lib s).isSome) (i : Nat) :
    surface lib (column (prepareSectionBlockstates lib) i sections) =
      surface lib (column (prepareSectionBlockIDs lib) i sections) := by
  refine surface_congr ?_
  induction sections with
  | nil => exact .nil
  | cons s rest inductionHypothesis =>
      have later := inductionHypothesis fun t member => resolved t (List.mem_cons_of_mem s member)
      obtain ⟨asStates, asIDs⟩ := resolved s List.mem_cons_self
      obtain ⟨states, asStates⟩ := Option.isSome_iff_exists.mp asStates
      obtain ⟨ids, asIDs⟩ := Option.isSome_iff_exists.mp asIDs
      unfold column
      rw [asStates, asIDs]
      split
      · exact later
      · refine List.rel_append ?_ later
        unfold sectionColumn
        rw [List.forall₂_map_left_iff, List.forall₂_map_right_iff, List.forall₂_same]
        exact fun y _ => ⟨rfl, isAirState_of_section airByName reads asStates asIDs _⟩

variable (lib)

/-- The picture shows the heightmap. -/
theorem drawChunkHeightmap_shows (airByName : AirByName lib) (reads : ReadsIndices lib)
    (chunk : Chunk) (resolved : ∀ s ∈ chunk.Sections,
      (prepareSectionBlockstates lib s).isSome ∧ (prepareSectionBlockIDs lib s).isSome)
    {i : Nat} (inside : i < 256) :
    ((solidHeights lib chunk i).Nonempty → ∃ h, (genHeightmap lib chunk)[i]? = some h ∧
      pixel (drawChunkHeightmap lib chunk) i =
        ⟨.ofNat (h % 256).toNat, .ofNat (h % 256).toNat, 255, 255⟩) ∧
      (¬ (solidHeights lib chunk i).Nonempty →
        pixel (drawChunkHeightmap lib chunk) i = ⟨0, 0, 0, 255⟩) := by
  have same := surface_blockstates airByName reads
    (fun s member => resolved s ((mem_sortedSections lib).mp member)) i
  have entry : (genHeightmap lib chunk)[i]? = some ((surface lib
      (column (prepareSectionBlockIDs lib) i (sortedSections lib chunk))).getD 0) := by
    rw [genHeightmap_eq, List.getElem?_map, List.getElem?_range inside]
    rfl
  rw [pixel_drawChunkHeightmap lib chunk inside, same, entry, ← surface_isSome_iff]
  cases surface lib (column (prepareSectionBlockIDs lib) i (sortedSections lib chunk)) with
  | some h => exact ⟨fun _ => ⟨h, rfl, rfl⟩, fun none_ => absurd rfl none_⟩
  | none => exact ⟨fun some_ => absurd some_ (by simp), fun _ => rfl⟩

theorem sampleLibrary_airByName : AirByName sampleLibrary := by
  intro name b data b' _ read
  cases read
  rfl

theorem sampleLibrary_readsIndices : ReadsIndices sampleLibrary := by
  intro n data palette palette' lengths j
  have entry : ∃ k, ∀ palette, sampleLibrary.NewStatesPaletteContainerWithData n data palette j =
      palette.getD k 0 := by
    by_cases noData : data = []
    · exact ⟨0, fun _ => if_pos noData⟩
    · exact ⟨_, fun _ => if_neg noData⟩
  obtain ⟨k, read⟩ := entry
  rw [read, read]
  by_cases here : k < palette.length
  · exact .inl ⟨k, here, lengths ▸ here, by simp [here], by simp [lengths ▸ here]⟩
  · have here' : ¬ k < palette'.length := lengths ▸ here
    exact .inr (by simp [List.getD, here, here'])

/-- The second column, with water above stone. -/
theorem drawChunkHeightmap_shows_sample :
    ((solidHeights sampleLibrary sampleChunk 1).Nonempty →
      ∃ h, (genHeightmap sampleLibrary sampleChunk)[1]? = some h ∧
        pixel (drawChunkHeightmap sampleLibrary sampleChunk) 1 =
          ⟨.ofNat (h % 256).toNat, .ofNat (h % 256).toNat, 255, 255⟩) ∧
      (¬ (solidHeights sampleLibrary sampleChunk 1).Nonempty →
        pixel (drawChunkHeightmap sampleLibrary sampleChunk) 1 = ⟨0, 0, 0, 255⟩) :=
  drawChunkHeightmap_shows sampleLibrary sampleLibrary_airByName sampleLibrary_readsIndices
    sampleChunk (by decide) (by decide)

end WebChunk.Terrain
