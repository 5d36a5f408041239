import Mathlib.Algebra.GroupWithZero.Nat
import WebChunk.Go.Int
import WebChunk.Terrain.Picture

/-!
# Heat

Pictures of one color whose alpha grows with a number: of the portals of a chunk, of its chests, or
of the chunks of a region. The number is multiplied by a step of the picture's own before it becomes
a byte.
-/

namespace WebChunk.Terrain

open WebChunk.Go

variable (lib : Library) (ID : lib.Block → String)

/-- `uint8(alpha)` of an `int`. -/
def alphaByte (alpha : Int) : UInt8 := .ofNat (alpha % 256).toNat

/-- `color.RGBA{255, 0, 0, uint8(alpha)}` everywhere. -/
def redPicture (alpha : Int) : RGBA := filled ⟨255, 0, 0, alphaByte alpha⟩

/-- The block has the name that a painter looks for. -/
def isNamed (name : String) (state : StateID) : Bool := ID (lib.StateList state) == name

/-- The loops over the blocks of a section. The numbers of blocks are no larger than the sections
in memory allow, far from the end of an `int`. -/
def detect (name : String) (portalsDetected : Nat) (states : Nat → StateID) : Nat :=
  (downFrom 16).foldl (fun portalsDetected y =>
    (downFrom (16 * 16)).foldl (fun portalsDetected i =>
      if isNamed lib ID name (states (y * 16 * 16 + i)) then portalsDetected + 1
      else portalsDetected) portalsDetected) portalsDetected

/-- The alpha of a number of blocks, before it becomes a byte. -/
def blocksAlpha (portalsDetected : Nat) : Int :=
  if portalsDetected / 6 > 255 then 255 else portalsDetected * 8

/-- The painter of the blocks of a name. -/
def drawChunkBlocksHeatmap (name : String) (chunk : Chunk) : RGBA :=
  let portalsDetected := eachSection (prepareSectionBlockstates lib)
    (fun portalsDetected _ states => detect lib ID name portalsDetected states) 0 chunk.Sections
  redPicture (blocksAlpha portalsDetected)

def drawChunkPortalBlocksHeatmap (chunk : Chunk) : RGBA :=
  drawChunkBlocksHeatmap lib ID "nether_portal" chunk

def drawChunkChestBlocksHeatmap (chunk : Chunk) : RGBA :=
  drawChunkBlocksHeatmap lib ID "chest" chunk

def drawHeatOfChunks (c : Int) : RGBA := redPicture (wrap (c * 30))

/-! ### Amounts -/

/-- The blocks of a section with the name; in a section of a single block, which has no data, all
are the same. A section that cannot be decoded has none. -/
def namedBlocks (name : String) (s : Section) : Nat :=
  if s.Data.length = 0 then
    match s.Palette with
    | [v] => if (blockState lib v).any (isNamed lib ID name) then 4096 else 0
    | _ => 0
  else
    match prepareSectionBlockstates lib s with
    | none => 0
    | some states => (List.range 4096).countP fun j => isNamed lib ID name (states j)

/-- The blocks of a chunk with the name. -/
def amount (name : String) (chunk : Chunk) : Nat :=
  (chunk.Sections.map (namedBlocks lib ID name)).sum

/-- The blocks of a chunk with the name in sections with data. -/
def amountInData (name : String) (chunk : Chunk) : Nat :=
  ((chunk.Sections.filter (·.Data.length ≠ 0)).map (namedBlocks lib ID name)).sum

/-- Of two things, the one of the larger amount has the larger alpha, and an alpha that does not fit
into a byte is 255 instead. -/
structure HeatGrows {α : Type} (amount : α → Nat) (step : Nat) (draw : α → RGBA) (x y : α) :
    Prop where
  monotone : amount x ≤ amount y → ∀ i, i < 256 → (pixel (draw x) i).a ≤ (pixel (draw y) i).a
  saturates : ∀ z, z = x ∨ z = y → 255 < amount z * step →
    ∀ i, i < 256 → (pixel (draw z) i).a = 255

variable {lib ID} {name : String}

/-! ### What is counted -/

theorem foldl_count {α : Type} (p : α → Bool) (l : List α) (n : Nat) :
    l.foldl (fun n x => if p x then n + 1 else n) n = n + l.countP p := by
  induction l generalizing n with
  | nil => rfl
  | cons x rest inductionHypothesis =>
      rw [List.foldl_cons, inductionHypothesis, List.countP_cons]
      split <;> omega

/-- Rows of blocks, counted one after the other. -/
theorem foldl_rows (p : Nat → Bool) (rows width n : Nat) :
    (downFrom rows).foldl (fun n y =>
        (downFrom width).foldl (fun n i => if p (y * width + i) then n + 1 else n) n) n =
      n + (List.range (rows * width)).countP p := by
  induction rows generalizing n with
  | zero => simp [downFrom]
  | succ rows inductionHypothesis =>
      have first : downFrom (rows + 1) = rows :: downFrom rows := by
        simp [downFrom, List.range_succ]
      have row : (downFrom width).countP (fun i => p (rows * width + i)) =
          ((List.range width).map (rows * width + ·)).countP p := by
        rw [downFrom, List.countP_reverse, List.countP_map]
        rfl
      rw [first, List.foldl_cons, foldl_count, inductionHypothesis, row, Nat.succ_mul,
        List.range_add, List.countP_append]
      omega

theorem detect_eq (n : Nat) (states : Nat → StateID) : detect lib ID name n states =
    n + (List.range 4096).countP fun j => isNamed lib ID name (states j) := by
  have same : ∀ y i, y * 16 * 16 + i = y * (16 * 16) + i := fun y i => by omega
  simp only [detect, same]
  exact foldl_rows (fun j => isNamed lib ID name (states j)) 16 (16 * 16) n

/-- The painters count the blocks of sections with data. -/
theorem eachSection_detect (sections : List Section) (n : Nat) :
    eachSection (prepareSectionBlockstates lib)
        (fun n _ states => detect lib ID name n states) n sections =
      n + ((sections.filter (·.Data.length ≠ 0)).map (namedBlocks lib ID name)).sum := by
  induction sections generalizing n with
  | nil => rfl
  | cons s rest inductionHypothesis =>
      unfold eachSection
      by_cases noData : s.Data.length = 0
      · rw [if_pos noData, List.filter_cons_of_neg (by simpa using noData), inductionHypothesis]
      · rw [if_neg noData, List.filter_cons_of_pos (by simpa using noData), List.map_cons,
          List.sum_cons, namedBlocks, if_neg noData]
        cases prepareSectionBlockstates lib s with
        | none =>
            dsimp only
            rw [inductionHypothesis, Nat.zero_add]
        | some states =>
            dsimp only
            rw [inductionHypothesis, detect_eq]
            omega

theorem drawChunkBlocksHeatmap_eq (chunk : Chunk) :
    drawChunkBlocksHeatmap lib ID name chunk =
      redPicture (blocksAlpha (amountInData lib ID name chunk)) := by
  rw [drawChunkBlocksHeatmap, eachSection_detect, Nat.zero_add]
  rfl

/-- A section of a single block has all of its blocks or none. -/
theorem namedBlocks_of_noData {s : Section} (noData : s.Data.length = 0) :
    namedBlocks lib ID name s = 0 ∨ namedBlocks lib ID name s = 4096 := by
  rw [namedBlocks, if_pos noData]
  split
  · split
    · exact .inr rfl
    · exact .inl rfl
  · exact .inl rfl

/-- A few blocks are all in sections with data. -/
theorem amountInData_of_few {chunk : Chunk} (few : amount lib ID name chunk < 32) :
    amountInData lib ID name chunk = amount lib ID name chunk := by
  obtain ⟨sections⟩ := chunk
  unfold amount amountInData at *
  dsimp only at few ⊢
  induction sections with
  | nil => rfl
  | cons s rest inductionHypothesis =>
      rw [List.map_cons, List.sum_cons] at few ⊢
      have later := inductionHypothesis (by omega)
      by_cases noData : s.Data.length = 0
      · rw [List.filter_cons_of_neg (by simpa using noData), later]
        rcases @namedBlocks_of_noData lib ID name _ noData with none_ | all
        · omega
        · omega
      · rw [List.filter_cons_of_pos (by simpa using noData), List.map_cons, List.sum_cons, later]

/-! ### When heat grows -/

theorem alpha_redPicture (alpha : Int) {i : Nat} (inside : i < 256) :
    (pixel (redPicture alpha) i).a = alphaByte alpha := by
  rw [redPicture, pixel_filled _ inside]

theorem toNat_alphaByte (alpha : Int) : (alphaByte alpha).toNat = (alpha % 256).toNat := by
  rw [alphaByte, UInt8.toNat_ofNat']
  omega

/-- The pictures of a drawing whose alpha before the conversion is known. -/
theorem heatGrows_iff_alpha {α : Type} {amount : α → Nat} {step : Nat} {draw : α → RGBA}
    {alpha : α → Int} (drawn : ∀ x, draw x = redPicture (alpha x)) (x y : α) :
    HeatGrows amount step draw x y ↔
      (amount x ≤ amount y → alpha x % 256 ≤ alpha y % 256) ∧
        ∀ z, z = x ∨ z = y → 255 < amount z * step → alpha z % 256 = 255 := by
  have pixels : ∀ z i, i < 256 → (pixel (draw z) i).a.toNat = (alpha z % 256).toNat := by
    intro z i inside
    rw [drawn, alpha_redPicture _ inside, toNat_alphaByte]
  constructor
  · rintro ⟨monotone, saturates⟩
    refine ⟨fun less => ?_, fun z which large => ?_⟩
    · have bytes := UInt8.le_iff_toNat_le.mp (monotone less 0 (by decide))
      rw [pixels x 0 (by decide), pixels y 0 (by decide)] at bytes
      omega
    · have byte := congrArg UInt8.toNat (saturates z which large 0 (by decide))
      rw [pixels z 0 (by decide)] at byte
      have full : (255 : UInt8).toNat = 255 := rfl
      omega
  · rintro ⟨monotone, saturates⟩
    refine ⟨fun less i inside => ?_, fun z which large i inside => ?_⟩
    · rw [UInt8.le_iff_toNat_le, pixels x i inside, pixels y i inside]
      have bytes := monotone less
      omega
    · have byte := saturates z which large
      refine UInt8.toNat_inj.mp ?_
      rw [pixels z i inside, byte]
      rfl

theorem blocksAlpha_full_iff (n : Nat) : blocksAlpha n % 256 = 255 ↔ 1536 ≤ n := by
  unfold blocksAlpha
  split <;> omega

theorem blocksAlpha_of_few {n : Nat} (few : n < 32) : blocksAlpha n % 256 = n * 8 := by
  unfold blocksAlpha
  split <;> omega

/-- Heat that is painted for a number of blocks grows between two things exactly if each has few
blocks or so many that the alpha is saturated. -/
theorem heatGrows_blocks_iff {α : Type} {amount painted : α → Nat} {draw : α → RGBA}
    (drawn : ∀ x, draw x = redPicture (blocksAlpha (painted x)))
    (few : ∀ x, amount x < 32 → painted x = amount x) (x y : α) :
    HeatGrows amount 8 draw x y ↔
      (amount x < 32 ∨ 1536 ≤ painted x) ∧ (amount y < 32 ∨ 1536 ≤ painted y) := by
  rw [heatGrows_iff_alpha drawn]
  simp only [blocksAlpha_full_iff]
  constructor
  · rintro ⟨-, saturates⟩
    have each : ∀ z, z = x ∨ z = y → amount z < 32 ∨ 1536 ≤ painted z := by
      intro z which
      have large := saturates z which
      omega
    exact ⟨each x (.inl rfl), each y (.inr rfl)⟩
  · rintro ⟨fitsX, fitsY⟩
    refine ⟨fun less => ?_, fun z which large => ?_⟩
    · rcases fitsY with fewY | full
      · have fewX : amount x < 32 := by omega
        have sameX := few x fewX
        have sameY := few y fewY
        rw [blocksAlpha_of_few (by omega), blocksAlpha_of_few (by omega)]
        omega
      · have top := (blocksAlpha_full_iff _).mpr full
        omega
    · rcases which with rfl | rfl
      · omega
      · omega

theorem heatGrows_chunks_iff (c c' : Nat) :
    HeatGrows (fun c : Nat => c) 30 (fun c : Nat => drawHeatOfChunks c) c c' ↔
      c ≤ 8 ∧ c' ≤ 8 := by
  have byte : ∀ c : Nat, wrap (c * 30) % 256 = (c * 30) % 256 := by
    intro c
    rw [wrap, Int.bmod_def]
    split <;> omega
  have few : ∀ c : Nat, c ≤ 8 → (c * 30 : Int) % 256 = c * 30 := fun c small =>
    Int.emod_eq_of_lt (by omega) (by omega)
  have drawn : ∀ c : Nat, drawHeatOfChunks c = redPicture (wrap (c * 30)) := fun c => rfl
  rw [heatGrows_iff_alpha drawn]
  simp only [byte]
  constructor
  · rintro ⟨-, saturates⟩
    have first := saturates c (.inl rfl)
    have second := saturates c' (.inr rfl)
    omega
  · rintro ⟨small, small'⟩
    refine ⟨fun less => ?_, fun z which large => ?_⟩
    · rw [few c small, few c' small']
      omega
    · rcases which with rfl | rfl <;> omega

variable (lib ID)

/-- The chunk has so few of the blocks that their alpha fits into a byte, or the painter sees so many
of them that it saturates. -/
def FewOrMany (counted seen : Chunk → Nat) (chunk : Chunk) : Prop :=
  counted chunk < 32 ∨ 1536 ≤ seen chunk

/-- The heat of blocks grows between two chunks exactly if each has few of them or many in sections
with data, and so does it if only the blocks in sections with data count; that of chunks grows up to
the number 8. -/
theorem heatGrows_iff :
    (∀ chunk chunk' : Chunk,
      let all := amount lib ID "nether_portal"
      let seen := amountInData lib ID "nether_portal"
      (HeatGrows all 8 (drawChunkPortalBlocksHeatmap lib ID) chunk chunk' ↔
        FewOrMany all seen chunk ∧ FewOrMany all seen chunk') ∧
      (HeatGrows seen 8 (drawChunkPortalBlocksHeatmap lib ID) chunk chunk' ↔
        FewOrMany seen seen chunk ∧ FewOrMany seen seen chunk')) ∧
    (∀ chunk chunk' : Chunk,
      let all := amount lib ID "chest"
      let seen := amountInData lib ID "chest"
      (HeatGrows all 8 (drawChunkChestBlocksHeatmap lib ID) chunk chunk' ↔
        FewOrMany all seen chunk ∧ FewOrMany all seen chunk') ∧
      (HeatGrows seen 8 (drawChunkChestBlocksHeatmap lib ID) chunk chunk' ↔
        FewOrMany seen seen chunk ∧ FewOrMany seen seen chunk')) ∧
    ∀ c c' : Nat, HeatGrows (fun c : Nat => c) 30 (fun c : Nat => drawHeatOfChunks c) c c' ↔
      c ≤ 8 ∧ c' ≤ 8 := by
  have few : ∀ name chunk, amount lib ID name chunk < 32 →
      amountInData lib ID name chunk = amount lib ID name chunk := fun _ _ => amountInData_of_few
  refine ⟨fun chunk chunk' => ⟨?_, ?_⟩, fun chunk chunk' => ⟨?_, ?_⟩, heatGrows_chunks_iff⟩
  · exact heatGrows_blocks_iff drawChunkBlocksHeatmap_eq (few "nether_portal") chunk chunk'
  · exact heatGrows_blocks_iff drawChunkBlocksHeatmap_eq (fun _ _ => rfl) chunk chunk'
  · exact heatGrows_blocks_iff drawChunkBlocksHeatmap_eq (few "chest") chunk chunk'
  · exact heatGrows_blocks_iff drawChunkBlocksHeatmap_eq (fun _ _ => rfl) chunk chunk'

/-- With one more chunk the alpha starts again. -/
theorem heat_wraps :
    (pixel (drawHeatOfChunks 8) 0).a = 240 ∧ (pixel (drawHeatOfChunks 9) 0).a = 14 ∧
      ¬ HeatGrows (fun c : Nat => c) 30 (fun c : Nat => drawHeatOfChunks c) 8 9 := by
  have before : (pixel (drawHeatOfChunks 8) 0).a = 240 := by decide
  have after : (pixel (drawHeatOfChunks 9) 0).a = 14 := by decide
  refine ⟨before, after, fun grows => ?_⟩
  have rises : (pixel (drawHeatOfChunks 8) 0).a ≤ (pixel (drawHeatOfChunks 9) 0).a :=
    grows.monotone (by decide) 0 (by decide)
  rw [before, after] at rises
  exact absurd rises (by decide)

end WebChunk.Terrain
