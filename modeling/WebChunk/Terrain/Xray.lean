import WebChunk.Terrain.Picture

/-!
# The x-ray picture

`drawChunkXray` gives each column the mean of the colors of all its blocks.
-/

namespace WebChunk.Terrain

open WebChunk.Go WebChunk.Semantics

variable (lib : Library)

/-- The sums of one column. The blocks that are kept with them are not read. -/
structure XrayOutput where
  sR : UInt64
  sG : UInt64
  sB : UInt64
  sA : UInt64
  c : UInt64

/-- What one block adds to the sums of its column. -/
def XrayOutput.add (out : XrayOutput) (toColor : Color64) : XrayOutput :=
  ⟨out.sR + toColor.r.toUInt64, out.sG + toColor.g.toUInt64, out.sB + toColor.b.toUInt64,
    out.sA + toColor.a.toUInt64, out.c + 1⟩

/-- The color of a column in which blocks were counted. -/
def XrayOutput.mean (out : XrayOutput) : Option Color64 :=
  if out.c ≠ 0 then
    some ⟨(out.sR / out.c).toUInt16, (out.sG / out.c).toUInt16, (out.sB / out.c).toUInt16, 65535⟩
  else none

/-- The body of the innermost loop of `drawChunkXray`. -/
def xrayStep (states : Nat → StateID) (y : Nat) (outputs : Nat → XrayOutput) (i : Nat) :
    Nat → XrayOutput :=
  Function.update outputs i ((outputs i).add (lib.colors (states (y * 16 * 16 + i))))

/-- The body of the loop over the columns. -/
def xrayPaint (outputs : Nat → XrayOutput) (img : RGBA) (i : Nat) : RGBA :=
  match (outputs i).mean with
  | some toColor => setPixel img i toColor.toColor
  | none => img

/-- `outputs` after the loop over the sections. -/
def xrayOutputs (chunk : Chunk) : Nat → XrayOutput :=
  eachSection (prepareSectionBlockstates lib)
    (fun acc _ states => (downFrom 16).foldl
      (fun acc y => (downFrom 256).foldl (xrayStep lib states y) acc) acc)
    (fun _ => ⟨0, 0, 0, 0, 0⟩) (sortedSections lib chunk)

def drawChunkXray (chunk : Chunk) : RGBA :=
  (List.range (16 * 16)).foldl (xrayPaint (xrayOutputs lib chunk)) (filled ⟨0, 0, 0, 0⟩)

/-! ### The sums -/

/-- What one block makes of the sums of its column. -/
def xrayHere (out : XrayOutput) (b : Int × StateID) : XrayOutput := out.add (lib.colors b.2)

/-- The mean color of the blocks of a column. -/
def meanColor (blocks : List (Int × StateID)) : Option Color64 :=
  (blocks.foldl (xrayHere lib) ⟨0, 0, 0, 0, 0⟩).mean

theorem acts_xrayStep (states : Nat → StateID) (h : Int) (y here : Nat) :
    Acts (fun _ => True) (fun (outputs : Nat → XrayOutput) => outputs)
      (fun outputs => xrayStep lib states y outputs here) fun i part =>
        if i = here then xrayHere lib part (h, states (y * 16 * 16 + i)) else part := by
  refine ⟨fun _ => trivial, fun outputs _ i => ?_⟩
  unfold xrayStep xrayHere
  by_cases same : i = here
  · subst same
    simp
  · simp [same]

theorem xrayOutputs_eq (chunk : Chunk) {i : Nat} (inside : i < 256) :
    xrayOutputs lib chunk i =
      (column (prepareSectionBlockstates lib) i (sortedSections lib chunk)).foldl (xrayHere lib)
        ⟨0, 0, 0, 0, 0⟩ := by
  have scan := acts_eachSection (prepareSectionBlockstates lib)
    (fun s states y => acts_row fun here _ =>
      acts_xrayStep lib states (s.Y.toInt * 16 + y) y here)
    (sortedSections lib chunk)
  have summed := scan.part (fun _ => ⟨0, 0, 0, 0, 0⟩) trivial i
  rw [if_pos inside] at summed
  exact summed

theorem acts_xrayPaint (outputs : Nat → XrayOutput) {here : Nat} (inside : here < 256) :
    Acts Square pixel (fun img => xrayPaint outputs img here) fun i part =>
      if i = here then (((outputs i).mean).map Color64.toColor).getD part else part := by
  unfold xrayPaint
  cases found : (outputs here).mean with
  | none =>
      refine ⟨fun square => square, fun img _ i => ?_⟩
      by_cases same : i = here
      · subst same
        simp [found]
      · rw [if_neg same]
  | some toColor =>
      refine ⟨fun square => square.setPixel _ _, fun img square i => ?_⟩
      refine (square.pixel_setPixel inside _ i).trans ?_
      by_cases same : i = here
      · subst same
        simp [found]
      · rw [if_neg same, if_neg same]

theorem acts_drawChunkXray (outputs : Nat → XrayOutput) :
    Acts Square pixel (fun img => (List.range (16 * 16)).foldl (xrayPaint outputs) img)
      fun i part => if i ∈ List.range (16 * 16) then
        (((outputs i).mean).map Color64.toColor).getD part else part :=
  Acts.places List.nodup_range fun _ member =>
    acts_xrayPaint outputs (List.mem_range.mp member)

theorem square_drawChunkXray (chunk : Chunk) : Square (drawChunkXray lib chunk) :=
  (acts_drawChunkXray _).kept (square_filled _)

/-- The pixel of a column has the mean color of its blocks. -/
theorem pixel_drawChunkXray (chunk : Chunk) {i : Nat} (inside : i < 256) :
    pixel (drawChunkXray lib chunk) i =
      ((meanColor lib (column (prepareSectionBlockstates lib) i
        (sortedSections lib chunk))).map Color64.toColor).getD .blank := by
  refine ((acts_drawChunkXray _).part _ (square_filled _) i).trans ?_
  rw [if_pos (List.mem_range.mpr inside), xrayOutputs_eq lib chunk inside,
    pixel_filled _ inside]
  rfl

theorem meanColor_ne_blank {blocks : List (Int × StateID)} {c : Color64}
    (found : meanColor lib blocks = some c) : c.toColor ≠ .blank := by
  unfold meanColor XrayOutput.mean at found
  split at found
  · cases found
    exact toColor_ne_blank rfl
  · cases found

theorem shows_drawChunkXray (chunk : Chunk) :
    Shows (drawChunkXray lib chunk) .blank fun i =>
      (meanColor lib (column (prepareSectionBlockstates lib) i
        (sortedSections lib chunk))).map Color64.toColor where
  square := square_drawChunkXray lib chunk
  column _ inside := pixel_drawChunkXray lib chunk inside
  apart i x found := by
    obtain ⟨color, mean, rfl⟩ := Option.map_eq_some_iff.mp found
    exact meanColor_ne_blank lib mean

end WebChunk.Terrain
