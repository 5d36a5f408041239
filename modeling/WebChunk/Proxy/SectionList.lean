import Mathlib.Data.List.Basic
import WebChunk.Proxy.ChunkData

/-!
# What the section loop returns

On a concatenation of sections the loop stops at the first one with which fewer than 200 bytes
are left. On any bytes it takes a section whose reader has failed for one that was read, unless
the reader has come to the end of the data or has consumed nothing.
-/

namespace WebChunk.Proxy

open WebChunk.Semantics

variable {S : Type}

variable {Pos BlockEntity : Type}

/-- The loop ends, and the chunk has exactly these sections. -/
def SectionsExact (ReadFrom : List UInt8 → Reading S) (p : ScannedChunk Pos BlockEntity)
    (sections : List S) : Prop :=
  ∃ cpos cc readings, Deserializes ReadFrom p cpos cc readings ∧ cc.Sections = sections

/-- A chunk that is returned has only sections that were read without an error. -/
def SectionsDecoded (ReadFrom : List UInt8 → Reading S) (p : ScannedChunk Pos BlockEntity) :
    Prop :=
  ∀ cpos cc readings, Deserializes ReadFrom p cpos cc readings →
    ∀ r ∈ readings, r.err = none

/-- The bytes in front of which the loop calls `ReadFrom`: all of them, and what a call leaves
that did not find the end of the data, as long as there are 200. -/
inductive Visited (ReadFrom : List UInt8 → Reading S) (sectionsData : List UInt8) :
    List UInt8 → Prop where
  | first (enough : 200 ≤ sectionsData.length) : Visited ReadFrom sectionsData sectionsData
  | next {d : List UInt8} (visited : Visited ReadFrom sectionsData d)
      (goesOn : (ReadFrom d).err.any ReadError.ended = false)
      (enough : 200 ≤ (ReadFrom d).rest.length) :
      Visited ReadFrom sectionsData (ReadFrom d).rest

/-- `ReadFrom` fails with an error that the loop does not look at, after some bytes. -/
def Reading.overlooked (r : Reading S) : Prop := (∃ text, r.err = some (.other text)) ∧ r.n ≠ 0

/-- `ReadFrom` fails before the first byte: the loop calls it again and again. -/
def Reading.stalls (r : Reading S) : Prop := (∃ text, r.err = some (.other text)) ∧ r.n = 0

/-- `ReadFrom` fails nowhere but at the end of the data, or it fails without having consumed
anything, and then the loop never ends. -/
def FailsAtEndOnly (ReadFrom : List UInt8 → Reading S) (sectionsData : List UInt8) : Prop :=
  (∀ d, Visited ReadFrom sectionsData d → ¬ (ReadFrom d).overlooked) ∨
    ∃ d, Visited ReadFrom sectionsData d ∧ (ReadFrom d).stalls

/-- The sections of a concatenation that are returned: up to the first one with which fewer than
200 bytes are left. -/
def kept (encode : S → List UInt8) : List S → List S
  | [] => []
  | s :: rest =>
      if ((s :: rest).flatMap encode).length < 200 then [] else s :: kept encode rest

variable {encode : S → List UInt8} {ReadFrom : List UInt8 → Reading S}

namespace ReadsSections

/-- What was read without an error has consumed something. -/
theorem consumes (laws : ReadsSections encode ReadFrom) {d : List UInt8}
    (read : (ReadFrom d).err = none) : (ReadFrom d).n ≠ 0 := by
  have whole := laws.fails d read
  have again := laws.decodes (ReadFrom d).ss (ReadFrom d).rest
  have short := laws.short (ReadFrom d).ss
  rw [← whole] at again
  rw [again]
  dsimp only
  omega

/-- The iteration at an encoding. -/
theorem step_section (laws : ReadsSections encode ReadFrom) (s : S) (rest : List UInt8)
    (readings : List (Reading S)) (enough : 200 ≤ (encode s ++ rest).length) :
    sectionStep ReadFrom ⟨encode s ++ rest, (encode s ++ rest).length, readings⟩ =
      some ⟨rest, rest.length, readings ++ [ReadFrom (encode s ++ rest)]⟩ := by
  have short := laws.short s
  have nonempty : (encode s).length ≠ 0 := by omega
  rw [List.length_append] at enough ⊢
  unfold sectionStep
  rw [if_neg (by dsimp only; omega), if_neg (by dsimp only; omega)]
  dsimp only
  rw [laws.decodes s rest, if_neg (by simp), if_neg nonempty]
  have left :
      (((encode s).length + rest.length : Nat) : Int) - (encode s).length = rest.length := by
    omega
  rw [left]

/-- The loop at a concatenation ends with the sections that are kept. -/
theorem reaches_kept (laws : ReadsSections encode ReadFrom) (sections : List S)
    (readings : List (Reading S)) : ∃ k final,
      (sectionLoop ReadFrom).Reaches
        ⟨sections.flatMap encode, (sections.flatMap encode).length, readings⟩ k final ∧
      (sectionLoop ReadFrom).Ended final ∧
      final.readings.map Reading.ss = readings.map Reading.ss ++ kept encode sections := by
  induction sections generalizing readings with
  | nil => exact ⟨0, _, .refl, rfl, by simp [kept]⟩
  | cons s rest inductionHypothesis =>
      by_cases few : ((s :: rest).flatMap encode).length < 200
      · refine ⟨0, _, .refl, ?_, by simp only [kept, if_pos few, List.append_nil]⟩
        change sectionStep ReadFrom _ = none
        unfold sectionStep
        split
        · rfl
        · rw [if_pos (by dsimp only; omega)]
      · have step := laws.step_section s (rest.flatMap encode) readings (by simpa using few)
        obtain ⟨k, final, reaches, ended, same⟩ := inductionHypothesis
          (readings ++ [ReadFrom (encode s ++ rest.flatMap encode)])
        refine ⟨1 + k, final, (Loop.Reaches.one step).trans reaches, ended, ?_⟩
        rw [same, kept, if_neg few, laws.decodes]
        simp

end ReadsSections

/-- All sections are kept exactly if the last encoding has at least 200 bytes. -/
theorem kept_eq_iff (encode : S → List UInt8) (sections : List S) :
    kept encode sections = sections ↔
      ∀ last, sections.getLast? = some last → 200 ≤ (encode last).length := by
  induction sections with
  | nil => simp [kept]
  | cons s rest inductionHypothesis =>
      rw [kept]
      cases rest with
      | nil => simp [kept]
      | cons r others =>
          rw [List.getLast?_cons_cons, ← inductionHypothesis]
          constructor
          · intro all
            split at all
            · cases all
            · exact (List.cons.inj all).2
          · intro same
            have enough : ¬ ((r :: others).flatMap encode).length < 200 := by
              intro few
              rw [kept, if_pos few] at same
              cases same
            have more : ¬ ((s :: r :: others).flatMap encode).length < 200 := by
              rw [List.flatMap_cons, List.length_append]
              omega
            rw [if_neg more, same]

/-! ### What was read on the way -/

/-- The loop counts the bytes that are left, calls `ReadFrom` where it was said, and keeps what
was read after some bytes. -/
structure Follows (ReadFrom : List UInt8 → Reading S) (sectionsData : List UInt8)
    (s : SectionLoop S) : Prop where
  length : s.dl = s.d.length
  visited : 200 ≤ s.d.length → Visited ReadFrom sectionsData s.d
  readings : ∀ r ∈ s.readings, ∃ d, Visited ReadFrom sectionsData d ∧ r = ReadFrom d ∧
    r.n ≠ 0 ∧ r.err.any ReadError.ended = false

namespace Follows

variable {sectionsData : List UInt8} {s next : SectionLoop S}

theorem initial (sectionsData : List UInt8) :
    Follows ReadFrom sectionsData (.initial sectionsData) :=
  ⟨rfl, .first, nofun⟩

/-- An iteration calls `ReadFrom` with at least 200 bytes left, and goes on behind what it has
read. -/
theorem of_step (laws : ReadsSections encode ReadFrom) (follows : Follows ReadFrom sectionsData s)
    (transition : sectionStep ReadFrom s = some next) :
    200 ≤ s.d.length ∧ (ReadFrom s.d).err.any ReadError.ended = false ∧
      next.d = (ReadFrom s.d).rest ∧ next.dl = next.d.length ∧
      ((ReadFrom s.d).n = 0 ∧ next.readings = s.readings ∨
        (ReadFrom s.d).n ≠ 0 ∧ next.readings = s.readings ++ [ReadFrom s.d]) := by
  obtain ⟨rest, fits⟩ := laws.reports s.d
  have length := follows.length
  have left : ((ReadFrom s.d).rest.length : Int) = s.d.length - (ReadFrom s.d).n := by
    rw [rest, List.length_drop]
    omega
  unfold sectionStep at transition
  split at transition
  · cases transition
  · split at transition
    · cases transition
    · dsimp only at transition
      split at transition
      · cases transition
      · rename_i goesOn
        have goesOn := Bool.eq_false_iff.mpr goesOn
        split at transition
        · rename_i nothing
          cases transition
          refine ⟨by omega, goesOn, rfl, ?_, .inl ⟨nothing, rfl⟩⟩
          dsimp only
          omega
        · rename_i something
          cases transition
          refine ⟨by omega, goesOn, rfl, ?_, .inr ⟨something, rfl⟩⟩
          dsimp only
          omega

/-- The step lemma. -/
theorem preserved (laws : ReadsSections encode ReadFrom)
    (follows : Follows ReadFrom sectionsData s)
    (transition : sectionStep ReadFrom s = some next) : Follows ReadFrom sectionsData next := by
  obtain ⟨enough, goesOn, rest, length, readings⟩ := follows.of_step laws transition
  have visited := follows.visited enough
  refine ⟨length, fun more => ?_, ?_⟩
  · rw [rest] at more ⊢
    exact visited.next goesOn more
  · rcases readings with ⟨_, same⟩ | ⟨something, grown⟩
    · rw [same]
      exact follows.readings
    · rw [grown]
      intro r member
      rcases List.mem_append.mp member with old | new
      · exact follows.readings r old
      · cases List.mem_singleton.mp new
        exact ⟨s.d, visited, rfl, something, goesOn⟩

/-- Every iteration before the end makes the data shorter, unless `ReadFrom` stalls. -/
theorem shortens (laws : ReadsSections encode ReadFrom) (follows : Follows ReadFrom sectionsData s)
    (runs : ∀ d, Visited ReadFrom sectionsData d → ¬ (ReadFrom d).stalls)
    (transition : sectionStep ReadFrom s = some next) : next.d.length < s.d.length := by
  obtain ⟨enough, goesOn, rest, _, _⟩ := follows.of_step laws transition
  have something : (ReadFrom s.d).n ≠ 0 := by
    intro nothing
    cases read : (ReadFrom s.d).err with
    | none => exact laws.consumes read nothing
    | some err =>
        cases err with
        | EOF | ErrUnexpectedEOF => simp [read, ReadError.ended] at goesOn
        | other text => exact runs s.d (follows.visited enough) ⟨⟨text, read⟩, nothing⟩
  obtain ⟨dropped, fits⟩ := laws.reports s.d
  rw [rest, dropped, List.length_drop]
  omega

end Follows

/-- `ReadFrom` is called with at least 200 bytes. -/
theorem Visited.enough {sectionsData d : List UInt8} (visited : Visited ReadFrom sectionsData d) :
    200 ≤ d.length := by
  cases visited with
  | first enough | next _ _ enough => exact enough

/-- The loop with at least 200 bytes left and no end of the data in front of it. -/
theorem sectionStep_of_visited {s : SectionLoop S} (enough : 200 ≤ s.d.length)
    (length : s.dl = s.d.length) (goesOn : (ReadFrom s.d).err.any ReadError.ended = false) :
    sectionStep ReadFrom s = some
      (if (ReadFrom s.d).n = 0 then { s with d := (ReadFrom s.d).rest }
      else ⟨(ReadFrom s.d).rest, s.dl - (ReadFrom s.d).n, s.readings ++ [ReadFrom s.d]⟩) := by
  unfold sectionStep
  rw [if_neg (by omega), if_neg (by omega)]
  dsimp only
  rw [if_neg (by simp [goesOn])]
  split <;> rfl

/-- The loop comes to every place where it was said to call `ReadFrom`. -/
theorem Visited.reached (laws : ReadsSections encode ReadFrom) {sectionsData d : List UInt8}
    (visited : Visited ReadFrom sectionsData d) :
    ∃ k s, (sectionLoop ReadFrom).Reaches (.initial sectionsData) k s ∧ s.d = d := by
  induction visited with
  | first _ => exact ⟨0, _, .refl, rfl⟩
  | next visited goesOn enough inductionHypothesis =>
      obtain ⟨k, s, reaches, rfl⟩ := inductionHypothesis
      have follows : Follows ReadFrom sectionsData s :=
        reaches.invariant (Follows ReadFrom sectionsData) (Follows.preserved laws) (.initial _)
      have step := sectionStep_of_visited visited.enough follows.length goesOn
      refine ⟨k + 1, _, reaches.next step, ?_⟩
      split <;> rfl

/-- What was read is never dropped. -/
theorem readings_kept (laws : ReadsSections encode ReadFrom) {sectionsData : List UInt8}
    {s final : SectionLoop S} {k : Nat} {r : Reading S} (follows : Follows ReadFrom sectionsData s)
    (reaches : (sectionLoop ReadFrom).Reaches s k final) (member : r ∈ s.readings) :
    r ∈ final.readings := by
  have kept := reaches.invariant
    (fun s => Follows ReadFrom sectionsData s ∧ r ∈ s.readings) ?_ ⟨follows, member⟩
  · exact kept.2
  · rintro s next ⟨follows, member⟩ transition
    refine ⟨follows.preserved laws transition, ?_⟩
    obtain ⟨_, _, _, _, readings⟩ := follows.of_step laws transition
    rcases readings with ⟨_, same⟩ | ⟨_, grown⟩
    · rwa [same]
    · rw [grown]
      exact List.mem_append_left _ member

/-- At a stall the loop goes round for ever, and nothing is returned. -/
theorem not_ended_of_stalls (laws : ReadsSections encode ReadFrom) {sectionsData d : List UInt8}
    (visited : Visited ReadFrom sectionsData d) (stalls : (ReadFrom d).stalls)
    {k : Nat} {final : SectionLoop S}
    (reaches : (sectionLoop ReadFrom).Reaches (.initial sectionsData) k final) :
    ¬ (sectionLoop ReadFrom).Ended final := by
  obtain ⟨m, s, reached, rfl⟩ := visited.reached laws
  obtain ⟨⟨text, failed⟩, nothing⟩ := stalls
  have follows : Follows ReadFrom sectionsData s :=
    reached.invariant (Follows ReadFrom sectionsData) (Follows.preserved laws) (.initial _)
  have goesOn : (ReadFrom s.d).err.any ReadError.ended = false := by
    simp [failed, ReadError.ended]
  have step := sectionStep_of_visited visited.enough follows.length goesOn
  have unread : (ReadFrom s.d).rest = s.d := by
    rw [(laws.reports s.d).1, nothing, List.drop_zero]
  rw [if_pos nothing, unread] at step
  exact reached.not_ended_of_stuck step reaches

/-- The chunk that is returned for a concatenation has exactly its sections if and only if the
last encoding has at least 200 bytes. -/
theorem sectionsExact_iff (laws : ReadsSections encode ReadFrom) (p : ScannedChunk Pos BlockEntity)
    (sections : List S) (whole : p.sectionsData = sections.flatMap encode) :
    SectionsExact ReadFrom p sections ↔
      ∀ last, sections.getLast? = some last → 200 ≤ (encode last).length := by
  obtain ⟨k, final, reaches, ended, same⟩ := laws.reaches_kept sections []
  rw [← whole] at reaches
  rw [← kept_eq_iff encode sections]
  constructor
  · rintro ⟨cpos, cc, readings, ⟨m, other, reached, last, rfl, _, rfl⟩, exactly⟩
    cases reaches.ended_unique ended reached last
    exact same.symm.trans exactly
  · intro all
    exact ⟨_, _, _, ⟨k, final, reaches, ended, rfl, rfl, rfl⟩, same.trans all⟩

/-- A chunk that is returned has only sections that were read without an error if and only if
`ReadFrom` fails nowhere but at the end of the data, or the loop never ends. -/
theorem sectionsDecoded_iff (laws : ReadsSections encode ReadFrom)
    (p : ScannedChunk Pos BlockEntity) :
    SectionsDecoded ReadFrom p ↔ FailsAtEndOnly ReadFrom p.sectionsData := by
  have start : Follows ReadFrom p.sectionsData (.initial p.sectionsData) := .initial _
  constructor
  · intro decoded
    by_contra fails
    obtain ⟨overlooks, runs⟩ := not_or.mp fails
    have runs : ∀ d, Visited ReadFrom p.sectionsData d → ¬ (ReadFrom d).stalls :=
      fun d visited stalls => runs ⟨d, visited, stalls⟩
    simp only [not_forall, not_not] at overlooks
    obtain ⟨d, visited, ⟨text, failed⟩, something⟩ := overlooks
    obtain ⟨k, s, reached, rfl⟩ := visited.reached laws
    have follows : Follows ReadFrom p.sectionsData s :=
      reached.invariant (Follows ReadFrom p.sectionsData) (Follows.preserved laws) start
    have goesOn : (ReadFrom s.d).err.any ReadError.ended = false := by
      simp [failed, ReadError.ended]
    have step := sectionStep_of_visited visited.enough follows.length goesOn
    rw [if_neg something] at step
    have after := follows.preserved laws step
    have decreases : ∀ {s next : SectionLoop S}, Follows ReadFrom p.sectionsData s →
        (sectionLoop ReadFrom).step s = some next →
        Follows ReadFrom p.sectionsData next ∧ next.d.length < s.d.length :=
      fun follows transition =>
        ⟨follows.preserved laws transition, follows.shortens laws runs transition⟩
    obtain ⟨m, final, rest, ended⟩ := Loop.exists_ended (fun s => s.d.length) decreases after
    have member := readings_kept laws after rest
      (List.mem_append_right _ (List.mem_singleton_self _))
    have clean := decoded _ _ _
      ⟨_, final, (reached.next step).trans rest, ended, rfl, rfl, rfl⟩ _ member
    cases failed.symm.trans clean
  · intro fails cpos cc readings deserializes r member
    obtain ⟨k, final, reaches, ended, rfl, _⟩ := deserializes
    rcases fails with clean | ⟨d, visited, stalls⟩
    · have follows : Follows ReadFrom p.sectionsData final :=
        reaches.invariant (Follows ReadFrom p.sectionsData) (Follows.preserved laws) start
      obtain ⟨d, visited, rfl, something, goesOn⟩ := follows.readings r member
      cases read : (ReadFrom d).err with
      | none => rfl
      | some err =>
          cases err with
          | EOF | ErrUnexpectedEOF => simp [read, ReadError.ended] at goesOn
          | other text => exact absurd ⟨⟨text, read⟩, something⟩ (clean d visited)
    · exact absurd ended (not_ended_of_stalls laws visited stalls reaches)

/-- For every list of sections and every packet, the loop meets the two halves of its purpose
exactly under these conditions. -/
theorem sectionLoop_iff (laws : ReadsSections encode ReadFrom)
    (concatenation : ScannedChunk Pos BlockEntity) (sections : List S)
    (whole : concatenation.sectionsData = sections.flatMap encode)
    (p : ScannedChunk Pos BlockEntity) :
    (SectionsExact ReadFrom concatenation sections ↔
        ∀ last, sections.getLast? = some last → 200 ≤ (encode last).length) ∧
      (SectionsDecoded ReadFrom p ↔ FailsAtEndOnly ReadFrom p.sectionsData) :=
  ⟨sectionsExact_iff laws concatenation sections whole, sectionsDecoded_iff laws p⟩

/-! ### A reader of two kinds of sections -/

/-- The length of the encoding in front: a block count, a palette with one block state and no
data, or with two of them and 256 longs, and a palette with one biome. All numbers are smaller
than 128. -/
def encodingLength (d : List UInt8) : Option Nat :=
  match d.take 8 with
  | [_, _, bits, a, b, c, e, f] =>
      if bits = 0 ∧ a < 128 ∧ b = 0 ∧ c = 0 ∧ e < 128 ∧ f = 0 then some 8
      else if bits = 4 ∧ a = 2 ∧ b < 128 ∧ c < 128 ∧ e = 128 ∧ f = 2 then some 2059
      else none
  | _ => none

theorem encodingLength_bounds {d : List UInt8} {n : Nat} (found : encodingLength d = some n) :
    8 ≤ n ∧ 8 ≤ d.length := by
  unfold encodingLength at found
  split at found
  · rename_i eight
    have long : min 8 d.length = 8 := by rw [← List.length_take, eight]; rfl
    refine ⟨?_, by omega⟩
    split at found
    · cases found
      exact Nat.le_refl 8
    · split at found <;> cases found
      decide
  · cases found

/-- The first eight bytes decide. -/
theorem encodingLength_congr {d other : List UInt8} (same : d.take 8 = other.take 8) :
    encodingLength d = encodingLength other := by
  rw [encodingLength, encodingLength, same]

theorem encodingLength_take {d : List UInt8} {n : Nat} (found : encodingLength d = some n)
    (fits : n ≤ d.length) : encodingLength (d.take n) = some (d.take n).length := by
  have eight := (encodingLength_bounds found).1
  have same : (d.take n).take 8 = d.take 8 := by rw [List.take_take, Nat.min_eq_left eight]
  rw [encodingLength_congr same, found, List.length_take, Nat.min_eq_left fits]

/-- A section of one of these kinds, as its encoding. -/
structure PlainSection where
  bytes : List UInt8
  length : encodingLength bytes = some bytes.length

/-- The section before anything was read into it. -/
def airSection : PlainSection := ⟨[0, 0, 0, 0, 0, 0, 0, 0], by decide⟩

/-- `ReadFrom` of these sections. -/
def plainReadFrom (d : List UInt8) : Reading PlainSection :=
  match found : encodingLength d with
  | some n =>
      if fits : n ≤ d.length then
        ⟨n, none, ⟨d.take n, encodingLength_take found fits⟩, d.drop n⟩
      else ⟨d.length, some .ErrUnexpectedEOF, airSection, d.drop d.length⟩
  | none =>
      if 8 ≤ d.length then ⟨8, some (.other "VarInt is too big"), airSection, d.drop 8⟩
      else ⟨d.length, some .ErrUnexpectedEOF, airSection, d.drop d.length⟩

theorem plainReadFrom_laws : ReadsSections PlainSection.bytes plainReadFrom where
  decodes s rest := by
    have eight := (encodingLength_bounds s.length).2
    have same : encodingLength (s.bytes ++ rest) = some s.bytes.length := by
      rw [encodingLength_congr (List.take_append_of_le_length eight), s.length]
    unfold plainReadFrom
    split
    · rename_i n found
      cases same.symm.trans found
      rw [dif_pos (by simp)]
      simp
    · rename_i missing
      cases same.symm.trans missing
  reports d := by
    unfold plainReadFrom
    split
    · split
      · exact ⟨rfl, by assumption⟩
      · exact ⟨rfl, Nat.le_refl _⟩
    · split
      · exact ⟨rfl, by assumption⟩
      · exact ⟨rfl, Nat.le_refl _⟩
  fails d := by
    unfold plainReadFrom
    split
    · split
      · exact fun _ => (List.take_append_drop _ d).symm
      · exact nofun
    · split <;> exact nofun
  short s := (encodingLength_bounds s.length).1

/-- Where a section is malformed, its first eight bytes were consumed. -/
theorem plainReadFrom_of_none {d : List UInt8} (missing : encodingLength d = none)
    (enough : 8 ≤ d.length) :
    plainReadFrom d = ⟨8, some (.other "VarInt is too big"), airSection, d.drop 8⟩ := by
  unfold plainReadFrom
  split
  · rename_i found
    cases missing.symm.trans found
  · rw [if_pos enough]

theorem not_stalls_plainReadFrom (d : List UInt8) : ¬ (plainReadFrom d).stalls := by
  unfold Reading.stalls plainReadFrom
  split
  · split <;> simp
  · split <;> simp

/-- A packet with this section data and nothing else. -/
def sectionsOnly (sectionsData : List UInt8) : ScannedChunk Unit Unit where
  cpos := ()
  MotionBlocking := []
  WorldSurface := []
  sectionsData := sectionsData
  blockEntity := []

/-- A section with a palette that is no number, and 192 bytes behind it. -/
def malformed : List UInt8 := [0, 0, 0, 255, 255, 255, 255, 255] ++ List.replicate 192 0

theorem malformed_length : malformed.length = 200 := by
  rw [malformed, List.length_append, List.length_replicate]
  rfl

/-- A single section of one block is dropped, and a section that could not be read is
returned. -/
theorem section_lost_and_made_up :
    ¬ SectionsExact plainReadFrom (sectionsOnly airSection.bytes) [airSection] ∧
      ¬ SectionsDecoded plainReadFrom (sectionsOnly malformed) := by
  constructor
  · rw [sectionsExact_iff plainReadFrom_laws _ [airSection] (by simp [sectionsOnly])]
    intro long
    exact absurd (long airSection rfl) (by decide)
  · rw [sectionsDecoded_iff plainReadFrom_laws]
    rintro (clean | ⟨d, _, stalls⟩)
    · have read := plainReadFrom_of_none (show encodingLength malformed = none from rfl)
        (by rw [malformed_length]; decide)
      have overlooked : (plainReadFrom malformed).overlooked := by
        rw [read]
        exact ⟨⟨_, rfl⟩, by decide⟩
      exact clean malformed (.first (Nat.le_of_eq malformed_length.symm)) overlooked
    · exact not_stalls_plainReadFrom d stalls

/-- A section of two blocks. -/
def twoBlocks : PlainSection where
  bytes := [16, 0, 4, 2, 0, 1, 128, 2] ++ (List.replicate 2048 0 ++ [0, 1, 0])
  length := by
    rw [List.length_append, List.length_append, List.length_replicate]
    rfl

theorem sections_of_twoBlocks :
    SectionsExact plainReadFrom (sectionsOnly twoBlocks.bytes) [twoBlocks] ∧
      SectionsDecoded plainReadFrom (sectionsOnly airSection.bytes) := by
  have long : 200 ≤ twoBlocks.bytes.length := by
    rw [twoBlocks, List.length_append, List.length_append, List.length_replicate]
    decide
  have both := sectionLoop_iff plainReadFrom_laws (sectionsOnly twoBlocks.bytes) [twoBlocks]
    (by simp [sectionsOnly]) (sectionsOnly airSection.bytes)
  refine ⟨both.1.mpr ?_, both.2.mpr (.inl ?_)⟩
  · rintro last ⟨⟩
    exact long
  · intro d visited
    exfalso
    induction visited with
    | first enough => exact absurd enough (by decide)
    | next _ _ _ inductionHypothesis => exact inductionHypothesis

end WebChunk.Proxy
