import WebChunk.Storages.Driver

/-!
# Terrain types

The table `ttypes`: for each kind of map its name, whether it is the default one, the
method that fetches its data, and the type that its painter asserts of a datum.
-/

namespace WebChunk.Render

open WebChunk.Storages

/-- `ttype`. -/
structure TerrainType where
  Name : String
  IsDefault : Bool

/-- The functions that fetch the data of a map. -/
inductive DataProvider where
  | chunksRegion
  | chunksRegionWithContext
  | chunksCountRegion

/-- What a `ttypeProviderFunc` returns: `chunkDataProviderFunc` and `chunkPainterFunc`,
the latter by the dynamic type without which it panics. -/
structure Provider where
  getter : DataProvider
  painter : DynamicType

def ttypes : List (TerrainType × Provider) :=
  [(⟨"terrain", false⟩, ⟨.chunksRegion, .chunk⟩),
    (⟨"shadedterrain", true⟩, ⟨.chunksRegionWithContext, .contextedChunkData⟩),
    (⟨"counttiles", false⟩, ⟨.chunksCountRegion, .int⟩),
    (⟨"counttilesheat", false⟩, ⟨.chunksCountRegion, .int⟩),
    (⟨"heightmap", false⟩, ⟨.chunksRegion, .chunk⟩),
    (⟨"xray", false⟩, ⟨.chunksRegion, .chunk⟩),
    (⟨"biomes", false⟩, ⟨.chunksRegion, .chunk⟩),
    (⟨"portalsheat", false⟩, ⟨.chunksRegion, .chunk⟩),
    (⟨"chestheat", false⟩, ⟨.chunksRegion, .chunk⟩),
    (⟨"lavaage", false⟩, ⟨.chunksRegion, .chunk⟩),
    (⟨"lavaageoverlay", false⟩, ⟨.chunksRegion, .chunk⟩),
    (⟨"shading", false⟩, ⟨.chunksRegionWithContext, .contextedChunkData⟩)]

/-- The provider of the terrain type with a name; no two have the same one. -/
def providerOf (name : String) : Option Provider :=
  (ttypes.find? fun entry => entry.1.Name == name).map Prod.snd

/-- The name and the provider of the default terrain type; there is one. -/
def defaultProvider : Option (String × Provider) :=
  (ttypes.find? fun entry => entry.1.IsDefault).map fun entry => (entry.1.Name, entry.2)

/-- The order in which a range loop meets the table does not matter. -/
theorem ttypes_nodup : (ttypes.map fun entry => entry.1.Name).Nodup ∧
    (ttypes.filter fun entry => entry.1.IsDefault).length = 1 := by
  decide

/-- No painter takes a pointer to a chunk. -/
theorem painter_ne_chunkPointer {name : String} {provider : Provider}
    (found : providerOf name = some provider) : provider.painter ≠ .chunkPointer := by
  obtain ⟨entry, member, rfl⟩ := Option.map_eq_some_iff.mp found
  have listed : entry ∈ ttypes := List.mem_of_find?_eq_some member
  have none_ : ∀ entry ∈ ttypes, entry.2.painter ≠ .chunkPointer := by decide
  exact none_ entry listed

end WebChunk.Render
