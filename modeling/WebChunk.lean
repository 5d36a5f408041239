import WebChunk.Semantics.Machine
import WebChunk.Go.Channel
import WebChunk.Go.Map
import WebChunk.RegionStore.Transition
import WebChunk.RegionStore.Exclusive
import WebChunk.RegionStore.ChannelSafety
import WebChunk.RegionStore.Flow
import WebChunk.RegionStore.Once
import WebChunk.RegionStore.Replies
import WebChunk.RegionStore.ReadYourWrites
import WebChunk.Go.Image
import WebChunk.Go.Int
import WebChunk.ImageCache.Geometry
import WebChunk.ImageCache.Processor
import WebChunk.ImageCache.System
import WebChunk.ImageCache.Steps
import WebChunk.ImageCache.Transition
import WebChunk.ImageCache.Reads
import WebChunk.ImageCache.Autosave
import WebChunk.ImageCache.Waiters
import WebChunk.ImageCache.DirtyFlag
import WebChunk.ImageCache.Content
import WebChunk.ImageCache.TileFile
import WebChunk.Render.TerrainTypes
import WebChunk.Storages.Agreement
import WebChunk.Render.Tile
import WebChunk.Render.Safety
import WebChunk.Render.Context
import WebChunk.Render.Cropping
import WebChunk.Server.RouterSafety
import WebChunk.Server.Shutdown
import WebChunk.Go.Strconv
import WebChunk.Go.Bytes
import WebChunk.Semantics.Loop
import WebChunk.Nbt.Format
import WebChunk.Render.Handler
import WebChunk.Nbt.Walker
import WebChunk.Nbt.Reading
import WebChunk.Nbt.Iteration
import WebChunk.Nbt.Discipline
import WebChunk.Nbt.Completeness
import WebChunk.Nbt.Documents
import WebChunk.ImageCache.Deadlock
import WebChunk.RegionStore.Deadlock
import WebChunk.RegionStore.Barrier
import WebChunk.Server.WebSocket
import WebChunk.Storages.Lifecycle
import WebChunk.Server.WriterQueue
import WebChunk.Server.Teardown
import WebChunk.Proxy.Labels
import WebChunk.Proxy.Session
import WebChunk.Proxy.PushSafety
import WebChunk.Proxy.ChunkData
import WebChunk.Proxy.SectionList
import WebChunk.RegionStore.Collect
import WebChunk.RegionStore.CollectRaw
import WebChunk.Go.Files
import WebChunk.RegionStore.Counting
import WebChunk.WorldStore.World
import WebChunk.WorldStore.AllOrNothing
import WebChunk.Storages.Lookup
import WebChunk.Go.Sort
import WebChunk.Semantics.Columns
import WebChunk.Terrain.Section
import WebChunk.Terrain.Heightmap
import WebChunk.Terrain.Picture
import WebChunk.Terrain.HeightPicture
import WebChunk.Terrain.Shading
import WebChunk.Terrain.Colors
import WebChunk.Terrain.Uniform
import WebChunk.Regen.Heightmap
import WebChunk.Web.TextDecoder
import WebChunk.Server.TileMessage
import WebChunk.Semantics.History
import WebChunk.Server.Delivery
import WebChunk.Go.MapSum
import WebChunk.ImageCache.AnsweredOnce
import WebChunk.Go.CleanPath
import WebChunk.Go.Decimal
import WebChunk.ImageCache.FileNames
import WebChunk.Postgres.Chunks
import WebChunk.RegionStore.Paths
import WebChunk.ImageCache.Statistics
import WebChunk.ImageCache.Unloading
import WebChunk.Regen.Outstanding
import WebChunk.Go.Numerals
import WebChunk.Go.Regexp
import WebChunk.RegionStore.FileNames
import WebChunk.Server.ByteCount
import WebChunk.Credentials.Manager
import WebChunk.Credentials.Refresh
import WebChunk.ImageCache.TileSquares
import WebChunk.Terrain.Heat
import WebChunk.Web.PageBytes
import WebChunk.Web.Replies
import WebChunk.Postgres.Ingest
import WebChunk.Proxy.Relay
import WebChunk.ImageCache.Restarts
import WebChunk.Regen.WriteBack
import WebChunk.BlockFinder.Results
import WebChunk.WorldStore.RegistryRefinement
import WebChunk.Importer.Posted
import WebChunk.Terrain.Numbers
import WebChunk.Terrain.Shaded
import WebChunk.Semantics.FanIn
import WebChunk.Server.Pipeline
import WebChunk.Terrain.LavaAge
