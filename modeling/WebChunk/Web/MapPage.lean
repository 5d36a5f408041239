import WebChunk.Server.Subscriptions

/-!
# The map page

The script of `view.gohtml` as far as it talks to the server: the two selectors, the tiles that
Leaflet creates and unloads in the layers of the page, and the messages of both directions. The
socket of the page is open.
-/

namespace WebChunk.Web

open WebChunk.ImageCache WebChunk.Server

/-! ### Names as options -/

/-- The ASCII whitespace that the text of an option can have. -/
def isBlank (char : Char) : Bool := char == ' ' || char == '\t' || char == Char.ofNat 12

/-- What an option reads whose `innerText` was set to a name: line breaks have become elements,
and blanks are stripped and collapsed. -/
def optionText (name : String) : String :=
  let kept := name.toList.filter fun char => char != '\n' && char != '\r'
  let words := (kept.splitOnP isBlank).filter (· ≠ [])
  String.ofList ((words.intersperse [' ']).flatten)

/-- The names whose option reads as the name. -/
def ReadsBack (name : String) : Prop := optionText name = name

instance (name : String) : Decidable (ReadsBack name) := inferInstanceAs (Decidable (_ = _))

/-- Setting the `value` of a `<select>`: without such an option nothing is selected. -/
def select (names : List String) (value : String) : String :=
  if value ∈ names.map optionText then value else ""

/-! ### The page -/

def maxZoomBack : Int := 8

/-- What the two selectors read. -/
structure Selection where
  world : String
  dimension : String
  deriving DecidableEq

/-- A tile of a layer, with the `coords` that Leaflet gives it. -/
structure Tile where
  layerName : String
  x : Int
  y : Int
  z : Int
  deriving DecidableEq

/-- The `Data` of a message about a tile. -/
def Tile.data (tile : Tile) (selected : Selection) : ImageLocation where
  World := selected.world
  Dimension := selected.dimension
  Variant := tile.layerName
  S := maxZoomBack - tile.z
  X := tile.x
  Z := tile.y

/-- The name of a layer and the three numbers of `coordsKey`. -/
structure Key where
  layerName : String
  x : Int
  y : Int
  s : Int
  deriving DecidableEq

/-- Where `createTile` puts the image of a tile in `tiles`. -/
def Tile.key (tile : Tile) : Key := ⟨tile.layerName, tile.x, tile.y, maxZoomBack - tile.z⟩

/-- Where the listener looks for the image of a location: the numbers have come as an `int32`,
an `int32` and a `uint8`. -/
def keyOf (loc : ImageLocation) : Key :=
  ⟨loc.Variant, loc.X.bmod (2 ^ 32), loc.Z.bmod (2 ^ 32), loc.S % 256⟩

/-- The image element of a tile, with the location of the picture that its `src` is. -/
structure Image where
  src : Option ImageLocation
  deriving DecidableEq

/-- A message of the server: an update of a tile, with a picture or without, the text about a
tile that could not be rendered, and the two messages that every page gets first. -/
inductive ServerMessage where
  | update (loc : ImageLocation) (picture : Bool)
  | failure (loc : ImageLocation)
  | updateLayers (names : List String)
  | updateWorldsAndDims (worlds : List (String × List String))
  deriving DecidableEq

/-- The variables of the script, and the tiles that Leaflet holds. `dimensions` are the options of
`dSelector`; those of `wSelector` are the keys of `worlds`. `search` is the query of the page's
address if it has a world and a dimension. -/
structure Page where
  worlds : List (String × List String)
  wSelector : String
  dSelector : String
  dimensions : List String
  search : Option (String × String)
  layers : List String
  tiles : Key → Option Image
  mounted : List Tile

namespace Page

/-- The page before the first message. -/
def blank (search : Option (String × String)) : Page where
  worlds := []
  wSelector := ""
  dSelector := ""
  dimensions := []
  search := search
  layers := []
  tiles _ := none
  mounted := []

def selection (p : Page) : Selection := ⟨p.wSelector, p.dSelector⟩

/-- The options of `wSelector`. -/
def worldNames (p : Page) : List String := p.worlds.map Prod.fst

/-- The locations of the tiles that Leaflet holds, as the page would name them now. -/
def view (p : Page) : List ImageLocation := p.mounted.map fun tile => tile.data p.selection

/-- `createTile`. Leaflet calls it for a tile that it does not hold, in a layer of the page. -/
def createTile (p : Page) (tile : Tile) : Option (Page × List ClientMessage) :=
  if tile.layerName ∈ p.layers ∧ tile ∉ p.mounted then
    some ({ p with
      tiles := Function.update p.tiles tile.key (some ⟨none⟩)
      mounted := p.mounted ++ [tile] }, [.tileSubscribe (tile.data p.selection)])
  else none

/-- `handleUnload`. Its `delete` names a key that `tiles` never has: `e.coords` reads as
`Point(x, y)`. -/
def handleUnload (p : Page) (tile : Tile) : Option (Page × List ClientMessage) :=
  if tile ∈ p.mounted then
    some ({ p with mounted := p.mounted.erase tile }, [.tileUnsubscribe (tile.data p.selection)])
  else none

/-- The `change` of `wSelector` to one of its options. The listener throws if `worlds` has no such
name, after it has emptied `dSelector`. -/
def changeWorld (p : Page) (value : String) : Option (Page × List ClientMessage) :=
  if value ∈ p.worldNames.map optionText then
    match p.worlds.lookup value with
    | none => some ({ p with wSelector := value, dSelector := "", dimensions := [] }, [])
    | some dims =>
        some ({ p with wSelector := value, dSelector := "", dimensions := dims },
          [.resubWorldDimension value ""])
  else none

/-- The `change` of `dSelector` to one of its options. -/
def changeDimension (p : Page) (value : String) : Option (Page × List ClientMessage) :=
  if value ∈ p.dimensions.map optionText then
    some ({ p with dSelector := value }, [.resubWorldDimension p.wSelector value])
  else none

/-- An event of Leaflet or of a selector. -/
inductive PageEvent where
  | createTile (tile : Tile)
  | handleUnload (tile : Tile)
  | changeWorld (value : String)
  | changeDimension (value : String)

/-- What the page does at an event, and the messages that it sends. -/
def act (p : Page) : PageEvent → Option (Page × List ClientMessage)
  | .createTile tile => p.createTile tile
  | .handleUnload tile => p.handleUnload tile
  | .changeWorld value => p.changeWorld value
  | .changeDimension value => p.changeDimension value

/-- The names in the address of the page, if the list of worlds has them. -/
def linked (p : Page) (worlds : List (String × List String)) :
    Option (String × String × List String) := do
  let (nw, nd) ← p.search
  let dims ← worlds.lookup nw
  if nd ∈ dims then some (nw, nd, dims) else none

/-- The listener on messages. -/
def listen (p : Page) : ServerMessage → Page × List ClientMessage
  | .update loc picture =>
      match p.tiles (keyOf loc), picture with
      | some _, true =>
          ({ p with tiles := Function.update p.tiles (keyOf loc) (some ⟨some loc⟩) }, [])
      | _, _ => (p, [])
  | .failure _ => (p, [])
  | .updateLayers names =>
      ({ p with
        layers := p.layers ++ names
        tiles := fun key => if key.layerName ∈ names then none else p.tiles key }, [])
  | .updateWorldsAndDims worlds =>
      match p.linked worlds with
      | none => ({ p with worlds := worlds, wSelector := "" }, [])
      | some (nw, nd, dims) =>
          ({ p with
            worlds := worlds
            wSelector := select (worlds.map Prod.fst) nw
            dSelector := select dims nd
            dimensions := dims
            search := none }, [.resubWorldDimension nw nd])

end Page

end WebChunk.Web
