import SqlText.Json.Decoder
import SqlText.Layout
import SqlText.Text

/-!
# Window frames

The rows around the current one that an analytic function looks at. An offset expression in a frame
is laid out in isolation: queries inside it are always rendered in the built-in way.
-/

namespace SqlText

/-- What a frame counts. -/
inductive FrameUnit where
  | rows
  | range
  deriving DecidableEq

namespace FrameUnit

/-- The units that a tag can name. -/
def all : List FrameUnit := [rows, range]

/-- The word with which a frame begins. -/
def token : FrameUnit → String
  | rows => "ROWS"
  | range => "RANGE"

/-- The tag of a unit in JSON. -/
def tag : FrameUnit → String
  | rows => "Rows"
  | range => "Range"

/-- A unit is exchanged as its bare tag. -/
def encode (unit : FrameUnit) : Json := .str unit.tag

/-- Reads a unit by its tag. -/
def decode : Decoder FrameUnit := Decoder.oneOf all tag

end FrameUnit

/-- One end of a frame. -/
inductive FrameBound (ε : Type) where
  | unboundedPreceding
  | unboundedFollowing
  | currentRow
  | preceding (offset : ε)
  | following (offset : ε)
  deriving DecidableEq

namespace FrameBound

variable {ε δ : Type}

/-- Applies a function to the offset, if there is one. -/
def map (f : ε → δ) : FrameBound ε → FrameBound δ
  | unboundedPreceding => unboundedPreceding
  | unboundedFollowing => unboundedFollowing
  | currentRow => currentRow
  | preceding offset => preceding (f offset)
  | following offset => following (f offset)

/-- The offset of a bound; no element for the bounds that have none. -/
def children : FrameBound ε → List ε
  | preceding offset => [offset]
  | following offset => [offset]
  | _ => []

/-- The words of a bound, behind its offset where it has one. -/
def text : FrameBound String → String
  | unboundedPreceding => "UNBOUNDED PRECEDING"
  | unboundedFollowing => "UNBOUNDED FOLLOWING"
  | currentRow => "CURRENT ROW"
  | preceding offset => offset ++ " PRECEDING"
  | following offset => offset ++ " FOLLOWING"

/-- The layout of a bound; its offset is isolated. -/
def layout : FrameBound Layout → Layout
  | unboundedPreceding => .token "UNBOUNDED PRECEDING"
  | unboundedFollowing => .token "UNBOUNDED FOLLOWING"
  | currentRow => .token "CURRENT ROW"
  | preceding offset => .isolated offset ++ .token " PRECEDING"
  | following offset => .isolated offset ++ .token " FOLLOWING"

/-- The JSON form: a bare tag for a bound without offset, else a tag with the offset. -/
def encode : FrameBound Json → Json
  | unboundedPreceding => .str "UnboundedPreceding"
  | unboundedFollowing => .str "UnboundedFollowing"
  | currentRow => .str "CurrentRow"
  | preceding offset => .tagged "Preceding" offset
  | following offset => .tagged "Following" offset

/-- Reads a bound by its tag, which decides whether an offset has to follow. -/
def decode (expr : Decoder ε) : Decoder (FrameBound ε) :=
  Decoder.tagged fun tag given =>
    match tag with
    | "UnboundedPreceding" => Decoder.bare unboundedPreceding given
    | "UnboundedFollowing" => Decoder.bare unboundedFollowing given
    | "CurrentRow" => Decoder.bare currentRow given
    | "Preceding" => (Decoder.payload expr given).map preceding
    | "Following" => (Decoder.payload expr given).map following
    | _ => none

end FrameBound

/-- The extent of a frame: from one bound to the current row, or between two bounds. -/
inductive FrameExtent (ε : Type) where
  | single (bound : FrameBound ε)
  | between (start stop : FrameBound ε)
  deriving DecidableEq

namespace FrameExtent

variable {ε δ : Type}

/-- Applies a function to the offsets of the bounds. -/
def map (f : ε → δ) : FrameExtent ε → FrameExtent δ
  | single bound => single (bound.map f)
  | between start stop => between (start.map f) (stop.map f)

/-- The offsets of the bounds, the start before the end. -/
def children : FrameExtent ε → List ε
  | single bound => bound.children
  | between start stop => start.children ++ stop.children

/-- A single bound as it is, two bounds behind `BETWEEN` with `AND` between them. -/
def text : FrameExtent String → String
  | single bound => bound.text
  | between start stop => "BETWEEN " ++ start.text ++ " AND " ++ stop.text

/-- The layout of an extent, piece by piece as its text. -/
def layout : FrameExtent Layout → Layout
  | single bound => bound.layout
  | between start stop => .token "BETWEEN " ++ start.layout ++ .token " AND " ++ stop.layout

/-- The JSON form: the two bounds of an interval are named fields. -/
def encode : FrameExtent Json → Json
  | single bound => .tagged "Single" bound.encode
  | between start stop => .tagged "Between" (.obj [("start", start.encode), ("end", stop.encode)])

/-- Reads the start and the end of an interval, both of which are required. -/
def decodeBetween (expr : Decoder ε) : Decoder (FrameExtent ε) :=
  Decoder.fields fun given => do
    return between (← given.required "start" (FrameBound.decode expr))
      (← given.required "end" (FrameBound.decode expr))

/-- Reads an extent by its tag: one bound, or the two of an interval. -/
def decode (expr : Decoder ε) : Decoder (FrameExtent ε) :=
  Decoder.tagged fun tag given =>
    match tag with
    | "Single" => (Decoder.payload (FrameBound.decode expr) given).map single
    | "Between" => Decoder.payload (decodeBetween expr) given
    | _ => none

end FrameExtent

/-- A frame. -/
structure Frame (ε : Type) where
  unit : FrameUnit
  extent : FrameExtent ε
  deriving DecidableEq

namespace Frame

variable {ε δ : Type}

/-- Applies a function to the offsets; the unit holds none. -/
def map (f : ε → δ) (frame : Frame ε) : Frame δ :=
  ⟨frame.unit, frame.extent.map f⟩

/-- The offsets in the extent. -/
def children (frame : Frame ε) : List ε :=
  frame.extent.children

/-- The unit and the extent. -/
def text (frame : Frame String) : String :=
  frame.unit.token ++ " " ++ frame.extent.text

/-- The layout of a frame: the word for its unit, then its extent. -/
def layout (frame : Frame Layout) : Layout :=
  .token (frame.unit.token ++ " ") ++ frame.extent.layout

/-- The JSON form of a frame, given those of its offsets. -/
def encode (frame : Frame Json) : Json :=
  .obj [("kind", frame.unit.encode), ("frame", frame.extent.encode)]

/-- Reads a frame, of which both the unit and the extent are required. -/
def decode (expr : Decoder ε) : Decoder (Frame ε) :=
  Decoder.record ["kind", "frame"] fun given => do
    return ⟨← given.required "kind" FrameUnit.decode,
      ← given.required "frame" (FrameExtent.decode expr)⟩

end Frame

end SqlText
