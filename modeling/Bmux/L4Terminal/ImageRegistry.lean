import Bmux.Core.TreeMap

/-!
# The images of a pane

`packages/image/src/registry.rs` keeps the images of a pane: those shown (`images`), all retained
placements with their rows (`history`), a log of changes for clients that poll, and the state of the
kitty graphics protocol. While the alternate screen is active the normal screen's state is set aside.

Decoding, cropping and encoding of pixels are parameters (`Codec`): they may fail, and nothing else
here depends on what they return.
-/
namespace Bmux.Image
open Std (ExtTreeMap)

abbrev Bytes := List UInt8

inductive ImageProtocol where
  | sixel | kittyGraphics | iTerm2
  deriving DecidableEq, Repr

inductive PixelFormat where
  | rgb8 | rgba8 | png
  deriving DecidableEq, Repr

structure PixelBuffer where
  width : Nat
  height : Nat
  format : PixelFormat
  data : Bytes
  deriving DecidableEq, Repr

structure ImagePayload where
  raw : Option Bytes
  pixels : Option PixelBuffer
  deriving DecidableEq, Repr

def ImagePayload.bytes (p : ImagePayload) : Nat :=
  (p.raw.map List.length).getD 0 + (p.pixels.map fun pixels => pixels.data.length).getD 0

structure ImagePosition where
  row : Nat
  col : Nat
  deriving DecidableEq, Repr

structure ImageCellSize where
  rows : Nat
  cols : Nat
  deriving DecidableEq, Repr

structure ImagePixelSize where
  width : Nat
  height : Nat
  deriving DecidableEq, Repr

structure PaneImage where
  id : Nat
  protocol : ImageProtocol
  payload : ImagePayload
  position : ImagePosition
  cellSize : ImageCellSize
  pixelSize : ImagePixelSize
  deriving DecidableEq, Repr

inductive ChangeLogEntry where
  | added (sequence : Nat) (image : PaneImage)
  | removed (sequence : Nat) (imageId : Nat)
  deriving DecidableEq, Repr

def ChangeLogEntry.sequence : ChangeLogEntry → Nat
  | .added sequence _ => sequence
  | .removed sequence _ => sequence

def ChangeLogEntry.imageId : ChangeLogEntry → Nat
  | .added _ image => image.id
  | .removed _ imageId => imageId

inductive KittyFormat where
  | rgb | rgba | png
  deriving DecidableEq, Repr

def KittyFormat.channels : KittyFormat → Option Nat
  | .rgb => some 3
  | .rgba => some 4
  | .png => none

def KittyFormat.pixelFormat : KittyFormat → PixelFormat
  | .rgb => .rgb8
  | .rgba => .rgba8
  | .png => .png

structure KittyTransmittedImage where
  format : KittyFormat
  data : Bytes
  width : Nat
  height : Nat

structure KittyChunkAccumulator where
  data : Bytes
  format : KittyFormat
  width : Nat
  height : Nat

structure KittyPlacement where
  imageId : Nat
  placementId : Nat
  position : ImagePosition
  cellSize : ImageCellSize

inductive KittyDeleteSpecifier where
  | all
  | allAndData
  | byImageId (id : Nat)
  | byImageIdAndData (id : Nat)
  | byPlacementId (imageId placementId : Nat)
  | byPlacementIdAndData (imageId placementId : Nat)

inductive KittyCommand where
  | transmit (imageId : Nat) (format : KittyFormat) (data : Bytes) (width height : Nat) (moreChunks : Bool)
  | place (placement : KittyPlacement)
  | delete (specifier : KittyDeleteSpecifier)
  | query (imageId : Nat)

inductive ImageEvent where
  | sixelImage (data : Bytes) (position : ImagePosition) (pixelSize : ImagePixelSize)
  | kittyCommand (command : KittyCommand)
  | iTerm2Image (data : Bytes) (position : ImagePosition)

/-- The inline flag of an iTerm2 image and its dimensions where they are plain numbers. -/
structure ITerm2Params where
  inlined : Bool
  width : Option Nat
  height : Option Nat

structure Codec where
  /-- `clipping::decoded` and `crop_to_visible`: the rows left after skipping some -/
  crop : PaneImage → Nat → Nat → Except Unit (PixelBuffer × ImagePixelSize)
  /-- `encode_projected_payload` -/
  encodeProjectedPayload : PaneImage → Except Unit Bytes
  /-- `PngEncoder::write_image` -/
  encodePng : PixelBuffer → Option Bytes
  /-- `iterm2::parse_body` -/
  parseBody : Bytes → Option (ITerm2Params × Bytes)
  /-- `iterm2::estimate_pixel_size` -/
  estimatePixelSize : Bytes → Option ImagePixelSize

abbrev Placements := ExtTreeMap (Nat × Nat) Nat (compareLex (compareOn Prod.fst) (compareOn Prod.snd))

/-- The fields of `ImageRegistry` that a screen has of its own.
mirrors packages/image/src/registry.rs:33-61 -/
structure Screen where
  images : List PaneImage
  history : ExtTreeMap Nat (PaneImage × Int) compare
  viewportHeight : Nat
  nextId : Nat
  sequence : Nat
  maxImages : Nat
  maxBytes : Nat
  changeLog : List ChangeLogEntry
  maxChangeLog : Nat
  kittyTransmitted : ExtTreeMap Nat KittyTransmittedImage compare
  kittyPlacements : Placements
  kittyPendingChunks : ExtTreeMap Nat KittyChunkAccumulator compare

/-- The hidden normal screen has no screen hidden below it. -/
structure ImageRegistry where
  screen : Screen
  normalScreen : Option Screen

def Screen.new (maxImages maxBytes : Nat) : Screen :=
  { images := [], history := ∅, viewportHeight := 65535, nextId := 1, sequence := 0, maxImages, maxBytes
    changeLog := [], maxChangeLog := 1000
    kittyTransmitted := ∅, kittyPlacements := ∅, kittyPendingChunks := ∅ }

/-- `ImageRegistry::new(..).with_viewport_height(..)`
mirrors packages/image/src/registry.rs:169-195 -/
def ImageRegistry.new (maxImages maxBytes viewportHeight : Nat) : ImageRegistry :=
  { screen := { Screen.new maxImages maxBytes with viewportHeight }, normalScreen := none }

def saturate (i : Int) : Int := max (-(2 ^ 63)) (min (2 ^ 63 - 1) i)

def PaneImage.moved (image : PaneImage) (p : Int × Nat) : PaneImage × Int :=
  ({ image with position := { image.position with col := p.2 } }, p.1)

namespace Screen

variable (s : Screen)

def compactChangeLog : Screen :=
  if s.changeLog.length > s.maxChangeLog then
    { s with changeLog := s.changeLog.drop (s.changeLog.length - s.maxChangeLog / 2) }
  else s

def totalBytes : Nat := (s.images.map fun image => image.payload.bytes).sum

def historyBytes : Nat := (s.history.toList.map fun e => e.2.1.payload.bytes).sum

def logRemoved (imageId : Nat) : Screen :=
  { s with sequence := s.sequence + 1, changeLog := s.changeLog ++ [.removed (s.sequence + 1) imageId] }

def dropImages (exceeds : Screen → Bool) (s : Screen) : List PaneImage → Screen
  | [] => s
  | removed :: images =>
    if exceeds s then dropImages exceeds ({ s with images }.logRemoved removed.id) images else s

def dropHistory (exceeds : Screen → Bool) (s : Screen) : List Nat → Screen
  | [] => s
  | id :: ids =>
    if exceeds s then
      dropHistory exceeds
        ({ s with history := s.history.erase id, images := s.images.filter fun image =>
          image.id ≠ id }.logRemoved id) ids
    else s

/-- The loops take the first image, or the first key, until a limit is met.
mirrors packages/image/src/registry.rs:353-403 -/
def enforceLimits : Screen :=
  let s := dropImages (fun s => s.images.length > s.maxImages) s s.images
  let s := if s.maxBytes > 0 then dropImages (fun s => s.totalBytes > s.maxBytes) s s.images else s
  let s := dropHistory (fun s => s.history.size > s.maxImages || (s.maxBytes > 0 && s.historyBytes > s.maxBytes)) s
    s.history.keys
  { s with kittyPlacements := s.kittyPlacements.filter fun _ id => s.history.contains id }.compactChangeLog

def addImage (protocol : ImageProtocol) (payload : ImagePayload) (position : ImagePosition)
    (cellSize : ImageCellSize) (pixelSize : ImagePixelSize) : Screen :=
  let image : PaneImage := { id := s.nextId, protocol, payload, position, cellSize, pixelSize }
  let s := { s with
    nextId := s.nextId + 1
    sequence := s.sequence + 1
    history := s.history.insert s.nextId (image, (position.row : Int)) }
  let s := if position.row < s.viewportHeight then
    { s with changeLog := s.changeLog ++ [.added s.sequence image], images := s.images ++ [image] } else s
  s.compactChangeLog.enforceLimits

variable (codec : Codec)

/-- Only the rows in the viewport are kept of the pixels. -/
def cropped (image projected : PaneImage) (skipped visibleRows : Nat) : Except Unit PaneImage :=
  if skipped > 0 ∨ visibleRows ≠ image.cellSize.rows then
    (codec.crop image skipped visibleRows).map fun r =>
      { projected with payload := { raw := none, pixels := some r.1 }, pixelSize := r.2 }
  else .ok projected

def reencoded (projected : PaneImage) : Except Unit PaneImage :=
  if projected.payload.raw.isNone ∧ projected.payload.pixels.isSome then
    (codec.encodeProjectedPayload projected).map fun raw =>
      { projected with payload := { projected.payload with raw := some raw } }
  else .ok projected

/-- An image as it shows in the viewport, if it does.
mirrors packages/image/src/registry.rs:670-714 -/
def projectImage (offset : Int) (height : Nat) (image : PaneImage) (row : Int) :
    Option (Except Unit PaneImage) :=
  let top := saturate (row + offset)
  let bottom := saturate (top + image.cellSize.rows)
  if top ≥ height ∨ bottom ≤ 0 then none
  else
    let skipped := min (max (-top) 0).toNat 65535
    let visible := min bottom height - max top 0
    let visibleRows := if 0 ≤ visible ∧ visible ≤ 65535 then visible.toNat else 0
    let projected := { image with position := { image.position with row := min (max top 0).toNat 65535 } }
    some do
      let projected ← cropped codec image projected skipped visibleRows
      reencoded codec { projected with cellSize := { projected.cellSize with rows := visibleRows } }

def projectViewport (s : Screen) (offset : Int) (height : Nat) : Except Unit (List PaneImage) :=
  if height = 0 then .ok []
  else (s.history.toList.filterMap fun e => projectImage codec offset height e.2.1 e.2.2).mapM id

variable (imageId : Nat) (format : KittyFormat) (data : Bytes) (width height : Nat) (projected : List PaneImage)

/-- Show a new projection: images that are gone and all that are shown are logged under one number.
mirrors packages/image/src/registry.rs:447-464 -/
def showProjection : Screen :=
  let sequence := s.sequence + 1
  let gone := s.images.filter fun old => !projected.any fun image => image.id = old.id
  { s with
    sequence
    changeLog := s.changeLog ++ gone.map (fun (old : PaneImage) => ChangeLogEntry.removed sequence old.id) ++
      projected.map (ChangeLogEntry.added sequence)
    images := projected }.compactChangeLog

/-- An error puts the rows back.
mirrors packages/image/src/registry.rs:427-466 -/
def scrollUp (s : Screen) (lines : Nat) : Screen :=
  if lines = 0 then s
  else
    let moved := { s with history := s.history.map fun _ (e : PaneImage × Int) => (e.1, saturate (e.2 - lines)) }
    match moved.projectViewport codec 0 s.viewportHeight with
    | .error () => s
    | .ok projected => moved.showProjection projected

def commitAlternateProjection : Screen :=
  if projected = s.images then s else s.showProjection projected

/-- The normal screen's part of `remap_positions`.
mirrors packages/image/src/registry.rs:538-575 -/
def remapMain (s : Screen) (height : Nat) (map : Int → Nat → Except Unit (Int × Nat)) :
    Except Unit Screen := do
  let positions ← s.history.toList.mapM fun e => (map e.2.2 e.2.1.position.col).map fun p => (e.1, e.2.1.moved p)
  let moved := { s with history := s.history.insertMany positions }
  let projected ← moved.projectViewport codec 0 height
  return { moved.showProjection projected with viewportHeight := height }

def evictHistory (retainedRows : Nat) : Screen :=
  let oldest := -(min (retainedRows : Int) (2 ^ 63 - 1))
  let history := s.history.filter fun _ e => saturate (e.2 + e.1.cellSize.rows) > oldest
  { s with
    history
    sequence := if history.size ≠ s.history.size then s.sequence + 1 else s.sequence
    kittyPlacements := s.kittyPlacements.filter fun _ id => history.contains id }

def hideAll : Screen :=
  { s with
    sequence := s.sequence + 1
    changeLog := s.changeLog ++ s.images.map fun image => .removed (s.sequence + 1) image.id
    images := [] }

def clearDisplay : Screen :=
  let retained := s.history.filter fun _ e => saturate (e.2 + e.1.cellSize.rows) ≤ 0
  { s.hideAll with
    history := retained
    kittyPlacements := s.kittyPlacements.filter fun _ id => retained.contains id }.compactChangeLog

def clear : Screen :=
  { { s.hideAll with history := ∅ }.compactChangeLog with
    kittyTransmitted := ∅, kittyPlacements := ∅, kittyPendingChunks := ∅ }

def removeImage (id : Nat) : Screen :=
  let images := s.images.filter fun image => image.id ≠ id
  let t := { s with
    history := s.history.erase id
    kittyPlacements := s.kittyPlacements.filter fun _ retained => retained ≠ id
    images }
  if images.length ≠ s.images.length ∨ s.history.contains id then (t.logRemoved id).compactChangeLog else t

/-! ## Kitty graphics -/

def pixelSizeToCells (pixelSize : ImagePixelSize) (cellPixelWidth cellPixelHeight : Nat) : ImageCellSize :=
  if cellPixelWidth = 0 ∨ cellPixelHeight = 0 then { rows := 1, cols := 1 }
  else
    { rows := (pixelSize.height % 65536 + cellPixelHeight - 1) / cellPixelHeight
      cols := (pixelSize.width % 65536 + cellPixelWidth - 1) / cellPixelWidth }

def aspectCells (cells cellPixels pixels otherPixels otherCellPixels : Nat) : Nat :=
  min ((cells * max cellPixels 1 * pixels + (max otherPixels 1 * max otherCellPixels 1) - 1) /
    (max otherPixels 1 * max otherCellPixels 1)) 65535

/-- mirrors packages/image/src/registry.rs:985-1015 -/
def placementCells (requested : ImageCellSize) (pixelSize : ImagePixelSize) (cellPixelWidth cellPixelHeight : Nat) :
    ImageCellSize :=
  let cells := pixelSizeToCells pixelSize cellPixelWidth cellPixelHeight
  { rows :=
      if requested.rows > 0 then requested.rows
      else if requested.cols > 0 then
        aspectCells requested.cols cellPixelWidth pixelSize.height pixelSize.width cellPixelHeight
      else cells.rows
    cols :=
      if requested.cols > 0 then requested.cols
      else if requested.rows > 0 then
        aspectCells requested.rows cellPixelHeight pixelSize.width pixelSize.height cellPixelWidth
      else cells.cols }

/-- Raw pixels have to be exactly as many bytes as their dimensions say. -/
def kittyComplete : Bool :=
  match format.channels with
  | none => true
  | some channels => width * height * channels ≠ 0 ∧ data.length = width * height * channels

/-- The end of a command: whether the uploads are trimmed after it, or it returned early. -/
abbrev Handled := Screen × Bool

/-- The last chunk of a transmission joined to those before it, which set the format. -/
def joined : KittyTransmittedImage :=
  match s.kittyPendingChunks[imageId]? with
  | some acc => { format := acc.format, data := acc.data ++ data, width := acc.width, height := acc.height }
  | none => { format, data, width, height }

/-- The last chunk of a transmission.
mirrors packages/image/src/registry.rs:901-952 -/
def finishTransmission : Handled :=
  let whole := s.joined imageId format data width height
  let t := { s with kittyPendingChunks := s.kittyPendingChunks.erase imageId }
  if s.maxBytes > 0 ∧ whole.data.length > s.maxBytes then (t, false)
  else if !kittyComplete whole.format whole.data whole.width whole.height then (t, false)
  else ({ t with kittyTransmitted := t.kittyTransmitted.insert imageId whole, sequence := t.sequence + 1 }, true)

/-- A chunk with more to come.
mirrors packages/image/src/registry.rs:953-977 -/
def extendTransmission : Handled :=
  let acc := s.kittyPendingChunks[imageId]?.getD { data := [], format, width, height }
  if s.maxBytes > 0 ∧ acc.data.length + data.length > s.maxBytes then
    ({ s with kittyPendingChunks := s.kittyPendingChunks.erase imageId }, false)
  else ({ s with kittyPendingChunks := s.kittyPendingChunks.insert imageId { acc with data := acc.data ++ data } },
    true)

/-- The payload of a placement: PNG as transmitted, or encoded from raw pixels.
mirrors packages/image/src/registry.rs:1018-1054 -/
def placementPayload (transmitted : KittyTransmittedImage) : Option ImagePayload := do
  let pixels : PixelBuffer :=
    { data := transmitted.data, width := transmitted.width, height := transmitted.height
      format := transmitted.format.pixelFormat }
  let raw ←
    match transmitted.format.channels with
    | none => some pixels.data
    | some channels =>
      if pixels.width * pixels.height * channels ≠ pixels.data.length then none else codec.encodePng pixels
  return { raw := some raw, pixels := some pixels }

def deletePlacement (imageId placementId : Nat) : Screen :=
  match s.kittyPlacements[(imageId, placementId)]? with
  | some retained => { s with kittyPlacements := s.kittyPlacements.erase (imageId, placementId) }.removeImage retained
  | none => s

/-- mirrors packages/image/src/registry.rs:978-1074 -/
def place (s : Screen) (placement : KittyPlacement) (cellPixelWidth cellPixelHeight : Nat) : Handled :=
  match s.kittyTransmitted[placement.imageId]? with
  | none => (s, true)
  | some transmitted =>
    match placementPayload codec transmitted with
    | none => (s, false)
    | some payload =>
      let pixelSize : ImagePixelSize := { width := transmitted.width, height := transmitted.height }
      let s := s.deletePlacement placement.imageId placement.placementId
      let retained := s.nextId
      let s := s.addImage .kittyGraphics payload placement.position
        (placementCells placement.cellSize pixelSize cellPixelWidth cellPixelHeight) pixelSize
      (if s.images.any fun image => image.id = retained then
        { s with kittyPlacements := s.kittyPlacements.insert (placement.imageId, placement.placementId) retained }
      else s, true)

def releaseUploads (ids : List Nat) : Screen :=
  { s with
    kittyTransmitted := ids.foldl (fun m id => m.erase id) s.kittyTransmitted
    kittyPendingChunks := ids.foldl (fun m id => m.erase id) s.kittyPendingChunks }

def removeImages (ids : List Nat) : Screen := ids.foldl removeImage s

/-- mirrors packages/image/src/registry.rs:1075-1133 -/
def delete : KittyDeleteSpecifier → Screen
  | .all => s.removeImages s.kittyPlacements.values
  | .allAndData => (s.removeImages s.kittyPlacements.values).releaseUploads (s.kittyPlacements.keys.map Prod.fst)
  | .byImageId id => s.removeImages ((s.kittyPlacements.toList.filter fun e => e.1.1 = id).map Prod.snd)
  | .byImageIdAndData id =>
    (s.releaseUploads [id]).removeImages ((s.kittyPlacements.toList.filter fun e => e.1.1 = id).map Prod.snd)
  | .byPlacementId imageId placementId => s.deletePlacement imageId placementId
  | .byPlacementIdAndData imageId placementId =>
    let s := s.deletePlacement imageId placementId
    if s.kittyPlacements.keys.any fun key => key.1 = imageId then s else s.releaseUploads [imageId]

def uploadLimit : Nat := if s.maxBytes = 0 then 64 * 1024 * 1024 else s.maxBytes

def uploadBytes : Nat :=
  (s.kittyTransmitted.values.map fun image => image.data.length).sum +
    (s.kittyPendingChunks.values.map fun chunk => chunk.data.length).sum

/-- A pass forgets at least one upload, so the number of uploads is enough passes.
mirrors packages/image/src/registry.rs:1143-1185 -/
def trimUploads : Nat → Screen → Screen
  | 0, s => s
  | passes + 1, s =>
    if s.uploadBytes ≤ s.uploadLimit ∧ s.kittyTransmitted.size + s.kittyPendingChunks.size ≤ max s.maxImages 1 then s
    else
      let unplaced := (s.kittyTransmitted.keys ++ s.kittyPendingChunks.keys).filter fun id =>
        !s.kittyPlacements.keys.any fun key => key.1 = id
      match unplaced.min? with
      | none => s
      | some id => trimUploads passes (s.releaseUploads [id])

def trimKittyUploads : Screen := trimUploads (s.kittyTransmitted.size + s.kittyPendingChunks.size) s

def handleKittyCommand (s : Screen) (command : KittyCommand) (cellPixelWidth cellPixelHeight : Nat) : Screen :=
  let handled : Handled :=
    match command with
    | .transmit imageId format data width height false => s.finishTransmission imageId format data width height
    | .transmit imageId format data width height true => s.extendTransmission imageId format data width height
    | .place placement => s.place codec placement cellPixelWidth cellPixelHeight
    | .delete specifier => (s.delete specifier, true)
    | .query _ => (s, true)
  if handled.2 then handled.1.trimKittyUploads else handled.1

/-- The cells of an iTerm2 image: bare numeric dimensions are cells. -/
def iTerm2Cells (params : ITerm2Params) (cells : ImageCellSize) : ImageCellSize :=
  { rows := (params.height.filter (0 < ·)).getD cells.rows, cols := (params.width.filter (0 < ·)).getD cells.cols }

/-- mirrors packages/image/src/registry.rs:238-313 -/
def handleEvent (s : Screen) (event : ImageEvent) (cellPixelWidth cellPixelHeight : Nat) : Screen :=
  match event with
  | .sixelImage data position pixelSize =>
    s.addImage .sixel { raw := some data, pixels := none } position
      (pixelSizeToCells pixelSize cellPixelWidth cellPixelHeight) pixelSize
  | .kittyCommand command => s.handleKittyCommand codec command cellPixelWidth cellPixelHeight
  | .iTerm2Image data position =>
    match codec.parseBody data with
    | none => s
    | some (params, bytes) =>
      if !params.inlined then s
      else
        match codec.estimatePixelSize bytes with
        | none => s
        | some pixelSize =>
          s.addImage .iTerm2 { raw := some data, pixels := none } position
            (iTerm2Cells params (pixelSizeToCells pixelSize cellPixelWidth cellPixelHeight)) pixelSize

end Screen

/-! ## The registry -/

namespace ImageRegistry

/-- The other screen comes up: its numbers go on from the ones so far, and everything shown is logged.
mirrors packages/image/src/registry.rs:199-231 -/
def switchTo (shown : Screen) (old : Screen) : Screen :=
  let sequence := old.sequence + 1
  { shown with
    nextId := old.nextId
    sequence
    changeLog := old.changeLog ++ old.images.map (fun (image : PaneImage) =>
      ChangeLogEntry.removed sequence image.id) ++
      shown.images.map (ChangeLogEntry.added sequence) }.compactChangeLog

variable (r : ImageRegistry)

def setAlternateScreen (alternate : Bool) : ImageRegistry :=
  match r.normalScreen, alternate with
  | none, true =>
    { screen := switchTo { Screen.new r.screen.maxImages r.screen.maxBytes with
      viewportHeight := r.screen.viewportHeight } r.screen
      normalScreen := some { r.screen with changeLog := [] } }
  | some normal, false => { screen := switchTo normal r.screen, normalScreen := none }
  | _, _ => r

def resizeAlternateViewport (codec : Codec) (r : ImageRegistry) (height : Nat) : ImageRegistry :=
  match r.normalScreen with
  | none =>
    if r.screen.history.isEmpty then { r with screen := { r.screen with viewportHeight := height } } else r
  | some normal =>
    match r.screen.projectViewport codec 0 height with
    | .error () => r
    | .ok projected =>
      { screen := { r.screen.commitAlternateProjection projected with viewportHeight := height }
        normalScreen := some (if normal.history.isEmpty then { normal with viewportHeight := height } else normal) }

/-- mirrors packages/image/src/registry.rs:516-575 -/
def remapPositions (codec : Codec) (r : ImageRegistry) (height : Nat) (map : Int → Nat → Except Unit (Int × Nat)) :
    ImageRegistry :=
  match r.normalScreen with
  | none =>
    match r.screen.remapMain codec height map with
    | .error () => r
    | .ok screen => { r with screen }
  | some normal =>
    match r.screen.projectViewport codec 0 height, normal.remapMain codec height map with
    | .ok projected, .ok normal =>
      { screen := { r.screen.commitAlternateProjection projected with viewportHeight := height },
        normalScreen := some normal }
    | _, _ => r

def evictMainHistory (retainedRows : Nat) : ImageRegistry :=
  match r.normalScreen with
  | some normal => { r with normalScreen := some (normal.evictHistory retainedRows) }
  | none => { r with screen := r.screen.evictHistory retainedRows }

def reset : ImageRegistry := { screen := r.screen.clear, normalScreen := none }

end ImageRegistry

inductive Op where
  | handleEvent (event : ImageEvent) (cellPixelWidth cellPixelHeight : Nat)
  | scrollUp (lines : Nat)
  | resizeAlternateViewport (height : Nat)
  | remapPositions (height : Nat) (map : Int → Nat → Except Unit (Int × Nat))
  | setAlternateScreen (alternate : Bool)
  | evictMainHistory (retainedRows : Nat)
  | evictHistory (retainedRows : Nat)
  | clearDisplay
  | clear
  | reset

def ImageRegistry.apply (codec : Codec) (r : ImageRegistry) : Op → ImageRegistry
  | .handleEvent event w h => { r with screen := r.screen.handleEvent codec event w h }
  | .scrollUp lines => { r with screen := r.screen.scrollUp codec lines }
  | .resizeAlternateViewport height => r.resizeAlternateViewport codec height
  | .remapPositions height map => r.remapPositions codec height map
  | .setAlternateScreen alternate => r.setAlternateScreen alternate
  | .evictMainHistory retainedRows => r.evictMainHistory retainedRows
  | .evictHistory retainedRows => { r with screen := r.screen.evictHistory retainedRows }
  | .clearDisplay => { r with screen := r.screen.clearDisplay }
  | .clear => { r with screen := r.screen.clear }
  | .reset => r.reset

/-! ## Deltas -/

structure ImageDelta where
  added : List PaneImage
  removed : List Nat
  sequence : Nat
  deriving DecidableEq, Repr

def Screen.deltaSince (s : Screen) (since : Nat) : ImageDelta :=
  if since = 0 then { added := s.images, removed := [], sequence := s.sequence }
  else if since ≥ s.sequence then { added := [], removed := [], sequence := s.sequence }
  else
    let oldest := (s.changeLog.head?.map ChangeLogEntry.sequence).getD 0
    if since < oldest then { added := s.images, removed := [], sequence := s.sequence }
    else
      let touched := (((s.changeLog.filter fun e => e.sequence > since).map ChangeLogEntry.imageId).dedup).mergeSort
      { added := touched.filterMap fun id => s.images.find? fun image => image.id = id
        removed := touched
        sequence := s.sequence }

/-- What the attach client keeps of a pane's images. -/
structure Client where
  images : List PaneImage
  sequence : Nat
  deriving DecidableEq, Repr

/-- mirrors packages/cli/src/runtime/attach/runtime.rs:6423-6437 -/
def Client.receive (c : Client) (delta : ImageDelta) : Client :=
  if !delta.added.isEmpty || !delta.removed.isEmpty then
    { images := (c.images.filter fun image => !delta.removed.contains image.id) ++ delta.added,
      sequence := delta.sequence }
  else c

def Client.poll (c : Client) (r : ImageRegistry) : Client := c.receive (r.screen.deltaSince c.sequence)

end Bmux.Image
