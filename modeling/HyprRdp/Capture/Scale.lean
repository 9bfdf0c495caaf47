import HyprRdp.Display.Geometry

namespace HyprRdp

inductive PixelFormat
  | aRgb32 | xRgb32 | aBgr32 | xBgr32 | bgrA32 | bgrX32 | rgbA32 | rgbX32
  deriving DecidableEq, Repr

/-- The part of the layout snapshot that frame preparation reads. -/
structure OutputLayoutSnapshot where
  presentationGeometry : PresentationGeometry
  geometryGeneration : Nat

structure PreparedPresentationFrame where
  data : Bytes
  width : Nat
  height : Nat
  stride : Nat
  damageRegions : List Region
  geometryGeneration : Nat

/-- `Option::context`: a missing value becomes an error with this text. -/
def context {α : Type} (value : Option α) (message : String) : Except String α :=
  match value with
  | some v => .ok v
  | none => .error message

theorem context_bind {α β : Type} (value : Option α) (message : String) (next : α → Except String β) :
    (context value message >>= next) = match value with | some v => next v | none => .error message := by
  cases value <;> rfl

def checkedMul (bits a b : Nat) : Option Nat := if a * b < 2 ^ bits then some (a * b) else none

def barByte (pixelFormat : PixelFormat) (channel : Nat) : UInt8 :=
  match pixelFormat with
  | .aRgb32 | .aBgr32 => if channel = 0 then 255 else 0
  | .bgrA32 | .rgbA32 => if channel = 3 then 255 else 0
  | .xRgb32 | .xBgr32 | .bgrX32 | .rgbX32 => 0

/-- Only whole pixels are filled; a rest of one to three bytes stays as it is. -/
def fillBlackBars (output : Bytes) (pixelFormat : PixelFormat) : Bytes :=
  { output with
    byte := fun i => if i < output.len / 4 * 4 then barByte pixelFormat (i % 4) else output.byte i }

def boxStart (rel source visible : Nat) : Nat := rel * source / visible

def boxStop (rel source visible : Nat) : Nat :=
  min (max ((rel + 1) * source / visible) (boxStart rel source visible + 1)) source

/-- The `u64` accumulator of one channel over the box. -/
def boxSum (data : Bytes) (stride sy0 sy1 sx0 sx1 channel : Nat) : Nat :=
  (List.range' sy0 (sy1 - sy0)).foldl
    (fun sum sy =>
      (List.range' sx0 (sx1 - sx0)).foldl
        (fun sum sx => (sum + (data.byte (sy * stride + sx * 4 + channel)).toNat) % 2 ^ 64) sum)
    0

/-- One channel of the output pixel in column `relX` and row `relY` of the
visible rectangle: the rounded mean of the source box. -/
def boxAverage (data : Bytes) (stride : Nat) (g : PresentationGeometry) (relX relY channel : Nat) : UInt8 :=
  let sy0 := boxStart relY g.source.height g.visible.height
  let sy1 := boxStop relY g.source.height g.visible.height
  let sx0 := boxStart relX g.source.width g.visible.width
  let sx1 := boxStop relX g.source.width g.visible.width
  let count := (sy1 - sy0) * (sx1 - sx0)
  UInt8.ofNat ((boxSum data stride sy0 sy1 sx0 sx1 channel + count / 2) % 2 ^ 64 / count)

def writePixel (output : Bytes) (offset : Nat) (pixel : Nat → UInt8) : Bytes :=
  (((output.set offset (pixel 0)).set (offset + 1) (pixel 1)).set (offset + 2) (pixel 2)).set (offset + 3) (pixel 3)

/-- The pixels of a rectangle, row by row. -/
def Rect.pixels (r : Rect) : List (Nat × Nat) :=
  (List.range' r.y (r.bottom - r.y)).flatMap fun py => (List.range' r.x (r.right - r.x)).map fun px => (px, py)

def copyScaledPixel (sourceData : Bytes) (sourceStride outputStride : Nat) (g : PresentationGeometry)
    (output : Bytes) (pixel : Nat × Nat) : Bytes :=
  writePixel output (pixel.2 * outputStride + pixel.1 * 4)
    (boxAverage sourceData sourceStride g (pixel.1 - g.visible.x) (pixel.2 - g.visible.y))

def copyScaledVisibleRect (sourceData : Bytes) (sourceStride : Nat) (output : Bytes) (outputStride : Nat)
    (g : PresentationGeometry) : Except String Bytes := do
  let sourceRequired ← context (checkedMul 64 sourceStride g.source.height) "source frame size overflow"
  if sourceData.len < sourceRequired then
    .error s!"source frame too small: got {sourceData.len} bytes, need {sourceRequired}"
  else
    let sourceRowBytes ← context (checkedMul 64 g.source.width 4) "source row size overflow"
    if sourceStride < sourceRowBytes then
      .error s!"source stride {sourceStride} too small for width {g.source.width}"
    else .ok (g.visible.pixels.foldl (copyScaledPixel sourceData sourceStride outputStride g) output)

/-- The snapshot's geometry when the source still has the size it was made
for, else one fitted to the size at hand. -/
def OutputLayoutSnapshot.geometryFor (snapshot : OutputLayoutSnapshot) (source : Size) : PresentationGeometry :=
  if snapshot.presentationGeometry.source = source then snapshot.presentationGeometry
  else .new source snapshot.presentationGeometry.presentation

def preparePresentationFrame (sourceData : Bytes) (sourceWidth sourceHeight sourceStride : Nat)
    (pixelFormat : PixelFormat) (sourceDamageRegions : List Region) (snapshot : OutputLayoutSnapshot) :
    Except String PreparedPresentationFrame := do
  let source ← context (Size.new sourceWidth sourceHeight) "invalid source size"
  let presentation := snapshot.presentationGeometry.presentation
  let geometry := snapshot.geometryFor source
  let damageRegions := geometry.mapSourceDamage sourceDamageRegions
  if geometry.isIdentity then
    let minLen ← context (checkedMul 32 sourceStride sourceHeight) "source frame size overflow"
    if sourceData.len < minLen then
      .error s!"source frame too small: got {sourceData.len} bytes, need {minLen}"
    else
      .ok
        { data := sourceData
          width := sourceWidth
          height := sourceHeight
          stride := sourceStride
          damageRegions
          geometryGeneration := snapshot.geometryGeneration }
  else
    let stride ← context (checkedMul 32 presentation.width 4) "presentation stride overflow"
    let len ← context (checkedMul 32 stride presentation.height) "presentation frame size overflow"
    let output ← copyScaledVisibleRect sourceData sourceStride (fillBlackBars (.zeros len) pixelFormat) stride geometry
    .ok
      { data := output
        width := presentation.width
        height := presentation.height
        stride
        damageRegions
        geometryGeneration := snapshot.geometryGeneration }

structure PresentationGenerationAction where
  refreshProcessor : Bool
  nextGeneration : Nat
  damageRegions : List Region

/-- The cast `as i32`. -/
def asI32 (n : Nat) : Int := (n : Int).bmod (2 ^ 32)

def outputDownscalingGenerationAction (currentGeneration : Nat) (prepared : PreparedPresentationFrame) :
    PresentationGenerationAction :=
  if prepared.geometryGeneration ≠ currentGeneration then
    { refreshProcessor := true
      nextGeneration := prepared.geometryGeneration
      damageRegions := [⟨0, 0, asI32 prepared.width, asI32 prepared.height⟩] }
  else
    { refreshProcessor := false
      nextGeneration := currentGeneration
      damageRegions := prepared.damageRegions }

/-- Width, height and stride of the frames that a layout gives. -/
def presentationFrameShape (sourceWidth sourceHeight sourceStride : Nat) (snapshot : OutputLayoutSnapshot) :
    Except String (Nat × Nat × Nat) := do
  let source ← context (Size.new sourceWidth sourceHeight) "invalid source size"
  let presentation := snapshot.presentationGeometry.presentation
  if (snapshot.geometryFor source).isIdentity then .ok (sourceWidth, sourceHeight, sourceStride)
  else
    let stride ← context (checkedMul 32 presentation.width 4) "presentation stride overflow"
    .ok (presentation.width, presentation.height, stride)

deriving instance DecidableEq for PresentationGeometry

/-- The generation is counted against the snapshot that is there when the new layout is published. -/
def OutputLayoutSnapshot.applyPrepared (current : Option OutputLayoutSnapshot) (geometry : PresentationGeometry) :
    OutputLayoutSnapshot where
  presentationGeometry := geometry
  geometryGeneration :=
    match current with
    | none => 0
    | some old =>
      if old.presentationGeometry = geometry then old.geometryGeneration
      else min (old.geometryGeneration + 1) (2 ^ 32 - 1)

theorem lt_boxStop {s rel source visible : Nat} : s < boxStop rel source visible ↔
    s < max ((rel + 1) * source / visible) (rel * source / visible + 1) ∧ s < source :=
  lt_min_iff

theorem boxSum_congr {a b : Bytes} {stride sy0 sy1 sx0 sx1 channel : Nat}
    (same : ∀ sy sx, sy0 ≤ sy → sy < sy1 → sx0 ≤ sx → sx < sx1 →
      a.byte (sy * stride + sx * 4 + channel) = b.byte (sy * stride + sx * 4 + channel)) :
    boxSum a stride sy0 sy1 sx0 sx1 channel = boxSum b stride sy0 sy1 sx0 sx1 channel := by
  unfold boxSum
  apply List.foldl_ext
  intro sum sy row
  apply List.foldl_ext
  intro sum sx column
  have rowIn := List.mem_range'_1.mp row
  have columnIn := List.mem_range'_1.mp column
  rw [same sy sx (by omega) (by omega) (by omega) (by omega)]

theorem boxAverage_congr {a b : Bytes} {stride : Nat} {g : PresentationGeometry} {relX relY channel : Nat}
    (bound : channel < 4)
    (same : ∀ sx sy, boxStart relX g.source.width g.visible.width ≤ sx →
      sx < boxStop relX g.source.width g.visible.width → boxStart relY g.source.height g.visible.height ≤ sy →
      sy < boxStop relY g.source.height g.visible.height → a.SamePixel b stride sx sy) :
    boxAverage a stride g relX relY channel = boxAverage b stride g relX relY channel := by
  unfold boxAverage
  dsimp only
  rw [boxSum_congr fun sy sx down down_lt across across_lt => same sx sy across across_lt down down_lt channel bound]

theorem writePixel_byte (output : Bytes) (offset : Nat) (pixel : Nat → UInt8) (i : Nat) :
    (writePixel output offset pixel).byte i =
      if offset ≤ i ∧ i < offset + 4 then pixel (i - offset) else output.byte i := by
  unfold writePixel Bytes.set
  dsimp only
  by_cases inside : offset ≤ i ∧ i < offset + 4
  · obtain ⟨c, rfl⟩ : ∃ c, i = offset + c := ⟨i - offset, by omega⟩
    have cases : c = 0 ∨ c = 1 ∨ c = 2 ∨ c = 3 := by omega
    rcases cases with rfl | rfl | rfl | rfl <;> simp
  · rw [if_neg inside, if_neg (by omega), if_neg (by omega), if_neg (by omega), if_neg (by omega)]

theorem Rect.mem_pixels {r : Rect} {px py : Nat} :
    (px, py) ∈ r.pixels ↔ r.x ≤ px ∧ px < r.right ∧ r.y ≤ py ∧ py < r.bottom := by
  unfold Rect.pixels
  simp only [List.mem_flatMap, List.mem_map, List.mem_range'_1, Prod.mk.injEq]
  constructor
  · rintro ⟨row, rowIn, column, columnIn, rfl, rfl⟩
    omega
  · intro inside
    exact ⟨py, by omega, px, by omega, rfl, rfl⟩

/-- The scaling loop: it sets the four bytes of one pixel, and rows of four bytes a pixel do not overlap. -/
def scaledPainting (sourceData : Bytes) (sourceStride width : Nat) (g : PresentationGeometry) :
    Painting Bytes (Nat × Nat) (Fin 4 → UInt8) where
  step := copyScaledPixel sourceData sourceStride (width * 4) g
  view output p c := output.byte (p.2 * (width * 4) + p.1 * 4 + c)
  value p c := boxAverage sourceData sourceStride g (p.1 - g.visible.x) (p.2 - g.visible.y) c
  valid p := p.1 < width
  hit := by
    intro output p
    funext c
    have bound := c.isLt
    rw [copyScaledPixel, writePixel_byte, if_pos (by omega), Nat.add_sub_cancel_left]
  miss := by
    intro output p p' valid valid' other
    funext c
    have bound := c.isLt
    rw [copyScaledPixel, writePixel_byte, if_neg]
    rintro ⟨above, below⟩
    have distance : p.2 * (width * 4) + (p.1 * 4 + c) = p'.2 * (width * 4) +
        (p'.1 * 4 + (p.2 * (width * 4) + p.1 * 4 + c - (p'.2 * (width * 4) + p'.1 * 4))) := by omega
    obtain ⟨rows, columns⟩ := offset_inj (by omega) (by omega) distance
    exact other (Prod.ext (by omega) rows)

theorem copyScaled_byte {sourceData : Bytes} {sourceStride width : Nat} {g : PresentationGeometry} (output : Bytes)
    (room : g.visible.right ≤ width) {px py c : Nat} (column : px < width) (channel : c < 4) :
    (g.visible.pixels.foldl (copyScaledPixel sourceData sourceStride (width * 4) g) output).byte
        (py * (width * 4) + px * 4 + c) =
      if (px, py) ∈ g.visible.pixels then
        boxAverage sourceData sourceStride g (px - g.visible.x) (py - g.visible.y) c
      else output.byte (py * (width * 4) + px * 4 + c) := by
  have inside : ∀ p ∈ g.visible.pixels, p.1 < width := by
    rintro ⟨qx, qy⟩ member
    have visible := Rect.mem_pixels.mp member
    dsimp only
    omega
  have painted := (scaledPainting sourceData sourceStride width g).foldl inside output (k := (px, py)) column
  have atChannel := congrFun painted ⟨c, channel⟩
  by_cases member : (px, py) ∈ g.visible.pixels
  · simpa only [scaledPainting, member, if_true] using atChannel
  · simpa only [scaledPainting, member, if_false] using atChannel

/-- Where the box of a presentation pixel meets no damage, the two sources give the same pixel. -/
theorem boxAverage_undamaged {a b : Bytes} {stride : Nat} {g : PresentationGeometry} (source : g.source.Moderate)
    (presentation : g.presentation.Moderate) {damage : List Region}
    (agree : ∀ sx sy, sx < g.source.width → sy < g.source.height → ¬ Covered damage sx sy → a.SamePixel b stride sx sy)
    {i j channel : Nat} (bound : channel < 4)
    (clean : ¬ Covered (g.mapSourceDamage damage) (g.visible.x + i) (g.visible.y + j)) :
    boxAverage a stride g i j channel = boxAverage b stride g i j channel := by
  apply boxAverage_congr bound
  intro sx sy across across_lt down down_lt
  obtain ⟨acrossBox, column⟩ := lt_boxStop.mp across_lt
  obtain ⟨downBox, row⟩ := lt_boxStop.mp down_lt
  apply agree sx sy column row
  intro damaged
  exact clean (PresentationGeometry.mapSourceDamage_covers source presentation column row damaged across acrossBox
    down downBox)

/-- What a successful preparation returns. -/
def prepared (sourceData : Bytes) (source : Size) (sourceStride : Nat) (pixelFormat : PixelFormat)
    (damage : List Region) (snapshot : OutputLayoutSnapshot) : PreparedPresentationFrame :=
  let g := snapshot.geometryFor source
  if g.isIdentity then
    ⟨sourceData, source.width, source.height, sourceStride, g.mapSourceDamage damage, snapshot.geometryGeneration⟩
  else
    let stride := g.presentation.width * 4
    let bars := fillBlackBars (.zeros (stride * g.presentation.height)) pixelFormat
    ⟨g.visible.pixels.foldl (copyScaledPixel sourceData sourceStride stride g) bars, g.presentation.width,
      g.presentation.height, stride, g.mapSourceDamage damage, snapshot.geometryGeneration⟩

@[simp] theorem OutputLayoutSnapshot.geometryFor_source (snapshot : OutputLayoutSnapshot) (source : Size) :
    (snapshot.geometryFor source).source = source := by
  unfold OutputLayoutSnapshot.geometryFor
  split
  · assumption
  · rfl

@[simp] theorem OutputLayoutSnapshot.geometryFor_presentation (snapshot : OutputLayoutSnapshot) (source : Size) :
    (snapshot.geometryFor source).presentation = snapshot.presentationGeometry.presentation := by
  unfold OutputLayoutSnapshot.geometryFor
  split <;> rfl

theorem checkedMul_eq_some {bits a b product : Nat} (run : checkedMul bits a b = some product) : product = a * b := by
  obtain ⟨_, same⟩ := Option.ite_none_right_eq_some.mp run
  exact (Option.some.inj same).symm

theorem copyScaledVisibleRect_cases (sourceStride outputStride : Nat) (output : Bytes) (g : PresentationGeometry) :
    (∃ message, ∀ data : Bytes, sourceStride * g.source.height ≤ data.len →
      copyScaledVisibleRect data sourceStride output outputStride g = .error message) ∨
    (∀ data : Bytes, sourceStride * g.source.height ≤ data.len →
      copyScaledVisibleRect data sourceStride output outputStride g =
        .ok (g.visible.pixels.foldl (copyScaledPixel data sourceStride outputStride g) output)) := by
  simp only [copyScaledVisibleRect, context_bind]
  cases frame : checkedMul 64 sourceStride g.source.height with
  | none => exact .inl ⟨_, fun _ _ => rfl⟩
  | some sourceRequired =>
    have required := checkedMul_eq_some frame
    cases row : checkedMul 64 g.source.width 4 with
    | none =>
      refine .inl ⟨"source row size overflow", fun data long => ?_⟩
      dsimp only
      rw [if_neg (by omega)]
    | some sourceRowBytes =>
      by_cases short : sourceStride < sourceRowBytes
      · refine .inl ⟨s!"source stride {sourceStride} too small for width {g.source.width}", fun data long => ?_⟩
        dsimp only
        rw [if_neg (by omega), if_pos short]
      · refine .inr fun data long => ?_
        dsimp only
        rw [if_neg (by omega), if_neg short]

/-- Whether preparation succeeds depends on the sizes alone, as long as the
buffer holds the frame. -/
theorem preparePresentationFrame_cases (source : Size) (sourceStride : Nat) (pixelFormat : PixelFormat)
    (damage : List Region) (snapshot : OutputLayoutSnapshot) :
    (∃ message, ∀ data : Bytes, sourceStride * source.height ≤ data.len →
      preparePresentationFrame data source.width source.height sourceStride pixelFormat damage snapshot =
        .error message) ∨
    (∀ data : Bytes, sourceStride * source.height ≤ data.len →
      preparePresentationFrame data source.width source.height sourceStride pixelFormat damage snapshot =
        .ok (prepared data source sourceStride pixelFormat damage snapshot)) := by
  have size : Size.new source.width source.height = some source := dif_pos ⟨source.width_pos, source.height_pos⟩
  have scaling := fun outputStride output =>
    copyScaledVisibleRect_cases sourceStride outputStride output (snapshot.geometryFor source)
  simp only [snapshot.geometryFor_source source] at scaling
  simp only [preparePresentationFrame, size, context_bind]
  cases identity : (snapshot.geometryFor source).isIdentity with
  | true =>
    simp only [if_true, prepared, identity]
    cases bytes : checkedMul 32 sourceStride source.height with
    | none => exact .inl ⟨_, fun _ _ => rfl⟩
    | some minLen =>
      have required := checkedMul_eq_some bytes
      refine .inr fun data long => ?_
      dsimp only
      rw [if_neg (by omega)]
  | false =>
    simp only [Bool.false_eq_true, if_false, prepared, identity]
    cases row : checkedMul 32 snapshot.presentationGeometry.presentation.width 4 with
    | none => exact .inl ⟨_, fun _ _ => rfl⟩
    | some stride =>
      dsimp only
      cases frame : checkedMul 32 stride snapshot.presentationGeometry.presentation.height with
      | none => exact .inl ⟨_, fun _ _ => rfl⟩
      | some len =>
        have strideEq := checkedMul_eq_some row
        have lenEq := checkedMul_eq_some frame
        subst strideEq lenEq
        rcases scaling _ (fillBlackBars (.zeros _) pixelFormat) with ⟨message, fails⟩ | succeeds
        · refine .inl ⟨message, fun data long => ?_⟩
          dsimp only
          rw [fails data long]
          rfl
        · refine .inr fun data long => ?_
          dsimp only
          rw [succeeds data long]
          simp only [snapshot.geometryFor_presentation source]
          rfl

@[simp] theorem copyScaledPixel_len (sourceData : Bytes) (sourceStride outputStride : Nat) (g : PresentationGeometry)
    (output : Bytes) (pixel : Nat × Nat) :
    (copyScaledPixel sourceData sourceStride outputStride g output pixel).len = output.len := rfl

theorem copyScaled_len (sourceData : Bytes) (sourceStride outputStride : Nat) (g : PresentationGeometry)
    (pixels : List (Nat × Nat)) (output : Bytes) :
    (pixels.foldl (copyScaledPixel sourceData sourceStride outputStride g) output).len = output.len := by
  induction pixels generalizing output with
  | nil => rfl
  | cons pixel rest ih => exact (ih _).trans (copyScaledPixel_len ..)

/-- The extents and the stride that a geometry gives the frames of a source. -/
def PresentationGeometry.shape (g : PresentationGeometry) (sourceStride : Nat) : Nat × Nat × Nat :=
  if g.isIdentity then (g.source.width, g.source.height, sourceStride)
  else (g.presentation.width, g.presentation.height, g.presentation.width * 4)

theorem presentationFrameShape_ok {source : Size} {sourceStride : Nat} {snapshot : OutputLayoutSnapshot}
    {shape : Nat × Nat × Nat}
    (run : presentationFrameShape source.width source.height sourceStride snapshot = .ok shape) :
    shape = (snapshot.geometryFor source).shape sourceStride := by
  have size : Size.new source.width source.height = some source := dif_pos ⟨source.width_pos, source.height_pos⟩
  simp only [presentationFrameShape, size, context_bind] at run
  unfold PresentationGeometry.shape
  cases identity : (snapshot.geometryFor source).isIdentity with
  | true =>
    simp only [identity, if_true] at run ⊢
    cases run
    rw [snapshot.geometryFor_source]
  | false =>
    simp only [identity, Bool.false_eq_true, if_false] at run ⊢
    cases row : checkedMul 32 snapshot.presentationGeometry.presentation.width 4 with
    | none =>
      rw [row] at run
      cases run
    | some stride =>
      rw [row] at run
      cases run
      rw [snapshot.geometryFor_presentation, checkedMul_eq_some row]

/-- A prepared frame has the shape of its geometry. -/
theorem prepared_shape (data : Bytes) (source : Size) (sourceStride : Nat) (pixelFormat : PixelFormat)
    (damage : List Region) (snapshot : OutputLayoutSnapshot) :
    let frame := prepared data source sourceStride pixelFormat damage snapshot
    (frame.width, frame.height, frame.stride) = (snapshot.geometryFor source).shape sourceStride ∧
      frame.geometryGeneration = snapshot.geometryGeneration := by
  unfold prepared PresentationGeometry.shape
  dsimp only
  split
  · exact ⟨by rw [snapshot.geometryFor_source], rfl⟩
  · exact ⟨rfl, rfl⟩

/-- The data of a prepared frame holds all its rows. -/
theorem prepared_len {data : Bytes} {source : Size} {sourceStride : Nat} (pixelFormat : PixelFormat)
    (damage : List Region) (snapshot : OutputLayoutSnapshot) (long : sourceStride * source.height ≤ data.len) :
    let frame := prepared data source sourceStride pixelFormat damage snapshot
    frame.stride * frame.height ≤ frame.data.len := by
  unfold prepared
  dsimp only
  split
  · exact long
  · rw [copyScaled_len]
    exact le_rfl

/-- Whatever can be prepared has extents that fit in an `i32`. -/
theorem preparePresentationFrame_small {data : Bytes} {source : Size} {sourceStride : Nat} {pixelFormat : PixelFormat}
    {damage : List Region} {snapshot : OutputLayoutSnapshot} {frame : PreparedPresentationFrame} (small : source.Moderate)
    (run : preparePresentationFrame data source.width source.height sourceStride pixelFormat damage snapshot = .ok frame) :
    frame.width < 2 ^ 31 ∧ frame.height < 2 ^ 31 := by
  have size : Size.new source.width source.height = some source := dif_pos ⟨source.width_pos, source.height_pos⟩
  simp only [preparePresentationFrame, size, context_bind] at run
  split at run
  · cases bytes : checkedMul 32 sourceStride source.height with
    | none =>
      rw [bytes] at run
      cases run
    | some minLen =>
      rw [bytes] at run
      dsimp only at run
      split at run
      · cases run
      · cases run
        exact small
  · cases row : checkedMul 32 snapshot.presentationGeometry.presentation.width 4 with
    | none =>
      rw [row] at run
      cases run
    | some stride =>
      rw [row] at run
      dsimp only at run
      cases bytes : checkedMul 32 stride snapshot.presentationGeometry.presentation.height with
      | none =>
        rw [bytes] at run
        cases run
      | some len =>
        rw [bytes] at run
        dsimp only at run
        obtain ⟨rowFits, rowEq⟩ := Option.ite_none_right_eq_some.mp row
        obtain ⟨frameFits, _⟩ := Option.ite_none_right_eq_some.mp bytes
        have wide := snapshot.presentationGeometry.presentation.width_pos
        cases copied : copyScaledVisibleRect data sourceStride (fillBlackBars (.zeros len) pixelFormat) stride
            (snapshot.geometryFor source) with
        | error message =>
          rw [copied] at run
          cases run
        | ok output =>
          rw [copied] at run
          cases run
          cases rowEq
          refine ⟨by dsimp only; omega, ?_⟩
          dsimp only
          have fewer : snapshot.presentationGeometry.presentation.height ≤
              snapshot.presentationGeometry.presentation.width * snapshot.presentationGeometry.presentation.height :=
            Nat.le_mul_of_pos_left _ wide
          have four : snapshot.presentationGeometry.presentation.width * 4 *
              snapshot.presentationGeometry.presentation.height =
              4 * (snapshot.presentationGeometry.presentation.width *
                snapshot.presentationGeometry.presentation.height) := by ring
          omega

theorem asI32_small {n : Nat} (small : n < 2 ^ 31) : asI32 n = n := by
  unfold asI32
  rw [Int.bmod_eq_of_le] <;> omega

/-- Where no mapped rectangle lies, the prepared frames agree. -/
theorem prepared_undamaged {a b : Bytes} {source : Size} {sourceStride : Nat} {damage : List Region}
    {snapshot : OutputLayoutSnapshot} (pixelFormat : PixelFormat) (small : source.Moderate)
    (presentation : snapshot.presentationGeometry.presentation.Moderate)
    (agree : ∀ sx sy, sx < source.width → sy < source.height → ¬ Covered damage sx sy →
      a.SamePixel b sourceStride sx sy) {px py : Nat}
    (column : px < (prepared a source sourceStride pixelFormat damage snapshot).width)
    (row : py < (prepared a source sourceStride pixelFormat damage snapshot).height)
    (clean : ¬ Covered ((snapshot.geometryFor source).mapSourceDamage damage) px py) :
    (prepared a source sourceStride pixelFormat damage snapshot).data.SamePixel
      (prepared b source sourceStride pixelFormat damage snapshot).data
      (prepared a source sourceStride pixelFormat damage snapshot).stride px py := by
  have small' : (snapshot.geometryFor source).source.Moderate := by simpa using small
  have presentation' : (snapshot.geometryFor source).presentation.Moderate := by simpa using presentation
  unfold prepared at column row ⊢
  generalize same : snapshot.geometryFor source = g at *
  have sourceEq : g.source = source := by rw [← same, snapshot.geometryFor_source]
  subst sourceEq
  obtain ⟨visibleW, visibleH, visible_right, visible_bottom⟩ := g.visible_inside
  cases identity : g.isIdentity with
  | true =>
    simp only [identity, if_true] at column row ⊢
    obtain ⟨_, left, top, wide, tall⟩ := of_decide_eq_true identity
    apply agree px py column row
    intro damaged
    have across : px * g.source.width / g.visible.width = px := by rw [wide, Nat.mul_div_cancel _ g.source.width_pos]
    have down : py * g.source.height / g.visible.height = py := by rw [tall, Nat.mul_div_cancel _ g.source.height_pos]
    have mapped := PresentationGeometry.mapSourceDamage_covers small' presentation' column row damaged
      across.le (by omega) down.le (by omega)
    rw [left, top, Nat.zero_add, Nat.zero_add] at mapped
    exact clean mapped
  | false =>
    simp only [identity, Bool.false_eq_true, if_false] at column row ⊢
    intro c bound
    have room : g.visible.right ≤ g.presentation.width := by
      unfold Rect.right
      omega
    rw [copyScaled_byte _ room column bound, copyScaled_byte _ room column bound]
    by_cases visible : (px, py) ∈ g.visible.pixels
    · obtain ⟨left, right, top, bottom⟩ := Rect.mem_pixels.mp visible
      rw [if_pos visible, if_pos visible]
      apply boxAverage_undamaged small' presentation' agree bound
      rwa [Nat.add_sub_cancel' left, Nat.add_sub_cancel' top]
    · rw [if_neg visible, if_neg visible]

/-- Two source frames that differ only inside the damage rectangles give
presentation frames that differ only inside the mapped rectangles, each of
which is a non-empty part of the visible rectangle. -/
theorem damage_mapping_sound {a b : Bytes} (source : Size) (sourceStride : Nat) {damage : List Region}
    (pixelFormat : PixelFormat) (snapshot : OutputLayoutSnapshot) (small : source.Moderate)
    (presentation : snapshot.presentationGeometry.presentation.Moderate)
    (longA : sourceStride * source.height ≤ a.len) (longB : sourceStride * source.height ≤ b.len)
    (agree : ∀ sx sy, sx < source.width → sy < source.height → ¬ Covered damage sx sy →
      a.SamePixel b sourceStride sx sy) :
    let prepare := fun data =>
      preparePresentationFrame data source.width source.height sourceStride pixelFormat damage snapshot
    let g := snapshot.geometryFor source
    ((∃ message, prepare a = .error message ∧ prepare b = .error message) ∨
      ∃ fromA fromB, prepare a = .ok fromA ∧ prepare b = .ok fromB ∧
        fromA.width = fromB.width ∧ fromA.height = fromB.height ∧ fromA.stride = fromB.stride ∧
        fromA.damageRegions = g.mapSourceDamage damage ∧ fromB.damageRegions = g.mapSourceDamage damage ∧
        ∀ px py, px < fromA.width → py < fromA.height → ¬ Covered (g.mapSourceDamage damage) px py →
          fromA.data.SamePixel fromB.data fromA.stride px py) ∧
    ∀ m ∈ g.mapSourceDamage damage, 0 < m.w ∧ 0 < m.h ∧
      (g.visible.x : Int) ≤ m.x ∧ m.x + m.w ≤ (g.visible.x + g.visible.width : Nat) ∧
      (g.visible.y : Int) ≤ m.y ∧ m.y + m.h ≤ (g.visible.y + g.visible.height : Nat) := by
  intro prepare g
  refine ⟨?_, fun m member => PresentationGeometry.mapSourceDamage_visible (by simpa [g] using small)
    (by simpa [g] using presentation) member⟩
  rcases preparePresentationFrame_cases source sourceStride pixelFormat damage snapshot with ⟨message, fails⟩ | succeeds
  · exact .inl ⟨message, fails a longA, fails b longB⟩
  · refine .inr ⟨_, _, succeeds a longA, succeeds b longB, ?_⟩
    refine ⟨?_, ?_, ?_, ?_, ?_, fun px py column row clean =>
      prepared_undamaged pixelFormat small presentation agree column row clean⟩ <;> (unfold prepared; dsimp only; split <;> rfl)

/-- A 4x2 source shown on 4x4 between black bars, one pixel changed. -/
theorem damage_mapping_sound_letterbox :
    let source : Size := ⟨4, 2, by decide, by decide⟩
    let snapshot : OutputLayoutSnapshot := ⟨.new source ⟨4, 4, by decide, by decide⟩, 7⟩
    let changed : Bytes := ⟨32, fun i => if 4 ≤ i ∧ i < 8 then 200 else 0⟩
    let prepare := fun data => preparePresentationFrame data 4 2 16 .bgrA32 [⟨1, 0, 1, 1⟩] snapshot
    (snapshot.geometryFor source).mapSourceDamage [⟨1, 0, 1, 1⟩] = [⟨1, 1, 1, 1⟩] ∧
    ∃ fromA fromB, prepare (.zeros 32) = .ok fromA ∧ prepare changed = .ok fromB ∧
      ∀ px py, px < fromA.width → py < fromA.height → ¬ Covered [⟨1, 1, 1, 1⟩] px py →
        fromA.data.SamePixel fromB.data fromA.stride px py := by
  intro source snapshot changed prepare
  have mapped : (snapshot.geometryFor source).mapSourceDamage [⟨1, 0, 1, 1⟩] = [⟨1, 1, 1, 1⟩] := by decide
  have agree : ∀ sx < 4, ∀ sy < 2, ¬ Covered [⟨1, 0, 1, 1⟩] sx sy → (Bytes.zeros 32).SamePixel changed 16 sx sy := by
    decide
  have sound := (damage_mapping_sound source 16 .bgrA32 snapshot ⟨by decide, by decide⟩ ⟨by decide, by decide⟩
    (Nat.le_refl 32) (Nat.le_refl 32) fun sx sy column row => agree sx column sy row).1
  refine ⟨mapped, ?_⟩
  rcases sound with ⟨message, fails, _⟩ | ⟨fromA, fromB, runA, runB, _, _, _, _, _, undamaged⟩
  · cases fails
  · rw [mapped] at undamaged
    exact ⟨fromA, fromB, runA, runB, undamaged⟩

end HyprRdp
