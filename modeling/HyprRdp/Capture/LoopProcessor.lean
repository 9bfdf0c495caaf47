import HyprRdp.Capture.Frame
import HyprRdp.Capture.Scale

namespace HyprRdp

/-- What a capture loop uses of its frame processor. No call changes the
extents and the stride the processor was made with, and a new one has sent nothing. -/
structure Processing (P Env : Type) where
  new : Nat → Nat → Nat → P
  shape : P → Nat × Nat × Nat
  sentFirstFrame : P → Bool
  hasPendingDamage : P → Bool
  queueDamage : P → List Region → P
  process : P → Bytes → Env → P × Bool
  shape_new : ∀ width height stride, shape (new width height stride) = (width, height, stride)
  shape_queueDamage : ∀ p damage, shape (queueDamage p damage) = shape p
  shape_process : ∀ p data env, shape (process p data env).1 = shape p
  sentFirstFrame_new : ∀ width height stride, sentFirstFrame (new width height stride) = false
  sentFirstFrame_queueDamage : ∀ p damage, sentFirstFrame (queueDamage p damage) = sentFirstFrame p

/-- The extents as near as an RDP desktop comes to them. -/
def FrameShape.fit (width height stride : Nat) : FrameShape where
  width := max 1 (min width 65535)
  height := max 1 (min height 65535)
  stride := max stride (max 1 (min width 65535) * 4)
  width_pos := by omega
  height_pos := by omega
  width_le := by omega
  height_le := by omega
  row_fits := by omega

/-- A frame processor as a capture loop makes it. -/
structure LoopProcessor where
  width : Nat
  height : Nat
  stride : Nat
  processor : FrameProcessor

/-- The frame processor of the loops. A call finds the shared full-frame request set or not. -/
def frameProcessing (egfxShared : Bool) (pixelFormat : PixelFormat) (quality : Nat) (rateControl : H264RateControl)
    (h264Backend : H264BackendPolicy) : Processing LoopProcessor (Bool × Environment) where
  new width height stride :=
    ⟨width, height, stride, .new (.fit width height stride) egfxShared pixelFormat quality rateControl h264Backend⟩
  shape p := (p.width, p.height, p.stride)
  sentFirstFrame p := p.processor.sentFirstFrame
  hasPendingDamage p := p.processor.hasPendingDamage
  queueDamage p damage := { p with processor := p.processor.queueDamage damage }
  process p data env :=
    let (c, goesOn) := Call.processAt ⟨p.processor, env.1, []⟩ env.2 data
    ({ p with processor := c.processor }, goesOn)
  shape_new _ _ _ := rfl
  shape_queueDamage _ _ := rfl
  shape_process _ _ _ := rfl
  sentFirstFrame_new _ _ _ := rfl
  sentFirstFrame_queueDamage _ _ := rfl

/-- The extents of an RDP desktop, with rows that hold their pixels, are kept as they are. -/
theorem FrameShape.fit_eq (shape : FrameShape) : FrameShape.fit shape.width shape.height shape.stride = shape := by
  have columns := shape.width_pos
  have rows := shape.height_pos
  have wide := shape.width_le
  have tall := shape.height_le
  have fits := shape.row_fits
  cases shape
  dsimp only at *
  simp only [FrameShape.fit, FrameShape.mk.injEq]
  omega

end HyprRdp
