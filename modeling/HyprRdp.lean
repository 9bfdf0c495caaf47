import HyprRdp.Lib.Runs
import HyprRdp.Lib.Table
import HyprRdp.Lib.Raster
import HyprRdp.Lib.BoxScaling
import HyprRdp.Lib.RegionList
import HyprRdp.Egfx.FrameFlow
import HyprRdp.Egfx.AckSuspension
import HyprRdp.Egfx.SendRace
import HyprRdp.Egfx.OutputQueue
import HyprRdp.Display.Geometry
import HyprRdp.Capture.Scale
import HyprRdp.Capture.Damage
import HyprRdp.Egfx.Avc420
import HyprRdp.Egfx.ClearCodec
import HyprRdp.Egfx.Yuv420
import HyprRdp.Egfx.Avc444Regions
import HyprRdp.Egfx.Avc444
import HyprRdp.Egfx.FrameEncoder
import HyprRdp.Egfx.Readiness
import HyprRdp.Capture.Frame
import HyprRdp.Capture.Ledger
import HyprRdp.Capture.Calls
import HyprRdp.Capture.NoLostUpdate
import HyprRdp.Capture.Encoders
import HyprRdp.Capture.FullFrameRequests
import HyprRdp.Capture.Surfaces
import HyprRdp.Egfx.Avc444Delivery
import HyprRdp.Capture.Avc444Planes
import HyprRdp.Egfx.SurfaceRace
import HyprRdp.Clipboard.FrozenSelection
import HyprRdp.Clipboard.FileWorker
import HyprRdp.Capture.ShmLoop
import HyprRdp.Capture.LoopGeometry
import HyprRdp.Capture.DmabufLoop
import HyprRdp.Capture.PredictionChain
import HyprRdp.Capture.QuietScreen
import HyprRdp.Capture.Display
import HyprRdp.Capture.DisplayAgreement
import HyprRdp.Capture.SessionRestore
import HyprRdp.Capture.Announcements
import HyprRdp.Clipboard.AcceptedLists
import HyprRdp.Clipboard.FileOffers
import HyprRdp.Clipboard.InboundMounts
import HyprRdp.Clipboard.InboundOffers
import HyprRdp.Clipboard.MountsFollow
import HyprRdp.Clipboard.Reads
import HyprRdp.Clipboard.CachedSelection
import HyprRdp.Clipboard.CurrentSelection
import HyprRdp.Clipboard.LatestCopy
import HyprRdp.Input.Actor
import HyprRdp.Input.DeviceKeys
import HyprRdp.Input.KeyStreams
import HyprRdp.Clipboard.FrozenLists
import HyprRdp.Clipboard.ListsSurvive
import HyprRdp.Audio.Moves
import HyprRdp.Audio.PutBack
import HyprRdp.Input.Pointer
import HyprRdp.Input.SessionEnd
import HyprRdp.Capture.DamageTiles
import HyprRdp.Capture.FramePacer
import HyprRdp.Capture.PointerMapping
import HyprRdp.Egfx.AnnexB
import HyprRdp.Egfx.Avc444Packing
import HyprRdp.Egfx.ClearCodecRectangles
import HyprRdp.Clipboard.DirectoryGraphs
import HyprRdp.Clipboard.HostileLists
import HyprRdp.Clipboard.WellFormedTrees
import HyprRdp.Capture.EmptyOutputs
import HyprRdp.Clipboard.TextEcho
import HyprRdp.Egfx.BitWriter
import HyprRdp.Egfx.GeneratedHeaders
import HyprRdp.Capture.SizeAnswers
import HyprRdp.Egfx.EncodeCalls
import HyprRdp.Egfx.PictureNumbers
import HyprRdp.Input.TypedCharacters
import HyprRdp.Server.HookDrop
import HyprRdp.Clipboard.MountClaims
import HyprRdp.Hyprland.EventStream
import HyprRdp.Input.LayoutListener
import HyprRdp.Server.TlsIdentity
import HyprRdp.Clipboard.PipeTransfers
import HyprRdp.Hyprland.MonitorRule
import HyprRdp.Server.PamAuthentication
import HyprRdp.Server.PamCalls
import HyprRdp.Clipboard.CopiedTrees
import HyprRdp.Clipboard.LinkCounts
import HyprRdp.Clipboard.ServedTrees
import HyprRdp.Capture.CaptureDeath
import HyprRdp.Capture.CaptureRestarts
import HyprRdp.Capture.CaptureStop
import HyprRdp.Clipboard.PinnedFiles
import HyprRdp.Input.WheelScroll
import HyprRdp.Input.Announcements
import HyprRdp.Input.LayoutFeedback
import HyprRdp.Lib.Numerals
import HyprRdp.Server.Configuration
import HyprRdp.Server.StartupPolicy
