import VisionOs.Understanding.OwnQuestion
import VisionOs.Synthesis.Positions
import VisionOs.Synthesis.SuppressedFacts
import VisionOs.State.Coverage
import VisionOs.Registry.Restart
import VisionOs.Registry.Occupancy
import VisionOs.Tracking.CamerasApart
import VisionOs.Tracking.Accounting
import VisionOs.Tracking.Ambiguity
import VisionOs.Exposure.Tenants
import VisionOs.Exposure.DemandRestart
import VisionOs.Acquisition.Books
import VisionOs.Cropping.Evidence
import VisionOs.App.Retention
import VisionOs.App.Announcements
import VisionOs.App.FrozenFinding
import VisionOs.Cropping.Ceiling
import VisionOs.Understanding.Belonging
import VisionOs.Understanding.Breaker
import VisionOs.Understanding.Routing
import VisionOs.App.Writeback
import VisionOs.App.ClosingOrder
import VisionOs.State.Quarantine
import VisionOs.State.Confirmed
import VisionOs.Acquisition.FrameIdentity
import VisionOs.App.SlotsBack
import VisionOs.App.FrameNames
import VisionOs.Acquisition.Observability
import VisionOs.Kernel.Config
import VisionOs.Kernel.CoverageGaps
import VisionOs.Kernel.Rollout
import VisionOs.Detection.Letterbox
import VisionOs.Acquisition.PrivacyMask
import VisionOs.Tracking.Stability
import VisionOs.Tracking.Announced
import VisionOs.Tracking.Memory
import VisionOs.Registry.Cadence
import VisionOs.Synthesis.Heartbeat
import VisionOs.Synthesis.Separation
import VisionOs.Registry.Reentry
import VisionOs.Registry.Dwell
import VisionOs.Exposure.Drains
import VisionOs.Exposure.FanOut
import VisionOs.Exposure.StateResults
import VisionOs.Cropping.Drives
import VisionOs.Registry.Belief
import VisionOs.Registry.RayCasting
import VisionOs.Registry.Reloaded
