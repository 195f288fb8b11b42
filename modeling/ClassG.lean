import ClassG.Api.ExportPaths
import ClassG.Api.TrackDetections
import ClassG.Auth.Revocation
import ClassG.Auth.TakeOver
import ClassG.Auth.WayBack
import ClassG.Broadcasting.Delivery
import ClassG.Captures.Adoption
import ClassG.Captures.Exclusion
import ClassG.Config.Restart
import ClassG.ForGo.JsonDecode
import ClassG.Fusion.Accounting
import ClassG.Fusion.AdsbSources
import ClassG.Fusion.Bystanders
import ClassG.Fusion.Clocks
import ClassG.Fusion.Confidence
import ClassG.Fusion.ContactOrder
import ClassG.Fusion.Corroboration
import ClassG.Fusion.Findability
import ClassG.Fusion.Mirror
import ClassG.Fusion.ReaperTiming
import ClassG.Fusion.Serials
import ClassG.Fusion.Suppression
import ClassG.Fusion.TerrainFetch
import ClassG.Fusion.Trail
import ClassG.Geofence.Contains
import ClassG.GraphQL.Inlining
import ClassG.Health.Verdict
import ClassG.Hooks.Bookkeeping
import ClassG.Hooks.Caches
import ClassG.Hooks.Cooldown
import ClassG.Hooks.Deliverable
import ClassG.Hooks.Guarded
import ClassG.Hooks.Outcomes
import ClassG.Ingest.Confirmed
import ClassG.Ingest.Heartbeats
import ClassG.Ingest.StaleTracks
import ClassG.Model.Detection
import ClassG.Model.FlexTime
import ClassG.Model.Track
import ClassG.Sdr.Clock
import ClassG.Sdr.NoiseFloor
import ClassG.Sdr.Reassembly
import ClassG.Sdr.Run
import ClassG.Sdr.Sweep
import ClassG.Spectrum.Exchange
import ClassG.Spectrum.Lifecycle
import ClassG.Spectrum.Stitch
import ClassG.Store.Agreement
import ClassG.Store.Purge
import ClassG.Store.Walk
import ClassG.Store.Writes
import ClassG.TwoRuns
import ClassG.Ui.FlightFilters
import ClassG.Ui.FlightPlayback
import ClassG.Ui.ListCache
import ClassG.Ui.LogStore
import ClassG.Ui.OneSocket
import ClassG.Ui.Timeline
import ClassG.Ulid.Agreement
import ClassG.Whole.Agreement
import ClassG.Whole.Operator
import ClassG.Wifi.BasicID
import ClassG.Wifi.DjiCut
import ClassG.Wifi.HopperRuns
import ClassG.Wifi.PeerActivity
import ClassG.Wifi.Pipeline
import ClassG.Wifi.PlanState
import ClassG.Wifi.Radiotap
import ClassG.Wifi.Survey
import ClassG.Wifi.Tags
import ClassG.Zmtp.Delivery
import ClassG.Zmtp.Metadata
