import ObstacleWatch.Json.Reader
import ObstacleWatch.Main
import ObstacleWatch.Proofs.TrackMapView
import ObstacleWatch.Proofs.EngineRun
import ObstacleWatch.Proofs.TrackProjection
import ObstacleWatch.Proofs.TrackIsolation
import ObstacleWatch.Proofs.UntrackedObjects
import ObstacleWatch.Proofs.GateHistory
import ObstacleWatch.Proofs.TrackLifetime
import ObstacleWatch.Proofs.ReportedLevel
import ObstacleWatch.Proofs.DecayDelay
import ObstacleWatch.Proofs.WarnEpisodes
import ObstacleWatch.Proofs.LevelChain
import ObstacleWatch.Proofs.TrackCensus
import ObstacleWatch.Proofs.DrainSchedule
import ObstacleWatch.Proofs.OnsetLog
import ObstacleWatch.Proofs.SoundMetrics
import ObstacleWatch.Proofs.ProxyAverage
import ObstacleWatch.Proofs.CounterTally
import ObstacleWatch.Proofs.StaleReturn
import ObstacleWatch.Proofs.UnusableRate
import ObstacleWatch.Proofs.DetectionOrder
import ObstacleWatch.Proofs.FrameNumbers
import ObstacleWatch.Proofs.RecordingLines
import ObstacleWatch.Proofs.ContentReading
import ObstacleWatch.Proofs.SeparateReplays
import ObstacleWatch.Proofs.DetectionRoundTrip
import ObstacleWatch.Proofs.GateDelay
import ObstacleWatch.Proofs.TopSelection
import ObstacleWatch.Proofs.StaticObject
import ObstacleWatch.Proofs.ForwardTimestamps
import ObstacleWatch.Proofs.EstimateRange
import ObstacleWatch.Proofs.ClosingSentinel
import ObstacleWatch.Proofs.DegenerateBoxes
import ObstacleWatch.Proofs.ScoreOrder
import ObstacleWatch.Proofs.RecordingLayout
import ObstacleWatch.Proofs.TextOctets
import ObstacleWatch.Proofs.NewEntries
import ObstacleWatch.Proofs.WrittenCharacters
import ObstacleWatch.Proofs.FormatWords
import ObstacleWatch.Proofs.ShortestDigits
import ObstacleWatch.Proofs.SpelledNumbers
import ObstacleWatch.Proofs.LogGrowth
import ObstacleWatch.Proofs.PathParts
import ObstacleWatch.Proofs.Descent
import ObstacleWatch.Proofs.RecordingSearch
import ObstacleWatch.Proofs.StreakWalk
import ObstacleWatch.Proofs.StoredTracks
import ObstacleWatch.Proofs.NestedBands
