import Panoptikon.SearchCache.KnownEnd
import Panoptikon.SearchCache.Coverage
import Panoptikon.Pql.MatchReadings
import Panoptikon.ContinuousScan.Exclusion
import Panoptikon.Inferio.RoundTrips
import Panoptikon.Transcode.Waiting
import Panoptikon.Inferio.ResponseTrip
import Panoptikon.Extraction.Alignment
import Panoptikon.Extraction.PoolRuns
import Panoptikon.Extraction.Dispatching
import Panoptikon.Pql.Partitions
import Panoptikon.Pinboards.Databases
import Panoptikon.Pql.FullText
import Panoptikon.Pql.TagMeaning
import Panoptikon.Config.DotenvMeaning
import Panoptikon.Config.TomlPatched
import Panoptikon.Inferio.ManagerRuns
import Panoptikon.Jobs.ScanFilter
import Panoptikon.Jobs.CronRuns
import Panoptikon.SearchCache.Pages
import Panoptikon.Http.Serving
import Panoptikon.DirPoller.TreeBounds
import Panoptikon.Inferio.FrameCaps
import Panoptikon.Inferio.FrameBudget
import Panoptikon.Inferio.JsonTrip
import Panoptikon.Policy.Listing
import Panoptikon.Policy.Tokens
import Panoptikon.Embedding.OutputFaults
import Panoptikon.Config.EnvReaders
import Panoptikon.Config.TemplateSegments
import Panoptikon.Transcode.ArtifactEviction
import Panoptikon.Transcode.ShareNameSafety
import Panoptikon.Transcode.ComposeLoops
import Panoptikon.Media.OutroTail
import Panoptikon.Scan.Verdicts
import Panoptikon.Media.Truncation
import Panoptikon.Visuals.Ladders
import Panoptikon.VectorQuants.Interleavings
