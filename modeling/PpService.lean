import PpService.Lib.Lru
import PpService.Error
import PpService.Lib.Chan
import PpService.Lib.Threads
import PpService.Lib.Polyline
import PpService.Proto
import PpService.Rosu
import PpService.BeatmapId
import PpService.Cache
import PpService.Convert
import PpService.Calculator
import PpService.Serving
import PpService.Interleaving
import PpService.Batch
import PpService.Gradual
import PpService.Stream
import PpService.Settings
import PpService.CircleSize
import PpService.ScoreStates
import PpService.Encoding
import PpService.MetadataId
import PpService.StrainGraph
import PpService.IdGrammar
import PpService.Lib.ByteStr
import PpService.Lib.Loop
import PpService.Lib.Markup
import PpService.Markdown
import PpService.MarkdownInline
import PpService.MarkdownPage
import PpService.MarkdownTables
import PpService.Lib.Recency
import PpService.WorkingSet
import PpService.Capacity
import PpService.Aftermath
import PpService.Server
import PpService.Progress
import PpService.Agreement
import PpService.ByObject
import PpService.Peaks
import PpService.Lib.Script
import PpService.Drawing
import PpService.Picture
import PpService.MarkdownText
