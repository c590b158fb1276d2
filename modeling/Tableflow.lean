import Tableflow.App.EnvFile
import Tableflow.App.Fault
import Tableflow.App.Program
import Tableflow.App.Settings
import Tableflow.Artifact
import Tableflow.Decimal.Layout
import Tableflow.Decimal.Numeral
import Tableflow.Decimal.Reader
import Tableflow.Decimal.Shortest
import Tableflow.Decimal.Word
import Tableflow.Dictionary
import Tableflow.Double
import Tableflow.Double.Binary
import Tableflow.Facets.Comparison
import Tableflow.Facets.HtmlOverview
import Tableflow.Facets.Json
import Tableflow.Facets.Statistics
import Tableflow.Facets.Step
import Tableflow.Facets.TextOverview
import Tableflow.Facets.Visualization
import Tableflow.Fault
import Tableflow.Files.Fault
import Tableflow.Files.Path
import Tableflow.Files.System
import Tableflow.Files.Tree
import Tableflow.Instant
import Tableflow.Json.Decode
import Tableflow.Json.Defect
import Tableflow.Json.Inspect
import Tableflow.Json.Literal
import Tableflow.Json.Position
import Tableflow.Json.Tree
import Tableflow.Json.Value
import Tableflow.Main
import Tableflow.Pipeline
import Tableflow.Pipeline.Blueprint
import Tableflow.Pipeline.DataStatistics
import Tableflow.Pipeline.Execution
import Tableflow.Pipeline.Run
import Tableflow.Pipeline.Schedule
import Tableflow.Pipeline.Summary
import Tableflow.Proofs.Blueprint.Check
import Tableflow.Proofs.Blueprint.Requirements
import Tableflow.Proofs.Dictionary
import Tableflow.Proofs.Schedule.Cycle
import Tableflow.Proofs.Schedule.Listing
import Tableflow.Provider
import Tableflow.Random.ChaCha
import Tableflow.Random.Shuffle
import Tableflow.Registry
import Tableflow.RunId
import Tableflow.Step
import Tableflow.Table
import Tableflow.Table.Csv
import Tableflow.Table.Iris
import Tableflow.Table.Json
import Tableflow.Table.Split
import Tableflow.Table.SplitJson
import Tableflow.Text.Alphanumeric
import Tableflow.Text.Blank
import Tableflow.Text.Hex
import Tableflow.Text.Line
import Tableflow.Text.Markup
import Tableflow.Text.Pad
import Tableflow.Text.Printable
import Tableflow.Text.Quoted
import Tableflow.Proofs.Blueprint.Wiring
import Tableflow.Proofs.Blueprint.Arrangement
import Tableflow.Proofs.Blueprint.Build
import Tableflow.Proofs.Blueprint.Order
import Tableflow.Proofs.Execution.Calls
import Tableflow.Proofs.Execution.Course
import Tableflow.Proofs.Execution.DataFlow
import Tableflow.Proofs.Execution.Shape
import Tableflow.Proofs.Program
import Tableflow.Proofs.Execution.Ancestry
import Tableflow.Proofs.Blueprint.Reordering
import Tableflow.Proofs.Execution.Reordering
import Tableflow.Proofs.Registry.History
import Tableflow.Proofs.Registry.Service
import Tableflow.Proofs.Registry.Log
import Tableflow.Proofs.Registry.Refinement
import Tableflow.Proofs.Registry.Queries
import Tableflow.Proofs.Split.Partition
import Tableflow.Proofs.Statistics.Numeric
import Tableflow.Proofs.Split.Statistics
import Tableflow.Proofs.Table.Checks
import Tableflow.Proofs.Table.Representation
import Tableflow.Proofs.DataStatistics
import Tableflow.Proofs.Page.Coverage
import Tableflow.Proofs.Page.Renaming
import Tableflow.Proofs.Table.RoundTrip
import Tableflow.Proofs.Csv.Records
import Tableflow.Proofs.Facets.RoundTrip
import Tableflow.Proofs.App.Session
import Tableflow.Proofs.Statistics.Reordering
import Tableflow.Proofs.Statistics.Ranks
import Tableflow.Proofs.Statistics.MostFrequent
import Tableflow.Proofs.Csv.NotANumber
import Tableflow.Proofs.Table.Picking
import Tableflow.Proofs.Split.Labels
import Tableflow.Proofs.Split.Nested
import Tableflow.Proofs.Execution.Outputs
import Tableflow.Proofs.Execution.Failures
import Tableflow.Proofs.Facets.TextOverview
import Tableflow.Proofs.Decimal.Grammar
import Tableflow.Proofs.Double.Order
import Tableflow.Proofs.App.Settings
import Tableflow.Proofs.Json.Values
import Tableflow.Proofs.RunId
import Tableflow.Proofs.Registry.Export
import Tableflow.Proofs.Schedule.Rounds
import Tableflow.Proofs.Schedule.Search
import Tableflow.Proofs.Registry.Eviction
