import ResponseCache.Abort
import ResponseCache.Age
import ResponseCache.Bytes.Basic
import ResponseCache.Bytes.Hex
import ResponseCache.Bytes.Lemmas
import ResponseCache.Bytes.Sha256
import ResponseCache.Bytes.Utf8
import ResponseCache.Capture
import ResponseCache.Codec
import ResponseCache.Config
import ResponseCache.Decimal.Layout
import ResponseCache.Decimal.Shortest
import ResponseCache.Directives
import ResponseCache.Duration.Basic
import ResponseCache.Duration.HumanText
import ResponseCache.Duration.UnitText
import ResponseCache.EntityTag
import ResponseCache.Entry
import ResponseCache.Event
import ResponseCache.Freshness
import ResponseCache.Http.Header
import ResponseCache.Http.Message
import ResponseCache.Http.Target
import ResponseCache.Json.Basic
import ResponseCache.Json.Decode
import ResponseCache.Json.Document
import ResponseCache.Json.Number
import ResponseCache.Json.Printer
import ResponseCache.Key
import ResponseCache.Layer.Cache
import ResponseCache.Layer.Flight
import ResponseCache.Layer.History
import ResponseCache.Layer.Schedule
import ResponseCache.Layer.Settings
import ResponseCache.Layer.Step
import ResponseCache.RequestId
import ResponseCache.StatusSet
import ResponseCache.Store.Basic
import ResponseCache.Store.Memory
import ResponseCache.Store.Plain
import ResponseCache.Store.Redis
import ResponseCache.Store.Table
import ResponseCache.Text.Blank
import ResponseCache.Text.Invisible
import ResponseCache.Text.Number
import ResponseCache.Text.Quoted
import ResponseCache.Text.Split
import ResponseCache.Time.Basic
import ResponseCache.Time.Clock
import ResponseCache.Time.Timestamp
import ResponseCache.Proofs.Freshness
import ResponseCache.Proofs.Text.Pieces
import ResponseCache.Proofs.Key.Component
import ResponseCache.Proofs.Key.Overlap
import ResponseCache.Proofs.Key.Query
import ResponseCache.Proofs.Layer.Transition
import ResponseCache.Proofs.Bytes.Utf8
import ResponseCache.Proofs.Codec.RoundTrip
import ResponseCache.Proofs.Duration.HumanText
import ResponseCache.Proofs.EntityTag
import ResponseCache.Proofs.Capture
import ResponseCache.Proofs.Layer.Run
import ResponseCache.Proofs.Store.Contents
import ResponseCache.Proofs.Layer.Growth
import ResponseCache.Proofs.Layer.Provenance
import ResponseCache.Proofs.Layer.Lead
import ResponseCache.Proofs.Layer.Locks
import ResponseCache.Proofs.Layer.Exclusion
import ResponseCache.Proofs.Layer.Revalidation
import ResponseCache.Proofs.Layer.TagList
import ResponseCache.Proofs.Layer.Serving
import ResponseCache.Proofs.Layer.Lifetime
import ResponseCache.Proofs.Layer.Play
import ResponseCache.Proofs.Store.Replies
import ResponseCache.Proofs.Layer.Calls
import ResponseCache.Proofs.Layer.Writes
import ResponseCache.Proofs.Replay
import ResponseCache.Proofs.Snapshot
import ResponseCache.Proofs.Layer.Lenient
import ResponseCache.Proofs.Layer.Tolerance
import ResponseCache.Proofs.Layer.Fidelity
import ResponseCache.Proofs.Layer.Telling
import ResponseCache.Proofs.Layer.Disclosure
import ResponseCache.Proofs.Layer.Progress
import ResponseCache.Proofs.Layer.Collapse
import ResponseCache.Proofs.Codec.Canonical
import ResponseCache.Proofs.Demands
import ResponseCache.Proofs.Store.Sharing
import ResponseCache.Proofs.Store.LastWritten
import ResponseCache.Proofs.Layer.Interchange
import ResponseCache.Proofs.Layer.Method
import ResponseCache.Proofs.Layer.Overflow
import ResponseCache.Proofs.Layer.Abandoned
import ResponseCache.Proofs.Layer.Accounting
import ResponseCache.Proofs.Layer.Solitude
import ResponseCache.Proofs.Layer.Path
import ResponseCache.Proofs.Layer.Retention
import ResponseCache.Proofs.Store.Keyspace
import ResponseCache.Proofs.Text.Case
import ResponseCache.Proofs.DirectiveList
import ResponseCache.Proofs.MinFresh
import ResponseCache.Proofs.Key.Separation
import ResponseCache.Proofs.Layer.Recognition
import ResponseCache.Proofs.Key.Names
import ResponseCache.Proofs.Key.Order
import ResponseCache.Proofs.Layer.TagMaterial
import ResponseCache.Proofs.Store.Replacing
import ResponseCache.Proofs.Json.RoundTrip
import ResponseCache.Proofs.Config
