import LiveLayout.Text.Blank
import LiveLayout.Text.Alphanumeric
import LiveLayout.Text.Quoted
import LiveLayout.Text.Percent
import LiveLayout.Text.Cut
import LiveLayout.Numeric.Binary
import LiveLayout.Numeric.Shortest
import LiveLayout.Numeric.Decimal
import LiveLayout.Fields
import LiveLayout.Json.Basic
import LiveLayout.Json.Printer
import LiveLayout.Json.Document
import LiveLayout.Json.Numeral
import LiveLayout.Json.Reader
import LiveLayout.Decoding.Error
import LiveLayout.Decoding.Basic
import LiveLayout.Setting
import LiveLayout.Options
import LiveLayout.Expression.Basic
import LiveLayout.Expression.Parser
import LiveLayout.Layout.Data
import LiveLayout.Layout.Node
import LiveLayout.Layout.Decode
import LiveLayout.Layout.Read
import LiveLayout.Layout.Check
import LiveLayout.Grid.Track
import LiveLayout.Grid.Arrangement
import LiveLayout.Live.Widget
import LiveLayout.Live.KeyMap
import LiveLayout.Live.Fetch
import LiveLayout.Live.Event
import LiveLayout.Live.Notice
import LiveLayout.Live.Stage
import LiveLayout.Live.Directory
import LiveLayout.Live.Evaluate
import LiveLayout.Live.Source
import LiveLayout.Live.Dispatch
import LiveLayout.Live.Subscription
import LiveLayout.Live.Scene
import LiveLayout.Live.Renderer
import LiveLayout.Live.Operation
import LiveLayout.Rehearsal.Widget
import LiveLayout.Rehearsal.Handler
import LiveLayout.Proofs.Talk
import LiveLayout.Proofs.Asking
import LiveLayout.Proofs.SourceLaws
import LiveLayout.Proofs.Saying
import LiveLayout.Proofs.Ageing
import LiveLayout.Proofs.TrafficLaws
import LiveLayout.Proofs.CheckLaws
import LiveLayout.Proofs.SceneLaws
import LiveLayout.Proofs.Exhibits
import LiveLayout.Proofs.Stirring
import LiveLayout.Proofs.Mounting
import LiveLayout.Proofs.Introducing
import LiveLayout.Proofs.Turns
import LiveLayout.Proofs.Activity
import LiveLayout.Proofs.Passing
import LiveLayout.Proofs.Consistency
import LiveLayout.Proofs.Settling
import LiveLayout.Proofs.Provenance
import LiveLayout.Proofs.Downstream
import LiveLayout.Proofs.Propagation
import LiveLayout.Proofs.Moves
import LiveLayout.Proofs.Opening
import LiveLayout.Proofs.Orders
import LiveLayout.Proofs.Addressing
import LiveLayout.Proofs.Serving
import LiveLayout.Proofs.Supplies
import LiveLayout.Proofs.Showing
import LiveLayout.Proofs.Inquiries
import LiveLayout.Proofs.Permission
import LiveLayout.Proofs.ValueLaws
import LiveLayout.Proofs.Shorthands
import LiveLayout.Proofs.Lifting
import LiveLayout.Proofs.Coupling
import LiveLayout.Proofs.Confluence
import LiveLayout.Proofs.Rejections
import LiveLayout.Proofs.Grammar
import LiveLayout.Proofs.Parsing
import LiveLayout.Proofs.Picturing
import LiveLayout.Proofs.Arguments
import LiveLayout.Proofs.Readability
import LiveLayout.Proofs.Grounding
import LiveLayout.Proofs.Removal
import LiveLayout.Proofs.Renumbering
import LiveLayout.Proofs.Tracking
import LiveLayout.Proofs.Resuming
import LiveLayout.Proofs.FreshStart
import LiveLayout.Proofs.Canonical
import LiveLayout.Proofs.Rereading
import LiveLayout.Proofs.Stopping
import LiveLayout.Proofs.Composing
import LiveLayout.Proofs.Traces
import LiveLayout.Proofs.Course
import LiveLayout.Proofs.Deciding
import LiveLayout.Proofs.Escaping
import LiveLayout.Proofs.Substituting
import LiveLayout.Proofs.Headers
import LiveLayout.Proofs.SoFar
import LiveLayout.Proofs.Unmounting
import LiveLayout.Proofs.Splitting
import LiveLayout.Proofs.Numerals
import LiveLayout.Proofs.TrackLists
import LiveLayout.Proofs.QueryText
import LiveLayout.Proofs.Tagging
import LiveLayout.Proofs.Taking
