import RegionDrawing.HostCanvas
import RegionDrawing.Binary64.Scalar
import RegionDrawing.Proofs.Engine.Calls
import RegionDrawing.Proofs.Store.Elements
import RegionDrawing.Proofs.Session.Reaction
import RegionDrawing.Proofs.Engine.Events
import RegionDrawing.Proofs.Engine.References
import RegionDrawing.Proofs.Engine.VertexEdit
import RegionDrawing.Proofs.Binary64.Order
import RegionDrawing.Proofs.Engine.Validity
import RegionDrawing.Proofs.Json.Number
import RegionDrawing.Proofs.Json.Text
import RegionDrawing.Proofs.Json.Decimal
import RegionDrawing.Proofs.Binary64.Bits
import RegionDrawing.Proofs.Binary64.Rounding
import RegionDrawing.Proofs.Binary64.Reading
import RegionDrawing.Proofs.Binary64.Shortest
import RegionDrawing.Proofs.Json.Value
import RegionDrawing.Proofs.Element.Payload
import RegionDrawing.Proofs.Element.Document
import RegionDrawing.Proofs.Store.Document
import RegionDrawing.Proofs.Engine.Export
import RegionDrawing.Proofs.Engine.Import
import RegionDrawing.Proofs.Session.Calls
import RegionDrawing.Proofs.Session.Coherence
import RegionDrawing.Proofs.Drawer.BuiltIn
import RegionDrawing.Proofs.Geometry.KeptPoints
import RegionDrawing.Proofs.Geometry.Media
import RegionDrawing.Proofs.Session.OpenGesture
import RegionDrawing.Proofs.Session.MultiClick
import RegionDrawing.Proofs.Engine.Commits
import RegionDrawing.Proofs.Engine.Redraw
import RegionDrawing.Proofs.Engine.Mirror
import RegionDrawing.Proofs.Engine.EditReports
import RegionDrawing.Proofs.Engine.Coalescing
import RegionDrawing.Proofs.Scalar.Sums
import RegionDrawing.Proofs.Binary64.Stored
import RegionDrawing.Proofs.Binary64.Sums
import RegionDrawing.Proofs.Geometry.Drag
import RegionDrawing.Proofs.Element.Shape
import RegionDrawing.Proofs.Element.Comparison
import RegionDrawing.Proofs.Session.Drag
import RegionDrawing.Proofs.Scalar.Exact
import RegionDrawing.Proofs.Scalar.Real
import RegionDrawing.Proofs.Element.Bounds
import RegionDrawing.Proofs.Geometry.Polyline
import RegionDrawing.Proofs.Drawer.Picking
import RegionDrawing.Proofs.Geometry.Curve
import RegionDrawing.Proofs.Store.History
import RegionDrawing.Proofs.Engine.OnMedia
import RegionDrawing.Proofs.Registry.History
import RegionDrawing.Proofs.Drawer.Translation
import RegionDrawing.Proofs.Registry.Subscriptions
import RegionDrawing.Proofs.Engine.Isolation
import RegionDrawing.Proofs.Engine.Refusal
import RegionDrawing.Proofs.Canvas.Pairs
import RegionDrawing.Proofs.Drawer.Pairs
import RegionDrawing.Proofs.Engine.CanvasState
import RegionDrawing.Proofs.Session.Resting
import RegionDrawing.Proofs.Engine.Resting
import RegionDrawing.Proofs.Registry.Agreement
import RegionDrawing.Proofs.Binary64.Rational
import RegionDrawing.Proofs.Geometry.FiniteDrag
import RegionDrawing.Proofs.Drawer.Contract
import RegionDrawing.Proofs.Session.Contract
import RegionDrawing.Proofs.Geometry.ConvexRing
import RegionDrawing.Proofs.Geometry.Outline
import RegionDrawing.Proofs.Drawer.CurveBounds
import RegionDrawing.Proofs.Geometry.SquareDrag
import RegionDrawing.Proofs.Scalar.Signed
import RegionDrawing.Proofs.Geometry.ZeroSign
import RegionDrawing.Proofs.Binary64.Negation
import RegionDrawing.Proofs.Geometry.Joints
import RegionDrawing.Proofs.Drawer.CurveSize
import RegionDrawing.Proofs.Element.VertexRuns
import RegionDrawing.Proofs.Engine.Transform
import RegionDrawing.Proofs.Element.Composition
import RegionDrawing.Proofs.Session.ClosingHint
import RegionDrawing.Proofs.Geometry.VertexSearch
import RegionDrawing.Proofs.Geometry.Union
import RegionDrawing.Proofs.Engine.Picking
import RegionDrawing.Proofs.Element.Kinds
