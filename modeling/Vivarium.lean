import Vivarium.Agent.Basic
import Vivarium.Agent.Pool
import Vivarium.AgentId
import Vivarium.Behavior.Basic
import Vivarium.Behavior.Board
import Vivarium.Behavior.Commands
import Vivarium.Behavior.Turn
import Vivarium.Binary64
import Vivarium.Chunks
import Vivarium.Config
import Vivarium.Datum.Basic
import Vivarium.Datum.Json
import Vivarium.Datum.Number
import Vivarium.Datum.Record
import Vivarium.Foraging.Arena
import Vivarium.Foraging.Census
import Vivarium.Foraging.Ecology
import Vivarium.Geometry.Angle
import Vivarium.Geometry.Motion
import Vivarium.Geometry.Point
import Vivarium.Grid.Basic
import Vivarium.Grid.Direction
import Vivarium.Grid.Extent
import Vivarium.Grid.WallTable
import Vivarium.Machine
import Vivarium.Proofs.Agent.Ledger
import Vivarium.Proofs.Agent.Pool
import Vivarium.Proofs.Behavior.Accesses
import Vivarium.Proofs.Behavior.Acts
import Vivarium.Proofs.Behavior.Blind
import Vivarium.Proofs.Behavior.Deeds
import Vivarium.Proofs.Behavior.Discreet
import Vivarium.Proofs.Behavior.Ensures
import Vivarium.Proofs.Behavior.Heedless
import Vivarium.Proofs.Behavior.Told
import Vivarium.Proofs.Behavior.Workers
import Vivarium.Proofs.Binary64.Adjacent
import Vivarium.Proofs.Binary64.Arithmetic
import Vivarium.Proofs.Binary64.Distance
import Vivarium.Proofs.Binary64.HalfTurn
import Vivarium.Proofs.Binary64.Laws
import Vivarium.Proofs.Binary64.Nearest
import Vivarium.Proofs.Binary64.NextUp
import Vivarium.Proofs.Binary64.Operations
import Vivarium.Proofs.Binary64.Order
import Vivarium.Proofs.Binary64.Precision
import Vivarium.Proofs.Binary64.Reading
import Vivarium.Proofs.Binary64.Remainder
import Vivarium.Proofs.Binary64.Rounding
import Vivarium.Proofs.Foraging.Deaths
import Vivarium.Proofs.Foraging.Prey
import Vivarium.Proofs.Foraging.Turns
import Vivarium.Proofs.Geometry.Folding
import Vivarium.Proofs.Grid.Covers
import Vivarium.Proofs.Grid.DirectionNames
import Vivarium.Proofs.Grid.Edges
import Vivarium.Proofs.Grid.Edits
import Vivarium.Proofs.Grid.Rooms
import Vivarium.Proofs.Grid.WallLists
import Vivarium.Proofs.Grid.WallTables
import Vivarium.Proofs.Route.Aside
import Vivarium.Proofs.Route.Bounds
import Vivarium.Proofs.Route.Collisions
import Vivarium.Proofs.Route.Compass
import Vivarium.Proofs.Route.Crossings
import Vivarium.Proofs.Route.Exits
import Vivarium.Proofs.Route.Leg
import Vivarium.Proofs.Route.Line
import Vivarium.Proofs.Route.Memo
import Vivarium.Proofs.Route.Outcome
import Vivarium.Proofs.Route.Rooms
import Vivarium.Proofs.Route.Sight
import Vivarium.Proofs.Route.Walks
import Vivarium.Proofs.Scalar.Exact
import Vivarium.Proofs.Scalar.Precise
import Vivarium.Proofs.Scalar.Rounded
import Vivarium.Proofs.Scalar.Stepped
import Vivarium.Proofs.Scalar.Unrounded
import Vivarium.Proofs.Sim.Admission
import Vivarium.Proofs.Sim.Advance
import Vivarium.Proofs.Sim.Births
import Vivarium.Proofs.Sim.Building
import Vivarium.Proofs.Sim.Capacities
import Vivarium.Proofs.Sim.Census
import Vivarium.Proofs.Sim.Chunking
import Vivarium.Proofs.Sim.Consistent
import Vivarium.Proofs.Sim.Counting
import Vivarium.Proofs.Sim.Deliveries
import Vivarium.Proofs.Sim.Engine
import Vivarium.Proofs.Sim.Failure
import Vivarium.Proofs.Sim.History
import Vivarium.Proofs.Sim.Independence
import Vivarium.Proofs.Sim.Mail
import Vivarium.Proofs.Sim.Modification
import Vivarium.Proofs.Sim.Moved
import Vivarium.Proofs.Sim.Movement
import Vivarium.Proofs.Sim.Newborns
import Vivarium.Proofs.Sim.NextStep
import Vivarium.Proofs.Sim.Orderly
import Vivarium.Proofs.Sim.Recycling
import Vivarium.Proofs.Sim.Removals
import Vivarium.Proofs.Sim.Reports
import Vivarium.Proofs.Sim.Run
import Vivarium.Proofs.Sim.Stock
import Vivarium.Proofs.Sim.Stores
import Vivarium.Proofs.Sim.Streams
import Vivarium.Proofs.Slots
import Vivarium.Proofs.Space.Bulk
import Vivarium.Proofs.Space.Chart
import Vivarium.Proofs.Space.Clamping
import Vivarium.Proofs.Space.Freshness
import Vivarium.Proofs.Space.Headings
import Vivarium.Proofs.Space.Listing
import Vivarium.Proofs.Space.Lookup
import Vivarium.Proofs.Space.Moved
import Vivarium.Proofs.Space.NonFinite
import Vivarium.Proofs.Space.Populations
import Vivarium.Proofs.Space.Queries
import Vivarium.Proofs.Space.Rooms
import Vivarium.Proofs.Space.Run
import Vivarium.Proofs.Space.Sight
import Vivarium.Proofs.Space.Store
import Vivarium.Proofs.Space.Walls
import Vivarium.Proofs.Text.Csv
import Vivarium.Random.Draw
import Vivarium.Random.Stream
import Vivarium.Route.Course
import Vivarium.Route.Search
import Vivarium.Route.Segment
import Vivarium.Route.Terrain
import Vivarium.Scalar
import Vivarium.Script.Basic
import Vivarium.Script.Record
import Vivarium.Selection
import Vivarium.Sim.Basic
import Vivarium.Sim.Error
import Vivarium.Sim.Journal
import Vivarium.Sim.Queues
import Vivarium.Sim.Setup
import Vivarium.Sim.Step
import Vivarium.Space.Basic
import Vivarium.Space.Entry
import Vivarium.Space.Listing
import Vivarium.Space.Populations
import Vivarium.Space.SpatialIndex
import Vivarium.Step
import Vivarium.Text.Blank
import Vivarium.Text.Csv
import Vivarium.Text.FixedPlaces
import Vivarium.Text.Quoted
import Vivarium.Text.Shortest
import Vivarium.Text.Unprintable
