import BlockStage.Block.Kind
import BlockStage.Block.Program
import BlockStage.Block.Remap
import BlockStage.Block.Target
import BlockStage.Clock
import BlockStage.Config
import BlockStage.Decimal.Fixed
import BlockStage.Decimal.Reader
import BlockStage.Decimal.Shortest
import BlockStage.Event
import BlockStage.Fault
import BlockStage.Fixture.Basic
import BlockStage.Fixture.Record
import BlockStage.Fixture.Run
import BlockStage.Geometry.Box
import BlockStage.Geometry.Canvas
import BlockStage.Geometry.Glide
import BlockStage.Geometry.Placement
import BlockStage.Geometry.Scalar
import BlockStage.Geometry.Vec
import BlockStage.Journal
import BlockStage.Json.Basic
import BlockStage.Json.Decode
import BlockStage.Json.Printer
import BlockStage.Json.Reader
import BlockStage.Key
import BlockStage.Main
import BlockStage.Number.Binary
import BlockStage.Number.Rounding
import BlockStage.Options
import BlockStage.Proofs.Block.ReadBack
import BlockStage.Proofs.Block.Rename
import BlockStage.Proofs.Block.Substitution
import BlockStage.Proofs.Chronicle.Aloof
import BlockStage.Proofs.Chronicle.Basic
import BlockStage.Proofs.Chronicle.Births
import BlockStage.Proofs.Chronicle.Catalogue
import BlockStage.Proofs.Chronicle.Click
import BlockStage.Proofs.Chronicle.Contract
import BlockStage.Proofs.Chronicle.Delivery
import BlockStage.Proofs.Chronicle.Faithful
import BlockStage.Proofs.Chronicle.Halt
import BlockStage.Proofs.Chronicle.Laps
import BlockStage.Proofs.Chronicle.Lively
import BlockStage.Proofs.Chronicle.Mail
import BlockStage.Proofs.Chronicle.Nursery
import BlockStage.Proofs.Chronicle.Onset
import BlockStage.Proofs.Chronicle.Opening
import BlockStage.Proofs.Chronicle.Phase
import BlockStage.Proofs.Chronicle.Post
import BlockStage.Proofs.Chronicle.Prefilter
import BlockStage.Proofs.Chronicle.Repose
import BlockStage.Proofs.Chronicle.Starting
import BlockStage.Proofs.Chronicle.Tale
import BlockStage.Proofs.Chronicle.Tells
import BlockStage.Proofs.Chronicle.Templates
import BlockStage.Proofs.Chronicle.Touch
import BlockStage.Proofs.Chronicle.Trace
import BlockStage.Proofs.Chronicle.Walk
import BlockStage.Proofs.Chronicle.Watch
import BlockStage.Proofs.Chronicle.Yields
import BlockStage.Proofs.Fixture.Golden
import BlockStage.Proofs.Fixture.ReadBack
import BlockStage.Proofs.Geometry.Exact
import BlockStage.Proofs.Geometry.Frame
import BlockStage.Proofs.Json.ReadBack
import BlockStage.Proofs.Number.Arithmetic
import BlockStage.Proofs.Number.Nearest
import BlockStage.Proofs.Number.Order
import BlockStage.Proofs.Number.Whole
import BlockStage.Proofs.Number.Word
import BlockStage.Proofs.Playback
import BlockStage.Proofs.Random
import BlockStage.Proofs.Run
import BlockStage.Proofs.Scene.ReadBack
import BlockStage.Proofs.Script.Diagnosis
import BlockStage.Proofs.Script.Loops
import BlockStage.Proofs.Script.Place
import BlockStage.Proofs.Script.Refinement
import BlockStage.Proofs.Script.Tour
import BlockStage.Proofs.Session.Budget
import BlockStage.Proofs.Session.Catalogs
import BlockStage.Proofs.Session.Ceiling
import BlockStage.Proofs.Session.Chores
import BlockStage.Proofs.Session.Clone
import BlockStage.Proofs.Session.Course
import BlockStage.Proofs.Session.Declined
import BlockStage.Proofs.Session.Deed
import BlockStage.Proofs.Session.Finishing
import BlockStage.Proofs.Session.Hollow
import BlockStage.Proofs.Session.Lineage
import BlockStage.Proofs.Session.Load
import BlockStage.Proofs.Session.Loading
import BlockStage.Proofs.Session.Lookup
import BlockStage.Proofs.Session.Pausing
import BlockStage.Proofs.Session.Playing
import BlockStage.Proofs.Session.Provenance
import BlockStage.Proofs.Session.Registry
import BlockStage.Proofs.Session.Renewal
import BlockStage.Proofs.Session.Replica
import BlockStage.Proofs.Session.Round
import BlockStage.Proofs.Session.Schedule
import BlockStage.Proofs.Session.Script
import BlockStage.Proofs.Session.Settled
import BlockStage.Proofs.Session.Silence
import BlockStage.Proofs.Session.Stable
import BlockStage.Proofs.Session.Staying
import BlockStage.Proofs.Session.Suspense
import BlockStage.Proofs.Session.Turns
import BlockStage.Proofs.Session.Unbroken
import BlockStage.Proofs.Session.Vacancy
import BlockStage.Proofs.Spelling
import BlockStage.Proofs.Stage.Cast
import BlockStage.Proofs.Stage.Chain
import BlockStage.Proofs.Stage.Clones
import BlockStage.Proofs.Stage.Footing
import BlockStage.Proofs.Stage.Forest
import BlockStage.Proofs.Stage.InStep
import BlockStage.Proofs.Stage.Links
import BlockStage.Proofs.Stage.Operation
import BlockStage.Proofs.Stage.Pointing
import BlockStage.Proofs.Stage.Reframe
import BlockStage.Proofs.Stage.Refusal
import BlockStage.Proofs.Stage.Resize
import BlockStage.Proofs.Stage.Rest
import BlockStage.Proofs.Stage.Roster
import BlockStage.Proofs.Stage.Solids
import BlockStage.Proofs.Stage.Unseen
import BlockStage.Proofs.Table
import BlockStage.Proofs.Text.Lowercase
import BlockStage.Proofs.Trimming
import BlockStage.Proofs.Variable.Naming
import BlockStage.Proofs.Variable.Store
import BlockStage.Proofs.Variable.Typing
import BlockStage.Random
import BlockStage.Scene
import BlockStage.Script.Arithmetic
import BlockStage.Script.Compiler
import BlockStage.Script.Machine
import BlockStage.Script.Meaning
import BlockStage.Script.Syntax
import BlockStage.Session.Basic
import BlockStage.Session.Call
import BlockStage.Session.Delivery
import BlockStage.Session.Entities
import BlockStage.Session.Evaluation
import BlockStage.Session.Lifecycle
import BlockStage.Session.Scripts
import BlockStage.Session.Tasks
import BlockStage.Sound
import BlockStage.Stage.Attachment
import BlockStage.Stage.Basic
import BlockStage.Stage.Body
import BlockStage.Stage.Motion
import BlockStage.Stage.Pose
import BlockStage.Stage.Roster
import BlockStage.Stage.Sensing
import BlockStage.Stage.Solids
import BlockStage.Table
import BlockStage.Text.Blank
import BlockStage.Text.CaseData
import BlockStage.Text.Lowercase
import BlockStage.Value
import BlockStage.Variable
