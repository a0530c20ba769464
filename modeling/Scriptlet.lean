import Scriptlet.Main
import Scriptlet.Proofs.Token.Segmentation
import Scriptlet.Proofs.Program.Completeness
import Scriptlet.Proofs.Scope.Sites
import Scriptlet.Proofs.Program.Numbering
import Scriptlet.Proofs.Lexical.Semantics
import Scriptlet.Proofs.Scope.Rows
import Scriptlet.Proofs.Lexical.Atlas
import Scriptlet.Proofs.Lexical.Alike
import Scriptlet.Proofs.Lexical.Mirror
import Scriptlet.Proofs.Lexical.Places
import Scriptlet.Proofs.Lexical.Match
import Scriptlet.Proofs.Lexical.Simulation
import Scriptlet.Proofs.Scope.Routines
import Scriptlet.Proofs.Program.Compiled
import Scriptlet.Proofs.Session.Distances
import Scriptlet.Proofs.Lexical.Refinement
import Scriptlet.Proofs.Session.Moments
import Scriptlet.Proofs.Session.Readiness
import Scriptlet.Proofs.Session.Reached
import Scriptlet.Proofs.Session.Agreement
import Scriptlet.Proofs.Session.Transcript
import Scriptlet.Proofs.Control.Restored
import Scriptlet.Proofs.Control.Calls
import Scriptlet.Proofs.Control.Attained
import Scriptlet.Proofs.Termination.Fuel
import Scriptlet.Proofs.Termination.LoopFree
import Scriptlet.Proofs.Termination.Rank
import Scriptlet.Proofs.Termination.Sessions
import Scriptlet.Proofs.Joined.Relocation
import Scriptlet.Proofs.Joined.Scan
import Scriptlet.Proofs.Program.Ample
import Scriptlet.Proofs.Joined.Reading
import Scriptlet.Proofs.Joined.Parse
import Scriptlet.Proofs.Joined.Compile
import Scriptlet.Proofs.Joined.Evaluation
import Scriptlet.Proofs.Joined.Sessions
import Scriptlet.Proofs.Scope.Trails
import Scriptlet.Proofs.Scope.Offences
import Scriptlet.Proofs.Scope.References
import Scriptlet.Proofs.Session.Kept
import Scriptlet.Proofs.Joined.Renumbering
import Scriptlet.Proofs.Session.Rejected
import Scriptlet.Proofs.Program.Nodes
import Scriptlet.Proofs.Program.Placement
import Scriptlet.Proofs.Program.Tape
import Scriptlet.Proofs.Program.Ascent
import Scriptlet.Proofs.Program.Thrift
import Scriptlet.Proofs.Program.Wrapping
import Scriptlet.Proofs.Program.Bounds
import Scriptlet.Proofs.Session.Printing
import Scriptlet.Proofs.Session.Sink
import Scriptlet.Proofs.Session.Capacity
import Scriptlet.Proofs.Token.Locality
import Scriptlet.Proofs.Token.Spacing
import Scriptlet.Proofs.Token.Mending
import Scriptlet.Proofs.Origin.Makings
import Scriptlet.Proofs.Origin.Policy
import Scriptlet.Proofs.Origin.Flow
import Scriptlet.Proofs.Origin.Inner
import Scriptlet.Proofs.Origin.Fresh
import Scriptlet.Proofs.Origin.Runs
import Scriptlet.Proofs.Origin.Identity
import Scriptlet.Proofs.Token.Spelling
import Scriptlet.Proofs.Objects.History
import Scriptlet.Proofs.Token.Ending
import Scriptlet.Proofs.Program.Edges
import Scriptlet.Proofs.Joined.Content
import Scriptlet.Proofs.Session.Lines
import Scriptlet.Proofs.Origin.Course
import Scriptlet.Proofs.Origin.Reserved
import Scriptlet.Proofs.Objects.Initializers
import Scriptlet.Proofs.Objects.Supers
import Scriptlet.Proofs.Objects.Heritage
import Scriptlet.Proofs.Program.Charges
import Scriptlet.Proofs.Scope.Pointing
import Scriptlet.Proofs.Dump.Parsed
import Scriptlet.Proofs.Program.Fusion
import Scriptlet.Proofs.Program.Seams
import Scriptlet.Proofs.Program.Omission
import Scriptlet.Proofs.Program.Unended
import Scriptlet.Proofs.Program.Recovery
import Scriptlet.Proofs.Session.Handover
import Scriptlet.Proofs.Environment.Walks
import Scriptlet.Proofs.Environment.Forest
