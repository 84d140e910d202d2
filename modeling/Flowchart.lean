import Flowchart.Main
import Flowchart.Service
import Flowchart.Proofs.Drawing.Invariant
import Flowchart.Proofs.Drawing.Runs
import Flowchart.Proofs.Drawing.Reducible
import Flowchart.Proofs.Drawing.Degrees
import Flowchart.Proofs.Mermaid.Valid
import Flowchart.Proofs.Mermaid.ReadBack
import Flowchart.Proofs.Drawing.ElseIf
import Flowchart.Proofs.Source.Layout
import Flowchart.Proofs.Source.Boundary
import Flowchart.Proofs.Source.LineEnds
import Flowchart.Proofs.Mermaid.Recovery
import Flowchart.Proofs.Graph.RoundTrip
import Flowchart.Proofs.Graph.Store
import Flowchart.Proofs.Source.Substance
import Flowchart.Proofs.Drawing.Size
import Flowchart.Proofs.Source.Position
import Flowchart.Proofs.Service.Agreement
import Flowchart.Proofs.Source.Lookahead
import Flowchart.Proofs.Source.Recorded
import Flowchart.Proofs.Drawing.Branches
import Flowchart.Proofs.Drawing.Fragment
import Flowchart.Proofs.Drawing.Refusal
import Flowchart.Proofs.Drawing.Shortening
import Flowchart.Proofs.Drawing.Nesting
import Flowchart.Proofs.Drawing.DanglingElse
import Flowchart.Proofs.Graph.Tables
import Flowchart.Proofs.Mermaid.Line
import Flowchart.Proofs.Mermaid.Mentions
import Flowchart.Proofs.Drawing.LogCall
import Flowchart.Proofs.Settings.RoundTrip
import Flowchart.Proofs.Settings.Loading
import Flowchart.Mermaid.Scratch
import Flowchart.Proofs.Mermaid.Review
import Flowchart.Proofs.Command.Effects
