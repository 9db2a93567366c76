import DomainColoring.Main
import DomainColoring.Proofs.Postfix.Grammar
import DomainColoring.Proofs.Postfix.Streaming
import DomainColoring.Proofs.Postfix.Literal
import DomainColoring.Proofs.Postfix.Lexing
import DomainColoring.Proofs.Postfix.Substitution
import DomainColoring.Proofs.Postfix.Room
import DomainColoring.Proofs.Image.Grid
import DomainColoring.Proofs.Session.Committed
import DomainColoring.Proofs.Session.Readout
import DomainColoring.Proofs.Session.Refused
import DomainColoring.Proofs.Session.Timing
import DomainColoring.Proofs.Session.Unfailing
import DomainColoring.Proofs.Session.Events
import DomainColoring.Proofs.Session.Lines
import DomainColoring.Proofs.Renderer.Superseded
import DomainColoring.Proofs.Renderer.Polling
import DomainColoring.Proofs.Export.Encodable
import DomainColoring.Proofs.Export.Failed
import DomainColoring.Proofs.Export.Reproduced
import DomainColoring.Proofs.Plot.Reported
import DomainColoring.Proofs.Color.White
import DomainColoring.Proofs.Viewport.Cells
import DomainColoring.Proofs.Viewport.Points
import DomainColoring.Proofs.Viewport.Order
import DomainColoring.Proofs.ComplexNumber.Inverse
import DomainColoring.Proofs.ComplexNumber.Analysis
import DomainColoring.Proofs.Renderer.Waiting
import DomainColoring.Proofs.Export.Dimensions
import DomainColoring.Proofs.Plot.Stored
import DomainColoring.Proofs.ComplexNumber.Printed
