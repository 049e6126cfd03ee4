import LineProbe.Main
import LineProbe.Uri
import LineProbe.Proofs.Endings
import LineProbe.Proofs.Finalization
import LineProbe.Proofs.Registration
import LineProbe.Proofs.Independence
import LineProbe.Proofs.Rebuilt
import LineProbe.Proofs.Comments
import LineProbe.Proofs.ClosedDocuments
import LineProbe.Proofs.Substitution
import LineProbe.Proofs.DirectiveItems
import LineProbe.Proofs.StoppedRuns
import LineProbe.Proofs.Payloads
import LineProbe.Proofs.Lossless
import LineProbe.Proofs.Extents
import LineProbe.Proofs.PrintArguments
import LineProbe.Proofs.Settings
import LineProbe.Proofs.Termination
import LineProbe.Proofs.Slices
import LineProbe.Proofs.Deadlines
import LineProbe.Proofs.Numbering
