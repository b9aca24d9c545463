import ProgramGraph.Main
import ProgramGraph.Proofs.Dot.Clusters
import ProgramGraph.Proofs.Extraction.Placement
import ProgramGraph.Proofs.Extraction.Agreement
import ProgramGraph.Proofs.Extraction.Nesting
import ProgramGraph.Proofs.Extraction.Uses
import ProgramGraph.Proofs.Files.Batch
import ProgramGraph.Proofs.Files.Isolation
import ProgramGraph.Proofs.Files.Stored
import ProgramGraph.Proofs.Graph.History
import ProgramGraph.Proofs.Graph.KeyMap
import ProgramGraph.Proofs.Graph.NodeRemoval
import ProgramGraph.Proofs.Dot.Depth
import ProgramGraph.Proofs.Files.Failures
import ProgramGraph.Proofs.Source.Spacing
import ProgramGraph.Proofs.Graph.Confluence
import ProgramGraph.Proofs.Graph.EdgeRemoval
import ProgramGraph.Proofs.OutputPath
