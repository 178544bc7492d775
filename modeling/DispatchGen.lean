import DispatchGen.Catalog.VectorEngine
import DispatchGen.CatalogFile.Document
import DispatchGen.CommandLine.Session
import DispatchGen.Dispatch.Dispatcher
import DispatchGen.Log.Stages
import DispatchGen.Main
import DispatchGen.Proofs.AngleBrackets
import DispatchGen.Proofs.ArmsAndStubs
import DispatchGen.Proofs.Comments
import DispatchGen.Proofs.Complaints
import DispatchGen.Proofs.DeclarationOrder
import DispatchGen.Proofs.Delivery
import DispatchGen.Proofs.Draining
import DispatchGen.Proofs.Exclusions
import DispatchGen.Proofs.FaultReports
import DispatchGen.Proofs.ForeignParts
import DispatchGen.Proofs.Growth
import DispatchGen.Proofs.HandlerNames
import DispatchGen.Proofs.Headers
import DispatchGen.Proofs.Indentation
import DispatchGen.Proofs.Indexing
import DispatchGen.Proofs.Installation
import DispatchGen.Proofs.KeyListing
import DispatchGen.Proofs.KeyOrder
import DispatchGen.Proofs.KeySpace
import DispatchGen.Proofs.LateFaults
import DispatchGen.Proofs.Margins
import DispatchGen.Proofs.Misrouting
import DispatchGen.Proofs.NameScopes
import DispatchGen.Proofs.NearestFile
import DispatchGen.Proofs.OperandCount
import DispatchGen.Proofs.Overriding
import DispatchGen.Proofs.Prediction
import DispatchGen.Proofs.RoutineAgreement
import DispatchGen.Proofs.SavedFiles
import DispatchGen.Proofs.SignedKeys
import DispatchGen.Proofs.SourceNesting
import DispatchGen.Proofs.Verification
import DispatchGen.Proofs.Writer
import DispatchGen.Source.Manifest
import DispatchGen.Source.Writer
import DispatchGen.Storage.Artifact
import DispatchGen.Storage.CatalogFile
import DispatchGen.Storage.Workspace
import DispatchGen.Proofs.Levels
