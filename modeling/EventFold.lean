import EventFold.Main
import EventFold.Proofs.Aggregator.Funnels
import EventFold.Proofs.Aggregator.Machines
import EventFold.Proofs.Catalog
import EventFold.Proofs.Engine.Asking
import EventFold.Proofs.Engine.Checks
import EventFold.Proofs.Engine.Guarded
import EventFold.Proofs.Engine.Independence
import EventFold.Proofs.Engine.InForce
import EventFold.Proofs.Engine.Live
import EventFold.Proofs.Engine.Reapplying
import EventFold.Proofs.Engine.Reconciled
import EventFold.Proofs.Engine.Restoring
import EventFold.Proofs.Engine.Retrying
import EventFold.Proofs.Engine.Slots
import EventFold.Proofs.Engine.Tracking
import EventFold.Proofs.Eval.CallGraph
import EventFold.Proofs.Eval.Locality
import EventFold.Proofs.Eval.Operands
import EventFold.Proofs.Event.Readers
import EventFold.Proofs.Form.Offences
import EventFold.Proofs.Form.Spelling
import EventFold.Proofs.Form.Vocabularies
import EventFold.Proofs.Form.Zeros
import EventFold.Proofs.Session.Application
import EventFold.Proofs.Session.Catalogs
import EventFold.Proofs.Session.Checkpoint
import EventFold.Proofs.Session.Lines
import EventFold.Proofs.Session.Records
import EventFold.Proofs.Snapshot.Rewritten
import EventFold.Proofs.Snapshot.Saved
import EventFold.Proofs.Specification.Rewritten
import EventFold.Proofs.Number.Finite
import EventFold.Proofs.Json.Trees
import EventFold.Proofs.Json.Rewritten
