import RecordKit.Dictionary.Directory
import RecordKit.Dictionary.Session
import RecordKit.Document.Load
import RecordKit.Expiring.Session
import RecordKit.Sample.Records
import RecordKit.Settings.Logging
import RecordKit.Workbench.Basic
import RecordKit.Proofs.Check.Bounds
import RecordKit.Proofs.Check.Email
import RecordKit.Proofs.Check.JoinedTags
import RecordKit.Proofs.Check.Outcome
import RecordKit.Proofs.Check.Spelling
import RecordKit.Proofs.Check.Uuid
import RecordKit.Proofs.Check.Wrapping
import RecordKit.Proofs.Copy.Complete
import RecordKit.Proofs.Copy.Noninterference
import RecordKit.Proofs.Copy.Order
import RecordKit.Proofs.Copy.Renesting
import RecordKit.Proofs.Copy.Reordering
import RecordKit.Proofs.Copy.Residue
import RecordKit.Proofs.Copy.SingleField
import RecordKit.Proofs.Dictionary.Identity
import RecordKit.Proofs.Dictionary.TypedLookups
import RecordKit.Proofs.Expiring.Capacity
import RecordKit.Proofs.Expiring.Purge
import RecordKit.Proofs.Expiring.UseOrder
import RecordKit.Proofs.Record.Floats
import RecordKit.Proofs.Record.Towers
import RecordKit.Proofs.Settings.Caches
import RecordKit.Proofs.Shape.Tallies
import RecordKit.Proofs.Shared.KeyMap
import RecordKit.Proofs.Text.Languages
import RecordKit.Proofs.Workbench.CopyLists
import RecordKit.Proofs.Workbench.Handles
import RecordKit.Proofs.Workbench.Registries
