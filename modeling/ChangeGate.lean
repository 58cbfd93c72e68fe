import ChangeGate.Home
import ChangeGate.Session.Run
import ChangeGate.Proofs.NameMap
import ChangeGate.Proofs.Snapshot.Fold
import ChangeGate.Proofs.Change.Mutation
import ChangeGate.Proofs.Change.Run
import ChangeGate.Proofs.Session.Covered
import ChangeGate.Proofs.Session.Restart
import ChangeGate.Proofs.Session.Current
import ChangeGate.Proofs.Session.Accept
import ChangeGate.Proofs.Session.Notice
import ChangeGate.Proofs.Session.Refusal
import ChangeGate.Proofs.Session.LoggingOnly
import ChangeGate.Proofs.Session.Independent
import ChangeGate.Proofs.Session.Settled
import ChangeGate.Proofs.Session.Shadowed
import ChangeGate.Proofs.Store.Canonical
import ChangeGate.Proofs.Session.Migration
import ChangeGate.Proofs.Storage.Mirror
import ChangeGate.Proofs.Number.Integers
import ChangeGate.Proofs.Change.Answers
import ChangeGate.Proofs.Session.Answers
import ChangeGate.Proofs.Override.Draft
import ChangeGate.Proofs.Snapshot.Completion
import ChangeGate.Proofs.Snapshot.Precedence
import ChangeGate.Proofs.Session.Merged
import ChangeGate.Proofs.Identifier.Ulid
import ChangeGate.Proofs.Storage.Retained
import ChangeGate.Proofs.Session.LogFile
import ChangeGate.Proofs.Store.Replaced
