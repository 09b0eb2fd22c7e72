import ManagedDirectory.Signer.Replay
import ManagedDirectory.Rds.History
import ManagedDirectory.Rds.Deletion
import ManagedDirectory.Sealed.Replay
import ManagedDirectory.Rds.ChatOnce
import ManagedDirectory.RustDrop.Expiry
import ManagedDirectory.RustDrop.Storage
import ManagedDirectory.Sealed.Identity
import ManagedDirectory.Sealed.Networks
import ManagedDirectory.Operators.Ownership
import ManagedDirectory.Operators.Recovery
import ManagedDirectory.Operators.Routes
import ManagedDirectory.Passport.Clock
import ManagedDirectory.Sync.DirectoryVersions
import ManagedDirectory.Sync.DropVersions
import ManagedDirectory.Updates.Builds
import ManagedDirectory.Updates.Publish
import ManagedDirectory.Link.Revocation
import ManagedDirectory.Operators.LoginGuesses
import ManagedDirectory.Rds.ChatSockets
import ManagedDirectory.Rds.EnrollmentAttempts
import ManagedDirectory.Rds.HealthAlerts
import ManagedDirectory.Sealed.FailClosed
import ManagedDirectory.Signer.Audit
import ManagedDirectory.Signer.LogFaults
import ManagedDirectory.Sync.LongPoll
