import Keychute.Db.Store
import Keychute.Proxy
import Keychute.PolicyForms
import Keychute.Db.Grants
import Keychute.Db.Secrets
import Keychute.Db.Requests
import Keychute.Db.Ops
import Keychute.Accounting
import Keychute.Lifecycle
import Keychute.Writes
import Keychute.Incarnation
import Keychute.Caps
import Keychute.Retirement
import Keychute.LockOrder
import Keychute.Deadlines
import Keychute.Idempotency
import Keychute.Notify
import Keychute.Pushes
import Keychute.ProxyHandler
import Keychute.Forwarding
import Keychute.Cli.Target
import Keychute.Jwks
import Keychute.Crypto
import Keychute.Cli.Store
import Keychute.Reconcile.Policies
import Keychute.Reconcile.Clients
import Keychute.Reconcile.Secrets
import Keychute.Ui.Approve
import Keychute.Lib.Delimited
import Keychute.Canonical
import Keychute.Lib.BigEndian
import Keychute.Lib.Base64Url
import Keychute.Cli.Binding
import Keychute.Cli.Capture
import Keychute.Ui.Csrf
import Keychute.Template
import Keychute.Ui.Settings
import Keychute.Cli.Headers
import Keychute.Signing
import Keychute.Origins
import Keychute.ActiveGrants
import Keychute.Ui.Vetting
import Keychute.Ui.PolicyValues
import Keychute.Lib.FormUrlencoded
import Keychute.Ui.Prefill
import Keychute.Replays
import Keychute.Api.Read
import Keychute.Reads
import Keychute.Isolation
import Keychute.Cli.Lossy
import Keychute.Authentication
import Keychute.Slots
import Keychute.Cli.Reuse
