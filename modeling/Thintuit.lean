import Thintuit.Client.Agreement
import Thintuit.Client.Apart
import Thintuit.Client.ApiTest
import Thintuit.Client.Authority
import Thintuit.Client.Bodies
import Thintuit.Client.Browsers
import Thintuit.Client.Chart
import Thintuit.Client.Controls
import Thintuit.Client.Dashboard
import Thintuit.Client.Destination
import Thintuit.Client.Fetch
import Thintuit.Client.Forms
import Thintuit.Client.Interceptor
import Thintuit.Client.LocalStorage
import Thintuit.Client.Network
import Thintuit.Client.PlainHttp
import Thintuit.Client.PortUrls
import Thintuit.Client.Purity
import Thintuit.Client.Selection
import Thintuit.Client.SignIn
import Thintuit.Client.Submissions
import Thintuit.Client.Twice
import Thintuit.Client.Views
import Thintuit.Interaction.Directory
import Thintuit.Interaction.History
import Thintuit.Interaction.Interleaving
import Thintuit.Interaction.KeyValue
import Thintuit.Interaction.Leases
import Thintuit.Interaction.Linearization
import Thintuit.Interaction.Lockstep
import Thintuit.Interaction.Pools
import Thintuit.Interaction.Program
import Thintuit.Interaction.Serial
import Thintuit.Server.Accounts
import Thintuit.Server.Accuracy
import Thintuit.Server.Answers
import Thintuit.Server.ChangePassword
import Thintuit.Server.Concurrency
import Thintuit.Server.Database
import Thintuit.Server.DeleteAccount
import Thintuit.Server.Effects
import Thintuit.Server.ErrorAnswers
import Thintuit.Server.Fallback
import Thintuit.Server.Handlers
import Thintuit.Server.Identity
import Thintuit.Server.Linearizable
import Thintuit.Server.NonInterference
import Thintuit.Server.PasswordInForce
import Thintuit.Server.Pending
import Thintuit.Server.Pool
import Thintuit.Server.PoolRuns
import Thintuit.Server.PoolTurns
import Thintuit.Server.Programs
import Thintuit.Server.Reference
import Thintuit.Server.Registrations
import Thintuit.Server.Roles
import Thintuit.Server.Routes
import Thintuit.Server.Runtime
import Thintuit.Server.SameButPasswords
import Thintuit.Server.Serializable
import Thintuit.Server.Session
import Thintuit.Server.SingleRequest
import Thintuit.Server.Snapshots
import Thintuit.Server.Values
import Thintuit.Server.Writes
import Thintuit.Sql.OrderBy
import Thintuit.Text.Reading
import Thintuit.Text.Rewriting
