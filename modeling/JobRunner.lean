import JobRunner.Store.ClaimOrder
import JobRunner.Store.Claimers
import JobRunner.Store.Frame
import JobRunner.Store.Payload
import JobRunner.Worker.Shutdown
import JobRunner.Http.Create
import JobRunner.Daemon.Startup
import JobRunner.Qbo.CallRun
import JobRunner.Qbo.Clock
import JobRunner.Qbo.ParseKey
import JobRunner.Qbo.Format
import JobRunner.Qbo.Rotation
import JobRunner.Claude.Secrets
import JobRunner.Jobctl.RepName
import JobRunner.Jobctl.Resolve
import JobRunner.Jobctl.Url
import JobRunner.Jobctl.QueryText
import JobRunner.Jobctl.FormatTable
import JobRunner.Jobctl.Attach
import JobRunner.Jobctl.ClassTree
import JobRunner.Jobctl.Linked
import JobRunner.Jobctl.Conserved
import JobRunner.Jobctl.CustomerTotal
import JobRunner.Jobctl.Sections
import JobRunner.Jobctl.Depths
import JobRunner.Jobctl.Args
import JobRunner.Mcp.Server
import JobRunner.Store.Overtaking
import JobRunner.Jobctl.Watch
import JobRunner.Jobctl.Ask
import JobRunner.Jobctl.Transport
import JobRunner.Mcp.Connection
import JobRunner.Mcp.Company
import JobRunner.Worker.Workspaces
import JobRunner.Claude.Output
import JobRunner.Daemon.Lifetimes
import JobRunner.Daemon.Config
import JobRunner.Jobctl.SqlQuery
import JobRunner.Jobctl.EnvFile
import JobRunner.Jobctl.Retrieve
import JobRunner.Jobctl.Enqueue
import JobRunner.Qbo.RefreshRequest
import JobRunner.Http.Accounts
