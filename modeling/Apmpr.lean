import Apmpr.Router.ForwardProxy
import Apmpr.Router.HttpProxy
import Apmpr.Router.HostNames
import Apmpr.Router.Process
import Apmpr.Router.Tcp
import Apmpr.Router.Transparent
import Apmpr.State.Reconcile
import Apmpr.State.RouterApply
import Apmpr.Daemon.Operations
import Apmpr.Daemon.EventLog
import Apmpr.Daemon.Definition
import Apmpr.Daemon.Listing
import Apmpr.Daemon.LiveBinding
import Apmpr.Daemon.RunActions
import Apmpr.Daemon.Execute
import Apmpr.Sources.Clone
import Apmpr.Sources.Containment
import Apmpr.Sources.Creation
import Apmpr.Sources.HostKey
import Apmpr.Sources.Status
import Apmpr.Planner.Membership
import Apmpr.Planner.Conservative
import Apmpr.Planner.Closed
import Apmpr.Planner.Origins
import Apmpr.Planner.Panics
import Apmpr.Planner.Credentials
import Apmpr.Planner.ImportConflicts
import Apmpr.Planner.BrowserRouting
import Apmpr.Planner.Moves
import Apmpr.Planner.Dependencies
import Apmpr.Planner.Preview
import Apmpr.Planner.ProfilePorts
import Apmpr.Planner.Sidecars
import Apmpr.Planner.Templates
import Apmpr.Planner.Artifacts
import Apmpr.Host.Runtime
import Apmpr.Ops.Projections
import Apmpr.Ops.ShellCommands
import Apmpr.Adapters.Registry
import Apmpr.Cli.Diagnostics
import Apmpr.Cli.Migrate
import Apmpr.Lib.Records
import Apmpr.Daemon.EventClient
import Apmpr.Daemon.Lifecycle
import Apmpr.Daemon.Requests
import Apmpr.Router.AdminChannel
