import PluginHost.Main
import PluginHost.Proofs.Registry.Balance
import PluginHost.Proofs.Registry.Batch
import PluginHost.Proofs.Registry.Sequential
import PluginHost.Session.Run
import PluginHost.Proofs.Dependency.Cycle
import PluginHost.Proofs.Registry.Run
import PluginHost.Proofs.Registry.Initialisation
import PluginHost.Proofs.Registry.Reliance
import PluginHost.Proofs.Route.Table
import PluginHost.Proofs.Registry.Binding
import PluginHost.Proofs.Registry.Replacement
import PluginHost.Proofs.Registry.Serving
import PluginHost.Proofs.Registry.Health
import PluginHost.Proofs.Registry.Switching
import PluginHost.Proofs.Registry.Shutdown
import PluginHost.Proofs.Watch.Handles
import PluginHost.Proofs.Watch.Convergence
import PluginHost.Proofs.Registry.Isolation
import PluginHost.Proofs.Directory.Startup
import PluginHost.Proofs.Watch.Rescan
import PluginHost.Proofs.CommandLine.Check
import PluginHost.Proofs.CommandLine.Manifest
import PluginHost.Proofs.Route.History
import PluginHost.Proofs.Loader.Custody
import PluginHost.Proofs.Registry.Views
import PluginHost.Proofs.Dependency.Precedence
import PluginHost.Proofs.Dependency.Search
import PluginHost.Proofs.Registry.Atomicity
import PluginHost.Proofs.Registry.Diagnosis
import PluginHost.Proofs.Registry.AllRoutes
import PluginHost.Proofs.Route.Pipeline
import PluginHost.Proofs.Registry.Rebinding
import PluginHost.Proofs.Directory.Accounting
import PluginHost.Proofs.Directory.Lookup
import PluginHost.Proofs.Watch.Gating
import PluginHost.Proofs.Directory.Runtime
import PluginHost.Proofs.Config
import PluginHost.Proofs.Dependency.Contents
import PluginHost.Proofs.Route.Mounting
import PluginHost.Proofs.Watch.Recognition
import PluginHost.Proofs.Manifest.Fields
