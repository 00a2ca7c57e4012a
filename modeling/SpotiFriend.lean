import SpotiFriend.Async.Machine
import SpotiFriend.Async.Run
import SpotiFriend.Store.Collection
import SpotiFriend.Text.Substring
import SpotiFriend.Text.Uri
import SpotiFriend.Model.Value
import SpotiFriend.Text.Pattern
import SpotiFriend.Model.Backend
import SpotiFriend.Model.Device
import SpotiFriend.Model.Accounts
import SpotiFriend.Model.App
import SpotiFriend.Spec.Actions
import SpotiFriend.Async.Jobs
import SpotiFriend.Spec.Documents
import SpotiFriend.Concurrent.FoundCounter
import SpotiFriend.Concurrent.HasFound
import SpotiFriend.Concurrent.Session
import SpotiFriend.Concurrent.CreatedCounter
import SpotiFriend.Concurrent.Pins
import SpotiFriend.Concurrent.Deletion
import SpotiFriend.Text.UriText
import SpotiFriend.Concurrent.Links
import SpotiFriend.Async.Sequential
import SpotiFriend.Sequential.OneToOne
import SpotiFriend.Sequential.Operations
import SpotiFriend.Sequential.WriteBack
import SpotiFriend.Sequential.Removal
import SpotiFriend.Sequential.Failures
import SpotiFriend.Sequential.Profile
import SpotiFriend.Sequential.Consistency
import SpotiFriend.Sequential.Credits
import SpotiFriend.Sequential.Renaming
import SpotiFriend.Concurrent.Provenance
import SpotiFriend.Spec.Reload
import SpotiFriend.Concurrent.Overlap
import SpotiFriend.Sequential.Reloading
import SpotiFriend.Sequential.StartUp
import SpotiFriend.Async.Clock
import SpotiFriend.Concurrent.Expiry
import SpotiFriend.Spec.Emails
import SpotiFriend.Spec.Pictures
import SpotiFriend.Concurrent.Radius
import SpotiFriend.Sequential.Inputs
import SpotiFriend.Concurrent.Uploads
import SpotiFriend.Concurrent.Losses
import SpotiFriend.Async.Settling
import SpotiFriend.Concurrent.Settling
import SpotiFriend.Spec.Shapes
import SpotiFriend.Concurrent.Shapes
import SpotiFriend.Concurrent.Crashes
import SpotiFriend.Concurrent.Alerts
import SpotiFriend.Concurrent.Display
import SpotiFriend.Concurrent.Features
import SpotiFriend.Async.Refinement
import SpotiFriend.Concurrent.Writes
import SpotiFriend.Sequential.Directory
import SpotiFriend.Sequential.Refinement
import SpotiFriend.Concurrent.Entry
import SpotiFriend.Concurrent.Pictures
import SpotiFriend.Store.Board
import SpotiFriend.Sequential.Board
