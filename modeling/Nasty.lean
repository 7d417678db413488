import Nasty.Network.RoundTrip
import Nasty.Network.Inherit
import Nasty.Network.Kept
import Nasty.Cron.Weekday
import Nasty.Scrub.Scheduler
import Nasty.Backup.Scheduler
import Nasty.Backup.Status
import Nasty.Backup.Migrate
import Nasty.Backup.Durable
import Nasty.Backup.RestUrl
import Nasty.Backup.Overlap
import Nasty.Firewall.Conflicts
import Nasty.Firewall.Protocols
import Nasty.Firewall.Kept
import Nasty.Webui.Listeners
import Nasty.Guest.Counters
import Nasty.Guest.Archive
import Nasty.Auth.Timestamps
import Nasty.Auth.Sessions
import Nasty.Auth.Attempts
import Nasty.Auth.OidcRoles
import Nasty.Auth.Durable
import Nasty.Storage.ListCache
import Nasty.System.AcmeJournal
import Nasty.System.SecureBoot
import Nasty.System.Alerts
import Nasty.System.Passthrough
import Nasty.Vm.QemuArgs
import Nasty.Files.Upload
import Nasty.Files.Isolation
import Nasty.Files.Items
import Nasty.Subvolumes.Children
import Nasty.Subvolumes.Loops
import Nasty.Apps.Removal
import Nasty.Sharing.NvmePorts
import Nasty.Sharing.Remap
import Nasty.Sharing.Smb
import Nasty.Sharing.Nfs
import Nasty.Cascade.FsLock
import Nasty.Cascade.SubvolRollback
import Nasty.Storage.Registrations
import Nasty.Subvolumes.Properties
import Nasty.Subvolumes.Quota
