import PpBrowser.Broadcast.PeerAnnounceFeed
import PpBrowser.Broadcast.ViewerLadder
import PpBrowser.Calls.CallGuestsRun
import PpBrowser.Calls.CallRosterRun
import PpBrowser.Calls.LiveCallRun
import PpBrowser.Calls.MediaSeqWindow
import PpBrowser.Delivery.EnvelopeRead
import PpBrowser.Delivery.OutboundMessage
import PpBrowser.Delivery.PublicPskRotateRun
import PpBrowser.Delivery.TextSpans
import PpBrowser.Lib.Linked
import PpBrowser.Media.MediaDeviceArbiterRun
import PpBrowser.Messaging.AttachmentCache
import PpBrowser.Messaging.AttachmentLimits
import PpBrowser.Messaging.ControlLane
import PpBrowser.Messaging.GroupCatchUp
import PpBrowser.Messaging.GroupEnded
import PpBrowser.Messaging.GroupIngestRun
import PpBrowser.Messaging.GroupInviteRun
import PpBrowser.Messaging.GroupJoinBundle
import PpBrowser.Messaging.GroupLinkJoin
import PpBrowser.Messaging.GroupOwnerDraft
import PpBrowser.Messaging.GroupOwnerOrder
import PpBrowser.Messaging.GroupRosterPreserved
import PpBrowser.Messaging.GroupRosterSolved
import PpBrowser.Messaging.LocalDeleteRun
import PpBrowser.Messaging.PassiveEpochAdopt
import PpBrowser.Messaging.PeerSyncRun
import PpBrowser.Messaging.ReconcileOutbox
import PpBrowser.People.AccountPublish
import PpBrowser.People.ContactSyncRun
import PpBrowser.People.PeerCards
import PpBrowser.Pricing.PaymentPromiseRun
import PpBrowser.Secrets.GraceUnlock
import PpBrowser.Secrets.ProfileUnlockGate
import PpBrowser.Secrets.UnlockedKeys
import PpBrowser.Social.CasHistory
import PpBrowser.Social.PostHeads
import PpBrowser.Social.PostLanes
import PpBrowser.Social.PostSafe
