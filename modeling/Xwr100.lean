import Xwr100.Udhcpd.Flood
import Xwr100.Udhcpd.Pool
import Xwr100.Udhcpd.LeaseFile
import Xwr100.Udhcpd.Options
import Xwr100.Udhcpd.OptionReading
import Xwr100.Udhcpd.OptionReads
import Xwr100.Udhcpd.SlotBound
import Xwr100.Udhcpd.Refusals
import Xwr100.Udhcpd.Hostnames
import Xwr100.Udhcpd.VendorTag
import Xwr100.Upnp.Managed
import Xwr100.Upnp.Expiration
import Xwr100.Upnp.Replies
import Xwr100.Upnp.Schedule
import Xwr100.Ag7100.TxSafety
import Xwr100.Ag7100.RxSafety
import Xwr100.Ag7100.Segments
import Xwr100.Ag7100.MacAddr
import Xwr100.Igmp.Membership
import Xwr100.Igmp.GroupLists
import Xwr100.Gpio.ResetButton
import Xwr100.Www.PolicyRoundTrip
import Xwr100.Www.PortTables
import Xwr100.Www.StaticConflicts
import Xwr100.Athrs26.Mdio
import Xwr100.Athrs26.HeaderCalls
import Xwr100.Www.ForwardConflicts
import Xwr100.Www.EditList
import Xwr100.Netfilter.Ipt404
import Xwr100.Udhcpd.AddressSearch
import Xwr100.Www.FieldChecks
import Xwr100.Www.Netmask
import Xwr100.Www.MacField
import Xwr100.Www.DhcpPool
import Xwr100.Net.Checksum
import Xwr100.Upnp.PmlistPointers
import Xwr100.Udhcpc.Corruption
import Xwr100.Udhcpc.Transactions
import Xwr100.Udhcpd.ReplyMessage
import Xwr100.Udhcpc.ClientMessages
import Xwr100.Udhcpc.Handshake
import Xwr100.Igmp.Election
import Xwr100.Udhcpc.ScriptReading
