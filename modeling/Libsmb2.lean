import Libsmb2.Receive.Sync
import Libsmb2.Lifecycle.Accounting
import Libsmb2.Lifecycle.Protection
import Libsmb2.Lifecycle.Ownership
import Libsmb2.Lifecycle.Routing
import Libsmb2.Lifecycle.Reconnect
import Libsmb2.Lifecycle.Credits
import Libsmb2.Lifecycle.Deadlines
import Libsmb2.Lifecycle.Gather
import Libsmb2.Replies
import Libsmb2.Handshake
import Libsmb2.Endpoint
import Libsmb2.Server
import Libsmb2.Server.Runs
import Libsmb2.Server.Turns
import Libsmb2.Server.Gate
import Libsmb2.Handshake.Admission
import Libsmb2.Server.Dialects
import Libsmb2.Ntlmssp
import Libsmb2.Ntlmssp.Challenge
import Libsmb2.TreeStack
import Libsmb2.FileHandle
import Libsmb2.FileHandle.Seek
import Libsmb2.FileHandle.Pread
import Libsmb2.HappyEyeballs
import Libsmb2.HappyEyeballs.Closing
import Libsmb2.ExternalTransport
import Libsmb2.ExternalTransport.Sending
import Libsmb2.Commands.Layout
import Libsmb2.Commands.Charges
import Libsmb2.Signing.Cmac
import Libsmb2.Receive.Sealed
import Libsmb2.Signing.Aes128Ccm
import Libsmb2.Directory
import Libsmb2.Directory.Enumeration
import Libsmb2.Unicode.Passes
import Libsmb2.Util.Tlv
import Libsmb2.Errors
import Libsmb2.Asn1Ber
import Libsmb2.Spnego
import Libsmb2.PathOps
import Libsmb2.ChangeNotify
import Libsmb2.ChangeNotify.Decoding
import Libsmb2.SyncCalls
import Libsmb2.SyncCalls.Blocks
import Libsmb2.Directory.Entries
import Libsmb2.Util.Window
import Libsmb2.Util.Block
import Libsmb2.Util.Heap
import Libsmb2.Process
import Libsmb2.Process.QueryDirectory
import Libsmb2.Process.Ioctl
import Libsmb2.Process.Create
import Libsmb2.Process.Create.Returns
import Libsmb2.Process.Negotiate
import Libsmb2.Process.Negotiate.Returns
import Libsmb2.Process.ReplyBounds
import Libsmb2.Process.RequestBounds
import Libsmb2.Process.Requests
import Libsmb2.Process.ChangeNotify
import Libsmb2.Process.SessionSetup
import Libsmb2.Process.Transfers
import Libsmb2.Process.Names
import Libsmb2.Process.Reparse
import Libsmb2.Process.Payloads
import Libsmb2.QueryInfo
import Libsmb2.QueryInfo.Decoding
import Libsmb2.QueryInfo.Encode
import Libsmb2.QueryInfo.Encoded
import Libsmb2.QueryInfo.Encoders
import Libsmb2.QueryInfo.OutputBuffer
import Libsmb2.QueryInfo.Returns
import Libsmb2.QueryInfo.Streams
import Libsmb2.QueryInfo.StreamList
import Libsmb2.SecurityDescriptor
import Libsmb2.SecurityDescriptor.Inside
import Libsmb2.SecurityDescriptor.Locality
import Libsmb2.Ntlmssp.Agreement
import Libsmb2.Ntlmssp.Bounded
import Libsmb2.Ntlmssp.Rewriting
import Libsmb2.Ntlmssp.Exchange
import Libsmb2.Ntlmssp.Authenticate
import Libsmb2.Spnego.Inside
import Libsmb2.Dcerpc.Strings
import Libsmb2.Dcerpc.Fragments
import Libsmb2.Dcerpc.Binding
import Libsmb2.Dcerpc.Replies
import Libsmb2.Dcerpc.Srvsvc.Replies
import Libsmb2.Dcerpc.Encoding
import Libsmb2.Dcerpc.Lsa.Arrays
import Libsmb2.Dcerpc.Requests
import Libsmb2.Dcerpc.Srvsvc.Values
import Libsmb2.Process.OplockBreak
import Libsmb2.Asn1Ber.Oids
import Libsmb2.Asn1Ber.Integers
import Libsmb2.Timestamps
import Libsmb2.Url.Components
