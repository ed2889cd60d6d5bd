import Perdition.Lib.Relation
import Perdition.Verif.Isolation
import Perdition.Verif.LoginGate
import Perdition.Verif.Framing
import Perdition.Verif.Buffers
import Perdition.Verif.Packets
import Perdition.Verif.Handshake
import Perdition.Verif.Listing
import Perdition.Verif.Freshness
import Perdition.Verif.RoundTrip
import Perdition.Verif.SaslPlain
import Perdition.Verif.SieveWriting
import Perdition.Verif.SieveReplies
import Perdition.Verif.SieveCredentials
import Perdition.Verif.SieveOffers
import Perdition.Verif.Announcements
import Perdition.Verif.Precedence
import Perdition.Verif.Independence
import Perdition.Verif.Quoted
import Perdition.Verif.AcapRoundTrip
import Perdition.Verif.TokenStrings
import Perdition.Verif.Memory
import Perdition.Verif.LineText
import Perdition.Verif.Chunks
import Perdition.Verif.Items
import Perdition.Verif.Pop3Login
import Perdition.Verif.LiteralHeader
import Perdition.Verif.LiteralRest
import Perdition.Verif.MapEntries
import Perdition.Verif.EntryDisplay
import Perdition.Verif.KeyStrings
import Perdition.Verif.UsernameMemory
import Perdition.Verif.MapOrder
import Perdition.Verif.DefaultServers
import Perdition.Verif.SslModes
import Perdition.Verif.ClientServer
import Perdition.Verif.Injection
import Perdition.Verif.DelimWords
import Perdition.Verif.Replacing
import Perdition.Verif.RegexMap
import Perdition.Verif.FilterLoop
import Perdition.Verif.LdapFilters
import Perdition.Verif.LdapUris
import Perdition.Verif.Selections
import Perdition.Verif.SelectTimeouts
import Perdition.Verif.Retries
import Perdition.Verif.TagNumbers
import Perdition.Verif.TagGrammar
import Perdition.Verif.Checksums
import Perdition.Verif.SieveBlocks
import Perdition.Verif.CertificateNames
import Perdition.Verif.FlatFiles
import Perdition.Verif.Queries
import Perdition.Verif.OwnGreetings
import Perdition.Verif.Pop3Chain
import Perdition.Verif.Imap4Chain
import Perdition.Verif.SieveChain
import Perdition.Verif.DaemonLookups
import Perdition.Verif.BerkeleyDbMaps
import Perdition.Verif.GdbmMaps
import Perdition.Verif.SslConnections
