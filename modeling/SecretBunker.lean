import SecretBunker.Lib.Table
import SecretBunker.Crypto
import SecretBunker.Proto
import SecretBunker.Crypto.Plain
import SecretBunker.Keys.Forward
import SecretBunker.Server.Agreement
import SecretBunker.Server.Cas
import SecretBunker.Server.Noninterference
import SecretBunker.Lib.Broadcast
import SecretBunker.Lib.Program
import SecretBunker.Store.Sync
import SecretBunker.Server.Sync
import SecretBunker.Server.Disclosure
import SecretBunker.Store.Mirror
import SecretBunker.Lib.Transaction
import SecretBunker.Replica.Engine
import SecretBunker.Replica.Outline
import SecretBunker.Role
import SecretBunker.Server.Announce
import SecretBunker.Server.Atomicity
import SecretBunker.Server.Frame
import SecretBunker.Server.Lockout
import SecretBunker.Lib.Ledger
import SecretBunker.Lib.SortedMap
import SecretBunker.Operator.Crd
import SecretBunker.Operator.Diagnosis
import SecretBunker.Operator.Gate
import SecretBunker.Operator.Retain
import SecretBunker.Replica.Chronicle
import SecretBunker.Replica.Convergence
import SecretBunker.Replica.Events
import SecretBunker.Capacity
import SecretBunker.Keys.Offline
import SecretBunker.Keys.Upgrade
import SecretBunker.Lib.Conduct
import SecretBunker.Lib.Delimited
import SecretBunker.Operator.Backoff
import SecretBunker.Operator.Bridge
import SecretBunker.Operator.Conduct
import SecretBunker.Operator.Digest
import SecretBunker.Operator.Fleet
import SecretBunker.Operator.Freeze
import SecretBunker.Operator.Settle
import SecretBunker.Operator.Identity
import SecretBunker.Store.Audit
import SecretBunker.Store.Rows
import SecretBunker.Operator.Precedence
import SecretBunker.Server.Version
import SecretBunker.Replica.Manifest
import SecretBunker.Framing
import SecretBunker.Operator.Wake
import SecretBunker.Operator.Rename
import SecretBunker.Lib.Text
import SecretBunker.Lib.Utf8
import SecretBunker.Store.LastWins
import SecretBunker.Store.Current
import SecretBunker.Server.Numbering
import SecretBunker.Server.Transplant
import SecretBunker.Operator.Skip
import SecretBunker.Servers
import SecretBunker.Tui
import SecretBunker.Tui.Edit
import SecretBunker.Tui.Panes
import SecretBunker.Serve.Health
import SecretBunker.Serve.Loop
import SecretBunker.Replica.Lifetime
import SecretBunker.Lib.CborRead
import SecretBunker.Wire.Decode
import SecretBunker.Wire.Stream
import SecretBunker.Rpc
import SecretBunker.Server.Authority
import SecretBunker.Replica.Vault
import SecretBunker.Operator.Delivery
