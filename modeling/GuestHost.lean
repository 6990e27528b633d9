import GuestHost.Binder
import GuestHost.Bytes
import GuestHost.Bytes.Base64
import GuestHost.Bytes.Digest
import GuestHost.Bytes.Hex
import GuestHost.Bytes.Pairs
import GuestHost.Bytes.Utf8
import GuestHost.Call
import GuestHost.Config
import GuestHost.Context
import GuestHost.Core
import GuestHost.Event
import GuestHost.Exchange.Buffer
import GuestHost.Exchange.Error
import GuestHost.Exchange.Header
import GuestHost.Exchange.Registry
import GuestHost.Exchange.Target
import GuestHost.Failure
import GuestHost.Handler
import GuestHost.Host
import GuestHost.Invocation
import GuestHost.Json
import GuestHost.Json.Reader
import GuestHost.Json.Record
import GuestHost.Json.Writer
import GuestHost.Link
import GuestHost.Loading
import GuestHost.Managed
import GuestHost.Memory
import GuestHost.Nesting
import GuestHost.Platform
import GuestHost.Posix.File
import GuestHost.Posix.Process
import GuestHost.Posix.Syscall
import GuestHost.Probe
import GuestHost.Proofs.Alike
import GuestHost.Proofs.Encodings
import GuestHost.Proofs.Encodings
import GuestHost.Proofs.Exchange.Fresh
import GuestHost.Proofs.Exchange.Handles
import GuestHost.Proofs.Exchange.Headers
import GuestHost.Proofs.Exchange.Places
import GuestHost.Proofs.Exchange.Responses
import GuestHost.Proofs.Exchange.Rounds
import GuestHost.Proofs.Exchange.Rounds
import GuestHost.Proofs.Exchange.Sockets
import GuestHost.Proofs.HostCalls.Accesses
import GuestHost.Proofs.HostCalls.Accounts
import GuestHost.Proofs.HostCalls.Aloof
import GuestHost.Proofs.HostCalls.Answers
import GuestHost.Proofs.HostCalls.Answers
import GuestHost.Proofs.HostCalls.Appends
import GuestHost.Proofs.HostCalls.Bound
import GuestHost.Proofs.HostCalls.Functions
import GuestHost.Proofs.HostCalls.Keeping
import GuestHost.Proofs.HostCalls.Looks
import GuestHost.Proofs.HostCalls.Marshalling
import GuestHost.Proofs.HostCalls.Outcomes
import GuestHost.Proofs.HostCalls.Pairs
import GuestHost.Proofs.HostCalls.Panics
import GuestHost.Proofs.HostCalls.Replies
import GuestHost.Proofs.HostCalls.Safety
import GuestHost.Proofs.HostCalls.Sentinel
import GuestHost.Proofs.HostCalls.Sizes
import GuestHost.Proofs.HostCalls.Tame
import GuestHost.Proofs.Invocation.Appends
import GuestHost.Proofs.Invocation.Buffers
import GuestHost.Proofs.Invocation.Limits
import GuestHost.Proofs.Invocation.Reports
import GuestHost.Proofs.Invocation.Setup
import GuestHost.Proofs.Invocation.Termination
import GuestHost.Proofs.Invocation.Tree
import GuestHost.Proofs.Json
import GuestHost.Proofs.Linking.Binder
import GuestHost.Proofs.Linking.Bookkeeping
import GuestHost.Proofs.Linking.Completeness
import GuestHost.Proofs.Linking.Imports
import GuestHost.Proofs.Linking.Offered
import GuestHost.Proofs.Linking.Resolution
import GuestHost.Proofs.Linking.Signatures
import GuestHost.Proofs.Linking.Targets
import GuestHost.Proofs.Loading.Aliases
import GuestHost.Proofs.Loading.Cache
import GuestHost.Proofs.Memory
import GuestHost.Proofs.Nesting
import GuestHost.Proofs.Posix.Addresses
import GuestHost.Proofs.Posix.Arguments
import GuestHost.Proofs.Posix.Bodies
import GuestHost.Proofs.Posix.Counting
import GuestHost.Proofs.Posix.Descriptors
import GuestHost.Proofs.Posix.Gathering
import GuestHost.Proofs.Posix.Losses
import GuestHost.Proofs.Posix.Openings
import GuestHost.Proofs.Posix.Passages
import GuestHost.Proofs.Posix.Runs
import GuestHost.Proofs.Posix.Scattering
import GuestHost.Proofs.Posix.Stages
import GuestHost.Proofs.Posix.Streaming
import GuestHost.Proofs.Posix.Unknown
import GuestHost.Proofs.Preparation
import GuestHost.Proofs.Preparation.Effects
import GuestHost.Proofs.Preparation.Failures
import GuestHost.Proofs.Reentry.Functions
import GuestHost.Proofs.Reentry.Outermost
import GuestHost.Proofs.Reentry.Preparation
import GuestHost.Proofs.Reentry.Runs
import GuestHost.Proofs.Reentry.Same
import GuestHost.Proofs.Sandbox.Calls
import GuestHost.Proofs.Sandbox.Endings
import GuestHost.Proofs.Sandbox.Nested
import GuestHost.Proofs.Sandbox.Processes
import GuestHost.Proofs.Stateful
import GuestHost.Proofs.Store.Abstracts
import GuestHost.Proofs.Store.Aliases
import GuestHost.Proofs.Store.Durability
import GuestHost.Proofs.Store.History
import GuestHost.Proofs.Store.Integrity
import GuestHost.Proofs.Store.Names
import GuestHost.Proofs.Store.Parts
import GuestHost.Proofs.Store.Retyping
import GuestHost.Proofs.Store.Scan
import GuestHost.Provider
import GuestHost.Resolution
import GuestHost.Sandbox
import GuestHost.Sandbox.Run
import GuestHost.Session
import GuestHost.Signature
import GuestHost.Store.Abstract
import GuestHost.Store.Blob
import GuestHost.Store.Persistence
import GuestHost.Store.Shelf
import GuestHost.Table
import GuestHost.Wasm.Limits
import GuestHost.Wasm.Machine
import GuestHost.Wasm.Module
import GuestHost.Wasm.Text
import GuestHost.Wasm.Text.Body
import GuestHost.Wasm.Text.Float
import GuestHost.Wasm.Text.Number
import GuestHost.Wasm.Text.Token
import GuestHost.Wasm.Text.Tree
import GuestHost.Wasm.Types
import GuestHost.Web
import GuestHost.Web.Host
import GuestHost.Web.Path
import GuestHost.Web.Percent
import GuestHost.Web.Punycode
import GuestHost.Web.Url
import GuestHost.World
