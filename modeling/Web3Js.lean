import Web3Js.Lib.BigEndian
import Web3Js.Lib.Hex
import Web3Js.Lib.HeadTail
import Web3Js.Lib.Outcome
import Web3Js.Lib.OrderedMap
import Web3Js.Lib.Invariant
import Web3Js.Address
import Web3Js.Abi.Value
import Web3Js.Abi.Wire
import Web3Js.Abi.Coders
import Web3Js.Abi.Naming
import Web3Js.Abi.ObjectValues
import Web3Js.Abi.AbiCoder
import Web3Js.Abi.Spec
import Web3Js.Abi.Correspondence
import Web3Js.Abi.Numbers
import Web3Js.Abi.Sizes
import Web3Js.Abi.Packing
import Web3Js.Abi.Refinement
import Web3Js.Abi.Unpacking
import Web3Js.Abi.RoundTrip
import Web3Js.Abi.Integers
import Web3Js.Abi.Fragments
import Web3Js.Abi.Parameters
import Web3Js.Abi.Results
import Web3Js.Abi.Deferred
import Web3Js.Abi.Outlines
import Web3Js.Abi.Words
import Web3Js.Abi.Logs
import Web3Js.Abi.LogRoundTrip
import Web3Js.Socket.Provider
import Web3Js.Socket.Consistency
import Web3Js.Socket.Correlation
import Web3Js.Socket.Resilience
import Web3Js.Socket.Announcements
import Web3Js.Socket.WebSocket
import Web3Js.Socket.LiveSocket
import Web3Js.Socket.Ipc
import Web3Js.Socket.IpcStatus
import Web3Js.Lib.JsonText
import Web3Js.Lib.JsonContent
import Web3Js.Socket.ChunkParser
import Web3Js.Socket.Cuts
import Web3Js.Socket.Pending
import Web3Js.Socket.Documents
import Web3Js.Socket.Framing
import Web3Js.Socket.Receiver
import Web3Js.Socket.Truncation
import Web3Js.Socket.Segments
import Web3Js.Lib.Rlp
import Web3Js.Numbers
import Web3Js.Tx.Common
import Web3Js.Tx.Values
import Web3Js.Tx.AccessList
import Web3Js.Tx.Transaction
import Web3Js.Tx.Construction
import Web3Js.Tx.RoundTrip
import Web3Js.Tx.Strictness
import Web3Js.Tx.Account
import Web3Js.Tx.Signing
import Web3Js.Prepare.Formatter
import Web3Js.Prepare.Builder
import Web3Js.Prepare.Validation
import Web3Js.Prepare.Fidelity
import Web3Js.Prepare.Population
import Web3Js.Lib.Double
import Web3Js.Validator.BaseType
import Web3Js.Format.Conversion
import Web3Js.Format.Formatter
import Web3Js.Format.Coverage
import Web3Js.Validator.Elementary
import Web3Js.Validator.Schema
import Web3Js.Validator.Conformance
import Web3Js.Validator.Arguments
import Web3Js.Lib.Program
import Web3Js.Send.Events
import Web3Js.Send.Transaction
import Web3Js.Send.Outcome
import Web3Js.Send.Confirmations
import Web3Js.Send.Polling
import Web3Js.Send.Waiting
import Web3Js.Send.Tolerance
import Web3Js.Send.Cleanup
import Web3Js.Contract.Interface
import Web3Js.Contract.Methods
import Web3Js.Contract.Dispatch
import Web3Js.Contract.Reverts
import Web3Js.Core.Response
import Web3Js.Core.RequestManager
import Web3Js.Core.Sending
import Web3Js.Core.Settling
import Web3Js.Core.Batch
import Web3Js.Core.Completeness
import Web3Js.Core.Subscriptions
import Web3Js.Core.Delivery
import Web3Js.Core.Contexts
import Web3Js.Lib.PositionIndex
import Web3Js.Accounts.Wallet
import Web3Js.Lib.HashChain
import Web3Js.Hash
import Web3Js.Qrns.Namehash
import Web3Js.Accounts.Message
import Web3Js.Socket.Finality
import Web3Js.Socket.IpcFinality
import Web3Js.Lib.Words
import Web3Js.Fragments.Types
import Web3Js.Fragments.Parser
import Web3Js.Fragments.Fragment
import Web3Js.Fragments.Spacing
import Web3Js.Fragments.Objects
import Web3Js.Fragments.Parameters
import Web3Js.Fragments.Signature
import Web3Js.Fragments.Reading
import Web3Js.Fragments.TypeRoundTrip
import Web3Js.Fragments.Layout
import Web3Js.Fragments.Lists
import Web3Js.Fragments.Signatures
import Web3Js.Fragments.FragmentRoundTrip
import Web3Js.Fragments.StatefulRoundTrip
import Web3Js.Fragments.JsonRoundTrip
import Web3Js.Fragments.Brackets
import Web3Js.Lib.Fueled
import Web3Js.Lib.Acyclic
import Web3Js.TypedData.Message
import Web3Js.TypedData.Termination
import Web3Js.TypedData.Dependencies
import Web3Js.Abi.Structs
import Web3Js.Abi.Inputs
import Web3Js.Abi.IntegerInputs
import Web3Js.Utils.Conversion
import Web3Js.Utils.UnitRoundTrip
import Web3Js.Utils.PackedIntegers
import Web3Js.Utils.PackedBytes
import Web3Js.Format.Renderings
import Web3Js.Utils.Addresses
import Web3Js.Lib.BloomFilter
import Web3Js.Validator.Bloom
import Web3Js.Format.CallerData
import Web3Js.Http.Deadlines
import Web3Js.Chain.Timestamps
import Web3Js.Chain.ForkHashes
import Web3Js.Accounts.Safekeeping
import Web3Js.Contract.PastEvents
