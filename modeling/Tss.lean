import Tss.Lib.Proc
import Tss.Lib.FMap
import Tss.Lib.Verdict
import Tss.Lib.Bytes
import Tss.Lib.Run
import Tss.Lib.Trace
import Tss.Lib.Sorted
import Tss.Lib.Walk
import Tss.Lib.Fallible
import Tss.Lib.Lagrange
import Tss.Lib.Lucas
import Tss.Lib.Modular
import Tss.Lib.PaillierGroup
import Tss.Lib.Blum
import Tss.Party
import Tss.Transcript
import Tss.Errors
import Tss.Digests
import Tss.Envelope
import Tss.Guard
import Tss.Replay
import Tss.Broadcast
import Tss.Wire
import Tss.Wire.Frame
import Tss.Wire.StructTag
import Tss.Wire.Codec
import Tss.Wire.FlatCanonical
import Tss.Wire.Parts
import Tss.Wire.Canonical
import Tss.Wire.Schema
import Tss.Wire.Normal
import Tss.Wire.FlatRoundTrip
import Tss.Wire.StructRoundTrip
import Tss.Wire.RoundTrip
import Tss.Wire.Message
import Tss.Lifecycle.Record
import Tss.Lifecycle.Store
import Tss.Lifecycle.Operations
import Tss.Lifecycle.Machine
import Tss.Lifecycle.Outcome
import Tss.Lifecycle.Invariant
import Tss.Lifecycle.Atomicity
import Tss.Lifecycle.Preservation
import Tss.Lifecycle.Steps
import Tss.Lifecycle.Validate
import Tss.Lifecycle.Accepts
import Tss.Lifecycle.History
import Tss.Lifecycle.Corruption
import Tss.Lifecycle.Fencing
import Tss.Lifecycle.Attempts
import Tss.Runs.Intent
import Tss.Runs.Store
import Tss.Runs.Laws
import Tss.Sign.Coordinator
import Tss.Sign.Disposition
import Tss.Frost.Curve
import Tss.Frost.KeyShare
import Tss.Frost.Sign
import Tss.Frost.Correctness
import Tss.Frost.Payload
import Tss.Frost.Schnorr
import Tss.Frost.Confirmation
import Tss.Frost.SigningSession
import Tss.Frost.SigningSafety
import Tss.Frost.SigningOrder
import Tss.Frost.KeygenSession
import Tss.Frost.KeygenSafety
import Tss.Frost.KeygenMoves
import Tss.Frost.KeygenAgreement
import Tss.Curve.Secp256k1
import Tss.Curve.Ecdsa
import Tss.Curve.Model
import Tss.Bip32.Derivation
import Tss.Bip32.Compose
import Tss.Bip32.Base58
import Tss.Cggmp21.Signature
import Tss.Cggmp21.Epoch
import Tss.Cggmp21.Artifact
import Tss.Cggmp21.PublicContext
import Tss.Cggmp21.FinalSignature
import Tss.Cggmp21.Challenge
import Tss.Cggmp21.Config
import Tss.Paillier.Key
import Tss.Paillier.Proofs
import Tss.Paillier.LogStar
import Tss.Paillier.Exact
import Tss.Paillier.Extraction
import Tss.Paillier.Modulus
import Tss.Cggmp21.Material
import Tss.Cggmp21.Reshare.Share
import Tss.Cggmp21.Hosting
import Tss.Cggmp21.Reshare.Session
import Tss.Cggmp21.Reshare.Handle
import Tss.Cggmp21.Reshare.Debts
import Tss.Cggmp21.Reshare.Owed
import Tss.Storage
import Tss.Shamir
