import Tss.Frost.Payload
import Tss.Curve.Secp256k1
import Tss.Lib.Walk

/-!
# Public child derivation (`internal/bip32util/derivation.go`, `hd.go`)

The two walks along a derivation path: BIP32 over secp256k1 and the
Khovratovich-Law construction over Ed25519. Both derive one child per
index, from the parent's encoding and chain code, and keep the sum of the
tweaks for signers that shift their root shares.
-/

namespace Tss.Bip32util

open Fallible

/-! ## Options and results (`hd.go`) -/

abbrev DerivationPath := List UInt32

def hardenedKeyStart : UInt32 := 0x80000000

/-- `math.MaxUint8`, the depth limit. -/
def maxDepth : Nat := 255

def chainCodeSize : Nat := 32

/-- `sha512.Size`. -/
def sha512Size : Nat := 64

/-- `InvalidChildMode`: `undefined` is a value the type has no name for. -/
inductive InvalidChildMode where
  | errorOnInvalidChild
  | skipInvalidChild
  | undefined (value : UInt8)
deriving DecidableEq

def InvalidChildMode.valid : InvalidChildMode → Bool
  | .errorOnInvalidChild => true
  | .skipInvalidChild => true
  | .undefined _ => false

/-- The value of the mode as a number. -/
def InvalidChildMode.toNat : InvalidChildMode → Nat
  | .errorOnInvalidChild => 0
  | .skipInvalidChild => 1
  | .undefined value => value.toNat

structure DeriveConfig where
  invalidChildMode : InvalidChildMode
  hmacFunc : Option (Bytes → Bytes → Bytes)

/-- `DeriveOption`: a nil option is skipped. -/
inductive DeriveOption where
  | absent
  | invalidChildMode (mode : InvalidChildMode)
  | hmacFunc (fn : Option (Bytes → Bytes → Bytes))

def resolveDeriveConfig (opts : List DeriveOption) : DeriveConfig :=
  opts.foldl (fun cfg opt => match opt with
    | .absent => cfg
    | .invalidChildMode mode => { cfg with invalidChildMode := mode }
    | .hmacFunc fn => { cfg with hmacFunc := fn }) ⟨.errorOnInvalidChild, none⟩

inductive DerivationScheme where
  | bip32Secp256k1
  | ed25519KhovratovichLaw
deriving DecidableEq

structure DerivationResult where
  scheme : DerivationScheme
  childPublicKey : Bytes
  childChainCode : Bytes
  requestedPath : DerivationPath
  resolvedPath : DerivationPath
  depth : UInt8
  parentFingerprint : Vector UInt8 4
  childNumber : UInt32
  additiveShift : Bytes
deriving DecidableEq

/-! ## Hashes -/

/-- `golang.org/x/crypto/ripemd160`. -/
class Ripemd160 where
  sum160 : Bytes → Vector UInt8 20

def computeFingerprint [Sha256] [Ripemd160] (pubKey : Bytes) : Vector UInt8 4 :=
  Vector.ofFn fun i => (Ripemd160.sum160 (Sha256.sum256 pubKey).toList).toList.getD i 0

/-- `HMACSHA512`: `crypto/hmac` over `crypto/sha512`, whose block has 128 bytes. -/
def hmacSHA512 [Sha512] (key data : Bytes) : Bytes :=
  let key := if 128 < key.length then sha512 key else key
  let block := key ++ List.replicate (128 - key.length) 0
  sha512 (block.map (· ^^^ 0x5c) ++ sha512 (block.map (· ^^^ 0x36) ++ data))

/-- The HMAC of a derivation. -/
def DeriveConfig.hmac [Sha512] (cfg : DeriveConfig) : Bytes → Bytes → Bytes :=
  cfg.hmacFunc.getD hmacSHA512

/-- What both derivations ask of the chain code. -/
def checkChainCode (chainCode : Bytes) : Except GoError Unit := do
  rejectIf (chainCode.length = 0) (.sentinel .chainCodeRequired)
  rejectIf (chainCode.length ≠ chainCodeSize)
    (.wrap "%w: got %d bytes" [.num chainCode.length] (.sentinel .invalidChainCodeLength))

/-- What both derivations ask of the mode. -/
def DeriveConfig.checkMode (cfg : DeriveConfig) : Except GoError Unit :=
  rejectIf (¬ cfg.invalidChildMode.valid)
    (.wrap "%w: %d" [.num cfg.invalidChildMode.toNat] (.sentinel .invalidChildMode))

/-- The error of a child that cannot be derived, at the segment `i` of the path. -/
def segmentError (i : Nat) (idx : UInt32) (err : GoError) : GoError :=
  .wrapBoth (.wrap "%w at path segment %d (index %d)" [.num i, .num idx.toNat]
    (.sentinel .invalidChild)) err

/-- The error of a skip that has run into the hardened range. -/
def hardenedDuringSkip (idx : UInt32) : GoError :=
  .wrap "%w: attempted hardened index %d during skip" [.num idx.toNat]
    (.sentinel .hardenedDerivationUnsupported)

/-- The error of an HMAC of the wrong size. -/
def hmacSizeError (tag : Bytes) : GoError :=
  .errorf "HMACFunc: got %d bytes, want 64" [.num tag.length]

/-- The error of an encoding that is no point. -/
def invalidParentKey (err : GoError) : GoError :=
  .wrapBoth (.wrap "%w: invalid parent public key" [] (.sentinel .invalidPublicKey)) err

/-! ## secp256k1 -/

section Secp256k1

open Secp256k1

variable [Curve]

/-- A derived child. -/
structure SecpChild where
  childPub : Bytes
  tweak : Scalar
  childChain : Bytes
  usedIdx : UInt32

section Child

variable [Sha512]

/-- The loop of `deriveSecp256k1Child`: as many indices remain as there are below the hardened
range. -/
def deriveSecp256k1ChildFrom (cfg : DeriveConfig) (parentPubPoint : Point)
    (parentPub parentChain : Bytes) : Nat → UInt32 → Except GoError SecpChild
  | 0, idx => .error (hardenedDuringSkip idx)
  | remaining + 1, idx =>
    let tag := cfg.hmac parentChain (parentPub ++ be32 idx.toNat)
    if tag.length ≠ sha512Size then .error (hmacSizeError tag)
    else
      match scalarFromBytesAllowZero (tag.take 32) with
      | .error _ =>
        if cfg.invalidChildMode = .skipInvalidChild then
          deriveSecp256k1ChildFrom cfg parentPubPoint parentPub parentChain remaining (idx + 1)
        else
          .error (.wrap "%w: out-of-range scalar at index %d" [.num idx.toNat]
            (.sentinel .invalidChild))
      | .ok tweak =>
        let childPoint := parentPubPoint + scalarBaseMult tweak
        if childPoint = 0 then
          if cfg.invalidChildMode = .skipInvalidChild then
            deriveSecp256k1ChildFrom cfg parentPubPoint parentPub parentChain remaining (idx + 1)
          else
            .error (.wrap "%w: child point at infinity at index %d" [.num idx.toNat]
              (.sentinel .invalidChild))
        else
          match pointBytes childPoint with
          | .error err =>
            .error (.wrap "encoding child public key at index %d: %w" [.num idx.toNat] (.new err))
          | .ok childPub => .ok ⟨childPub, tweak, tag.drop 32, idx⟩

def deriveSecp256k1Child (cfg : DeriveConfig) (parentPub parentChain : Bytes) (idx : UInt32) :
    Except GoError SecpChild :=
  match pointFromBytes parentPub with
  | .error err => .error (invalidParentKey (.new err))
  | .ok parentPubPoint =>
    deriveSecp256k1ChildFrom cfg parentPubPoint parentPub parentChain
      (hardenedKeyStart.toNat - idx.toNat) idx

end Child

/-- The variables of the loop of `DeriveSecp256k1`. -/
structure SecpWalk where
  parentPub : Bytes
  parentChain : Bytes
  cumShift : Scalar
  resolvedPath : DerivationPath
  parentFingerprint : Vector UInt8 4
  finalChildNumber : UInt32

variable [Sha256] [Sha512] [Ripemd160]

/-- One iteration, at the segment `i`. -/
def SecpWalk.step (cfg : DeriveConfig) (w : SecpWalk) (i : Nat) (idx : UInt32) :
    Except GoError SecpWalk := do
  rejectIf (hardenedKeyStart ≤ idx)
    (.wrap "%w: index %d at path element" [.num idx.toNat] (.sentinel .hardenedDerivationUnsupported))
  let child ← (deriveSecp256k1Child cfg w.parentPub w.parentChain idx).mapError (segmentError i idx)
  pure
    { parentPub := child.childPub
      parentChain := child.childChain
      cumShift := w.cumShift + child.tweak
      resolvedPath := w.resolvedPath ++ [child.usedIdx]
      parentFingerprint := computeFingerprint w.parentPub
      finalChildNumber := child.usedIdx }

/-- The loop. -/
def SecpWalk.run (cfg : DeriveConfig) (w : SecpWalk) (path : DerivationPath) :
    Except GoError SecpWalk :=
  loop (SecpWalk.step cfg) w 0 path

def deriveSecp256k1 (publicKey chainCode : Bytes) (path : DerivationPath)
    (opts : List DeriveOption) : Except GoError DerivationResult := do
  checkChainCode chainCode
  let _ ← (pointFromBytes publicKey).mapError fun err =>
    GoError.wrapBoth (.sentinel .invalidPublicKey) (.new err)
  let cfg := resolveDeriveConfig opts
  cfg.checkMode
  if path = [] then
    return {
      scheme := .bip32Secp256k1
      childPublicKey := publicKey
      childChainCode := chainCode
      requestedPath := []
      resolvedPath := []
      depth := 0
      parentFingerprint := Vector.replicate 4 0
      childNumber := 0
      additiveShift := scalarBytes 0 }
  rejectIf (maxDepth < path.length)
    (.wrap "%w: path has %d indices (max 255)" [.num path.length]
      (.sentinel .derivationDepthOverflow))
  let w ← SecpWalk.run cfg ⟨publicKey, chainCode, 0, [], Vector.replicate 4 0, 0⟩ path
  pure {
    scheme := .bip32Secp256k1
    childPublicKey := w.parentPub
    childChainCode := w.parentChain
    requestedPath := path
    resolvedPath := w.resolvedPath
    depth := UInt8.ofNat w.resolvedPath.length
    parentFingerprint := w.parentFingerprint
    childNumber := w.finalChildNumber
    additiveShift := scalarBytes w.cumShift }

end Secp256k1

/-! ## Ed25519 -/

section Ed25519

open Frost Frost.Edwards25519

variable {F : Type} (G : Type) [Field F] [AddCommGroup G] [DecidableEq G] [Module F G]
  [Edwards25519 F G]

/-- `le32`: `binary.LittleEndian.PutUint32`. -/
def le32 (n : Nat) : Bytes := leBytes 4 n

/-- The loop of `ed25519TweakScalarFromZLeft`: the bytes shifted by three bits, with the last
carry behind them. -/
def shiftThreeBits : UInt8 → Bytes → Bytes
  | carry, [] => [carry]
  | carry, b :: rest => ((b <<< 3) ||| carry) :: shiftThreeBits (b >>> 5) rest

/-- `ed25519TweakScalarFromZLeft`: eight times the little-endian number. -/
def ed25519TweakScalarFromZLeft (zLeft : Bytes) : Except GoError F :=
  scalarFromCanonicalBytes G ((shiftThreeBits 0 zLeft ++ List.replicate 32 0).take 32)

/-- A derived child. -/
structure EdChild (F : Type) where
  tweak : F
  childChain : Bytes
  usedIdx : UInt32

section Child

variable [Sha512]

/-- The loop of `deriveEd25519Child`: as many indices remain as there are below the hardened
range. -/
def deriveEd25519ChildFrom (cfg : DeriveConfig) (parentPoint : G) (parentPub parentChain : Bytes) :
    Nat → UInt32 → Except GoError (EdChild F)
  | 0, idx => .error (hardenedDuringSkip idx)
  | remaining + 1, idx => do
    let z := cfg.hmac parentChain (0x02 :: parentPub ++ le32 idx.toNat)
    rejectIf (z.length ≠ sha512Size) (hmacSizeError z)
    let candidate ← ed25519TweakScalarFromZLeft G (z.take 28)
    if parentPoint + (baseMult candidate : G) = 0 then
      if cfg.invalidChildMode = .skipInvalidChild then
        deriveEd25519ChildFrom cfg parentPoint parentPub parentChain remaining (idx + 1)
      else
        .error (.wrap "%w: child public key is identity at index %d" [.num idx.toNat]
          (.sentinel .invalidChild))
    else do
      let cc := cfg.hmac parentChain (0x03 :: parentPub ++ le32 idx.toNat)
      rejectIf (cc.length ≠ sha512Size) (hmacSizeError cc)
      pure ⟨candidate, cc.drop 32, idx⟩

def deriveEd25519Child (cfg : DeriveConfig) (parentPub parentChain : Bytes) (idx : UInt32) :
    Except GoError (EdChild F) := do
  let parentPoint ← (semanticPointFromBytes parentPub : Except GoError (SemanticPoint G)).mapError
    invalidParentKey
  deriveEd25519ChildFrom G cfg parentPoint.val parentPub parentChain
    (hardenedKeyStart.toNat - idx.toNat) idx

end Child

/-- The variables of the loop of `DeriveEd25519KhovratovichLaw`. -/
structure EdWalk (F G : Type) where
  parentPoint : G
  parentChain : Bytes
  cumShift : F
  resolvedPath : DerivationPath
  parentFingerprint : Vector UInt8 4
  finalChildNumber : UInt32

variable [Sha256] [Sha512] [Ripemd160]

variable {G} in
/-- One iteration, at the segment `i`. -/
def EdWalk.step (cfg : DeriveConfig) (w : EdWalk F G) (i : Nat) (idx : UInt32) :
    Except GoError (EdWalk F G) := do
  rejectIf (hardenedKeyStart ≤ idx)
    (.wrap "%w at path segment %d: index %d" [.num i, .num idx.toNat]
      (.sentinel .hardenedDerivationUnsupported))
  let parentPub := pointBytes w.parentPoint
  let child ← (deriveEd25519Child G cfg parentPub w.parentChain idx).mapError (segmentError i idx)
  pure
    { parentPoint := w.parentPoint + baseMult child.tweak
      parentChain := child.childChain
      cumShift := w.cumShift + child.tweak
      resolvedPath := w.resolvedPath ++ [child.usedIdx]
      parentFingerprint := computeFingerprint parentPub
      finalChildNumber := child.usedIdx }

variable {G} in
/-- The loop. -/
def EdWalk.run (cfg : DeriveConfig) (w : EdWalk F G) (path : DerivationPath) :
    Except GoError (EdWalk F G) :=
  loop (EdWalk.step cfg) w 0 path

def deriveEd25519KhovratovichLaw (publicKey chainCode : Bytes) (path : DerivationPath)
    (opts : List DeriveOption) : Except GoError DerivationResult := do
  checkChainCode chainCode
  let rootPoint ← (semanticPointFromBytes publicKey : Except GoError (SemanticPoint G)).mapError
    (.wrapBoth (.sentinel .invalidPublicKey))
  let cfg := resolveDeriveConfig opts
  cfg.checkMode
  if path = [] then
    return {
      scheme := .ed25519KhovratovichLaw
      childPublicKey := publicKey
      childChainCode := chainCode
      requestedPath := []
      resolvedPath := []
      depth := 0
      parentFingerprint := Vector.replicate 4 0
      childNumber := 0
      additiveShift := List.replicate 32 0 }
  rejectIf (maxDepth < path.length) (.sentinel .derivationDepthOverflow)
  let w ← EdWalk.run cfg (⟨rootPoint.val, chainCode, 0, [], Vector.replicate 4 0, 0⟩ : EdWalk F G)
    path
  pure {
    scheme := .ed25519KhovratovichLaw
    childPublicKey := pointBytes w.parentPoint
    childChainCode := w.parentChain
    requestedPath := path
    resolvedPath := w.resolvedPath
    depth := UInt8.ofNat w.resolvedPath.length
    parentFingerprint := w.parentFingerprint
    childNumber := w.finalChildNumber
    additiveShift := scalarBytes G w.cumShift }

end Ed25519

end Tss.Bip32util
