import Tss.Lib.Bytes

/-!
# Labelled transcripts (`internal/transcript`)

A `Builder` hashes labelled fields, each written with its length in
front. The model keeps the bytes written so far and hashes them in
`sum`, which is what an incremental hash computes.
-/

namespace Tss.Transcript

/-- The bytes written to the hash so far. -/
structure Builder where
  written : Bytes
deriving DecidableEq

/-- Append one labelled field. The source panics on an empty label and on a
field of `2^32` bytes or more; no caller modelled here reaches either. -/
def Builder.append (b : Builder) (label : GoString) (value : Bytes) : Builder :=
  ⟨b.written ++ (be32 label.length ++ label ++ (be32 value.length ++ value))⟩

def Builder.appendBytes (b : Builder) (label : String) (value : Bytes) : Builder :=
  b.append (lit label) value

def Builder.appendString (b : Builder) (label : String) (value : GoString) : Builder :=
  b.append (lit label) value

def Builder.appendUint8 (b : Builder) (label : String) (value : UInt8) : Builder :=
  b.append (lit label) [value]

def Builder.appendUint16 (b : Builder) (label : String) (value : UInt16) : Builder :=
  b.append (lit label) (be16 value.toNat)

def Builder.appendUint32 (b : Builder) (label : String) (value : UInt32) : Builder :=
  b.append (lit label) (be32 value.toNat)

def Builder.appendUint64 (b : Builder) (label : String) (value : UInt64) : Builder :=
  b.append (lit label) (be64 value.toNat)

/-- `AppendBool`, over `wire.Bool`. -/
def Builder.appendBool (b : Builder) (label : String) (value : Bool) : Builder :=
  b.append (lit label) [if value then 1 else 0]

/-- `wire.EncodeUint32List`: the count, then the items. -/
def encodeUint32List (items : List UInt32) : Bytes :=
  be32 items.length ++ items.flatMap fun item => be32 item.toNat

def Builder.appendUint32List (b : Builder) (label : String) (values : List UInt32) : Builder :=
  b.append (lit label) (encodeUint32List values)

/-- `wire.EncodeBytesList`: the count, then each item after its length. -/
def encodeBytesList (items : List Bytes) : Bytes :=
  be32 items.length ++ items.flatMap fun item => be32 item.length ++ item

def Builder.appendBytesList (b : Builder) (label : String) (values : List Bytes) : Builder :=
  b.append (lit label) (encodeBytesList values)

/-- A transcript whose first entry binds `domain`. -/
def new (domain : String) : Builder := Builder.appendString ⟨[]⟩ "domain" (lit domain)

/-- The current digest. -/
def Builder.sum [Sha256] (b : Builder) : Bytes := sha256 b.written

def Builder.sum32 [Sha256] (b : Builder) : Array32 := Sha256.sum256 b.written

/-! ## What a transcript binds

Two transcripts with the same labels and the same bytes have the same values. They are
compared from the front, one entry at a time. -/

/-- One labelled field as it is written. -/
def entry (label : GoString) (value : Bytes) : Bytes :=
  be32 label.length ++ label ++ (be32 value.length ++ value)

theorem Builder.written_append (b : Builder) (label : GoString) (value : Bytes) :
    (b.append label value).written = b.written ++ entry label value := rfl

theorem entry_append_inj {label : GoString} {v v' rest rest' : Bytes} (hv : v.length < 2 ^ 32)
    (hv' : v'.length < 2 ^ 32) (h : entry label v ++ rest = entry label v' ++ rest') :
    v = v' ∧ rest = rest' := by
  simp only [entry, List.append_assoc] at h
  have hvalues := List.append_cancel_left (List.append_cancel_left h)
  exact be32_length_append_inj hv hv' hvalues

/-- Transcripts that differ in their last value only. -/
theorem Builder.append_inj {b : Builder} {label : GoString} {v v' : Bytes} (hv : v.length < 2 ^ 32)
    (hv' : v'.length < 2 ^ 32) (h : (b.append label v).written = (b.append label v').written) :
    v = v' := by
  have hentry : entry label v = entry label v' := List.append_cancel_left h
  rw [← List.append_nil (entry label v), ← List.append_nil (entry label v')] at hentry
  exact (entry_append_inj hv hv' hentry).1

theorem length_le_encodeBytesList {xs : List Bytes} {item : Bytes} (h : item ∈ xs) :
    item.length ≤ (encodeBytesList xs).length := by
  obtain ⟨before, after, rfl⟩ := List.append_of_mem h
  simp only [encodeBytesList, List.flatMap_append, List.flatMap_cons, List.length_append]
  omega

theorem encodeBytesList_cut_inj {xs ys : List Bytes} (hxs : (encodeBytesList xs).length < 2 ^ 32)
    (hys : (encodeBytesList ys).length < 2 ^ 32) (h : encodeBytesList xs = encodeBytesList ys) :
    xs = ys := by
  obtain ⟨-, hitems⟩ := List.append_inj h rfl
  have hne : ∀ item : Bytes, be32 item.length ++ item ≠ [] := by
    intro item
    simp [be32]
  have hcut : ∀ {a b rest rest' : Bytes}, a.length < 2 ^ 32 → b.length < 2 ^ 32 →
      be32 a.length ++ a ++ rest = be32 b.length ++ b ++ rest' → a = b ∧ rest = rest' := by
    intro a b rest rest' ha hb h
    rw [List.append_assoc, List.append_assoc] at h
    exact be32_length_append_inj ha hb h
  exact flatMap_inj hcut hne (fun item hitem => Nat.lt_of_le_of_lt (length_le_encodeBytesList hitem) hxs)
    (fun item hitem => Nat.lt_of_le_of_lt (length_le_encodeBytesList hitem) hys) hitems

end Tss.Transcript
