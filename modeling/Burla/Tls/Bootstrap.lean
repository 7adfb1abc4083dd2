/-
The TLS files of a head (`ensure_cluster_tls` in main_service/transport_tls.py).

A call writes files one after another, each at once; it may be cut off after any of the writes.
Keys are numbered in the order in which they are generated, and a certificate is what it has been
built with: its key, the key that has signed it, the hosts it covers and its validity.  Times are in
seconds.  How a host is read as an IP address is a parameter.
-/
import Burla.Lib.System
import Mathlib.Data.Int.Notation
import Mathlib.Algebra.Order.Group.Unbundled.Int

namespace Burla.Tls

abbrev Text := List Char

-- One proof for every test of whether a host is among those of a certificate.
local instance lawfulBEq_text : LawfulBEq Text := inferInstance

abbrev Key := ℕ

def minute : ℤ := 60

/-- `timedelta(days=365)` -/
def year : ℤ := 365 * 24 * 60 * 60

/-- `timedelta(days=5 * 365)` -/
def fiveYears : ℤ := 5 * year

/-! ### Certificates -/

structure CaCert where
  publicKey : Key
  /-- Whether it has a `SubjectKeyIdentifier`. -/
  hasKeyIdentifier : Bool
  notBefore : ℤ
  notAfter : ℤ
  deriving DecidableEq

/-- A certificate for a host. -/
structure Leaf (ι : Type*) where
  publicKey : Key
  /-- The key that it is signed with. -/
  issuerKey : Key
  ipAddresses : List ι
  dnsNames : List Text
  notBefore : ℤ
  notAfter : ℤ
  deriving DecidableEq

variable {ι : Type*}

/-- `_new_leaf`, for the head. -/
def newLeaf (publicKey issuerKey : Key) (ipAddresses : List ι) (dnsNames : List Text) (now : ℤ) :
    Leaf ι :=
  { publicKey := publicKey
    issuerKey := issuerKey
    ipAddresses := ipAddresses
    dnsNames := dnsNames
    notBefore := now - minute
    notAfter := now + fiveYears }

/-! ### Files -/

/-- What the directory holds. -/
structure Dir (ι : Type*) where
  caKey : Option Key
  caCert : Option CaCert
  headKey : Option Key
  headCert : Option (Leaf ι)
  deriving DecidableEq

inductive Write (ι : Type*)
  | caKey (key : Key)
  | caCert (certificate : CaCert)
  | headKey (key : Key)
  | headCert (certificate : Leaf ι)

namespace Dir

def empty : Dir ι := ⟨none, none, none, none⟩

/-- One file is written. -/
def write (d : Dir ι) : Write ι → Dir ι
  | .caKey key => { d with caKey := some key }
  | .caCert certificate => { d with caCert := some certificate }
  | .headKey key => { d with headKey := some key }
  | .headCert certificate => { d with headCert := some certificate }

def writeAll (d : Dir ι) (writes : List (Write ι)) : Dir ι := writes.foldl write d

end Dir

/-! ### A head start -/

inductive Error
  | fileNotFound
  deriving DecidableEq

/-- What a call writes, and whether it raises then. -/
structure Call (ι : Type*) where
  writes : List (Write ι)
  raised : Option Error

/-- The keys that a call may generate. -/
structure Keys where
  ca : Key
  head : Key

/-- `_new_ca` -/
def newCa (key : Key) (now : ℤ) : List (Write ι) :=
  [.caKey key, .caCert ⟨key, true, now - minute, now + fiveYears⟩]

/-- `_load_ca` -/
def loadCa (d : Dir ι) : Except Error (Key × CaCert) :=
  match d.caKey, d.caCert with
  | some key, some certificate => .ok (key, certificate)
  | _, _ => .error .fileNotFound

/-- The writes of a new CA if one is needed, with whether it is. -/
def ensureCa (keys : Keys) (now : ℤ) (d : Dir ι) : Except Error (List (Write ι) × Bool) :=
  match d.caKey with
  | none => .ok (newCa keys.ca now, true)
  | some _ =>
    match d.caCert with
    | none => .error .fileNotFound
    | some certificate =>
      if certificate.hasKeyIdentifier then .ok ([], false) else .ok (newCa keys.ca now, true)

section Head

variable (ipAddress : Text → Option ι)

/-- The addresses and the names that a host is asked for by. -/
def sansOf (headHost : Text) : List ι × List Text :=
  match ipAddress headHost with
  | some headIp => ([headIp], [])
  | none => ([], [headHost])

/-- The writes of a new head pair. -/
def newHead (headHost : Text) (key issuerKey : Key) (now : ℤ) : List (Write ι) :=
  [.headKey key,
    .headCert (newLeaf key issuerKey (sansOf ipAddress headHost).1 (sansOf ipAddress headHost).2 now)]

variable [DecidableEq ι]

/-- Whether a certificate is for a host. -/
def Leaf.covers (certificate : Leaf ι) (headHost : Text) : Bool :=
  match ipAddress headHost with
  | some headIp => decide (headIp ∈ certificate.ipAddresses)
  | none => decide (headHost ∈ certificate.dnsNames)

/-- `regenerate_head` -/
def regenerateHead (headHost : Text) (now : ℤ) (regeneratedCa : Bool) (d : Dir ι) :
    Except Error Bool :=
  if regeneratedCa || d.headKey.isNone then .ok true
  else
    match d.headCert with
    | none => .error .fileNotFound
    | some certificate =>
      .ok (!certificate.covers ipAddress headHost || decide (certificate.notAfter ≤ now + year))

/-- `ensure_cluster_tls` -/
def ensureClusterTls (headHost : Text) (now : ℤ) (keys : Keys) (d : Dir ι) : Call ι :=
  match ensureCa keys now d with
  | .error e => ⟨[], some e⟩
  | .ok (writes, regeneratedCa) =>
    match loadCa (d.writeAll writes) with
    | .error e => ⟨writes, some e⟩
    | .ok (issuerKey, _) =>
      match regenerateHead ipAddress headHost now regeneratedCa (d.writeAll writes) with
      | .error e => ⟨writes, some e⟩
      | .ok regenerate =>
        ⟨writes ++ if regenerate then newHead ipAddress headHost keys.head issuerKey now else [],
          none⟩

end Head

/-! ### Head starts -/

/-- The directory, and how many keys have been generated. -/
structure Site (ι : Type*) where
  dir : Dir ι
  generated : ℕ

/-- A start of the head, and after how many writes it is cut off if it is. -/
structure Start where
  headHost : Text
  now : ℤ
  cut : Option ℕ

namespace Site

/-- The keys that are generated next. -/
def keys (s : Site ι) : Keys := ⟨s.generated, s.generated + 1⟩

/-- Whether a time is within the validity of the CA. -/
def Within (s : Site ι) (now : ℤ) : Prop :=
  ∀ certificate ∈ s.dir.caCert, certificate.notBefore ≤ now ∧ now ≤ certificate.notAfter

instance (s : Site ι) (now : ℤ) : Decidable (s.Within now) :=
  inferInstanceAs (Decidable (∀ certificate ∈ s.dir.caCert, _))

variable (ipAddress : Text → Option ι) [DecidableEq ι]

/-- What a start does that is not cut off. -/
def call (s : Site ι) (headHost : Text) (now : ℤ) : Call ι :=
  ensureClusterTls ipAddress headHost now s.keys s.dir

/-- The writes that a start comes to. -/
def written (s : Site ι) (a : Start) : List (Write ι) :=
  match a.cut with
  | none => (s.call ipAddress a.headHost a.now).writes
  | some count => (s.call ipAddress a.headHost a.now).writes.take count

/-- A start of the head. -/
def step (s : Site ι) (a : Start) : Option (Site ι) :=
  if s.Within a.now then some ⟨s.dir.writeAll (s.written ipAddress a), s.generated + 2⟩ else none

end Site

end Burla.Tls
