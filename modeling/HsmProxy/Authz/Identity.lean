import HsmProxy.Authz.Policy

/-!
# Workload identities

`authz/identity.rs` and the shared state of `authz/authorizer.rs`: how a leaf certificate is
turned into an identity, the memo that remembers the result, and the authorization counters.
Decoding the certificate is the work of `x509-parser`, a parameter here.
-/

namespace HsmProxy

/-- `x509_parser::GeneralName`, as far as it is looked at. -/
inductive GeneralName where
  | uri (uri : String)
  | other
  deriving DecidableEq, Repr

/-- `x509_parser::ParsedExtension`, as far as it is looked at. -/
inductive ParsedExtension where
  | subjectAlternativeName (generalNames : List GeneralName)
  | other
  deriving DecidableEq, Repr

/-- A decoded certificate: its extensions, and the common names of its subject (`none` for one
that is not a string). -/
structure X509Certificate where
  extensions : List ParsedExtension
  commonNames : List (Option String)
  deriving DecidableEq, Repr

/-- The first URI among the subject alternative names of one extension. -/
def ParsedExtension.uri : ParsedExtension → Option String
  | .subjectAlternativeName names => names.findSome? fun
    | .uri uri => some uri
    | .other => none
  | .other => none

/-- `parse_identity`: the URI SAN is authoritative, the Common Name a fallback. -/
def parseIdentity (fromDer : Bytes → Option X509Certificate) (der : Bytes) :
    Except Status String :=
  match fromDer der with
  | none => .error (.unauthenticated "client certificate could not be parsed")
  | some cert =>
    match cert.extensions.findSome? ParsedExtension.uri with
    | some uri => .ok uri
    | none =>
      match cert.commonNames.head? with
      | some (some cn) => .ok cn
      | _ => .error
        (.unauthenticated "client certificate carries neither a URI SAN nor a Common Name")

/-- Beyond this many distinct client certificates the memo is cleared rather than grown. -/
def maxCachedIdentities : ℕ := 1024

/-- `AuthzMetrics`. -/
structure AuthzMetrics where
  allowedTotal : ℕ
  deniedTotal : ℕ
  unauthenticatedTotal : ℕ
  deriving DecidableEq, Repr

/-- The counters of `AuthzMetrics`. -/
inductive AuthzCounter where
  | allowed
  | denied
  | unauthenticated
  deriving DecidableEq, Repr

/-- The shared state of an `Authorizer`: the memo of its extractor, keyed by the leaf DER, and its
counters. -/
structure AuthzState where
  memo : AList fun _ : Bytes => String
  metrics : AuthzMetrics

/-- The atomic operations of an `Authorizer`: the memo is read and written under separate locks. -/
inductive AuthzOp where
  | readMemo (der : Bytes)
  | writeMemo (der : Bytes) (identity : String)
  | count (counter : AuthzCounter)
  deriving DecidableEq, Repr

/-- What the atomic operations return. -/
abbrev AuthzOp.Ans : AuthzOp → Type
  | .readMemo _ => Option String
  | .writeMemo _ _ => Unit
  | .count _ => Unit

/-- Bump one counter. -/
def AuthzMetrics.count (m : AuthzMetrics) : AuthzCounter → AuthzMetrics
  | .allowed => { m with allowedTotal := m.allowedTotal + 1 }
  | .denied => { m with deniedTotal := m.deniedTotal + 1 }
  | .unauthenticated => { m with unauthenticatedTotal := m.unauthenticatedTotal + 1 }

namespace AuthzState

/-- `Authorizer::new`. -/
def new : AuthzState := ⟨∅, ⟨0, 0, 0⟩⟩

/-- The locked write of `identify`: clear when full, then insert. -/
def writeMemo (s : AuthzState) (der : Bytes) (identity : String) : AuthzState :=
  let memo := if maxCachedIdentities ≤ s.memo.keys.length then ∅ else s.memo
  { s with memo := memo.insert der identity }

/-- One atomic operation. -/
def exec (s : AuthzState) : (o : AuthzOp) → o.Ans × AuthzState
  | .readMemo der => (s.memo.lookup der, s)
  | .writeMemo der identity => ((), s.writeMemo der identity)
  | .count c => ((), { s with metrics := s.metrics.count c })

end AuthzState

end HsmProxy
