import HsmProxy.Wire.Messages
import Mathlib.Algebra.GroupWithZero.Nat
import Mathlib.Data.List.AList
import Mathlib.Data.Finset.Card
import Mathlib.Data.Finset.Union

/-!
# The authorization policy

`authz/policy.rs`: which identity may perform which operation on which key.  Decoding the TOML
text into a `PolicyFile` is the work of `toml` and `serde`; `Policy.compile` is the loop of
`Policy::parse` after it.
-/

namespace HsmProxy

/-- The operations a policy can grant; they mirror the RPCs. -/
inductive Operation where
  | sign
  | verify
  | encrypt
  | decrypt
  | getPublicKey
  deriving DecidableEq, Repr

/-- `Operation::as_str`. -/
def Operation.asStr : Operation → String
  | .sign => "sign"
  | .verify => "verify"
  | .encrypt => "encrypt"
  | .decrypt => "decrypt"
  | .getPublicKey => "get_public_key"

/-- The operation a call is checked for. -/
def Rpc.operation : Rpc → Operation
  | .sign _ => .sign
  | .verify _ => .verify
  | .encrypt _ => .encrypt
  | .decrypt _ => .decrypt
  | .getPublicKey _ => .getPublicKey

/-- One grant of a workload. -/
structure GrantEntry where
  keyLabel : String
  operations : List Operation

/-- One workload of the policy file. -/
structure WorkloadEntry where
  identity : String
  grants : List GrantEntry

/-- The decoded policy file. -/
structure PolicyFile where
  workloads : List WorkloadEntry

/-- What one identity may do: the operations granted on each key label. -/
abbrev KeyGrants := AList fun _ : String => Finset Operation

/-- A compiled policy. -/
structure Policy where
  grants : AList fun _ : String => KeyGrants

namespace Policy

/-- Merge the grants of one workload entry into what its identity already has. -/
def addGrants (perKey : KeyGrants) (grants : List GrantEntry) : KeyGrants :=
  grants.foldl (fun m g =>
    m.insert g.keyLabel ((m.lookup g.keyLabel).getD ∅ ∪ g.operations.toFinset)) perKey

/-- The compile loop of `Policy::parse`. -/
def compile (file : PolicyFile) : Policy where
  grants := file.workloads.foldl (fun m w =>
    m.insert w.identity (addGrants ((m.lookup w.identity).getD ∅) w.grants)) ∅

/-- Is `identity` permitted to perform `operation` on `keyLabel`?  Absence is denial at every
level. -/
def isAllowed (p : Policy) (identity keyLabel : String) (operation : Operation) : Bool :=
  match p.grants.lookup identity with
  | none => false
  | some keys =>
    match keys.lookup keyLabel with
    | none => false
    | some ops => decide (operation ∈ ops)

/-- `Policy::grant_count`. -/
def grantCount (p : Policy) : ℕ :=
  ((p.grants.entries.flatMap fun workload => workload.2.entries).map fun key => key.2.card).sum

end Policy

end HsmProxy
