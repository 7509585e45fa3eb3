import HsmProxy.Interleaving.Program
import HsmProxy.Pkcs11.Job

/-!
# The PKCS#11 token

The calls the proxy makes into the module, with their answers.  The module itself is outside the
repository: a `TokenModel` is any state machine that decides which answers it may give, and the
development is parametric in it.  `TokenModel.anything` never restricts an answer.

The functions of `session.rs` that the proxy shares with its tools are programs over any steps that
make these calls.
-/

namespace HsmProxy

/-- A PKCS#11 session. -/
abbrev SessionHandle := ℕ

/-- A PKCS#11 object, as found by a session. -/
abbrev ObjectHandle := ℕ

/-- The calls into the module. -/
inductive TokenOp where
  | openRwSession
  | login (session : SessionHandle)
  | logout (session : SessionHandle)
  | closeSession (session : SessionHandle)
  | findObjects (session : SessionHandle) (objectClass : ObjectClass) (label : String)
  | getAttributes (session : SessionHandle) (object : ObjectHandle) (types : List AttributeType)
  | sign (session : SessionHandle) (mechanism : Mechanism) (key : ObjectHandle) (data : Bytes)
  | verify (session : SessionHandle) (mechanism : Mechanism) (key : ObjectHandle)
      (data signature : Bytes)
  | encrypt (session : SessionHandle) (mechanism : Mechanism) (key : ObjectHandle) (data : Bytes)
  | decrypt (session : SessionHandle) (mechanism : Mechanism) (key : ObjectHandle) (data : Bytes)
  deriving DecidableEq, Repr

/-- What the calls return.  Closing a session is what dropping it does, and reports nothing. -/
abbrev TokenOp.Ans : TokenOp → Type
  | .openRwSession => Except CryptokiError SessionHandle
  | .login _ => Except CryptokiError Unit
  | .logout _ => Except CryptokiError Unit
  | .closeSession _ => Unit
  | .findObjects _ _ _ => Except CryptokiError (List ObjectHandle)
  | .getAttributes _ _ _ => Except CryptokiError (List Attribute)
  | .sign _ _ _ _ => Except CryptokiError Bytes
  | .verify _ _ _ _ _ => Except CryptokiError Unit
  | .encrypt _ _ _ _ => Except CryptokiError Bytes
  | .decrypt _ _ _ _ => Except CryptokiError Bytes

/-- A token: a state, which answers it may give in it and what they do to it, and the changes that
come from outside the proxy. -/
structure TokenModel where
  State : Type
  Change : Type
  answer : State → (o : TokenOp) → o.Ans → Option State
  change : State → Change → State

/-- The token that may answer anything at any time. -/
def TokenModel.anything : TokenModel where
  State := Unit
  Change := Empty
  answer _ _ _ := some ()
  change s _ := s

/-! ## Sessions and searches -/

section

open Interleaving Interleaving.Prog

variable {Op : Type} {Ans : Op → Type}

/-- `find_object`: the first object of a class carrying a label, with what `C_FindObjects` answers to
`search`. -/
def findObjectBy (search : Prog Ans (Except CryptokiError (List ObjectHandle))) :
    Prog Ans (Except AnyhowError (Option ObjectHandle)) := do
  let found ← search
  return (withContext "C_FindObjects failed" found).map List.head?

/-- `login_session`: open a read/write session and log in, by calls made with `call`; dropping the
session closes it. -/
def loginSessionBy (call : (o : TokenOp) → Prog Ans o.Ans) :
    Prog Ans (Except AnyhowError SessionHandle) := do
  match withContext "C_OpenSession(CKF_RW_SESSION) failed" (← call .openRwSession) with
  | .error e => return .error e
  | .ok session =>
    match withContext "C_Login(CKU_USER) failed -- wrong USER_PIN?" (← call (.login session)) with
    | .error e =>
      call (.closeSession session)
      return .error e
    | .ok () => return .ok session

variable {K : Op → Prop}

/-- A search is one call. -/
lemma findObjectBy_only {search : Prog Ans (Except CryptokiError (List ObjectHandle))}
    (hsearch : Only K search) : Only K (findObjectBy search) :=
  hsearch.bind fun _ => only_ret _

/-- `login_session` opens a session, logs in, and closes the session when that fails. -/
lemma loginSessionBy_only {call : (o : TokenOp) → Prog Ans o.Ans}
    (hopen : Only K (call .openRwSession)) (hlogin : ∀ session, Only K (call (.login session)))
    (hclose : ∀ session, Only K (call (.closeSession session))) :
    Only K (loginSessionBy call) := by
  refine hopen.bind fun opened => ?_
  cases opened with
  | error e => exact only_ret _
  | ok session =>
    refine (hlogin session).bind fun loggedIn => ?_
    cases loggedIn with
    | error e => exact (hclose session).bind fun _ => only_ret _
    | ok u => exact only_ret _

end

end HsmProxy
