import HsmProxy.Crypto.Agreement
import HsmProxy.Pkcs11.ObjectStore
import HsmProxy.Pkcs11.Vault
import HsmProxy.Service.Backends

/-!
# Round trips through the proxy

Around a token that keeps its keys, in every run of pool mode:

* `decrypt_inverts_encrypt`: a ciphertext and IV that `encrypt` has returned pass the checks of
  `decrypt`, a worker that answers does not blame the ciphertext, and a plaintext that comes back is
  the one that was encrypted.  The cipher is any `Aead`.
* `verify_accepts_signature`: a signature that `sign` has returned is valid for `verify`, whether the
  public key comes from the token or from the cache.  The signature schemes are any `Schemes` that
  the crates decide.
-/

namespace HsmProxy

open Interleaving Interleaving.Prog

/-! ## Encryption and decryption -/

/-- An authenticated cipher: what was encrypted is decrypted under the same key, IV and associated
data. -/
structure Aead where
  Key : Type
  /-- Key, IV, associated data and plaintext to ciphertext. -/
  encrypt : Key → Bytes → Bytes → Bytes → Bytes
  /-- Key, IV, associated data and ciphertext to plaintext, unless authentication fails. -/
  decrypt : Key → Bytes → Bytes → Bytes → Option Bytes
  decrypt_encrypt : ∀ key iv aad plaintext,
    decrypt key iv aad (encrypt key iv aad plaintext) = some plaintext

/-- What a token with such a cipher answers: the cipher is used with the key, and anything may fail;
but authentication fails only when it does. -/
def Aead.allows (A : Aead) (k : A.Key) : (o : TokenOp) → o.Ans → Bool
  | .encrypt _ (.aesGcm iv aad _) _ plaintext, .ok bytes =>
    decide (bytes = A.encrypt k iv aad plaintext)
  | .decrypt _ (.aesGcm iv aad _) _ ciphertext, .ok bytes =>
    decide (A.decrypt k iv aad ciphertext = some bytes)
  | .decrypt _ (.aesGcm iv aad _) _ ciphertext, .error (.pkcs11 .encryptedDataInvalid) =>
    decide (A.decrypt k iv aad ciphertext = none)
  | .decrypt _ (.aesGcm iv aad _) _ ciphertext, .error (.pkcs11 .encryptedDataLenRange) =>
    decide (A.decrypt k iv aad ciphertext = none)
  | _, _ => true

section

variable {P : Platform} {A : Aead} {cfg : ServiceConfig}

/-- A worker that returns a ciphertext has called the cipher once, with parameters the library
accepts. -/
lemma direct_encrypt_ok {session : SessionHandle} {label : String} {plaintext aad iv : Bytes}
    {find : Event Op.Ans} {ops : List (Event Op.Ans)} {response : JobResponse}
    (h : Runs (direct P session (.encrypt label plaintext aad iv)) (find :: ops) (.ok response)) :
    P.gcmParams iv aad gcmTagBits = .ok () ∧ ∃ key ciphertext, response = .ciphertext ciphertext ∧
      ops = [⟨.token (.encrypt session (.aesGcm iv aad gcmTagBits) key plaintext),
        .ok ciphertext⟩] := by
  obtain ⟨found, ops', heq, ⟨e, -, -, hr⟩ | ⟨key, -, hruns⟩⟩ := direct_cases P h
  · cases hr
  · obtain ⟨-, rfl⟩ := List.cons.inj heq
    simp only [Worker.operation] at hruns
    split at hruns
    · cases hruns
    · rename_i hgcm
      cases hruns with
      | @call _ _ answer _ _ hruns =>
        rcases answer with e | ciphertext
        · cases hruns
        · cases hruns
          exact ⟨hgcm, key, ciphertext, rfl, rfl⟩

/-- A worker that decrypts, with parameters the library accepts: it does not come to the cipher, or
it calls the cipher once and reads its answer. -/
lemma direct_decrypt {session : SessionHandle} {label : String} {ciphertext aad iv : Bytes}
    {find : Event Op.Ans} {ops : List (Event Op.Ans)} {r : JobResult}
    (hgcm : P.gcmParams iv aad gcmTagBits = .ok ())
    (h : Runs (direct P session (.decrypt label ciphertext aad iv)) (find :: ops) r) :
    (∃ e, r = .error e ∧ ∀ message, e ≠ .invalidRequest message) ∨
      ∃ key answer, r = decryptResult answer ∧
        ops = [⟨.token (.decrypt session (.aesGcm iv aad gcmTagBits) key ciphertext), answer⟩] := by
  obtain ⟨found, ops', heq, ⟨e, hsearch, -, rfl⟩ | ⟨key, -, hruns⟩⟩ := direct_cases P h
  · refine Or.inl ⟨e, rfl, ?_⟩
    rintro message rfl
    rcases found with e | (_ | ⟨key, rest⟩) <;> cases hsearch
  · obtain ⟨-, rfl⟩ := List.cons.inj heq
    simp only [Worker.operation, hgcm] at hruns
    cases hruns with
    | @call _ _ answer _ _ hruns =>
      cases hruns
      exact Or.inr ⟨key, answer, rfl, rfl⟩

/-- The answer of a token whose cipher opens the ciphertext: the plaintext, or an error that does
not blame the ciphertext. -/
lemma decryptResult_of_allows {session : SessionHandle} {iv aad : Bytes} {bits : ℕ}
    {handle : ObjectHandle} {ciphertext plaintext : Bytes} {k : A.Key}
    {answer : Except CryptokiError Bytes} (hopens : A.decrypt k iv aad ciphertext = some plaintext)
    (hallows : A.allows k (.decrypt session (.aesGcm iv aad bits) handle ciphertext) answer = true) :
    decryptResult answer = .ok (.plaintext plaintext) ∨
      ∃ e, decryptResult answer = .error e ∧ ∀ message, e ≠ .invalidRequest message := by
  unfold decryptResult
  split
  · rename_i bytes
    have hbytes : A.decrypt k iv aad ciphertext = some bytes := of_decide_eq_true hallows
    rw [hopens] at hbytes
    exact Or.inl (by rw [Option.some.inj hbytes])
  · simp [Aead.allows, hopens] at hallows
  · simp [Aead.allows, hopens] at hallows
  · refine Or.inr ⟨_, rfl, ?_⟩
    rintro message ⟨⟩

variable {t₀ : ℕ} {sessions : List SessionHandle} {token : Vault A.Key}
  {as : List (Action Choice (EnvAction (P.keeping A.allows)) Party)}
  {c : Config Op.Ans (Shared (P.keeping A.allows)) Party ThreadResult}

/-- An IV that was drawn has twelve bytes. -/
lemma checkIv_of_drawn
    (hrun : (pooledProxy (P.keeping A.allows) cfg).run
      (started (P.keeping A.allows) t₀ sessions token) as = some c)
    {i : ℕ} {iv : Bytes} (hdrawn : (⟨.randomIv, iv⟩ : Event Op.Ans) ∈ histOf c.trace i) :
    checkIv iv = .ok () := by
  obtain ⟨en, hen, hevent⟩ := List.mem_map.mp hdrawn
  obtain ⟨e, s', he⟩ := System.run_executed recorded_started rfl hrun en (List.mem_filter.mp hen).1
  rw [hevent] at he
  have hdraw : (if e.random.length = gcmIvLen then some (e.random, en.before) else none) =
      some (iv, s') := he
  split at hdraw
  · rename_i hlength
    cases hdraw
    simp [checkIv, hlength]
  · cases hdraw

/-- A ciphertext that was returned is that of the key under the label of the call, and its IV passes
the checks of `decrypt`. -/
lemma sealed_of_replied
    (hrun : (pooledProxy (P.keeping A.allows) cfg).run
      (started (P.keeping A.allows) t₀ sessions token) as = some c)
    {i : ℕ} {request : Request EncryptRequest} {response : EncryptResponse}
    (hi : replied c i = some (.encrypt request, .ok (.encrypt response))) :
    requireAesGcm request.inner.mechanism = .ok () ∧ checkIv response.iv = .ok () ∧
      P.gcmParams response.iv request.inner.associatedData gcmTagBits = .ok () ∧
      ∃ o ∈ c.shared.token.objects, o.label = request.inner.keyLabel ∧ response.ciphertext =
        A.encrypt o.key response.iv request.inner.associatedData request.inner.plaintext := by
  have hends : JobReply (P.keeping A.allows) (.encrypt request) (jobLog (histOf c.trace i))
      (.ok (.encrypt response)) := ends_of_replied (delivering_run hrun) hi
  obtain ⟨p, hplan, hjob⟩ := hends _ rfl
  obtain ⟨⟨⟩, haes, hp⟩ := except_bind_ok hplan
  obtain rfl := Except.ok.inj hp
  obtain ⟨-, -, answer, -, hgot, -⟩ := hjob _ _ _ rfl
  obtain ⟨_, _, _, iv, session, job, find, ops, reset, hplan', -, hreply, hdirect, -, -, -, hfound⟩ :=
    direct_of_got hrun rfl hi hgot
  cases hplan.symm.trans hplan'
  obtain ⟨hgcm, handle, ciphertext, rfl, rfl⟩ := direct_encrypt_ok hdirect
  obtain rfl : response = ⟨ciphertext, iv⟩ := by
    cases hreply
    rfl
  refine ⟨haes, checkIv_of_drawn hrun (i := i) ?_, hgcm, ?_⟩
  · have hdrawn := draws_iv (P.keeping A.allows) (runs_of_reply hrun hi)
    exact hdrawn
  · obtain ⟨en, hen, hevent, hkey⟩ := hfound _ (List.mem_singleton_self _)
    obtain ⟨o, ho, hlabel, hk⟩ := key_of_found hrun hen (hkey handle rfl)
    have hagrees := answered_of_run hrun hen hevent
    simp only [Vault.agrees, Op.usesHandle, hk, Option.all_some] at hagrees
    exact ⟨o, ho, hlabel, of_decide_eq_true hagrees⟩

/-- The `decrypt` request that asks for what an `encrypt` call has returned. -/
def opening (request : EncryptRequest) (response : EncryptResponse) : DecryptRequest where
  keyLabel := request.keyLabel
  mechanism := request.mechanism
  ciphertext := response.ciphertext
  iv := response.iv
  associatedData := request.associatedData

/-- Decryption inverts encryption, in every run of pool mode: when an `encrypt` call has returned a
ciphertext and an IV, a `decrypt` call with them and the label, mechanism and associated data of that
call passes every check before the pool; a worker that answers it returns the plaintext or an error
that does not blame the request; and a call that succeeds replies with the plaintext. -/
theorem decrypt_inverts_encrypt
    (hrun : (pooledProxy (P.keeping A.allows) cfg).run
      (started (P.keeping A.allows) t₀ sessions token) as = some c)
    {i j : ℕ} {encrypted : Request EncryptRequest} {response : EncryptResponse}
    {request : Request DecryptRequest} {reply : Except Status RpcResponse}
    (hi : replied c i = some (.encrypt encrypted, .ok (.encrypt response)))
    (hj : replied c j = some (.decrypt request, reply))
    (hopening : request.inner = opening encrypted.inner response) :
    (∃ p, plan (P.keeping A.allows) (.decrypt request) = .ok p) ∧
      (∀ r, (jobLog (histOf c.trace j)).got = some r →
        r = .ok (.plaintext encrypted.inner.plaintext) ∨
          ∃ e, r = .error e ∧ ∀ message, e ≠ .invalidRequest message) ∧
      ∀ answer, reply = .ok answer → answer = .decrypt ⟨encrypted.inner.plaintext⟩ := by
  obtain ⟨haes, hiv, hgcm, o, ho, hlabel, hciphertext⟩ := sealed_of_replied hrun hi
  have hplan : plan (P.keeping A.allows) (.decrypt request) = .ok (.job false
      (fun _ => .decrypt request.inner.keyLabel request.inner.ciphertext
        request.inner.associatedData request.inner.iv) (fun _ => finishDecrypt)) := by
    simp only [plan, hopening, opening, haes, hiv]
    rfl
  have hgot : ∀ r, (jobLog (histOf c.trace j)).got = some r →
      reply = r.mapError toStatus >>= finishDecrypt ∧
        (r = .ok (.plaintext encrypted.inner.plaintext) ∨
          ∃ e, r = .error e ∧ ∀ message, e ≠ .invalidRequest message) := by
    intro r hr
    obtain ⟨_, _, _, iv, session, job, find, ops, reset, hplan', -, hreply, hdirect, -, -, -,
      hfound⟩ := direct_of_got hrun rfl hj hr
    cases hplan.symm.trans hplan'
    refine ⟨hreply, ?_⟩
    rw [hopening] at hdirect
    rcases direct_decrypt hgcm hdirect with herror | ⟨handle', answer, rfl, rfl⟩
    · exact Or.inr herror
    -- the worker used a key under the label, so it is the key of the `encrypt` call
    · obtain ⟨en, hen, hevent, hkey⟩ := hfound _ (List.mem_singleton_self _)
      obtain ⟨o', ho', hlabel', hk⟩ := key_of_found hrun hen (hkey handle' rfl)
      have hsame : o'.key = o.key := c.shared.token.coherent o' ho' o ho (by
        rw [hlabel, hlabel']
        exact congrArg DecryptRequest.keyLabel hopening)
      have hagrees := answered_of_run hrun hen hevent
      simp only [Vault.agrees, Op.usesHandle, hk, Option.all_some, hsame] at hagrees
      refine decryptResult_of_allows ?_ hagrees
      rw [opening, hciphertext]
      exact A.decrypt_encrypt _ _ _ _
  refine ⟨⟨_, hplan⟩, fun r hr => (hgot r hr).2, ?_⟩
  rintro answer rfl
  have hends : JobReply (P.keeping A.allows) (.decrypt request) (jobLog (histOf c.trace j))
      (.ok answer) :=
    ends_of_replied (delivering_run hrun) hj
  obtain ⟨p, hp, hjob⟩ := hends _ rfl
  cases hplan.symm.trans hp
  obtain ⟨-, -, result, -, hresult, -⟩ := hjob _ _ _ rfl
  obtain ⟨hreply, hok | ⟨e, he, -⟩⟩ := hgot _ hresult
  · cases hok
    cases hreply
    rfl
  · cases he

end

/-- A cipher whose keys are bytes: a key is put before the plaintext, and must be found there. -/
def tagged : Aead where
  Key := UInt8
  encrypt key _ _ plaintext := key :: plaintext
  decrypt key _ _ ciphertext := if ciphertext.head? = some key then some ciphertext.tail else none
  decrypt_encrypt _ _ _ _ := by simp

/-- A token with one secret key. -/
def oneKey : Vault tagged.Key where
  objects := [⟨0, .secretKey, "k", (7 : UInt8)⟩]
  handles := List.nodup_singleton _
  coherent := by
    intro o ho o' ho' _
    rw [List.mem_singleton.mp ho, List.mem_singleton.mp ho']

/-- A token that uses the key. -/
def Choice.tagging : Choice :=
  { Choice.success with
    token
      | .encrypt _ _ _ plaintext => .ok (7 :: plaintext)
      | .decrypt _ _ _ ciphertext => .ok ciphertext.tail
      | o => Choice.success.token o }

/-- A call of `encrypt` under the label `k`. -/
def encryptCall : Request EncryptRequest := ⟨⟨"k", 1, [1, 2], [3]⟩, none⟩

/-- The call of `decrypt` that opens its result. -/
def decryptCall : Request DecryptRequest :=
  ⟨opening encryptCall.inner ⟨[7, 1, 2], List.replicate gcmIvLen 0⟩, none⟩

/-- The two calls, one after the other. -/
def encryptDecrypt : List (Action Choice (EnvAction (anyPlatform.keeping tagged.allows)) Party) :=
  [.exec 0 .tagging, .spawn (.rpc (.encrypt encryptCall))] ++ execs 1 6 .tagging ++
    execs 0 10 .tagging ++ execs 1 4 .tagging ++
    [.again 0, .exec 0 .tagging, .spawn (.rpc (.decrypt decryptCall))] ++
    execs 2 5 .tagging ++ execs 0 9 .tagging ++ execs 2 4 .tagging

/-- The second call returns the plaintext of the first. -/
theorem decrypt_inverts_encrypt_tagged :
    ∃ (c : Config Op.Ans (Shared (anyPlatform.keeping tagged.allows)) Party ThreadResult)
      (answer : RpcResponse),
      (pooledProxy (anyPlatform.keeping tagged.allows) (.plain 1 10)).run (started _ 0 [7] oneKey)
        encryptDecrypt = some c ∧
      replied c 2 = some (.decrypt decryptCall, .ok answer) ∧ answer = .decrypt ⟨[1, 2]⟩ := by
  have hend : ((pooledProxy (anyPlatform.keeping tagged.allows) (.plain 1 10)).run
      (started _ 0 [7] oneKey) encryptDecrypt).map (fun c => (replied c 1, replied c 2)) =
      some (some (.encrypt encryptCall, .ok (.encrypt ⟨[7, 1, 2], List.replicate gcmIvLen 0⟩)),
        some (.decrypt decryptCall, .ok (.decrypt ⟨[1, 2]⟩))) := by
    decide +kernel
  obtain ⟨c, hrun, hc⟩ := Option.map_eq_some_iff.mp hend
  obtain ⟨hfirst, hsecond⟩ := Prod.mk.inj hc
  obtain ⟨-, -, hanswer⟩ := decrypt_inverts_encrypt hrun hfirst hsecond rfl
  exact ⟨c, _, hrun, hsecond, hanswer _ rfl⟩

/-! ## Signing and verification -/

/-- What a token with such schemes answers: a signature verifies under the key, and a read returns
the attributes of the key; anything may fail. -/
def Schemes.allows {libs : CryptoLibs} (S : Schemes libs)
    (attributes : KeyMaterial libs → List AttributeType → List Attribute) (k : KeyMaterial libs) :
    (o : TokenOp) → o.Ans → Bool
  | .sign _ mechanism _ payload, .ok signature => S.verifies mechanism k payload signature
  | .getAttributes _ _ types, .ok attrs => decide (attrs = attributes k types)
  | _, _ => true

/-- A scheme accepts a signature only under a key of its type. -/
lemma Schemes.fits_of_accepts {libs : CryptoLibs} {S : Schemes libs} {m : SignatureMechanism}
    {k : KeyMaterial libs} {digest signature : Bytes} (h : S.accepts m k digest signature = true) :
    k.Fits m := by
  cases m <;> cases k <;> first | cases h | exact ⟨_, rfl⟩

/-- What verifies on the token is valid in this process, for every input with the same digest. -/
lemma verifyPublic_of_verifies {libs : CryptoLibs} {S : Schemes libs} (hS : Decides S)
    {k : KeyMaterial libs} {spkiDer : Bytes} (hspki : k.Decodes spkiDer) {mechanism : Int32}
    {input input' : SigningInput} {op : PreparedOperation} {signature : Bytes}
    (hprepare : prepare libs mechanism input = .ok op)
    (hverifies : S.verifies op.algorithm.mechanism k op.payload signature = true)
    (hdigest : digestOf libs input' = digestOf libs input) :
    verifyPublic libs spkiDer mechanism input' signature = .ok true := by
  obtain ⟨m, hm, hused⟩ : ∃ m, SignatureMechanism.tryFrom mechanism = some m ∧ m ≠ .unspecified := by
    unfold prepare at hprepare
    split at hprepare
    · cases hprepare
    · rename_i m hm
      refine ⟨m, hm, ?_⟩
      rintro rfl
      cases input <;> cases hprepare
  rcases prepare_eq S k hm hused input with ⟨e, -, herror⟩ | ⟨digest, op', hinput, hop, haccepts, -⟩
  · rw [hprepare] at herror
    cases herror
  · obtain rfl := Except.ok.inj (hprepare.symm.trans hop)
    rw [haccepts] at hverifies
    rw [verifyPublic_eq hS hspki hm hused (Schemes.fits_of_accepts hverifies), hdigest, hinput]
    exact congrArg Except.ok hverifies

section

variable {P : Platform} {S : Schemes P.crypto}
  {attributes : KeyMaterial P.crypto → List AttributeType → List Attribute} {cfg : ServiceConfig}
  {t₀ : ℕ} {sessions : List SessionHandle} {token : Vault (KeyMaterial P.crypto)}
  {as : List (Action Choice (EnvAction (P.keeping (S.allows attributes))) Party)}
  {c : Config Op.Ans (Shared (P.keeping (S.allows attributes))) Party ThreadResult}

/-- A worker that returns a signature has called the token once. -/
lemma direct_sign_ok {session : SessionHandle} {label : String} {algorithm : SignAlgorithm}
    {payload : Bytes} {find : Event Op.Ans} {ops : List (Event Op.Ans)} {response : JobResponse}
    (h : Runs (direct P session (.sign label algorithm payload)) (find :: ops) (.ok response)) :
    ∃ key signature, response = .signature signature ∧
      ops = [⟨.token (.sign session algorithm.mechanism key payload), .ok signature⟩] := by
  obtain ⟨found, ops', heq, ⟨e, -, -, hr⟩ | ⟨key, -, hruns⟩⟩ := direct_cases P h
  · cases hr
  · obtain ⟨-, rfl⟩ := List.cons.inj heq
    cases hruns with
    | @call _ _ answer _ _ hruns =>
      rcases answer with e | signature
      · cases hruns
      · cases hruns
        exact ⟨key, signature, rfl, rfl⟩

/-- A signature that was returned verifies under the key of the label, over what was prepared of the
call. -/
lemma signed_of_replied (hrun : (pooledProxy (P.keeping (S.allows attributes)) cfg).run
      (started (P.keeping (S.allows attributes)) t₀ sessions token) as = some c)
    {i : ℕ} {request : Request SignRequest} {response : SignResponse}
    (hi : replied c i = some (.sign request, .ok (.sign response))) :
    ∃ input op, extractInput request.inner.input = .ok input ∧
      prepare P.crypto request.inner.mechanism input = .ok op ∧
      ∃ o ∈ c.shared.token.objects, o.label = request.inner.keyLabel ∧
        S.verifies op.algorithm.mechanism o.key op.payload response.signature = true := by
  have hends : JobReply (P.keeping (S.allows attributes)) (.sign request)
      (jobLog (histOf c.trace i)) (.ok (.sign response)) := ends_of_replied (delivering_run hrun) hi
  obtain ⟨p, hplan, hjob⟩ := hends _ rfl
  obtain ⟨input, hinput, hrest⟩ := except_bind_ok hplan
  obtain ⟨op, hop, hp⟩ := except_bind_ok hrest
  obtain rfl := Except.ok.inj hp
  obtain ⟨-, -, answer, -, hgot, -⟩ := hjob _ _ _ rfl
  obtain ⟨_, _, _, iv, session, job, find, ops, reset, hplan', -, hreply, hdirect, -, -, -, hfound⟩ :=
    direct_of_got hrun rfl hi hgot
  cases hplan.symm.trans hplan'
  obtain ⟨handle, signature, rfl, rfl⟩ := direct_sign_ok hdirect
  obtain rfl : response = ⟨signature, request.inner.keyLabel⟩ := by
    cases hreply
    rfl
  have hprepare : prepare P.crypto request.inner.mechanism input = .ok op := by
    cases hprepare : prepare P.crypto request.inner.mechanism input with
    | error e =>
      rw [show (P.keeping (S.allows attributes)).crypto = P.crypto from rfl, hprepare] at hop
      cases hop
    | ok op' =>
      rw [show (P.keeping (S.allows attributes)).crypto = P.crypto from rfl, hprepare] at hop
      exact congrArg Except.ok (Except.ok.inj hop)
  obtain ⟨en, hen, hevent, hkey⟩ := hfound _ (List.mem_singleton_self _)
  obtain ⟨o, ho, hlabel, hk⟩ := key_of_found hrun hen (hkey handle rfl)
  have hagrees := answered_of_run hrun hen hevent
  simp only [Vault.agrees, Op.usesHandle, hk, Option.all_some] at hagrees
  exact ⟨input, op, hinput, hprepare, o, ho, hlabel, hagrees⟩

/-- A key that was produced for a label is the key of the label. -/
lemma decodes_of_produced (hexports : ∀ k spkiDer keyType,
      KeyObject.spki (P.keeping (S.allows attributes)) ⟨attributes k⟩ = .ok (spkiDer, keyType) →
        k.Decodes spkiDer)
    (hrun : (pooledProxy (P.keeping (S.allows attributes)) cfg).run
      (started (P.keeping (S.allows attributes)) t₀ sessions token) as = some c)
    {label : String} {key : CachedPublicKey} (hproduced : Produced c.trace label (.found key)) :
    ∃ o ∈ c.shared.token.objects, o.label = label ∧ o.key.Decodes key.spkiDer := by
  have hc : Delivering c := delivering_run hrun
  obtain ⟨i, j, t, hsent, hresponded⟩ := hproduced
  obtain ⟨job, hjob, hid, -, w, w', hruns⟩ := hc.inv.responded _ _ hresponded
  obtain ⟨i', hsent'⟩ := hc.inv.sent_of_taken hjob
  obtain ⟨-, rfl⟩ := Prod.mk.inj (hc.inv.jobs.eq_of_id hsent' hsent hid)
  -- every read was made on an object of the label
  have hread : ∀ session handle types attrs,
      (⟨.token (.getAttributes session handle types), .ok attrs⟩ : Event Op.Ans) ∈ callsOf c.trace j →
        ∃ o ∈ c.shared.token.objects, o.label = label ∧ attrs = attributes o.key types := by
    intro session handle types attrs hmem
    obtain ⟨en, hen, hevent, hfound⟩ := found_of_call hrun hsent hmem rfl
    obtain ⟨o, ho, hlabel, hk⟩ := key_of_found hrun hen hfound
    have hagrees := answered_of_run hrun hen hevent
    simp only [Vault.agrees, Op.usesHandle, hk, Option.all_some] at hagrees
    exact ⟨o, ho, hlabel, of_decide_eq_true hagrees⟩
  -- so the answer is the key of any object all reads agree with
  have hexport : ∀ object : KeyObject, (∀ session handle types attrs,
      (⟨.token (.getAttributes session handle types), .ok attrs⟩ : Event Op.Ans) ∈ callsOf c.trace j →
        attrs = object.attributes types) →
      (.ok (.publicKey key.spkiDer key.keyType) : JobResult) = exportResult
        (object.spki (P.keeping (S.allows attributes))) := by
    intro object hobject
    rcases execute_export hruns hobject with ⟨-, e, he⟩ | hexport
    · cases he
    · exact hexport
  by_cases hany : ∃ session handle types attrs,
      (⟨.token (.getAttributes session handle types), .ok attrs⟩ : Event Op.Ans) ∈ callsOf c.trace j
  · obtain ⟨session, handle, types, attrs, hmem⟩ := hany
    obtain ⟨o, ho, hlabel, -⟩ := hread session handle types attrs hmem
    refine ⟨o, ho, hlabel, ?_⟩
    have hresult := hexport ⟨attributes o.key⟩ fun session handle types attrs hmem => by
      obtain ⟨o', ho', hlabel', hattrs⟩ := hread session handle types attrs hmem
      rw [hattrs, c.shared.token.coherent o' ho' o ho (hlabel'.trans hlabel.symm)]
    cases hspki : KeyObject.spki (P.keeping (S.allows attributes)) ⟨attributes o.key⟩ with
    | error e =>
      rw [hspki] at hresult
      cases hresult
    | ok exported =>
      rw [hspki] at hresult
      obtain ⟨spkiDer, keyType⟩ := exported
      obtain ⟨hder, -⟩ := JobResponse.publicKey.inj (Except.ok.inj hresult)
      rw [hder]
      exact hexports o.key _ _ hspki
  · cases hexport ⟨fun _ => []⟩ fun session handle types attrs hmem =>
      absurd ⟨session, handle, types, attrs, hmem⟩ hany

/-- Verification accepts what was signed, in every run of pool mode: when a `sign` call has returned
a signature, a `verify` call with it, the same label and mechanism and an input with the same digest
says that it is valid, as soon as it has a public key, from the token or from the cache; and a call
that succeeds says nothing else. -/
theorem verify_accepts_signature (hS : Decides S) (hexports : ∀ k spkiDer keyType,
      KeyObject.spki (P.keeping (S.allows attributes)) ⟨attributes k⟩ = .ok (spkiDer, keyType) →
        k.Decodes spkiDer)
    (hrun : (pooledProxy (P.keeping (S.allows attributes)) cfg).run
      (started (P.keeping (S.allows attributes)) t₀ sessions token) as = some c)
    {i j : ℕ} {signed : Request SignRequest} {response : SignResponse}
    {request : Request VerifyRequest} {reply : Except Status RpcResponse}
    (hi : replied c i = some (.sign signed, .ok (.sign response)))
    (hj : replied c j = some (.verify request, reply))
    (hlabel : request.inner.keyLabel = signed.inner.keyLabel)
    (hmechanism : request.inner.mechanism = signed.inner.mechanism)
    (hsignature : request.inner.signature = response.signature)
    (hdigest : (extractInput request.inner.input).toOption.map (digestOf P.crypto) =
      (extractInput signed.inner.input).toOption.map (digestOf P.crypto)) :
    (∀ answer, reply = .ok answer → ∃ served, answer = .verify ⟨true, served⟩) ∧
      ∀ key, (keyLog (histOf c.trace j)).looked = some (request.inner.keyLabel, .found key) →
        ∃ served, reply = .ok (.verify ⟨true, served⟩) := by
  obtain ⟨input, op, hinput, hprepare, o, ho, holabel, hverifies⟩ := signed_of_replied hrun hi
  obtain ⟨input', hinput', hsame⟩ : ∃ input', extractInput request.inner.input = .ok input' ∧
      digestOf P.crypto input' = digestOf P.crypto input := by
    rw [hinput] at hdigest
    cases hcase : extractInput request.inner.input with
    | error e =>
      rw [hcase] at hdigest
      cases hdigest
    | ok input' =>
      rw [hcase] at hdigest
      exact ⟨input', rfl, Option.some.inj hdigest⟩
  have hplan : plan (P.keeping (S.allows attributes)) (.verify request) =
      .ok (.key (finishVerify P.crypto request.inner input')) := by
    simp only [plan, hinput']
    rfl
  -- with a key that was produced for the label the signature is valid
  have hfinish : ∀ key served, Produced c.trace request.inner.keyLabel (.found key) →
      finishVerify P.crypto request.inner input' (.found key, served) =
        .ok (.verify ⟨true, served⟩) := by
    intro key served hproduced
    obtain ⟨o', ho', holabel', hdecodes⟩ := decodes_of_produced hexports hrun hproduced
    have hkey : o'.key = o.key :=
      c.shared.token.coherent o' ho' o ho (holabel'.trans (hlabel.trans holabel.symm))
    rw [hkey] at hdecodes
    have hvalid := verifyPublic_of_verifies hS hdecodes hprepare hverifies hsame
    simp only [finishVerify, hmechanism, hsignature, hvalid]
  have hends : KeyReply _ (.verify request) (keyLog (histOf c.trace j)) reply :=
    ends_of_replied (key_outline hrun) hj
  have hlooked := (key_outline hrun).inv.looked j
  rcases hends _ hplan with ⟨hnone, st, rfl⟩ | ⟨v, served, hsome, rfl⟩
  · refine ⟨fun answer h => (by cases h), fun key hkey => ?_⟩
    rw [hnone] at hkey
    cases hkey
  · cases v with
    | notFound =>
      refine ⟨fun answer h => (by cases h), fun key hkey => ?_⟩
      rw [hsome] at hkey
      cases hkey
    | found key =>
      have hvalid := hfinish key served (hlooked _ _ hsome)
      refine ⟨fun answer h => ?_, fun _ _ => ⟨served, hvalid⟩⟩
      rw [hvalid] at h
      exact ⟨served, (Except.ok.inj h).symm⟩

end

/-- The attributes of the RSA keys of the toy schemes; no others can be read. -/
def toyAttributes : KeyMaterial toyLibs → List AttributeType → List Attribute
  | .rsa key, types => types.map fun
    | .keyType => .keyType .rsa
    | .modulus => .modulus key
    | .publicExponent => .publicExponent []
    | .ecPoint => .ecPoint key
  | .ec _, _ => []

/-- The platform with the toy schemes, and a token that uses them. -/
abbrev toySigner : Platform := toyPlatform.keeping (toySchemes.allows toyAttributes)

/-- What is exported of a toy key is the key. -/
lemma toyAttributes_exports (k : KeyMaterial toyLibs) (spkiDer : Bytes) (keyType : String)
    (h : KeyObject.spki toySigner ⟨toyAttributes k⟩ = .ok (spkiDer, keyType)) :
    k.Decodes spkiDer := by
  cases k with
  | ec key => cases h
  | rsa key =>
    cases h
    exact congrArg some (List.append_nil key)

/-- A token with one key pair. -/
def onePair : Vault (KeyMaterial toyLibs) where
  objects := [⟨0, .privateKey, "k", .rsa [9]⟩, ⟨1, .publicKey, "k", .rsa [9]⟩]
  handles := by decide
  coherent := by
    intro o ho o' ho' _
    simp only [List.mem_cons, List.not_mem_nil, or_false] at ho ho'
    rcases ho with rfl | rfl <;> rcases ho' with rfl | rfl <;> rfl

/-- The signature of a message under this key. -/
def toySignature : Bytes := [9] ++ (sha256DigestInfoPrefix ++ toyDigest)

/-- A token that uses the pair. -/
def Choice.signing : Choice :=
  { Choice.success with
    token
      | .findObjects _ .publicKey _ => .ok [1]
      | .sign _ _ _ _ => .ok toySignature
      | .getAttributes _ _ types => .ok (toyAttributes (.rsa [9]) types)
      | o => Choice.success.token o }

/-- A call of `sign` with a message. -/
def signMessage : Request SignRequest := ⟨⟨"k", 2, some ⟨some (.message [1, 2, 3])⟩⟩, none⟩

/-- A call of `verify` with its digest. -/
def verifyDigest : Request VerifyRequest :=
  ⟨⟨"k", 2, some ⟨some (.digest toyDigest)⟩, toySignature⟩, none⟩

/-- A call of `sign`, and two of `verify`: the first reads the public key, the second finds it in the
cache. -/
def signVerify : List (Action Choice (EnvAction toySigner) Party) :=
  [.exec 0 .signing, .spawn (.rpc (.sign signMessage))] ++ execs 1 5 .signing ++
    execs 0 10 .signing ++ execs 1 4 .signing ++
    [.again 0, .exec 0 .signing, .spawn (.rpc (.verify verifyDigest))] ++
    execs 2 7 .signing ++ execs 0 11 .signing ++ execs 2 6 .signing ++
    [.spawn (.rpc (.verify verifyDigest))] ++ execs 3 7 .signing

/-- The signature of the message is valid for its digest, also with the key from the cache. -/
theorem verify_accepts_signature_cached :
    ∃ (c : Config Op.Ans (Shared toySigner) Party ThreadResult) (reply : Except Status RpcResponse),
      (pooledProxy toySigner (.plain 1 10)).run (started _ 0 [7] onePair) signVerify = some c ∧
      replied c 3 = some (.verify verifyDigest, reply) ∧
      (jobLog (histOf c.trace 3)).sent = none ∧ ∃ served, reply = .ok (.verify ⟨true, served⟩) := by
  have hend : ((pooledProxy toySigner (.plain 1 10)).run (started _ 0 [7] onePair) signVerify).map
      (fun c => (replied c 1, replied c 3)) =
      some (some (.sign signMessage, .ok (.sign ⟨toySignature, "k"⟩)),
        some (.verify verifyDigest, .ok (.verify ⟨true, true⟩))) := by
    decide +kernel
  have hlog : ((pooledProxy toySigner (.plain 1 10)).run (started _ 0 [7] onePair) signVerify).map
      (fun c => ((jobLog (histOf c.trace 3)).sent, (keyLog (histOf c.trace 3)).looked)) =
      some (none, some ("k", .found ⟨[9], "RSA"⟩)) := by
    decide +kernel
  obtain ⟨c, hrun, hc⟩ := Option.map_eq_some_iff.mp hend
  obtain ⟨hsigned, hverified⟩ := Prod.mk.inj hc
  rw [hrun] at hlog
  obtain ⟨hsent, hlooked⟩ := Prod.mk.inj (Option.some.inj hlog)
  obtain ⟨-, hvalid⟩ := verify_accepts_signature toyLibs_decides toyAttributes_exports hrun hsigned
    hverified rfl rfl rfl (by decide +kernel)
  exact ⟨c, _, hrun, hverified, hsent, hvalid _ hlooked⟩

end HsmProxy
