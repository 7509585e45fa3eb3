import HsmProxy.Service.Steps

/-!
# The memo of identities

`identify` reads the memo, parses the certificate when it finds nothing there, and writes what it
parsed, in three steps that other calls may come between.  `meets_identify` is the rule for it:
under a contract that lets it rely on the memo and lets it write what `parse_identity` said, it
returns what `identityOf` says without any memo.

`identifySystem` is any number of calls of `identify` on one extractor.  In every interleaving the
memo holds nothing but identities that `parse_identity` gives, so nobody notices it, and it does not
outgrow its bound (`memo_transparent`).
-/

namespace HsmProxy

open Interleaving Interleaving.Prog

/-! ## One call -/

section

variable (P : Platform)

/-- The identity of a certificate chain, as `identify` finds it without its memo. -/
def identityOf (peerCerts : Option (List Bytes)) : Except Status String :=
  match peerCerts with
  | none => .error (.unauthenticated "no client certificate presented; mTLS is required")
  | some certs =>
    match certs.head? with
    | none => .error (.unauthenticated "empty client certificate chain")
    | some der => parseIdentity P.fromDer der

/-- The rule for `identify`. -/
theorem meets_identify {G : Type} {C : Contract Op.Ans G} {g : G}
    (hread : ∀ der, C.pre g (.authz (.readMemo der)) ∧
      (∀ identity, C.post g (.authz (.readMemo der)) (some identity) →
        parseIdentity P.fromDer der = .ok identity) ∧
      ∀ a, C.next g (.authz (.readMemo der)) a = g)
    (hwrite : ∀ der identity, parseIdentity P.fromDer der = .ok identity →
      C.pre g (.authz (.writeMemo der identity)) ∧
      ∀ a, C.next g (.authz (.writeMemo der identity)) a = g)
    {peerCerts : Option (List Bytes)} :
    (identify P peerCerts).run.Meets C (fun g' r => g' = g ∧ r = identityOf P peerCerts) g := by
  rcases peerCerts with _ | (_ | ⟨der, rest⟩)
  · exact ⟨rfl, rfl⟩
  · exact ⟨rfl, rfl⟩
  · obtain ⟨hpre, hmemo, hnext⟩ := hread der
    refine ⟨hpre, fun memo hpost => ?_⟩
    rw [hnext]
    cases memo with
    | some identity => exact ⟨rfl, (hmemo identity hpost).symm⟩
    | none =>
      show Meets C (fun g' r => g' = g ∧ r = parseIdentity P.fromDer der) g
        (Handler.check (parseIdentity P.fromDer der) >>= _).run
      cases hparse : parseIdentity P.fromDer der with
      | error status => exact ⟨rfl, rfl⟩
      | ok identity =>
        obtain ⟨hallowed, hkept⟩ := hwrite der identity hparse
        refine ⟨hallowed, fun _ _ => ?_⟩
        rw [hkept]
        exact ⟨rfl, rfl⟩

end

/-! ## The memo -/

/-- The memo holds what `parse_identity` said. -/
def MemoSound (fromDer : Bytes → Option X509Certificate) (z : AuthzState) : Prop :=
  ∀ der identity, z.memo.lookup der = some identity → parseIdentity fromDer der = .ok identity

/-- Writing to the memo keeps it so, also when the memo is cleared first. -/
lemma MemoSound.writeMemo {fromDer : Bytes → Option X509Certificate} {z : AuthzState}
    (hz : MemoSound fromDer z) {der : Bytes} {identity : String}
    (hparse : parseIdentity fromDer der = .ok identity) :
    MemoSound fromDer (z.writeMemo der identity) := by
  intro der' identity' h
  by_cases hder : der' = der
  · subst hder
    simp only [AuthzState.writeMemo, AList.lookup_insert, Option.some.injEq] at h
    rw [← h]
    exact hparse
  · simp only [AuthzState.writeMemo, AList.lookup_insert_ne hder] at h
    split at h
    · simp at h
    · exact hz der' identity' h

/-- The memo is within its bound after a write, whatever it was before. -/
lemma length_writeMemo_le (z : AuthzState) (der : Bytes) (identity : String) :
    (z.writeMemo der identity).memo.keys.length ≤ maxCachedIdentities := by
  have hinsert : ∀ m : AList fun _ : Bytes => String,
      (m.insert der identity).keys.length ≤ m.keys.length + 1 := by
    intro m
    rw [AList.keys_insert, List.length_cons]
    exact Nat.succ_le_succ (@List.length_erase_le _ instBEqOfDecidableEq der m.keys)
  simp only [AuthzState.writeMemo]
  split
  · exact (hinsert ∅).trans (by decide)
  · rename_i hroom
    have hle := hinsert z.memo
    omega

/-! ## Any number of calls -/

section

variable (P : Platform) (cfg : ServiceConfig)

/-- Calls of `identify` for requests with any certificate chains.  `identify` is not suspended
anywhere, so a call is not dropped in the middle. -/
def identifySystem : System Op.Ans (Shared P) Choice Empty (Option (List Bytes))
    (Except Status String) where
  body peerCerts := (identify P peerCerts).run
  again _ _ := none
  spawnable _ := true
  exec e tid s o := execOp cfg e tid s o
  droppable _ _ := false
  cancel _ _ s := s
  env v _ := nomatch v

/-- A call reads the memo, relies on it, and writes to it what `parse_identity` said. -/
def memoContract : Contract Op.Ans Unit where
  init := ()
  next _ _ _ := ()
  pre _
    | .authz (.readMemo _) => True
    | .authz (.writeMemo der identity) => parseIdentity P.fromDer der = .ok identity
    | _ => False
  post _
    | .authz (.readMemo der), some identity => parseIdentity P.fromDer der = .ok identity
    | _, _ => True

variable {P cfg}

/-- What is known of the memo. -/
structure MemoInv (z : AuthzState) : Prop where
  sound : MemoSound P.fromDer z
  bounded : z.memo.keys.length ≤ maxCachedIdentities

/-- The obligations of the shared-invariant method. -/
lemma memo_sound : System.Sound (identifySystem P cfg) (fun _ _ => True) (fun _ => memoContract P)
    (fun peerCerts _ r => r = identityOf P peerCerts) fun s _ => MemoInv (P := P) s.authz where
  body peerCerts _ := (meets_identify P (fun _ => ⟨True.intro, fun _ h => h, fun _ => rfl⟩)
    fun _ _ h => ⟨h, fun _ => rfl⟩).mono fun _ _ h => h.2
  again _ _ _ _ _ h := nomatch h
  exec c i e l o k a s' hc _ ht hpre he := by
    have hinv : MemoInv (P := P) c.shared.authz := hc.inv
    cases o with
    | authz q =>
      cases he
      cases q with
      | readMemo der =>
        refine ⟨?_, hinv⟩
        cases hlookup : c.shared.authz.memo.lookup der with
        | none => simp [hlookup, memoContract]
        | some identity =>
          simpa [AuthzState.exec, hlookup, memoContract] using hinv.sound der identity hlookup
      | writeMemo der identity =>
        exact ⟨True.intro, hinv.sound.writeMemo hpre, length_writeMemo_le _ der identity⟩
      | count counter => cases hpre
    | _ => cases hpre
  cancel _ _ _ _ _ _ _ _ hd := nomatch hd
  env _ v := nomatch v

/-- In every interleaving of calls of `identify`, a call that has returned has returned what
`parse_identity` says of its own leaf certificate, the memo maps certificates to the identities
`parse_identity` finds in them, so never to an error, and it is within its bound. -/
theorem memo_transparent {t₀ n : ℕ} {token : P.token.State}
    {as : List (Action Choice Empty (Option (List Bytes)))}
    {c : Config Op.Ans (Shared P) (Option (List Bytes)) (Except Status String)}
    (hrun : (identifySystem P cfg).run (Config.initial (Shared.start P t₀ n token)) as = some c) :
    (∀ i der chain reply, c.returned i = some (some (der :: chain), reply) →
      reply = parseIdentity P.fromDer der) ∧
    (∀ der identity, c.shared.authz.memo.lookup der = some identity →
      parseIdentity P.fromDer der = .ok identity) ∧
    c.shared.authz.memo.keys.length ≤ maxCachedIdentities := by
  have hstart : System.Outline (fun _ => memoContract P)
      (fun peerCerts _ r => r = identityOf P peerCerts)
      (fun s _ => MemoInv (P := P) s.authz)
      (Config.initial (Shared.start P t₀ n token) : Config Op.Ans (Shared P) _ _) := by
    refine ⟨System.Recorded.start (fun _ _ => rfl) (fun _ _ h => nomatch h) rfl, ⟨?_, ?_⟩,
      fun _ _ h => nomatch h⟩
    · intro der identity h
      simp [Config.initial, Shared.start, AuthzState.new] at h
    · exact Nat.zero_le _
  have hc := memo_sound.run hstart (System.throughout_true _ as) hrun
  refine ⟨fun i der chain reply hi => ?_, hc.inv.sound, hc.inv.bounded⟩
  obtain ⟨hist, ht⟩ := System.exists_returned hi
  exact hc.threads i _ ht

end

/-- A platform on which one certificate names a workload, and all others do not parse. -/
def onePlatform : Platform :=
  { anyPlatform with fromDer := fun der => if der = [1] then some ⟨[], [some "alice"]⟩ else none }

/-- Two calls with that certificate read the empty memo, then both write, and a third call finds
the identity there. -/
def threeCalls : List (Action Choice Empty (Option (List Bytes))) :=
  [.spawn (some [[1]]), .spawn (some [[1], [2]]), .exec 0 .success, .exec 1 .success,
    .exec 1 .success, .exec 0 .success, .spawn (some [[1]]), .exec 2 .success]

/-- All three return the identity of the certificate. -/
theorem memo_transparent_three_calls :
    ∃ c, (identifySystem onePlatform (.plain 1 1)).run
        (Config.initial (Shared.start onePlatform 0 0 ())) threeCalls = some c ∧
      c.returned 2 = some (some [[1]], .ok "alice") ∧
      (.ok "alice" : Except Status String) = parseIdentity onePlatform.fromDer [1] := by
  have hreturned : ((identifySystem onePlatform (.plain 1 1)).run
      (Config.initial (Shared.start onePlatform 0 0 ())) threeCalls).map
      (fun c => c.returned 2) = some (some (some [[1]], .ok "alice")) := by
    decide +kernel
  obtain ⟨c, hrun, hc⟩ := Option.map_eq_some_iff.mp hreturned
  exact ⟨c, hrun, hc, (memo_transparent hrun).1 2 [1] [] _ hc⟩

end HsmProxy
