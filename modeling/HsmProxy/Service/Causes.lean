import HsmProxy.Cache.KeyOrigin
import HsmProxy.Grpc.AdmissionCounters
import HsmProxy.Grpc.ErrorClass
import HsmProxy.Service.Backends

/-!
# The causes of errors

A client decides by the code of an error whether to retry, to ask for access or to give up.
`error_caused` says of every run of pool mode that an error has a cause that goes with its code: a
refusal of the breaker or the rate limiter, a decision of the policy, a request that fails its own
checks, the end of a submission, or, for `NOT_FOUND`, a search of the token for a key of the class
and label of the call that found nothing.  That search may have been made long ago and for another
call, since a missing key is cached like a found one.

`CauseLog` is what a handler knows of its own causes, and `Missing` relates the negative results in
the cache to the searches in the trace.
-/

namespace HsmProxy

open Interleaving Interleaving.Prog

/-! ## What a handler knows -/

/-- What a handler knows about how its call ends: about its key and its job, whether the breaker or
the rate limiter has refused it, and the errors of its submission and of the load it ran or
joined. -/
structure CauseLog where
  key : KeyLog
  rejected : Bool
  limited : Bool
  submitErrors : List PoolError
  loadErrors : List PoolError

/-- The breaker refuses a call. -/
def breakerRefuses : Event Op.Ans → Bool
  | ⟨.breaker .probe, answer⟩ => !answer
  | _ => false

/-- The rate limiter refuses a call. -/
def limiterRefuses : Event Op.Ans → Bool
  | ⟨.limiterCheck _, answer⟩ => !answer
  | _ => false

namespace CauseLog

/-- The log of a handler that has done nothing. -/
def empty : CauseLog := ⟨.empty, false, false, [], []⟩

/-- One more event. -/
def note (g : CauseLog) (ev : Event Op.Ans) : CauseLog where
  key := g.key.note ev
  rejected := g.rejected || breakerRefuses ev
  limited := g.limited || limiterRefuses ev
  submitErrors := g.submitErrors ++ (submitError ev).toList
  loadErrors := g.loadErrors ++ (loadError ev).toList

/-- An event that is none of those, and that the log of the key does not look at. -/
lemma note_of_quiet {g : CauseLog} {ev : Event Op.Ans} (hkey : g.key.note ev = g.key)
    (hrejected : breakerRefuses ev = false) (hlimited : limiterRefuses ev = false)
    (hsubmit : submitError ev = none) (hload : loadError ev = none) : g.note ev = g := by
  simp [note, hkey, hrejected, hlimited, hsubmit, hload]

end CauseLog

/-- The log after a history. -/
def causeLog (h : List (Event Op.Ans)) : CauseLog := h.foldl CauseLog.note .empty

/-- One more event. -/
lemma causeLog_snoc (h : List (Event Op.Ans)) (ev : Event Op.Ans) :
    causeLog (h ++ [ev]) = (causeLog h).note ev := by
  rw [causeLog, List.foldl_append]
  rfl

/-- The log in terms of the history. -/
lemma causeLog_eq (h : List (Event Op.Ans)) :
    causeLog h = ⟨keyLog h, h.any breakerRefuses, h.any limiterRefuses, h.filterMap submitError,
      h.filterMap loadError⟩ := by
  induction h using List.reverseRecOn with
  | nil => rfl
  | append_singleton h ev ih =>
    rw [causeLog_snoc, ih]
    simp [CauseLog.note, List.filterMap_append, List.filterMap_cons, List.filterMap_nil]
    constructor <;> split <;> simp_all

/-! ## What explains a code -/

section

variable (P : Platform) (cfg : ServiceConfig)

/-- The verification of a request fails under a key, instead of saying whether the signature is
valid. -/
def VerificationFails (rpc : Rpc) (key : CachedPublicKey) : Prop :=
  ∃ request input e, rpc = .verify request ∧ extractInput request.inner.input = .ok input ∧
    verifyPublic P.crypto key.spkiDer request.inner.mechanism input request.inner.signature =
      .error e

/-- The job of a call was answered with a response of another kind. -/
def Mismatched (rpc : Rpc) (g : JobLog) : Prop :=
  ∃ drawsIv request finish iv j answer status, plan P rpc = .ok (.job drawsIv request finish) ∧
    g.sent = some (j, request iv) ∧ g.got = some (.ok answer) ∧ finish iv answer = .error status

/-- The text with which `admit` refuses a call that exceeds its rate. -/
def rateLimitText : String := "rate limit exceeded for this workload identity"

/-- A handler with this log may end its call with this status. -/
def CauseLog.Explains (g : CauseLog) (rpc : Rpc) (status : Status) : Prop :=
  match status.code with
  | .unavailable => g.rejected = true ∨ .shuttingDown ∈ g.submitErrors
  | .unauthenticated => ∃ status, identityOf P rpc.peerCerts = .error status
  | .permissionDenied => ∃ policy, cfg.authorizer = some policy ∧ ¬ Granted P policy rpc
  | .resourceExhausted =>
      (g.limited = true ∧ g.submitErrors = [] ∧ status.message = rateLimitText) ∨
      (g.limited = false ∧ .overloaded ∈ g.submitErrors ∧ status = toStatus .overloaded)
  | .deadlineExceeded => .timeout ∈ g.submitErrors
  | .invalidArgument => (∃ status, plan P rpc = .error status) ∨
      ∃ message, .invalidRequest message ∈ g.submitErrors
  | .notFound => (∃ drawsIv request finish iv j label,
        plan P rpc = .ok (.job drawsIv request finish) ∧
        g.key.journal.sent = some (j, request iv) ∧
        g.key.journal.got = some (.error (.keyNotFound label))) ∨
      (rpc.readsPublicKey = true ∧ g.key.looked = some (rpc.keyLabel, .notFound))
  | .internal => (∃ e ∈ g.submitErrors, e.blamesToken = true) ∨ g.loadErrors ≠ [] ∨
      (∃ key, g.key.looked = some (rpc.keyLabel, .found key) ∧ VerificationFails P rpc key) ∨
      Mismatched P rpc g.key.journal

/-- A handler publishes that a key is missing when that is what its job for the label was answered,
and relies on the memo. -/
def causeContract (party : Party) : Contract Op.Ans CauseLog where
  init := .empty
  next g o a := g.note ⟨o, a⟩
  pre g o :=
    match party, o with
    | .rpc rpc, .cache (.finish k (.ok .notFound)) => ∃ j label,
        g.key.asked = some (rpc.keyLabel, k) ∧
        g.key.journal.sent = some (j, .getPublicKey rpc.keyLabel) ∧
        g.key.journal.got = some (.error (.keyNotFound label))
    | .worker _, .cache _ => False
    | _, _ => True
  post _ o a :=
    match o, a with
    | .authz (.readMemo der), some identity => parseIdentity P.fromDer der = .ok identity
    | _, _ => True

/-- What a handler replies is explained. -/
def CauseReply (rpc : Rpc) (g : CauseLog) (reply : Except Status RpcResponse) : Prop :=
  ∀ status, reply = .error status → g.Explains P cfg rpc status

variable {rpc : Rpc} {g : CauseLog}

/-- The contract does not look at the counting around a lookup, at reports and at records. -/
lemma causeContract_skip {o : Op} (ho : o.countsLookup ∨ o.reports ∨ o.records) :
    (causeContract P (.rpc rpc)).pre g o ∧ ∀ a, (causeContract P (.rpc rpc)).next g o a = g := by
  cases o with
  | cache q =>
    cases q with
    | finish k outcome => rcases ho with ho | ho | ho <;> cases ho
    | enter label => rcases ho with ho | ho | ho <;> cases ho
    | wait k => rcases ho with ho | ho | ho <;> cases ho
    | _ => exact ⟨True.intro, fun a => CauseLog.note_of_quiet rfl rfl rfl rfl rfl⟩
  | breaker q =>
    cases q with
    | load => rcases ho with ho | ho | ho <;> cases ho
    | probe => rcases ho with ho | ho | ho <;> cases ho
    | _ => exact ⟨True.intro, fun a => CauseLog.note_of_quiet rfl rfl rfl rfl rfl⟩
  | record m => exact ⟨True.intro, fun a => CauseLog.note_of_quiet rfl rfl rfl rfl rfl⟩
  | _ => rcases ho with ho | ho | ho <;> cases ho

/-- `admit` lets a call pass without a trace in the log, or refuses it for a reason. -/
lemma admitRequest_causes :
    (admitRequest P cfg rpc.peerCerts rpc.keyLabel rpc.operation).run.Meets
      (causeContract P (.rpc rpc)) (fun g r => match r with
        | .ok _ => g = .empty
        | .error status => g.Explains P cfg rpc status) .empty := by
  have hauthorize : ∀ policy, cfg.authorizer = some policy →
      (authorize P policy rpc.peerCerts rpc.keyLabel rpc.operation).run.Meets
        (causeContract P (.rpc rpc)) (fun g r => match r with
          | .ok _ => g = .empty
          | .error status => g.Explains P cfg rpc status) .empty := by
    intro policy hpolicy
    unfold authorize
    rw [meets_run_bind]
    refine (meets_map Except.ok _).mpr ((meets_identify P
      (fun _ => ⟨True.intro, fun _ h => h, fun _ => rfl⟩)
      (fun _ _ _ => ⟨True.intro, fun _ => rfl⟩)).mono fun g r hr => ?_)
    obtain ⟨rfl, hr⟩ := hr
    cases r with
    | error status =>
      refine ⟨True.intro, fun _ _ => ?_⟩
      show CauseLog.Explains P cfg _ rpc status
      unfold CauseLog.Explains
      rw [identityOf_code P hr.symm]
      exact ⟨status, hr.symm⟩
    | ok identity =>
      dsimp only
      split
      · exact ⟨True.intro, fun _ _ => rfl⟩
      · rename_i hdenied
        refine ⟨True.intro, fun _ _ => ⟨policy, hpolicy, ?_⟩⟩
        rintro ⟨identity', hidentity, hallowed⟩
        obtain rfl : identity = identity' := Except.ok.inj (hr.trans hidentity)
        exact hdenied hallowed
  have hallow : Program.allow.Meets (causeContract P (.rpc rpc))
      (fun g answer => g = { CauseLog.empty with rejected := !answer }) .empty := by
    refine ⟨True.intro, fun state _ => ?_⟩
    cases state with
    | closed => rfl
    | halfOpen => rfl
    | «open» => exact ⟨True.intro, fun answer _ => rfl⟩
  unfold admitRequest
  rw [meets_run_bind, meets_run_lift]
  refine hallow.mono fun g answer hg => ?_
  subst hg
  cases answer with
  | false => exact Or.inl rfl
  | true =>
    simp only [if_true]
    cases hpolicy : cfg.authorizer with
    | none => exact rfl
    | some policy =>
      dsimp only
      rw [meets_run_bind]
      refine (hauthorize policy hpolicy).mono fun g r hr => ?_
      cases r with
      | error status => exact hr
      | ok identity =>
        obtain rfl : g = .empty := hr
        cases cfg.rateLimiter with
        | none => exact rfl
        | some limit =>
          refine ⟨True.intro, fun passed _ => ?_⟩
          cases passed with
          | true => exact rfl
          | false => exact Or.inl ⟨rfl, rfl, rfl⟩

/-- The errors with which `Pool::submit` ends by itself. -/
def PoolError.ofSubmit : PoolError → Bool
  | .overloaded => true
  | .shuttingDown => true
  | .timeout => true
  | _ => false

/-- What a handler knows after a submission. -/
structure AfterSubmit (request : JobRequest) (g g' : CauseLog) (r : JobResult) : Prop where
  asked : g'.key.asked = g.key.asked
  looked : g'.key.looked = g.key.looked
  limited : g'.limited = false
  answered : (∃ e, r = .error e ∧ e.ofSubmit = true) ∨
    (g'.key.journal.got = some r ∧ ∃ j, g'.key.journal.sent = some (j, request))
  failed : ∀ e, r = .error e → e ∈ g'.submitErrors

/-- A submission. -/
lemma submit_causes (request : JobRequest) (hg : g.key.journal = .empty)
    (hlimited : g.limited = false) :
    (submit cfg request).Meets (causeContract P (.rpc rpc)) (AfterSubmit request g) g := by
  obtain ⟨⟨journal, asked, looked⟩, rejected, limited, submitErrors, loadErrors⟩ := g
  obtain rfl : journal = .empty := hg
  obtain rfl : limited = false := hlimited
  have hlast : ∀ (l : List PoolError) (e e' : PoolError),
      (.error e : JobResult) = .error e' → e' ∈ l ++ [e] := by
    intro l e e' h
    obtain rfl := Except.error.inj h
    exact List.mem_append_right _ (List.mem_singleton_self e)
  refine ⟨True.intro, fun _ _ => ⟨True.intro, fun _ _ => ⟨True.intro, fun sent _ => ?_⟩⟩⟩
  cases sent with
  | error refusal =>
    cases refusal with
    | full =>
      refine ⟨True.intro, fun _ _ => ⟨rfl, rfl, rfl, Or.inl ⟨_, rfl, rfl⟩, fun e he => ?_⟩⟩
      exact List.mem_append_left _ (hlast _ _ e he)
    | disconnected => exact ⟨rfl, rfl, rfl, Or.inl ⟨_, rfl, rfl⟩, fun e he => hlast _ _ e he⟩
  | ok j =>
    refine ⟨True.intro, fun _ _ => ⟨True.intro, fun awaited _ => ?_⟩⟩
    cases awaited with
    | value result =>
      refine ⟨rfl, rfl, rfl, Or.inr ⟨rfl, j, rfl⟩, ?_⟩
      rintro e rfl
      exact hlast _ _ e rfl
    | closed => exact ⟨rfl, rfl, rfl, Or.inl ⟨_, rfl, rfl⟩, fun e he => hlast _ _ e he⟩
    | elapsed =>
      refine ⟨True.intro, fun _ _ => ⟨rfl, rfl, rfl, Or.inl ⟨_, rfl, rfl⟩, fun e he => ?_⟩⟩
      exact List.mem_append_left _ (hlast _ _ e he)

/-- What a handler knows after a lookup: the value it got, or an error of a load. -/
def AfterLookup (label : String) (g : CauseLog) : Except PoolError Lookup → Prop
  | .ok v => g.key.looked = some (label, v)
  | .error e => e ∈ g.loadErrors

/-- A load that finds no key was answered so. -/
lemma eq_of_loadOutcome_notFound {r : JobResult} (h : loadOutcome r = .ok .notFound) :
    ∃ label, r = .error (.keyNotFound label) := by
  rcases r with (_ | _ | _ | _ | _ | _ | _) | (_ | _ | _ | _ | _) <;> cases h
  exact ⟨_, rfl⟩

/-- A load of the handler's own. -/
lemma runLoad_causes {k : ℕ} (hg : g.key.journal = .empty) (hlimited : g.limited = false)
    (hasked : g.key.asked = some (rpc.keyLabel, k)) :
    (runLoad k (loadPublicKey cfg rpc.keyLabel)).Meets (causeContract P (.rpc rpc))
      (AfterLookup rpc.keyLabel) g := by
  rw [meets_runLoad]
  refine (submit_causes P cfg _ hg hlimited).mono fun g' r hr => ?_
  have hasked' := hr.asked.trans hasked
  cases hload : loadOutcome r with
  | error e =>
    exact ⟨True.intro, fun _ _ => List.mem_append_right _ (List.mem_singleton_self e)⟩
  | ok v =>
    have hgot : g'.key.asked.map (fun p => (p.1, v)) = some (rpc.keyLabel, v) := by
      rw [hasked']
      rfl
    cases v with
    | found key => exact ⟨True.intro, fun _ _ => hgot⟩
    | notFound =>
      obtain ⟨label, rfl⟩ := eq_of_loadOutcome_notFound hload
      refine ⟨?_, fun _ _ => hgot⟩
      rcases hr.answered with ⟨e, he, hofSubmit⟩ | ⟨hvalue, j, hsent⟩
      · obtain rfl := Except.error.inj he
        cases hofSubmit
      · exact ⟨j, label, hasked', hsent, hvalue⟩

/-- A lookup. -/
lemma tryGetWith_causes :
    (tryGetWith rpc.keyLabel (loadPublicKey cfg rpc.keyLabel)).Meets (causeContract P (.rpc rpc))
      (AfterLookup rpc.keyLabel) .empty := by
  refine ⟨True.intro, fun entered _ => ?_⟩
  cases entered with
  | hit value => exact rfl
  | own k => exact runLoad_causes P cfg rfl rfl rfl
  | join k =>
    refine ⟨True.intro, fun joined _ => ?_⟩
    cases joined with
    | own => exact runLoad_causes P cfg rfl rfl rfl
    | finished outcome =>
      cases outcome with
      | ok v => exact rfl
      | error e => exact List.mem_singleton_self e

/-- A response of another kind is an internal error. -/
lemma status_of_mismatch {request : Bytes → JobRequest} {drawsIv : Bool}
    {finish : Bytes → JobResponse → Except Status RpcResponse}
    (hplan : plan P rpc = .ok (.job drawsIv request finish)) {iv : Bytes} {answer : JobResponse}
    {status : Status} (h : finish iv answer = .error status) : status = unexpected := by
  have hjob := plan_job P hplan
  cases rpc with
  | sign request =>
    obtain ⟨input, -, heq⟩ := except_bind_ok hplan
    obtain ⟨prepared, -, heq⟩ := except_bind_ok heq
    obtain ⟨-, -, rfl⟩ := Plan.job.inj (Except.ok.inj heq)
    cases answer <;> cases h <;> rfl
  | encrypt request =>
    obtain ⟨u, -, heq⟩ := except_bind_ok hplan
    obtain ⟨-, -, rfl⟩ := Plan.job.inj (Except.ok.inj heq)
    cases answer <;> cases h <;> rfl
  | decrypt request =>
    obtain ⟨u, -, heq⟩ := except_bind_ok hplan
    obtain ⟨u', -, heq⟩ := except_bind_ok heq
    obtain ⟨-, -, rfl⟩ := Plan.job.inj (Except.ok.inj heq)
    cases answer <;> cases h <;> rfl
  | verify request => cases hjob
  | getPublicKey request => cases hjob

/-- What a submission ends with explains the status made of it. -/
lemma explains_of_submit {request : Bytes → JobRequest} {drawsIv : Bool}
    {finish : Bytes → JobResponse → Except Status RpcResponse}
    (hplan : plan P rpc = .ok (.job drawsIv request finish)) {iv : Bytes} {g : CauseLog}
    {r : JobResult} (hr : AfterSubmit (request iv) .empty g r) :
    CauseReply P cfg rpc g (r.mapError toStatus >>= finish iv) := by
  intro status hstatus
  cases r with
  | ok answer =>
    obtain ⟨e, he, -⟩ | ⟨hgot, j, hsent⟩ := hr.answered
    · cases he
    · rw [status_of_mismatch P hplan hstatus]
      exact Or.inr (Or.inr (Or.inr ⟨drawsIv, request, finish, iv, j, answer, status, hplan, hsent,
        hgot, hstatus⟩))
  | error e =>
    obtain rfl : toStatus e = status := Except.error.inj hstatus
    have hfailed := hr.failed e rfl
    cases e with
    | keyNotFound label =>
      obtain ⟨e, he, hofSubmit⟩ | ⟨hgot, j, hsent⟩ := hr.answered
      · obtain rfl := Except.error.inj he
        cases hofSubmit
      · exact Or.inl ⟨drawsIv, request, finish, iv, j, label, hplan, hsent, hgot⟩
    | invalidRequest message => exact Or.inr ⟨message, hfailed⟩
    | overloaded => exact Or.inr ⟨hr.limited, hfailed, rfl⟩
    | timeout => exact hfailed
    | shuttingDown => exact Or.inr hfailed
    | hsm operation source => exact Or.inl ⟨_, hfailed, rfl⟩
    | internal message => exact Or.inl ⟨_, hfailed, rfl⟩

/-- What a lookup ends with explains the status made of it. -/
lemma explains_of_lookup {finish : Lookup × Bool → Except Status RpcResponse}
    (hplan : plan P rpc = .ok (.key finish)) {g : CauseLog} {r : Except PoolError Lookup}
    (hr : AfterLookup rpc.keyLabel g r) (wasPresent : Bool) :
    CauseReply P cfg rpc g (((r.map fun found => (found, wasPresent)).mapError
      fun e => toStatus (.internal (e.display P))) >>= finish) := by
  intro status hstatus
  cases r with
  | error e =>
    obtain rfl := Except.error.inj hstatus
    exact Or.inr (Or.inl (List.ne_nil_of_mem hr))
  | ok v =>
    have hkey := plan_key P hplan
    have hlooked : g.key.looked = some (rpc.keyLabel, v) := hr
    cases rpc with
    | verify request =>
      obtain ⟨input, hinput, heq⟩ := except_bind_ok hplan
      obtain rfl := Plan.key.inj (Except.ok.inj heq)
      cases v with
      | notFound =>
        obtain rfl := Except.error.inj hstatus
        exact Or.inr ⟨rfl, hlooked⟩
      | found key =>
        have hverify : finishVerify P.crypto request.inner input (.found key, wasPresent) =
            .error status := hstatus
        simp only [finishVerify] at hverify
        split at hverify
        · cases hverify
        · rename_i e he
          obtain rfl := Except.error.inj hverify
          exact Or.inr (Or.inr (Or.inl ⟨key, hlooked, request, input, e, rfl, hinput, he⟩))
    | getPublicKey request =>
      obtain rfl := Plan.key.inj (Except.ok.inj hplan)
      cases v with
      | notFound =>
        obtain rfl := Except.error.inj hstatus
        exact Or.inr ⟨rfl, hlooked⟩
      | found key => cases hstatus
    | _ => cases hkey

/-- Carrying out the plan of a call. -/
lemma perform_causes {p : Plan} (hplan : plan P rpc = .ok p) :
    (perform P cfg rpc.keyLabel p).run.Meets (causeContract P (.rpc rpc)) (CauseReply P cfg rpc)
      .empty := by
  have hobserve : ∀ {α : Type} {Q : CauseLog → Unit → Prop} (r : Except Status α) (g : CauseLog),
      Q g () → (observe r).Meets (causeContract P (.rpc rpc)) Q g := by
    intro α Q r g hQ
    exact (observe_reports r).meets (fun o ho => causeContract_skip P (Or.inr (Or.inl ho)))
      fun _ => hQ
  cases p with
  | job drawsIv request finish =>
    rw [meets_perform_job]
    refine (drawIv_only drawsIv).meets (fun o ho => ?_) fun iv => ?_
    · subst ho
      exact ⟨True.intro, fun a => CauseLog.note_of_quiet rfl rfl rfl rfl rfl⟩
    · rw [meets_submitObserved]
      exact (submit_causes P cfg _ rfl rfl).mono fun g r hr =>
        hobserve _ g (explains_of_submit P cfg hplan hr)
  | key finish =>
    rw [meets_perform_key, meets_publicKey]
    exact meets_getOrLoad (fun g o ho => causeContract_skip P (Or.inl ho))
      ((tryGetWith_causes P cfg).mono fun g r hr wasPresent =>
        hobserve _ g (explains_of_lookup P cfg hplan hr wasPresent))

/-- Every handler keeps to the contract, and what it replies is explained. -/
theorem pooled_causes (rpc : Rpc) :
    (pooled P cfg rpc).Meets (causeContract P (.rpc rpc)) (CauseReply P cfg rpc) .empty := by
  have hdone : ∀ g r, CauseReply P cfg rpc g r → Meets (causeContract P (.rpc rpc))
      (CauseReply P cfg rpc) g (record rpc.operation r >>= fun _ => pure r) := by
    intro g r hr
    rw [meets_bind]
    exact (record_only rpc.operation r).meets
      (fun o ho => causeContract_skip P (Or.inr (Or.inr ho))) fun _ => hr
  unfold pooled
  rw [meets_bind, inner_eq, meets_run_bind]
  refine (admitRequest_causes P cfg).mono fun g r hr => ?_
  cases r with
  | error status =>
    refine hdone g _ fun status' h => ?_
    obtain rfl := Except.error.inj h
    exact hr
  | ok u =>
    obtain rfl : g = .empty := hr
    cases hplan : plan P rpc with
    | error status =>
      refine hdone _ _ fun status' h => ?_
      obtain rfl := Except.error.inj h
      unfold CauseLog.Explains
      rw [plan_error_code P rpc hplan]
      exact Or.inl ⟨status, hplan⟩
    | ok p => exact (perform_causes P cfg hplan).mono hdone

/-- A worker does not touch the cache. -/
theorem iterate_causes {session : SessionHandle} (w : Worker) (g : CauseLog) :
    (Worker.iterate P w).Meets (causeContract P (.worker session)) (fun _ _ => True) g := by
  refine (Worker.iterate_only P w).meets_of_invariant (J := fun _ => True) (fun g o _ ho => ?_)
    True.intro fun _ _ _ => True.intro
  cases o with
  | cache q => cases ho
  | _ => exact ⟨True.intro, fun _ => True.intro⟩

end

/-! ## Missing keys -/

/-- A search of the token for a class of objects under a label has found nothing. -/
def Missed {S : Type} (tr : List (Entry Op.Ans S Party)) (objectClass : ObjectClass)
    (label : String) : Prop :=
  ∃ en ∈ tr, ∃ session, en.event = ⟨.token (.findObjects session objectClass label), .ok []⟩

/-- What was missed stays so. -/
lemma Missed.snoc {S : Type} {tr : List (Entry Op.Ans S Party)} {objectClass : ObjectClass}
    {label : String} (h : Missed tr objectClass label) (en : Entry Op.Ans S Party) :
    Missed (tr ++ [en]) objectClass label := by
  obtain ⟨en', hmem, hevent⟩ := h
  exact ⟨en', List.mem_append_left _ hmem, hevent⟩

section

variable {P : Platform} {cfg : ServiceConfig}

/-- An operation on a key that was found does not miss it. -/
lemma operation_not_missed {request : JobRequest} {session : SessionHandle} {key : ObjectHandle}
    {ops : List (Event Op.Ans)} {label : String}
    (h : Runs (Worker.operation P request session key) ops (.error (.keyNotFound label))) :
    False := by
  cases request with
  | sign keyLabel algorithm payload =>
    obtain ⟨r, -, hr⟩ := runs_map.mp h
    cases r <;> cases hr
  | verify keyLabel algorithm payload signature =>
    obtain ⟨r, -, hr⟩ := runs_map.mp h
    unfold verifyResult at hr
    split at hr <;> cases hr
  | encrypt keyLabel plaintext associatedData iv =>
    simp only [Worker.operation] at h
    split at h
    · cases h
    · obtain ⟨r, -, hr⟩ := runs_map.mp h
      cases r <;> cases hr
  | decrypt keyLabel ciphertext associatedData iv =>
    simp only [Worker.operation] at h
    split at h
    · cases h
    · obtain ⟨r, -, hr⟩ := runs_map.mp h
      unfold decryptResult at hr
      split at hr <;> cases hr
  | getPublicKey keyLabel =>
    obtain ⟨r, -, hr⟩ := runs_map.mp h
    cases r <;> cases hr

/-- A job ends with a missing key after a search that has found nothing. -/
lemma execute_missed {w w' : Worker} {request : JobRequest} {calls : List (Event Op.Ans)}
    {label : String}
    (h : Runs (Worker.execute P w request) calls (.error (.keyNotFound label), w')) :
    ∃ session, (⟨.token (.findObjects session request.kind.objectClass request.keyLabel), .ok []⟩ :
      Event Op.Ans) ∈ calls := by
  rw [Worker.execute_eq] at h
  obtain ⟨⟨found, w₁⟩, resolving, rest, rfl, hresolve, hrest⟩ := runs_bind.mp h
  cases found with
  | ok key =>
    obtain ⟨ops, reset, hops, -⟩ := operate_runs P hrest
    exact (operation_not_missed hops).elim
  | error e =>
    cases hrest
    unfold Worker.resolve at hresolve
    cases hcached : w.cached request.kind request.keyLabel with
    | some key =>
      rw [hcached] at hresolve
      cases hresolve with
      | call hresolve => cases hresolve
    | none =>
      rw [hcached] at hresolve
      cases hresolve with
      | call hresolve =>
        cases hresolve with
        | @call _ _ answer _ _ hresolve =>
          rcases answer with e | (_ | ⟨key, others⟩) <;> cases hresolve
          exact ⟨w.session, by simp⟩

variable {s : Shared P} {tr : List (Entry Op.Ans (Shared P) Party)}
  {c : Config Op.Ans (Shared P) Party ThreadResult}

/-- A handler is told that a key is missing after a search for the key of its job. -/
lemma missed_of_got (hc : Delivering c) {i j : ℕ} {request : JobRequest} {label : String}
    (hsent : (jobLog (histOf c.trace i)).sent = some (j, request))
    (hgot : (jobLog (histOf c.trace i)).got = some (.error (.keyNotFound label))) :
    Missed c.trace request.kind.objectClass request.keyLabel := by
  obtain ⟨job, w, w', -, hsent', hruns⟩ := execution_of_got hc hgot
  rw [hsent] at hsent'
  obtain ⟨-, rfl⟩ := Prod.mk.inj (Option.some.inj hsent')
  obtain ⟨session, hmem⟩ := execute_missed hruns
  obtain ⟨en, hen, hevent⟩ := List.mem_map.mp hmem
  exact ⟨en, (List.mem_filter.mp hen).1, session, hevent⟩

/-! ## Every run -/

/-- A negative result in the cache, and one that a handler has got, comes from a search that has
found no public key under its label. -/
structure Missing (s : Shared P) (tr : List (Entry Op.Ans (Shared P) Party)) : Prop where
  cache : CacheInv (fun label v => v = .notFound → Missed tr .publicKey label)
    (fun label e => e.value = .notFound → Missed tr .publicKey label) s.cache
  looked : ∀ i label, (keyLog (histOf tr i)).looked = some (label, .notFound) →
    Missed tr .publicKey label

/-- What is known otherwise as the system takes a step. -/
structure Informed (P : Platform) (cfg : ServiceConfig)
    (c : Config Op.Ans (Shared P) Party ThreadResult) : Prop where
  delivering : Delivering c
  keys : System.Outline keyContract (KeyEnds P) KeysInv c
  admission : System.Outline (admissionContract P cfg) (AdmissionEnds P cfg)
    (fun s _ => MemoSound P.fromDer s.authz) c

/-- A step keeps what is known of the jobs, the keys and the admissions. -/
lemma informed_step {c' : Config Op.Ans (Shared P) Party ThreadResult}
    {a : Action Choice (EnvAction P) Party} (h : Informed P cfg c)
    (hstep : (pooledProxy P cfg).step c a = some c') : Informed P cfg c' :=
  ⟨delivering_step h.delivering hstep, key_sound.step h.keys h.delivering hstep,
    admission_sound.step h.admission True.intro hstep⟩

/-- After the start, what is known of the jobs, the keys and the admissions holds. -/
lemma informed_started {t₀ : ℕ} {sessions : List SessionHandle} {token : P.token.State} :
    Informed P cfg (started P t₀ sessions token) := by
  refine ⟨delivering_started, key_started,
    outline_started (fun session => iterate_admission P cfg _ _) fun der identity h => ?_⟩
  simp [Shared.start, AuthzState.new] at h

/-- The log of a contract is that of the history. -/
lemma causeContract_ghost (party : Party) (h : List (Event Op.Ans)) :
    (causeContract P party).ghost h = causeLog h := rfl

/-- A handler that publishes a missing key has asked for a label under which none was found. -/
lemma missed_of_finish (hc : Delivering c) {i k : ℕ} {party : Party}
    (hpre : (causeContract P party).pre (causeLog (histOf c.trace i))
      (.cache (.finish k (.ok .notFound)))) :
    ∃ label, (keyLog (histOf c.trace i)).asked = some (label, k) ∧
      Missed c.trace .publicKey label := by
  cases party with
  | worker session => cases hpre
  | rpc rpc =>
    obtain ⟨j, label, hasked, hsent, hgot⟩ := hpre
    rw [causeLog_eq] at hasked hsent hgot
    rw [keyLog_journal] at hsent hgot
    exact ⟨rpc.keyLabel, hasked, missed_of_got hc hsent hgot⟩

/-- A missing key that a step of the cache tells a handler of. -/
lemma Missing.told (h : Missing c.shared c.trace) (hc : Informed P cfg c) {e : Choice} {i : ℕ}
    {party : Party} {q : CacheOp} {a : q.Ans} {s' : Shared P}
    {k : q.Ans → Prog Op.Ans ThreadResult}
    (ht : c.threads i = some ⟨party, histOf c.trace i, .call (.cache q) k⟩)
    (hpre : (causeContract P party).pre (causeLog (histOf c.trace i)) (.cache q))
    (he : execOp cfg e i c.shared (.cache q) = some (a, s')) {label : String}
    (hlooked : (keyLog (histOf c.trace i ++ [⟨.cache q, a⟩])).looked = some (label, .notFound)) :
    Missed c.trace .publicKey label := by
  obtain ⟨p, hp, rfl⟩ := execOp_cache.mp he
  rw [keyLog_snoc] at hlooked
  rcases note_looked hlooked with hold | hev | ⟨n, n', hasked, hev⟩ | ⟨n, n', hasked, hev⟩
  · exact h.looked i label hold
  · -- an entry of the cache
    cases hev
    obtain ⟨e', hentry, -, hans, -⟩ | ⟨k', l, -, -, hans, -⟩ | ⟨k', -, hans, -⟩ | ⟨-, hans, -⟩ :=
      CacheState.exec_enter hp
    · exact h.cache.entries label e' hentry (Entered.hit.inj hans).symm
    · cases hans
    · cases hans
    · cases hans
  · -- the load of another handler, which is for the label this one has asked for
    cases hev
    have hjoined := (hc.keys.threads i _ ht).1
    obtain ⟨label', hasked'⟩ : ∃ label', (keyLog (histOf c.trace i)).asked = some (label', n) := by
      cases party with
      | rpc rpc => exact hjoined
      | worker session => cases hjoined
    rw [hasked] at hasked'
    obtain ⟨rfl, rfl⟩ := Prod.mk.inj (Option.some.inj hasked')
    obtain ⟨l, hl, hlabel⟩ := hc.keys.inv.asked i label n' hasked
    obtain ⟨l', outcome, hl', houtcome, hans, -⟩ | ⟨label', -, hans, -⟩ := CacheState.exec_wait hp
    · obtain rfl := Joined.finished.inj hans
      rw [hl] at hl'
      obtain rfl := Option.some.inj hl'
      exact hlabel ▸ h.cache.loads n' l _ hl houtcome rfl
    · cases hans
  · -- its own load
    cases hev
    obtain ⟨label', hasked', hmissed⟩ := missed_of_finish hc.delivering hpre
    rw [hasked] at hasked'
    obtain ⟨rfl, -⟩ := Prod.mk.inj (Option.some.inj hasked')
    exact hmissed

/-- What handlers have got, after one more entry. -/
lemma Missing.looked_snoc (h : Missing s tr) {en : Entry Op.Ans (Shared P) Party}
    (hnew : ∀ label, (keyLog (histOf tr en.tid ++ [en.event])).looked = some (label, .notFound) →
      Missed tr .publicKey label) (i : ℕ) (label : String)
    (hi : (keyLog (histOf (tr ++ [en]) i)).looked = some (label, .notFound)) :
    Missed (tr ++ [en]) .publicKey label := by
  rw [histOf_snoc] at hi
  split at hi
  · rename_i htid
    subst htid
    exact (hnew label hi).snoc en
  · exact (h.looked i label hi).snoc en

/-- What the threads end with. -/
def CauseEnds (P : Platform) (cfg : ServiceConfig) : Party → CauseLog → ThreadResult → Prop
  | .rpc rpc, g, .reply reply => CauseReply P cfg rpc g reply
  | _, _, _ => True

/-- The obligations of the shared-invariant method. -/
lemma cause_sound : System.Sound (pooledProxy P cfg) (fun c _ => Informed P cfg c)
    (causeContract P) (CauseEnds P cfg) Missing := by
  refine proxy_sound (fun rpc => pooled_causes P cfg rpc) (fun _ g w _ => iterate_causes P w g)
    (fun c i e l o k a s' hc hH ht hpre he => ⟨?_, ?_⟩) (fun c i l o k hc _ _ _ => ?_)
    fun c v hc _ => ?_
  · cases o with
    | authz q =>
      cases he
      cases q with
      | readMemo der =>
        cases hlookup : c.shared.authz.memo.lookup der with
        | none => simp [causeContract, hlookup]
        | some identity =>
          simpa [AuthzState.exec, hlookup, causeContract] using
            hH.admission.inv der identity hlookup
      | _ => exact True.intro
    | _ => exact True.intro
  · rw [causeContract_ghost] at hpre
    by_cases hcache : ∃ q, o = .cache q
    · obtain ⟨q, rfl⟩ := hcache
      refine ⟨?_, hc.inv.looked_snoc fun label => hc.inv.told hH ht hpre he⟩
      obtain ⟨p, hp, rfl⟩ := execOp_cache.mp he
      have hpublished : ∀ n load v, q = .finish n (.ok v) → c.shared.cache.loads n = some load →
          v = .notFound → Missed c.trace .publicKey load.label := by
        rintro n load v rfl hload rfl
        obtain ⟨label, hasked, hmissed⟩ := missed_of_finish hH.delivering hpre
        obtain ⟨load', hload', hlabel⟩ := hH.keys.inv.asked i label n hasked
        rw [hload] at hload'
        obtain rfl := Option.some.inj hload'
        exact hlabel ▸ hmissed
      exact ((hc.inv.cache.exec hp fun n load v hq hload =>
        ⟨hpublished n load v hq hload, hpublished n load v hq hload⟩).1).mono
          (fun _ _ hm hv => (hm hv).snoc _) fun _ _ hm hv => (hm hv).snoc _
    · have hother : ∀ q, o ≠ .cache q := fun q hq => hcache ⟨q, hq⟩
      refine ⟨?_, hc.inv.looked_snoc fun label hlooked => ?_⟩
      · rw [(execOp_frame he).cache hother]
        exact hc.inv.cache.mono (fun _ _ hm hv => (hm hv).snoc _) fun _ _ hm hv => (hm hv).snoc _
      · rw [keyLog_snoc] at hlooked
        rcases note_looked hlooked with hold | hev | ⟨n, n', -, hev⟩ | ⟨n, n', -, hev⟩
        · exact hc.inv.looked i label hold
        · exact absurd (congrArg Sigma.fst hev) (hother _)
        · exact absurd (congrArg Sigma.fst hev) (hother _)
        · exact absurd (congrArg Sigma.fst hev) (hother _)
  · obtain ⟨hcache, hlooked⟩ := hc.inv
    cases l with
    | worker session => exact ⟨hcache, hlooked⟩
    | rpc rpc => exact ⟨(hcache.abandon i).1, hlooked⟩
  · obtain ⟨hcache, hlooked⟩ := hc.inv
    cases v with
    | evictKey label => exact ⟨(hcache.evict label).1, hlooked⟩
    | _ => exact ⟨hcache, hlooked⟩

/-- What is known after every run. -/
lemma cause_outline {t₀ : ℕ} {sessions : List SessionHandle} {token : P.token.State}
    {as : List (Action Choice (EnvAction P) Party)}
    (hrun : (pooledProxy P cfg).run (started P t₀ sessions token) as = some c) :
    System.Outline (causeContract P) (CauseEnds P cfg) Missing c := by
  refine cause_sound.run (outline_started (fun session => iterate_causes P _ _) ⟨CacheInv.new, ?_⟩)
    (System.throughout_invariant (fun _ _ _ => informed_step) informed_started) hrun
  intro i label h
  cases h

/-- The cause that goes with the code of an error of call `i`. -/
def Caused (P : Platform) (cfg : ServiceConfig) (tr : List (Entry Op.Ans (Shared P) Party)) (i : ℕ)
    (rpc : Rpc) : Code → Prop
  | .unavailable => ∃ ev ∈ histOf tr i,
      breakerRefuses ev = true ∨ submitError ev = some .shuttingDown
  | .unauthenticated => ∃ status, identityOf P rpc.peerCerts = .error status
  | .permissionDenied => ∃ policy, cfg.authorizer = some policy ∧ ¬ Granted P policy rpc
  | .resourceExhausted => ∃ ev ∈ histOf tr i,
      limiterRefuses ev = true ∨ submitError ev = some .overloaded
  | .deadlineExceeded => ∃ ev ∈ histOf tr i, submitError ev = some .timeout
  | .invalidArgument => (∃ status, plan P rpc = .error status) ∨
      ∃ ev ∈ histOf tr i, ∃ message, submitError ev = some (.invalidRequest message)
  | .notFound => Missed tr rpc.keyClass rpc.keyLabel
  | .internal => (∃ ev ∈ histOf tr i, ∃ e, submitError ev = some e ∧ e.blamesToken = true) ∨
      (∃ ev ∈ histOf tr i, ∃ e, loadError ev = some e) ∨
      ∃ key, Produced tr rpc.keyLabel (.found key) ∧ VerificationFails P rpc key

/-- A job is answered with a response of its kind. -/
lemma not_mismatched (hc : Delivering c) {i : ℕ} {rpc : Rpc} :
    ¬ Mismatched P rpc (jobLog (histOf c.trace i)) := by
  rintro ⟨drawsIv, request, finish, iv, j, answer, status, hplan, hsent, hgot, hfinish⟩
  obtain ⟨job, session, hsent', -, hperformed⟩ := endsWith_of_got hc hgot
  rw [hsent] at hsent'
  obtain ⟨-, hrequest⟩ := Prod.mk.inj (Option.some.inj hsent')
  rw [← hrequest] at hperformed
  obtain ⟨-, response, -, -, hfinish', -⟩ := answers_of_performed P hplan hperformed
  rw [hfinish] at hfinish'
  cases hfinish'

/-- What explains a code to the handler is a cause of it in the run. -/
lemma caused_of_explains (hc : Delivering c) (hkeys : KeysInv c.shared c.trace)
    (hmissing : Missing c.shared c.trace) {i : ℕ} {rpc : Rpc} {status : Status}
    (h : (causeLog (histOf c.trace i)).Explains P cfg rpc status) :
    Caused P cfg c.trace i rpc status.code := by
  have hsubmit : ∀ {e}, e ∈ (histOf c.trace i).filterMap submitError →
      ∃ ev ∈ histOf c.trace i, submitError ev = some e := fun he => List.mem_filterMap.mp he
  rw [causeLog_eq] at h
  obtain ⟨code, message⟩ := status
  cases code with
  | unavailable =>
    rcases h with h | h
    · obtain ⟨ev, hev, hrefuses⟩ := List.any_eq_true.mp h
      exact ⟨ev, hev, Or.inl hrefuses⟩
    · obtain ⟨ev, hev, herror⟩ := hsubmit h
      exact ⟨ev, hev, Or.inr herror⟩
  | unauthenticated => exact h
  | permissionDenied => exact h
  | resourceExhausted =>
    rcases h with ⟨h, -, -⟩ | ⟨-, h, -⟩
    · obtain ⟨ev, hev, hrefuses⟩ := List.any_eq_true.mp h
      exact ⟨ev, hev, Or.inl hrefuses⟩
    · obtain ⟨ev, hev, herror⟩ := hsubmit h
      exact ⟨ev, hev, Or.inr herror⟩
  | deadlineExceeded => exact hsubmit h
  | invalidArgument =>
    rcases h with h | ⟨message, h⟩
    · exact Or.inl h
    · obtain ⟨ev, hev, herror⟩ := hsubmit h
      exact Or.inr ⟨ev, hev, message, herror⟩
  | notFound =>
    rcases h with ⟨drawsIv, request, finish, iv, j, label, hplan, hsent, hgot⟩ | ⟨hreads, hlooked⟩
    · rw [keyLog_journal] at hsent hgot
      have hmissed := missed_of_got hc hsent hgot
      rw [(plan_job_key P hplan iv).1, (plan_job_key P hplan iv).2] at hmissed
      exact hmissed
    · have hmissed := hmissing.looked i rpc.keyLabel hlooked
      cases rpc with
      | verify request => exact hmissed
      | getPublicKey request => exact hmissed
      | _ => cases hreads
  | internal =>
    rcases h with ⟨e, he, hblames⟩ | hloads | ⟨key, hlooked, hfails⟩ | hmismatched
    · obtain ⟨ev, hev, herror⟩ := hsubmit he
      exact Or.inl ⟨ev, hev, e, herror, hblames⟩
    · obtain ⟨e, he⟩ := List.exists_mem_of_ne_nil _ hloads
      obtain ⟨ev, hev, herror⟩ := List.mem_filterMap.mp he
      exact Or.inr (Or.inl ⟨ev, hev, e, herror⟩)
    · exact Or.inr (Or.inr ⟨key, hkeys.looked i rpc.keyLabel _ hlooked, hfails⟩)
    · rw [keyLog_journal] at hmismatched
      exact absurd hmismatched (not_mismatched hc)

/-- Every error has a cause that goes with its code, in every run of pool mode. -/
theorem error_caused {t₀ : ℕ} {sessions : List SessionHandle} {token : P.token.State}
    {as : List (Action Choice (EnvAction P) Party)}
    (hrun : (pooledProxy P cfg).run (started P t₀ sessions token) as = some c) {i : ℕ} {rpc : Rpc}
    {status : Status} (hi : replied c i = some (rpc, .error status)) :
    Caused P cfg c.trace i rpc status.code := by
  have hends : CauseReply P cfg rpc (causeLog (histOf c.trace i)) (.error status) :=
    ends_of_replied (cause_outline hrun) hi
  exact caused_of_explains (delivering_run hrun) (key_outline hrun).inv (cause_outline hrun).inv
    (hends status rfl)

end

/-- The token has no key. -/
def Choice.missing : Choice :=
  { Choice.success with
    token
      | .findObjects _ _ _ => .ok []
      | o => Choice.success.token o }

/-- Two lookups of one label; the token has a key only during the second. -/
def lookupMissing : List (Action Choice (EnvAction anyPlatform) Party) :=
  [.exec 0 .missing, .spawn (.rpc lookupCall)] ++ execs 1 7 .missing ++ execs 0 10 .missing ++
    execs 1 5 .missing ++ [.spawn (.rpc lookupCall)] ++ execs 2 6 .success

/-- The second is answered that there is no key, without a job; the search was made for the
first. -/
theorem error_caused_negative :
    ∃ c, (pooledProxy anyPlatform (.plain 1 10)).run (started _ 0 [7] ()) lookupMissing = some c ∧
      sentJobs c.trace = [(1, ⟨0, .getPublicKey "k", 0⟩)] ∧
      replied c 2 = some (lookupCall, .error (.notFound "no key labelled 'k' on the token")) ∧
      Missed c.trace .publicKey "k" := by
  have hend : ((pooledProxy anyPlatform (.plain 1 10)).run (started _ 0 [7] ()) lookupMissing).map
      (fun c => (sentJobs c.trace, replied c 2)) = some ([(1, ⟨0, .getPublicKey "k", 0⟩)],
        some (lookupCall, .error (.notFound "no key labelled 'k' on the token"))) := by
    decide +kernel
  obtain ⟨c, hrun, hc⟩ := Option.map_eq_some_iff.mp hend
  obtain ⟨hsent, hreplied⟩ := Prod.mk.inj hc
  exact ⟨c, hrun, hsent, hreplied, error_caused hrun hreplied⟩

end HsmProxy
