import HsmProxy.Cache.KeyOrigin
import HsmProxy.Grpc.Admission
import HsmProxy.Pkcs11.HandleCache

/-!
# No cross-talk

What a successful reply is made of.  A `sign`, `encrypt` or `decrypt` call is answered with the
result of one call into the token, made for the job of that call alone (`OwnOperation`); a `verify`
or `get_public_key` call uses a key that was produced for its label.  `no_crosstalk` states both,
for every run.
-/

namespace HsmProxy

open Interleaving Interleaving.Prog

section

variable {S : Type}

/-- The calls on data that the trace has for the job of handler `i`. -/
def operationsFor (tr : List (Entry Op.Ans S Party)) (i : ℕ) : List (Entry Op.Ans S Party) :=
  match (jobLog (histOf tr i)).sent with
  | some (j, _) => tr.filter fun en => Worker.operates en.event.1 &&
      decide ((jobLog en.hist).job.map Job.id = some j)
  | none => []

/-- The events of these entries, among the calls for the job. -/
lemma operationsFor_events {tr : List (Entry Op.Ans S Party)} {i j : ℕ} {request : JobRequest}
    (hsent : (jobLog (histOf tr i)).sent = some (j, request)) :
    (operationsFor tr i).map Entry.event =
      (callsOf tr j).filter fun ev => Worker.operates ev.1 := by
  have hexecutes : ∀ o : Op, Worker.operates o → Worker.executes o := by
    intro o ho
    cases o <;> first | rfl | cases ho
  unfold operationsFor callsOf
  rw [hsent, List.filter_map, List.filter_filter]
  refine congrArg (List.map Entry.event) (List.filter_congr fun en _ => ?_)
  cases hoperates : Worker.operates en.event.1 with
  | false => simp [hoperates]
  | true => simp [hoperates, hexecutes _ hoperates]

/-- The job an operation was made for. -/
lemma job_of_mem_operationsFor {tr : List (Entry Op.Ans S Party)} {i : ℕ}
    {en : Entry Op.Ans S Party} (hen : en ∈ operationsFor tr i) :
    ∃ j request job, (jobLog (histOf tr i)).sent = some (j, request) ∧
      (jobLog en.hist).job = some job ∧ job.id = j ∧ en ∈ tr := by
  unfold operationsFor at hen
  split at hen
  · rename_i j request hsent
    obtain ⟨hmem, hjob⟩ := List.mem_filter.mp hen
    obtain ⟨-, hid⟩ := Bool.and_eq_true_iff.mp hjob
    obtain ⟨job, hjob, hid⟩ := Option.map_eq_some_iff.mp (of_decide_eq_true hid)
    exact ⟨j, request, job, hsent, hjob, hid, hmem⟩
  · cases hen

end

/-- The job a handle log has after one more event. -/
lemma HandleLog.note_job (g : HandleLog) (ev : Event Op.Ans) :
    (g.note ev).job = ((takenJob ev).map Job.request).or g.job := by
  obtain ⟨o, a⟩ := ev
  cases o with
  | pool q =>
    cases q with
    | poll => cases a <;> rfl
    | unpark => cases a <;> rfl
    | count c n => cases c <;> rfl
    | _ => rfl
  | token t =>
    cases t with
    | findObjects session objectClass label => rcases a with e | (_ | ⟨handle, rest⟩) <;> rfl
    | _ => rfl
  | _ => rfl

/-- The job a worker is executing is the one its handle log has. -/
lemma handleLog_job {h : List (Event Op.Ans)} {job : Job} (hjob : (jobLog h).job = some job) :
    (handleLog h).job = some job.request := by
  induction h using List.reverseRecOn with
  | nil => cases hjob
  | append_singleton h ev ih =>
    rw [jobLog_snoc] at hjob
    rw [handleLog_snoc, HandleLog.note_job]
    rcases (jobLog h).note_cases ev with ⟨job', htaken, -, hnote⟩ | ⟨-, -, hnote⟩ |
      ⟨htaken, -, hnote⟩ | ⟨htaken, -, hnote, -⟩
    · rw [hnote] at hjob
      obtain rfl := Option.some.inj hjob
      rw [htaken]
      rfl
    · rw [hnote] at hjob
      cases hjob
    · rw [hnote] at hjob
      rw [htaken]
      exact ih hjob
    · rw [hnote] at hjob
      rw [htaken]
      exact ih hjob

/-- The entry that sent a job. -/
lemma exists_entry_of_sent {S : Type} {tr : List (Entry Op.Ans S Party)} {i : ℕ} {job : Job}
    (h : (i, job) ∈ sentJobs tr) :
    ∃ en ∈ tr, sentJob en = some (i, job) ∧ en.tid = i ∧ en.event.1.sends = some job.request := by
  obtain ⟨en, hen, hsent⟩ := List.mem_filterMap.mp h
  refine ⟨en, hen, hsent, ?_⟩
  unfold sentJob at hsent
  split at hsent
  · rename_i request t j hevent
    obtain ⟨rfl, rfl⟩ := Prod.mk.inj (Option.some.inj hsent)
    rw [hevent]
    exact ⟨rfl, rfl⟩
  · cases hsent

/-! ## The call into the token behind a reply -/

/-- The class of key a call uses. -/
def Rpc.keyClass : Rpc → ObjectClass
  | .sign _ => .privateKey
  | .verify _ => .publicKey
  | .encrypt _ => .secretKey
  | .decrypt _ => .secretKey
  | .getPublicKey _ => .publicKey

section

variable (P : Platform)

/-- A call into the token, on the data of a `sign`, `encrypt` or `decrypt` call and with a result
that is the response. -/
def Answers (session : SessionHandle) (key : ObjectHandle) (ev : Event Op.Ans) :
    Rpc → RpcResponse → Prop
  | .sign request, .sign response => ∃ input prepared,
      extractInput request.inner.input = .ok input ∧
      prepare P.crypto request.inner.mechanism input = .ok prepared ∧
      response.keyLabel = request.inner.keyLabel ∧
      ev = ⟨.token (.sign session prepared.algorithm.mechanism key prepared.payload),
        .ok response.signature⟩
  | .encrypt request, .encrypt response =>
      ev = ⟨.token (.encrypt session
        (.aesGcm response.iv request.inner.associatedData gcmTagBits) key request.inner.plaintext),
        .ok response.ciphertext⟩
  | .decrypt request, .decrypt response =>
      ev = ⟨.token (.decrypt session
        (.aesGcm request.inner.iv request.inner.associatedData gcmTagBits) key
        request.inner.ciphertext), .ok response.plaintext⟩
  | _, _ => False

/-- What a call that plans a job makes of a response its job was executed for. -/
lemma answers_of_performed {rpc : Rpc} {drawsIv : Bool} {request : Bytes → JobRequest}
    {finish : Bytes → JobResponse → Except Status RpcResponse}
    (hplan : plan P rpc = .ok (.job drawsIv request finish)) {iv : Bytes} {answer : JobResponse}
    {session : SessionHandle} {ops : List (Event Op.Ans)}
    (hperformed : Worker.Performed session (request iv) answer ops) :
    ((request iv).kind.objectClass = rpc.keyClass ∧ (request iv).keyLabel = rpc.keyLabel) ∧
      ∃ response key ev, finish iv answer = .ok response ∧ ops = [ev] ∧
        ev.1.usesHandle = some (session, key) ∧ Answers P session key ev rpc response := by
  cases rpc with
  | sign r =>
    obtain ⟨input, hinput, hplan⟩ := except_bind_ok hplan
    obtain ⟨prepared, hprepared, hplan⟩ := except_bind_ok hplan
    have hprepare : prepare P.crypto r.inner.mechanism input = .ok prepared := by
      cases h : prepare P.crypto r.inner.mechanism input with
      | error e =>
        rw [h] at hprepared
        cases hprepared
      | ok prepared' =>
        rw [h] at hprepared
        exact congrArg _ (Except.ok.inj hprepared)
    cases hplan
    cases answer with
    | signature bytes =>
      obtain ⟨key, rfl⟩ := hperformed
      exact ⟨⟨rfl, rfl⟩, _, key, _, rfl, rfl, rfl, input, prepared, hinput, hprepare, rfl, rfl⟩
    | _ => cases hperformed
  | verify r =>
    obtain ⟨input, -, hplan⟩ := except_bind_ok hplan
    cases hplan
  | encrypt r =>
    obtain ⟨u, -, hplan⟩ := except_bind_ok hplan
    cases hplan
    cases answer with
    | ciphertext bytes =>
      obtain ⟨key, rfl⟩ := hperformed
      exact ⟨⟨rfl, rfl⟩, _, key, _, rfl, rfl, rfl, rfl⟩
    | _ => cases hperformed
  | decrypt r =>
    obtain ⟨u, -, hplan⟩ := except_bind_ok hplan
    obtain ⟨u', -, hplan⟩ := except_bind_ok hplan
    cases hplan
    cases answer with
    | plaintext bytes =>
      obtain ⟨key, rfl⟩ := hperformed
      exact ⟨⟨rfl, rfl⟩, _, key, _, rfl, rfl, rfl, rfl⟩
    | _ => cases hperformed
  | getPublicKey r => cases hplan

/-- The response is of the variant the call goes on with: the branch for an unexpected one is not
taken. -/
def Expected (rpc : Rpc) (answer : JobResponse) : Prop :=
  ∃ p, plan P rpc = .ok p ∧ match p with
    | .job _ _ finish => ∃ iv response, finish iv answer = .ok response
    | .key _ => ∃ key, loadOutcome (.ok answer) = .ok (.found key)

/-- A response that was performed for a planned request is expected. -/
lemma expected_of_performed {rpc : Rpc} {request : JobRequest} (hplanned : Planned P rpc request)
    {answer : JobResponse} {session : SessionHandle} {ops : List (Event Op.Ans)}
    (hperformed : Worker.Performed session request answer ops) : Expected P rpc answer := by
  obtain ⟨p, hplan, hcarries⟩ := hplanned
  refine ⟨p, hplan, ?_⟩
  cases p with
  | job drawsIv req finish =>
    obtain ⟨iv, rfl⟩ := hcarries
    obtain ⟨-, response, -, -, hfinish, -⟩ := answers_of_performed P hplan hperformed
    exact ⟨iv, response, hfinish⟩
  | key finish =>
    obtain rfl : request = .getPublicKey rpc.keyLabel := hcarries
    cases answer with
    | publicKey spkiDer keyType => exact ⟨⟨spkiDer, keyType⟩, rfl⟩
    | _ => cases hperformed

/-- An `encrypt` call that succeeds has drawn the IV it returns. -/
lemma draws_iv {cfg : ServiceConfig} {request : Request EncryptRequest} {h : List (Event Op.Ans)}
    {response : EncryptResponse}
    (hruns : Runs (pooled P cfg (.encrypt request)) h (.ok (.encrypt response))) :
    (⟨.randomIv, response.iv⟩ : Event Op.Ans) ∈ h := by
  have hmeets : Meets (Contract.seen fun o => decide (o = .randomIv))
      (fun drawn reply => ∀ response, reply = .ok (.encrypt response) →
        (⟨.randomIv, response.iv⟩ : Event Op.Ans) ∈ drawn) [] (pooled P cfg (.encrypt request)) := by
    refine meets_pooled P cfg (fun g o ho => Contract.seen_skip ?_)
      (fun g o ho => Contract.seen_skip ?_) (fun st response h => by cases h) fun p hp => ?_
    · cases o <;> first | rfl | cases ho
    · cases o <;> first | rfl | cases ho
    · obtain ⟨u, -, hp⟩ := except_bind_ok hp
      cases hp
      rw [meets_perform_job]
      refine meets_seen_call rfl fun iv => ?_
      rw [meets_ret, meets_submitObserved]
      refine (submit_only cfg _).meets_seen (fun o ho => ?_) fun r => ?_
      · cases o <;> first | rfl | cases ho
      · refine (observe_reports _).meets_seen (fun o ho => ?_) fun _ response hresponse => ?_
        · cases o <;> first | rfl | cases ho
        · have hiv : response.iv = iv := by
            rcases r with e | (_ | _ | ciphertext | _ | _) <;> cases hresponse
            rfl
          rw [hiv]
          exact List.mem_singleton_self _
  have hdrawn := forall_runs_seen_iff.mpr hmeets h _ hruns response rfl
  exact (List.mem_filter.mp hdrawn).1

end

/-! ## Every run -/

/-- The entry `en` is the operation behind the response of handler `i`. -/
structure OwnOperation (P : Platform) (cfg : ServiceConfig)
    (tr : List (Entry Op.Ans (Shared P) Party)) (i : ℕ) (rpc : Rpc) (response : RpcResponse)
    (en : Entry Op.Ans (Shared P) Party) : Prop where
  /-- It is the only one made for the job of the handler. -/
  only : operationsFor tr i = [en]
  /-- It was made after the handler had sent its job, which it did once it was admitted. -/
  after : ∃ tr₀ sub tr₁ tr₂ job, tr = tr₀ ++ sub :: tr₁ ++ en :: tr₂ ∧
    sentJob sub = some (i, job) ∧ (jobLog en.hist).job = some job ∧
    (admissionLog sub.hist).Admitted cfg
  /-- It is on the data of the call, with a key that its worker had found for the label. -/
  data : ∃ session key, ⟨session, rpc.keyClass, rpc.keyLabel, key⟩ ∈ (handleLog en.hist).found ∧
    Answers P session key en.event rpc response
  /-- An IV in the response was drawn by the handler. -/
  iv : ∀ answer, response = .encrypt answer →
    (⟨.randomIv, answer.iv⟩ : Event Op.Ans) ∈ histOf tr i

section

variable {P : Platform} {cfg : ServiceConfig} {t₀ : ℕ} {sessions : List SessionHandle}
  {token : P.token.State} {as : List (Action Choice (EnvAction P) Party)}
  {c : Config Op.Ans (Shared P) Party ThreadResult}

/-- The job a handler has received a result for, and how its execution ended. -/
lemma endsWith_of_got (hc : Delivering c) {i : ℕ} {r : JobResult}
    (hgot : (jobLog (histOf c.trace i)).got = some r) :
    ∃ job session, (jobLog (histOf c.trace i)).sent = some (job.id, job.request) ∧
      (i, job) ∈ sentJobs c.trace ∧ Worker.EndsWith session job.request
        ((operationsFor c.trace i).map Entry.event) r := by
  obtain ⟨j, request, hsent, hresponded⟩ := hc.inv.received i r hgot
  obtain ⟨t, hmem⟩ := hc.inv.log.own i j request hsent
  obtain ⟨session, hends⟩ := hc.inv.endsWith hmem hresponded
  exact ⟨⟨j, request, t⟩, session, hsent, hmem, operationsFor_events hsent ▸ hends⟩

/-- The job an operation was made for is the one its handler has sent, and had sent before. -/
lemma sent_before_operation (hc : Delivering c) {i : ℕ} {en : Entry Op.Ans (Shared P) Party}
    (hen : en ∈ operationsFor c.trace i) :
    ∃ tr₁ tr₂ job, c.trace = tr₁ ++ en :: tr₂ ∧ (i, job) ∈ sentJobs tr₁ ∧
      (jobLog en.hist).job = some job ∧
      (jobLog (histOf c.trace i)).sent = some (job.id, job.request) := by
  obtain ⟨j, request, job, hsent, hjob, rfl, hmem⟩ := job_of_mem_operationsFor hen
  obtain ⟨t, howned⟩ := hc.inv.log.own i _ request hsent
  obtain ⟨tr₁, tr₂, htr⟩ := List.append_of_mem hmem
  obtain ⟨-, i', hi'⟩ := hc.inv.log.after tr₁ en tr₂ job htr hjob
  have hmem' : (i', job) ∈ sentJobs c.trace := by
    rw [htr, sentJobs, List.filterMap_append]
    exact List.mem_append_left _ hi'
  obtain ⟨rfl, heq⟩ := Prod.mk.inj (hc.inv.jobs.eq_of_id hmem' howned rfl)
  have hrequest : request = job.request := by rw [heq]
  exact ⟨tr₁, tr₂, job, htr, hi', hjob, hrequest ▸ hsent⟩

/-- An operation is made for the job of one handler. -/
lemma handler_of_operation (hc : Delivering c) {i i' : ℕ} {en : Entry Op.Ans (Shared P) Party}
    (hi : en ∈ operationsFor c.trace i) (hi' : en ∈ operationsFor c.trace i') : i = i' := by
  obtain ⟨tr₁, tr₂, job, htr, hsent, hjob, -⟩ := sent_before_operation hc hi
  obtain ⟨tr₁', tr₂', job', htr', hsent', hjob', -⟩ := sent_before_operation hc hi'
  rw [hjob] at hjob'
  obtain rfl := Option.some.inj hjob'
  have hmem : (i, job) ∈ sentJobs c.trace := by
    rw [htr, sentJobs, List.filterMap_append]
    exact List.mem_append_left _ hsent
  have hmem' : (i', job) ∈ sentJobs c.trace := by
    rw [htr', sentJobs, List.filterMap_append]
    exact List.mem_append_left _ hsent'
  exact congrArg Prod.fst (hc.inv.jobs.eq_of_id hmem hmem' rfl)

/-- A successful reply of a call that plans a job has an operation of its own behind it. -/
lemma own_operation (hrun : (pooledProxy P cfg).run (started P t₀ sessions token) as = some c)
    {i : ℕ} {rpc : Rpc} {response : RpcResponse} (hreads : rpc.readsPublicKey = false)
    (hi : replied c i = some (rpc, .ok response)) :
    ∃ en, OwnOperation P cfg c.trace i rpc response en := by
  have hc : Delivering c := delivering_run hrun
  have hends : JobReply P rpc (jobLog (histOf c.trace i)) (.ok response) := ends_of_replied hc hi
  obtain ⟨p, hplan, hreply⟩ := hends response rfl
  cases p with
  | key finish =>
    rw [plan_key P hplan] at hreads
    cases hreads
  | job drawsIv request finish =>
    obtain ⟨iv, j, answer, hsent, hgot, hfinish⟩ := hreply drawsIv request finish rfl
    -- what the worker did for the job, and so what the response is made of
    obtain ⟨job, session, hsent', -, hperformed⟩ := endsWith_of_got hc hgot
    rw [hsent] at hsent'
    obtain ⟨rfl, hrequest⟩ := Prod.mk.inj (Option.some.inj hsent')
    rw [← hrequest] at hperformed
    obtain ⟨⟨hclass, hlabel⟩, response', key, ev, hfinish', hops, huses, hanswers⟩ :=
      answers_of_performed P hplan hperformed
    rw [hfinish] at hfinish'
    obtain rfl := Except.ok.inj hfinish'
    obtain ⟨en, hen, rfl⟩ := List.map_eq_singleton_iff.mp hops
    have hmem : en ∈ operationsFor c.trace i := by
      rw [hen]
      exact List.mem_singleton_self _
    obtain ⟨tr', tr₂, job', htr, hbefore, hjob', hsent''⟩ := sent_before_operation hc hmem
    obtain ⟨sub, hsub, hsubjob, -, hsends⟩ := exists_entry_of_sent hbefore
    obtain ⟨tr₀, tr₁, rfl⟩ := List.append_of_mem hsub
    have hadmitted : (admissionLog sub.hist).Admitted cfg := by
      have hsubmem : sub ∈ c.trace := by
        rw [htr]
        exact List.mem_append_left _ hsub
      obtain ⟨-, -, hadmitted, -⟩ := planned_of_sends hrun hsubmem hsends
      exact hadmitted
    have henmem : en ∈ c.trace := by
      rw [htr]
      exact List.mem_append_right _ List.mem_cons_self
    -- the handle it used was found for the job's label and class
    obtain ⟨request', hrequest', hfound⟩ := usable_of_uses (pooled_only P cfg) hrun henmem huses
    rw [handleLog_job hjob'] at hrequest'
    obtain rfl := Option.some.inj hrequest'
    have hsame : job'.request = request iv := by
      rw [hsent] at hsent''
      exact (congrArg Prod.snd (Option.some.inj hsent'')).symm
    rw [hsame, hclass, hlabel] at hfound
    refine ⟨en, hen, ⟨tr₀, sub, tr₁, tr₂, job', htr, hsubjob, hjob', hadmitted⟩,
      ⟨session, key, hfound, hanswers⟩, ?_⟩
    rintro answer' rfl
    cases rpc with
    | encrypt r => exact draws_iv P (runs_of_reply hrun hi)
    | _ => cases hanswers

/-- Whatever a handler receives as a success is of the variant it expects. -/
lemma expected_of_got (hrun : (pooledProxy P cfg).run (started P t₀ sessions token) as = some c)
    {i : ℕ} {rpc : Rpc} {hist : List (Event Op.Ans)} {p : Prog Op.Ans ThreadResult}
    (ht : c.threads i = some ⟨.rpc rpc, hist, p⟩) {answer : JobResponse}
    (hgot : (jobLog hist).got = some (.ok answer)) : Expected P rpc answer := by
  have hc : Delivering c := delivering_run hrun
  obtain rfl : hist = histOf c.trace i := hc.recorded.hist i _ ht
  obtain ⟨job, session, -, hmem, hperformed⟩ := endsWith_of_got hc hgot
  obtain ⟨sub, hsub, -, htid, hsends⟩ := exists_entry_of_sent hmem
  obtain ⟨rpc', hlabel, -, -, hplanned⟩ := planned_of_sends hrun hsub hsends
  have hrpc : Party.rpc rpc' = .rpc rpc := hlabel.symm.trans (hc.recorded.label i _ ht sub hsub htid)
  obtain rfl := Party.rpc.inj hrpc
  exact expected_of_performed P hplanned hperformed

/-- No cross-talk and no replay, in every run, with any number of handlers and workers, timeouts and
cancellations.

* A successful `sign`, `encrypt` or `decrypt` reply has one operation of the token behind it, made
  for that call, after it was admitted, on its own label and data.
* Replies of different handlers have different operations behind them.
* A job is taken at most once, and the calls made for a job that was answered are one execution of
  its request.
* A success that a handler receives is of the variant its call expects.
* A `verify` or `get_public_key` call uses a key that a `GetPublicKey` job for its label
  produced. -/
theorem no_crosstalk
    (hrun : (pooledProxy P cfg).run (started P t₀ sessions token) as = some c) :
    (∀ i rpc response, rpc.readsPublicKey = false → replied c i = some (rpc, .ok response) →
      ∃ en, OwnOperation P cfg c.trace i rpc response en) ∧
    (∀ i i' en, en ∈ operationsFor c.trace i → en ∈ operationsFor c.trace i' → i = i') ∧
    ((takenJobs c.trace).map Job.id).Nodup ∧
    (∀ j r, (⟨.pool (.respond j r), ()⟩ : Event Op.Ans) ∈ c.trace.map Entry.event →
      ∃ job ∈ takenJobs c.trace, job.id = j ∧
        ∃ w w', Runs (Worker.execute P w job.request) (callsOf c.trace j) (r, w')) ∧
    (∀ i rpc hist p answer, c.threads i = some ⟨.rpc rpc, hist, p⟩ →
      (jobLog hist).got = some (.ok answer) → Expected P rpc answer) ∧
    ∀ i rpc reply finish, replied c i = some (rpc, reply) → plan P rpc = .ok (.key finish) →
      ((keyLog (histOf c.trace i)).looked = none ∧ ∃ st, reply = .error st) ∨
        ∃ v wasPresent, reply = finish (v, wasPresent) ∧ Produced c.trace rpc.keyLabel v := by
  have hc : Delivering c := delivering_run hrun
  refine ⟨fun i rpc response hreads hi => own_operation hrun hreads hi,
    fun i i' en => handler_of_operation hc, ?_, fun j r hresponded => ?_,
    fun i rpc hist p answer ht hgot => expected_of_got hrun ht hgot,
    fun i rpc reply finish hi hplan => key_origin hrun hi hplan⟩
  · have honce := hc.inv.jobs.once
    rw [List.map_append] at honce
    exact honce.of_append_right
  · obtain ⟨job, hjob, hid, -, hruns⟩ := hc.inv.responded j r hresponded
    exact ⟨job, hjob, hid, hruns⟩

end

/-- Two calls of `sign` on the same data, one after the other. -/
def signTwice : List (Action Choice (EnvAction anyPlatform) Party) :=
  [.exec 0 .success, .spawn (.rpc signCall)] ++ execs 1 5 .success ++ execs 0 10 .success ++
    execs 1 4 .success ++ [.again 0, .exec 0 .success, .spawn (.rpc signCall)] ++
    execs 2 5 .success ++ execs 0 9 .success ++ execs 2 4 .success

/-- They get equal signatures from two operations. -/
theorem no_crosstalk_sign_twice :
    ∃ (c : Config Op.Ans (Shared anyPlatform) Party ThreadResult)
      (en en' : Entry Op.Ans (Shared anyPlatform) Party),
      (pooledProxy anyPlatform (.plain 1 10)).run (started _ 0 [7] ()) signTwice = some c ∧
      OwnOperation anyPlatform (.plain 1 10) c.trace 1 signCall (.sign ⟨[], "k"⟩) en ∧
      OwnOperation anyPlatform (.plain 1 10) c.trace 2 signCall (.sign ⟨[], "k"⟩) en' ∧
      en ≠ en' := by
  have hreplies : ((pooledProxy anyPlatform (.plain 1 10)).run (started _ 0 [7] ())
      signTwice).map (fun c => (replied c 1, replied c 2)) =
      some (some (signCall, .ok (.sign ⟨[], "k"⟩)), some (signCall, .ok (.sign ⟨[], "k"⟩))) := by
    decide +kernel
  obtain ⟨c, hrun, hc⟩ := Option.map_eq_some_iff.mp hreplies
  obtain ⟨hfirst, hsecond⟩ := Prod.mk.inj hc
  obtain ⟨howned, hapart, -⟩ := no_crosstalk hrun
  obtain ⟨en, hen⟩ := howned 1 signCall _ rfl hfirst
  obtain ⟨en', hen'⟩ := howned 2 signCall _ rfl hsecond
  refine ⟨c, en, en', hrun, hen, hen', ?_⟩
  rintro rfl
  have hmem : en ∈ operationsFor c.trace 1 := by rw [hen.only]; exact List.mem_singleton_self _
  have hmem' : en ∈ operationsFor c.trace 2 := by rw [hen'.only]; exact List.mem_singleton_self _
  exact absurd (hapart 1 2 en hmem hmem') (by decide)

end HsmProxy
