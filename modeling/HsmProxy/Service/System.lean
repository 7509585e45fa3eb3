import HsmProxy.Grpc.Single
import HsmProxy.Interleaving.Sound

/-!
# The running proxy

The threads of a proxy in pool mode are one handler per request and the workers of the pool; they
share `Shared`.  A handler is dropped only where it is suspended, a worker may die anywhere.  The
environment lets time pass, drops cache entries and rate-limit buckets, changes the token, and shuts
the pool down.
-/

namespace HsmProxy

open Interleaving

/-- The kinds of threads. -/
inductive Party where
  | rpc (rpc : Rpc)
  | worker (session : SessionHandle)

/-- What a thread's program returns: a handler its reply, a worker the state to go on with. -/
inductive ThreadResult where
  | reply (reply : Except Status RpcResponse)
  | round (worker : Option Worker)

/-- What the environment may do on its own. -/
inductive EnvAction (P : Platform) where
  | tick (d : ℕ)
  | evictKey (label : String)
  | evictBucket (identity : String)
  | changeToken (change : P.token.Change)
  | shutdown

/-- The steps a handler may be dropped in front of: those at which it is suspended. -/
def Op.suspends : Op → Bool
  | .pool (.awaitResult _ _) => true
  | .cache (.enter _) => true
  | .cache (.wait _) => true
  | .cache (.finish _ _) => true
  | .lockSession => true
  | _ => false

section

variable (P : Platform) (cfg : ServiceConfig)

/-- The environment acts on the shared state. -/
def envStep : EnvAction P → Shared P → Shared P
  | .tick d, s => { s with now := s.now + d }
  | .evictKey label, s => { s with cache := s.cache.evict label }
  | .evictBucket identity, s => { s with limiter := s.limiter.evict identity }
  | .changeToken change, s => { s with token := P.token.change s.token change }
  | .shutdown, s => { s with pool := s.pool.shutdown }

/-- What a dropped thread releases.  The session of a worker that dies is closed as its stack
unwinds; this call is no step of the model, in which the token keeps the session open until it
changes on its own (`EnvAction.changeToken`). -/
def release (tid : ℕ) : Party → Shared P → Shared P
  | .rpc _, s => { s with
      pool := s.pool.abandon tid
      cache := s.cache.abandon tid
      sessionLock := if s.sessionLock = some tid then none else s.sessionLock }
  | .worker _, s => { s with pool := s.pool.bury tid }

/-- A proxy whose requests are served by `serve`. -/
def proxy (serve : Rpc → Program (Except Status RpcResponse)) :
    System Op.Ans (Shared P) Choice (EnvAction P) Party ThreadResult where
  body
    | .rpc rpc => ThreadResult.reply <$> serve rpc
    | .worker session => ThreadResult.round <$> Worker.iterate P ⟨session, ∅⟩
  again
    | .worker _, .round (some w) => some (ThreadResult.round <$> Worker.iterate P w)
    | _, _ => none
  spawnable
    | .rpc _ => true
    | .worker _ => false
  exec e tid s o := execOp cfg e tid s o
  droppable
    | .rpc _, o => o.suspends
    | .worker _, _ => true
  cancel tid party s := release P tid party s
  env v s := some (envStep P v s)

/-- The proxy in pool mode. -/
def pooledProxy : System Op.Ans (Shared P) Choice (EnvAction P) Party ThreadResult :=
  proxy P cfg (pooled P cfg)

/-- The proxy in single mode. -/
def singleProxy (session : SessionHandle) :
    System Op.Ans (Shared P) Choice (EnvAction P) Party ThreadResult :=
  proxy P cfg (Single.single P session)

/-- The shared state after a start at time `t₀` with `n` workers and the token in state `token`. -/
def Shared.start (t₀ n : ℕ) (token : P.token.State) : Shared P where
  now := t₀
  breaker := Breaker.new t₀
  authz := AuthzState.new
  limiter := LimiterState.new
  cache := CacheState.new
  pool := PoolState.new n
  token := token
  telemetry := []
  sessionLock := none

/-- The configuration after `Pool::start`: one worker for each session it opened. -/
def started (t₀ : ℕ) (sessions : List SessionHandle) (token : P.token.State) :
    Config Op.Ans (Shared P) Party ThreadResult where
  shared := Shared.start P t₀ sessions.length token
  threads i := sessions[i]?.map fun session =>
    ⟨.worker session, [], ThreadResult.round <$> Worker.iterate P ⟨session, ∅⟩⟩
  spawned := sessions.length
  trace := []

/-! ## Threads of a run -/

variable {P cfg}

/-- The call of a handler that has replied, and its reply. -/
def replied (c : Config Op.Ans (Shared P) Party ThreadResult) (i : ℕ) :
    Option (Rpc × Except Status RpcResponse) :=
  match c.returned i with
  | some (.rpc rpc, .reply reply) => some (rpc, reply)
  | _ => none

variable {t₀ : ℕ} {sessions : List SessionHandle} {token : P.token.State}

/-- The bookkeeping holds after the start. -/
lemma recorded_started : System.Recorded (started P t₀ sessions token) := by
  refine System.Recorded.start (fun i hi => ?_) (fun i t hi => ?_) rfl
  · have hnone : sessions[i]? = none := List.getElem?_eq_none hi
    simp [started, hnone]
  · obtain ⟨session, -, rfl⟩ := Option.map_eq_some_iff.mp hi
    rfl

/-- No thread has started to run. -/
lemma unstarted_started {serve : Rpc → Program (Except Status RpcResponse)} :
    System.Unstarted (proxy P cfg serve) (started P t₀ sessions token) := by
  intro i t hi
  obtain ⟨session, -, rfl⟩ := Option.map_eq_some_iff.mp hi
  exact ⟨rfl, rfl⟩

/-- The threads that are workers are the first `n`. -/
def WorkersFirst (n : ℕ) (c : Config Op.Ans (Shared P) Party ThreadResult) : Prop :=
  n ≤ c.spawned ∧ ∀ i session hist p, c.threads i = some ⟨.worker session, hist, p⟩ → i < n

/-- After the start the threads that are workers are those of the sessions, which are the first. -/
lemma workersFirst_started : WorkersFirst sessions.length (started P t₀ sessions token) := by
  refine ⟨Nat.le_refl _, fun i session hist p hi => ?_⟩
  obtain ⟨session', hs, -⟩ := Option.map_eq_some_iff.mp hi
  exact (List.getElem?_eq_some_iff.mp hs).1

/-- The workers stay the first threads: the threads that appear are handlers. -/
lemma workersFirst_step {serve : Rpc → Program (Except Status RpcResponse)} {n : ℕ}
    {c c' : Config Op.Ans (Shared P) Party ThreadResult} {a : Action Choice (EnvAction P) Party}
    (hc : WorkersFirst n c) (h : (proxy P cfg serve).step c a = some c') : WorkersFirst n c' := by
  refine ⟨hc.1.trans (System.spawned_le_of_step h), fun j session hist p hj => ?_⟩
  rcases System.label_of_step h hj with ⟨⟨l, hist', p'⟩, ht', hlabel⟩ | ⟨-, -, hnew⟩
  · obtain rfl : l = .worker session := hlabel
    exact hc.2 j session hist' p' ht'
  · cases hnew

/-- The first `n` threads are workers, also according to the trace. -/
structure WorkersBelow (n : ℕ) (c : Config Op.Ans (Shared P) Party ThreadResult) : Prop where
  spawned : n ≤ c.spawned
  threads : ∀ i t, i < n → c.threads i = some t → ∃ session, t.label = .worker session
  entries : ∀ en ∈ c.trace, en.tid < n → ∃ session, en.label = .worker session

/-- After the start the first threads, one for each session, are workers. -/
lemma workersBelow_started : WorkersBelow sessions.length (started P t₀ sessions token) := by
  refine ⟨Nat.le_refl _, fun i t _ ht => ?_, fun en hen => absurd hen List.not_mem_nil⟩
  obtain ⟨session, -, rfl⟩ := Option.map_eq_some_iff.mp ht
  exact ⟨session, rfl⟩

/-- The first threads stay workers: the threads that appear are not among them. -/
lemma workersBelow_step {serve : Rpc → Program (Except Status RpcResponse)} {n : ℕ}
    {c c' : Config Op.Ans (Shared P) Party ThreadResult} {a : Action Choice (EnvAction P) Party}
    (hc : WorkersBelow n c) (h : (proxy P cfg serve).step c a = some c') : WorkersBelow n c' := by
  refine ⟨hc.spawned.trans (System.spawned_le_of_step h), fun j t hj ht => ?_, fun en hen hn => ?_⟩
  · rcases System.label_of_step h ht with ⟨t', ht', hlabel⟩ | ⟨-, hnew, -⟩
    · exact hlabel ▸ hc.threads j t' hj ht'
    · exact absurd hc.spawned (by omega)
  · rcases System.trace_step h with hsame | ⟨i, l, hist, o, k, ans, ht, htrace⟩
    · exact hc.entries en (hsame ▸ hen) hn
    · rcases List.mem_append.mp (htrace ▸ hen) with hen | hen
      · exact hc.entries en hen hn
      · obtain rfl := List.mem_singleton.mp hen
        exact hc.threads i _ hn ht

/-- After every run the first threads, one for each session, are workers. -/
lemma workersBelow_run {serve : Rpc → Program (Except Status RpcResponse)}
    {as : List (Action Choice (EnvAction P) Party)}
    {c : Config Op.Ans (Shared P) Party ThreadResult}
    (hrun : (proxy P cfg serve).run (started P t₀ sessions token) as = some c) :
    WorkersBelow sessions.length c :=
  System.run_invariant (fun _ _ _ hc _ h => workersBelow_step hc h) workersBelow_started
    (System.throughout_true _ as) hrun

/-! ## The shared-invariant method on a proxy -/

section

variable {G : Type} {C : Party → Contract Op.Ans G} {Q : Party → G → ThreadResult → Prop}
  {I : Shared P → List (Entry Op.Ans (Shared P) Party) → Prop}
  {serve : Rpc → Program (Except Status RpcResponse)}
  {H : Config Op.Ans (Shared P) Party ThreadResult → Action Choice (EnvAction P) Party → Prop}

/-- The outline holds after the start when the first round of every worker meets its contract. -/
lemma outline_started
    (hworker : ∀ session, (Worker.iterate P ⟨session, ∅⟩).Meets (C (.worker session))
      (fun g w => Q (.worker session) g (.round w)) (C (.worker session)).init)
    (hI : I (Shared.start P t₀ sessions.length token) []) :
    System.Outline C Q I (started P t₀ sessions token) := by
  refine ⟨recorded_started, hI, fun i t hi => ?_⟩
  obtain ⟨session, -, rfl⟩ := Option.map_eq_some_iff.mp hi
  exact (Prog.meets_map _ _).mpr (hworker session)

/-- The obligations, with one for every handler, one for every round of a worker, and one for every
kind of step. -/
lemma proxy_sound
    (hrpc : ∀ rpc, (serve rpc).Meets (C (.rpc rpc)) (fun g reply => Q (.rpc rpc) g (.reply reply))
      (C (.rpc rpc)).init)
    (hround : ∀ session g w, Q (.worker session) g (.round (some w)) →
      (Worker.iterate P w).Meets (C (.worker session))
        (fun g w => Q (.worker session) g (.round w)) g)
    (hexec : ∀ c i e l o k a s', System.Outline C Q I c → H c (.exec i e) →
      c.threads i = some ⟨l, histOf c.trace i, .call o k⟩ →
      (C l).pre ((C l).ghost (histOf c.trace i)) o → execOp cfg e i c.shared o = some (a, s') →
      (C l).post ((C l).ghost (histOf c.trace i)) o a ∧
        I s' (c.trace ++ [⟨i, l, histOf c.trace i, c.shared, ⟨o, a⟩⟩]))
    (hcancel : ∀ c i l o k, System.Outline C Q I c → H c (.cancel i) →
      c.threads i = some ⟨l, histOf c.trace i, .call o k⟩ → (∀ rpc, l = .rpc rpc → o.suspends) →
      I (release P i l c.shared) c.trace)
    (henv : ∀ c v, System.Outline C Q I c → H c (.env v) → I (envStep P v c.shared) c.trace) :
    System.Sound (proxy P cfg serve) H C Q I where
  body l hl := by
    cases l with
    | rpc rpc => exact (Prog.meets_map _ _).mpr (hrpc rpc)
    | worker session => cases hl
  again l g r p hr hp := by
    cases l with
    | rpc rpc => cases hp
    | worker session =>
      rcases r with reply | (_ | w)
      · cases hp
      · cases hp
      · obtain rfl := Option.some.inj hp
        exact (Prog.meets_map _ _).mpr (hround session g w hr)
  exec := hexec
  cancel c i l o k hc hH ht hd := by
    refine hcancel c i l o k hc hH ht fun rpc hl => ?_
    subst hl
    exact hd
  env c v s' hc hH hv := by
    obtain rfl := Option.some.inj hv
    exact henv c v hc hH

end

/-- A handler that has replied has returned its reply. -/
lemma returned_of_replied {c : Config Op.Ans (Shared P) Party ThreadResult} {i : ℕ} {rpc : Rpc}
    {reply : Except Status RpcResponse} (hi : replied c i = some (rpc, reply)) :
    c.returned i = some (.rpc rpc, .reply reply) := by
  unfold replied at hi
  split at hi
  · obtain ⟨rfl, rfl⟩ := Prod.mk.inj (Option.some.inj hi)
    assumption
  · cases hi

/-- What the method concludes about a handler that has replied. -/
lemma ends_of_replied {G : Type} {C : Party → Contract Op.Ans G}
    {Q : Party → G → ThreadResult → Prop}
    {I : Shared P → List (Entry Op.Ans (Shared P) Party) → Prop}
    {c : Config Op.Ans (Shared P) Party ThreadResult} (hc : System.Outline C Q I c) {i : ℕ}
    {rpc : Rpc} {reply : Except Status RpcResponse} (hi : replied c i = some (rpc, reply)) :
    Q (.rpc rpc) ((C (.rpc rpc)).ghost (histOf c.trace i)) (.reply reply) := by
  obtain ⟨hist, ht⟩ := System.exists_returned (returned_of_replied hi)
  obtain rfl : hist = histOf c.trace i := hc.recorded.hist i _ ht
  exact hc.threads i _ ht

/-- A handler that has replied has performed a complete history of its method. -/
theorem runs_of_reply {serve : Rpc → Program (Except Status RpcResponse)}
    {as : List (Action Choice (EnvAction P) Party)}
    {c : Config Op.Ans (Shared P) Party ThreadResult}
    (hrun : (proxy P cfg serve).run (started P t₀ sessions token) as = some c) {i : ℕ} {rpc : Rpc}
    {reply : Except Status RpcResponse} (hi : replied c i = some (rpc, reply)) :
    Prog.Runs (serve rpc) (histOf c.trace i) reply := by
  have hruns := System.runs_of_returned recorded_started unstarted_started hrun
    (returned_of_replied hi) fun _ => rfl
  obtain ⟨reply', hr, heq⟩ := Prog.runs_map.mp hruns
  obtain rfl := ThreadResult.reply.inj heq
  exact hr

end

/-! ## A proxy to evaluate runs on -/

/-- A platform around a token whose libraries accept everything. -/
def Platform.around (token : TokenModel) : Platform where
  token := token
  governor := ⟨Unit, fun _ => (), fun b _ => (true, b)⟩
  crypto :=
    { sha256 := fun _ => List.replicate 32 0
      P256PublicKey := Bytes
      RsaPublicKey := Bytes
      EcdsaSignature := Bytes
      p256FromPublicKeyDer := some
      p256FromSec1Bytes := .ok
      p256ToPublicKeyDer := some
      p256ToEncodedPoint := id
      ecdsaSignatureFromSlice := some
      p256VerifyPrehash := fun _ _ _ => true
      ringVerifyP256Sha256Fixed := fun _ _ _ => true
      rsaFromPublicKeyDer := some
      rsaNew := fun modulus exponent => some (modulus ++ exponent)
      rsaToPublicKeyDer := some
      rsaVerifyPkcs1v15Sha256 := fun _ _ _ => true
      rsaVerifyPssSha256 := fun _ _ _ => true }
  fromDer _ := none
  gcmParams _ _ _ := .ok ()
  display _ := ""
  debugAttribute _ := ""

/-- A token that answers every call with success, and finds one object. -/
def Choice.success : Choice where
  token
    | .openRwSession => .ok 0
    | .login _ => .ok ()
    | .logout _ => .ok ()
    | .closeSession _ => ()
    | .findObjects _ _ _ => .ok [0]
    | .getAttributes _ _ _ => .ok [.keyType .ec, .ecPoint (0x04 :: List.replicate 64 0)]
    | .sign _ _ _ _ => .ok []
    | .verify _ _ _ _ _ => .ok ()
    | .encrypt _ _ _ _ => .ok []
    | .decrypt _ _ _ _ => .ok []
  random := List.replicate gcmIvLen 0

/-- A token that answers every call with the error `e`. -/
def Choice.failing (e : CryptokiError) : Choice where
  token
    | .openRwSession => .error e
    | .login _ => .error e
    | .logout _ => .error e
    | .closeSession _ => ()
    | .findObjects _ _ _ => .error e
    | .getAttributes _ _ _ => .error e
    | .sign _ _ _ _ => .error e
    | .verify _ _ _ _ _ => .error e
    | .encrypt _ _ _ _ => .error e
    | .decrypt _ _ _ _ => .error e
  random := List.replicate gcmIvLen 0

/-- The platform around a token that may answer anything. -/
abbrev anyPlatform : Platform := Platform.around TokenModel.anything

/-- A service without authorizer and rate limiter, with a pool of the given queue depth, and a
breaker that needs the given number of outcomes before it trips. -/
def ServiceConfig.plain (queueDepth minimumRequests : ℕ) : ServiceConfig where
  authorizer := none
  rateLimiter := none
  breaker := ⟨1, minimumRequests, 100, 10, 1⟩
  cache := ⟨10, 10⟩
  pool := ⟨1, queueDepth, 5⟩

/-- Thread `i` executes `n` steps, with the same choice of the environment. -/
def execs {P : Platform} (i n : ℕ) (e : Choice) : List (Action Choice (EnvAction P) Party) :=
  List.replicate n (.exec i e)

/-- A call of `get_public_key` for the label `k`. -/
def lookupCall : Rpc := .getPublicKey ⟨⟨"k"⟩, none⟩

/-- A call of `sign` for the label `k`, with ECDSA over a digest. -/
def signCall : Rpc :=
  .sign ⟨⟨"k", 1, some ⟨some (.digest (List.replicate sha256Len 0))⟩⟩, none⟩

end HsmProxy
