import Mathlib.Data.List.Induction
import Mathlib.Data.Nat.Notation
import Mathlib.Logic.Function.Basic

/-!
# Programs over an interface of atomic operations

A concurrent component is written as a finite tree `Prog Ans α`: it either returns a value or
issues an operation `o` and continues with the answer, an element of `Ans o`.  The tree says
nothing about what the operations do; that is the business of the shared state the program is
interleaved on (`Interleaving.System`).

What a program promises is a `Contract`: a ghost value that is updated by every answer, and, for
every ghost value, which operations the program may issue and which answers it may rely on.
`Prog.Meets` unfolds the contract along the tree and ends in a condition on the returned value and
the last ghost value; `Prog.meets_bind` makes it compositional, and a part of a program that only
issues operations the contract does not look at is skipped by `Prog.Only.meets`.  `Prog.Runs` is the
special case without any assumption: the complete histories of the program, one for every behaviour
of the operations, and `Prog.forall_runs_iff` reads them off a contract that only watches.
-/

namespace Interleaving

/-- A finite program: return a value, or issue an operation and continue with its answer. -/
inductive Prog {Op : Type} (Ans : Op → Type) (α : Type) : Type where
  | ret (a : α) : Prog Ans α
  | call (o : Op) (k : Ans o → Prog Ans α) : Prog Ans α

/-- An operation together with the answer it received. -/
abbrev Event {Op : Type} (Ans : Op → Type) : Type := Σ o : Op, Ans o

variable {Op : Type} {Ans : Op → Type} {α β G : Type}

namespace Prog

/-- Sequencing: run the first program and continue with what it returns. -/
def bind : Prog Ans α → (α → Prog Ans β) → Prog Ans β
  | ret a, f => f a
  | call o k, f => call o fun a => (k a).bind f

/-- The program that issues a single operation and returns its answer. -/
def op (o : Op) : Prog Ans (Ans o) := call o ret

/-- A program over a part of a larger interface, as a program over the larger one. -/
def embed {Op' : Type} {Ans' : Op' → Type} (f : Op → Op') (back : ∀ o, Ans' (f o) → Ans o) :
    Prog Ans α → Prog Ans' α
  | ret a => ret a
  | call o k => call (f o) fun a => (k (back o a)).embed f back

instance : Monad (Prog Ans) where
  pure := ret
  bind := bind

/-- Returning is the unit of the monad. -/
@[simp] lemma pure_eq_ret (a : α) : (pure a : Prog Ans α) = ret a := rfl

/-- Sequencing after a returned value. -/
@[simp] lemma ret_bind (a : α) (f : α → Prog Ans β) : (ret a >>= f) = f a := rfl

/-- Sequencing after an operation. -/
@[simp] lemma call_bind (o : Op) (k : Ans o → Prog Ans α) (f : α → Prog Ans β) :
    (call o k >>= f) = call o fun a => k a >>= f := rfl

instance : LawfulMonad (Prog Ans) := LawfulMonad.mk' _
  (fun p => by
    induction p with
    | ret a => rfl
    | call o k ih => exact congrArg (call o) (funext ih))
  (fun _ _ => rfl)
  (fun p f g => by
    induction p with
    | ret a => rfl
    | call o k ih => exact congrArg (call o) (funext ih))

end Prog

/-- What a program promises and what it relies on, tracked by a ghost value. -/
structure Contract {Op : Type} (Ans : Op → Type) (G : Type) where
  /-- The ghost value before the first operation. -/
  init : G
  /-- How an answer changes the ghost value. -/
  next : G → (o : Op) → Ans o → G
  /-- The operations the program may issue. -/
  pre : G → Op → Prop
  /-- The answers the program may rely on. -/
  post : G → (o : Op) → Ans o → Prop

namespace Contract

/-- The ghost value after a history. -/
def ghost (C : Contract Ans G) (h : List (Event Ans)) : G :=
  h.foldl (fun g ev => C.next g ev.1 ev.2) C.init

/-- One more event. -/
@[simp] lemma ghost_snoc (C : Contract Ans G) (h : List (Event Ans)) (ev : Event Ans) :
    C.ghost (h ++ [ev]) = C.next (C.ghost h) ev.1 ev.2 := by
  simp [ghost, List.foldl_append]

/-- The contract that promises nothing and relies on nothing, and only watches. -/
def watch (init : G) (next : G → (o : Op) → Ans o → G) : Contract Ans G where
  init := init
  next := next
  pre _ _ := True
  post _ _ _ := True

/-- The contract that only watches, and keeps the events of the operations chosen by `K`. -/
def seen (K : Op → Bool) : Contract Ans (List (Event Ans)) :=
  watch [] fun g o a => if K o then g ++ [⟨o, a⟩] else g

/-- What has been kept is the history, filtered. -/
lemma ghost_seen (K : Op → Bool) (h : List (Event Ans)) :
    (seen K).ghost h = h.filter fun ev => K ev.1 := by
  induction h using List.reverseRecOn with
  | nil => rfl
  | append_singleton h ev ih =>
    rw [ghost_snoc, ih, List.filter_append]
    by_cases hev : K ev.1 <;> simp [seen, watch, hev]

/-- An operation that is not chosen leaves no mark. -/
lemma seen_skip {K : Op → Bool} {g : List (Event Ans)} {o : Op} (ho : K o = false) :
    (seen K).pre g o ∧ ∀ a : Ans o, (seen K).next g o a = g :=
  ⟨True.intro, fun a => by simp [seen, watch, ho]⟩

/-- A chosen operation is kept. -/
lemma seen_keep {K : Op → Bool} {g : List (Event Ans)} {o : Op} (ho : K o = true) (a : Ans o) :
    (seen K).next g o a = g ++ [⟨o, a⟩] := by
  simp [seen, watch, ho]

/-- What is read off the chosen events alone is read off what has been kept. -/
lemma filterMap_seen {K : Op → Bool} {f : Event Ans → Option β}
    (hf : ∀ ev, K ev.1 = false → f ev = none) (h : List (Event Ans)) :
    (h.filter fun ev => K ev.1).filterMap f = h.filterMap f := by
  rw [List.filterMap_filter]
  congr
  funext ev
  cases hev : K ev.1 with
  | false => simp [hf ev hev]
  | true => simp

end Contract

namespace Prog

/-- From the ghost value `g` on, the program keeps to the contract `C` and, when it returns, its
value and the last ghost value satisfy `Q`. -/
def Meets (C : Contract Ans G) (Q : G → α → Prop) : G → Prog Ans α → Prop
  | g, ret a => Q g a
  | g, call o k => C.pre g o ∧ ∀ a, C.post g o a → Meets C Q (C.next g o a) (k a)

variable {C : Contract Ans G} {Q : G → α → Prop} {g : G}

/-- A returned value must satisfy the postcondition. -/
@[simp] lemma meets_ret (a : α) : Meets C Q g (ret a) ↔ Q g a := Iff.rfl

/-- An operation must be allowed, and every answer the program relies on must lead to a program
that keeps to the contract. -/
@[simp] lemma meets_call (o : Op) (k : Ans o → Prog Ans α) :
    Meets C Q g (call o k) ↔
      C.pre g o ∧ ∀ a, C.post g o a → Meets C Q (C.next g o a) (k a) := Iff.rfl

/-- A single operation. -/
@[simp] lemma meets_op {o : Op} {Q : G → Ans o → Prop} :
    Meets C Q g (op o) ↔ C.pre g o ∧ ∀ a, C.post g o a → Q (C.next g o a) a := Iff.rfl

/-- The rule of sequencing. -/
@[simp] lemma meets_bind {R : G → β → Prop} (p : Prog Ans α) (f : α → Prog Ans β) :
    Meets C R g (p >>= f) ↔ Meets C (fun g' a => Meets C R g' (f a)) g p := by
  induction p generalizing g with
  | ret a => rfl
  | call o k ih =>
    simp only [call_bind, meets_call]
    exact and_congr_right fun _ => forall₂_congr fun a _ => ih a

/-- Applying a function to the returned value. -/
@[simp] lemma meets_map {R : G → β → Prop} (f : α → β) (p : Prog Ans α) :
    Meets C R g (f <$> p) ↔ Meets C (fun g' a => R g' (f a)) g p := by
  rw [map_eq_pure_bind, meets_bind]
  rfl

/-- The rule of consequence. -/
lemma Meets.mono {Q' : G → α → Prop} {p : Prog Ans α} (hp : Meets C Q g p)
    (hQ : ∀ g' a, Q g' a → Q' g' a) : Meets C Q' g p := by
  induction p generalizing g with
  | ret a => exact hQ g a hp
  | call o k ih => exact ⟨hp.1, fun a ha => ih a (hp.2 a ha)⟩

/-- The complete histories of a program: `Runs p tr a` when `p` can perform exactly the operations
of `tr`, receive the answers written there, and return `a`. -/
inductive Runs : Prog Ans α → List (Event Ans) → α → Prop
  | ret (a : α) : Runs (ret a) [] a
  | call {o : Op} {k : Ans o → Prog Ans α} {a : Ans o} {tr : List (Event Ans)} {b : α}
      (hk : Runs (k a) tr b) : Runs (call o k) (⟨o, a⟩ :: tr) b

/-- Applying a function to the returned value keeps the histories. -/
lemma runs_map {f : α → β} {p : Prog Ans α} {tr : List (Event Ans)} {b : β} :
    Runs (f <$> p) tr b ↔ ∃ a, Runs p tr a ∧ f a = b := by
  induction p generalizing tr with
  | ret a =>
    constructor
    · rintro ⟨⟩
      exact ⟨a, Runs.ret a, rfl⟩
    · rintro ⟨a, ⟨⟩, rfl⟩
      exact Runs.ret _
  | call o k ih =>
    constructor
    · intro hr
      cases hr with
      | call hr =>
        obtain ⟨a, ha, hb⟩ := (ih _).mp hr
        exact ⟨a, Runs.call ha, hb⟩
    · rintro ⟨a, hr, hb⟩
      cases hr with
      | call hr => exact Runs.call ((ih _).mpr ⟨a, hr, hb⟩)

/-- The histories of a sequence are histories of the first program followed by those of the
second. -/
lemma runs_bind {p : Prog Ans α} {f : α → Prog Ans β} {tr : List (Event Ans)} {b : β} :
    Runs (p >>= f) tr b ↔
      ∃ a tr₁ tr₂, tr = tr₁ ++ tr₂ ∧ Runs p tr₁ a ∧ Runs (f a) tr₂ b := by
  induction p generalizing tr with
  | ret a =>
    constructor
    · intro hr
      exact ⟨a, [], tr, rfl, Runs.ret a, hr⟩
    · rintro ⟨a', tr₁, tr₂, rfl, ⟨⟩, hr⟩
      exact hr
  | call o k ih =>
    constructor
    · intro hr
      cases hr with
      | @call _ _ answer tr _ hr =>
        obtain ⟨a, tr₁, tr₂, rfl, h₁, h₂⟩ := (ih answer).mp hr
        exact ⟨a, ⟨o, answer⟩ :: tr₁, tr₂, rfl, Runs.call h₁, h₂⟩
    · rintro ⟨a, tr₁, tr₂, rfl, h₁, h₂⟩
      cases h₁ with
      | call h₁ => exact Runs.call ((ih _).mpr ⟨a, _, tr₂, rfl, h₁, h₂⟩)

/-- A program delimits its own histories: at most one of them begins a list of events. -/
lemma Runs.unique {p : Prog Ans α} {tr₁ tr₂ tr : List (Event Ans)} {a b : α} (h₁ : Runs p tr₁ a)
    (h₂ : Runs p tr₂ b) (hp₁ : tr₁ <+: tr) (hp₂ : tr₂ <+: tr) : tr₁ = tr₂ ∧ a = b := by
  induction h₁ generalizing tr₂ tr with
  | ret a =>
    cases h₂
    exact ⟨rfl, rfl⟩
  | @call o k answer tr₁ a h₁ ih =>
    cases h₂ with
    | @call _ _ answer' tr₂ _ h₂ =>
      obtain ⟨rest₁, rfl⟩ := hp₁
      obtain ⟨rest₂, heq⟩ := hp₂
      simp only [List.cons_append, List.cons.injEq, Sigma.mk.injEq, heq_eq_eq, true_and] at heq
      obtain ⟨rfl, heq⟩ := heq
      obtain ⟨rfl, rfl⟩ := ih h₂ (List.prefix_append _ _) (heq ▸ List.prefix_append _ _)
      exact ⟨rfl, rfl⟩

/-- Meeting a contract that only watches is a statement about every complete history. -/
theorem meets_watch_iff {init : G} {next : G → (o : Op) → Ans o → G} {p : Prog Ans α} :
    Meets (Contract.watch init next) Q g p ↔
      ∀ tr a, Runs p tr a → Q (tr.foldl (fun g ev => next g ev.1 ev.2) g) a := by
  induction p generalizing g with
  | ret a =>
    constructor
    · rintro hq tr b ⟨⟩
      exact hq
    · intro hq
      exact hq [] a (Runs.ret a)
  | call o k ih =>
    constructor
    · rintro ⟨-, hk⟩ tr b hr
      cases hr with
      | @call _ _ a tr _ hr => exact (ih a).mp (hk a True.intro) tr b hr
    · intro hq
      refine ⟨True.intro, fun a _ => (ih a).mpr fun tr b hr => ?_⟩
      exact hq (⟨o, a⟩ :: tr) b (Runs.call hr)

/-- What a contract concludes holds of every complete history whose answers may be relied on. -/
lemma Meets.runs {p : Prog Ans α} {tr : List (Event Ans)} {a : α} (hp : Meets C Q g p)
    (hr : Runs p tr a) (hpost : ∀ g, ∀ ev ∈ tr, C.post g ev.1 ev.2) :
    Q (tr.foldl (fun g ev => C.next g ev.1 ev.2) g) a := by
  induction hr generalizing g with
  | ret a => exact hp
  | @call o k a tr b hr ih =>
    refine ih (hp.2 a (hpost g _ List.mem_cons_self)) fun g' ev hev => ?_
    exact hpost g' ev (List.mem_cons_of_mem _ hev)

/-- What holds of every complete history, as watched from the start. -/
theorem forall_runs_iff {init : G} {next : G → (o : Op) → Ans o → G} {p : Prog Ans α} :
    (∀ tr a, Runs p tr a → Q ((Contract.watch init next).ghost tr) a) ↔
      Meets (Contract.watch init next) Q init p :=
  meets_watch_iff.symm

/-- What holds of every complete history, as far as it is kept. -/
theorem forall_runs_seen_iff {K : Op → Bool} {Q : List (Event Ans) → α → Prop} {p : Prog Ans α} :
    (∀ tr a, Runs p tr a → Q (tr.filter fun ev => K ev.1) a) ↔
      Meets (Contract.seen K) Q [] p := by
  simp only [← Contract.ghost_seen]
  exact forall_runs_iff

/-- A kept operation. -/
lemma meets_seen_call {K : Op → Bool} {Q : List (Event Ans) → α → Prop} {g : List (Event Ans)}
    {o : Op} {k : Ans o → Prog Ans α} (ho : K o = true)
    (hk : ∀ a, Meets (Contract.seen K) Q (g ++ [⟨o, a⟩]) (k a)) :
    Meets (Contract.seen K) Q g (call o k) := by
  refine ⟨True.intro, fun a _ => ?_⟩
  rw [Contract.seen_keep ho]
  exact hk a

/-- An operation that is not kept. -/
lemma meets_seen_skip {K : Op → Bool} {Q : List (Event Ans) → α → Prop} {g : List (Event Ans)}
    {o : Op} {k : Ans o → Prog Ans α} (ho : K o = false)
    (hk : ∀ a, Meets (Contract.seen K) Q g (k a)) :
    Meets (Contract.seen K) Q g (call o k) := by
  refine ⟨True.intro, fun a _ => ?_⟩
  rw [(Contract.seen_skip ho).2]
  exact hk a

/-! ## Parts of a program that a contract does not look at -/

/-- Every operation the program can issue is of the kind `K`. -/
def Only (K : Op → Prop) : Prog Ans α → Prop
  | ret _ => True
  | call o k => K o ∧ ∀ a, Only K (k a)

variable {K : Op → Prop}

@[simp] lemma only_ret (a : α) : Only K (ret a : Prog Ans α) := True.intro

@[simp] lemma only_call (o : Op) (k : Ans o → Prog Ans α) :
    Only K (call o k) ↔ K o ∧ ∀ a, Only K (k a) := Iff.rfl

@[simp] lemma only_op (o : Op) : Only K (op o : Prog Ans (Ans o)) ↔ K o := by
  simp [op]

/-- Sequencing. -/
lemma Only.bind {p : Prog Ans α} {f : α → Prog Ans β} (hp : Only K p) (hf : ∀ a, Only K (f a)) :
    Only K (p >>= f) := by
  induction p with
  | ret a => exact hf a
  | call o k ih => exact ⟨hp.1, fun a => ih a (hp.2 a)⟩

/-- A kind of operations is contained in another one. -/
lemma Only.weaken {K' : Op → Prop} {p : Prog Ans α} (hp : Only K p) (hK : ∀ o, K o → K' o) :
    Only K' p := by
  induction p with
  | ret a => exact True.intro
  | call o k ih => exact ⟨hK o hp.1, fun a => ih a (hp.2 a)⟩

/-- A program whose operations are allowed under a condition on the ghost value, and preserve it. -/
lemma Only.meets_of_invariant {J : G → Prop} {p : Prog Ans α} (hp : Only K p)
    (hC : ∀ g o, J g → K o → C.pre g o ∧ ∀ a, J (C.next g o a)) (hg : J g)
    (hQ : ∀ g' a, J g' → Q g' a) : Meets C Q g p := by
  induction p generalizing g with
  | ret a => exact hQ g a hg
  | call o k ih =>
    obtain ⟨hpre, hnext⟩ := hC g o hg hp.1
    exact ⟨hpre, fun a _ => ih a (hp.2 a) (hnext a)⟩

/-- A program whose operations the contract does not look at keeps the ghost value. -/
lemma Only.meets {p : Prog Ans α} (hp : Only K p)
    (hC : ∀ o, K o → C.pre g o ∧ ∀ a, C.next g o a = g) (hQ : ∀ a, Q g a) : Meets C Q g p := by
  refine hp.meets_of_invariant (J := fun g' => g' = g) (fun g' o hg' ho => ?_) rfl ?_
  · subst hg'
    exact hC o ho
  · rintro g' a rfl
    exact hQ a

/-- A program whose operations are always allowed meets what holds of its complete histories. -/
lemma Only.meets_runs {p : Prog Ans α} (hp : Only K p) (hC : ∀ g o, K o → C.pre g o)
    (hQ : ∀ tr a, Runs p tr a → (∀ ev ∈ tr, K ev.1) →
      Q (tr.foldl (fun g ev => C.next g ev.1 ev.2) g) a) : Meets C Q g p := by
  induction p generalizing g with
  | ret a => exact hQ [] a (Runs.ret a) fun ev hev => absurd hev List.not_mem_nil
  | call o k ih =>
    refine ⟨hC g o hp.1, fun a _ => ih a (hp.2 a) fun tr b hr htr => ?_⟩
    refine hQ (⟨o, a⟩ :: tr) b (Runs.call hr) fun ev hev => ?_
    rcases List.mem_cons.mp hev with rfl | hev
    · exact hp.1
    · exact htr ev hev

/-- The histories of a program that keeps to a kind of operations. -/
lemma Only.runs {p : Prog Ans α} {tr : List (Event Ans)} {a : α} (hp : Only K p) (hr : Runs p tr a) :
    ∀ ev ∈ tr, K ev.1 := by
  induction hr with
  | ret a => exact fun ev hev => absurd hev List.not_mem_nil
  | @call o k a tr b hr ih =>
    intro ev hev
    rcases List.mem_cons.mp hev with rfl | hev
    · exact hp.1
    · exact ih (hp.2 a) ev hev

/-- A contract that only watches does not look at operations it does not keep. -/
lemma Only.meets_seen {K' : Op → Bool} {Q : List (Event Ans) → α → Prop} {g : List (Event Ans)}
    {p : Prog Ans α} (hp : Only K p) (hK : ∀ o, K o → K' o = false) (hQ : ∀ a, Q g a) :
    Meets (Contract.seen K') Q g p :=
  hp.meets (fun o ho => Contract.seen_skip (hK o ho)) hQ

/-! ## Programs that may fail -/

variable {ε : Type}

/-- Sequencing of programs that may fail. -/
lemma meets_run_bind {Q : G → Except ε β → Prop} (x : ExceptT ε (Prog Ans) α)
    (f : α → ExceptT ε (Prog Ans) β) :
    Meets C Q g (x >>= f).run ↔
      Meets C (fun g' r => match r with
        | .ok a => Meets C Q g' (f a).run
        | .error e => Q g' (.error e)) g x.run := by
  rw [ExceptT.run_bind, meets_bind]
  constructor
  · intro h
    refine h.mono fun g' r hr => ?_
    cases r <;> exact hr
  · intro h
    refine h.mono fun g' r hr => ?_
    cases r <;> exact hr

/-- A program that cannot fail, among programs that may. -/
@[simp] lemma meets_run_lift {Q : G → Except ε α → Prop} (p : Prog Ans α) :
    Meets C Q g (liftM p : ExceptT ε (Prog Ans) α).run ↔
      Meets C (fun g' a => Q g' (.ok a)) g p :=
  meets_map Except.ok p

/-- The histories of a sequence of programs that may fail. -/
lemma runs_run_bind {x : ExceptT ε (Prog Ans) α} {f : α → ExceptT ε (Prog Ans) β}
    {tr : List (Event Ans)} {b : Except ε β} (h : Runs (x >>= f).run tr b) :
    (∃ e, Runs x.run tr (.error e) ∧ b = .error e) ∨
      ∃ a tr₁ tr₂, tr = tr₁ ++ tr₂ ∧ Runs x.run tr₁ (.ok a) ∧ Runs (f a).run tr₂ b := by
  rw [ExceptT.run_bind, runs_bind] at h
  obtain ⟨r, tr₁, tr₂, rfl, h₁, h₂⟩ := h
  cases r with
  | ok a => exact Or.inr ⟨a, tr₁, tr₂, rfl, h₁, h₂⟩
  | error e =>
    cases h₂
    rw [List.append_nil]
    exact Or.inl ⟨e, h₁, rfl⟩

/-- Sequencing of programs that may fail keeps to a kind of operations. -/
lemma only_run_bind {x : ExceptT ε (Prog Ans) α} {f : α → ExceptT ε (Prog Ans) β}
    (hx : Only K x.run) (hf : ∀ a, Only K (f a).run) : Only K (x >>= f).run := by
  rw [ExceptT.run_bind]
  refine hx.bind fun r => ?_
  cases r with
  | ok a => exact hf a
  | error e => exact only_ret _

end Prog

end Interleaving
