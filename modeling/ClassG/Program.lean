import Mathlib.Logic.Function.Basic
import Mathlib.Tactic.Common
import ClassG.Machine

/-!
# Programs of several threads

A call of a service is rarely one step: it reads something, thinks, and writes something, and
between any two of these the calls of other threads may do the same.  A `Program` is such a call,
as the operations it performs and what it does with their answers.  A `Component` is a number of
threads that make calls over one shared state, and `Component.machine` has their operations come in
any order.

The world of a component is its shared state together with the history of what has happened, each
event with the shared state it found.  Everything one wants to say about "the moment when this call
read that" is a function of the history.

* `Outline.Proves` is what one has to show of a program: that each of its operations keeps the
  invariant and does what is promised, whatever the other threads have done meanwhile.  It is
  defined along the program, so its proof follows the program.
* `Outline.proves_bind` composes programs.
* `Outline.sound` is the rule for whole runs.
-/

set_option autoImplicit false

/-- The operations of a shared state, and what each answers. -/
structure Interface where
  Op : Type
  Ans : Op → Type

/-- What one thread does in the course of a call. -/
inductive Program (I : Interface) (α : Type)
  /-- It returns. -/
  | done (a : α)
  /-- It performs an operation, and goes on as the answer tells. -/
  | perform (op : I.Op) (next : I.Ans op → Program I α)

namespace Program

variable {I : Interface} {α β : Type}

/-- One program after the other. -/
def bind : Program I α → (α → Program I β) → Program I β
  | done a, f => f a
  | perform op next, f => perform op fun ans ↦ (next ans).bind f

instance : Monad (Program I) where
  pure := done
  bind := bind

/-- A single operation. -/
def call (I : Interface) (op : I.Op) : Program I (I.Ans op) := perform op done

end Program

/-! ## Components -/

/-- What happened to a thread: it began a call, performed an operation or returned. -/
inductive What (K : Type) (I : Interface) (R : Type)
  | start (call : K)
  | did (op : I.Op) (ans : I.Ans op)
  | finish (call : K) (result : R)

/-- Something that happened, and the shared state it found. -/
structure Moment (ι K : Type) (I : Interface) (R σ : Type) where
  pre : σ
  thread : ι
  what : What K I R

/-- The shared state, and what has happened so far, latest first. -/
@[ext] structure World (ι K : Type) (I : Interface) (R σ : Type) where
  shared : σ
  history : List (Moment ι K I R σ) := []

/-- Threads of type `ι` that make calls of type `K`, with results in `R`, over a shared state in
`σ`.  What an operation does may depend on the thread and on something in `E` that is up to the
environment: the time, a random number, whether a query fails. -/
structure Component (ι K : Type) (I : Interface) (R σ E : Type) where
  init : σ → Prop
  /-- The calls a thread makes. -/
  admits : ι → K → Prop
  program : K → Program I R
  /-- The operation can be performed: an operation that has to wait is not ready. -/
  ready : ι → E → σ → I.Op → Prop
  effect : ι → E → σ → (op : I.Op) → I.Ans op × σ

/-- A component at work: a thread that is in a call has the rest of its program ahead of it. -/
structure Component.State (ι K : Type) (I : Interface) (R σ : Type) where
  world : World ι K I R σ
  thread : ι → Option (K × Program I R) := fun _ ↦ none

/-- The operation the thread is about to perform, and in which call. -/
def Component.State.about {ι K : Type} {I : Interface} {R σ : Type} (s : State ι K I R σ) (i : ι) :
    Option (K × I.Op) :=
  match s.thread i with
  | some (k, .perform op _) => some (k, op)
  | _ => none

theorem Component.State.about_of_thread {ι K : Type} {I : Interface} {R σ : Type}
    {s : State ι K I R σ} {i : ι} {k : K} {op : I.Op} {next : I.Ans op → Program I R}
    (hi : s.thread i = some (k, .perform op next)) : s.about i = some (k, op) := by
  rw [about, hi]

theorem Component.State.thread_of_about {ι K : Type} {I : Interface} {R σ : Type}
    {s : State ι K I R σ} {i : ι} {x : K × I.Op} (hx : x ∈ s.about i) :
    ∃ next, s.thread i = some (x.1, .perform x.2 next) := by
  rw [about] at hx
  rcases hi : s.thread i with _ | ⟨k, _ | ⟨op, next⟩⟩ <;> rw [hi] at hx <;> cases hx
  exact ⟨next, rfl⟩

/-- What may happen next. -/
inductive Turn (ι K E : Type)
  /-- The thread begins a call. -/
  | start (i : ι) (call : K)
  /-- It performs the next operation of its program. -/
  | step (i : ι) (env : E)
  /-- It returns. -/
  | finish (i : ι)

/-- The turns taken, latest first. -/
abbrev Component.Trace (ι K : Type) (I : Interface) (R σ E : Type) : Type :=
  List (Machine.Step (Component.State ι K I R σ) (Turn ι K E))

section defs

variable {ι K : Type} {I : Interface} {R σ E : Type}

/-- Something happens that leaves the shared state alone. -/
def World.record (w : World ι K I R σ) (i : ι) (what : What K I R) : World ι K I R σ :=
  ⟨w.shared, ⟨w.shared, i, what⟩ :: w.history⟩

/-- The thread performs the operation. -/
def Component.act (c : Component ι K I R σ E) (i : ι) (e : E) (w : World ι K I R σ) (op : I.Op) :
    World ι K I R σ :=
  ⟨(c.effect i e w.shared op).2, ⟨w.shared, i, .did op (c.effect i e w.shared op).1⟩ :: w.history⟩

variable [DecidableEq ι]

/-- What a turn does.  A turn that is not the thread's does nothing. -/
def Component.take (c : Component ι K I R σ E) (s : Component.State ι K I R σ) :
    Turn ι K E → Component.State ι K I R σ
  | .start i k =>
    match s.thread i with
    | none => ⟨s.world.record i (.start k), Function.update s.thread i (some (k, c.program k))⟩
    | some _ => s
  | .step i e =>
    match s.thread i with
    | some (k, .perform op next) =>
      ⟨c.act i e s.world op, Function.update s.thread i
        (some (k, next (c.effect i e s.world.shared op).1))⟩
    | _ => s
  | .finish i =>
    match s.thread i with
    | some (k, .done r) => ⟨s.world.record i (.finish k r), Function.update s.thread i none⟩
    | _ => s

omit [DecidableEq ι] in
/-- The call is one the thread makes, the operation is ready. -/
def Component.Ok (c : Component ι K I R σ E) (s : Component.State ι K I R σ) : Turn ι K E → Prop
  | .start i k => c.admits i k
  | .step i e => ∀ x ∈ s.about i, c.ready i e s.world.shared x.2
  | .finish _ => True

instance (c : Component ι K I R σ E) [∀ i k, Decidable (c.admits i k)]
    [∀ i e t op, Decidable (c.ready i e t op)] (s : Component.State ι K I R σ) :
    (a : Turn ι K E) → Decidable (c.Ok s a)
  | .start i k => inferInstanceAs (Decidable (c.admits i k))
  | .step _ _ => inferInstanceAs (Decidable (∀ _ ∈ _, _))
  | .finish _ => .isTrue trivial

omit [DecidableEq ι] in
/-- A component that nothing has happened to. -/
def Component.State.fresh (t : σ) : Component.State ι K I R σ := ⟨⟨t, []⟩, fun _ ↦ none⟩

/-- The component as a machine: it starts with no call under way. -/
def Component.machine (c : Component ι K I R σ E) :
    Machine (Component.State ι K I R σ) (Turn ι K E) where
  init s := ∃ t, c.init t ∧ s = .fresh t
  next s a s' := c.Ok s a ∧ s' = c.take s a

/-- The turns `as` as a run. -/
theorem Component.run_replay (c : Component ι K I R σ E) (as : List (Turn ι K E)) {t : σ}
    (ht : c.init t) (h : Machine.Admits c.take c.Ok (.fresh t) as) :
    c.machine.Run (Machine.replaySteps c.take (.fresh t) as [])
      (Machine.replay c.take (.fresh t) as) := by
  have hnext (s a) (hok : c.Ok s a) : c.machine.next s a (c.take s a) := ⟨hok, rfl⟩
  exact Machine.Run.replay hnext as (.init ⟨t, ht, rfl⟩) h

end defs

/-! ## Looking back -/

section history

variable {ι K : Type} {I : Interface} {R σ E : Type} [DecidableEq ι]

/-- The event is one of thread `i`, and of the kind `p`. -/
def Moment.own (i : ι) (p : What K I R → Bool) (x : Moment ι K I R σ) : Bool :=
  x.thread = i && p x.what

/-- What has happened since the thread's last event of the kind `p`. -/
def since (i : ι) (p : What K I R → Bool) (h : List (Moment ι K I R σ)) : List (Moment ι K I R σ) :=
  h.takeWhile fun x ↦ !x.own i p

/-- The history up to the thread's last event of the kind `p`. -/
def upTo (i : ι) (p : What K I R → Bool) (h : List (Moment ι K I R σ)) : List (Moment ι K I R σ) :=
  h.dropWhile fun x ↦ !x.own i p

variable {i : ι} {p : What K I R → Bool} {h newer : List (Moment ι K I R σ)} {x : Moment ι K I R σ}

theorem since_append_upTo : since i p h ++ upTo i p h = h := List.takeWhile_append_dropWhile

theorem upTo_cons_of_own (hx : x.own i p) : upTo i p (x :: h) = x :: h := by
  rw [upTo, List.dropWhile_cons_of_neg (by simp [hx])]

@[simp] theorem upTo_cons_of_not (hx : x.own i p = false) : upTo i p (x :: h) = upTo i p h := by
  rw [upTo, List.dropWhile_cons_of_pos (by simp [hx]), upTo]

theorem own_of_upTo {older : List (Moment ι K I R σ)} (hx : upTo i p h = x :: older) :
    x.thread = i ∧ p x.what = true := by
  have hhead := List.head?_dropWhile_not (fun y : Moment ι K I R σ ↦ !y.own i p) h
  rw [← upTo, hx] at hhead
  simpa [Moment.own] using hhead

theorem since_cons_of_own (hx : x.own i p) : since i p (x :: h) = [] := by
  rw [since, List.takeWhile_cons_of_neg (by simp [hx])]

theorem since_cons_of_not (hx : x.own i p = false) : since i p (x :: h) = x :: since i p h := by
  rw [since, List.takeWhile_cons_of_pos (by simp [hx]), since]

theorem since_append (hnewer : ∀ x ∈ newer, x.thread ≠ i) :
    since i p (newer ++ h) = newer ++ since i p h := by
  induction newer with
  | nil => rfl
  | cons x newer ih =>
    rw [List.forall_mem_cons] at hnewer
    rw [List.cons_append, since_cons_of_not (by simp [Moment.own, hnewer.1]), ih hnewer.2,
      List.cons_append]

/-- What other threads do is not the thread's own. -/
theorem upTo_append (hnewer : ∀ x ∈ newer, x.thread ≠ i) :
    upTo i p (newer ++ h) = upTo i p h := by
  induction newer with
  | nil => rfl
  | cons x newer ih =>
    rw [List.forall_mem_cons] at hnewer
    rw [List.cons_append, upTo_cons_of_not (by simp [Moment.own, hnewer.1]), ih hnewer.2]

end history

/-- The world the event found. -/
def World.Past {ι K : Type} {I : Interface} {R σ : Type} (w v : World ι K I R σ) : Prop :=
  ∃ newer x, w.history = newer ++ x :: v.history ∧ v.shared = x.pre

section places

variable {ι K : Type} {I : Interface} {R σ : Type}

/-- The `n`-th thing that has happened, counted from the start. -/
def World.at (w : World ι K I R σ) (n : ℕ) : Option (Moment ι K I R σ) := w.history.reverse[n]?

/-- How much has happened. -/
def World.length (w : World ι K I R σ) : ℕ := w.history.length

variable {w : World ι K I R σ} {t : σ} {x y : Moment ι K I R σ} {n : ℕ}

@[simp] theorem World.length_cons : World.length ⟨t, x :: w.history⟩ = w.length + 1 := rfl

theorem World.at_nil : World.at (⟨t, []⟩ : World ι K I R σ) n = none := by simp [World.at]

theorem World.lt_of_at (h : w.at n = some x) : n < w.length := by
  have hlt := (List.getElem?_eq_some_iff.mp h).1
  rwa [List.length_reverse] at hlt

theorem World.at_cons (w : World ι K I R σ) (t : σ) (x : Moment ι K I R σ) (n : ℕ) :
    World.at ⟨t, x :: w.history⟩ n = if n = w.length then some x else w.at n := by
  have hlen : w.history.reverse.length = w.length := List.length_reverse
  simp only [World.at, List.reverse_cons]
  rcases Nat.lt_trichotomy n w.length with hlt | heq | hgt
  · rw [List.getElem?_append_left (by omega), if_neg hlt.ne]
  · rw [List.getElem?_append_right (by omega), if_pos heq, hlen, heq, Nat.sub_self]
    rfl
  · have hout : (w.history.reverse ++ [x]).length ≤ n := by
      rw [List.length_append, hlen, List.length_singleton]
      omega
    rw [List.getElem?_eq_none hout, if_neg hgt.ne', List.getElem?_eq_none (by omega)]

/-- What is past stays where it is. -/
theorem World.at_append {w' : World ι K I R σ} {newer : List (Moment ι K I R σ)}
    (h : w'.history = newer ++ w.history) (hn : n < w.length) : w'.at n = w.at n := by
  rw [World.at, World.at, h, List.reverse_append,
    List.getElem?_append_left (by simpa [World.length] using hn)]

/-- What is not past is newer. -/
theorem World.mem_of_at_append {w' : World ι K I R σ} {newer : List (Moment ι K I R σ)}
    (h : w'.history = newer ++ w.history) (hn : w.length ≤ n) (hx : w'.at n = some x) :
    x ∈ newer := by
  rw [World.at, h, List.reverse_append, List.getElem?_append_right (by simpa [World.length] using hn)] at hx
  exact List.mem_reverse.mp (List.mem_of_getElem? hx)

theorem Component.act_at {E : Type} (c : Component ι K I R σ E) (i : ι) (e : E)
    (w : World ι K I R σ) (op : I.Op) :
    (c.act i e w op).at w.length = some ⟨w.shared, i, .did op (c.effect i e w.shared op).1⟩ := by
  rw [Component.act, World.at_cons, if_pos rfl]

end places

/-! ## What a turn can do -/

/-- The turn meets `P`, if it is an operation. -/
def Component.Meets {ι K : Type} {I : Interface} {R σ E : Type}
    (P : ι → K → World ι K I R σ → I.Op → Prop) (s : Component.State ι K I R σ) :
    Turn ι K E → Prop
  | .step i _ => ∀ x ∈ s.about i, P i x.1 s.world x.2
  | _ => True

namespace Component

variable {ι K : Type} {I : Interface} {R σ E : Type} [DecidableEq ι]

omit [DecidableEq ι] in
instance (P : ι → K → World ι K I R σ → I.Op → Prop) [∀ i k w op, Decidable (P i k w op)]
    (s : State ι K I R σ) : (a : Turn ι K E) → Decidable (Meets P s a)
  | .start _ _ => .isTrue trivial
  | .step _ _ => inferInstanceAs (Decidable (∀ _ ∈ _, _))
  | .finish _ => .isTrue trivial

omit [DecidableEq ι] in
theorem Meets.mono {P Q : ι → K → World ι K I R σ → I.Op → Prop} {s : State ι K I R σ}
    {a : Turn ι K E} (h : Meets P s a)
    (hPQ : ∀ i k op next, s.thread i = some (k, .perform op next) → P i k s.world op →
      Q i k s.world op) : Meets Q s a := by
  cases a with
  | start i k => trivial
  | finish i => trivial
  | step i e =>
    intro x hx
    obtain ⟨next, hi⟩ := State.thread_of_about hx
    exact hPQ _ _ _ _ hi (h x hx)

omit [DecidableEq ι] in
theorem Meets.and {P Q : ι → K → World ι K I R σ → I.Op → Prop} {s : State ι K I R σ}
    {a : Turn ι K E} (h : Meets P s a) (h' : Meets Q s a) :
    Meets (fun i k w op ↦ P i k w op ∧ Q i k w op) s a := by
  cases a with
  | start i k => trivial
  | finish i => trivial
  | step i e => exact fun x hx ↦ ⟨h x hx, h' x hx⟩

/-- What a turn can do. -/
inductive Taken (c : Component ι K I R σ E) (s : State ι K I R σ) :
    Turn ι K E → State ι K I R σ → Prop
  /-- It is not the thread's turn. -/
  | nothing {a : Turn ι K E} (ha : ∀ i e, a = .step i e → s.about i = none) : Taken c s a s
  | start {i : ι} {k : K} (hi : s.thread i = none) (hk : c.admits i k) :
      Taken c s (.start i k)
        ⟨s.world.record i (.start k), Function.update s.thread i (some (k, c.program k))⟩
  | step {i : ι} {k : K} {e : E} {op : I.Op} {next : I.Ans op → Program I R}
      (hi : s.thread i = some (k, .perform op next)) (hready : c.ready i e s.world.shared op) :
      Taken c s (.step i e)
        ⟨c.act i e s.world op, Function.update s.thread i
          (some (k, next (c.effect i e s.world.shared op).1))⟩
  | finish {i : ι} {k : K} {r : R} (hi : s.thread i = some (k, .done r)) :
      Taken c s (.finish i)
        ⟨s.world.record i (.finish k r), Function.update s.thread i none⟩

theorem taken_of_next {c : Component ι K I R σ E} {s s' : State ι K I R σ} {a : Turn ι K E}
    (h : c.machine.next s a s') : Taken c s a s' := by
  obtain ⟨hok, rfl⟩ := h
  cases a with
  | start i k =>
    cases hi : s.thread i with
    | none =>
      simp only [take, hi]
      exact .start hi hok
    | some p =>
      simp only [take, hi]
      exact .nothing (by simp)
  | step i e =>
    rcases hi : s.thread i with _ | ⟨k, _ | ⟨op, next⟩⟩
    · simp only [take, hi]
      exact .nothing (by rintro _ _ ⟨⟩; rw [State.about, hi])
    · simp only [take, hi]
      exact .nothing (by rintro _ _ ⟨⟩; rw [State.about, hi])
    · simp only [take, hi]
      exact .step hi (hok (k, op) (State.about_of_thread hi))
  | finish i =>
    rcases hi : s.thread i with _ | ⟨k, _ | ⟨op, next⟩⟩
    · simp only [take, hi]
      exact .nothing (by simp)
    · simp only [take, hi]
      exact .finish hi
    · simp only [take, hi]
      exact .nothing (by simp)

/-- A thread is in a call that it makes. -/
theorem admits_of_run {c : Component ι K I R σ E} {tr : Trace ι K I R σ E} {s : State ι K I R σ}
    (h : c.machine.Run tr s) {i : ι} {k : K} {p : Program I R} (hi : s.thread i = some (k, p)) :
    c.admits i k := by
  suffices hall : ∀ i k p, s.thread i = some (k, p) → c.admits i k from hall i k p hi
  clear hi
  have hchange {s : State ι K I R σ} {j : ι} {x : Option (K × Program I R)}
      (hs : ∀ i k p, s.thread i = some (k, p) → c.admits i k)
      (hx : ∀ k p, x = some (k, p) → c.admits j k) (i : ι) (k : K) (p : Program I R)
      (hi : Function.update s.thread j x i = some (k, p)) : c.admits i k := by
    rw [Function.update_apply] at hi
    split at hi
    · rename_i hij
      exact hij ▸ hx k p hi
    · exact hs i k p hi
  refine h.invariant (I := fun s ↦ ∀ i k p, s.thread i = some (k, p) → c.admits i k) ?_
    fun s a s' hs hn ↦ ?_
  · rintro s ⟨t, -, rfl⟩ i k p hi
    cases hi
  · cases taken_of_next hn with
    | nothing ha => exact hs
    | start hi hk => exact hchange hs fun k p hx ↦ by cases hx; exact hk
    | step hi hready => exact hchange hs fun k p hx ↦ by cases hx; exact hs _ _ _ hi
    | finish hi => exact hchange hs fun k p hx ↦ by cases hx

/-- Whatever the history tells of the past was so. -/
theorem past_of_run {c : Component ι K I R σ E}
    {tr : Trace ι K I R σ E} {s : State ι K I R σ}
    (h : c.machine.Run tr s) {v : World ι K I R σ} (hv : s.world.Past v) :
    ∃ x ∈ tr, x.pre.world = v := by
  induction h with
  | init hi =>
    obtain ⟨t, -, rfl⟩ := hi
    obtain ⟨newer, x, hx, -⟩ := hv
    exact absurd hx (by simp [State.fresh])
  | @step tr s a s' hr hn ih =>
    have hcons {x : Moment ι K I R σ} {t : σ} (hx : x.pre = s.world.shared)
        (hv : World.Past ⟨t, x :: s.world.history⟩ v) : s.world = v ∨ s.world.Past v := by
      obtain ⟨newer, y, hy, hpre⟩ := hv
      cases newer with
      | nil =>
        obtain ⟨rfl, hhist⟩ := List.cons.inj hy
        exact .inl (World.ext (by rw [hpre, hx]) hhist)
      | cons z newer => exact .inr ⟨newer, y, (List.cons.inj hy).2, hpre⟩
    have hnow : s.world = v ∨ s.world.Past v := by
      cases taken_of_next hn with
      | nothing ha => exact .inr hv
      | start hi hk => exact hcons rfl hv
      | step hi hready => exact hcons rfl hv
      | finish hi => exact hcons rfl hv
    rcases hnow with hnow | hnow
    · exact ⟨_, List.mem_cons_self, hnow⟩
    · obtain ⟨x, hx, hpre⟩ := ih hnow
      exact ⟨x, List.mem_cons_of_mem _ hx, hpre⟩

end Component

/-! ## Proof outlines -/

/-- What is to be shown of every world, what is assumed and promised of every operation, and what
each thread relies on the others to leave alone. -/
structure Outline (ι K : Type) (I : Interface) (R σ : Type) where
  inv : World ι K I R σ → Prop := fun _ ↦ True
  assume : ι → K → World ι K I R σ → I.Op → Prop := fun _ _ _ _ ↦ True
  promise : ι → K → World ι K I R σ → I.Op → Prop := fun _ _ _ _ ↦ True
  rely : ι → World ι K I R σ → World ι K I R σ → Prop := fun _ _ _ ↦ True

namespace Outline

variable {ι K : Type} {I : Interface} {R σ E : Type} {α β : Type}

/-- `Meanwhile i w w'`: only other threads have done anything on the way from `w` to `w'`. -/
def Meanwhile (i : ι) (w w' : World ι K I R σ) : Prop :=
  ∃ newer, w'.history = newer ++ w.history ∧ (∀ x ∈ newer, x.thread ≠ i) ∧ (newer = [] → w' = w)

theorem Meanwhile.upTo_eq [DecidableEq ι] {i : ι} {w w' : World ι K I R σ} (h : Meanwhile i w w')
    (p : What K I R → Bool) : upTo i p w'.history = upTo i p w.history := by
  obtain ⟨newer, hnewer, hother, -⟩ := h
  rw [hnewer, upTo_append hother]

/-- `Within i w w'`: on the way from `w` to `w'` the thread has stayed in one call. -/
def Within (i : ι) (w w' : World ι K I R σ) : Prop :=
  ∃ newer, w'.history = newer ++ w.history ∧
    ∀ x ∈ newer, x.thread = i → ∃ op ans, x.what = .did op ans

theorem Within.refl (i : ι) (w : World ι K I R σ) : Within i w w := ⟨[], rfl, by simp⟩

theorem Within.trans {i : ι} {w w' w'' : World ι K I R σ} (h : Within i w w')
    (h' : Within i w' w'') : Within i w w'' := by
  obtain ⟨newer, hnewer, hcall⟩ := h
  obtain ⟨newest, hnewest, hcall'⟩ := h'
  refine ⟨newest ++ newer, by rw [hnewest, hnewer, List.append_assoc], fun x hx ↦ ?_⟩
  exact (List.mem_append.mp hx).elim (hcall' x) (hcall x)

theorem Meanwhile.within {i : ι} {w w' : World ι K I R σ} (h : Meanwhile i w w') :
    Within i w w' := by
  obtain ⟨newer, hnewer, hother, -⟩ := h
  exact ⟨newer, hnewer, fun x hx hi ↦ absurd hi (hother x hx)⟩

theorem within_act (c : Component ι K I R σ E) (i : ι) (e : E) (w : World ι K I R σ) (op : I.Op) :
    Within i w (c.act i e w op) :=
  ⟨[_], rfl, fun _ hx _ ↦ by rw [List.mem_singleton.mp hx]; exact ⟨_, _, rfl⟩⟩

theorem Within.le {i : ι} {w w' : World ι K I R σ} (h : Within i w w') : w.length ≤ w'.length := by
  obtain ⟨newer, hnewer, -⟩ := h
  rw [World.length, World.length, hnewer, List.length_append]
  omega

theorem Within.at_eq {i : ι} {w w' : World ι K I R σ} (h : Within i w w') {n : ℕ}
    (hn : n < w.length) : w'.at n = w.at n := by
  obtain ⟨newer, hnewer, -⟩ := h
  exact World.at_append hnewer hn

/-- What thread `i` may find when it goes on, if it left `w`. -/
def Finds (O : Outline ι K I R σ) (i : ι) (w w' : World ι K I R σ) : Prop :=
  Meanwhile i w w' ∧ O.rely i w w' ∧ O.inv w'

/-- Going on to `w'` keeps the invariant and what the other threads rely on. -/
def Keeps (O : Outline ι K I R σ) (i : ι) (w w' : World ι K I R σ) : Prop :=
  O.inv w' ∧ ∀ j, j ≠ i → O.rely j w w'

/-- Thread `i`, in the call `k`, has left `w` and goes on with the program: each of its operations
keeps the invariant and is as promised, and at its end `Q` holds. -/
def Proves (O : Outline ι K I R σ) (c : Component ι K I R σ E) (i : ι) (k : K)
    (Q : α → World ι K I R σ → Prop) : Program I α → World ι K I R σ → Prop
  | .done a, w => Q a w
  | .perform op next, w => ∀ w', O.Finds i w w' → ∀ e, c.ready i e w'.shared op →
      O.assume i k w' op → O.promise i k w' op ∧ O.Keeps i w' (c.act i e w' op) ∧
        Proves O c i k Q (next (c.effect i e w'.shared op).1) (c.act i e w' op)

variable {O : Outline ι K I R σ} {c : Component ι K I R σ E} {i : ι} {k : K}

theorem proves_call {op : I.Op} {Q : I.Ans op → World ι K I R σ → Prop} {w : World ι K I R σ} :
    O.Proves c i k Q (Program.call I op) w ↔ ∀ w', O.Finds i w w' → ∀ e,
      c.ready i e w'.shared op → O.assume i k w' op → O.promise i k w' op ∧
        O.Keeps i w' (c.act i e w' op) ∧ Q (c.effect i e w'.shared op).1 (c.act i e w' op) :=
  Iff.rfl

theorem proves_bind {Q : β → World ι K I R σ → Prop} {p : Program I α} {f : α → Program I β}
    {w : World ι K I R σ} :
    O.Proves c i k Q (p >>= f) w ↔ O.Proves c i k (fun a ↦ O.Proves c i k Q (f a)) p w := by
  change O.Proves c i k Q (p.bind f) w ↔ _
  induction p generalizing w with
  | done a => exact Iff.rfl
  | perform op next ih => simp only [Program.bind, Proves, ih]

theorem Proves.mono {Q Q' : α → World ι K I R σ → Prop} {p : Program I α} {w : World ι K I R σ}
    (h : O.Proves c i k Q p w) (hQ : ∀ a w, Q a w → Q' a w) : O.Proves c i k Q' p w := by
  induction p generalizing w with
  | done a => exact hQ a w h
  | perform op next ih =>
    intro w' hw e hready hass
    obtain ⟨hpromise, hkeeps, hnext⟩ := h w' hw e hready hass
    exact ⟨hpromise, hkeeps, ih _ hnext⟩

/-- The thread returns, whenever that is. -/
def Returns (O : Outline ι K I R σ) (i : ι) (k : K) (r : R) (w : World ι K I R σ) : Prop :=
  ∀ w', O.Finds i w w' → O.Keeps i w' (w'.record i (.finish k r))

/-! ### Soundness -/

theorem meanwhile_refl (i : ι) (w : World ι K I R σ) : Meanwhile i w w :=
  ⟨[], rfl, by simp, fun _ ↦ rfl⟩

theorem Meanwhile.trans {i : ι} {w w' w'' : World ι K I R σ} (h : Meanwhile i w w')
    (h' : Meanwhile i w' w'') : Meanwhile i w w'' := by
  obtain ⟨newer, hnewer, hother, hnil⟩ := h
  obtain ⟨newest, hnewest, hother', hnil'⟩ := h'
  refine ⟨newest ++ newer, by rw [hnewest, hnewer, List.append_assoc], ?_, ?_⟩
  · intro x hx
    rcases List.mem_append.mp hx with hx | hx
    · exact hother' x hx
    · exact hother x hx
  · intro he
    obtain ⟨rfl, rfl⟩ := List.append_eq_nil_iff.mp he
    rw [hnil' rfl, hnil rfl]

/-- One event of another thread. -/
theorem meanwhile_cons {i : ι} {w : World ι K I R σ} {x : Moment ι K I R σ} {t : σ}
    (hx : x.thread ≠ i) : Meanwhile i w ⟨t, x :: w.history⟩ :=
  ⟨[x], rfl, by simpa using hx, by simp⟩

/-- What a thread relies on may happen in any number of steps. -/
structure Lawful (O : Outline ι K I R σ) : Prop where
  rely_refl : ∀ i w, O.rely i w w := by intros; trivial
  rely_trans : ∀ i w w' w'', O.rely i w w' → O.rely i w' w'' → O.rely i w w'' := by intros; trivial

variable (O c) in
/-- The thread is where its proof outline says, and whatever happens meanwhile. -/
def Holds (i : ι) (k : K) (p : Program I R) (w : World ι K I R σ) : Prop :=
  O.Proves c i k (O.Returns i k) p w

theorem Holds.meanwhile (hO : O.Lawful) {p : Program I R} {w w' : World ι K I R σ}
    (h : O.Holds c i k p w) (hw : Meanwhile i w w') (hrely : O.rely i w w') :
    O.Holds c i k p w' := by
  have hfinds {w''} : O.Finds i w' w'' → O.Finds i w w'' := by
    rintro ⟨hw', hrely', hinv⟩
    exact ⟨hw.trans hw', hO.rely_trans _ _ _ _ hrely hrely', hinv⟩
  cases p with
  | done r => exact fun w'' hw' ↦ h w'' (hfinds hw')
  | perform op next => exact fun w'' hw' ↦ h w'' (hfinds hw')

variable [DecidableEq ι]

variable (O) in
omit [DecidableEq ι] in
/-- The turn meets what is assumed of operations. -/
def Assumed (s : Component.State ι K I R σ) : Turn ι K E → Prop
  | .step i _ => ∀ x ∈ s.about i, O.assume i x.1 s.world x.2
  | _ => True

/-- What is to be shown of the calls: that they can begin in any world, and what follows then. -/
def Sound (O : Outline ι K I R σ) (c : Component ι K I R σ E) : Prop :=
  ∀ i k w, c.admits i k → O.inv w → O.Keeps i w (w.record i (.start k)) ∧
    O.Holds c i k (c.program k) (w.record i (.start k))

/-- A component in which everything is as outlined. -/
structure Good (O : Outline ι K I R σ) (c : Component ι K I R σ E)
    (s : Component.State ι K I R σ) : Prop where
  inv : O.inv s.world
  holds : ∀ i k p, s.thread i = some (k, p) → O.Holds c i k p s.world

/-- One turn: the thread that takes it is where it should be, and the others have only been kept
waiting. -/
theorem Good.turn (hO : O.Lawful) {s : Component.State ι K I R σ} {x : Moment ι K I R σ} {t : σ}
    {p : Option (K × Program I R)} (h : Good O c s) (hx : x.thread = i)
    (hkeeps : O.Keeps i s.world ⟨t, x :: s.world.history⟩)
    (hp : ∀ k q, p = some (k, q) → O.Holds c i k q ⟨t, x :: s.world.history⟩) :
    Good O c ⟨⟨t, x :: s.world.history⟩, Function.update s.thread i p⟩ where
  inv := hkeeps.1
  holds j k q hj := by
    dsimp only at hj
    by_cases hji : j = i
    · subst hji
      rw [Function.update_self] at hj
      exact hp k q hj
    · rw [Function.update_of_ne hji] at hj
      exact (h.holds j k q hj).meanwhile hO (meanwhile_cons (by rw [hx]; exact Ne.symm hji))
        (hkeeps.2 j hji)

theorem Good.next (hO : O.Lawful) (hsound : O.Sound c) {s s' : Component.State ι K I R σ}
    {a : Turn ι K E} (h : Good O c s) (hC : O.Assumed s a) (hn : c.machine.next s a s') :
    Good O c s' := by
  cases Component.taken_of_next hn with
  | nothing ha => exact h
  | @start i k hi hk =>
    obtain ⟨hkeeps, hholds⟩ := hsound i k s.world hk h.inv
    refine h.turn hO rfl hkeeps fun k' q hq ↦ ?_
    cases hq
    exact hholds
  | @step i k e op next hi hready =>
    have hC' : O.assume i k s.world op := hC (k, op) (Component.State.about_of_thread hi)
    obtain ⟨-, hkeeps, hnext⟩ := h.holds i k _ hi s.world
      ⟨meanwhile_refl i _, hO.rely_refl i _, h.inv⟩ e hready hC'
    refine h.turn hO rfl hkeeps fun k' q hq ↦ ?_
    cases hq
    exact hnext
  | @finish i k r hi =>
    refine h.turn hO rfl (h.holds i k _ hi s.world
      ⟨meanwhile_refl i _, hO.rely_refl i _, h.inv⟩) fun k' q hq ↦ ?_
    cases hq

/-- **The rule for components.**  In a run whose operations all meet what is assumed of them, the
invariant holds and every thread is where its proof outline says. -/
theorem sound (hO : O.Lawful) (hsound : O.Sound c) (hinit : ∀ t, c.init t → O.inv ⟨t, []⟩)
    {tr : Component.Trace ι K I R σ E} {s : Component.State ι K I R σ}
    (h : c.machine.Run tr s) (hC : ∀ x ∈ tr, O.Assumed x.pre x.act) : Good O c s := by
  refine h.invariant_of hC ?_ fun s a s' hi hc hn ↦ Good.next hO hsound hi hc hn
  rintro s ⟨t, ht, rfl⟩
  exact ⟨hinit t ht, fun i k p hi ↦ by cases hi⟩

omit [DecidableEq ι] in
/-- What a thread is about to do is as promised. -/
theorem Good.promise (hO : O.Lawful) {s : Component.State ι K I R σ} {e : E} {op : I.Op}
    {next : I.Ans op → Program I R} (h : Good O c s) (hi : s.thread i = some (k, .perform op next))
    (hready : c.ready i e s.world.shared op) (hC : O.assume i k s.world op) :
    O.promise i k s.world op :=
  (h.holds i k _ hi s.world ⟨meanwhile_refl i _, hO.rely_refl i _, h.inv⟩ e hready hC).1

end Outline
