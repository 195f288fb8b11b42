import ClassG.Program

/-!
# A program that runs alone

When no other thread comes between, a `Program` is a function of the shared state.
`Program.Ensures` says what it comes to if every operation answers as it is expected to, and is
computed along the program: `ensures_bind` composes programs, and `Ensures.andThen` those that end
at their first error.

Where an operation may do several things, a program is a relation, `Program.Yields`, and
`Program.Always` says what it comes to in any case.
-/

set_option autoImplicit false

namespace Program

variable {I : Interface} {σ α β ε : Type}

section run

variable (effect : σ → (op : I.Op) → I.Ans op × σ)

/-- What a program returns, and the state it leaves. -/
def run : Program I α → σ → α × σ
  | done a, s => (a, s)
  | perform op next, s => run (next (effect s op).1) (effect s op).2

/-- Every operation of the program answers as it is expected to. -/
def Answers (expected : (op : I.Op) → I.Ans op → Prop) : Program I α → σ → Prop
  | done _, _ => True
  | perform op next, s => expected op (effect s op).1 ∧
    Answers expected (next (effect s op).1) (effect s op).2

/-- If so, the program comes to this. -/
def Ensures (expected : (op : I.Op) → I.Ans op → Prop) :
    Program I α → σ → (α → σ → Prop) → Prop
  | done a, s, Q => Q a s
  | perform op next, s, Q => expected op (effect s op).1 →
    Ensures expected (next (effect s op).1) (effect s op).2 Q

end run

variable {effect : σ → (op : I.Op) → I.Ans op × σ} {expected : (op : I.Op) → I.Ans op → Prop}
  {s : σ}

theorem ensures_iff {p : Program I α} {Q : α → σ → Prop} : p.Ensures effect expected s Q ↔
    (p.Answers effect expected s → Q (p.run effect s).1 (p.run effect s).2) := by
  induction p generalizing s with
  | done a => simp [Ensures, Answers, run]
  | perform op next ih => rw [Ensures, Answers, run, ih, and_imp]

theorem answers_of_forall (h : ∀ s op, expected op (effect s op).1) (p : Program I α) :
    p.Answers effect expected s := by
  induction p generalizing s with
  | done a => trivial
  | perform op next ih => exact ⟨h s op, ih _⟩

theorem Ensures.mono {p : Program I α} {Q Q' : α → σ → Prop} (h : p.Ensures effect expected s Q)
    (hQ : ∀ a s, Q a s → Q' a s) : p.Ensures effect expected s Q' :=
  ensures_iff.mpr fun ha ↦ hQ _ _ (ensures_iff.mp h ha)

theorem ensures_bind {p : Program I α} {f : α → Program I β} {Q : β → σ → Prop} :
    (p >>= f).Ensures effect expected s Q ↔
      p.Ensures effect expected s fun a s ↦ (f a).Ensures effect expected s Q := by
  induction p generalizing s with
  | done a => exact .rfl
  | perform op next ih => exact imp_congr_right fun _ ↦ ih _

/-! ## Operations that may do several things -/

section relation

variable {can : σ → (op : I.Op) → I.Ans op → σ → Prop}

/-- What a program may return, and the state it may leave. -/
inductive Yields (can : σ → (op : I.Op) → I.Ans op → σ → Prop) :
    Program I α → σ → α → σ → Prop
  | done {a : α} {s : σ} : Yields can (done a) s a s
  | perform {op : I.Op} {next : I.Ans op → Program I α} {s t s' : σ} {ans : I.Ans op} {a : α}
      (h : can s op ans t) (hnext : Yields can (next ans) t a s') :
      Yields can (perform op next) s a s'

/-- In any case the program comes to this. -/
def Always (can : σ → (op : I.Op) → I.Ans op → σ → Prop) :
    Program I α → σ → (α → σ → Prop) → Prop
  | done a, s, Q => Q a s
  | perform op next, s, Q => ∀ ans t, can s op ans t → Always can (next ans) t Q

theorem yields_run (effect : σ → (op : I.Op) → I.Ans op × σ)
    (hcan : ∀ s op, can s op (effect s op).1 (effect s op).2) (p : Program I α) (s : σ) :
    p.Yields can s (p.run effect s).1 (p.run effect s).2 := by
  induction p generalizing s with
  | done a => exact .done
  | perform op next ih => exact .perform (hcan s op) (ih _ _)

theorem Always.of_yields {p : Program I α} {Q : α → σ → Prop} {a : α} {s' : σ}
    (h : p.Always can s Q) (hp : p.Yields can s a s') : Q a s' := by
  induction hp with
  | done => exact h
  | perform hcan _ ih => exact ih (h _ _ hcan)

theorem Always.mono {p : Program I α} {Q Q' : α → σ → Prop} (h : p.Always can s Q)
    (hQ : ∀ a s, Q a s → Q' a s) : p.Always can s Q' := by
  induction p generalizing s with
  | done a => exact hQ a s h
  | perform op next ih => exact fun ans t ht ↦ ih ans (h ans t ht)

theorem always_bind {p : Program I α} {f : α → Program I β} {Q : β → σ → Prop} :
    (p >>= f).Always can s Q ↔ p.Always can s fun a s ↦ (f a).Always can s Q := by
  induction p generalizing s with
  | done a => exact .rfl
  | perform op next ih => exact forall₃_congr fun ans _ _ ↦ ih ans

end relation

/-! ## Programs that end at their first error -/

/-- A program that may end with an error, as those do that return one. -/
abbrev Fallible (I : Interface) (ε α : Type) := ExceptT ε (Program I) α

variable {Q : Except ε β → σ → Prop}

/-- What comes after a program that may have failed. -/
theorem Ensures.andThen {p : Fallible I ε α} {f : α → Fallible I ε β} {P : Except ε α → σ → Prop}
    (h : p.run.Ensures effect expected s P) (herror : ∀ e s, P (.error e) s → Q (.error e) s)
    (hok : ∀ a s, P (.ok a) s → (f a).run.Ensures effect expected s Q) :
    (p >>= f).run.Ensures effect expected s Q := by
  refine ensures_bind.mpr (h.mono fun r s hr ↦ ?_)
  cases r with
  | error e => exact herror e s hr
  | ok a => exact hok a s hr

theorem Always.andThen {can : σ → (op : I.Op) → I.Ans op → σ → Prop} {p : Fallible I ε α}
    {f : α → Fallible I ε β} {P : Except ε α → σ → Prop} (h : p.run.Always can s P)
    (herror : ∀ e s, P (.error e) s → Q (.error e) s)
    (hok : ∀ a s, P (.ok a) s → (f a).run.Always can s Q) : (p >>= f).run.Always can s Q := by
  refine always_bind.mpr (h.mono fun r s hr ↦ ?_)
  cases r with
  | error e => exact herror e s hr
  | ok a => exact hok a s hr

end Program

/-- The same of a program among others. -/
theorem Outline.Proves.andThen {ι K : Type} {I : Interface} {R σ E ε α β : Type}
    {O : Outline ι K I R σ} {c : Component ι K I R σ E} {i : ι} {k : K}
    {p : Program.Fallible I ε α} {f : α → Program.Fallible I ε β}
    {P : Except ε α → World ι K I R σ → Prop} {Q : Except ε β → World ι K I R σ → Prop}
    {w : World ι K I R σ} (h : O.Proves c i k P p.run w)
    (herror : ∀ e w, P (.error e) w → Q (.error e) w)
    (hok : ∀ a w, P (.ok a) w → O.Proves c i k Q (f a).run w) :
    O.Proves c i k Q (p >>= f).run w := by
  refine Outline.proves_bind.mpr (h.mono fun r w hr ↦ ?_)
  cases r with
  | error e => exact herror e w hr
  | ok a => exact hok a w hr
