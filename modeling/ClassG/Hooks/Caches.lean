import ClassG.ForGo.Time
import ClassG.Program
import Mathlib.Tactic.IntervalCases

/-!
# The caches of the dispatcher

`services/api/internal/hooks/dispatcher.go`: the rules and the boundaries are read from the store
once and kept for `rulesTTL`.  A handler that has changed them in the store calls `InvalidateRules`
or `InvalidateBoundaries`, which makes the next event read them again.

Both caches work alike.  A mutex is held while the store is read, so an invalidation waits for a
read that is under way and the read cannot outlive it: `coherent` says that whatever an event is
evaluated against was read after the last change that had been invalidated when the event was taken
up.  What is in the lists does not matter here.
-/

set_option autoImplicit false

namespace ClassG.Hooks.Caches

/-! ## The calls -/

/-- The two caches. -/
inductive Cache
  | rules
  | boundaries
  deriving DecidableEq

/-- What the calls do to the caches, the store and the clock. -/
inductive Op (Item : Cache → Type)
  | now
  /-- `rulesMu`, `boundariesMu`. -/
  | lock (c : Cache)
  | unlock (c : Cache)
  | cached (c : Cache)
  | setItems (c : Cache) (items : List (Item c))
  | setLoadedAt (c : Cache) (t : GoTime)
  /-- `ListHookRules`, `ListBoundaries`. -/
  | list (c : Cache)
  /-- An administrator's write, as what it makes of the list. -/
  | write (c : Cache) (change : List (Item c) → List (Item c))

@[reducible] def ops (Item : Cache → Type) : Interface where
  Op := Op Item
  Ans
    | .now => GoTime
    | .cached c => List (Item c) × GoTime
    -- `none` is an error
    | .list c => Option (List (Item c))
    | .lock _ | .unlock _ | .setItems _ _ | .setLoadedAt _ _ | .write _ _ => Unit

variable {Item : Cache → Type}

def now : Program (ops Item) GoTime := .call (ops Item) .now
def lock (c : Cache) : Program (ops Item) Unit := .call (ops Item) (.lock c)
def unlock (c : Cache) : Program (ops Item) Unit := .call (ops Item) (.unlock c)
def cached (c : Cache) : Program (ops Item) (List (Item c) × GoTime) :=
  .call (ops Item) (.cached c)
def setItems (c : Cache) (items : List (Item c)) : Program (ops Item) Unit :=
  .call (ops Item) (.setItems c items)
def setLoadedAt (c : Cache) (t : GoTime) : Program (ops Item) Unit :=
  .call (ops Item) (.setLoadedAt c t)
def list (c : Cache) : Program (ops Item) (Option (List (Item c))) := .call (ops Item) (.list c)
def write (c : Cache) (change : List (Item c) → List (Item c)) : Program (ops Item) Unit :=
  .call (ops Item) (.write c change)

/-- `rulesTTL`, of both caches. -/
def rulesTTL : GoDuration := 30 * GoDuration.second

/-- Reading the store, in place of an entry that is too old or has been dropped. -/
def refresh (c : Cache) : Program (ops Item) (Option (List (Item c))) := do
  match ← list c with
  | none =>
    unlock c
    return none
  | some items =>
    setItems c items
    let t ← now
    setLoadedAt c t
    unlock c
    return some items

/-- `loadRules` and `loadBoundaries`. -/
def load (c : Cache) : Program (ops Item) (Option (List (Item c))) := do
  lock c
  let (items, loadedAt) ← cached c
  if loadedAt = 0 then refresh c
  else
    let t ← now
    if GoTime.sub t loadedAt < rulesTTL then
      unlock c
      return some items
    else refresh c

def loadRules : Program (ops Item) (Option (List (Item .rules))) := load .rules
def loadBoundaries : Program (ops Item) (Option (List (Item .boundaries))) := load .boundaries

/-- `InvalidateRules` and `InvalidateBoundaries`. -/
def invalidate (c : Cache) : Program (ops Item) Unit := do
  lock c
  setLoadedAt c 0
  unlock c

/-- What a call comes to. -/
inductive Result (Item : Cache → Type)
  | invalidated
  | validated
  /-- The rules could not be read, so none is looked at. -/
  | unread
  /-- Every rule is looked at, with the boundaries the event is in if they were read. -/
  | evaluated (rules : List (Item .rules)) (boundaries : Option (List (Item .boundaries)))

/-- The list an event was evaluated against. -/
def Result.used : (c : Cache) → Result Item → Option (List (Item c))
  | .rules, evaluated rules _ => some rules
  | .boundaries, evaluated _ boundaries => boundaries
  | _, _ => none

/-- `handle`, up to the loop over the rules. -/
def handle (hasPosition : Bool) : Program (ops Item) (Result Item) := do
  match ← loadRules with
  | none => return .unread
  | some rules =>
    if hasPosition then
      let boundaries ← loadBoundaries
      return .evaluated rules boundaries
    else return .evaluated rules none

/-- `ValidateRule` of a rule that names a boundary. -/
def validateRule : Program (ops Item) (Result Item) := do
  let _ ← loadBoundaries
  return .validated

/-- A handler that changes the store, until the invalidation returns. -/
def edit (c : Cache) (change : List (Item c) → List (Item c)) : Program (ops Item) (Result Item) := do
  write c change
  invalidate c
  return .invalidated

inductive Call (Item : Cache → Type)
  | handle (hasPosition : Bool)
  | validateRule
  | edit (c : Cache) (change : List (Item c) → List (Item c))

def Call.program : Call Item → Program (ops Item) (Result Item)
  | handle hasPosition => Caches.handle hasPosition
  | validateRule => Caches.validateRule
  | edit c change => Caches.edit c change

/-! ## The component -/

/-- The store and the caches. -/
structure State (ι : Type) (Item : Cache → Type) where
  stored : (c : Cache) → List (Item c)
  items : (c : Cache) → List (Item c)
  loadedAt : Cache → GoTime
  /-- Who holds the mutex. -/
  holder : Cache → Option ι

/-- What is up to the environment: the time, and whether a query fails. -/
structure Env where
  now : GoTime := 1
  fails : Bool := false

variable {ι : Type}

def effect (i : ι) (e : Env) (s : State ι Item) : (op : Op Item) → (ops Item).Ans op × State ι Item
  | .now => (e.now, s)
  | .lock c => ((), { s with holder := Function.update s.holder c (some i) })
  | .unlock c => ((), { s with holder := Function.update s.holder c none })
  | .cached c => ((s.items c, s.loadedAt c), s)
  | .setItems c items => ((), { s with items := Function.update s.items c items })
  | .setLoadedAt c t => ((), { s with loadedAt := Function.update s.loadedAt c t })
  | .list c => (if e.fails then none else some (s.stored c), s)
  | .write c change => ((), { s with stored := Function.update s.stored c (change (s.stored c)) })

/-- A mutex that is held has to be waited for. -/
def Op.Ready (s : State ι Item) : Op Item → Prop
  | .lock c => s.holder c = none
  | _ => True

/-- The dispatcher's workers and the administrators, with nothing cached yet. -/
def component (ι : Type) (Item : Cache → Type) :
    Component ι (Call Item) (ops Item) (Result Item) (State ι Item) Env where
  init s := (∀ c, s.loadedAt c = 0) ∧ ∀ c, s.holder c = none
  admits _ _ := True
  program := Call.program
  ready _ _ s op := op.Ready s
  effect := effect

abbrev CacheWorld (ι : Type) (Item : Cache → Type) :=
  World ι (Call Item) (ops Item) (Result Item) (State ι Item)

abbrev CacheMoment (ι : Type) (Item : Cache → Type) :=
  Moment ι (Call Item) (ops Item) (Result Item) (State ι Item)

/-! ## What has happened -/

/-- The list was read from the store. -/
def Reads (c : Cache) (items : List (Item c)) (x : CacheMoment ι Item) : Prop :=
  x.what = .did (.list c) (some items)

/-- The cache was dropped. -/
def Drops (c : Cache) (x : CacheMoment ι Item) : Prop := x.what = .did (.setLoadedAt c 0) ()

/-- The thread changed the store. -/
def Writes (i : ι) (c : Cache) (x : CacheMoment ι Item) : Prop :=
  x.thread = i ∧ ∃ change, x.what = .did (.write c change) ()

/-- The thread began a call. -/
def Begins (i : ι) (x : CacheMoment ι Item) : Prop := x.thread = i ∧ ∃ k, x.what = .start k

/-- The thread's invalidation of the cache returned. -/
def Invalidates (i : ι) (c : Cache) (x : CacheMoment ι Item) : Prop :=
  x.thread = i ∧ ∃ change r, x.what = .finish (.edit c change) r

/-- The thread evaluated an event against these lists. -/
def Evaluates (i : ι) (r : Result Item) (x : CacheMoment ι Item) : Prop :=
  x.thread = i ∧ ∃ hasPosition, x.what = .finish (.handle hasPosition) r

/-- The list was read from the store, before the event `u` and after everything before the event `m`
that dropped it. -/
def Fresh (w : CacheWorld ι Item) (m u : ℕ) (c : Cache) (items : List (Item c)) : Prop :=
  ∃ n x, n < u ∧ w.at n = some x ∧ Reads c items x ∧
    ∀ k y, w.at k = some y → Drops c y → k < m → k < n

/-- In every world, what is cached is fresh, an invalidation has dropped the cache after whatever its
thread has written, and an event was evaluated against lists that were fresh when it was taken up. -/
structure Coherent (w : CacheWorld ι Item) : Prop where
  cached : ∀ c, w.shared.loadedAt c ≠ 0 → Fresh w w.length w.length c (w.shared.items c)
  edited : ∀ n x i c, w.at n = some x → Invalidates i c x → ∃ m z, m < n ∧ w.at m = some z ∧
    Drops c z ∧ ∀ k y, m < k → k < n → w.at k = some y → ¬ Writes i c y
  handled : ∀ n x i r, w.at n = some x → Evaluates i r x → ∃ m y, m < n ∧ w.at m = some y ∧
    Begins i y ∧ (∀ k z, m < k → k < n → w.at k = some z → ¬ Begins i z) ∧
      ∀ c items, r.used c = some items → Fresh w m n c items

/-- What a thread that holds a mutex relies on: nobody else touches the cache. -/
def Undisturbed (i : ι) (w w' : CacheWorld ι Item) : Prop :=
  ∃ newer, w'.history = newer ++ w.history ∧ ∀ c, w.shared.holder c = some i →
    w'.shared.holder c = some i ∧ w'.shared.items c = w.shared.items c ∧
      w'.shared.loadedAt c = w.shared.loadedAt c ∧ ∀ x ∈ newer, ¬ Drops c x

theorem Undisturbed.refl (i : ι) (w : CacheWorld ι Item) : Undisturbed i w w :=
  ⟨[], rfl, fun _ h ↦ ⟨h, rfl, rfl, by simp⟩⟩

theorem Undisturbed.trans {i : ι} {w w' w'' : CacheWorld ι Item} (h : Undisturbed i w w')
    (h' : Undisturbed i w' w'') : Undisturbed i w w'' := by
  obtain ⟨newer, hnewer, h⟩ := h
  obtain ⟨newest, hnewest, h'⟩ := h'
  refine ⟨newest ++ newer, by rw [hnewest, hnewer, List.append_assoc], fun c hc ↦ ?_⟩
  obtain ⟨hholder, hitems, hloaded, hdrops⟩ := h c hc
  obtain ⟨hholder', hitems', hloaded', hdrops'⟩ := h' c hholder
  refine ⟨hholder', hitems'.trans hitems, hloaded'.trans hloaded, fun x hx ↦ ?_⟩
  exact (List.mem_append.mp hx).elim (hdrops' x) (hdrops x)

/-- The outline of the proofs. -/
def cacheOutline (ι : Type) (Item : Cache → Type) :
    Outline ι (Call Item) (ops Item) (Result Item) (State ι Item) where
  inv := Coherent
  rely := Undisturbed

theorem cacheOutline_lawful : (cacheOutline ι Item).Lawful where
  rely_refl := Undisturbed.refl
  rely_trans _ _ _ _ := Undisturbed.trans

/-! ## What happens next -/

section next

variable {w w' : CacheWorld ι Item} {i : ι} {c : Cache} {items : List (Item c)} {m u : ℕ}
  {x : CacheMoment ι Item} {s : State ι Item}

/-- A list stays as fresh as it was. -/
theorem Fresh.append (h : Fresh w m u c items) (hat : ∀ n, n < w.length → w'.at n = w.at n)
    (hm : m ≤ w.length) {u' : ℕ} (hu : u ≤ u') : Fresh w' m u' c items := by
  obtain ⟨n, x, hn, hx, hread, hdrops⟩ := h
  refine ⟨n, x, by omega, ?_, hread, fun k y hy hdrop hk ↦ hdrops k y ?_ hdrop hk⟩
  · rw [hat n (World.lt_of_at hx), hx]
  · rw [← hat k (by omega), hy]

theorem Fresh.older (h : Fresh w m u c items) {m' : ℕ} (hm : m' ≤ m) : Fresh w m' u c items := by
  obtain ⟨n, x, hn, hx, hread, hdrops⟩ := h
  exact ⟨n, x, hn, hx, hread, fun k y hy hdrop hk ↦ hdrops k y hy hdrop (by omega)⟩

theorem at_cons_of_lt {n : ℕ} (hn : n < w.length) :
    World.at ⟨s, x :: w.history⟩ n = w.at n := by
  rw [World.at_cons, if_neg hn.ne]

/-- And as fresh as can be, if the cache is not dropped. -/
theorem Fresh.cons (h : Fresh w w.length w.length c items) (hx : ¬ Drops c x) :
    Fresh ⟨s, x :: w.history⟩ (w.length + 1) (w.length + 1) c items := by
  obtain ⟨n, z, hn, hz, hread, hdrops⟩ := h
  refine ⟨n, z, by omega, ?_, hread, fun k y hy hdrop hk ↦ ?_⟩
  · rw [at_cons_of_lt hn, hz]
  · rw [World.at_cons] at hy
    split at hy
    · cases hy
      exact absurd hdrop hx
    · exact hdrops k y hy hdrop (by omega)

/-- The thread has dropped the cache, and has not written to the store since. -/
def Dropped (w : CacheWorld ι Item) (i : ι) (c : Cache) : Prop :=
  ∃ m z, w.at m = some z ∧ Drops c z ∧ ∀ k y, m < k → w.at k = some y → ¬ Writes i c y

/-- The thread began its call with the event `m`. -/
def Begun (w : CacheWorld ι Item) (i : ι) (m : ℕ) : Prop :=
  ∃ y, w.at m = some y ∧ Begins i y ∧ ∀ k z, m < k → w.at k = some z → ¬ Begins i z

/-- What keeps the caches coherent: whoever touches one holds its mutex, and a call returns when it
has done its part. -/
theorem keeps_cons (hw : Coherent w)
    (hother : ∀ c j, j ≠ i → w.shared.holder c = some j → s.holder c = some j ∧
      s.items c = w.shared.items c ∧ s.loadedAt c = w.shared.loadedAt c ∧ ¬ Drops c x)
    (hcached : ∀ c, s.loadedAt c ≠ 0 →
      Fresh ⟨s, x :: w.history⟩ (w.length + 1) (w.length + 1) c (s.items c))
    (hedit : ∀ j c, Invalidates j c x → Dropped w j c)
    (hhandle : ∀ j r, Evaluates j r x → ∃ m, Begun w j m ∧
      ∀ c items, r.used c = some items → Fresh w m w.length c items) :
    (cacheOutline ι Item).Keeps i w ⟨s, x :: w.history⟩ := by
  refine ⟨⟨hcached, ?_, ?_⟩, fun j hj ↦ ⟨[x], rfl, fun c hc ↦ ?_⟩⟩
  · intro n y j c hy hinv
    have hold : ∃ m z, m < n ∧ w.at m = some z ∧ Drops c z ∧
        ∀ k y, m < k → k < n → w.at k = some y → ¬ Writes j c y := by
      rw [World.at_cons] at hy
      split at hy
      · cases hy
        obtain ⟨m, z, hz, hdrop, hwrites⟩ := hedit j c hinv
        have hm := World.lt_of_at hz
        exact ⟨m, z, by omega, hz, hdrop, fun k y hmk _ hy ↦ hwrites k y hmk hy⟩
      · exact hw.edited n y j c hy hinv
    have hn := World.lt_of_at hy
    rw [World.length_cons] at hn
    obtain ⟨m, z, hm, hz, hdrop, hwrites⟩ := hold
    refine ⟨m, z, hm, by rw [at_cons_of_lt (by omega), hz], hdrop, fun k y' hmk hkn hy' ↦ ?_⟩
    rw [at_cons_of_lt (by omega)] at hy'
    exact hwrites k y' hmk hkn hy'
  · intro n y j r hy hev
    have hold : ∃ m z, m < n ∧ w.at m = some z ∧ Begins j z ∧
        (∀ k z, m < k → k < n → w.at k = some z → ¬ Begins j z) ∧
          ∀ c items, r.used c = some items → Fresh w m n c items := by
      rw [World.at_cons] at hy
      split at hy
      · rename_i hn
        cases hy
        obtain ⟨m, ⟨z, hz, hbegin, hsame⟩, hused⟩ := hhandle j r hev
        have hm := World.lt_of_at hz
        exact ⟨m, z, by omega, hz, hbegin, fun k z hmk _ hz ↦ hsame k z hmk hz, hn ▸ hused⟩
      · exact hw.handled n y j r hy hev
    have hn := World.lt_of_at hy
    rw [World.length_cons] at hn
    obtain ⟨m, z, hm, hz, hbegin, hsame, hused⟩ := hold
    refine ⟨m, z, hm, by rw [at_cons_of_lt (by omega), hz], hbegin, fun k y' hmk hkn hy' ↦ ?_,
      fun c items h ↦ (hused c items h).append (fun _ h ↦ at_cons_of_lt h) (by omega) le_rfl⟩
    rw [at_cons_of_lt (by omega)] at hy'
    exact hsame k y' hmk hkn hy'
  · obtain ⟨hholder, hitems, hloaded, hdrop⟩ := hother c j hj hc
    exact ⟨hholder, hitems, hloaded, by simpa using hdrop⟩

/-- A thread in the middle of its call. -/
theorem keeps_did {op : Op Item} {ans : (ops Item).Ans op} (hw : Coherent w)
    (hother : ∀ c j, j ≠ i → w.shared.holder c = some j → s.holder c = some j ∧
      s.items c = w.shared.items c ∧ s.loadedAt c = w.shared.loadedAt c ∧
        op ≠ .setLoadedAt c 0)
    (hcached : ∀ c, s.loadedAt c ≠ 0 → Fresh ⟨s, ⟨w.shared, i, .did op ans⟩ :: w.history⟩
      (w.length + 1) (w.length + 1) c (s.items c)) :
    (cacheOutline ι Item).Keeps i w ⟨s, ⟨w.shared, i, .did op ans⟩ :: w.history⟩ := by
  refine keeps_cons hw (fun c j hj hc ↦ ?_) hcached ?_ ?_
  · obtain ⟨hholder, hitems, hloaded, hop⟩ := hother c j hj hc
    refine ⟨hholder, hitems, hloaded, fun hdrop ↦ ?_⟩
    obtain ⟨rfl, -⟩ := What.did.inj hdrop
    exact hop rfl
  · rintro j c ⟨-, change, r, hr⟩
    cases hr
  · rintro j r ⟨-, p, hr⟩
    cases hr

/-- An operation that leaves the caches alone. -/
theorem keeps_quiet {op : Op Item} {ans : (ops Item).Ans op} (hw : Coherent w)
    (hop : ∀ c, op ≠ .setLoadedAt c 0)
    (hs : s.items = w.shared.items ∧ s.loadedAt = w.shared.loadedAt)
    (hholder : ∀ c j, j ≠ i → w.shared.holder c = some j → s.holder c = some j) :
    (cacheOutline ι Item).Keeps i w ⟨s, ⟨w.shared, i, .did op ans⟩ :: w.history⟩ := by
  refine keeps_did hw (fun c j hj hc ↦ ⟨hholder c j hj hc, by rw [hs.1], by rw [hs.2], hop c⟩) ?_
  intro c hc
  rw [hs.2] at hc
  rw [hs.1]
  refine (hw.cached c hc).cons fun hdrop ↦ ?_
  obtain ⟨rfl, -⟩ := What.did.inj hdrop
  exact hop c rfl

end next

/-! ## The calls keep it -/

section calls

open Outline

variable {w w₁ w' : CacheWorld ι Item} {i : ι} {k : Call Item} {c : Cache}
  {items : List (Item c)} {m : ℕ}

theorem within_step (h : Within i w w₁) (hw : (cacheOutline ι Item).Finds i w₁ w') (e : Env)
    (op : Op Item) : Within i w ((component ι Item).act i e w' op) :=
  h.trans (hw.1.within.trans (within_act ..))

/-- The thread holds the mutex and has read the list since the cache was last dropped. -/
structure HasRead (w : CacheWorld ι Item) (i : ι) (c : Cache) (items : List (Item c)) : Prop where
  holder : w.shared.holder c = some i
  fresh : Fresh w w.length w.length c items

theorem HasRead.finds (h : HasRead w i c items) (hw : (cacheOutline ι Item).Finds i w w') :
    HasRead w' i c items ∧ w'.shared.items c = w.shared.items c := by
  obtain ⟨newer, hnewer, hheld⟩ := hw.2.1
  obtain ⟨hholder, hitems, -, hdrops⟩ := hheld c h.holder
  obtain ⟨n, x, hn, hx, hread, hold⟩ := h.fresh
  have hle : w.length ≤ w'.length := hw.1.within.le
  refine ⟨⟨hholder, n, x, by omega, ?_, hread, fun l y hy hdrop _ ↦ ?_⟩, hitems⟩
  · rw [World.at_append hnewer hn, hx]
  · rcases Nat.lt_or_ge l w.length with hl | hl
    · rw [World.at_append hnewer hl] at hy
      exact hold l y hy hdrop hl
    · exact absurd hdrop (hdrops y (World.mem_of_at_append hnewer hl hy))

theorem HasRead.quiet (h : HasRead w i c items) {op : Op Item} {ans : (ops Item).Ans op}
    {s : State ι Item} (hop : op ≠ .setLoadedAt c 0) (hs : s.holder c = some i) :
    HasRead ⟨s, ⟨w.shared, i, .did op ans⟩ :: w.history⟩ i c items := by
  refine ⟨hs, h.fresh.cons fun hdrop ↦ ?_⟩
  obtain ⟨rfl, -⟩ := What.did.inj hdrop
  exact hop rfl

/-- What a load comes to: a list that is fresh with respect to the event `m`. -/
def Loads (w : CacheWorld ι Item) (i : ι) (m : ℕ) (c : Cache) (r : Option (List (Item c)))
    (w' : CacheWorld ι Item) : Prop :=
  Within i w w' ∧ ∀ items, r = some items → Fresh w' m w'.length c items

/-- Giving the mutex back. -/
theorem keeps_unlock {e : Env} (hw : Coherent w) (hc : w.shared.holder c = some i) :
    (cacheOutline ι Item).Keeps i w ((component ι Item).act i e w (.unlock c)) := by
  refine keeps_quiet hw (by simp) ⟨rfl, rfl⟩ fun c' j hj hc' ↦ ?_
  have hne : c' ≠ c := by
    rintro rfl
    exact hj (Option.some.inj (hc'.symm.trans hc))
  change Function.update w.shared.holder c none c' = some j
  rw [Function.update_of_ne hne, hc']

theorem keeps_setItems {e : Env} (hw : Coherent w) (h : HasRead w i c items) :
    (cacheOutline ι Item).Keeps i w ((component ι Item).act i e w (.setItems c items)) := by
  refine keeps_did hw (fun c' j hj hc' ↦ ⟨hc', ?_, rfl, by simp⟩) fun c' hc' ↦ ?_
  · have hne : c' ≠ c := by
      rintro rfl
      exact hj (Option.some.inj (hc'.symm.trans h.holder))
    exact Function.update_of_ne hne ..
  · change Fresh _ _ _ c' (Function.update w.shared.items c items c')
    by_cases hne : c' = c
    · subst hne
      rw [Function.update_self]
      exact h.fresh.cons (by simp [Drops])
    · rw [Function.update_of_ne hne]
      exact (hw.cached c' hc').cons (by simp [Drops])

theorem keeps_setLoadedAt {e : Env} {t : GoTime} (hw : Coherent w)
    (hc : w.shared.holder c = some i) (h : t ≠ 0 → HasRead w i c (w.shared.items c)) :
    (cacheOutline ι Item).Keeps i w ((component ι Item).act i e w (.setLoadedAt c t)) := by
  refine keeps_did hw (fun c' j hj hc' ↦ ?_) fun c' hc' ↦ ?_
  · have hne : c' ≠ c := by
      rintro rfl
      exact hj (Option.some.inj (hc'.symm.trans hc))
    refine ⟨hc', rfl, Function.update_of_ne hne .., ?_⟩
    rintro ⟨⟩
    exact hne rfl
  · change Function.update w.shared.loadedAt c t c' ≠ 0 at hc'
    by_cases hne : c' = c
    · subst hne
      rw [Function.update_self] at hc'
      refine (h hc').fresh.cons fun hdrop ↦ ?_
      obtain ⟨heq, -⟩ := What.did.inj hdrop
      cases heq
      exact hc' rfl
    · rw [Function.update_of_ne hne] at hc'
      refine (hw.cached c' hc').cons fun hdrop ↦ ?_
      obtain ⟨heq, -⟩ := What.did.inj hdrop
      cases heq
      exact hne rfl

theorem holder_finds (hc : w.shared.holder c = some i)
    (hw : (cacheOutline ι Item).Finds i w w') : w'.shared.holder c = some i := by
  obtain ⟨newer, -, hheld⟩ := hw.2.1
  exact (hheld c hc).1

theorem holder_step (hc : w.shared.holder c = some i) (hw : (cacheOutline ι Item).Finds i w w')
    (e : Env) (op : Op Item) (hop : ∀ c, op ≠ .lock c ∧ op ≠ .unlock c) :
    ((component ι Item).act i e w' op).shared.holder c = some i := by
  have hc' := holder_finds hc hw
  cases op with
  | lock c' => exact absurd rfl (hop c').1
  | unlock c' => exact absurd rfl (hop c').2
  | now | cached c' | setItems c' items | setLoadedAt c' t | list c' | write c' change => exact hc'

/-- The end of a load: the mutex is given back, and the list is as fresh as it was. -/
theorem loads_unlock {r : Option (List (Item c))} (hin : Within i w w₁) (hm : m ≤ w.length)
    (hr : ∀ items, r = some items → Fresh w₁ m w₁.length c items)
    (hw : (cacheOutline ι Item).Finds i w₁ w') (e : Env) :
    Loads w i m c r ((component ι Item).act i e w' (.unlock c)) := by
  have hin' : Within i w₁ ((component ι Item).act i e w' (.unlock c)) :=
    within_step (Within.refl i w₁) hw e (.unlock c)
  have hle := hin.le
  exact ⟨hin.trans hin', fun items h ↦ (hr items h).append (fun _ h ↦ hin'.at_eq h) (by omega)
    hin'.le⟩

theorem proves_refresh (hc : w.shared.holder c = some i) (hm : m ≤ w.length) :
    (cacheOutline ι Item).Proves (component ι Item) i k (Loads w i m c) (refresh c) w := by
  intro w₁ h₁ e₁ hready₁ _
  have hin₁ := within_step (Within.refl i w) h₁ e₁ (.list c)
  have hc₁ := holder_step hc h₁ e₁ (.list c) (by simp)
  refine ⟨trivial, keeps_quiet h₁.2.2 (by simp) ⟨rfl, rfl⟩ fun _ _ _ h ↦ h, ?_⟩
  change Proves _ _ i k (Loads w i m c)
    (match (if e₁.fails then none else some (w₁.shared.stored c)) with | none => _ | some items => _)
    ((component ι Item).act i e₁ w₁ (.list c))
  by_cases hfails : e₁.fails = true
  · rw [if_pos hfails]
    intro w₂ h₂ e₂ hready₂ _
    exact ⟨trivial, keeps_unlock h₂.2.2 (holder_finds hc₁ h₂),
      loads_unlock hin₁ hm (by simp) h₂ e₂⟩
  · have hread : HasRead ((component ι Item).act i e₁ w₁ (.list c)) i c (w₁.shared.stored c) := by
      refine ⟨hc₁, w₁.length, _, Nat.lt_succ_self _, (component ι Item).act_at .., ?_,
        fun l y hy hdrop hl ↦ ?_⟩
      · simp only [Reads, component, effect, if_neg hfails]
      · change l < w₁.length + 1 at hl
        by_contra hge
        have heq : l = w₁.length := by omega
        subst heq
        rw [Component.act, World.at_cons, if_pos rfl] at hy
        cases hy
        cases hdrop
    rw [if_neg hfails]
    intro w₂ h₂ e₂ hready₂ _
    have hread₂ := (hread.finds h₂).1
    refine ⟨trivial, keeps_setItems h₂.2.2 hread₂, ?_⟩
    have hin₂ := within_step hin₁ h₂ e₂ (.setItems c (w₁.shared.stored c))
    have hset : HasRead ((component ι Item).act i e₂ w₂ (.setItems c (w₁.shared.stored c))) i c
        (w₁.shared.stored c) := hread₂.quiet (by simp) hread₂.holder
    have hitems : ((component ι Item).act i e₂ w₂ (.setItems c (w₁.shared.stored c))).shared.items c =
        w₁.shared.stored c := Function.update_self ..
    intro w₃ h₃ e₃ hready₃ _
    obtain ⟨hset₃, hitems₃⟩ := hset.finds h₃
    refine ⟨trivial, keeps_quiet h₃.2.2 (by simp) ⟨rfl, rfl⟩ fun _ _ _ h ↦ h, ?_⟩
    have hin₃ := within_step hin₂ h₃ e₃ .now
    have hnow : HasRead ((component ι Item).act i e₃ w₃ .now) i c (w₁.shared.stored c) :=
      hset₃.quiet (by simp) hset₃.holder
    intro w₄ h₄ e₄ hready₄ _
    obtain ⟨hset₄, hitems₄⟩ := hnow.finds h₄
    have hm₄ : m ≤ w₄.length := hm.trans (hin₃.le.trans h₄.1.within.le)
    refine ⟨trivial, keeps_setLoadedAt h₄.2.2 hset₄.holder fun _ ↦ ?_, ?_⟩
    · rw [hitems₄]
      change HasRead w₄ i c (w₃.shared.items c)
      rw [hitems₃, hitems]
      exact hset₄
    have hin₄ := within_step hin₃ h₄ e₄ (.setLoadedAt c e₃.now)
    have hc₄ : ((component ι Item).act i e₄ w₄ (.setLoadedAt c e₃.now)).shared.holder c = some i :=
      hset₄.holder
    intro w₅ h₅ e₅ hready₅ _
    refine ⟨trivial, keeps_unlock h₅.2.2 (holder_finds hc₄ h₅),
      loads_unlock hin₄ hm (fun items hitems ↦ ?_) h₅ e₅⟩
    cases hitems
    exact (hset₄.fresh.older hm₄).append (fun _ h ↦ at_cons_of_lt h) hm₄ (Nat.le_succ _)

theorem keeps_lock {e : Env} (hw : Coherent w) (hready : w.shared.holder c = none) :
    (cacheOutline ι Item).Keeps i w ((component ι Item).act i e w (.lock c)) := by
  refine keeps_quiet hw (by simp) ⟨rfl, rfl⟩ fun c' j _ hc' ↦ ?_
  have hne : c' ≠ c := by
    rintro rfl
    exact absurd (hready.symm.trans hc') (by simp)
  change Function.update w.shared.holder c (some i) c' = some j
  rw [Function.update_of_ne hne, hc']

/-- **What a load returns was read from the store after the cache was last dropped**, as far as
that was before the load. -/
theorem proves_load (hm : m ≤ w.length) :
    (cacheOutline ι Item).Proves (component ι Item) i k (Loads w i m c) (load c) w := by
  intro w₁ h₁ e₁ hready₁ _
  have hin₁ := within_step (Within.refl i w) h₁ e₁ (.lock c)
  have hc₁ : ((component ι Item).act i e₁ w₁ (.lock c)).shared.holder c = some i :=
    Function.update_self ..
  refine ⟨trivial, keeps_lock h₁.2.2 hready₁, ?_⟩
  intro w₂ h₂ e₂ hready₂ _
  have hin₂ := within_step hin₁ h₂ e₂ (.cached c)
  have hc₂ := holder_step hc₁ h₂ e₂ (.cached c) (by simp)
  refine ⟨trivial, keeps_quiet h₂.2.2 (by simp) ⟨rfl, rfl⟩ fun _ _ _ h ↦ h, ?_⟩
  change Proves _ _ i k (Loads w i m c) (if w₂.shared.loadedAt c = 0 then refresh c else _) _
  split
  · exact (proves_refresh hc₂ (hm.trans hin₂.le)).mono fun r w' h ↦ ⟨hin₂.trans h.1, h.2⟩
  · rename_i hloaded
    have hfresh := h₂.2.2.cached c hloaded
    have hm₂ : m ≤ w₂.length := hm.trans (hin₁.le.trans h₂.1.within.le)
    intro w₃ h₃ e₃ hready₃ _
    have hin₃ := within_step hin₂ h₃ e₃ .now
    have hc₃ := holder_step hc₂ h₃ e₃ .now (by simp)
    refine ⟨trivial, keeps_quiet h₃.2.2 (by simp) ⟨rfl, rfl⟩ fun _ _ _ h ↦ h, ?_⟩
    change Proves _ _ i k (Loads w i m c)
      (if GoTime.sub e₃.now (w₂.shared.loadedAt c) < rulesTTL then _ else refresh c) _
    split
    · intro w₄ h₄ e₄ hready₄ _
      refine ⟨trivial, keeps_unlock h₄.2.2 (holder_finds hc₃ h₄),
        loads_unlock hin₃ hm (fun items hitems ↦ ?_) h₄ e₄⟩
      cases hitems
      have hin : Within i w₂ ((component ι Item).act i e₃ w₃ .now) :=
        within_step (within_act (component ι Item) i e₂ w₂ (.cached c)) h₃ e₃ .now
      exact (hfresh.older hm₂).append (fun _ h ↦ hin.at_eq h) hm₂ hin.le
    · exact (proves_refresh hc₃ (hm.trans hin₃.le)).mono fun r w' h ↦ ⟨hin₃.trans h.1, h.2⟩

theorem Begun.lt (h : Begun w i m) : m < w.length := by
  obtain ⟨y, hy, -⟩ := h
  exact World.lt_of_at hy

theorem Begun.within (h : Begun w i m) (hw : Within i w w') : Begun w' i m := by
  obtain ⟨y, hy, hbegin, hsince⟩ := h
  have hm := World.lt_of_at hy
  refine ⟨y, by rw [hw.at_eq hm, hy], hbegin, fun l z hl hz hz' ↦ ?_⟩
  rcases Nat.lt_or_ge l w.length with hlt | hge
  · rw [hw.at_eq hlt] at hz
    exact hsince l z hl hz hz'
  · obtain ⟨newer, hnewer, hcall⟩ := hw
    obtain ⟨op, ans, hdid⟩ := hcall z (World.mem_of_at_append hnewer hge hz) hz'.1
    obtain ⟨k', hk'⟩ := hz'.2
    rw [hdid] at hk'
    cases hk'

/-- A return keeps the caches as they are. -/
theorem keeps_finish {r : Result Item} (hw : Coherent w)
    (hedit : ∀ change, k = .edit c change → Dropped w i c)
    (hother : ∀ c' change, k = .edit c' change → c' = c)
    (hhandle : ∀ p, k = .handle p → ∃ m, Begun w i m ∧
      ∀ c items, r.used c = some items → Fresh w m w.length c items) :
    (cacheOutline ι Item).Keeps i w (w.record i (.finish k r)) := by
  refine keeps_cons hw (fun c' j _ hc' ↦ ⟨hc', rfl, rfl, fun hdrop ↦ by cases hdrop⟩)
    (fun c' hc' ↦ (hw.cached c' hc').cons fun hdrop ↦ by cases hdrop) ?_ ?_
  · rintro j c' ⟨rfl, change, r', hr'⟩
    obtain ⟨rfl, -⟩ := What.finish.inj hr'
    obtain rfl := hother c' change rfl
    exact hedit change rfl
  · rintro j r' ⟨rfl, p, hr'⟩
    obtain ⟨rfl, rfl⟩ := What.finish.inj hr'
    exact hhandle p rfl

theorem returns_handle {p : Bool} {r : Result Item} (hb : Begun w i m)
    (hused : ∀ c items, r.used c = some items → Fresh w m w.length c items) :
    (cacheOutline ι Item).Returns i (.handle p) r w := by
  intro w' h
  have hin : Within i w w' := h.1.within
  have hm := hb.lt
  refine keeps_finish (c := .rules) h.2.2 (by simp) (by simp) fun _ _ ↦ ⟨m, hb.within hin, ?_⟩
  exact fun c items h ↦ (hused c items h).append (fun _ h ↦ hin.at_eq h) hm.le hin.le

theorem holds_handle {p : Bool} (hb : Begun w i m) :
    (cacheOutline ι Item).Holds (component ι Item) i (.handle p) (handle p) w := by
  have hm : m ≤ w.length := hb.lt.le
  rw [Holds, handle, proves_bind]
  refine (proves_load hm).mono fun r w₁ h₁ ↦ ?_
  have hb₁ := hb.within h₁.1
  cases r with
  | none =>
    refine returns_handle hb₁ fun c items h ↦ ?_
    cases c <;> cases h
  | some rules =>
    have hrules := h₁.2 rules rfl
    cases p with
    | false =>
      refine returns_handle hb₁ fun c items h ↦ ?_
      cases c with
      | rules => cases h; exact hrules
      | boundaries => cases h
    | true =>
      have hm₁ : m ≤ w₁.length := hm.trans h₁.1.le
      change (cacheOutline ι Item).Holds (component ι Item) i _ (loadBoundaries >>= _) w₁
      rw [Holds, proves_bind]
      refine (proves_load hm₁).mono fun r w₂ h₂ ↦ ?_
      refine returns_handle (hb₁.within h₂.1) fun c items h ↦ ?_
      cases c with
      | rules => cases h; exact hrules.append (fun _ h ↦ h₂.1.at_eq h) hm₁ h₂.1.le
      | boundaries => exact h₂.2 items h

theorem holds_validateRule (w : CacheWorld ι Item) :
    (cacheOutline ι Item).Holds (component ι Item) i .validateRule validateRule w := by
  rw [Holds, validateRule, proves_bind]
  refine (proves_load le_rfl).mono fun r w₁ h₁ w₂ h₂ ↦ ?_
  exact keeps_finish (c := .rules) h₂.2.2 (by simp) (by simp) (by simp)

/-- Once it has dropped the cache, a thread that does not write to the store has done so since. -/
theorem Dropped.append {newer : List (CacheMoment ι Item)} (h : Dropped w i c)
    (hnewer : w'.history = newer ++ w.history) (hwrites : ∀ x ∈ newer, ¬ Writes i c x) :
    Dropped w' i c := by
  obtain ⟨m, z, hz, hdrop, hsince⟩ := h
  refine ⟨m, z, by rw [World.at_append hnewer (World.lt_of_at hz), hz], hdrop, fun l y hl hy ↦ ?_⟩
  rcases Nat.lt_or_ge l w.length with hlt | hge
  · rw [World.at_append hnewer hlt] at hy
    exact hsince l y hl hy
  · exact hwrites y (World.mem_of_at_append hnewer hge hy)

theorem Dropped.finds (h : Dropped w i c) (hw : (cacheOutline ι Item).Finds i w w') :
    Dropped w' i c := by
  obtain ⟨newer, hnewer, hother, -⟩ := hw.1
  exact h.append hnewer fun x hx hwrite ↦ hother x hx hwrite.1

theorem Dropped.act (h : Dropped w i c) (e : Env) {op : Op Item}
    (hop : ∀ c change, op ≠ .write c change) :
    Dropped ((component ι Item).act i e w op) i c := by
  refine h.append (show _ = [_] ++ w.history from rfl) fun x hx hwrite ↦ ?_
  rw [List.mem_singleton.mp hx] at hwrite
  obtain ⟨-, change, hwhat⟩ := hwrite
  obtain ⟨rfl, -⟩ := What.did.inj hwhat
  exact hop c change rfl

theorem holds_edit (change : List (Item c) → List (Item c)) (w : CacheWorld ι Item) :
    (cacheOutline ι Item).Holds (component ι Item) i (.edit c change) (edit c change) w := by
  intro w₁ h₁ e₁ hready₁ _
  refine ⟨trivial, keeps_quiet h₁.2.2 (by simp) ⟨rfl, rfl⟩ fun _ _ _ h ↦ h, ?_⟩
  intro w₂ h₂ e₂ hready₂ _
  refine ⟨trivial, keeps_lock h₂.2.2 hready₂, ?_⟩
  have hc₂ : ((component ι Item).act i e₂ w₂ (.lock c)).shared.holder c = some i :=
    Function.update_self ..
  intro w₃ h₃ e₃ hready₃ _
  have hc₃ := holder_finds hc₂ h₃
  refine ⟨trivial, keeps_setLoadedAt h₃.2.2 hc₃ fun h ↦ absurd rfl h, ?_⟩
  have hdropped : Dropped ((component ι Item).act i e₃ w₃ (.setLoadedAt c 0)) i c := by
    refine ⟨w₃.length, _, (component ι Item).act_at .., rfl, fun l y hl hy ↦ ?_⟩
    have hlt := World.lt_of_at hy
    change l < w₃.length + 1 at hlt
    omega
  have hc₃' : ((component ι Item).act i e₃ w₃ (.setLoadedAt c 0)).shared.holder c = some i := hc₃
  intro w₄ h₄ e₄ hready₄ _
  refine ⟨trivial, keeps_unlock h₄.2.2 (holder_finds hc₃' h₄), ?_⟩
  have hdropped₄ : Dropped ((component ι Item).act i e₄ w₄ (.unlock c)) i c :=
    (hdropped.finds h₄).act e₄ (by simp)
  intro w₅ h₅
  refine keeps_finish h₅.2.2 (fun _ _ ↦ hdropped₄.finds h₅) (fun c' change' h ↦ ?_) (by simp)
  obtain ⟨rfl, -⟩ := Call.edit.inj h
  rfl

end calls

/-! ## Coherence -/

section coherent

theorem cacheOutline_sound : (cacheOutline ι Item).Sound (component ι Item) := by
  intro i k w _ hw
  have hkeeps : (cacheOutline ι Item).Keeps i w (w.record i (.start k)) := by
    refine keeps_cons hw (fun c' j _ hc' ↦ ⟨hc', rfl, rfl, fun hdrop ↦ by cases hdrop⟩)
      (fun c' hc' ↦ (hw.cached c' hc').cons fun hdrop ↦ by cases hdrop) ?_ ?_
    · rintro j c ⟨-, change, r, hr⟩
      cases hr
    · rintro j r ⟨-, p, hr⟩
      cases hr
  refine ⟨hkeeps, ?_⟩
  cases k with
  | handle p =>
    refine holds_handle (m := w.length) ⟨_, (World.at_cons ..).trans (if_pos rfl), ⟨rfl, _, rfl⟩,
      fun l z hl hz ↦ ?_⟩
    have hlt := World.lt_of_at hz
    change l < w.length + 1 at hlt
    omega
  | validateRule => exact holds_validateRule _
  | edit c change => exact holds_edit change _

variable [DecidableEq ι]

/-- **An event is evaluated against lists that were read from the store after every change whose
invalidation had returned when the event was taken up, or against none.** -/
theorem coherent {tr : Component.Trace ι (Call Item) (ops Item) (Result Item) (State ι Item) Env}
    {s : Component.State ι (Call Item) (ops Item) (Result Item) (State ι Item)}
    (h : (component ι Item).machine.Run tr s) {i j : ι} {c : Cache} {r : Result Item}
    {written invalidated begun evaluated : ℕ}
    {x y z t : CacheMoment ι Item}
    (hx : s.world.at written = some x) (hwrite : Writes j c x)
    (hy : s.world.at invalidated = some y) (hinv : Invalidates j c y)
    (hz : s.world.at begun = some z) (hbegin : Begins i z)
    (ht : s.world.at evaluated = some t) (hev : Evaluates i r t)
    (hwi : written < invalidated) (hib : invalidated < begun) (hbe : begun < evaluated)
    (hcall : ∀ k z, begun < k → k < evaluated → s.world.at k = some z → ¬ Begins i z) :
    r.used c = none ∨ ∃ items read v, r.used c = some items ∧ written < read ∧ read < evaluated ∧
      s.world.at read = some v ∧ Reads c items v := by
  have hgood : (cacheOutline ι Item).Good (component ι Item) s := by
    refine Outline.sound cacheOutline_lawful cacheOutline_sound ?_ h ?_
    · intro t ht
      refine ⟨fun c hc ↦ absurd (ht.1 c) hc, fun n x i c hx ↦ ?_, fun n x i r hx ↦ ?_⟩
      · exact absurd hx (by simp [World.at])
      · exact absurd hx (by simp [World.at])
    · intro x _
      cases x.act <;> simp [Outline.Assumed, cacheOutline]
  obtain ⟨dropped, d, hdi, hd, hdrop, hwrites⟩ := hgood.inv.edited _ _ _ _ hy hinv
  obtain ⟨m, b, hme, hm, hbm, hsame, hused⟩ := hgood.inv.handled _ _ _ _ ht hev
  -- the call that ends in the evaluation began where it is said to have begun
  have hbegun : m = begun := by
    rcases lt_trichotomy m begun with hlt | heq | hgt
    · exact absurd hbegin (hsame begun z hlt hbe hz)
    · exact heq
    · exact absurd hbm (hcall m b hgt hme hm)
  subst hbegun
  have hwd : written < dropped := by
    rcases lt_trichotomy written dropped with hlt | heq | hgt
    · exact hlt
    · subst heq
      rw [hx] at hd
      cases hd
      obtain ⟨-, change, hchange⟩ := hwrite
      rw [Drops, hchange] at hdrop
      cases hdrop
    · exact absurd hwrite (hwrites written x hgt hwi hx)
  cases hr : r.used c with
  | none => exact .inl rfl
  | some items =>
    obtain ⟨n, v, hne, hv, hread, hdrops⟩ := hused c items hr
    have hdn : dropped < n := hdrops dropped d hd hdrop (hdi.trans hib)
    exact .inr ⟨items, n, v, rfl, hwd.trans hdn, hne, hv, hread⟩

instance (i : ι) (e : Env) (s : State ι Item) : (op : Op Item) →
    Decidable ((component ι Item).ready i e s op)
  | .lock c => inferInstanceAs (Decidable (s.holder c = none))
  | .now | .unlock _ | .cached _ | .setItems _ _ | .setLoadedAt _ _ | .list _ | .write _ _ =>
    .isTrue trivial

instance (i : ι) (k : Call Item) : Decidable ((component ι Item).admits i k) := .isTrue trivial

/-- The rules are changed, and then an event is handled. -/
def changedThenHandled : List (Turn (Fin 2) (Call fun _ ↦ ℕ) Env) :=
  [.start 0 (.edit .rules fun _ ↦ [7]), .step 0 {}, .step 0 {}, .step 0 {}, .step 0 {}, .finish 0,
    .start 1 (.handle false), .step 1 {}, .step 1 {}, .step 1 {}, .step 1 {}, .step 1 {},
    .step 1 {}, .step 1 {}, .finish 1]

/-- Nothing is stored and nothing is cached. -/
def nothing : State (Fin 2) fun _ ↦ ℕ := ⟨fun _ ↦ [], fun _ ↦ [], fun _ ↦ 0, fun _ ↦ none⟩

theorem changedThenHandled_coherent :
    ∃ items read v, (Result.evaluated [7] none : Result fun _ ↦ ℕ).used .rules = some items ∧
      1 < read ∧ read < 14 ∧
      (Machine.replay (component (Fin 2) fun _ ↦ ℕ).take (.fresh nothing)
        changedThenHandled).world.at read = some v ∧ Reads .rules items v := by
  have hrun := Component.run_replay (component (Fin 2) fun _ ↦ ℕ) changedThenHandled
    (t := nothing) ⟨fun _ ↦ rfl, fun _ ↦ rfl⟩ (by decide)
  refine (coherent hrun (i := 1) (j := 0) (c := .rules) (r := .evaluated [7] none) rfl
    ⟨rfl, _, rfl⟩ rfl ⟨rfl, _, _, rfl⟩ rfl ⟨rfl, _, rfl⟩ rfl ⟨rfl, _, rfl⟩ (by decide : 1 < 5)
    (by decide : 5 < 6) (by decide : 6 < 14) fun k z h6 h14 hz hbegin ↦ ?_).resolve_left
      (by simp [Result.used])
  obtain ⟨-, k', hk'⟩ := hbegin
  interval_cases k <;> · cases hz; cases hk'

end coherent

end ClassG.Hooks.Caches
