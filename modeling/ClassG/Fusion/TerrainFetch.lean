import ClassG.Fairness
import ClassG.Fusion.Terrain

/-!
# The bookkeeping of terrain fetches

In every run the keys of the cache are the cells in `order`, each once and no more of them than the
cache may have.  A cell that is pending is in exactly one `Place`: at one position of the queue, in
the worker, or with one call of `schedule` that has put it in `pending` and has not sent it yet, or
could not send it and has not taken it out again.

`pending_leaves` says that no cell stays pending forever, as long as the worker and the calls go on.
-/

set_option autoImplicit false

namespace ClassG.Fusion

/-! ## The cache and its order -/

/-- The keys of the cache are the cells of the list, each once. -/
structure InStep (cache : GoMap GridCell Double) (order : List GridCell) : Prop where
  keys : ∀ c, (cache.get c).isSome ↔ c ∈ order
  nodup : order.Nodup

theorem InStep.append {cache : GoMap GridCell Double} {order : List GridCell}
    (h : InStep cache order) {c : GridCell} (hc : cache.get c = none) (elevation : Double) :
    InStep (cache.put c elevation) (order ++ [c]) where
  keys j := by
    rw [GoMap.get_put, List.mem_append, List.mem_singleton, ← h.keys]
    by_cases hj : j = c <;> simp [hj]
  nodup := by
    have hnew : c ∉ order := by
      rw [← h.keys, hc]
      simp
    exact List.nodup_append.mpr ⟨h.nodup, List.nodup_singleton c, fun a ha b hb heq ↦
      hnew (List.mem_singleton.mp hb ▸ heq ▸ ha)⟩

theorem InStep.tail {cache : GoMap GridCell Double} {c : GridCell} {order : List GridCell}
    (h : InStep cache (c :: order)) : InStep (cache.delete c) order where
  keys j := by
    have hc := (List.nodup_cons.mp h.nodup).1
    rw [GoMap.get_delete]
    by_cases hj : j = c
    · simp [hj, hc]
    · rw [if_neg hj, h.keys, List.mem_cons, or_iff_right hj]
  nodup := (List.nodup_cons.mp h.nodup).2

/-- **Eviction** keeps the two in step, and leaves no more cells than there may be. -/
theorem InStep.evict {n : ℤ} (hn : 0 ≤ n) : ∀ {order : List GridCell}
    {cache : GoMap GridCell Double}, InStep cache order →
    InStep (Terrain.evict n cache order).1 (Terrain.evict n cache order).2 ∧
      ((Terrain.evict n cache order).2.length : ℤ) ≤ n
  | [], _, h => ⟨h, by simpa [Terrain.evict] using hn⟩
  | c :: order, cache, h => by
    rw [Terrain.evict]
    split
    · exact h.tail.evict hn
    · rename_i hle
      exact ⟨h, not_lt.mp hle⟩

/-- What is kept of the cache. -/
structure Terrain.Tidy (t : Terrain) : Prop where
  inStep : InStep t.cache t.order
  bounded : (t.order.length : ℤ) ≤ t.cfg.cacheSize
  positive : 0 < t.cfg.cacheSize

namespace Terrain

variable {t : Terrain}

theorem Tidy.of_eq {t' : Terrain} (h : t.Tidy) (hcache : t'.cache = t.cache)
    (horder : t'.order = t.order) (hcfg : t'.cfg = t.cfg) : t'.Tidy :=
  ⟨by rw [hcache, horder]; exact h.inStep, by rw [horder, hcfg]; exact h.bounded,
    by rw [hcfg]; exact h.positive⟩

theorem newTerrain_tidy (cfg : TerrainConfig) : (newTerrain cfg).Tidy where
  inStep := ⟨fun c ↦ by simp [newTerrain], List.nodup_nil⟩
  bounded := cfg.cacheSize_pos.le
  positive := cfg.cacheSize_pos

theorem Tidy.store (h : t.Tidy) (c : GridCell) (elevation : Double) :
    (t.store c elevation).Tidy := by
  rw [Terrain.store]
  dsimp only
  split
  · exact h.of_eq rfl rfl rfl
  · rename_i hc
    obtain ⟨hstep, hle⟩ := (h.inStep.append (show t.cache.get c = none from hc) elevation).evict
      (n := t.cfg.cacheSize) h.positive.le
    exact ⟨hstep, hle, h.positive⟩

theorem store_requests (c : GridCell) (elevation : Double) :
    (t.store c elevation).requests = t.requests := by
  rw [Terrain.store]
  dsimp only
  split <;> rfl

theorem store_pending (c : GridCell) (elevation : Double) :
    (t.store c elevation).pending = t.pending.delete c := by
  rw [Terrain.store]
  dsimp only
  split <;> rfl

end Terrain

/-! ## Where a cell is -/

/-- The cell that the call has in `pending`. -/
def Caller.holds : Caller → Option GridCell
  | .inserted c | .dropping c => some c
  | _ => none

/-- The cell that the worker fetches, or was fetching. -/
def Fetcher.cell : Fetcher → Option GridCell
  | .waiting => none
  | .fetching c => some c
  | .stopped c => c

inductive Place (ι : Type)
  | queue (n : ℕ)
  | fetch
  | caller (i : ι)

variable {ι : Type}

/-- What is in the place. -/
def TerrainState.content (s : TerrainState ι) : Place ι → Option GridCell
  | .queue n => s.terrain.requests[n]?
  | .fetch => s.worker.cell
  | .caller i => (s.caller i).holds

def TerrainState.Pending (s : TerrainState ι) (c : GridCell) : Prop :=
  (s.terrain.pending.get c).isSome

/-- A cell that is pending is in exactly one place, and one that is not in none. -/
structure Placed (s : TerrainState ι) : Prop where
  placed : ∀ c, s.Pending c ↔ ∃ p, s.content p = some c
  once : ∀ c p q, s.content p = some c → s.content q = some c → p = q

namespace Placed

variable {s s' : TerrainState ι}

/-- Cells are moved from one place to another. -/
theorem move (h : Placed s) (hpending : ∀ c, s'.Pending c ↔ s.Pending c)
    (from' : Place ι → Place ι)
    (hfrom : ∀ c p, s'.content p = some c → s.content (from' p) = some c)
    (hinj : ∀ c p q, s'.content p = some c → s'.content q = some c → from' p = from' q → p = q)
    (hto : ∀ c p, s.content p = some c → ∃ q, s'.content q = some c) : Placed s' where
  placed c := by
    rw [hpending, h.placed]
    constructor
    · rintro ⟨p, hp⟩
      exact hto c p hp
    · rintro ⟨p, hp⟩
      exact ⟨from' p, hfrom c p hp⟩
  once c p q hp hq := hinj c p q hp hq (h.once c _ _ (hfrom c p hp) (hfrom c q hq))

/-- Every cell stays where it is. -/
theorem stay (h : Placed s) (hpending : ∀ c, s'.Pending c ↔ s.Pending c)
    (hcontent : ∀ p, s'.content p = s.content p) : Placed s' :=
  h.move hpending id (fun c p hp ↦ by rwa [← hcontent]) (fun _ _ _ _ _ heq ↦ heq)
    fun c p hp ↦ ⟨p, by rwa [hcontent]⟩

/-- A cell that was not pending is put in a place that was empty. -/
theorem insert (h : Placed s) (c₀ : GridCell) (p₀ : Place ι) (hnew : ¬s.Pending c₀)
    (hempty : s.content p₀ = none) (hin : s'.content p₀ = some c₀)
    (hother : ∀ p, p ≠ p₀ → s'.content p = s.content p)
    (hpending : ∀ c, s'.Pending c ↔ c = c₀ ∨ s.Pending c) : Placed s' := by
  have hiff (c p) : s'.content p = some c ↔ s.content p = some c ∨ (c = c₀ ∧ p = p₀) := by
    by_cases hp : p = p₀
    · rw [hp, hin, hempty]
      simp [eq_comm]
    · rw [hother p hp]
      simp [hp]
  have hnone (p) : s.content p ≠ some c₀ := fun hp ↦ hnew ((h.placed c₀).mpr ⟨p, hp⟩)
  refine ⟨fun c ↦ ?_, fun c p q hp hq ↦ ?_⟩
  · rw [hpending, h.placed]
    simp only [hiff, exists_or, exists_and_left, exists_eq, and_true]
    exact or_comm
  · rcases (hiff c p).mp hp with hp | ⟨rfl, rfl⟩ <;> rcases (hiff _ q).mp hq with hq | ⟨hc, rfl⟩
    · exact h.once c p q hp hq
    · exact absurd (hc ▸ hp) (hnone p)
    · exact absurd hq (hnone q)
    · rfl

/-- A cell is taken out of its place, and is not pending any more. -/
theorem remove (h : Placed s) (c₀ : GridCell) (p₀ : Place ι) (hin : s.content p₀ = some c₀)
    (hout : s'.content p₀ = none) (hother : ∀ p, p ≠ p₀ → s'.content p = s.content p)
    (hpending : ∀ c, s'.Pending c ↔ c ≠ c₀ ∧ s.Pending c) : Placed s' := by
  have hiff (c p) : s'.content p = some c ↔ s.content p = some c ∧ p ≠ p₀ := by
    by_cases hp : p = p₀
    · simp [hp, hout]
    · simp [hp, hother p hp]
  refine ⟨fun c ↦ ?_, fun c p q hp hq ↦ ?_⟩
  · rw [hpending, h.placed]
    simp only [hiff]
    constructor
    · rintro ⟨hne, p, hp⟩
      refine ⟨p, hp, ?_⟩
      rintro rfl
      exact hne (Option.some.inj (hp.symm.trans hin))
    · rintro ⟨p, hp, hne⟩
      refine ⟨?_, p, hp⟩
      rintro rfl
      exact hne (h.once c p p₀ hp hin)
  · exact h.once c p q ((hiff c p).mp hp).1 ((hiff c q).mp hq).1

end Placed

/-! ## Steps -/

/-- What is so in every run. -/
structure Bookkeeping (s : TerrainState ι) : Prop where
  tidy : s.terrain.Tidy
  capacity : s.terrain.requests.length ≤ requestsCap
  places : Placed s

namespace Bookkeeping

open TerrainState

variable [DecidableEq ι] {s : TerrainState ι} {i : ι}

/-- A call goes on that has nothing in `pending`, before and after. -/
theorem goes_idle (h : Bookkeeping s) {x : Caller} (hs : (s.caller i).holds = x.holds) :
    Bookkeeping (s.goes i s.terrain x) where
  tidy := h.tidy
  capacity := h.capacity
  places := by
    refine h.places.stay (fun _ ↦ Iff.rfl) fun p ↦ ?_
    rcases p with n | _ | j
    · rfl
    · rfl
    · show ((Function.update s.caller i x) j).holds = _
      by_cases hj : j = i
      · rw [hj, Function.update_self, ← hs]
        rfl
      · rw [Function.update_of_ne hj]
        rfl

/-- The other places do not see that a call goes on. -/
theorem content_goes (s : TerrainState ι) {t : Terrain} (x : Caller)
    (ht : t.requests = s.terrain.requests) {p : Place ι} (hp : p ≠ .caller i) :
    (s.goes i t x).content p = s.content p := by
  rcases p with n | _ | j
  · show t.requests[n]? = _
    rw [ht]
    rfl
  · rfl
  · show ((Function.update s.caller i x) j).holds = _
    rw [Function.update_of_ne fun hj ↦ hp (by rw [hj])]
    rfl

theorem content_caller (s : TerrainState ι) (t : Terrain) (i : ι) (x : Caller) :
    (s.goes i t x).content (.caller i) = x.holds := by
  show ((Function.update s.caller i x) i).holds = _
  rw [Function.update_self]

theorem enqueue (h : Bookkeeping s) {c : GridCell} (hi : s.caller i = .missed c)
    (hc : s.terrain.pending.get c = none) :
    Bookkeeping (s.goes i { s.terrain with pending := s.terrain.pending.put c () }
      (.inserted c)) where
  tidy := h.tidy.of_eq rfl rfl rfl
  capacity := h.capacity
  places := by
    refine h.places.insert c (.caller i) ?_ ?_ (content_caller ..)
      (fun p hp ↦ content_goes s _ rfl hp) fun c' ↦ ?_
    · simp [Pending, hc]
    · show (s.caller i).holds = none
      rw [hi]
      rfl
    · show ((s.terrain.pending.put c ()).get c').isSome = true ↔ _
      rw [GoMap.get_put]
      by_cases hc' : c' = c <;> simp [hc', Pending]

theorem unpend (h : Bookkeeping s) {c : GridCell} (hi : s.caller i = .dropping c) :
    Bookkeeping (s.goes i (s.terrain.unpend c) .idle) where
  tidy := h.tidy.of_eq rfl rfl rfl
  capacity := h.capacity
  places := by
    refine h.places.remove c (.caller i) ?_ (content_caller ..)
      (fun p hp ↦ content_goes s _ rfl hp) fun c' ↦ ?_
    · show (s.caller i).holds = some c
      rw [hi]
      rfl
    · show ((s.terrain.pending.delete c).get c').isSome = true ↔ _
      rw [GoMap.get_delete]
      by_cases hc' : c' = c <;> simp [hc', Pending]

/-- **A cell is sent**: it moves from the call to the end of the queue. -/
theorem send (h : Bookkeeping s) {c : GridCell} (hi : s.caller i = .inserted c)
    (hlen : s.terrain.requests.length < requestsCap) :
    Bookkeeping (s.goes i { s.terrain with requests := s.terrain.requests ++ [c] } .idle) where
  tidy := h.tidy.of_eq rfl rfl rfl
  capacity := by
    show (s.terrain.requests ++ [c]).length ≤ requestsCap
    rw [List.length_append, List.length_singleton]
    exact hlen
  places := by
    let from' : Place ι → Place ι
      | .queue n => if n = s.terrain.requests.length then .caller i else .queue n
      | p => p
    have hheld : s.content (.caller i) = some c := by
      show (s.caller i).holds = some c
      rw [hi]
      rfl
    have hqueue (n : ℕ) : (s.goes i { s.terrain with requests := s.terrain.requests ++ [c] }
        .idle).content (.queue n) = s.content (from' (.queue n)) := by
      show (s.terrain.requests ++ [c])[n]? = s.content (ite ..)
      by_cases hn : n = s.terrain.requests.length
      · rw [if_pos hn, hheld, hn, List.getElem?_concat_length]
      · rw [if_neg hn]
        show _ = s.terrain.requests[n]?
        rw [List.getElem?_append]
        split
        · rfl
        · rw [List.getElem?_eq_none (by simp; omega), List.getElem?_eq_none (by omega)]
    have hcaller (j : ι) : (s.goes i { s.terrain with requests := s.terrain.requests ++ [c] }
        .idle).content (.caller j) = if j = i then none else s.content (.caller j) := by
      show ((Function.update s.caller i .idle) j).holds = _
      by_cases hj : j = i
      · rw [hj, Function.update_self, if_pos rfl]
        rfl
      · rw [Function.update_of_ne hj, if_neg hj]
        rfl
    refine h.places.move (fun _ ↦ Iff.rfl) from' ?_ ?_ ?_
    · intro c' p hp
      rcases p with n | _ | j
      · rwa [← hqueue]
      · exact hp
      · rw [hcaller] at hp
        split at hp
        · cases hp
        · exact hp
    · intro c' p q hp hq heq
      -- the call itself holds nothing any more
      have hne {p : Place ι} (hp : (s.goes i { s.terrain with
          requests := s.terrain.requests ++ [c] } .idle).content p = some c') : p ≠ .caller i := by
        rintro rfl
        rw [hcaller, if_pos rfl] at hp
        cases hp
      rcases p with n | _ | j <;> rcases q with m | _ | l <;> dsimp only [from'] at heq
      · by_cases hn : n = s.terrain.requests.length <;>
          by_cases hm : m = s.terrain.requests.length
        · rw [hn, hm]
        · rw [if_pos hn, if_neg hm] at heq
          cases heq
        · rw [if_neg hn, if_pos hm] at heq
          cases heq
        · rwa [if_neg hn, if_neg hm] at heq
      · split at heq <;> cases heq
      · split at heq
        · exact absurd heq.symm (hne hq)
        · cases heq
      · split at heq <;> cases heq
      · rfl
      · cases heq
      · split at heq
        · exact absurd heq (hne hp)
        · cases heq
      · cases heq
      · exact heq
    · intro c' p hp
      rcases p with n | _ | j
      · have hn : n ≠ s.terrain.requests.length := by
          have hlt := (List.getElem?_eq_some_iff.mp hp).1
          omega
        refine ⟨.queue n, (hqueue n).trans ?_⟩
        dsimp only [from']
        rwa [if_neg hn]
      · exact ⟨.fetch, hp⟩
      · by_cases hj : j = i
        · refine ⟨.queue s.terrain.requests.length, (hqueue _).trans ?_⟩
          dsimp only [from']
          rwa [if_pos rfl, ← hj]
        · exact ⟨.caller j, by rwa [hcaller, if_neg hj]⟩

omit [DecidableEq ι] in
/-- **A cell is received**: it moves from the queue to the worker. -/
theorem receive (h : Bookkeeping s) : Bookkeeping s.receive := by
  unfold TerrainState.receive
  split
  · rename_i c rest hw hr
    refine ⟨h.tidy.of_eq rfl rfl rfl, ?_, ?_⟩
    · have hcap := h.capacity
      rw [hr, List.length_cons] at hcap
      show rest.length ≤ requestsCap
      omega
    · let from' : Place ι → Place ι
        | .queue n => .queue (n + 1)
        | .fetch => .queue 0
        | .caller i => .caller i
      have hfrom (p : Place ι) : TerrainState.content
          { s with terrain := { s.terrain with requests := rest }, worker := .fetching c } p =
            s.content (from' p) := by
        rcases p with n | _ | i
        · show rest[n]? = s.terrain.requests[n + 1]?
          rw [hr, List.getElem?_cons_succ]
        · show some c = s.terrain.requests[0]?
          rw [hr, List.getElem?_cons_zero]
        · rfl
      refine h.places.move (fun _ ↦ Iff.rfl) from' (fun c' p hp ↦ by rwa [← hfrom])
        (fun c' p q _ _ heq ↦ ?_) fun c' p hp ↦ ?_
      · rcases p with n | _ | i <;> rcases q with m | _ | j <;> cases heq <;> rfl
      · rcases p with n | _ | i
        · rcases n with _ | n
          · exact ⟨.fetch, (hfrom _).trans hp⟩
          · exact ⟨.queue n, (hfrom _).trans hp⟩
        · have hnone : s.worker.cell = none := by rw [hw]; rfl
          rw [TerrainState.content, hnone] at hp
          cases hp
        · exact ⟨.caller i, hp⟩
  · exact h

omit [DecidableEq ι] in
/-- The worker is done with its cell. -/
theorem done (h : Bookkeeping s) {c : GridCell} {t : Terrain} (hw : s.worker = .fetching c)
    (htidy : t.Tidy) (hreq : t.requests = s.terrain.requests)
    (hpend : t.pending = s.terrain.pending.delete c) :
    Bookkeeping { s with terrain := t, worker := .waiting } := by
  refine ⟨htidy, by show t.requests.length ≤ _; rw [hreq]; exact h.capacity, ?_⟩
  refine h.places.remove c .fetch ?_ rfl (fun p hp ↦ ?_) fun c' ↦ ?_
  · show s.worker.cell = some c
    rw [hw]
    rfl
  · rcases p with n | _ | i
    · show t.requests[n]? = s.terrain.requests[n]?
      rw [hreq]
    · exact absurd rfl hp
    · rfl
  · show (t.pending.get c').isSome = true ↔ _
    rw [hpend, GoMap.get_delete]
    by_cases hc' : c' = c <;> simp [hc', Pending]

omit [DecidableEq ι] in
theorem fetched (h : Bookkeeping s) (r : Except String Double) : Bookkeeping (s.fetched r) := by
  unfold TerrainState.fetched
  split
  · rename_i c hw
    split
    · exact h.done hw (h.tidy.store ..) (Terrain.store_requests ..) (Terrain.store_pending ..)
    · exact h.done hw (h.tidy.of_eq rfl rfl rfl) rfl rfl
  · exact h

omit [DecidableEq ι] in
theorem stop (h : Bookkeeping s) : Bookkeeping s.stop := by
  have hsame {w : Fetcher} (hw : w.cell = s.worker.cell) : Bookkeeping { s with worker := w } :=
    ⟨h.tidy, h.capacity, h.places.stay (fun _ ↦ Iff.rfl) fun p ↦ by
      rcases p with n | _ | i
      · rfl
      · exact hw
      · rfl⟩
  unfold TerrainState.stop
  split
  · rename_i hw
    exact hsame (by rw [hw]; rfl)
  · rename_i c hw
    exact hsame (by rw [hw]; rfl)
  · exact h

theorem elevationM (h : Bookkeeping s) (other : Double → ℤ) (lat lon : Double) :
    Bookkeeping (s.elevationM other i lat lon) := by
  unfold TerrainState.elevationM
  split
  · rename_i hi
    dsimp only
    split
    · exact h
    · exact h.goes_idle (by rw [hi]; rfl)
  · exact h

theorem proceed (h : Bookkeeping s) : Bookkeeping (s.proceed i) := by
  unfold TerrainState.proceed
  split
  · exact h
  · rename_i c hi
    unfold Terrain.enqueue
    cases hc : s.terrain.pending.get c with
    | some _ => exact h.goes_idle (by rw [hi]; rfl)
    | none => exact h.enqueue hi hc
  · rename_i c hi
    unfold Terrain.send
    by_cases hlen : s.terrain.requests.length < requestsCap
    · rw [if_pos hlen]
      exact h.send hi hlen
    · rw [if_neg hlen]
      exact h.goes_idle (by rw [hi]; rfl)
  · rename_i c hi
    exact h.unpend hi

/-- **A step.** -/
theorem take (h : Bookkeeping s) (other : Double → ℤ) (a : TerrainAct ι) :
    Bookkeeping (s.take other a) := by
  rcases a with ⟨i, lat, lon⟩ | i | _ | r | _
  · exact h.elevationM other lat lon
  · exact h.proceed
  · exact h.receive
  · exact h.fetched r
  · exact h.stop

/-- **In every run** the books are kept. -/
theorem of_run {other : Double → ℤ} {tr : List (Machine.Step (TerrainState ι) (TerrainAct ι))}
    (h : (terrainMachine ι other).Run tr s) : Bookkeeping s := by
  refine h.invariant ?_ fun s a s' hs hn ↦ hn ▸ hs.take other a
  rintro s ⟨cfg, rfl⟩
  refine ⟨Terrain.newTerrain_tidy cfg, Nat.zero_le _, ?_, ?_⟩
  · intro c
    have hnone (p : Place ι) :
        ({ terrain := newTerrain cfg } : TerrainState ι).content p = none := by
      rcases p with n | _ | i
      · exact List.getElem?_nil
      · rfl
      · rfl
    refine iff_of_false (by simp [Pending, newTerrain]) ?_
    rintro ⟨p, hp⟩
    rw [hnone] at hp
    cases hp
  · intro c p q hp
    rcases p with n | _ | i <;> cases hp

end Bookkeeping

/-! ## Frames -/

namespace TerrainState

variable [DecidableEq ι] (s : TerrainState ι) {i : ι} {c : GridCell}

theorem elevationM_frame (other : Double → ℤ) (j : ι) (lat lon : Double) :
    (s.elevationM other j lat lon).terrain = s.terrain ∧
      (s.elevationM other j lat lon).worker = s.worker ∧
      (s.caller i ≠ .idle → (s.elevationM other j lat lon).caller i = s.caller i) := by
  unfold elevationM
  split
  · rename_i hj
    dsimp only
    split
    · exact ⟨rfl, rfl, fun _ ↦ rfl⟩
    · refine ⟨rfl, rfl, fun hi ↦ Function.update_of_ne ?_ ..⟩
      rintro rfl
      exact hi hj
  · exact ⟨rfl, rfl, fun _ ↦ rfl⟩

/-- A call only adds to the queue. -/
theorem proceed_frame (j : ι) : (∃ l, (s.proceed j).terrain.requests = s.terrain.requests ++ l) ∧
    (s.proceed j).worker = s.worker ∧ (i ≠ j → (s.proceed j).caller i = s.caller i) := by
  unfold proceed Terrain.enqueue Terrain.send
  split
  · exact ⟨⟨[], by simp⟩, rfl, fun _ ↦ rfl⟩
  · rename_i c hj
    cases s.terrain.pending.get c <;>
      exact ⟨⟨[], by simp [goes]⟩, rfl, fun hi ↦ Function.update_of_ne hi ..⟩
  · rename_i c hj
    by_cases hlen : s.terrain.requests.length < requestsCap
    · rw [if_pos hlen]
      exact ⟨⟨[c], rfl⟩, rfl, fun hi ↦ Function.update_of_ne hi ..⟩
    · rw [if_neg hlen]
      exact ⟨⟨[], by simp [goes]⟩, rfl, fun hi ↦ Function.update_of_ne hi ..⟩
  · exact ⟨⟨[], by simp [goes, Terrain.unpend]⟩, rfl, fun hi ↦ Function.update_of_ne hi ..⟩

omit [DecidableEq ι] in
theorem receive_caller : s.receive.caller = s.caller := by
  unfold receive
  split <;> rfl

omit [DecidableEq ι] in
theorem fetched_caller (r : Except String Double) : (s.fetched r).caller = s.caller := by
  unfold fetched
  split
  · split <;> rfl
  · rfl

omit [DecidableEq ι] in
theorem stop_caller : s.stop.caller = s.caller := by
  unfold stop
  split <;> rfl

/-- A call that is under way goes on only when it is its turn. -/
theorem take_caller {other : Double → ℤ} {a : TerrainAct ι} (hi : s.caller i ≠ .idle)
    (ha : a ≠ .proceed i) : (s.take other a).caller i = s.caller i := by
  rcases a with ⟨j, lat, lon⟩ | j | _ | r | _
  · exact (s.elevationM_frame other j lat lon).2.2 hi
  · refine (s.proceed_frame j).2.2 ?_
    rintro rfl
    exact ha rfl
  · exact congrFun s.receive_caller i
  · exact congrFun (s.fetched_caller r) i
  · exact congrFun s.stop_caller i

variable {s}

/-- A call that finds its cell not pending goes on to send it. -/
theorem proceed_missed (hi : s.caller i = .missed c) (hc : ¬s.Pending c) :
    (s.proceed i).caller i = .inserted c := by
  rw [Pending, Bool.not_eq_true, Option.isSome_eq_false_iff, Option.isNone_iff_eq_none] at hc
  unfold proceed Terrain.enqueue
  rw [hi]
  dsimp only
  rw [hc]
  exact Function.update_self ..

/-- What is sent is queued, if the queue is not full. -/
theorem proceed_inserted (hi : s.caller i = .inserted c)
    (hlen : s.terrain.requests.length < requestsCap) :
    (s.proceed i).terrain.requests = s.terrain.requests ++ [c] := by
  unfold proceed Terrain.send
  rw [hi]
  dsimp only
  rw [if_pos hlen]
  rfl

theorem proceed_full (hi : s.caller i = .inserted c)
    (hlen : ¬s.terrain.requests.length < requestsCap) : (s.proceed i).caller i = .dropping c := by
  unfold proceed Terrain.send
  rw [hi]
  dsimp only
  rw [if_neg hlen]
  exact Function.update_self ..

theorem proceed_dropping (hi : s.caller i = .dropping c) : ¬(s.proceed i).Pending c := by
  unfold proceed
  rw [hi]
  show ¬((s.terrain.pending.delete c).get c).isSome = true
  rw [GoMap.get_delete, if_pos rfl]
  decide

omit [DecidableEq ι] in
theorem fetched_pending (hw : s.worker = .fetching c) (r : Except String Double) :
    ¬(s.fetched r).Pending c := by
  have hgone : ¬((s.terrain.pending.delete c).get c).isSome = true := by
    rw [GoMap.get_delete, if_pos rfl]
    decide
  unfold fetched
  rw [hw]
  rcases r with _ | elevation
  · exact hgone
  · show ¬((s.terrain.store c elevation).pending.get c).isSome = true
    rwa [Terrain.store_pending]

end TerrainState

/-! ## Progress -/

section progress

open TerrainState

variable {s : TerrainState ι} {i : ι} {c : GridCell} {other : Double → ℤ}

/-- The call takes its next step. -/
def CallerStep (i : ι) (s : TerrainState ι) (a : TerrainAct ι) : Prop :=
  s.caller i ≠ .idle ∧ a = .proceed i

/-- The worker takes its next step: it receives a cell, or its fetch comes to an end. -/
def WorkerStep (s : TerrainState ι) : TerrainAct ι → Prop
  | .receive => s.worker = .waiting ∧ s.terrain.requests ≠ []
  | .fetched _ => ∃ c, s.worker = .fetching c
  | _ => False

/-- The worker has not been stopped. -/
def Running (s : TerrainState ι) : Prop := ∀ c, s.worker ≠ .stopped c

instance (s : TerrainState ι) : Decidable (Running s) :=
  match h : s.worker with
  | .waiting | .fetching _ => .isTrue fun c ↦ by rw [h]; simp
  | .stopped c => .isFalse fun hrun ↦ hrun c h

/-- The cell is in the queue or being fetched. -/
structure Underway (c : GridCell) (s : TerrainState ι) : Prop where
  books : Bookkeeping s
  running : Running s
  place : c ∈ s.terrain.requests ∨ s.worker = .fetching c

/-- How many steps of the worker are left, before it fetches the cell. -/
def distance (c : GridCell) (s : TerrainState ι) : ℕ :=
  if s.worker = .fetching c then 0
  else 2 * s.terrain.requests.idxOf c + if s.worker = .waiting then 1 else 2

/-- The call has the cell in `pending`. -/
structure Held (i : ι) (c : GridCell) (s : TerrainState ι) : Prop where
  books : Bookkeeping s
  running : Running s
  holds : (s.caller i).holds = some c

theorem Underway.of_append {s' : TerrainState ι} (h : Underway c s) (hb : Bookkeeping s')
    {l : List GridCell} (hreq : s'.terrain.requests = s.terrain.requests ++ l)
    (hw : s'.worker = s.worker) : Underway c s' ∧ distance c s' ≤ distance c s := by
  refine ⟨⟨hb, fun c' ↦ hw ▸ h.running c', ?_⟩, ?_⟩
  · rw [hreq, hw, List.mem_append]
    exact h.place.imp_left .inl
  · rw [distance, distance, hw, hreq]
    split
    · exact le_rfl
    · rename_i hne
      rw [List.idxOf_append_of_mem (h.place.resolve_right hne)]

theorem Underway.receive (h : Underway c s) :
    Underway c s.receive ∧ distance c s.receive ≤ distance c s ∧
      (WorkerStep s .receive → distance c s.receive < distance c s) := by
  have hb := h.books.receive
  unfold TerrainState.receive at hb ⊢
  split at hb
  · rename_i c₀ rest hw hr
    have hne : s.worker ≠ .fetching c := by rw [hw]; simp
    have hmem := h.place.resolve_right hne
    have hlt : distance c { s with
        terrain := { s.terrain with requests := rest }
        worker := .fetching c₀ } < distance c s := by
      rw [distance, distance, if_neg hne, if_pos hw, hr]
      by_cases hc : c₀ = c
      · rw [if_pos (by rw [hc])]
        omega
      · rw [if_neg (fun heq ↦ hc (Fetcher.fetching.inj heq)), if_neg (by simp),
          List.idxOf_cons_ne _ hc]
        show 2 * rest.idxOf c + 2 < 2 * (rest.idxOf c + 1) + 1
        omega
    refine ⟨⟨hb, by simp [Running], ?_⟩, hlt.le, fun _ ↦ hlt⟩
    rw [hr] at hmem
    rcases List.mem_cons.mp hmem with rfl | hmem
    · exact .inr rfl
    · exact .inl hmem
  · rename_i hno
    refine ⟨h, le_rfl, fun ⟨hw, hr⟩ ↦ ?_⟩
    obtain ⟨c₀, rest, hr⟩ := List.exists_cons_of_ne_nil hr
    exact absurd hr (hno c₀ rest hw)

theorem Underway.fetched (h : Underway c s) (r : Except String Double) :
    ¬(s.fetched r).Pending c ∨ (Underway c (s.fetched r) ∧
      distance c (s.fetched r) ≤ distance c s ∧
      (WorkerStep s (.fetched r) → distance c (s.fetched r) < distance c s)) := by
  by_cases hc : s.worker = .fetching c
  · exact .inl (fetched_pending hc r)
  · refine .inr ?_
    have hb := h.books.fetched r
    have hmem := h.place.resolve_right hc
    cases hw : s.worker with
    | fetching c₀ =>
      have hreq : (s.fetched r).terrain.requests = s.terrain.requests := by
        unfold TerrainState.fetched
        rw [hw]
        rcases r with _ | elevation
        · rfl
        · exact Terrain.store_requests ..
      have hwait : (s.fetched r).worker = .waiting := by
        unfold TerrainState.fetched
        rw [hw]
        rcases r with _ | elevation <;> rfl
      have hlt : distance c (s.fetched r) < distance c s := by
        rw [distance, distance, if_neg hc, hwait, if_neg (by simp), if_pos rfl, hreq, hw,
          if_neg (by simp)]
        omega
      exact ⟨⟨hb, by simp [Running, hwait], .inl (hreq ▸ hmem)⟩, hlt.le, fun _ ↦ hlt⟩
    | waiting | stopped c' =>
      have hsame : s.fetched r = s := by
        unfold TerrainState.fetched
        rw [hw]
      rw [hsame]
      refine ⟨h, le_rfl, ?_⟩
      rintro ⟨c₀, hw'⟩
      rw [hw] at hw'
      cases hw'

theorem stop_not_running (s : TerrainState ι) : ¬Running s.stop := by
  unfold TerrainState.stop
  intro h
  cases hw : s.worker with
  | waiting => exact h none (by rw [hw])
  | fetching c => exact h (some c) (by rw [hw])
  | stopped c => exact h c (by rw [hw]; exact hw)

variable [DecidableEq ι]

/-- **A step**, while the cell is in the queue or being fetched. -/
theorem Underway.take (h : Underway c s) {a : TerrainAct ι} (hrun : Running (s.take other a)) :
    ¬(s.take other a).Pending c ∨ (Underway c (s.take other a) ∧
      distance c (s.take other a) ≤ distance c s ∧
      (WorkerStep s a → distance c (s.take other a) < distance c s)) := by
  rcases a with ⟨j, lat, lon⟩ | j | _ | r | _
  · obtain ⟨ht, hw, -⟩ := s.elevationM_frame (i := j) other j lat lon
    obtain ⟨h', hle⟩ := h.of_append (l := []) (h.books.elevationM other lat lon)
      (by rw [ht, List.append_nil]) hw
    exact .inr ⟨h', hle, False.elim⟩
  · obtain ⟨⟨l, hl⟩, hw, -⟩ := s.proceed_frame (i := j) j
    obtain ⟨h', hle⟩ := h.of_append h.books.proceed hl hw
    exact .inr ⟨h', hle, False.elim⟩
  · exact .inr h.receive
  · exact h.fetched r
  · exact absurd hrun (stop_not_running s)

/-- A step, while a call has the cell. -/
theorem Held.take (h : Held i c s) {a : TerrainAct ι} (hrun : Running (s.take other a)) :
    (¬(s.take other a).Pending c ∨ Underway c (s.take other a)) ∨
      (Held i c (s.take other a) ∧
        ((s.take other a).caller i = s.caller i ∨ (s.take other a).caller i = .dropping c) ∧
        (a = .proceed i → s.caller i = .inserted c ∧ (s.take other a).caller i = .dropping c)) := by
  have hb := h.books.take other a
  have hne : s.caller i ≠ .idle := by
    intro hi
    have hholds := h.holds
    rw [hi] at hholds
    cases hholds
  by_cases ha : a = .proceed i
  · subst ha
    have hholds := h.holds
    cases hi : s.caller i with
    | idle | missed c' =>
      rw [hi] at hholds
      cases hholds
    | inserted c' =>
      rw [hi] at hholds
      obtain rfl := Option.some.inj hholds
      by_cases hlen : s.terrain.requests.length < requestsCap
      · refine .inl (.inr ⟨hb, hrun, .inl ?_⟩)
        show c' ∈ (s.proceed i).terrain.requests
        rw [proceed_inserted hi hlen]
        simp
      · have hdrop := proceed_full hi hlen
        refine .inr ⟨⟨hb, hrun, ?_⟩, .inr hdrop, fun _ ↦ ⟨rfl, hdrop⟩⟩
        show ((s.proceed i).caller i).holds = _
        rw [hdrop]
        rfl
    | dropping c' =>
      rw [hi] at hholds
      obtain rfl := Option.some.inj hholds
      exact .inl (.inl (proceed_dropping hi))
  · have hsame : (s.take other a).caller i = s.caller i := s.take_caller hne ha
    exact .inr ⟨⟨hb, hrun, hsame ▸ h.holds⟩, .inl hsame, fun heq ↦ absurd heq ha⟩

variable {b : (terrainMachine ι other).Behavior}

theorem state_succ (b : (terrainMachine ι other).Behavior) (n : ℕ) :
    b.state (n + 1) = (b.state n).take other (b.act n) := b.next n

/-- **A cell that is queued or being fetched** stops being pending. -/
theorem underway_leaves (hrun : ∀ n, Running (b.state n)) (hworker : b.Fair WorkerStep)
    (c : GridCell) : b.LeadsTo (Underway c) fun s ↦ ¬s.Pending c := by
  refine Machine.Behavior.leadsTo (distance c) hworker (fun s hs ↦ ?_) (fun n hn ↦ ?_)
    fun n hn hstep ↦ ?_
  · cases hw : s.worker with
    | waiting =>
      refine ⟨.receive, hw, List.ne_nil_of_mem (hs.place.resolve_right ?_)⟩
      rw [hw]
      simp
    | fetching c' => exact ⟨.fetched (.error ""), c', hw⟩
    | stopped c' => exact absurd hw (hs.running c')
  · rw [state_succ b]
    exact (hn.take (state_succ b n ▸ hrun (n + 1))).imp_right fun h ↦ ⟨h.1, h.2.1⟩
  · rw [state_succ b]
    exact (hn.take (state_succ b n ▸ hrun (n + 1))).imp_right fun h ↦ ⟨h.1, h.2.2 hstep⟩

/-- How many steps a call has left. -/
def Caller.left : Caller → ℕ
  | .inserted _ => 1
  | _ => 0

/-- **A cell that a call has** is queued, or stops being pending. -/
theorem held_leaves (hrun : ∀ n, Running (b.state n)) (hcaller : b.Fair (CallerStep i))
    (c : GridCell) : b.LeadsTo (Held i c) fun s ↦ ¬s.Pending c ∨ Underway c s := by
  refine Machine.Behavior.leadsTo (fun s ↦ (s.caller i).left) hcaller (fun s hs ↦ ?_)
    (fun n hn ↦ ?_) fun n hn hstep ↦ ?_
  · refine ⟨.proceed i, fun hi ↦ ?_, rfl⟩
    have hholds := hs.holds
    rw [hi] at hholds
    cases hholds
  · rw [state_succ b]
    rcases hn.take (state_succ b n ▸ hrun (n + 1)) with hQ | ⟨h, hsame, -⟩
    · exact .inl hQ
    · refine .inr ⟨h, ?_⟩
      rcases hsame with hsame | hsame <;> rw [hsame]
      exact Nat.zero_le _
  · rw [state_succ b]
    rcases hn.take (state_succ b n ▸ hrun (n + 1)) with hQ | ⟨h, -, hown⟩
    · exact .inl hQ
    · obtain ⟨hpre, hpost⟩ := hown hstep.2
      refine .inr ⟨h, ?_⟩
      rw [hpre, hpost]
      exact Nat.zero_lt_one

/-- **No cell stays pending forever.** -/
theorem pending_leaves (hrun : ∀ n, Running (b.state n)) (hworker : b.Fair WorkerStep)
    (hcaller : ∀ i, b.Fair (CallerStep i)) (c : GridCell) :
    b.LeadsTo (·.Pending c) fun s ↦ ¬s.Pending c := by
  intro n hn
  obtain ⟨tr, hr⟩ := b.run n
  have hbooks := Bookkeeping.of_run hr
  have hunder := underway_leaves hrun hworker c
  obtain ⟨p, hp⟩ := (hbooks.places.placed c).mp hn
  rcases p with m | _ | i
  · exact hunder n ⟨hbooks, hrun n, .inl (List.mem_of_getElem? hp)⟩
  · refine hunder n ⟨hbooks, hrun n, .inr ?_⟩
    cases hw : (b.state n).worker with
    | waiting =>
      rw [content, hw] at hp
      cases hp
    | fetching c' =>
      rw [content, hw] at hp
      rw [Option.some.inj hp]
    | stopped c' => exact absurd hw (hrun n c')
  · obtain ⟨m, hm, hgone | hqueued⟩ := held_leaves hrun (hcaller i) c n ⟨hbooks, hrun n, hp⟩
    · exact ⟨m, hm, hgone⟩
    · obtain ⟨l, hl, hgone⟩ := hunder m hqueued
      exact ⟨l, hm.trans hl, hgone⟩

end progress

/-! ## The bookkeeping -/

/-- What a step does for the lookups that miss: a miss goes on to `schedule`, a call that is under
way waits for its turn, a cell that is not pending is sent next, and it is queued then, unless the
queue is full. -/
structure Serves [DecidableEq ι] (other : Double → ℤ)
    (x : Machine.Step (TerrainState ι) (TerrainAct ι)) : Prop where
  misses : ∀ i lat lon, x.act = .elevationM i lat lon → x.pre.caller i = .idle →
    x.pre.terrain.lookup (x.pre.terrain.cfg.cell other lat lon) = none →
    x.post.caller i = .missed (x.pre.terrain.cfg.cell other lat lon)
  waits : ∀ i, x.pre.caller i ≠ .idle → x.act ≠ .proceed i → x.post.caller i = x.pre.caller i
  inserts : ∀ i c, x.act = .proceed i → x.pre.caller i = .missed c → ¬x.pre.Pending c →
    x.post.caller i = .inserted c
  sends : ∀ i c, x.act = .proceed i → x.pre.caller i = .inserted c →
    x.pre.terrain.requests.length < requestsCap →
    x.post.terrain.requests = x.pre.terrain.requests ++ [c]

theorem serves_of_next [DecidableEq ι] {other : Double → ℤ}
    {x : Machine.Step (TerrainState ι) (TerrainAct ι)}
    (h : (terrainMachine ι other).next x.pre x.act x.post) : Serves other x := by
  obtain ⟨pre, act, post⟩ := x
  obtain rfl : post = pre.take other act := h
  refine ⟨?_, fun i hi ha ↦ pre.take_caller hi ha, ?_, ?_⟩
  · rintro i lat lon rfl hi hmiss
    show (pre.elevationM other i lat lon).caller i = _
    unfold TerrainState.elevationM
    rw [hi]
    dsimp only
    rw [hmiss]
    exact Function.update_self ..
  · rintro i c rfl hi hc
    exact TerrainState.proceed_missed hi hc
  · rintro i c rfl hi hlen
    exact TerrainState.proceed_inserted hi hlen

/-- **The bookkeeping of terrain fetches.** -/
theorem terrain_bookkeeping (ι : Type) [DecidableEq ι] (other : Double → ℤ) :
    (∀ tr s, (terrainMachine ι other).Run tr s →
      (∀ c, (s.terrain.cache.get c).isSome ↔ c ∈ s.terrain.order) ∧ s.terrain.order.Nodup ∧
      (s.terrain.order.length : ℤ) ≤ s.terrain.cfg.cacheSize ∧
      (∀ c, s.Pending c ↔ ∃! p, s.content p = some c) ∧ ∀ x ∈ tr, Serves other x) ∧
    ∀ b : (terrainMachine ι other).Behavior, (∀ n, Running (b.state n)) → b.Fair WorkerStep →
      (∀ i, b.Fair (CallerStep i)) → ∀ c, b.LeadsTo (·.Pending c) fun s ↦ ¬s.Pending c := by
  refine ⟨fun tr s h ↦ ?_, fun b hrun hworker hcaller c ↦ pending_leaves hrun hworker hcaller c⟩
  have hbooks := Bookkeeping.of_run h
  refine ⟨hbooks.tidy.inStep.keys, hbooks.tidy.inStep.nodup, hbooks.tidy.bounded, fun c ↦ ?_,
    fun x hx ↦ ?_⟩
  · rw [hbooks.places.placed]
    constructor
    · rintro ⟨p, hp⟩
      exact ⟨p, hp, fun q hq ↦ hbooks.places.once c q p hq hp⟩
    · rintro ⟨p, hp, -⟩
      exact ⟨p, hp⟩
  · obtain ⟨-, -, -, hn⟩ := h.of_mem hx
    exact serves_of_next hn

/-! ## A single lookup -/

/-- A lookup that misses, and its fetch. -/
def loneActs : ℕ → TerrainAct Unit
  | 0 => .elevationM () (.fin 0) (.fin 0)
  | 1 | 2 => .proceed ()
  | 4 => .fetched (.ok (.fin 12))
  | _ => .receive

def loneStates : ℕ → TerrainState Unit
  | 0 => { terrain := newTerrain { gridDeg := .fin 1, cacheSize := 1 } }
  | n + 1 => (loneStates n).take (fun _ ↦ 0) (loneActs n)

def lone : (terrainMachine Unit fun _ ↦ 0).Behavior where
  state := loneStates
  act := loneActs
  start := ⟨_, rfl⟩
  next _ := rfl

/-- After the fetch nothing is left to do. -/
theorem loneStates_quiet : ∀ n, (loneStates (n + 5)).worker = .waiting ∧
    (loneStates (n + 5)).terrain.requests = [] ∧ (loneStates (n + 5)).caller () = .idle
  | 0 => by decide
  | n + 1 => by
    obtain ⟨hw, hr, hc⟩ := loneStates_quiet n
    have hsame : loneStates (n + 1 + 5) = loneStates (n + 5) := by
      show (loneStates (n + 5)).receive = _
      unfold TerrainState.receive
      rw [hw, hr]
    rw [hsame]
    exact ⟨hw, hr, hc⟩

theorem loneStates_running : ∀ n, Running (loneStates n)
  | 0 | 1 | 2 | 3 | 4 => by decide
  | n + 5 => by
    intro c
    rw [(loneStates_quiet n).1]
    simp

theorem terrain_bookkeeping_lone : (loneStates 2).Pending ⟨0, 0⟩ ∧
    ∃ n, 2 ≤ n ∧ ¬(loneStates n).Pending ⟨0, 0⟩ := by
  have hpending : (loneStates 2).Pending ⟨0, 0⟩ := by
    show ((loneStates 2).terrain.pending.get ⟨0, 0⟩).isSome = true
    decide +kernel
  refine ⟨hpending, (terrain_bookkeeping Unit fun _ ↦ 0).2 lone loneStates_running ?_ ?_ ⟨0, 0⟩ 2
    hpending⟩
  · refine fun n ↦ ⟨n + 5, by omega, .inl fun a ha ↦ ?_⟩
    obtain ⟨hw, hr, -⟩ := loneStates_quiet n
    rcases a with _ | _ | _ | _ | _
    · exact ha
    · exact ha
    · exact ha.2 hr
    · obtain ⟨c, hc⟩ := ha
      exact absurd (hw.symm.trans hc) (by simp)
    · exact ha
  · exact fun i n ↦ ⟨n + 5, by omega, .inl fun a ha ↦ ha.1 (loneStates_quiet n).2.2⟩

/-- A call has put its cell in `pending`, and has not sent it yet. -/
theorem pending_unsent : (∃ tr, (terrainMachine Unit fun _ ↦ 0).Run tr (loneStates 2)) ∧
    (loneStates 2).Pending ⟨0, 0⟩ ∧ ⟨0, 0⟩ ∉ (loneStates 2).terrain.requests ∧
    (loneStates 2).worker ≠ .fetching ⟨0, 0⟩ := by
  refine ⟨lone.run 2, ?_, by decide, by decide⟩
  show ((loneStates 2).terrain.pending.get ⟨0, 0⟩).isSome = true
  decide +kernel

end ClassG.Fusion
