import ClassG.Hooks.Dispatcher

/-!
# The cooldown

Two deliveries for the same rule and subject, the first of which does not fail, are to be as far
apart as the rule asks.  What keeps them apart is one map entry per slot, so this asks that the
entry stays as long as the delivery it was made for needs it (`Held`).

An entry is removed in two places: a failed delivery gives its slot back, and a large map is swept.
`release` takes it for granted that the entry is still its own.  A delivery that takes longer than
the cooldown finds the slot claimed anew, and its failure discards the claim of the newer delivery
(`late_failure_discards`).  `kept_apart_iff` says that all is well exactly if nothing is removed
from a slot while the cooldown of a delivery that has not failed is still running on it, by the
clock or by a reading that some worker holds.
-/

set_option autoImplicit false

namespace ClassG.Hooks

variable {n : ℕ}

/-! ## Claims -/

/-- A delivery that was granted its slot: by which worker, for what, and at which reading of the
clock. -/
structure Claim (n : ℕ) where
  worker : Fin n
  event : Event
  rule : Rule
  now : GoTime

namespace Claim

variable (c : Claim n)

/-- The slot. -/
def key : String := cooldownKey c.rule c.event

/-- When the cooldown the rule asks for is over. -/
def expires : GoTime := c.now + c.rule.asked

end Claim

/-- The claim a worker asks for. -/
def asked (s : Dispatcher n) (w : Fin n) : Option (Claim n) :=
  match s.worker w with
  | .claiming e rule now _ => some ⟨w, e, rule, now⟩
  | _ => none

/-- The claim a call makes. -/
def claimed (s : Dispatcher n) : Act n → Option (Claim n)
  | .claim w => (asked s w).filter fun c ↦ !(suppressed s.cooldown c.rule c.event c.now).1
  | _ => none

/-- The worker whose delivery ends in failure in this step. -/
def failing (x : Machine.Step (Dispatcher n) (Act n)) : Option (Fin n) :=
  match x.act with
  | .begin w | .attempt w _ _ =>
    if (x.pre.worker w).givesBack = none ∧ (x.post.worker w).givesBack ≠ none then some w else none
  | _ => none

/-- The deliveries that have been granted and have not ended in failure, latest first.  A worker
has one delivery at a time, so it is its latest that fails. -/
def standing : List (Machine.Step (Dispatcher n) (Act n)) → List (Claim n)
  | [] => []
  | x :: older => (claimed x.pre x.act).toList ++
    match failing x with
    | some w => (standing older).eraseP fun c ↦ c.worker = w
    | none => standing older

/-- Two deliveries for the same rule and subject are as far apart as the earlier one asks: whatever
delivery a call grants, no earlier one that has not failed is still in its cooldown. -/
def Spaced (older : List (Machine.Step (Dispatcher n) (Act n))) (s : Dispatcher n) (a : Act n) :
    Prop :=
  ∀ c ∈ claimed s a, ∀ c' ∈ standing older, c'.rule.ruleID = c.rule.ruleID →
    c'.event.subject = c.event.subject → c'.expires ≤ c.now

/-- The cooldown is over by the clock and by every reading that a worker holds for the slot. -/
def Over (s : Dispatcher n) (c : Claim n) : Prop :=
  c.expires ≤ s.clock ∧ ∀ w, ∀ q ∈ (s.worker w).reading, q.1 = c.key → c.expires ≤ q.2

/-- The claim of every delivery that has not failed is in the map until its cooldown is over. -/
def Held (tr : List (Machine.Step (Dispatcher n) (Act n))) (s : Dispatcher n) : Prop :=
  ∀ c ∈ standing tr, Over s c ∨ ∃ u, s.cooldown.get c.key = some u ∧ c.expires ≤ u

instance (older : List (Machine.Step (Dispatcher n) (Act n))) (s : Dispatcher n) (a : Act n) :
    Decidable (Spaced older s a) :=
  inferInstanceAs (Decidable (∀ _ ∈ _, ∀ _ ∈ _, _ → _ → _))

/-- The call removes an entry that was made for the slot: the release of a failed delivery, or the
sweep of slots that are over by the reading of the worker that sweeps. -/
def Act.Frees (s : Dispatcher n) : Act n → String → Prop
  | .release w, k => (s.worker w).givesBack = some k
  | .claim w, k => ∃ c ∈ claimed s (.claim w), Sweeps s.cooldown c.rule c.event c.now ∧
      k ≠ c.key ∧ ∃ u ∈ s.cooldown.get k, u < c.now
  | _, _ => False

/-- No slot is freed on which a delivery that has not failed is still in its cooldown. -/
def FreesOnlyOver (older : List (Machine.Step (Dispatcher n) (Act n))) (s : Dispatcher n)
    (a : Act n) : Prop :=
  ∀ c ∈ standing older, a.Frees s c.key → Over s c

/-- The rule a worker claims a slot for has a cooldown that is a duration. -/
def Act.Fits (s : Dispatcher n) : Act n → Prop
  | .claim w => ∀ c ∈ asked s w, c.rule.Fits
  | _ => True

section decidable

instance (s : Dispatcher n) (c : Claim n) : Decidable (Over s c) :=
  inferInstanceAs (Decidable (_ ∧ ∀ _, ∀ _ ∈ _, _ → _))

instance (s : Dispatcher n) (k : String) : (a : Act n) → Decidable (a.Frees s k)
  | .release _ => inferInstanceAs (Decidable (_ = _))
  | .claim _ => inferInstanceAs (Decidable (∃ _ ∈ _, _))
  | .tick _ | .take _ _ _ | .next _ | .refuse _ | .begin _ | .attempt _ _ _ | .wake _ | .cancel _ =>
    .isFalse id

instance (older : List (Machine.Step (Dispatcher n) (Act n))) (s : Dispatcher n) (a : Act n) :
    Decidable (FreesOnlyOver older s a) :=
  inferInstanceAs (Decidable (∀ _ ∈ _, _))

instance (s : Dispatcher n) : (a : Act n) → Decidable (a.Fits s)
  | .claim _ => inferInstanceAs (Decidable (∀ _ ∈ _, _))
  | .release _ | .tick _ | .take _ _ _ | .next _ | .refuse _ | .begin _ | .attempt _ _ _ | .wake _
  | .cancel _ => .isTrue trivial

end decidable

/-! ## One call -/

section step

variable {older : List (Machine.Step (Dispatcher n) (Act n))} {s s' : Dispatcher n} {a : Act n}
  {c : Claim n}

theorem mem_standing (h : c ∈ standing (⟨s, a, s'⟩ :: older)) :
    claimed s a = some c ∨ c ∈ standing older := by
  rw [standing, List.mem_append] at h
  refine h.imp Option.mem_toList.mp fun h ↦ ?_
  split at h
  · exact List.mem_of_mem_eraseP h
  · exact h

/-- Unless it fails, a delivery goes on standing. -/
theorem standing_of_not_failing (h : failing ⟨s, a, s'⟩ = none) (hc : c ∈ standing older) :
    c ∈ standing (⟨s, a, s'⟩ :: older) := by
  rw [standing, h]
  exact List.mem_append_right _ hc

theorem claimed_eq_none (hquiet : a.Quiet s) : claimed s a = none := by
  cases a with
  | claim w =>
    have hw : (s.worker w).reading = none := hquiet
    cases h : s.worker w with
    | claiming e rule now rest => rw [h] at hw; cases hw
    | _ => simp [claimed, asked, h]
  | _ => rfl

theorem not_frees (hquiet : a.Quiet s) (k : String) : ¬ a.Frees s k := by
  intro h
  cases a with
  | claim w =>
    obtain ⟨c, hc, -⟩ := h
    rw [claimed_eq_none hquiet] at hc
    cases hc
  | release w =>
    have hw : (s.worker w).givesBack = none := hquiet
    have hk : (s.worker w).givesBack = some k := h
    rw [hw] at hk
    cases hk
  | _ => exact h

/-- What was over stays over while the clock runs on and readings are taken from it. -/
theorem Over.mono (h : Over s c) (hclock : s.clock ≤ s'.clock)
    (hreading : ∀ v, ∀ q ∈ (s'.worker v).reading, q ∈ (s.worker v).reading ∨ q.2 = s.clock) :
    Over s' c := by
  refine ⟨h.1.trans hclock, fun v q hq hk ↦ ?_⟩
  rcases hreading v q hq with hold | hnow
  · exact h.2 v q hold hk
  · exact hnow ▸ h.1

theorem asked_of_claiming {w : Fin n} {e : Event} {rule : Rule} {now : GoTime} {rest : List Rule}
    (hw : s.worker w = .claiming e rule now rest) : asked s w = some ⟨w, e, rule, now⟩ := by
  rw [asked, hw]

theorem claimed_of_claiming {w : Fin n} {e : Event} {rule : Rule} {now : GoTime} {rest : List Rule}
    (hw : s.worker w = .claiming e rule now rest) :
    claimed s (.claim w) =
      if (suppressed s.cooldown rule e now).1 = true then none else some ⟨w, e, rule, now⟩ := by
  rw [claimed, asked_of_claiming hw, Option.filter_some]
  cases (suppressed s.cooldown rule e now).1 <;> rfl

/-- **A slot is granted only to a reading** at which no standing delivery is in its cooldown. -/
theorem expires_le_of_granted {w : Fin n} {e : Event} {rule : Rule} {now : GoTime}
    {rest : List Rule} (hheld : Held older s) (hw : s.worker w = .claiming e rule now rest)
    (hgranted : (suppressed s.cooldown rule e now).1 ≠ true) (hc : c ∈ standing older)
    (hk : c.key = cooldownKey rule e) : c.expires ≤ now := by
  rcases hheld c hc with hover | ⟨u, hu, hle⟩
  · exact hover.2 w (cooldownKey rule e, now) (by rw [hw]; rfl) hk.symm
  · rw [hk] at hu
    by_contra hlt
    exact hgranted ((suppressed_fst ..).mpr ⟨u, hu, (not_le.mp hlt).trans_le hle⟩)

theorem spaced_of_held (hheld : Held older s) : Spaced older s a := by
  intro c hc c' hc' hrule hsubject
  cases a with
  | claim w =>
    cases hw : s.worker w with
    | claiming e rule now rest =>
      rw [claimed_of_claiming hw] at hc
      split at hc
      · cases hc
      · rename_i hgranted
        cases hc
        exact expires_le_of_granted hheld hw hgranted hc' (cooldownKey_congr hrule hsubject)
    | _ => simp [claimed, asked, hw] at hc
  | _ => cases hc

/-! ### Still calls, releases and claims -/

theorem held_of_still (hheld : Held older s) (hnone : claimed s a = none)
    (hcooldown : s'.cooldown = s.cooldown) (hclock : s.clock ≤ s'.clock)
    (hreading : ∀ v, ∀ q ∈ (s'.worker v).reading, q ∈ (s.worker v).reading ∨ q.2 = s.clock) :
    Held (⟨s, a, s'⟩ :: older) s' := by
  intro c hc
  have hc : c ∈ standing older := (mem_standing hc).resolve_left fun h ↦ by
    rw [hnone] at h; cases h
  rw [hcooldown]
  exact (hheld c hc).imp_left fun h ↦ h.mono hclock hreading

/-- A worker that moves on changes nothing for a slot it does not wait for. -/
theorem over_goto_iff {w : Fin n} {p : Worker} {m : GoMap String GoTime} (hp : p.reading = none)
    (hw : ∀ q ∈ (s.worker w).reading, q.1 ≠ c.key) :
    Over ({ s with cooldown := m }.goto w p) c ↔ Over s c := by
  have hgoto : ∀ v, ({ s with cooldown := m }.goto w p).worker v =
      if v = w then p else s.worker v := fun v ↦ goto_worker s w v p
  refine and_congr Iff.rfl (forall_congr' fun v ↦ ?_)
  rw [hgoto]
  split
  · rename_i hv
    subst hv
    rw [hp]
    exact ⟨fun _ q hq hk ↦ absurd hk (hw q hq), fun _ q hq ↦ nomatch hq⟩
  · exact Iff.rfl

/-- **A release** keeps every claim exactly if no other is still needed in its slot. -/
theorem held_release_iff {w : Fin n} {e : Event} {rule : Rule} {rest : List Rule}
    (hheld : Held older s) (hw : s.worker w = .releasing e rule rest)
    (hs' : s' = { s with cooldown := release s.cooldown rule e }.goto w (.handling e rest)) :
    Held (⟨s, .release w, s'⟩ :: older) s' ↔ FreesOnlyOver older s (.release w) := by
  have hfrees : ∀ k, Act.Frees s (.release w) k ↔ k = cooldownKey rule e := fun k ↦ by
    rw [Act.Frees, hw, Worker.givesBack, Option.some_inj, eq_comm]
  have hover : ∀ c : Claim n, Over s' c ↔ Over s c := fun c ↦ by
    rw [hs']
    exact over_goto_iff rfl (by rw [hw]; intro q hq; cases hq)
  have hget : ∀ k, s'.cooldown.get k = if k = cooldownKey rule e then none
      else s.cooldown.get k := fun k ↦ by
    rw [hs']
    exact GoMap.get_delete ..
  constructor
  · intro h c hc hk
    rw [hfrees] at hk
    rcases h c (standing_of_not_failing rfl hc) with hov | ⟨u, hu, -⟩
    · exact (hover c).mp hov
    · rw [hget, if_pos hk] at hu
      cases hu
  · intro h c hc
    have hc : c ∈ standing older := (mem_standing hc).resolve_left fun h ↦ by cases h
    rw [hover, hget]
    split
    · rename_i hk
      exact .inl (h c hc ((hfrees _).mpr hk))
    · exact hheld c hc

/-- A worker that asks for a slot and is refused changes nothing. -/
theorem held_refused {w : Fin n} {e : Event} {rule : Rule} {now : GoTime} {rest : List Rule}
    (hheld : Held older s) (hw : s.worker w = .claiming e rule now rest)
    (hrefused : (suppressed s.cooldown rule e now).1 = true)
    (hs' : s' = { s with cooldown := (suppressed s.cooldown rule e now).2 }.goto w
      (.refused e rule rest)) :
    Held (⟨s, .claim w, s'⟩ :: older) s' := by
  subst hs'
  refine held_of_still hheld ?_ (suppressed_snd_of_refused _ _ _ _ hrefused) le_rfl
    fun v q hq ↦ .inl ((reading_goto s hq).resolve_left fun h ↦ nomatch h)
  rw [claimed_of_claiming hw, if_pos hrefused]

/-- **A worker that is granted a slot** keeps every claim exactly if it sweeps none that is still
needed. -/
theorem held_granted_iff {w : Fin n} {e : Event} {rule : Rule} {now : GoTime} {rest : List Rule}
    (hheld : Held older s) (hw : s.worker w = .claiming e rule now rest)
    (hgranted : (suppressed s.cooldown rule e now).1 ≠ true) (hfit : rule.Fits)
    (hs' : s' = { s with cooldown := (suppressed s.cooldown rule e now).2 }.goto w
      (.granted e rule rest)) :
    Held (⟨s, .claim w, s'⟩ :: older) s' ↔ FreesOnlyOver older s (.claim w) := by
  have hclaimed : claimed s (.claim w) = some ⟨w, e, rule, now⟩ := by
    rw [claimed_of_claiming hw, if_neg hgranted]
  have hfrees : ∀ k, Act.Frees s (.claim w) k ↔ Sweeps s.cooldown rule e now ∧
      k ≠ cooldownKey rule e ∧ ∃ u ∈ s.cooldown.get k, u < now := fun k ↦ by
    simp [Act.Frees, hclaimed, Claim.key]
  have hget : ∀ k, s'.cooldown.get k = if k = cooldownKey rule e then some (now + rule.asked)
      else if Sweeps s.cooldown rule e now then (s.cooldown.get k).filter (now ≤ ·)
      else s.cooldown.get k := fun k ↦ by
    rw [hs']
    exact get_granted hgranted hfit k
  have hover : ∀ c : Claim n, c.key ≠ cooldownKey rule e → (Over s' c ↔ Over s c) := fun c hk ↦ by
    rw [hs']
    refine over_goto_iff rfl ?_
    rw [hw]
    rintro q ⟨⟩
    exact hk.symm
  constructor
  · intro h c hc hf
    obtain ⟨hsw, hk, u, hu, hlt⟩ := (hfrees _).mp hf
    rcases h c (standing_of_not_failing rfl hc) with hov | ⟨u', hu', -⟩
    · exact (hover c hk).mp hov
    · rw [hget, if_neg hk, if_pos hsw, Option.mem_def.mp hu, Option.filter_some] at hu'
      simp [not_le.mpr hlt] at hu'
  · intro h c hc
    rcases mem_standing hc with hnew | hc
    · -- its own claim is in the map
      rw [hclaimed, Option.some_inj] at hnew
      subst hnew
      refine .inr ⟨now + rule.asked, ?_, le_rfl⟩
      rw [hget]
      exact if_pos rfl
    by_cases hk : c.key = cooldownKey rule e
    · -- an older claim on the slot is over by its reading
      have hle : c.expires ≤ now := expires_le_of_granted hheld hw hgranted hc hk
      refine .inr ⟨now + rule.asked, by rw [hget, if_pos hk], ?_⟩
      exact hle.trans (Int.le_add_of_nonneg_right hfit.1)
    · rw [hover c hk, hget, if_neg hk]
      rcases hheld c hc with hov | ⟨u, hu, hle⟩
      · exact .inl hov
      by_cases hsw : Sweeps s.cooldown rule e now ∧ u < now
      · exact .inl (h c hc ((hfrees _).mpr ⟨hsw.1, hk, u, hu, hsw.2⟩))
      · refine .inr ⟨u, ?_, hle⟩
        split
        · rename_i hsw'
          have hkept : now ≤ u := not_lt.mp fun hlt ↦ hsw ⟨hsw', hlt⟩
          rw [hu, Option.filter_some, if_pos (decide_eq_true hkept)]
        · exact hu

/-- **One call** keeps every claim that is still needed exactly if it frees no slot on which one
is. -/
theorem held_iff (cfg : DispatcherConfig) (hheld : Held older s) (hok : a.Ok s) (hfit : a.Fits s) :
    Held (⟨s, a, s.perform cfg a⟩ :: older) (s.perform cfg a) ↔ FreesOnlyOver older s a := by
  generalize hs' : s.perform cfg a = s'
  have heffect : Effect s a s' := hs' ▸ perform_effect hok
  cases heffect with
  | still hquiet hcooldown hclock hreading =>
    exact iff_of_true (held_of_still hheld (claimed_eq_none hquiet) hcooldown hclock hreading)
      fun c _ hf ↦ absurd hf (not_frees hquiet _)
  | release hw => exact held_release_iff hheld hw rfl
  | @claim w e rule now rest hw =>
    by_cases hrefused : (suppressed s.cooldown rule e now).1 = true
    · simp only [hrefused, if_true]
      refine iff_of_true (held_refused hheld hw hrefused rfl) fun c _ hf ↦ ?_
      obtain ⟨c, hc, -⟩ := hf
      rw [claimed_of_claiming hw, if_pos hrefused] at hc
      cases hc
    · simp only [hrefused]
      exact held_granted_iff hheld hw hrefused (hfit _ (asked_of_claiming hw)) rfl

end step

/-! ## Every run -/

variable {cfg : DispatcherConfig} {tr : List (Machine.Step (Dispatcher n) (Act n))}
  {s : Dispatcher n}

/-- **The cooldown keeps deliveries apart**, and every claim in the map while it is needed, exactly
if no call frees a slot on which the cooldown of a delivery that has not failed still runs. -/
theorem kept_apart_iff (h : (dispatcher cfg n).Run tr s) (hfit : ∀ x ∈ tr, x.act.Fits x.pre) :
    Machine.Always (fun older x ↦ Spaced older x.pre x.act ∧ Held (x :: older) x.post) tr ↔
      Machine.Always (fun older x ↦ FreesOnlyOver older x.pre x.act) tr := by
  refine h.always_iff_of (D := fun s a ↦ a.Fits s) (C := FreesOnlyOver)
    (I := fun tr s ↦ match tr with
      | [] => True
      | x :: older => Spaced older x.pre x.act ∧ Held (x :: older) s)
    hfit (fun _ _ ↦ trivial) ?_
  rintro older s a _ - hi hfits ⟨hok, rfl⟩
  have hheld : Held older s := by
    cases older with
    | nil => exact fun c hc ↦ nomatch hc
    | cons x older => exact hi.2
  have hiff := held_iff cfg hheld hok hfits
  exact ⟨fun hm ↦ hiff.mp hm.2, fun hc ↦ ⟨spaced_of_held hheld, hiff.mpr hc⟩⟩

/-! ### A late failure -/

/-- The calls `acts` of four workers, latest first. -/
def callsOf (acts : List (Act 4)) : List (Machine.Step (Dispatcher 4) (Act 4)) :=
  Machine.replaySteps (fun s a ↦ s.perform {} a) { clock := 0 } acts []

/-- The dispatcher after the calls. -/
def dispatcherAfter (acts : List (Act 4)) : Dispatcher 4 :=
  Machine.replay (fun s a ↦ s.perform {} a) { clock := 0 } acts

theorem run_dispatcherAfter {acts : List (Act 4)}
    (h : Machine.Admits (fun s a ↦ s.perform {} a) (fun s a ↦ a.Ok s) { clock := 0 } acts) :
    (dispatcher {} 4).Run (callsOf acts) (dispatcherAfter acts) :=
  Machine.Run.replay (M := dispatcher {} 4) (fun _ _ hok ↦ ⟨hok, rfl⟩) acts (.init ⟨0, rfl⟩) h

/-- A webhook rule with a cooldown of ten seconds. -/
def tenSeconds : Rule where
  ruleID := "r"
  event := "track.confirmed"
  cooldownS := 10
  action := actionWebhook

/-- At `t` seconds a worker takes an event of one track and asks for its slot. -/
def arrives (t : ℕ) (w : Fin 4) : List (Act 4) :=
  [.tick (t * GoDuration.second), .take w { name := "track.confirmed", subject := "t" } [tenSeconds],
    .next w, .claim w, .begin w]

/-- Two deliveries of the track, the first of which times out twice, while the second succeeds. -/
def overlapping : List (Act 4) :=
  arrives 0 0 ++
    [.tick (30 * GoDuration.second), .attempt 0 0 (some "timeout"),
      .tick (32 * GoDuration.second), .wake 0,
      .tick (46 * GoDuration.second), .attempt 0 0 (some "timeout")] ++
    arrives 50 1 ++ [.attempt 1 200 none, .wake 0]

/-- If the first delivery succeeds in the end, nothing is lost. -/
theorem overlapping_kept_apart :
    Machine.Always (fun older x ↦ Spaced older x.pre x.act ∧ Held (x :: older) x.post)
      (callsOf (overlapping ++ [.attempt 0 200 none] ++ arrives 56 2)) :=
  (kept_apart_iff (run_dispatcherAfter (by decide)) (by decide)).mpr
    (by decide)

/-- **If it fails, its release discards the claim of the second**, and the target is alerted twice
within six seconds. -/
theorem late_failure_discards :
    let acts := overlapping ++ [.tick (55 * GoDuration.second), .attempt 0 0 (some "timeout"),
      .release 0] ++ arrives 56 2 ++ [.attempt 2 200 none]
    (dispatcher {} 4).Run (callsOf acts) (dispatcherAfter acts) ∧
      (dispatcherAfter acts).fired =
        [("r", 56 * GoDuration.second), ("r", 50 * GoDuration.second)] ∧
      ¬ Machine.Always (fun older x ↦ Spaced older x.pre x.act) (callsOf acts) :=
  ⟨run_dispatcherAfter (by decide), by decide, by decide⟩

end ClassG.Hooks
