import ClassG.Machine
import ClassG.Wifi.Hopper

/-!
# Peer coordination and the lock

With two receivers the spectrum is split between them.  While the *peer* is tracking a drone, its
part of the spectrum is hardly looked at, so `PlanState.reconcile` widens this receiver's plan to
the whole spectrum, and narrows it again when the peer is quiet.  A receiver that is tracking a
drone itself should keep it.

It does not always.  `reconcile` takes an escalated receiver for one whose peer is quiet: it does
not widen the plan, and it narrows a widened one.  A drone found on a channel of the wide plan alone
is lost that way.  `lock_kept_iff` says when locks are kept, and that two swaps of the plan are
always `minHoldS` apart, as the receiver measures time.
-/

set_option autoImplicit false

namespace ClassG.Wifi

open Double Machine

structure PlanState where
  /-- `choice.fallback`: the solo plan was chosen at the start. -/
  fallback : Bool
  split : List ChannelSpec
  solo : Option (List ChannelSpec)
  minHoldS : ℚ
  widened : Bool
  swaps : ℕ
  changedAt : Option ℚ

namespace PlanState

variable (sum : List ℚ → ℚ)

def new (fallback : Bool) (split : List ChannelSpec) (solo : Option (List ChannelSpec))
    (minHoldS : ℚ) : PlanState :=
  { fallback := fallback
    split := split
    solo := solo
    minHoldS := minHoldS
    widened := false
    swaps := 0
    changedAt := none }

def canWiden (p : PlanState) : Bool := p.solo.isSome && !p.fallback

/-- The last swap is less than `minHoldS` ago. -/
def holding (p : PlanState) (now : ℚ) : Bool :=
  match p.changedAt with
  | none => false
  | some changedAt => nearest (now - changedAt) < p.minHoldS

/-- `now` is the reading of the caller, and `time` the one that `is_escalated` takes. -/
def reconcile (p : PlanState) (hopper : ChannelHopper) (peerActive : Bool) (now time : ℚ) :
    Except String (PlanState × ChannelHopper × Bool) :=
  match p.solo with
  | none => .ok (p, hopper, false)
  | some solo =>
    if p.fallback then .ok (p, hopper, false)
    else
      let want := peerActive && !hopper.isEscalated time
      if want = p.widened then .ok (p, hopper, false)
      else if p.holding now then .ok (p, hopper, false)
      else
        match hopper.setChannels sum (if want then solo else p.split) with
        | .error e => .error e
        | .ok hopper =>
          .ok ({ p with widened := want, swaps := p.swaps + 1, changedAt := some now }, hopper, true)

/-- The plan will be narrowed although the hopper is locked to `c`, and `c` will not be in it. -/
def DropsAt (p : PlanState) (hopper : ChannelHopper) (now time : ℚ) (c : ℤ) : Prop :=
  hopper.EscalatedOn time c ∧ p.canWiden ∧ p.widened ∧ p.holding now = false ∧
    ∀ spec ∈ p.split, spec.channel ≠ c

variable {sum} {p p' : PlanState} {hopper hopper' : ChannelHopper} {peerActive swapped : Bool}
  {now time : ℚ}

/-- **What a call does.**  It leaves everything as it is, or it swaps the plan. -/
theorem reconcile_cases
    (hok : p.reconcile sum hopper peerActive now time = .ok (p', hopper', swapped)) :
    (swapped = false ∧ p' = p ∧ hopper' = hopper ∧
      (p.canWiden = false ∨ (peerActive && !hopper.isEscalated time) = p.widened ∨
        p.holding now)) ∨
    (swapped = true ∧ p.canWiden ∧ p.holding now = false ∧
      ∃ want : Bool, want = (peerActive && !hopper.isEscalated time) ∧ want ≠ p.widened ∧
        p' = { p with widened := want, swaps := p.swaps + 1, changedAt := some now } ∧
          ∃ solo, p.solo = some solo ∧
            hopper.setChannels sum (if want then solo else p.split) = .ok hopper') := by
  rw [reconcile] at hok
  split at hok
  · rename_i hsolo
    cases hok
    exact .inl ⟨rfl, rfl, rfl, .inl (by rw [canWiden, hsolo]; rfl)⟩
  rename_i solo hsolo
  split at hok
  · rename_i hfallback
    cases hok
    exact .inl ⟨rfl, rfl, rfl, .inl (by rw [canWiden, hfallback]; simp)⟩
  rename_i hfallback
  dsimp only at hok
  split at hok
  · rename_i hwant
    cases hok
    exact .inl ⟨rfl, rfl, rfl, .inr (.inl hwant)⟩
  rename_i hwant
  split at hok
  · rename_i hhold
    cases hok
    exact .inl ⟨rfl, rfl, rfl, .inr (.inr hhold)⟩
  rename_i hhold
  split at hok
  · nomatch hok
  · rename_i hset
    cases hok
    exact .inr ⟨rfl, by rw [canWiden, hsolo]; simpa using hfallback, by simpa using hhold,
      _, rfl, hwant, rfl, solo, hsolo, hset⟩

/-- The lock itself is left alone. -/
theorem reconcile_lock
    (hok : p.reconcile sum hopper peerActive now time = .ok (p', hopper', swapped)) :
    hopper'.lockedChannel = hopper.lockedChannel ∧
      hopper'.lockExpiresAt = hopper.lockExpiresAt := by
  rcases reconcile_cases hok with ⟨-, -, rfl, -⟩ | ⟨-, -, -, want, -, -, -, solo, -, hset⟩
  · exact ⟨rfl, rfl⟩
  · exact (ChannelHopper.setChannels_eq_ok hset).2

theorem reconcile_swaps
    (hok : p.reconcile sum hopper peerActive now time = .ok (p', hopper', swapped)) :
    swapped ↔ p'.swaps ≠ p.swaps := by
  rcases reconcile_cases hok with ⟨rfl, rfl, -, -⟩ | ⟨rfl, -, -, want, -, -, rfl, -⟩ <;> simp

/-- **When a swap takes the channel of a lock out of the plan.** -/
theorem reconcile_has_iff
    (hok : p.reconcile sum hopper peerActive now time = .ok (p', hopper', swapped)) {c : ℤ}
    (hc : hopper.EscalatedOn time c) :
    (swapped → hopper'.Has c) ↔ ¬p.DropsAt hopper now time c := by
  have hesc : hopper.isEscalated time = true := ChannelHopper.isEscalated_iff.mpr ⟨c, hc⟩
  rcases reconcile_cases hok with ⟨rfl, rfl, rfl, hwhy⟩ |
    ⟨rfl, hcan, hhold, want, hwant, hne, rfl, solo, hsolo, hset⟩
  · refine iff_of_true (by simp) ?_
    rintro ⟨-, hcan, hwide, hhold, -⟩
    rw [hesc, hcan, hwide, hhold] at hwhy
    simp at hwhy
  · -- The hopper is escalated, so the plan is narrowed.
    have hfalse : want = false := by rw [hwant, hesc]; simp
    have hwide : p.widened = true := by
      rw [hfalse] at hne
      exact Bool.eq_true_of_not_eq_false fun h ↦ hne h.symm
    have hsplit : hopper'.channels = p.split := by
      rw [(ChannelHopper.setChannels_eq_ok hset).1, hfalse]
      rfl
    rw [forall_prop_of_true rfl, ChannelHopper.Has, hsplit]
    constructor
    · rintro ⟨spec, hmem, hspec⟩ ⟨-, -, -, -, hno⟩
      exact hno spec hmem hspec
    · intro hdrops
      by_contra hno
      exact hdrops ⟨hc, hcan, hwide, hhold, fun spec hmem hspec ↦ hno ⟨spec, hmem, hspec⟩⟩

end PlanState

/-! ## The capture loop -/

namespace Receiver

/-- What the capture loop holds, and the last reading of its clock. -/
structure State where
  plan : PlanState
  hopper : ChannelHopper
  clock : ℚ

/-- The calls of the loop, with the readings of the clock and of the generator. -/
inductive Act
  /-- `plan.reconcile(hopper, peers.peers_active(now), now)` -/
  | reconcile (peerActive : Bool) (now time : ℚ)
  | nextChannel (time random : ℚ)
  | onDroneDetected (channel : ℤ) (time time' : ℚ)

/-- The readings of a call, in the order in which it takes them. -/
def Act.readings : Act → List ℚ
  | .reconcile _ now time => [now, time]
  | .nextChannel time _ => [time]
  | .onDroneDetected _ time time' => [time, time']

/-- The last reading of a call. -/
def Act.time : Act → ℚ
  | .reconcile _ _ time => time
  | .nextChannel time _ => time
  | .onDroneDetected _ _ time' => time'

variable (sum : List ℚ → ℚ)

/-- A call, whatever the peers and the air do.  A call that raises ends the loop. -/
def State.call (s : State) : Act → Except String State
  | .reconcile peerActive now time =>
    match s.plan.reconcile sum s.hopper peerActive now time with
    | .error e => .error e
    | .ok (plan, hopper, _) => .ok ⟨plan, hopper, time⟩
  | .nextChannel time random => .ok ⟨s.plan, s.hopper.nextChannel sum time random, time⟩
  | .onDroneDetected channel time time' =>
    .ok ⟨s.plan, s.hopper.onDroneDetected channel time time', time'⟩

/-- A drone is heard on the channel that the radio was tuned to, which is one of the plan. -/
def Act.Fits (a : Act) (s : State) : Prop :=
  match a with
  | .onDroneDetected channel _ _ => s.hopper.Has channel
  | _ => True

/-- The loop, from the moment its plan and its hopper are built.  The clock never goes back. -/
def machine : Machine State Act where
  init s :=
    (∃ fallback split solo minHoldS, s.plan = .new fallback split solo minHoldS) ∧
      ∃ hold every, ChannelHopper.new sum s.plan.split hold every = .ok s.hopper
  next s a s' := (s.clock :: a.readings).Pairwise (· ≤ ·) ∧ a.Fits s ∧ s.call sum a = .ok s'

/-! ## Keeping the lock -/

/-- What the step does while the hopper is locked to a channel: it does not swap the plan for one
without the channel, and the lock stays as it is, unless a drone is heard. -/
def KeepsLock (x : Step State Act) : Prop :=
  ∀ c, x.pre.hopper.EscalatedOn x.act.time c →
    match x.act with
    | .onDroneDetected .. => True
    | _ =>
      (x.post.plan.swaps ≠ x.pre.plan.swaps → x.post.hopper.Has c) ∧
        x.post.hopper.lockedChannel = some c ∧
          x.post.hopper.lockExpiresAt = x.pre.hopper.lockExpiresAt

/-- The call does not narrow the plan to one without the channel that the hopper is locked to. -/
def Spares (s : State) : Act → Prop
  | .reconcile _ now time => ∀ c, ¬s.plan.DropsAt s.hopper now time c
  | _ => True

/-- While the hopper is locked to a channel, the plan has it. -/
def Honoured (s : State) : Prop := ∀ c, s.hopper.EscalatedOn s.clock c → s.hopper.Has c

variable {sum} {s s' : State} {a : Act} {tr : List (Step State Act)}

theorem clock_le_time (hn : (machine sum).next s a s') : s.clock ≤ a.time := by
  obtain ⟨hclock, -, -⟩ := hn
  rcases a <;> exact List.rel_of_pairwise_cons hclock (by simp [Act.readings, Act.time])

theorem reconcile_next {peerActive : Bool} {now time : ℚ}
    (hn : (machine sum).next s (.reconcile peerActive now time) s') :
    ∃ swapped, s.plan.reconcile sum s.hopper peerActive now time =
      .ok (s'.plan, s'.hopper, swapped) ∧ s'.clock = time := by
  have hok : s.call sum (.reconcile peerActive now time) = .ok s' := hn.2.2
  rw [State.call] at hok
  split at hok
  · nomatch hok
  · rename_i swapped heq
    cases hok
    exact ⟨swapped, heq, rfl⟩

/-- The step lemma: a step keeps the lock exactly if it spares it. -/
theorem keepsLock_iff (hH : Honoured s) (hn : (machine sum).next s a s') :
    KeepsLock ⟨s, a, s'⟩ ↔ Spares s a := by
  rcases a with ⟨peerActive, now, time⟩ | ⟨time, random⟩ | ⟨channel, time, time'⟩
  · obtain ⟨swapped, hok, -⟩ := reconcile_next hn
    obtain ⟨hlock, hend⟩ := PlanState.reconcile_lock hok
    constructor
    · intro hkeeps c hdrops
      exact (PlanState.reconcile_has_iff hok hdrops.1).mp
        (fun hswap ↦ (hkeeps c hdrops.1).1 ((PlanState.reconcile_swaps hok).mp hswap)) hdrops
    · intro hspares c hc
      refine ⟨fun hswap ↦ ?_, hlock.trans hc.1, hend⟩
      exact (PlanState.reconcile_has_iff hok hc).mpr (hspares c)
        ((PlanState.reconcile_swaps hok).mpr hswap)
  · cases hn.2.2
    refine iff_of_true (fun c hc ↦ ⟨fun hne ↦ absurd rfl hne, ?_⟩) trivial
    obtain ⟨-, hend, hlock | ⟨-, c', hc', hno⟩⟩ :=
      s.hopper.nextChannel_frame sum time random
    · exact ⟨hlock.trans hc.1, hend⟩
    · exact absurd (hH c' (hc'.earlier (clock_le_time hn))) hno
  · exact iff_of_true (fun _ _ ↦ trivial) trivial

theorem honoured_next (hH : Honoured s) (hspares : Spares s a) (hn : (machine sum).next s a s') :
    Honoured s' := by
  have hle := clock_le_time hn
  rcases a with ⟨peerActive, now, time⟩ | ⟨time, random⟩ | ⟨channel, time, time'⟩
  · obtain ⟨swapped, hok, hclock⟩ := reconcile_next hn
    obtain ⟨hlock, hend⟩ := PlanState.reconcile_lock hok
    intro c hc
    have hpre : s.hopper.EscalatedOn time c := ⟨hlock ▸ hc.1, hclock ▸ hend ▸ hc.2⟩
    rcases PlanState.reconcile_cases hok with ⟨-, -, hsame, -⟩ | ⟨rfl, -⟩
    · rw [hsame]
      exact hH c (hpre.earlier hle)
    · exact (PlanState.reconcile_has_iff hok hpre).mpr (hspares c) rfl
  · cases hn.2.2
    intro c hc
    obtain ⟨hch, hend, hlock⟩ := s.hopper.nextChannel_frame sum time random
    rcases hlock with hlock | ⟨hnone, -⟩
    · obtain ⟨spec, hmem, hspec⟩ := hH c ⟨hlock ▸ hc.1, hle.trans_lt (hend ▸ hc.2)⟩
      exact ⟨spec, hch.symm ▸ hmem, hspec⟩
    · exact absurd (hnone.symm.trans hc.1) (by simp)
  · have hfits : s.hopper.Has channel := hn.2.1
    cases hn.2.2
    intro c hc
    obtain ⟨hch, hlock⟩ := s.hopper.onDroneDetected_frame channel time time'
    obtain rfl : channel = c := Option.some.inj (hlock.symm.trans hc.1)
    obtain ⟨spec, hmem, hspec⟩ := hfits
    exact ⟨spec, hch.symm ▸ hmem, hspec⟩

theorem honoured_init (h : (machine sum).init s) : Honoured s := by
  obtain ⟨-, hold, every, hnew⟩ := h
  intro c hc
  exact absurd ((ChannelHopper.new_eq_ok hnew).2.symm.trans hc.1) (by simp)

/-! ## The time between two swaps -/

/-- When the plan was swapped, if the step did. -/
def swapTime (x : Step State Act) : Option ℚ :=
  match x.act with
  | .reconcile _ now _ => if x.post.plan.swaps = x.pre.plan.swaps then none else some now
  | _ => none

/-- When the plan was swapped, latest first. -/
def swapTimes (tr : List (Step State Act)) : List ℚ := tr.filterMap swapTime

/-- What the plan remembers of its swaps. -/
structure Timed (tr : List (Step State Act)) (s : State) : Prop where
  changedAt : s.plan.changedAt = (swapTimes tr).head?
  descending : (s.clock :: swapTimes tr).Pairwise (· ≥ ·)
  apart : (swapTimes tr).Pairwise
    (fun later earlier ↦ s.plan.minHoldS ≤ nearest (later - earlier))

theorem Timed.init (h : (machine sum).init s) : Timed [] s := by
  obtain ⟨⟨fallback, split, solo, minHoldS, hplan⟩, -⟩ := h
  exact ⟨by rw [hplan]; rfl, by simp [swapTimes], by simp [swapTimes]⟩

/-- A step that does not swap the plan. -/
theorem Timed.skip {x : Step State Act} (h : Timed tr x.pre) (hplan : x.post.plan = x.pre.plan)
    (hclock : x.pre.clock ≤ x.post.clock) : Timed (x :: tr) x.post := by
  have hnone : swapTime x = none := by
    rw [swapTime, hplan]
    split
    · exact if_pos rfl
    · rfl
  have htimes : swapTimes (x :: tr) = swapTimes tr := List.filterMap_cons_none hnone
  obtain ⟨hchanged, hdesc, hapart⟩ := h
  rw [List.pairwise_cons] at hdesc
  refine ⟨by rw [htimes, hplan, hchanged], ?_, by rw [htimes, hplan]; exact hapart⟩
  rw [htimes, List.pairwise_cons]
  exact ⟨fun t ht ↦ (hdesc.1 t ht).trans hclock, hdesc.2⟩

theorem Timed.next (h : Timed tr s) (hn : (machine sum).next s a s') :
    Timed (⟨s, a, s'⟩ :: tr) s' := by
  have hle := clock_le_time hn
  rcases a with ⟨peerActive, now, time⟩ | ⟨time, random⟩ | ⟨channel, time, time'⟩
  · obtain ⟨swapped, hok, hclock⟩ := reconcile_next hn
    rcases PlanState.reconcile_cases hok with ⟨-, hsame, -⟩ |
      ⟨rfl, -, hhold, want, -, -, hplan, -⟩
    · exact h.skip hsame (hle.trans_eq hclock.symm)
    · obtain ⟨hchanged, hdesc, hapart⟩ := h
      have hnow : s.clock ≤ now ∧ now ≤ time := by
        have hreadings : [s.clock, now, time].Pairwise (· ≤ ·) := hn.1
        simp only [List.pairwise_cons, List.mem_cons, forall_eq_or_imp] at hreadings
        exact ⟨hreadings.1.1, hreadings.2.1.1⟩
      have htimes : swapTimes (⟨s, .reconcile peerActive now time, s'⟩ :: tr) =
          now :: swapTimes tr :=
        List.filterMap_cons_some (if_neg (by rw [hplan]; exact Nat.succ_ne_self _))
      rw [List.pairwise_cons] at hdesc
      have hbefore : ∀ t ∈ swapTimes tr, t ≤ now := fun t ht ↦ (hdesc.1 t ht).trans hnow.1
      have hhead : ∀ t ∈ swapTimes tr, s.plan.minHoldS ≤ nearest (now - t) := by
        intro t ht
        rw [PlanState.holding, hchanged] at hhold
        -- The last swap is the latest, and even that one is long enough ago.
        rcases hlist : swapTimes tr with _ | ⟨last, earlier⟩
        · rw [hlist] at ht
          nomatch ht
        · rw [hlist] at hhold ht hdesc
          have hlast : t ≤ last := by
            rcases List.mem_cons.mp ht with rfl | hmem
            · exact le_rfl
            · exact (List.pairwise_cons.mp hdesc.2).1 t hmem
          have henough : s.plan.minHoldS ≤ nearest (now - last) := not_lt.mp (by simpa using hhold)
          exact henough.trans (nearest_mono (by linarith))
      refine ⟨by rw [htimes, hplan]; rfl, ?_, ?_⟩
      · rw [htimes, List.pairwise_cons, List.pairwise_cons, hclock]
        exact ⟨List.forall_mem_cons.mpr ⟨hnow.2, fun t ht ↦ (hbefore t ht).trans hnow.2⟩,
          hbefore, hdesc.2⟩
      · rw [htimes, List.pairwise_cons, hplan]
        exact ⟨hhead, hapart⟩
  · cases hn.2.2
    exact h.skip rfl hle
  · cases hn.2.2
    exact h.skip rfl hle

/-- **Which locks are kept, and how far apart the swaps are.**  In every run of the capture loop
each step keeps the lock if and only if no call of `reconcile` narrows the plan to one without the
channel that the receiver is locked to.  Any two swaps are at least `minHoldS` apart. -/
theorem lock_kept_iff (h : Run (machine sum) tr s) :
    (Always (fun _ x ↦ KeepsLock x) tr ↔ Always (fun _ x ↦ Spares x.pre x.act) tr) ∧
      (swapTimes tr).Pairwise
        (fun later earlier ↦ s.plan.minHoldS ≤ nearest (later - earlier)) := by
  refine ⟨?_, (h.trace_invariant_of (C := fun _ _ ↦ True) (fun _ _ ↦ trivial)
    (fun _ ↦ Timed.init) fun _ _ _ _ _ hi _ hn ↦ hi.next hn).apart⟩
  have hstep : ∀ {tr s}, Run (machine sum) tr s →
      Always (fun _ x ↦ Spares x.pre x.act) tr → Honoured s := by
    intro tr s hr hspares
    induction hr with
    | init hi => exact honoured_init hi
    | step a s' hr hn ih => exact honoured_next (ih hspares.2) hspares.1 hn
  induction h with
  | init hi => exact Iff.rfl
  | step a s' hr hn ih =>
    constructor
    · rintro ⟨hkeeps, hall⟩
      have hspares := ih.mp hall
      exact ⟨(keepsLock_iff (hstep hr hspares) hn).mp hkeeps, hspares⟩
    · rintro ⟨hspares, hall⟩
      exact ⟨(keepsLock_iff (hstep hr hall) hn).mpr hspares, ih.mpr hall⟩

/-- A receiver whose part of the spectrum is channel 6, and which may widen it by channel 36. -/
def primary : State where
  plan := .new false [⟨6, 2437, 1⟩] (some [⟨6, 2437, 1⟩, ⟨36, 5180, 1⟩]) 30
  hopper :=
    { channels := [⟨6, 2437, 1⟩]
      nonempty := by simp
      escalationHoldS := 30
      escalationScanEvery := 4
      stats := ⟨fun _ ↦ 0, 0, 0⟩
      lockedChannel := none
      lockExpiresAt := 0
      dwellsSinceScan := 0
      scanning := false
      current := ⟨6, 2437, 1⟩
      cumulative := ChannelHopper.cumulate 1 0 [⟨6, 2437, 1⟩] }
  clock := 100

/-- The peer is busy, so the plan is widened; then a drone is heard on channel 36. -/
def tracking : State where
  plan := { primary.plan with widened := true, swaps := 1, changedAt := some 100 }
  hopper :=
    { primary.hopper with
      channels := [⟨6, 2437, 1⟩, ⟨36, 5180, 1⟩]
      nonempty := by simp
      cumulative := ChannelHopper.cumulate 2 0 [⟨6, 2437, 1⟩, ⟨36, 5180, 1⟩] }
  clock := 100

def locked : State :=
  { tracking with hopper := tracking.hopper.onDroneDetected 36 101 101, clock := 101 }

theorem init_primary : (machine List.sum).init primary := by
  refine ⟨⟨_, _, _, _, rfl⟩, 30, 4, ?_⟩
  simp [ChannelHopper.new, ChannelHopper.rebuildWeights, primary, PlanState.new]

theorem next_tracking : (machine List.sum).next primary (.reconcile true 100 100) tracking := by
  refine ⟨by decide, trivial, ?_⟩
  simp [State.call, PlanState.reconcile, primary, tracking, PlanState.new, PlanState.holding,
    ChannelHopper.isEscalated, ChannelHopper.setChannels, ChannelHopper.rebuildWeights]
  norm_num

theorem next_locked : (machine List.sum).next tracking (.onDroneDetected 36 101 101) locked :=
  ⟨by decide, ⟨⟨36, 5180, 1⟩, by simp [tracking], rfl⟩, rfl⟩

/-- Half a minute after it was widened the plan is narrowed, whatever the hopper is locked to. -/
def narrowed : State where
  plan := { locked.plan with widened := false, swaps := 2, changedAt := some 130 }
  hopper :=
    { locked.hopper with
      channels := [⟨6, 2437, 1⟩]
      nonempty := by simp
      cumulative := ChannelHopper.cumulate 1 0 [⟨6, 2437, 1⟩] }
  clock := 130

theorem next_narrowed : (machine List.sum).next locked (.reconcile false 130 130) narrowed := by
  have h30 : nearest 30 = 30 := by
    exact_mod_cast nearest_of_representable (representable_natCast (n := 30) (by norm_num))
  refine ⟨by decide, trivial, ?_⟩
  rw [State.call, PlanState.reconcile]
  norm_num [locked, tracking, primary, narrowed, PlanState.new, PlanState.holding, h30,
    ChannelHopper.setChannels, ChannelHopper.rebuildWeights]

theorem narrowed_run : ∃ tr, Run (machine List.sum)
    (⟨locked, .reconcile false 130 130, narrowed⟩ :: tr) narrowed :=
  ⟨_, .step _ _ (.step _ _ (.step _ _ (.init init_primary) next_tracking) next_locked)
    next_narrowed⟩

theorem not_keepsLock_narrowed : ¬KeepsLock ⟨locked, .reconcile false 130 130, narrowed⟩ := by
  intro hkeeps
  have h131 : nearest (101 + 30) = 131 := by
    have := nearest_of_representable (representable_natCast (n := 131) (by norm_num))
    norm_num at this ⊢
    exact this
  have hlock : locked.hopper.EscalatedOn 130 36 := by
    refine ⟨rfl, ?_⟩
    show (130 : ℚ) < nearest (101 + 30)
    rw [h131]
    norm_num
  obtain ⟨spec, hmem, hspec⟩ := (hkeeps 36 hlock).1 (by decide)
  rw [show narrowed.hopper.channels = [⟨6, 2437, 1⟩] from rfl, List.mem_singleton] at hmem
  rw [hmem] at hspec
  nomatch hspec

theorem lock_kept_iff_narrowed : ∃ tr s, Run (machine List.sum) tr s ∧
    ¬Always (fun _ x ↦ Spares x.pre x.act) tr := by
  obtain ⟨tr, hrun⟩ := narrowed_run
  exact ⟨_, _, hrun, fun hspares ↦
    not_keepsLock_narrowed ((lock_kept_iff hrun).1.mpr hspares).1⟩

/-- The lock on channel 36 would last until second 131, and at second 130 the plan is narrowed. -/
theorem lock_dropped : ∃ tr s, Run (machine List.sum) tr s ∧
    ¬Always (fun _ x ↦ KeepsLock x) tr := by
  obtain ⟨tr, hrun⟩ := narrowed_run
  exact ⟨_, _, hrun, fun hkeeps ↦ not_keepsLock_narrowed hkeeps.1⟩

end Receiver

end ClassG.Wifi
