import ClassG.Rounds
import ClassG.Wifi.Hopper

/-!
# Runs of the channel hopper

What a hopper does over time, from the moment it is built: channels are chosen, drones are heard and
plans are swapped, in any order.

While it stays locked to a channel, every `escalationScanEvery`-th dwell looks elsewhere, however
often the drone is heard in between: `dwells_of_escalated`.

A plan that `set_channels` refuses because of its weights has already been taken for the channels of
the hopper by then, and only its weights are not.  `installed_iff` says when that does not happen,
and that the channels chosen are then those of the last plan that was not refused.
-/

set_option autoImplicit false

namespace ClassG.Wifi

open Double Machine

namespace ChannelHopper

variable (sum : List ℚ → ℚ)

/-! ## Plans that are refused -/

/-- `set_channels`, with what it leaves of the hopper where it raises: the plan is assigned before
the weights are looked at. -/
def setChannelsOrRaise (h : ChannelHopper) (channels : List ChannelSpec) :
    Option String × ChannelHopper :=
  if hne : channels ≠ [] then
    let h := { h with channels := channels, nonempty := hne }
    match h.rebuildWeights sum with
    | .error e => (some e, h)
    | .ok h => (none, h)
  else (some "hopper needs at least one channel", h)

variable {sum} {h h' : ChannelHopper} {channels : List ChannelSpec}

/-- The plans that are not refused are those of `setChannels`. -/
theorem setChannelsOrRaise_eq_none :
    h.setChannelsOrRaise sum channels = (none, h') ↔ h.setChannels sum channels = .ok h' := by
  rw [setChannelsOrRaise, setChannels]
  by_cases hne : channels ≠ []
  · rw [dif_pos hne, dif_pos hne]
    dsimp only
    split <;> rename_i heq <;> simp [heq]
  · rw [dif_neg hne, dif_neg hne]
    simp

theorem cumulate_map_snd (total acc : ℚ) (channels : List ChannelSpec) :
    (cumulate total acc channels).map Prod.snd = channels := by
  induction channels generalizing acc with
  | nil => rfl
  | cons spec rest ih => exact congrArg (spec :: ·) (ih _)

variable (sum) in
/-- **What `set_channels` does.** -/
theorem setChannelsOrRaise_cases (h : ChannelHopper) (channels : List ChannelSpec) :
    (∃ hne, 0 < sum (channels.map ChannelSpec.weight) ∧
      h.setChannelsOrRaise sum channels = (none, { h with
        channels := channels
        nonempty := hne
        cumulative := cumulate (sum (channels.map ChannelSpec.weight)) 0 channels })) ∨
      (∃ e, channels = [] ∧ h.setChannelsOrRaise sum channels = (some e, h)) ∨
      ∃ e hne, ¬0 < sum (channels.map ChannelSpec.weight) ∧
        h.setChannelsOrRaise sum channels =
          (some e, { h with channels := channels, nonempty := hne }) := by
  rw [setChannelsOrRaise]
  by_cases hne : channels ≠ []
  · rw [dif_pos hne]
    dsimp only [rebuildWeights]
    by_cases htotal : sum (channels.map ChannelSpec.weight) ≤ 0
    · rw [if_pos htotal]
      exact .inr (.inr ⟨_, hne, not_lt.mpr htotal, rfl⟩)
    · rw [if_neg htotal]
      exact .inl ⟨hne, not_le.mp htotal, rfl⟩
  · rw [dif_neg hne]
    exact .inr (.inl ⟨_, not_not.mp hne, rfl⟩)

/-! ## What is chosen -/

theorem mem_of_firstReaching {r acc : ℚ} {spec : ChannelSpec}
    (h : firstReaching r acc channels = some spec) : spec ∈ channels := by
  induction channels generalizing acc with
  | nil => cases h
  | cons first rest ih =>
    rw [firstReaching] at h
    split at h
    · cases h
      exact List.mem_cons_self
    · exact List.mem_cons_of_mem _ (ih h)

/-- Where the plan has another channel, another one is picked. -/
theorem pickExcluding_ne {c : ℤ} (random : ℚ) (hother : ∃ spec ∈ h.channels, spec.channel ≠ c) :
    (h.pickExcluding sum (some c) random).channel ≠ c := by
  have hpool : ∀ {spec}, spec ∈ h.channels.filter (fun spec ↦ some spec.channel ≠ some c) →
      spec.channel ≠ c := by
    intro spec hspec
    simpa using (List.mem_filter.mp hspec).2
  have hne : h.channels.filter (fun spec ↦ some spec.channel ≠ some c) ≠ [] := by
    obtain ⟨spec, hmem, hspec⟩ := hother
    exact List.ne_nil_of_mem (List.mem_filter.mpr ⟨hmem, by simpa using hspec⟩)
  rw [pickExcluding]
  dsimp only
  rw [dif_pos hne]
  split
  · exact hpool (List.head_mem hne)
  · rcases hpick : firstReaching _ 0 _ with _ | spec
    · exact hpool (List.getLast_mem hne)
    · exact hpool (mem_of_firstReaching hpick)

theorem pickExcluding_mem (h : ChannelHopper) (exclude : Option ℤ) (random : ℚ) :
    h.pickExcluding sum exclude random ∈ h.channels := by
  rw [pickExcluding]
  dsimp only
  split
  · rename_i hne
    split
    · exact List.mem_of_mem_filter (List.head_mem hne)
    · rcases hpick : firstReaching _ 0 _ with _ | spec
      · exact List.mem_of_mem_filter (List.getLast_mem hne)
      · exact List.mem_of_mem_filter (mem_of_firstReaching hpick)
  · exact List.head_mem h.nonempty

/-- A draw from the whole plan is a draw from what the weights were built for. -/
theorem sweep_mem {plan : List ChannelSpec} (hplan : h.channels = plan)
    (hcumulative : h.cumulative.map Prod.snd = plan) (random : ℚ) :
    (h.sweep random).current ∈ plan := by
  rw [sweep]
  dsimp only
  rcases hdrawn : h.cumulative.find? _ with _ | entry
  · exact hplan ▸ List.getLast_mem h.nonempty
  · exact hcumulative ▸ List.mem_map_of_mem (List.mem_of_find?_eq_some hdrawn)

/-! ## A dwell of a locked hopper -/

/-- Locked to a channel of the plan, which has another one. -/
structure LockedTo (h : ChannelHopper) (time : ℚ) (c : ℤ) : Prop where
  escalated : h.EscalatedOn time c
  has : h.Has c
  other : ∃ spec ∈ h.channels, spec.channel ≠ c

theorem claimScanSlot_eq (hevery : 2 ≤ h.escalationScanEvery) :
    h.claimScanSlot =
      if h.escalationScanEvery ≤ h.dwellsSinceScan + 1 then (true, { h with dwellsSinceScan := 0 })
      else (false, { h with dwellsSinceScan := h.dwellsSinceScan + 1 }) :=
  if_neg (by omega)

variable (sum) in
/-- **A dwell of a locked hopper** looks elsewhere if the counter has come round, and else it is on
the channel of the lock. -/
theorem nextChannel_of_lockedTo {time : ℚ} {c : ℤ} (hc : h.LockedTo time c)
    (hevery : 2 ≤ h.escalationScanEvery) (random : ℚ) :
    if h.escalationScanEvery ≤ h.dwellsSinceScan + 1 then
      (h.nextChannel sum time random).dwellsSinceScan = 0 ∧
        (h.nextChannel sum time random).scanning = true ∧
          (h.nextChannel sum time random).current.channel ≠ c
    else
      (h.nextChannel sum time random).dwellsSinceScan = h.dwellsSinceScan + 1 ∧
        (h.nextChannel sum time random).scanning = false ∧
          (h.nextChannel sum time random).current.channel = c := by
  have hesc : h.isEscalated time := isEscalated_iff.mpr ⟨c, hc.escalated⟩
  have hlock : h.lockedChannel = some c := hc.escalated.1
  rw [nextChannel, if_pos hesc, claimScanSlot_eq hevery]
  by_cases hturn : h.escalationScanEvery ≤ h.dwellsSinceScan + 1
  · rw [if_pos hturn, if_pos hturn]
    dsimp only
    rw [hlock]
    exact ⟨rfl, rfl, pickExcluding_ne (h := { h with dwellsSinceScan := 0 }) random hc.other⟩
  · rw [if_neg hturn, if_neg hturn]
    dsimp only
    rcases hfind : List.find? _ h.channels with _ | spec
    · obtain ⟨spec, hmem, hspec⟩ := hc.has
      have hno := List.find?_eq_none.mp hfind spec hmem
      rw [hlock, hspec] at hno
      exact absurd (decide_eq_true rfl) hno
    · have hspec := List.find?_some hfind
      rw [hlock] at hspec
      exact ⟨rfl, rfl, Option.some.inj (of_decide_eq_true hspec)⟩

variable (sum) in
theorem LockedTo.nextChannel {time' : ℚ} {c : ℤ} (hc : h.LockedTo time' c) (time random : ℚ) :
    (h.nextChannel sum time random).LockedTo time' c := by
  obtain ⟨hch, hend, hlock⟩ := h.nextChannel_frame sum time random
  obtain ⟨⟨hlocked, hbefore⟩, hhas, hother⟩ := hc
  refine ⟨⟨?_, hend.symm ▸ hbefore⟩, ?_, hch.symm ▸ hother⟩
  · rcases hlock with hlock | ⟨-, c', ⟨hlocked', -⟩, hno⟩
    · exact hlock.trans hlocked
    · obtain rfl : c = c' := Option.some.inj (hlocked.symm.trans hlocked')
      exact absurd hhas hno
  · obtain ⟨spec, hmem, hspec⟩ := hhas
    exact ⟨spec, hch.symm ▸ hmem, hspec⟩

/-- The counter of a hopper that looks elsewhere every so often. -/
def InRange (h : ChannelHopper) (every : ℤ) : Prop :=
  h.escalationScanEvery = every ∧ 0 ≤ h.dwellsSinceScan ∧ h.dwellsSinceScan < every

theorem claimScanSlot_inRange {every : ℤ} (hevery : 2 ≤ every) (hr : h.InRange every) :
    h.claimScanSlot.2.InRange every := by
  obtain ⟨hsame, hlow, hhigh⟩ := hr
  rw [claimScanSlot]
  split_ifs
  · exact ⟨hsame, hlow, hhigh⟩
  · exact ⟨hsame, le_rfl, by dsimp only; omega⟩
  · exact ⟨hsame, by dsimp only; omega, by dsimp only; omega⟩

theorem nextChannel_inRange {every : ℤ} (hevery : 2 ≤ every) (hr : h.InRange every)
    (time random : ℚ) : (h.nextChannel sum time random).InRange every := by
  have hclaim := claimScanSlot_inRange hevery hr
  rw [nextChannel]
  split
  · split <;> rename_i heq <;> rw [heq] at hclaim
    · exact hclaim
    · split <;> exact hclaim
  · exact hr

theorem onDroneDetected_inRange {every : ℤ} (hevery : 2 ≤ every) (hr : h.InRange every)
    (channel : ℤ) (time time' : ℚ) : (h.onDroneDetected channel time time').InRange every := by
  rw [onDroneDetected]
  dsimp only
  split
  · exact hr
  · exact ⟨hr.1, le_rfl, by dsimp only; omega⟩

theorem setChannelsOrRaise_inRange {every : ℤ} (hr : h.InRange every)
    (channels : List ChannelSpec) : (h.setChannelsOrRaise sum channels).2.InRange every := by
  rcases setChannelsOrRaise_cases sum h channels with ⟨_, -, hcall⟩ | ⟨_, -, hcall⟩ |
    ⟨_, _, -, hcall⟩ <;> rw [hcall] <;> exact hr

theorem new_inRange {hold : ℚ} {every : ℤ} (hevery : 2 ≤ every)
    (hnew : new sum channels hold every = .ok h) : h.InRange every := by
  rw [new] at hnew
  split at hnew
  · rw [rebuildWeights] at hnew
    split at hnew
    · cases hnew
    · cases hnew
      exact ⟨rfl, le_rfl, by dsimp only; omega⟩
  · cases hnew

/-! ## Runs -/

/-- A call of the capture loop, with the readings of the clock and of the generator. -/
inductive Call
  | nextChannel (time random : ℚ)
  | onDroneDetected (channel : ℤ) (time time' : ℚ)
  | setChannels (channels : List ChannelSpec)

variable (sum) in
def call (h : ChannelHopper) : Call → ChannelHopper
  | .nextChannel time random => h.nextChannel sum time random
  | .onDroneDetected channel time time' => h.onDroneDetected channel time time'
  | .setChannels channels => (h.setChannelsOrRaise sum channels).2

variable (sum) in
/-- A hopper from the moment it is built with a plan. -/
def machine (plan : List ChannelSpec) (hold : ℚ) (every : ℤ) : Machine ChannelHopper Call where
  init h := new sum plan hold every = .ok h
  next h a h' := h' = h.call sum a

variable {plan : List ChannelSpec} {hold : ℚ} {every : ℤ} {tr : List (Step ChannelHopper Call)}

theorem run_inRange (hevery : 2 ≤ every) (hr : Run (machine sum plan hold every) tr h) :
    h.InRange every := by
  refine hr.invariant (fun _ ↦ new_inRange hevery) ?_
  rintro h a _ hi rfl
  cases a with
  | nextChannel time random => exact nextChannel_inRange hevery hi time random
  | onDroneDetected channel time time' =>
    exact onDroneDetected_inRange hevery hi channel time time'
  | setChannels channels => exact setChannelsOrRaise_inRange hi channels

/-! ## The dwells of a locked hopper -/

/-- The call finds the hopper locked to the channel, and does not lock it to another one. -/
def Call.StaysOn (c : ℤ) (h : ChannelHopper) : Call → Prop
  | .nextChannel time _ => h.LockedTo time c
  | .onDroneDetected channel time _ => channel = c ∧ h.LockedTo time c
  | .setChannels _ => True

/-- A channel is chosen. -/
def isDwell (x : Step ChannelHopper Call) : Bool :=
  match x.act with
  | .nextChannel .. => true
  | _ => false

/-- A channel is chosen to look elsewhere. -/
def isScan (x : Step ChannelHopper Call) : Bool := isDwell x && x.post.scanning

/-- The step lemma: the counter goes round with the dwells, and with nothing else. -/
theorem counts_of_staysOn {c : ℤ} {a : Call} (hevery : 2 ≤ every) (hi : h.InRange every)
    (hstays : a.StaysOn c h) :
    Counts isDwell isScan dwellsSinceScan every ⟨h, a, h.call sum a⟩ := by
  obtain ⟨rfl, -, hhigh⟩ := hi
  cases a with
  | nextChannel time random =>
    have hdwell := nextChannel_of_lockedTo sum hstays hevery random
    rw [Counts, isScan]
    simp only [isDwell, call, Bool.true_and, if_true]
    split at hdwell
    · rw [hdwell.1, hdwell.2.1, if_pos rfl]
      omega
    · rw [hdwell.1, hdwell.2.1]
      simp
  | onDroneDetected channel time time' =>
    obtain ⟨-, hlocked⟩ := hstays
    have hesc : h.isEscalated time := isEscalated_iff.mpr ⟨c, hlocked.escalated⟩
    simp [Counts, isScan, isDwell, call, onDroneDetected, hesc]
  | setChannels channels =>
    rcases setChannelsOrRaise_cases sum h channels with ⟨_, -, hcall⟩ |
      ⟨_, -, hcall⟩ | ⟨_, _, -, hcall⟩ <;> simp [Counts, isScan, isDwell, call, hcall]

/-- Where the dwell is. -/
theorem dwell_of_staysOn {c : ℤ} {a : Call} (hevery : 2 ≤ h.escalationScanEvery)
    (hstays : a.StaysOn c h) (hdwell : isDwell ⟨h, a, h.call sum a⟩) :
    if isScan ⟨h, a, h.call sum a⟩ then (h.call sum a).current.channel ≠ c
    else (h.call sum a).current.channel = c := by
  cases a with
  | nextChannel time random =>
    have hnext := nextChannel_of_lockedTo sum hstays hevery random
    simp only [isScan, isDwell, call, Bool.true_and]
    split at hnext
    · rw [hnext.2.1, if_pos rfl]
      exact hnext.2.2
    · rw [hnext.2.1, if_neg (by simp)]
      exact hnext.2.2
  | onDroneDetected channel time time' => cases hdwell
  | setChannels channels => cases hdwell

/-- **While a hopper stays locked, each stretch of as many dwells as the rule says has one that looks
elsewhere**, and all others are on the channel of the lock, however often the drone is heard. -/
theorem dwells_of_escalated (hevery : 2 ≤ every) {c : ℤ}
    {stretch older : List (Step ChannelHopper Call)}
    (hr : Run (machine sum plan hold every) (stretch ++ older) h)
    (hstays : ∀ x ∈ stretch, x.act.StaysOn c x.pre)
    (hdwells : (stretch.countP isDwell : ℤ) = every) :
    stretch.countP isScan = 1 ∧
      ∀ x ∈ stretch,
        if isDwell x then
          if isScan x then x.post.current.channel ≠ c else x.post.current.channel = c
        else x.post.dwellsSinceScan = x.pre.dwellsSinceScan := by
  have hstep : ∀ pre a post, ⟨pre, a, post⟩ ∈ stretch →
      pre.InRange every ∧ post = pre.call sum a := by
    intro pre a post hx
    obtain ⟨tr, -, hpre, hnext⟩ := hr.of_mem (List.mem_append_left older hx)
    exact ⟨run_inRange hevery hpre, hnext⟩
  have hcount : ∀ x ∈ stretch, Counts isDwell isScan dwellsSinceScan every x := by
    rintro ⟨pre, a, post⟩ hx
    obtain ⟨hi, rfl⟩ := hstep _ _ _ hx
    exact counts_of_staysOn hevery hi (hstays _ hx)
  refine ⟨hr.one_turn hcount (fun hr ↦ (run_inRange hevery hr).2) hdwells, ?_⟩
  rintro ⟨pre, a, post⟩ hx
  have hc := hcount _ hx
  obtain ⟨hi, rfl⟩ := hstep _ _ _ hx
  split
  · rename_i hdwell
    exact dwell_of_staysOn (hi.1 ▸ hevery) (hstays _ hx) hdwell
  · rename_i hdwell
    simpa [Counts, isScan, hdwell] using hc

/-- Two channels of equal weight. -/
def sixAndOne : ChannelHopper where
  channels := [⟨6, 2437, 1⟩, ⟨1, 2412, 1⟩]
  nonempty := by simp
  escalationHoldS := 30
  escalationScanEvery := 2
  stats := ⟨fun _ ↦ 0, 0, 0⟩
  lockedChannel := none
  lockExpiresAt := 0
  dwellsSinceScan := 0
  scanning := false
  current := ⟨6, 2437, 1⟩
  cumulative := cumulate 2 0 [⟨6, 2437, 1⟩, ⟨1, 2412, 1⟩]

theorem init_sixAndOne : (machine List.sum sixAndOne.channels 30 2).init sixAndOne := by
  simp [machine, new, rebuildWeights, sixAndOne]
  norm_num

/-- The drone has been heard on channel 6, and is heard there again before two dwells. -/
def heardAgain : List Call :=
  [.onDroneDetected 6 1 1, .nextChannel 1 0, .nextChannel 2 0]

theorem heardAgain_stays : ∀ x ∈ replaySteps (call List.sum)
    (sixAndOne.onDroneDetected 6 0 0) heardAgain [], x.act.StaysOn 6 x.pre := by
  have h30 : nearest 30 = 30 := by
    exact_mod_cast nearest_of_representable (representable_natCast (n := 30) (by norm_num))
  have h31 : nearest 31 = 31 := by
    exact_mod_cast nearest_of_representable (representable_natCast (n := 31) (by norm_num))
  have hsix : ∃ spec ∈ sixAndOne.channels, spec.channel = 6 := ⟨⟨6, 2437, 1⟩, by simp [sixAndOne]⟩
  have hone : ∃ spec ∈ sixAndOne.channels, spec.channel ≠ 6 := ⟨⟨1, 2412, 1⟩, by simp [sixAndOne]⟩
  have hfirst : (sixAndOne.onDroneDetected 6 0 0).LockedTo 1 6 :=
    ⟨⟨rfl, by norm_num [onDroneDetected, isEscalated, sixAndOne, h30]⟩, hsix, hone⟩
  have hsecond : ((sixAndOne.onDroneDetected 6 0 0).onDroneDetected 6 1 1).LockedTo 2 6 := by
    refine ⟨?_, ?_, ?_⟩ <;>
      norm_num [onDroneDetected, isEscalated, sixAndOne, h30, h31, EscalatedOn, Has]
  have hthird := hsecond.nextChannel List.sum 1 0
  intro x hx
  simp only [replaySteps, heardAgain, call, List.mem_cons, List.not_mem_nil, or_false] at hx
  rcases hx with rfl | rfl | rfl
  · exact hthird
  · exact ⟨⟨hsecond.1.1, one_lt_two.trans hsecond.1.2⟩, hsecond.2, hsecond.3⟩
  · exact ⟨rfl, hfirst⟩

theorem heardAgain_scanned : ∃ tr h, Run (machine List.sum sixAndOne.channels 30 2) tr h ∧
    (replaySteps (call List.sum) (sixAndOne.onDroneDetected 6 0 0) heardAgain []).countP isScan
      = 1 := by
  have hheard : Run (machine List.sum sixAndOne.channels 30 2)
      [⟨sixAndOne, .onDroneDetected 6 0 0, sixAndOne.onDroneDetected 6 0 0⟩]
      (sixAndOne.onDroneDetected 6 0 0) := .step _ _ (.init init_sixAndOne) rfl
  have hadmits : Admits (call List.sum) (fun _ _ ↦ True) (sixAndOne.onDroneDetected 6 0 0)
      heardAgain := .of_forall (fun _ _ ↦ trivial) _ _
  have hrun : Run (machine List.sum sixAndOne.channels 30 2)
      (replaySteps (call List.sum) (sixAndOne.onDroneDetected 6 0 0) heardAgain [] ++
        [⟨sixAndOne, .onDroneDetected 6 0 0, sixAndOne.onDroneDetected 6 0 0⟩]) _ :=
    Run.replay (fun _ _ _ ↦ rfl) heardAgain hheard hadmits
  exact ⟨_, _, hrun, (dwells_of_escalated le_rfl hrun heardAgain_stays rfl).1⟩

/-! ## Plans that are taken whole -/

variable (sum) in
/-- `set_channels` installs the plan, or leaves the hopper as it was. -/
def AllOrNothing (h : ChannelHopper) (channels : List ChannelSpec) : Prop :=
  let after := (h.setChannelsOrRaise sum channels).2
  (if (h.setChannelsOrRaise sum channels).1 = none then
    after.channels = channels ∧ after.cumulative.map Prod.snd = channels ∧
      after.cumulative = cumulate (sum (channels.map ChannelSpec.weight)) 0 channels
  else after.channels = h.channels ∧ after.cumulative = h.cumulative) ∧
    after.lockedChannel = h.lockedChannel ∧ after.lockExpiresAt = h.lockExpiresAt ∧
      after.dwellsSinceScan = h.dwellsSinceScan

variable (sum) in
/-- The plan is not refused because of its weights, or it is the plan already. -/
def Whole (h : ChannelHopper) (channels : List ChannelSpec) : Prop :=
  channels = [] ∨ 0 < sum (channels.map ChannelSpec.weight) ∨ channels = h.channels

theorem allOrNothing_iff (h : ChannelHopper) (channels : List ChannelSpec) :
    AllOrNothing sum h channels ↔ Whole sum h channels := by
  rw [AllOrNothing, Whole]
  rcases setChannelsOrRaise_cases sum h channels with ⟨_, hpos, hcall⟩ |
    ⟨e, hnil, hcall⟩ | ⟨e, hne, hpos, hcall⟩ <;> rw [hcall] <;> dsimp only
  · rw [if_pos rfl]
    exact iff_of_true ⟨⟨rfl, cumulate_map_snd .., rfl⟩, rfl, rfl, rfl⟩ (.inr (.inl hpos))
  · rw [if_neg (Option.some_ne_none e)]
    exact iff_of_true ⟨⟨rfl, rfl⟩, rfl, rfl, rfl⟩ (.inl hnil)
  · rw [if_neg (Option.some_ne_none e)]
    constructor
    · rintro ⟨⟨hsame, -⟩, -⟩
      exact .inr (.inr hsame)
    · rintro (hnil | hpos' | hsame)
      · exact absurd hnil hne
      · exact absurd hpos' hpos
      · exact ⟨⟨hsame, rfl⟩, rfl, rfl, rfl⟩

variable (sum) in
/-- The call does not swap the plan, or takes it whole. -/
def Call.IsWhole (h : ChannelHopper) : Call → Prop
  | .setChannels channels => Whole sum h channels
  | _ => True

variable (sum) in
/-- The plan that was installed last. -/
def installed (plan : List ChannelSpec) : List (Step ChannelHopper Call) → List ChannelSpec
  | [] => plan
  | x :: older =>
    match x.act with
    | .setChannels channels =>
      if (x.pre.setChannelsOrRaise sum channels).1 = none then channels else installed plan older
    | _ => installed plan older

/-- The channels of the hopper, and those that its weights are for, are those of the plan. -/
def Holds (h : ChannelHopper) (plan : List ChannelSpec) : Prop :=
  h.channels = plan ∧ h.cumulative.map Prod.snd = plan

theorem new_holds (hnew : new sum plan hold every = .ok h) : h.Holds plan := by
  rw [new] at hnew
  split at hnew
  · rw [rebuildWeights] at hnew
    split at hnew
    · cases hnew
    · cases hnew
      exact ⟨rfl, cumulate_map_snd ..⟩
  · cases hnew

theorem claimScanSlot_holds (hp : h.Holds plan) : h.claimScanSlot.2.Holds plan := by
  rw [claimScanSlot]
  split_ifs <;> exact hp

/-- A dwell is on a channel of the plan, and leaves the plan as it is. -/
theorem nextChannel_holds (hp : h.Holds plan) (time random : ℚ) :
    (h.nextChannel sum time random).Holds plan ∧
      (h.nextChannel sum time random).current ∈ plan := by
  have hclaim := claimScanSlot_holds hp
  rw [nextChannel]
  split
  · split <;> rename_i h₁ heq <;> rw [heq] at hclaim
    · exact ⟨hclaim, hclaim.1 ▸ pickExcluding_mem h₁ ..⟩
    · split
      · rename_i hfind
        exact ⟨hclaim, hclaim.1 ▸ List.mem_of_find?_eq_some hfind⟩
      · exact ⟨hclaim, sweep_mem hclaim.1 hclaim.2 random⟩
  · exact ⟨hp, sweep_mem hp.1 hp.2 random⟩

theorem onDroneDetected_holds (hp : h.Holds plan) (channel : ℤ) (time time' : ℚ) :
    (h.onDroneDetected channel time time').Holds plan := by
  rw [onDroneDetected]
  dsimp only
  split <;> exact hp

/-- The step lemma: a plan that is taken whole is held, and one that is refused does not count. -/
theorem setChannelsOrRaise_holds (hp : h.Holds plan) (hwhole : Whole sum h channels) :
    (h.setChannelsOrRaise sum channels).2.Holds
      (if (h.setChannelsOrRaise sum channels).1 = none then channels else plan) := by
  have hall := (allOrNothing_iff h channels).mpr hwhole
  rw [AllOrNothing] at hall
  split_ifs at hall ⊢
  · exact ⟨hall.1.1, hall.1.2.1⟩
  · exact ⟨hall.1.1.trans hp.1, hall.1.2 ▸ hp.2⟩

theorem run_holds (hr : Run (machine sum plan hold every) tr h)
    (hwhole : ∀ x ∈ tr, x.act.IsWhole sum x.pre) : h.Holds (installed sum plan tr) := by
  refine hr.trace_invariant_of (C := fun h a ↦ a.IsWhole sum h)
    (I := fun tr h ↦ h.Holds (installed sum plan tr)) hwhole
    (fun _ hnew ↦ show Holds _ plan from new_holds hnew) ?_
  rintro tr h a _ - hi hc rfl
  cases a with
  | nextChannel time random => exact (nextChannel_holds hi time random).1
  | onDroneDetected channel time time' => exact onDroneDetected_holds hi channel time time'
  | setChannels channels => exact setChannelsOrRaise_holds hi hc

/-- **When a plan is installed whole or not at all**: unless it has channels, and is refused because
of their weights.  Where no such plan comes, each dwell is on a channel of the plan that was
installed last. -/
theorem installed_iff :
    (∀ h channels, AllOrNothing sum h channels ↔ Whole sum h channels) ∧
      ∀ {tr h}, Run (machine sum plan hold every) tr h → (∀ x ∈ tr, x.act.IsWhole sum x.pre) →
        Always (fun older x ↦ isDwell x → x.post.current ∈ installed sum plan older) tr := by
  refine ⟨allOrNothing_iff, fun hr hwhole ↦ ?_⟩
  refine hr.always_of (C := fun h a ↦ a.IsWhole sum h) hwhole ?_
  rintro tr h a _ hr hwhole - rfl hdwell
  cases a with
  | nextChannel time random => exact (nextChannel_holds (run_holds hr hwhole) time random).2
  | onDroneDetected channel time time' => cases hdwell
  | setChannels channels => cases hdwell

/-- A plan that the weights are right for. -/
def toEleven : List Call := [.setChannels [⟨11, 2462, 1⟩], .nextChannel 1 0]

theorem toEleven_installed :
    Always (fun older x ↦ isDwell x → x.post.current ∈ installed List.sum sixAndOne.channels older)
      (replaySteps (call List.sum) sixAndOne toEleven []) := by
  have hadmits : Admits (call List.sum) (fun _ _ ↦ True) sixAndOne toEleven :=
    .of_forall (fun _ _ ↦ trivial) _ _
  have hrun : Run (machine List.sum sixAndOne.channels 30 2) _ _ :=
    Run.replay (fun _ _ _ ↦ rfl) toEleven (.init init_sixAndOne) hadmits
  refine installed_iff.2 hrun ?_
  intro x hx
  simp only [replaySteps, toEleven, List.mem_cons, List.not_mem_nil, or_false] at hx
  rcases hx with rfl | rfl
  · exact trivial
  · exact .inr (.inl (by norm_num))

/-- A plan that is refused. -/
def zeros : List ChannelSpec := [⟨6, 2437, 0⟩, ⟨11, 2462, 0⟩]

/-- The plan that was refused is looked at by the dwell that looks elsewhere. -/
def toZeros : List Call :=
  [.onDroneDetected 6 0 0, .nextChannel 1 0, .setChannels zeros, .nextChannel 2 0]

theorem setChannelsOrRaise_zeros (h : ChannelHopper) :
    h.setChannelsOrRaise List.sum zeros = (some "channel weights must sum to > 0",
      { h with channels := zeros, nonempty := by simp [zeros] }) := by
  rw [setChannelsOrRaise, dif_pos (by simp [zeros])]
  norm_num [rebuildWeights, zeros]

theorem toZeros_not_whole :
    ¬AllOrNothing List.sum sixAndOne zeros ∧
      ¬∀ tr h, Run (machine List.sum sixAndOne.channels 30 2) tr h →
        Always (fun older x ↦
          isDwell x → x.post.current ∈ installed List.sum sixAndOne.channels older) tr := by
  have h30 : nearest 30 = 30 := by
    exact_mod_cast nearest_of_representable (representable_natCast (n := 30) (by norm_num))
  refine ⟨fun hall ↦ ?_, fun hall ↦ ?_⟩
  · rw [allOrNothing_iff] at hall
    simp [Whole, zeros, sixAndOne] at hall
  · have hadmits : Admits (call List.sum) (fun _ _ ↦ True) sixAndOne toZeros :=
      .of_forall (fun _ _ ↦ trivial) _ _
    have hrun : Run (machine List.sum sixAndOne.channels 30 2) _ _ :=
      Run.replay (fun _ _ _ ↦ rfl) toZeros (.init init_sixAndOne) hadmits
    have hlast := (hall _ _ hrun).1 rfl
    simp only [call, setChannelsOrRaise_zeros, installed] at hlast
    norm_num [onDroneDetected, isEscalated, nextChannel, claimScanSlot, zeros, sixAndOne,
      pickExcluding, h30] at hlast
    simp at hlast

end ChannelHopper

end ClassG.Wifi
