import ClassG.Binary64

/-!
# The channel hopper

The `ChannelHopper` of `sensor-wifi` says which channel to listen on next.  It draws channels by
weight, except while it is *escalated*: after a drone is heard on a channel the hopper is locked to
it for `escalationHoldS` seconds, and only every `escalationScanEvery`-th dwell looks elsewhere.

The clock `time.monotonic()` and the generator `rng.random()` are arguments: a function takes one
for each reading it makes.  They are doubles, and so is every number computed from them; `sum` is
the builtin of that name on doubles, whose rounding depends on the version of Python.
-/

set_option autoImplicit false

namespace ClassG.Wifi

open Double

/-- A channel of a plan. -/
structure ChannelSpec where
  channel : ℤ
  freqMhz : ℤ
  weight : ℚ
  deriving DecidableEq

/-- What a hopper counts for its reports. -/
structure HopperStats where
  droneHits : ℤ → ℕ
  escalations : ℕ
  scanDwells : ℕ

structure ChannelHopper where
  channels : List ChannelSpec
  /-- A hopper is built with at least one channel, and never loses the last. -/
  nonempty : channels ≠ []
  escalationHoldS : ℚ
  escalationScanEvery : ℤ
  stats : HopperStats
  lockedChannel : Option ℤ
  lockExpiresAt : ℚ
  dwellsSinceScan : ℤ
  scanning : Bool
  current : ChannelSpec
  /-- The channels of the plan, each with the share of the draws at which it is the last. -/
  cumulative : List (ℚ × ChannelSpec)

namespace ChannelHopper

variable (sum : List ℚ → ℚ)

/-- The loop of `_rebuild_weights`. -/
def cumulate (total : ℚ) : ℚ → List ChannelSpec → List (ℚ × ChannelSpec)
  | _, [] => []
  | acc, spec :: rest =>
    let acc := nearest (acc + nearest (spec.weight / total))
    (acc, spec) :: cumulate total acc rest

def rebuildWeights (h : ChannelHopper) : Except String ChannelHopper :=
  let total := sum (h.channels.map ChannelSpec.weight)
  if total ≤ 0 then .error "channel weights must sum to > 0"
  else .ok { h with cumulative := cumulate total 0 h.channels }

/-- `ChannelHopper(channels, …)`. -/
def new (channels : List ChannelSpec) (escalationHoldS : ℚ) (escalationScanEvery : ℤ) :
    Except String ChannelHopper :=
  if hne : channels ≠ [] then
    rebuildWeights sum
      { channels := channels
        nonempty := hne
        escalationHoldS := escalationHoldS
        escalationScanEvery := escalationScanEvery
        stats := ⟨fun _ ↦ 0, 0, 0⟩
        lockedChannel := none
        lockExpiresAt := 0
        dwellsSinceScan := 0
        scanning := false
        current := channels.head hne
        cumulative := [] }
  else .error "hopper needs at least one channel"

/-- Swap the plan.  A lock is kept, also one on a channel that the new plan does not have. -/
def setChannels (h : ChannelHopper) (channels : List ChannelSpec) : Except String ChannelHopper :=
  if hne : channels ≠ [] then rebuildWeights sum { h with channels := channels, nonempty := hne }
  else .error "hopper needs at least one channel"

def isEscalated (h : ChannelHopper) (time : ℚ) : Bool :=
  h.lockedChannel.isSome && decide (time < h.lockExpiresAt)

/-- The clock is read by `is_escalated` first, and then for the new end of the lock. -/
def onDroneDetected (h : ChannelHopper) (channel : ℤ) (time time' : ℚ) : ChannelHopper :=
  let wasEscalated := h.isEscalated time
  let h := { h with
    stats.droneHits := Function.update h.stats.droneHits channel (h.stats.droneHits channel + 1)
    lockedChannel := some channel
    lockExpiresAt := nearest (time' + h.escalationHoldS) }
  if wasEscalated then h
  else { h with stats.escalations := h.stats.escalations + 1, dwellsSinceScan := 0 }

/-- Count a dwell of an escalated hopper, and say whether it is the one that looks elsewhere. -/
def claimScanSlot (h : ChannelHopper) : Bool × ChannelHopper :=
  if h.escalationScanEvery < 2 then (false, h)
  else if h.escalationScanEvery ≤ h.dwellsSinceScan + 1 then (true, { h with dwellsSinceScan := 0 })
  else (false, { h with dwellsSinceScan := h.dwellsSinceScan + 1 })

/-- The loop of `_pick_excluding`. -/
def firstReaching (r : ℚ) : ℚ → List ChannelSpec → Option ChannelSpec
  | _, [] => none
  | acc, spec :: rest =>
    let acc := nearest (acc + spec.weight)
    if r ≤ acc then some spec else firstReaching r acc rest

def pickExcluding (h : ChannelHopper) (exclude : Option ℤ) (random : ℚ) : ChannelSpec :=
  let pool := h.channels.filter (fun spec ↦ some spec.channel ≠ exclude)
  if hne : pool ≠ [] then
    let total := sum (pool.map ChannelSpec.weight)
    if total ≤ 0 then pool.head hne
    else (firstReaching (nearest (random * total)) 0 pool).getD (pool.getLast hne)
  else h.channels.head h.nonempty

/-- The end of `next_channel`: a draw from the whole plan. -/
def sweep (h : ChannelHopper) (random : ℚ) : ChannelHopper :=
  let drawn := (h.cumulative.find? (fun entry ↦ decide (random ≤ entry.1))).map Prod.snd
  { h with scanning := false, current := drawn.getD (h.channels.getLast h.nonempty) }

/-- The channel to listen on next is `current` of the hopper that is returned. -/
def nextChannel (h : ChannelHopper) (time random : ℚ) : ChannelHopper :=
  if h.isEscalated time then
    match h.claimScanSlot with
    | (true, h) =>
      { h with
        stats.scanDwells := h.stats.scanDwells + 1
        scanning := true
        current := h.pickExcluding sum h.lockedChannel random }
    | (false, h) =>
      match h.channels.find? (fun spec ↦ some spec.channel = h.lockedChannel) with
      | some spec => { h with scanning := false, current := spec }
      -- Locked to a channel that is not in the plan: the lock is dropped.
      | none => sweep { h with lockedChannel := none } random
  else h.sweep random

/-- The plan has the channel. -/
def Has (h : ChannelHopper) (c : ℤ) : Prop := ∃ spec ∈ h.channels, spec.channel = c

/-- Locked to the channel, and the lock has not expired. -/
def EscalatedOn (h : ChannelHopper) (time : ℚ) (c : ℤ) : Prop :=
  h.lockedChannel = some c ∧ time < h.lockExpiresAt

/-! ## What the calls do to the plan and to the lock -/

variable {sum} {h h' : ChannelHopper}

theorem isEscalated_iff {time : ℚ} : h.isEscalated time ↔ ∃ c, h.EscalatedOn time c := by
  rw [isEscalated, Bool.and_eq_true, Option.isSome_iff_exists, decide_eq_true_eq]
  simp only [EscalatedOn, exists_and_right]

theorem EscalatedOn.earlier {time time' : ℚ} {c : ℤ} (hc : h.EscalatedOn time' c)
    (hle : time ≤ time') : h.EscalatedOn time c :=
  ⟨hc.1, hle.trans_lt hc.2⟩

theorem rebuildWeights_eq_ok (hok : h.rebuildWeights sum = .ok h') :
    h'.channels = h.channels ∧ h'.lockedChannel = h.lockedChannel ∧
      h'.lockExpiresAt = h.lockExpiresAt := by
  rw [rebuildWeights] at hok
  split at hok
  · nomatch hok
  · cases hok
    exact ⟨rfl, rfl, rfl⟩

theorem setChannels_eq_ok {channels : List ChannelSpec}
    (hok : h.setChannels sum channels = .ok h') :
    h'.channels = channels ∧ h'.lockedChannel = h.lockedChannel ∧
      h'.lockExpiresAt = h.lockExpiresAt := by
  rw [setChannels] at hok
  split at hok
  · exact rebuildWeights_eq_ok hok
  · nomatch hok

theorem new_eq_ok {channels : List ChannelSpec} {hold : ℚ} {every : ℤ}
    (hok : new sum channels hold every = .ok h) :
    h.channels = channels ∧ h.lockedChannel = none := by
  rw [new] at hok
  split at hok
  · exact ⟨(rebuildWeights_eq_ok hok).1, (rebuildWeights_eq_ok hok).2.1⟩
  · nomatch hok

theorem claimScanSlot_frame (h : ChannelHopper) :
    h.claimScanSlot.2.channels = h.channels ∧
      h.claimScanSlot.2.lockedChannel = h.lockedChannel ∧
        h.claimScanSlot.2.lockExpiresAt = h.lockExpiresAt := by
  rw [claimScanSlot]
  split_ifs <;> exact ⟨rfl, rfl, rfl⟩

theorem onDroneDetected_frame (h : ChannelHopper) (channel : ℤ) (time time' : ℚ) :
    (h.onDroneDetected channel time time').channels = h.channels ∧
      (h.onDroneDetected channel time time').lockedChannel = some channel := by
  rw [onDroneDetected]
  dsimp only
  split <;> exact ⟨rfl, rfl⟩

/-- Choosing a channel changes neither the plan nor the end of the lock, and drops only a lock on a
channel that is not in the plan. -/
theorem nextChannel_frame (h : ChannelHopper) (sum : List ℚ → ℚ) (time random : ℚ) :
    (h.nextChannel sum time random).channels = h.channels ∧
      (h.nextChannel sum time random).lockExpiresAt = h.lockExpiresAt ∧
        ((h.nextChannel sum time random).lockedChannel = h.lockedChannel ∨
          (h.nextChannel sum time random).lockedChannel = none ∧
            ∃ c, h.EscalatedOn time c ∧ ¬h.Has c) := by
  obtain ⟨hch, hlock, hend⟩ := h.claimScanSlot_frame
  rw [nextChannel]
  split
  · rename_i hesc
    obtain ⟨c, hc⟩ := isEscalated_iff.mp hesc
    split <;> rename_i slot heq <;> rw [heq] at hch hlock hend
    · exact ⟨hch, hend, .inl hlock⟩
    · split
      · exact ⟨hch, hend, .inl hlock⟩
      · rename_i hnone
        refine ⟨hch, hend, .inr ⟨rfl, c, hc, fun ⟨spec, hmem, hspec⟩ ↦ ?_⟩⟩
        have hno := List.find?_eq_none.mp hnone spec (hch ▸ hmem)
        rw [hlock, hc.1, hspec] at hno
        exact hno (decide_eq_true rfl)
  · exact ⟨rfl, rfl, .inl rfl⟩

end ChannelHopper

end ClassG.Wifi
