import Mathlib.Algebra.GroupWithZero.Nat
import Mathlib.Data.List.DropRight
import ClassG.FixedWindow
import ClassG.Machine

/-!
# The session log

`features/logs/log-store.ts`: what the console has observed, in a list that is bounded and that a
timer fills.  Debug entries come in bursts, so they are limited; what is not logged for that is
counted, and the next other entry is preceded by a notice.

What an entry has for `detail` is of any type.  The clock is up to the environment.

* `log_kept` — the log has lost its oldest entries and no others, and knows how many.
* `suppressed_announced` — every debug entry that is not logged is counted in a notice, or will be.
* `burst` — how many debug entries a second has room for, and what they leave of the log.
-/

set_option autoImplicit false

namespace ClassG.Ui

variable {δ : Type}

/-! ## Entries -/

inductive LogLevel
  | debug | info | warn | error
  deriving DecidableEq, Repr

inductive LogSource
  | stream | track | detection | sensor | capture | spectrum | deploy | api | ui
  deriving DecidableEq, Repr

/-- `LogEntry`. -/
structure LogEntry (δ : Type) where
  id : ℕ
  /-- `at`. -/
  time : String
  level : LogLevel
  source : LogSource
  message : String
  detail : Option δ := none
  trackId : Option String := none
  deriving DecidableEq, Repr

/-- `LogInput`. -/
structure LogInput (δ : Type) where
  /-- `at`. -/
  time : Option String := none
  level : LogLevel
  source : LogSource
  message : String
  detail : Option δ := none
  trackId : Option String := none
  deriving DecidableEq, Repr

/-- The entry that is pushed. -/
def LogInput.entry (input : LogInput δ) (id : ℕ) (date : String) : LogEntry δ where
  id := id
  time := input.time.getD date
  level := input.level
  source := input.source
  message := input.message
  detail := input.detail
  trackId := input.trackId

/-- The text of a notice. -/
def noticeText (suppressed : ℕ) : String :=
  toString suppressed ++ " further detection " ++ (if suppressed = 1 then "entry" else "entries") ++
    " not logged (rate limit)"

/-- The notice that `append` surfaces the gap with. -/
def notice (suppressed : ℕ) : LogInput δ where
  level := .debug
  source := .ui
  message := noticeText suppressed

/-! ## The store -/

def defaultLimit : ℕ := 1000

def debugBurstLimit : ℕ := 12

def debugBurstWindowMs : ℤ := 1000

/-- The least limit that can be set. -/
def minLimit : ℕ := 50

structure LogStore (δ : Type) where
  entries : List (LogEntry δ) := []
  pending : List (LogEntry δ) := []
  /-- The timer is set. -/
  timer : Bool := false
  nextId : ℕ := 1
  limit : ℕ := defaultLimit
  dropped : ℕ := 0
  debugWindowStart : ℤ := 0
  debugWindowCount : ℕ := 0
  suppressedDebug : ℕ := 0
  deriving DecidableEq, Repr

/-- What an append reads of the clock. -/
structure LogReading where
  /-- `Date.now()`. -/
  now : ℤ
  /-- The date of the notice. -/
  noticeDate : String
  date : String
  deriving DecidableEq, Repr

namespace LogStore

variable (s : LogStore δ)

/-- `schedule`. -/
def schedule : LogStore δ := if s.timer then s else { s with timer := true }

def push (input : LogInput δ) (date : String) : LogStore δ :=
  schedule
    { s with
      pending := s.pending ++ [input.entry s.nextId date]
      nextId := s.nextId + 1 }

/-- `isDebugThrottled`, and its answer. -/
def isDebugThrottled (now : ℤ) : LogStore δ × Bool :=
  let s :=
    if debugBurstWindowMs < now - s.debugWindowStart then
      { s with debugWindowStart := now, debugWindowCount := 0 }
    else s
  let s := { s with debugWindowCount := s.debugWindowCount + 1 }
  (s, debugBurstLimit < s.debugWindowCount)

def append (input : LogInput δ) (r : LogReading) : LogStore δ :=
  let (s, throttled) := if input.level = .debug then s.isDebugThrottled r.now else (s, false)
  if throttled then { s with suppressedDebug := s.suppressedDebug + 1 }
  else
    let s :=
      if 0 < s.suppressedDebug ∧ input.level ≠ .debug then
        push { s with suppressedDebug := 0 } (notice s.suppressedDebug) r.noticeDate
      else s
    s.push input r.date

def setLimit (limit : ℤ) : LogStore δ :=
  let s := { s with limit := (max (minLimit : ℤ) (min 10000 limit)).toNat }
  if s.limit < s.entries.length then
    { s with
      dropped := s.dropped + (s.entries.length - s.limit)
      entries := s.entries.rtake s.limit }
  else s

def clear : LogStore δ := { s with entries := [], pending := [], dropped := 0 }

def flush : LogStore δ :=
  if s.pending = [] then s
  else
    let merged := s.entries ++ s.pending
    let s := { s with pending := [] }
    if s.limit < merged.length then
      { s with
        dropped := s.dropped + (merged.length - s.limit)
        entries := merged.rtake s.limit }
    else { s with entries := merged }

/-- What the timer does. -/
def onTimer : LogStore δ := flush { s with timer := false }

end LogStore

/-! ## Its runs -/

/-- What happens to the log. -/
inductive LogAct (δ : Type)
  | append (input : LogInput δ) (r : LogReading)
  | timer
  | setLimit (limit : ℤ)
  | clear

def LogStore.perform (s : LogStore δ) : LogAct δ → LogStore δ
  | .append input r => s.append input r
  | .timer => s.onTimer
  | .setLimit limit => s.setLimit limit
  | .clear => s.clear

/-- A timer that is not set does not go off. -/
def LogAct.Ok (s : LogStore δ) : LogAct δ → Prop
  | .timer => s.timer = true
  | _ => True

def logStore (δ : Type) : Machine (LogStore δ) (LogAct δ) where
  init s := s = {}
  next s a s' := a.Ok s ∧ s' = s.perform a

/-! ## What a call does -/

namespace LogStore

variable (s : LogStore δ)

/-- The window that debug entries are counted in. -/
def window : FixedWindow := ⟨s.debugWindowStart, s.debugWindowCount⟩

/-- The debug entry is logged. -/
def Logs (now : ℤ) : Prop := s.window.Admits debugBurstLimit debugBurstWindowMs now

instance (now : ℤ) : Decidable (s.Logs now) := inferInstanceAs (Decidable (FixedWindow.Admits ..))

/-- The store after a debug entry is counted. -/
def counted (now : ℤ) : LogStore δ :=
  { s with
    debugWindowStart := (s.window.request debugBurstWindowMs now).start
    debugWindowCount := (s.window.request debugBurstWindowMs now).count }

theorem isDebugThrottled_eq (now : ℤ) :
    s.isDebugThrottled now = (s.counted now, !decide (s.Logs now)) := by
  rcases Int.lt_or_le debugBurstWindowMs (now - s.debugWindowStart) with hlt | hle
  · have hlogs : s.Logs now ↔ 0 < debugBurstLimit :=
      FixedWindow.admits_of_lt (w := s.window) debugBurstLimit hlt
    rw [isDebugThrottled, if_pos hlt, counted, FixedWindow.request_of_lt (w := s.window) hlt]
    refine Prod.ext rfl ?_
    rw [← decide_not]
    exact decide_eq_decide.mpr (Nat.lt_succ_iff.trans (not_lt.symm.trans hlogs.not.symm))
  · have hlogs : s.Logs now ↔ s.debugWindowCount < debugBurstLimit :=
      FixedWindow.admits_of_le (w := s.window) debugBurstLimit hle
    rw [isDebugThrottled, if_neg (not_lt.mpr hle), counted,
      FixedWindow.request_of_le (w := s.window) hle]
    refine Prod.ext rfl ?_
    rw [← decide_not]
    exact decide_eq_decide.mpr (Nat.lt_succ_iff.trans (not_lt.symm.trans hlogs.not.symm))

theorem push_eq (input : LogInput δ) (date : String) :
    s.push input date =
      { s with
        pending := s.pending ++ [input.entry s.nextId date]
        nextId := s.nextId + 1
        timer := true } := by
  rw [push, schedule]
  split
  · next h => rw [← h]
  · rfl

theorem append_of_refused {input : LogInput δ} {r : LogReading} (hlevel : input.level = .debug)
    (h : ¬s.Logs r.now) :
    s.append input r =
      { s.counted r.now with suppressedDebug := (s.counted r.now).suppressedDebug + 1 } := by
  rw [append, if_pos hlevel, isDebugThrottled_eq, decide_eq_false h]
  rfl

theorem append_of_logged {input : LogInput δ} {r : LogReading} (hlevel : input.level = .debug)
    (h : s.Logs r.now) : s.append input r = (s.counted r.now).push input r.date := by
  rw [append, if_pos hlevel, isDebugThrottled_eq, decide_eq_true h]
  dsimp only
  rw [if_neg (by decide), if_neg fun hnotice ↦ hnotice.2 hlevel]

theorem append_of_gap {input : LogInput δ} {r : LogReading} (hlevel : input.level ≠ .debug)
    (h : 0 < s.suppressedDebug) :
    s.append input r =
      (push { s with suppressedDebug := 0 } (notice s.suppressedDebug) r.noticeDate).push input
        r.date := by
  rw [append, if_neg hlevel]
  dsimp only
  rw [if_neg (by decide), if_pos ⟨h, hlevel⟩]

theorem append_of_no_gap {input : LogInput δ} {r : LogReading} (hlevel : input.level ≠ .debug)
    (h : s.suppressedDebug = 0) : s.append input r = s.push input r.date := by
  rw [append, if_neg hlevel]
  dsimp only
  rw [if_neg (by decide), if_neg fun hnotice ↦ hnotice.1.ne' h]

end LogStore

/-- The entries that a call pushes. -/
def LogAct.written (s : LogStore δ) : LogAct δ → List (LogEntry δ)
  | .append input r =>
    if input.level = .debug then
      if s.Logs r.now then [input.entry s.nextId r.date] else []
    else if 0 < s.suppressedDebug then
      [(notice s.suppressedDebug).entry s.nextId r.noticeDate,
        input.entry (s.nextId + 1) r.date]
    else [input.entry s.nextId r.date]
  | _ => []

/-- The call is a debug entry, and when it comes. -/
def LogAct.debugTime : LogAct δ → Option ℤ
  | .append input r => if input.level = .debug then some r.now else none
  | _ => none

/-- How many debug entries have not been logged, and not been mentioned yet, after a call. -/
def LogAct.suppressedAfter (s : LogStore δ) : LogAct δ → ℕ
  | .append input r =>
    if input.level = .debug then
      if s.Logs r.now then s.suppressedDebug else s.suppressedDebug + 1
    else 0
  | _ => s.suppressedDebug

/-- **What an append does**: it pushes, and counts. -/
theorem LogStore.append_spec (s : LogStore δ) (input : LogInput δ) (r : LogReading) :
    s.append input r =
      { s with
        pending := s.pending ++ (LogAct.append input r).written s
        nextId := s.nextId + ((LogAct.append input r).written s).length
        timer := s.timer || !((LogAct.append input r).written s).isEmpty
        debugWindowStart := (((LogAct.append input r).debugTime.map
          fun now ↦ s.window.request debugBurstWindowMs now).getD s.window).start
        debugWindowCount := (((LogAct.append input r).debugTime.map
          fun now ↦ s.window.request debugBurstWindowMs now).getD s.window).count
        suppressedDebug := (LogAct.append input r).suppressedAfter s } := by
  rw [LogAct.written, LogAct.debugTime, LogAct.suppressedAfter]
  by_cases hlevel : input.level = .debug
  · rw [if_pos hlevel, if_pos hlevel, if_pos hlevel]
    by_cases hlogs : s.Logs r.now
    · rw [if_pos hlogs, if_pos hlogs, s.append_of_logged hlevel hlogs, push_eq]
      simp [counted]
    · rw [if_neg hlogs, if_neg hlogs, s.append_of_refused hlevel hlogs]
      simp [counted]
  · rw [if_neg hlevel, if_neg hlevel, if_neg hlevel]
    by_cases hgap : 0 < s.suppressedDebug
    · rw [if_pos hgap, s.append_of_gap hlevel hgap, push_eq, push_eq]
      simp [window]
    · have hzero : s.suppressedDebug = 0 := Nat.eq_zero_of_not_pos hgap
      rw [if_neg hgap, s.append_of_no_gap hlevel hzero, push_eq]
      simp [window, hzero]

/-- The limit that is set. -/
def newLimit (limit : ℤ) : ℕ := (max (minLimit : ℤ) (min 10000 limit)).toNat

theorem rtake_of_length_le {l : List (LogEntry δ)} {n : ℕ} (h : l.length ≤ n) : l.rtake n = l := by
  rw [List.rtake, Nat.sub_eq_zero_of_le h, List.drop_zero]

theorem LogStore.setLimit_eq (s : LogStore δ) (limit : ℤ) :
    s.setLimit limit =
      { s with
        entries := s.entries.rtake (newLimit limit)
        limit := newLimit limit
        dropped := s.dropped + (s.entries.length - newLimit limit) } := by
  rw [setLimit]
  dsimp only
  split
  · rfl
  · next hlong =>
    have hshort : s.entries.length ≤ newLimit limit := not_lt.mp hlong
    rw [rtake_of_length_le hshort, Nat.sub_eq_zero_of_le hshort]
    rfl

theorem LogStore.onTimer_eq {s : LogStore δ} (h : s.entries.length ≤ s.limit) :
    s.onTimer =
      { s with
        entries := (s.entries ++ s.pending).rtake s.limit
        pending := []
        timer := false
        dropped := s.dropped + ((s.entries ++ s.pending).length - s.limit) } := by
  rw [onTimer, flush]
  split
  · next hnil =>
    dsimp only at hnil
    rw [hnil, List.append_nil, rtake_of_length_le h, Nat.sub_eq_zero_of_le h, Nat.add_zero]
  · dsimp only
    split
    · rfl
    · next hshort =>
      rw [rtake_of_length_le (not_lt.mp hshort), Nat.sub_eq_zero_of_le (not_lt.mp hshort)]
      rfl

/-! ## What it keeps -/

/-- The steps of a run. -/
abbrev LogTrace (δ : Type) := List (Machine.Step (LogStore δ) (LogAct δ))

/-- What has been pushed since the log was last cleared. -/
def sinceClear : LogTrace δ → List (LogEntry δ)
  | [] => []
  | x :: older => match x.act with
    | .clear => []
    | a => sinceClear older ++ a.written x.pre

theorem map_id_written (s : LogStore δ) (a : LogAct δ) :
    (a.written s).map (·.id) = List.range' s.nextId (a.written s).length := by
  cases a with
  | append input r =>
    rw [LogAct.written]
    split
    · split <;> rfl
    · split <;> rfl
  | timer => rfl
  | setLimit limit => rfl
  | clear => rfl

namespace LogStore

/-- The store has the last of what was pushed, and knows how many are missing. -/
structure Kept (pushed : List (LogEntry δ)) (s : LogStore δ) : Prop where
  rest : pushed.drop s.dropped = s.entries ++ s.pending
  dropped_le : s.dropped ≤ pushed.length
  bounded : s.entries.length ≤ s.limit
  minLimit_le : minLimit ≤ s.limit
  full : s.dropped = 0 ∨ minLimit ≤ s.entries.length
  scheduled : s.pending ≠ [] → s.timer = true
  ids : pushed.map (·.id) = List.range' (s.nextId - pushed.length) pushed.length
  length_lt : pushed.length < s.nextId

variable {pushed : List (LogEntry δ)} {s : LogStore δ}

theorem kept_init : Kept [] ({} : LogStore δ) where
  rest := rfl
  dropped_le := le_rfl
  bounded := Nat.zero_le _
  minLimit_le := (by decide : minLimit ≤ defaultLimit)
  full := .inl rfl
  scheduled h := absurd rfl h
  ids := rfl
  length_lt := Nat.zero_lt_one

theorem Kept.append (h : Kept pushed s) (input : LogInput δ) (r : LogReading) :
    Kept (pushed ++ (LogAct.append input r).written s) (s.append input r) := by
  have hids := map_id_written s (.append input r)
  rw [append_spec]
  generalize (LogAct.append input r).written s = written at *
  refine ⟨?_, ?_, h.bounded, h.minLimit_le, h.full, ?_, ?_, ?_⟩
  · rw [List.drop_append_of_le_length h.dropped_le, h.rest, List.append_assoc]
  · exact h.dropped_le.trans (by simp)
  · intro hpending
    rcases written with _ | ⟨e, written⟩
    · exact Bool.or_eq_true_iff.mpr (.inl (h.scheduled (by simpa using hpending)))
    · exact Bool.or_eq_true_iff.mpr (.inr rfl)
  · have hlt := h.length_lt
    have hstart : s.nextId + written.length - (pushed ++ written).length =
        s.nextId - pushed.length := by
      rw [List.length_append]
      omega
    have hnext : s.nextId - pushed.length + pushed.length = s.nextId := by omega
    rw [List.map_append, h.ids, hids, hstart, List.length_append, ← List.range'_append_1, hnext]
  · rw [List.length_append]
    exact Nat.add_lt_add_right h.length_lt _

/-- The oldest of the entries are dropped, of which some may have been pending. -/
theorem Kept.trim (h : Kept pushed s) {entries pending : List (LogEntry δ)} {timer : Bool}
    (hrest : entries ++ pending = s.entries ++ s.pending) (htimer : pending ≠ [] → timer = true)
    (hlength : s.entries.length ≤ entries.length) {limit : ℕ} (hlimit : minLimit ≤ limit) :
    Kept pushed
      { s with
        entries := entries.rtake limit
        pending := pending
        timer := timer
        limit := limit
        dropped := s.dropped + (entries.length - limit) } := by
  have hrtake : (entries.rtake limit).length = min entries.length limit := by
    rw [List.rtake, List.length_drop]
    omega
  refine ⟨?_, ?_, ?_, hlimit, ?_, htimer, h.ids, h.length_lt⟩
  · rw [← List.drop_drop, h.rest, ← hrest, List.drop_append_of_le_length (Nat.sub_le ..),
      List.rtake]
  · have hsum := congrArg List.length h.rest
    have hle := h.dropped_le
    rw [← hrest, List.length_drop, List.length_append] at hsum
    show s.dropped + (entries.length - limit) ≤ pushed.length
    omega
  · rw [hrtake]
    exact min_le_right ..
  · rw [hrtake]
    rcases Nat.lt_or_ge limit entries.length with hlong | hshort
    · rw [min_eq_right hlong.le]
      exact .inr hlimit
    · rw [min_eq_left hshort, Nat.sub_eq_zero_of_le hshort, Nat.add_zero]
      exact h.full.imp_right fun hmin ↦ hmin.trans hlength

theorem Kept.setLimit (h : Kept pushed s) (limit : ℤ) : Kept pushed (s.setLimit limit) := by
  rw [setLimit_eq]
  exact h.trim rfl h.scheduled le_rfl
    (Int.toNat_le_toNat (le_max_left (minLimit : ℤ) (min 10000 limit)))

theorem Kept.onTimer (h : Kept pushed s) : Kept pushed s.onTimer := by
  rw [onTimer_eq h.bounded]
  exact h.trim (List.append_nil _) (fun hpending ↦ absurd rfl hpending) (by simp) h.minLimit_le

theorem Kept.clear (h : Kept pushed s) : Kept [] s.clear :=
  ⟨rfl, le_rfl, Nat.zero_le _, h.minLimit_le, .inl rfl, fun hpending ↦ absurd rfl hpending, rfl,
    Nat.zero_lt_of_lt h.length_lt⟩

/-- **A call keeps the last of what was pushed.** -/
theorem Kept.perform {tr : LogTrace δ} (h : Kept (sinceClear tr) s) (a : LogAct δ) :
    Kept (sinceClear (⟨s, a, s.perform a⟩ :: tr)) (s.perform a) := by
  cases a with
  | append input r => exact h.append input r
  | timer =>
    show Kept (sinceClear tr ++ []) s.onTimer
    rw [List.append_nil]
    exact h.onTimer
  | setLimit limit =>
    show Kept (sinceClear tr ++ []) (s.setLimit limit)
    rw [List.append_nil]
    exact h.setLimit limit
  | clear => exact h.clear

theorem kept_of_run {tr : LogTrace δ} (h : (logStore δ).Run tr s) : Kept (sinceClear tr) s := by
  induction h with
  | init hinit =>
    rw [show _ = ({} : LogStore δ) from hinit]
    exact kept_init
  | @step tr s a s' hr hn ih =>
    obtain ⟨-, rfl⟩ := hn
    exact ih.perform a

/-- The last of what was pushed are there. -/
theorem Kept.rtake_suffix (h : Kept pushed s) :
    pushed.rtake minLimit <:+ s.entries ++ s.pending := by
  have hlength := congrArg List.length h.rest
  rw [List.length_drop, List.length_append] at hlength
  have hearly : s.dropped ≤ pushed.length - minLimit := by
    rcases h.full with hzero | hfull
    · exact hzero.le.trans (Nat.zero_le _)
    · have hle := h.dropped_le
      omega
  rw [← h.rest, List.rtake, ← Nat.add_sub_cancel' hearly, ← List.drop_drop]
  exact List.drop_suffix ..

/-- **Entries are dropped only where the log is full.** -/
theorem Kept.full_of_drops (h : Kept pushed s) {a : LogAct δ}
    (hdrops : s.dropped < (s.perform a).dropped) :
    (s.perform a).entries.length = (s.perform a).limit := by
  cases a with
  | append input r =>
    rw [LogStore.perform, append_spec] at hdrops
    exact absurd hdrops (lt_irrefl _)
  | timer =>
    rw [LogStore.perform, onTimer_eq h.bounded] at hdrops ⊢
    rw [List.rtake, List.length_drop]
    dsimp only at hdrops ⊢
    omega
  | setLimit limit =>
    rw [LogStore.perform, setLimit_eq] at hdrops ⊢
    rw [List.rtake, List.length_drop]
    dsimp only at hdrops ⊢
    omega
  | clear => exact absurd hdrops (Nat.not_lt_zero _)

end LogStore

/-! ## What it does not log -/

/-- What has been pushed, ever. -/
def everPushed : LogTrace δ → List (LogEntry δ)
  | [] => []
  | x :: older => everPushed older ++ x.act.written x.pre

/-- When the debug entries came. -/
def debugTimes (tr : LogTrace δ) : List ℤ := Machine.history (fun x ↦ x.act.debugTime) tr

/-- When the debug entries came that were logged. -/
def loggedTimes (tr : LogTrace δ) : List ℤ :=
  Machine.history (fun x ↦ x.act.debugTime.filter fun now ↦ x.pre.Logs now) tr

/-- The number that a text tells if it is one of a notice. -/
def announced (text : String) : ℕ :=
  let n := Nat.ofDigitChars 10 (text.toList.takeWhile Char.isDigit) 0
  if text = noticeText n then n else 0

theorem announced_noticeText (n : ℕ) : announced (noticeText n) = n := by
  have hdigits : (noticeText n).toList.takeWhile Char.isDigit = Nat.toDigits 10 n := by
    have hall : ∀ c ∈ Nat.toDigits 10 n, c.isDigit := fun c hc ↦
      Nat.isDigit_of_mem_toDigits (by decide) (by decide) hc
    rw [noticeText, Nat.toString_eq_repr, String.append_assoc, String.append_assoc,
      String.toList_append, Nat.toList_repr, List.takeWhile_append_of_pos hall]
    simp
  rw [announced, hdigits, Nat.ofDigitChars_ten_toDigits, if_pos rfl]

/-- The numbers that the entries tell, together. -/
def announcedIn (entries : List (LogEntry δ)) : ℕ := (entries.map fun e ↦ announced e.message).sum

theorem announcedIn_append (xs ys : List (LogEntry δ)) :
    announcedIn (xs ++ ys) = announcedIn xs + announcedIn ys := by
  rw [announcedIn, List.map_append, List.sum_append, announcedIn, announcedIn]

/-- What is appended does not look like a notice. -/
def LogAct.Plain : LogAct δ → Prop
  | .append input _ => announced input.message = 0
  | _ => True

instance : ∀ a : LogAct δ, Decidable a.Plain
  | .append .. => inferInstanceAs (Decidable (_ = _))
  | .timer | .setLimit _ | .clear => .isTrue trivial

/-- One call: a debug entry is logged or counted, and what is counted is told before the next other
entry. -/
theorem LogStore.perform_accounts (s : LogStore δ) {a : LogAct δ} (h : a.Plain) :
    announcedIn (a.written s) + (s.perform a).suppressedDebug +
        (a.debugTime.filter fun now ↦ s.Logs now).toList.length =
      s.suppressedDebug + a.debugTime.toList.length := by
  cases a with
  | append input r =>
    have hplain (id : ℕ) (date : String) : announcedIn [input.entry id date] = 0 := h
    rw [LogStore.perform, append_spec, LogAct.written, LogAct.debugTime, LogAct.suppressedAfter]
    dsimp only
    split
    · by_cases hlogs : s.Logs r.now
      · rw [if_pos hlogs, if_pos hlogs, hplain, Option.filter_some, if_pos (decide_eq_true hlogs)]
        simp
      · rw [if_neg hlogs, if_neg hlogs, Option.filter_some,
          if_neg (by simpa using hlogs)]
        simp [announcedIn]
    · split
      · have hnotice : announced ((notice s.suppressedDebug : LogInput δ).entry s.nextId
            r.noticeDate).message = s.suppressedDebug := announced_noticeText _
        rw [← List.singleton_append, announcedIn_append, hplain]
        simp [announcedIn, hnotice]
      · next hgap =>
        have hzero : s.suppressedDebug = 0 := Nat.eq_zero_of_not_pos hgap
        rw [hplain, hzero]
        rfl
  | timer =>
    have htimer : s.onTimer.suppressedDebug = s.suppressedDebug := by
      rw [onTimer, flush]
      split
      · rfl
      · dsimp only
        split <;> rfl
    rw [LogStore.perform, htimer]
    exact Nat.zero_add _
  | setLimit limit =>
    have hlimit : (s.setLimit limit).suppressedDebug = s.suppressedDebug := by
      rw [setLimit]
      dsimp only
      split <;> rfl
    rw [LogStore.perform, hlimit]
    exact Nat.zero_add _
  | clear => exact Nat.zero_add _

/-! ## Bursts -/

/-- The window after a call. -/
theorem LogStore.window_perform (s : LogStore δ) (a : LogAct δ) :
    (s.perform a).window =
      (a.debugTime.map fun now ↦ s.window.request debugBurstWindowMs now).getD s.window := by
  cases a with
  | append input r =>
    rw [LogStore.perform, append_spec]
    rfl
  | timer =>
    rw [LogStore.perform, onTimer, flush]
    split
    · rfl
    · dsimp only
      split <;> rfl
  | setLimit limit =>
    rw [LogStore.perform, setLimit]
    dsimp only
    split <;> rfl
  | clear => rfl

/-- The window that debug entries are counted in at the start. -/
def firstWindow : FixedWindow := ⟨0, 0⟩

/-- **The log limits debug entries as a fixed window does.** -/
theorem window_of_run {tr : LogTrace δ} {s : LogStore δ} (h : (logStore δ).Run tr s) :
    s.window = firstWindow.after debugBurstWindowMs (debugTimes tr) ∧
      loggedTimes tr =
        FixedWindow.admitted debugBurstLimit debugBurstWindowMs firstWindow (debugTimes tr) := by
  induction h with
  | init hinit =>
    rw [show _ = ({} : LogStore δ) from hinit]
    exact ⟨rfl, rfl⟩
  | @step tr s a s' hr hn ih =>
    obtain ⟨-, rfl⟩ := hn
    obtain ⟨hwindow, hlogged⟩ := ih
    rw [s.window_perform, debugTimes, loggedTimes, Machine.history_cons, Machine.history_cons]
    rw [debugTimes, loggedTimes] at *
    dsimp only
    rcases a.debugTime with _ | now
    · rw [Option.filter_none, Option.toList_none, List.append_nil, List.append_nil]
      exact ⟨hwindow, hlogged⟩
    · rw [Option.toList_some, FixedWindow.after_append, FixedWindow.admitted_append, hlogged,
        ← hwindow, Option.map_some, Option.getD_some, Option.filter_some]
      refine ⟨rfl, congrArg _ ?_⟩
      by_cases hlogs : s.Logs now
      · rw [if_pos (decide_eq_true hlogs), Option.toList_some]
        exact (if_pos hlogs).symm
      · rw [if_neg (by simpa using hlogs), Option.toList_none]
        exact (if_neg hlogs).symm

/-- What is not logged comes after a full window. -/
theorem refused_after {tr : LogTrace δ} {s : LogStore δ} (h : (logStore δ).Run tr s)
    (hclock : (debugTimes tr).Pairwise (· ≤ ·)) (hepoch : ∀ now ∈ debugTimes tr, 0 ≤ now) :
    Machine.Always (fun older x ↦ ∀ now ∈ x.act.debugTime, ¬x.pre.Logs now →
      debugBurstLimit ≤ (FixedWindow.within debugBurstWindowMs (now - debugBurstWindowMs)
        (loggedTimes older)).length) tr := by
  induction h with
  | init => exact trivial
  | @step tr s a s' hr hn ih =>
    rw [debugTimes, Machine.history_cons] at hclock hepoch
    obtain ⟨hsorted, -, hlast⟩ := List.pairwise_append.mp hclock
    obtain ⟨hold, -⟩ := List.forall_mem_append.mp hepoch
    refine ⟨fun now hnow hrefused ↦ ?_, ih hsorted hold⟩
    obtain ⟨hwindow, hlogged⟩ := window_of_run hr
    rw [LogStore.Logs, hwindow] at hrefused
    rw [hlogged]
    exact FixedWindow.full_of_refuses rfl hsorted hold
      (fun x hx ↦ hlast x hx now (Option.mem_toList.mpr hnow)) hrefused

theorem loggedTimes_append (newer older : LogTrace δ) :
    loggedTimes (newer ++ older) = loggedTimes older ++ loggedTimes newer := by
  rw [loggedTimes, Machine.history, List.reverse_append, List.filterMap_append]
  rfl

theorem loggedTimes_subset (tr : LogTrace δ) : loggedTimes tr ⊆ debugTimes tr := by
  intro now hnow
  obtain ⟨x, hx, hlogged⟩ := (Machine.mem_history _).mp hnow
  exact (Machine.mem_history _).mpr ⟨x, hx, (Option.filter_eq_some_iff.mp hlogged).1⟩

/-- The call is an entry of another level than `debug`. -/
def LogAct.isOther : LogAct δ → Bool
  | .append input _ => input.level ≠ .debug
  | _ => false

/-- The call does not clear the log. -/
def LogAct.Keeps : LogAct δ → Prop
  | .clear => False
  | _ => True

instance : ∀ a : LogAct δ, Decidable a.Keeps
  | .clear => .isFalse id
  | .append .. | .timer | .setLimit _ => .isTrue trivial

/-- How many entries are not of the level `debug`. -/
def others (tr : LogTrace δ) : ℕ := tr.countP fun x ↦ x.act.isOther

/-- A debug entry is pushed by itself, and another one with a notice at most. -/
theorem length_written_le (s : LogStore δ) (a : LogAct δ) :
    (a.written s).length ≤
      (a.debugTime.filter fun now ↦ s.Logs now).toList.length +
        2 * if a.isOther = true then 1 else 0 := by
  cases a with
  | append input r =>
    rw [LogAct.written, LogAct.debugTime, LogAct.isOther]
    by_cases hlevel : input.level = .debug
    · rw [if_pos hlevel, if_pos hlevel, Option.filter_some]
      split <;> simp_all
    · rw [if_neg hlevel, if_neg hlevel, if_pos (decide_eq_true hlevel)]
      split <;> simp
  | timer => exact Nat.zero_le _
  | setLimit limit => exact Nat.zero_le _
  | clear => exact Nat.zero_le _

theorem length_everPushed_le (tr : LogTrace δ) :
    (everPushed tr).length ≤ (loggedTimes tr).length + 2 * others tr := by
  induction tr with
  | nil => exact Nat.zero_le _
  | cons x tr ih =>
    have hstep := length_written_le x.pre x.act
    rw [everPushed, List.length_append, loggedTimes, Machine.history_cons, List.length_append,
      others, List.countP_cons]
    rw [loggedTimes, others] at ih
    omega

/-- What is pushed while the log is not cleared. -/
theorem sinceClear_append {newer : LogTrace δ} (h : ∀ x ∈ newer, x.act.Keeps)
    (older : LogTrace δ) : sinceClear (newer ++ older) = sinceClear older ++ everPushed newer := by
  induction newer with
  | nil => exact (List.append_nil _).symm
  | cons x newer ih =>
    obtain ⟨hx, h⟩ := List.forall_mem_cons.mp h
    rw [List.cons_append, everPushed, ← List.append_assoc, ← ih h]
    obtain ⟨pre, a, post⟩ := x
    cases a with
    | clear => exact absurd hx id
    | append input r => rfl
    | timer => rfl
    | setLimit limit => rfl

/-! ## A session -/

/-- Thirteen detections at once, and a warning. -/
def session : List (LogAct String) :=
  List.replicate 13 (.append { level := .debug, source := .detection, message := "Class A" }
      ⟨1000, "", "1970-01-01T00:00:01.000Z"⟩) ++
    [.append { level := .warn, source := .sensor, message := "Sensor wifi-0 unhealthy" }
      ⟨1001, "1970-01-01T00:00:01.001Z", "1970-01-01T00:00:01.001Z"⟩, .timer]

def sessionSteps : LogTrace String := Machine.replaySteps LogStore.perform {} session []

def sessionEnd : LogStore String := Machine.replay LogStore.perform {} session

instance (s : LogStore δ) : ∀ a : LogAct δ, Decidable (a.Ok s)
  | .timer => inferInstanceAs (Decidable (_ = _))
  | .append .. | .setLimit _ | .clear => .isTrue trivial

theorem run_session : (logStore String).Run sessionSteps sessionEnd := by
  have hadmits : Machine.Admits LogStore.perform (fun s a ↦ a.Ok s) {} session := by
    decide +kernel
  exact Machine.Run.replay (M := logStore String) (fun _ _ hok ↦ ⟨hok, rfl⟩) session (.init rfl)
    hadmits

/-! ## Every run -/

/-- **The log is what was pushed since it was cleared**, without the oldest entries, whose number it
knows.  Their ids follow each other, the last fifty are always there, what is pending will be
merged, and nothing is dropped while there is room. -/
theorem log_kept {tr : LogTrace δ} {s : LogStore δ} (h : (logStore δ).Run tr s) :
    s.entries ++ s.pending = (sinceClear tr).drop s.dropped ∧
      (s.entries ++ s.pending).map (·.id) =
        List.range' (s.nextId - (s.entries ++ s.pending).length) (s.entries ++ s.pending).length ∧
      s.entries.length ≤ s.limit ∧
      (sinceClear tr).rtake minLimit <:+ s.entries ++ s.pending ∧
      (s.pending ≠ [] → s.timer = true) ∧
      ∀ x ∈ tr, x.pre.dropped < x.post.dropped → x.post.entries.length = x.post.limit := by
  have hkept := LogStore.kept_of_run h
  have hlength := congrArg List.length hkept.rest
  rw [List.length_drop] at hlength
  have hlt := hkept.length_lt
  have hle := hkept.dropped_le
  refine ⟨hkept.rest.symm, ?_, hkept.bounded, hkept.rtake_suffix, hkept.scheduled,
    fun x hx hdrops ↦ ?_⟩
  · rw [← hkept.rest, List.map_drop, hkept.ids, List.drop_range', List.length_drop]
    congr 1
    omega
  · obtain ⟨older, -, hrun, -, hpost⟩ := h.of_mem hx
    rw [hpost] at hdrops ⊢
    exact (LogStore.kept_of_run hrun).full_of_drops hdrops

theorem kept_session :
    sessionEnd.entries ++ sessionEnd.pending = (sinceClear sessionSteps).drop sessionEnd.dropped :=
  (log_kept run_session).1

/-- **Every debug entry is logged, or counted in a notice, or will be.** -/
theorem suppressed_announced {tr : LogTrace δ} {s : LogStore δ} (h : (logStore δ).Run tr s)
    (hplain : ∀ x ∈ tr, x.act.Plain) :
    (debugTimes tr).length =
      (loggedTimes tr).length + announcedIn (everPushed tr) + s.suppressedDebug := by
  induction h with
  | init hinit =>
    rw [show _ = ({} : LogStore δ) from hinit]
    rfl
  | @step tr s a s' hr hn ih =>
    obtain ⟨-, rfl⟩ := hn
    obtain ⟨ha, hplain⟩ := List.forall_mem_cons.mp hplain
    have hstep := s.perform_accounts (a := a) ha
    have ih := ih hplain
    rw [debugTimes, loggedTimes] at *
    rw [Machine.history_cons, Machine.history_cons, everPushed, announcedIn_append,
      List.length_append, List.length_append]
    dsimp only
    omega

theorem announced_session :
    announcedIn (everPushed sessionSteps) + sessionEnd.suppressedDebug = 1 := by
  have haccount := suppressed_announced run_session (by decide +kernel)
  have htimes : (debugTimes sessionSteps).length = 13 := by decide +kernel
  have hlogged : (loggedTimes sessionSteps).length = 12 := by decide +kernel
  omega

/-- **A second has room for no more than 24 debug entries**, and one is left out only after 12 that
were logged in the second before it. -/
theorem burst {tr : LogTrace δ} {s : LogStore δ} (h : (logStore δ).Run tr s)
    (hclock : (debugTimes tr).Pairwise (· ≤ ·)) (hepoch : ∀ now ∈ debugTimes tr, 0 ≤ now) :
    (∀ t, (FixedWindow.within debugBurstWindowMs t (loggedTimes tr)).length ≤
        2 * debugBurstLimit) ∧
      Machine.Always (fun older x ↦ ∀ now ∈ x.act.debugTime, ¬x.pre.Logs now →
        debugBurstLimit ≤ (FixedWindow.within debugBurstWindowMs (now - debugBurstWindowMs)
          (loggedTimes older)).length) tr := by
  refine ⟨fun t ↦ ?_, refused_after h hclock hepoch⟩
  rw [(window_of_run h).2]
  exact FixedWindow.length_admitted_le _ _ _ hclock t

theorem burst_session :
    (FixedWindow.within debugBurstWindowMs 1000 (loggedTimes sessionSteps)).length ≤ 24 :=
  (burst run_session (by decide +kernel) (by decide +kernel)).1 1000

end ClassG.Ui
