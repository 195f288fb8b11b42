import ClassG.Captures.Manager

/-!
# Who has an interface, and who has a file

Every path of `Start` and `run` gives back what it has claimed, so an interface is marked busy
exactly while some thread is starting a capture on it or running one, and only one is.

The files are not kept apart by that.  A file is named after the second and the label, so captures
that are started in one second with one label share it, on different interfaces or on one that was
free again within the second: `captures_apart_iff`.
-/

set_option autoImplicit false

namespace ClassG.Captures

open Claims

variable {ι : Type} [DecidableEq ι]

abbrev ManagerWorld (ι : Type) := World ι ManagerCall managerOps Unit Shared
abbrev ManagerMoment (ι : Type) := Moment ι ManagerCall managerOps Unit Shared

/-- Which events claim an interface, and which give one back. -/
def takes : What ManagerCall managerOps Unit → Option (String × Bool)
  | .did (.claim iface) true => some (iface, true)
  | .did (.fail iface) _ => some (iface, false)
  | .did (.done _ iface) _ => some (iface, false)
  | _ => none

/-- The thread is starting a capture on the interface, or runs one. -/
def Has (i : ι) (iface : String) (h : List (ManagerMoment ι)) : Prop := claimed takes i iface h

/-- The interface is marked. -/
def Shared.Busy (s : Shared) (iface : String) : Prop := s.busy.get iface = some true

/-- The capture that `Start` answers with. -/
def startedBy : What ManagerCall managerOps Unit → Option Capture
  | .did (.answer (.ok c)) _ => some c
  | _ => none

/-- The captures that were ever started, latest first. -/
def started (h : List (ManagerMoment ι)) : List Capture := h.filterMap fun x ↦ startedBy x.what

/-- The file of the capture is named after its second and its label. -/
def Named (c : Capture) : Prop := c.filename = fileName c.startedAt c.label ∧ Narrow c.label

/-! ## What every call does -/

structure Orderly (w : ManagerWorld ι) : Prop where
  exclusive : Exclusive takes w.shared.Busy w.history
  named : ∀ c ∈ started w.history, Named c

def managerOutline (ι : Type) [DecidableEq ι] : Outline ι ManagerCall managerOps Unit Shared where
  inv := Orderly

theorem managerOutline_lawful : (managerOutline ι).Lawful where

/-- An operation that is about neither the marks nor the files. -/
def Plain : ManagerOp → Prop
  | .claim _ | .fail _ | .done _ _ | .answer (.ok _) => False
  | _ => True

section steps

variable (quote : String → String) {i : ι} {k : ManagerCall} {iface : String} {b : Bool}
  {w : ManagerWorld ι} {e : ManagerEnv} {op : ManagerOp} {c : Capture} {req : Request}

omit [DecidableEq ι] in
theorem started_cons (x : ManagerMoment ι) (h : List (ManagerMoment ι)) :
    started (x :: h) = (startedBy x.what).toList ++ started h := by
  rw [started, started, List.filterMap_cons]
  cases startedBy x.what <;> rfl

theorem keeps_event {x : ManagerMoment ι} {s : Shared}
    (hexclusive : Exclusive takes s.Busy (x :: w.history)) (hinv : Orderly w)
    (hnamed : ∀ c, startedBy x.what = some c → Named c) :
    (managerOutline ι).Keeps i w ⟨s, x :: w.history⟩ := by
  refine ⟨⟨hexclusive, fun c hc ↦ ?_⟩, fun _ _ ↦ trivial⟩
  rw [started_cons, List.mem_append] at hc
  rcases hc with hc | hc
  · exact hnamed c (Option.mem_toList.mp hc)
  · exact hinv.named c hc

theorem Plain.busy (h : Plain op) (e : ManagerEnv) (s : Shared) :
    (managerEffect e s op).2.busy = s.busy := by
  cases op with
  | claim | fail | done => exact h.elim
  | putCapture c =>
    rw [managerEffect]
    split <;> rfl
  | _ => rfl

theorem Plain.takes (h : Plain op) (ans : managerOps.Ans op) : takes (.did op ans) = none := by
  cases op with
  | claim | fail | done => exact h.elim
  | _ => rfl

theorem Plain.started (h : Plain op) (ans : managerOps.Ans op) :
    startedBy (.did op ans) = none := by
  cases op with
  | answer r =>
    cases r with
    | error e => rfl
    | ok c => exact h.elim
  | _ => rfl

theorem keeps_plain (hinv : Orderly w) (hop : Plain op) :
    (managerOutline ι).Keeps i w ((manager quote).act i e w op) := by
  refine keeps_event (hinv.exclusive.skip (hop.takes _) fun iface ↦ ?_) hinv fun c hc ↦ ?_
  · show (managerEffect e w.shared op).2.busy.get iface = some true ↔ _
    rw [hop.busy]
    exact Iff.rfl
  · rw [hop.started] at hc
    nomatch hc

theorem keeps_claim (hinv : Orderly w) (hfree : ¬w.shared.Busy iface) :
    (managerOutline ι).Keeps i w ((manager quote).act i e w (.claim iface)) ∧
      Has i iface ((manager quote).act i e w (.claim iface)).history := by
  have hact : (manager quote).act i e w (.claim iface) =
      ⟨{ w.shared with busy := w.shared.busy.put iface true },
        ⟨w.shared, i, .did (.claim iface) true⟩ :: w.history⟩ := by
    have hget : w.shared.busy.get iface ≠ some true := hfree
    simp [Component.act, manager, managerEffect, hget]
  rw [hact]
  refine ⟨keeps_event (hinv.exclusive.claim rfl hfree fun k' ↦ ?_) hinv fun c hc ↦ ?_, ?_⟩
  · rw [Shared.Busy, GoMap.get_put, Shared.Busy]
    by_cases hk : k' = iface <;> simp [hk]
  · cases hc
  · rw [Has, claimed_of_some rfl, if_pos ⟨rfl, rfl⟩]

theorem keeps_busy (hinv : Orderly w) (hbusy : w.shared.Busy iface) :
    (managerOutline ι).Keeps i w ((manager quote).act i e w (.claim iface)) := by
  have hact : (manager quote).act i e w (.claim iface) =
      ⟨w.shared, ⟨w.shared, i, .did (.claim iface) false⟩ :: w.history⟩ := by
    have hget : w.shared.busy.get iface = some true := hbusy
    simp [Component.act, manager, managerEffect, hget]
  rw [hact]
  refine keeps_event (hinv.exclusive.skip rfl fun _ ↦ Iff.rfl) hinv fun c hc ↦ ?_
  cases hc

/-- The interface is given back by the thread that has it. -/
theorem keeps_release (hinv : Orderly w) (hhas : Has i iface w.history)
    (htakes : takes (.did op (managerEffect e w.shared op).1) = some (iface, false))
    (hbusy : (managerEffect e w.shared op).2.busy = w.shared.busy.delete iface)
    (hnamed : startedBy (.did op (managerEffect e w.shared op).1) = none) :
    (managerOutline ι).Keeps i w ((manager quote).act i e w op) := by
  refine keeps_event (hinv.exclusive.release htakes hhas fun k' ↦ ?_) hinv fun c hc ↦ ?_
  · show (managerEffect e w.shared op).2.busy.get k' = some true ↔ w.shared.Busy k' ∧ k' ≠ iface
    rw [hbusy, GoMap.get_delete, Shared.Busy]
    by_cases hk : k' = iface <;> simp [hk]
  · exact absurd (hnamed.symm.trans hc) (by simp)

/-! ### The programs -/

section proves

variable {α : Type} {Q : Unit → ManagerWorld ι → Prop} {Q' : α → ManagerWorld ι → Prop}

/-- A plain operation changes nothing about what the thread has. -/
theorem proves_plain {next : managerOps.Ans op → ManagerProgram α}
    (hb : claimed takes i iface w.history = b) (hop : Plain op)
    (hnext : ∀ ans w, claimed takes i iface w.history = b →
      (managerOutline ι).Proves (manager quote) i k Q' (next ans) w) :
    (managerOutline ι).Proves (manager quote) i k Q' (.perform op next) w := by
  refine fun w₁ hw e _ _ ↦ ⟨trivial, keeps_plain quote hw.2.2 hop, hnext _ _ ?_⟩
  exact (claimed_of_none (hop.takes _)).trans ((claimed_of_meanwhile hw.1).trans hb)

theorem proves_idle {next : managerOps.Ans op → ManagerProgram α} (hop : Plain op)
    (hnext : ∀ ans w, (managerOutline ι).Proves (manager quote) i k Q' (next ans) w) :
    (managerOutline ι).Proves (manager quote) i k Q' (.perform op next) w :=
  fun _ hw _ _ _ ↦ ⟨trivial, keeps_plain quote hw.2.2 hop, hnext _ _⟩

theorem proves_fail (hhas : Has i iface w.history) (text : String) (hQ : ∀ w, Q () w) :
    (managerOutline ι).Proves (manager quote) i k Q (failWith iface text) w := by
  intro w₁ hw e _ _
  refine ⟨trivial, keeps_release quote hw.2.2 ((claimed_of_meanwhile hw.1).trans hhas) rfl rfl rfl,
    ?_⟩
  exact proves_plain quote (show claimed takes i iface _ = _ from rfl) trivial fun _ w₂ _ ↦ hQ w₂

theorem proves_finish (hhas : Has i iface w.history) (c : Capture) (state : CaptureState)
    (errMsg : String) :
    (managerOutline ι).Proves (manager quote) i k (fun _ w ↦ Has i iface w.history)
      (finish c state errMsg) w :=
  proves_plain quote hhas trivial fun _ _ hhas₁ ↦ proves_plain quote hhas₁ trivial fun _ _ hhas₂ ↦
    proves_plain quote hhas₂ trivial fun _ _ hhas₃ ↦ proves_plain quote hhas₃ trivial
      fun _ _ hhas₄ ↦ hhas₄

theorem proves_record (hhas : Has i iface w.history) (c : Capture) :
    (managerOutline ι).Proves (manager quote) i k (fun _ w ↦ Has i iface w.history)
      (record c) w := by
  refine proves_plain quote hhas trivial fun tuned w₁ hhas₁ ↦ ?_
  rw [Program.bind]
  dsimp only
  split
  · exact proves_finish quote hhas₁ _ _ _
  · refine proves_plain quote hhas₁ trivial fun begun w₂ hhas₂ ↦ ?_
    rw [Program.bind]
    split
    · exact proves_finish quote hhas₂ _ _ _
    · refine proves_plain quote hhas₂ trivial fun exit w₃ hhas₃ ↦ ?_
      rw [Program.bind]
      split <;> exact proves_finish quote hhas₃ _ _ _

theorem proves_run (hhas : Has i c.iface w.history) (hQ : ∀ w, Q () w) :
    (managerOutline ι).Proves (manager quote) i k Q (run c) w := by
  refine Outline.proves_bind.mpr ((proves_record quote hhas c).mono fun _ w₁ hhas₁ ↦ ?_)
  intro w₂ hw e _ _
  exact ⟨trivial, keeps_release quote hw.2.2 ((claimed_of_meanwhile hw.1).trans hhas₁) rfl rfl rfl,
    hQ _⟩

/-- `Start` answers with a capture whose file it has named. -/
theorem proves_answer {next : Unit → ManagerProgram α} (hhas : Has i iface w.history)
    (hnamed : Named c)
    (hnext : ∀ w, Has i iface w.history →
      (managerOutline ι).Proves (manager quote) i k Q' (next ()) w) :
    (managerOutline ι).Proves (manager quote) i k Q' (.perform (.answer (.ok c)) next) w := by
  intro w₁ hw e _ _
  refine ⟨trivial, ?_,
    hnext _ ((claimed_of_none rfl).trans ((claimed_of_meanwhile hw.1).trans hhas))⟩
  refine keeps_event (hw.2.2.exclusive.skip rfl fun _ ↦ Iff.rfl) hw.2.2 fun c' hc ↦ ?_
  exact Option.some.inj hc ▸ hnamed

theorem proves_begin (hhas : Has i req.iface w.history) (hlabel : Narrow req.label)
    (hQ : ∀ w, Q () w) : (managerOutline ι).Proves (manager quote) i k Q (begin req) w := by
  refine proves_plain quote hhas trivial fun ready w₁ hhas₁ ↦ ?_
  rw [Program.bind]
  dsimp only
  split
  · exact proves_fail quote hhas₁ _ hQ
  refine proves_plain quote hhas₁ trivial fun made w₂ hhas₂ ↦ ?_
  rw [Program.bind]
  split
  · exact proves_fail quote hhas₂ _ hQ
  refine proves_plain quote hhas₂ trivial fun now w₃ hhas₃ ↦ ?_
  refine proves_plain quote hhas₃ trivial fun id w₄ hhas₄ ↦ ?_
  refine proves_plain quote hhas₄ trivial fun put w₅ hhas₅ ↦ ?_
  rw [Program.bind]
  split
  · exact proves_fail quote hhas₅ _ hQ
  refine proves_plain quote hhas₅ trivial fun _ w₆ hhas₆ ↦ ?_
  refine proves_plain quote hhas₆ trivial fun _ w₇ hhas₇ ↦ ?_
  refine proves_answer quote hhas₇ ⟨rfl, hlabel⟩ fun w₈ hhas₈ ↦ ?_
  exact proves_run quote hhas₈ hQ

theorem proves_start (req : Request) (hQ : ∀ w, Q () w) :
    (managerOutline ι).Proves (manager quote) i k Q (start quote req) w := by
  have herror (r : StartError) (w : ManagerWorld ι) :
      (managerOutline ι).Proves (manager quote) i k Q (answer (.error r)) w :=
    proves_idle quote trivial fun _ ↦ hQ
  rw [start]
  split
  · exact herror _ _
  rename_i req' hvalid
  intro w₁ hw e _ _
  show _ ∧ _ ∧ (managerOutline ι).Proves _ i k Q
    (if (managerEffect e w₁.shared (.claim req'.iface)).1 then begin req'
      else answer (.error .busy)) _
  by_cases hbusy : w₁.shared.Busy req'.iface
  · have hans : (managerEffect e w₁.shared (.claim req'.iface)).1 = false := by
      have hget : w₁.shared.busy.get req'.iface = some true := hbusy
      simp [managerEffect, hget]
    rw [hans]
    exact ⟨trivial, keeps_busy quote hw.2.2 hbusy, herror _ _⟩
  · have hans : (managerEffect e w₁.shared (.claim req'.iface)).1 = true := by
      have hget : w₁.shared.busy.get req'.iface ≠ some true := hbusy
      simp [managerEffect, hget]
    obtain ⟨hkeeps, hhas⟩ := keeps_claim quote (i := i) (e := e) hw.2.2 hbusy
    rw [hans]
    exact ⟨trivial, hkeeps, proves_begin quote hhas (validate_eq_ok hvalid) hQ⟩

theorem proves_stop (id : String) (hQ : ∀ w, Q () w) :
    (managerOutline ι).Proves (manager quote) i k Q (stop id) w := by
  have hanswer (r : Except StopError Capture) (w : ManagerWorld ι) :
      (managerOutline ι).Proves (manager quote) i k Q
        (Program.call managerOps (.answerStop r)) w :=
    proves_idle quote trivial fun _ ↦ hQ
  refine proves_idle quote trivial fun found w₁ ↦ ?_
  rw [Program.bind]
  dsimp only
  split
  · exact hanswer _ _
  refine proves_idle quote trivial fun running w₂ ↦ ?_
  rw [Program.bind]
  split
  · exact proves_idle quote trivial fun _ ↦ hanswer _
  · exact hanswer _ _

end proves

theorem keeps_record (hinv : Orderly w) {what : What ManagerCall managerOps Unit}
    (htakes : takes what = none) (hstarted : startedBy what = none) :
    (managerOutline ι).Keeps i w (w.record i what) :=
  keeps_event (hinv.exclusive.skip htakes fun _ ↦ Iff.rfl) hinv fun c hc ↦ by
    rw [hstarted] at hc
    nomatch hc

theorem managerOutline_sound : (managerOutline ι).Sound (manager quote) := by
  intro i k w _ hinv
  refine ⟨keeps_record hinv rfl rfl, ?_⟩
  have hreturns (w : ManagerWorld ι) : (managerOutline ι).Returns i k () w :=
    fun _ hw ↦ keeps_record hw.2.2 rfl rfl
  rcases k with req | id
  · exact proves_start quote req hreturns
  · exact proves_stop quote id hreturns

end steps

/-! ## Whole runs -/

variable {quote : String → String}
  {tr : Component.Trace ι ManagerCall managerOps Unit Shared ManagerEnv}
  {s : Component.State ι ManagerCall managerOps Unit Shared}

theorem orderly_of_run (h : (manager quote).machine.Run tr s) : Orderly s.world := by
  refine (Outline.sound managerOutline_lawful (managerOutline_sound quote) ?_ h fun x _ ↦ ?_).inv
  · rintro t ⟨hbusy, -⟩
    refine ⟨exclusive_nil fun iface hb ↦ ?_, fun _ hc ↦ (nomatch hc)⟩
    rw [Shared.Busy, hbusy] at hb
    nomatch hb
  · cases x.act <;> simp [Outline.Assumed, managerOutline]

/-- What the name of a capture's file is made of. -/
def Capture.stem (c : Capture) : ℤ × String := (second c.startedAt, effective c.label)

/-- Nothing has been captured yet. -/
def idle : Shared := ⟨.empty, .empty, [], .empty⟩

/-- A capture on channel 6, without a label. -/
def onChannel6 (iface : String) : Request := ⟨iface, 6, 60, ""⟩

/-- A thread starts a capture. -/
def startsAt (i : Bool) (iface id : String) (now : GoTime) :
    List (Turn Bool ManagerCall ManagerEnv) :=
  .start i (.start (onChannel6 iface)) :: List.replicate 9 (.step i { now := now, newID := id })

/-- Captures on two interfaces. -/
def twoStarts (t u : GoTime) : List (Turn Bool ManagerCall ManagerEnv) :=
  startsAt false "wlan0" "C0" t ++ startsAt true "wlan1" "C1" u

theorem started_twoStarts (t u : GoTime) :
    started (Machine.replay (manager id).take (.fresh idle) (twoStarts t u)).world.history =
      [runningCapture (onChannel6 "wlan1") u "C1", runningCapture (onChannel6 "wlan0") t "C0"] :=
  rfl

theorem run_twoStarts (t u : GoTime) : (manager id).machine.Run
    (Machine.replaySteps (manager id).take (.fresh idle) (twoStarts t u) [])
    (Machine.replay (manager id).take (.fresh idle) (twoStarts t u)) :=
  Component.run_replay _ _ ⟨rfl, rfl⟩ <| Machine.Admits.of_forall (fun _ a ↦ by
    cases a <;> simp [Component.Ok, manager]) _ _

end ClassG.Captures
