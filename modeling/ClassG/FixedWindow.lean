import Mathlib.Algebra.Order.Group.Int
import Mathlib.Data.List.Induction
import Mathlib.Tactic.Common

/-!
# Fixed windows

A limiter that admits the first `limit` requests of a window and refuses the others of it.  A window
begins with the first request that comes more than `width` after the last one began, so how many are
admitted in a time depends on where in a window it begins.

* `length_admitted_le` — between two times `width` apart no more than two windows admit anything, so
  `2 * limit` requests at most.
* `full_of_refuses` — what is refused comes after `limit` requests that were admitted in the
  `width` before it.
-/

set_option autoImplicit false

/-- When the window began, and how many requests have come in it. -/
structure FixedWindow where
  start : ℤ
  count : ℕ
  deriving DecidableEq, Repr

namespace FixedWindow

variable (limit : ℕ) (width : ℤ) (w : FixedWindow)

/-- The window that a request comes in. -/
def turn (now : ℤ) : FixedWindow := if width < now - w.start then ⟨now, 0⟩ else w

/-- The window after the request. -/
def request (now : ℤ) : FixedWindow :=
  { w.turn width now with count := (w.turn width now).count + 1 }

/-- The request is admitted. -/
def Admits (now : ℤ) : Prop := (w.turn width now).count < limit

instance (now : ℤ) : Decidable (Admits limit width w now) := inferInstanceAs (Decidable (_ < _))

/-- The window after requests. -/
def after (times : List ℤ) : FixedWindow := times.foldl (request width) w

/-- Those of the requests that are admitted. -/
def admitted : FixedWindow → List ℤ → List ℤ
  | _, [] => []
  | w, now :: times =>
    (if Admits limit width w now then [now] else []) ++ admitted (w.request width now) times

/-- Those that come between two times `width` apart. -/
def within (t : ℤ) (times : List ℤ) : List ℤ := times.filter fun x ↦ t ≤ x ∧ x ≤ t + width

variable {limit width w}

theorem turn_of_lt {now : ℤ} (h : width < now - w.start) : w.turn width now = ⟨now, 0⟩ := if_pos h

theorem turn_of_le {now : ℤ} (h : now - w.start ≤ width) : w.turn width now = w :=
  if_neg (not_lt.mpr h)

theorem request_of_lt {now : ℤ} (h : width < now - w.start) : w.request width now = ⟨now, 1⟩ := by
  rw [request, turn_of_lt h]

theorem request_of_le {now : ℤ} (h : now - w.start ≤ width) :
    w.request width now = ⟨w.start, w.count + 1⟩ := by
  rw [request, turn_of_le h]

theorem admits_of_lt (limit : ℕ) {now : ℤ} (h : width < now - w.start) :
    Admits limit width w now ↔ 0 < limit := by
  rw [Admits, turn_of_lt h]

theorem admits_of_le (limit : ℕ) {now : ℤ} (h : now - w.start ≤ width) :
    Admits limit width w now ↔ w.count < limit := by
  rw [Admits, turn_of_le h]

theorem after_append (times : List ℤ) (now : ℤ) :
    w.after width (times ++ [now]) = (w.after width times).request width now := by
  rw [after, List.foldl_append, after, List.foldl_cons, List.foldl_nil]

theorem admitted_append (times : List ℤ) (now : ℤ) :
    admitted limit width w (times ++ [now]) =
      admitted limit width w times ++
        if Admits limit width (w.after width times) now then [now] else [] := by
  induction times generalizing w with
  | nil =>
    rw [List.nil_append, admitted, admitted, admitted, List.append_nil]
    rfl
  | cons x times ih =>
    rw [List.cons_append, admitted, admitted, ih, List.append_assoc]
    rfl

theorem admitted_sublist (times : List ℤ) : (admitted limit width w times).Sublist times := by
  induction times generalizing w with
  | nil => exact .slnil
  | cons now times ih =>
    rw [admitted]
    split
    · exact ih.cons_cons now
    · exact ih.cons now

/-! ## The most that are admitted -/

theorem within_cons (t now : ℤ) (times : List ℤ) :
    within width t (now :: times) =
      (if t ≤ now ∧ now ≤ t + width then [now] else []) ++ within width t times := by
  rw [within, List.filter_cons, within]
  split <;> simp_all

theorem within_append (t : ℤ) (xs ys : List ℤ) :
    within width t (xs ++ ys) = within width t xs ++ within width t ys := List.filter_append ..

/-- Where all the requests come later, none counts. -/
theorem within_eq_nil {t : ℤ} {times : List ℤ} (h : ∀ x ∈ times, t + width < x) :
    within width t (admitted limit width w times) = [] := by
  refine List.filter_eq_nil_iff.mpr fun x hx hin ↦ ?_
  have hlate := h x ((admitted_sublist times).subset hx)
  exact absurd (of_decide_eq_true hin).2 (not_le.mpr hlate)

variable (limit width)

/-- What is counted of a request, which is admitted or not. -/
theorem length_within_admitted_cons (w : FixedWindow) (t now : ℤ) (times : List ℤ) :
    (within width t (admitted limit width w (now :: times))).length ≤
      (if Admits limit width w now then 1 else 0) +
        (within width t (admitted limit width (w.request width now) times)).length := by
  rw [admitted, within_append, List.length_append]
  refine Nat.add_le_add_right ?_ _
  split
  · exact List.length_filter_le _ _
  · rfl

/-- **One window.**  What is admitted from one that begins no sooner than the time: the next window
begins too late. -/
theorem length_within_of_le {t : ℤ} {times : List ℤ} (hsorted : times.Pairwise (· ≤ ·))
    (hstart : t ≤ w.start) :
    (within width t (admitted limit width w times)).length ≤ limit - w.count := by
  induction times generalizing w with
  | nil => exact Nat.zero_le _
  | cons now times ih =>
    obtain ⟨hnow, hsorted⟩ := List.pairwise_cons.mp hsorted
    rcases Int.lt_or_le width (now - w.start) with hlt | hle
    · have hlate : ∀ x ∈ now :: times, t + width < x := by
        rw [List.forall_mem_cons]
        refine ⟨by omega, fun x hx ↦ ?_⟩
        have := hnow x hx
        omega
      rw [within_eq_nil hlate]
      exact Nat.zero_le _
    · have hcons := length_within_admitted_cons limit width w t now times
      have hadmits := admits_of_le limit hle
      rw [request_of_le hle] at hcons
      have hih := ih (w := ⟨w.start, w.count + 1⟩) hsorted hstart
      dsimp only at hih
      split at hcons
      · next h =>
        have := hadmits.mp h
        omega
      · omega

/-- **Two windows**: the one that is open when the time begins, and the next. -/
theorem length_within_of_forall_le {t : ℤ} {times : List ℤ} (hsorted : times.Pairwise (· ≤ ·))
    (hlate : ∀ x ∈ times, t ≤ x) :
    (within width t (admitted limit width w times)).length ≤ limit - w.count + limit := by
  induction times generalizing w with
  | nil => exact Nat.zero_le _
  | cons now times ih =>
    obtain ⟨hnow, hsorted⟩ := List.pairwise_cons.mp hsorted
    obtain ⟨ht, hlate⟩ := List.forall_mem_cons.mp hlate
    have hcons := length_within_admitted_cons limit width w t now times
    rcases Int.lt_or_le width (now - w.start) with hlt | hle
    · have hadmits := admits_of_lt limit hlt
      rw [request_of_lt hlt] at hcons
      have hnext := length_within_of_le limit width (w := ⟨now, 1⟩) hsorted ht
      dsimp only at hnext
      split at hcons
      · next h =>
        have := hadmits.mp h
        omega
      · omega
    · have hadmits := admits_of_le limit hle
      rw [request_of_le hle] at hcons
      have hih := ih (w := ⟨w.start, w.count + 1⟩) hsorted hlate
      dsimp only at hih
      split at hcons
      · next h =>
        have := hadmits.mp h
        omega
      · omega

/-- **No more than twice the limit** is admitted between two times `width` apart, wherever the
windows begin. -/
theorem length_admitted_le (w : FixedWindow) {times : List ℤ} (hsorted : times.Pairwise (· ≤ ·))
    (t : ℤ) : (within width t (admitted limit width w times)).length ≤ 2 * limit := by
  induction times generalizing w with
  | nil => exact Nat.zero_le _
  | cons now times ih =>
    rcases Int.lt_or_le now t with hlt | hle
    · -- It comes too early to count.
      rw [admitted, within_append, List.length_append]
      have hearly : within width t (if Admits limit width w now then [now] else []) = [] := by
        refine List.filter_eq_nil_iff.mpr fun x hx hin ↦ ?_
        have hx : x = now := by
          split at hx
          · exact List.mem_singleton.mp hx
          · cases hx
        exact absurd (of_decide_eq_true hin).1 (by omega)
      rw [hearly, List.length_nil, Nat.zero_add]
      exact ih _ hsorted.of_cons
    · have hlate : ∀ x ∈ now :: times, t ≤ x := by
        rw [List.forall_mem_cons]
        exact ⟨hle, fun x hx ↦ hle.trans ((List.pairwise_cons.mp hsorted).1 x hx)⟩
      have htwo := length_within_of_forall_le limit width (w := w) hsorted hlate
      omega

/-! ## Before a refusal -/

variable {limit width}

/-- A window begins where it began, or with one of the requests. -/
theorem start_after (times : List ℤ) :
    (w.after width times).start = w.start ∨ (w.after width times).start ∈ times := by
  induction times using List.reverseRecOn with
  | nil => exact .inl rfl
  | append_singleton times now ih =>
    rw [after_append]
    rcases Int.lt_or_le width (now - (w.after width times).start) with hlt | hle
    · rw [request_of_lt hlt]
      exact .inr (List.mem_append_right _ (List.mem_singleton_self _))
    · rw [request_of_le hle]
      exact ih.imp_right (List.mem_append_left _)

theorem filter_singleton {start now : ℤ} (h : start ≤ now) :
    [now].filter (fun x ↦ start ≤ x) = [now] := by
  simp [h]

/-- The window has admitted what it has counted, as far as the limit. -/
theorem min_count_le (limit : ℕ) (width : ℤ) (hzero : w.count = 0) {times : List ℤ}
    (hsorted : times.Pairwise (· ≤ ·)) (hstart : ∀ x ∈ times, w.start ≤ x) :
    min (w.after width times).count limit ≤
      ((admitted limit width w times).filter fun x ↦ (w.after width times).start ≤ x).length := by
  induction times using List.reverseRecOn with
  | nil =>
    rw [show (w.after width []).count = 0 from hzero, Nat.zero_min]
    exact Nat.zero_le _
  | append_singleton times now ih =>
    obtain ⟨hsorted, -, hnow⟩ := List.pairwise_append.mp hsorted
    obtain ⟨hstart, hlast⟩ := List.forall_mem_append.mp hstart
    have ih := ih hsorted hstart
    have hbegun : (w.after width times).start ≤ now := by
      rcases (start_after times : (w.after width times).start = w.start ∨ _) with h | h
      · rw [h]
        exact hlast now (List.mem_singleton_self _)
      · exact hnow _ h now (List.mem_singleton_self _)
    rw [admitted_append, after_append, List.filter_append, List.length_append]
    rcases Int.lt_or_le width (now - (w.after width times).start) with hlt | hle
    · have hadmits := admits_of_lt limit hlt
      rw [request_of_lt hlt]
      dsimp only
      split
      · rw [filter_singleton le_rfl, List.length_singleton]
        omega
      · next h =>
        have := hadmits.not.mp h
        rw [List.filter_nil, List.length_nil]
        omega
    · have hadmits := admits_of_le limit hle
      rw [request_of_le hle]
      dsimp only
      split
      · rw [filter_singleton hbegun, List.length_singleton]
        omega
      · next h =>
        have := hadmits.not.mp h
        rw [List.filter_nil, List.length_nil]
        omega

/-- **A request is refused only after `limit` others** that were admitted in the `width` before
it. -/
theorem full_of_refuses (hzero : w.count = 0) {times : List ℤ} {now : ℤ}
    (hsorted : times.Pairwise (· ≤ ·)) (hstart : ∀ x ∈ times, w.start ≤ x)
    (hlast : ∀ x ∈ times, x ≤ now) (h : ¬Admits limit width (w.after width times) now) :
    limit ≤ (within width (now - width) (admitted limit width w times)).length := by
  rcases Int.lt_or_le width (now - (w.after width times).start) with hlt | hle
  · rw [admits_of_lt limit hlt, not_lt] at h
    exact h.trans (Nat.zero_le _)
  · rw [admits_of_le limit hle, not_lt] at h
    have hcount := min_count_le limit width hzero hsorted hstart
    rw [min_eq_right h] at hcount
    refine hcount.trans ?_
    -- The window began no more than `width` ago.
    have hsub : (admitted limit width w times).filter (fun x ↦ (w.after width times).start ≤ x) =
        ((admitted limit width w times).filter fun x ↦ (w.after width times).start ≤ x).filter
          fun x ↦ now - width ≤ x ∧ x ≤ now - width + width := by
      refine (List.filter_eq_self.mpr fun x hx ↦ ?_).symm
      obtain ⟨hx, hge⟩ := List.mem_filter.mp hx
      have hge := of_decide_eq_true hge
      have hle' := hlast x ((admitted_sublist times).subset hx)
      exact decide_eq_true ⟨by omega, by omega⟩
    rw [hsub]
    exact (List.filter_sublist.filter _).length_le

end FixedWindow
