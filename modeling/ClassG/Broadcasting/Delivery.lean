import Mathlib.Data.List.Nodup
import ClassG.Broadcasting.Hub
import ClassG.Fairness

/-!
# What the hub delivers

What a run of the hub shows of itself is read off its trace: which broadcasts were begun, which of
their frames came to a client and whether it wanted them, and which it was refused.

* `Registry` — the set of clients, and who was told that it is not in it any more.
* `Asked` — a client in the set is asked about the frame of every broadcast begun since it
  registered.
* `Received` — a client that was never refused a frame has received or still has in its queue those
  it wanted, in order.
* `hub_delivers` — all of it, for every run, and that a client that was refused a frame is told.
-/

set_option autoImplicit false

namespace ClassG.Broadcasting

open Machine Hub

variable {π ι : Type}

/-! ## What a step shows -/

section shows

variable (c : ℕ) (x : Step (Hub ι π) (Act ι π))

/-- The frame of a broadcast that is begun. -/
def begunAt : Option (Frame π) :=
  match x.act with
  | .begin f now _ => some (f.stamped now)
  | _ => none

/-- The frame that comes to the client, and whether its topics are such that it wants it. -/
def askedAt : Option (Frame π × Bool) :=
  match x.act, x.pre.broadcast with
  | .ask, .delivering f (d :: _) _ =>
    if d = c then some (f, (x.pre.client c).wants f.type) else none
  | _, _ => none

/-- The client is refused the frame: it was to be sent, and is not in the queue. -/
def refusedAt : Bool :=
  match x.act, x.pre.broadcast with
  | .send, .sending _ d _ _ =>
    d = c ∧ (x.post.client c).frames.length = (x.pre.client c).frames.length
  | _, _ => false

/-- The frame that is received from the client's queue. -/
def receivedAt : Option (Frame π) :=
  match x.act with
  | .receive d => if d = c then (x.pre.client c).frames.head? else none
  | _ => none

/-- The client registers. -/
def registersAt : Bool :=
  match x.act with
  | .register _ => x.pre.registered = c
  | _ => false

end shows

/-- The frames of the broadcasts begun since the client registered. -/
def begunSince (c : ℕ) (tr : List (Step (Hub ι π) (Act ι π))) : List (Frame π) :=
  history begunAt (tr.takeWhile fun x ↦ !registersAt c x)

/-- The frames that came to the client and that it wanted then. -/
def wanted (c : ℕ) (tr : List (Step (Hub ι π) (Act ι π))) : List (Frame π) :=
  ((history (askedAt c) tr).filter fun p ↦ p.2).map fun p ↦ p.1

/-- The client was refused a frame. -/
def Refused (c : ℕ) (tr : List (Step (Hub ι π) (Act ι π))) : Prop := ∃ x ∈ tr, refusedAt c x = true

/-! ## Where a broadcast is -/

namespace Broadcast

/-- The targets still to come. -/
def targets : Broadcast π → List ℕ
  | .delivering _ ts _ | .sending _ _ ts _ => ts
  | _ => []

/-- The slow clients that are still to be unregistered. -/
def slow : Broadcast π → List ℕ
  | .delivering _ _ slow | .sending _ _ _ slow | .dropping slow | .closing _ slow => slow
  | .idle => []

/-- The client that was deleted and not closed yet. -/
def deleted : Broadcast π → Option ℕ
  | .closing c _ => some c
  | _ => none

/-- The targets still to come, and the one that is being sent to. -/
def inHand : Broadcast π → List ℕ
  | .delivering _ ts _ => ts
  | .sending _ c ts _ => c :: ts
  | _ => []

/-- The frame that is still to come to the client. -/
def pending (c : ℕ) : Broadcast π → List (Frame π)
  | .delivering f ts _ | .sending f _ ts _ => if c ∈ ts then [f] else []
  | _ => []

/-- The frame that is being sent to the client. -/
def underway (c : ℕ) : Broadcast π → List (Frame π)
  | .sending f d _ _ => if d = c then [f] else []
  | _ => []

end Broadcast

/-! ## The set of clients -/

/-- What is so of the clients, whatever is broadcast. -/
structure Registry (h : Hub ι π) : Prop where
  known : ∀ c ∈ h.clients, c < h.registered
  nodup : h.clients.Nodup
  held : ∀ c ∈ h.broadcast.inHand, c < h.registered
  once : h.broadcast.inHand.Nodup
  bounded : ∀ c, (h.client c).frames.length ≤ clientBuffer
  drops : ∀ c, (h.client c).drops = if (h.client c).closed then 1 else 0
  /-- A client that is not in the set any more has been told, or is about to be. -/
  told : ∀ c < h.registered, c ∉ h.clients → (h.client c).closed = true ∨
    h.broadcast.deleted = some c ∨ ∃ i, h.unregistering i = some c

theorem setClient_client (h : Hub ι π) (d : ℕ) (x : Client π) (c : ℕ) :
    (h.setClient d x).client c = if c = d then x else h.client c :=
  Function.update_apply h.client d x c

theorem register_client (h : Hub ι π) (topics : List String) (c : ℕ) :
    (h.register topics).client c = if c = h.registered then { topics := topics } else h.client c :=
  Function.update_apply h.client h.registered _ c

theorem Client.closed_close (x : Client π) : x.close.closed = true := by
  rw [Client.close]
  split
  · assumption
  · rfl

theorem Client.frames_close (x : Client π) : x.close.frames = x.frames := by
  rw [Client.close]
  split <;> rfl

theorem frames_setClient_close (h : Hub ι π) (d c : ℕ) :
    ((h.setClient d (h.client d).close).client c).frames = (h.client c).frames := by
  rw [setClient_client]
  split
  · rename_i hc
    rw [hc, Client.frames_close]
  · rfl

theorem Client.drops_close {x : Client π} (h : x.drops = if x.closed then 1 else 0) :
    x.close.drops = if x.close.closed then 1 else 0 := by
  rw [Client.close]
  split
  · rename_i hc
    rwa [if_pos hc] at h
  · rename_i hc
    rw [if_neg hc] at h
    rw [if_pos rfl, h]

theorem mem_remove {h : Hub ι π} {c d : ℕ} : c ∈ (h.remove d).clients ↔ c ∈ h.clients ∧ c ≠ d := by
  show c ∈ h.clients.filter _ ↔ _
  rw [List.mem_filter, decide_eq_true_iff]

section registry

variable {h h' : Hub ι π}

/-- A client is changed: it keeps within its bounds, and stays closed if it is. -/
theorem Registry.setClient (hr : Registry h) {d : ℕ} {x : Client π}
    (hlen : x.frames.length ≤ clientBuffer) (hdrops : x.drops = if x.closed then 1 else 0)
    (hclosed : (h.client d).closed = true → x.closed = true) : Registry (h.setClient d x) where
  known := hr.known
  nodup := hr.nodup
  held := hr.held
  once := hr.once
  bounded c := by
    rw [setClient_client]
    split
    · exact hlen
    · exact hr.bounded c
  drops c := by
    rw [setClient_client]
    split
    · exact hdrops
    · exact hr.drops c
  told c hc hout := by
    rw [setClient_client]
    rcases hr.told c hc hout with h | h
    · left
      split
      · rename_i heq
        exact hclosed (heq ▸ h)
      · exact h
    · exact .inr h

/-- The broadcast goes on, and nobody is deleted or closed. -/
theorem Registry.broadcast (hr : Registry h) {b : Broadcast π}
    (hsub : b.inHand.Sublist h.broadcast.inHand) (hdel : b.deleted = h.broadcast.deleted) :
    Registry { h with broadcast := b } where
  known := hr.known
  nodup := hr.nodup
  held c hc := hr.held c (hsub.subset hc)
  once := hr.once.sublist hsub
  bounded := hr.bounded
  drops := hr.drops
  told c hc hout := by
    show _ ∨ b.deleted = some c ∨ _
    rw [hdel]
    exact hr.told c hc hout

theorem Registry.remove_known (hr : Registry h) (d : ℕ) :
    (∀ c ∈ (h.remove d).clients, c < h.registered) ∧ (h.remove d).clients.Nodup :=
  ⟨fun c hc ↦ hr.known c (mem_remove.mp hc).1, hr.nodup.filter _⟩

theorem registry_step [DecidableEq ι] {a : Act ι π} (hr : Registry h) (he : Effect h a h') :
    Registry h' := by
  cases he with
  | @register topics =>
    have hnew : h.registered ∉ h.clients := fun hm ↦ Nat.lt_irrefl _ (hr.known _ hm)
    refine ⟨fun c hc ↦ ?_, ?_, fun c hc ↦ Nat.lt_succ_of_lt (hr.held c hc), hr.once,
      fun c ↦ ?_, fun c ↦ ?_, fun c hc hout ↦ ?_⟩
    · rcases List.mem_append.mp hc with hc | hc
      · exact Nat.lt_succ_of_lt (hr.known c hc)
      · exact List.mem_singleton.mp hc ▸ Nat.lt_succ_self _
    · show (h.clients ++ [h.registered]).Nodup
      rw [← List.concat_eq_append]
      exact hr.nodup.concat hnew
    · rw [register_client]
      split
      · exact Nat.zero_le _
      · exact hr.bounded c
    · rw [register_client]
      split
      · rfl
      · exact hr.drops c
    · have hne : c ≠ h.registered := fun heq ↦ hout (List.mem_append_right _ (by simp [heq]))
      have hlt : c < h.registered := by
        have hc : c < h.registered + 1 := hc
        omega
      rw [register_client, if_neg hne]
      exact hr.told c hlt fun hmem ↦ hout (List.mem_append_left _ hmem)
  | @setTopics c topics hc => exact hr.setClient (hr.bounded c) (hr.drops c) id
  | @receive c f rest hf =>
    have hlen := hr.bounded c
    rw [hf, List.length_cons] at hlen
    exact hr.setClient (by show rest.length ≤ _; omega) (hr.drops c) id
  | @unregister i c hi hc =>
    obtain ⟨hknown, hnodup⟩ := hr.remove_known c
    refine ⟨hknown, hnodup, hr.held, hr.once, hr.bounded, hr.drops, fun d hd hout ↦ ?_⟩
    by_cases hdc : d = c
    · exact .inr (.inr ⟨i, by rw [hdc]; exact Function.update_self ..⟩)
    · rcases hr.told d hd fun hmem ↦ hout (mem_remove.mpr ⟨hmem, hdc⟩) with h | h | ⟨j, hj⟩
      · exact .inl h
      · exact .inr (.inl h)
      · refine .inr (.inr ⟨j, (Function.update_of_ne ?_ ..).trans hj⟩)
        rintro rfl
        rw [hi] at hj
        cases hj
  | unknown hc => exact hr
  | @close i c hi =>
    have hset := hr.setClient (d := c) (x := (h.client c).close)
      ((h.client c).frames_close ▸ hr.bounded c) (Client.drops_close (hr.drops c))
      fun _ ↦ (h.client c).closed_close
    refine ⟨hset.known, hset.nodup, hset.held, hset.once, hset.bounded, hset.drops,
      fun d hd hout ↦ ?_⟩
    show ((h.setClient c _).client d).closed = true ∨ _
    by_cases hdc : d = c
    · rw [setClient_client, if_pos hdc]
      exact .inl (h.client c).closed_close
    · rcases hset.told d hd hout with h | h | ⟨j, hj⟩
      · exact .inl h
      · exact .inr (.inl h)
      · refine .inr (.inr ⟨j, (Function.update_of_ne ?_ ..).trans hj⟩)
        rintro rfl
        exact hdc (Option.some.inj (hj.symm.trans hi))
  | @begin f now targets hb ht =>
    refine ⟨hr.known, hr.nodup, fun c hc ↦ hr.known c (ht.mem_iff.mp hc), ht.nodup_iff.mpr hr.nodup,
      hr.bounded, hr.drops, fun c hc hout ↦ ?_⟩
    have htold := hr.told c hc hout
    rw [hb] at htold
    exact htold
  | wanted hb _ => exact hr.broadcast (by rw [hb]; exact .refl _) (by rw [hb]; rfl)
  | unwanted hb _ =>
    exact hr.broadcast (by rw [hb]; exact List.sublist_cons_self ..) (by rw [hb]; rfl)
  | reached hb => exact hr.broadcast (List.nil_sublist _) (by rw [hb]; rfl)
  | @accept f c targets slow hb hlen =>
    have hset := hr.setClient (d := c)
      (x := { h.client c with frames := (h.client c).frames ++ [f] })
      (by rw [List.length_append, List.length_singleton]; exact hlen) (hr.drops c) id
    refine hset.broadcast ?_ ?_
    · show List.Sublist _ h.broadcast.inHand
      rw [hb]
      exact List.sublist_cons_self ..
    · show _ = h.broadcast.deleted
      rw [hb]
      rfl
  | refuse hb _ =>
    exact hr.broadcast (by rw [hb]; exact List.sublist_cons_self ..) (by rw [hb]; rfl)
  | @drop c slow hb hc =>
    obtain ⟨hknown, hnodup⟩ := hr.remove_known c
    refine ⟨hknown, hnodup, (fun _ hc ↦ nomatch hc), List.nodup_nil, hr.bounded, hr.drops,
      fun d hd hout ↦ ?_⟩
    by_cases hdc : d = c
    · exact .inr (.inl (by rw [hdc]; rfl))
    · rcases hr.told d hd fun hmem ↦ hout (mem_remove.mpr ⟨hmem, hdc⟩) with h | h | h
      · exact .inl h
      · rw [hb] at h
        cases h
      · exact .inr (.inr h)
  | dropped hb _ => exact hr.broadcast (by rw [hb]; exact .refl _) (by rw [hb]; rfl)
  | done hb => exact hr.broadcast (List.nil_sublist _) (by rw [hb]; rfl)
  | @closeDropped c slow hb =>
    have hset := hr.setClient (d := c) (x := (h.client c).close)
      ((h.client c).frames_close ▸ hr.bounded c) (Client.drops_close (hr.drops c))
      fun _ ↦ (h.client c).closed_close
    refine ⟨hset.known, hset.nodup, (fun _ hc ↦ nomatch hc), List.nodup_nil, hset.bounded,
      hset.drops, fun d hd hout ↦ ?_⟩
    show ((h.setClient c _).client d).closed = true ∨ _
    by_cases hdc : d = c
    · rw [setClient_client, if_pos hdc]
      exact .inl (h.client c).closed_close
    · rcases hset.told d hd hout with h' | h' | h'
      · exact .inl h'
      · have h' : h.broadcast.deleted = some d := h'
        rw [hb] at h'
        exact absurd (Option.some.inj h').symm hdc
      · exact .inr (.inr h')

end registry

/-! ## A client -/

/-- Nothing comes to a client that has not registered, and nothing is received from it. -/
def Fresh (tr : List (Step (Hub ι π) (Act ι π))) (h : Hub ι π) : Prop :=
  ∀ c, h.registered ≤ c → (h.client c).frames = [] ∧ history (askedAt c) tr = [] ∧
    history (receivedAt c) tr = []

/-- The client was asked about the frame of every broadcast begun since it registered, but for the
one still to come to it and those begun when it was not in the set. -/
def Asked (c : ℕ) (tr : List (Step (Hub ι π) (Act ι π))) (h : Hub ι π) : Prop :=
  ∃ missed, begunSince c tr =
      (history (askedAt c) tr).map (·.1) ++ h.broadcast.pending c ++ missed ∧
    (missed = [] ∨ (c ∉ h.clients ∧ c ∉ h.broadcast.targets))

/-- A client that was not refused a frame has received those it wanted, in order, but for what is
still in its queue and the one that is being sent to it. -/
def Received (c : ℕ) (tr : List (Step (Hub ι π) (Act ι π))) (h : Hub ι π) : Prop :=
  ¬Refused c tr →
    history (receivedAt c) tr ++ (h.client c).frames ++ h.broadcast.underway c = wanted c tr

/-- A client that was refused a frame has been told, or is about to be. -/
def Told (c : ℕ) (tr : List (Step (Hub ι π) (Act ι π))) (h : Hub ι π) : Prop :=
  Refused c tr → c < h.registered ∧ ((h.client c).closed = true ∨ c ∈ h.broadcast.slow ∨
    h.broadcast.deleted = some c ∨ ∃ i, h.unregistering i = some c)

section traces

variable (c : ℕ) {tr : List (Step (Hub ι π) (Act ι π))} {x : Step (Hub ι π) (Act ι π)}

theorem begunSince_cons (hx : registersAt c x = false) :
    begunSince c (x :: tr) = begunSince c tr ++ (begunAt x).toList := by
  rw [begunSince, List.takeWhile_cons_of_pos (by rw [hx]; rfl), history_cons, ← begunSince]

theorem begunSince_of_registers (hx : registersAt c x = true) : begunSince c (x :: tr) = [] := by
  rw [begunSince, List.takeWhile_cons_of_neg (by rw [hx]; decide), history_nil]

theorem wanted_cons_of_none (hx : askedAt c x = none) : wanted c (x :: tr) = wanted c tr := by
  rw [wanted, history_cons_of_none _ hx, ← wanted]

theorem wanted_cons {f : Frame π} {b : Bool} (hx : askedAt c x = some (f, b)) :
    wanted c (x :: tr) = wanted c tr ++ if b then [f] else [] := by
  rw [wanted, history_cons, hx, List.filter_append, List.map_append, ← wanted]
  cases b <;> rfl

theorem refused_cons : Refused c (x :: tr) ↔ refusedAt c x = true ∨ Refused c tr := by
  simp only [Refused, List.mem_cons, exists_eq_or_imp]

end traces

section step

variable {tr : List (Step (Hub ι π) (Act ι π))} {h h' : Hub ι π} {a : Act ι π}

theorem fresh_step [DecidableEq ι] (hr : Registry h) (hf : Fresh tr h) (he : Effect h a h') :
    Fresh (⟨h, a, h'⟩ :: tr) h' := by
  intro c hc
  rw [history_cons, history_cons]
  cases he with
  | register =>
    have hc : h.registered + 1 ≤ c := hc
    obtain ⟨hfr, hask, hrec⟩ := hf c (by omega)
    rw [register_client, if_neg (by omega)]
    exact ⟨hfr, by simp [askedAt, hask], by simp [receivedAt, hrec]⟩
  | @setTopics d topics hd =>
    obtain ⟨hfr, hask, hrec⟩ := hf c hc
    have hne : c ≠ d := fun heq ↦ absurd (heq ▸ hc) (Nat.not_le.mpr hd)
    rw [setClient_client, if_neg hne]
    exact ⟨hfr, by simp [askedAt, hask], by simp [receivedAt, hrec]⟩
  | @receive d f rest hd =>
    obtain ⟨hfr, hask, hrec⟩ := hf c hc
    have hne : c ≠ d := by
      rintro rfl
      rw [hfr] at hd
      cases hd
    rw [setClient_client, if_neg hne]
    exact ⟨hfr, by simp [askedAt, hask], by simp [receivedAt, hrec, Ne.symm hne]⟩
  | @close i d hi | @closeDropped d slow hb =>
    obtain ⟨hfr, hask, hrec⟩ := hf c hc
    exact ⟨(frames_setClient_close h d c).trans hfr, by simp [askedAt, hask],
      by simp [receivedAt, hrec]⟩
  | @wanted f d targets slow hb hw | @unwanted f d targets slow hb hw =>
    obtain ⟨hfr, hask, hrec⟩ := hf c hc
    have hne : d ≠ c := fun heq ↦
      absurd (hr.held d (by rw [hb]; simp [Broadcast.inHand])) (by
        have hc : h.registered ≤ c := hc
        omega)
    exact ⟨hfr, by simp [askedAt, hb, hne, hask], by simp [receivedAt, hrec]⟩
  | reached hb =>
    obtain ⟨hfr, hask, hrec⟩ := hf c hc
    exact ⟨hfr, by simp [askedAt, hb, hask], by simp [receivedAt, hrec]⟩
  | @accept f d targets slow hb hlen =>
    obtain ⟨hfr, hask, hrec⟩ := hf c hc
    have hne : c ≠ d := fun heq ↦
      absurd (hr.held d (by rw [hb]; simp [Broadcast.inHand])) (by
        have hc : h.registered ≤ c := hc
        omega)
    refine ⟨?_, by simp [askedAt, hask], by simp [receivedAt, hrec]⟩
    show ((h.setClient d _).client c).frames = []
    rwa [setClient_client, if_neg hne]
  | _ =>
    obtain ⟨hfr, hask, hrec⟩ := hf c hc
    exact ⟨hfr, by simp [askedAt, hask], by simp [receivedAt, hrec]⟩

/-- A step that is not about the frames of broadcasts leaves it at that. -/
theorem asked_of_frame {c : ℕ} (hs : Asked c tr h) (hbegun : begunAt (⟨h, a, h'⟩ : Step _ _) = none)
    (hasked : askedAt c ⟨h, a, h'⟩ = none) (hregisters : registersAt c ⟨h, a, h'⟩ = false)
    (hpending : h'.broadcast.pending c = h.broadcast.pending c)
    (hclients : c ∈ h'.clients → c ∈ h.clients)
    (htargets : c ∈ h'.broadcast.targets → c ∈ h.broadcast.targets) :
    Asked c (⟨h, a, h'⟩ :: tr) h' := by
  obtain ⟨missed, hsince, hmissed⟩ := hs
  refine ⟨missed, ?_, hmissed.imp_right fun hout ↦ ⟨mt hclients hout.1, mt htargets hout.2⟩⟩
  rw [begunSince_cons c hregisters, history_cons_of_none _ hasked, hsince, hbegun, hpending,
    Option.toList_none, List.append_nil]

/-- The client is asked, whatever it wants. -/
theorem asked_of_ask {c : ℕ} (hr : Registry h) (hs : Asked c tr h) {f : Frame π}
    {targets slow : List ℕ} (hb : h.broadcast = .delivering f (c :: targets) slow)
    (hpending : h'.broadcast.pending c = if c ∈ targets then [f] else []) :
    Asked c (⟨h, .ask, h'⟩ :: tr) h' := by
  obtain ⟨missed, hsince, hmissed⟩ := hs
  have hnone : missed = [] :=
    hmissed.resolve_right fun hout ↦ hout.2 (by rw [hb]; exact List.mem_cons_self)
  have honce : c ∉ targets := by
    have hnodup := hr.once
    rw [hb] at hnodup
    exact (List.nodup_cons.mp hnodup).1
  refine ⟨[], ?_, .inl rfl⟩
  rw [begunSince_cons c rfl, history_cons, hsince, hnone, hpending]
  simp [begunAt, askedAt, hb, Broadcast.pending, honce]

theorem asked_step [DecidableEq ι] {c : ℕ} (hr : Registry h) (hf : Fresh tr h) (hs : Asked c tr h)
    (he : Effect h a h') : Asked c (⟨h, a, h'⟩ :: tr) h' := by
  cases he with
  | @register topics =>
    by_cases hc : h.registered = c
    · have hp : c ∉ h.broadcast.targets := fun hp ↦ by
        have hheld : c ∈ h.broadcast.inHand := by
          cases hb : h.broadcast with
          | delivering f ts slow => rwa [hb] at hp
          | sending f d ts slow =>
            rw [hb] at hp
            exact List.mem_cons_of_mem d hp
          | _ =>
            rw [hb] at hp
            cases hp
        exact absurd (hr.held c hheld) (by omega)
      have hpending : h.broadcast.pending c = [] := by
        cases hb : h.broadcast with
        | delivering f ts slow | sending f d ts slow =>
          rw [hb] at hp
          exact if_neg hp
        | _ => rfl
      refine ⟨[], ?_, .inl rfl⟩
      rw [begunSince_of_registers c (by simp [registersAt, hc]), history_cons, (hf c hc.le).2.1]
      show [] = _ ++ h.broadcast.pending c ++ []
      rw [hpending]
      rfl
    · refine asked_of_frame hs rfl rfl (by simp [registersAt, hc]) rfl (fun hmem ↦ ?_) id
      rcases List.mem_append.mp hmem with hmem | hmem
      · exact hmem
      · exact absurd (List.mem_singleton.mp hmem).symm hc
  | @begin f now targets hb ht =>
    obtain ⟨missed, hsince, hmissed⟩ := hs
    have hpending : h.broadcast.pending c = [] := by rw [hb]; rfl
    by_cases hc : c ∈ targets
    · have hnone : missed = [] := hmissed.resolve_right fun hout ↦ hout.1 (ht.mem_iff.mp hc)
      refine ⟨[], ?_, .inl rfl⟩
      rw [begunSince_cons c rfl, history_cons_of_none _ rfl, hsince, hpending, hnone]
      simp [begunAt, Broadcast.pending, hc]
    · refine ⟨missed ++ [f.stamped now], ?_, .inr ⟨mt ht.mem_iff.mpr hc, hc⟩⟩
      rw [begunSince_cons c rfl, history_cons_of_none _ rfl, hsince, hpending]
      simp [begunAt, Broadcast.pending, hc]
  | @wanted f d targets slow hb hw | @unwanted f d targets slow hb hw =>
    by_cases hd : d = c
    · exact asked_of_ask hr hs (hd ▸ hb) rfl
    · refine asked_of_frame hs rfl (by simp [askedAt, hb, hd]) rfl ?_ id ?_
      · simp [hb, Broadcast.pending, Ne.symm hd]
      · simp [hb, Broadcast.targets, Ne.symm hd]
  | reached hb =>
    refine asked_of_frame hs rfl (by simp [askedAt, hb]) rfl ?_ id ?_
    · simp [hb, Broadcast.pending]
    · simp [Broadcast.targets]
  | accept hb _ | refuse hb _ =>
    refine asked_of_frame hs rfl rfl rfl ?_ id ?_
    · simp [hb, Broadcast.pending]
    · simp [hb, Broadcast.targets]
  | unregister _ _ =>
    exact asked_of_frame hs rfl rfl rfl rfl (fun hmem ↦ (mem_remove.mp hmem).1) id
  | drop hb _ =>
    refine asked_of_frame hs rfl rfl rfl ?_ (fun hmem ↦ (mem_remove.mp hmem).1) ?_
    · simp [hb, Broadcast.pending]
    · simp [Broadcast.targets]
  | dropped hb _ | done hb | closeDropped hb =>
    refine asked_of_frame hs rfl rfl rfl ?_ id ?_
    · simp [hb, Broadcast.pending]
    · simp [Broadcast.targets]
  | _ => exact asked_of_frame hs rfl rfl rfl rfl id id

/-- A step that does nothing to the client's queue leaves it at that. -/
theorem received_of_frame {c : ℕ} (hs : Received c tr h) (hasked : askedAt c ⟨h, a, h'⟩ = none)
    (hreceived : receivedAt c ⟨h, a, h'⟩ = none)
    (hframes : (h'.client c).frames = (h.client c).frames)
    (hunderway : h'.broadcast.underway c = h.broadcast.underway c) :
    Received c (⟨h, a, h'⟩ :: tr) h' := by
  intro hrefused
  rw [refused_cons, not_or] at hrefused
  rw [history_cons_of_none _ hreceived, wanted_cons_of_none c hasked, hframes, hunderway]
  exact hs hrefused.2

theorem received_step [DecidableEq ι] {c : ℕ} (hf : Fresh tr h) (hs : Received c tr h)
    (he : Effect h a h') :
    Received c (⟨h, a, h'⟩ :: tr) h' := by
  cases he with
  | @register topics =>
    refine received_of_frame hs rfl rfl ?_ rfl
    rw [register_client]
    split
    · rename_i hc
      exact (hf c hc.ge).1.symm
    · rfl
  | @setTopics d topics hd =>
    refine received_of_frame hs rfl rfl ?_ rfl
    rw [setClient_client]
    split
    · rename_i hc
      rw [hc]
    · rfl
  | @receive d f rest hd =>
    by_cases hc : d = c
    · intro hrefused
      rw [refused_cons, not_or] at hrefused
      subst hc
      rw [wanted_cons_of_none d rfl, ← hs hrefused.2, history_cons, setClient_client, if_pos rfl]
      show _ = history (receivedAt d) tr ++ _ ++ h.broadcast.underway d
      simp [receivedAt, hd]
      rfl
    · refine received_of_frame hs rfl (by simp [receivedAt, hc]) ?_ rfl
      rw [setClient_client, if_neg (Ne.symm hc)]
  | @close i d hi => exact received_of_frame hs rfl rfl (frames_setClient_close h d c) rfl
  | @closeDropped d slow hb =>
    exact received_of_frame hs rfl rfl (frames_setClient_close h d c) (by rw [hb]; rfl)
  | @wanted f d targets slow hb hw =>
    by_cases hd : d = c
    · intro hrefused
      rw [refused_cons, not_or] at hrefused
      have hold := hs hrefused.2
      rw [wanted_cons c (f := f) (b := true) (by simp [askedAt, hb, hd, ← hw]), ← hold,
        history_cons_of_none _ rfl]
      simp [hb, Broadcast.underway, hd]
    · refine received_of_frame hs (by simp [askedAt, hb, hd]) rfl rfl ?_
      simp [hb, Broadcast.underway, hd]
  | @unwanted f d targets slow hb hw =>
    by_cases hd : d = c
    · intro hrefused
      rw [refused_cons, not_or] at hrefused
      have hold := hs hrefused.2
      rw [wanted_cons c (f := f) (b := false) (by simp [askedAt, hb, hd, ← hw]), ← hold,
        history_cons_of_none _ rfl]
      simp [hb, Broadcast.underway]
    · refine received_of_frame hs (by simp [askedAt, hb, hd]) rfl rfl ?_
      simp [hb, Broadcast.underway]
  | reached hb =>
    refine received_of_frame hs (by simp [askedAt, hb]) rfl rfl ?_
    simp [hb, Broadcast.underway]
  | @accept f d targets slow hb hlen =>
    by_cases hd : d = c
    · intro hrefused
      rw [refused_cons, not_or] at hrefused
      subst hd
      rw [wanted_cons_of_none d rfl, ← hs hrefused.2, history_cons_of_none _ rfl]
      show _ ++ ((h.setClient d _).client d).frames ++ _ = _
      rw [setClient_client, if_pos rfl, hb]
      simp [Broadcast.underway]
    · refine received_of_frame hs rfl rfl ?_ ?_
      · show ((h.setClient d _).client c).frames = _
        rw [setClient_client, if_neg (Ne.symm hd)]
      · simp [hb, Broadcast.underway, hd]
  | @refuse f d targets slow hb hlen =>
    by_cases hd : d = c
    · intro hrefused
      rw [refused_cons, not_or] at hrefused
      exact absurd (by simp [refusedAt, hb, hd]) hrefused.1
    · refine received_of_frame hs rfl rfl rfl ?_
      simp [hb, Broadcast.underway, hd]
  | begin hb _ | drop hb _ | dropped hb _ | done hb =>
    refine received_of_frame hs rfl rfl rfl ?_
    simp [hb, Broadcast.underway]
  | _ => exact received_of_frame hs rfl rfl rfl rfl

/-- A client that is closed stays closed. -/
theorem closed_step [DecidableEq ι] {c : ℕ} (hlt : c < h.registered) (he : Effect h a h')
    (hc : (h.client c).closed = true) : (h'.client c).closed = true := by
  cases he with
  | register =>
    rwa [register_client, if_neg (by omega)]
  | @setTopics d topics hd | @receive d f rest hd =>
    rw [setClient_client]
    split
    · rename_i heq
      rwa [← heq]
    · exact hc
  | @accept f d targets slow hb hlen =>
    show ((h.setClient d _).client c).closed = true
    rw [setClient_client]
    split
    · rename_i heq
      rwa [← heq]
    · exact hc
  | @close i d hi | @closeDropped d slow hb =>
    show ((h.setClient d _).client c).closed = true
    rw [setClient_client]
    split
    · exact Client.closed_close _
    · exact hc
  | _ => exact hc

/-- What is put in the queue is not refused. -/
theorem not_refused_of_accept {f : Frame π} {c d : ℕ} {targets slow : List ℕ}
    (hb : h.broadcast = .sending f d targets slow) :
    refusedAt c (⟨h, .send, { h.setClient d { h.client d with
      frames := (h.client d).frames ++ [f] } with
      broadcast := .delivering f targets slow }⟩ : Step (Hub ι π) (Act ι π)) = false := by
  refine eq_false_of_ne_true fun hrefused ↦ ?_
  simp only [refusedAt, hb, decide_eq_true_eq] at hrefused
  obtain ⟨rfl, hlength⟩ := hrefused
  have hlength : ((h.setClient d { h.client d with
      frames := (h.client d).frames ++ [f] }).client d).frames.length =
        (h.client d).frames.length := hlength
  rw [setClient_client, if_pos rfl] at hlength
  simp at hlength

/-- A step that neither refuses the client a frame nor deletes or closes it leaves it at that. -/
theorem told_of_frame [DecidableEq ι] {c : ℕ} (hs : Told c tr h) (he : Effect h a h')
    (hrefused : refusedAt c (⟨h, a, h'⟩ : Step _ _) = false)
    (hregistered : h.registered ≤ h'.registered)
    (hslow : c ∈ h.broadcast.slow → c ∈ h'.broadcast.slow)
    (hdeleted : h.broadcast.deleted = some c → h'.broadcast.deleted = some c)
    (hun : ∀ i, h.unregistering i = some c → ∃ j, h'.unregistering j = some c) :
    Told c (⟨h, a, h'⟩ :: tr) h' := by
  intro hr
  rw [refused_cons, hrefused, or_iff_right (by decide)] at hr
  obtain ⟨hlt, hcases⟩ := hs hr
  refine ⟨hlt.trans_le hregistered, ?_⟩
  rcases hcases with hc | hc | hc | ⟨i, hi⟩
  · exact .inl (closed_step hlt he hc)
  · exact .inr (.inl (hslow hc))
  · exact .inr (.inr (.inl (hdeleted hc)))
  · exact .inr (.inr (.inr (hun i hi)))

theorem told_step [DecidableEq ι] {c : ℕ} (hr : Registry h) (hs : Told c tr h)
    (he : Effect h a h') : Told c (⟨h, a, h'⟩ :: tr) h' := by
  have hstep := he
  cases he with
  | register => exact told_of_frame hs hstep rfl (Nat.le_succ _) id id fun i hi ↦ ⟨i, hi⟩
  | @unregister i d hi hd =>
    refine told_of_frame hs hstep rfl le_rfl id id
      fun j hj ↦ ⟨j, (Function.update_of_ne ?_ ..).trans hj⟩
    rintro rfl
    rw [hi] at hj
    cases hj
  | @close i d hi =>
    intro hrefused
    rw [refused_cons] at hrefused
    obtain ⟨hlt, hcases⟩ := hs (hrefused.resolve_left (by simp [refusedAt]))
    refine ⟨hlt, ?_⟩
    rcases hcases with hc | hc | hc | ⟨j, hj⟩
    · exact .inl (closed_step hlt hstep hc)
    · exact .inr (.inl hc)
    · exact .inr (.inr (.inl hc))
    · by_cases hji : j = i
      · subst hji
        obtain rfl := Option.some.inj (hi.symm.trans hj)
        left
        show ((h.setClient d _).client d).closed = true
        rw [setClient_client, if_pos rfl]
        exact Client.closed_close _
      · exact .inr (.inr (.inr ⟨j, (Function.update_of_ne hji ..).trans hj⟩))
  | begin hb _ =>
    exact told_of_frame hs hstep rfl le_rfl (by simp [hb, Broadcast.slow])
      (by simp [hb, Broadcast.deleted]) fun i hi ↦ ⟨i, hi⟩
  | wanted hb _ | unwanted hb _ | reached hb =>
    exact told_of_frame hs hstep rfl le_rfl (by simp [hb, Broadcast.slow])
      (by simp [hb, Broadcast.deleted]) fun i hi ↦ ⟨i, hi⟩
  | @accept f d targets slow hb hlen =>
    exact told_of_frame hs hstep (not_refused_of_accept hb) le_rfl (by simp [hb, Broadcast.slow])
      (by simp [hb, Broadcast.deleted]) fun i hi ↦ ⟨i, hi⟩
  | @refuse f d targets slow hb hlen =>
    intro hrefused
    rw [refused_cons] at hrefused
    by_cases hd : d = c
    · refine ⟨hd ▸ hr.held d (by rw [hb]; exact List.mem_cons_self), .inr (.inl ?_)⟩
      exact List.mem_append_right _ (by simp [hd])
    · obtain ⟨hlt, hcases⟩ := hs (hrefused.resolve_left (by simp [refusedAt, hb, hd]))
      refine ⟨hlt, hcases.imp_right (Or.imp (fun hmem ↦ ?_) (Or.imp_left fun hdel ↦ ?_))⟩
      · rw [hb] at hmem
        exact List.mem_append_left _ hmem
      · rw [hb] at hdel
        cases hdel
  | @drop d slow hb hd =>
    intro hrefused
    rw [refused_cons] at hrefused
    obtain ⟨hlt, hcases⟩ := hs (hrefused.resolve_left (by simp [refusedAt]))
    refine ⟨hlt, ?_⟩
    rcases hcases with hc | hc | hc | hc
    · exact .inl hc
    · rw [hb] at hc
      rcases List.mem_cons.mp hc with rfl | hc
      · exact .inr (.inr (.inl rfl))
      · exact .inr (.inl hc)
    · rw [hb] at hc
      cases hc
    · exact .inr (.inr (.inr hc))
  | @dropped d slow hb hd =>
    intro hrefused
    rw [refused_cons] at hrefused
    obtain ⟨hlt, hcases⟩ := hs (hrefused.resolve_left (by simp [refusedAt]))
    refine ⟨hlt, ?_⟩
    rcases hcases with hc | hc | hc | hc
    · exact .inl hc
    · rw [hb] at hc
      rcases List.mem_cons.mp hc with rfl | hc
      · -- somebody else has deleted it
        rcases hr.told c hlt hd with hc | hc | hc
        · exact .inl hc
        · rw [hb] at hc
          cases hc
        · exact .inr (.inr (.inr hc))
      · exact .inr (.inl hc)
    · rw [hb] at hc
      cases hc
    · exact .inr (.inr (.inr hc))
  | done hb =>
    exact told_of_frame hs hstep rfl le_rfl (by simp [hb, Broadcast.slow])
      (by simp [hb, Broadcast.deleted]) fun i hi ↦ ⟨i, hi⟩
  | @closeDropped d slow hb =>
    intro hrefused
    rw [refused_cons] at hrefused
    obtain ⟨hlt, hcases⟩ := hs (hrefused.resolve_left (by simp [refusedAt]))
    refine ⟨hlt, ?_⟩
    rcases hcases with hc | hc | hc | hc
    · exact .inl (closed_step hlt hstep hc)
    · rw [hb] at hc
      exact .inr (.inl hc)
    · rw [hb] at hc
      obtain rfl := Option.some.inj hc
      left
      show ((h.setClient d _).client d).closed = true
      rw [setClient_client, if_pos rfl]
      exact Client.closed_close _
    · exact .inr (.inr (.inr hc))
  | _ => exact told_of_frame hs hstep rfl le_rfl id id fun i hi ↦ ⟨i, hi⟩

end step

/-! ## Runs -/

/-- What holds of a run and the hub it has reached. -/
structure Delivering (tr : List (Step (Hub ι π) (Act ι π))) (h : Hub ι π) : Prop where
  registry : Registry h
  fresh : Fresh tr h
  asked : ∀ c, Asked c tr h
  received : ∀ c, Received c tr h
  told : ∀ c, Told c tr h

theorem delivering_init : Delivering [] ({} : Hub ι π) where
  registry :=
    ⟨fun _ h ↦ (nomatch h), List.nodup_nil, fun _ h ↦ (nomatch h), List.nodup_nil,
      fun _ ↦ Nat.zero_le _, fun _ ↦ rfl, fun _ h ↦ (nomatch h)⟩
  fresh _ _ := ⟨rfl, rfl, rfl⟩
  asked _ := ⟨[], rfl, .inl rfl⟩
  received _ _ := rfl
  told _ h := by
    obtain ⟨x, hx, -⟩ := h
    cases hx

section run

variable [DecidableEq ι] {tr : List (Step (Hub ι π) (Act ι π))} {h : Hub ι π}

theorem delivering_of_run (hr : (hub ι π).Run tr h) : Delivering tr h := by
  refine hr.trace_invariant_of (C := fun _ _ ↦ True) (fun _ _ ↦ trivial) ?_ ?_
  · rintro _ rfl
    exact delivering_init
  · intro tr h a h' _ hd _ hn
    have he := effect_of_perform hn
    exact ⟨registry_step hd.registry he, fresh_step hd.registry hd.fresh he,
      fun c ↦ asked_step hd.registry hd.fresh (hd.asked c) he,
      fun c ↦ received_step hd.fresh (hd.received c) he,
      fun c ↦ told_step hd.registry (hd.told c) he⟩

/-- A frame is refused only when the client's queue is full. -/
theorem full_of_refused (hr : (hub ι π).Run tr h) {x : Step (Hub ι π) (Act ι π)} (hx : x ∈ tr)
    {c : ℕ} (hc : refusedAt c x = true) : (x.pre.client c).frames.length = clientBuffer := by
  obtain ⟨tr', -, hpre, hn⟩ := hr.of_mem hx
  have hbounded := (delivering_of_run hpre).registry.bounded c
  obtain ⟨h, a, h'⟩ := x
  have he : Effect h a h' := effect_of_perform hn
  cases he with
  | @accept f d targets slow hb hlen =>
    rw [not_refused_of_accept hb] at hc
    cases hc
  | @refuse f d targets slow hb hlen =>
    simp only [refusedAt, hb, decide_eq_true_eq] at hc
    obtain ⟨rfl, -⟩ := hc
    exact le_antisymm hbounded hlen
  | _ => cases hc

end run

/-! ## Progress -/

section progress

variable [DecidableEq ι] {h h' : Hub ι π} {a : Act ι π} {c : ℕ}

/-- The `Broadcast` that is under way takes its next step. -/
def BroadcastStep (h : Hub ι π) : Act ι π → Prop
  | .ask => ∃ f targets slow, h.broadcast = .delivering f targets slow
  | .send => ∃ f c targets slow, h.broadcast = .sending f c targets slow
  | .drop => ∃ slow, h.broadcast = .dropping slow
  | .closeDropped => ∃ c slow, h.broadcast = .closing c slow
  | _ => False

/-- The `Unregister` that is under way takes its next step. -/
def UnregisterStep (i : ι) (h : Hub ι π) : Act ι π → Prop
  | .close j => j = i ∧ h.unregistering i ≠ none
  | _ => False

/-- How many steps a `Broadcast` has left, at most. -/
def Broadcast.left : Broadcast π → ℕ
  | .idle => 0
  | .delivering _ targets slow => 2 + 4 * targets.length + 2 * slow.length
  | .sending _ _ targets slow => 5 + 4 * targets.length + 2 * slow.length
  | .dropping slow => 1 + 2 * slow.length
  | .closing _ slow => 2 + 2 * slow.length

omit [DecidableEq ι] in
theorem broadcastStep_possible {h : Hub ι π} (hb : h.broadcast ≠ .idle) :
    ∃ a : Act ι π, BroadcastStep h a := by
  cases hb' : h.broadcast with
  | idle => exact absurd hb' hb
  | delivering f targets slow => exact ⟨.ask, f, targets, slow, hb'⟩
  | sending f c targets slow => exact ⟨.send, f, c, targets, slow, hb'⟩
  | dropping slow => exact ⟨.drop, slow, hb'⟩
  | closing c slow => exact ⟨.closeDropped, c, slow, hb'⟩

/-- A `Broadcast` that is under way has ever fewer steps left. -/
theorem left_step (he : Effect h a h') (hb : h.broadcast ≠ .idle) :
    h'.broadcast.left ≤ h.broadcast.left ∧
      (BroadcastStep h a → h'.broadcast.left < h.broadcast.left) := by
  cases he with
  | begin hidle _ => exact absurd hidle hb
  | wanted hb _ | unwanted hb _ | reached hb | accept hb _ | refuse hb _ | drop hb _
  | dropped hb _ | done hb | closeDropped hb =>
    rw [hb]
    refine (fun hlt ↦ ⟨Nat.le_of_lt hlt, fun _ ↦ hlt⟩) ?_
    simp [Broadcast.left] <;> omega
  | _ => exact ⟨le_rfl, False.elim⟩

/-- The `Unregister` has deleted the client until it closes it. -/
theorem unregistering_step (he : Effect h a h') {i : ι} (hi : h.unregistering i = some c) :
    (h'.client c).closed = true ∨
      (h'.unregistering i = some c ∧ ¬UnregisterStep i h a) := by
  cases he with
  | @unregister j d hj hd =>
    refine .inr ⟨(Function.update_of_ne ?_ ..).trans hi, id⟩
    rintro rfl
    rw [hi] at hj
    cases hj
  | @close j d hj =>
    by_cases hji : j = i
    · subst hji
      obtain rfl := Option.some.inj (hj.symm.trans hi)
      left
      show ((h.setClient d _).client d).closed = true
      rw [setClient_client, if_pos rfl]
      exact Client.closed_close _
    · exact .inr ⟨(Function.update_of_ne (Ne.symm hji) ..).trans hi, fun hstep ↦ hji hstep.1⟩
  | _ => exact .inr ⟨hi, id⟩

variable {b : (hub ι π).Behavior}

/-- The client was refused a frame, and only the `Broadcast` is there to tell it. -/
def Waiting (c : ℕ) (h : Hub ι π) : Prop :=
  ∃ tr, (hub ι π).Run tr h ∧ Refused c tr ∧ (h.client c).closed = false ∧
    ∀ i, h.unregistering i ≠ some c

theorem waiting_leaves (hfair : b.Fair BroadcastStep) (c : ℕ) :
    b.LeadsTo (Waiting c) fun h ↦
      (h.client c).closed = true ∨ ∃ i, h.unregistering i = some c := by
  have hbusy {h : Hub ι π} (hw : Waiting c h) : h.broadcast ≠ .idle := by
    obtain ⟨tr, hr, hrefused, hopen, hun⟩ := hw
    intro hidle
    rcases ((delivering_of_run hr).told c hrefused).2 with hc | hc | hc | ⟨i, hi⟩
    · rw [hopen] at hc
      cases hc
    · rw [hidle] at hc
      cases hc
    · rw [hidle] at hc
      cases hc
    · exact hun i hi
  have hnext (n : ℕ) (hw : Waiting c (b.state n)) :
      ((b.state (n + 1)).client c).closed = true ∨
        (∃ i, (b.state (n + 1)).unregistering i = some c) ∨ Waiting c (b.state (n + 1)) := by
    obtain ⟨tr, hr, hrefused, -, -⟩ := hw
    cases hopen : ((b.state (n + 1)).client c).closed with
    | true => exact .inl rfl
    | false =>
      refine .inr ?_
      by_cases hun : ∃ i, (b.state (n + 1)).unregistering i = some c
      · exact .inl hun
      · exact .inr ⟨_, .step (b.act n) _ hr (b.next n), (refused_cons c).mpr (.inr hrefused), hopen,
          not_exists.mp hun⟩
  refine Machine.Behavior.leadsTo (fun h ↦ h.broadcast.left) hfair
    (fun h hw ↦ broadcastStep_possible (hbusy hw)) (fun n hw ↦ ?_) fun n hw hstep ↦ ?_
  · have hleft := left_step (effect_of_perform (b.next n)) (hbusy hw)
    rcases hnext n hw with h | h | h
    · exact .inl (.inl h)
    · exact .inl (.inr h)
    · exact .inr ⟨h, hleft.1⟩
  · have hleft := left_step (effect_of_perform (b.next n)) (hbusy hw)
    rcases hnext n hw with h | h | h
    · exact .inl (.inl h)
    · exact .inl (.inr h)
    · exact .inr ⟨h, hleft.2 hstep⟩

theorem unregistering_leaves {i : ι} (hfair : b.Fair (UnregisterStep i)) (c : ℕ) :
    b.LeadsTo (fun h ↦ h.unregistering i = some c) fun h ↦ (h.client c).closed = true := by
  refine Machine.Behavior.leadsTo (fun _ ↦ 0) hfair (fun h hi ↦ ⟨.close i, rfl, ?_⟩)
    (fun n hi ↦ ?_) fun n hi hstep ↦ ?_
  · rw [hi]
    simp
  · exact (unregistering_step (effect_of_perform (b.next n)) hi).imp_right fun h ↦ ⟨h.1, le_rfl⟩
  · exact (unregistering_step (effect_of_perform (b.next n)) hi).imp_right fun h ↦ absurd hstep h.2

/-- **A client that is refused a frame is told**, if the calls that are under way go on. -/
theorem refused_told (hbroadcast : b.Fair BroadcastStep)
    (hunregister : ∀ i, b.Fair (UnregisterStep i)) {n : ℕ} {c : ℕ}
    (hrefused : refusedAt c ⟨b.state n, b.act n, b.state (n + 1)⟩ = true) :
    ∃ m, n < m ∧ ((b.state m).client c).closed = true := by
  obtain ⟨tr, hr⟩ := b.run n
  have hr' := Run.step (b.act n) _ hr (b.next n)
  have hin : Refused c (⟨b.state n, b.act n, b.state (n + 1)⟩ :: tr) :=
    (refused_cons c).mpr (.inl hrefused)
  have hclosing {m : ℕ} (hm : n < m) {i : ι} (hi : (b.state m).unregistering i = some c) :
      ∃ m, n < m ∧ ((b.state m).client c).closed = true := by
    obtain ⟨l, hl, hclosed⟩ := unregistering_leaves (hunregister i) c m hi
    exact ⟨l, hm.trans_le hl, hclosed⟩
  by_cases hun : ∃ i, (b.state (n + 1)).unregistering i = some c
  · obtain ⟨i, hi⟩ := hun
    exact hclosing (Nat.lt_succ_self n) hi
  · cases hopen : ((b.state (n + 1)).client c).closed with
    | true => exact ⟨n + 1, Nat.lt_succ_self n, hopen⟩
    | false =>
      obtain ⟨m, hm, hclosed | ⟨i, hi⟩⟩ := waiting_leaves hbroadcast c (n + 1)
        ⟨_, hr', hin, hopen, not_exists.mp hun⟩
      · exact ⟨m, hm, hclosed⟩
      · exact hclosing hm hi

end progress

/-! ## The hub -/

/-- **What the hub delivers.**  In any run, a client that is in the set has been asked about the
frame of every broadcast begun since it registered, in order, but for the one still to come to it; a
client that was not refused a frame has received those it wanted when it was asked, in order, but
for what is in its queue and what is being sent to it.  A frame is refused only when the queue is
full.  `Dropped` is closed once at most, and a client that was refused a frame is told: its
`Dropped` is closed, or the `Broadcast` or an `Unregister` that will close it is under way. -/
theorem hub_delivers (ι π : Type) [DecidableEq ι] :
    (∀ (tr : List (Step (Hub ι π) (Act ι π))) (h : Hub ι π), (hub ι π).Run tr h → ∀ c,
      (c ∈ h.clients →
        begunSince c tr = (history (askedAt c) tr).map (·.1) ++ h.broadcast.pending c) ∧
      (¬Refused c tr →
        history (receivedAt c) tr ++ (h.client c).frames ++ h.broadcast.underway c =
          wanted c tr) ∧
      (∀ x ∈ tr, refusedAt c x = true → (x.pre.client c).frames.length = clientBuffer) ∧
      (h.client c).drops ≤ 1 ∧
      (Refused c tr → (h.client c).drops = 1 ∨ c ∈ h.broadcast.slow ∨
        h.broadcast.deleted = some c ∨ ∃ i, h.unregistering i = some c)) ∧
    ∀ b : (hub ι π).Behavior, b.Fair BroadcastStep → (∀ i, b.Fair (UnregisterStep i)) →
      ∀ n c, refusedAt c ⟨b.state n, b.act n, b.state (n + 1)⟩ = true →
        ∃ m, n < m ∧ ((b.state m).client c).drops = 1 := by
  have hdrops {tr : List (Step (Hub ι π) (Act ι π))} {h : Hub ι π} (hr : (hub ι π).Run tr h)
      {c : ℕ} (hc : (h.client c).closed = true) : (h.client c).drops = 1 := by
    rw [(delivering_of_run hr).registry.drops, if_pos hc]
  refine ⟨fun tr h hr c ↦ ?_, fun b hbroadcast hunregister n c hrefused ↦ ?_⟩
  · have hd := delivering_of_run hr
    refine ⟨fun hc ↦ ?_, hd.received c, fun x hx ↦ full_of_refused hr hx, ?_, fun hrefused ↦ ?_⟩
    · obtain ⟨missed, hsince, hmissed⟩ := hd.asked c
      rw [hsince, hmissed.resolve_right fun hout ↦ hout.1 hc, List.append_nil]
    · rw [hd.registry.drops]
      split <;> decide
    · exact (hd.told c hrefused).2.imp_left (hdrops hr)
  · obtain ⟨m, hm, hclosed⟩ := refused_told hbroadcast hunregister hrefused
    obtain ⟨tr, hr⟩ := b.run m
    exact ⟨m, hm, hdrops hr hclosed⟩

/-! ## A single frame -/

/-- The state after a step that is due. -/
def Hub.take [DecidableEq ι] (h : Hub ι π) (a : Act ι π) : Hub ι π := (h.perform a).getD h

/-- The step is due. -/
def Hub.Due [DecidableEq ι] (h : Hub ι π) (a : Act ι π) : Prop := (h.perform a).isSome

instance [DecidableEq ι] (h : Hub ι π) (a : Act ι π) : Decidable (h.Due a) :=
  inferInstanceAs (Decidable ((h.perform a).isSome = true))

theorem run_replay [DecidableEq ι] (acts : List (Act ι π))
    (h : Admits Hub.take Hub.Due {} acts) :
    (hub ι π).Run (replaySteps Hub.take {} acts []) (replay Hub.take {} acts) := by
  refine Run.replay (M := hub ι π) (fun h a hok ↦ ?_) acts (.init rfl) h
  obtain ⟨h', hh'⟩ := Option.isSome_iff_exists.mp hok
  show h.perform a = some (h.take a)
  rw [Hub.take, hh', Option.getD_some]

/-- A client subscribes to the tracks, and is sent a frame. -/
def oneFrame : List (Act Unit Unit) :=
  [.register ["tracks"], .begin ⟨.trackUpdate, 0, ()⟩ 7 [0], .ask, .send, .receive 0]

theorem hub_delivers_oneFrame :
    history (receivedAt 0) (replaySteps Hub.take {} oneFrame []) ++
      ((replay Hub.take {} oneFrame).client 0).frames ++
        (replay Hub.take {} oneFrame).broadcast.underway 0 =
      wanted 0 (replaySteps Hub.take {} oneFrame []) ∧
    wanted 0 (replaySteps Hub.take {} oneFrame []) = [⟨.trackUpdate, 7, ()⟩] := by
  refine ⟨(((hub_delivers Unit Unit).1 _ _ (run_replay oneFrame (by decide))) 0).2.1 ?_, by decide⟩
  rintro ⟨x, hx, hrefused⟩
  revert x
  decide

end ClassG.Broadcasting
