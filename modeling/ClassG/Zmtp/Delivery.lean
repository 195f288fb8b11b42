import ClassG.Zmtp.Publisher
import Mathlib.Data.List.Nodup

/-!
# What the publisher delivers

What a run of the publisher shows of itself is read off its trace: which sends were accepted, which
messages the hub handed to the peers, which of them it asked a peer about and which of those it
offered, and what the peer had said by then.

* `mem_subscriptions_iff` — a peer is subscribed to what it subscribed more recently than it
  cancelled it.
* `Ledger` — every send is counted once, and what is accepted is handed on in order.
* `Asked`, `Written` — a live peer is asked about every message handed on since it registered, and
  is written those it is offered, in order.
* `publisher_delivers` — all of it, for every run.
-/

set_option autoImplicit false

namespace ClassG.Zmtp

open Machine Publisher

/-! ## What a step shows -/

section shows

variable (hwm : ℕ) (p : ℕ) (x : Step Publisher Act)

/-- The message that is sent. -/
def sentAt : Option BusMessage :=
  match x.act with
  | .send m => some m
  | _ => none

/-- The message that is sent and accepted. -/
def acceptedAt : Option BusMessage :=
  match x.act with
  | .send m => if x.pre.accepts hwm then some m else none
  | _ => none

/-- The message that is sent and not accepted. -/
def refusedAt : Option BusMessage :=
  match x.act with
  | .send m => if x.pre.accepts hwm then none else some m
  | _ => none

/-- The message that the hub hands to the peers it finds in the registry. -/
def handedAt : Option BusMessage :=
  match x.act, x.pre.hub with
  | .snapshot, .received m => some m
  | _, _ => none

/-- The message that the hub comes to the peer with. -/
def askedAt : Option BusMessage :=
  match x.act, x.pre.hub with
  | .check, .delivering m (q :: _) => if q = p then some m else none
  | _, _ => none

/-- The message that is then offered to it. -/
def offeredAt : Option BusMessage :=
  (askedAt p x).filter fun m ↦ x.post.hub.offer = some (p, m)

/-- What the peer is heard to say. -/
def heardAt : Option (List Frame) :=
  match x.act with
  | .read q frames _ => if q = p then some frames else none
  | _ => none

/-- The peer registers. -/
def registersAt : Bool := x.act = .register ∧ x.pre.registered = p

end shows

/-- The messages handed to the peers since this one registered. -/
def handedSince (p : ℕ) (tr : List (Step Publisher Act)) : List BusMessage :=
  history handedAt (tr.takeWhile fun x ↦ !registersAt p x)

/-! ## Subscriptions -/

/-- What a subscriber may ask for. -/
inductive Update
  | subscribe (topic : List Byte)
  | cancel (topic : List Byte)
  deriving DecidableEq

/-- An update in its message form: one frame, whose first byte says which. -/
def Update.ofMessage : List Frame → Option Update
  | [⟨false, 1 :: topic⟩] => some (.subscribe topic)
  | [⟨false, 0 :: topic⟩] => some (.cancel topic)
  | _ => none

/-- What the peer has asked for, in messages. -/
def updates (p : ℕ) (tr : List (Step Publisher Act)) : List Update :=
  (history (heardAt p) tr).filterMap Update.ofMessage

/-- The topic was subscribed, and not cancelled since. -/
def Subscribed (us : List Update) (topic : List Byte) : Prop :=
  ∃ older newer, us = older ++ .subscribe topic :: newer ∧ .cancel topic ∉ newer

/-- Some prefix of the topic was. -/
def Wanted (us : List Update) (topic : List Byte) : Prop := ∃ t, t <+: topic ∧ Subscribed us t

theorem not_subscribed_nil (t : List Byte) : ¬ Subscribed [] t := by
  rintro ⟨older, newer, h, -⟩
  simp at h

theorem subscribed_append_singleton (us : List Update) (u : Update) (t : List Byte) :
    Subscribed (us ++ [u]) t ↔ u = .subscribe t ∨ (u ≠ .cancel t ∧ Subscribed us t) := by
  constructor
  · rintro ⟨older, newer, h, hnewer⟩
    rcases List.eq_nil_or_concat newer with rfl | ⟨newer, v, rfl⟩
    · exact .inl (List.append_inj_right' h rfl |> List.singleton_inj.mp)
    · rw [List.concat_eq_append, ← List.cons_append, ← List.append_assoc] at h
      obtain ⟨rfl, hv⟩ := List.append_inj' h rfl
      rw [List.concat_eq_append, List.mem_append, not_or] at hnewer
      obtain rfl := List.singleton_inj.mp hv
      exact .inr ⟨fun hu ↦ hnewer.2 (by simp [hu]), older, newer, rfl, hnewer.1⟩
  · rintro (rfl | ⟨hu, older, newer, rfl, hnewer⟩)
    · exact ⟨us, [], rfl, by simp⟩
    · refine ⟨older, newer ++ [u], by simp, ?_⟩
      simp [hnewer, Ne.symm hu]

namespace Peer

/-- What one message does to the subscriptions. -/
theorem mem_subscriptions_hear (q : Peer) (frames : List Frame) (ok : Bool) (t : List Byte) :
    t ∈ (q.hear frames ok).subscriptions ↔ Update.ofMessage frames = some (.subscribe t) ∨
      (Update.ofMessage frames ≠ some (.cancel t) ∧ t ∈ q.subscriptions) := by
  rw [hear.eq_def]
  split
  · split
    · cases ok <;> simp [Update.ofMessage, leave, kill]
    · simp [Update.ofMessage]
  · next topic =>
    have hsome : Update.ofMessage [⟨false, 1 :: topic⟩] = some (.subscribe topic) := rfl
    simp only [hsome, Option.some_inj, Update.subscribe.injEq, ne_eq, reduceCtorEq,
      not_false_eq_true, true_and]
    split
    · next h => exact ⟨.inr, fun ht ↦ ht.elim (fun e ↦ e ▸ h) id⟩
    · rw [List.mem_append, List.mem_singleton, or_comm, eq_comm]
  · next topic =>
    have hsome : Update.ofMessage [⟨false, 0 :: topic⟩] = some (.cancel topic) := rfl
    simp only [hsome, Option.some_inj, Update.cancel.injEq, ne_eq, reduceCtorEq, false_or]
    rw [List.mem_filter, decide_eq_true_iff, and_comm, eq_comm]
  · next h1 h2 h3 =>
    have hnone : Update.ofMessage frames = none := by
      rw [Update.ofMessage.eq_3 frames h2 h3]
    simp [hnone]

@[simp] theorem subscriptions_deliver (q : Peer) (m : BusMessage) (ok : Bool) :
    (q.deliver m ok).subscriptions = q.subscriptions := by
  cases ok <;> rfl

theorem subscribed_iff (q : Peer) (topic : List Byte) :
    q.subscribed topic = true ↔ ∃ t, t <+: topic ∧ t ∈ q.subscriptions := by
  rw [subscribed, List.any_eq_true]
  simp only [List.isPrefixOf_iff_prefix, and_comm]

end Peer

/-! ## Histories -/

section histories

variable (p : ℕ) {x : Step Publisher Act} (tr : List (Step Publisher Act))

theorem updates_cons_of_none (h : heardAt p x = none) : updates p (x :: tr) = updates p tr := by
  rw [updates, history_cons_of_none _ h, updates]

theorem updates_cons_of_some (frames : List Frame) (h : heardAt p x = some frames) :
    updates p (x :: tr) = updates p tr ++ (Update.ofMessage frames).toList := by
  rw [updates, history_cons, h, List.filterMap_append, updates]
  cases hf : Update.ofMessage frames <;> simp [hf]

theorem handedSince_cons_of_registers (h : registersAt p x = true) :
    handedSince p (x :: tr) = [] := by
  rw [handedSince, List.takeWhile_cons, h]
  rfl

theorem handedSince_cons (h : registersAt p x = false) :
    handedSince p (x :: tr) = handedSince p tr ++ (handedAt x).toList := by
  rw [handedSince, List.takeWhile_cons, h]
  exact history_cons ..

/-- Since it registered is part of the whole run. -/
theorem handedSince_suffix : handedSince p tr <:+ history handedAt tr := by
  obtain ⟨older, h⟩ := List.takeWhile_prefix (l := tr) fun x ↦ !registersAt p x
  refine ⟨history handedAt older, ?_⟩
  conv_rhs => rw [← h]
  rw [history, history, List.reverse_append, List.filterMap_append]
  rfl

/-- What it is offered is part of what it is asked about. -/
theorem offered_sublist_asked : (history (offeredAt p) tr).Sublist (history (askedAt p) tr) := by
  induction tr with
  | nil => exact .slnil
  | cons x tr ih =>
    rw [history_cons, history_cons]
    refine ih.append ?_
    rw [offeredAt]
    cases h : askedAt p x with
    | none => exact .slnil
    | some m =>
      rw [Option.filter_some]
      split
      · exact .refl _
      · exact List.nil_sublist _

end histories

/-! ## Accounting -/

/-- Every send is counted once, and what is accepted is handed on in order. -/
structure Ledger (hwm : ℕ) (tr : List (Step Publisher Act)) (s : Publisher) : Prop where
  published : s.published = .ofNat (history (acceptedAt hwm) tr).length
  dropped : s.dropped = .ofNat (history (refusedAt hwm) tr).length
  queued : history (acceptedAt hwm) tr = history handedAt tr ++ s.hub.taken ++ s.queue
  bounded : s.queue.length ≤ max hwm 1

theorem ledger_step {hwm : ℕ} {tr : List (Step Publisher Act)} {s s' : Publisher} {a : Act}
    (h : Ledger hwm tr s) (he : Effect hwm s a s') : Ledger hwm (⟨s, a, s'⟩ :: tr) s' := by
  obtain ⟨hpublished, hdropped, hqueued, hbounded⟩ := h
  constructor
  · rw [history_cons]
    cases he with
    | accept h => simp [acceptedAt, h, hpublished, UInt64.ofNat_add]
    | refuse h => simpa [acceptedAt, h] using hpublished
    | _ => simpa [acceptedAt, setPeer, prune, register] using hpublished
  · rw [history_cons]
    cases he with
    | accept h => simpa [refusedAt, h] using hdropped
    | refuse h => simp [refusedAt, h, hdropped, UInt64.ofNat_add]
    | _ => simpa [refusedAt, setPeer, prune, register] using hdropped
  · rw [history_cons, history_cons, hqueued]
    cases he with
    | accept h => simp [acceptedAt, handedAt, h]
    | refuse h => simp [acceptedAt, handedAt, h]
    | recv hhub hqueue => simp [acceptedAt, handedAt, Hub.taken, hhub, hqueue]
    | snapshot hhub => simp [acceptedAt, handedAt, Hub.taken, hhub, prune]
    | offer hhub _ | skip hhub _ | done hhub | write hhub =>
      simp [acceptedAt, handedAt, Hub.taken, hhub, setPeer]
    | _ => simp [acceptedAt, handedAt, setPeer, prune, register]
  · cases he with
    | accept h =>
      have hlt : s.queue.length < max hwm 1 := (of_decide_eq_true h).2
      show (s.queue ++ [_]).length ≤ _
      rw [List.length_append]
      exact hlt
    | recv hhub hqueue =>
      rw [hqueue, List.length_cons] at hbounded
      dsimp only
      omega
    | _ => exact hbounded

/-! ## The registry -/

namespace Hub

/-- The peers that the hub still holds. -/
def inHand : Hub → List ℕ
  | delivering _ ts => ts
  | writing _ p ts => p :: ts
  | _ => []

/-- What is being written to the peer. -/
def underway (p : ℕ) : Hub → List BusMessage
  | writing m q _ => if q = p then [m] else []
  | _ => []

theorem pending_of_not_mem {p : ℕ} {hub : Hub} (h : p ∉ hub.inHand) : hub.pending p = [] := by
  cases hub with
  | receiving | received m => rfl
  | delivering m ts => exact if_neg h
  | writing m q ts => exact if_neg fun hp ↦ h (List.mem_cons_of_mem q hp)

theorem length_underway_le (p : ℕ) (hub : Hub) : (hub.underway p).length ≤ 1 := by
  cases hub with
  | receiving | received m | delivering m ts => exact Nat.zero_le _
  | writing m q ts =>
    rw [underway]
    split <;> simp

theorem underway_of_not_mem {p : ℕ} {hub : Hub} (h : p ∉ hub.inHand) : hub.underway p = [] := by
  cases hub with
  | receiving | received m | delivering m ts => rfl
  | writing m q ts => exact if_neg fun e : q = p ↦ h (e ▸ List.mem_cons_self)

end Hub

/-- The registry has every live peer, and the hub has no peer twice. -/
structure Registry (s : Publisher) : Prop where
  known : ∀ p ∈ s.peers, p < s.registered
  nodup : s.peers.Nodup
  alive : ∀ p, (s.peer p).alive = true → p ∈ s.peers
  reading : ∀ p, (s.peer p).reading = true → p < s.registered
  held : ∀ p ∈ s.hub.inHand, p < s.registered
  once : s.hub.inHand.Nodup

theorem mem_prune {s : Publisher} {p : ℕ} :
    p ∈ s.prune.peers ↔ p ∈ s.peers ∧ (s.peer p).alive = true :=
  List.mem_filter

theorem setPeer_peer (s : Publisher) (p q : ℕ) (r : Peer) :
    (s.setPeer p r).peer q = if q = p then r else s.peer q :=
  Function.update_apply s.peer p r q

theorem register_peer (s : Publisher) (q : ℕ) :
    s.register.peer q = if q = s.registered then { alive := true, reading := true }
      else s.peer q :=
  Function.update_apply s.peer s.registered _ q

theorem Peer.of_deliver {q : Peer} {m : BusMessage} {ok : Bool} :
    ((q.deliver m ok).alive = true → q.alive = true) ∧
      ((q.deliver m ok).reading = true → q.reading = true) := by
  cases ok <;> simp [Peer.deliver, Peer.kill]

theorem Peer.of_hear {q : Peer} {frames : List Frame} {ok : Bool} :
    ((q.hear frames ok).alive = true → q.alive = true) ∧
      ((q.hear frames ok).reading = true → q.reading = true) := by
  rw [Peer.hear.eq_def]
  split <;> (repeat' split) <;> simp [Peer.leave, Peer.kill]

theorem registry_of_setPeer {s : Publisher} (h : Registry s) {p : ℕ} {q : Peer}
    (halive : q.alive = true → (s.peer p).alive = true)
    (hreading : q.reading = true → (s.peer p).reading = true) : Registry (s.setPeer p q) where
  known := h.known
  nodup := h.nodup
  alive r hr := by
    rw [setPeer_peer] at hr
    split at hr
    · next e => exact e ▸ h.alive p (halive hr)
    · exact h.alive r hr
  reading r hr := by
    rw [setPeer_peer] at hr
    split at hr
    · next e => exact e ▸ h.reading p (hreading hr)
    · exact h.reading r hr
  held := h.held
  once := h.once

theorem registry_of_hub {s : Publisher} (h : Registry s) {hub : Hub}
    (hsub : hub.inHand.Sublist s.hub.inHand) : Registry { s with hub := hub } :=
  ⟨h.known, h.nodup, h.alive, h.reading, fun p hp ↦ h.held p (hsub.subset hp), h.once.sublist hsub⟩

theorem registry_prune {s : Publisher} (h : Registry s) : Registry s.prune :=
  ⟨fun p hp ↦ h.known p (mem_prune.mp hp).1, h.nodup.filter _,
    fun p hp ↦ mem_prune.mpr ⟨h.alive p hp, hp⟩, h.reading, h.held, h.once⟩

theorem registry_step {hwm : ℕ} {s s' : Publisher} {a : Act} (h : Registry s)
    (he : Effect hwm s a s') : Registry s' := by
  cases he with
  | accept _ | refuse _ | stop => exact ⟨h.known, h.nodup, h.alive, h.reading, h.held, h.once⟩
  | recv hhub hqueue =>
    exact ⟨h.known, h.nodup, h.alive, h.reading, by simp [Hub.inHand], List.nodup_nil⟩
  | snapshot hhub =>
    have hp := registry_prune h
    exact ⟨hp.known, hp.nodup, hp.alive, hp.reading, hp.known, hp.nodup⟩
  | offer hhub _ => exact registry_of_hub h (by rw [hhub]; exact .refl _)
  | skip hhub _ => exact registry_of_hub h (by rw [hhub]; exact List.sublist_cons_self ..)
  | done hhub => exact registry_of_hub h (List.nil_sublist _)
  | @write m p rest ok hhub =>
    have hset := registry_of_setPeer (p := p) (q := (s.peer p).deliver m ok) h Peer.of_deliver.1
      Peer.of_deliver.2
    have hrest : rest.Sublist s.hub.inHand := by
      rw [hhub]
      exact List.sublist_cons_self ..
    exact registry_of_hub hset hrest
  | register =>
    have hp := registry_prune h
    have hnew : s.registered ∉ s.prune.peers := fun hm ↦ Nat.lt_irrefl _ (hp.known _ hm)
    refine ⟨fun p hm ↦ ?_, ?_, fun p halive ↦ ?_, fun p hreading ↦ ?_,
      fun p hm ↦ Nat.lt_succ_of_lt (h.held p hm), h.once⟩
    · rcases List.mem_append.mp hm with hm | hm
      · exact Nat.lt_succ_of_lt (hp.known p hm)
      · exact List.mem_singleton.mp hm ▸ Nat.lt_succ_self _
    · show (s.prune.peers ++ [s.registered]).Nodup
      rw [← List.concat_eq_append]
      exact hp.nodup.concat hnew
    · show p ∈ s.prune.peers ++ [s.registered]
      rw [register_peer] at halive
      split at halive
      · next e => simp [e]
      · exact List.mem_append_left _ (hp.alive p halive)
    · show p < s.registered + 1
      rw [register_peer] at hreading
      split at hreading
      · next e => exact e ▸ Nat.lt_succ_self _
      · exact Nat.lt_succ_of_lt (h.reading p hreading)
  | read _ => exact registry_of_setPeer h Peer.of_hear.1 Peer.of_hear.2
  | hangUp _ => exact registry_of_setPeer h (by simp [Peer.leave, Peer.kill]) (by simp [Peer.leave])
  | prune => exact registry_prune h

/-! ## A peer -/

/-- Nothing is heard from a peer that never registered, and it is asked about nothing. -/
def Unheard (tr : List (Step Publisher Act)) (s : Publisher) : Prop :=
  ∀ p, s.registered ≤ p → history (heardAt p) tr = [] ∧ history (askedAt p) tr = []

/-- The publisher remembers what the peer is subscribed to. -/
def Remembered (p : ℕ) (tr : List (Step Publisher Act)) (s : Publisher) : Prop :=
  ∀ t, t ∈ (s.peer p).subscriptions ↔ Subscribed (updates p tr) t

/-- The peer was asked about every message handed on since it registered but the one still pending
and those handed on when it was dead. -/
def Asked (p : ℕ) (tr : List (Step Publisher Act)) (s : Publisher) : Prop :=
  ∃ missed, handedSince p tr = history (askedAt p) tr ++ s.hub.pending p ++ missed ∧
    (missed = [] ∨ ((s.peer p).alive = false ∧ p ∉ s.hub.targets))

/-- The messages among the buffers written to a peer. -/
def Peer.messages (q : Peer) : List (List Byte) := q.out.filter (· ≠ pong)

/-- The peer was written every message it was offered but the one under way, or the one whose write
did not get through. -/
def Written (p : ℕ) (tr : List (Step Publisher Act)) (s : Publisher) : Prop :=
  ∃ lost : List BusMessage,
    (s.peer p).messages ++ lost.map BusMessage.buffer =
      (history (offeredAt p) tr).map BusMessage.buffer ∧
    (lost = s.hub.underway p ∨
      lost.length = 1 ∧ (s.peer p).alive = false ∧ p ∉ s.hub.inHand)

section step

variable {hwm : ℕ} {tr : List (Step Publisher Act)} {s s' : Publisher} {a : Act}

theorem unheard_step (hreg : Registry s) (h : Unheard tr s) (he : Effect hwm s a s') :
    Unheard (⟨s, a, s'⟩ :: tr) s' := by
  intro p hp
  rw [history_cons, history_cons]
  cases he with
  | @offer m q rest hhub _ | @skip m q rest hhub _ =>
    have hq : q < s.registered := hreg.held q (by simp [hhub, Hub.inHand])
    have hne : q ≠ p := fun e ↦ absurd (e ▸ hq) (Nat.not_lt.mpr hp)
    simpa [heardAt, askedAt, hhub, hne] using h p hp
  | @read q frames ok hreading =>
    have hne : q ≠ p := fun e ↦ absurd (e ▸ hreg.reading q hreading) (Nat.not_lt.mpr hp)
    simpa [heardAt, askedAt, hne] using h p hp
  | register => simpa [heardAt, askedAt] using h p (Nat.le_of_succ_le hp)
  | done hhub => simpa [heardAt, askedAt, hhub] using h p hp
  | _ => simpa [heardAt, askedAt] using h p hp

theorem remembered_step (hnew : Unheard tr s) {p : ℕ} (h : Remembered p tr s)
    (he : Effect hwm s a s') : Remembered p (⟨s, a, s'⟩ :: tr) s' := by
  intro t
  cases he with
  | @write m q rest ok hhub =>
    rw [updates_cons_of_none p tr rfl, ← h t]
    show t ∈ ((s.setPeer q _).peer p).subscriptions ↔ _
    rw [setPeer_peer]
    split
    · next e => rw [Peer.subscriptions_deliver, e]
    · rfl
  | register =>
    rw [updates_cons_of_none p tr rfl, register_peer]
    split
    · next e =>
      rw [updates, (hnew p e.ge).1]
      exact iff_of_false (List.not_mem_nil) (not_subscribed_nil t)
    · exact h t
  | @read q frames ok hreading =>
    rw [setPeer_peer]
    split
    · next e =>
      rw [updates_cons_of_some p tr frames (by simp [heardAt, e]), ← e,
        Peer.mem_subscriptions_hear, h t]
      cases Update.ofMessage frames with
      | none => simp
      | some u => simp [subscribed_append_singleton]
    · next e =>
      rw [updates_cons_of_none p tr (by simp [heardAt, Ne.symm e])]
      exact h t
  | @hangUp q hreading =>
    rw [updates_cons_of_none p tr rfl, ← h t, setPeer_peer]
    split
    · next e => rw [e, Peer.leave, Peer.kill]
    · rfl
  | _ =>
    rw [updates_cons_of_none p tr rfl]
    exact h t

/-- A peer that is dead stays dead. -/
theorem alive_of_effect (he : Effect hwm s a s') {p : ℕ} (hne : registersAt p ⟨s, a, s'⟩ = false)
    (h : (s'.peer p).alive = true) : (s.peer p).alive = true := by
  cases he with
  | @write m q rest ok _ =>
    have h : ((s.setPeer q ((s.peer q).deliver m ok)).peer p).alive = true := h
    rw [setPeer_peer] at h
    split at h
    · next e => exact e ▸ Peer.of_deliver.1 h
    · exact h
  | register =>
    rw [register_peer, if_neg] at h
    · exact h
    · rintro rfl
      simp [registersAt] at hne
  | @read q frames ok _ =>
    rw [setPeer_peer] at h
    split at h
    · next e => exact e ▸ Peer.of_hear.1 h
    · exact h
  | @hangUp q _ =>
    rw [setPeer_peer] at h
    split at h
    · simp [Peer.leave, Peer.kill] at h
    · exact h
  | _ => exact h

/-- A step that is not about the messages handed on leaves it at that. -/
theorem asked_of_frame (he : Effect hwm s a s') {p : ℕ} (h : Asked p tr s)
    (hhanded : handedAt ⟨s, a, s'⟩ = none) (hasked : askedAt p ⟨s, a, s'⟩ = none)
    (hregisters : registersAt p ⟨s, a, s'⟩ = false)
    (hpending : s'.hub.pending p = s.hub.pending p)
    (htargets : p ∈ s'.hub.targets → p ∈ s.hub.targets) : Asked p (⟨s, a, s'⟩ :: tr) s' := by
  obtain ⟨missed, hsince, hmissed⟩ := h
  refine ⟨missed, ?_, hmissed.imp_right fun ⟨hdead, hp⟩ ↦ ⟨?_, mt htargets hp⟩⟩
  · rw [handedSince_cons p tr hregisters, history_cons_of_none _ hasked, hsince, hhanded, hpending,
      Option.toList_none, List.append_nil]
  · exact eq_false_of_ne_true fun halive ↦
      absurd (alive_of_effect he hregisters halive) (ne_true_of_eq_false hdead)

/-- The hub comes to the peer with a message, whatever it does then. -/
theorem asked_of_check {p : ℕ} (hreg : Registry s) (h : Asked p tr s) {m : BusMessage}
    {rest : List ℕ} (hhub : s.hub = .delivering m (p :: rest))
    (hpending : s'.hub.pending p = if p ∈ rest then [m] else []) :
    Asked p (⟨s, .check, s'⟩ :: tr) s' := by
  obtain ⟨missed, hsince, hmissed⟩ := h
  have hmissed : missed = [] :=
    hmissed.resolve_right fun ⟨_, hp⟩ ↦ hp (by simp [hhub, Hub.targets])
  have honce : p ∉ rest := by
    have := hreg.once
    rw [hhub] at this
    exact (List.nodup_cons.mp this).1
  refine ⟨[], ?_, .inl rfl⟩
  rw [handedSince_cons p tr (by simp [registersAt]), history_cons, hsince, hmissed, hpending]
  simp [handedAt, askedAt, hhub, Hub.pending, honce]

theorem asked_step (hreg : Registry s) (hnew : Unheard tr s) {p : ℕ} (h : Asked p tr s)
    (he : Effect hwm s a s') : Asked p (⟨s, a, s'⟩ :: tr) s' := by
  have hstep := he
  cases he with
  | @recv m queue hhub hqueue =>
    refine asked_of_frame hstep h rfl rfl rfl ?_ ?_
    · simp [hhub, Hub.pending]
    · simp [Hub.targets]
  | @snapshot m hhub =>
    obtain ⟨missed, hsince, hmissed⟩ := h
    have hpending : s.hub.pending p = [] := by simp [hhub, Hub.pending]
    by_cases hp : p ∈ s.prune.peers
    · have hmissed : missed = [] :=
        hmissed.resolve_right fun h ↦ by simp [(mem_prune.mp hp).2] at h
      refine ⟨[], ?_, .inl rfl⟩
      rw [handedSince_cons p tr rfl, history_cons, hsince, hpending, hmissed]
      simp [handedAt, askedAt, hhub, Hub.pending, hp]
    · refine ⟨missed ++ [m], ?_, .inr ⟨?_, hp⟩⟩
      · rw [handedSince_cons p tr rfl, history_cons, hsince, hpending]
        simp [handedAt, askedAt, hhub, Hub.pending, hp]
      · exact eq_false_of_ne_true fun halive ↦ hp (mem_prune.mpr ⟨hreg.alive p halive, halive⟩)
  | @offer m q rest hhub hsub =>
    by_cases e : q = p
    · exact asked_of_check hreg h (e ▸ hhub) rfl
    · refine asked_of_frame hstep h rfl (by simp [askedAt, hhub, e]) rfl ?_ ?_
      · simp [hhub, Hub.pending, Ne.symm e]
      · simp [hhub, Hub.targets, Ne.symm e]
  | @skip m q rest hhub hsub =>
    by_cases e : q = p
    · exact asked_of_check hreg h (e ▸ hhub) rfl
    · refine asked_of_frame hstep h rfl (by simp [askedAt, hhub, e]) rfl ?_ ?_
      · simp [hhub, Hub.pending, Ne.symm e]
      · simp [hhub, Hub.targets, Ne.symm e]
  | done hhub =>
    refine asked_of_frame hstep h rfl (by simp [askedAt, hhub]) rfl ?_ ?_
    · simp [hhub, Hub.pending]
    · simp [Hub.targets]
  | write hhub =>
    refine asked_of_frame hstep h rfl rfl rfl ?_ ?_
    · simp [hhub, Hub.pending]
    · simp [hhub, Hub.targets]
  | register =>
    by_cases e : s.registered = p
    · have hp : p ∉ s.hub.inHand := fun hp ↦ absurd (hreg.held p hp) (by omega)
      have hpending : s.register.hub.pending p = [] := Hub.pending_of_not_mem hp
      refine ⟨[], ?_, .inl rfl⟩
      rw [handedSince_cons_of_registers p tr (by simp [registersAt, e]), history_cons,
        (hnew p e.le).2, hpending]
      rfl
    · exact asked_of_frame hstep h rfl rfl (by simp [registersAt, e]) rfl id
  | _ => exact asked_of_frame hstep h rfl rfl rfl rfl id

/-- A step that neither offers the peer a message nor ends a write to it leaves it at that. -/
theorem written_of_frame (he : Effect hwm s a s') {p : ℕ} (h : Written p tr s)
    (hoffered : offeredAt p ⟨s, a, s'⟩ = none) (hregisters : registersAt p ⟨s, a, s'⟩ = false)
    (hmessages : (s'.peer p).messages = (s.peer p).messages)
    (hunderway : s'.hub.underway p = s.hub.underway p)
    (hinHand : (s.peer p).alive = false → p ∉ s.hub.inHand → p ∉ s'.hub.inHand) :
    Written p (⟨s, a, s'⟩ :: tr) s' := by
  obtain ⟨lost, hwritten, hlost⟩ := h
  refine ⟨lost, ?_, ?_⟩
  · rw [history_cons_of_none _ hoffered, hmessages, hwritten]
  · rw [hunderway]
    refine hlost.imp_right fun ⟨hone, hdead, hp⟩ ↦ ⟨hone, ?_, hinHand hdead hp⟩
    exact eq_false_of_ne_true fun halive ↦
      absurd (alive_of_effect he hregisters halive) (ne_true_of_eq_false hdead)

theorem buffer_ne_pong (m : BusMessage) : m.buffer ≠ pong := by
  rw [BusMessage.buffer, encodeFrame]
  split <;> exact fun h ↦ absurd (List.cons.inj h).1 (by decide)

namespace Peer

theorem messages_hear (q : Peer) (frames : List Frame) (ok : Bool) :
    (q.hear frames ok).messages = q.messages := by
  rw [hear.eq_def]
  split <;> (repeat' split) <;> simp [messages, leave, kill]

theorem messages_deliver_true (q : Peer) (m : BusMessage) :
    (q.deliver m true).messages = q.messages ++ [m.buffer] := by
  simp [messages, deliver, buffer_ne_pong]

theorem messages_deliver_false (q : Peer) (m : BusMessage) :
    (q.deliver m false).messages = q.messages := rfl

end Peer

theorem written_step (hreg : Registry s) (hnew : Unheard tr s) {p : ℕ} (h : Written p tr s)
    (he : Effect hwm s a s') : Written p (⟨s, a, s'⟩ :: tr) s' := by
  have hstep := he
  cases he with
  | recv hhub hqueue =>
    refine written_of_frame hstep h rfl rfl rfl ?_ ?_
    · simp [hhub, Hub.underway]
    · simp [Hub.inHand]
  | snapshot hhub =>
    refine written_of_frame hstep h rfl rfl rfl ?_ fun hdead _ hp ↦ ?_
    · simp [hhub, Hub.underway]
    · exact absurd (mem_prune.mp hp).2 (ne_true_of_eq_false hdead)
  | @offer m q rest hhub hsub =>
    by_cases e : q = p
    · obtain ⟨lost, hwritten, hlost⟩ := h
      have hlost : lost = [] := by
        rcases hlost with hlost | ⟨-, -, hp⟩
        · simpa [hhub, Hub.underway] using hlost
        · exact absurd (by simp [hhub, Hub.inHand, e]) hp
      refine ⟨[m], ?_, .inl (by simp [Hub.underway, e])⟩
      rw [history_cons, List.map_append, ← hwritten, hlost]
      simp [offeredAt, askedAt, hhub, e, Hub.offer, Option.filter_some]
    · refine written_of_frame hstep h ?_ rfl rfl ?_ fun _ hp ↦ ?_
      · simp [offeredAt, askedAt, hhub, e]
      · simp [hhub, Hub.underway, e]
      · simpa [hhub, Hub.inHand] using hp
  | @skip m q rest hhub hsub =>
    refine written_of_frame hstep h ?_ rfl rfl ?_ fun _ hp ↦ ?_
    · simp [offeredAt, Hub.offer]
    · simp [hhub, Hub.underway]
    · rw [hhub] at hp
      exact fun hp' ↦ hp (List.mem_cons_of_mem q hp')
  | done hhub =>
    refine written_of_frame hstep h ?_ rfl rfl ?_ ?_
    · simp [offeredAt, askedAt, hhub]
    · simp [hhub, Hub.underway]
    · simp [Hub.inHand]
  | @write m q rest ok hhub =>
    by_cases e : p = q
    · obtain ⟨lost, hwritten, hlost⟩ := h
      have hlost : lost = [m] := by
        rcases hlost with hlost | ⟨-, -, hp⟩
        · simpa [hhub, Hub.underway, e] using hlost
        · exact absurd (by simp [hhub, Hub.inHand, e]) hp
      have hpeer : ((s.setPeer q ((s.peer q).deliver m ok)).peer p) = (s.peer p).deliver m ok := by
        rw [setPeer_peer, if_pos e, e]
      cases ok with
      | true =>
        refine ⟨[], ?_, .inl rfl⟩
        show ((s.setPeer q ((s.peer q).deliver m true)).peer p).messages ++ [] = _
        rw [hpeer, Peer.messages_deliver_true, List.append_nil, history_cons_of_none _ rfl,
          ← hwritten, hlost]
        rfl
      | false =>
        have honce := hreg.once
        rw [hhub] at honce
        refine ⟨[m], ?_, .inr ⟨rfl, ?_, e ▸ (List.nodup_cons.mp honce).1⟩⟩
        · show ((s.setPeer q ((s.peer q).deliver m false)).peer p).messages ++ _ = _
          rw [hpeer, Peer.messages_deliver_false, history_cons_of_none _ rfl, ← hwritten, hlost]
        · show ((s.setPeer q ((s.peer q).deliver m false)).peer p).alive = false
          rw [hpeer]
          rfl
    · refine written_of_frame hstep h rfl rfl ?_ ?_ fun _ hp ↦ ?_
      · show ((s.setPeer q ((s.peer q).deliver m ok)).peer p).messages = _
        rw [setPeer_peer, if_neg e]
      · simp [hhub, Hub.underway, Ne.symm e]
      · rw [hhub] at hp
        exact fun hp' ↦ hp (List.mem_cons_of_mem q hp')
  | register =>
    by_cases e : s.registered = p
    · have hp : p ∉ s.hub.inHand := fun hp ↦ absurd (hreg.held p hp) (by omega)
      have hnone : history (offeredAt p) tr = [] :=
        List.sublist_nil.mp ((hnew p e.le).2 ▸ offered_sublist_asked p tr)
      refine ⟨[], ?_, .inl (Hub.underway_of_not_mem hp).symm⟩
      rw [register_peer, if_pos e.symm, history_cons_of_none _ rfl, hnone]
      rfl
    · refine written_of_frame hstep h rfl (by simp [registersAt, e]) ?_ rfl fun _ ↦ id
      rw [register_peer, if_neg (Ne.symm e)]
  | @read q frames ok hreading =>
    refine written_of_frame hstep h rfl rfl ?_ rfl fun _ ↦ id
    rw [setPeer_peer]
    split
    · next e => rw [e, Peer.messages_hear]
    · rfl
  | @hangUp q hreading =>
    refine written_of_frame hstep h rfl rfl ?_ rfl fun _ ↦ id
    rw [setPeer_peer]
    split
    · next e => exact e ▸ rfl
    · rfl
  | _ => exact written_of_frame hstep h rfl rfl rfl rfl fun _ ↦ id

end step

/-! ## Runs -/

/-- What holds of a run and the state it has reached. -/
structure Delivering (hwm : ℕ) (tr : List (Step Publisher Act)) (s : Publisher) : Prop where
  ledger : Ledger hwm tr s
  registry : Registry s
  unheard : Unheard tr s
  remembered : ∀ p, Remembered p tr s
  asked : ∀ p, Asked p tr s
  written : ∀ p, Written p tr s

theorem delivering_init (hwm : ℕ) : Delivering hwm [] {} where
  ledger := ⟨rfl, rfl, rfl, Nat.zero_le _⟩
  registry := ⟨by simp, List.nodup_nil, by simp, by simp, by simp [Hub.inHand], List.nodup_nil⟩
  unheard _ _ := ⟨rfl, rfl⟩
  remembered _ t := iff_of_false List.not_mem_nil (not_subscribed_nil t)
  asked _ := ⟨[], rfl, .inl rfl⟩
  written _ := ⟨[], rfl, .inl rfl⟩

section run

variable {hwm : ℕ} {tr : List (Step Publisher Act)} {s : Publisher}

theorem delivering_of_run (h : (publisher hwm).Run tr s) : Delivering hwm tr s := by
  refine h.trace_invariant_of (C := fun _ _ ↦ True) (fun _ _ ↦ trivial) ?_ ?_
  · rintro _ rfl
    exact delivering_init hwm
  · intro tr s a s' _ hd _ hn
    have he := effect_of_perform hn
    exact ⟨ledger_step hd.ledger he, registry_step hd.registry he,
      unheard_step hd.registry hd.unheard he,
      fun p ↦ remembered_step hd.unheard (hd.remembered p) he,
      fun p ↦ asked_step hd.registry hd.unheard (hd.asked p) he,
      fun p ↦ written_step hd.registry hd.unheard (hd.written p) he⟩

/-- Whether a peer is offered a message depends on what it has subscribed to by then. -/
theorem offered_iff {a : Act} {s' : Publisher} (hd : Delivering hwm tr s) (he : Effect hwm s a s')
    {p : ℕ} {m : BusMessage} (hasked : askedAt p ⟨s, a, s'⟩ = some m) :
    offeredAt p ⟨s, a, s'⟩ = some m ↔ Wanted (updates p tr) m.topic := by
  have hwanted : (s.peer p).subscribed m.topic = true ↔ Wanted (updates p tr) m.topic := by
    rw [Peer.subscribed_iff, Wanted]
    exact exists_congr fun t ↦ and_congr_right fun _ ↦ hd.remembered p t
  rw [offeredAt, hasked, Option.filter_some, ← hwanted]
  cases he with
  | @offer m' q rest hhub hsub =>
    obtain ⟨rfl, rfl⟩ : q = p ∧ m' = m := by simpa [askedAt, hhub] using hasked
    simp [hsub, Hub.offer]
  | @skip m' q rest hhub hsub =>
    obtain ⟨rfl, rfl⟩ : q = p ∧ m' = m := by simpa [askedAt, hhub] using hasked
    simp [hsub, Hub.offer]
  | done hhub => simp [askedAt, hhub] at hasked
  | _ => simp [askedAt] at hasked

/-- A send is accepted or refused. -/
theorem length_sent (hwm : ℕ) (tr : List (Step Publisher Act)) :
    (history sentAt tr).length =
      (history (acceptedAt hwm) tr).length + (history (refusedAt hwm) tr).length := by
  induction tr with
  | nil => rfl
  | cons x tr ih =>
    have hx : (sentAt x).toList.length =
        (acceptedAt hwm x).toList.length + (refusedAt hwm x).toList.length := by
      rw [sentAt, acceptedAt, refusedAt]
      split
      · split <;> rfl
      · rfl
    simp only [history_cons, List.length_append, ih, hx]
    omega

/-- **What the publisher delivers**, in any run.  Every send is counted once, as published if the
queue took it and as dropped if not; what the queue took is handed to the peers in the order in
which it was sent.  A peer is asked, in that order, about what is handed on from its registration
on, and a live one about all of it.  It is offered a message exactly if, by then, some prefix of the
topic is one that it subscribed in a message and did not cancel in a later one; and what it is
offered is written to it in that order, but for what is under way and for the write that fails. -/
theorem publisher_delivers (h : (publisher hwm).Run tr s) :
    (history sentAt tr).length =
      (history (acceptedAt hwm) tr).length + (history (refusedAt hwm) tr).length ∧
    s.published = .ofNat (history (acceptedAt hwm) tr).length ∧
    s.dropped = .ofNat (history (refusedAt hwm) tr).length ∧
    history (acceptedAt hwm) tr = history handedAt tr ++ s.hub.taken ++ s.queue ∧
    s.queue.length ≤ max hwm 1 ∧
    ∀ p,
      Always (fun older x ↦ ∀ m, askedAt p x = some m →
        (offeredAt p x = some m ↔ Wanted (updates p older) m.topic)) tr ∧
      history (askedAt p) tr <+: handedSince p tr ∧
      handedSince p tr <:+ history handedAt tr ∧
      ((s.peer p).alive = true →
        handedSince p tr = history (askedAt p) tr ++ s.hub.pending p) ∧
      (history (offeredAt p) tr).Sublist (history (askedAt p) tr) ∧
      ∃ lost : List BusMessage,
        (s.peer p).messages ++ lost.map BusMessage.buffer =
          (history (offeredAt p) tr).map BusMessage.buffer ∧
        lost.length ≤ 1 ∧ ((s.peer p).alive = true → lost = s.hub.underway p) := by
  have hd := delivering_of_run h
  refine ⟨length_sent hwm tr, hd.ledger.published, hd.ledger.dropped, hd.ledger.queued,
    hd.ledger.bounded, fun p ↦ ⟨?_, ?_, handedSince_suffix p tr, ?_, offered_sublist_asked p tr, ?_⟩⟩
  · clear hd
    induction h with
    | init _ => trivial
    | step a s' hr hn ih =>
      exact ⟨fun m ↦ offered_iff (delivering_of_run hr) (effect_of_perform hn), ih⟩
  · obtain ⟨missed, hsince, -⟩ := hd.asked p
    exact ⟨_, by rw [hsince, List.append_assoc]⟩
  · intro halive
    obtain ⟨missed, hsince, hmissed⟩ := hd.asked p
    rw [hmissed.resolve_right fun h ↦ by simp [halive] at h, List.append_nil] at hsince
    exact hsince
  · obtain ⟨lost, hwritten, hlost⟩ := hd.written p
    refine ⟨lost, hwritten, ?_, fun halive ↦ hlost.resolve_right fun h ↦ by simp [halive] at h⟩
    rcases hlost with rfl | ⟨hone, -, -⟩
    · exact Hub.length_underway_le ..
    · exact hone.le

end run

/-! ## Fixed runs -/

/-- The state after a call that is due. -/
def Publisher.take (hwm : ℕ) (s : Publisher) (a : Act) : Publisher := (s.perform hwm a).getD s

/-- The call is due. -/
def Publisher.Due (hwm : ℕ) (s : Publisher) (a : Act) : Prop := (s.perform hwm a).isSome

instance (hwm : ℕ) (s : Publisher) (a : Act) : Decidable (s.Due hwm a) :=
  inferInstanceAs (Decidable ((s.perform hwm a).isSome = true))

/-- The state after the calls. -/
def after (hwm : ℕ) (acts : List Act) : Publisher := replay (take hwm) {} acts

/-- Their steps. -/
def stepsOf (hwm : ℕ) (acts : List Act) : List (Step Publisher Act) :=
  replaySteps (take hwm) {} acts []

theorem run_after (hwm : ℕ) (acts : List Act)
    (h : Admits (take hwm) (Due hwm) {} acts) :
    (publisher hwm).Run (stepsOf hwm acts) (after hwm acts) := by
  refine Run.replay (M := publisher hwm) (fun s a hok ↦ ?_) acts (.init rfl) h
  obtain ⟨s', hs'⟩ := Option.isSome_iff_exists.mp hok
  show s.perform hwm a = some (s.take hwm a)
  rw [take, hs', Option.getD_some]

/-- A message of the topic `d`. -/
def message : BusMessage := ⟨[0x64], [0x7B, 0x7D]⟩

/-- A peer subscribes twice and cancels once another topic, and a message is sent. -/
def subscribed : List Act :=
  [.register, .read 0 [⟨false, [1, 0x64]⟩] true, .read 0 [⟨false, [1, 0x64]⟩] true,
    .read 0 [⟨false, [0, 0x65]⟩] true, .send message, .recv, .snapshot, .check, .write true]

theorem publisher_delivers_subscribed :
    ∃ lost : List BusMessage,
      ((after 1 subscribed).peer 0).messages ++ lost.map BusMessage.buffer = [message.buffer] ∧
      lost.length ≤ 1 ∧ (((after 1 subscribed).peer 0).alive = true →
        lost = (after 1 subscribed).hub.underway 0) :=
  ((publisher_delivers (run_after 1 subscribed (by decide))).2.2.2.2.2 0).2.2.2.2.2

/-- The name of a `SUBSCRIBE` command. -/
def subscribeName : List Byte := [0x09, 0x53, 0x55, 0x42, 0x53, 0x43, 0x52, 0x49, 0x42, 0x45]

/-- The name of a `CANCEL` command. -/
def cancelName : List Byte := [0x06, 0x43, 0x41, 0x4E, 0x43, 0x45, 0x4C]

/-- An update in either form: a message, or one of the commands of later versions. -/
def Update.ofEither : List Frame → Option Update
  | [⟨true, body⟩] =>
    if subscribeName.isPrefixOf body then some (.subscribe (body.drop 10))
    else if cancelName.isPrefixOf body then some (.cancel (body.drop 7))
    else none
  | frames => Update.ofMessage frames

/-- What the peer has asked for, in either form. -/
def eitherUpdates (p : ℕ) (tr : List (Step Publisher Act)) : List Update :=
  (history (heardAt p) tr).filterMap Update.ofEither

/-- A peer subscribes with a command, and a message is sent. -/
def commanded : List Act :=
  [.register, .read 0 [⟨true, subscribeName ++ [0x64]⟩] true, .send message, .recv, .snapshot,
    .check]

/-- A subscription in the form of a command is ignored: whether it is the latest update that counts
or the number of them, the peer is not offered what it has asked for. -/
theorem command_ignored :
    ¬ ∀ (hwm : ℕ) (tr : List (Step Publisher Act)) (s : Publisher), (publisher hwm).Run tr s →
      ∀ p, Always (fun older x ↦ ∀ m, askedAt p x = some m →
        (offeredAt p x = some m ↔ ∃ t, t <+: m.topic ∧
          (Subscribed (eitherUpdates p older) t ∨
            (eitherUpdates p older).count (.cancel t) <
              (eitherUpdates p older).count (.subscribe t)))) tr := by
  intro h
  have hcheck := (h 1 _ _ (run_after 1 commanded (by decide)) 0).1 message (by decide)
  have hoffered := hcheck.mpr ⟨[0x64], by decide, .inl ⟨[], [], by decide, by decide⟩⟩
  exact absurd hoffered (by decide)

end ClassG.Zmtp
