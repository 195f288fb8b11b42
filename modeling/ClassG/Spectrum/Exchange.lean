import Mathlib.Data.List.Nodup
import ClassG.Fairness
import ClassG.Spectrum.FileSweeper

/-!
# What becomes of a request

The agent reads the request and removes it in two steps, and the API withdraws it and writes another
in steps of its own.  So the agent may remove a request it has never read, when the last one was
withdrawn after the agent had read it.

* `Issued`, `Handled`, `Produced` — where the ids of requests are, and what was done for each.
* `Clear` — the agent has no removal ahead when a request is renamed into place.
* `Kept` — what the agent is about to remove is what it has read, if renames are clear.
* `exchange_keeps` — all of it, and that a running agent reads what is written.
* `request_removed_unread` — a request that nobody reads.
-/

set_option autoImplicit false

namespace ClassG.Spectrum

open Machine Exchange

variable {δ : Type}

/-! ## What a step shows -/

/-- What `handle_request` has read, up to the removal. -/
def Agent.body : Agent → Option SweepRequest
  | .read body | .removing body => body
  | _ => none

/-- What it acts on. -/
def Agent.acting : Agent → Option SweepRequest
  | .limited r _ | .sweeping r => some r
  | _ => none

/-- It has read for the last time, and has not removed the file. -/
def Agent.Past : Agent → Prop
  | .read body => Sensible body
  | .removing _ => True
  | _ => False

instance (g : Agent) : Decidable g.Past :=
  match g with
  | .read body => inferInstanceAs (Decidable (Sensible body))
  | .removing _ => inferInstanceAs (Decidable True)
  | .idle | .reading | .rereading | .limited .. | .sweeping _ => inferInstanceAs (Decidable False)

section shows

variable (x : Step (Exchange δ) (Exchange.Act δ))

/-- The request that is renamed into place. -/
def writtenAt : Option SweepRequest :=
  match x.act with
  | .rename => x.post.request
  | _ => none

/-- The request that the agent reads. -/
def readAt : Option SweepRequest :=
  match x.act with
  | .cat => x.pre.request
  | _ => none

/-- The request that the agent removes. -/
def removedAt : Option SweepRequest :=
  match x.act with
  | .rm _ => x.pre.request
  | _ => none

/-- The request that the API withdraws. -/
def withdrawnAt : Option SweepRequest :=
  match x.act with
  | .withdraw => x.pre.request
  | _ => none

/-- The id that the agent begins to act on. -/
def actedAt : Option String :=
  match x.act with
  | .rm _ => x.post.agent.acting.map SweepRequest.id
  | _ => none

/-- The result that the agent writes, and the id it is for. -/
def producedAt : Option (String × Answer δ) :=
  match x.act with
  | .write _ => x.pre.agent.acting.bind fun r ↦ (x.post.result r.id).map (r.id, ·)
  | _ => none

/-- The document that a call of `Sweep` returns, and the id of the call. -/
def returnedAt : Option (String × δ) :=
  match x.act, x.pre.api with
  | .collect, .collecting id a => a.returned.toOption.map (id, ·)
  | _, _ => none

end shows

/-- The agent has no removal ahead when a request is renamed into place. -/
def Clear (s : Exchange δ) : Exchange.Act δ → Prop
  | .rename => ¬s.agent.Past
  | _ => True

instance (s : Exchange δ) (a : Exchange.Act δ) : Decidable (Clear s a) :=
  match a with
  | .rename => inferInstanceAs (Decidable ¬_)
  | .begin _ | .unwritten | .poll | .unreadable | .collect | .withdraw | .restart | .check | .cat
  | .recheck | .rm _ | .write _ | .stale _ | .kill => inferInstanceAs (Decidable True)

/-! ## The invariants -/

/-- Ids are new, and what is in the file and in the agent's hands was written. -/
structure Issued (tr : List (Step (Exchange δ) (Exchange.Act δ))) (s : Exchange δ) : Prop where
  minted : ∀ r ∈ history writtenAt tr, r.id ∈ s.minted
  starting : ∀ r, s.api = .starting r →
    r.id ∈ s.minted ∧ s.request = none ∧ ∀ q ∈ history writtenAt tr, q.id ≠ r.id
  present : ∀ r, s.request = some r → r ∈ history writtenAt tr
  held : ∀ r, s.agent.body = some r → r ∈ history readAt tr ∧ r ∈ history writtenAt tr

/-- What was acted on is not there to be acted on again. -/
structure Handled (tr : List (Step (Exchange δ) (Exchange.Act δ))) (s : Exchange δ) : Prop where
  written : ∀ id ∈ history actedAt tr, ∃ r ∈ history writtenAt tr, r.id = id
  present : ∀ r, s.request = some r → r.id ∉ history actedAt tr
  held : ∀ r, s.agent.body = some r → r.id ∉ history actedAt tr
  once : (history actedAt tr).Nodup

/-- The results are those that the agent has written, one for each id. -/
structure Produced (tr : List (Step (Exchange δ) (Exchange.Act δ))) (s : Exchange δ) : Prop where
  acted : ∀ p ∈ history producedAt tr, p.1 ∈ history actedAt tr
  acting : ∀ r, s.agent.acting = some r → r.id ∈ history actedAt tr ∧
    ∀ p ∈ history producedAt tr, p.1 ≠ r.id
  result : ∀ id a, s.result id = some a → (id, a) ∈ history producedAt tr
  collecting : ∀ id a, s.api = .collecting id a → (id, a) ∈ history producedAt tr
  once : ((history producedAt tr).map (·.1)).Nodup

/-- What the agent is about to remove is what it has read, and no request is unaccounted for. -/
structure Kept (tr : List (Step (Exchange δ) (Exchange.Act δ))) (s : Exchange δ) : Prop where
  past : s.agent.Past → s.request = none ∨ s.request = s.agent.body
  account : ∀ r ∈ history writtenAt tr,
    s.request = some r ∨ r ∈ history readAt tr ∨ r ∈ history withdrawnAt tr

section step

variable {cfg : AgentConfig} {tr : List (Step (Exchange δ) (Exchange.Act δ))} {s s' : Exchange δ}
  {a : Exchange.Act δ}

/-- Where nothing is written, and what is new in the agent's hands it has just read. -/
theorem Issued.frame (h : Issued tr s) (hw : writtenAt ⟨s, a, s'⟩ = none)
    (hminted : s'.minted = s.minted)
    (hstarting : ∀ r, s'.api = .starting r → s.api = .starting r ∧ s'.request = s.request)
    (hrequest : ∀ r, s'.request = some r → s.request = some r)
    (hbody : ∀ r, s'.agent.body = some r →
      s.agent.body = some r ∨ (s.request = some r ∧ readAt ⟨s, a, s'⟩ = some r)) :
    Issued (⟨s, a, s'⟩ :: tr) s' := by
  have hwritten : history writtenAt (⟨s, a, s'⟩ :: tr) = history writtenAt tr :=
    history_cons_of_none _ hw tr
  refine ⟨?_, fun r hr ↦ ?_, fun r hr ↦ ?_, fun r hr ↦ ?_⟩
  · rw [hwritten, hminted]
    exact h.minted
  · obtain ⟨hr, hreq⟩ := hstarting r hr
    rw [hwritten, hminted, hreq]
    exact h.starting r hr
  · rw [hwritten]
    exact h.present r (hrequest r hr)
  · rw [hwritten, mem_history_cons]
    rcases hbody r hr with hr | ⟨hr, hread⟩
    · exact ⟨.inl (h.held r hr).1, (h.held r hr).2⟩
    · exact ⟨.inr hread, h.present r hr⟩

/-- What the agent goes on with is nothing it holds. -/
theorem proceed_body (s : Exchange δ) (body : Option SweepRequest) (now : ℤ) :
    (s.proceed cfg body now).1.body = none := by
  rcases body with _ | r
  · rfl
  · rw [proceed]
    split
    · rfl
    split
    · rfl
    split <;> rfl

/-- What it acts on is what it has read. -/
theorem proceed_acting {body : Option SweepRequest} {now : ℤ} {r : SweepRequest}
    (h : (s.proceed cfg body now).1.acting = some r) : body = some r := by
  rcases body with _ | q
  · cases h
  · rw [proceed] at h
    split at h
    · cases h
    split at h
    · cases h
    split at h <;> exact h

theorem issued_step (h : Issued tr s) (he : Effect cfg s a s') : Issued (⟨s, a, s'⟩ :: tr) s' := by
  cases he with
  | @begin r ha hid hr =>
    have hwritten : history writtenAt (⟨s, .begin r, { s with
        api := .starting r, minted := r.id :: s.minted }⟩ :: tr) = history writtenAt tr :=
      history_cons_of_none _ rfl tr
    refine ⟨fun q hq ↦ ?_, fun q hq ↦ ?_, fun q hq ↦ ?_, fun q hq ↦ ?_⟩
    · exact List.mem_cons_of_mem _ (h.minted q (hwritten ▸ hq))
    · obtain rfl := Api.starting.inj hq
      refine ⟨List.mem_cons_self, hr, fun p hp heq ↦ hid ?_⟩
      exact heq ▸ h.minted p (hwritten ▸ hp)
    · exact hwritten ▸ h.present q hq
    · rw [hwritten, mem_history_cons]
      exact ⟨.inl (h.held q hq).1, (h.held q hq).2⟩
  | @busy r ha hid hr =>
    have hwritten : history writtenAt (⟨s, .begin r, { s with
        minted := r.id :: s.minted }⟩ :: tr) = history writtenAt tr :=
      history_cons_of_none _ rfl tr
    refine ⟨fun q hq ↦ ?_, fun q hq ↦ ?_, fun q hq ↦ ?_, fun q hq ↦ ?_⟩
    · exact List.mem_cons_of_mem _ (h.minted q (hwritten ▸ hq))
    · have hq' : s.api = .starting q := hq
      rw [ha] at hq'
      cases hq'
    · exact hwritten ▸ h.present q hq
    · rw [hwritten, mem_history_cons]
      exact ⟨.inl (h.held q hq).1, (h.held q hq).2⟩
  | @rename r ha =>
    obtain ⟨hminted, hnone, hnew⟩ := h.starting r ha
    refine ⟨fun q hq ↦ ?_, fun q hq ↦ (nomatch hq), fun q hq ↦ ?_, fun q hq ↦ ?_⟩
    · rcases (mem_history_cons _).mp hq with hq | hq
      · exact h.minted q hq
      · exact Option.some.inj hq ▸ hminted
    · exact (mem_history_cons _).mpr (.inr hq)
    · rw [mem_history_cons, mem_history_cons]
      exact ⟨.inl (h.held q hq).1, .inl (h.held q hq).2⟩
  | unwritten | unreadable | collect | restart =>
    exact h.frame rfl rfl (fun _ hr ↦ (nomatch hr)) (fun _ ↦ id) fun _ hr ↦ .inl hr
  | found => exact h.frame rfl rfl (fun _ hr ↦ (nomatch hr)) (fun _ ↦ id) fun _ hr ↦ .inl hr
  | withdraw =>
    exact h.frame rfl rfl (fun _ hr ↦ (nomatch hr)) (fun _ hr ↦ (nomatch hr)) fun _ hr ↦ .inl hr
  | missing | stale => exact h.frame rfl rfl (fun _ hr ↦ ⟨hr, rfl⟩) (fun _ ↦ id) fun _ hr ↦ .inl hr
  | kill =>
    exact h.frame rfl rfl (fun _ hr ↦ ⟨hr, rfl⟩) (fun _ ↦ id) fun _ hr ↦ (nomatch hr)
  | check =>
    refine h.frame rfl rfl (fun _ hr ↦ ⟨hr, rfl⟩) (fun _ ↦ id) fun r hr ↦ ?_
    have hr' : (if s.request = none then Agent.idle else Agent.reading).body = some r := hr
    split at hr' <;> cases hr'
  | cat =>
    exact h.frame rfl rfl (fun _ hr ↦ ⟨hr, rfl⟩) (fun _ ↦ id) fun r hr ↦ .inr ⟨hr, hr⟩
  | recat =>
    exact h.frame rfl rfl (fun _ hr ↦ ⟨hr, rfl⟩) (fun _ ↦ id) fun r hr ↦ .inr ⟨hr, hr⟩
  | @recheck body ha =>
    refine h.frame rfl rfl (fun _ hr ↦ ⟨hr, rfl⟩) (fun _ ↦ id) fun r hr ↦ .inl ?_
    have hr' : (if Sensible body ∨ s.request = none then Agent.removing body
      else Agent.rereading).body = some r := hr
    rw [ha]
    split at hr'
    · exact hr'
    · cases hr'
  | @rm body now ha =>
    refine h.frame rfl rfl (fun r hr ↦ ⟨hr, ?_⟩) (fun _ hr ↦ (nomatch hr)) fun r hr ↦ ?_
    · exact ((h.starting r hr).2.1).symm
    · have hr' : (s.proceed cfg body now).1.body = some r := hr
      rw [proceed_body] at hr'
      cases hr'
  | limited | swept =>
    exact h.frame rfl rfl (fun _ hr ↦ ⟨hr, rfl⟩) (fun _ ↦ id) fun _ hr ↦ (nomatch hr)

/-- Where nothing is begun, and what is in the file or in the agent's hands was there before. -/
theorem Handled.frame (h : Handled tr s) (ha : actedAt ⟨s, a, s'⟩ = none)
    (hrequest : ∀ r, s'.request = some r → s.request = some r)
    (hbody : ∀ r, s'.agent.body = some r → s.agent.body = some r ∨ s.request = some r) :
    Handled (⟨s, a, s'⟩ :: tr) s' := by
  have hacted : history actedAt (⟨s, a, s'⟩ :: tr) = history actedAt tr :=
    history_cons_of_none _ ha tr
  refine ⟨fun id hid ↦ ?_, fun r hr ↦ ?_, fun r hr ↦ ?_, ?_⟩
  · obtain ⟨r, hr, hrid⟩ := h.written id (hacted ▸ hid)
    exact ⟨r, (mem_history_cons _).mpr (.inl hr), hrid⟩
  · exact hacted ▸ h.present r (hrequest r hr)
  · rw [hacted]
    exact (hbody r hr).elim (h.held r) (h.present r)
  · exact hacted ▸ h.once

theorem handled_step (hi : Issued tr s) (h : Handled tr s) (he : Effect cfg s a s') :
    Handled (⟨s, a, s'⟩ :: tr) s' := by
  cases he with
  | @rename r ha =>
    have hacted : history actedAt (⟨s, .rename, { s with
        request := some r, api := .waiting r.id }⟩ :: tr) = history actedAt tr :=
      history_cons_of_none _ rfl tr
    refine ⟨fun id hid ↦ ?_, fun q hq ↦ ?_, fun q hq ↦ ?_, hacted ▸ h.once⟩
    · obtain ⟨q, hq, hqid⟩ := h.written id (hacted ▸ hid)
      exact ⟨q, (mem_history_cons _).mpr (.inl hq), hqid⟩
    · obtain rfl := Option.some.inj hq
      intro hmem
      -- what was acted on was written before
      obtain ⟨q, hq, hqid⟩ := h.written _ (hacted ▸ hmem)
      exact (hi.starting r ha).2.2 q hq hqid
    · exact hacted ▸ h.held q hq
  | @rm body now ha =>
    rcases hact : (s.proceed cfg body now).1.acting with _ | r
    · refine h.frame (congrArg (Option.map SweepRequest.id) hact) (fun _ hr ↦ (nomatch hr))
        fun r hr ↦ ?_
      have hr' : (s.proceed cfg body now).1.body = some r := hr
      rw [proceed_body] at hr'
      cases hr'
    · have hbody : s.agent.body = some r := ha ▸ proceed_acting hact
      have hacted : history actedAt (⟨s, .rm now, { s with
          request := none
          agent := (s.proceed cfg body now).1
          lastSweep := (s.proceed cfg body now).2 }⟩ :: tr) = history actedAt tr ++ [r.id] := by
        rw [history_cons]
        exact congrArg (history actedAt tr ++ ·)
          (congrArg (fun o ↦ (Option.map SweepRequest.id o).toList) hact)
      refine ⟨fun id hid ↦ ?_, fun _ hq ↦ (nomatch hq), fun q hq ↦ ?_, ?_⟩
      · rw [hacted, List.mem_append, List.mem_singleton] at hid
        rcases hid with hid | rfl
        · obtain ⟨q, hq, hqid⟩ := h.written id hid
          exact ⟨q, (mem_history_cons _).mpr (.inl hq), hqid⟩
        · exact ⟨r, (mem_history_cons _).mpr (.inl (hi.held r hbody).2), rfl⟩
      · have hq' : (s.proceed cfg body now).1.body = some q := hq
        rw [proceed_body] at hq'
        cases hq'
      · rw [hacted]
        exact h.once.append (List.nodup_singleton _)
          (List.disjoint_singleton.mpr (h.held r hbody))
  | @recheck body ha =>
    refine h.frame rfl (fun _ ↦ id) fun r hr ↦ .inl ?_
    have hr' : (if Sensible body ∨ s.request = none then Agent.removing body
      else Agent.rereading).body = some r := hr
    rw [ha]
    split at hr'
    · exact hr'
    · cases hr'
  | check =>
    refine h.frame rfl (fun _ ↦ id) fun r hr ↦ ?_
    have hr' : (if s.request = none then Agent.idle else Agent.reading).body = some r := hr
    split at hr' <;> cases hr'
  | cat => exact h.frame rfl (fun _ ↦ id) fun _ ↦ .inr
  | recat => exact h.frame rfl (fun _ ↦ id) fun _ ↦ .inr
  | withdraw => exact h.frame rfl (fun _ hr ↦ (nomatch hr)) fun _ ↦ .inl
  | kill | limited | swept => exact h.frame rfl (fun _ ↦ id) fun _ hr ↦ (nomatch hr)
  | _ => exact h.frame rfl (fun _ ↦ id) fun _ ↦ .inl

/-- Where nothing is produced or begun, and results are only read or deleted. -/
theorem Produced.frame (h : Produced tr s) (hp : producedAt ⟨s, a, s'⟩ = none)
    (hacting : ∀ r, s'.agent.acting = some r → s.agent.acting = some r)
    (hresult : ∀ id b, s'.result id = some b → s.result id = some b)
    (hcollecting : ∀ id b, s'.api = .collecting id b →
      s.api = .collecting id b ∨ s.result id = some b) :
    Produced (⟨s, a, s'⟩ :: tr) s' := by
  have hproduced : history producedAt (⟨s, a, s'⟩ :: tr) = history producedAt tr :=
    history_cons_of_none _ hp tr
  refine ⟨fun p hmem ↦ ?_, fun r hr ↦ ?_, fun id b hb ↦ ?_, fun id b hb ↦ ?_, ?_⟩
  · exact (mem_history_cons _).mpr (.inl (h.acted p (hproduced ▸ hmem)))
  · obtain ⟨hacted, hnew⟩ := h.acting r (hacting r hr)
    exact ⟨(mem_history_cons _).mpr (.inl hacted), hproduced ▸ hnew⟩
  · exact hproduced ▸ h.result id b (hresult id b hb)
  · rw [hproduced]
    exact (hcollecting id b hb).elim (h.collecting id b) (h.result id b)
  · exact hproduced ▸ h.once

/-- The result of what the agent acts on is written. -/
theorem Produced.write (h : Produced tr s) {r : SweepRequest} (hr : s.agent.acting = some r)
    (o : SweepOutcome δ) (b : Answer δ) :
    Produced (⟨s, .write o, s.writeResult r.id b⟩ :: tr) (s.writeResult r.id b) := by
  obtain ⟨hacted, hnew⟩ := h.acting r hr
  have hwrote : (s.writeResult r.id b).result r.id = some b := Function.update_self ..
  have hproduced : history producedAt (⟨s, .write o, s.writeResult r.id b⟩ :: tr) =
      history producedAt tr ++ [(r.id, b)] := by
    rw [history_cons]
    simp only [producedAt, hr, Option.bind_some, hwrote, Option.map_some, Option.toList_some]
  have hsame : history actedAt (⟨s, .write o, s.writeResult r.id b⟩ :: tr) =
      history actedAt tr := history_cons_of_none _ rfl tr
  refine ⟨fun p hmem ↦ ?_, fun _ hq ↦ (nomatch hq), fun id c hc ↦ ?_, fun id c hc ↦ ?_, ?_⟩
  · rw [hproduced, List.mem_append, List.mem_singleton] at hmem
    rw [hsame]
    rcases hmem with hmem | rfl
    · exact h.acted p hmem
    · exact hacted
  · rw [hproduced, List.mem_append, List.mem_singleton]
    by_cases hid : id = r.id
    · subst hid
      exact .inr (congrArg (Prod.mk r.id) (Option.some.inj (hc.symm.trans hwrote)))
    · have hold : (s.writeResult r.id b).result id = s.result id := Function.update_of_ne hid ..
      exact .inl (h.result id c (hold ▸ hc))
  · rw [hproduced, List.mem_append]
    exact .inl (h.collecting id c hc)
  · rw [hproduced, List.map_append]
    refine h.once.append (List.nodup_singleton _) (List.disjoint_singleton.mpr fun hmem ↦ ?_)
    obtain ⟨p, hp, hpid⟩ := List.mem_map.mp hmem
    exact hnew p hp hpid

/-- A deleted result was there. -/
theorem result_of_deleted {result : String → Option (Answer δ)} {id id' : String} {b : Answer δ}
    (h : Function.update result id none id' = some b) : result id' = some b := by
  by_cases hid : id' = id
  · rw [hid, Function.update_self] at h
    cases h
  · rwa [Function.update_of_ne hid] at h

theorem produced_step (hh : Handled tr s) (h : Produced tr s) (he : Effect cfg s a s') :
    Produced (⟨s, a, s'⟩ :: tr) s' := by
  cases he with
  | @rm body now ha =>
    have hproduced : history producedAt (⟨s, .rm now, { s with
        request := none
        agent := (s.proceed cfg body now).1
        lastSweep := (s.proceed cfg body now).2 }⟩ :: tr) = history producedAt tr :=
      history_cons_of_none _ rfl tr
    refine ⟨fun p hmem ↦ ?_, fun r hr ↦ ?_, hproduced ▸ h.result, hproduced ▸ h.collecting,
      hproduced ▸ h.once⟩
    · exact (mem_history_cons _).mpr (.inl (h.acted p (hproduced ▸ hmem)))
    · have hact : (s.proceed cfg body now).1.acting = some r := hr
      have hbody : s.agent.body = some r := ha ▸ proceed_acting hact
      refine ⟨(mem_history_cons _).mpr (.inr (congrArg (Option.map SweepRequest.id) hact)), ?_⟩
      rw [hproduced]
      intro p hp hpid
      exact hh.held r hbody (hpid ▸ h.acted p hp)
  | @limited r since o ha => exact h.write (ha ▸ rfl) o _
  | @swept r o ha => exact h.write (ha ▸ rfl) o _
  | @found id b ha hr =>
    refine h.frame rfl (fun _ ↦ (·)) (fun _ _ ↦ (·)) fun l c hc ↦ .inr ?_
    obtain ⟨rfl, rfl⟩ := Api.collecting.inj hc
    exact hr
  | begin => exact h.frame rfl (fun _ ↦ id) (fun _ _ ↦ id) fun _ _ hc ↦ (nomatch hc)
  | unwritten | rename | unreadable | withdraw | restart =>
    exact h.frame rfl (fun _ ↦ id) (fun _ _ ↦ id) fun _ _ hc ↦ (nomatch hc)
  | collect =>
    exact h.frame rfl (fun _ ↦ id) (fun _ _ ↦ result_of_deleted) fun _ _ hc ↦ (nomatch hc)
  | stale => exact h.frame rfl (fun _ ↦ id) (fun _ _ ↦ result_of_deleted) fun _ _ ↦ .inl
  | busy | missing => exact h.frame rfl (fun _ ↦ id) (fun _ _ ↦ id) fun _ _ ↦ .inl
  | check =>
    refine h.frame rfl (fun r hr ↦ ?_) (fun _ _ ↦ id) fun _ _ ↦ .inl
    have hr' : (if s.request = none then Agent.idle else Agent.reading).acting = some r := hr
    split at hr' <;> cases hr'
  | @recheck body ha =>
    refine h.frame rfl (fun r hr ↦ ?_) (fun _ _ ↦ id) fun _ _ ↦ .inl
    have hr' : (if Sensible body ∨ s.request = none then Agent.removing body
      else Agent.rereading).acting = some r := hr
    split at hr' <;> cases hr'
  | cat | recat | kill =>
    exact h.frame rfl (fun _ hr ↦ (nomatch hr)) (fun _ _ ↦ id) fun _ _ ↦ .inl

/-- Where nothing is written, the request stays, and the agent has no new removal ahead. -/
theorem Kept.frame (h : Kept tr s) (hw : writtenAt ⟨s, a, s'⟩ = none)
    (hrequest : s'.request = s.request)
    (hpast : s'.agent.Past → s.request = none ∨ s.request = s'.agent.body) :
    Kept (⟨s, a, s'⟩ :: tr) s' := by
  refine ⟨fun hp ↦ hrequest ▸ hpast hp, fun r hr ↦ ?_⟩
  rw [history_cons_of_none _ hw] at hr
  rw [hrequest, mem_history_cons, mem_history_cons]
  exact (h.account r hr).imp_right (Or.imp .inl .inl)

theorem kept_step (hi : Issued tr s) (h : Kept tr s) (hc : Clear s a) (he : Effect cfg s a s') :
    Kept (⟨s, a, s'⟩ :: tr) s' := by
  cases he with
  | @rename r ha =>
    refine ⟨fun hp ↦ absurd hp hc, fun q hq ↦ ?_⟩
    rw [mem_history_cons] at hq
    rcases hq with hq | hq
    · -- nothing was in the file
      rw [mem_history_cons, mem_history_cons]
      have hacc := (h.account q hq).resolve_left fun hreq ↦ by
        rw [(hi.starting r ha).2.1] at hreq
        cases hreq
      exact .inr (hacc.imp .inl .inl)
    · exact .inl hq
  | @withdraw id ha =>
    refine ⟨fun _ ↦ .inl rfl, fun q hq ↦ ?_⟩
    rw [mem_history_cons] at hq
    rw [mem_history_cons, mem_history_cons]
    rcases h.account q (hq.resolve_right nofun) with hreq | hread | hwith
    · exact .inr (.inr (.inr hreq))
    · exact .inr (.inl (.inl hread))
    · exact .inr (.inr (.inl hwith))
  | @rm body now ha =>
    refine ⟨fun _ ↦ .inl rfl, fun q hq ↦ ?_⟩
    rw [mem_history_cons] at hq
    rw [mem_history_cons, mem_history_cons]
    rcases h.account q (hq.resolve_right nofun) with hreq | hread | hwith
    · have hpast : s.agent.Past := ha ▸ trivial
      have hbody := (h.past hpast).resolve_left fun hnone ↦ by
        rw [hnone] at hreq
        cases hreq
      exact .inr (.inl (.inl (hi.held q (hbody.symm.trans hreq)).1))
    · exact .inr (.inl (.inl hread))
    · exact .inr (.inr (.inl hwith))
  | check =>
    refine h.frame rfl rfl fun hp ↦ ?_
    have hp' : (if s.request = none then Agent.idle else Agent.reading).Past := hp
    split at hp' <;> exact hp'.elim
  | cat | recat => exact h.frame rfl rfl fun _ ↦ .inr rfl
  | @recheck body ha =>
    refine h.frame rfl rfl fun hp ↦ ?_
    show s.request = none ∨ s.request =
      (if Sensible body ∨ s.request = none then Agent.removing body else Agent.rereading).body
    have hp' : (if Sensible body ∨ s.request = none then Agent.removing body
      else Agent.rereading).Past := hp
    split at hp'
    · rename_i hcase
      rw [if_pos hcase]
      rcases hcase with hbody | hnone
      · have hpast : s.agent.Past := ha ▸ hbody
        have hbody := h.past hpast
        rwa [ha] at hbody
      · exact .inl hnone
    · exact hp'.elim
  | kill | limited | swept => exact h.frame rfl rfl False.elim
  | _ => exact h.frame rfl rfl h.past

end step

/-! ## Runs -/

section run

variable {cfg : AgentConfig} {tr : List (Step (Exchange δ) (Exchange.Act δ))} {s : Exchange δ}

theorem exchanged_of_run (hr : (exchange δ cfg).Run tr s) :
    Issued tr s ∧ Handled tr s ∧ Produced tr s := by
  refine hr.trace_invariant_of (C := fun _ _ ↦ True) (I := fun tr s ↦
    Issued tr s ∧ Handled tr s ∧ Produced tr s) (fun _ _ ↦ trivial) ?_ ?_
  · rintro _ rfl
    refine ⟨⟨?_, ?_, ?_, ?_⟩, ⟨?_, ?_, ?_, List.nodup_nil⟩, ⟨?_, ?_, ?_, ?_, List.nodup_nil⟩⟩ <;>
      simp [history, Agent.body, Agent.acting]
  · intro tr s a s' _ h _ hn
    have he := effect_of_perform hn
    exact ⟨issued_step h.1 he, handled_step h.1 h.2.1 he, produced_step h.2.1 h.2.2 he⟩

theorem kept_of_run (hr : (exchange δ cfg).Run tr s) (hc : ∀ x ∈ tr, Clear x.pre x.act) :
    Kept tr s := by
  refine hr.trace_invariant_of (C := Clear) hc ?_ fun tr s a s' hr h hc hn ↦
    kept_step (exchanged_of_run hr).1 h hc (effect_of_perform hn)
  rintro _ rfl
  exact ⟨fun hp ↦ hp.elim, fun _ hr ↦ (nomatch hr)⟩

/-- What `Sweep` returns was produced for its id. -/
theorem produced_of_returned (hr : (exchange δ cfg).Run tr s) :
    Always (fun older x ↦ ∀ p, returnedAt x = some p →
      (p.1, .doc p.2) ∈ history producedAt older) tr := by
  refine hr.always_of (C := fun _ _ ↦ True) (fun _ _ ↦ trivial) fun tr s a s' hr _ _ hn p hp ↦ ?_
  have hproduced := (exchanged_of_run hr).2.2
  have he : Effect cfg s a s' := effect_of_perform hn
  cases he with
  | @collect id b ha =>
    rw [returnedAt] at hp
    simp only [ha, Option.map_eq_some_iff] at hp
    obtain ⟨d, hd, rfl⟩ := hp
    refine hproduced.collecting id _ (ha.trans (congrArg (Api.collecting id) ?_))
    rcases b with d' | _ | message
    · exact congrArg Answer.doc (Option.some.inj hd)
    · cases hd
    · rw [Answer.returned.eq_def] at hd
      split at hd <;> simp_all [Except.toOption]
  | _ => cases hp

/-- The agent removes nothing that it has not read. -/
theorem read_of_removed (hr : (exchange δ cfg).Run tr s) (hc : ∀ x ∈ tr, Clear x.pre x.act) :
    Always (fun older x ↦ ∀ r, removedAt x = some r →
      x.pre.agent.body = some r ∧ r ∈ history readAt older) tr := by
  refine hr.always_of hc fun tr s a s' hr hc _ hn r hrem ↦ ?_
  have hkept := kept_of_run hr hc
  have he : Effect cfg s a s' := effect_of_perform hn
  cases he with
  | @rm body now ha =>
    have hreq : s.request = some r := hrem
    have hpast : s.agent.Past := ha ▸ trivial
    have hbody := (hkept.past hpast).resolve_left fun hnone ↦ by
      rw [hnone] at hreq
      cases hreq
    have hheld := hbody.symm.trans hreq
    exact ⟨hheld, ((exchanged_of_run hr).1.held r hheld).1⟩
  | _ => cases hrem

end run

/-! ## Progress -/

section progress

variable {cfg : AgentConfig} {s s' : Exchange δ} {a : Exchange.Act δ}

/-- The agent takes its next step. -/
def AgentStep (s : Exchange δ) : Exchange.Act δ → Prop
  | .check => s.agent = .idle
  | .cat => s.agent = .reading ∨ s.agent = .rereading
  | .recheck => ∃ body, s.agent = .read body
  | .rm _ => ∃ body, s.agent = .removing body
  | .write _ => s.agent.acting ≠ none
  | _ => False

/-- How many steps the agent has to take, at most, until it reads what is in the file. -/
def Agent.ahead : Agent → ℕ
  | .reading | .rereading => 1
  | .idle | .read _ | .removing _ => 2
  | .limited .. | .sweeping _ => 3

theorem agentStep_possible (s : Exchange δ) : ∃ a, AgentStep s a := by
  rcases hg : s.agent with _ | _ | body | _ | body | ⟨r, since⟩ | r
  · exact ⟨.check, hg⟩
  · exact ⟨.cat, .inl hg⟩
  · exact ⟨.recheck, body, hg⟩
  · exact ⟨.cat, .inr hg⟩
  · exact ⟨.rm 0, body, hg⟩
  · exact ⟨.write .held, by rw [AgentStep, hg]; exact Option.some_ne_none _⟩
  · exact ⟨.write .held, by rw [AgentStep, hg]; exact Option.some_ne_none _⟩

/-- While a request is in the file and the agent has not read it, the agent comes closer. -/
theorem ahead_step {r : SweepRequest} (hreq : s.request = some r) (hbody : s.agent.body ≠ some r)
    (hpast : s.agent.Past → s.request = none ∨ s.request = s.agent.body) (hkill : a ≠ .kill)
    (he : Effect cfg s a s') :
    s'.request ≠ some r ∨ s'.agent.body = some r ∨
      (s'.agent.ahead ≤ s.agent.ahead ∧ (AgentStep s a → s'.agent.ahead < s.agent.ahead)) := by
  have hnot : ¬s.agent.Past := fun hp ↦ by
    rcases hpast hp with hnone | hsame
    · rw [hnone] at hreq
      cases hreq
    · exact hbody (hsame.symm.trans hreq)
  cases he with
  | kill => exact absurd rfl hkill
  | check ha =>
    refine .inr (.inr ?_)
    show (if s.request = none then Agent.idle else Agent.reading).ahead ≤ _ ∧ (_ → _ < _)
    rw [if_neg (by simp [hreq]), ha]
    exact ⟨Nat.le_succ 1, fun _ ↦ Nat.lt_succ_self 1⟩
  | cat | recat => exact .inr (.inl hreq)
  | @recheck body ha =>
    refine .inr (.inr ?_)
    have hsense : ¬Sensible body := fun hs ↦ hnot (ha ▸ hs)
    show (if Sensible body ∨ s.request = none then Agent.removing body
      else Agent.rereading).ahead ≤ _ ∧ (_ → _ < _)
    rw [if_neg (by simp [hreq, hsense]), ha]
    exact ⟨Nat.le_succ 1, fun _ ↦ Nat.lt_succ_self 1⟩
  | rm ha => exact absurd (ha ▸ trivial) hnot
  | limited ha | swept ha =>
    refine .inr (.inr ?_)
    rw [ha]
    exact ⟨Nat.le_succ 2, fun _ ↦ Nat.lt_succ_self 2⟩
  | withdraw => exact .inl nofun
  | _ => exact .inr (.inr ⟨le_rfl, False.elim⟩)

variable {b : (exchange δ cfg).Behavior}

/-- The request is in the file, and the agent has not read it. -/
def Unread (cfg : AgentConfig) (r : SweepRequest) (s : Exchange δ) : Prop :=
  s.request = some r ∧ s.agent.body ≠ some r ∧
    ∃ tr, (exchange δ cfg).Run tr s ∧ ∀ x ∈ tr, Clear x.pre x.act

theorem clear_steps (hclear : ∀ n, Clear (b.state n) (b.act n)) (n : ℕ) :
    ∀ x ∈ b.steps n, Clear x.pre x.act := by
  intro x hx
  obtain ⟨m, -, rfl⟩ := b.mem_steps.mp hx
  exact hclear m

/-- A request that has left the file, or is in the agent's hands, was read or withdrawn. -/
theorem read_or_withdrawn (hclear : ∀ n, Clear (b.state n) (b.act n)) {r : SweepRequest} {m : ℕ}
    (hw : r ∈ history writtenAt (b.steps m))
    (hgone : (b.state m).request ≠ some r ∨ (b.state m).agent.body = some r) :
    ∃ m, readAt (b.step m) = some r ∨ withdrawnAt (b.step m) = some r := by
  have hread : r ∈ history readAt (b.steps m) ∨ r ∈ history withdrawnAt (b.steps m) := by
    rcases hgone with hgone | hbody
    · exact ((kept_of_run (b.run_steps m) (clear_steps hclear m)).account r hw).resolve_left hgone
    · exact .inl ((exchanged_of_run (b.run_steps m)).1.held r hbody).1
  rcases hread with hmem | hmem
  · obtain ⟨x, hx, hr⟩ := (mem_history _).mp hmem
    obtain ⟨k, -, rfl⟩ := b.mem_steps.mp hx
    exact ⟨k, .inl hr⟩
  · obtain ⟨x, hx, hr⟩ := (mem_history _).mp hmem
    obtain ⟨k, -, rfl⟩ := b.mem_steps.mp hx
    exact ⟨k, .inr hr⟩

theorem unread_leaves (hclear : ∀ n, Clear (b.state n) (b.act n)) (hfair : b.Fair AgentStep)
    {N : ℕ} (hkill : ∀ n, N ≤ n → b.act n ≠ .kill) {r : SweepRequest} {n : ℕ} (hN : N ≤ n)
    (hunread : Unread cfg r (b.state n)) :
    ∃ m, n ≤ m ∧ ((b.state m).request ≠ some r ∨ (b.state m).agent.body = some r) := by
  have hnext (n : ℕ) (hN : N ≤ n) (hu : Unread cfg r (b.state n)) :
      ((b.state (n + 1)).request ≠ some r ∨ (b.state (n + 1)).agent.body = some r) ∨
        (Unread cfg r (b.state (n + 1)) ∧
          (b.state (n + 1)).agent.ahead ≤ (b.state n).agent.ahead ∧
          (AgentStep (b.state n) (b.act n) →
            (b.state (n + 1)).agent.ahead < (b.state n).agent.ahead)) := by
    obtain ⟨hreq, hbody, tr, hr, hc⟩ := hu
    have hstep := ahead_step hreq hbody (kept_of_run hr hc).past (hkill n hN)
      (effect_of_perform (b.next n))
    by_cases hgone : (b.state (n + 1)).request ≠ some r
    · exact .inl (.inl hgone)
    by_cases hread : (b.state (n + 1)).agent.body = some r
    · exact .inl (.inr hread)
    · refine .inr ⟨⟨not_not.mp hgone, hread, _, .step (b.act n) _ hr (b.next n), ?_⟩,
        (hstep.resolve_left hgone).resolve_left hread⟩
      exact List.forall_mem_cons.mpr ⟨hclear n, hc⟩
  refine Machine.Behavior.leadsTo_from (P := Unread cfg r)
    (Q := fun s ↦ s.request ≠ some r ∨ s.agent.body = some r) N (fun s ↦ s.agent.ahead) hfair
    (fun s _ ↦ agentStep_possible s) (fun n hN hu ↦ ?_) (fun n hN hu hstep ↦ ?_) hN hunread
  · exact (hnext n hN hu).imp_right fun h ↦ ⟨h.1, h.2.1⟩
  · exact (hnext n hN hu).imp_right fun h ↦ ⟨h.1, h.2.2 hstep⟩

/-- **A running agent reads what is written**, unless it is withdrawn. -/
theorem written_read (hclear : ∀ n, Clear (b.state n) (b.act n)) (hfair : b.Fair AgentStep)
    {N : ℕ} (hkill : ∀ n, N ≤ n → b.act n ≠ .kill) {n : ℕ} {r : SweepRequest}
    (hw : writtenAt (b.step n) = some r) :
    ∃ m, readAt (b.step m) = some r ∨ withdrawnAt (b.step m) = some r := by
  have hwritten {m : ℕ} (hm : n < m) : r ∈ history writtenAt (b.steps m) :=
    (mem_history _).mpr ⟨_, b.mem_steps.mpr ⟨n, hm, rfl⟩, hw⟩
  have hlt : n < max N (n + 1) := Nat.le_max_right ..
  by_cases hreq : (b.state (max N (n + 1))).request = some r
  · by_cases hbody : (b.state (max N (n + 1))).agent.body = some r
    · exact read_or_withdrawn hclear (hwritten hlt) (.inr hbody)
    · obtain ⟨m, hm, hgone⟩ := unread_leaves hclear hfair hkill (Nat.le_max_left N (n + 1))
        ⟨hreq, hbody, _, b.run_steps _, clear_steps hclear _⟩
      exact read_or_withdrawn hclear (hwritten (hlt.trans_le hm)) hgone
  · exact read_or_withdrawn hclear (hwritten hlt) (.inl hreq)

end progress

/-! ## The exchange -/

/-- **The file exchange.**  In any run, an id is acted on once at most, one result is produced for
it at most, and a document that `Sweep` returns is the one produced for the id of the call.  If no
request is renamed into place while the agent has a removal ahead, the agent removes only the
request it has just read, and a request that was written is in the file, was read, or was withdrawn;
and where the agent is not killed any more and goes on, it is read or withdrawn in the end. -/
theorem exchange_keeps (δ : Type) (cfg : AgentConfig) :
    (∀ (tr : List (Step (Exchange δ) (Exchange.Act δ))) (s : Exchange δ),
      (exchange δ cfg).Run tr s →
      (history actedAt tr).Nodup ∧ ((history producedAt tr).map (·.1)).Nodup ∧
      Always (fun older x ↦ ∀ p, returnedAt x = some p →
        (p.1, .doc p.2) ∈ history producedAt older) tr ∧
      ((∀ x ∈ tr, Clear x.pre x.act) →
        Always (fun older x ↦ ∀ r, removedAt x = some r →
          x.pre.agent.body = some r ∧ r ∈ history readAt older) tr ∧
        ∀ r ∈ history writtenAt tr,
          s.request = some r ∨ r ∈ history readAt tr ∨ r ∈ history withdrawnAt tr)) ∧
    ∀ b : (exchange δ cfg).Behavior, (∀ n, Clear (b.state n) (b.act n)) → b.Fair AgentStep →
      ∀ N, (∀ n, N ≤ n → b.act n ≠ .kill) → ∀ n r, writtenAt (b.step n) = some r →
        ∃ m, readAt (b.step m) = some r ∨ withdrawnAt (b.step m) = some r := by
  refine ⟨fun tr s hr ↦ ?_, fun b hclear hfair N hkill n r hw ↦
    written_read hclear hfair hkill hw⟩
  obtain ⟨-, hhandled, hproduced⟩ := exchanged_of_run hr
  exact ⟨hhandled.once, hproduced.once, produced_of_returned hr, fun hc ↦
    ⟨read_of_removed hr hc, (kept_of_run hr hc).account⟩⟩

/-! ## Two runs -/

/-- The state after a step that can happen. -/
def Exchange.take (cfg : AgentConfig) (s : Exchange δ) (a : Exchange.Act δ) : Exchange δ :=
  (s.perform cfg a).getD s

/-- The step can happen. -/
def Exchange.Can (cfg : AgentConfig) (s : Exchange δ) (a : Exchange.Act δ) : Prop :=
  (s.perform cfg a).isSome

instance (cfg : AgentConfig) (s : Exchange δ) (a : Exchange.Act δ) : Decidable (s.Can cfg a) :=
  inferInstanceAs (Decidable ((s.perform cfg a).isSome = true))

theorem exchange_replay (cfg : AgentConfig) (acts : List (Exchange.Act δ))
    (h : Admits (Exchange.take cfg) (Exchange.Can cfg) {} acts) :
    (exchange δ cfg).Run (replaySteps (Exchange.take cfg) {} acts [])
      (replay (Exchange.take cfg) {} acts) := by
  refine Run.replay (M := exchange δ cfg) (fun s a hcan ↦ ?_) acts (.init rfl) h
  obtain ⟨s', hs'⟩ := Option.isSome_iff_exists.mp hcan
  show s.perform cfg a = some (s.take cfg a)
  rw [Exchange.take, hs', Option.getD_some]

/-- The agent's defaults. -/
def agentDefaults : AgentConfig := ⟨"dump1090-mutability.service", 15⟩

/-- A request is read, acted on and answered, and the answer is returned. -/
def answered : List (Exchange.Act ℕ) :=
  [.begin ⟨"a", "fpv_1g2"⟩, .rename, .check, .cat, .recheck, .rm 100,
    .write (.ran 0 (some (some 7)) ""), .poll, .collect]

theorem exchange_keeps_answered :
    history returnedAt (replaySteps (Exchange.take agentDefaults) {} answered []) = [("a", 7)] ∧
    Always (fun older x ↦ ∀ r, removedAt x = some r →
      x.pre.agent.body = some r ∧ r ∈ history readAt older)
      (replaySteps (Exchange.take agentDefaults) {} answered []) := by
  refine ⟨by decide, ((((exchange_keeps ℕ agentDefaults).1 _ _
    (exchange_replay agentDefaults answered (by decide))).2.2.2) ?_).1⟩
  intro x hx
  revert x
  decide

/-- The API withdraws a request that the agent has read, and writes the next one before the agent
removes the file. -/
def overtaken : List (Exchange.Act ℕ) :=
  [.begin ⟨"a", "fpv_1g2"⟩, .rename, .check, .cat, .recheck, .withdraw, .begin ⟨"b", "fpv_1g2"⟩,
    .rename, .rm 100]

/-- **A request that nobody reads.**  It was written and not withdrawn, and the agent has removed
it. -/
theorem request_removed_unread :
    ¬∀ (tr : List (Step (Exchange ℕ) (Exchange.Act ℕ))) (s : Exchange ℕ),
      (exchange ℕ agentDefaults).Run tr s →
      Always (fun older x ↦ ∀ r, removedAt x = some r → r ∈ history readAt older) tr := by
  intro h
  have hread := h _ _ (exchange_replay agentDefaults overtaken (by decide))
  have hmem := hread.1 ⟨"b", "fpv_1g2"⟩ (by decide)
  revert hmem
  decide

end ClassG.Spectrum
