import ClassG.Hooks.Actions

/-!
# No delivery reaches a private address

The check and the connection are separate steps, and between them the resolver may change its mind
and the target may redirect.  A delivery that is checked looks its host up once, connects to the
first of the addresses it has found if none of them is private, and sends one request
(`Action.deliver_steps`).  Nothing that the network does can make it connect elsewhere.
-/

set_option autoImplicit false

namespace ClassG.Hooks.Actions

variable {net : Network} {history steps : List NetStep} {raw : String}

/-! ## The check -/

/-- **What is blocked is what is not public.** -/
theorem isBlockedIP_eq_false (ip : IP) : isBlockedIP ip = false ↔ ip.address.Public := by
  rw [← Bool.not_eq_true, isBlockedIP]
  simp only [Bool.or_eq_true, ip.isLoopback_iff, ip.isPrivate_iff, ip.isLinkLocalUnicast_iff,
    ip.isLinkLocalMulticast_iff, ip.isUnspecified_iff, ip.isInterfaceLocalMulticast_iff, not_or]
  constructor
  · rintro ⟨⟨⟨⟨⟨hloopback, hprivate⟩, hunicast⟩, hmulticast⟩, hunspecified⟩, hinterface⟩
    exact ⟨hloopback, hprivate, hunicast, hmulticast, hinterface, hunspecified⟩
  · rintro ⟨hloopback, hprivate, hunicast, hmulticast, hinterface, hunspecified⟩
    exact ⟨⟨⟨⟨⟨hloopback, hprivate⟩, hunicast⟩, hmulticast⟩, hunspecified⟩, hinterface⟩

theorem checkAnswer_eq_ok {host : String} {answer : Option (List IP)} {ips : List IP} :
    checkAnswer host answer = .ok ips ↔ answer = some ips ∧ ∀ ip ∈ ips, isBlockedIP ip = false := by
  rcases answer with _ | found
  · simp [checkAnswer]
  · rw [checkAnswer]
    rcases hfind : found.find? isBlockedIP with _ | ip
    · have hnone : ∀ ip ∈ found, isBlockedIP ip = false := by simpa using hfind
      constructor
      · rintro ⟨⟩
        exact ⟨rfl, hnone⟩
      · rintro ⟨⟨⟩, -⟩
        rfl
    · have hip := List.find?_some hfind
      have hmem := List.mem_of_find?_eq_some hfind
      refine iff_of_false (fun h ↦ by cases h) ?_
      rintro ⟨⟨⟩, hall⟩
      rw [hall ip hmem] at hip
      cases hip

/-- A check looks up one host, and what it lets through has been found there. -/
theorem vetTarget_steps (net : Network) (history : List NetStep) (raw : String) :
    (∃ e, vetTarget net false raw history = (.error e, [])) ∨
    ∃ host, let answer := net.resolver history host
      vetTarget net false raw history = (checkAnswer host answer, [.lookup host answer]) := by
  rw [vetTarget]
  rcases net.parse raw with _ | u
  · exact .inl ⟨_, rfl⟩
  · dsimp only
    split_ifs with hscheme hhost
    · exact .inl ⟨_, rfl⟩
    · exact .inl ⟨_, rfl⟩
    · contradiction
    · exact .inr ⟨u.hostname, rfl⟩

/-! ## The pinned client -/

/-- The step sends a request. -/
def NetStep.isRequest : NetStep → Bool
  | .request _ => true
  | _ => false

/-- All connections go to one address, and there is one request at most. -/
structure Pinned (address : Address) (steps : List NetStep) : Prop where
  only : ∀ step ∈ steps, (∃ port, step = .connect address port) ∨ ∃ url, step = .request url
  requests : steps.countP NetStep.isRequest ≤ 1

theorem dialAll_pinned (net : Network) (history : List NetStep) (ip : IP)
    (dials : List (Option Dial)) :
    ∀ step ∈ dialAll net (some ip) history dials, ∃ port, step = .connect ip.address port := by
  induction dials generalizing history with
  | nil => exact fun _ h ↦ absurd h List.not_mem_nil
  | cons dial rest ih =>
    cases dial with
    | none => exact ih history
    | some dial =>
      rw [dialAll]
      intro step hstep
      rcases List.mem_append.mp hstep with h | h
      · exact ⟨dial.port, List.mem_singleton.mp h⟩
      · exact ih _ step h

section pinned

variable {address : Address} {dials : List NetStep}

theorem not_isRequest (h : ∀ step ∈ dials, ∃ port, step = .connect address port) :
    dials.countP NetStep.isRequest = 0 := by
  refine List.countP_eq_zero.mpr fun step hstep ↦ ?_
  obtain ⟨port, rfl⟩ := h step hstep
  exact Bool.false_ne_true

/-- The request is not sent. -/
theorem Pinned.unsent (h : ∀ step ∈ dials, ∃ port, step = .connect address port) :
    Pinned address dials where
  only step hstep := .inl (h step hstep)
  requests := by rw [not_isRequest h]; exact Nat.zero_le 1

/-- It is sent. -/
theorem Pinned.sent (h : ∀ step ∈ dials, ∃ port, step = .connect address port) (url : String) :
    Pinned address (dials ++ [.request url]) where
  only step hstep := by
    rcases List.mem_append.mp hstep with hstep | hstep
    · exact .inl (h step hstep)
    · exact .inr ⟨url, List.mem_singleton.mp hstep⟩
  requests := by
    rw [List.countP_append, not_isRequest h]
    rfl

end pinned

/-- **A client that is pinned and does not follow redirects.** -/
theorem doRequest_pinned {client : Client} {ip : IP} {text : String} (hpin : client.pin = some ip)
    (hredirect : client.checkRedirect = some text) (url : String) (rounds : List Round) :
    Pinned ip.address (client.doRequest net 0 url rounds history).2 := by
  cases rounds with
  | nil => exact .unsent fun _ h ↦ absurd h List.not_mem_nil
  | cons round rest =>
    have hdials := dialAll_pinned net history ip round.dials
    rw [Client.doRequest, hpin, hredirect]
    rcases round.outcome with _ | _ | r
    · exact .unsent hdials
    · exact .sent hdials url
    · dsimp only
      rcases r.redirects with _ | location
      · exact .sent hdials url
      · exact .sent hdials url

/-! ## One delivery -/

/-- What a delivery does that is checked. -/
inductive Checked : List NetStep → Prop
  /-- No host is looked up. -/
  | nothing : Checked []
  /-- The host is refused. -/
  | refused (host : String) (answer : Option (List IP)) : Checked [.lookup host answer]
  /-- The first of its addresses is connected to. -/
  | passed (host : String) (ip : IP) (rest : List IP) (more : List NetStep)
    (hpublic : ∀ x ∈ ip :: rest, x.address.Public) (hmore : Pinned ip.address more) :
    Checked (.lookup host (some (ip :: rest)) :: more)

variable {a : Action} {refusal : String} {body : Except String GoBytes} {rounds : List Round}

/-- A delivery is checked if the action has no client of its own and allows nothing private. -/
structure Action.Guards (a : Action) : Prop where
  client : a.client = none
  allowPrivate : a.allowPrivate = false

/-- **What a delivery does.** -/
theorem Action.deliver_steps (hfound : net.NeverEmpty) (ha : a.Guards) :
    Checked (a.deliver net refusal raw body rounds history).2 := by
  rw [Action.deliver, ha.allowPrivate]
  obtain ⟨e, hvet⟩ | ⟨host, hvet⟩ := vetTarget_steps net history raw
  · rw [hvet]
    exact .nothing
  · rw [hvet]
    dsimp only
    rcases hcheck : checkAnswer host (net.resolver history host) with e | ips
    · exact .refused host _
    · obtain ⟨hanswer, hpublic⟩ := checkAnswer_eq_ok.mp hcheck
      rw [hanswer]
      cases ips with
      | nil => exact absurd rfl (hfound history host [] hanswer)
      | cons ip rest =>
        have hall : ∀ x ∈ ip :: rest, x.address.Public := fun x hx ↦
          (isBlockedIP_eq_false x).mp (hpublic x hx)
        have hnone : Pinned ip.address [] := .unsent fun _ h ↦ absurd h List.not_mem_nil
        rcases body with text | body
        · exact .passed host ip rest [] hall hnone
        · dsimp only
          rcases net.parse raw with _ | u
          · exact .passed host ip rest [] hall hnone
          · have hclient : a.clientFor refusal (ip :: rest) = pinnedClient ip := by
              unfold Action.clientFor
              rw [ha.client]
            rw [hclient]
            exact .passed host ip rest _ hall (doRequest_pinned rfl rfl raw rounds)

/-- Where the check fails, nothing is done but looked up. -/
theorem Action.deliver_refused (hfails : ∃ e, (vetTarget net false raw history).1 = .error e)
    (ha : a.Guards) : ∀ step ∈ (a.deliver net refusal raw body rounds history).2,
      ∃ host answer, step = .lookup host answer := by
  rw [Action.deliver, ha.allowPrivate]
  obtain ⟨e, hvet⟩ | ⟨host, hvet⟩ := vetTarget_steps net history raw
  · rw [hvet]
    exact fun _ h ↦ absurd h List.not_mem_nil
  · rw [hvet] at hfails ⊢
    obtain ⟨e, he⟩ := hfails
    dsimp only at he ⊢
    rw [he]
    exact fun step hstep ↦ ⟨host, _, List.mem_singleton.mp hstep⟩

/-- What a delivery is not to do: every connection goes to an address that is public, as are all of
an answer before it in which it is found, and there is one request at most. -/
structure Guarded (steps : List NetStep) : Prop where
  connects : ∀ before address port after, steps = before ++ .connect address port :: after →
    address.Public ∧ ∃ host ips, .lookup host (some ips) ∈ before ∧
      (∃ ip ∈ ips, ip.address = address) ∧ ∀ ip ∈ ips, isBlockedIP ip = false
  requests : steps.countP NetStep.isRequest ≤ 1

theorem Checked.guarded (h : Checked steps) : Guarded steps := by
  cases h with
  | nothing => exact ⟨fun before address port after h ↦ by simp at h, Nat.zero_le 1⟩
  | refused host answer =>
    refine ⟨fun before address port after h ↦ ?_, Nat.zero_le 1⟩
    cases before with
    | nil => cases h
    | cons step before => simp at h
  | passed host ip rest more hpublic hmore =>
    refine ⟨fun before address port after h ↦ ?_, ?_⟩
    · cases before with
      | nil => cases h
      | cons step before =>
        obtain ⟨rfl, rfl⟩ := List.cons.inj h
        have hmem : NetStep.connect address port ∈ before ++ .connect address port :: after :=
          List.mem_append_right _ List.mem_cons_self
        obtain ⟨port', heq⟩ | ⟨url, heq⟩ := hmore.only _ hmem
        · cases heq
          exact ⟨hpublic ip List.mem_cons_self, host, ip :: rest, List.mem_cons_self,
            ⟨ip, List.mem_cons_self, rfl⟩, fun x hx ↦ (isBlockedIP_eq_false x).mpr (hpublic x hx)⟩
        · cases heq
    · rw [List.countP_cons_of_neg Bool.false_ne_true]
      exact hmore.requests

/-! ## All deliveries -/

theorem Call.deliver_steps (hfound : net.NeverEmpty) {call : Call} (ha : call.action.Guards) :
    Checked (call.deliver net history).2 := by
  cases call with
  | webhook w raw payload rounds => exact Action.deliver_steps hfound ha
  | ntfy n raw body rounds => exact Action.deliver_steps hfound ha

theorem Call.deliver_refused {call : Call} (ha : call.action.Guards)
    (hfails : ∃ e, (vetTarget net false call.raw history).1 = .error e) :
    ∀ step ∈ (call.deliver net history).2, ∃ host answer, step = .lookup host answer := by
  cases call with
  | webhook w raw payload rounds => exact Action.deliver_refused hfails ha
  | ntfy n raw body rounds => exact Action.deliver_refused hfails ha

/-- **No delivery reaches a private address, and where the check fails it reaches none.** -/
theorem deliveries_guarded (net : Network) (hfound : net.NeverEmpty) (calls : List Call)
    (hcalls : ∀ call ∈ calls, call.action.Guards) (history : List NetStep) :
    ∀ made ∈ deliverAll net calls history, Guarded made.steps ∧
      ((∃ e, (vetTarget net false made.call.raw made.history).1 = .error e) →
        ∀ step ∈ made.steps, ∃ host answer, step = .lookup host answer) := by
  induction calls generalizing history with
  | nil => exact fun made h ↦ absurd h List.not_mem_nil
  | cons call rest ih =>
    have ha := hcalls call List.mem_cons_self
    intro made hmade
    rcases List.mem_cons.mp hmade with rfl | hmade
    · exact ⟨(Call.deliver_steps hfound ha).guarded, Call.deliver_refused ha⟩
    · exact ih (fun call h ↦ hcalls call (List.mem_cons_of_mem _ h)) _ made hmade

/-- A resolver that has a public address at first, and the loopback one from then on. -/
def rebinding : Network where
  parse raw :=
    if raw = "https://hooks.example/in" then some ⟨"https", "hooks.example"⟩
    else if raw = "http://hooks.example/alerts" then some ⟨"http", "hooks.example"⟩
    else none
  resolver history _ :=
    if history = [] then some [⟨[93, 184, 216, 34], .inl rfl⟩]
    else some [⟨[0, 0, 0, 0, 0, 0, 0, 0, 0, 0, 255, 255, 127, 0, 0, 1], .inr rfl⟩]

/-- A webhook that is redirected to the metadata of a cloud, and then an ntfy topic. -/
def twoCalls : List Call :=
  [.webhook {} "https://hooks.example/in" (.ok []) [⟨[some ⟨.name "hooks.example", "443", 1⟩],
    .answered ⟨302, "302 Found", some "http://169.254.169.254/"⟩⟩],
   .ntfy {} "http://hooks.example/alerts" [] []]

theorem twoCalls_guarded :
    (deliverAll rebinding twoCalls []).map Made.result =
      [(0, some (.client (.redirect "targets may not redirect"))),
       (0, some (.vet (.blocked "hooks.example"
        ⟨[0, 0, 0, 0, 0, 0, 0, 0, 0, 0, 255, 255, 127, 0, 0, 1], .inr rfl⟩)))] ∧
      ∀ made ∈ deliverAll rebinding twoCalls [], Guarded made.steps := by
  have hfound : rebinding.NeverEmpty := by
    rintro history host ips h rfl
    simp only [rebinding] at h
    split at h <;> cases h
  have hcalls : ∀ call ∈ twoCalls, call.action.Guards := by
    intro call hcall
    rcases List.mem_pair.mp hcall with rfl | rfl <;> exact ⟨rfl, rfl⟩
  exact ⟨by decide, fun made hmade ↦
    (deliveries_guarded rebinding hfound twoCalls hcalls [] made hmade).1⟩

end ClassG.Hooks.Actions
