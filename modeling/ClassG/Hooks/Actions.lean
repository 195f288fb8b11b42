import ClassG.ForGo.IP

/-!
# Where a hook is delivered to

`services/api/internal/hooks/actions.go`: a webhook and an ntfy topic are URLs that an admin has
written, and their hosts are looked up before each delivery.  `vetTarget` refuses a host that has a
private address, and `pinnedClient` connects to an address that has been looked at, and to no other.

The network answers as it likes: what a name resolves to may depend on all that has happened, and
what `net/http` dials and the target answers is given by a list of `Round`s.
-/

set_option autoImplicit false

namespace ClassG.Hooks.Actions

/-! ## The network -/

/-- What a delivery does that can be seen from outside. -/
inductive NetStep
  /-- A host is looked up, with no answer if that is an error. -/
  | lookup (host : String) (answer : Option (List IP))
  /-- A connection is opened, or tried. -/
  | connect (address : Address) (port : String)
  /-- A request is sent. -/
  | request (url : String)
  deriving DecidableEq

/-- What `url.Parse` makes of a URL. -/
structure URL where
  scheme : String
  /-- `Hostname()`. -/
  hostname : String
  deriving DecidableEq

/-- What is outside. -/
structure Network where
  /-- `url.Parse`. -/
  parse : String → Option URL
  /-- `net.LookupIP`, after all that has happened. -/
  resolver : List NetStep → String → Option (List IP)

/-- To look up a host that has no address is an error. -/
def Network.NeverEmpty (net : Network) : Prop :=
  ∀ history host ips, net.resolver history host = some ips → ips ≠ []

/-- The host of an address that is dialled. -/
inductive Host
  | literal (ip : IP)
  | name (name : String)

/-- An address that the transport asks for. -/
structure Dial where
  host : Host
  port : String
  /-- How many of the addresses of a name are tried. -/
  tries : ℕ := 1

/-- A response. -/
structure Response where
  statusCode : ℕ
  status : String
  /-- The header `Location`. -/
  location : Option String := none

/-- What becomes of a request. -/
inductive Outcome
  | unsent
  | unanswered
  | answered (r : Response)

/-- What `net/http` does for one request: it asks for connections, none of them for an address that
`SplitHostPort` does not split, and sends the request. -/
structure Round where
  dials : List (Option Dial)
  outcome : Outcome

/-! ## Clients -/

/-- `http.Client`. -/
structure Client where
  /-- The address that the `DialContext` of its transport is bound to, if it has one of its own. -/
  pin : Option IP := none
  /-- The error of `CheckRedirect`, if it has one. -/
  checkRedirect : Option String := none

/-- `pinnedClient`. -/
def pinnedClient (ip : IP) : Client where
  pin := some ip
  checkRedirect := some "targets may not redirect"

/-- `DialContext`: that of `pinnedClient`, or that of a `net.Dialer`. -/
def dialContext (net : Network) (pin : Option IP) (history : List NetStep) (dial : Dial) :
    List NetStep :=
  match pin with
  | some ip => [.connect ip.address dial.port]
  | none =>
    match dial.host with
    | .literal ip => [.connect ip.address dial.port]
    | .name name =>
      let answer := net.resolver history name
      .lookup name answer ::
        ((answer.getD []).take dial.tries).map fun ip ↦ .connect ip.address dial.port

/-- All that is dialled for one request. -/
def dialAll (net : Network) (pin : Option IP) (history : List NetStep) :
    List (Option Dial) → List NetStep
  | [] => []
  | none :: rest => dialAll net pin history rest
  | some dial :: rest =>
    let steps := dialContext net pin history dial
    steps ++ dialAll net pin (history ++ steps) rest

/-- Where a response redirects to. -/
def Response.redirects (r : Response) : Option String :=
  if r.statusCode ∈ [301, 302, 303, 307, 308] then r.location else none

/-- What `Do` returns instead of a response. -/
inductive ClientError
  | failed
  | redirect (text : String)
  deriving DecidableEq

/-- `Do`, after `via` requests. -/
def Client.doRequest (net : Network) (client : Client) :
    ℕ → String → List Round → List NetStep → Except ClientError Response × List NetStep
  | _, _, [], _ => (.error .failed, [])
  | via, url, round :: rest, history =>
    let dials := dialAll net client.pin history round.dials
    match round.outcome with
    | .unsent => (.error .failed, dials)
    | .unanswered => (.error .failed, dials ++ [.request url])
    | .answered r =>
      match r.redirects with
      | none => (.ok r, dials ++ [.request url])
      | some location =>
        match client.checkRedirect with
        | some text => (.error (.redirect text), dials ++ [.request url])
        | none =>
          if via + 1 < 10 then
            let sent := dials ++ [.request url]
            let (result, more) := client.doRequest net (via + 1) location rest (history ++ sent)
            (result, sent ++ more)
          else (.error (.redirect "stopped after 10 redirects"), dials ++ [.request url])

/-! ## The check -/

/-- `isBlockedIP`. -/
def isBlockedIP (ip : IP) : Bool :=
  ip.isLoopback || ip.isPrivate || ip.isLinkLocalUnicast || ip.isLinkLocalMulticast ||
    ip.isUnspecified || ip.isInterfaceLocalMulticast

/-- Why `vetTarget` refuses. -/
inductive VetError
  | notURL (raw : String)
  | scheme (scheme : String)
  | noHost (raw : String)
  | unresolved (host : String)
  | blocked (host : String) (ip : IP)
  deriving DecidableEq

/-- `Error`, with the verb `%q` and the text of an address. -/
def VetError.text (quote : String → String) (ipText : IP → String) (e : VetError) : String :=
  "invalid action configuration: " ++ match e with
  | notURL raw => raw ++ " is not a URL"
  | scheme s => "the target must be http or https, not " ++ quote s
  | noHost raw => "no host in " ++ raw
  | unresolved host => "cannot resolve " ++ host
  | blocked host ip => host ++ " resolves to " ++ ipText ip ++
    ", which is a loopback, link-local or private address. " ++
    "Set hooks.allow_private_targets if that is deliberate"

/-- What the addresses of a host are checked for. -/
def checkAnswer (host : String) : Option (List IP) → Except VetError (List IP)
  | none => .error (.unresolved host)
  | some ips =>
    match ips.find? isBlockedIP with
    | some ip => .error (.blocked host ip)
    | none => .ok ips

/-- `vetTarget`. -/
def vetTarget (net : Network) (allowPrivate : Bool) (raw : String) (history : List NetStep) :
    Except VetError (List IP) × List NetStep :=
  match net.parse raw with
  | none => (.error (.notURL raw), [])
  | some u =>
    if u.scheme ≠ "http" ∧ u.scheme ≠ "https" then (.error (.scheme u.scheme), [])
    else if u.hostname = "" then (.error (.noHost raw), [])
    else if allowPrivate then (.ok [], [])
    else
      let answer := net.resolver history u.hostname
      (checkAnswer u.hostname answer, [.lookup u.hostname answer])

/-! ## Deliveries -/

/-- `Webhook` and `Ntfy`. -/
structure Action where
  client : Option Client := none
  allowPrivate : Bool := false

/-- `client`, with what it says of a redirect. -/
def Action.clientOr (a : Action) (refusal : String) : Client :=
  a.client.getD { checkRedirect := some refusal }

/-- The client that is used after the check. -/
def Action.clientFor (a : Action) (refusal : String) (ips : List IP) : Client :=
  match a.client, ips with
  | none, ip :: _ => pinnedClient ip
  | _, _ => a.clientOr refusal

/-- What `Deliver` returns besides the status. -/
inductive DeliverError
  | vet (e : VetError)
  | payload (text : String)
  | request
  | client (e : ClientError)
  | answered (status : String)
  deriving DecidableEq

/-- What a delivery comes to. -/
def delivered : Except ClientError Response → ℕ × Option DeliverError
  | .error e => (0, some (.client e))
  | .ok r =>
    if 200 ≤ r.statusCode ∧ r.statusCode < 300 then (r.statusCode, none)
    else (r.statusCode, some (.answered r.status))

/-- What both have in common: a body may be an error, and what is sent besides is left out. -/
def Action.deliver (net : Network) (refusal : String) (a : Action) (raw : String)
    (body : Except String GoBytes) (rounds : List Round) (history : List NetStep) :
    (ℕ × Option DeliverError) × List NetStep :=
  let (vetted, steps) := vetTarget net a.allowPrivate raw history
  match vetted with
  | .error e => ((0, some (.vet e)), steps)
  | .ok ips =>
    match body with
    | .error text => ((0, some (.payload text)), steps)
    | .ok _ =>
      match net.parse raw with
      | none => ((0, some .request), steps)
      | some _ =>
        let (result, more) :=
          (a.clientFor refusal ips).doRequest net 0 raw rounds (history ++ steps)
        (delivered result, steps ++ more)

namespace Webhook

/-- `Deliver`, of what `MarshalPayload` returns. -/
def deliver (net : Network) (w : Action) (raw : String) (payload : Except String GoBytes)
    (rounds : List Round) (history : List NetStep) :
    (ℕ × Option DeliverError) × List NetStep :=
  w.deliver net "webhook targets may not redirect" raw payload rounds history

end Webhook

namespace Ntfy

/-- `Deliver`, of the body that `compose` returns. -/
def deliver (net : Network) (n : Action) (raw : String) (body : GoBytes) (rounds : List Round)
    (history : List NetStep) : (ℕ × Option DeliverError) × List NetStep :=
  n.deliver net "ntfy targets may not redirect" raw (.ok body) rounds history

end Ntfy

/-! ## One delivery after the other -/

/-- A call of `Deliver`. -/
inductive Call
  | webhook (w : Action) (raw : String) (payload : Except String GoBytes) (rounds : List Round)
  | ntfy (n : Action) (raw : String) (body : GoBytes) (rounds : List Round)

namespace Call

def action : Call → Action
  | webhook w _ _ _ => w
  | ntfy n _ _ _ => n

/-- The URL of the rule. -/
def raw : Call → String
  | webhook _ raw _ _ => raw
  | ntfy _ raw _ _ => raw

def deliver (net : Network) : Call → List NetStep → (ℕ × Option DeliverError) × List NetStep
  | webhook w raw payload rounds => Webhook.deliver net w raw payload rounds
  | ntfy n raw body rounds => Ntfy.deliver net n raw body rounds

end Call

/-- A delivery that has been made. -/
structure Made where
  call : Call
  /-- What had happened before. -/
  history : List NetStep
  result : ℕ × Option DeliverError
  steps : List NetStep

/-- The deliveries, one after the other. -/
def deliverAll (net : Network) : List Call → List NetStep → List Made
  | [], _ => []
  | call :: rest, history =>
    let (result, steps) := call.deliver net history
    ⟨call, history, result, steps⟩ :: deliverAll net rest (history ++ steps)

end ClassG.Hooks.Actions
