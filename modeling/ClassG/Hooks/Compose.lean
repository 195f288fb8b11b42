import ClassG.ForGo.Headers
import ClassG.Hooks.Actions
import ClassG.Hooks.Payload

/-!
# What a hook sends

`Validate` of the three actions, and what each composes of a rule and an event: the headers of a
webhook and of an ntfy notification, and the commands and the message of a mail.

What `url.Parse` and `mail.ParseAddress` make of a text, and how the verb `%v` writes a value, is
given.  Dialling is in `Hooks.Actions`.
-/

set_option autoImplicit false

namespace GoString

/-- `strings.FieldsFunc`. -/
def fieldsFunc (s : String) (sep : Char → Bool) : List String :=
  ((s.toList.splitOnP sep).filter (· ≠ [])).map .ofList

end GoString

namespace ClassG.Hooks

open GoBytes

/-! ## Configuration -/

/-- What an action's configuration holds. -/
inductive Setting
  | text (s : String)
  | other
  deriving DecidableEq

/-- A rule with the configuration of its action. -/
structure ActionRule extends Rule where
  config : GoMap String Setting := .empty

/-- `ConfigString`. -/
def ActionRule.configString (r : ActionRule) (key : String) : String :=
  match r.config.get key with
  | some (.text s) => s
  | _ => ""

/-- What `mail.ParseAddress` returns. -/
structure Mailbox where
  name : String
  address : String
  deriving DecidableEq

/-- What is outside of an action. -/
structure Outside where
  net : Actions.Network
  /-- `mail.ParseAddress`. -/
  parseAddress : String → Option Mailbox
  /-- The verb `%v`. -/
  verb : Value → GoBytes

/-- Why a rule's configuration is refused. -/
inductive ConfigError
  | webhookURL
  | ntfyURL
  | vet (e : Actions.VetError)
  | priority (p : String)
  | noServer
  | noRecipient
  | notAddress (entry : String)
  deriving DecidableEq

/-- `Error`, with the verb `%q` and the text of an address. -/
def ConfigError.text (quote : String → String) (ipText : IP → String) : ConfigError → String
  | webhookURL => "invalid action configuration: a webhook needs a url"
  | ntfyURL => "invalid action configuration: an ntfy hook needs a topic url"
  | vet e => e.text quote ipText
  | priority p => "invalid action configuration: " ++ quote p ++
    " is not an ntfy priority (min, low, default, high or urgent)"
  | noServer =>
    "invalid action configuration: no SMTP server is configured on this unit (CLASSG_SMTP_HOST)"
  | noRecipient => "invalid action configuration: an email action needs a recipient"
  | notAddress entry => "invalid action configuration: " ++ quote entry ++
    " is not an email address"

/-- `sanitiseHeader`. -/
def sanitiseHeader (s : GoBytes) : GoBytes :=
  let s := s.map fun b ↦ if b = 13 then 32 else b
  let s := s.map fun b ↦ if b = 10 then 32 else b
  if 200 < s.length then s.take 200 else s

/-- `sortedKeys`. -/
def sortedKeys (p : Payload) : List String := p.keys.insertionSort (· ≤ ·)

/-- A line `key: value` of a body for each key of the payload. -/
def payloadLines (verb : Value → GoBytes) (start stop : GoBytes) (p : Payload) : GoBytes :=
  (sortedKeys p).flatMap fun k ↦
    start ++ ofString k ++ [58, 32] ++ ((p.get k).map verb).getD [] ++ stop

/-! ## Webhooks -/

namespace Webhook

/-- `Validate`, after what has happened. -/
def validate (out : Outside) (w : Actions.Action) (rule : ActionRule)
    (history : List Actions.NetStep) : Except ConfigError Unit :=
  if rule.configString "url" = "" then .error .webhookURL
  else
    match (Actions.vetTarget out.net w.allowPrivate (rule.configString "url") history).1 with
    | .error e => .error (.vet e)
    | .ok _ => .ok ()

/-- The headers that `Deliver` sets. -/
def headers (rule : ActionRule) : List (String × GoBytes) :=
  [("Content-Type", ofASCII "application/json"), ("User-Agent", ofASCII "classg-hooks/1")] ++
    if rule.configString "authorization" ≠ "" then
      [("Authorization", ofString (rule.configString "authorization"))]
    else []

end Webhook

/-! ## Ntfy -/

namespace Ntfy

/-- `ntfyPriorities`. -/
def priorities : List String := ["min", "low", "default", "high", "urgent"]

/-- `ntfyDefaultTags`. -/
def defaultTags : List (String × String) :=
  [(eventTrackConfirmed, "airplane"), (eventTrackClosed, "wave"), (eventDetection, "satellite"),
    (eventSensorUnhealthy, "warning"), (eventSensorRecovered, "white_check_mark"),
    (eventCaptureDone, "floppy_disk"), (eventSweepDone, "bar_chart")]

/-- `Validate`, after what has happened. -/
def validate (out : Outside) (n : Actions.Action) (rule : ActionRule)
    (history : List Actions.NetStep) : Except ConfigError Unit :=
  if rule.configString "url" = "" then .error .ntfyURL
  else
    match (Actions.vetTarget out.net n.allowPrivate (rule.configString "url") history).1 with
    | .error e => .error (.vet e)
    | .ok _ =>
      let p := rule.configString "priority"
      if p ≠ "" ∧ p ∉ priorities then .error (.priority p) else .ok ()

/-- The title that is configured, or else one from the name of the event. -/
def plainTitle (rule : ActionRule) (e : Alert) : GoBytes :=
  if rule.configString "title" = "" then
    ofASCII "ClassG: " ++ (ofString e.name).map fun b ↦ if b = 46 then 32 else b
  else ofString (rule.configString "title")

/-- `compose`. -/
def compose (out : Outside) (rule : ActionRule) (e : Alert) : GoBytes × GoBytes :=
  let body := ofString rule.name ++ [10] ++ payloadLines out.verb [] [10] e.payload
  (sanitiseHeader (plainTitle rule e), (body.reverse.dropWhile (· = 10)).reverse)

/-- The tags that are configured, or else those of the event. -/
def tags (rule : ActionRule) (e : Alert) : String :=
  if rule.configString "tags" = "" then
    ((defaultTags.find? (·.1 = e.name)).map (·.2)).getD ""
  else rule.configString "tags"

/-- The headers that `Deliver` sets. -/
def headers (out : Outside) (rule : ActionRule) (e : Alert) : List (String × GoBytes) :=
  let priority := rule.configString "priority"
  [("Content-Type", ofASCII "text/plain; charset=utf-8"),
    ("User-Agent", ofASCII "classg-hooks/1"),
    ("Title", (compose out rule e).1),
    ("Priority", ofString (if priority = "" then "default" else priority))] ++
  (if tags rule e ≠ "" then [("Tags", ofString (tags rule e))] else []) ++
  if rule.configString "access_token" ≠ "" then
    [("Authorization", ofASCII "Bearer " ++ ofString (rule.configString "access_token"))]
  else []

end Ntfy

/-! ## Mail -/

/-- `SMTP`, as far as it decides what is sent. -/
structure SMTP where
  host : String
  sender : String

namespace SMTP

/-- `Configured`. -/
def configured (s : SMTP) : Bool := s.host ≠ "" ∧ s.sender ≠ ""

/-- `splitRecipients`. -/
def splitRecipients (entries : String) : List String :=
  ((GoString.fieldsFunc entries fun c ↦ c = ',' ∨ c = ';').map GoString.trimSpace).filter (· ≠ "")

/-- `Validate`. -/
def validate (out : Outside) (s : SMTP) (rule : ActionRule) : Except ConfigError Unit :=
  if !s.configured then .error .noServer
  else if rule.configString "to" = "" then .error .noRecipient
  else
    match (splitRecipients (rule.configString "to")).find? fun a ↦ (out.parseAddress a).isNone with
    | some a => .error (.notAddress a)
    | none => .ok ()

/-- The fields of the header section. -/
def fields (s : SMTP) (rule : ActionRule) (e : Alert) (recipients : List String) :
    List (GoBytes × GoBytes) :=
  let subject := rule.configString "subject"
  [(ofASCII "From", ofString s.sender),
    (ofASCII "To", List.intercalate [44, 32] (recipients.map ofString)),
    (ofASCII "Subject", sanitiseHeader
      (if subject = "" then ofASCII "ClassG: " ++ ofString e.name else ofString subject)),
    (ofASCII "Date", GoTime.formatRFC1123Z e.atTime),
    (ofASCII "Content-Type", ofASCII "text/plain; charset=utf-8"),
    (ofASCII "MIME-Version", ofASCII "1.0")]

/-- A field as a line of the header section. -/
def line (f : GoBytes × GoBytes) : GoBytes := f.1 ++ [58, 32] ++ f.2

/-- The body of the message. -/
def body (out : Outside) (rule : ActionRule) (e : Alert) : GoBytes :=
  ofString e.name ++ [13, 10] ++
    ofASCII "at " ++ GoTime.formatSeconds (GoTime.stamp e.atTime) ++ [90, 13, 10] ++
    ofASCII "rule: " ++ ofString rule.name ++ [13, 10, 13, 10] ++
    payloadLines out.verb [32, 32] [13, 10] e.payload ++ [13, 10] ++
    ofASCII "This is an energy/identity observation from a passive receiver." ++ [13, 10] ++
    ofASCII "ClassG never transmits." ++ [13, 10]

/-- `compose`. -/
def compose (out : Outside) (s : SMTP) (rule : ActionRule) (e : Alert)
    (recipients : List String) : GoBytes :=
  (s.fields rule e recipients).flatMap (fun f ↦ line f ++ [13, 10]) ++
    13 :: 10 :: body out rule e

/-- A command to the server. -/
inductive Command
  | mail (sender : String)
  | rcpt (recipient : String)
  | data (msg : GoBytes)

/-- `Deliver` to a server that accepts every command. -/
def deliver (out : Outside) (s : SMTP) (rule : ActionRule) (e : Alert) :
    Except ConfigError (List Command) :=
  match s.validate out rule with
  | .error e => .error e
  | .ok () =>
    let recipients := splitRecipients (rule.configString "to")
    .ok (.mail s.sender :: recipients.map .rcpt ++ [.data (compose out s rule e recipients)])

end SMTP

end ClassG.Hooks
