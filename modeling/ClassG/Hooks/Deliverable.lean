import ClassG.Hooks.Compose

/-!
# A validated hook can be delivered

`Validate` is there so that a broken hook is refused when it is configured.  `deliverable_iff` says
what it leaves to whoever writes the rule: that no header that is sent has a control character, that
there is a recipient, and that the recipients are bare addresses.  `deliverable_not` shows rules that
are accepted and cannot be delivered.
-/

set_option autoImplicit false

namespace ClassG.Hooks

open GoBytes

/-! ## What is to hold of a delivery -/

/-- The three actions. -/
inductive Sender
  | webhook (a : Actions.Action)
  | ntfy (a : Actions.Action)
  | email (s : SMTP)

/-- `Validate`, after what has happened. -/
def Sender.validate (out : Outside) (rule : ActionRule) (history : List Actions.NetStep) :
    Sender → Except ConfigError Unit
  | webhook a => Webhook.validate out a rule history
  | ntfy a => Ntfy.validate out a rule history
  | email s => s.validate out rule

namespace SMTP

/-- The addresses given to `RCPT TO`. -/
def rcpts (cmds : List Command) : List String :=
  cmds.filterMap fun | .rcpt r => some r | _ => none

/-- The messages given to `DATA`. -/
def messages (cmds : List Command) : List GoBytes :=
  cmds.filterMap fun | .data msg => some msg | _ => none

/-- The mail has recipients, each the bare address of an entry, and its header section is the fixed
lines. -/
structure Deliverable (out : Outside) (s : SMTP) (rule : ActionRule) (e : Alert)
    (cmds : List Command) : Prop where
  recipient : rcpts cmds ≠ []
  bare : List.Forall₂ (fun entry r ↦ ∃ m, out.parseAddress entry = some m ∧ m.address = r)
    (splitRecipients (rule.configString "to")) (rcpts cmds)
  header : ∀ msg ∈ messages cmds, headerLines [] msg =
    (s.fields rule e (splitRecipients (rule.configString "to"))).map line
  values : ∀ f ∈ s.fields rule e (splitRecipients (rule.configString "to")), OneLine f.2

end SMTP

/-- The rule's own configuration does not stand in the way of a delivery. -/
def Sender.Deliverable (out : Outside) (rule : ActionRule) (e : Alert) : Sender → Prop
  | webhook _ => ∀ h ∈ Webhook.headers rule, validHeaderFieldValue h.2
  | ntfy _ => ∀ h ∈ Ntfy.headers out rule e, validHeaderFieldValue h.2
  | email s => ∃ cmds, s.deliver out rule e = .ok cmds ∧ s.Deliverable out rule e cmds

/-! ## What is asked of a rule besides -/

/-- What a mail needs. -/
structure SMTP.Fit (out : Outside) (s : SMTP) (rule : ActionRule) : Prop where
  named : ∃ c ∈ (rule.configString "to").toList, c ≠ ',' ∧ c ≠ ';' ∧ GoString.isSpace c = false
  bare : ∀ entry ∈ splitRecipients (rule.configString "to"), ∀ m,
    out.parseAddress entry = some m → m.address = entry
  entries : ∀ entry ∈ splitRecipients (rule.configString "to"), OneLine (ofString entry)
  sender : OneLine (ofString s.sender)

/-- What a notification needs: in the title, ends of lines do no harm, and nothing does after 200
bytes. -/
structure Ntfy.Fit (rule : ActionRule) (e : Alert) : Prop where
  title : ∀ b ∈ (plainTitle rule e).take 200, isControl b → b = 13 ∨ b = 10
  tags : ∀ b ∈ ofString (rule.configString "tags"), isControl b = false
  token : ∀ b ∈ ofString (rule.configString "access_token"), isControl b = false

def Sender.Fit (out : Outside) (rule : ActionRule) (e : Alert) : Sender → Prop
  | webhook _ => ∀ b ∈ ofString (rule.configString "authorization"), isControl b = false
  | ntfy _ => Ntfy.Fit rule e
  | email s => s.Fit out rule

/-! ## Titles and subjects -/

/-- **What `sanitiseHeader` does**: it puts spaces for the ends of lines in the first 200 bytes. -/
theorem sanitiseHeader_eq (s : GoBytes) :
    sanitiseHeader s = (s.take 200).map fun b ↦ if b = 13 ∨ b = 10 then 32 else b := by
  have hmap : (s.map fun b ↦ if b = 13 then (32 : Byte) else b).map
      (fun b ↦ if b = 10 then (32 : Byte) else b) =
        s.map fun b ↦ if b = 13 ∨ b = 10 then 32 else b := by
    rw [List.map_map]
    refine List.map_congr_left fun b _ ↦ ?_
    by_cases h : b = 13 <;> simp [h]
  rw [sanitiseHeader]
  simp only [hmap, List.length_map]
  split
  · rw [List.map_take]
  · rename_i hle
    rw [List.take_of_length_le (by omega)]

theorem oneLine_sanitiseHeader (s : GoBytes) : OneLine (sanitiseHeader s) := by
  rw [sanitiseHeader_eq]
  intro b hb
  obtain ⟨c, -, rfl⟩ := List.mem_map.mp hb
  split
  · decide
  · rename_i h
    exact not_or.mp h

theorem validHeaderFieldValue_sanitiseHeader (s : GoBytes) :
    validHeaderFieldValue (sanitiseHeader s) ↔
      ∀ b ∈ s.take 200, isControl b → b = 13 ∨ b = 10 := by
  rw [sanitiseHeader_eq, validHeaderFieldValue_iff, List.forall_mem_map]
  refine forall₂_congr fun b _ ↦ ?_
  by_cases h : b = 13 ∨ b = 10
  · simp only [h, if_true, implies_true, iff_true]
    decide
  · simp [h]

/-! ## Recipients -/

/-- The characters of the pieces are those that do not separate them. -/
theorem mem_splitOnP (sep : Char → Bool) {s : List Char} {c : Char} :
    (∃ piece ∈ s.splitOnP sep, c ∈ piece) ↔ c ∈ s ∧ sep c = false := by
  induction s with
  | nil => simp
  | cons d s ih =>
    rw [List.splitOnP_cons_eq_if_modifyHead, List.mem_cons]
    by_cases hd : sep d
    · have hne : c = d → sep c = true := fun h ↦ h ▸ hd
      rw [if_pos hd, List.exists_mem_cons_iff, ih]
      simp only [List.not_mem_nil, false_or, or_and_right]
      exact ⟨.inr, fun h ↦ h.resolve_left fun ⟨heq, hc⟩ ↦ by simp [hne heq] at hc⟩
    · obtain ⟨piece, rest, hpieces⟩ := List.exists_cons_of_ne_nil (List.splitOnP_ne_nil sep s)
      have heq : c = d → sep c = false := fun h ↦ h ▸ Bool.eq_false_iff.mpr hd
      rw [hpieces, List.exists_mem_cons_iff] at ih
      rw [if_neg hd, hpieces, List.modifyHead_cons, List.exists_mem_cons_iff, List.mem_cons,
        or_assoc, ih, or_and_right]
      exact or_congr_left ⟨fun h ↦ ⟨h, heq h⟩, And.left⟩

/-- Nothing is left of a text that is white space. -/
theorem trimSpace_eq_empty {s : List Char} :
    GoString.trimSpace (.ofList s) = "" ↔ ∀ c ∈ s, GoString.isSpace c := by
  have hdrop : (∀ c ∈ s.dropWhile GoString.isSpace, GoString.isSpace c) ↔
      ∀ c ∈ s, GoString.isSpace c := by
    refine ⟨fun h ↦ ?_, fun h c hc ↦ h c ((List.dropWhile_sublist _).mem hc)⟩
    rw [← List.dropWhile_eq_nil_iff]
    by_contra hne
    have hhead := h _ (List.head_mem hne)
    rw [List.head_dropWhile_not _ hne] at hhead
    cases hhead
  rw [GoString.trimSpace, String.toList_ofList, ← String.ofList_nil, String.ofList_inj,
    List.reverse_eq_nil_iff, List.dropWhile_eq_nil_iff, ← hdrop]
  simp only [List.mem_reverse]

/-- **There is a recipient** exactly if there is something besides separators and white space. -/
theorem splitRecipients_ne_nil {entries : String} : SMTP.splitRecipients entries ≠ [] ↔
    ∃ c ∈ entries.toList, c ≠ ',' ∧ c ≠ ';' ∧ GoString.isSpace c = false := by
  have hpiece (piece : List Char) : piece ≠ [] ∧ GoString.trimSpace (.ofList piece) ≠ "" ↔
      ∃ c ∈ piece, GoString.isSpace c = false := by
    rw [Ne, Ne, trimSpace_eq_empty]
    refine ⟨fun h ↦ by simpa using h.2, fun h ↦ ⟨?_, by simpa using h⟩⟩
    rintro rfl
    simp at h
  have hpieces : SMTP.splitRecipients entries ≠ [] ↔
      ∃ piece ∈ entries.toList.splitOnP fun c ↦ c = ',' ∨ c = ';',
        piece ≠ [] ∧ GoString.trimSpace (.ofList piece) ≠ "" := by
    simp [SMTP.splitRecipients, GoString.fieldsFunc, List.filter_eq_nil_iff]
  rw [hpieces]
  simp only [hpiece]
  constructor
  · rintro ⟨piece, hmem, c, hc, hspace⟩
    obtain ⟨hin, hsep⟩ := (mem_splitOnP _).mp ⟨piece, hmem, hc⟩
    obtain ⟨hcomma, hsemicolon⟩ := not_or.mp (of_decide_eq_false hsep)
    exact ⟨c, hin, hcomma, hsemicolon, hspace⟩
  · rintro ⟨c, hin, hcomma, hsemicolon, hspace⟩
    obtain ⟨piece, hmem, hc⟩ := (mem_splitOnP fun c ↦ c = ',' ∨ c = ';').mpr
      ⟨hin, decide_eq_false (not_or.mpr ⟨hcomma, hsemicolon⟩)⟩
    exact ⟨piece, hmem, c, hc, hspace⟩

/-! ## The three actions -/

@[simp] theorem ofString_empty : ofString "" = [] := rfl

/-- The texts of the actions themselves are fit for a header. -/
theorem valid_texts : ∀ s ∈ ["application/json", "classg-hooks/1", "text/plain; charset=utf-8",
    "Bearer "], validHeaderFieldValue (ofASCII s) := by
  simp [ofASCII, validHeaderFieldValue, isControl]

theorem webhook_deliverable_iff (rule : ActionRule) :
    (∀ h ∈ Webhook.headers rule, validHeaderFieldValue h.2) ↔
      ∀ b ∈ ofString (rule.configString "authorization"), isControl b = false := by
  have hjson := valid_texts "application/json" (by simp)
  have hagent := valid_texts "classg-hooks/1" (by simp)
  rw [Webhook.headers, List.forall_mem_append, List.forall_mem_cons, List.forall_mem_singleton]
  by_cases hauth : rule.configString "authorization" = ""
  · simp [hauth, hjson, hagent]
  · rw [if_pos hauth, List.forall_mem_singleton, ← validHeaderFieldValue_iff]
    exact and_iff_right (And.intro hjson hagent)

/-- Every priority is fit for a header. -/
theorem valid_priority : ∀ p ∈ "default" :: Ntfy.priorities, validHeaderFieldValue (ofString p) := by
  decide

/-- So are the default tags. -/
theorem valid_defaultTags (name : String) : validHeaderFieldValue
    (ofString (((Ntfy.defaultTags.find? (·.1 = name)).map (·.2)).getD "")) := by
  have hall : ∀ p ∈ Ntfy.defaultTags, validHeaderFieldValue (ofString p.2) := by decide
  cases hfind : Ntfy.defaultTags.find? (·.1 = name) with
  | none => rfl
  | some p => exact hall p (List.mem_of_find?_eq_some hfind)

theorem priority_of_validate {out : Outside} {n : Actions.Action} {rule : ActionRule}
    {history : List Actions.NetStep} (hok : Ntfy.validate out n rule history = .ok ()) :
    rule.configString "priority" = "" ∨ rule.configString "priority" ∈ Ntfy.priorities := by
  rw [Ntfy.validate] at hok
  split at hok
  · cases hok
  · split at hok
    · cases hok
    · by_contra hne
      rw [if_pos (not_or.mp hne)] at hok
      cases hok

theorem ntfy_deliverable_iff {out : Outside} {n : Actions.Action} {rule : ActionRule} {e : Alert}
    {history : List Actions.NetStep} (hok : Ntfy.validate out n rule history = .ok ()) :
    (∀ h ∈ Ntfy.headers out rule e, validHeaderFieldValue h.2) ↔ Ntfy.Fit rule e := by
  have htitle : validHeaderFieldValue (Ntfy.compose out rule e).1 ↔
      ∀ b ∈ (Ntfy.plainTitle rule e).take 200, isControl b → b = 13 ∨ b = 10 :=
    validHeaderFieldValue_sanitiseHeader _
  have hpriority : validHeaderFieldValue (ofString
      (if rule.configString "priority" = "" then "default" else rule.configString "priority")) := by
    refine valid_priority _ ?_
    split
    · exact List.mem_cons_self
    · rename_i hne
      exact List.mem_cons_of_mem _ ((priority_of_validate hok).resolve_left hne)
  have htags : (∀ h ∈ if Ntfy.tags rule e ≠ "" then [("Tags", ofString (Ntfy.tags rule e))] else [],
      validHeaderFieldValue h.2) ↔
        ∀ b ∈ ofString (rule.configString "tags"), isControl b = false := by
    by_cases hconfig : rule.configString "tags" = ""
    · rw [hconfig]
      refine iff_of_true (fun h hmem ↦ ?_) fun b hb ↦ by cases hb
      split at hmem
      · rw [List.mem_singleton.mp hmem, Ntfy.tags, if_pos hconfig]
        exact valid_defaultTags e.name
      · cases hmem
    · rw [Ntfy.tags, if_neg hconfig, if_pos hconfig, List.forall_mem_singleton,
        validHeaderFieldValue_iff]
  have htoken : (∀ h ∈ if rule.configString "access_token" ≠ "" then
      [("Authorization", ofASCII "Bearer " ++ ofString (rule.configString "access_token"))]
        else [], validHeaderFieldValue h.2) ↔
          ∀ b ∈ ofString (rule.configString "access_token"), isControl b = false := by
    by_cases hconfig : rule.configString "access_token" = ""
    · simp [hconfig]
    · rw [if_pos hconfig, List.forall_mem_singleton, validHeaderFieldValue_append,
        and_iff_right (valid_texts "Bearer " (by simp)), validHeaderFieldValue_iff]
  rw [Ntfy.headers, List.forall_mem_append, List.forall_mem_append, htags, htoken]
  simp only [List.forall_mem_cons, List.not_mem_nil, false_imp_iff, implies_true, htitle, hpriority,
    valid_texts "text/plain; charset=utf-8" (by simp), valid_texts "classg-hooks/1" (by simp),
    true_and, and_true]
  exact ⟨fun ⟨⟨h, h'⟩, h''⟩ ↦ ⟨h, h', h''⟩, fun h ↦ ⟨⟨h.title, h.tags⟩, h.token⟩⟩

namespace SMTP

theorem rcpts_session (sender : String) (recipients : List String) (msg : GoBytes) :
    rcpts (.mail sender :: recipients.map .rcpt ++ [.data msg]) = recipients := by
  simp [rcpts, List.filterMap_append, List.filterMap_map]

theorem messages_session (sender : String) (recipients : List String) (msg : GoBytes) :
    messages (.mail sender :: recipients.map .rcpt ++ [.data msg]) = [msg] := by
  simp [messages, List.filterMap_append, List.filterMap_map]

/-- The names of the fields are lines of their own. -/
theorem oneLine_name (s : SMTP) (rule : ActionRule) (e : Alert) (recipients : List String) :
    ∀ f ∈ s.fields rule e recipients, OneLine f.1 := by
  simp [fields, ofASCII, OneLine]

/-- **The header section is the fixed lines** if no value ends a line. -/
theorem headerLines_compose {out : Outside} {s : SMTP} {rule : ActionRule} {e : Alert}
    {recipients : List String} (h : ∀ f ∈ s.fields rule e recipients, OneLine f.2) :
    headerLines [] (compose out s rule e recipients) = (s.fields rule e recipients).map line := by
  have hlines : ∀ l ∈ (s.fields rule e recipients).map line, OneLine l ∧ l ≠ [] := by
    refine List.forall_mem_map.mpr fun f hf ↦ ⟨?_, by simp [line]⟩
    rw [line, oneLine_append, oneLine_append]
    exact ⟨⟨oneLine_name s rule e recipients f hf, by decide +kernel⟩, h f hf⟩
  rw [compose, ← headerLines_eq hlines (body out rule e), List.flatMap_map]

/-- What the rule writes of the header section is the recipients; the subject does no harm. -/
theorem oneLine_fields_iff (s : SMTP) (rule : ActionRule) (e : Alert) (recipients : List String) :
    (∀ f ∈ s.fields rule e recipients, OneLine f.2) ↔
      OneLine (ofString s.sender) ∧ ∀ r ∈ recipients, OneLine (ofString r) := by
  have hfixed : OneLine (ofASCII "text/plain; charset=utf-8") ∧ OneLine (ofASCII "1.0") := by
    simp [ofASCII, OneLine]
  have hcomma : OneLine [44, 32] := by decide +kernel
  simp only [fields, List.forall_mem_cons, List.not_mem_nil, false_imp_iff, implies_true,
    oneLine_join hcomma, List.forall_mem_map, oneLine_sanitiseHeader,
    GoTime.oneLine_formatRFC1123Z, hfixed, and_true]

theorem deliverable_iff_fit {out : Outside} {s : SMTP} {rule : ActionRule} {e : Alert}
    (hok : s.validate out rule = .ok ()) :
    (∃ cmds, s.deliver out rule e = .ok cmds ∧ s.Deliverable out rule e cmds) ↔
      s.Fit out rule := by
  have hdeliver : s.deliver out rule e =
      .ok (.mail s.sender :: (splitRecipients (rule.configString "to")).map .rcpt ++
        [.data (compose out s rule e (splitRecipients (rule.configString "to")))]) := by
    rw [deliver, hok]
  have hparsed : ∀ entry ∈ splitRecipients (rule.configString "to"),
      (out.parseAddress entry).isSome := by
    simp only [validate] at hok
    split at hok
    · cases hok
    · split at hok
      · cases hok
      · split at hok
        · cases hok
        · rename_i hnone
          intro entry hentry
          simpa [Option.isSome_iff_ne_none] using List.find?_eq_none.mp hnone entry hentry
  constructor
  · rintro ⟨cmds, hcmds, h⟩
    rw [hdeliver] at hcmds
    cases hcmds
    have hne := h.recipient
    have hbare := h.bare
    rw [rcpts_session] at hne hbare
    obtain ⟨hsender, hentries⟩ := (oneLine_fields_iff ..).mp h.values
    refine ⟨splitRecipients_ne_nil.mp hne, fun entry hentry m hm ↦ ?_, hentries, hsender⟩
    obtain ⟨m', hm', haddress⟩ := List.forall₂_same.mp hbare entry hentry
    rw [hm] at hm'
    rwa [Option.some.inj hm']
  · rintro ⟨hnamed, hbare, hentries, hsender⟩
    have hvalues := (oneLine_fields_iff s rule e _).mpr ⟨hsender, hentries⟩
    refine ⟨_, hdeliver, ?_, ?_, fun msg hmsg ↦ ?_, hvalues⟩
    · rw [rcpts_session]
      exact splitRecipients_ne_nil.mpr hnamed
    · rw [rcpts_session]
      refine List.forall₂_same.mpr fun entry hentry ↦ ?_
      obtain ⟨m, hm⟩ := Option.isSome_iff_exists.mp (hparsed entry hentry)
      exact ⟨m, hm, hbare entry hentry m hm⟩
    · rw [messages_session] at hmsg
      rw [List.mem_singleton.mp hmsg, headerLines_compose hvalues]

end SMTP

/-- **A rule that is accepted can be delivered** exactly if it is fit in what `Validate` does not look
at. -/
theorem deliverable_iff (out : Outside) (sender : Sender) (rule : ActionRule) (e : Alert)
    (history : List Actions.NetStep) (hok : sender.validate out rule history = .ok ()) :
    sender.Deliverable out rule e ↔ sender.Fit out rule e := by
  cases sender with
  | webhook a => exact webhook_deliverable_iff rule
  | ntfy a => exact ntfy_deliverable_iff hok
  | email s => exact SMTP.deliverable_iff_fit hok

/-- A network on which every text is a URL, and a parser of two addresses. -/
def fewAddresses : Outside where
  net := { parse := fun _ ↦ some ⟨"https", "example.com"⟩, resolver := fun _ _ ↦ none }
  parseAddress s :=
    if s = "Ops <ops@example.com>" then some ⟨"Ops", "ops@example.com"⟩
    else if s = "ops@example.com" then some ⟨"", "ops@example.com"⟩
    else none
  verb _ := []

/-- A rule with a configuration. -/
def ruleWith (action : String) (config : List (String × String)) : ActionRule where
  ruleID := "r"
  event := eventTrackConfirmed
  cooldownS := 0
  action := action
  config := config.foldl (fun m kv ↦ m.put kv.1 (.text kv.2)) .empty

/-- A track is confirmed at the beginning of 2025. -/
def confirmedAlert : Alert where
  name := eventTrackConfirmed
  subject := "t"
  atTime := 63871286400 * GoDuration.second

/-- The server of the unit. -/
def unitServer : SMTP := ⟨"smtp.example.com", "unit@example.com"⟩

theorem deliverable_ops : Sender.Deliverable fewAddresses
    (ruleWith actionEmail [("to", "ops@example.com ;")]) confirmedAlert (.email unitServer) :=
  (deliverable_iff fewAddresses (.email unitServer) _ confirmedAlert [] (by decide)).mpr
    ⟨⟨'o', by decide⟩, by decide, by decide +kernel, by decide +kernel⟩

/-- **Rules that are accepted and cannot be delivered**: a secret with the end of its line, tags with
one, separators for recipients, and a recipient with a name. -/
theorem deliverable_not :
    (∃ rule, Sender.validate fewAddresses rule [] (.webhook { allowPrivate := true }) = .ok () ∧
      ¬Sender.Deliverable fewAddresses rule confirmedAlert (.webhook { allowPrivate := true })) ∧
    (∃ rule, Sender.validate fewAddresses rule [] (.ntfy { allowPrivate := true }) = .ok () ∧
      ¬Sender.Deliverable fewAddresses rule confirmedAlert (.ntfy { allowPrivate := true })) ∧
    (∃ rule, Sender.validate fewAddresses rule [] (.email unitServer) = .ok () ∧
      SMTP.splitRecipients (rule.configString "to") = [] ∧
      ¬Sender.Deliverable fewAddresses rule confirmedAlert (.email unitServer)) ∧
    ∃ rule, Sender.validate fewAddresses rule [] (.email unitServer) = .ok () ∧
      SMTP.splitRecipients (rule.configString "to") = ["Ops <ops@example.com>"] ∧
      ¬Sender.Deliverable fewAddresses rule confirmedAlert (.email unitServer) := by
  refine ⟨⟨ruleWith actionWebhook
      [("url", "https://example.com/hook"), ("authorization", "Bearer s\n")], by decide, ?_⟩,
    ⟨ruleWith actionNtfy [("url", "https://example.com/topic"), ("tags", "bell\n")],
      by decide, ?_⟩,
    ⟨ruleWith actionEmail [("to", ",;")], by decide, by decide, ?_⟩,
    ⟨ruleWith actionEmail [("to", "Ops <ops@example.com>")], by decide,
      by decide, ?_⟩⟩
  · rw [Sender.Deliverable]
    decide
  · rw [Sender.Deliverable]
    decide
  · rw [Sender.Deliverable, SMTP.deliverable_iff_fit (by decide)]
    intro h
    exact splitRecipients_ne_nil.mpr h.named (by decide)
  · rw [Sender.Deliverable, SMTP.deliverable_iff_fit (by decide)]
    intro h
    have haddress := h.bare "Ops <ops@example.com>" (by decide) ⟨"Ops", "ops@example.com"⟩
      (by decide)
    exact absurd haddress (by decide)

end ClassG.Hooks
