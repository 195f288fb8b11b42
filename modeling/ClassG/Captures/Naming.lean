import Mathlib.Data.List.DropRight
import ClassG.ForGo.Strings
import ClassG.ForGo.Timestamp

/-!
# Requests for captures, and the names of their files

`Validate` checks a request, and `Start` names the file of the capture after the second and the
label.  Two captures have files of the same name exactly if they are started in the same second
with the same label, `fileName_inj`: the interface is not in the name.

`parseFilename` reads a name back, `parseFilename_fileName`, when the API finds a file that it has
no record of.
-/

set_option autoImplicit false

namespace ClassG.Captures

open GoTime GoBytes

/-! ## Requests -/

structure Request where
  iface : String
  channel : ℤ
  durationS : ℤ
  label : String
  deriving DecidableEq

structure ValidationError where
  field : String
  message : String
  deriving DecidableEq

def isAlnum (c : Char) : Bool :=
  ('a' ≤ c ∧ c ≤ 'z') ∨ ('A' ≤ c ∧ c ≤ 'Z') ∨ ('0' ≤ c ∧ c ≤ '9')

/-- `ifaceRE`: `^[A-Za-z0-9][A-Za-z0-9_.-]{0,14}$`. -/
def ifaceMatches (s : String) : Bool :=
  match s.toList with
  | [] => false
  | c :: rest => isAlnum c && rest.length ≤ 14 && rest.all fun c ↦ isAlnum c || c ∈ ['_', '.', '-']

def allowedChannels : List ℤ :=
  [1, 2, 3, 4, 5, 6, 7, 8, 9, 10, 11, 12, 13, 14, 36, 40, 44, 48, 52, 56, 60, 64, 100, 104, 108,
    112, 116, 120, 124, 128, 132, 136, 140, 149, 153, 157, 161, 165]

def minDuration : ℤ := 1
def maxDuration : ℤ := 3600

/-- What a label keeps of a rune. -/
def kept (r : Char) : Option Char :=
  if isAlnum r || r = '-' || r = '_' then some r else if r = ' ' then some '-' else none

/-- The loop of `sanitiseLabel`. -/
def sanitise : List Char → List Char → List Char
  | b, [] => b
  | b, r :: rest =>
    let b := b ++ (kept r).toList
    if 48 ≤ b.length then b else sanitise b rest

/-- `strings.Trim(s, "-")`. -/
def trimDashes (s : List Char) : List Char :=
  ((s.dropWhile (· = '-')).reverse.dropWhile (· = '-')).reverse

def sanitiseLabel (label : String) : String :=
  .ofList (trimDashes (sanitise [] (GoString.trimSpace label).toList))

/-- `Validate`, where `quote` is the verb `%q`. -/
def validate (quote : String → String) (req : Request) : Except ValidationError Request :=
  let req := { req with iface := GoString.trimSpace req.iface }
  if req.iface = "" then .error ⟨"iface", "iface is required"⟩
  else if !ifaceMatches req.iface then
    .error ⟨"iface", "iface " ++ quote req.iface ++ " is not a valid interface name"⟩
  else if req.channel ∉ allowedChannels then
    .error ⟨"channel", "channel " ++ toString req.channel ++ " is not a listenable Wi-Fi channel"⟩
  else
    let durationS := if req.durationS = 0 then 120 else req.durationS
    if durationS < minDuration ∨ maxDuration < durationS then
      .error ⟨"duration_s", "duration_s must be between " ++ toString minDuration ++ " and " ++
        toString maxDuration⟩
    else .ok { req with durationS := durationS, label := sanitiseLabel req.label }

/-! ## Names -/

/-- `now.Format("2006-01-02-150405")`. -/
def formatCompact (s : Stamp) : GoBytes :=
  appendInt 4 s.date.year ++ 45 :: decimals 2 s.date.month.toNat ++
    45 :: decimals 2 s.date.day.toNat ++ 45 :: decimals 2 s.hour.toNat ++
    decimals 2 s.minute.toNat ++ decimals 2 s.second.toNat

/-- The label in the name. -/
def effective (label : String) : String := if label = "" then "capture" else label

def fileName (now : GoTime) (label : String) : GoBytes :=
  formatCompact (stamp now) ++ 45 :: ofASCII (effective label) ++ ofASCII ".pcap"

/-- The second of an instant. -/
def second (t : GoTime) : ℤ := t / GoDuration.second

/-! ## Labels -/

/-- The characters of the string are single bytes. -/
def Narrow (s : String) : Prop := ∀ c ∈ s.toList, c.toNat < 256

instance (s : String) : Decidable (Narrow s) := List.decidableBAll _ s.toList

theorem ofASCII_inj {s t : String} (hs : Narrow s) (ht : Narrow t) (h : ofASCII s = ofASCII t) :
    s = t := by
  have hback {s : String} (hs : Narrow s) :
      (ofASCII s).map (fun b ↦ Char.ofNat b.val) = s.toList := by
    rw [ofASCII, List.map_map]
    refine (List.map_congr_left fun c hc ↦ ?_).trans (List.map_id _)
    rw [Function.comp_apply, Fin.val_ofNat, Nat.mod_eq_of_lt (hs c hc)]
    exact Char.ofNat_toNat c
  exact String.toList_inj.mp ((hback hs).symm.trans ((congrArg _ h).trans (hback ht)))

theorem lt_of_isAlnum {c : Char} (h : isAlnum c) : c.toNat < 256 := by
  have hz {d : Char} (hle : c ≤ d) (hd : d.toNat < 256) : c.toNat < 256 :=
    lt_of_le_of_lt (by exact_mod_cast hle) hd
  rcases of_decide_eq_true h with ⟨-, h⟩ | ⟨-, h⟩ | ⟨-, h⟩ <;> exact hz h (by decide)

theorem lt_of_kept {r c : Char} (h : kept r = some c) : c.toNat < 256 := by
  rw [kept] at h
  split at h
  · rename_i hr
    cases h
    rw [Bool.or_eq_true, Bool.or_eq_true, decide_eq_true_eq, decide_eq_true_eq] at hr
    rcases hr with (hr | rfl) | rfl
    · exact lt_of_isAlnum hr
    · decide
    · decide
  · split at h
    · cases h
      decide
    · nomatch h

theorem lt_of_sanitise : ∀ {b label : List Char}, (∀ c ∈ b, c.toNat < 256) →
    ∀ c ∈ sanitise b label, c.toNat < 256
  | b, [], hb => hb
  | b, r :: rest, hb => by
    have hnext : ∀ c ∈ b ++ (kept r).toList, c.toNat < 256 := by
      intro c hc
      rcases List.mem_append.mp hc with hc | hc
      · exact hb c hc
      · exact lt_of_kept (Option.mem_toList.mp hc)
    rw [sanitise]
    split
    · exact hnext
    · exact lt_of_sanitise hnext

theorem mem_of_mem_trimDashes {c : Char} {s : List Char} (h : c ∈ trimDashes s) : c ∈ s := by
  rw [trimDashes, List.mem_reverse] at h
  have hc := (List.dropWhile_sublist _).subset h
  exact (List.dropWhile_sublist _).subset (List.mem_reverse.mp hc)

/-- A label that has been sanitised is one of ASCII. -/
theorem narrow_sanitiseLabel (label : String) : Narrow (sanitiseLabel label) := by
  intro c hc
  rw [sanitiseLabel, String.toList_ofList] at hc
  exact lt_of_sanitise (by simp) c (mem_of_mem_trimDashes hc)

theorem narrow_effective {label : String} (h : Narrow label) : Narrow (effective label) := by
  rw [effective]
  split
  · decide
  · exact h

theorem validate_eq_ok {quote : String → String} {req req' : Request}
    (h : validate quote req = .ok req') : Narrow req'.label := by
  rw [validate] at h
  dsimp only at h
  generalize (if req.durationS = 0 then 120 else req.durationS) = durationS at h
  split at h
  · nomatch h
  split at h
  · nomatch h
  split at h
  · nomatch h
  split at h
  · nomatch h
  · cases h
    exact narrow_sanitiseLabel _

/-! ## When two names are the same -/

/-- The fields of an instant that the name shows, from its second on. -/
theorem stamp_eq_iff {t u : ℤ} :
    ((stamp t).date = (stamp u).date ∧ (stamp t).hour = (stamp u).hour ∧
      (stamp t).minute = (stamp u).minute ∧ (stamp t).second = (stamp u).second) ↔
      second t = second u := by
  constructor
  · rintro ⟨hdate, hhour, hminute, hsecond⟩
    have ht := ofStamp_stamp t
    have hu := ofStamp_stamp u
    have hbt := stamp_bounds t
    have hbu := stamp_bounds u
    rw [ofStamp, day] at ht hu
    rw [hdate, hhour, hminute, hsecond] at ht
    rw [second, second, GoDuration.second]
    omega
  · intro h
    rw [second, second, GoDuration.second] at h
    have hday : t / day = u / day := by
      rw [day]
      omega
    refine ⟨by rw [stamp, stamp, hday], ?_, ?_, ?_⟩ <;> simp only [stamp, day] <;> omega

theorem formatCompact_inj {s s' : Stamp} (hs : s.date.Valid) (hs' : s'.date.Valid)
    (hb : 0 ≤ s.hour ∧ s.hour < 24 ∧ 0 ≤ s.minute ∧ s.minute < 60 ∧ 0 ≤ s.second ∧ s.second < 60)
    (hb' : 0 ≤ s'.hour ∧ s'.hour < 24 ∧ 0 ≤ s'.minute ∧ s'.minute < 60 ∧ 0 ≤ s'.second ∧
      s'.second < 60) {r r' : GoBytes} (h : formatCompact s ++ r = formatCompact s' ++ r') :
    (s.date = s'.date ∧ s.hour = s'.hour ∧ s.minute = s'.minute ∧ s.second = s'.second) ∧
      r = r' := by
  have hday := hs.day_le_31
  have hday' := hs'.day_le_31
  obtain ⟨hm1, hm12, hd1, -⟩ := hs
  obtain ⟨hm1', hm12', hd1', -⟩ := hs'
  rw [formatCompact, formatCompact] at h
  simp only [List.append_assoc, List.cons_append] at h
  obtain ⟨hyear, h⟩ := appendInt_hyphen_inj h
  obtain ⟨hmonth, h⟩ := decimals_append_inj h
  obtain ⟨hdate, h⟩ := decimals_append_inj (List.cons.inj h).2
  obtain ⟨hhour, h⟩ := decimals_append_inj (List.cons.inj h).2
  obtain ⟨hminute, h⟩ := decimals_append_inj h
  obtain ⟨hsecond, h⟩ := decimals_append_inj h
  refine ⟨⟨?_, by omega, by omega, by omega⟩, h⟩
  have heq : s.date.month = s'.date.month ∧ s.date.day = s'.date.day := by omega
  rcases hsd : s.date with ⟨y, m, d⟩
  rcases hsd' : s'.date with ⟨y', m', d'⟩
  rw [hsd, hsd'] at hyear heq
  obtain ⟨hm, hd⟩ := heq
  dsimp only at hyear hm hd
  rw [hyear, hm, hd]

/-- **The name of a file is its second and its label.** -/
theorem fileName_inj {t u : GoTime} {label label' : String} (hl : Narrow label)
    (hl' : Narrow label') :
    fileName t label = fileName u label' ↔
      second t = second u ∧ effective label = effective label' := by
  rw [← stamp_eq_iff]
  constructor
  · intro h
    rw [fileName, fileName, List.append_assoc, List.append_assoc] at h
    obtain ⟨ht1, ht2, ht3, ht4, ht5, ht6, -⟩ := stamp_bounds t
    obtain ⟨hu1, hu2, hu3, hu4, hu5, hu6, -⟩ := stamp_bounds u
    obtain ⟨hfields, hrest⟩ := formatCompact_inj (Calendar.Date.valid_ofDay _)
      (Calendar.Date.valid_ofDay _) ⟨ht1, ht2, ht3, ht4, ht5, ht6⟩ ⟨hu1, hu2, hu3, hu4, hu5, hu6⟩ h
    rw [List.cons_append, List.cons_append] at hrest
    have hlabel := List.append_cancel_right (List.cons.inj hrest).2
    exact ⟨hfields, ofASCII_inj (narrow_effective hl) (narrow_effective hl') hlabel⟩
  · rintro ⟨⟨hdate, hhour, hminute, hsecond⟩, hlabel⟩
    rw [fileName, fileName, formatCompact, formatCompact, hdate, hhour, hminute, hsecond, hlabel]

/-! ## What a name tells -/

/-- Digits, so many of them. -/
def takeDigits (n : ℕ) (s : List Char) : Option (List Char × List Char) :=
  if n ≤ s.length ∧ (s.take n).all (·.isDigit) then some (s.take n, s.drop n) else none

/-- `-?`. -/
def skipHyphen : List Char → List Char
  | '-' :: s => s
  | s => s

/-- The hyphen between the day and the hour. -/
def takeHyphen : List Char → Option (List Char)
  | '-' :: s => some s
  | _ => none

/-- The groups of `filenameStamp`. -/
structure FilenameStamp where
  year : List Char
  month : List Char
  day : List Char
  hour : List Char
  minute : List Char
  second : List Char
  rest : List Char
  deriving DecidableEq

/-- `filenameStamp`: `^(\d{4})-?(\d{2})-?(\d{2})-(\d{2})(\d{2})(\d{2})-?(.*)$`, where `.` is no line
feed. -/
def filenameStamp (base : List Char) : Option FilenameStamp := do
  let (year, s) ← takeDigits 4 base
  let (month, s) ← takeDigits 2 (skipHyphen s)
  let (day, s) ← takeDigits 2 (skipHyphen s)
  let s ← takeHyphen s
  let (hour, s) ← takeDigits 2 s
  let (minute, s) ← takeDigits 2 s
  let (second, s) ← takeDigits 2 s
  let rest := skipHyphen s
  guard ('\n' ∉ rest)
  return ⟨year, month, day, hour, minute, second, rest⟩

/-- The stamp as RFC 3339 writes it. -/
def FilenameStamp.text (m : FilenameStamp) : String :=
  .ofList (m.year ++ '-' :: m.month ++ '-' :: m.day ++ 'T' :: m.hour ++ ':' :: m.minute ++
    ':' :: m.second ++ ['Z'])

/-- `filepath.Ext`, of a name. -/
def ext (name : List Char) : List Char :=
  let last := (name.reverse.takeWhile (· ≠ '.')).reverse
  if last.length = name.length then [] else '.' :: last

/-- The name without its extension. -/
def trimExt (name : List Char) : List Char := name.take (name.length - (ext name).length)

def parseFilename (name : String) (fallback : GoTime) : GoTime × String :=
  let base := trimExt name.toList
  match filenameStamp base with
  | none => (fallback, .ofList base)
  | some m =>
    -- The text has no fraction, so `time.RFC3339` is as good.
    match parseRFC3339Nano (ofASCII m.text) with
    | none => (fallback, .ofList base)
    | some t => (t, effective (.ofList (trimDashes m.rest)))

/-! ## The names that `Start` gives -/

/-- The characters of bytes that are ASCII. -/
def chars (bs : GoBytes) : List Char := bs.map fun b ↦ Char.ofNat b.val

/-- A group of digits. -/
def IsNumber (n : ℕ) (ds : List Char) : Prop := ds.length = n ∧ ds.all (·.isDigit) = true

/-- What a label consists of once it is sanitised. -/
def IsLabelChar (c : Char) : Prop := isAlnum c = true ∨ c = '-' ∨ c = '_'

instance (c : Char) : Decidable (IsLabelChar c) := inferInstanceAs (Decidable (_ ∨ _))

theorem chars_append (bs cs : GoBytes) : chars (bs ++ cs) = chars bs ++ chars cs :=
  List.map_append

theorem ofASCII_chars (bs : GoBytes) : ofASCII (.ofList (chars bs)) = bs := by
  have hbyte : ∀ b : Byte, Fin.ofNat 256 (Char.ofNat b.val).toNat = b := by decide +kernel
  rw [ofASCII, String.toList_ofList, chars, List.map_map]
  exact (List.map_congr_left fun b _ ↦ hbyte b).trans (List.map_id _)

theorem chars_ofASCII {s : String} (h : Narrow s) : chars (ofASCII s) = s.toList := by
  rw [chars, ofASCII, List.map_map]
  refine (List.map_congr_left fun c hc ↦ ?_).trans (List.map_id _)
  rw [Function.comp_apply, Fin.val_ofNat, Nat.mod_eq_of_lt (h c hc)]
  exact Char.ofNat_toNat c

theorem isNumber_decimals (w n : ℕ) : IsNumber w (chars (decimals w n)) := by
  refine ⟨by rw [chars, List.length_map, length_decimals], List.all_eq_true.mpr fun c hc ↦ ?_⟩
  obtain ⟨b, hb, rfl⟩ := List.mem_map.mp hc
  have hdigit := isDigit_of_mem_decimals hb
  have hall : ∀ b : Byte, (digitValue b).isSome → (Char.ofNat b.val).isDigit := by decide +kernel
  exact hall b hdigit

/-! ### What the pattern takes of them -/

theorem takeDigits_append {n : ℕ} {ds : List Char} (h : IsNumber n ds) (s : List Char) :
    takeDigits n (ds ++ s) = some (ds, s) := by
  obtain ⟨rfl, hall⟩ := h
  rw [takeDigits, List.take_left, List.drop_left, if_pos ⟨by simp, hall⟩]

/-- A hyphen may stand before digits, or not. -/
theorem skipHyphen_append {n : ℕ} {sep ds : List Char} (hsep : sep = [] ∨ sep = ['-'])
    (h : IsNumber (n + 1) ds) (s : List Char) : skipHyphen (sep ++ (ds ++ s)) = ds ++ s := by
  rcases hsep with rfl | rfl
  · obtain ⟨hlen, hall⟩ := h
    obtain _ | ⟨d, ds⟩ := ds
    · cases hlen
    · rw [List.nil_append, List.cons_append, skipHyphen]
      rintro s' hs
      obtain ⟨rfl, -⟩ := List.cons.inj hs
      rw [List.all_cons, Bool.and_eq_true] at hall
      exact absurd hall.1 (by decide)
  · rfl

/-- **What the pattern makes of a name**, of which the date has its hyphens or has none. -/
theorem filenameStamp_append {year month day hour minute second sep rest : List Char}
    (hyear : IsNumber 4 year) (hmonth : IsNumber 2 month) (hday : IsNumber 2 day)
    (hhour : IsNumber 2 hour) (hminute : IsNumber 2 minute) (hsecond : IsNumber 2 second)
    (hsep : sep = [] ∨ sep = ['-']) (hrest : '\n' ∉ rest) :
    filenameStamp (year ++ (sep ++ (month ++ (sep ++ (day ++ '-' :: (hour ++ (minute ++
      (second ++ '-' :: rest)))))))) = some ⟨year, month, day, hour, minute, second, rest⟩ := by
  rw [filenameStamp, takeDigits_append hyear]
  simp only [Option.bind_eq_bind, Option.bind_some]
  rw [skipHyphen_append hsep hmonth, takeDigits_append hmonth]
  simp only [Option.bind_some]
  rw [skipHyphen_append hsep hday, takeDigits_append hday]
  simp only [Option.bind_some, takeHyphen]
  rw [takeDigits_append hhour]
  simp only [Option.bind_some]
  rw [takeDigits_append hminute]
  simp only [Option.bind_some]
  rw [takeDigits_append hsecond]
  simp only [Option.bind_some, skipHyphen]
  rw [guard, if_pos hrest]
  rfl

theorem trimExt_append (base : List Char) {suffix : List Char} (h : '.' ∉ suffix) :
    ext (base ++ '.' :: suffix) = '.' :: suffix ∧ trimExt (base ++ '.' :: suffix) = base := by
  have hlast : ((base ++ '.' :: suffix).reverse.takeWhile (· ≠ '.')).reverse = suffix := by
    have hall : ∀ c ∈ suffix.reverse, decide (c ≠ '.') = true := fun c hc ↦
      decide_eq_true fun heq ↦ h (heq ▸ List.mem_reverse.mp hc)
    rw [List.reverse_append, List.reverse_cons, List.append_assoc,
      List.takeWhile_append_of_pos hall]
    simp
  have hext : ext (base ++ '.' :: suffix) = '.' :: suffix := by
    rw [ext, hlast]
    refine if_neg fun hlen ↦ ?_
    rw [List.length_append, List.length_cons] at hlen
    omega
  refine ⟨hext, ?_⟩
  rw [trimExt, hext, List.length_append, Nat.add_sub_cancel, List.take_left]

/-! ### Labels -/

theorem isLabelChar_of_sanitise : ∀ {b label : List Char}, (∀ c ∈ b, IsLabelChar c) →
    ∀ c ∈ sanitise b label, IsLabelChar c
  | b, [], hb => hb
  | b, r :: rest, hb => by
    have hkept : ∀ c ∈ (kept r).toList, IsLabelChar c := by
      intro c hc
      have hc := Option.mem_toList.mp hc
      rw [kept] at hc
      split at hc
      · next hr =>
        obtain rfl := Option.some.inj hc
        simpa [IsLabelChar, or_assoc] using hr
      · split at hc
        · obtain rfl := Option.some.inj hc
          exact .inr (.inl rfl)
        · nomatch hc
    have hnext : ∀ c ∈ b ++ (kept r).toList, IsLabelChar c :=
      List.forall_mem_append.mpr ⟨hb, hkept⟩
    rw [sanitise]
    split
    · exact hnext
    · exact isLabelChar_of_sanitise hnext

/-- The label in a name. -/
theorem isLabelChar_effective (label : String) :
    ∀ c ∈ (effective (sanitiseLabel label)).toList, IsLabelChar c := by
  have hcapture : "capture".toList.all (fun c ↦ decide (IsLabelChar c)) = true := by decide
  rw [effective]
  split
  · exact fun c hc ↦ of_decide_eq_true (List.all_eq_true.mp hcapture c hc)
  · intro c hc
    rw [sanitiseLabel, String.toList_ofList] at hc
    exact isLabelChar_of_sanitise (by simp) c (mem_of_mem_trimDashes hc)

theorem IsLabelChar.lt {c : Char} (h : IsLabelChar c) : c.toNat < 128 := by
  have hle {d : Char} (hd : d.toNat < 128) (hc : c ≤ d) : c.toNat < 128 :=
    lt_of_le_of_lt (by exact_mod_cast hc) hd
  rcases h with h | rfl | rfl
  · rcases of_decide_eq_true h with ⟨-, h⟩ | ⟨-, h⟩ | ⟨-, h⟩ <;> exact hle (by decide) h
  · decide
  · decide

theorem trimDashes_trimDashes (s : List Char) : trimDashes (trimDashes s) = trimDashes s := by
  have htrim (s : List Char) :
      trimDashes s = (s.dropWhile (· = '-')).rdropWhile (· = '-') := rfl
  have hself : (trimDashes s).dropWhile (· = '-') = trimDashes s := by
    refine List.dropWhile_eq_self_iff.mpr fun hlen ↦ ?_
    have hfront : trimDashes s <+: s.dropWhile (· = '-') := List.rdropWhile_prefix _ _
    rw [hfront.getElem hlen]
    exact List.dropWhile_get_zero_not (fun c ↦ decide (c = '-')) s _
  rw [htrim (trimDashes s), hself, htrim, List.rdropWhile_idempotent]

theorem effective_ne_empty (label : String) : effective label ≠ "" := by
  rw [effective]
  split
  · decide
  · next h => exact h

/-- Nothing is trimmed of a label that has been in a name. -/
theorem effective_trimDashes (label : String) :
    effective (.ofList (trimDashes (effective (sanitiseLabel label)).toList)) =
      effective (sanitiseLabel label) := by
  have heffective (s : String) : effective (effective s) = effective s := by
    rw [effective]
    exact if_neg (effective_ne_empty s)
  have htrim : trimDashes (effective (sanitiseLabel label)).toList =
      (effective (sanitiseLabel label)).toList := by
    rw [effective]
    split
    · decide
    · rw [sanitiseLabel, String.toList_ofList, trimDashes_trimDashes]
  rw [htrim, String.ofList_toList, heffective]

/-! ### The names -/

theorem narrow_label (label : String) : Narrow (effective (sanitiseLabel label)) := fun c hc ↦
  (isLabelChar_effective label c hc).lt.trans (by decide)

/-- A name is ASCII. -/
theorem lt_of_mem_fileName {now : GoTime} (hnow : InRange now) (label : String) :
    ∀ b ∈ fileName now (sanitiseLabel label), b.val < 128 := by
  have hdecimals (w n : ℕ) : ∀ b ∈ decimals w n, b.val < 128 := by
    intro b hb
    have hall : ∀ b : Byte, (digitValue b).isSome → b.val < 128 := by decide +kernel
    exact hall b (isDigit_of_mem_decimals hb)
  have hlabel : ∀ b ∈ ofASCII (effective (sanitiseLabel label)), b.val < 128 := by
    intro b hb
    obtain ⟨c, hc, rfl⟩ := List.mem_map.mp hb
    exact (Nat.mod_le _ _).trans_lt (isLabelChar_effective label c hc).lt
  have hsuffix : ∀ b ∈ ofASCII ".pcap", b.val < 128 := by decide +kernel
  have hyear := (appendInt_of_range hnow.1 hnow.2).symm ▸ hdecimals 4 (year now).toNat
  rw [fileName, formatCompact]
  simp only [List.forall_mem_append, List.forall_mem_cons]
  exact ⟨⟨⟨⟨⟨⟨⟨hyear, by decide, hdecimals 2 _⟩, by decide, hdecimals 2 _⟩, by decide,
    hdecimals 2 _⟩, hdecimals 2 _⟩, hdecimals 2 _⟩, by decide, hlabel⟩, hsuffix⟩

/-- The stamp of a name is the second of the instant. -/
theorem exists_filenameStamp {now : GoTime} (h : InRange now) {rest : List Char}
    (hrest : '\n' ∉ rest) :
    ∃ m, filenameStamp (chars (formatCompact (stamp now)) ++ '-' :: rest) = some m ∧
      ofASCII m.text = formatSeconds (stamp now) ++ [90] ∧ m.rest = rest := by
  have hstamp := filenameStamp_append
    (isNumber_decimals 4 (stamp now).date.year.toNat)
    (isNumber_decimals 2 (stamp now).date.month.toNat)
    (isNumber_decimals 2 (stamp now).date.day.toNat) (isNumber_decimals 2 (stamp now).hour.toNat)
    (isNumber_decimals 2 (stamp now).minute.toNat) (isNumber_decimals 2 (stamp now).second.toNat)
    (.inr rfl) hrest
  have hyear : appendInt 4 (stamp now).date.year = decimals 4 (stamp now).date.year.toNat :=
    appendInt_of_range h.1 h.2
  refine ⟨_, Eq.trans ?_ hstamp, ?_, rfl⟩
  · rw [formatCompact, hyear]
    simp only [chars, List.map_append, List.map_cons, List.append_assoc, List.cons_append,
      List.nil_append]
    rfl
  · rw [← ofASCII_chars (formatSeconds (stamp now) ++ [90]), FilenameStamp.text, formatSeconds,
      hyear]
    refine congrArg (fun s ↦ ofASCII (.ofList s)) ?_
    simp only [chars, List.map_append, List.map_cons, List.append_assoc, List.cons_append]
    rfl

/-- What is read of the second of an instant. -/
theorem parse_formatSeconds {t : GoTime} (h : InRange t) :
    parseRFC3339Nano (formatSeconds (stamp t) ++ [90]) = some (second t * GoDuration.second) := by
  have hsecond : ofStamp { stamp t with nanos := 0 } = second t * GoDuration.second := by
    have hstamp := ofStamp_stamp t
    have hnanos := stamp_nanos t
    rw [ofStamp] at hstamp ⊢
    rw [second, GoDuration.second]
    dsimp only
    omega
  rw [parseRFC3339Nano, parseSeconds_formatSeconds (bounded_stamp h)]
  simp only [Option.bind_eq_bind, Option.bind_some, anyFraction, parseZone]
  rw [GoTime.finish, if_pos ⟨rfl, Calendar.Date.valid_ofDay _⟩, ← hsecond, Int.zero_mul,
    Int.sub_zero]
  rfl

/-- The characters of a name. -/
theorem chars_fileName {now : GoTime} (label : String) :
    chars (fileName now (sanitiseLabel label)) =
      (chars (formatCompact (stamp now)) ++ '-' :: (effective (sanitiseLabel label)).toList) ++
        '.' :: "pcap".toList := by
  rw [fileName, chars_append, chars_append, ← chars_ofASCII (narrow_label label)]
  rfl

/-- **A name tells the second that a capture was started in, and its label.** -/
theorem parseFilename_fileName {now : GoTime} (hnow : InRange now) (label : String)
    (fallback : GoTime) :
    parseFilename (.ofList (chars (fileName now (sanitiseLabel label)))) fallback =
      (second now * GoDuration.second, effective (sanitiseLabel label)) := by
  have hdot : '.' ∉ "pcap".toList := by decide
  have hrest : '\n' ∉ (effective (sanitiseLabel label)).toList := fun hc ↦
    absurd (isLabelChar_effective label _ hc) (by decide)
  obtain ⟨m, hm, htext, hmrest⟩ := exists_filenameStamp hnow hrest
  rw [parseFilename, String.toList_ofList, chars_fileName, (trimExt_append _ hdot).2, hm]
  dsimp only
  rw [htext, parse_formatSeconds hnow]
  dsimp only
  rw [hmrest, effective_trimDashes]

/-- A name that `first-capture.sh` gives. -/
example : parseFilename "20260810-141223-dji-first-flight.pcap" 0 =
    (ofStamp ⟨⟨2026, 8, 10⟩, 14, 12, 23, 0⟩, "dji-first-flight") := by decide +kernel

end ClassG.Captures
