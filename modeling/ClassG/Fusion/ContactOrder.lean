import ClassG.Arrivals
import ClassG.Fusion.Suppression

/-!
# Contacts and the order of their messages

An aircraft is heard over the radio and over the network, and a message may be seconds late.  A
contact's clocks are guarded against that; its fix, its altitude and its callsign are assigned as
the messages come.

`sinceNew` is what has been heard of an address since its contact was made, and `Tallied` what the
contact holds of it, in every run of the two stores.  `contacts_right_iff` says when that is what
was said last, and that it then does not depend on the order, nor do the tracks it suppresses.
-/

set_option autoImplicit false

namespace ClassG.Fusion

open Arrivals ContactStore

variable (cfg : Config) (cc : ContactConfig)

/-! ## What is heard -/

/-- The address a detection is a message of: a Class D one, with an address. -/
def keyed (d : Detection) : Option String :=
  match d.adsb with
  | none => none
  | some a =>
    let icao := GoString.toUpper cc.upper (GoString.trimSpace a.icao)
    if d.detectionClass ≠ classADSB ∨ icao = "" then none else some icao

/-- The fix in a message. -/
def contactFix (d : Detection) : Option Position :=
  d.position.map fun p ↦ { lat := p.lat, lon := p.lon, atTime := d.ts }

/-- The altitude in a message. -/
def altitudeOf (d : Detection) : Option ℤ := d.adsb.bind (·.altFt)

/-- A text that is not blank. -/
def spoken (s : String) : Option String := if s ≠ "" then some s else none

/-- The callsign in a message. -/
def callsignOf (d : Detection) : Option String :=
  d.adsb.bind fun a ↦ spoken (GoString.trimSpace a.callsign)

/-- What has been heard of an address since its contact was made, latest arrival first. -/
def sinceNew (icao : String) : List (Machine.Step Stores Call) → List Detection
  | [] => []
  | x :: tr =>
    match x.act with
    | .observe d =>
      if keyed cc d = some icao then d :: sinceNew icao tr else sinceNew icao tr
    | .reapContacts _ =>
      if (x.post.contacts.byICAO.get icao).isNone then [] else sinceNew icao tr
    | _ => sinceNew icao tr

/-- The contact is what was said last. -/
structure ContactRight (icao : String) (ds : List Detection) (c : ADSBContact) : Prop where
  address : c.icao = icao
  aircraft : c.aircraft = cc.lookup icao
  messages : c.messages = ds.length
  firstSeen : IsLeast {x | ∃ d ∈ ds, d.ts = x} c.firstSeen
  lastSeen : IsGreatest {x | ∃ d ∈ ds, True ∧ d.ts = x} c.lastSeen
  current : Shows Detection.ts contactFix ds c.current
  altFt : Shows Detection.ts altitudeOf ds c.altFt
  callsign : Shows Detection.ts callsignOf ds (spoken c.callsign)

/-- There is one contact for each address that has been heard, and each is right. -/
structure ContactsRight (heard : String → List Detection) (s : ContactStore) : Prop where
  one : ∀ icao, s.byICAO.get icao = none ↔ heard icao = []
  right : ∀ icao c, s.byICAO.get icao = some c → ContactRight cc icao (heard icao) c

/-- The fix that arrived last is the newest, the altitude and the callsign that did say the same as
the newest, and not all of the messages are from before year 1. -/
structure SaidInOrder (ds : List Detection) : Prop where
  positions : InOrder Detection.ts (fun d ↦ (contactFix d).isSome) ds
  altitudes : SaysTheSame Detection.ts (fun d ↦ (altitudeOf d).isSome) altitudeOf ds
  callsigns : SaysTheSame Detection.ts (fun d ↦ (callsignOf d).isSome) callsignOf ds
  started : ds ≠ [] → ∃ d ∈ ds, 0 ≤ d.ts

/-! ## What is kept -/

/-- What a contact holds, of an address these messages have been heard of. -/
structure Tallied (icao : String) (ds : List Detection) (c : ADSBContact) : Prop where
  address : c.icao = icao
  aircraft : c.aircraft = cc.lookup icao
  messages : c.messages = ds.length
  firstSeen : IsLeast {x | ∃ d ∈ ds, d.ts = x} c.firstSeen
  lastSeen : Clock Detection.ts (fun _ ↦ True) 0 ds c.lastSeen
  current : c.current = field contactFix ds
  altFt : c.altFt = field altitudeOf ds
  callsign : spoken c.callsign = field callsignOf ds

/-- The contact after one more message. -/
def told (icao : String) (known : Option ADSBContact) (d : Detection) : ADSBContact :=
  let c := known.getD { icao := icao, firstSeen := d.ts, aircraft := cc.lookup icao }
  { c with
    messages := c.messages + 1
    lastSeen := max c.lastSeen d.ts
    firstSeen := min d.ts c.firstSeen
    callsign := (callsignOf d).getD c.callsign
    altFt := (altitudeOf d).or c.altFt
    current := (contactFix d).or c.current }

theorem observe_get (s : ContactStore) (d : Detection) (k : String) :
    (s.observe cc d).1.byICAO.get k =
      if keyed cc d = some k then some (told cc k (s.byICAO.get k) d) else s.byICAO.get k := by
  rw [observe, keyed]
  rcases hadsb : d.adsb with _ | a
  · rfl
  · dsimp only
    split
    · rfl
    · rename_i hkey
      rw [GoMap.get_put]
      by_cases hk : k = GoString.toUpper cc.upper (GoString.trimSpace a.icao)
      · subst hk
        rw [if_pos rfl, if_pos rfl, told, contactFix, altitudeOf, callsignOf, hadsb, max_def_lt,
          min_def_lt]
        simp only [Option.bind_some, spoken]
        congr 2
        · split <;> rfl
        · cases d.position <;> rfl
      · rw [if_neg hk, if_neg fun h ↦ hk (Option.some.inj h).symm]

/-- A callsign that has been heard is not blank. -/
theorem spoken_getD {d : Detection} {name : String} (h : callsignOf d = some name)
    (known : String) : spoken ((some name).getD known) = some name := by
  obtain ⟨a, -, hname⟩ := Option.bind_eq_some_iff.mp h
  rw [spoken] at hname
  split at hname
  · rename_i hne
    obtain rfl := Option.some.inj hname
    exact if_pos hne
  · cases hname

variable {cc} {icao : String} {ds : List Detection} {c : ADSBContact} {d : Detection}

/-- The first message. -/
theorem Tallied.first (icao : String) (d : Detection) :
    Tallied cc icao [d] (told cc icao none d) where
  address := rfl
  aircraft := rfl
  messages := rfl
  firstSeen := by
    have hfirst : (told cc icao none d).firstSeen = d.ts := min_self d.ts
    rw [hfirst]
    exact ⟨⟨d, List.mem_singleton_self d, rfl⟩, fun x ⟨d', hd', hx⟩ ↦
      (List.mem_singleton.mp hd' ▸ hx).le⟩
  lastSeen := (Clock.start 0).cons d trivial
  current := by
    rw [field_cons]
    rfl
  altFt := by
    rw [field_cons]
    rfl
  callsign := by
    rw [told, field_cons]
    dsimp only
    rcases h : callsignOf d with _ | name
    · rfl
    · exact spoken_getD h _

/-- One more. -/
theorem Tallied.more (h : Tallied cc icao ds c) (d : Detection) :
    Tallied cc icao (d :: ds) (told cc icao (some c) d) where
  address := h.address
  aircraft := h.aircraft
  messages := congrArg (· + 1) h.messages
  firstSeen := by
    obtain ⟨⟨d', hd', hfirst⟩, hle⟩ := h.firstSeen
    constructor
    · rcases min_choice d.ts c.firstSeen with hmin | hmin
      · exact ⟨d, List.mem_cons_self, hmin.symm⟩
      · exact ⟨d', List.mem_cons_of_mem _ hd', hfirst.trans hmin.symm⟩
    · rintro x ⟨d'', hd'', hx⟩
      rcases List.mem_cons.mp hd'' with rfl | hd''
      · exact (min_le_left _ _).trans hx.le
      · exact (min_le_right _ _).trans (hle ⟨d'', hd'', hx⟩)
  lastSeen := h.lastSeen.cons d trivial
  current := by
    rw [field_cons, ← h.current]
    rfl
  altFt := by
    rw [field_cons, ← h.altFt]
    rfl
  callsign := by
    rw [field_cons, ← h.callsign, told]
    dsimp only
    rcases h : callsignOf d with _ | name
    · rfl
    · exact spoken_getD h _

/-! ### A run -/

variable (cc) in
/-- There is one contact for each address that has been heard, and each is tallied. -/
structure ContactsTallied (heard : String → List Detection) (s : ContactStore) : Prop where
  one : ∀ icao, s.byICAO.get icao = none ↔ heard icao = []
  tallied : ∀ icao c, s.byICAO.get icao = some c → Tallied cc icao (heard icao) c

theorem ContactsTallied.observe {heard : String → List Detection} {s : ContactStore}
    (h : ContactsTallied cc heard s) (d : Detection) :
    ContactsTallied cc
      (fun icao ↦ if keyed cc d = some icao then d :: heard icao else heard icao)
      (s.observe cc d).1 := by
  constructor
  · intro icao
    rw [observe_get]
    split
    · exact iff_of_false (Option.some_ne_none _) (List.cons_ne_nil _ _)
    · exact h.one icao
  · intro icao c hc
    rw [observe_get] at hc
    split at hc
    · rename_i hkey
      obtain rfl := Option.some.inj hc
      rw [if_pos hkey]
      rcases hget : s.byICAO.get icao with _ | known
      · rw [(h.one icao).mp hget]
        exact .first icao d
      · exact (h.tallied icao known hget).more d
    · rename_i hkey
      rw [if_neg hkey]
      exact h.tallied icao c hc

theorem ContactsTallied.reap {heard : String → List Detection} {s : ContactStore}
    (h : ContactsTallied cc heard s) (now : GoTime) :
    ContactsTallied cc
      (fun icao ↦ if ((s.reap cc now).1.byICAO.get icao).isNone then [] else heard icao)
      (s.reap cc now).1 := by
  have hget : ∀ icao c, (s.reap cc now).1.byICAO.get icao = some c →
      s.byICAO.get icao = some c := by
    intro icao c hc
    rw [ContactStore.reap, GoMap.get_deleteAll] at hc
    split at hc
    · cases hc
    · exact hc
  constructor
  · intro icao
    rcases hc : (s.reap cc now).1.byICAO.get icao with _ | c
    · exact iff_of_true rfl (if_pos rfl)
    · refine iff_of_false (Option.some_ne_none c) ?_
      simp only [Option.isNone_some, Bool.false_eq_true, if_false]
      rw [← h.one, hget icao c hc]
      exact Option.some_ne_none c
  · intro icao c hc
    simp only [hc, Option.isNone_some, Bool.false_eq_true, if_false]
    exact h.tallied icao c (hget icao c hc)

/-- **Every contact is tallied**, in every run of the two stores. -/
theorem contacts_tallied {tr : List (Machine.Step Stores Call)} {s : Stores}
    (h : (storesMachine cfg cc).Run tr s) :
    ContactsTallied cc (fun icao ↦ sinceNew cc icao tr) s.contacts := by
  induction h with
  | init hi =>
    subst hi
    exact ⟨fun _ ↦ iff_of_true rfl rfl, fun _ _ hc ↦ by cases hc⟩
  | step call s' hr hn ih =>
    obtain ⟨-, rfl⟩ := hn
    cases call with
    | observe d => exact ih.observe d
    | reapContacts now => exact ih.reap now
    | ingest d now terrain => exact ih
    | reap now order => exact ih
    | correlate => exact ih

/-! ## What it takes -/

theorem Tallied.right_iff (h : Tallied cc icao ds c) (hdistinct : (ds.map (·.ts)).Nodup)
    (hne : ds ≠ []) : ContactRight cc icao ds c ↔ SaidInOrder ds := by
  have hpositions : Shows Detection.ts contactFix ds c.current ↔
      InOrder Detection.ts (fun d ↦ (contactFix d).isSome) ds := by
    rw [h.current, shows_field_iff, saysTheSame_iff_inOrder hdistinct]
    intro a b ha hab
    obtain ⟨p, hp⟩ := Option.isSome_iff_exists.mp ha
    obtain ⟨q, hq, rfl⟩ := Option.map_eq_some_iff.mp hp
    obtain ⟨q', -, hat⟩ := Option.map_eq_some_iff.mp (hab.symm.trans hp)
    exact congrArg Position.atTime hat.symm
  constructor
  · intro hright
    refine ⟨hpositions.mp hright.current, ?_, ?_, fun _ ↦ ?_⟩
    · rw [← shows_field_iff, ← h.altFt]
      exact hright.altFt
    · rw [← shows_field_iff, ← h.callsign]
      exact hright.callsign
    · exact (h.lastSeen.isGreatest_iff.mp hright.lastSeen).imp fun d hd ↦ ⟨hd.1, hd.2.2⟩
  · intro horder
    refine ⟨h.address, h.aircraft, h.messages, h.firstSeen, ?_, hpositions.mpr horder.positions,
      ?_, ?_⟩
    · exact h.lastSeen.isGreatest_iff.mpr
        ((horder.started hne).imp fun d hd ↦ ⟨hd.1, trivial, hd.2⟩)
    · rw [h.altFt]
      exact shows_field_iff.mpr horder.altitudes
    · rw [h.callsign]
      exact shows_field_iff.mpr horder.callsigns

theorem SaidInOrder.nil : SaidInOrder [] where
  positions _ h := by cases h
  altitudes _ _ h := by cases h
  callsigns _ _ h := by cases h
  started h := absurd rfl h

/-- Messages that arrive in time order are. -/
theorem SaidInOrder.of_pairwise (hdistinct : (ds.map (·.ts)).Nodup)
    (horder : ds.Pairwise fun a b ↦ b.ts ≤ a.ts) (hstarted : ∀ d ∈ ds, 0 ≤ d.ts) :
    SaidInOrder ds where
  positions := .of_pairwise horder
  altitudes := (InOrder.of_pairwise horder).saysTheSame hdistinct _
  callsigns := (InOrder.of_pairwise horder).saysTheSame hdistinct _
  started hne := ⟨ds.head hne, List.head_mem hne, hstarted _ (List.head_mem hne)⟩

/-- A contact is a function of what has been said. -/
theorem ContactRight.eq_of_perm {ds' : List Detection} {c' : ADSBContact}
    (h : ContactRight cc icao ds c) (hperm : ds.Perm ds') (h' : ContactRight cc icao ds' c') :
    c = c' := by
  have hmem : ∀ d, d ∈ ds ↔ d ∈ ds' := fun d ↦ hperm.mem_iff
  have hspoken : spoken c.callsign = spoken c'.callsign :=
    h.callsign.eq_of_perm hperm h'.callsign
  have hcallsign : c.callsign = c'.callsign := by
    rw [spoken, spoken] at hspoken
    split at hspoken <;> split at hspoken <;> simp_all
  have hfirst : c.firstSeen = c'.firstSeen := by
    refine h.firstSeen.unique ?_
    simpa only [hmem] using h'.firstSeen
  have hlast : c.lastSeen = c'.lastSeen := by
    refine h.lastSeen.unique ?_
    simpa only [hmem] using h'.lastSeen
  have hcurrent := h.current.eq_of_perm hperm h'.current
  have haltFt := h.altFt.eq_of_perm hperm h'.altFt
  have hmessages := h.messages.trans (hperm.length_eq.trans h'.messages.symm)
  have haddress := h.address.trans h'.address.symm
  have haircraft := h.aircraft.trans h'.aircraft.symm
  cases c
  cases c'
  simp_all

/-- Which tracks a pass flags depends on which contacts there are, not on how they are listed. -/
theorem matchesAny_congr {contacts contacts' : List ADSBContact}
    (h : ∀ c, c ∈ contacts ↔ c ∈ contacts') :
    matchesAny cfg contacts = matchesAny cfg contacts' := by
  funext t
  rw [matchesAny, matchesAny]
  rcases t.current with _ | fix
  · rfl
  · rw [Bool.eq_iff_iff, List.any_eq_true, List.any_eq_true]
    simp only [h]

theorem correlateContacts_congr {contacts contacts' : List ADSBContact}
    (h : ∀ c, c ∈ contacts ↔ c ∈ contacts') (σ : TrackStore) :
    σ.correlateContacts cfg contacts = σ.correlateContacts cfg contacts' := by
  have hone : TrackStore.correlateOne cfg contacts = TrackStore.correlateOne cfg contacts' := by
    funext acc t
    rw [TrackStore.correlateOne, TrackStore.correlateOne, matchesAny_congr cfg h]
  rw [TrackStore.correlateContacts, TrackStore.correlateContacts, hone]

theorem ContactsTallied.right_iff {heard : String → List Detection} {s : ContactStore}
    (h : ContactsTallied cc heard s) (hdistinct : ∀ icao, ((heard icao).map (·.ts)).Nodup) :
    ContactsRight cc heard s ↔ ∀ icao, SaidInOrder (heard icao) := by
  constructor
  · intro hright icao
    rcases hget : s.byICAO.get icao with _ | c
    · rw [(h.one icao).mp hget]
      exact .nil
    · have hne : heard icao ≠ [] := fun hnil ↦ by
        rw [(h.one icao).mpr hnil] at hget
        cases hget
      exact ((h.tallied icao c hget).right_iff (hdistinct icao) hne).mp (hright.right icao c hget)
  · refine fun horder ↦ ⟨h.one, fun icao c hget ↦ ?_⟩
    have hne : heard icao ≠ [] := fun hnil ↦ by
      rw [(h.one icao).mpr hnil] at hget
      cases hget
    exact ((h.tallied icao c hget).right_iff (hdistinct icao) hne).mpr (horder icao)

theorem ContactsRight.eq_of_perm {heard heard' : String → List Detection} {s s' : ContactStore}
    (h : ContactsRight cc heard s) (hperm : ∀ icao, (heard icao).Perm (heard' icao))
    (h' : ContactsRight cc heard' s') (icao : String) : s.byICAO.get icao = s'.byICAO.get icao := by
  have hone : s.byICAO.get icao = none ↔ s'.byICAO.get icao = none := by
    rw [h.one, h'.one, ← List.length_eq_zero_iff, (hperm icao).length_eq, List.length_eq_zero_iff]
  rcases hget : s.byICAO.get icao with _ | c
  · exact (hone.mp hget).symm
  · rcases hget' : s'.byICAO.get icao with _ | c'
    · rw [hone.mpr hget'] at hget
      cases hget
    · rw [(h.right icao c hget).eq_of_perm (hperm icao) (h'.right icao c' hget')]

variable (cc) in
/-- **When the contacts are a function of what was heard.**  They are right exactly if for each
address the messages were `SaidInOrder`; and then the same messages in any other order in which
they are leave the same contacts, and have the same tracks suppressed. -/
theorem contacts_right_iff {tr : List (Machine.Step Stores Call)} {s : Stores}
    (h : (storesMachine cfg cc).Run tr s)
    (hdistinct : ∀ icao, ((sinceNew cc icao tr).map (·.ts)).Nodup) :
    (ContactsRight cc (fun icao ↦ sinceNew cc icao tr) s.contacts ↔
      ∀ icao, SaidInOrder (sinceNew cc icao tr)) ∧
    ((∀ icao, SaidInOrder (sinceNew cc icao tr)) → ∀ tr' s', (storesMachine cfg cc).Run tr' s' →
      (∀ icao, (sinceNew cc icao tr).Perm (sinceNew cc icao tr')) →
      (∀ icao, SaidInOrder (sinceNew cc icao tr')) →
      (∀ icao, s.contacts.byICAO.get icao = s'.contacts.byICAO.get icao) ∧
        ∀ σ : TrackStore, σ.correlateContacts cfg s.contacts.active =
          σ.correlateContacts cfg s'.contacts.active) := by
  have hright := (contacts_tallied cfg h).right_iff hdistinct
  refine ⟨hright, fun horder tr' s' h' hperm horder' ↦ ?_⟩
  have hdistinct' : ∀ icao, ((sinceNew cc icao tr').map (·.ts)).Nodup := fun icao ↦
    ((hperm icao).map _).nodup_iff.mp (hdistinct icao)
  have hsame := (hright.mpr horder).eq_of_perm hperm
    (((contacts_tallied cfg h').right_iff hdistinct').mpr horder')
  refine ⟨hsame, correlateContacts_congr cfg fun c ↦ ?_⟩
  rw [active, active, GoMap.mem_values, GoMap.mem_values]
  simp only [hsame]

/-- A message of an airliner, which passes over the launch point at 46 degrees north. -/
def airliner (s : ℕ) (lat : ℚ) : Detection :=
  { heard "" "" s with
    detectionClass := classADSB
    position := some { lat := lat, lon := -122 }
    adsb := some { icao := " a1b2c3", callsign := "AAL1 ", altFt := some 200 } }

theorem keyed_airliner (s : ℕ) (lat : ℚ) : keyed {} (airliner s lat) = some "A1B2C3" := by
  rfl

/-- What has been heard of the airliner is heard of no one else. -/
theorem sinceNew_airliner (icao : String) (a b : ℕ) (x y : ℚ) :
    sinceNew {} icao (callsOf [.observe (airliner a x), .observe (airliner b y)]) =
      if "A1B2C3" = icao then [airliner b y, airliner a x] else [] := by
  have hkeyed : ∀ s lat, (keyed {} (airliner s lat) = some icao) = ("A1B2C3" = icao) :=
      fun s lat ↦ by
    rw [keyed_airliner, Option.some_inj]
  simp only [callsOf, Machine.replaySteps, sinceNew, hkeyed]
  split <;> rfl

/-- An airliner that is heard in order. -/
theorem airliner_right :
    ContactsRight {} (fun icao ↦ sinceNew {} icao
        (callsOf [.observe (airliner 2 47), .observe (airliner 5 46)]))
      (storesAfter [.observe (airliner 2 47), .observe (airliner 5 46)]).contacts := by
  refine ((contacts_right_iff defaultConfig {} (run_storesAfter (by decide))
    fun icao ↦ ?_).1).mpr fun icao ↦ ?_
  · rw [sinceNew_airliner]
    split <;> decide
  · rw [sinceNew_airliner]
    split
    · exact .of_pairwise (by decide) (by decide) (by decide)
    · exact .nil

/-- **A late message moves a contact back.**  The airliner is where an aircraft was just heard, and
an older message of it comes in after that.  The contact is back where the airliner was before, and
the aircraft is not explained by it any more. -/
theorem airliner_moved_back :
    let late := storesAfter [.observe (airliner 5 46), .observe (airliner 2 47)]
    let inTime := storesAfter [.observe (airliner 2 47), .observe (airliner 5 46)]
    let σ := after defaultConfig (takeOff "S" "m")
    (storesMachine defaultConfig {}).Run
        (callsOf [.observe (airliner 5 46), .observe (airliner 2 47)]) late ∧
      ((late.contacts.byICAO.get "A1B2C3").bind (·.current)).map (·.atTime) = some (clock 2) ∧
      ¬ContactsRight {} (fun icao ↦ sinceNew {} icao
        (callsOf [.observe (airliner 5 46), .observe (airliner 2 47)])) late.contacts ∧
      (σ.correlateContacts defaultConfig inTime.contacts.active).2 = [0] ∧
      (σ.correlateContacts defaultConfig late.contacts.active).2 = [] := by
  intro late inTime σ
  have hback : ((late.contacts.byICAO.get "A1B2C3").bind (·.current)).map (·.atTime) =
      some (clock 2) := by decide
  refine ⟨run_storesAfter (by decide), hback, fun h ↦ ?_, by decide +kernel,
    by decide +kernel⟩
  obtain ⟨p, hp, hat⟩ := Option.map_eq_some_iff.mp hback
  obtain ⟨c, hc, hcurrent⟩ := Option.bind_eq_some_iff.mp hp
  have hshows := (h.right "A1B2C3" c hc).current
  rw [sinceNew_airliner, if_pos rfl] at hshows
  have hnewest : c.current = contactFix (airliner 5 46) := by
    refine hshows.newest _ ⟨by simp, by decide, ?_⟩
    decide
  rw [hcurrent] at hnewest
  obtain rfl := Option.some.inj hnewest
  exact absurd hat (by decide)

end ClassG.Fusion
