import ClassG.Captures.Manager
import ClassG.Captures.Pcap
import ClassG.ForGo.JsonDecode

/-!
# Adopting captures

When the API starts it goes through the capture directory (`api/internal/capture/adopt.go`): a file
that has no record gets one of what the file can tell, and a record that counts no frames is counted
again.  A name is a text here: of one that is not UTF-8 the database keeps something else.

* `adopt_keeps` — no record is lost, and what is changed is the count of frames.
* `adopt_lists` — every capture of the directory is listed.
* `adopt_again` — a second time nothing changes.
* `adopt_recovers` — what is known of a capture that no record is left of.
-/

set_option autoImplicit false

namespace ClassG.Captures

open GoTime GoBytes

/-! ## The directory -/

/-- What the capture directory has of a file. -/
structure DirEntry where
  name : String
  isDir : Bool
  /-- `Info`: the size, and the time of the last change, unless the file is gone. -/
  info : Option (ℤ × GoTime)
  /-- What is read of the file, if it can be opened. -/
  file : Option (List Byte)
  deriving DecidableEq

namespace DirEntry

variable (e : DirEntry)

/-- The name as a record has it. -/
def filename : GoBytes := ofString e.name

/-- The entry is no directory, and its extension is that of a capture in whatever case. -/
def isCapture : Bool := !e.isDir && (ext e.name.toList).map Char.toLower = ".pcap".toList

end DirEntry

/-- The candidates, in the order of their names. -/
def candidates (entries : List DirEntry) : List DirEntry :=
  (entries.filter (·.isCapture)).mergeSort fun d e ↦ d.filename ≤ e.filename

def describe (e : DirEntry) (id : String) : Option Capture :=
  match e.info with
  | none => none
  | some (size, modTime) =>
    let (started, label) := parseFilename e.name modTime
    some
      { captureID := id
        filename := e.filename
        state := .completed
        startedAt := started
        endedAt := some modTime
        iface := ""
        channel := 0
        durationS := 0
        sizeBytes := size
        frameCount := countFrames e.file
        label := label }

/-- The record with the file's frames counted. -/
def recounted (existing : Capture) (e : DirEntry) : Capture :=
  { existing with
    frameCount := countFrames e.file
    sizeBytes := (e.info.map (·.1)).getD existing.sizeBytes }

/-- What is put for a file that has a record. -/
def repair (existing : Capture) (e : DirEntry) : Option Capture :=
  if 0 < existing.frameCount then none
  else if countFrames e.file = 0 then none
  else some (recounted existing e)

/-- What is answered while the directory is gone through. -/
structure Answers where
  /-- `ulid.New`, for the record of a file. -/
  newID : DirEntry → String
  /-- What the `PutCapture` for a file fails with. -/
  putErr : DirEntry → Option String

/-- What `AdoptOrphans` leaves and returns. -/
structure Adoption where
  store : Keyed Capture.captureID
  changed : ℕ
  err : Option String

/-- `seen[name]`: of the records of a file, the last one that is listed. -/
def seen (known : List Capture) (filename : GoBytes) : Option Capture :=
  known.reverse.find? (·.filename = filename)

/-- What is put for a file, and what it is called if that fails. -/
def proposal (known : List Capture) (answers : Answers) (e : DirEntry) :
    Option (Capture × String) :=
  match seen known e.filename with
  | some existing => (repair existing e).map (·, "repairing")
  | none => (describe e (answers.newID e)).map (·, "adopting")

/-- The loop. -/
def adoptFrom (known : List Capture) (answers : Answers) :
    List DirEntry → Keyed Capture.captureID → ℕ → Adoption
  | [], store, changed => ⟨store, changed, none⟩
  | e :: rest, store, changed =>
    match proposal known answers e with
    | none => adoptFrom known answers rest store changed
    | some (c, doing) =>
      match answers.putErr e with
      | some err => ⟨store, changed, some (doing ++ " " ++ e.name ++ ": " ++ err)⟩
      | none => adoptFrom known answers rest (store.put c) (changed + 1)

/-- Why the directory was not read. -/
inductive ReadDirError
  | notExist
  | other (text : String)

/-- `AdoptOrphans`, of what `ReadDir` and `ListCaptures` answer. -/
def adoptOrphans (dir : Except ReadDirError (List DirEntry)) (list : Except String (List Capture))
    (answers : Answers) (store : Keyed Capture.captureID) : Adoption :=
  match dir with
  | .error .notExist => ⟨store, 0, none⟩
  | .error (.other text) => ⟨store, 0, some ("reading capture directory: " ++ text)⟩
  | .ok entries =>
    match list with
    | .error text => ⟨store, 0, some ("listing captures: " ++ text)⟩
    | .ok known => adoptFrom known answers (candidates entries) store 0

/-! ## What is put -/

variable {entries : List DirEntry} {known : List Capture} {answers : Answers}
  {store : Keyed Capture.captureID} {e d : DirEntry} {c x : Capture}

/-- What holds when the API starts: the files have names of their own, the list is that of the
store, and the new ids are new. -/
structure Starting (entries : List DirEntry) (known : List Capture) (answers : Answers)
    (store : Keyed Capture.captureID) : Prop where
  names : (entries.map (·.name)).Nodup
  known : known.Perm store.rows
  fresh : ∀ e ∈ entries, store.get (answers.newID e) = none
  newIDs : ∀ d ∈ entries, ∀ e ∈ entries, answers.newID d = answers.newID e → d = e

/-- What is put for a file: its record with the frames counted, or one of its own. -/
inductive Written (answers : Answers) (store : Keyed Capture.captureID) (e : DirEntry) :
    Capture → Prop
  | repaired {x : Capture} (hx : x ∈ store.rows) (hname : x.filename = e.filename)
      (hcount : x.frameCount ≤ 0) (hframes : countFrames e.file ≠ 0) :
      Written answers store e (recounted x e)
  | adopted {c : Capture} (hnew : ∀ x ∈ store.rows, x.filename ≠ e.filename)
      (hc : describe e (answers.newID e) = some c) : Written answers store e c

theorem describe_eq_some {id : String} (h : describe e id = some c) :
    c.captureID = id ∧ c.filename = e.filename ∧ c.state = .completed ∧
      c.frameCount = countFrames e.file := by
  rw [describe] at h
  split at h
  · nomatch h
  · obtain rfl := Option.some.inj h
    exact ⟨rfl, rfl, rfl, rfl⟩

theorem seen_eq_some {known : List Capture} {filename : GoBytes}
    (h : seen known filename = some x) : x ∈ known ∧ x.filename = filename := by
  refine ⟨List.mem_reverse.mp (List.mem_of_find?_eq_some h), ?_⟩
  have hfilename := List.find?_some (p := fun x : Capture ↦ decide (x.filename = filename)) h
  exact of_decide_eq_true hfilename

theorem seen_eq_none {known : List Capture} {filename : GoBytes} :
    seen known filename = none ↔ ∀ x ∈ known, x.filename ≠ filename := by
  rw [seen, List.find?_eq_none]
  simp only [List.mem_reverse, decide_eq_true_eq]

theorem written_of_proposal (hknown : known.Perm store.rows) {doing : String}
    (h : proposal known answers e = some (c, doing)) : Written answers store e c := by
  rw [proposal] at h
  split at h
  · next x hseen =>
    obtain ⟨hx, hname⟩ := seen_eq_some hseen
    obtain ⟨c', hc', heq⟩ := Option.map_eq_some_iff.mp h
    obtain rfl := (Prod.mk.inj heq).1
    rw [repair] at hc'
    split at hc'
    · nomatch hc'
    · next hcount =>
      split at hc'
      · nomatch hc'
      · next hframes =>
        obtain rfl := Option.some.inj hc'
        exact .repaired (hknown.mem_iff.mp hx) hname (not_lt.mp hcount) hframes
  · next hseen =>
    obtain ⟨c', hc', heq⟩ := Option.map_eq_some_iff.mp h
    obtain rfl := (Prod.mk.inj heq).1
    exact .adopted (fun x hx ↦ seen_eq_none.mp hseen x (hknown.mem_iff.mpr hx)) hc'

theorem mem_candidates : e ∈ candidates entries ↔ e ∈ entries ∧ e.isCapture = true := by
  rw [candidates, List.mem_mergeSort, List.mem_filter]

/-- What is put for a file has its name. -/
theorem Written.filename (hc : Written answers store e c) : c.filename = e.filename := by
  cases hc with
  | repaired hx hname hcount hframes => exact hname
  | adopted hnew hc => exact (describe_eq_some hc).2.1

/-- It counts the frames that are in the file. -/
theorem Written.frameCount (hc : Written answers store e c) :
    c.frameCount = countFrames e.file := by
  cases hc with
  | repaired hx hname hcount hframes => rfl
  | adopted hnew hc => exact (describe_eq_some hc).2.2.2

/-- It is not in the store yet. -/
theorem Written.notMem (hfresh : store.get (answers.newID e) = none)
    (hc : Written answers store e c) : c ∉ store.rows := by
  intro hrow
  cases hc with
  | @repaired x hx hname hcount hframes =>
    -- The record under its id counts no frames.
    have hget : store.get x.captureID = some (recounted x e) := Keyed.mem_rows.mp hrow
    rw [Keyed.mem_rows.mp hx] at hget
    have hcounted : x.frameCount = countFrames e.file :=
      congrArg Capture.frameCount (Option.some.inj hget)
    omega
  | adopted hnew hc =>
    rw [Keyed.mem_rows, (describe_eq_some hc).1, hfresh] at hrow
    nomatch hrow

namespace Starting

variable (h : Starting entries known answers store)

include h

theorem eq_of_filename (hd : d ∈ candidates entries) (he : e ∈ candidates entries)
    (hname : d.filename = e.filename) : d = e :=
  List.inj_on_of_nodup_map h.names (mem_candidates.mp hd).1 (mem_candidates.mp he).1
    (ofString_injective hname)

theorem nodup_candidates : (candidates entries).Nodup :=
  (List.mergeSort_perm _ _).nodup_iff.mpr (h.names.of_map.filter _)

/-- **Each file has a record of its own.** -/
theorem eq_of_captureID (hd : d ∈ candidates entries) (he : e ∈ candidates entries)
    (hx : Written answers store d x) (hc : Written answers store e c)
    (hid : x.captureID = c.captureID) : d = e := by
  have hfresh {e : DirEntry} (he : e ∈ candidates entries) := h.fresh e (mem_candidates.mp he).1
  cases hx with
  | @repaired x hx hname =>
    have hold : store.get x.captureID = some x := Keyed.mem_rows.mp hx
    cases hc with
    | @repaired y hy hname' =>
      have hsame : store.get x.captureID = some y := hid ▸ Keyed.mem_rows.mp hy
      obtain rfl := Option.some.inj (hold.symm.trans hsame)
      exact h.eq_of_filename hd he (hname.symm.trans hname')
    | adopted hnew hc =>
      have hnone : store.get x.captureID = none :=
        (hid.trans (describe_eq_some hc).1) ▸ hfresh he
      rw [hold] at hnone
      nomatch hnone
  | adopted hnew hx =>
    have hid := (describe_eq_some hx).1.symm.trans hid
    cases hc with
    | @repaired y hy hname' =>
      have hnone : store.get y.captureID = none := hid ▸ hfresh hd
      rw [Keyed.mem_rows.mp hy] at hnone
      nomatch hnone
    | adopted hnew hc =>
      exact h.newIDs d (mem_candidates.mp hd).1 e (mem_candidates.mp he).1
        (hid.trans (describe_eq_some hc).1)

end Starting

/-! ## The run -/

/-- What putting records of different ids leaves. -/
theorem mem_rows_foldl_put {ps : List (DirEntry × Capture)}
    (hps : (ps.map (·.2.captureID)).Nodup) :
    c ∈ (ps.foldl (fun t p ↦ t.put p.2) store).rows ↔
      (∃ e, (e, c) ∈ ps) ∨ c ∈ store.rows ∧ c.captureID ∉ ps.map (·.2.captureID) := by
  induction ps generalizing store with
  | nil => simp
  | cons p ps ih =>
    obtain ⟨hp, hps⟩ := List.nodup_cons.mp hps
    rw [List.foldl_cons, ih hps, Keyed.mem_rows_put, List.map_cons, List.mem_cons]
    constructor
    · rintro (⟨e, hc⟩ | ⟨rfl | ⟨hc, hne⟩, hnot⟩)
      · exact .inl ⟨e, List.mem_cons_of_mem p hc⟩
      · exact .inl ⟨p.1, List.mem_cons_self⟩
      · exact .inr ⟨hc, fun hmem ↦ hmem.elim hne hnot⟩
    · rintro (⟨e, hc⟩ | ⟨hc, hnot⟩)
      · rcases List.mem_cons.mp hc with rfl | hc
        · exact .inr ⟨.inl rfl, hp⟩
        · exact .inl ⟨e, hc⟩
      · exact .inr ⟨.inr ⟨hc, fun heq ↦ hnot (.inl heq)⟩, fun hmem ↦ hnot (.inr hmem)⟩

/-- What the loop has put, in this order. -/
theorem exists_put (known : List Capture) (answers : Answers) (files : List DirEntry)
    (store : Keyed Capture.captureID) (changed : ℕ) :
    ∃ ps : List (DirEntry × Capture), (ps.map (·.1)).Sublist files ∧
      (∀ p ∈ ps, ∃ doing, proposal known answers p.1 = some (p.2, doing)) ∧
      (adoptFrom known answers files store changed).store =
        ps.foldl (fun t p ↦ t.put p.2) store ∧
      (adoptFrom known answers files store changed).changed = changed + ps.length ∧
      ((adoptFrom known answers files store changed).err = none → ∀ e ∈ files, ∀ c doing,
        proposal known answers e = some (c, doing) → (e, c) ∈ ps) := by
  induction files generalizing store changed with
  | nil => exact ⟨[], .slnil, by simp, rfl, rfl, by simp⟩
  | cons e files ih =>
    rw [adoptFrom]
    rcases hprop : proposal known answers e with _ | ⟨c, doing⟩
    · obtain ⟨ps, hsub, hput, hstore, hchanged, hall⟩ := ih store changed
      refine ⟨ps, hsub.cons e, hput, hstore, hchanged, fun herr ↦ ?_⟩
      rw [List.forall_mem_cons]
      refine ⟨fun c doing hc ↦ ?_, hall herr⟩
      rw [hprop] at hc
      nomatch hc
    · rcases herr : answers.putErr e with _ | err
      · obtain ⟨ps, hsub, hput, hstore, hchanged, hall⟩ := ih (store.put c) (changed + 1)
        refine ⟨(e, c) :: ps, hsub.cons_cons e, ?_, hstore, ?_, fun herr ↦ ?_⟩
        · exact List.forall_mem_cons.mpr ⟨⟨doing, hprop⟩, hput⟩
        · exact hchanged.trans (by rw [List.length_cons]; omega)
        · rw [List.forall_mem_cons]
          refine ⟨fun c' doing' hc ↦ ?_, fun d hd c' doing' hc ↦ ?_⟩
          · rw [hprop] at hc
            obtain rfl := (Prod.mk.inj (Option.some.inj hc)).1
            exact List.mem_cons_self
          · exact List.mem_cons_of_mem _ (hall herr d hd c' doing' hc)
      · exact ⟨[], List.nil_sublist _, by simp, rfl, rfl, fun herr ↦ by nomatch herr⟩

/-- The loop fails only where the store does. -/
theorem adoptFrom_err (files : List DirEntry) (store : Keyed Capture.captureID) (changed : ℕ)
    (h : ∀ e, answers.putErr e = none) :
    (adoptFrom known answers files store changed).err = none := by
  induction files generalizing store changed with
  | nil => rfl
  | cons e files ih =>
    rw [adoptFrom]
    rcases proposal known answers e with _ | ⟨c, doing⟩
    · exact ih store changed
    · dsimp only
      rw [h e]
      exact ih (store.put c) (changed + 1)

/-- What has been put when the directory has been gone through. -/
structure Puts (entries : List DirEntry) (known : List Capture) (answers : Answers)
    (store : Keyed Capture.captureID) (ps : List (DirEntry × Capture)) (r : Adoption) : Prop where
  written : ∀ p ∈ ps, p.1 ∈ candidates entries ∧ Written answers store p.1 p.2
  rows : ∀ c, c ∈ r.store.rows ↔
    (∃ e, (e, c) ∈ ps) ∨ c ∈ store.rows ∧ c.captureID ∉ ps.map (·.2.captureID)
  files : (ps.map (·.1)).Nodup
  nodup : (ps.map (·.2.captureID)).Nodup
  changed : r.changed = ps.length
  all : r.err = none → ∀ e ∈ candidates entries, ∀ c doing,
    proposal known answers e = some (c, doing) → (e, c) ∈ ps

namespace Starting

variable (h : Starting entries known answers store)

include h

theorem exists_puts :
    ∃ ps, Puts entries known answers store ps
      (adoptOrphans (.ok entries) (.ok known) answers store) := by
  obtain ⟨ps, hsub, hput, hstore, hchanged, hall⟩ :=
    exists_put known answers (candidates entries) store 0
  have hwritten : ∀ p ∈ ps, p.1 ∈ candidates entries ∧ Written answers store p.1 p.2 := by
    intro p hp
    obtain ⟨doing, hdoing⟩ := hput p hp
    exact ⟨hsub.subset (List.mem_map_of_mem hp), written_of_proposal h.known hdoing⟩
  have hfiles := h.nodup_candidates.sublist hsub
  have hnodup : (ps.map (·.2.captureID)).Nodup := by
    refine List.Nodup.map_on (fun p hp q hq hid ↦ ?_) hfiles.of_map
    have hfile := h.eq_of_captureID (hwritten p hp).1 (hwritten q hq).1 (hwritten p hp).2
      (hwritten q hq).2 hid
    exact List.inj_on_of_nodup_map hfiles hp hq hfile
  refine ⟨ps, hwritten, fun c ↦ ?_, hfiles, hnodup, hchanged.trans (Nat.zero_add _), hall⟩
  rw [adoptOrphans, hstore, mem_rows_foldl_put hnodup]

end Starting

namespace Puts

variable {ps : List (DirEntry × Capture)} {r : Adoption}
  (hp : Puts entries known answers store ps r)

include hp

theorem mem_of_mem (h : (e, c) ∈ ps) : c ∈ r.store.rows :=
  (hp.rows c).mpr (.inl ⟨e, h⟩)

/-- A record from before that is not there has been counted again. -/
theorem recounted_of_mem (h : Starting entries known answers store) (hc : c ∈ store.rows) :
    c ∈ r.store.rows ∨ ∃ e ∈ candidates entries, c.filename = e.filename ∧ c.frameCount ≤ 0 ∧
      countFrames e.file ≠ 0 ∧ recounted c e ∈ r.store.rows := by
  by_cases hid : c.captureID ∈ ps.map (·.2.captureID)
  · obtain ⟨⟨e, x⟩, hx, hid⟩ := List.mem_map.mp hid
    obtain ⟨he, hwritten⟩ := hp.written _ hx
    have hget := Keyed.mem_rows.mp hc
    have hrow := hp.mem_of_mem hx
    dsimp only at he hwritten hid
    cases hwritten with
    | @repaired y hy hname hcount hframes =>
      have hsame : store.get c.captureID = some y := hid ▸ Keyed.mem_rows.mp hy
      obtain rfl := Option.some.inj (hget.symm.trans hsame)
      exact .inr ⟨e, he, hname, hcount, hframes, hrow⟩
    | adopted hnew hdescribe =>
      have hnone : store.get c.captureID = none :=
        (hid.symm.trans (describe_eq_some hdescribe).1) ▸ h.fresh e (mem_candidates.mp he).1
      rw [hget] at hnone
      nomatch hnone
  · exact .inl ((hp.rows c).mpr (.inr ⟨hc, hid⟩))

/-- The records that are new, or other than before. -/
theorem length_new (h : Starting entries known answers store) :
    (r.store.rows.filter fun c ↦ c ∉ store.rows).length = r.changed := by
  have hperm : (r.store.rows.filter fun c ↦ c ∉ store.rows).Perm (ps.map (·.2)) := by
    have hnodup : (ps.map (·.2)).Nodup := by
      refine List.Nodup.of_map Capture.captureID ?_
      rw [List.map_map]
      exact hp.nodup
    refine (List.perm_ext_iff_of_nodup (r.store.nodup_rows.filter _) hnodup).mpr fun c ↦ ?_
    rw [List.mem_filter, decide_eq_true_eq, hp.rows]
    constructor
    · rintro ⟨⟨e, hc⟩ | ⟨hc, -⟩, hnew⟩
      · exact List.mem_map.mpr ⟨_, hc, rfl⟩
      · exact absurd hc hnew
    · intro hc
      obtain ⟨⟨e, c⟩, hmem, rfl⟩ := List.mem_map.mp hc
      obtain ⟨he, hwritten⟩ := hp.written _ hmem
      exact ⟨.inl ⟨e, hmem⟩, hwritten.notMem (h.fresh e (mem_candidates.mp he).1)⟩
  rw [hperm.length_eq, List.length_map, hp.changed]

/-- A file that has a record has one afterwards, and so has one that can be looked at. -/
theorem exists_row (h : Starting entries known answers store) (herr : r.err = none)
    (he : e ∈ candidates entries)
    (hinfo : e.info.isSome ∨ ∃ c ∈ store.rows, c.filename = e.filename) :
    ∃ c ∈ r.store.rows, c.filename = e.filename ∧ (countFrames e.file ≠ 0 → 0 < c.frameCount) := by
  rcases hprop : proposal known answers e with _ | ⟨c, doing⟩
  · rw [proposal] at hprop
    split at hprop
    · next x hseen =>
      obtain ⟨hx, hname⟩ := seen_eq_some hseen
      have hx := h.known.mem_iff.mp hx
      rw [Option.map_eq_none_iff, repair] at hprop
      rcases hp.recounted_of_mem h hx with hrow | ⟨d, hd, hname', hcount, hframes, hrow⟩
      · refine ⟨x, hrow, hname, fun hframes ↦ ?_⟩
        by_contra hcount
        rw [if_neg hcount, if_neg hframes] at hprop
        nomatch hprop
      · obtain rfl := h.eq_of_filename hd he (hname'.symm.trans hname)
        rw [if_neg (not_lt.mpr hcount), if_neg hframes] at hprop
        nomatch hprop
    · next hseen =>
      have hnew := seen_eq_none.mp hseen
      rw [Option.map_eq_none_iff, describe] at hprop
      rcases hinfo with hinfo | ⟨c, hc, hname⟩
      · obtain ⟨⟨size, modTime⟩, hinfo⟩ := Option.isSome_iff_exists.mp hinfo
        rw [hinfo] at hprop
        nomatch hprop
      · exact absurd hname (hnew c (h.known.mem_iff.mpr hc))
  · have hmem := hp.all herr e he c doing hprop
    have hwritten := (hp.written _ hmem).2
    refine ⟨c, hp.mem_of_mem hmem, hwritten.filename, fun hframes ↦ ?_⟩
    rw [hwritten.frameCount]
    exact Int.natCast_pos.mpr (Nat.pos_of_ne_zero hframes)

/-- A file that has a record had one, or could be looked at. -/
theorem info_or_row (h : Starting entries known answers store) (he : e ∈ candidates entries)
    (hc : c ∈ r.store.rows) (hname : c.filename = e.filename) :
    e.info.isSome ∨ ∃ c ∈ store.rows, c.filename = e.filename := by
  rcases (hp.rows c).mp hc with ⟨d, hc⟩ | ⟨hc, -⟩
  · obtain ⟨hd, hwritten⟩ := hp.written _ hc
    obtain rfl := h.eq_of_filename hd he (hwritten.filename.symm.trans hname)
    dsimp only at hwritten
    cases hwritten with
    | @repaired y hy => exact .inr ⟨y, hy, hname⟩
    | adopted hnew hdescribe =>
      refine .inl (Option.isSome_iff_ne_none.mpr fun hinfo ↦ ?_)
      rw [describe, hinfo] at hdescribe
      nomatch hdescribe
  · exact .inr ⟨c, hc, hname⟩

/-- Files that had one record each have one each. -/
theorem eq_of_filename (h : Starting entries known answers store)
    (hfiles : (store.rows.map (·.filename)).Nodup) (hc : c ∈ r.store.rows) (hx : x ∈ r.store.rows)
    (hname : c.filename = x.filename) : c = x := by
  -- A file that something is put for has no other record.
  have hput {e : DirEntry} {c x : Capture} (hc : (e, c) ∈ ps) (hx : x ∈ store.rows)
      (hnot : x.captureID ∉ ps.map (·.2.captureID)) : c.filename ≠ x.filename := by
    intro hname
    have hwritten := (hp.written _ hc).2
    rw [hwritten.filename] at hname
    have hid : c.captureID ∈ ps.map (·.2.captureID) := List.mem_map.mpr ⟨_, hc, rfl⟩
    dsimp only at hwritten
    cases hwritten with
    | @repaired y hy hname' =>
      obtain rfl := List.inj_on_of_nodup_map hfiles hy hx (hname'.trans hname)
      exact hnot hid
    | adopted hnew => exact hnew x hx hname.symm
  rcases (hp.rows c).mp hc with ⟨d, hc⟩ | ⟨hc, hcnot⟩
  · rcases (hp.rows x).mp hx with ⟨e, hx⟩ | ⟨hx, hxnot⟩
    · obtain ⟨hd, hcw⟩ := hp.written _ hc
      obtain ⟨he, hxw⟩ := hp.written _ hx
      obtain rfl := h.eq_of_filename hd he (hcw.filename.symm.trans (hname.trans hxw.filename))
      exact (Prod.mk.inj (List.inj_on_of_nodup_map hp.files hc hx rfl)).2
    · exact absurd hname (hput hc hx hxnot)
  · rcases (hp.rows x).mp hx with ⟨e, hx⟩ | ⟨hx, hxnot⟩
    · exact absurd hname.symm (hput hx hc hcnot)
    · exact List.inj_on_of_nodup_map hfiles hc hx hname

end Puts

/-! ## A restart -/

/-- When the first of the captures below was started; the other was a second later. -/
def leftAt : GoTime := ofStamp ⟨⟨2026, 8, 10⟩, 14, 12, 23, 0⟩

/-- A capture that was going on when the machine went down. -/
def interrupted : Capture := runningCapture ⟨"wlan1", 6, 120, "roof"⟩ leftAt "01A"

/-- Its file, which has been cut off, and one that no record is left of. -/
def leftFiles : List DirEntry :=
  [⟨"2026-08-10-141223-roof.pcap", false, some (60, leftAt), some (twoPackets.encode.take 60)⟩,
    ⟨"2026-08-10-141224-capture.pcap", false, some (83, leftAt), some (twoPackets.encode.take 83)⟩]

def leftStore : Keyed Capture.captureID := Keyed.empty.put interrupted

def restart : Answers where
  newID e := e.name
  putErr _ := none

theorem starting_restart : Starting leftFiles [interrupted] restart leftStore where
  names := by decide
  known := by
    rw [leftStore, Keyed.rows_put]
    exact List.Perm.refl _
  fresh := by decide +kernel
  newIDs := by decide +kernel

/-! ## What adopting is for -/

variable {r : Adoption}

/-- **No record is lost**, whatever fails: it is as it was, or it counted no frames of a file that
has some, and now counts these.  A record that is new is of a file that had none.  What is returned
is how many records are new or other than before. -/
theorem adopt_keeps (h : Starting entries known answers store)
    (hr : adoptOrphans (.ok entries) (.ok known) answers store = r) :
    (∀ c ∈ store.rows, c ∈ r.store.rows ∨ ∃ e ∈ candidates entries, c.filename = e.filename ∧
        c.frameCount ≤ 0 ∧ countFrames e.file ≠ 0 ∧ recounted c e ∈ r.store.rows) ∧
      (∀ c ∈ r.store.rows, store.get c.captureID = none → ∃ e ∈ candidates entries,
        (∀ x ∈ store.rows, x.filename ≠ e.filename) ∧ describe e c.captureID = some c) ∧
      (r.store.rows.filter fun c ↦ c ∉ store.rows).length = r.changed := by
  obtain ⟨ps, hp⟩ := h.exists_puts
  rw [hr] at hp
  refine ⟨fun c hc ↦ hp.recounted_of_mem h hc, fun c hc hget ↦ ?_, hp.length_new h⟩
  rcases (hp.rows c).mp hc with ⟨e, hc⟩ | ⟨hc, -⟩
  · obtain ⟨he, hwritten⟩ := hp.written _ hc
    dsimp only at he hwritten
    cases hwritten with
    | @repaired y hy =>
      have hold : store.get (recounted y e).captureID = some y := Keyed.mem_rows.mp hy
      rw [hold] at hget
      nomatch hget
    | adopted hnew hdescribe =>
      refine ⟨e, he, hnew, ?_⟩
      rw [(describe_eq_some hdescribe).1, hdescribe]
  · rw [Keyed.mem_rows.mp hc] at hget
    nomatch hget

/-- The capture that was going on has the packet that is whole. -/
theorem keeps_interrupted : interrupted ∈
      (adoptOrphans (.ok leftFiles) (.ok [interrupted]) restart leftStore).store.rows ∨
    ∃ e ∈ candidates leftFiles, interrupted.filename = e.filename ∧ interrupted.frameCount ≤ 0 ∧
      countFrames e.file ≠ 0 ∧ recounted interrupted e ∈
        (adoptOrphans (.ok leftFiles) (.ok [interrupted]) restart leftStore).store.rows :=
  (adopt_keeps starting_restart rfl).1 interrupted (by
    rw [leftStore, Keyed.rows_put]
    exact List.mem_cons_self)

/-- **Every capture of the directory is listed**, and with its frames if it has any, unless a file
without a record is gone when it is looked at. -/
theorem adopt_lists (h : Starting entries known answers store)
    (hr : adoptOrphans (.ok entries) (.ok known) answers store = r) (herr : r.err = none) :
    ∀ e ∈ candidates entries, (e.info.isSome ∨ ∃ c ∈ store.rows, c.filename = e.filename) →
      ∃ c ∈ r.store.rows, c.filename = e.filename ∧
        (countFrames e.file ≠ 0 → 0 < c.frameCount) := by
  intro e he hinfo
  obtain ⟨ps, hp⟩ := h.exists_puts
  rw [hr] at hp
  exact hp.exists_row h herr he hinfo

theorem err_restart :
    (adoptOrphans (.ok leftFiles) (.ok [interrupted]) restart leftStore).err = none :=
  adoptFrom_err _ _ _ fun _ ↦ rfl

theorem lists_restart :
    ∃ c ∈ (adoptOrphans (.ok leftFiles) (.ok [interrupted]) restart leftStore).store.rows,
      c.filename = leftFiles[1].filename ∧
        (countFrames leftFiles[1].file ≠ 0 → 0 < c.frameCount) :=
  adopt_lists starting_restart rfl err_restart leftFiles[1]
    (mem_candidates.mpr ⟨List.getElem_mem _, by decide +kernel⟩) (.inl rfl)

theorem adoptFrom_of_none {files : List DirEntry} (changed : ℕ)
    (h : ∀ e ∈ files, proposal known answers e = none) :
    adoptFrom known answers files store changed = ⟨store, changed, none⟩ := by
  induction files with
  | nil => rfl
  | cons e files ih =>
    obtain ⟨he, h⟩ := List.forall_mem_cons.mp h
    rw [adoptFrom, he]
    exact ih h

/-- **Starting again changes nothing.**  If no two records are of one file, none are afterwards, and
a second time nothing is put. -/
theorem adopt_again (h : Starting entries known answers store)
    (hfiles : (store.rows.map (·.filename)).Nodup)
    (hr : adoptOrphans (.ok entries) (.ok known) answers store = r) (herr : r.err = none) :
    (r.store.rows.map (·.filename)).Nodup ∧
      ∀ (known' : List Capture) (answers' : Answers), known'.Perm r.store.rows →
        adoptOrphans (.ok entries) (.ok known') answers' r.store = ⟨r.store, 0, none⟩ := by
  obtain ⟨ps, hp⟩ := h.exists_puts
  rw [hr] at hp
  refine ⟨List.Nodup.map_on (fun c hc x hx ↦ hp.eq_of_filename h hfiles hc hx) r.store.nodup_rows,
    fun known' answers' hknown ↦ ?_⟩
  rw [adoptOrphans]
  refine adoptFrom_of_none 0 fun e he ↦ ?_
  rw [proposal]
  rcases hseen : seen known' e.filename with _ | c
  · -- The file had no record before either, so it is gone.
    have hnone := seen_eq_none.mp hseen
    have hinfo : e.info = none := by
      by_contra hinfo
      obtain ⟨c, hc, hname, -⟩ :=
        hp.exists_row h herr he (.inl (Option.isSome_iff_ne_none.mpr hinfo))
      exact hnone c (hknown.mem_iff.mpr hc) hname
    dsimp only
    rw [describe, hinfo]
    rfl
  · obtain ⟨hc, hname⟩ := seen_eq_some hseen
    have hc := hknown.mem_iff.mp hc
    dsimp only
    rw [Option.map_eq_none_iff, repair]
    by_cases hframes : countFrames e.file = 0
    · rw [if_pos hframes, ite_self]
    · obtain ⟨x, hx, hname', hcount⟩ :=
        hp.exists_row h herr he (hp.info_or_row h he hc hname)
      obtain rfl := hp.eq_of_filename h hfiles hx hc (hname'.trans hname.symm)
      rw [if_pos (hcount hframes)]

theorem again_restart :
    ((adoptOrphans (.ok leftFiles) (.ok [interrupted]) restart leftStore).store.rows.map
      (·.filename)).Nodup := by
  refine (adopt_again starting_restart ?_ rfl err_restart).1
  rw [leftStore, Keyed.rows_put]
  decide +kernel

/-- A name that is ASCII is known from its bytes. -/
theorem toList_of_ofString {name : String} {bs : GoBytes} (h : ofString name = bs)
    (hbs : ∀ b ∈ bs, b.val < 128) : name.toList = chars bs := by
  have hchar : ∀ b : Fin 128,
      (String.utf8EncodeChar (Char.ofNat b.val)).map (fun b ↦ Fin.ofNat 256 b.toNat) =
        [Fin.ofNat 256 b.val] := by decide
  have hback : ofString (.ofList (chars bs)) = bs := by
    rw [ofString, String.toList_ofList, chars, List.flatMap_map]
    refine (List.flatMap_congr fun b hb ↦ ?_).trans (List.flatMap_singleton' bs)
    rw [hchar ⟨b.val, hbs b hb⟩]
    exact congrArg (fun x ↦ [x]) (Fin.ext (Nat.mod_eq_of_lt b.isLt))
  rw [ofString_injective (h.trans hback.symm), String.toList_ofList]

/-- A name that `Start` gave is known from its bytes. -/
theorem name_of_filename {now : GoTime} {label : String} (hnow : InRange now)
    (hname : e.filename = fileName now (sanitiseLabel label)) :
    e.name = .ofList (chars (fileName now (sanitiseLabel label))) := by
  rw [← toList_of_ofString hname (lt_of_mem_fileName hnow label), String.ofList_toList]

/-- It is that of a capture. -/
theorem isCapture_fileName {now : GoTime} {label : String} (hnow : InRange now)
    (hdir : e.isDir = false) (hname : e.filename = fileName now (sanitiseLabel label)) :
    e.isCapture = true := by
  have hdot : '.' ∉ "pcap".toList := by decide
  rw [DirEntry.isCapture, hdir, name_of_filename hnow hname, String.toList_ofList, chars_fileName,
    (trimExt_append _ hdot).1]
  decide

theorem countFrames_of_whole {f : PcapFile} {n k : ℕ} (h : f.Whole n k) :
    countFrames (some (f.encode.take n)) = k := by
  rw [countFrames, f.count_of_whole h]

/-- The record of a capture that was started at `now`, if it is made of the file. -/
def recovered (now : GoTime) (label : String) (size : ℤ) (modTime : GoTime) (frames : ℕ)
    (id : String) : Capture where
  captureID := id
  filename := fileName now (sanitiseLabel label)
  state := .completed
  startedAt := second now * GoDuration.second
  endedAt := some modTime
  iface := ""
  channel := 0
  durationS := 0
  sizeBytes := size
  frameCount := frames
  label := effective (sanitiseLabel label)

theorem describe_fileName {now : GoTime} {label : String} {size : ℤ} {modTime : GoTime}
    (hnow : InRange now) (hname : e.filename = fileName now (sanitiseLabel label))
    (hinfo : e.info = some (size, modTime)) (id : String) :
    describe e id = some (recovered now label size modTime (countFrames e.file) id) := by
  rw [describe, hinfo]
  dsimp only
  rw [name_of_filename hnow hname, parseFilename_fileName hnow label modTime, hname]
  dsimp only [recovered]

/-- **What is left of a capture that no record is left of**: when it was started, to the second, its
label, and the packets that are whole, wherever the file is cut off. -/
theorem adopt_recovers (h : Starting entries known answers store)
    (hr : adoptOrphans (.ok entries) (.ok known) answers store = r) (herr : r.err = none)
    {now : GoTime} {label : String} {f : PcapFile} {n : ℕ} {size : ℤ} {modTime : GoTime}
    (hnow : InRange now) (hn : globalHeaderLen ≤ n) (he : e ∈ entries) (hdir : e.isDir = false)
    (hname : e.filename = fileName now (sanitiseLabel label))
    (hinfo : e.info = some (size, modTime)) (hfile : e.file = some (f.encode.take n))
    (hlost : ∀ c ∈ store.rows, c.filename ≠ e.filename) :
    ∃ k, f.Whole n k ∧ ∀ c, c ∈ r.store.rows ∧ c.filename = e.filename ↔
      c = recovered now label size modTime k (answers.newID e) := by
  obtain ⟨ps, hp⟩ := h.exists_puts
  rw [hr] at hp
  obtain ⟨k, hk⟩ := f.exists_whole hn
  have he : e ∈ candidates entries := mem_candidates.mpr ⟨he, isCapture_fileName hnow hdir hname⟩
  have hseen : seen known e.filename = none :=
    seen_eq_none.mpr fun c hc ↦ hlost c (h.known.mem_iff.mp hc)
  have hprop : proposal known answers e =
      some (recovered now label size modTime k (answers.newID e), "adopting") := by
    rw [proposal, hseen]
    dsimp only
    rw [describe_fileName hnow hname hinfo, hfile, countFrames_of_whole hk, Option.map_some]
  have hmem := hp.all herr e he _ _ hprop
  refine ⟨k, hk, fun c ↦ ⟨?_, ?_⟩⟩
  · rintro ⟨hc, hcname⟩
    rcases (hp.rows c).mp hc with ⟨d, hc⟩ | ⟨hc, -⟩
    · obtain ⟨hd, hwritten⟩ := hp.written _ hc
      obtain rfl := h.eq_of_filename hd he (hwritten.filename.symm.trans hcname)
      exact (Prod.mk.inj (List.inj_on_of_nodup_map hp.files hc hmem rfl)).2
    · exact absurd hcname (hlost c hc)
  · rintro rfl
    exact ⟨hp.mem_of_mem hmem, hname.symm⟩

/-- The capture that no record is left of, with both of its packets. -/
theorem recovers_restart : ∃ k, twoPackets.Whole 83 k ∧
    ∀ c, c ∈ (adoptOrphans (.ok leftFiles) (.ok [interrupted]) restart leftStore).store.rows ∧
        c.filename = leftFiles[1].filename ↔
      c = recovered (leftAt + GoDuration.second) "" 83 leftAt k
        "2026-08-10-141224-capture.pcap" :=
  adopt_recovers starting_restart rfl err_restart (by decide +kernel) (by decide)
    (List.getElem_mem (by decide)) rfl (by decide +kernel) rfl rfl (by
      rw [leftStore, Keyed.rows_put]
      decide +kernel)

end ClassG.Captures
