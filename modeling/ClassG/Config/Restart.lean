import Mathlib.Data.List.Nodup
import ClassG.Config.Resolve

/-!
# Updates and the next start

A save writes a map of texts to the database and updates the settings in effect with it.  After any
saves the settings in effect are those that the next start resolves exactly if no setting was last
written with a blank text, `resolve_saved_iff`: `Update` puts the blank text in effect, and
`Resolve` passes it over.  The settings that the environment holds do not count.

An update that fails leaves the settings as they were exactly if the pairs that were visited before
the one that failed have nothing to change, `update_failed_iff`.
-/

set_option autoImplicit false

namespace ClassG.Config

namespace Settings

/-! ## A step of `Update` -/

/-- `Update` passes over the key: no setting has it, or the environment holds the setting. -/
def skips (s : Settings) (key : String) : Bool := (s.get key).all (·.source = .env)

/-- The pair makes `Update` fail. -/
def refuses (s : Settings) (x : String × String) : Bool :=
  !s.skips x.1 && (defByKey.get x.1).any fun d ↦ !(d.parse x.2).isOk

/-- The pair does not change the setting: the key is passed over, or the setting has the text
already, from the database. -/
def idle (s : Settings) (x : String × String) : Bool :=
  s.skips x.1 || (s.get x.1).any fun y ↦ y.raw = x.2 ∧ y.source = .db

variable {s s' : Settings} {key raw : String} {x : Value}

theorem skips_congr (h : s'.get key = s.get key) : s'.skips key = s.skips key := by
  rw [skips, skips, h]

theorem not_skips_iff : s.skips key = false ↔ ∃ x, s.get key = some x ∧ x.source ≠ .env := by
  rw [skips]
  cases s.get key <;> simp

theorem get_of_not_skips (h : s.skips key = false) : ∃ x, s.get key = some x ∧
    x.source ≠ .env ∧ defByKey.get key = some x.definition := by
  obtain ⟨x, hx, hsource⟩ := not_skips_iff.mp h
  exact ⟨x, hx, hsource, s.keyed key x hx⟩

theorem refuses_eq {d : Def} (hskip : s.skips key = false) (hd : defByKey.get key = some d) :
    s.refuses (key, raw) = !(d.parse raw).isOk := by
  rw [refuses, hskip, hd]
  rfl

/-- A step of `Update` passes over the key, fails, or sets the value that was read. -/
theorem store_cases (s : Settings) (key raw : String) :
    (s.skips key = true ∧ s.store key raw = .ok s) ∨
      (s.refuses (key, raw) = true ∧ ∃ err, s.store key raw = .error err) ∨
      (s.skips key = false ∧ s.refuses (key, raw) = false ∧ ∃ x hx,
        x.definition.read raw .db = .ok x ∧ s.store key raw = .ok (s.set key x hx)) := by
  cases hskip : s.skips key with
  | true =>
    refine .inl ⟨rfl, ?_⟩
    unfold store
    split
    · rfl
    · rename_i y hy
      rw [skips, hy] at hskip
      rw [if_pos (of_decide_eq_true hskip)]
  | false =>
    obtain ⟨y, hy, hsource, hd⟩ := get_of_not_skips hskip
    refine .inr ?_
    rw [refuses_eq hskip hd]
    unfold store
    split
    · rename_i hnone
      rw [hy] at hnone
      cases hnone
    rename_i y' hy'
    obtain rfl : y = y' := Option.some.inj (hy.symm.trans hy')
    rw [if_neg hsource]
    split
    · rename_i hnone
      rw [hd] at hnone
      cases hnone
    rename_i d' hd'
    obtain rfl : y.definition = d' := Option.some.inj (hd.symm.trans hd')
    split
    · rename_i err herr
      exact .inl ⟨by rw [Def.isOk_of_error herr]; rfl, err, rfl⟩
    · rename_i x hx
      have hxd : defByKey.get key = some x.definition := by rw [(Def.of_read hx).1, hd]
      refine .inr ⟨rfl, by rw [Def.parse_of_read hx]; rfl, x, hxd, ?_, rfl⟩
      rwa [(Def.of_read hx).1]

/-! ## `Update` that fails -/

variable {visited : List (String × String)}

theorem idle_congr {y : String × String} (h : s'.get y.1 = s.get y.1) : s'.idle y = s.idle y := by
  rw [idle, idle, skips_congr h, h]

theorem refuses_congr {y : String × String} (h : s'.get y.1 = s.get y.1) :
    s'.refuses y = s.refuses y := by
  rw [refuses, refuses, skips_congr h]

/-- The pairs before the first that fails have nothing to change. -/
def IdleBefore (s : Settings) (visited : List (String × String)) : Prop :=
  ∀ x ∈ visited.takeWhile fun x ↦ !s.refuses x, s.idle x = true

instance (s : Settings) (visited : List (String × String)) : Decidable (s.IdleBefore visited) :=
  inferInstanceAs (Decidable (∀ _ ∈ _, _))

theorem idleBefore_cons {x : String × String} {rest : List (String × String)} :
    s.IdleBefore (x :: rest) ↔
      s.refuses x = true ∨ (s.idle x = true ∧ s.IdleBefore rest) := by
  rw [IdleBefore, List.takeWhile_cons]
  cases hr : s.refuses x with
  | true => simp
  | false => simp [IdleBefore]

theorem idleBefore_congr : ∀ {visited : List (String × String)},
    (∀ y ∈ visited, s'.get y.1 = s.get y.1) → (s'.IdleBefore visited ↔ s.IdleBefore visited)
  | [], _ => by simp [IdleBefore]
  | y :: rest, h => by
    obtain ⟨hy, hrest⟩ := List.forall_mem_cons.mp h
    rw [idleBefore_cons, idleBefore_cons, refuses_congr hy, idle_congr hy, idleBefore_congr hrest]

theorem get_store_of_ne (h : s.store key raw = .ok s') {k : String} (hk : k ≠ key) :
    s'.get k = s.get k := by
  rcases s.store_cases key raw with ⟨-, hs⟩ | ⟨-, err, hs⟩ | ⟨-, -, x, hx, -, hs⟩
  · rw [h] at hs
    rw [Except.ok.inj hs]
  · rw [h] at hs
    cases hs
  · rw [h] at hs
    rw [Except.ok.inj hs, get_set, if_neg hk]

theorem get_update_of_notMem : ∀ {visited : List (String × String)} {s : Settings} {k : String},
    k ∉ visited.map (·.1) → (s.update visited).1.get k = s.get k
  | [], _, _, _ => rfl
  | (key, raw) :: rest, s, k, h => by
    rw [List.map_cons, List.mem_cons, not_or] at h
    rw [update]
    split
    · rfl
    · rename_i s' hs'
      rw [get_update_of_notMem h.2, get_store_of_ne hs' h.1]

/-- A pair that is set has nothing to change exactly if the setting had the value already. -/
theorem idle_iff_of_read (hskip : s.skips key = false) (hd : defByKey.get key = some x.definition)
    (hread : x.definition.read raw .db = .ok x) :
    s.idle (key, raw) = true ↔ s.get key = some x := by
  obtain ⟨-, hraw, hsource⟩ := Def.of_read hread
  obtain ⟨y, hy, -, hyd⟩ := get_of_not_skips hskip
  rw [idle, hskip, Bool.false_or, hy, Option.any_some, decide_eq_true_iff]
  constructor
  · rintro ⟨hyraw, hysource⟩
    refine congrArg some (Value.ext_raw (Option.some.inj (hyd.symm.trans hd)) ?_ ?_)
    · rw [hyraw, hraw]
    · rw [hysource, hsource]
  · intro heq
    rw [Option.some.inj heq]
    exact ⟨hraw, hsource⟩

/-- **An update that fails** leaves the settings as they were exactly if the pairs before the one
that failed had nothing to change. -/
theorem update_failed : ∀ {visited : List (String × String)} {s : Settings},
    (visited.map (·.1)).Nodup → (s.update visited).2 ≠ none →
    ((∀ k, (s.update visited).1.get k = s.get k) ↔ s.IdleBefore visited)
  | [], _, _, h => absurd rfl h
  | (key, raw) :: rest, s, hnodup, h => by
    obtain ⟨hkey, hrest⟩ := List.nodup_cons.mp hnodup
    rw [idleBefore_cons]
    rcases s.store_cases key raw with ⟨hskip, hs⟩ | ⟨hrefuses, err, hs⟩ |
      ⟨hskip, hrefuses, x, hx, hread, hs⟩
    · have hr : s.refuses (key, raw) = false := by rw [refuses, hskip]; rfl
      have hi : s.idle (key, raw) = true := by rw [idle, hskip]; rfl
      rw [update, hs] at h ⊢
      rw [update_failed hrest h, hr, hi]
      simp
    · rw [update, hs, hrefuses]
      simp
    · rw [update, hs] at h ⊢
      dsimp only at h ⊢
      have hset : (s.set key x hx).get key = some x := by rw [get_set, if_pos rfl]
      have hother {k : String} (hk : k ≠ key) : (s.set key x hx).get k = s.get k := by
        rw [get_set, if_neg hk]
      have hafter := get_update_of_notMem (s := s.set key x hx) hkey
      have hih := update_failed hrest h
      rw [idleBefore_congr fun y hy ↦ hother fun heq ↦
        hkey (List.mem_map.mpr ⟨y, hy, heq⟩)] at hih
      rw [hrefuses, idle_iff_of_read hskip hx hread, ← hih]
      constructor
      · intro hall
        have hkeep : s.get key = some x := by rw [← hall key, hafter, hset]
        refine .inr ⟨hkeep, fun k ↦ ?_⟩
        rw [hall k]
        by_cases hk : k = key
        · rw [hk, hset, hkeep]
        · rw [hother hk]
      · rintro (hfalse | ⟨hkeep, hall⟩) k
        · cases hfalse
        · rw [hall k]
          by_cases hk : k = key
          · rw [hk, hset, hkeep]
          · exact hother hk

/-! ## `Update` that was validated -/

theorem refuses_of_validateOne {y : String × String} (h : validateOne y.1 y.2 = .ok ()) :
    s.refuses y = false := by
  cases hskip : s.skips y.1 with
  | true =>
    rw [refuses, hskip]
    rfl
  | false =>
    obtain ⟨x, -, -, hd⟩ := get_of_not_skips hskip
    rw [refuses_eq hskip hd]
    unfold validateOne at h
    rw [hd] at h
    dsimp only at h
    split at h
    · cases h
    · split at h
      · cases h
      · rename_i hparse
        rw [hparse]
        rfl

theorem get_update_of_skips : ∀ {visited : List (String × String)} {s : Settings} {k : String},
    s.skips k = true → (s.update visited).1.get k = s.get k
  | [], _, _, _ => rfl
  | (key, raw) :: rest, s, k, h => by
    rcases s.store_cases key raw with ⟨-, hs⟩ | ⟨-, err, hs⟩ | ⟨hskip, -, x, hx, -, hs⟩
    · rw [update, hs]
      exact get_update_of_skips h
    · rw [update, hs]
    · have hk : k ≠ key := fun heq ↦ by rw [heq, hskip] at h; cases h
      have hget : (s.set key x hx).get k = s.get k := by rw [get_set, if_neg hk]
      rw [update, hs]
      refine (get_update_of_skips ?_).trans hget
      rwa [skips_congr hget]

/-- **An update of texts that were validated** does not fail, and sets what is not passed over. -/
theorem update_valid : ∀ {visited : List (String × String)} {s : Settings},
    (visited.map (·.1)).Nodup → (∀ y ∈ visited, validateOne y.1 y.2 = .ok ()) →
    (s.update visited).2 = none ∧ ∀ y ∈ visited, s.skips y.1 = false →
      ∃ x, x.definition.read y.2 .db = .ok x ∧ (s.update visited).1.get y.1 = some x
  | [], _, _, _ => by simp [update]
  | (key, raw) :: rest, s, hnodup, hvalid => by
    obtain ⟨hkey, hrest⟩ := List.nodup_cons.mp hnodup
    obtain ⟨hfirst, hvalid⟩ := List.forall_mem_cons.mp hvalid
    have hok : s.refuses (key, raw) = false := refuses_of_validateOne hfirst
    rcases s.store_cases key raw with ⟨hskip, hs⟩ | ⟨hrefuses, err, hs⟩ |
      ⟨hskip, -, x, hx, hread, hs⟩
    · obtain ⟨hnone, hall⟩ := update_valid (s := s) hrest hvalid
      rw [update, hs]
      refine ⟨hnone, List.forall_mem_cons.mpr ⟨fun hne ↦ ?_, hall⟩⟩
      rw [hskip] at hne
      cases hne
    · rw [hok] at hrefuses
      cases hrefuses
    · obtain ⟨hnone, hall⟩ := update_valid (s := s.set key x hx) hrest hvalid
      rw [update, hs]
      refine ⟨hnone, List.forall_mem_cons.mpr ⟨fun _ ↦ ⟨x, hread, ?_⟩, fun y hy hne ↦ ?_⟩⟩
      · rw [get_update_of_notMem hkey, get_set, if_pos rfl]
      · have hyk : y.1 ≠ key := fun heq ↦ hkey (List.mem_map.mpr ⟨y, hy, heq⟩)
        exact hall y hy ((skips_congr (by rw [get_set, if_neg hyk])).trans hne)

end Settings

/-! ## Saves -/

/-- A map that is written to the database and handed to `Update`, with the order in which `Update`
visits it. -/
structure Save where
  stored : GoMap String String
  visited : List (String × String)
  perm : visited.Perm stored.entries

/-- Every pair passes `ValidateOne`. -/
def Save.Valid (x : Save) : Prop :=
  ∀ key raw, x.stored.get key = some raw → validateOne key raw = .ok ()

theorem Save.mem_visited (x : Save) {y : String × String} :
    y ∈ x.visited ↔ x.stored.get y.1 = some y.2 := by
  rw [x.perm.mem_iff]
  exact GoMap.mem_entries

theorem Save.nodup (x : Save) : (x.visited.map (·.1)).Nodup := by
  refine (x.perm.map _).nodup_iff.mpr ?_
  rw [GoMap.entries, List.map_map]
  exact x.stored.alist.nodupKeys

/-- What is stored, and what is in effect. -/
structure Running where
  db : GoMap String String
  settings : Settings

inductive SaveError
  | validate (err : ValidateError)
  | update (key : String) (err : ParseError)

/-- `PutMany` and then `Update`. -/
def Running.save (n : Running) (x : Save) : Except SaveError Running :=
  match putMany n.db x.stored with
  | .error err => .error (.validate err)
  | .ok db =>
    match n.settings.update x.visited with
    | (_, some (key, err)) => .error (.update key err)
    | (s, none) => .ok ⟨db, s⟩

def Running.saveAll (n : Running) (saves : List Save) : Except SaveError Running :=
  saves.foldlM save n

theorem validateAll_ok {updates : GoMap String String} : ∀ {keys : List String},
    (∀ k ∈ keys, validateOne k ((updates.get k).getD "") = .ok ()) →
    validateAll updates keys = .ok ()
  | [], _ => rfl
  | k :: keys, h => by
    obtain ⟨hk, hkeys⟩ := List.forall_mem_cons.mp h
    rw [validateAll, hk]
    exact validateAll_ok hkeys

/-- What is written. -/
theorem putMany_ok (db : GoMap String String) {updates : GoMap String String}
    (h : ∀ key raw, updates.get key = some raw → validateOne key raw = .ok ()) :
    ∃ db', putMany db updates = .ok db' ∧ ∀ k, db'.get k = (updates.get k).or (db.get k) := by
  have hmem (k : String) :
      k ∈ updates.keys.insertionSort (· ≤ ·) ↔ ∃ raw, updates.get k = some raw := by
    rw [(List.perm_insertionSort _ _).mem_iff, GoMap.mem_keys]
  have hvalid : validateAll updates (updates.keys.insertionSort (· ≤ ·)) = .ok () := by
    refine validateAll_ok fun k hk ↦ ?_
    obtain ⟨raw, hraw⟩ := (hmem k).mp hk
    rw [hraw]
    exact h k raw hraw
  have hnodup : ((updates.keys.insertionSort (· ≤ ·)).map id).Nodup := by
    rw [List.map_id, (List.perm_insertionSort _ _).nodup_iff]
    exact updates.alist.nodupKeys
  rw [putMany, hvalid]
  refine ⟨_, rfl, fun k ↦ ?_⟩
  cases hk : updates.get k with
  | none =>
    refine (GoMap.get_foldl_put_of_notMem (f := id) _ ?_).trans (Option.none_or).symm
    rw [List.map_id, hmem, hk]
    simp
  | some raw =>
    have hput := GoMap.get_foldl_put (f := id) (g := fun k ↦ (updates.get k).getD "") db hnodup
      ((hmem k).mpr ⟨raw, hk⟩)
    rw [hk] at hput
    exact hput

/-- The text that a key was last written with. -/
def lastWritten (saves : List Save) (key : String) : Option String :=
  saves.reverse.findSome? (·.stored.get key)

theorem lastWritten_append (saves : List Save) (x : Save) (key : String) :
    lastWritten (saves ++ [x]) key = (x.stored.get key).or (lastWritten saves key) := by
  rw [lastWritten, List.reverse_append, List.reverse_singleton, List.singleton_append,
    List.findSome?_cons]
  cases x.stored.get key <;> rfl

/-- What saves have made of what was stored and in effect. -/
structure Ledger (n : Running) (saves : List Save) (n' : Running) : Prop where
  db : ∀ key, n'.db.get key = (lastWritten saves key).or (n.db.get key)
  kept : ∀ key, n.settings.skips key = true ∨ lastWritten saves key = none →
    n'.settings.get key = n.settings.get key
  written : ∀ key raw, lastWritten saves key = some raw → n.settings.skips key = false →
    ∃ x, x.definition.read raw .db = .ok x ∧ n'.settings.get key = some x
  valid : ∀ key raw, lastWritten saves key = some raw → validateOne key raw = .ok ()

namespace Ledger

variable {n n' : Running} {saves : List Save}

theorem start (n : Running) : Ledger n [] n where
  db _ := rfl
  kept _ _ := rfl
  written _ _ h := nomatch h
  valid _ _ h := nomatch h

theorem skips (h : Ledger n saves n') (key : String) :
    n'.settings.skips key = n.settings.skips key := by
  cases hskip : n.settings.skips key with
  | true => rw [Settings.skips_congr (h.kept key (.inl hskip)), hskip]
  | false =>
    cases hlast : lastWritten saves key with
    | none => rw [Settings.skips_congr (h.kept key (.inr hlast)), hskip]
    | some raw =>
      obtain ⟨x, hread, hx⟩ := h.written key raw hlast hskip
      refine Settings.not_skips_iff.mpr ⟨x, hx, ?_⟩
      rw [(Def.of_read hread).2.2]
      decide

/-- **A save.** -/
theorem save (h : Ledger n saves n') {x : Save} (hx : x.Valid) :
    ∃ n'', n'.save x = .ok n'' ∧ Ledger n (saves ++ [x]) n'' := by
  obtain ⟨db, hput, hdb⟩ := putMany_ok n'.db hx
  obtain ⟨hnone, hset⟩ := Settings.update_valid (s := n'.settings) x.nodup
    fun y hy ↦ hx y.1 y.2 (x.mem_visited.mp hy)
  have hsave : n'.save x = .ok ⟨db, (n'.settings.update x.visited).1⟩ := by
    rw [Running.save, hput]
    dsimp only
    split
    · rename_i hu
      rw [hu] at hnone
      cases hnone
    · rename_i hu
      rw [hu]
  refine ⟨_, hsave, ⟨fun key ↦ ?_, fun key hkey ↦ ?_, fun key raw hkey hskip ↦ ?_,
    fun key raw hkey ↦ ?_⟩⟩
  · rw [lastWritten_append, Option.or_assoc, ← h.db]
    exact hdb key
  · rcases hkey with hskip | hlast
    · rw [← h.kept key (.inl hskip)]
      exact Settings.get_update_of_skips ((h.skips key).trans hskip)
    · rw [lastWritten_append, Option.or_eq_none_iff] at hlast
      rw [← h.kept key (.inr hlast.2)]
      refine Settings.get_update_of_notMem fun hmem ↦ ?_
      obtain ⟨y, hy, rfl⟩ := List.mem_map.mp hmem
      rw [x.mem_visited, hlast.1] at hy
      cases hy
  · rw [lastWritten_append] at hkey
    cases hstored : x.stored.get key with
    | some raw' =>
      rw [hstored, Option.some_or] at hkey
      obtain rfl := Option.some.inj hkey
      exact hset (key, raw') (x.mem_visited.mpr hstored) ((h.skips key).trans hskip)
    | none =>
      rw [hstored, Option.none_or] at hkey
      obtain ⟨y, hread, hy⟩ := h.written key raw hkey hskip
      refine ⟨y, hread, Eq.trans ?_ hy⟩
      refine Settings.get_update_of_notMem fun hmem ↦ ?_
      obtain ⟨z, hz, rfl⟩ := List.mem_map.mp hmem
      rw [x.mem_visited, hstored] at hz
      cases hz
  · rw [lastWritten_append, Option.or_eq_some_iff] at hkey
    rcases hkey with hkey | ⟨-, hkey⟩
    · exact hx key raw hkey
    · exact h.valid key raw hkey

/-- **Saves of texts that pass `ValidateOne`.** -/
theorem of_valid : ∀ {saves : List Save} {before : List Save} {n' : Running}, Ledger n before n' →
    (∀ x ∈ saves, x.Valid) → ∃ n'', n'.saveAll saves = .ok n'' ∧ Ledger n (before ++ saves) n''
  | [], before, n', h, _ => ⟨n', rfl, by rwa [List.append_nil]⟩
  | x :: saves, before, n', h, hvalid => by
    obtain ⟨hx, hvalid⟩ := List.forall_mem_cons.mp hvalid
    obtain ⟨n₁, hsave, h₁⟩ := h.save hx
    obtain ⟨n₂, hall, h₂⟩ := of_valid h₁ hvalid
    refine ⟨n₂, ?_, by rwa [List.append_assoc, List.singleton_append] at h₂⟩
    rw [Running.saveAll, List.foldlM_cons, hsave]
    exact hall

end Ledger

/-! ## The next start -/

section

variable {v : Verbs} {db db' seed : GoMap String String} {getenv : String → String} {d : Def}

theorem prefer_source_ne {tier : Option String} {source src : Source} {below : String × Source}
    (h : source ≠ src) (hb : below.2 ≠ src) : (prefer tier source below).2 ≠ src := by
  unfold prefer
  split
  · split
    · exact hb
    · exact h
  · exact hb

theorem choose_of_env (h : (d.choose db seed getenv).2 = .env) :
    d.choose db' seed getenv = d.choose db seed getenv := by
  unfold Def.choose at h ⊢
  dsimp only at h ⊢
  split at h
  · rename_i hv
    rw [if_pos hv, if_pos hv]
  · exact absurd h (prefer_source_ne (by decide)
      (prefer_source_ne (by decide) (show Source.default ≠ .env by decide)))

/-- What the environment does not hold is taken from the tiers below it. -/
theorem choose_of_ne_env (h : (d.choose db seed getenv).2 ≠ .env) :
    d.choose db' seed getenv =
      prefer (db'.get d.key) .db (prefer (seed.get d.key) .seed (d.default, .default)) := by
  unfold Def.choose at h ⊢
  dsimp only at h ⊢
  split at h
  · exact absurd rfl h
  · rename_i hv
    rw [if_neg hv]

theorem prefer_blank {raw : String} (h : blank raw = true) (source : Source)
    (below : String × Source) : prefer (some raw) source below = below :=
  if_pos h

theorem prefer_text {raw : String} (h : blank raw = false) (source : Source)
    (below : String × Source) : prefer (some raw) source below = (raw, source) :=
  if_neg (by rw [h]; decide)

/-- A setting is not passed over exactly if the environment does not hold it. -/
theorem skips_iff {s : Settings} (hs : resolve v db seed getenv = .ok s) (hd : d ∈ defs) :
    s.skips d.key = true ↔ (d.choose db seed getenv).2 = .env := by
  obtain ⟨x, hx, hget⟩ := get_of_resolve hs hd
  rw [Settings.skips, hget, Option.all_some, decide_eq_true_iff, (Def.of_read hx).2.2]

theorem get_ext {s s' : Settings} (h : ∀ d ∈ defs, s.get d.key = s'.get d.key) (key : String) :
    s.get key = s'.get key := by
  cases hkey : defByKey.get key with
  | none => rw [s.get_eq_none hkey, s'.get_eq_none hkey]
  | some d =>
    obtain ⟨hd, rfl⟩ := mem_defs hkey
    exact h d hd

theorem known_of_valid {key raw : String} (h : validateOne key raw = .ok ()) :
    (defByKey.get key).isSome := by
  unfold validateOne at h
  split at h
  · cases h
  · rename_i d hd
    rw [hd]
    rfl

variable {s : Settings} {saves : List Save} {n' : Running}

/-- What the next start reads a setting as, if it was not last written with a blank text, is what is
in effect. -/
theorem Ledger.reads (h : Ledger ⟨db, s⟩ saves n') (hs : resolve v db seed getenv = .ok s)
    (hd : d ∈ defs) (hblank : ∀ raw, lastWritten saves d.key = some raw → blank raw = true →
      s.skips d.key = true) :
    ∃ x, d.Reads n'.db seed getenv x ∧ n'.settings.get d.key = some x := by
  obtain ⟨x, hx, hget⟩ := get_of_resolve hs hd
  by_cases henv : (d.choose db seed getenv).2 = .env
  · refine ⟨x, ?_, ?_⟩
    · rwa [Def.Reads, choose_of_env henv]
    · rw [h.kept d.key (.inl ((skips_iff hs hd).mpr henv)), hget]
  · have hskip : s.skips d.key = false :=
      eq_false_of_ne_true (mt (skips_iff hs hd).mp henv)
    cases hlast : lastWritten saves d.key with
    | none =>
      refine ⟨x, ?_, by rw [h.kept d.key (.inr hlast), hget]⟩
      have hdb : n'.db.get d.key = db.get d.key := by rw [h.db, hlast, Option.none_or]
      rwa [Def.Reads, choose_of_ne_env henv, hdb, ← choose_of_ne_env henv]
    | some raw =>
      obtain ⟨y, hread, hy⟩ := h.written d.key raw hlast hskip
      have hdef : y.definition = d := by
        have hkeyed : defByKey.get d.key = some y.definition := n'.settings.keyed d.key y hy
        rw [defByKey_key hd] at hkeyed
        exact (Option.some.inj hkeyed).symm
      have hdb : n'.db.get d.key = some raw := by rw [h.db, hlast, Option.some_or]
      have htext : blank raw = false := by
        refine eq_false_of_ne_true fun hb ↦ ?_
        rw [hblank raw hlast hb] at hskip
        cases hskip
      refine ⟨y, ?_, hy⟩
      rw [Def.Reads, choose_of_ne_env henv, hdb, prefer_text htext, ← hdef]
      exact hread

/-- **The next start** resolves what is in effect exactly if no setting was last written with a
blank text, but for those that the environment holds. -/
theorem Ledger.survives_iff (h : Ledger ⟨db, s⟩ saves n')
    (hs : resolve v db seed getenv = .ok s) :
    (∃ s'', resolve v n'.db seed getenv = .ok s'' ∧ ∀ key, s''.get key = n'.settings.get key) ↔
      ∀ key raw, lastWritten saves key = some raw → blank raw = true → s.skips key = true := by
  constructor
  · rintro ⟨s'', hs'', hsame⟩ key raw hlast hb
    refine eq_true_of_ne_false fun hskip ↦ ?_
    obtain ⟨d, hdef⟩ := Option.isSome_iff_exists.mp (known_of_valid (h.valid key raw hlast))
    obtain ⟨hd, rfl⟩ := mem_defs hdef
    have henv : (d.choose db seed getenv).2 ≠ .env := fun heq ↦ by
      rw [(skips_iff hs hd).mpr heq] at hskip
      cases hskip
    obtain ⟨y, hread, hy⟩ := h.written d.key raw hlast hskip
    obtain ⟨x, hx, hget⟩ := get_of_resolve hs'' hd
    -- what is in effect is from the database, and what is resolved is not
    rw [hsame, hy] at hget
    have hsource := (Def.of_read hx).2.2
    rw [← Option.some.inj hget, (Def.of_read hread).2.2, choose_of_ne_env henv, h.db, hlast,
      Option.some_or, prefer_blank hb] at hsource
    exact prefer_source_ne (by decide) (show Source.default ≠ .db by decide) hsource.symm
  · intro hblank
    have hreads := fun d hd ↦ h.reads (d := d) hs hd (hblank d.key)
    obtain ⟨hdefs, hseed, hdb⟩ := exists_resolve_iff.mp ⟨s, hs⟩
    obtain ⟨s'', hs''⟩ : ∃ s'', resolve v n'.db seed getenv = .ok s'' := by
      refine exists_resolve_iff.mpr ⟨fun d hd ↦ ?_, hseed, fun k hk ↦ ?_⟩
      · obtain ⟨x, hx, -⟩ := hreads d hd
        exact ⟨x, hx⟩
      · rw [h.db] at hk
        cases hlast : lastWritten saves k with
        | none =>
          rw [hlast, Option.none_or] at hk
          exact hdb k hk
        | some raw => exact known_of_valid (h.valid k raw hlast)
    refine ⟨s'', hs'', get_ext fun d hd ↦ ?_⟩
    obtain ⟨x, hx, hget⟩ := get_of_resolve hs'' hd
    obtain ⟨y, hy, hyget⟩ := hreads d hd
    rw [hget, hyget]
    exact congrArg some (Except.ok.inj (hx.symm.trans hy))

end

/-! ## Settings survive -/

/-- **Saves and the next start.**  Saves of texts that pass `ValidateOne` do not fail; after them
the next start resolves the values, texts and sources in effect exactly if every setting last
written with a blank text is held by the environment.  An update that fails changes nothing exactly
if the pairs visited before the first that fails have nothing to change. -/
theorem settings_survive_iff (v : Verbs) :
    (∀ (db seed : GoMap String String) (getenv : String → String) (s : Settings),
      resolve v db seed getenv = .ok s → ∀ saves : List Save, (∀ x ∈ saves, x.Valid) →
      ∃ n, Running.saveAll ⟨db, s⟩ saves = .ok n ∧
        ((∃ s', resolve v n.db seed getenv = .ok s' ∧ ∀ key, s'.get key = n.settings.get key) ↔
          ∀ key raw, lastWritten saves key = some raw → blank raw = true →
            s.skips key = true)) ∧
      ∀ (s : Settings) (x : Save), (s.update x.visited).2 ≠ none →
        ((∀ key, (s.update x.visited).1.get key = s.get key) ↔ s.IdleBefore x.visited) := by
  refine ⟨fun db seed getenv s hs saves hvalid ↦ ?_, fun s x h ↦ Settings.update_failed x.nodup h⟩
  obtain ⟨n, hall, hledger⟩ := Ledger.of_valid (Ledger.start ⟨db, s⟩) hvalid
  exact ⟨n, hall, hledger.survives_iff hs⟩

/-! ## A label that is cleared -/

/-- The verbs, for text without anything to escape and whole numbers. -/
def plain : Verbs where
  q s := "\"" ++ s ++ "\""
  g
    | .fin q => toString q.num
    | .inf negative => if negative then "-Inf" else "+Inf"
    | .nan => "NaN"

def noEnv : String → String := fun _ ↦ ""

/-- The settings of a unit with nothing but the defaults. -/
def fresh : Settings :=
  (resolve plain .empty .empty noEnv).toOption.get (by decide +kernel)

/-- The map of one setting. -/
def Save.one (key raw : String) : Save where
  stored := GoMap.empty.put key raw
  visited := [(key, raw)]
  perm := .refl _

theorem Save.one_valid {key raw : String} (h : validateOne key raw = .ok ()) :
    (Save.one key raw).Valid := by
  intro k r hk
  rw [Save.one, GoMap.get_put, GoMap.get_empty] at hk
  split at hk
  · rename_i heq
    rw [heq, ← Option.some.inj hk, h]
  · cases hk

/-- A channel that is no number, after a label. -/
def halfBad : Save where
  stored := (GoMap.empty.put "capture.wifi_channel" "six").put "capture.label" "roof"
  visited := [("capture.label", "roof"), ("capture.wifi_channel", "six")]
  perm := .refl _

theorem exists_ok {ε α : Type} {e : Except ε α} {p : α → Bool}
    (h : (match e with | .ok a => p a | .error _ => false) = true) :
    ∃ a, e = .ok a ∧ p a = true := by
  cases e with
  | ok a => exact ⟨a, rfl, h⟩
  | error err => cases h

theorem ok_get {ε α : Type} {e : Except ε α} (h : e.toOption.isSome = true) :
    .ok (e.toOption.get h) = e := by
  cases e with
  | ok a => rfl
  | error err => cases h

theorem resolve_fresh : resolve plain .empty .empty noEnv = .ok fresh := (ok_get _).symm

theorem settings_survive_iff_fresh :
    ∃ n, Running.saveAll ⟨.empty, fresh⟩ [.one "capture.label" "roof"] = .ok n ∧
      ∃ s', resolve plain n.db .empty noEnv = .ok s' ∧ ∀ key, s'.get key = n.settings.get key := by
  obtain ⟨n, hall, hiff⟩ := (settings_survive_iff plain).1 .empty .empty noEnv fresh resolve_fresh
    [.one "capture.label" "roof"] (by
      rw [List.forall_mem_singleton]
      exact Save.one_valid (by decide))
  refine ⟨n, hall, hiff.mpr fun key raw hlast hb ↦ ?_⟩
  rw [← List.nil_append [Save.one _ _], lastWritten_append] at hlast
  change ((GoMap.empty.put "capture.label" "roof").get key).or none = some raw at hlast
  rw [GoMap.get_put, GoMap.get_empty, Option.or_none] at hlast
  split at hlast
  · rw [← Option.some.inj hlast] at hb
    exact absurd hb (by decide)
  · cases hlast

/-- A label that is cleared comes back at the next start, and an update with a channel that is no
number has changed the label. -/
theorem label_returns :
    resolve plain .empty .empty noEnv = .ok fresh ∧
    validateOne "capture.label" "" = .ok () ∧
    (∃ n, Running.saveAll ⟨.empty, fresh⟩ [.one "capture.label" ""] = .ok n ∧
      ¬∃ s', resolve plain n.db .empty noEnv = .ok s' ∧
        ∀ key, s'.get key = n.settings.get key) ∧
    (fresh.update halfBad.visited).2 ≠ none ∧
    ¬∀ key, (fresh.update halfBad.visited).1.get key = fresh.get key := by
  refine ⟨resolve_fresh, by decide, ?_, by decide +kernel, fun h ↦ ?_⟩
  · obtain ⟨n, hn, hne⟩ := exists_ok
      (e := Running.saveAll ⟨.empty, fresh⟩ [.one "capture.label" ""])
      (p := fun n ↦ match resolve plain n.db .empty noEnv with
        | .ok s' => decide (s'.get "capture.label" ≠ n.settings.get "capture.label")
        | .error _ => false) (by decide +kernel)
    refine ⟨n, hn, ?_⟩
    rintro ⟨s', hs', hsame⟩
    rw [hs'] at hne
    exact of_decide_eq_true hne (hsame "capture.label")
  · exact absurd (h "capture.label") (by decide +kernel)

end ClassG.Config
