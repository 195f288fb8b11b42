import ClassG.Program
import ClassG.Store.Accounts
import ClassG.Store.Contents

/-!
# Settings and telemetry in both stores

What a unit keeps about itself: the values of its settings, and a sample of its state every so
often.  In memory the samples are one list, in the order of their instants; in the database they are
a table under the text of the instant.

The settings of a database have an `updated_at` that nothing reads; it is left out.
-/

set_option autoImplicit false

/-- A `float64`, of which only some are numbers. -/
inductive GoFloat
  | finite (q : ℚ)
  | inf (negative : Bool)
  | nan
  deriving DecidableEq, Repr

/-- `encoding/json` refuses the others. -/
def GoFloat.isFinite : GoFloat → Bool
  | finite _ => true
  | _ => false

namespace ClassG.Store

/-! ## Samples -/

/-- `TelemetrySensor`. -/
structure TelemetrySensor where
  sensorID : String
  sensorKind : String
  healthy : Bool
  metrics : List (String × GoFloat) := []
  deriving DecidableEq, Repr

/-- `TelemetrySample`. -/
structure TelemetrySample where
  ts : GoTime
  cpuTempC : Option GoFloat := none
  load1 : Option GoFloat := none
  memAvailableKB : Option ℤ := none
  diskFreeBytes : Option ℤ := none
  uptimeS : Option ℤ := none
  sensors : List TelemetrySensor := []
  deriving DecidableEq, Repr

/-- `TelemetryQuery`. -/
structure TelemetryQuery where
  since : GoTime
  until' : GoTime
  limit : ℤ
  deriving DecidableEq, Repr

/-! ## The interface -/

/-- The operations of `store.Store` on settings and telemetry. -/
inductive UnitOp
  | getConfig (key : String)
  | putConfig (key : String) (value : GoBytes)
  | insertTelemetry (sample : TelemetrySample)
  | listTelemetry (q : TelemetryQuery)
  | purgeTelemetry (before : GoTime)
  deriving DecidableEq, Repr

/-- What they return, when there is no error. -/
@[reducible] def UnitOp.Result : UnitOp → Type
  | getConfig _ => GoBytes
  | putConfig _ _ | insertTelemetry _ => Unit
  | listTelemetry _ => List TelemetrySample
  | purgeTelemetry _ => ℕ

instance : (op : UnitOp) → DecidableEq op.Result
  | .getConfig _ => inferInstanceAs (DecidableEq GoBytes)
  | .putConfig _ _ | .insertTelemetry _ => inferInstanceAs (DecidableEq Unit)
  | .listTelemetry _ => inferInstanceAs (DecidableEq (List TelemetrySample))
  | .purgeTelemetry _ => inferInstanceAs (DecidableEq ℕ)

/-- The part of `store.Store`. -/
@[reducible] def unitOps : Interface where
  Op := UnitOp
  Ans op := Except StoreError op.Result

/-! ## In memory -/

/-- The settings and the telemetry of `memstore.Store`. -/
structure MemUnit where
  config : GoMap String GoBytes := .empty
  telemetry : List TelemetrySample := []
  sorted : telemetry.Pairwise fun x y ↦ x.ts < y.ts := by exact .nil

namespace MemUnit

/-- The order of the instants. -/
def inTime (samples : List TelemetrySample) : List TelemetrySample :=
  sortSlice (fun x y ↦ x.ts < y.ts) samples

theorem inTime_perm (samples : List TelemetrySample) : (inTime samples).Perm samples :=
  List.perm_insertionSort ..

theorem inTime_pairwise {samples : List TelemetrySample}
    (h : samples.Pairwise fun x y ↦ x.ts ≠ y.ts) :
    (inTime samples).Pairwise fun x y ↦ x.ts < y.ts := by
  have htotal : Std.Total fun x y : TelemetrySample ↦ (!decide (y.ts < x.ts)) = true :=
    ⟨fun x y ↦ by simp [le_total]⟩
  have htrans : IsTrans TelemetrySample fun x y ↦ (!decide (y.ts < x.ts)) = true :=
    ⟨fun x y z ↦ by simpa using le_trans⟩
  have hle := List.pairwise_insertionSort
    (fun x y : TelemetrySample ↦ (!decide (y.ts < x.ts)) = true) samples
  have hne := h.perm (inTime_perm samples).symm fun hxy ↦ hxy.symm
  exact (hle.and hne).imp fun ⟨hxy, hne⟩ ↦ lt_of_le_of_ne (by simpa using hxy) hne

/-- `InsertTelemetry`: a duplicate timestamp is ignored. -/
def insertTelemetry (m : MemUnit) (sample : TelemetrySample) : MemUnit :=
  if h : ∃ x ∈ m.telemetry, x.ts = sample.ts then m
  else
    { m with
      telemetry := inTime (m.telemetry ++ [sample])
      sorted := inTime_pairwise (List.pairwise_append.mpr
        ⟨m.sorted.imp ne_of_lt, List.pairwise_singleton .., fun x hx y hy heq ↦
          h ⟨x, hx, by rw [heq, List.mem_singleton.mp hy]⟩⟩) }

theorem ts_inj (m : MemUnit) {x y : TelemetrySample} (hx : x ∈ m.telemetry) (hy : y ∈ m.telemetry)
    (heq : x.ts = y.ts) : x = y :=
  List.inj_on_of_nodup_map (List.pairwise_map.mpr (m.sorted.imp ne_of_lt)) hx hy heq

/-- `ListTelemetry`: the loop breaks when the limit is reached, if there is one. -/
def listTelemetry (m : MemUnit) (q : TelemetryQuery) : List TelemetrySample :=
  let out := m.telemetry.filter fun x ↦ ¬(x.ts < q.since ∨ q.until' < x.ts)
  if 0 < q.limit then out.take q.limit.toNat else out

/-- `PurgeTelemetry`. -/
def purgeTelemetry (m : MemUnit) (before : GoTime) : MemUnit :=
  { m with
    telemetry := m.telemetry.filter fun x ↦ ¬x.ts < before
    sorted := m.sorted.filter _ }

/-- The methods of `memstore.Store`. -/
def exec (m : MemUnit) : (op : UnitOp) → unitOps.Ans op × MemUnit
  | .getConfig key => (found (m.config.get key), m)
  | .putConfig key value => (.ok (), { m with config := m.config.put key value })
  | .insertTelemetry sample => (.ok (), m.insertTelemetry sample)
  | .listTelemetry q => (.ok (m.listTelemetry q), m)
  | .purgeTelemetry before =>
    (.ok (m.telemetry.countP (·.ts < before)), m.purgeTelemetry before)

end MemUnit

/-! ## In the database -/

/-- A row of `config`. -/
structure ConfigRow where
  key : String
  value : GoBytes

/-- `telemetryDoc`, as it is decoded from what it was encoded to. -/
structure TelemetryDoc where
  uptimeS : Option ℤ
  sensors : List TelemetrySensor
  deriving DecidableEq

/-- A row of `telemetry`. -/
structure TelemetryRow where
  ts : GoBytes
  cpuTempC : Option GoFloat
  load1 : Option GoFloat
  memAvailableKB : Option ℤ
  diskFreeBytes : Option ℤ
  doc : TelemetryDoc
  deriving DecidableEq

/-- What is kept in a column of type `REAL`: SQLite takes what is not a number for `NULL`. -/
def realColumn (x : Option GoFloat) : Option GoFloat := if x = some .nan then none else x

/-- `json.Marshal` of the `telemetryDoc` of a sample. -/
def marshalDoc (sample : TelemetrySample) : Option TelemetryDoc :=
  if ∀ s ∈ sample.sensors, ∀ x ∈ s.metrics, x.2.isFinite then some ⟨sample.uptimeS, sample.sensors⟩
  else none

/-- The parameters of the statement of `InsertTelemetry`. -/
def TelemetryRow.of (sample : TelemetrySample) (doc : TelemetryDoc) : TelemetryRow where
  ts := toDB sample.ts
  cpuTempC := realColumn sample.cpuTempC
  load1 := realColumn sample.load1
  memAvailableKB := sample.memAvailableKB
  diskFreeBytes := sample.diskFreeBytes
  doc := doc

/-- What `ListTelemetry` makes of a row. -/
def sampleFrom (r : TelemetryRow) : TelemetrySample where
  ts := fromDB r.ts
  cpuTempC := r.cpuTempC
  load1 := r.load1
  memAvailableKB := r.memAvailableKB
  diskFreeBytes := r.diskFreeBytes
  uptimeS := r.doc.uptimeS
  sensors := r.doc.sensors

/-- The tables `config` and `telemetry`. -/
structure SqlUnit where
  config : Keyed ConfigRow.key := .empty
  telemetry : Keyed TelemetryRow.ts := .empty

namespace SqlUnit

/-- `InsertTelemetry`: `ON CONFLICT DO NOTHING`. -/
def insertTelemetry (d : SqlUnit) (sample : TelemetrySample) : Except StoreError Unit × SqlUnit :=
  match marshalDoc sample with
  | none => (.error (.failed "insert telemetry"), d)
  | some doc =>
    if (d.telemetry.get (toDB sample.ts)).isSome then (.ok (), d)
    else (.ok (), { d with telemetry := d.telemetry.put (.of sample doc) })

/-- `ListTelemetry`. -/
def listTelemetry (d : SqlUnit) (q : TelemetryQuery) : List TelemetrySample :=
  let rows := d.telemetry.rows.filter fun r ↦ toDB q.since ≤ r.ts ∧ r.ts ≤ toDB q.until'
  (SqlAccounts.sqlLimit q.limit (rows.insertionSort fun r r' ↦ r.ts ≤ r'.ts)).map sampleFrom

/-- The methods of `libsqlstore.Store`. -/
def exec (d : SqlUnit) : (op : UnitOp) → unitOps.Ans op × SqlUnit
  | .getConfig key => (found ((d.config.get key).map (·.value)), d)
  | .putConfig key value => (.ok (), { d with config := d.config.put ⟨key, value⟩ })
  | .insertTelemetry sample => d.insertTelemetry sample
  | .listTelemetry q => (.ok (d.listTelemetry q), d)
  | .purgeTelemetry before =>
    (.ok (d.telemetry.rows.countP (·.ts < toDB before)),
      { d with telemetry := d.telemetry.deleteWhere (·.ts < toDB before) })

end SqlUnit

/-! ## Mirrors -/

/-- The sample comes back from a row as it was. -/
structure TelemetrySample.Storable (x : TelemetrySample) : Prop where
  ts : GoTime.InRange x.ts
  cpuTempC : x.cpuTempC ≠ some .nan
  load1 : x.load1 ≠ some .nan
  metrics : ∀ s ∈ x.sensors, ∀ y ∈ s.metrics, y.2.isFinite

/-- The row of a sample. -/
def TelemetrySample.row (x : TelemetrySample) : TelemetryRow := .of x ⟨x.uptimeS, x.sensors⟩

theorem sampleFrom_row {x : TelemetrySample} (h : x.Storable) : sampleFrom x.row = x := by
  rw [TelemetrySample.row, sampleFrom, TelemetryRow.of]
  simp only [fromDB_toDB h.ts, realColumn, if_neg h.cpuTempC, if_neg h.load1]

/-- The database has the row of each setting and sample in memory, and memory holds nothing that a
row cannot. -/
structure SqlUnit.Mirrors (d : SqlUnit) (m : MemUnit) : Prop where
  config : ∀ key, d.config.get key = (m.config.get key).map fun value ↦ ⟨key, value⟩
  telemetry : ∀ r, r ∈ d.telemetry.rows ↔ ∃ x ∈ m.telemetry, x.row = r
  storable : ∀ x ∈ m.telemetry, x.Storable

/-- The operation means the same to both stores. -/
def MemUnit.Fits (m : MemUnit) : UnitOp → Prop
  | .insertTelemetry sample => sample.Storable
  | .listTelemetry q =>
    (∀ x ∈ m.telemetry, Comparable x.ts q.since ∧ Comparable x.ts q.until') ∧
      (q.limit = 0 → ∀ x ∈ m.telemetry, x.ts < q.since ∨ q.until' < x.ts)
  | .purgeTelemetry before => ∀ x ∈ m.telemetry, Comparable x.ts before
  | _ => True

namespace SqlUnit.Mirrors

variable {d : SqlUnit} {m : MemUnit}

theorem empty : ({} : SqlUnit).Mirrors {} := by
  refine ⟨fun key ↦ ?_, fun r ↦ ?_, by simp⟩
  · rw [Keyed.get_empty, GoMap.get_empty]
    rfl
  · rw [Keyed.mem_rows, Keyed.get_empty]
    simp

theorem rows_perm (h : d.Mirrors m) : d.telemetry.rows.Perm (m.telemetry.map (·.row)) := by
  have hnodup : (m.telemetry.map (·.row)).Nodup := by
    refine List.pairwise_map.mpr (m.sorted.imp_of_mem fun {x y} hx hy hlt heq ↦ ?_)
    rw [← sampleFrom_row (h.storable x hx), ← sampleFrom_row (h.storable y hy), heq] at hlt
    exact lt_irrefl _ hlt
  refine (List.perm_ext_iff_of_nodup d.telemetry.nodup_rows hnodup).mpr fun r ↦ ?_
  rw [h.telemetry, List.mem_map]

theorem insertTelemetry (h : d.Mirrors m) {sample : TelemetrySample} (hs : sample.Storable) :
    (d.insertTelemetry sample).1 = .ok () ∧
      (d.insertTelemetry sample).2.Mirrors (m.insertTelemetry sample) := by
  have hdoc : marshalDoc sample = some ⟨sample.uptimeS, sample.sensors⟩ := if_pos hs.metrics
  have hdup : (d.telemetry.get (toDB sample.ts)).isSome ↔ ∃ x ∈ m.telemetry, x.ts = sample.ts := by
    rw [Option.isSome_iff_exists]
    constructor
    · rintro ⟨r, hr⟩
      have hkey : r.ts = toDB sample.ts := Keyed.key_of_get hr
      obtain ⟨x, hx, rfl⟩ := (h.telemetry r).mp (Keyed.mem_rows_of_get hr)
      exact ⟨x, hx, (comparable_of_inRange (h.storable x hx).ts hs.ts).eq.mp hkey⟩
    · rintro ⟨x, hx, hts⟩
      have hrow := Keyed.mem_rows.mp ((h.telemetry x.row).mpr ⟨x, hx, rfl⟩)
      exact ⟨x.row, by rwa [← hts]⟩
  rw [SqlUnit.insertTelemetry, hdoc, MemUnit.insertTelemetry]
  by_cases hex : ∃ x ∈ m.telemetry, x.ts = sample.ts
  · simp only [if_pos (hdup.mpr hex), dif_pos hex]
    exact ⟨trivial, h⟩
  · simp only [if_neg (mt hdup.mp hex), dif_neg hex]
    have hmem (x : TelemetrySample) :
        x ∈ MemUnit.inTime (m.telemetry ++ [sample]) ↔ x ∈ m.telemetry ∨ x = sample := by
      rw [(MemUnit.inTime_perm _).mem_iff, List.mem_append, List.mem_singleton]
    refine ⟨trivial, h.config, fun r ↦ ?_, fun x hx ↦ ?_⟩
    · change r ∈ (d.telemetry.put sample.row).rows ↔ _
      rw [Keyed.mem_rows_put, h.telemetry]
      constructor
      · rintro (rfl | ⟨⟨x, hx, rfl⟩, -⟩)
        · exact ⟨sample, (hmem _).mpr (.inr rfl), rfl⟩
        · exact ⟨x, (hmem _).mpr (.inl hx), rfl⟩
      · rintro ⟨x, hx, rfl⟩
        rcases (hmem x).mp hx with hx | rfl
        · refine .inr ⟨⟨x, hx, rfl⟩, fun heq ↦ hex ⟨x, hx, ?_⟩⟩
          exact (comparable_of_inRange (h.storable x hx).ts hs.ts).eq.mp heq
        · exact .inl rfl
    · rcases (hmem x).mp hx with hx | rfl
      · exact h.storable x hx
      · exact hs

theorem listTelemetry (h : d.Mirrors m) {q : TelemetryQuery} (hfits : m.Fits (.listTelemetry q)) :
    d.listTelemetry q = m.listTelemetry q := by
  obtain ⟨hcomp, hzero⟩ := hfits
  let p := fun x : TelemetrySample ↦ decide ¬(x.ts < q.since ∨ q.until' < x.ts)
  let p' := fun r : TelemetryRow ↦ decide (toDB q.since ≤ r.ts ∧ r.ts ≤ toDB q.until')
  have hp (x : TelemetrySample) (hx : x ∈ m.telemetry) : p' x.row = p x := by
    obtain ⟨hsince, huntil⟩ := hcomp x hx
    refine decide_eq_decide.mpr ?_
    rw [not_or, not_lt, not_lt, ← huntil.le, ← not_lt (b := q.since), ← hsince.lt, not_lt]
    rfl
  have hrows : (m.telemetry.map (·.row)).filter p' = (m.telemetry.filter p).map (·.row) := by
    rw [List.filter_map]
    congr 1
    exact List.filter_congr fun x hx ↦ by rw [Function.comp_apply, hp x hx]
  have hmap : ((m.telemetry.filter p).map (·.row)).map sampleFrom = m.telemetry.filter p := by
    rw [List.map_map]
    exact (List.map_congr_left fun x hx ↦
      sampleFrom_row (h.storable x (List.mem_of_mem_filter hx))).trans (List.map_id _)
  have hperm : ((d.telemetry.rows.filter p').map sampleFrom).Perm (m.telemetry.filter p) := by
    rw [← hmap, ← hrows]
    exact (h.rows_perm.filter p').map sampleFrom
  have hsorted : (m.telemetry.filter p).insertionSort (fun x y ↦ x.ts ≤ y.ts) =
      m.telemetry.filter p :=
    ((m.sorted.filter p).imp le_of_lt).insertionSort_eq
  have htake (n : ℕ) : (((d.telemetry.rows.filter p').insertionSort fun r r' ↦ r.ts ≤ r'.ts).map
      sampleFrom).take n = (m.telemetry.filter p).take n := by
    rw [← hsorted]
    refine Keyed.take_sorts (f := TelemetrySample.ts) (h := TelemetryRow.ts) hperm
      (fun _ _ ↦ Iff.rfl) (fun _ _ ↦ Iff.rfl) ?_ ?_
    · intro r hr r' hr' hle
      obtain ⟨x, hx, rfl⟩ := (h.telemetry r).mp (List.mem_of_mem_filter hr)
      obtain ⟨y, hy, rfl⟩ := (h.telemetry r').mp (List.mem_of_mem_filter hr')
      rw [sampleFrom_row (h.storable x hx), sampleFrom_row (h.storable y hy)]
      exact (comparable_of_inRange (h.storable x hx).ts (h.storable y hy).ts).le.mp hle
    · intro x hx y hy hne heq
      exact absurd (m.ts_inj (List.mem_of_mem_filter hx) (List.mem_of_mem_filter hy) heq) hne
  have hlen : ((d.telemetry.rows.filter p').insertionSort fun r r' ↦ r.ts ≤ r'.ts).length =
      (m.telemetry.filter p).length := by
    rw [(List.perm_insertionSort _ _).length_eq, ← hperm.length_eq, List.length_map]
  change (SqlAccounts.sqlLimit q.limit ((d.telemetry.rows.filter p').insertionSort _)).map _ =
    if 0 < q.limit then (m.telemetry.filter p).take q.limit.toNat else m.telemetry.filter p
  rw [SqlAccounts.sqlLimit]
  rcases Int.lt_trichotomy q.limit 0 with hneg | h0 | hpos
  · have hall := htake (m.telemetry.filter p).length
    rw [List.take_of_length_le (by rw [List.length_map, hlen]), List.take_length] at hall
    rw [if_pos hneg, if_neg (by omega), hall]
  · have hnil : m.telemetry.filter p = [] := by
      rw [List.filter_eq_nil_iff]
      exact fun x hx hpx ↦ of_decide_eq_true hpx (hzero h0 x hx)
    rw [if_neg (by omega), if_neg (by omega), hnil, h0]
    rfl
  · rw [if_neg (by omega), if_pos hpos, List.map_take, htake]

/-- **A step of both stores.** -/
theorem exec (h : d.Mirrors m) {op : UnitOp} (hfits : m.Fits op) :
    (d.exec op).1 = (m.exec op).1 ∧ (d.exec op).2.Mirrors (m.exec op).2 := by
  cases op with
  | getConfig key =>
    refine ⟨congrArg found ?_, h⟩
    rw [h.config, Option.map_map]
    exact Option.map_id'
  | putConfig key value =>
    refine ⟨rfl, fun key' ↦ ?_, h.telemetry, h.storable⟩
    change (d.config.put ⟨key, value⟩).get key' = _
    rw [Keyed.get_put]
    change _ = ((m.config.put key value).get key').map _
    rw [GoMap.get_put, h.config]
    by_cases hkey : key' = key
    · simp [hkey]
    · simp [hkey]
  | insertTelemetry sample => exact h.insertTelemetry hfits
  | listTelemetry q => exact ⟨congrArg Except.ok (h.listTelemetry hfits), h⟩
  | purgeTelemetry before =>
    have hp (x : TelemetrySample) (hx : x ∈ m.telemetry) :
        decide (x.row.ts < toDB before) = decide (x.ts < before) :=
      decide_eq_decide.mpr (hfits x hx).lt
    refine ⟨congrArg Except.ok ?_, h.config, fun r ↦ ?_, fun x hx ↦ ?_⟩
    · rw [h.rows_perm.countP_eq, List.countP_map]
      exact List.countP_congr fun x hx ↦ by rw [Function.comp_apply, hp x hx]
    · change r ∈ (d.telemetry.deleteWhere _).rows ↔ ∃ x ∈ m.telemetry.filter _, _
      rw [Keyed.mem_rows_deleteWhere, h.telemetry]
      constructor
      · rintro ⟨⟨x, hx, rfl⟩, hkeep⟩
        rw [hp x hx] at hkeep
        exact ⟨x, List.mem_filter.mpr ⟨hx, by simpa using hkeep⟩, rfl⟩
      · rintro ⟨x, hx, rfl⟩
        obtain ⟨hx, hkeep⟩ := List.mem_filter.mp hx
        exact ⟨⟨x, hx, rfl⟩, by rw [hp x hx]; simpa using hkeep⟩
    · exact h.storable x (List.mem_of_mem_filter hx)

end SqlUnit.Mirrors

end ClassG.Store
