import ClassG.Binary64
import ClassG.ForGo.Map
import ClassG.Machine

/-!
# The terrain cache

`Terrain` answers from its cache only.  A miss puts the cell in `pending` and sends it to the
worker, which fetches one cell after the other and stores what it got.  The critical sections are
the steps here: between any two of them the calls of other goroutines may come, and the worker.

What is counted for `Stats` is left out, and a fetch may come to anything.
-/

set_option autoImplicit false

namespace ClassG.Fusion

/-! ## Cells -/

structure GridCell where
  lat : ℤ
  lon : ℤ
  deriving DecidableEq, Repr

/-- The fields of `TerrainConfig` that are read here. -/
structure TerrainConfig where
  gridDeg : Double := .fin 0
  cacheSize : ℤ := 0
  geoidOffsetM : Double := .fin 0
  deriving DecidableEq

def terrainDefaultGridDeg : Double := .round 0.0003
def terrainDefaultCacheSize : ℤ := 20000

/-- `applyDefaults`. -/
def TerrainConfig.applyDefaults (c : TerrainConfig) : TerrainConfig :=
  { c with
    gridDeg := if c.gridDeg.le (.fin 0) then terrainDefaultGridDeg else c.gridDeg
    cacheSize := if c.cacheSize ≤ 0 then terrainDefaultCacheSize else c.cacheSize }

theorem TerrainConfig.cacheSize_pos (c : TerrainConfig) : 0 < c.applyDefaults.cacheSize := by
  rw [applyDefaults]
  dsimp only
  split
  · decide
  · omega

/-- `x / y`; the grid is not zero. -/
def quotient : Double → Double → Double
  | .fin p, .fin q => .round (p / q)
  | .fin _, .inf _ => .fin 0
  | .inf s, .fin q => .inf (if q < 0 then !s else s)
  | _, _ => .nan

/-- `math.Round`: half away from zero. -/
def mathRound : Double → Double
  | .fin q => .fin (if 0 ≤ q then ⌊q + 1 / 2⌋ else ⌈q - 1 / 2⌉)
  | x => x

/-- `int64(x)`; what it is for a number that does not fit is up to the processor. -/
def toInt64 (other : Double → ℤ) (x : Double) : ℤ :=
  match x with
  | .fin q => if -2 ^ 63 ≤ q ∧ q < 2 ^ 63 then (if 0 ≤ q then ⌊q⌋ else ⌈q⌉) else other x
  | x => other x

/-- `cell`. -/
def TerrainConfig.cell (cfg : TerrainConfig) (other : Double → ℤ) (lat lon : Double) :
    GridCell where
  lat := toInt64 other (mathRound (quotient lat cfg.gridDeg))
  lon := toInt64 other (mathRound (quotient lon cfg.gridDeg))

/-! ## The cache, the cells that are pending, and the queue -/

/-- `Terrain`. -/
structure Terrain where
  cfg : TerrainConfig
  cache : GoMap GridCell Double := .empty
  order : List GridCell := []
  pending : GoMap GridCell Unit := .empty
  requests : List GridCell := []

/-- `cap(t.requests)`. -/
def requestsCap : ℕ := 256

/-- `NewTerrain`. -/
def newTerrain (cfg : TerrainConfig) : Terrain where
  cfg := cfg.applyDefaults

namespace Terrain

/-- `ElevationM`, on a cell: the elevation with the offset, if it is known. -/
def lookup (t : Terrain) (c : GridCell) : Option Double :=
  (t.cache.get c).map fun elevation ↦ elevation.add t.cfg.geoidOffsetM

/-- The first critical section of `schedule`: whether the cell was put in `pending`. -/
def enqueue (t : Terrain) (c : GridCell) : Bool × Terrain :=
  match t.pending.get c with
  | some _ => (false, t)
  | none => (true, { t with pending := t.pending.put c () })

/-- The `select` of `schedule`: whether the cell was sent. -/
def send (t : Terrain) (c : GridCell) : Bool × Terrain :=
  if t.requests.length < requestsCap then (true, { t with requests := t.requests ++ [c] })
  else (false, t)

/-- The second critical section of `schedule`, and that of `fail`. -/
def unpend (t : Terrain) (c : GridCell) : Terrain := { t with pending := t.pending.delete c }

/-- The loop of `store`: the oldest cells go while there are too many. -/
def evict (cacheSize : ℤ) : GoMap GridCell Double → List GridCell →
    GoMap GridCell Double × List GridCell
  | cache, [] => (cache, [])
  | cache, c :: order =>
    if cacheSize < (c :: order).length then evict cacheSize (cache.delete c) order
    else (cache, c :: order)

/-- `store`. -/
def store (t : Terrain) (c : GridCell) (elevation : Double) : Terrain :=
  let t := t.unpend c
  match t.cache.get c with
  | some _ => t
  | none =>
    let kept := evict t.cfg.cacheSize (t.cache.put c elevation) (t.order ++ [c])
    { t with cache := kept.1, order := kept.2 }

end Terrain

/-! ## Goroutines -/

/-- Where a call of `ElevationM` is. -/
inductive Caller
  | idle
  /-- It has missed, and goes on to `schedule`. -/
  | missed (c : GridCell)
  /-- It has put the cell in `pending`. -/
  | inserted (c : GridCell)
  /-- The queue was full. -/
  | dropping (c : GridCell)
  deriving DecidableEq

/-- Where `Run` is.  A worker that is stopped in a fetch leaves the cell. -/
inductive Fetcher
  | waiting
  | fetching (c : GridCell)
  | stopped (c : Option GridCell)
  deriving DecidableEq

/-- The terrain with its callers, of type `ι`, and its worker. -/
structure TerrainState (ι : Type) where
  terrain : Terrain
  caller : ι → Caller := fun _ ↦ .idle
  worker : Fetcher := .waiting

/-- What may come next. -/
inductive TerrainAct (ι : Type)
  /-- A call of `ElevationM`, up to its look into the cache. -/
  | elevationM (i : ι) (lat lon : Double)
  /-- The next step of the call. -/
  | proceed (i : ι)
  | receive
  /-- The fetch is over. -/
  | fetched (r : Except String Double)
  /-- `ctx` is cancelled. -/
  | stop

namespace TerrainState

variable {ι : Type} [DecidableEq ι]

/-- Caller `i` goes on to `x`. -/
def goes (s : TerrainState ι) (i : ι) (t : Terrain) (x : Caller) : TerrainState ι :=
  { s with terrain := t, caller := Function.update s.caller i x }

/-- `ElevationM`: a hit returns at once. -/
def elevationM (other : Double → ℤ) (s : TerrainState ι) (i : ι) (lat lon : Double) :
    TerrainState ι :=
  match s.caller i with
  | .idle =>
    let c := s.terrain.cfg.cell other lat lon
    match s.terrain.lookup c with
    | some _ => s
    | none => s.goes i s.terrain (.missed c)
  | _ => s

/-- `schedule`, one step at a time. -/
def proceed (s : TerrainState ι) (i : ι) : TerrainState ι :=
  match s.caller i with
  | .idle => s
  | .missed c =>
    match s.terrain.enqueue c with
    | (false, t) => s.goes i t .idle
    | (true, t) => s.goes i t (.inserted c)
  | .inserted c =>
    match s.terrain.send c with
    | (true, t) => s.goes i t .idle
    | (false, t) => s.goes i t (.dropping c)
  | .dropping c => s.goes i (s.terrain.unpend c) .idle

/-- `Run` receives a cell. -/
def receive (s : TerrainState ι) : TerrainState ι :=
  match s.worker, s.terrain.requests with
  | .waiting, c :: rest =>
    { s with terrain := { s.terrain with requests := rest }, worker := .fetching c }
  | _, _ => s

/-- `Run` has the answer of its fetch. -/
def fetched (s : TerrainState ι) (r : Except String Double) : TerrainState ι :=
  match s.worker with
  | .fetching c =>
    match r with
    | .ok elevation => { s with terrain := s.terrain.store c elevation, worker := .waiting }
    | .error _ => { s with terrain := s.terrain.unpend c, worker := .waiting }
  | _ => s

/-- `Run` returns. -/
def stop (s : TerrainState ι) : TerrainState ι :=
  match s.worker with
  | .waiting => { s with worker := .stopped none }
  | .fetching c => { s with worker := .stopped (some c) }
  | .stopped _ => s

def take (other : Double → ℤ) (s : TerrainState ι) : TerrainAct ι → TerrainState ι
  | .elevationM i lat lon => s.elevationM other i lat lon
  | .proceed i => s.proceed i
  | .receive => s.receive
  | .fetched r => s.fetched r
  | .stop => s.stop

end TerrainState

/-- The terrain and all that goes on with it.  What is not someone's turn does nothing. -/
def terrainMachine (ι : Type) [DecidableEq ι] (other : Double → ℤ) :
    Machine (TerrainState ι) (TerrainAct ι) where
  init s := ∃ cfg, s = { terrain := newTerrain cfg }
  next s a s' := s' = s.take other a

end ClassG.Fusion
