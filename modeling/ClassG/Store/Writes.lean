import ClassG.Machine
import ClassG.Store.AccountMirror
import ClassG.Store.Agreement
import ClassG.Store.Settings

/-!
# Whether the two stores can be exchanged

The operations on users, sessions, settings and telemetry, put to both stores at once.  As long as
each of them `Fits`, the stores return the same results and the same errors: `answers_agree`.
`answers_disagree` shows what happens otherwise.
-/

set_option autoImplicit false

namespace ClassG.Store

open Auth

/-- An operation of either part of `store.Store`. -/
inductive StoreOp
  | accounts (op : AccountOp)
  | unit (op : UnitOp)
  deriving DecidableEq, Repr

/-- The two parts of `store.Store`. -/
@[reducible] def storeOps : Interface where
  Op := StoreOp
  Ans
    | .accounts op => accountOps.Ans op
    | .unit op => unitOps.Ans op

instance : (op : StoreOp) → DecidableEq (storeOps.Ans op)
  | .accounts op => inferInstanceAs (DecidableEq (Except StoreError op.Result))
  | .unit op => inferInstanceAs (DecidableEq (Except StoreError op.Result))

/-- `memstore.Store`. -/
structure Memory where
  accounts : MemAccounts := {}
  unit : MemUnit := {}

def Memory.exec (lower : Char → Char) (scan : Scan User Session) (m : Memory) :
    (op : StoreOp) → storeOps.Ans op × Memory
  | .accounts op =>
    ((m.accounts.exec lower scan op).1, { m with accounts := (m.accounts.exec lower scan op).2 })
  | .unit op => ((m.unit.exec op).1, { m with unit := (m.unit.exec op).2 })

/-- `libsqlstore.Store`. -/
structure Database where
  accounts : SqlAccounts := .empty
  unit : SqlUnit := {}

def Database.exec (lower : Char → Char) (scan : Scan UserRow SessionRow) (d : Database) :
    (op : StoreOp) → storeOps.Ans op × Database
  | .accounts op =>
    ((d.accounts.exec lower scan op).1, { d with accounts := (d.accounts.exec lower scan op).2 })
  | .unit op => ((d.unit.exec op).1, { d with unit := (d.unit.exec op).2 })

/-! ## Both at once -/

variable {lower : Char → Char}

/-- An operation, and the orders in which the stores go through their rows. -/
structure Asked where
  op : StoreOp
  memory : Scan User Session := {}
  database : Scan UserRow SessionRow := {}

/-- The two stores. -/
structure Stores where
  memory : Memory := {}
  database : Database := {}

/-- The operation, performed by both. -/
def Stores.ask (lower : Char → Char) (s : Stores) (a : Asked) : Stores where
  memory := (s.memory.exec lower a.memory a.op).2
  database := (s.database.exec lower a.database a.op).2

/-- They answer alike. -/
def Stores.Agree (lower : Char → Char) (s : Stores) (a : Asked) : Prop :=
  (s.memory.exec lower a.memory a.op).1 = (s.database.exec lower a.database a.op).1

instance (s : Stores) (a : Asked) : Decidable (s.Agree lower a) :=
  inferInstanceAs (Decidable (_ = _))

/-- Any operations, in any order, on stores that are empty at first. -/
def Stores.machine (lower : Char → Char) : Machine Stores Asked where
  init s := s = {}
  next s a s' := s' = s.ask lower a

/-- The operation means the same to both stores. -/
def Memory.Fits (lower : Char → Char) (m : Memory) : StoreOp → Prop
  | .accounts op => m.accounts.Fits lower op
  | .unit op => m.unit.Fits op

/-- The database holds what memory does. -/
structure Stores.Mirror (s : Stores) : Prop where
  accounts : s.database.accounts.Mirrors s.memory.accounts
  unit : s.database.unit.Mirrors s.memory.unit

theorem Stores.Mirror.ask {s : Stores} (h : s.Mirror) {a : Asked}
    (hfits : s.memory.Fits lower a.op) : s.Agree lower a ∧ (s.ask lower a).Mirror := by
  obtain ⟨op, scan, scan'⟩ := a
  cases op with
  | accounts op =>
    have halike := exec_alike h.accounts scan scan' hfits
    exact ⟨halike.1.symm, halike.2, h.unit⟩
  | unit op =>
    have halike := h.unit.exec hfits
    exact ⟨halike.1.symm, h.accounts, halike.2⟩

theorem mirror_of_run {tr : List (Machine.Step Stores Asked)} {s : Stores}
    (h : (Stores.machine lower).Run tr s) (hfits : ∀ x ∈ tr, x.pre.memory.Fits lower x.act.op) :
    s.Mirror := by
  refine h.invariant_of (C := fun s a ↦ s.memory.Fits lower a.op) hfits ?_ ?_
  · rintro s rfl
    exact ⟨.empty, .empty⟩
  · rintro s a s' hs ha rfl
    exact (hs.ask ha).2

/-- **The stores can be exchanged** in every run whose operations all fit. -/
theorem answers_agree {tr : List (Machine.Step Stores Asked)} {s : Stores}
    (h : (Stores.machine lower).Run tr s) (hfits : ∀ x ∈ tr, x.pre.memory.Fits lower x.act.op) :
    (∀ x ∈ tr, x.pre.Agree lower x.act) ∧
      ∀ a : Asked, s.memory.Fits lower a.op → s.Agree lower a := by
  refine ⟨fun x hx ↦ ?_, fun a ha ↦ ((mirror_of_run h hfits).ask ha).1⟩
  obtain ⟨older, hsuf, hr, -⟩ := h.of_mem hx
  have hmirror := mirror_of_run hr fun y hy ↦
    hfits y (hsuf.subset (List.mem_cons_of_mem _ hy))
  exact (hmirror.ask (hfits x hx)).1

/-! ## Runs of both -/

/-- The stores after the operations. -/
def Stores.after (ops : List StoreOp) : Stores :=
  Machine.replay (Stores.ask id) {} (ops.map fun op ↦ { op })

theorem Stores.run_after (ops : List StoreOp) :
    ∃ tr, (Stores.machine id).Run tr (Stores.after ops) :=
  have hok : Machine.Admits (Stores.ask id) (fun _ _ ↦ True) {} (ops.map fun op ↦ { op }) :=
    .of_forall (fun _ _ ↦ trivial) _ _
  ⟨_, .replay (fun _ _ _ ↦ rfl) _ (.init rfl) hok⟩

/-- An operator, whose account was made at noon. -/
def operator : User where
  userID := "u1"
  username := "kim"
  role := .operator
  createdAt := noon2024
  updatedAt := noon2024

/-- A sample with nothing in it. -/
def emptySample : TelemetrySample where
  ts := noon2024

theorem answers_agree_operator :
    (Stores.after [.accounts (.putUser operator)]).Agree id
      { op := .accounts (.getUser "u1") } := by
  let a : Asked := { op := .accounts (.putUser operator) }
  have hrun : (Stores.machine id).Run [⟨{}, a, ({} : Stores).ask id a⟩] (({} : Stores).ask id a) :=
    .step a _ (.init rfl) rfl
  refine (answers_agree hrun (List.forall_mem_singleton.mpr ?_)).2 _ trivial
  exact ⟨⟨by decide, by decide, by decide⟩, by decide, nofun,
    fun _ ↦ nofun, nofun⟩

/-- **The stores cannot be exchanged.**  They differ on a session that is not there, on a username
that is taken, on a new creation time and on a limit of zero. -/
theorem answers_disagree :
    (∀ ops, ∃ tr, (Stores.machine id).Run tr (Stores.after ops)) ∧
      ¬(Stores.after []).Agree id { op := .accounts (.touchSession "s" noon2024 noon2024) } ∧
      ¬(Stores.after [.accounts (.putUser operator)]).Agree id
        { op := .accounts (.putUser { operator with userID := "u2" }) } ∧
      ¬(Stores.after [.accounts (.putUser operator),
        .accounts (.putUser { operator with createdAt := noon2024 + GoDuration.second })]).Agree id
          { op := .accounts (.getUser "u1") } ∧
      ¬(Stores.after [.unit (.insertTelemetry emptySample)]).Agree id
        { op := .unit (.listTelemetry ⟨noon2024, noon2024, 0⟩) } := by
  refine ⟨Stores.run_after, ?_, ?_, ?_, ?_⟩ <;> decide

end ClassG.Store
