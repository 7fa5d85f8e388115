import CivicLoop.Drafts.Payload

/-!
# The rows of the draft service

One row for each reviewed request to a provider: a `DraftExecution` (an Eventbrite event or an
Iterable campaign) or a `TemplateExecution`. The two models have the same fields, the same constraints
and the same `save`, so they share one structure here, and a row is named by its model and its key.

`save` reads the stored row and checks the new one against it, and then writes the new one in a
statement of its own; it is split into `Execution.checkSave` and the write.

## Main definitions

* `ExecutionStatus`, `ExecutionStatus.transitions` : the life of a row.
* `RequestFields`, `ReviewFields`, `Execution` : a row; `Execution.constraintsOk` : the constraints of its table.
* `Execution.checkSave` : the checks of `save`.
* `Executions` : the two tables.
* `Platform` : the write flags and the provider connections.

## References

Source: `backend/integrations/models.py`, lines 13–33, 118–150 and 266–618.
-/

namespace CivicLoop.Drafts

variable {D : Type}

/-- `Status`. -/
inductive ExecutionStatus
  | pending
  | approved
  | executing
  | succeeded
  | failed
  | unknown
deriving DecidableEq, Repr

/-- The table of transitions in `save`. -/
def ExecutionStatus.transitions : ExecutionStatus → List ExecutionStatus
  | pending => [pending, approved]
  | approved => [approved, executing]
  | executing => [executing, unknown, failed, succeeded]
  | unknown => [unknown, succeeded]
  | failed => [failed]
  | succeeded => [succeeded]

/-- The two models. -/
inductive ExecutionModel
  | draft
  | template
deriving DecidableEq, Repr

/-- What a provider is asked for. -/
structure RequestFields (D : Type) where
  action : DraftAction
  organizationId : Text D
  eventId : Text D
  expectedReadbackDigest : Text D
  payload : Json D
  providerConfiguration : Json D

/-- The fields that `save` keeps. -/
structure ReviewFields (D : Type) extends RequestFields D where
  intent : Uuid
  run : Uuid
  submitter : ℕ
  requestDigest : D
  reviewDigest : D

/-- A `DraftExecution` or a `TemplateExecution`. -/
structure Execution (D : Type) extends ReviewFields D where
  approver : Option ℕ
  approvedAt : Option Time
  approvalSession : Option Uuid
  status : ExecutionStatus
  receipt : Option (Json D)
  providerId : Text D
  errorCategory : String
  claimedAt : Option Time
  completedAt : Option Time

/-- A row as it is created. -/
def ReviewFields.pending (review : ReviewFields D) : Execution D where
  toReviewFields := review
  approver := none
  approvedAt := none
  approvalSession := none
  status := .pending
  receipt := none
  providerId := .lit ""
  errorCategory := ""
  claimedAt := none
  completedAt := none

variable [DecidableEq D]

/-- The check constraints `..._approval_required` and `..._execution_lifecycle`; those on the status
and on the action are in the types. -/
def Execution.constraintsOk (row : Execution D) : Bool :=
  (if row.status = .pending then
    row.approver.isNone && row.approvalSession.isNone && row.approvedAt.isNone &&
      row.claimedAt.isNone
  else row.approver.isSome && row.approvedAt.isSome && row.approvalSession.isSome) &&
  match row.status with
  | .pending | .approved =>
    row.claimedAt.isNone && row.completedAt.isNone && row.receipt.isNone &&
      decide (row.providerId = .lit "") && row.errorCategory == ""
  | .executing =>
    row.claimedAt.isSome && row.completedAt.isNone && row.receipt.isNone && row.errorCategory == ""
  | .unknown | .failed => row.claimedAt.isSome && row.completedAt.isSome
  | .succeeded =>
    row.claimedAt.isSome && row.completedAt.isSome && row.receipt.isSome &&
      !decide (row.providerId = .lit "")

/-- Two reviews are equal; dictionaries are equal when they have the same items. -/
def ReviewFields.same (review review' : ReviewFields D) : Bool :=
  decide (review.intent = review'.intent ∧ review.run = review'.run ∧
    review.submitter = review'.submitter ∧ review.action = review'.action ∧
    review.organizationId = review'.organizationId ∧ review.eventId = review'.eventId ∧
    review.expectedReadbackDigest = review'.expectedReadbackDigest ∧
    review.payload.canon = review'.payload.canon ∧
    review.providerConfiguration.canon = review'.providerConfiguration.canon ∧
    review.requestDigest = review'.requestDigest ∧ review.reviewDigest = review'.reviewDigest)

/-- The text with which `save` refuses a changed review. -/
def ExecutionModel.immutable : ExecutionModel → String
  | draft => "Draft execution review and approval are immutable."
  | template => "Template execution review and approval are immutable."

/-- The checks of `save` of the row `row` over the stored row `old`. -/
def Execution.checkSave (model : ExecutionModel) (old row : Execution D) :
    Except DraftError Unit := do
  ensure (old.toReviewFields.same row.toReviewFields ∧ (old.approver.isNone ∨
    (old.approver = row.approver ∧ old.approvedAt = row.approvedAt ∧
      old.approvalSession = row.approvalSession))) (.validationError model.immutable)
  ensure (row.status ∈ old.status.transitions ∧
    (old.claimedAt.isNone ∨ row.claimedAt = old.claimedAt) ∧
    (old.completedAt.isNone ∨ row.completedAt.isSome))
    (.validationError "Execution claim history cannot be reset.")

/-! ### The tables -/

/-- A row: its model and its key. -/
abbrev ExecutionRef := ExecutionModel × Uuid

/-- The two tables. -/
structure Executions (D : Type) where
  drafts : Table Uuid (Execution D)
  templates : Table Uuid (Execution D)

namespace Executions

def empty : Executions D := ⟨.empty, .empty⟩

/-- The table of a model. -/
def table (e : Executions D) : ExecutionModel → Table Uuid (Execution D)
  | .draft => e.drafts
  | .template => e.templates

/-- The tables, with the table of a model replaced. -/
def withTable (e : Executions D) (model : ExecutionModel) (t : Table Uuid (Execution D)) :
    Executions D :=
  match model with
  | .draft => { e with drafts := t }
  | .template => { e with templates := t }

def get? (e : Executions D) (ref : ExecutionRef) : Option (Execution D) :=
  (e.table ref.1).get? ref.2

/-- The row of an intent, which is at most one. -/
def ofIntent (e : Executions D) (model : ExecutionModel) (intent : Uuid) :
    Option (Uuid × Execution D) :=
  (e.table model).find? fun _ row => row.intent == intent

/-- `INSERT`. -/
def insert? (e : Executions D) (ref : ExecutionRef) (row : Execution D) : Option (Executions D) :=
  ((e.table ref.1).insert? ref.2 row).map (e.withTable ref.1)

/-- `UPDATE` of the row with the key. -/
def set (e : Executions D) (ref : ExecutionRef) (row : Execution D) : Executions D :=
  e.withTable ref.1 ((e.table ref.1).set ref.2 row)

omit [DecidableEq D] in
@[simp] theorem get?_empty (ref : ExecutionRef) : (empty : Executions D).get? ref = none := by
  obtain ⟨_ | _, id⟩ := ref <;> rfl

omit [DecidableEq D] in
theorem table_withTable (e : Executions D) (model model' : ExecutionModel)
    (t : Table Uuid (Execution D)) :
    (e.withTable model t).table model' = if model' = model then t else e.table model' := by
  cases model <;> cases model' <;> rfl

omit [DecidableEq D] in
/-- Reading after an update. -/
theorem get?_set (e : Executions D) (ref : ExecutionRef) (row : Execution D)
    (ref' : ExecutionRef) :
    (e.set ref row).get? ref' =
      if ref' = ref then (e.get? ref).map fun _ => row else e.get? ref' := by
  obtain ⟨model, id⟩ := ref
  obtain ⟨model', id'⟩ := ref'
  rw [get?, set, table_withTable]
  by_cases hm : model' = model
  · subst hm
    simp only [if_true, Table.get?_set, Prod.mk.injEq, true_and]
    rfl
  · simp [hm, get?]

omit [DecidableEq D] in
theorem get?_set_self {e : Executions D} {ref : ExecutionRef} {row₀ : Execution D}
    (h : e.get? ref = some row₀) (row : Execution D) : (e.set ref row).get? ref = some row := by
  rw [get?_set, if_pos rfl, h, Option.map_some]

omit [DecidableEq D] in
/-- Reading after an insertion. -/
theorem get?_of_insert? {e e' : Executions D} {ref : ExecutionRef} {row : Execution D}
    (h : e.insert? ref row = some e') (ref' : ExecutionRef) :
    e'.get? ref' = if ref' = ref then some row else e.get? ref' := by
  obtain ⟨t, ht, rfl⟩ := Option.map_eq_some_iff.1 h
  obtain ⟨model, id⟩ := ref
  obtain ⟨model', id'⟩ := ref'
  rw [get?, table_withTable]
  by_cases hm : model' = model
  · subst hm
    simp only [if_true, Table.get?_of_insert? ht, Prod.mk.injEq, true_and]
    rfl
  · simp [hm, get?]

omit [DecidableEq D] in
theorem get?_eq_none_of_insert? {e e' : Executions D} {ref : ExecutionRef} {row : Execution D}
    (h : e.insert? ref row = some e') : e.get? ref = none := by
  obtain ⟨t, ht, -⟩ := Option.map_eq_some_iff.1 h
  exact (Table.insert?_eq_some ht).1

end Executions

/-! ### Provider connections -/

inductive ConnectionState
  | notConfigured
  | configured
  | healthy
  | degraded
  | disabled
deriving DecidableEq, Repr

inductive SecretStatus
  | active
  | disabled
deriving DecidableEq, Repr

/-- The connection of a provider, with the status of its secret. -/
structure IntegrationConnection (D : Type) where
  state : ConnectionState
  secret : Option SecretStatus
  configuration : Json D

/-- What the draft service reads and others set: the write flags of the environment and the provider
connections. -/
structure Platform (D : Type) where
  eventbriteWrites : Bool
  iterableWrites : Bool
  connection : DraftProvider → Option (IntegrationConnection D)

end CivicLoop.Drafts
