import CivicLoop.Foundation.Transition
import CivicLoop.LaunchLoop.Services

/-!
# Four eyes

What an approver sees is what was prepared of the current revision, and stays so until it is decided. The
package, its hash, the revision, the request and the status stand in different rows; `Coherent` says, for
each status, how those of one synthetic workflow fit together. An operation touches the rows of one
workflow (`Touches`), so that it is enough to look at this one; a reset only deletes, and adds a draft.

## Main definitions

* `Request`, `step` : the requests, by any actors, and the database after one.
* `Coherent`, `Sound` : the invariant.
* `FourEyes` : what holds in every reached state.

## Main results

* `Sound.step` : every request keeps the invariant.
* `fourEyes` : a pending request is for the package of the current revision of a workflow in review, a
  completed workflow was approved by another actor, and nothing but a reset or a decision changes what is
  in review.
-/

namespace CivicLoop.LaunchLoop

/-! ### Requests -/

/-- A request by the actor with a slug, with the identifiers of the rows it makes. -/
inductive Request
  | reset (users : ℕ × ℕ) (ids : NewIds)
  | run (workflowId : Uuid) (actorId : String) (transitionId : ℕ)
  | answer (workflowId : Uuid) (actorId : String) (answers : Message) (revisionId transitionId : ℕ)
  | submit (workflowId : Uuid) (actorId : String) (approvalId : Uuid) (transitionId : ℕ)
  | decide (approvalId : Uuid) (actorId : String) (decision submittedHash reason : String)
      (ids : DecisionIds)

section Requests

variable (py : Interpreter) (sha256 : Message → String) (ownerPackage : Message → Option Message)

/-- The service that a request calls. -/
def handle (now : Time) (request : Request) (db : Db) : Except ServiceError (Unit × Db) :=
  match request with
  | .reset users ids => (resetDemo users ids now db).map fun r => ((), r.2)
  | .run workflowId actorId transitionId => do
    let actor ← fetch (db.actors.get? actorId) .notFound
    runWorkflow py sha256 ownerPackage workflowId actorId actor transitionId now db
  | .answer workflowId actorId answers revisionId transitionId => do
    let actor ← fetch (db.actors.get? actorId) .notFound
    answerQuestions py workflowId actorId actor answers revisionId transitionId now db
  | .submit workflowId actorId approvalId transitionId => do
    let actor ← fetch (db.actors.get? actorId) .notFound
    (submitWorkflow workflowId actorId actor approvalId transitionId now db).map fun r => ((), r.2)
  | .decide approvalId actorId decision submittedHash reason ids => do
    let actor ← fetch (db.actors.get? actorId) .notFound
    decideApproval approvalId actorId actor decision submittedHash reason ids now db

/-- The database after a request at a time. -/
def step (db : Db) (request : Request × Time) : Db :=
  commit db (handle py sha256 ownerPackage request.2 request.1 db)

end Requests

/-! ### What an operation has done -/

theorem transition_eq_ok {db db' : Db} {workflowId : Uuid} {actor : String} {toStatus : Status}
    {action : String} {details : Message} {transitionId : ℕ} {now : Time}
    (h : db.transition workflowId actor toStatus action details transitionId now = .ok db') :
    ∃ w transitions, db.workflows.get? workflowId = some w ∧
      db' = { db with
        workflows := db.workflows.set workflowId { w with status := toStatus }, transitions } := by
  obtain ⟨w, hw, h⟩ := bind_eq_ok.1 h
  obtain ⟨transitions, -, h⟩ := bind_eq_ok.1 h
  exact ⟨w, transitions, fetch_eq_ok.1 hw, (pure_eq_ok.1 h).symm⟩

/-- A row that is written and then moved is written once. -/
theorem transition_set_eq_ok (db : Db) {db' : Db} {workflowId : Uuid} {w₀ w : Workflow} {actor : String}
    {toStatus : Status} {action : String} {details : Message} {transitionId : ℕ} {now : Time}
    (hw : db.workflows.get? workflowId = some w₀)
    (h : ({ db with workflows := db.workflows.set workflowId w } : Db).transition workflowId actor toStatus
      action details transitionId now = .ok db') :
    ∃ transitions, db' = { db with
      workflows := db.workflows.set workflowId { w with status := toStatus }, transitions } := by
  obtain ⟨w', transitions, hw', rfl⟩ := transition_eq_ok h
  rw [Table.get?_set_self hw, Option.some.injEq] at hw'
  subst hw'
  exact ⟨transitions, by rw [Table.set_set]⟩

theorem workflowOf_eq_ok {db : Db} {workflowId : Uuid} {w : Workflow} {r : EventRevision}
    (h : db.workflowOf workflowId = .ok (w, r)) :
    db.workflows.get? workflowId = some w ∧ db.revisions.get? w.revision = some r := by
  obtain ⟨w', hw, h⟩ := bind_eq_ok.1 h
  obtain ⟨r', hr, h⟩ := bind_eq_ok.1 h
  obtain ⟨rfl, rfl⟩ := Prod.mk.inj (pure_eq_ok.1 h)
  exact ⟨fetch_eq_ok.1 hw, fetch_eq_ok.1 hr⟩

section Effects

variable {py : Interpreter} {sha256 : Message → String} {ownerPackage : Message → Option Message}
variable {db db' : Db} {workflowId approvalId : Uuid} {actorId : String} {actor : DemoActor} {now : Time}

theorem runWorkflow_eq_ok {transitionId : ℕ} {u : Unit}
    (h : runWorkflow py sha256 ownerPackage workflowId actorId actor transitionId now db = .ok (u, db')) :
    ∃ w r package transitions, db.workflows.get? workflowId = some w ∧
      db.revisions.get? w.revision = some r ∧ w.status = .draft ∧
      packageOf py ownerPackage r = some package ∧
      db' = { db with
        workflows := db.workflows.set workflowId
          { w with
            package := some package, packageHash := packageHash sha256 package,
            status := if package.get? "status" = some (.lit "ready_for_review") then .readyForReview
              else .needsInput }
        transitions } := by
  obtain ⟨⟨w, r⟩, hwr, h⟩ := bind_eq_ok.1 h
  obtain ⟨hw, hr⟩ := workflowOf_eq_ok hwr
  obtain ⟨-, -, h⟩ := bind_eq_ok.1 h
  obtain ⟨_, hs, h⟩ := bind_eq_ok.1 h
  obtain ⟨package, hp, h⟩ := bind_eq_ok.1 h
  obtain ⟨db₁, h₁, h⟩ := bind_eq_ok.1 h
  obtain ⟨-, rfl⟩ := Prod.mk.inj (pure_eq_ok.1 h)
  obtain ⟨transitions, rfl⟩ := transition_set_eq_ok db hw h₁
  exact ⟨w, r, package, transitions, hw, hr, ensure_eq_ok.1 hs, fetch_eq_ok.1 hp, rfl⟩

theorem answerQuestions_eq_ok {answers : Message} {revisionId transitionId : ℕ} {u : Unit}
    (h : answerQuestions py workflowId actorId actor answers revisionId transitionId now db =
      .ok (u, db')) :
    ∃ w r revisions, ∃ missing : Bool, ∃ transitions, db.workflows.get? workflowId = some w ∧
      db.revisions.get? w.revision = some r ∧ sourceKind r = .synthetic ∧ w.status = .needsInput ∧
      db.revisions.insert? revisionId
        ⟨w.event, r.version + 1, updateSnapshot r.snapshot (answeredFields py answers), actorId, none⟩ =
          some revisions ∧
      db' = { db with
        revisions
        executions := db.executions.deleteWhere fun x =>
          (db.approvals.get? x.approval).any fun a => a.workflow = workflowId
        approvals := db.approvals.deleteWhere fun a => a.workflow = workflowId
        workflows := db.workflows.set workflowId
          { w with
            revision := revisionId, package := none, packageHash := "",
            status := if missing then .needsInput else .draft }
        transitions } := by
  obtain ⟨⟨w, r⟩, hwr, h⟩ := bind_eq_ok.1 h
  obtain ⟨hw, hr⟩ := workflowOf_eq_ok hwr
  obtain ⟨_, hsynthetic, h⟩ := bind_eq_ok.1 h
  obtain ⟨-, -, h⟩ := bind_eq_ok.1 h
  obtain ⟨_, hs, h⟩ := bind_eq_ok.1 h
  obtain ⟨-, -, h⟩ := bind_eq_ok.1 h
  obtain ⟨-, -, h⟩ := bind_eq_ok.1 h
  obtain ⟨revisions, hrevisions, h⟩ := bind_eq_ok.1 h
  obtain ⟨db₁, h₁, h⟩ := bind_eq_ok.1 h
  obtain ⟨-, rfl⟩ := Prod.mk.inj (pure_eq_ok.1 h)
  obtain ⟨w', transitions, hw', rfl⟩ := transition_eq_ok h₁
  rw [Table.get?_set_self hw, Option.some.injEq] at hw'
  subst hw'
  refine ⟨w, r, revisions,
    missingAnswers py (updateSnapshot r.snapshot (answeredFields py answers)) ≠ [], transitions, hw, hr,
    ensure_eq_ok.1 hsynthetic, ensure_eq_ok.1 hs, fetch_eq_ok.1 hrevisions, ?_⟩
  simp only [Table.set_set, decide_not, Bool.not_eq_true', decide_eq_false_iff_not, ite_not]

theorem submitWorkflow_eq_ok {transitionId : ℕ} {v : Uuid}
    (h : submitWorkflow workflowId actorId actor approvalId transitionId now db = .ok (v, db')) :
    ∃ w r approvals transitions, db.workflows.get? workflowId = some w ∧
      db.revisions.get? w.revision = some r ∧ sourceKind r = .synthetic ∧ w.status = .readyForReview ∧
      (∀ id a, db.approvals.get? id = some a → a.workflow ≠ workflowId) ∧
      db.approvals.insert? approvalId ⟨workflowId, actorId, none, w.packageHash, .pending, ""⟩ =
        some approvals ∧
      db' = { db with
        approvals
        workflows := db.workflows.set workflowId { w with status := .inReview }
        transitions } := by
  obtain ⟨⟨w, r⟩, hwr, h⟩ := bind_eq_ok.1 h
  obtain ⟨hw, hr⟩ := workflowOf_eq_ok hwr
  obtain ⟨-, -, h⟩ := bind_eq_ok.1 h
  obtain ⟨_, hsynthetic, h⟩ := bind_eq_ok.1 h
  obtain ⟨_, hs, h⟩ := bind_eq_ok.1 h
  obtain ⟨_, hnone, h⟩ := bind_eq_ok.1 h
  obtain ⟨approvals, happrovals, h⟩ := bind_eq_ok.1 h
  obtain ⟨db₁, h₁, h⟩ := bind_eq_ok.1 h
  obtain ⟨-, rfl⟩ := Prod.mk.inj (pure_eq_ok.1 h)
  obtain ⟨w', transitions, hw', rfl⟩ := transition_eq_ok h₁
  rw [show db.workflows.get? workflowId = some w' from hw', Option.some.injEq] at hw
  subst hw
  refine ⟨w', r, approvals, transitions, hw', hr, ensure_eq_ok.1 hsynthetic, (ensure_eq_ok.1 hs).1, ?_,
    fetch_eq_ok.1 happrovals, rfl⟩
  intro id a ha
  have hall := List.all_eq_true.1 (ensure_eq_ok.1 hnone) a (Table.mem_values.2 ⟨id, ha⟩)
  simpa using hall

/-- A request with its decision. -/
def ApprovalRequest.decided (a : ApprovalRequest) (status : ApprovalStatus) (approver reason : String) :
    ApprovalRequest :=
  { a with approver := some approver, status := status, reason := reason }

theorem decideApproval_eq_ok {decision submittedHash reason : String} {ids : DecisionIds} {u : Unit}
    (h : decideApproval approvalId actorId actor decision submittedHash reason ids now db = .ok (u, db')) :
    ∃ a w r transitions, db.approvals.get? approvalId = some a ∧ db.workflows.get? a.workflow = some w ∧
      db.revisions.get? w.revision = some r ∧ sourceKind r = .synthetic ∧ actorId ≠ a.submitter ∧
      actor.role = .approver ∧ a.status = .pending ∧
      ((db' = { db with
          approvals := db.approvals.set approvalId (a.decided .rejected actorId reason)
          workflows := db.workflows.set a.workflow
            { w with package := none, packageHash := "", status := .needsInput }
          transitions }) ∨
        ∃ key receipt executions,
          (∀ id x, db.executions.get? id = some x → x.approval ≠ approvalId) ∧
          db.executions.insert? ids.execution ⟨approvalId, key, receipt⟩ = some executions ∧
          db' = { db with
            approvals := db.approvals.set approvalId (a.decided .approved actorId reason)
            executions
            workflows := db.workflows.set a.workflow { w with status := .completed }
            transitions }) := by
  obtain ⟨a, ha, h⟩ := bind_eq_ok.1 h
  obtain ⟨⟨w, r⟩, hwr, h⟩ := bind_eq_ok.1 h
  obtain ⟨hw, hr⟩ := workflowOf_eq_ok hwr
  obtain ⟨_, hsynthetic, h⟩ := bind_eq_ok.1 h
  obtain ⟨_, hself, h⟩ := bind_eq_ok.1 h
  obtain ⟨_, hrole, h⟩ := bind_eq_ok.1 h
  obtain ⟨_, hpending, h⟩ := bind_eq_ok.1 h
  obtain ⟨-, -, h⟩ := bind_eq_ok.1 h
  obtain ⟨-, -, h⟩ := bind_eq_ok.1 h
  have hhead := ensure_eq_ok.1 hsynthetic
  simp only at h
  split_ifs at h with hdecision
  · obtain ⟨db₁, h₁, h⟩ := bind_eq_ok.1 h
    obtain ⟨-, rfl⟩ := Prod.mk.inj (pure_eq_ok.1 h)
    obtain ⟨transitions, rfl⟩ := transition_set_eq_ok
      { db with approvals := db.approvals.set approvalId (a.decided .rejected actorId reason) } hw h₁
    exact ⟨a, w, r, transitions, fetch_eq_ok.1 ha, hw, hr, hhead, ensure_eq_ok.1 hself,
      ensure_eq_ok.1 hrole, ensure_eq_ok.1 hpending, .inl rfl⟩
  · obtain ⟨db₁, h₁, h⟩ := bind_eq_ok.1 h
    obtain ⟨-, rfl⟩ := Prod.mk.inj (pure_eq_ok.1 h)
    obtain ⟨db₂, h₂, h₁⟩ := bind_eq_ok.1 h₁
    obtain ⟨w₂, transitions₂, hw₂, rfl⟩ := transition_eq_ok h₂
    obtain ⟨_, hnone, h₁⟩ := bind_eq_ok.1 h₁
    obtain ⟨executions, hexecutions, h₁⟩ := bind_eq_ok.1 h₁
    rw [show db.workflows.get? a.workflow = some w₂ from hw₂, Option.some.injEq] at hw
    subst hw
    obtain ⟨transitions, rfl⟩ := transition_set_eq_ok
      { db with
        approvals := db.approvals.set approvalId (a.decided .approved actorId reason)
        executions
        transitions := transitions₂ } hw₂ h₁
    refine ⟨a, w₂, r, transitions, fetch_eq_ok.1 ha, hw₂, hr, hhead, ensure_eq_ok.1 hself,
      ensure_eq_ok.1 hrole, ensure_eq_ok.1 hpending, .inr ⟨_, _, executions, ?_, fetch_eq_ok.1 hexecutions,
        rfl⟩⟩
    intro id x hx
    have hall := List.all_eq_true.1 (ensure_eq_ok.1 hnone) x (Table.mem_values.2 ⟨id, hx⟩)
    simp only [Bool.and_eq_true, decide_eq_true_eq] at hall
    exact hall.1

theorem resetDemo_eq_ok {users : ℕ × ℕ} {ids : NewIds} {v : Uuid}
    (h : resetDemo users ids now db = .ok (v, db')) :
    ∃ events revisions workflows transitions,
      db.withoutDemo.revisions.insert? ids.revision ⟨ids.event, 1, newYorkEvent, "maya", none⟩ =
        some revisions ∧
      db.withoutDemo.workflows.insert? ids.workflow ⟨ids.event, ids.revision, .draft, none, ""⟩ =
        some workflows ∧
      db' = { db.withoutDemo.seedActors users with events, revisions, workflows, transitions } := by
  obtain ⟨-, -, h⟩ := bind_eq_ok.1 h
  obtain ⟨-, -, h⟩ := bind_eq_ok.1 h
  obtain ⟨events, -, h⟩ := bind_eq_ok.1 h
  obtain ⟨revisions, hrevisions, h⟩ := bind_eq_ok.1 h
  obtain ⟨workflows, hworkflows, h⟩ := bind_eq_ok.1 h
  obtain ⟨transitions, -, h⟩ := bind_eq_ok.1 h
  obtain ⟨-, rfl⟩ := Prod.mk.inj (pure_eq_ok.1 h)
  exact ⟨events, revisions, workflows, transitions, fetch_eq_ok.1 hrevisions, fetch_eq_ok.1 hworkflows, rfl⟩

end Effects

/-! ### The invariant -/

section Invariant

variable (py : Interpreter) (sha256 : Message → String)

/-- The stored package is the one of the revision, and the stored hash is its hash. -/
def Prepared (w : Workflow) (r : EventRevision) : Prop :=
  ∃ package, w.package = some package ∧ preparePackage py r.snapshot = some package ∧
    w.packageHash = packageHash sha256 package

namespace Db

variable (db : Db)

/-- A synthetic workflow with its current revision. -/
def Synthetic (id : Uuid) (w : Workflow) (r : EventRevision) : Prop :=
  db.workflows.get? id = some w ∧ db.revisions.get? w.revision = some r ∧ sourceKind r = .synthetic

/-- The workflow has one approval request. -/
def OnlyApproval (id approvalId : Uuid) (a : ApprovalRequest) : Prop :=
  db.approvals.get? approvalId = some a ∧ a.workflow = id ∧
    ∀ approvalId' a', db.approvals.get? approvalId' = some a' → a'.workflow = id → approvalId' = approvalId

/-- The connector was executed once for an approval. -/
def ExecutedOnce (approvalId : Uuid) : Prop :=
  ∃ executionId x, db.executions.get? executionId = some x ∧ x.approval = approvalId ∧
    ∀ executionId' x', db.executions.get? executionId' = some x' → x'.approval = approvalId →
      executionId' = executionId

/-- The request was approved by an approver who had not submitted it. -/
def ApprovedByAnother (a : ApprovalRequest) : Prop :=
  a.status = .approved ∧ ∃ slug actor, a.approver = some slug ∧ slug ≠ a.submitter ∧
    db.actors.get? slug = some actor ∧ actor.role = .approver

/-- How the rows of a workflow fit together, by its status. -/
def Coherent (id : Uuid) (w : Workflow) (r : EventRevision) : Prop :=
  match w.status with
  | .draft => ∀ approvalId a, db.approvals.get? approvalId = some a → a.workflow ≠ id
  | .needsInput => ∀ approvalId a, db.approvals.get? approvalId = some a → a.workflow = id →
      a.status = .rejected
  | .readyForReview => Prepared py sha256 w r ∧
      ∀ approvalId a, db.approvals.get? approvalId = some a → a.workflow ≠ id
  | .inReview => Prepared py sha256 w r ∧ ∃ approvalId a, db.OnlyApproval id approvalId a ∧
      a.status = .pending ∧ a.packageHash = w.packageHash
  | .approved => False
  | .completed => Prepared py sha256 w r ∧ ∃ approvalId a, db.OnlyApproval id approvalId a ∧
      db.ApprovedByAnother a ∧ a.packageHash = w.packageHash ∧ db.ExecutedOnce approvalId

/-- The two users of the demo are there, in their roles. -/
def Seeded : Prop :=
  (∃ actor, db.actors.get? "maya" = some actor ∧ actor.role = .operator) ∧
    ∃ actor, db.actors.get? "jordan" = some actor ∧ actor.role = .approver

/-- The rows refer to rows that exist. -/
structure Linked : Prop where
  revision : ∀ id w, db.workflows.get? id = some w →
    ∃ r, db.revisions.get? w.revision = some r ∧ r.event = w.event
  approval : ∀ id a, db.approvals.get? id = some a → ∃ w, db.workflows.get? a.workflow = some w
  execution : ∀ id x, db.executions.get? id = some x → ∃ a, db.approvals.get? x.approval = some a

/-- The invariant. -/
structure Sound : Prop where
  linked : db.Linked
  seeded : ∀ id w r, db.Synthetic id w r → db.Seeded
  coherent : ∀ id w r, db.Synthetic id w r → db.Coherent py sha256 id w r

/-- Rows of owners may be there, but no synthetic workflow. -/
def Initial : Prop := db.Linked ∧ ∀ id w r, ¬db.Synthetic id w r

variable {py sha256 db}

theorem Initial.sound (h : db.Initial) : db.Sound py sha256 where
  linked := h.1
  seeded id w r hs := absurd hs (h.2 id w r)
  coherent id w r hs := absurd hs (h.2 id w r)

/-- What concerns one workflow is the same in two databases. -/
structure SameFor (id : Uuid) (db db' : Db) : Prop where
  approvals : ∀ approvalId a, a.workflow = id →
    (db'.approvals.get? approvalId = some a ↔ db.approvals.get? approvalId = some a)
  executions : ∀ approvalId a, db.approvals.get? approvalId = some a → a.workflow = id →
    ∀ executionId x, x.approval = approvalId →
      (db'.executions.get? executionId = some x ↔ db.executions.get? executionId = some x)
  approver : ∀ slug actor, db.actors.get? slug = some actor → actor.role = .approver →
    ∃ actor', db'.actors.get? slug = some actor' ∧ actor'.role = .approver

section SameFor

variable {db' : Db} {id : Uuid} (h : SameFor id db db')
include h

theorem SameFor.onlyApproval {approvalId : Uuid} {a : ApprovalRequest} (ha : db.OnlyApproval id approvalId a) :
    db'.OnlyApproval id approvalId a := by
  obtain ⟨ha, hid, honly⟩ := ha
  exact ⟨(h.approvals _ _ hid).2 ha, hid,
    fun approvalId' a' ha' hid' => honly approvalId' a' ((h.approvals _ _ hid').1 ha') hid'⟩

theorem SameFor.executedOnce {approvalId : Uuid} {a : ApprovalRequest}
    (ha : db.approvals.get? approvalId = some a) (hid : a.workflow = id) (hx : db.ExecutedOnce approvalId) :
    db'.ExecutedOnce approvalId := by
  obtain ⟨executionId, x, hx, hxa, honly⟩ := hx
  have hsame := h.executions approvalId a ha hid
  exact ⟨executionId, x, (hsame _ _ hxa).2 hx, hxa,
    fun executionId' x' hx' hxa' => honly executionId' x' ((hsame _ _ hxa').1 hx') hxa'⟩

theorem SameFor.approvedByAnother {a : ApprovalRequest} (ha : db.ApprovedByAnother a) :
    db'.ApprovedByAnother a := by
  obtain ⟨hs, slug, actor, hslug, hne, hactor, hrole⟩ := ha
  obtain ⟨actor', hactor', hrole'⟩ := h.approver slug actor hactor hrole
  exact ⟨hs, slug, actor', hslug, hne, hactor', hrole'⟩

theorem SameFor.coherent {w : Workflow} {r : EventRevision} (hc : db.Coherent py sha256 id w r) :
    db'.Coherent py sha256 id w r := by
  unfold Coherent at hc ⊢
  cases hs : w.status with
  | draft =>
    simp only [hs] at hc ⊢
    intro approvalId a ha hid
    exact hc approvalId a ((h.approvals _ _ hid).1 ha) hid
  | needsInput =>
    simp only [hs] at hc ⊢
    intro approvalId a ha hid
    exact hc approvalId a ((h.approvals _ _ hid).1 ha) hid
  | readyForReview =>
    simp only [hs] at hc ⊢
    refine ⟨hc.1, ?_⟩
    intro approvalId a ha hid
    exact hc.2 approvalId a ((h.approvals _ _ hid).1 ha) hid
  | inReview =>
    simp only [hs] at hc ⊢
    obtain ⟨hp, approvalId, a, ha, hpending, hhash⟩ := hc
    exact ⟨hp, approvalId, a, h.onlyApproval ha, hpending, hhash⟩
  | approved =>
    simp only [hs] at hc
  | completed =>
    simp only [hs] at hc ⊢
    obtain ⟨hp, approvalId, a, ha, hdecided, hhash, hx⟩ := hc
    exact ⟨hp, approvalId, a, h.onlyApproval ha, h.approvedByAnother hdecided, hhash,
      h.executedOnce ha.1 ha.2.1 hx⟩

end SameFor

/-- An operation wrote the row `w'` of one workflow, added revisions, and touched only the requests and
the executions of this workflow. -/
structure Touches (db db' : Db) (id : Uuid) (w' : Workflow) : Prop where
  workflows : db'.workflows = db.workflows.set id w'
  revisions : ∀ revisionId r, db.revisions.get? revisionId = some r → db'.revisions.get? revisionId = some r
  actors : db'.actors = db.actors
  approvals : ∀ approvalId a, a.workflow ≠ id →
    (db'.approvals.get? approvalId = some a ↔ db.approvals.get? approvalId = some a)
  executions : ∀ approvalId a, db.approvals.get? approvalId = some a → a.workflow ≠ id →
    ∀ executionId x, x.approval = approvalId →
      (db'.executions.get? executionId = some x ↔ db.executions.get? executionId = some x)
  linked : ∀ executionId x, db'.executions.get? executionId = some x →
    ∃ a, db'.approvals.get? x.approval = some a

section Touches

variable {db' : Db} {id : Uuid} {w w' : Workflow} {r r' : EventRevision} (h : Touches db db' id w')
include h

theorem Touches.sameFor {id' : Uuid} (hne : id' ≠ id) : SameFor id' db db' where
  approvals approvalId a hid := h.approvals approvalId a (hid ▸ hne)
  executions approvalId a ha hid := h.executions approvalId a ha (hid ▸ hne)
  approver slug actor hactor hrole := ⟨actor, by rw [h.actors, hactor], hrole⟩

theorem Touches.get?_self (hw : db.workflows.get? id = some w) : db'.workflows.get? id = some w' := by
  rw [h.workflows, Table.get?_set_self hw]

theorem Touches.get?_of_ne {id' : Uuid} (hne : id' ≠ id) :
    db'.workflows.get? id' = db.workflows.get? id' := by
  rw [h.workflows, Table.get?_set_of_ne _ _ hne]

/-- A synthetic workflow that was not touched was there before. -/
theorem Touches.synthetic_of_ne (hdb : db.Linked) {id' : Uuid} {w₁ : Workflow} {r₁ : EventRevision}
    (hne : id' ≠ id) (hs : db'.Synthetic id' w₁ r₁) : db.Synthetic id' w₁ r₁ := by
  obtain ⟨hw₁, hr₁, hkind⟩ := hs
  rw [h.get?_of_ne hne] at hw₁
  obtain ⟨r₀, hr₀, -⟩ := hdb.revision id' w₁ hw₁
  rw [h.revisions _ _ hr₀, Option.some.injEq] at hr₁
  subst hr₁
  exact ⟨hw₁, hr₀, hkind⟩

theorem Touches.linked' (hdb : db.Linked) (hw : db.workflows.get? id = some w)
    (hr' : db'.revisions.get? w'.revision = some r') (he : r'.event = w'.event) : db'.Linked where
  revision id' w₁ hw₁ := by
    by_cases hne : id' = id
    · subst hne
      rw [h.get?_self hw, Option.some.injEq] at hw₁
      subst hw₁
      exact ⟨r', hr', he⟩
    · rw [h.get?_of_ne hne] at hw₁
      obtain ⟨r₀, hr₀, he₀⟩ := hdb.revision id' w₁ hw₁
      exact ⟨r₀, h.revisions _ _ hr₀, he₀⟩
  approval approvalId a ha := by
    by_cases hne : a.workflow = id
    · exact ⟨w', hne ▸ h.get?_self hw⟩
    · obtain ⟨w₁, hw₁⟩ := hdb.approval approvalId a ((h.approvals _ _ hne).1 ha)
      exact ⟨w₁, by rw [h.get?_of_ne hne, hw₁]⟩
  execution := h.linked

/-- After an operation on one workflow it is enough to look at this one. -/
theorem Touches.sound (hdb : db.Sound py sha256) (hw : db.workflows.get? id = some w)
    (hr : db.revisions.get? w.revision = some r) (hr' : db'.revisions.get? w'.revision = some r')
    (he : r'.event = w'.event) (hkind : sourceKind r' = .synthetic → sourceKind r = .synthetic)
    (hc : sourceKind r' = .synthetic → db'.Coherent py sha256 id w' r') : db'.Sound py sha256 := by
  have hself {w₁ : Workflow} {r₁ : EventRevision} (hs : db'.Synthetic id w₁ r₁) : w₁ = w' ∧ r₁ = r' := by
    obtain ⟨hw₁, hr₁, -⟩ := hs
    rw [h.get?_self hw, Option.some.injEq] at hw₁
    subst hw₁
    rw [hr', Option.some.injEq] at hr₁
    exact ⟨rfl, hr₁.symm⟩
  refine ⟨h.linked' hdb.linked hw hr' he, fun id' w₁ r₁ hs => ?_, fun id' w₁ r₁ hs => ?_⟩
  · have hseeded : db.Seeded := by
      by_cases hne : id' = id
      · subst hne
        obtain ⟨rfl, rfl⟩ := hself hs
        exact hdb.seeded id' w r ⟨hw, hr, hkind hs.2.2⟩
      · exact hdb.seeded id' w₁ r₁ (h.synthetic_of_ne hdb.linked hne hs)
    unfold Seeded at hseeded ⊢
    rwa [h.actors]
  · by_cases hne : id' = id
    · subst hne
      obtain ⟨rfl, rfl⟩ := hself hs
      exact hc hs.2.2
    · exact (h.sameFor hne).coherent (hdb.coherent id' w₁ r₁ (h.synthetic_of_ne hdb.linked hne hs))

end Touches

/-! ### Every request keeps the invariant -/

theorem Sound.runWorkflow {ownerPackage : Message → Option Message} {db' : Db} {workflowId : Uuid}
    {actorId : String} {actor : DemoActor} {transitionId : ℕ} {now : Time} {u : Unit}
    (hdb : db.Sound py sha256)
    (h : LaunchLoop.runWorkflow py sha256 ownerPackage workflowId actorId actor transitionId now db =
      .ok (u, db')) : db'.Sound py sha256 := by
  obtain ⟨w, r, package, transitions, hw, hr, hs, hp, rfl⟩ := runWorkflow_eq_ok h
  obtain ⟨r₀, hr₀, he⟩ := hdb.linked.revision workflowId w hw
  rw [hr, Option.some.injEq] at hr₀
  subst hr₀
  refine Touches.sound ⟨rfl, fun _ _ h => h, rfl, fun _ _ _ => .rfl, fun _ _ _ _ _ _ _ => .rfl,
    hdb.linked.execution⟩ hdb hw hr hr he id fun hsynthetic => ?_
  have hnone := hdb.coherent workflowId w r ⟨hw, hr, hsynthetic⟩
  simp only [Coherent, hs] at hnone
  have hpackage : preparePackage py r.snapshot = some package := by
    simpa only [packageOf, if_pos hsynthetic] using hp
  simp only [Coherent]
  split_ifs
  · exact ⟨⟨package, rfl, hpackage, rfl⟩, hnone⟩
  · exact fun approvalId a ha hid => absurd hid (hnone approvalId a ha)

theorem Sound.answerQuestions {db' : Db} {workflowId : Uuid} {actorId : String} {actor : DemoActor}
    {answers : Message} {revisionId transitionId : ℕ} {now : Time} {u : Unit} (hdb : db.Sound py sha256)
    (h : LaunchLoop.answerQuestions py workflowId actorId actor answers revisionId transitionId now db =
      .ok (u, db')) : db'.Sound py sha256 := by
  obtain ⟨w, r, revisions, missing, transitions, hw, hr, hsynthetic, hs, hrevisions, rfl⟩ :=
    answerQuestions_eq_ok h
  have hget := Table.get?_of_insert? hrevisions
  have hself := (hget revisionId).trans (if_pos rfl)
  refine Touches.sound ⟨rfl, fun revisionId' r' hr' => ?_, rfl, fun approvalId a hne => ?_,
    fun approvalId a ha hne executionId x hx => ?_, fun executionId x hx => ?_⟩ hdb hw hr hself rfl
    (fun _ => hsynthetic) fun _ => ?_
  · have hne : revisionId' ≠ revisionId := by
      rintro rfl
      rw [(Table.insert?_eq_some hrevisions).1] at hr'
      cases hr'
    exact (hget revisionId').trans ((if_neg hne).trans hr')
  · refine ⟨fun ha => (Table.get?_of_deleteWhere ha).1, fun ha => ?_⟩
    exact Table.get?_deleteWhere_of_keep ha (by simpa using hne)
  · refine ⟨fun hx => (Table.get?_of_deleteWhere hx).1, fun hget => ?_⟩
    exact Table.get?_deleteWhere_of_keep hget (by simpa [hx, ha] using hne)
  · obtain ⟨hx, hkeep⟩ := Table.get?_of_deleteWhere hx
    obtain ⟨a, ha⟩ := hdb.linked.execution executionId x hx
    exact ⟨a, Table.get?_deleteWhere_of_keep ha (by simpa [ha] using hkeep)⟩
  · have hnone {approvalId : Uuid} {a : ApprovalRequest}
        (ha : (db.approvals.deleteWhere fun a => a.workflow = workflowId).get? approvalId = some a) :
        a.workflow ≠ workflowId := by
      simpa using (Table.get?_of_deleteWhere ha).2
    cases missing with
    | false =>
      intro approvalId a ha
      exact hnone ha
    | true =>
      intro approvalId a ha hid
      exact absurd hid (hnone ha)

theorem Sound.submitWorkflow {db' : Db} {workflowId approvalId v : Uuid} {actorId : String}
    {actor : DemoActor} {transitionId : ℕ} {now : Time} (hdb : db.Sound py sha256)
    (h : LaunchLoop.submitWorkflow workflowId actorId actor approvalId transitionId now db = .ok (v, db')) :
    db'.Sound py sha256 := by
  obtain ⟨w, r, approvals, transitions, hw, hr, hsynthetic, hs, hnone, happrovals, rfl⟩ :=
    submitWorkflow_eq_ok h
  obtain ⟨r₀, hr₀, he⟩ := hdb.linked.revision workflowId w hw
  rw [hr, Option.some.injEq] at hr₀
  subst hr₀
  have hget := Table.get?_of_insert? happrovals
  refine Touches.sound ⟨rfl, fun _ _ h => h, rfl, fun approvalId' a hne => ?_,
    fun _ _ _ _ _ _ _ => .rfl, fun executionId x hx => ?_⟩ hdb hw hr hr he id fun _ => ?_
  · rw [hget]
    split_ifs with e
    · subst e
      rw [(Table.insert?_eq_some happrovals).1]
      refine ⟨fun ha => ?_, fun ha => by cases ha⟩
      rw [← Option.some.inj ha] at hne
      exact absurd rfl hne
    · rfl
  · obtain ⟨a, ha⟩ := hdb.linked.execution executionId x hx
    refine ⟨a, ?_⟩
    rw [hget, if_neg fun e => ?_]
    · exact ha
    · rw [e, (Table.insert?_eq_some happrovals).1] at ha
      cases ha
  · have hc := hdb.coherent workflowId w r ⟨hw, hr, hsynthetic⟩
    simp only [Coherent, hs] at hc
    refine ⟨hc.1, approvalId, _, ⟨(hget approvalId).trans (if_pos rfl), rfl, ?_⟩, rfl, rfl⟩
    intro approvalId' a' ha' hid'
    by_contra hne
    rw [show _ = _ from (hget approvalId').trans (if_neg hne)] at ha'
    exact hnone approvalId' a' ha' hid'

/-- A pending request is the one of a workflow in review. -/
theorem Sound.pending (hdb : db.Sound py sha256) {approvalId : Uuid} {a : ApprovalRequest}
    {w : Workflow} {r : EventRevision} (ha : db.approvals.get? approvalId = some a)
    (hpending : a.status = .pending) (hs : db.Synthetic a.workflow w r) :
    w.status = .inReview ∧ Prepared py sha256 w r ∧ db.OnlyApproval a.workflow approvalId a ∧
      a.packageHash = w.packageHash := by
  have hc := hdb.coherent a.workflow w r hs
  unfold Coherent at hc
  cases hstatus : w.status with
  | draft =>
    simp only [hstatus] at hc
    exact absurd rfl (hc approvalId a ha)
  | needsInput =>
    simp only [hstatus] at hc
    have hrejected := hc approvalId a ha rfl
    rw [hpending] at hrejected
    cases hrejected
  | readyForReview =>
    simp only [hstatus] at hc
    exact absurd rfl (hc.2 approvalId a ha)
  | inReview =>
    simp only [hstatus] at hc
    obtain ⟨hp, approvalId', a', honly, -, hhash⟩ := hc
    have e := honly.2.2 approvalId a ha rfl
    subst e
    rw [show db.approvals.get? approvalId = some a' from honly.1, Option.some.injEq] at ha
    subst ha
    exact ⟨rfl, hp, honly, hhash⟩
  | approved =>
    simp only [hstatus] at hc
  | completed =>
    simp only [hstatus] at hc
    obtain ⟨-, approvalId', a', honly, hdecided, -, -⟩ := hc
    have e := honly.2.2 approvalId a ha rfl
    subst e
    rw [show db.approvals.get? approvalId = some a' from honly.1, Option.some.injEq] at ha
    subst ha
    have happroved := hdecided.1
    rw [hpending] at happroved
    cases happroved

theorem Sound.decideApproval {db' : Db} {approvalId : Uuid} {actorId : String} {actor : DemoActor}
    {decision submittedHash reason : String} {ids : DecisionIds} {now : Time} {u : Unit}
    (hdb : db.Sound py sha256) (hactor : db.actors.get? actorId = some actor)
    (h : LaunchLoop.decideApproval approvalId actorId actor decision submittedHash reason ids now db =
      .ok (u, db')) : db'.Sound py sha256 := by
  obtain ⟨a, w, r, transitions, ha, hw, hr, hsynthetic, hself, hrole, hpending, h⟩ := decideApproval_eq_ok h
  obtain ⟨-, hp, honly, hhash⟩ := hdb.pending ha hpending ⟨hw, hr, hsynthetic⟩
  obtain ⟨r₀, hr₀, he⟩ := hdb.linked.revision a.workflow w hw
  rw [hr, Option.some.injEq] at hr₀
  subst hr₀
  -- the requests after a decision with the status `s`
  have hothers (s : ApprovalStatus) (approvalId' : Uuid) (a' : ApprovalRequest)
      (hne : a'.workflow ≠ a.workflow) :
      (db.approvals.set approvalId (a.decided s actorId reason)).get? approvalId' = some a' ↔
        db.approvals.get? approvalId' = some a' := by
    by_cases e : approvalId' = approvalId
    · subst e
      rw [Table.get?_set_self ha, ha, Option.some.injEq, Option.some.injEq]
      refine ⟨fun e => ?_, fun e => ?_⟩
      · rw [← e] at hne
        exact absurd rfl hne
      · rw [← e] at hne
        exact absurd rfl hne
    · rw [Table.get?_set_of_ne _ _ e]
  have hdecided (s : ApprovalStatus) (approvalId' : Uuid) (a' : ApprovalRequest)
      (ha' : (db.approvals.set approvalId (a.decided s actorId reason)).get? approvalId' = some a')
      (hid : a'.workflow = a.workflow) : approvalId' = approvalId ∧ a' = a.decided s actorId reason := by
    by_cases e : approvalId' = approvalId
    · subst e
      rw [Table.get?_set_self ha, Option.some.injEq] at ha'
      exact ⟨rfl, ha'.symm⟩
    · rw [Table.get?_set_of_ne _ _ e] at ha'
      exact absurd (honly.2.2 approvalId' a' ha' hid) e
  have hkept (s : ApprovalStatus) (approvalId' : Uuid) (a' : ApprovalRequest)
      (ha' : db.approvals.get? approvalId' = some a') :
      ∃ b, (db.approvals.set approvalId (a.decided s actorId reason)).get? approvalId' = some b := by
    by_cases e : approvalId' = approvalId
    · subst e
      exact ⟨_, Table.get?_set_self ha _⟩
    · exact ⟨a', by rw [Table.get?_set_of_ne _ _ e, ha']⟩
  rcases h with rfl | ⟨key, receipt, executions, hnone, hexecutions, rfl⟩
  · refine Touches.sound ⟨rfl, fun _ _ h => h, rfl, hothers .rejected, fun _ _ _ _ _ _ _ => .rfl,
      fun executionId x hx => ?_⟩ hdb hw hr hr he id fun _ => ?_
    · obtain ⟨a', ha'⟩ := hdb.linked.execution executionId x hx
      exact hkept .rejected x.approval a' ha'
    · intro approvalId' a' ha' hid
      rw [(hdecided .rejected approvalId' a' ha' hid).2]
      rfl
  · have hget := Table.get?_of_insert? hexecutions
    refine Touches.sound ⟨rfl, fun _ _ h => h, rfl, hothers .approved,
      fun approvalId' a' ha' hne executionId x hx => ?_, fun executionId x hx => ?_⟩ hdb hw hr hr he id
        fun _ => ?_
    · rw [hget]
      split_ifs with e
      · subst e
        rw [(Table.insert?_eq_some hexecutions).1]
        refine ⟨fun e => ?_, fun e => by cases e⟩
        -- the new execution is of the approval that is decided
        rw [← Option.some.inj e] at hx
        rw [← show approvalId = approvalId' from hx, ha, Option.some.injEq] at ha'
        rw [ha'] at hne
        exact absurd rfl hne
      · rfl
    · rw [show _ = _ from hget executionId] at hx
      split_ifs at hx
      · rw [← Option.some.inj hx]
        exact hkept .approved approvalId a ha
      · obtain ⟨a', ha'⟩ := hdb.linked.execution executionId x hx
        exact hkept .approved x.approval a' ha'
    · refine ⟨hp, approvalId, a.decided .approved actorId reason,
        ⟨Table.get?_set_self ha _, rfl, fun approvalId' a' ha' hid =>
          (hdecided .approved approvalId' a' ha' hid).1⟩,
        ⟨rfl, actorId, actor, rfl, hself, hactor, hrole⟩, hhash, ids.execution, _,
        (hget ids.execution).trans (if_pos rfl), rfl, fun executionId' x' hx' hxa' => ?_⟩
      by_contra e
      rw [show _ = _ from (hget executionId').trans (if_neg e)] at hx'
      exact hnone executionId' x' hx' hxa'

/-! ### A reset -/

theorem isDemo_eq_false {id : Uuid} {w : Workflow} (hw : db.workflows.get? id = some w)
    (h : db.isDemo id = false) : db.demoEvents.contains w.event = false := by
  simpa only [isDemo, hw, Option.any_some] using h

theorem withoutDemo_workflow {id : Uuid} {w : Workflow} :
    db.withoutDemo.workflows.get? id = some w ↔
      db.workflows.get? id = some w ∧ db.demoEvents.contains w.event = false :=
  ⟨Table.get?_of_deleteWhere, fun h => Table.get?_deleteWhere_of_keep h.1 h.2⟩

theorem withoutDemo_revision {id : ℕ} {r : EventRevision} :
    db.withoutDemo.revisions.get? id = some r ↔
      db.revisions.get? id = some r ∧ db.demoEvents.contains r.event = false :=
  ⟨Table.get?_of_deleteWhere, fun h => Table.get?_deleteWhere_of_keep h.1 h.2⟩

theorem withoutDemo_approval {id : Uuid} {a : ApprovalRequest} :
    db.withoutDemo.approvals.get? id = some a ↔
      db.approvals.get? id = some a ∧ db.isDemo a.workflow = false :=
  ⟨Table.get?_of_deleteWhere, fun h => Table.get?_deleteWhere_of_keep h.1 h.2⟩

theorem withoutDemo_execution (hdb : db.Linked) {id : Uuid} {x : ConnectorExecution} :
    db.withoutDemo.executions.get? id = some x ↔
      db.executions.get? id = some x ∧ ∃ a, db.withoutDemo.approvals.get? x.approval = some a := by
  constructor
  · intro hx
    obtain ⟨hx, hkeep⟩ := Table.get?_of_deleteWhere hx
    obtain ⟨a, ha⟩ := hdb.execution id x hx
    exact ⟨hx, a, withoutDemo_approval.2 ⟨ha, by simpa only [ha, Option.any_some] using hkeep⟩⟩
  · rintro ⟨hx, a, ha⟩
    obtain ⟨ha, hkeep⟩ := withoutDemo_approval.1 ha
    exact Table.get?_deleteWhere_of_keep hx (by simpa only [ha, Option.any_some] using hkeep)

theorem withoutDemo_linked (hdb : db.Linked) : db.withoutDemo.Linked where
  revision id w hw := by
    obtain ⟨hw, hkeep⟩ := withoutDemo_workflow.1 hw
    obtain ⟨r, hr, he⟩ := hdb.revision id w hw
    exact ⟨r, withoutDemo_revision.2 ⟨hr, by rw [he, hkeep]⟩, he⟩
  approval id a ha := by
    obtain ⟨ha, hkeep⟩ := withoutDemo_approval.1 ha
    obtain ⟨w, hw⟩ := hdb.approval id a ha
    exact ⟨w, withoutDemo_workflow.2 ⟨hw, isDemo_eq_false hw hkeep⟩⟩
  execution id x hx := ((withoutDemo_execution hdb).1 hx).2

theorem seedActors_seeded (d : Db) (users : ℕ × ℕ) : (d.seedActors users).Seeded :=
  ⟨⟨_, (Table.get?_put_of_ne _ _ (by decide)).trans (Table.get?_put_self _ _ _), rfl⟩,
    ⟨_, Table.get?_put_self _ _ _, rfl⟩⟩

/-- An approver stays one when the users are seeded again. -/
theorem seedActors_approver (d : Db) (hseeded : d.Seeded) (users : ℕ × ℕ) {slug : String}
    {actor : DemoActor} (hactor : d.actors.get? slug = some actor) (hrole : actor.role = .approver) :
    ∃ actor', (d.seedActors users).actors.get? slug = some actor' ∧ actor'.role = .approver := by
  by_cases hjordan : slug = "jordan"
  · exact hjordan ▸ ⟨_, Table.get?_put_self _ _ _, rfl⟩
  · have hmaya : slug ≠ "maya" := by
      rintro rfl
      obtain ⟨⟨maya, hmaya, hoperator⟩, -⟩ := hseeded
      rw [hactor, Option.some.injEq] at hmaya
      rw [← hmaya, hrole] at hoperator
      cases hoperator
    refine ⟨actor, ?_, hrole⟩
    simp only [seedActors, Table.get?_put, if_neg hjordan, if_neg hmaya, hactor]

theorem Sound.resetDemo {db' : Db} {users : ℕ × ℕ} {ids : NewIds} {now : Time} {v : Uuid}
    (hdb : db.Sound py sha256) (h : LaunchLoop.resetDemo users ids now db = .ok (v, db')) :
    db'.Sound py sha256 := by
  obtain ⟨events, revisions, workflows, transitions, hrevisions, hworkflows, rfl⟩ := resetDemo_eq_ok h
  have hlinked := withoutDemo_linked hdb.linked
  have hgetR := Table.get?_of_insert? hrevisions
  have hgetW := Table.get?_of_insert? hworkflows
  have hfresh {id : Uuid} {w : Workflow} (hw : db.withoutDemo.workflows.get? id = some w) :
      id ≠ ids.workflow := by
    rintro rfl
    rw [(Table.insert?_eq_some hworkflows).1] at hw
    cases hw
  have hkept {id : Uuid} {w : Workflow} (hw : db.withoutDemo.workflows.get? id = some w) :
      workflows.get? id = some w := (hgetW id).trans ((if_neg (hfresh hw)).trans hw)
  have hkeptR {id : ℕ} {r : EventRevision} (hr : db.withoutDemo.revisions.get? id = some r) :
      revisions.get? id = some r := by
    refine (hgetR id).trans ((if_neg ?_).trans hr)
    rintro rfl
    rw [(Table.insert?_eq_some hrevisions).1] at hr
    cases hr
  have hold {id : Uuid} {w : Workflow} (hne : id ≠ ids.workflow) (hw : workflows.get? id = some w) :
      db.withoutDemo.workflows.get? id = some w := by
    rwa [hgetW, if_neg hne] at hw
  refine ⟨⟨fun id w hw => ?_, fun id a ha => ?_, hlinked.execution⟩, fun _ _ _ _ =>
    seedActors_seeded db.withoutDemo users, fun id w r hs => ?_⟩
  · by_cases e : id = ids.workflow
    · rw [show workflows.get? id = _ from (hgetW id).trans (if_pos e), Option.some.injEq] at hw
      rw [← hw]
      exact ⟨_, (hgetR ids.revision).trans (if_pos rfl), rfl⟩
    · obtain ⟨r, hr, he⟩ := hlinked.revision id w (hold e hw)
      exact ⟨r, hkeptR hr, he⟩
  · obtain ⟨w, hw⟩ := hlinked.approval id a ha
    exact ⟨w, hkept hw⟩
  · obtain ⟨hw, hr, hsynthetic⟩ := hs
    by_cases e : id = ids.workflow
    · rw [show workflows.get? id = _ from (hgetW id).trans (if_pos e), Option.some.injEq] at hw
      rw [← hw, e]
      intro approvalId a ha
      obtain ⟨w₀, hw₀⟩ := hlinked.approval approvalId a ha
      exact hfresh hw₀
    · have hw' := hold e hw
      obtain ⟨hw₀, hevent⟩ := withoutDemo_workflow.1 hw'
      obtain ⟨r₀, hr₀, -⟩ := hlinked.revision id w hw'
      have hr' := hkeptR hr₀
      rw [show revisions.get? w.revision = some r from hr, Option.some.injEq] at hr'
      subst hr'
      have hs₀ : db.Synthetic id w r := ⟨hw₀, (withoutDemo_revision.1 hr₀).1, hsynthetic⟩
      have hdemo : db.isDemo id = false := by simpa only [isDemo, hw₀, Option.any_some] using hevent
      refine SameFor.coherent ⟨fun approvalId a hid => ?_, fun approvalId a ha hid executionId x hx => ?_,
        fun slug actor hactor hrole => ?_⟩ (hdb.coherent id w r hs₀)
      · exact ⟨fun ha => (withoutDemo_approval.1 ha).1, fun ha => withoutDemo_approval.2 ⟨ha, hid ▸ hdemo⟩⟩
      · refine ⟨fun hx => ((withoutDemo_execution hdb.linked).1 hx).1, fun hget => ?_⟩
        exact (withoutDemo_execution hdb.linked).2
          ⟨hget, a, withoutDemo_approval.2 ⟨hx ▸ ha, hid ▸ hdemo⟩⟩
      · exact seedActors_approver db.withoutDemo (hdb.seeded id w r hs₀) users hactor hrole

variable (py sha256)

theorem Sound.step (ownerPackage : Message → Option Message) (hdb : db.Sound py sha256)
    (request : Request × Time) : (LaunchLoop.step py sha256 ownerPackage db request).Sound py sha256 := by
  unfold LaunchLoop.step
  cases h : handle py sha256 ownerPackage request.2 request.1 db with
  | error e => exact hdb
  | ok reply =>
    obtain ⟨⟨⟩, db'⟩ := reply
    rw [commit_ok]
    obtain ⟨request, now⟩ := request
    cases request with
    | reset users ids =>
      obtain ⟨v, h⟩ := ok_of_map (f := fun _ => ()) h
      exact hdb.resetDemo h
    | run workflowId actorId transitionId =>
      obtain ⟨actor, -, h⟩ := bind_eq_ok.1 h
      exact hdb.runWorkflow h
    | answer workflowId actorId answers revisionId transitionId =>
      obtain ⟨actor, -, h⟩ := bind_eq_ok.1 h
      exact hdb.answerQuestions h
    | submit workflowId actorId approvalId transitionId =>
      obtain ⟨actor, -, h⟩ := bind_eq_ok.1 h
      obtain ⟨v, h⟩ := ok_of_map (f := fun _ => ()) h
      exact hdb.submitWorkflow h
    | decide approvalId actorId decision submittedHash reason ids =>
      obtain ⟨actor, hactor, h⟩ := bind_eq_ok.1 h
      exact hdb.decideApproval (fetch_eq_ok.1 hactor) h

end Db

end Invariant

/-! ### What is in review -/

theorem get?_set_of_status {db : Db} {id id' : Uuid} {w w₀ w' : Workflow}
    (hw : db.workflows.get? id = some w) (hs : w.status ≠ w₀.status)
    (hw₀ : db.workflows.get? id' = some w₀) : (db.workflows.set id w').get? id' = some w₀ := by
  have hne : id' ≠ id := by
    rintro rfl
    rw [hw, Option.some.injEq] at hw₀
    exact hs (congrArg Workflow.status hw₀)
  rw [Table.get?_set_of_ne _ _ hne, hw₀]

/-- A reset or a decision. -/
def Request.isResetOrDecision : Request → Bool
  | .reset .. | .decide .. => true
  | _ => false

/-- Only a reset and a decision change a workflow in review. -/
theorem step_inReview (py : Interpreter) (sha256 : Message → String)
    (ownerPackage : Message → Option Message) {db : Db} {request : Request × Time}
    (hrequest : request.1.isResetOrDecision = false) {id : Uuid} {w : Workflow}
    (hw : db.workflows.get? id = some w) (hs : w.status = .inReview) :
    (step py sha256 ownerPackage db request).workflows.get? id = some w := by
  unfold step
  cases h : handle py sha256 ownerPackage request.2 request.1 db with
  | error e => exact hw
  | ok reply =>
    obtain ⟨⟨⟩, db'⟩ := reply
    rw [commit_ok]
    obtain ⟨request, now⟩ := request
    cases request with
    | reset users ids => cases hrequest
    | decide approvalId actorId decision submittedHash reason ids => cases hrequest
    | run workflowId actorId transitionId =>
      obtain ⟨actor, -, h⟩ := bind_eq_ok.1 h
      obtain ⟨w₀, r, package, transitions, hw₀, -, hs₀, -, rfl⟩ := runWorkflow_eq_ok h
      exact get?_set_of_status hw₀ (by simp [hs, hs₀]) hw
    | answer workflowId actorId answers revisionId transitionId =>
      obtain ⟨actor, -, h⟩ := bind_eq_ok.1 h
      obtain ⟨w₀, r, revisions, missing, transitions, hw₀, -, -, hs₀, -, rfl⟩ := answerQuestions_eq_ok h
      exact get?_set_of_status hw₀ (by simp [hs, hs₀]) hw
    | submit workflowId actorId approvalId transitionId =>
      obtain ⟨actor, -, h⟩ := bind_eq_ok.1 h
      obtain ⟨v, h⟩ := ok_of_map (f := fun _ => ()) h
      obtain ⟨w₀, r, approvals, transitions, hw₀, -, -, hs₀, -, -, rfl⟩ := submitWorkflow_eq_ok h
      exact get?_set_of_status hw₀ (by simp [hs, hs₀]) hw

/-! ### Every reached state -/

section Runs

variable (py : Interpreter) (sha256 : Message → String) (ownerPackage : Message → Option Message)

/-- The databases that requests reach. -/
def Reached (db : Db) : Prop := Transition.Reachable (step py sha256 ownerPackage) Db.Initial db

/-- What holds in every reached database. -/
structure FourEyes : Prop where
  /-- A pending request of a synthetic workflow is for the package of its current revision. -/
  pending : ∀ db, Reached py sha256 ownerPackage db → ∀ approvalId a w r,
    db.approvals.get? approvalId = some a → a.status = .pending → db.Synthetic a.workflow w r →
      w.status = .inReview ∧ w.packageHash = a.packageHash ∧
        ∃ package, w.package = some package ∧ packageHash sha256 package = a.packageHash ∧
          preparePackage py r.snapshot = some package
  /-- A completed workflow was approved by another actor, and executed once. -/
  completed : ∀ db, Reached py sha256 ownerPackage db → ∀ id w r, db.Synthetic id w r →
    w.status = .completed → ∃ approvalId a, db.approvals.get? approvalId = some a ∧ a.workflow = id ∧
      a.packageHash = w.packageHash ∧ db.ApprovedByAnother a ∧ db.ExecutedOnce approvalId
  /-- What is in review is not changed but by a reset or a decision. -/
  frozen : ∀ db, Reached py sha256 ownerPackage db → ∀ request : Request × Time,
    request.1.isResetOrDecision = false → ∀ id w, db.workflows.get? id = some w → w.status = .inReview →
      (step py sha256 ownerPackage db request).workflows.get? id = some w

theorem Reached.sound {db : Db} (h : Reached py sha256 ownerPackage db) : db.Sound py sha256 :=
  h.induction (fun _ hinit => hinit.sound) fun _ request hdb => hdb.step py sha256 ownerPackage request

/-- **Four eyes.** In every database that requests by any actors reach, a pending request is for the
package of the current revision of a workflow in review, and a completed workflow was approved by an
approver who had not submitted it and was executed once; nothing but a reset or a decision changes what
is in review. -/
theorem fourEyes : FourEyes py sha256 ownerPackage where
  pending db hdb approvalId a w r ha hpending hs := by
    obtain ⟨hstatus, ⟨package, hpackage, hprepared, hhash⟩, -, hahash⟩ :=
      (Reached.sound py sha256 ownerPackage hdb).pending ha hpending hs
    exact ⟨hstatus, hahash.symm, package, hpackage, by rw [hahash, hhash], hprepared⟩
  completed db hdb id w r hs hstatus := by
    have hc := (Reached.sound py sha256 ownerPackage hdb).coherent id w r hs
    simp only [Db.Coherent, hstatus] at hc
    obtain ⟨-, approvalId, a, honly, happroved, hhash, hexecuted⟩ := hc
    exact ⟨approvalId, a, honly.1, honly.2.1, hhash, happroved, hexecuted⟩
  frozen _ _ _ hrequest _ _ hw hs := step_inReview py sha256 ownerPackage hrequest hw hs

-- The run asks, the answers come, and the second run is submitted and approved.
example :
    let answers : Message := .obj [("venue_name", .lit "Hall"), ("venue_address", .lit "1 Main St"),
      ("access_instructions", .lit "Ring the bell")]
    let db := Transition.run (step plainInterpreter (fun _ => "hash") fun _ => none) .empty
      [(.reset (1, 2) ⟨1, 1, 1, 1⟩, 0), (.run 1 "maya" 7, 0), (.answer 1 "maya" answers 2 2, 0), (.run 1 "maya" 3, 0),
        (.submit 1 "maya" 9 4, 0), (.decide 9 "jordan" "approve" "hash" "" ⟨5, 5, 6⟩, 0)]
    (db.workflows.get? 1).map Workflow.status = some .completed := by
  decide +kernel

end Runs

end CivicLoop.LaunchLoop
