import CivicLoop.Agents.Sample
import CivicLoop.Drafts.AtMostOnce

/-!
# A sample of the draft service

The operator of the sample installation has an accepted run with an operation for an Eventbrite draft.
She submits an update of an event, approves it and dispatches it.

## Main definitions

* `Sample.submitted`, `Sample.approved`, `Sample.dispatching` : the run up to the adapter call.
-/

namespace CivicLoop.Sample

open Drafts

/-- Both providers are connected, and their writes are enabled. -/
def platform : Platform FreeDigest where
  eventbriteWrites := true
  iterableWrites := true
  connection _ := some ⟨.healthy, some .active, .obj [("region", .lit "us")]⟩

def noZones : String → Bool := fun _ => false

def draftStep : State FreeDigest → Drafts.Action FreeDigest → State FreeDigest :=
  Drafts.step freeHash engine noZones

def draftStart : State FreeDigest := Drafts.start world platform

/-- The user of the operator. -/
def owner : RequestUser := ⟨1, true, true⟩

/-- The row of the request. -/
def row : ExecutionRef := (.draft, 61)

/-- The update of the summary of an event. -/
def update : SubmitRequest FreeDigest where
  intentId := 51
  runId := 11
  action := "update"
  organizationId := .lit "7"
  eventId := .lit "456"
  expectedReadbackDigest := .hex []
  payload := .obj [("event", .obj [("summary", .lit "S")])]
  providerConfiguration := .null

/-- A transaction at the time 0, which creates a row with the key 61. -/
def transaction : TransactionInput := ⟨0, 61, false⟩

/-- A step of a call at the time 0, which is served. -/
def served (outcome : AdapterOutcome FreeDigest) : CallInput FreeDigest := ⟨0, true, outcome⟩

/-- Steps of a call before and after its adapter call. -/
def steps (id count : ℕ) : List (Drafts.Action FreeDigest) :=
  List.replicate count (.advance id (served (.raises none)))

def submitted : List (Drafts.Action FreeDigest) :=
  accepted.map .agents ++ [.submitDraft transaction owner update]

/-- The state after the submission. -/
def reviewing : State FreeDigest := Transition.run draftStep draftStart submitted

/-- The digests of the submitted row. -/
def digests : FreeDigest × FreeDigest :=
  match reviewing.executions.get? row with
  | some row => (row.requestDigest, row.reviewDigest)
  | none => ([], [])

/-- The approval, up to the submission of which the run is the same. -/
def approval : Drafts.Action FreeDigest := .approve transaction owner 1 row (.hex digests.2) 1

/-- The call 0 has claimed the row and is about to call the adapter. -/
def dispatching : List (Drafts.Action FreeDigest) :=
  [approval, .call 0 owner 1 row false] ++ steps 0 7

/-- The receipt of a confirmed update. -/
def confirmed : DraftReceipt FreeDigest where
  outcome := "CONFIRMED"
  providerId := some (.lit "456")
  providerStatus := some "draft"
  requestDigest := .hex digests.1
  readbackDigest := some (.hex [])
  errorCategory := none

end CivicLoop.Sample
