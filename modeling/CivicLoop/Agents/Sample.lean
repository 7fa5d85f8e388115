import CivicLoop.Agents.System
import CivicLoop.Budget.Conservation
import CivicLoop.Foundation.FreeHash

/-!
# A sample installation

One owner event with complete facts, its workflow with the package that the source prepares from
them, one operator with an MFA-verified session, and the approved model. The digests are the ones
without collisions. The results on the agent service are tried on it.

## Main definitions

* `Sample.world`, `Sample.engine` : the installation and its package.
* `Sample.start`, `Sample.issue`, `Sample.call` : steps of its one operator.
* `Sample.accepted` : a run up to the acceptance of its result.
-/

namespace CivicLoop.Sample

/-- The facts of the event. -/
def snapshot : Json FreeDigest :=
  .obj
    [("owner_event", .bool true),
      ("title", .lit "T"),
      ("date", .lit "2026-05-01"),
      ("start_time", .lit "10:00"),
      ("end_time", .lit "11:00"),
      ("timezone", .lit "UTC"),
      ("city", .lit "C"),
      ("region", .lit "R"),
      ("country", .lit "K"),
      ("venue_name", .lit "V"),
      ("venue_address", .lit "A"),
      ("access_instructions", .lit "Ok."),
      ("signup_url", .lit "https://e.org")]

/-- The draft of an email. -/
def draft (subject : String) : Json FreeDigest :=
  .obj
    [("subject", .lit subject),
      ("body", .lit "T is scheduled for 2026-05-01 from 10:00 to 11:00 UTC at V. Address: A. Access: Ok. Register: https://e.org")]

/-- A lane of the package. -/
def lane (label status summary : String) : Json FreeDigest :=
  .obj [("label", .lit label), ("status", .lit status), ("summary", .lit summary)]

/-- What `prepare_owner_package` returns for the facts. -/
def package : Json FreeDigest :=
  .obj
    [("schema_id", .lit "owner_event_draft_v1"),
      ("status", .lit "ready_for_review"),
      ("missing_fields", .arr []),
      ("questions", .arr []),
      ("assets", .obj
        [("invitation", draft "Invitation: T"),
          ("reminder", draft "Reminder: T"),
          ("social", .obj [("body", .lit "T on 2026-05-01. https://e.org")])]),
      ("audience", .obj
        [("id", .null),
          ("name", .lit "Choose in provider review"),
          ("member_count", .int 0),
          ("language", .lit "Unspecified")]),
      ("sponsor", .obj
        [("passed", .bool false),
          ("tier", .lit ""),
          ("expected_discount_percent", .null),
          ("actual_discount_percent", .null),
          ("general_ticket_price", .null),
          ("sponsor_ticket_price", .null)]),
      ("lanes", .obj
        [("event_readiness",
            lane "Event Readiness" "complete" "Public event facts confirmed."),
          ("campaign_composer",
            lane "Content preparation" "complete" "Event copy is for review only."),
          ("audience_policy", lane "Provider review" "needs_input"
            "Choose exact audience and suppression in provider request review.")]),
      ("evidence", .arr
        [.lit "Prepared only public event facts from the current revision.",
          .lit "No audience segmentation or sponsor policy was applied.",
          .lit "Provider operations require a separate exact owner request approval."])]

/-- The preparation of packages on the facts of the event. -/
def engine : Engine FreeDigest where
  syntheticPackage _ _ := false
  ownerPackage s p :=
    freeHash.ofJson s == freeHash.ofJson snapshot && freeHash.ofJson p == freeHash.ofJson package

def settings : Settings where
  hermesEnabled := true
  hermesTimeoutSeconds := some 120
  hermesMaxInferences := some 8
  hermesProfileId := "hermes-workflow"
  hermesProfileRevision := 1

def session : AdministratorSession where
  profile := 1
  mfaVerifiedAt := some 0
  absoluteExpiresAt := some (minutes 480)
  expiresAt := some (minutes 480)
  revokedAt := none
  recoveryRestricted := false

def workflow : Workflow FreeDigest where
  event := 1
  revision := 1
  status := .readyForReview
  package := package
  packageHash := .hex (freeHash.ofJson package)

/-- The operator of the installation. -/
def maya : Text FreeDigest := .lit "maya"

/-- The installation; its one user is active or not. -/
def worldWith (userActive : Bool) : World FreeDigest where
  settings := settings
  catalog := Budget.sampleCatalog
  actors := ⟨[(maya, ⟨.operator, some 1⟩)], by decide⟩
  users := ⟨[(1, ⟨userActive⟩)], by simp⟩
  profiles := ⟨[(1, ⟨1, .active⟩)], by decide⟩
  sessions := ⟨[(1, session)], by decide⟩
  revisions := ⟨[(1, ⟨1, snapshot, maya, none⟩)], by decide⟩
  workflows := ⟨[(1, workflow)], by decide⟩

def world : World FreeDigest := worldWith true

/-- A start of the workflow by its operator. -/
def request (key : Uuid) : StartRequest FreeDigest where
  idempotencyKey := key
  workflowId := 1
  revisionId := 1
  actorSlug := maya
  ownerSessionId := some 1

def start (key correlationId : Uuid) : Agents.Action FreeDigest :=
  .start ⟨0, correlationId, false⟩ (request key)

/-- A capability of the operator for all tools, issued at the time 0. -/
def issue (id : Uuid) (token : ℕ) : Agents.Action FreeDigest :=
  .issueCapability 0 id token 1 1 maya Tool.all 300

/-- The arguments of a call. -/
def arguments (correlationId requestId : Uuid) (key : String)
    (extras : List (String × Json FreeDigest)) : Json FreeDigest :=
  .obj
    ([("workflow_id", .str (.uuid 1)),
      ("revision_id", .int 1),
      ("actor_id", .str maya),
      ("correlation_id", .str (.uuid correlationId)),
      ("request_id", .str (.uuid requestId)),
      ("idempotency_key", .lit key)] ++ extras)

/-- A call of a tool at the time `now`. -/
def call (now : Time) (token : ℕ) (tool : Tool) (arguments : Json FreeDigest) (fresh : ℕ → Uuid) :
    ToolCall FreeDigest where
  toolName := tool.name
  arguments := arguments
  token := token
  authenticated := true
  verified := true
  now := now
  fresh := fresh
  dbFails := false

/-- The service of the installation. -/
def step : Agents.State FreeDigest → Agents.Action FreeDigest → Agents.State FreeDigest :=
  Agents.step freeHash engine

/-- The installation before the first step. -/
def initial : Agents.State FreeDigest := ⟨.initial world, .empty⟩

/-! ### Runs -/

/-- The content of a proposal. -/
def content (copy : String) : Json FreeDigest :=
  .obj
    [("event_copy", .lit copy),
      ("invitation", .obj [("subject", .lit "S"), ("body", .lit "B")]),
      ("reminder", .obj [("subject", .lit "S"), ("body", .lit "B")]),
      ("social", .obj [("body", .lit "B")])]

/-- A call that submits a proposal under the key `id`. -/
def proposeCall (correlationId : Uuid) (token : ℕ) (requestId : Uuid) (key copy : String)
    (id : Uuid) : ToolCall FreeDigest :=
  call 0 token .proposeCampaignDrafts
    (arguments correlationId requestId key [("proposal", content copy)]) fun _ => id

/-- A call that requests drafts on a proposal; new operations get the keys from `id` on. -/
def draftsCall (correlationId : Uuid) (token : ℕ) (tool : Tool) (requestId : Uuid) (key : String)
    (proposalId id : Uuid) : ToolCall FreeDigest :=
  call 0 token tool
    (arguments correlationId requestId key [("proposal_id", .str (.uuid proposalId))])
    fun n => id + n

/-- A run is started and claimed, under the capability `capabilityId`. -/
def claimed (key correlationId : Uuid) (worker : ℕ) (capabilityId : Uuid) (token : ℕ) :
    List (Agents.Action FreeDigest) :=
  [start key correlationId,
    .deliver worker (runIdOf freeHash correlationId),
    .claim worker ⟨0, capabilityId, token, true, false⟩]

/-- A result with one reference. -/
def result (correlationId proposalId : Uuid) (copy : String) : HermesResult FreeDigest where
  runId := .uuid (runIdOf freeHash correlationId)
  workflowId := .uuid 1
  revisionId := 1
  status := .succeeded
  proposalReferences := [⟨proposalId, proposalSchemaId, freeHash.ofJson (content copy)⟩]
  usage := ⟨0, 0, 0⟩
  failureCategory := none

/-- The run 11 under the capability 21: two proposals, drafts for the first one, and a result that
refers to it. -/
def accepted : List (Agents.Action FreeDigest) :=
  claimed 1 5 0 21 31 ++
    [.tool (proposeCall 5 31 1 "propose-0000000001" "A" 41),
      .tool (proposeCall 5 31 2 "propose-0000000002" "B" 42),
      .tool (draftsCall 5 31 .requestEventbriteDraft 3 "request-0000000003" 41 51),
      .tool (draftsCall 5 31 .requestIterableDrafts 4 "request-0000000004" 41 52),
      .clientCall 0 (.returns (result 5 41 "A")),
      .complete 0 ⟨0, false, false⟩]

end CivicLoop.Sample
