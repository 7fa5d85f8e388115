import CivicLoop.Foundation.Checked
import CivicLoop.Foundation.Json

/-!
# Tool schemas of the broker

The eight tools of the broker and the contracts of their arguments. A call is refused before it
reaches the database unless its arguments are bounded and match the schema of its tool exactly.

## Main definitions

* `Tool` : the tools, with `Tool.name` and `Tool.ofName`.
* `Schema`, `Schema.validate` : argument contracts and their check.
* `toolSchema` : the contract of each tool.
* `validateToolArguments` : the check of a call.

## References

Source: `backend/agents/tool_schemas.py`, `backend/agents/capabilities.py`, lines 15–26.
-/

namespace CivicLoop

variable {D : Type}

/-! ### Tools -/

inductive Tool
  | getEventRevision
  | getPolicyContext
  | requestClarification
  | proposeCampaignDrafts
  | validateProposal
  | requestEventbriteDraft
  | requestIterableDrafts
  | getOperationStatus
deriving DecidableEq, Repr

/-- `TOOLS`. -/
def Tool.all : List Tool :=
  [.getEventRevision, .getPolicyContext, .requestClarification, .proposeCampaignDrafts,
    .validateProposal, .requestEventbriteDraft, .requestIterableDrafts, .getOperationStatus]

def Tool.name : Tool → String
  | getEventRevision => "get_event_revision"
  | getPolicyContext => "get_policy_context"
  | requestClarification => "request_clarification"
  | proposeCampaignDrafts => "propose_campaign_drafts"
  | validateProposal => "validate_proposal"
  | requestEventbriteDraft => "request_eventbrite_draft"
  | requestIterableDrafts => "request_iterable_drafts"
  | getOperationStatus => "get_operation_status"

/-- The tool of a name, if there is one. -/
def Tool.ofName (name : String) : Option Tool := Tool.all.find? fun tool => tool.name == name

/-! ### Schemas -/

/-- The patterns and formats that a string may have to match. -/
inductive StringForm
  | any
  | uuid
  | slug
  | idempotencyKey
  | field
deriving DecidableEq, Repr

/-- An argument contract. -/
inductive Schema
  | object (properties : List (String × Schema))
  | array (minItems maxItems : ℕ) (items : Schema)
  | string (maxLength : ℕ) (form : StringForm)
  | integer (minimum : ℤ)

/-- Letters, digits, underscore and hyphen: `[a-zA-Z0-9_-]`. -/
def isSlugChar (c : Char) : Bool := c.isAlphanum || c == '_' || c == '-'

/-- `[A-Za-z0-9._:-]`. -/
def isKeyChar (c : Char) : Bool := isSlugChar c || c == '.' || c == ':'

/-- Whether a string has the form. The hexadecimal text of a digest and the text of a UUID are slugs
and idempotency keys by their alphabet and length. -/
def StringForm.matches (H : Hash D) : StringForm → Text D → Bool
  | any, _ => true
  | uuid, .uuid _ => true
  | uuid, _ => false
  | slug, .lit s => s.toList.all isSlugChar && s.toList.length != 0
  | slug, _ => true
  | idempotencyKey, .lit s =>
    match s.toList with
    | [] => false
    | c :: cs => c.isAlphanum && cs.all isKeyChar && 15 ≤ cs.length && cs.length ≤ 127
  | idempotencyKey, _ => true
  | field, .lit s => s.toList.all (fun c => c.isLower || c == '_') && s.toList.length != 0
  | field, .hex d => H.allLetters d
  | field, .uuid _ => false

mutual

/-- `validate`: the value has exactly the shape of the schema. -/
def Schema.validate (H : Hash D) (j : Json D) : Schema → Bool
  | .object properties =>
    match j with
    | .obj items =>
      items.all (fun item => (properties.lookup item.1).isSome) &&
        Schema.validateProperties H j properties
    | _ => false
  | .array minItems maxItems items =>
    match j with
    | .arr js =>
      minItems ≤ js.length && js.length ≤ maxItems && js.all fun child => items.validate H child
    | _ => false
  | .string maxLength form =>
    match j with
    | .str t => 1 ≤ t.length && t.length ≤ maxLength && form.matches H t
    | _ => false
  | .integer minimum =>
    match j with
    | .int n => minimum ≤ n && n ≤ 2 ^ 63 - 1
    | _ => false

/-- Every property is there and has its schema. -/
def Schema.validateProperties (H : Hash D) (j : Json D) : List (String × Schema) → Bool
  | [] => true
  | (key, schema) :: properties =>
    (match j.get? key with
    | some child => schema.validate H child
    | none => false) && Schema.validateProperties H j properties

end

/-! ### The contracts of the tools -/

def uuidSchema : Schema := .string 36 .uuid

/-- `COMMON`: the arguments of every tool. -/
def commonSchema : List (String × Schema) :=
  [("workflow_id", uuidSchema),
    ("revision_id", .integer 1),
    ("actor_id", .string 50 .slug),
    ("correlation_id", uuidSchema),
    ("request_id", uuidSchema),
    ("idempotency_key", .string 128 .idempotencyKey)]

def emailSchema : Schema := .object [("subject", .string 240 .any), ("body", .string 12000 .any)]

/-- `PROPOSAL`: the content of a campaign proposal. -/
def proposalSchema : Schema :=
  .object
    [("event_copy", .string 12000 .any),
      ("invitation", emailSchema),
      ("reminder", emailSchema),
      ("social", .object [("body", .string 4000 .any)])]

/-- `EXTRAS`: the further arguments of each tool. -/
def Tool.extras : Tool → List (String × Schema)
  | getEventRevision => []
  | getPolicyContext => []
  | requestClarification =>
    [("questions", .array 1 12
      (.object [("field", .string 64 .field), ("question", .string 500 .any)]))]
  | proposeCampaignDrafts => [("proposal", proposalSchema)]
  | validateProposal => [("proposal_id", uuidSchema)]
  | requestEventbriteDraft => [("proposal_id", uuidSchema)]
  | requestIterableDrafts => [("proposal_id", uuidSchema)]
  | getOperationStatus => [("operation_id", uuidSchema)]

/-- `TOOL_SCHEMAS`. -/
def toolSchema (tool : Tool) : Schema := .object (commonSchema ++ tool.extras)

/-- `validate_tool_arguments`: the tool of a call whose arguments are bounded and have its schema. -/
def validateToolArguments (H : Hash D) (toolName : String) (arguments : Json D) : Option Tool :=
  if arguments.bounded then
    match Tool.ofName toolName with
    | some tool => if (toolSchema tool).validate H arguments then some tool else none
    | none => none
  else none

theorem ofName_of_validateToolArguments {H : Hash D} {toolName : String} {arguments : Json D}
    {tool : Tool} (h : validateToolArguments H toolName arguments = some tool) :
    Tool.ofName toolName = some tool := by
  unfold validateToolArguments at h
  split_ifs at h
  split at h
  · rename_i tool' htool
    split_ifs at h
    rw [htool, h]
  · cases h

end CivicLoop
