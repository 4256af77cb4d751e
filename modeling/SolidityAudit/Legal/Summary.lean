import SolidityAudit.Audit.Issue
import SolidityAudit.Json.Writer
import SolidityAudit.Legal.Reply
import SolidityAudit.Outside.Request

/-!
# Legal summaries

A language model is asked for a legal summary of a contract or for a report on its legal risks. The
answer is passed on as it is. Whatever goes wrong, a fixed object takes its place: one when the
model answers in prose, another when there is no model or no answer.
-/

namespace SolidityAudit

/-- A language model for legal questions; without a key it is not asked. -/
structure Summarizer where
  key : Value
  model : Value
  riskModel : Value
deriving Repr

namespace Summarizer

/-! ## Fixed answers -/

/-- The summary when the model answered in prose. -/
def pendingSummary (reply : String) : Value :=
  .object
    [("summary", .str reply), ("keyFunctions", .list []),
     ("accessControls", .str "Analysis pending"), ("legalImplications", .list []),
     ("complianceNotes", .str "Review required"), ("legalRiskLevel", .str "MEDIUM")]

/-- The summary when there is no answer. -/
def unavailableSummary : Value :=
  .object
    [("summary", .str "Contract analysis unavailable - please review manually"),
     ("keyFunctions", .list [.str "Manual review required"]),
     ("accessControls", .str "Unable to determine"),
     ("legalImplications", .list [.str "Manual legal review recommended"]),
     ("complianceNotes", .str "Professional legal advice suggested"),
     ("legalRiskLevel", .str "HIGH")]

/-- The risk report when the model answered in prose. -/
def pendingRiskReport : Value :=
  .object
    [("overallRisk", .str "MEDIUM"),
     ("recommendations", .list [.str "Professional legal review recommended"]),
     ("liabilityScore", .int 5), ("complianceScore", .int 5)]

/-- The risk report when there is no answer. -/
def unavailableRiskReport : Value :=
  .object
    [("overallRisk", .str "HIGH"),
     ("recommendations",
      .list [.str "Immediate legal review required due to analysis failure"]),
     ("liabilityScore", .int 8), ("complianceScore", .int 8)]

/-! ## Prompts -/

/-- What the model is told to be when it summarizes. -/
def summaryRole : String :=
  "You are a legal expert specializing in smart contract analysis and blockchain law."

/-- What the model is told to be when it assesses risks. -/
def riskRole : String :=
  "You are a legal risk analyst specializing in smart contract compliance and regulatory affairs."

/-- Lines, each ended by a line feed. -/
def lines (texts : List String) : String :=
  String.join (texts.map (· ++ "\n"))

/-- The question for a summary of a source. -/
def summaryPrompt (source : String) : String :=
  lines
    ["", "Analyze this Solidity smart contract and provide a comprehensive legal summary:", "",
     source, "", "Please provide:", "1. A plain English summary of what this contract does",
     "2. Key functions and their purposes", "3. Access controls and permissions",
     "4. Potential legal implications", "5. Compliance considerations",
     "6. Risk assessment from a legal perspective", "",
     "Format the response as JSON with the following structure:", "\x7b",
     "  \"summary\": \"Plain English description\",",
     "  \"keyFunctions\": [\"function1\", \"function2\"],",
     "  \"accessControls\": \"Description of access controls\",",
     "  \"legalImplications\": [\"implication1\", \"implication2\"],",
     "  \"complianceNotes\": \"Compliance considerations\",",
     "  \"legalRiskLevel\": \"LOW/MEDIUM/HIGH\"", "\x7d"]

/-- The question for a report on issues and a complexity. -/
def riskPrompt (issues : List Value) (complexity : Value) : Except Fault String := do
  let issuesText ← writtenText (Json.text? (.list issues))
  let complexityText ← complexity.shown
  return lines
    ["", "Generate a legal risk assessment report based on these security findings and contract "
        ++ "complexity:", "",
     "Security Issues: " ++ issuesText,
     "Contract Complexity: " ++ complexityText, "",
     "Provide a comprehensive legal risk analysis focusing on:", "1. Liability concerns",
     "2. Regulatory compliance risks", "3. Financial exposure", "4. Operational risks",
     "5. Recommendations for risk mitigation", "",
     "Format as JSON with risk levels and actionable recommendations."]

/-! ## Asking -/

/-- How a summarizer is opened. -/
structure Options where
  key : Value := .null
  model : Value := .str "gpt-3.5-turbo"
  riskModel : Value := .str "gpt-4"
  timeout : Value := .float (.ofInt 60)
  retries : Value := .int 2
deriving Repr

/-- The options that fields give. -/
def Options.ofFields (fields : List (String × Value)) : Except Fault Options := do
  checkNames "LegalSummarizer" [] ["api_key", "model", "risk_model", "timeout", "max_retries"]
    (fields.map (·.1))
  let d : Options := {}
  let field (key : String) (default : Value) : Value := (fieldOf key fields).getD default
  return {
    key := field "api_key" d.key
    model := field "model" d.model
    riskModel := field "risk_model" d.riskModel
    timeout := field "timeout" d.timeout
    retries := field "max_retries" d.retries }

/-- Whether there is a key to a model. -/
def hasKey (s : Summarizer) : Bool := s.key.truthy

/-- A summarizer with the given key, or else with the one of the environment. -/
def start (o : Options) : Action Summarizer := do
  let key ←
    if o.key.truthy then pure o.key
    else do
      let found ← Action.ask (.environment "OPENAI_API_KEY")
      pure ((found.map Value.str).getD .null)
  if key.truthy then
    Action.settle (← Action.ask (.openChat key o.timeout o.retries))
  else
    Action.log .warning "No OpenAI API key provided - AI legal summaries disabled"
  return { key, model := o.model, riskModel := o.riskModel }

/-- The text with which a model answers. -/
def complete (model : Value) (role prompt : String) (maxTokens : Nat) : Action String := do
  let query : Outside.ChatQuery :=
    { model
      messages := [("system", role), ("user", prompt)]
      temperature := .ofDecimal false 1 (-1)
      maxTokens }
  let content ← Action.settle (← Action.ask (.chat query))
  if content.truthy then return content.display else throw .noReply

/-- The object in a reply, if there is one. -/
def readReply (reply : String) : Action (Option Value) := do
  if let some notice := Reply.retryNotice reply then
    Action.log .debug notice
  Action.settle (Reply.parse reply)

/-- The answer of a model: its object, or what takes the place of one. -/
def consult (ask : Action String) (pending : String → Value) (failure : String)
    (unavailable : Value) : Action Value := do
  let answer : Action Value := do
    let reply ← ask
    return (← readReply reply).getD (pending reply)
  match ← Action.attempt answer with
  | .ok v => return v
  | .error f =>
    Action.log .error (failure ++ ": " ++ f.message)
    return unavailable

/-- The legal summary of a source. -/
def summarize (s : Summarizer) (source : String) : Action Value :=
  if s.hasKey then
    consult (complete s.model summaryRole (summaryPrompt source) 2000) pendingSummary
      "AI analysis error" unavailableSummary
  else return unavailableSummary

/-- The report on the legal risks of issues and a complexity. -/
def reportRisks (s : Summarizer) (issues : List Value) (complexity : Value) : Action Value :=
  if s.hasKey then
    let ask : Action String := do
      complete s.riskModel riskRole (← Action.settle (riskPrompt issues complexity)) 1500
    consult ask (fun _ => pendingRiskReport) "Risk analysis error" unavailableRiskReport
  else return unavailableRiskReport

end Summarizer

end SolidityAudit
