import Mathlib.Data.Rat.Init
import Mathlib.Data.Nat.Notation
import Mathlib.Logic.Basic

/-!
# Scoring an exposure response

`scoring.ts`: the rules by which an Elliptic wallet exposure response blocks an address.
The floating-point numbers of the response are a parameter.

## Main definitions

* `Floats` — floating-point numbers
* `scoreResponse` — the verdict on a response

## Main results

* `scoreResponse_blocked_iff` — a response blocks when it is malformed or one of its
  evaluations fires
-/

namespace PrivacyPool.EllipticProxy

/-- Floating-point numbers: literals and the operations that scoring uses. -/
structure Floats where
  Number : Type
  lit : ℚ → Number
  add : Number → Number → Number
  mul : Number → Number → Number
  div : Number → Number → Number
  /-- `x > y`, in the order of its arguments. -/
  gt : Number → Number → Bool
  /-- `x >= y` -/
  ge : Number → Number → Bool

section Scoring

variable (fl : Floats)

/-- A counterparty that a rule has matched. -/
structure MatchedElement where
  contributionPercentage : fl.Number
  contributionUsd : Option fl.Number
  counterpartyPercentage : Option fl.Number
  counterpartyUsd : Option fl.Number

/-- A rule that has been evaluated, with its matches. -/
structure Evaluation where
  ruleId : String
  riskScore : Option fl.Number
  matchedElements : List (MatchedElement fl)

/-- The fields of a response, with missing lists empty. -/
structure EllipticResponse where
  processStatus : String
  source : List (Evaluation fl)
  destination : List (Evaluation fl)

/-- What a rule has to reach to fire. -/
structure RuleThresholds where
  counterpartyPercentage : fl.Number
  counterpartyUsd : fl.Number
  contributionPercentage : fl.Number
  contributionUsd : fl.Number
  hardBlockUsd : Option fl.Number

/-- `RULES`: illicit activity, sanctioned entities, obfuscation and one exploit. -/
def rules (ruleId : String) : Option (RuleThresholds fl) :=
  if ruleId = "8f023e48-b9c2-41c6-8c8a-42a936eee86d" then
    some ⟨fl.lit (1 / 10), fl.lit 0, fl.lit (1 / 10), fl.lit 10, some (fl.lit 5000)⟩
  else if ruleId = "1f86dce1-166a-4749-a5df-3972fae7635a" then
    some ⟨fl.lit 0, fl.lit 0, fl.lit (1 / 10), fl.lit 10, some (fl.lit 5000)⟩
  else if ruleId = "1e24a6cf-620a-4c89-b423-5e43b2f13614" then
    some ⟨fl.lit (1 / 10), fl.lit 0, fl.lit (1 / 10), fl.lit 10, none⟩
  else if ruleId = "090208b1-18e3-4da0-94d3-23e7eca5fd92" then
    some ⟨fl.lit (1 / 100000), fl.lit 0, fl.lit (1 / 10), fl.lit 10, none⟩
  else none

/-- `HARD_BLOCK_RULES` -/
def hardBlockRules : List String :=
  ["8f023e48-b9c2-41c6-8c8a-42a936eee86d", "1f86dce1-166a-4749-a5df-3972fae7635a"]

/-- `ALLOWED_RISK_EXPOSURE` -/
def allowedRiskExposure : fl.Number := fl.lit (1 / 100)

/-- The sums over all matches of a rule, the counterparty shares weighted by the contributions. -/
structure Aggregated where
  counterpartyPercentage : fl.Number
  counterpartyUsd : fl.Number
  contributionPercentage : fl.Number
  contributionUsd : fl.Number

/-- Add one matched element to the totals. -/
def aggregateElement (totals : Aggregated fl) (element : MatchedElement fl) : Aggregated fl where
  counterpartyPercentage := fl.add totals.counterpartyPercentage
    (fl.mul (fl.div element.contributionPercentage (fl.lit 100))
      (element.counterpartyPercentage.getD (fl.lit 0)))
  counterpartyUsd := fl.add totals.counterpartyUsd (element.counterpartyUsd.getD (fl.lit 0))
  contributionPercentage := fl.add totals.contributionPercentage element.contributionPercentage
  contributionUsd := fl.add totals.contributionUsd (element.contributionUsd.getD (fl.lit 0))

/-- The matches of a rule, taken together. -/
def aggregateElements (elements : List (MatchedElement fl)) : Aggregated fl :=
  elements.foldl (aggregateElement fl) ⟨fl.lit 0, fl.lit 0, fl.lit 0, fl.lit 0⟩

variable {fl}

/-- Whether totals reach the amount that blocks on its own. -/
def RuleThresholds.hardBlocked (rule : RuleThresholds fl) (aggregated : Aggregated fl) : Bool :=
  match rule.hardBlockUsd with
  | some hardBlockUsd => fl.ge aggregated.contributionUsd hardBlockUsd
  | none => false

/-- Whether totals pass the thresholds of a rule. -/
def shouldFilter (aggregated : Aggregated fl) (rule : RuleThresholds fl) : Bool :=
  if rule.hardBlocked aggregated then true
  else
    let contributionExceeded := fl.gt aggregated.contributionUsd rule.contributionUsd &&
      fl.gt aggregated.contributionPercentage rule.contributionPercentage
    let counterpartyExceeded := fl.gt aggregated.counterpartyUsd rule.counterpartyUsd &&
      fl.gt aggregated.counterpartyPercentage rule.counterpartyPercentage
    contributionExceeded || counterpartyExceeded

variable (fl) in

/-- A rule that fires. -/
structure Trigger where
  ruleId : String
  percentage : fl.Number
  riskScore : Option fl.Number

/-- The trigger of an evaluation, unless a known rule filters it out. -/
def buildTrigger (evaluation : Evaluation fl) : Option (Trigger fl) :=
  let aggregated := aggregateElements fl evaluation.matchedElements
  match rules fl evaluation.ruleId with
  | none => some ⟨evaluation.ruleId, aggregated.contributionPercentage, evaluation.riskScore⟩
  | some rule =>
    -- A hard block overrides the score of the rules that have one.
    let riskScore := if evaluation.ruleId ∈ hardBlockRules ∧ rule.hardBlocked aggregated = true
      then some (fl.lit 10) else evaluation.riskScore
    if shouldFilter aggregated rule then
      some ⟨evaluation.ruleId, aggregated.contributionPercentage, riskScore⟩
    else none

/-- The rules that fire. -/
def filterAndBuildTriggers (evaluations : List (Evaluation fl)) : List (Trigger fl) :=
  evaluations.filterMap buildTrigger

/-- Whether a trigger exceeds the allowed exposure. -/
def Trigger.fires (trigger : Trigger fl) : Bool :=
  fl.gt (trigger.riskScore.getD trigger.percentage) (allowedRiskExposure fl)

/-- Why a response is scored as it is. -/
inductive ScoringReason
  | clean
  | malformedJson
  | incomplete
  | ruleTriggered
  | unknownRule
  deriving DecidableEq, Repr

/-- The score of a response: whether it blocks, and why. -/
structure ScoringResult where
  blocked : Bool
  reason : ScoringReason
  triggeringRuleIds : List String
  deriving DecidableEq, Repr

/-- The verdict on a response, absent where its text is no JSON. -/
def scoreResponse (ellipticBody : Option (EllipticResponse fl)) : ScoringResult :=
  match ellipticBody with
  -- What cannot be read is blocked.
  | none => ⟨true, .malformedJson, []⟩
  | some response =>
    if response.processStatus ≠ "complete" then ⟨false, .incomplete, []⟩
    else
      let triggers := filterAndBuildTriggers response.source ++
        filterAndBuildTriggers response.destination
      let firedTriggers := triggers.filter Trigger.fires
      if firedTriggers = [] then ⟨false, .clean, []⟩
      else
        let triggeringRuleIds := (firedTriggers.map Trigger.ruleId).eraseDups
        -- A rule without thresholds filters nothing out; when it fires, the reason says so.
        let hasUnknownRule := triggeringRuleIds.any fun ruleId => (rules fl ruleId).isNone
        ⟨true, if hasUnknownRule then .unknownRule else .ruleTriggered, triggeringRuleIds⟩

/-- Whether an evaluation blocks: its trigger passes the thresholds and fires. -/
def Evaluation.fires (evaluation : Evaluation fl) : Bool :=
  (buildTrigger evaluation).any Trigger.fires

/-- A response blocks exactly when it is no JSON, or when it is complete and one of its
evaluations fires, at the source or at the destination. -/
theorem scoreResponse_blocked_iff {ellipticBody : Option (EllipticResponse fl)} :
    (scoreResponse ellipticBody).blocked = true ↔ ∀ response ∈ ellipticBody,
      response.processStatus = "complete" ∧
        ∃ evaluation ∈ response.source ++ response.destination, evaluation.fires = true := by
  cases ellipticBody with
  | none => simp [scoreResponse]
  | some response =>
    -- Nothing has fired exactly when no evaluation fires.
    have hfired : (filterAndBuildTriggers response.source ++
        filterAndBuildTriggers response.destination).filter Trigger.fires = [] ↔
        ¬∃ evaluation ∈ response.source ++ response.destination, evaluation.fires = true := by
      simp only [filterAndBuildTriggers, ← List.filterMap_append, List.filter_eq_nil_iff,
        List.mem_filterMap, Evaluation.fires, Option.any_eq_true]
      grind
    simp only [scoreResponse, Option.mem_def, Option.some.injEq, forall_eq']
    by_cases hstatus : response.processStatus = "complete"
    · rw [if_neg fun hother => hother hstatus]
      by_cases hnone : (filterAndBuildTriggers response.source ++
          filterAndBuildTriggers response.destination).filter Trigger.fires = []
      · rw [if_pos hnone]
        exact iff_of_false Bool.false_ne_true fun h => hfired.mp hnone h.2
      · rw [if_neg hnone]
        rw [hfired, not_not] at hnone
        exact iff_of_true rfl ⟨hstatus, hnone⟩
    · rw [if_pos hstatus]
      exact iff_of_false Bool.false_ne_true fun h => hstatus h.1

/-- Further evaluations never lift a block. -/
theorem scoreResponse_blocked_mono {response response' : EllipticResponse fl}
    (hstatus : response'.processStatus = response.processStatus)
    (hsub : response.source ++ response.destination ⊆ response'.source ++ response'.destination)
    (hblocked : (scoreResponse (some response)).blocked = true) :
    (scoreResponse (some response')).blocked = true := by
  rw [scoreResponse_blocked_iff] at hblocked ⊢
  simp only [Option.mem_def, Option.some.injEq, forall_eq'] at hblocked ⊢
  obtain ⟨hcomplete, evaluation, hmem, hfires⟩ := hblocked
  exact ⟨hstatus.trans hcomplete, evaluation, hsub hmem, hfires⟩

end Scoring

end PrivacyPool.EllipticProxy
