import NewApi.Lib.Text

/-!
# Model names

A model name may carry modifiers at its end: `@key:value` segments, and for three families an
effort or a thinking budget. `baseModelName` cuts them off, and `formatMatchingModelName`
replaces some families of names by one name with a star.

The lists of names that are kept hold regular expressions, so they are predicates here.
-/

namespace NewApi

open Text

/-- The settings that model names are read with. -/
structure NameSettings where
  /-- `ShouldPreserveThinkingSuffix`. -/
  preserveThinkingSuffix : List Char → Bool
  /-- `ShouldPreserveEffortTail`. -/
  preserveEffortTail : List Char → Bool
  (claudeThinkingAdapterEnabled geminiThinkingAdapterEnabled : Bool)
  /-- A compiled expression matches; an expression that does not compile matches nothing. -/
  regexMatches : List Char → List Char → Bool

/-! ## Modifiers -/

def isLetter (c : Char) : Bool :=
  ('a'.toNat ≤ c.toNat && c.toNat ≤ 'z'.toNat) || ('A'.toNat ≤ c.toNat && c.toNat ≤ 'Z'.toNat)

/-- The segment reads `key:value` with a key that is a word. -/
def parseModelModifierSegment (segment : List Char) : Bool :=
  match cut ':' segment with
  | (first :: key, some _) =>
    isLetter first && key.all fun c => isLetter c || c.isDigit || c = '_' || c = '-'
  | _ => false

/-- `ParseModelModifiers`, the base. Only a chain of modifiers at the end is cut off. -/
def parseModelModifiers (modelName : List Char) : List Char :=
  match split '@' modelName with
  | [] => modelName
  | first :: parts =>
    let rest := (parts.reverse.dropWhile parseModelModifierSegment).reverse
    if rest = parts then modelName
    else
      let base := join '@' (first :: rest)
      if base = [] then modelName else base

/-! ## Legacy aliases -/

def effortSuffixes : List (List Char) :=
  ["-max".toList, "-xhigh".toList, "-high".toList, "-medium".toList, "-low".toList,
    "-minimal".toList, "-none".toList]

/-- `TrimEffortSuffixWithSuffixes`, the base. -/
def trimEffortSuffix (modelName : List Char) : Option (List Char) :=
  effortSuffixes.findSome? fun suffix => cutSuffix suffix modelName

def isModelChar (c : Char) : Bool := ('a'.toNat ≤ c.toNat && c.toNat ≤ 'z'.toNat) || c.isDigit

/-- `[a-z0-9][a-z0-9._-]*` to the end. -/
def isModelTail : List Char → Bool
  | [] => false
  | first :: rest =>
    isModelChar first && rest.all fun c => isModelChar c || c = '.' || c = '_' || c = '-'

/-- `legacyClaudeModelPattern` and `legacyGeminiModelPattern`. -/
def legacyModelPattern (family name : List Char) : Bool :=
  match cutPrefix family name with
  | some rest => isModelTail rest
  | none => false

/-- `legacyOpenAIModelPattern`. -/
def legacyOpenAIModelPattern (name : List Char) : Bool :=
  legacyModelPattern "gpt-".toList name ||
    match name with
    | 'o' :: digit :: rest =>
      digit.isDigit && digit ≠ '0' &&
        rest.all fun c => isModelChar c || c = '.' || c = '_' || c = '-'
    | _ => false

/-- `parseProviderModelSuffix`, the base. A budget that is no number is an error, which the
callers here treat as nothing found. -/
def parseProviderModelSuffix (modelName requiredPrefix : List Char) (allowThinkingAlias : Bool) :
    Option (List Char) :=
  let effort := (trimEffortSuffix modelName).filter requiredPrefix.isPrefixOf
  if allowThinkingAlias then
    match cutLast "-thinking-".toList modelName with
    | some (baseModel, budget) =>
      if requiredPrefix.isPrefixOf baseModel && (parseInt budget).isSome then some baseModel
      else none
    | none =>
      match cutSuffix "-nothinking".toList modelName with
      | some before => some before
      | none =>
        match cutSuffix "-thinking".toList modelName with
        | some before => some before
        | none => effort
  else effort

/-- `ParseClaudeModelSuffix` and `ParseGeminiModelSuffix` on a name without a namespace. -/
def parseFamilyModelSuffix (family bare : List Char) (allowThinkingAlias : Bool) :
    Option (List Char) :=
  (parseProviderModelSuffix bare family allowThinkingAlias).filter (legacyModelPattern family)

variable (cfg : NameSettings) (modelName : List Char)

/-- `ParseOpenAIReasoningEffortFromModelSuffix`, the base. -/
def parseOpenAIReasoningEffortFromModelSuffix (bare : List Char) : Option (List Char) :=
  if cfg.preserveEffortTail bare then none
  else (trimEffortSuffix bare).filter legacyOpenAIModelPattern

/-- What is before the last slash, with it, and what is after it. -/
def splitModelNamespace : List Char × List Char :=
  match cutLast ['/'] modelName with
  | some (before, after) => (before ++ ['/'], after)
  | none => ([], modelName)

/-- `ParseLegacyModelSuffix`, the base. -/
def parseLegacyModelSuffix : Option (List Char) :=
  let (namespace_, bare) := splitModelNamespace modelName
  let base :=
    if "claude-".toList.isPrefixOf bare then
      parseFamilyModelSuffix "claude-".toList bare cfg.claudeThinkingAdapterEnabled
    else if "gemini-".toList.isPrefixOf bare then
      parseFamilyModelSuffix "gemini-".toList bare cfg.geminiThinkingAdapterEnabled
    else parseOpenAIReasoningEffortFromModelSuffix cfg bare
  base.map fun base => namespace_ ++ base

/-- `BaseModelName`. -/
def baseModelName : List Char :=
  if cfg.preserveThinkingSuffix modelName then modelName
  else
    let base := parseModelModifiers modelName
    if cfg.preserveThinkingSuffix base then base
    else (parseLegacyModelSuffix cfg base).getD base

/-! ## Names with a star -/

def handleThinkingBudgetModel (name start wildcard : List Char) : List Char :=
  if start.isPrefixOf name && occursIn "-thinking-".toList name then wildcard else name

/-- `FormatMatchingModelName`. -/
def formatMatchingModelName (name : List Char) : List Char :=
  let name :=
    if "gemini-2.5-flash-lite".toList.isPrefixOf name then
      handleThinkingBudgetModel name "gemini-2.5-flash-lite".toList
        "gemini-2.5-flash-lite-thinking-*".toList
    else if "gemini-2.5-flash".toList.isPrefixOf name then
      handleThinkingBudgetModel name "gemini-2.5-flash".toList
        "gemini-2.5-flash-thinking-*".toList
    else if "gemini-2.5-pro".toList.isPrefixOf name then
      handleThinkingBudgetModel name "gemini-2.5-pro".toList "gemini-2.5-pro-thinking-*".toList
    else name
  let name := if "gpt-4-gizmo".toList.isPrefixOf name then "gpt-4-gizmo-*".toList else name
  if "gpt-4o-gizmo".toList.isPrefixOf name then "gpt-4o-gizmo-*".toList else name

/-- `RoutingMatchModelName`. -/
def routingMatchModelName (name : List Char) : List Char :=
  formatMatchingModelName (baseModelName cfg name)

def plainNames : NameSettings where
  preserveThinkingSuffix _ := false
  preserveEffortTail _ := false
  claudeThinkingAdapterEnabled := true
  geminiThinkingAdapterEnabled := true
  regexMatches _ _ := false

end NewApi
