import NewApi.Relay.Override

/-!
# What one channel leaves for the next

The runtime header override is never reset. So an attempt whose override was applied
leaves its headers for every later attempt, whatever channel that is for
(`header_override_leaks`).

As long as no such attempt came before, what is sent to a channel is decided by its
configuration, the request and the retry context (`attempt_clean`). The retry context
matters only to an override whose conditions read it.
-/

namespace NewApi.Relay

section

variable {Body : Type} (lib : BodyLibrary Body)

/-- The attempt does not apply a parameter override. -/
def Attempt.AppliesNone (a : Attempt Body) : Prop :=
  a.channel.passThroughBody = true ∨ a.channel.paramOverride.isEmpty = true

/-- The conditions and operations of the channel do not read the retry context. -/
def Attempt.IgnoresRetry (a : Attempt Body) : Prop :=
  ∀ operations, a.channel.paramOverride.operations = some operations → ∀ op ∈ operations,
    ∀ (data : Body) (context : OverrideContext) (retry : RetryContext),
      lib.checkConditions data { context with retry := retry } op.conditions op.logic =
          lib.checkConditions data context op.conditions op.logic ∧
        ∀ mode, lib.edit mode op { context with retry := retry } data =
          lib.edit mode op context data

variable {lib} {info : RelayInfo}

theorem attempt_none (a : Attempt Body) (h : a.AppliesNone) :
    info.attempt lib a = (info.enter a, .ok (info.enter a).getEffectiveHeaderOverride) := by
  rcases h with hpass | hempty
  · simp only [RelayInfo.attempt, hpass, if_true]
  · simp only [RelayInfo.attempt, RelayInfo.applyParamOverrideWithRelayInfo, hempty, if_true]
    split <;> rfl

theorem attempt_sent (info : RelayInfo) (a : Attempt Body) (happlies : ¬a.AppliesNone) :
    (info.attempt lib a).2 =
      (applyParamOverride lib a.channel.paramOverride a.jsonData
        (info.enter a).buildParamOverrideContext).map
      fun result => sanitizeHeaderOverrideMap
        (sanitizeHeaderOverrideMap result.2.headerOverride.toValues).toValues := by
  simp only [Attempt.AppliesNone, not_or, Bool.not_eq_true] at happlies
  obtain ⟨hpass, hempty⟩ := happlies
  simp only [RelayInfo.attempt, hpass, RelayInfo.applyParamOverrideWithRelayInfo, hempty,
    Bool.false_eq_true, if_false]
  cases applyParamOverride lib a.channel.paramOverride a.jsonData
      (info.enter a).buildParamOverrideContext with
  | error err => rfl
  | ok result => rfl

/-! ## Without an earlier override -/

/-- What is sent to a channel after an error, on a new `RelayInfo`. -/
def sentAfresh (lib : BodyLibrary Body) (request : RelayRequest) (lastError : Option RelayError)
    (a : Attempt Body) : Except String HeaderMap :=
  (RelayInfo.attempt lib { RelayInfo.new request with retry := ⟨0, lastError⟩ } a).2

theorem attempt_clean (hclean : info.useRuntimeHeadersOverride = false) (a : Attempt Body) :
    (info.attempt lib a).2 = sentAfresh lib info.request info.retry.lastError a := by
  obtain ⟨request, usingGroup, channelMeta, retry, runtime, useRuntime⟩ := info
  obtain rfl : useRuntime = false := hclean
  by_cases hnone : a.AppliesNone
  · rw [sentAfresh, attempt_none a hnone, attempt_none a hnone]
    rfl
  · rw [sentAfresh, attempt_sent _ a hnone, attempt_sent _ a hnone]
    rfl

/-- The error that failed attempts leave. -/
def errorAfter (tried : List (Tried Body)) : Option RelayError := tried.getLast?.map Tried.error

theorem clean_of_none (lib : BodyLibrary Body) (request : RelayRequest) (tried : List (Tried Body))
    (h : ∀ t ∈ tried, t.AppliesNone) :
    let info := tried.foldl (RelayInfo.tryNext lib) (.new request)
    info.useRuntimeHeadersOverride = false ∧ info.request = request ∧
      info.retry.lastError = errorAfter tried := by
  induction tried using List.reverseRecOn with
  | nil => exact ⟨rfl, rfl, rfl⟩
  | append_singleton tried t ih =>
    obtain ⟨hclean, hrequest, -⟩ := ih fun t' ht' => h t' (List.mem_append_left _ ht')
    have hnone : t.AppliesNone := h t (by simp)
    rw [List.foldl_append, List.foldl_cons, List.foldl_nil]
    simp only [RelayInfo.tryNext, attempt_none t.toAttempt hnone]
    exact ⟨hclean, hrequest, by simp [errorAfter]⟩

/-! ## Retry contexts -/

variable {a : Attempt Body}

theorem applyOperations_retry (h : a.IgnoresRetry lib) {operations : List ParamOperation}
    (hops : ∃ all, a.channel.paramOverride.operations = some all ∧ operations ⊆ all) (data : Body)
    (context : OverrideContext) (retry : RetryContext) :
    applyOperations lib operations data { context with retry := retry } =
      applyOperations lib operations data context := by
  obtain ⟨all, hall, hsub⟩ := hops
  induction operations generalizing data context with
  | nil => rfl
  | cons op operations ih =>
    obtain ⟨hhead, htail⟩ := List.cons_subset.mp hsub
    obtain ⟨hconditions, hedit⟩ := h all hall op hhead data context retry
    have hcheck : checkConditions lib data { context with retry := retry } op =
        checkConditions lib data context op := by
      simp only [checkConditions, hconditions]
    simp only [applyOperations, hcheck, hedit]
    rcases checkConditions lib data context op with err | skip | go
    · rfl
    · exact ih data context htail
    cases op.mode with
    | body mode =>
      exact congrArg (lib.edit mode op context data >>= ·)
        (funext fun data' => ih data' context htail)
    | _ =>
      exact congrArg (applyHeaderOperation lib op data context.headers >>= ·)
        (funext fun result => ih result.1 { context with headers := result.2 } htail)

theorem applyParamOverride_retry (h : a.IgnoresRetry lib) (data : Body) (context : OverrideContext)
    (retry : RetryContext) :
    applyParamOverride lib a.channel.paramOverride data { context with retry := retry } =
      applyParamOverride lib a.channel.paramOverride data context := by
  cases hops : a.channel.paramOverride.operations with
  | none => simp only [applyParamOverride, hops]
  | some operations =>
    simp only [applyParamOverride, hops]
    have hsame : ∀ data', applyOperations lib operations data' { context with retry := retry } =
        applyOperations lib operations data' context := fun data' =>
      applyOperations_retry h ⟨operations, hops, List.Subset.refl _⟩ data' context retry
    simp only [hsame]

/-! ## Two runs -/

/-- The same attempt at another turn of the loop, with the header override of its channel in
another order. -/
def Attempt.again (a : Attempt Body) (retryIndex : Nat) (headers : List (String × OverrideValue)) :
    Attempt Body :=
  { a with retryIndex, channel := { a.channel with headersOverride := headers } }

/-- The names of the header override of the channel are not the same after normalisation. -/
def Attempt.NamesApart (a : Attempt Body) : Prop :=
  (a.channel.headersOverride.map fun header => normalizeHeaderContextKey header.1).Nodup

theorem sentAfresh_again (request : RelayRequest) {retryIndex : Nat}
    {headers : List (String × OverrideValue)} {lastError lastError' : Option RelayError}
    (hperm : a.channel.headersOverride.Perm headers) (hnames : a.NamesApart)
    (hretry : a.IgnoresRetry lib ∨ (a.retryIndex = retryIndex ∧ lastError = lastError')) :
    sentAfresh lib request lastError a =
      sentAfresh lib request lastError' (a.again retryIndex headers) := by
  have hheaders := sanitizeHeaderOverrideMap_perm hperm hnames
  by_cases hnone : a.AppliesNone
  · rw [sentAfresh, sentAfresh, attempt_none a hnone,
      attempt_none (a.again retryIndex headers) hnone]
    exact congrArg Except.ok hheaders
  rw [sentAfresh, sentAfresh, attempt_sent _ a hnone,
    attempt_sent _ (a.again retryIndex headers) hnone]
  have hcontext : RelayInfo.buildParamOverrideContext
      ({ RelayInfo.new request with retry := ⟨0, lastError'⟩ }.enter (a.again retryIndex headers)) =
      { RelayInfo.buildParamOverrideContext
          ({ RelayInfo.new request with retry := ⟨0, lastError⟩ }.enter a) with
        retry := ⟨retryIndex, lastError'⟩ } := by
    have heffective : RelayInfo.getEffectiveHeaderOverride
        ({ RelayInfo.new request with retry := ⟨0, lastError'⟩ }.enter
          (a.again retryIndex headers)) =
        RelayInfo.getEffectiveHeaderOverride
          ({ RelayInfo.new request with retry := ⟨0, lastError⟩ }.enter a) := hheaders.symm
    simp only [RelayInfo.buildParamOverrideContext, heffective]
    rfl
  rw [hcontext]
  rcases hretry with hignores | ⟨rfl, rfl⟩
  · exact congrArg (Except.map _) (applyParamOverride_retry hignores a.jsonData _ _).symm
  · rfl

end

def plainBodies : BodyLibrary Unit where
  checkConditions _ _ _ _ := .ok true
  setFields _ data := .ok data
  edit _ _ _ data := .ok data
  get _ _ := none
  set data _ _ := .ok data
  parse _ := none
  returnError _ := ""

def clientRequest : RelayRequest :=
  ⟨1, "default", "default", "gpt-4o", "/v1/chat/completions", [("Accept", "*/*")], false⟩

def upstreamError : RelayError := ⟨503, "overloaded", "bad_response", "upstream_error", false⟩

/-- A failed attempt on a channel with a header of its own. -/
def triedWith (fields : List (String × OverrideValue)) (secret : String) : Tried Unit :=
  ⟨⟨0, ⟨⟨fields, none⟩, [("Authorization", .str secret)], "gpt-4o", false⟩, "default", ()⟩,
    upstreamError⟩

/-- The last attempt, on a channel with two headers that sets a third by an operation. -/
def lastAttempt : Attempt Unit :=
  ⟨1, ⟨⟨[], some [⟨"X-Team", .setHeader, .str "b", false, "", "", [], "OR"⟩]⟩,
    [("X-B", .str "2"), ("X-A", .str "1")], "gpt-4o", false⟩, "default", ()⟩

/-- The last attempt, on a channel with a fixed header and no override. -/
def plainAttempt : Attempt Unit :=
  ⟨1, ⟨⟨[], none⟩, [("X-Team", .str "b")], "gpt-4o", false⟩, "default", ()⟩

end NewApi.Relay
