import Mathlib.Data.List.Nodup
import Mathlib.Data.String.Basic
import NewApi.Lib.Text

/-!
# Header overrides

A channel can set headers of the requests that are sent to it: by a fixed map, and by
the header operations of its parameter override. The operations read the headers of
the client and change a working copy of the header override, `HeaderContext`.

A map of the source is the list of its entries here, in the order in which a loop meets
them. Headers are kept in the order of their names, so that the order in which they were set
does not matter (`sanitizeHeaderOverrideMap_perm`). Names and values of headers are texts;
letters are lowered as ASCII has them.
-/

namespace NewApi.Relay

/-- A value of a configuration, as JSON gives it. A number is its text. -/
inductive OverrideValue
  | null
  | bool (b : Bool)
  | num (text : String)
  | str (text : String)
  | arr (items : List OverrideValue)
  | obj (fields : List (String × OverrideValue))

/-! ## Texts -/

/-- `strings.TrimSpace`. -/
def trimSpace (text : String) : String := String.ofList (Text.trimSpace text.toList)

/-- `strings.ToLower`. -/
def toLower (text : String) : String := String.ofList (text.toList.map Char.toLower)

/-- `normalizeHeaderContextKey`. -/
def normalizeHeaderContextKey (key : String) : String := trimSpace (toLower key)

mutual

/-- `fmt.Sprintf("%v", value)`. -/
def OverrideValue.sprint : OverrideValue → String
  | .null => "<nil>"
  | .bool b => if b then "true" else "false"
  | .num text => text
  | .str text => text
  | .arr items => "[" ++ " ".intercalate (sprintItems items) ++ "]"
  | .obj fields => "map[" ++ " ".intercalate (sprintFields fields) ++ "]"

def sprintItems : List OverrideValue → List String
  | [] => []
  | item :: items => item.sprint :: sprintItems items

/-- The entries of a map. It is printed in the order of its keys, so an object has its fields
in that order. -/
def sprintFields : List (String × OverrideValue) → List String
  | [] => []
  | (key, value) :: fields => (key ++ ":" ++ value.sprint) :: sprintFields fields

end

/-- `splitHeaderListValue`. -/
def splitHeaderListValue (raw : String) : List String :=
  ((raw.toList.splitOn ',').map fun item => String.ofList (Text.trimSpace item)).filter (· ≠ "")

/-! ## Maps of headers -/

/-- Headers, by their normalised names. -/
abbrev HeaderMap := List (String × String)

namespace HeaderMap

variable (headers : HeaderMap)

def get (name : String) : Option String := headers.lookup name

def delete (name : String) : HeaderMap := headers.filter fun header => header.1 ≠ name

/-- The header is replaced, or put in its place. -/
def set (name value : String) : HeaderMap → HeaderMap
  | [] => [(name, value)]
  | header :: headers =>
    if header.1 = name then (name, value) :: headers
    else if name < header.1 then (name, value) :: header :: headers
    else header :: set name value headers

theorem set_comm {m n : String} (h : m ≠ n) (v w : String) (headers : HeaderMap) :
    (headers.set m v).set n w = (headers.set n w).set m v := by
  induction headers with
  | nil => rcases lt_or_gt_of_ne h with hlt | hlt <;> simp [set, h, h.symm, hlt, hlt.asymm]
  | cons header headers ih => grind [set]

end HeaderMap

/-- `isHeaderPassthroughRuleKeyForOverride`. -/
def isHeaderPassthroughRuleKey (key : String) : Bool :=
  let key := trimSpace (toLower key)
  if key = "" then false
  else if key = "*" then true
  else "re:".toList.isPrefixOf key.toList || "regex:".toList.isPrefixOf key.toList

/-- One entry of `sanitizeHeaderOverrideMap`. -/
def sanitizeHeader (target : HeaderMap) (header : String × OverrideValue) : HeaderMap :=
  let name := normalizeHeaderContextKey header.1
  if name = "" then target
  else
    let value := trimSpace header.2.sprint
    if value = "" then if isHeaderPassthroughRuleKey name then target.set name "" else target
    else target.set name value

/-- `sanitizeHeaderOverrideMap`. -/
def sanitizeHeaderOverrideMap (source : List (String × OverrideValue)) : HeaderMap :=
  source.foldl sanitizeHeader []

theorem sanitizeHeader_comm {x y : String × OverrideValue}
    (h : normalizeHeaderContextKey x.1 ≠ normalizeHeaderContextKey y.1) (target : HeaderMap) :
    sanitizeHeader (sanitizeHeader target x) y = sanitizeHeader (sanitizeHeader target y) x := by
  have hsets : ∀ header : String × OverrideValue,
      (∀ target, sanitizeHeader target header = target) ∨ ∃ value, ∀ target,
        sanitizeHeader target header = target.set (normalizeHeaderContextKey header.1) value := by
    intro header
    unfold sanitizeHeader
    dsimp only
    split_ifs
    · exact .inl fun _ => rfl
    · exact .inr ⟨_, fun _ => rfl⟩
    · exact .inl fun _ => rfl
    · exact .inr ⟨_, fun _ => rfl⟩
  rcases hsets x with hx | ⟨v, hx⟩ <;> rcases hsets y with hy | ⟨w, hy⟩ <;> simp only [hx, hy]
  exact HeaderMap.set_comm h v w target

/-- A map whose names are apart gives the same headers in whatever order its loop goes. -/
theorem sanitizeHeaderOverrideMap_perm {source source' : List (String × OverrideValue)}
    (hperm : source.Perm source')
    (hnames : (source.map fun header => normalizeHeaderContextKey header.1).Nodup) :
    sanitizeHeaderOverrideMap source = sanitizeHeaderOverrideMap source' := by
  refine hperm.foldl_eq' (fun x hx y hy target => ?_) []
  by_cases hsame : normalizeHeaderContextKey x.1 = normalizeHeaderContextKey y.1
  · rw [List.inj_on_of_nodup_map hnames hx hy hsame]
  · exact sanitizeHeader_comm hsame target

def HeaderMap.toValues (headers : HeaderMap) : List (String × OverrideValue) :=
  headers.map fun header => (header.1, .str header.2)

/-- `buildRequestHeadersContext`. -/
def buildRequestHeadersContext (headers : List (String × String)) : HeaderMap :=
  headers.foldl (fun target header =>
    let name := normalizeHeaderContextKey header.1
    let value := trimSpace header.2
    if name = "" ∨ value = "" then target else target.set name value) []

/-! ## Operations -/

/-- The headers of the client, and the header override that the operations change. -/
structure HeaderContext where
  requestHeaders : HeaderMap
  headerOverride : HeaderMap
deriving DecidableEq

namespace HeaderContext

/-- `getHeaderValueFromContext`. -/
def getHeaderValue (context : HeaderContext) (headerName : String) : Option String :=
  let name := normalizeHeaderContextKey headerName
  if name = "" then none
  else
    [context.headerOverride, context.requestHeaders].findSome? fun source =>
      (source.get name).bind fun raw =>
        let value := trimSpace raw
        if value = "" then none else some value

mutual

/-- `parseHeaderReplacementTokens`. -/
def parseHeaderReplacementTokens : OverrideValue → Except String (List String)
  | .null => .ok []
  | .str raw => .ok (splitHeaderListValue raw)
  | .arr items => (parseHeaderReplacementItems items).map List.eraseDups
  | .obj _ => .error "header replacement value must be string, array or null"
  | .bool b => .ok [if b then "true" else "false"]
  | .num text => .ok (if trimSpace text = "" then [] else [trimSpace text])

def parseHeaderReplacementItems : List OverrideValue → Except String (List String)
  | [] => .ok []
  | item :: items => do
    let tokens ← parseHeaderReplacementTokens item
    let rest ← parseHeaderReplacementItems items
    return tokens ++ rest

end

/-- `parseHeaderKeepOnlyDeclared`. -/
def parseHeaderKeepOnlyDeclared (mapping : List (String × OverrideValue)) : Bool :=
  match mapping.lookup "$keep_only_declared" with
  | some (.bool keepOnlyDeclared) => keepOnlyDeclared
  | _ => false

def replaceToken (mapping : List (String × OverrideValue)) (token : String) :
    Except String (List String) :=
  let keepOnlyDeclared := parseHeaderKeepOnlyDeclared mapping
  match mapping.lookup token, mapping.lookup "*" with
  | some replacement, _ => parseHeaderReplacementTokens replacement
  | none, some wildcard =>
    if keepOnlyDeclared then .ok [] else parseHeaderReplacementTokens wildcard
  | none, none => .ok (if keepOnlyDeclared then [] else [token])

variable (context : HeaderContext)

/-- `resolveHeaderOverrideValueByMapping`. -/
def resolveByMapping (headerName : String) (mapping : List (String × OverrideValue)) :
    Except String (Option String) := do
  if mapping.isEmpty then throw "header value mapping cannot be empty"
  let appendTokens ← parseHeaderReplacementTokens ((mapping.lookup "$append").getD .null)
  let sourceTokens := ((context.getHeaderValue headerName).map splitHeaderListValue).getD []
  let replaced ← sourceTokens.mapM (replaceToken mapping)
  let resultTokens := (replaced.flatten ++ appendTokens).eraseDups
  return if resultTokens.isEmpty then none else some (",".intercalate resultTokens)

/-- `resolveHeaderOverrideValue`. -/
def resolveHeaderOverrideValue (headerName : String) : OverrideValue → Except String (Option String)
  | .null => .error "header value is required"
  | .obj mapping => context.resolveByMapping headerName mapping
  | value =>
    let headerValue := trimSpace value.sprint
    .ok (if headerValue = "" then none else some headerValue)

/-- `setHeaderOverrideInContext`. -/
def setHeaderOverride (headerName : String) (value : OverrideValue) (keepOrigin : Bool) :
    Except String HeaderContext := do
  let name := normalizeHeaderContextKey headerName
  if name = "" then throw "header name is required"
  if keepOrigin && (((context.headerOverride.get name).map trimSpace).getD "") ≠ "" then
    return context
  match ← context.resolveHeaderOverrideValue name value with
  | none => return { context with headerOverride := context.headerOverride.delete name }
  | some headerValue =>
    return { context with headerOverride := context.headerOverride.set name headerValue }

/-- `deleteHeaderOverrideInContext`. -/
def deleteHeaderOverride (headerName : String) : Except String HeaderContext :=
  let name := normalizeHeaderContextKey headerName
  if name = "" then .error "header name is required"
  else .ok { context with headerOverride := context.headerOverride.delete name }

/-- `copyHeaderInContext`, with `none` for `errSourceHeaderNotFound`. -/
def copyHeader (fromHeader toHeader : String) (keepOrigin : Bool) :
    Except String (Option HeaderContext) :=
  let source := normalizeHeaderContextKey fromHeader
  let target := normalizeHeaderContextKey toHeader
  if source = "" ∨ target = "" then .error "copy_header from/to is required"
  else match context.getHeaderValue source with
    | none => .ok none
    | some value => (context.setHeaderOverride target (.str value) keepOrigin).map some

/-- `moveHeaderInContext`. -/
def moveHeader (fromHeader toHeader : String) (keepOrigin : Bool) :
    Except String (Option HeaderContext) :=
  let source := normalizeHeaderContextKey fromHeader
  let target := normalizeHeaderContextKey toHeader
  if source = "" ∨ target = "" then .error "move_header from/to is required"
  else match context.copyHeader source target keepOrigin with
    | .ok (some context') =>
      if source = target then .ok (some context')
      else (context'.deleteHeaderOverride source).map some
    | result => result

/-- The headers of `pass_headers`, one after the other. -/
def passHeaders (keepOrigin : Bool) : List String → HeaderContext → Except String HeaderContext
  | [], context => .ok context
  | name :: names, context =>
    match context.copyHeader name name keepOrigin with
    | .error err => .error err
    | .ok none => passHeaders keepOrigin names context
    | .ok (some context') => passHeaders keepOrigin names context'

end HeaderContext

/-- The names that `parseHeaderPassThroughNames` keeps. -/
def normalizeNames (values : List String) : List String :=
  ((values.map normalizeHeaderContextKey).filter (· ≠ "")).eraseDups

def someNames (names : List String) : Except String (List String) :=
  if names.isEmpty then .error "pass_headers value is invalid" else .ok names

/-- `parseHeaderPassThroughNames`. A text may hold JSON, which may hold such texts again,
so the depth of that nesting is bounded by `fuel`. -/
def parseHeaderPassThroughNames (parse : String → Option OverrideValue) :
    Nat → OverrideValue → Except String (List String)
  | _, .null => .error "pass_headers value is required"
  | fuel, .str raw =>
    let trimmed := trimSpace raw
    if trimmed = "" then .error "pass_headers value is required"
    else
      let names := someNames (normalizeNames ((trimmed.toList.splitOn ',').map String.ofList))
      if trimmed.toList.head? = some '[' ∨ trimmed.toList.head? = some (Char.ofNat 0x7b) then
        match parse trimmed, fuel with
        | some parsed, fuel + 1 => parseHeaderPassThroughNames parse fuel parsed
        | _, _ => names
      else names
  | _, .arr items => someNames (normalizeNames (items.map OverrideValue.sprint))
  | 0, .obj _ => .error "pass_headers value is invalid"
  | fuel + 1, .obj fields =>
    let candidates := ["headers", "names", "header"].flatMap fun field =>
      match fields.lookup field with
      | none => []
      | some value => ((parseHeaderPassThroughNames parse fuel value).toOption).getD []
    someNames (normalizeNames candidates)
  | _, .bool _ | _, .num _ => .error "pass_headers value must be string, array or object"

end NewApi.Relay
