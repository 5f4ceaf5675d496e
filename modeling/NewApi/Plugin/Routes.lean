import NewApi.Lib.Text

/-!
# Routes of plugins

A plugin declares its routes as paths with parameters `:name` and at the end perhaps `*name`
(`normalizeRoutePath`). A path is refused if it meets a namespace of the host, segment by segment
(`routePatternIntersectsNamespace`). `accepted_route_outside_namespaces` says that a path that is
accepted matches no URL path in one of these namespaces. `%q` is an argument.
-/

namespace NewApi.Plugin

open Text

variable (quoted : List Char → String) (routePath : List Char)

/-- `pathNamePattern`. -/
def pathName : List Char → Bool
  | [] => false
  | c :: rest => (c.isAlpha || c = '_') && rest.all fun c => c.isAlphanum || c = '_'

/-- `staticSegment`. -/
def staticSegment (segment : List Char) : Bool :=
  segment ≠ [] && segment.all fun c => c.isAlphanum || c ∈ ['.', '_', '~', '-']

/-- The loop over the segments. -/
def checkSegments (seenNames : List (List Char)) : List (List Char) → Except String Unit
  | [] => .ok ()
  | segment :: rest =>
    let path := quoted routePath
    let text := quoted segment
    if segment = [] ∧ rest = [] then .ok ()
    else if segment = ['.'] ∨ segment = ['.', '.'] then
      .error s!"plugin route path {path} must not contain dot segments"
    else match segment with
      | ':' :: name =>
        let repeated := quoted name
        if !pathName name then .error s!"plugin route path {path} has invalid parameter {text}"
        else if name ∈ seenNames then
          .error s!"plugin route path {path} repeats parameter {repeated}"
        else checkSegments (name :: seenNames) rest
      | '*' :: name =>
        let repeated := quoted name
        if rest ≠ [] ∨ !pathName name then
          .error s!"plugin route path {path} has an invalid catch-all segment"
        else if name ∈ seenNames then
          .error s!"plugin route path {path} repeats parameter {repeated}"
        else checkSegments (name :: seenNames) rest
      | _ =>
        if staticSegment segment then checkSegments seenNames rest
        else .error s!"plugin route path {path} has invalid segment {text}"

def normalizeRoutePath : Except String (List Char) :=
  let path := quoted routePath
  match routePath with
  | '/' :: rest =>
    if rest = [] then .error "plugin route path / is reserved"
    else if routePath.any (· ∈ ['?', '#', '%']) then
      .error s!"plugin route path {path} must not contain a query, fragment, or percent-encoding"
    else if occursIn ['/', '/'] routePath then
      .error s!"plugin route path {path} must not contain empty segments"
    else (checkSegments quoted routePath [] (split '/' rest)).map fun _ => routePath
  | _ => .error "plugin route path must start with /"

/-! ## Namespaces -/

def reservedRouteNamespaces : List (List Char) :=
  ["/api", "/assets", "/setup", "/v1/tasks", "/console", "/login", "/forbidden", "/sign-in",
    "/sign-up", "/forgot-password", "/oauth", "/otp", "/register", "/reset", "/privacy-policy",
    "/user-agreement", "/about", "/pricing", "/rankings", "/user", "/401", "/403", "/404", "/500",
    "/503", "/chat2link", "/system-settings", "/channels", "/chat", "/dashboard", "/errors",
    "/keys",
    "/models", "/playground", "/profile", "/redemption-codes", "/subscriptions", "/system-info",
    "/task-plugins", "/usage-logs", "/users", "/wallet"].map String.toList

/-- `strings.TrimPrefix(path, "/")`. -/
def trimSlash (path : List Char) : List Char := (cutPrefix ['/'] path).getD path

/-- The segments of a path. Behind a last slash there is an empty one. -/
def segments (path : List Char) : List (List Char) := split '/' (trimSlash path)

/-- The loop over the segments of a namespace. -/
def meets : List (List Char) → List (List Char) → Bool
  | _, [] => true
  | [], _ :: _ => false
  | routeSegment :: route, namespaceSegment :: rest =>
    if routeSegment.head? = some '*' then true
    else if routeSegment.head? ≠ some ':' ∧ routeSegment ≠ namespaceSegment then false
    else meets route rest

def routePatternIntersectsNamespace (reserved : List Char) : Bool :=
  meets (split '/' (trim '/' (trimSlash routePath))) (segments reserved)

def intersectingReservedNamespace : Option (List Char) :=
  reservedRouteNamespaces.find? (routePatternIntersectsNamespace routePath)

/-- What `validateRoute` does with the path. -/
def validateRoutePath : Except String (List Char) := do
  let path ← normalizeRoutePath quoted routePath
  match intersectingReservedNamespace path with
  | some reserved =>
    let text := quoted path
    let reserved := String.ofList reserved
    .error s!"plugin route path {text} intersects reserved namespace {reserved}"
  | none => .ok path

/-! ## Matching -/

def segmentMatches (pattern segment : List Char) : Bool :=
  if pattern.head? = some ':' then segment ≠ [] else pattern = segment

/-- A pattern matches segment by segment, and a last `*name` the rest. -/
def routeMatches : List (List Char) → List (List Char) → Bool
  | [], url => url.isEmpty
  | pattern :: rest, url =>
    if pattern.head? = some '*' ∧ rest = [] then true
    else match url with
      | [] => false
      | segment :: url => segmentMatches pattern segment && routeMatches rest url

theorem split_concat (sep : Char) (text : List Char) : ∃ piece pieces,
    split sep text = piece :: pieces ∧ split sep (text ++ [sep]) = piece :: (pieces ++ [[]]) := by
  induction text with
  | nil => exact ⟨[], [], rfl, by simp [split]⟩
  | cons c text ih =>
    obtain ⟨piece, pieces, htext, hmore⟩ := ih
    rw [List.cons_append, split, split, htext, hmore]
    split
    · exact ⟨[], piece :: pieces, rfl, rfl⟩
    · exact ⟨c :: piece, pieces, rfl, rfl⟩

theorem split_trimmed (text : List Char) : ∃ n, split '/' text =
    split '/' (text.rdropWhile (· = '/')) ++ List.replicate n [] := by
  induction text using List.reverseRecOn with
  | nil => exact ⟨0, rfl⟩
  | append_singleton text c ih =>
    by_cases hc : c = '/'
    · obtain ⟨n, hn⟩ := ih
      obtain ⟨piece, pieces, htext, hmore⟩ := split_concat '/' text
      subst hc
      refine ⟨n + 1, ?_⟩
      rw [List.rdropWhile_concat_pos _ _ _ (by simp), hmore, List.replicate_succ',
        ← List.append_assoc, ← hn, htext]
      rfl
    · refine ⟨0, ?_⟩
      rw [List.rdropWhile_concat_neg _ _ _ (by simpa using hc), List.replicate_zero,
        List.append_nil]

theorem meets_of_matches {route names more : List (List Char)} {n : Nat} (hnames : [] ∉ names)
    (h : routeMatches (route ++ List.replicate n []) (names ++ more) = true) :
    meets route names = true := by
  induction names generalizing route with
  | nil => cases route <;> rfl
  | cons name names ih =>
    obtain ⟨hname, hrest⟩ := not_or.mp (mt List.mem_cons.mpr hnames)
    cases route with
    | nil =>
      cases n with
      | zero => cases h
      | succ n => simp [List.replicate_succ, routeMatches, segmentMatches, hname] at h
    | cons pattern route =>
      rw [meets]
      split
      · rfl
      next hstar =>
      simp only [List.cons_append, routeMatches, hstar, false_and, if_false, Bool.and_eq_true] at h
      rw [if_neg ?_]
      · exact ih hrest h.2
      · rintro ⟨hcolon, hne⟩
        simp [segmentMatches, hcolon, hne] at h

theorem reserved_segments : ∀ reserved ∈ reservedRouteNamespaces, [] ∉ segments reserved := by
  decide +kernel

/-- A path that is accepted matches no URL path that begins with the segments of a namespace. -/
theorem accepted_route_outside_namespaces (quoted : List Char → String) (routePath path : List Char)
    (haccepted : validateRoutePath quoted routePath = .ok path) (reserved url : List Char)
    (hreserved : reserved ∈ reservedRouteNamespaces) (hurl : segments reserved <+: segments url) :
    routeMatches (segments path) (segments url) = false := by
  have hfree : ¬routePatternIntersectsNamespace path reserved := by
    simp only [validateRoutePath, bind, Except.bind] at haccepted
    split at haccepted
    · cases haccepted
    split at haccepted
    · cases haccepted
    next hnone =>
      cases haccepted
      exact List.find?_eq_none.mp hnone reserved hreserved
  have hnames := reserved_segments reserved hreserved
  obtain ⟨more, hmore⟩ := hurl
  refine Bool.eq_false_iff.mpr fun hmatch => hfree ?_
  rw [← hmore] at hmatch
  rw [routePatternIntersectsNamespace, trim]
  rw [segments] at hmatch
  generalize segments reserved = names at hnames hmatch ⊢
  generalize trimSlash path = text at hmatch ⊢
  cases text with
  | nil => exact @meets_of_matches _ _ _ 0 hnames (by simpa using hmatch)
  | cons c text =>
    by_cases hc : c = '/'
    · -- The first segment is empty, and no segment of a namespace is.
      cases names with
      | nil => cases split '/' _ <;> rfl
      | cons name names => simp_all [split, routeMatches, segmentMatches]
    · obtain ⟨n, hn⟩ := split_trimmed (c :: text)
      rw [hn] at hmatch
      rw [List.dropWhile_cons_of_neg (by simpa using hc)]
      exact meets_of_matches hnames hmatch

theorem accepted_route_outside_api :
    validateRoutePath String.ofList "/v1/videos/:id".toList = .ok "/v1/videos/:id".toList ∧
      routeMatches (segments "/v1/videos/:id".toList) (segments "/api/user".toList) = false := by
  have haccepted : validateRoutePath String.ofList "/v1/videos/:id".toList =
      .ok "/v1/videos/:id".toList := by decide +kernel
  exact ⟨haccepted, accepted_route_outside_namespaces _ _ _ haccepted "/api".toList _
    (by decide +kernel) ⟨["user".toList], rfl⟩⟩

end NewApi.Plugin
