import Mathlib.Data.Int.Notation
import Mathlib.Data.Nat.Notation
import Mathlib.Tactic.Common

/-!
# The exception handler

`exception_handler` turns an exception into a Problem Details response.  The errors of an
exception are a tree of lists and dicts (`ErrorDetails`); `get_full_details` makes a dict of every
leaf, and `_flatten_full_details` tells leaves and inner nodes apart by their keys alone.
-/

namespace BePyEco

/-! ## Trees of errors -/

/-- A key of a dict, and what a `field` of the flat list can be. -/
inductive FieldKey
  | str (s : String)
  | int (n : ℤ)
  deriving DecidableEq, Repr

namespace FieldKey

/-- `bool(key)`. -/
def truthy : FieldKey → Bool
  | str s => decide (s ≠ "")
  | int n => decide (n ≠ 0)

/-- What an f-string shows for a key. -/
def text : FieldKey → String
  | str s => s
  | int n => toString n

end FieldKey

/-- `ErrorDetail` of the REST framework: a text with a code. -/
structure ErrorDetail where
  message : String
  code : String
  deriving DecidableEq, Repr

/-- `exc.detail`.  The entries of a dict are in the order of insertion. -/
inductive ErrorDetails
  | error (e : ErrorDetail)
  | list (items : List ErrorDetails)
  | dict (entries : List (FieldKey × ErrorDetails))

/-- The values that `get_full_details` builds. -/
inductive FullDetails
  | text (s : String)
  | list (items : List FullDetails)
  | dict (entries : List (FieldKey × FullDetails))

mutual

/-- `_get_full_details` of the REST framework. -/
def getFullDetails : ErrorDetails → FullDetails
  | .error e => .dict [(.str "message", .text e.message), (.str "code", .text e.code)]
  | .list items => .list (getFullDetailsItems items)
  | .dict entries => .dict (getFullDetailsEntries entries)

def getFullDetailsItems : List ErrorDetails → List FullDetails
  | [] => []
  | item :: rest => getFullDetails item :: getFullDetailsItems rest

def getFullDetailsEntries : List (FieldKey × ErrorDetails) → List (FieldKey × FullDetails)
  | [] => []
  | (key, value) :: rest => (key, getFullDetails value) :: getFullDetailsEntries rest

end

/-! ## The flat list -/

/-- An entry of `errors`. -/
structure FlatError where
  field : FieldKey
  code : String
  message : String
  deriving DecidableEq, Repr

/-- The keys by which `_is_leaf` knows a leaf. -/
def isLeafKeys (keys : List FieldKey) : Bool :=
  keys.any (fun key => decide (key = .str "message")) &&
    keys.all fun key => decide (key = .str "message" ∨ key = .str "code")

def isLeaf : FullDetails → Bool
  | .dict entries => isLeafKeys (entries.map Prod.fst)
  | _ => false

/-- `api_settings.NON_FIELD_ERRORS_KEY`. -/
def nonFieldErrorsKey : FieldKey := .str "non_field_errors"

/-- `next_prefix` under a key. -/
def keyPrefix (before key : FieldKey) : FieldKey :=
  let field := if key = nonFieldErrorsKey then .str "" else key
  if before.truthy && field.truthy then .str (before.text ++ "." ++ field.text)
  else if field.truthy then field
  else before

/-- `next_prefix` at an index. -/
def indexPrefix (before : FieldKey) (index : ℕ) : FieldKey :=
  if before.truthy then .str (before.text ++ "." ++ toString index) else .str (toString index)

section Flatten

-- `str(...)` of a list or a dict
variable (nestedText : FullDetails → String)

/-- `str(value)`. -/
def pyStr : FullDetails → String
  | .text s => s
  | value => nestedText value

/-- The entry for a node that `_is_leaf` accepts. -/
def leafEntry (entries : List (FieldKey × FullDetails)) (field : FieldKey) : FlatError where
  field := field
  code := pyStr nestedText ((entries.lookup (.str "code")).getD (.text "invalid"))
  -- the key is there, `_is_leaf` has asked for it
  message := pyStr nestedText ((entries.lookup (.str "message")).getD (.text ""))

mutual

def flattenFullDetails : FullDetails → FieldKey → List FlatError
  | .dict entries, field =>
      if isLeaf (.dict entries) then [leafEntry nestedText entries field]
      else flattenEntries entries field
  | .list items, field => flattenItems items 0 field
  | .text s, field => [⟨field, "invalid", s⟩]

/-- The loop over `node.items()`. -/
def flattenEntries : List (FieldKey × FullDetails) → FieldKey → List FlatError
  | [], _ => []
  | (key, value) :: rest, field =>
      flattenFullDetails value (keyPrefix field key) ++ flattenEntries rest field

/-- The loop over `enumerate(node)`. -/
def flattenItems : List FullDetails → ℕ → FieldKey → List FlatError
  | [], _, _ => []
  | item :: rest, index, field =>
      flattenFullDetails item (indexPrefix field index) ++ flattenItems rest (index + 1) field

end

end Flatten

/-! ## The response -/

/-- An `APIException`.  The views of the REST framework set `authHeader`, a throttle sets
`wait`. -/
structure ApiException where
  className : String
  statusCode : ℕ
  defaultCode : String
  defaultDetail : String
  detail : ErrorDetails
  authHeader : Option String := none
  wait : Option ℤ := none

/-- An exception as the handler tells them apart. -/
inductive HandledException
  | http404
  | djangoPermissionDenied
  | api (exc : ApiException)
  | other

/-- `NotFound()`. -/
def notFound : ApiException where
  className := "NotFound"
  statusCode := 404
  defaultCode := "not_found"
  defaultDetail := "Not found."
  detail := .error ⟨"Not found.", "not_found"⟩

/-- `PermissionDenied()`. -/
def permissionDenied : ApiException where
  className := "PermissionDenied"
  statusCode := 403
  defaultCode := "permission_denied"
  defaultDetail := "You do not have permission to perform this action."
  detail := .error ⟨"You do not have permission to perform this action.", "permission_denied"⟩

/-- `_TITLE_BY_CODE`. -/
def titleByCode : List (String × String) := [
  ("invalid", "Validation Error"),
  ("not_found", "Not Found"),
  ("authentication_failed", "Authentication Failed"),
  ("not_authenticated", "Authentication Required"),
  ("permission_denied", "Permission Denied"),
  ("throttled", "Too Many Requests"),
  ("parse_error", "Malformed Request"),
  ("not_acceptable", "Not Acceptable"),
  ("unsupported_media_type", "Unsupported Media Type"),
  ("method_not_allowed", "Method Not Allowed")]

/-- `context["request"]`, with `id` as the text of the attribute, empty without one. -/
structure HandlerRequest where
  path : String
  id : String

structure ProblemDetails where
  type : String
  title : String
  status : ℕ
  code : String
  detail : String
  instancePath : String
  errors : List FlatError
  traceId : String

structure ProblemResponse where
  body : ProblemDetails
  status : ℕ
  headers : List (String × String)

/-- `[name] = value` for each header that is set. -/
def problemHeaders (exc : ApiException) : List (String × String) :=
  (match exc.authHeader with
    | some header => if header ≠ "" then [("WWW-Authenticate", header)] else []
    | none => []) ++
  (match exc.wait with
    | some wait => [("Retry-After", toString wait)]
    | none => [])

/-- `exc.detail if isinstance(exc.detail, str) else str(exc.default_detail)`. -/
def problemDetail (exc : ApiException) : String :=
  match exc.detail with
  | .error e => e.message
  | _ => exc.defaultDetail

section Handler

variable (nestedText : FullDetails → String)

/-- `single_unnamed_error`. -/
def singleUnnamedError : List FlatError → Bool
  | [error] => !error.field.truthy
  | _ => false

/-- `errors[0]["code"] if single_unnamed_error else exc.default_code`. -/
def problemCode (errors : List FlatError) (defaultCode : String) : String :=
  if singleUnnamedError errors then (errors.map FlatError.code).headD defaultCode else defaultCode

/-- The body for an `APIException`. -/
def problemDetails (exc : ApiException) (request : Option HandlerRequest) : ProblemDetails :=
  let errors := flattenFullDetails nestedText (getFullDetails exc.detail) (.str "")
  let code := problemCode errors exc.defaultCode
  { type := "about:blank"
    title := (titleByCode.lookup code).getD exc.className
    status := exc.statusCode
    code := code
    detail := problemDetail exc
    instancePath := (request.map HandlerRequest.path).getD ""
    errors := if singleUnnamedError errors then [] else errors
    traceId := (request.map HandlerRequest.id).getD "" }

def respondTo (exc : ApiException) (request : Option HandlerRequest) : ProblemResponse where
  body := problemDetails nestedText exc request
  status := exc.statusCode
  headers := problemHeaders exc

/-- `None` leaves the exception to Django. -/
def exceptionHandler (exc : HandledException) (request : Option HandlerRequest) :
    Option ProblemResponse :=
  match exc with
  | .http404 => some (respondTo nestedText notFound request)
  | .djangoPermissionDenied => some (respondTo nestedText permissionDenied request)
  | .api exc => some (respondTo nestedText exc request)
  | .other => none

end Handler

end BePyEco
