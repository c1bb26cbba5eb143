import Mathlib.Tactic.Common
import Mathlib.Data.List.Sort

/-!
# Values shared by every module

Times and identifiers, JSON documents, digests, and the parts of the Python and JWT libraries
that the services call.

Three abstractions are made here once.  A UUID is the natural number its table drew for it, also
where a column stores it as text.  A SHA-256 digest is a record of what was digested, so digests
are equal exactly when their preimages are.  `str.strip` and `str.lower` are a parameter
(`PyText`), since nothing below depends on their Unicode tables.
-/

namespace BePyEco

/-! ## Time and identifiers -/

/-- A UTC instant in microseconds. -/
abbrev Time := ℕ

/-- A primary key. -/
abbrev Id := ℕ

/-- Microseconds in a second. -/
def second : Time := 1000000

def minutes (n : ℕ) : Time := n * (60 * second)
def hours (n : ℕ) : Time := n * minutes 60
def days (n : ℕ) : Time := n * hours 24

/-- The two kinds of actor an `actor_type` claim or column names. -/
inductive ActorType
  | customer
  | staff
  deriving DecidableEq, Repr

/-! ## Text and digests -/

/-- Python's `str.strip()` and `str.lower()`. -/
class PyText where
  strip : String → String
  lower : String → String

/-- Both, on text without blanks at its ends and without capitals. -/
@[reducible] def plainText : PyText where
  strip := id
  lower := id

/-- `value.strip().lower()`, the normal form of an email address. -/
def normalizeEmail [PyText] (email : String) : String := PyText.lower (PyText.strip email)

/-- A SHA-256 digest. -/
structure Sha256 (α : Type) where
  preimage : α
  deriving DecidableEq, Repr

def sha256 {α : Type} (a : α) : Sha256 α := ⟨a⟩

lemma sha256_injective {α : Type} : Function.Injective (sha256 : α → Sha256 α) := by
  intro a b h
  cases h
  rfl

/-! ## JSON -/

/-- A JSON document as `request.data` and the JSON columns hold it.  A float is kept by its
literal. -/
inductive Json
  | null
  | bool (b : Bool)
  | int (n : ℤ)
  | float (literal : String)
  | str (s : String)
  | arr (items : List Json)
  | obj (fields : List (String × Json))
  deriving Repr, Inhabited

namespace Json

mutual

/-- Equality of documents is decidable; the three functions follow the nesting of the type. -/
def decEq : (a b : Json) → Decidable (a = b)
  | .null, .null => isTrue rfl
  | .bool a, .bool b => decidable_of_iff (a = b) (by simp)
  | .int a, .int b => decidable_of_iff (a = b) (by simp)
  | .float a, .float b => decidable_of_iff (a = b) (by simp)
  | .str a, .str b => decidable_of_iff (a = b) (by simp)
  | .arr a, .arr b => @decidable_of_iff _ (a = b) (by simp) (decEqItems a b)
  | .obj a, .obj b => @decidable_of_iff _ (a = b) (by simp) (decEqFields a b)
  | .null, .bool _ | .null, .int _ | .null, .float _ | .null, .str _ | .null, .arr _
  | .null, .obj _ | .bool _, .null | .bool _, .int _ | .bool _, .float _ | .bool _, .str _
  | .bool _, .arr _ | .bool _, .obj _ | .int _, .null | .int _, .bool _ | .int _, .float _
  | .int _, .str _ | .int _, .arr _ | .int _, .obj _ | .float _, .null | .float _, .bool _
  | .float _, .int _ | .float _, .str _ | .float _, .arr _ | .float _, .obj _ | .str _, .null
  | .str _, .bool _ | .str _, .int _ | .str _, .float _ | .str _, .arr _ | .str _, .obj _
  | .arr _, .null | .arr _, .bool _ | .arr _, .int _ | .arr _, .float _ | .arr _, .str _
  | .arr _, .obj _ | .obj _, .null | .obj _, .bool _ | .obj _, .int _ | .obj _, .float _
  | .obj _, .str _ | .obj _, .arr _ => isFalse nofun

def decEqItems : (a b : List Json) → Decidable (a = b)
  | [], [] => isTrue rfl
  | x :: xs, y :: ys =>
    @decidable_of_iff _ (x = y ∧ xs = ys) (by simp)
      (@instDecidableAnd _ _ (decEq x y) (decEqItems xs ys))
  | [], _ :: _ | _ :: _, [] => isFalse nofun

def decEqFields : (a b : List (String × Json)) → Decidable (a = b)
  | [], [] => isTrue rfl
  | (k, x) :: xs, (l, y) :: ys =>
    @decidable_of_iff _ (k = l ∧ x = y ∧ xs = ys) (by simp [and_assoc])
      (@instDecidableAnd _ _ (instDecidableEqString k l)
        (@instDecidableAnd _ _ (decEq x y) (decEqFields xs ys)))
  | [], _ :: _ | _ :: _, [] => isFalse nofun

end

instance : DecidableEq Json := decEq

mutual

/-- The document `json.dumps(..., sort_keys=True)` writes: every object by ascending key. -/
def canonical : Json → Json
  | .arr items => .arr (canonicalItems items)
  | .obj fields => .obj ((canonicalFields fields).insertionSort fun f g => f.1 ≤ g.1)
  | document => document

def canonicalItems : List Json → List Json
  | [] => []
  | x :: xs => x.canonical :: canonicalItems xs

def canonicalFields : List (String × Json) → List (String × Json)
  | [] => []
  | (k, v) :: rest => (k, v.canonical) :: canonicalFields rest

end

/-- `data.get(name)`. -/
def field (name : String) : Json → Option Json
  | .obj fields => (fields.find? fun f => f.1 == name).map Prod.snd
  | _ => none

end Json

/-! ## Requests -/

/-- What the services read off a request for the audit log: the remote address and the id the
request-id middleware gave it. -/
structure RequestContext where
  remoteAddr : Option String
  id : Id
  deriving DecidableEq, Repr

/-- `client_ip(request)`. -/
def clientIp (request : Option RequestContext) : Option String :=
  request.bind RequestContext.remoteAddr

/-- `request_id(request)`; the empty string of the source is `none`. -/
def requestId (request : Option RequestContext) : Option Id := request.map RequestContext.id

end BePyEco
