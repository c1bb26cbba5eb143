import BePyEco.Common.Exceptions
import BePyEco.Common.Idempotency

/-!
# Exceptions that the handler renders

`IsRendered` says of an exception of a view that `exception_handler` makes a response of it.  It
knows the exceptions of the application and of the framework; an error of the database passes it,
and Django answers with a 500.

Below it, when the two statements that every sensitive endpoint ends with raise such an error.
-/

namespace BePyEco

open Library

/-- The class of the exception is derived from `APIException`, or is `PermissionDenied`. -/
def ApiError.isHandled : ApiError → Bool
  | keyError _ => false
  | libraryError _ => false
  | _ => true

/-- An exception of a view, as the handler tells it apart; `describe` is its class and its
detail. -/
def handledAs (describe : ApiError → ApiException) : Raised ApiError → HandledException
  | .db _ => .other
  | .app e => if e.isHandled then .api (describe e) else .other

/-- The handler makes a response of the exception, whatever its detail. -/
def IsRendered (raised : Raised ApiError) : Prop :=
  ∀ (nestedText : FullDetails → String) (describe : ApiError → ApiException)
    (request : Option HandlerRequest),
    (exceptionHandler nestedText (handledAs describe raised) request).isSome = true

lemma isRendered_app {e : ApiError} (h : e.isHandled = true) : IsRendered (.app e) := by
  intro nestedText describe request
  simp [handledAs, h, exceptionHandler]

/-- An error of the database is left to Django. -/
lemma not_isRendered_db (e : DbError) : ¬ IsRendered (.db e) := by
  intro h
  have hsome := h (fun _ => "") (fun _ => notFound) none
  simp [handledAs, exceptionHandler] at hsome

/-! ## Audit entries and stored responses -/

lemma writeAuditLog_escapesWhen [PyText] {actorType : ActorType} {actorId : Id}
    {action resourceType : String} {resourceId : Id} {before after : List (String × Json)}
    {reason : String} {ipAddress : Option String} {requestId : Option Id}
    (haction : action.length ≤ 100) (hresource : resourceType.length ≤ 100) :
    (writeAuditLog actorType actorId action resourceType resourceId before after reason ipAddress
      requestId).EscapesWhen IsRendered fun _ => ¬ reason.length ≤ 255 := by
  refine Objects.raisesDb_create.escapesWhen not_isRendered_db fun w => ?_
  refine Objects.run_create_isOk_iff.trans ?_
  simp [Model.fits, Model.conflicts, haction, hresource]

/-- The key fits its column, and no response is stored under it. -/
def Rememberable (w : World) (scope : IdempotencyScope) : Prop :=
  scope.idempotencyKey.length ≤ 255 ∧ ∀ r ∈ w.db.idempotencyRecords.rows, r.scope ≠ scope

instance (w : World) (scope : IdempotencyScope) : Decidable (Rememberable w scope) :=
  inferInstanceAs (Decidable (_ ∧ ∀ r ∈ w.db.idempotencyRecords.rows, r.scope ≠ scope))

lemma storeResponse_escapesWhen {scope : IdempotencyScope} {data : Json} {status : ℕ}
    {body : Option Json} (haction : scope.action.length ≤ 100)
    (hstatus : status ≤ maxPositiveSmallInteger) :
    (storeResponse scope data status body).EscapesWhen IsRendered
      fun w => ¬ Rememberable w scope := by
  have hraises : (storeResponse scope data status body).RaisesDb :=
    Tx.RaisesDb.bind (fun _ _ h => by cases h) fun _ => Objects.raisesDb_create
  refine hraises.escapesWhen not_isRendered_db fun w => ?_
  let mk : ℕ → IdempotencyRecord := storedRecord scope data status body w.now
  have hpk : ∀ i, Model.pk (mk i) = i := fun _ => rfl
  refine (@Objects.run_create_isOk_iff _ ApiError _ _ _ mk hpk w).trans ?_
  have hfits : Model.fits (mk w.db.idempotencyRecords.next) = true ↔
      scope.idempotencyKey.length ≤ 255 := by
    simp [mk, storedRecord, Model.fits, haction, hstatus]
  have hfree : ∀ r : IdempotencyRecord,
      Model.conflicts r (mk w.db.idempotencyRecords.next) = false ↔ r.scope ≠ scope :=
    fun r => decide_eq_false_iff_not
  exact and_congr hfits (forall₂_congr fun r _ => hfree r)

end BePyEco
