import BePyEco.Common.Idempotency
import BePyEco.Common.KeyOrder
import BePyEco.Library.ExpiringMap
import BePyEco.Library.Trace

/-!
# The stored responses as a map with expiry

The protocol around `get_cached_response` and `store_response`, for any effect in between, and
the proof that the table of records is a map of `Library.ExpiringMap` under it: the scope is the
key, the digest of the body the fingerprint.

`getCachedResponse_run` is the simulation of the look.  `actsAsMap_of_trace` is what the map gives
back for traces of calls in any scopes.
-/

namespace BePyEco

open Library Library.Program Library.ExpiringMap

/-! ## The protocol -/

/-- A call with an idempotency key. -/
structure IdempotentCall where
  scope : IdempotencyScope
  data : Json
  effect : Service (ℕ × Option Json)

/-- Replay the response if there is one, otherwise run the effect and store its response. -/
def IdempotentCall.service (call : IdempotentCall) : Service (ℕ × Option Json) := do
  match ← getCachedResponse call.scope call.data with
  | some response => return response
  | none =>
    let response ← call.effect
    let _ ← storeResponse call.scope call.data response.1 response.2
    return response

/-- The records are the same, and time does not go back. -/
structure LeavesRecords (w w' : World) : Prop where
  records : w'.db.idempotencyRecords = w.db.idempotencyRecords
  now : w.now ≤ w'.now

instance : Std.Refl LeavesRecords := ⟨fun _ => ⟨rfl, le_refl _⟩⟩

instance : IsTrans World LeavesRecords :=
  ⟨fun _ _ _ hab hbc => ⟨hbc.records.trans hab.records, hab.now.trans hbc.now⟩⟩

/-- The body is a JSON document, the values fit their columns, and the effect is nobody else's
business: it leaves the records alone. -/
structure IdempotentCall.WellBehaved (call : IdempotentCall) : Prop where
  distinctKeys : call.data.DistinctKeys
  action : call.scope.action.length ≤ 100
  key : call.scope.idempotencyKey.length ≤ 255
  effect : call.effect.Guarantees LeavesRecords
  status : ∀ w status body w', call.effect.run w = (.ok (status, body), w') →
    status ≤ maxPositiveSmallInteger

abbrev IdempotentEvent := Event IdempotentCall World ApiError (ℕ × Option Json)

/-- Traces of such calls, with any other change in between that leaves the records alone. -/
abbrev IdempotencyTrace (w₀ : World) : List IdempotentEvent → World → Prop :=
  Trace IdempotentCall.service (fun _ _ call => call.WellBehaved) LeavesRecords w₀

/-! ## The table as a map -/

/-- What a record says. -/
def IdempotencyRecord.entry (r : IdempotencyRecord) :
    Entry (Sha256 Json) (ℕ × Option Json) Time where
  fingerprint := r.requestHash
  response := (r.responseStatus, r.responseBody)
  expiresAt := r.expiresAt

/-- The life of a response that is stored at an instant. -/
def recordLife (now : Time) : Time := now + idempotencyRecordTtl

/-- The map that the table of records stands for. -/
def idempotencyMap (w : World) : State IdempotencyScope (Sha256 Json) (ℕ × Option Json) Time where
  contents scope := (w.db.idempotencyRecords.rows.find?
    fun r : IdempotencyRecord => decide (r.scope = scope)).map IdempotencyRecord.entry
  now := w.now

/-- The world without the record of a scope. -/
def forgetRecord (scope : IdempotencyScope) (w : World) : World :=
  Stored.put (w.db.idempotencyRecords.delete
    fun r : IdempotencyRecord => decide (r.scope = scope)) w

section Contents

variable {w w' : World} {scope : IdempotencyScope}

lemma contents_of_mem {r : IdempotencyRecord} (hr : r ∈ w.db.idempotencyRecords.rows) :
    (idempotencyMap w).contents r.scope = some r.entry := by
  have hfind : w.db.idempotencyRecords.rows.find?
      (fun r' : IdempotencyRecord => decide (r'.scope = r.scope)) = some r := by
    cases hfound : w.db.idempotencyRecords.rows.find?
        (fun r' : IdempotencyRecord => decide (r'.scope = r.scope)) with
    | none =>
        have hnot := List.find?_eq_none.1 hfound r hr
        simp at hnot
    | some r' =>
        have hscope := List.find?_some hfound
        rw [w.db.idempotencyRecords.eq_of_conflicts (List.mem_of_find?_eq_some hfound) hr hscope]
  exact congrArg (Option.map IdempotencyRecord.entry) hfind

lemma contents_of_none (h : ∀ r ∈ w.db.idempotencyRecords.rows, r.scope ≠ scope) :
    (idempotencyMap w).contents scope = none := by
  have hfind : w.db.idempotencyRecords.rows.find?
      (fun r : IdempotencyRecord => decide (r.scope = scope)) = none :=
    List.find?_eq_none.2 fun r hr => by simpa using h r hr
  exact congrArg (Option.map IdempotencyRecord.entry) hfind

/-- A scope has one record or none. -/
lemma record_or_none (w : World) (scope : IdempotencyScope) :
    (∃ r ∈ w.db.idempotencyRecords.rows, r.scope = scope) ∨
      ∀ r ∈ w.db.idempotencyRecords.rows, r.scope ≠ scope := by
  by_cases h : ∃ r ∈ w.db.idempotencyRecords.rows, r.scope = scope
  · exact Or.inl h
  · push Not at h
    exact Or.inr h

/-- Two worlds with the same records of a scope have the same contents there. -/
lemma contents_congr
    (h : ∀ r, r.scope = scope →
      (r ∈ w'.db.idempotencyRecords.rows ↔ r ∈ w.db.idempotencyRecords.rows)) :
    (idempotencyMap w').contents scope = (idempotencyMap w).contents scope := by
  obtain ⟨r, hr, rfl⟩ | hnone := record_or_none w scope
  · rw [contents_of_mem hr, contents_of_mem ((h r rfl).2 hr)]
  · rw [contents_of_none hnone, contents_of_none fun r hr hscope =>
      hnone r ((h r hscope).1 hr) hscope]

@[simp] lemma mem_forgetRecord {r : IdempotencyRecord} :
    r ∈ (forgetRecord scope w).db.idempotencyRecords.rows ↔
      r ∈ w.db.idempotencyRecords.rows ∧ r.scope ≠ scope := by
  refine (Table.mem_delete _).trans ?_
  simp

lemma forgetRecord_of_none (h : ∀ r ∈ w.db.idempotencyRecords.rows, r.scope ≠ scope) :
    forgetRecord scope w = w := by
  have hdelete : w.db.idempotencyRecords.delete
      (fun r : IdempotencyRecord => decide (r.scope = scope)) = w.db.idempotencyRecords :=
    (w.db.idempotencyRecords.delete_eq_self_iff).2 fun r hr => decide_eq_false (h r hr)
  unfold forgetRecord
  rw [hdelete]
  rfl

/-- Forgetting a record drops the entry of its scope. -/
lemma idempotencyMap_forgetRecord (scope : IdempotencyScope) (w : World) :
    idempotencyMap (forgetRecord scope w) = { idempotencyMap w with
      contents := Function.update (idempotencyMap w).contents scope none } := by
  have hcontents : (idempotencyMap (forgetRecord scope w)).contents =
      Function.update (idempotencyMap w).contents scope none := by
    funext k
    by_cases hk : k = scope
    · rw [hk, Function.update_self]
      exact contents_of_none fun r hr => (mem_forgetRecord.1 hr).2
    · rw [Function.update_of_ne hk]
      refine contents_congr fun r hr => ?_
      rw [mem_forgetRecord, and_iff_left]
      rw [hr]
      exact hk
  rw [← hcontents]
  rfl

/-- Storing a record at a scope without one stores its entry. -/
lemma idempotencyMap_append {record : IdempotencyRecord}
    (hrows : w'.db.idempotencyRecords.rows = w.db.idempotencyRecords.rows ++ [record])
    (hnow : w'.now = w.now) :
    idempotencyMap w' = { idempotencyMap w with
      contents :=
        Function.update (idempotencyMap w).contents record.scope (some record.entry) } := by
  have hmem : ∀ r, r ∈ w'.db.idempotencyRecords.rows ↔
      r ∈ w.db.idempotencyRecords.rows ∨ r = record := by
    intro r
    rw [hrows, List.mem_append, List.mem_singleton]
  have hcontents : (idempotencyMap w').contents =
      Function.update (idempotencyMap w).contents record.scope (some record.entry) := by
    funext k
    by_cases hk : k = record.scope
    · rw [hk, Function.update_self]
      exact contents_of_mem ((hmem record).2 (Or.inr rfl))
    · rw [Function.update_of_ne hk]
      refine contents_congr fun r hr => ?_
      rw [hmem, or_iff_left]
      rintro rfl
      exact hk hr.symm
  rw [← hcontents]
  unfold idempotencyMap
  rw [hnow]

end Contents

/-! ## The look -/

section Look

variable {w : World}

/-- `record.delete()` forgets the record of its scope. -/
lemma deleteRecord_run {r : IdempotencyRecord} (hr : r ∈ w.db.idempotencyRecords.rows) :
    (deleteRecord r).run w = .ok ((), forgetRecord r.scope w) := by
  have hsame : w.db.idempotencyRecords.delete (fun s : IdempotencyRecord => decide (s.id = r.id)) =
      w.db.idempotencyRecords.delete fun s : IdempotencyRecord => decide (s.scope = r.scope) := by
    refine Table.delete_congr _ fun s hs => ?_
    rw [decide_eq_decide]
    constructor
    · intro hid
      rw [w.db.idempotencyRecords.eq_of_pk hs hr hid]
    · intro hscope
      rw [w.db.idempotencyRecords.eq_of_conflicts hs hr (decide_eq_true hscope)]
  rw [forgetRecord, ← hsame]
  rfl

/-- `get_cached_response` is the look of the map; a look at a scope without a live record forgets
a dead one. -/
lemma getCachedResponse_run (scope : IdempotencyScope) (data : Json) (w : World) :
    (getCachedResponse scope data).run w =
      match (idempotencyMap w).look scope (hashRequest data) with
      | .fresh => (.ok none, forgetRecord scope w)
      | .replay response => (.ok (some response), w)
      | .conflict => (.error (.app .idempotencyKeyConflict), w) := by
  obtain ⟨r, hr, rfl⟩ | hnone := record_or_none w scope
  · have hcontents := contents_of_mem hr
    have hfingerprint : r.entry.fingerprint = r.requestHash := rfl
    have huse : (getCachedResponse r.scope data).run w = (useRecord data r).run w := by
      rw [getCachedResponse, Program.run_bind, Program.liftM_eq, Program.run_exec,
        Tx.exec_ok (findRecord_run_of_mem hr)]
    rw [huse, useRecord, Program.run_bind, Program.liftM_eq, Program.run_exec,
      Tx.exec_ok (run_timezoneNow w)]
    dsimp only
    by_cases hdead : r.expiresAt < w.now
    · have hfresh : (idempotencyMap w).look r.scope (hashRequest data) = .fresh := by
        unfold State.look
        rw [hcontents]
        exact if_pos hdead
      rw [if_pos hdead, hfresh, Program.run_bind, Program.liftM_eq, Program.run_exec,
        Tx.exec_ok (deleteRecord_run hr)]
      rfl
    · have hlive : (idempotencyMap w).LiveAt r.scope r.entry := ⟨hcontents, not_lt.1 hdead⟩
      rw [if_neg hdead, look_of_live hlive, replayRecord, hfingerprint]
      by_cases hhash : r.requestHash = hashRequest data
      · rw [if_pos hhash, decide_eq_true hhash]
        rfl
      · rw [if_neg hhash, decide_eq_false hhash]
        rfl
  · have hfresh : (idempotencyMap w).look scope (hashRequest data) = .fresh := by
      unfold State.look
      rw [contents_of_none hnone]
    rw [hfresh, getCachedResponse_run_of_none hnone, forgetRecord_of_none hnone]

/-- The look depends on the records of its scope only. -/
lemma getCachedResponse_congr {w' : World} {scope : IdempotencyScope} {data : Json}
    (hnow : w'.now = w.now) (h : ∀ r, r.scope = scope →
      (r ∈ w'.db.idempotencyRecords.rows ↔ r ∈ w.db.idempotencyRecords.rows)) :
    ((getCachedResponse scope data).run w').1 = ((getCachedResponse scope data).run w).1 := by
  have hlook : (idempotencyMap w').look scope (hashRequest data) =
      (idempotencyMap w).look scope (hashRequest data) := by
    unfold State.look
    rw [contents_congr h]
    have hsame : (idempotencyMap w').now = (idempotencyMap w).now := hnow
    rw [hsame]
  rw [getCachedResponse_run, getCachedResponse_run, hlook]
  cases (idempotencyMap w).look scope (hashRequest data) with
  | fresh => rfl
  | replay response => rfl
  | conflict => rfl

end Look

/-! ## One call -/

/-- The call ran its effect in the world without a record of its scope, and stored the response if
there is one. -/
structure RanEffect (e : IdempotentEvent) : Prop where
  raised : ∀ x w, e.call.effect.run (forgetRecord e.call.scope e.before) = (.error x, w) →
    e.result = .error x ∧ e.after = w
  returned : ∀ response w,
    e.call.effect.run (forgetRecord e.call.scope e.before) = (.ok response, w) →
      e.result = .ok response ∧ e.after.now = w.now ∧ ∃ record, Remembered e.call.scope
        e.call.data response.1 response.2 record w e.after

section Call

variable {call : IdempotentCall} {w : World}

/-- A call at a scope with a live record is a look. -/
lemma service_run_of_live {entry : Entry (Sha256 Json) (ℕ × Option Json) Time}
    (h : (idempotencyMap w).LiveAt call.scope entry) :
    call.service.run w =
      if entry.fingerprint = hashRequest call.data then (.ok entry.response, w)
      else (.error (.app .idempotencyKeyConflict), w) := by
  rw [IdempotentCall.service, Program.run_bind, getCachedResponse_run, look_of_live h]
  by_cases hhash : entry.fingerprint = hashRequest call.data
  · rw [if_pos hhash, if_pos hhash]
    rfl
  · rw [if_neg hhash, if_neg hhash]

/-- A call at a fresh scope executes, and its insert meets no constraint. -/
lemma ranEffect_of_fresh (hcall : call.WellBehaved) (h : (idempotencyMap w).FreshAt call.scope) :
    RanEffect (event IdempotentCall.service call w) := by
  have hrun : call.service.run w = (call.effect >>= fun response => do
      let _ ← storeResponse call.scope call.data response.1 response.2
      return response : Service (ℕ × Option Json)).run (forgetRecord call.scope w) := by
    rw [IdempotentCall.service, Program.run_bind, getCachedResponse_run, look_eq_fresh_iff.2 h]
  refine ⟨fun x w₁ heffect => ?_, fun response w₁ heffect => ?_⟩
  · have heffect' : call.effect.run (forgetRecord call.scope w) = (.error x, w₁) := heffect
    rw [Program.run_bind, heffect'] at hrun
    exact ⟨congrArg Prod.fst hrun, congrArg Prod.snd hrun⟩
  · have heffect' : call.effect.run (forgetRecord call.scope w) = (.ok response, w₁) := heffect
    have hleaves : LeavesRecords (forgetRecord call.scope w) w₁ := by
      have hkept := hcall.effect.run (forgetRecord call.scope w)
      rw [heffect'] at hkept
      exact hkept
    have hnone : ∀ r ∈ w₁.db.idempotencyRecords.rows, r.scope ≠ call.scope := by
      intro r hr
      rw [hleaves.records] at hr
      exact (mem_forgetRecord.1 hr).2
    have hstored : ∃ record w₂, (storeResponse call.scope call.data response.1 response.2).run w₁ =
        .ok (record, w₂) :=
      storeResponse_run hcall.action hcall.key (hcall.status _ _ _ _ heffect) hnone
    obtain ⟨record, w₂, hstore⟩ := hstored
    rw [Program.run_bind, heffect'] at hrun
    dsimp only at hrun
    rw [Program.run_bind, Program.liftM_eq, Program.run_exec, Tx.exec_ok hstore] at hrun
    have hafter : (event IdempotentCall.service call w).after = w₂ := congrArg Prod.snd hrun
    rw [hafter]
    exact ⟨congrArg Prod.fst hrun, storeResponse_now hstore, record, storeResponse_ok hstore⟩

/-- To the map, a change that leaves the records alone is time that passes. -/
lemma run_of_leavesRecords {w' : World} (h : LeavesRecords w w') :
    Run recordLife (idempotencyMap w) (idempotencyMap w') := by
  have hmap : idempotencyMap w' = { idempotencyMap w with now := w'.now } := by
    unfold idempotencyMap
    rw [h.records]
  rw [hmap]
  exact .single (.pass h.now)

/-- What a call at a scope without a live record does to the map. -/
lemma run_of_fresh (hcall : call.WellBehaved) (h : (idempotencyMap w).FreshAt call.scope) :
    Run recordLife (idempotencyMap w)
      (idempotencyMap (event IdempotentCall.service call w).after) := by
  have hran := ranEffect_of_fresh hcall h
  have hdrop : Run recordLife (idempotencyMap w)
      (idempotencyMap (forgetRecord call.scope w)) := by
    rw [idempotencyMap_forgetRecord]
    exact .single (.drop call.scope h)
  refine hdrop.trans ?_
  have hleaves : LeavesRecords (forgetRecord call.scope w)
      (call.effect.run (forgetRecord call.scope w)).2 :=
    hcall.effect.run (forgetRecord call.scope w)
  rcases heffect : call.effect.run (forgetRecord call.scope w) with ⟨result, w₁⟩
  rw [heffect] at hleaves
  have hpass := run_of_leavesRecords hleaves
  cases result with
  | error x =>
      rw [(hran.raised x w₁ heffect).2]
      exact hpass
  | ok response =>
      obtain ⟨-, hnow, record, hremembered⟩ := hran.returned response w₁ heffect
      obtain ⟨id, hrecord⟩ := hremembered.row
      have hscope : record.scope = call.scope := by
        rw [hrecord]
        rfl
      have hentry : record.entry =
          ⟨hashRequest call.data, response, recordLife (idempotencyMap w₁).now⟩ := by
        rw [hrecord]
        rfl
      have hfresh : (idempotencyMap w₁).FreshAt call.scope := by
        intro entry hlive
        have hnone : (idempotencyMap w₁).contents call.scope = none := by
          refine contents_of_none fun r hr => ?_
          rw [hleaves.records] at hr
          exact (mem_forgetRecord.1 hr).2
        rw [hlive.1] at hnone
        cases hnone
      refine hpass.trans (.single ?_)
      rw [idempotencyMap_append hremembered.rows hnow, hscope, hentry]
      exact .store call.scope (hashRequest call.data) response hfresh

end Call

/-! ## Traces -/

/-- The call ran its effect, found no live record, and stored the response. -/
def StoredResponse (e : IdempotentEvent) (response : ℕ × Option Json) : Prop :=
  (idempotencyMap e.before).FreshAt e.call.scope ∧ e.result = .ok response

/-- What the records of earlier calls mean for a call: `log` holds the calls before it, and `w₀` is
the world in which the trace began. -/
structure ActsAsMap (w₀ : World) (log : List IdempotentEvent) (e : IdempotentEvent) : Prop where
  /-- Within the life of a stored response, the same body is answered with it. -/
  replays : ∀ e₁ ∈ log, e₁.call.scope = e.call.scope → ∀ response, StoredResponse e₁ response →
    e.before.now ≤ recordLife e₁.after.now → e₁.call.data.SameBody e.call.data →
      e.result = .ok response ∧ e.after = e.before
  /-- Any other body is refused. -/
  conflicts : ∀ e₁ ∈ log, e₁.call.scope = e.call.scope → ∀ response, StoredResponse e₁ response →
    e.before.now ≤ recordLife e₁.after.now → ¬ e₁.call.data.SameBody e.call.data →
      e.result = .error (.app .idempotencyKeyConflict) ∧ e.after = e.before
  /-- When every stored response has expired, the call executes as the first one would. -/
  fresh : (∀ r ∈ w₀.db.idempotencyRecords.rows, r.scope = e.call.scope →
      r.expiresAt < e.before.now) →
    (∀ e₁ ∈ log, e₁.call.scope = e.call.scope → ∀ response, StoredResponse e₁ response →
      recordLife e₁.after.now < e.before.now) → RanEffect e
  /-- The records of other scopes are not changed. -/
  others : ∀ r : IdempotencyRecord, r.scope ≠ e.call.scope →
    (r ∈ e.after.db.idempotencyRecords.rows ↔ r ∈ e.before.db.idempotencyRecords.rows)
  /-- And not read: the look comes to the same with any others. -/
  blind : ∀ w : World, w.now = e.before.now →
    (∀ r : IdempotencyRecord, r.scope = e.call.scope →
      (r ∈ w.db.idempotencyRecords.rows ↔ r ∈ e.before.db.idempotencyRecords.rows)) →
    ((getCachedResponse e.call.scope e.call.data).run w).1 =
      ((getCachedResponse e.call.scope e.call.data).run e.before).1

section Traces

variable {w₀ w : World} {log : List IdempotentEvent}

/-- A call at a scope with a live record changes nothing. -/
lemma after_of_not_fresh {call : IdempotentCall}
    (h : ¬ (idempotencyMap w).FreshAt call.scope) :
    (event IdempotentCall.service call w).after = w := by
  unfold State.FreshAt at h
  push Not at h
  obtain ⟨entry, hlive⟩ := h
  change (call.service.run w).2 = w
  rw [service_run_of_live hlive]
  split
  · rfl
  · rfl

/-- A call moves the map. -/
lemma run_of_call {call : IdempotentCall} (hcall : call.WellBehaved) (w : World) :
    Run recordLife (idempotencyMap w)
      (idempotencyMap (event IdempotentCall.service call w).after) := by
  by_cases hfresh : (idempotencyMap w).FreshAt call.scope
  · exact run_of_fresh hcall hfresh
  · rw [after_of_not_fresh hfresh]
    exact .refl

/-- The map moves from where an event ended to where a trace is. -/
lemma run_of_trace (h : IdempotencyTrace w₀ log w) :
    Run recordLife (idempotencyMap w₀) (idempotencyMap w) ∧
      ∀ e ∈ log, Run recordLife (idempotencyMap e.after) (idempotencyMap w) := by
  have hrefl : Std.Refl fun w w' => Run recordLife (idempotencyMap w) (idempotencyMap w') :=
    ⟨fun _ => .refl⟩
  have htrans : IsTrans World fun w w' =>
      Run recordLife (idempotencyMap w) (idempotencyMap w') :=
    ⟨fun _ _ _ => Relation.ReflTransGen.trans⟩
  exact Trace.related (R := fun w w' => Run recordLife (idempotencyMap w) (idempotencyMap w'))
    (fun _ w call hok => run_of_call hok w) (fun _ _ => run_of_leavesRecords) h

/-- What a call stored lives when it has been stored. -/
lemma StoredResponse.live {e : IdempotentEvent} {response : ℕ × Option Json}
    (he : e = event IdempotentCall.service e.call e.before) (hcall : e.call.WellBehaved)
    (h : StoredResponse e response) :
    (idempotencyMap e.after).LiveAt e.call.scope
      ⟨hashRequest e.call.data, response, recordLife e.after.now⟩ := by
  have hran : RanEffect e := by
    rw [he]
    exact ranEffect_of_fresh hcall h.1
  rcases heffect : e.call.effect.run (forgetRecord e.call.scope e.before) with ⟨result, w⟩
  cases result with
  | error x => cases h.2.symm.trans (hran.raised x w heffect).1
  | ok response' =>
      obtain ⟨hresult, hnow, record, hremembered⟩ := hran.returned response' w heffect
      cases h.2.symm.trans hresult
      obtain ⟨id, hrecord⟩ := hremembered.row
      have hmem : record ∈ e.after.db.idempotencyRecords.rows := by
        rw [hremembered.rows]
        exact List.mem_append_right _ List.mem_cons_self
      have hcontents := contents_of_mem hmem
      rw [hrecord, ← hnow] at hcontents
      exact ⟨hcontents, Nat.le_add_right _ _⟩

/-- A record after a call was there before, or is the one that the call stored. -/
lemma mem_of_mem_after {call : IdempotentCall} (hcall : call.WellBehaved) {r : IdempotencyRecord}
    (hr : r ∈ (event IdempotentCall.service call w).after.db.idempotencyRecords.rows) :
    r ∈ w.db.idempotencyRecords.rows ∨ (r.scope = call.scope ∧
      (∃ response, StoredResponse (event IdempotentCall.service call w) response) ∧
        r.expiresAt = recordLife (event IdempotentCall.service call w).after.now) := by
  by_cases hfresh : (idempotencyMap w).FreshAt call.scope
  · have hran := ranEffect_of_fresh hcall hfresh
    have hleaves : LeavesRecords (forgetRecord call.scope w)
        (call.effect.run (forgetRecord call.scope w)).2 := hcall.effect.run _
    rcases heffect : call.effect.run (forgetRecord call.scope w) with ⟨result, w₁⟩
    rw [heffect] at hleaves
    have hkept : r ∈ w₁.db.idempotencyRecords.rows → r ∈ w.db.idempotencyRecords.rows := by
      intro hr₁
      rw [hleaves.records] at hr₁
      exact (mem_forgetRecord.1 hr₁).1
    cases result with
    | error x =>
        rw [(hran.raised x w₁ heffect).2] at hr
        exact Or.inl (hkept hr)
    | ok response =>
        obtain ⟨hresult, hnow, record, hremembered⟩ := hran.returned response w₁ heffect
        rw [hremembered.rows, List.mem_append, List.mem_singleton] at hr
        obtain hr | rfl := hr
        · exact Or.inl (hkept hr)
        · obtain ⟨id, hrecord⟩ := hremembered.row
          refine Or.inr ⟨?_, ⟨response, hfresh, hresult⟩, ?_⟩
          · rw [hrecord]
            rfl
          · rw [hrecord, hnow]
            rfl
  · rw [after_of_not_fresh hfresh] at hr
    exact Or.inl hr

/-- The records of other scopes stay. -/
lemma mem_after_of_ne {call : IdempotentCall} (hcall : call.WellBehaved) {r : IdempotencyRecord}
    (hr : r ∈ w.db.idempotencyRecords.rows) (hne : r.scope ≠ call.scope) :
    r ∈ (event IdempotentCall.service call w).after.db.idempotencyRecords.rows := by
  by_cases hfresh : (idempotencyMap w).FreshAt call.scope
  · have hran := ranEffect_of_fresh hcall hfresh
    have hleaves : LeavesRecords (forgetRecord call.scope w)
        (call.effect.run (forgetRecord call.scope w)).2 := hcall.effect.run _
    rcases heffect : call.effect.run (forgetRecord call.scope w) with ⟨result, w₁⟩
    rw [heffect] at hleaves
    have hkept : r ∈ w₁.db.idempotencyRecords.rows := by
      rw [hleaves.records]
      exact mem_forgetRecord.2 ⟨hr, hne⟩
    cases result with
    | error x =>
        rw [(hran.raised x w₁ heffect).2]
        exact hkept
    | ok response =>
        obtain ⟨-, -, record, hremembered⟩ := hran.returned response w₁ heffect
        rw [hremembered.rows]
        exact List.mem_append_left _ hkept
  · rw [after_of_not_fresh hfresh]
    exact hr

/-- A record was there when the trace began, or a call of the trace stored it. -/
lemma record_of_trace (h : IdempotencyTrace w₀ log w) :
    ∀ r ∈ w.db.idempotencyRecords.rows, r ∈ w₀.db.idempotencyRecords.rows ∨
      ∃ e ∈ log, e.call.scope = r.scope ∧ (∃ response, StoredResponse e response) ∧
        r.expiresAt = recordLife e.after.now := by
  induction h with
  | refl => exact fun r hr => Or.inl hr
  | @call log w call _ hcall ih =>
      intro r hr
      obtain hr | ⟨hscope, hstored, hexpires⟩ := mem_of_mem_after hcall hr
      · obtain hstart | ⟨e, he, hstored⟩ := ih r hr
        · exact Or.inl hstart
        · exact Or.inr ⟨e, List.mem_cons_of_mem _ he, hstored⟩
      · exact Or.inr ⟨_, List.mem_cons_self, hscope.symm, hstored, hexpires⟩
  | env _ hmove ih =>
      intro r hr
      rw [hmove.records] at hr
      exact ih r hr

/-- A response that was stored earlier is live, unless its life is over. -/
lemma live_of_stored (h : IdempotencyTrace w₀ log w) {e₁ : IdempotentEvent} (he₁ : e₁ ∈ log)
    {response : ℕ × Option Json} (hstored : StoredResponse e₁ response)
    (hlife : w.now ≤ recordLife e₁.after.now) :
    e₁.call.WellBehaved ∧ (idempotencyMap w).LiveAt e₁.call.scope
      ⟨hashRequest e₁.call.data, response, recordLife e₁.after.now⟩ := by
  obtain ⟨-, -, hcall, hevent⟩ := h.of_mem he₁
  exact ⟨hcall, ((run_of_trace h).2 e₁ he₁).live (hstored.live hevent hcall) hlife⟩

/-- In every trace each call sees the records of the earlier calls as a map with expiry. -/
lemma actsAsMap_of_event (h : IdempotencyTrace w₀ log w) {call : IdempotentCall}
    (hcall : call.WellBehaved) : ActsAsMap w₀ log (event IdempotentCall.service call w) := by
  have hbody : ∀ e₁ : IdempotentEvent, e₁.call.WellBehaved →
      (hashRequest e₁.call.data = hashRequest call.data ↔ e₁.call.data.SameBody call.data) := by
    intro e₁ hcall₁
    rw [← Json.canonical_eq_iff _ _ hcall₁.distinctKeys hcall.distinctKeys]
    exact sha256_injective.eq_iff
  have hlook : ∀ e₁ ∈ log, e₁.call.scope = call.scope → ∀ response, StoredResponse e₁ response →
      w.now ≤ recordLife e₁.after.now → e₁.call.WellBehaved ∧ call.service.run w =
        if hashRequest e₁.call.data = hashRequest call.data then (.ok response, w)
        else (.error (.app .idempotencyKeyConflict), w) := by
    intro e₁ he₁ hscope response hstored hlife
    obtain ⟨hcall₁, hlive⟩ := live_of_stored h he₁ hstored hlife
    rw [hscope] at hlive
    exact ⟨hcall₁, service_run_of_live hlive⟩
  refine ⟨fun e₁ he₁ hscope response hstored hlife hsame => ?_,
    fun e₁ he₁ hscope response hstored hlife hother => ?_, fun hstart hexpired => ?_,
    fun r hne => ⟨fun hr => ?_, fun hr => mem_after_of_ne hcall hr hne⟩,
    fun w' hnow hrecords => getCachedResponse_congr hnow hrecords⟩
  · obtain ⟨hcall₁, hrun⟩ := hlook e₁ he₁ hscope response hstored hlife
    rw [if_pos ((hbody e₁ hcall₁).2 hsame)] at hrun
    exact ⟨congrArg Prod.fst hrun, congrArg Prod.snd hrun⟩
  · obtain ⟨hcall₁, hrun⟩ := hlook e₁ he₁ hscope response hstored hlife
    rw [if_neg (mt (hbody e₁ hcall₁).1 hother)] at hrun
    exact ⟨congrArg Prod.fst hrun, congrArg Prod.snd hrun⟩
  · refine ranEffect_of_fresh hcall fun entry hlive => ?_
    obtain ⟨r, hr, hscope⟩ | hnone := record_or_none w call.scope
    · have hcontents := contents_of_mem hr
      rw [hscope, hlive.1] at hcontents
      have hexpires : entry.expiresAt = r.expiresAt := congrArg Entry.expiresAt
        (Option.some.inj hcontents)
      have hdead : r.expiresAt < w.now := by
        obtain hold | ⟨e₁, he₁, hscope₁, ⟨response, hstored⟩, hlife⟩ := record_of_trace h r hr
        · exact hstart r hold hscope
        · rw [hlife]
          exact hexpired e₁ he₁ (hscope₁.trans hscope) response hstored
      rw [← hexpires] at hdead
      exact absurd hlive.2 (not_le.2 hdead)
    · have hcontents := contents_of_none hnone
      rw [hlive.1] at hcontents
      cases hcontents
  · obtain hr | ⟨hscope, -⟩ := mem_of_mem_after hcall hr
    · exact hr
    · exact absurd hscope hne

/-- The table of records refines a map with expiry: along every trace no scope has two records, the
map moves as such a map may, and every call sees the earlier ones through it. -/
theorem actsAsMap_of_trace (h : IdempotencyTrace w₀ log w) :
    (∀ a ∈ w.db.idempotencyRecords.rows, ∀ b ∈ w.db.idempotencyRecords.rows,
        a.scope = b.scope → a = b) ∧
      Run recordLife (idempotencyMap w₀) (idempotencyMap w) ∧
        ∀ later e earlier, log = later ++ e :: earlier → ActsAsMap w₀ earlier e := by
  refine ⟨fun a ha b hb hscope => ?_, (run_of_trace h).1, fun later e earlier hlog => ?_⟩
  · exact w.db.idempotencyRecords.eq_of_conflicts ha hb (decide_eq_true hscope)
  · obtain ⟨htrace, hcall, hevent⟩ := h.earlier hlog
    rw [hevent]
    exact actsAsMap_of_event htrace hcall

end Traces

/-! ### A replay and a conflict -/

def exampleScope : IdempotencyScope where
  actorType := .staff
  actorId := 0
  action := "accounts.create_staff"
  idempotencyKey := "key"

/-- A call whose effect answers 201. -/
def exampleCall (data : Json) : IdempotentCall where
  scope := exampleScope
  data := data
  effect := return (201, none)

lemma wellBehaved_exampleCall {data : Json} (h : data.DistinctKeys) :
    (exampleCall data).WellBehaved := by
  have haction : exampleScope.action.length ≤ 100 := by decide
  have hkey : exampleScope.idempotencyKey.length ≤ 255 := by decide
  refine ⟨h, haction, hkey, trivial, fun w status body w' hrun => ?_⟩
  cases hrun
  decide

def exampleBody : Json := .obj [("email", .str "a@example.com"), ("role", .str "order_staff")]

def reorderedBody : Json := .obj [("role", .str "order_staff"), ("email", .str "a@example.com")]

def otherBody : Json := .obj []

/-- A call, the same call with the keys of its body in the other order, and another body. -/
def threeCalls : List IdempotentEvent × World :=
  Trace.execute IdempotentCall.service
    [exampleCall exampleBody, exampleCall reorderedBody, exampleCall otherBody] ([], {})

/-- The second call is answered from the record, the third is refused. -/
theorem actsAsMap_of_three_calls :
    (threeCalls.1.map Event.result = [.error (.app .idempotencyKeyConflict), .ok (201, none),
      .ok (201, none)]) ∧
    (∀ a ∈ threeCalls.2.db.idempotencyRecords.rows,
        ∀ b ∈ threeCalls.2.db.idempotencyRecords.rows, a.scope = b.scope → a = b) ∧
      Run recordLife (idempotencyMap {}) (idempotencyMap threeCalls.2) ∧
        ∀ later e earlier, threeCalls.1 = later ++ e :: earlier → ActsAsMap {} earlier e := by
  have hexample : exampleBody.DistinctKeys := by
    simp [exampleBody, Json.DistinctKeys, Json.DistinctKeysFields]
  have hreordered : reorderedBody.DistinctKeys := by
    simp [reorderedBody, Json.DistinctKeys, Json.DistinctKeysFields]
  have hother : otherBody.DistinctKeys := by
    simp [otherBody, Json.DistinctKeys, Json.DistinctKeysFields]
  have htrace : IdempotencyTrace {} threeCalls.1 threeCalls.2 :=
    Trace.execute_of_allowed .refl ⟨wellBehaved_exampleCall hexample,
      wellBehaved_exampleCall hreordered, wellBehaved_exampleCall hother, trivial⟩
  exact ⟨by decide, actsAsMap_of_trace htrace⟩

end BePyEco
